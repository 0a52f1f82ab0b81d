/-!
# Words of readers

What is wrong with a text that cannot be read is told by the reader of its format, in its own words.
They are part of messages, but no rule of the format settles them, so that they are a parameter of
every message that repeats them.
-/

namespace Playbook

/-- The words of readers about the texts that they cannot read. -/
structure Wording where
  /-- About a text that holds no options. -/
  options : String → String := fun _ ↦ "not an options document"
  /-- About a text that holds no scenario. -/
  scenario : String → String := fun _ ↦ "not a scenario document"
  /-- About a text that is no XML document. -/
  xml : String → String := fun _ ↦ "it is not well-formed"

end Playbook
