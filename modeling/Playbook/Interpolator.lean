import Playbook.Options
import Playbook.Placeholder
import Playbook.Variables

/-!
# Interpolation

Interpolation puts the texts of variables in the place of their placeholders. A text that is put in
may have placeholders of its own and is expanded in turn, down to a greatest depth; a name that
comes up again inside its own expansion is an error at any depth. What a pass puts together may
spell new placeholders, so passes are repeated until none is left or a pass changes nothing.
-/

namespace Playbook

/-- How placeholders are resolved. -/
structure Interpolator where
  /-- How deep placeholders are followed, and how often a text is gone over again. -/
  maxDepth : Nat
  /-- What becomes of a placeholder that has no variable. -/
  missing : Missing
  /-- There is at least one level. -/
  maxDepth_pos : 0 < maxDepth := by decide

namespace Interpolator

/-- The interpolator for a depth; it has at least one level. -/
def of (maxDepth : Nat) (missing : Missing) : Interpolator where
  maxDepth := max maxDepth 1
  missing := missing
  maxDepth_pos := Nat.lt_of_lt_of_le Nat.one_pos (Nat.le_max_right _ _)

/-- The interpolator without options. -/
def default : Interpolator where
  maxDepth := 10
  missing := .fail

/-- The interpolator for options. -/
def ofOptions (options : Options) : Interpolator :=
  of options.maxInterpolationDepth.toNat options.missingPlaceholder

/-- The same interpolator, but placeholders without a variable stay as they are. -/
def lenient (interpolator : Interpolator) : Interpolator := { interpolator with missing := .keep }

/-! ## One pass -/

/-- What a segment becomes. `chain` holds the names whose texts are being expanded, the outermost
first, and `expandNested` expands a text inside a longer chain. -/
def expandSegment (values : Variables) (missing : Missing)
    (expandNested : List String → List Char → Except VariableError (List Char))
    (chain : List String) : Segment → Except VariableError (List Char)
  | .literal c => .ok [c]
  | .placeholder name =>
    match values.text? name with
    | none =>
      match missing with
      | .fail => .error (.notFound name)
      | .keep => .ok (Placeholder.written name)
    | some text =>
      if name ∈ chain then .error (.circular (chain ++ [name]))
      else if Placeholder.occursIn text then expandNested (chain ++ [name]) text
      else .ok text

/-- A text with its placeholders expanded, `depth` more levels down. -/
def expand (values : Variables) (missing : Missing) :
    (depth : Nat) → (chain : List String) → List Char → Except VariableError (List Char)
  | 0, chain, text =>
    ((Segment.scan text).mapM
      (expandSegment values missing (fun chain _ ↦ .error (.circular chain)) chain)).map
      List.flatten
  | depth + 1, chain, text =>
    ((Segment.scan text).mapM
      (expandSegment values missing (expand values missing depth) chain)).map List.flatten

/-! ## Repeated passes -/

/-- Goes over a text again while it has placeholders and changes, `left` times at most. `seen` holds
the first placeholder of every text gone over before. -/
def settle (pass : List Char → Except VariableError (List Char)) :
    (left : Nat) → (seen : List String) → List Char → Except VariableError (List Char)
  | left, seen, text =>
    match Placeholder.first? text, left with
    | none, _ => .ok text
    | some name, 0 => .error (.circular (seen ++ [name]))
    | some name, left + 1 => do
      let next ← pass text
      if next = text then .ok text else settle pass left (seen ++ [name]) next

variable (interpolator : Interpolator)

/-- One pass over a text. -/
def pass (values : Variables) (text : List Char) : Except VariableError (List Char) :=
  expand values interpolator.missing interpolator.maxDepth [] text

/-- A text with its placeholders resolved. -/
def resolve (values : Variables) (text : List Char) : Except VariableError (List Char) :=
  if Placeholder.occursIn text then do
    let text ← interpolator.pass values text
    settle (interpolator.pass values) interpolator.maxDepth [] text
  else .ok text

end Interpolator
end Playbook
