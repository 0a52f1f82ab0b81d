import Playbook.Text.Blank

/-!
# Placeholders

A placeholder is a variable name in braces. The name holds no brace and no quote and neither starts
nor ends with a blank, so that JSON and braces in prose are left alone. Every text is a sequence of
segments, placeholders and characters that stand for themselves.
-/

namespace Playbook

namespace Placeholder

/-- Whether a character may be in the name of a placeholder. -/
def isNameChar (c : Char) : Bool := c ≠ '{' && c ≠ '}' && c ≠ '"' && c ≠ '\''

/-- Whether a text is the name of a placeholder. -/
def isName (name : List Char) : Bool :=
  name.all isNameChar && name.head?.any (fun c ↦ !Text.isBlank c) &&
    name.getLast?.any (fun c ↦ !Text.isBlank c)

/-- The name of the placeholder a text starts with. A name ends before the first character that it
cannot hold, so there is at most one to look at. -/
def nameAt? : List Char → Option (List Char)
  | '{' :: cs =>
    let name := cs.takeWhile isNameChar
    if isName name ∧ (cs.drop name.length).head? = some '}' then some name else none
  | _ => none

/-- The text of a placeholder. -/
def written (name : String) : List Char := '{' :: (name.toList ++ ['}'])

end Placeholder

/-- A piece of a text. -/
inductive Segment where
  /-- A character that stands for itself. -/
  | literal (c : Char)
  /-- The place of a variable. -/
  | placeholder (name : String)
  deriving DecidableEq

namespace Segment

open Placeholder

/-- The text of a segment. -/
def text : Segment → List Char
  | .literal c => [c]
  | .placeholder name => written name

/-- The name in a placeholder. -/
def name? : Segment → Option String
  | .literal _ => none
  | .placeholder name => some name

/-- The segments of a text from a place on. `skip` counts the characters of a placeholder still to
be passed. -/
def scanFrom : (skip : Nat) → List Char → List Segment
  | _, [] => []
  | skip + 1, _ :: cs => scanFrom skip cs
  | 0, c :: cs =>
    match nameAt? (c :: cs) with
    | some name => .placeholder (String.ofList name) :: scanFrom (name.length + 1) cs
    | none => .literal c :: scanFrom 0 cs

/-- The segments of a text. -/
def scan (text : List Char) : List Segment := scanFrom 0 text

end Segment

namespace Placeholder

/-- The names of the placeholders of a text, from left to right. -/
def names (text : List Char) : List String := (Segment.scan text).filterMap Segment.name?

/-- The first placeholder of a text. -/
def first? (text : List Char) : Option String := (names text).head?

/-- Whether a text has a placeholder. -/
def occursIn (text : List Char) : Bool := (first? text).isSome

end Placeholder
end Playbook
