/-!
# Searching a text

Substring search, replacement, splitting and joining over lists of characters. Each is one
structural recursion, so the laws about them are inductions on the text.
-/

namespace Playbook.Text

/-- What follows `head` in a text that starts with it. -/
def after? : (head text : List Char) → Option (List Char)
  | [], text => some text
  | _ :: _, [] => none
  | h :: hs, c :: cs => if h = c then after? hs cs else none

/-- Whether `piece` occurs somewhere in the text. -/
def occursIn (piece : List Char) : List Char → Bool
  | [] => piece.isEmpty
  | c :: cs => piece.isPrefixOf (c :: cs) || occursIn piece cs

/-- The leftmost occurrences of `pattern` give way to `replacement`; an occurrence that overlaps one
already replaced is not one. `skip` counts the characters of an occurrence still to be passed. -/
def replaceFrom (pattern replacement : List Char) : (skip : Nat) → List Char → List Char
  | _, [] => []
  | skip + 1, _ :: cs => replaceFrom pattern replacement skip cs
  | 0, c :: cs =>
    if pattern.isPrefixOf (c :: cs) then
      replacement ++ replaceFrom pattern replacement (pattern.length - 1) cs
    else c :: replaceFrom pattern replacement 0 cs

/-- Every occurrence of a non-empty `pattern`, from the left, replaced. The replacement is not
searched again. -/
def replaceAll (pattern replacement text : List Char) : List Char :=
  replaceFrom pattern replacement 0 text

/-- The text cut at the first `separator`, if it has one. -/
def cutAt? (separator : Char) : List Char → Option (List Char × List Char)
  | [] => none
  | c :: cs =>
    if c = separator then some ([], cs)
    else (cutAt? separator cs).map fun (before, rest) ↦ (c :: before, rest)

/-- The pieces with `separator` between neighbours. -/
def joinWith (separator : Char) : List (List Char) → List Char
  | [] => []
  | [piece] => piece
  | piece :: next :: rest => piece ++ separator :: joinWith separator (next :: rest)

/-! ## On strings -/

/-- The pieces of a string between the characters of `separators`, empty ones kept. -/
def splitAny (separators : List Char) (text : String) : List String :=
  (text.toList.splitOnP fun c ↦ separators.contains c).map String.ofList

end Playbook.Text
