import Playbook.Value
import Playbook.Calendar.Scan
import Playbook.Number.Decimal

/-!
# Reading values from text

A text becomes a value of a kind, or it cannot: numbers, truth values and dates may have blanks
around them; strings and objects take a text as it is; sequences are divided by commas, and the
entries of mappings by commas and colons. A decimal number may have a comma for its point.
-/

namespace Playbook

/-! ## Dates -/

namespace Moment

/-- The patterns of a date with a time that are understood without being told, in the order they
are tried. -/
def defaultPatterns : List String :=
  ["%Y-%m-%dT%H:%M:%S%.f", "%Y-%m-%d %H:%M:%S%.f", "%d.%m.%Y %H:%M:%S%.f", "%d.%m.%Y %H:%M"]

/-- The patterns of a date alone that are understood without being told, in the order they are
tried. -/
def defaultDatePatterns : List String := ["%Y-%m-%d", "%d.%m.%Y"]

/-- The moment a text is by a pattern. -/
def ofPattern? (text : List Char) (pattern : String) : Option Moment :=
  (Calendar.items? pattern.toList).bind fun items ↦ Moment.scan? items text

/-- The midnight a text is by a pattern for dates. -/
def ofDatePattern? (text : List Char) (pattern : String) : Option Moment :=
  (Calendar.items? pattern.toList).bind fun items ↦
    (Date.scan? items text).map fun date ↦ ⟨date, .midnight⟩

/-- The moment a text is by the first pattern that fits, whether for a date with a time or for a
date alone. -/
def ofPatterns? (text : List Char) (patterns datePatterns : List String) : Option Moment :=
  match patterns.findSome? (ofPattern? text) with
  | some m => some m
  | none => datePatterns.findSome? (ofDatePattern? text)

/-- Reads a date, with a time or without, by a pattern or by the default ones. -/
def parse (text : String) (pattern : Option String) : Except VariableError Moment :=
  let trimmed := Text.trim text.toList
  let found := match pattern with
    | some pattern => ofPatterns? trimmed [pattern] [pattern]
    | none => ofPatterns? trimmed defaultPatterns defaultDatePatterns
  match found with
  | some m => .ok m
  | none => .error (.invalidCast text Kind.dateTime.name)

end Moment

/-! ## Numbers -/

/-- A floating-point number with blanks around it. If a text without a point has a single comma,
that is its point. -/
def Number.Floating.ofText? (f : Number.BinaryFormat) (text : List Char) :
    Option (Number.Floating f) :=
  let trimmed := Text.trim text
  match Number.Floating.ofLiteral? f trimmed with
  | some x => some x
  | none =>
    if trimmed.count ',' = 1 ∧ !trimmed.contains '.' then
      Number.Floating.ofLiteral? f (trimmed.map fun c ↦ if c = ',' then '.' else c)
    else none

namespace Value

/-! ## Collections -/

/-- The texts between the commas of a text. An empty text has none. -/
def cells (text : String) : List String :=
  if text = "" then [] else Text.splitAny [','] text

/-- The entry a text with a colon stands for. -/
def entry? (cell : String) : Option (String × Value) :=
  (Text.cutAt? ':' cell.toList).map fun (key, value) ↦
    (String.ofList key, .string (String.ofList value))

/-! ## Reading -/

/-- A truth value in any letter case, with blanks around it. -/
def bool? (text : List Char) : Option Bool :=
  let word := (Text.trim text).map Char.toLower
  if word = ['t', 'r', 'u', 'e'] then some true
  else if word = ['f', 'a', 'l', 's', 'e'] then some false
  else none

/-- Reads a text as a value of a kind. -/
def parse (text : String) (kind : Kind) : Except VariableError Value :=
  let cast (value : Option Value) : Except VariableError Value :=
    match value with
    | some value => .ok value
    | none => .error (.invalidCast text kind.name)
  let cs := text.toList
  match kind with
  | .string => .ok (.string text)
  | .object => .ok (.object (.string text))
  | .int => cast ((Number.int32? (Text.trim cs)).map .int)
  | .long => cast ((Number.int64? (Text.trim cs)).map .long)
  | .float => cast ((Number.Floating.ofText? .single cs).map .float)
  | .double => cast ((Number.Floating.ofText? .double cs).map .double)
  | .bool => cast ((bool? cs).map .bool)
  | .dateTime => (Moment.parse text none).map .dateTime
  | .sequence => ofItems .string ((cells text).map .string)
  | .mapping =>
    match (cells text).mapM entry? with
    | some pairs => ofEntries .string (Entries.ofPairs pairs)
    | none => .error (.invalidCast text kind.name)

/-- Reads a text as a value of a named kind. -/
def parseNamed (text kindName : String) : Except VariableError Value :=
  match Kind.ofName? kindName with
  | some kind => parse text kind
  | none => .error (.unknownKind kindName)

/-- Reads every cell as a value of a kind; the first cell that is none ends it. -/
def parseCells (cells : List String) (kind : Kind) : Except VariableError Value := do
  ofItems kind (← cells.mapM (parse · kind))

/-- The sequence of the texts between the separators of a text, empty ones kept. -/
def split (text separators : String) : Value :=
  .sequence .string ((Text.splitAny separators.toList text).map .string)

/-- Reads a number of the narrowest kind: 32 bits, 64 bits, or a float for all else. -/
def parseNumber (text : String) : Except VariableError Value :=
  let trimmed := Text.trim text.toList
  match Number.int32? trimmed, Number.int64? trimmed, Number.Floating.ofText? .double trimmed with
  | some n, _, _ => .ok (.int n)
  | none, some n, _ => .ok (.long n)
  | none, none, some x => .ok (.double x)
  | none, none, none => .error (.invalidCast text "number")

end Value
end Playbook
