import Playbook.Json.Basic
import Playbook.Number.Shortest

/-!
# JSON texts of values

`Json.compact` writes a value without a blank between its tokens. A string escapes the quote, the
backslash and the control characters and nothing else. A float is its shortest decimal, a tie going
to the even digit: with a point when its size is moderate, with an exponent mark otherwise. What is
no finite number is written `null`.
-/

namespace Playbook.Json

/-! ## Strings -/

/-- A lower-case hexadecimal digit. -/
def hexDigit (n : Nat) : Char := (Nat.toDigits 16 (n % 16)).headD '0'

/-- A character inside a string. -/
def escape (c : Char) : List Char :=
  if c = '"' then ['\\', '"']
  else if c = '\\' then ['\\', '\\']
  else if c = '\x08' then ['\\', 'b']
  else if c = '\t' then ['\\', 't']
  else if c = '\n' then ['\\', 'n']
  else if c = '\x0c' then ['\\', 'f']
  else if c = '\r' then ['\\', 'r']
  else if c.toNat < 0x20 then
    ['\\', 'u', '0', '0', hexDigit (c.toNat / 16), hexDigit c.toNat]
  else [c]

/-- A string between quotes. -/
def quoted (s : String) : List Char := '"' :: (s.toList.flatMap escape ++ ['"'])

/-! ## Numbers -/

/-- The powers of ten of leading digits that are written without an exponent mark. -/
structure Moderate where
  /-- The smallest one. -/
  least : Int
  /-- The largest one. -/
  most : Int

/-- 64-bit floats use a point from `1e-5` to below `1e16`. -/
def Moderate.double : Moderate := ⟨-5, 15⟩

/-- 32-bit floats use a point from `1e-6` to below `1e13`. -/
def Moderate.single : Moderate := ⟨-6, 12⟩

/-- A decimal with a point and at least one digit on either side of it. -/
def pointed (digits : List Char) (exponent : Int) : List Char :=
  Number.Floating.positional digits exponent ++ if 0 ≤ exponent then ['.', '0'] else []

/-- A decimal with one digit before the point and an exponent mark. -/
def marked (digits : List Char) (leading : Int) : List Char :=
  digits.take 1 ++ (if digits.length ≤ 1 then [] else '.' :: digits.drop 1) ++
    'e' :: (if leading < 0 then [] else ['+']) ++ Number.decimal leading

/-- The text of a float. -/
def floating {f : Number.BinaryFormat} (moderate : Moderate) : Number.Floating f → List Char
  | .nan | .infinite _ => ['n', 'u', 'l', 'l']
  | .finite negative significand exponent _ =>
    let (point, grid) := Number.Floating.shortest f .even significand exponent
    let digits := Number.digits point
    let leading := (digits.length : Int) + grid - 1
    (if negative then ['-'] else []) ++
      if moderate.least ≤ leading ∧ leading ≤ moderate.most then pointed digits grid
      else marked digits leading

/-- The text of a number. -/
def Number.text : Number → List Char
  | .whole n _ => Playbook.Number.decimal n
  | .double x => floating .double x
  | .single x => floating .single x

/-! ## Values -/

mutual

/-- The text of a value, without blanks. -/
def compact : Json → List Char
  | .null => ['n', 'u', 'l', 'l']
  | .bool true => ['t', 'r', 'u', 'e']
  | .bool false => ['f', 'a', 'l', 's', 'e']
  | .number n => n.text
  | .string s => quoted s
  | .array items => '[' :: (compactItems items ++ [']'])
  | .object members => '{' :: (compactMembers members ++ ['}'])

/-- The items of an array, with commas between them. -/
def compactItems : List Json → List Char
  | [] => []
  | [item] => compact item
  | item :: next :: rest => compact item ++ ',' :: compactItems (next :: rest)

/-- The members of an object, with commas between them. -/
def compactMembers : List (String × Json) → List Char
  | [] => []
  | [(name, value)] => quoted name ++ ':' :: compact value
  | (name, value) :: next :: rest =>
    quoted name ++ ':' :: (compact value ++ ',' :: compactMembers (next :: rest))

end

/-- The text of a value as a string. -/
def render (value : Json) : String := String.ofList (compact value)

end Playbook.Json
