import Playbook.Json.Written
import Playbook.Json.Numeral

/-!
# Reading JSON texts

`Written.read?` reads a whole text as a document and refuses everything the grammar does not allow:
text after the document, control characters inside strings, commas before a closing bracket. The
nested readers take fuel, and twice the length of the text is always enough, because a reader that
calls another one on the same text is called again only after a character.
-/

namespace Playbook.Json

/-- The blanks of the grammar. -/
def isSpace (c : Char) : Bool := c = ' ' ∨ c = '\n' ∨ c = '\t' ∨ c = '\r'

/-- A text without the blanks it starts with. -/
def skipSpace (cs : List Char) : List Char := cs.dropWhile isSpace

/-! ## Strings -/

/-- The value of a hexadecimal digit in either letter case. -/
def hexValue? (c : Char) : Option Nat :=
  if '0' ≤ c ∧ c ≤ '9' then some (c.toNat - '0'.toNat)
  else if 'a' ≤ c ∧ c ≤ 'f' then some (c.toNat - 'a'.toNat + 10)
  else if 'A' ≤ c ∧ c ≤ 'F' then some (c.toNat - 'A'.toNat + 10)
  else none

/-- The value of four hexadecimal digits. -/
def hexValue4? (a b c d : Char) : Option Nat := do
  let a ← hexValue? a
  let b ← hexValue? b
  let c ← hexValue? c
  let d ← hexValue? d
  some (((a * 16 + b) * 16 + c) * 16 + d)

/-- What a character after a backslash stands for. -/
def escaped? (c : Char) : Option Nat :=
  match c with
  | '"' | '\\' | '/' => some c.toNat
  | 'b' => some 0x08
  | 'f' => some 0x0C
  | 'n' => some 0x0A
  | 'r' => some 0x0D
  | 't' => some 0x09
  | _ => none

/-- The code points of a string up to its closing quote, and what follows it. A surrogate can only
come from an escape. -/
def codes? : List Char → Option (List Nat × List Char)
  | [] => none
  | '"' :: rest => some ([], rest)
  | '\\' :: 'u' :: a :: b :: c :: d :: rest => do
    let code ← hexValue4? a b c d
    let (codes, rest) ← codes? rest
    some (code :: codes, rest)
  | '\\' :: c :: rest => do
    let code ← escaped? c
    let (codes, rest) ← codes? rest
    some (code :: codes, rest)
  | c :: rest =>
    if c.toNat < 0x20 then none
    else do
      let (codes, rest) ← codes? rest
      some (c.toNat :: codes, rest)

/-- Whether a code is the first half of a surrogate pair. -/
def isHighSurrogate (code : Nat) : Bool := 0xD800 ≤ code && code < 0xDC00

/-- Whether a code is the second half of a surrogate pair. -/
def isLowSurrogate (code : Nat) : Bool := 0xDC00 ≤ code && code < 0xE000

/-- The characters of a list of codes, each surrogate pair making one. A surrogate without its
other half is no character. -/
def characters? : List Nat → Option (List Char)
  | [] => some []
  | [code] =>
    if isHighSurrogate code || isLowSurrogate code then none else some [Char.ofNat code]
  | code :: next :: rest =>
    if isLowSurrogate code then none
    else if isHighSurrogate code then
      if isLowSurrogate next then
        (characters? rest).map
          (Char.ofNat (0x10000 + (code - 0xD800) * 0x400 + (next - 0xDC00)) :: ·)
      else none
    else (characters? (next :: rest)).map (Char.ofNat code :: ·)

/-- Reads a string whose opening quote is already read. -/
def string? (cs : List Char) : Option (Option String × List Char) :=
  (codes? cs).map fun (codes, rest) ↦ ((characters? codes).map String.ofList, rest)

/-! ## Documents -/

namespace Written

/-- Reads a document that is neither an array nor an object. -/
def scalar? (cs : List Char) : Option (Written × List Char) :=
  match cs with
  | 'n' :: 'u' :: 'l' :: 'l' :: rest => some (.null, rest)
  | 't' :: 'r' :: 'u' :: 'e' :: rest => some (.bool true, rest)
  | 'f' :: 'a' :: 'l' :: 's' :: 'e' :: rest => some (.bool false, rest)
  | '"' :: rest => (string? rest).map fun (s, rest) ↦ (.string s, rest)
  | cs => (Numeral.read? cs).map fun (numeral, rest) ↦ (.number numeral.number?, rest)

/-- Reads the name of a member and the colon after it. -/
def name? : List Char → Option (Option String × List Char)
  | '"' :: rest => do
    let (name, rest) ← string? rest
    match skipSpace rest with
    | ':' :: rest => some (name, skipSpace rest)
    | _ => none
  | _ => none

mutual

/-- Reads a document that starts at once, and what follows it. -/
def document? : (fuel : Nat) → List Char → Option (Written × List Char)
  | 0, _ => none
  | fuel + 1, '[' :: cs =>
    match skipSpace cs with
    | ']' :: rest => some (.array [], rest)
    | cs => (items? fuel cs).map fun (items, rest) ↦ (.array items, rest)
  | fuel + 1, '{' :: cs =>
    match skipSpace cs with
    | '}' :: rest => some (.object [], rest)
    | cs => (members? fuel cs).map fun (members, rest) ↦ (.object members, rest)
  | _ + 1, cs => scalar? cs

/-- Reads the items of an array and its closing bracket. -/
def items? : (fuel : Nat) → List Char → Option (List Written × List Char)
  | 0, _ => none
  | fuel + 1, cs => do
    let (item, rest) ← document? fuel cs
    match skipSpace rest with
    | ']' :: rest => some ([item], rest)
    | ',' :: rest => do
      let (items, rest) ← items? fuel (skipSpace rest)
      some (item :: items, rest)
    | _ => none

/-- Reads the members of an object and its closing brace. -/
def members? : (fuel : Nat) → List Char → Option (List (Option String × Written) × List Char)
  | 0, _ => none
  | fuel + 1, cs => do
    let (name, rest) ← name? cs
    let (value, rest) ← document? fuel rest
    match skipSpace rest with
    | '}' :: rest => some ([(name, value)], rest)
    | ',' :: rest => do
      let (members, rest) ← members? fuel (skipSpace rest)
      some ((name, value) :: members, rest)
    | _ => none

end

/-- Reads a whole text. -/
def read? (cs : List Char) : Option Written := do
  let (document, rest) ← document? (2 * cs.length + 1) (skipSpace cs)
  if (skipSpace rest).isEmpty then some document else none

end Written

/-- The value a text denotes. -/
def parse? (text : String) : Option Json :=
  (Written.read? text.toList).bind (Written.value? maxDepth)

end Playbook.Json
