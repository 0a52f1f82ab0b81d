import Playbook.Xml.Character
import Playbook.Text.Search

/-!
# Markup of XML documents

The pieces a document is made of: tags with their attributes, references, comments, processing
instructions and text. A reader takes one piece off the front of a text.
-/

namespace Playbook.Xml

/-- A name in two parts, divided by a colon. The first part may be empty. -/
structure QName where
  /-- The part that stands for a namespace. -/
  space : List Char
  /-- The part inside the namespace. -/
  localPart : List Char
  deriving DecidableEq

/-- An attribute with its value, where references and white space are resolved. -/
structure Attribute where
  /-- The name. -/
  name : QName
  /-- The value. -/
  value : List Char

/-- A piece of the content of an element. -/
inductive Markup where
  /-- A comment, a processing instruction or text. -/
  | content
  /-- A start tag, which may be the end of its element too. -/
  | open (name : QName) (attributes : List Attribute) (empty : Bool)
  /-- An end tag. -/
  | close (name : QName)

/-! ## Characters and names -/

/-- A text without the white space it starts with. -/
def skipSpace (cs : List Char) : List Char := cs.dropWhile isSpace

/-- The text up to the first place where `stop` holds of what follows, and what follows there. The
characters on the way, and the one at that place, have to be characters of documents. -/
def upTo? (stop : List Char → Bool) : List Char → Option (List Char × List Char)
  | [] => some ([], [])
  | c :: cs =>
    if !isChar c then none
    else if stop (c :: cs) then some ([], c :: cs)
    else (upTo? stop cs).map fun (text, rest) ↦ (c :: text, rest)

/-- The text up to a closing mark, and what follows the mark. -/
def through? (mark : String) (cs : List Char) : Option (List Char × List Char) := do
  let (text, rest) ← upTo? (fun cs ↦ mark.toList.isPrefixOf cs) cs
  return (text, ← Text.after? mark.toList rest)

/-- A name that may hold colons anywhere. -/
def name? (cs : List Char) : Option (List Char × List Char) :=
  if cs.head?.any isNameStart then some (cs.takeWhile isNameChar, cs.dropWhile isNameChar)
  else none

/-- A name with at most one colon. Each part has to start like a name; the first may be empty. -/
def qname? (cs : List Char) : Option (QName × List Char) :=
  let written := cs.takeWhile isNameChar
  let rest := cs.dropWhile isNameChar
  let (space, localPart) := (Text.cutAt? ':' written).getD ([], written)
  if localPart.contains ':' then none
  else if space.head?.all isNameStart ∧ localPart.head?.any isNameStart then
    some (⟨space, localPart⟩, rest)
  else none

/-! ## References -/

/-- The value of digits in a base, if there is a digit and the value fits 32 bits. -/
def codePoint? (base : Nat) (digits : List Char) : Option Nat :=
  let value := digits.foldl (fun n c ↦ base * n + digit c) 0
  if digits.isEmpty ∨ UInt32.size ≤ value then none else some value
where
  /-- The value of a digit. -/
  digit (c : Char) : Nat :=
    if c.isDigit then c.toNat - '0'.toNat else c.toLower.toNat - 'a'.toNat + 10

/-- Whether a character is a hexadecimal digit. -/
def isHexDigit (c : Char) : Bool :=
  c.isDigit || ('a' ≤ c && c ≤ 'f') || ('A' ≤ c && c ≤ 'F')

/-- The character with a number. What is no character's number stands for the replacement
character. -/
def charOf? (n : Nat) : Option Char :=
  let c := if n < 0xD800 ∨ (0xDFFF < n ∧ n < 0x110000) then Char.ofNat n else '\ufffd'
  if isChar c then some c else none

/-- The named references. -/
def entity? (name : List Char) : Option Char :=
  if name = ['l', 't'] then some '<'
  else if name = ['g', 't'] then some '>'
  else if name = ['a', 'm', 'p'] then some '&'
  else if name = ['q', 'u', 'o', 't'] then some '"'
  else if name = ['a', 'p', 'o', 's'] then some '\''
  else none

/-- The character of a reference, its ampersand already read and its semicolon still to come. -/
def referenced? : List Char → Option (Char × List Char)
  | '#' :: 'x' :: cs =>
    ((codePoint? 16 (cs.takeWhile isHexDigit)).bind charOf?).map fun c ↦
      (c, cs.dropWhile isHexDigit)
  | '#' :: cs =>
    ((codePoint? 10 (cs.takeWhile Char.isDigit)).bind charOf?).map fun c ↦
      (c, cs.dropWhile Char.isDigit)
  | cs => do
    let (name, rest) ← name? cs
    return (← entity? name, rest)

/-- The character of a reference whose ampersand is already read. -/
def reference? (cs : List Char) : Option (Char × List Char) := do
  let (c, rest) ← referenced? cs
  return (c, ← Text.after? [';'] rest)

/-- A text with its references resolved and every other white space a blank. Fuel for as many steps
as the text has characters is enough. -/
def resolve? : (fuel : Nat) → List Char → Option (List Char)
  | _, [] => some []
  | 0, _ => none
  | fuel + 1, '&' :: cs => do
    let (c, rest) ← reference? cs
    return c :: (← resolve? fuel rest)
  | fuel + 1, '\r' :: '\n' :: cs => resolve? fuel ('\n' :: cs)
  | fuel + 1, c :: cs => do return (if isSpace c then ' ' else c) :: (← resolve? fuel cs)

/-- A text with its references resolved. -/
def resolved? (cs : List Char) : Option (List Char) := resolve? cs.length cs

/-! ## Tags -/

/-- An equals sign with white space around it. -/
def equals? (cs : List Char) : Option (List Char) :=
  (Text.after? ['='] (skipSpace cs)).map skipSpace

/-- A name and a quoted value as it is written. -/
def assignment? (cs : List Char) : Option ((QName × List Char) × List Char) := do
  let (name, rest) ← qname? cs
  match ← equals? rest with
  | quote :: rest =>
    if quote = '"' ∨ quote = '\'' then
      let (value, rest) ← upTo? (fun cs ↦ cs.head?.any fun c ↦ c = quote || c = '<') rest
      return ((name, value), ← Text.after? [quote] rest)
    else none
  | [] => none

/-- The attributes of a tag up to its end, and whether the tag ends its element. White space stands
before each of them. Fuel for as many steps as the text has characters is enough. -/
def attributes? : (fuel : Nat) → List Char → Option ((List Attribute × Bool) × List Char)
  | 0, _ => none
  | fuel + 1, cs =>
    match skipSpace cs with
    | '/' :: '>' :: rest => some (([], true), rest)
    | '>' :: rest => some (([], false), rest)
    | rest =>
      if cs.head?.any isSpace then do
        let ((name, written), rest) ← assignment? rest
        let value ← resolved? written
        let ((others, empty), rest) ← attributes? fuel rest
        return ((⟨name, value⟩ :: others, empty), rest)
      else none

/-! ## Pieces -/

/-- A comment whose opening mark is already read. Two hyphens in it would end it. -/
def comment? (cs : List Char) : Option (List Char) := do
  let (text, rest) ← through? "-->" cs
  if Text.occursIn ['-', '-'] text || text.getLast? = some '-' then none else some rest

/-- A processing instruction whose opening mark is already read. -/
def instruction? (cs : List Char) : Option (List Char) := do
  if "xml ".toList.isPrefixOf cs then none
  else
    let (_, rest) ← name? cs
    let (_, rest) ← through? "?>" (skipSpace rest)
    return rest

/-- The text up to the next tag. -/
def text? (cs : List Char) : Option (List Char) := do
  let (text, rest) ← upTo? (fun cs ↦ cs.head? = some '<') cs
  if Text.occursIn "]]>".toList text then none
  else
    let _ ← resolved? text
    return rest

/-- An end tag whose opening mark is already read. -/
def endTag? (cs : List Char) : Option (Markup × List Char) := do
  let (name, rest) ← qname? cs
  return (.close name, ← Text.after? ['>'] (skipSpace rest))

/-- A start tag whose opening mark is already read. -/
def startTag? (cs : List Char) : Option (Markup × List Char) := do
  let (name, rest) ← qname? cs
  let ((attributes, empty), rest) ← attributes? (rest.length + 1) rest
  return (.open name attributes empty, rest)

/-- The next piece of the content of an element. -/
def markup? (cs : List Char) : Option (Markup × List Char) :=
  match cs with
  | '<' :: '!' :: rest =>
    match Text.after? ['-', '-'] rest, Text.after? "[CDATA[".toList rest with
    | some rest, _ => (comment? rest).map fun rest ↦ (.content, rest)
    | none, some rest => (through? "]]>" rest).map fun (_, rest) ↦ (.content, rest)
    | none, none => none
  | '<' :: '?' :: rest => (instruction? rest).map fun rest ↦ (.content, rest)
  | '<' :: '/' :: rest => endTag? rest
  | '<' :: rest => startTag? rest
  | cs => (text? cs).map fun rest ↦ (.content, rest)

end Playbook.Xml
