import Playbook.Random
import Playbook.Calendar.Moment
import Playbook.Calendar.Pattern
import Playbook.Number.Whole

/-!
# Random data

Texts, dates, addresses and names drawn from random words. `DataSource` lists what a source of such
data offers, and `DataSource.seeded` draws all of it from the words alone.
-/

namespace Playbook

/-- Something drawn from random words. -/
abbrev Draw (α : Type) := StateM Random α

namespace Draw

/-- A random word. -/
def word : Draw UInt32 := fun random ↦ random.next

/-- A number below a bound. -/
def bounded (bound : UInt32) : Draw UInt32 := fun random ↦ random.bounded bound

/-- A position in a collection of a length. -/
def index (length : Nat) : Draw Nat := fun random ↦ random.index length

/-- One of the members of a list, or the given one if it has none. -/
def oneOf {α : Type} (choices : List α) (default : α) : Draw α := do
  return choices.getD (← index choices.length) default

/-- As many members of a list of characters as asked for. -/
def characters (alphabet : List Char) : (length : Nat) → Draw (List Char)
  | 0 => return []
  | length + 1 => do
    let c ← oneOf alphabet '?'
    return c :: (← characters alphabet length)

end Draw

/-- The characters random text is made of. -/
inductive Charset where
  | letters
  | digits
  | alphanumeric
  deriving DecidableEq

namespace Charset

/-- The small letters. -/
def smallLetters : List Char := "abcdefghijklmnopqrstuvwxyz".toList

/-- The capital letters. -/
def capitalLetters : List Char := "ABCDEFGHIJKLMNOPQRSTUVWXYZ".toList

/-- The digits. -/
def decimalDigits : List Char := "0123456789".toList

/-- The characters of a set. -/
def alphabet : Charset → List Char
  | .letters => smallLetters ++ capitalLetters
  | .digits => decimalDigits
  | .alphanumeric => smallLetters ++ capitalLetters ++ decimalDigits

end Charset

/-! ## Identifiers and addresses -/

/-- A universally unique identifier. -/
structure Uuid where
  /-- The bytes. -/
  bytes : List UInt8
  /-- There are sixteen of them. -/
  length_eq : bytes.length = 16

namespace Uuid

/-- The four bytes of a word, the lowest first. -/
def wordBytes (word : UInt32) : List UInt8 :=
  [word.toUInt8, (word >>> 8).toUInt8, (word >>> 16).toUInt8, (word >>> 24).toUInt8]

/-- The identifier made of random words: all its bits are random but for the version, 4, and the
variant. -/
def ofWords (a b c d : UInt32) : Uuid where
  bytes :=
    ((wordBytes a ++ wordBytes b ++ wordBytes c ++ wordBytes d).modify 6 fun byte ↦
      (byte &&& 0x0f) ||| 0x40).modify 8 fun byte ↦ (byte &&& 0x3f) ||| 0x80
  length_eq := by simp [wordBytes]

/-- The two hexadecimal digits of a byte. -/
def byteText (byte : UInt8) : List Char :=
  [(Nat.toDigits 16 (byte.toNat / 16)).headD '0', (Nat.toDigits 16 (byte.toNat % 16)).headD '0']

/-- The text of an identifier: hyphens divide it after the fourth, sixth, eighth and tenth byte. -/
def text (uuid : Uuid) : List Char :=
  let digits (first count : Nat) : List Char :=
    ((uuid.bytes.drop first).take count).flatMap byteText
  digits 0 4 ++ '-' :: digits 4 2 ++ '-' :: digits 6 2 ++ '-' :: digits 8 2 ++ '-' :: digits 10 6

end Uuid

/-- An address of four octets. -/
structure Address where
  /-- The first octet. -/
  first : UInt8
  /-- The second octet. -/
  second : UInt8
  /-- The third octet. -/
  third : UInt8
  /-- The last octet. -/
  last : UInt8
  deriving DecidableEq

/-- The text of an address: points divide the octets. -/
def Address.text (address : Address) : List Char :=
  Number.digits address.first.toNat ++ '.' :: Number.digits address.second.toNat ++
    '.' :: Number.digits address.third.toNat ++ '.' :: Number.digits address.last.toNat

/-! ## Sources -/

/-- What a source of random data offers. -/
structure DataSource where
  /-- The length of the longest text that there is room for. -/
  capacity : Nat
  /-- A text of a length. There is none that is longer than the capacity: who asks for it panics and
  does not come to this. -/
  characters : Charset → Nat → Draw String
  /-- A moment. -/
  instant : Draw Moment
  /-- An identifier. -/
  uuid : Draw Uuid
  /-- A telephone number that follows a mask. -/
  phone : String → Draw String
  /-- The name of a month. -/
  month : Draw String
  /-- The name of a weekday. -/
  weekday : Draw String
  /-- A mail address at a provider. -/
  email : String → Draw String
  /-- A network address. -/
  ip : Draw Address
  /-- The address of a site. -/
  url : Draw String

namespace Draw

/-- A moment needs no more than whole seconds, here those from 1970 to before 2100. -/
def instantSpan : UInt32 := 4102444800

/-- The first moment of 1970. -/
def epoch : Moment where
  date := .epoch
  time := .midnight

/-- A moment from 1970 to before 2100. -/
def instant : Draw Moment := do
  return (Moment.ofTimestamp? (← bounded instantSpan).toNat).getD epoch

/-- An identifier. -/
def uuid : Draw Uuid := do
  let a ← word
  let b ← word
  let c ← word
  let d ← word
  return .ofWords a b c d

/-- The mask with a digit in the place of every `#`. -/
def masked : (mask : List Char) → Draw (List Char)
  | [] => return []
  | '#' :: rest => do
    let c ← oneOf Charset.decimalDigits '?'
    return c :: (← masked rest)
  | c :: rest => return c :: (← masked rest)

/-- Small letters. -/
def smallWord (length : Nat) : Draw (List Char) := do
  return (← characters Charset.letters.alphabet length).map Char.toLower

/-- An octet between two others. -/
def octet (low high : UInt32) : Draw UInt8 := do
  return (low + (← bounded (high - low + 1))).toUInt8

/-- A network address with no zero and no broadcast octet at either end. -/
def address : Draw Address := do
  let first ← octet 1 223
  let second ← octet 0 255
  let third ← octet 0 255
  let last ← octet 1 254
  return ⟨first, second, third, last⟩

/-- The domains sites are in. -/
def domains : List String := ["com", "net", "org", "info", "biz"]

end Draw

/-- The source that draws everything from the words. The characters of its texts take a byte each,
and no text has `2 ^ 63` bytes or more. How much memory there is below that is not looked at. -/
def DataSource.seeded : DataSource where
  capacity := 0x7fffffffffffffff
  characters charset length := String.ofList <$> Draw.characters charset.alphabet length
  instant := Draw.instant
  uuid := Draw.uuid
  phone mask := String.ofList <$> Draw.masked mask.toList
  month := Draw.oneOf Calendar.monthNames ""
  weekday := Draw.oneOf Calendar.weekdayNames ""
  email provider := do
    let user ← Draw.smallWord 10
    return String.ofList (user ++ '@' :: provider.toList)
  ip := Draw.address
  url := do
    let host ← Draw.smallWord 8
    let domain ← Draw.oneOf Draw.domains ""
    return String.ofList ("https://www.".toList ++ host ++ '.' :: domain.toList)

end Playbook
