/-!
# Whole numbers in text

Reading and writing integers in decimal. A literal is an optional sign and one or more ASCII
digits, and nothing else; the width a caller asks for decides only whether the value fits.
-/

namespace Playbook.Number

/-- One or more digits, read in base ten. -/
def natural? (cs : List Char) : Option Nat :=
  if !cs.isEmpty && cs.all Char.isDigit then some (Nat.ofDigitChars 10 cs 0) else none

/-- Digits after an optional `+` or `-`. -/
def integer? : List Char → Option Int
  | '-' :: cs => (natural? cs).map fun n ↦ -(n : Int)
  | '+' :: cs => (natural? cs).map fun n ↦ (n : Int)
  | cs => (natural? cs).map fun n ↦ (n : Int)

/-- Digits after an optional `+`: a minus sign has no place before a count. -/
def count? : List Char → Option Nat
  | '+' :: cs => natural? cs
  | cs => natural? cs

/-- The 32-bit integer an exact one denotes, if it fits. -/
def toInt32? (n : Int) : Option Int32 :=
  if Int32.minValue.toInt ≤ n ∧ n ≤ Int32.maxValue.toInt then some (Int32.ofInt n) else none

/-- The 64-bit integer an exact one denotes, if it fits. -/
def toInt64? (n : Int) : Option Int64 :=
  if Int64.minValue.toInt ≤ n ∧ n ≤ Int64.maxValue.toInt then some (Int64.ofInt n) else none

/-- The unsigned 32-bit integer an exact one denotes, if it fits. -/
def toUInt32? (n : Int) : Option UInt32 :=
  if 0 ≤ n ∧ n < UInt32.size then some (UInt32.ofNat n.toNat) else none

/-- The unsigned 64-bit integer an exact one denotes, if it fits. -/
def toUInt64? (n : Int) : Option UInt64 :=
  if 0 ≤ n ∧ n < UInt64.size then some (UInt64.ofNat n.toNat) else none

/-- A literal whose value fits 32 bits. -/
def int32? (cs : List Char) : Option Int32 := (integer? cs).bind toInt32?

/-- A literal whose value fits 64 bits. -/
def int64? (cs : List Char) : Option Int64 := (integer? cs).bind toInt64?

/-- The largest position a collection index can name. -/
def maxIndex : Nat := UInt64.size - 1

/-- A count that can be a position in a collection. -/
def index? (cs : List Char) : Option Nat := (count? cs).filter (· ≤ maxIndex)

/-- The decimal digits of a natural number, without leading zeros. -/
def digits (n : Nat) : List Char := Nat.toDigits 10 n

/-- An integer in decimal, with a sign only when it is negative. -/
def decimal (n : Int) : List Char := if n < 0 then '-' :: digits n.natAbs else digits n.natAbs

/-- Fills a text up to `width` characters from the left. -/
def padLeft (fill : Char) (width : Nat) (cs : List Char) : List Char :=
  List.replicate (width - cs.length) fill ++ cs

/-- A natural number in at least `width` digits. -/
def zeroPadded (width n : Nat) : List Char := padLeft '0' width (digits n)

/-- An integer in at least `width` characters, its sign among them; zeros go after the sign. -/
def signedZeroPadded (width : Nat) (n : Int) : List Char :=
  if n < 0 then '-' :: zeroPadded (width - 1) n.natAbs else zeroPadded width n.natAbs

end Playbook.Number
