import Playbook.Number.Whole
import Playbook.Number.Binary

/-!
# Decimal literals of floating-point numbers

A decimal is `digits · 10 ^ exponent` with a sign. Its literal has digits with an optional point,
at least one digit on either side of it, and an optional exponent; infinities and the missing number
are spelled as words in any letter case. A literal denotes the number of the format nearest to its
exact value.
-/

namespace Playbook.Number

/-- A signed decimal number `± digits · 10 ^ exponent`. -/
structure Decimal where
  /-- Whether a minus sign is in front. -/
  negative : Bool
  /-- The digits, read as one natural number. -/
  digits : Nat
  /-- The power of ten they count. -/
  exponent : Int
  deriving DecidableEq, Repr

namespace Decimal

/-- Beyond this many places before or after the point a decimal is larger than every finite number
of the formats, or nearer to zero than to any of them. -/
def maxPlaces : Int := 400

/-- The number of the format nearest to a decimal. -/
def toFloating (f : BinaryFormat) (d : Decimal) : Floating f :=
  let places : Int := ((Number.digits d.digits).length : Int) + d.exponent
  if d.digits = 0 then .zero f d.negative
  else if maxPlaces < places then .infinite d.negative
  else if places < -maxPlaces then .zero f d.negative
  else if 0 ≤ d.exponent then .ofRatio f d.negative (d.digits * Nat.pow 10 d.exponent.toNat) 1
  else .ofRatio f d.negative d.digits (Nat.pow 10 (-d.exponent).toNat)

/-- An exponent with its mark, or nothing. -/
def exponent? : List Char → Option Int
  | [] => some 0
  | c :: cs => if c = 'e' ∨ c = 'E' then integer? cs else none

/-- The digits before the point, those after it, and the exponent. -/
def parts? (cs : List Char) : Option (List Char × List Char × Int) :=
  let whole := cs.takeWhile Char.isDigit
  match cs.dropWhile Char.isDigit with
  | '.' :: rest =>
    let fraction := rest.takeWhile Char.isDigit
    if whole.isEmpty && fraction.isEmpty then none
    else (exponent? (rest.dropWhile Char.isDigit)).map fun e ↦ (whole, fraction, e)
  | rest =>
    if whole.isEmpty then none else (exponent? rest).map fun e ↦ (whole, [], e)

/-- The decimal a literal without a sign stands for. -/
def unsigned? (negative : Bool) (cs : List Char) : Option Decimal :=
  (parts? cs).map fun (whole, fraction, exponent) ↦
    ⟨negative, Nat.ofDigitChars 10 (whole ++ fraction) 0, exponent - fraction.length⟩

end Decimal

namespace Floating

/-- A literal without a sign: a word or a decimal. -/
def unsigned? (f : BinaryFormat) (negative : Bool) (cs : List Char) : Option (Floating f) :=
  let word := cs.map Char.toLower
  if word = ['i', 'n', 'f'] ∨ word = ['i', 'n', 'f', 'i', 'n', 'i', 't', 'y'] then
    some (.infinite negative)
  else if word = ['n', 'a', 'n'] then some .nan
  else (Decimal.unsigned? negative cs).map (Decimal.toFloating f)

/-- The number of the format a literal stands for. -/
def ofLiteral? (f : BinaryFormat) : List Char → Option (Floating f)
  | '-' :: cs => unsigned? f true cs
  | '+' :: cs => unsigned? f false cs
  | cs => unsigned? f false cs

end Floating
end Playbook.Number
