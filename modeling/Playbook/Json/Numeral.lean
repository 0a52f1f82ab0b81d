import Playbook.Json.Basic

/-!
# JSON numerals

A numeral is a whole part without extra leading zeros, an optional fraction and an optional
exponent. Whole numerals that fit 64 bits are exact. Any other numeral is a float in three steps:
the digits that fit an unsigned 64-bit integer make the coefficient, that is rounded to a float, and
the float is multiplied or divided by the power of ten that remains. A numeral too large for that is
grammatical but denotes nothing.
-/

namespace Playbook.Json

/-- The parts of a numeral. -/
structure Numeral where
  /-- Whether it starts with a minus sign. -/
  negative : Bool
  /-- The digits before the point. -/
  whole : List Char
  /-- The digits after the point, if there is a point. -/
  fraction : Option (List Char)
  /-- The exponent, if there is one. -/
  exponent : Option Int

namespace Numeral

/-- Reads the whole part: a lone zero, or digits that start with another one. -/
def whole? (cs : List Char) : Option (List Char × List Char) :=
  match cs with
  | '0' :: rest =>
    if (rest.headD ' ').isDigit then none else some (['0'], rest)
  | _ =>
    let digits := cs.takeWhile Char.isDigit
    if digits.isEmpty then none else some (digits, cs.dropWhile Char.isDigit)

/-- Reads a fraction, if the text goes on with a point. -/
def fraction? : List Char → Option (Option (List Char) × List Char)
  | '.' :: rest =>
    let digits := rest.takeWhile Char.isDigit
    if digits.isEmpty then none else some (some digits, rest.dropWhile Char.isDigit)
  | cs => some (none, cs)

/-- The sign of an exponent, and what follows it. -/
def exponentSign : List Char → Bool × List Char
  | '-' :: rest => (true, rest)
  | '+' :: rest => (false, rest)
  | cs => (false, cs)

/-- Reads an exponent, if the text goes on with its mark. -/
def exponent? : List Char → Option (Option Int × List Char)
  | [] => some (none, [])
  | c :: cs =>
    if c = 'e' ∨ c = 'E' then
      let (negative, rest) := exponentSign cs
      let digits := rest.takeWhile Char.isDigit
      if digits.isEmpty then none
      else
        let size : Int := Nat.ofDigitChars 10 digits 0
        some (some (if negative then -size else size), rest.dropWhile Char.isDigit)
    else some (none, c :: cs)

/-- Reads a numeral and what follows it. -/
def read? (cs : List Char) : Option (Numeral × List Char) := do
  let (negative, cs) := match cs with
    | '-' :: rest => (true, rest)
    | _ => (false, cs)
  let (whole, cs) ← whole? cs
  let (fraction, cs) ← fraction? cs
  let (exponent, cs) ← exponent? cs
  some (⟨negative, whole, fraction, exponent⟩, cs)

/-! ## What a numeral denotes -/

/-- Coefficients stay below this bound. -/
def coefficientBound : Nat := UInt64.size

/-- Appends digits to a coefficient up to the first one that no longer fits. The second part is
the number of digits taken, the third the number of those left out. -/
def coefficient : (digits : List Char) → (start : Nat) → Nat × Nat × Nat
  | [], start => (start, 0, 0)
  | c :: rest, start =>
    let next := 10 * start + (c.toNat - '0'.toNat)
    if next < coefficientBound then
      let (total, taken, left) := coefficient rest next
      (total, taken + 1, left)
    else (start, 0, rest.length + 1)

/-- The powers of ten that are floats run up to this exponent. -/
def maxPower : Nat := 308

/-- The float nearest to a power of ten. -/
def powerOfTen (n : Nat) : Playbook.Number.Double := .ofRatio .double false (Nat.pow 10 n) 1

/-- Divides by powers of ten, the largest ones first. Zero stays as it is. -/
def shrink (x : Playbook.Number.Double) (places : Nat) : Playbook.Number.Double :=
  if _h : places ≤ maxPower then x.div (powerOfTen places)
  else if x.isZero then x
  else shrink (x.div (powerOfTen maxPower)) (places - maxPower)
termination_by places
decreasing_by
  simp only [maxPower] at _h ⊢
  omega

/-- Coefficient times a power of ten, if it is not too large. -/
def scale? (coefficient : Nat) (exponent : Int) : Option Playbook.Number.Double :=
  let x := Playbook.Number.Floating.ofInt .double coefficient
  if 0 ≤ exponent then
    if exponent ≤ maxPower then
      let y := x.mul (powerOfTen exponent.toNat)
      if y.isFinite then some y else none
    else if x.isZero then some x
    else none
  else some (shrink x (-exponent).toNat)

/-- Exponents beyond this size are not looked at digit by digit: they make the number zero, or too
large. -/
def maxExponent : Int := Int32.maxValue.toInt

/-- The float a numeral with these parts denotes, its sign left out. -/
def size? (coefficient : Nat) (shift exponent : Int) : Option Playbook.Number.Double :=
  if maxExponent < exponent then
    if coefficient = 0 then some (.zero .double false) else none
  else if exponent < -maxExponent then some (.zero .double false)
  else scale? coefficient (shift + exponent)

/-- The number a numeral denotes. -/
def number? (numeral : Numeral) : Option Number :=
  let (start, _, dropped) := coefficient numeral.whole 0
  let signed (x : Playbook.Number.Double) : Number :=
    .double (if numeral.negative then x.neg else x)
  let exact : Int := if numeral.negative then -(start : Int) else start
  if numeral.fraction.isNone ∧ numeral.exponent.isNone ∧ dropped = 0 ∧
      (numeral.negative → start ≠ 0) then
    if h : Fits exact then some (.whole exact h)
    else some (signed (.ofInt .double start))
  else
    let (total, taken, _) := coefficient (numeral.fraction.getD []) start
    (size? total ((dropped : Int) - taken) (numeral.exponent.getD 0)).map signed

end Numeral
end Playbook.Json
