/-!
# Binary floating-point numbers

A finite number of a format is `significand · 2 ^ exponent`, with the significand as long as the
format allows unless the exponent is the smallest one. Every operation here is exact arithmetic on
natural numbers followed by one rounding, `Floating.ofRatio`: to the nearest number of the format,
a tie going to the even significand, and to infinity beyond the largest exponent.
-/

namespace Playbook.Number

/-- A binary format: the bits of its significands and the range of its exponents. -/
structure BinaryFormat where
  /-- Significands have at most this many bits. -/
  precision : Nat
  /-- The exponent of the numbers around zero. -/
  minExponent : Int
  /-- The exponent of the largest numbers. -/
  maxExponent : Int
  deriving DecidableEq

namespace BinaryFormat

/-- The 32-bit format. -/
def single : BinaryFormat := ⟨24, -149, 104⟩

/-- The 64-bit format. -/
def double : BinaryFormat := ⟨53, -1074, 971⟩

/-- `significand · 2 ^ exponent` is a number of the format, written in the one way it has: the
significand uses every bit, or the exponent is as small as it gets. -/
def Holds (f : BinaryFormat) (significand : Nat) (exponent : Int) : Prop :=
  significand < Nat.pow 2 f.precision ∧ f.minExponent ≤ exponent ∧ exponent ≤ f.maxExponent ∧
    (Nat.pow 2 (f.precision - 1) ≤ significand ∨ exponent = f.minExponent)

instance (f : BinaryFormat) (significand : Nat) (exponent : Int) :
    Decidable (f.Holds significand exponent) :=
  inferInstanceAs (Decidable (_ ∧ _ ∧ _ ∧ (_ ∨ _)))

end BinaryFormat

/-- A number of a binary format, an infinity, or no number at all. -/
inductive Floating (f : BinaryFormat) where
  | nan
  | infinite (negative : Bool)
  | finite (negative : Bool) (significand : Nat) (exponent : Int)
      (holds : f.Holds significand exponent)
  deriving DecidableEq

/-- 32-bit floating-point numbers. -/
abbrev Single := Floating .single

/-- 64-bit floating-point numbers. -/
abbrev Double := Floating .double

/-- The integer nearest to `num / den`, the even one of two that are equally near. -/
def roundHalfEven (num den : Nat) : Nat :=
  let quotient := num / den
  let rest := num % den
  if 2 * rest < den then quotient
  else if den < 2 * rest then quotient + 1
  else if quotient % 2 = 0 then quotient
  else quotient + 1

/-- Numerator and denominator of `num / den` divided by `2 ^ exponent`. -/
def unscale (num den : Nat) (exponent : Int) : Nat × Nat :=
  if 0 ≤ exponent then (num, den * Nat.pow 2 exponent.toNat)
  else (num * Nat.pow 2 (-exponent).toNat, den)

namespace Floating

variable {f : BinaryFormat}

/-- The number with the given parts; parts past the format's range make an infinity. -/
def ofParts (f : BinaryFormat) (negative : Bool) (significand : Nat) (exponent : Int) :
    Floating f :=
  if h : f.Holds significand exponent then .finite negative significand exponent h
  else .infinite negative

/-- The zero of the format with the given sign. -/
def zero (f : BinaryFormat) (negative : Bool) : Floating f := ofParts f negative 0 f.minExponent

/-- The exponent at which `num / den` fills the significand of the format, or the smallest one. -/
def exponentOf (f : BinaryFormat) (num den : Nat) : Int :=
  let low : Int := (num.log2 : Int) - den.log2 - f.precision
  let (n, d) := unscale num den low
  max f.minExponent (if n / d < Nat.pow 2 f.precision then low else low + 1)

/-- The number of the format nearest to `num / den`. -/
def ofRatio (f : BinaryFormat) (negative : Bool) (num den : Nat) : Floating f :=
  if num = 0 then zero f negative
  else
    let exponent := exponentOf f num den
    let (n, d) := unscale num den exponent
    let significand := roundHalfEven n d
    if significand = Nat.pow 2 f.precision then
      ofParts f negative (Nat.pow 2 (f.precision - 1)) (exponent + 1)
    else ofParts f negative significand exponent

/-- The number of the format nearest to an integer. -/
def ofInt (f : BinaryFormat) (n : Int) : Floating f := ofRatio f (decide (n < 0)) n.natAbs 1

/-- Numerator and denominator of the size of a finite number. -/
def ratio (significand : Nat) (exponent : Int) : Nat × Nat :=
  if 0 ≤ exponent then (significand * Nat.pow 2 exponent.toNat, 1)
  else (significand, Nat.pow 2 (-exponent).toNat)

/-- The same number in another format, rounded there. -/
def convert {f : BinaryFormat} (g : BinaryFormat) : Floating f → Floating g
  | .nan => .nan
  | .infinite negative => .infinite negative
  | .finite negative significand exponent _ =>
    let (num, den) := ratio significand exponent
    ofRatio g negative num den

/-- Whether a number is neither infinite nor missing. -/
def isFinite : Floating f → Bool
  | .finite .. => true
  | _ => false

/-- Whether a number is zero, of either sign. -/
def isZero : Floating f → Bool
  | .finite _ significand _ _ => significand = 0
  | _ => false

/-- The product, rounded. Only finite factors have one here. -/
def mul (x y : Floating f) : Floating f :=
  match x, y with
  | .finite nx mx ex _, .finite ny my ey _ =>
    let (num, den) := ratio (mx * my) (ex + ey)
    ofRatio f (nx != ny) num den
  | _, _ => .nan

/-- The quotient, rounded. Only finite numbers with a divisor other than zero have one here. -/
def div (x y : Floating f) : Floating f :=
  match x, y with
  | .finite nx mx ex _, .finite ny my ey _ =>
    if my = 0 then .nan
    else
      let (num, den) := unscale mx my (ey - ex)
      ofRatio f (nx != ny) num den
  | _, _ => .nan

/-- The number with its sign turned. -/
def neg : Floating f → Floating f
  | .nan => .nan
  | .infinite negative => .infinite !negative
  | .finite negative significand exponent h => .finite (!negative) significand exponent h

end Floating
end Playbook.Number
