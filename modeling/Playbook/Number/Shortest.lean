import Playbook.Number.Decimal

/-!
# Shortest decimals

The decimal of a floating-point number is the shortest one that reads back as that number. The
multiples of a power of ten form a grid; on a coarser grid decimals are shorter. So the search runs
from coarse grids to fine ones and stops at the first grid with a point that rounds to the number.
Only the two points next to the number matter, because the numbers that round to it form an
interval around it. The finest grid looked at contains the number itself, so the search never fails.
-/

namespace Playbook.Number

/-- Which of two equally near decimals is taken. -/
inductive Tie where
  /-- The larger one. -/
  | up
  /-- The one with the even last digit. -/
  | even
  deriving DecidableEq

/-- Numerator and denominator of `num / den` divided by `10 ^ grid`. -/
def ungrid (num den : Nat) (grid : Int) : Nat × Nat :=
  if 0 ≤ grid then (num, den * Nat.pow 10 grid.toNat) else (num * Nat.pow 10 (-grid).toNat, den)

namespace Floating

variable {f : BinaryFormat}

/-- The point of a grid nearest to `significand · 2 ^ exponent`, if it rounds to that number. -/
def hit? (f : BinaryFormat) (tie : Tie) (significand : Nat) (exponent grid : Int) :
    Option Nat :=
  let (num, den) := ratio significand exponent
  let (n, d) := ungrid num den grid
  let below := n / d
  let rest := n % d
  let readsBack (point : Nat) : Bool :=
    match Decimal.toFloating f ⟨false, point, grid⟩ with
    | .finite _ m e _ => m = significand ∧ e = exponent
    | _ => false
  let above := below + 1
  let aboveNearer := d < 2 * rest ∨ (d = 2 * rest ∧ (tie = .up ∨ below % 2 = 1))
  match readsBack below, readsBack above with
  | true, true => some (if aboveNearer then above else below)
  | true, false => some below
  | false, true => some above
  | false, false => none

/-- A grid so coarse that none of its points but zero is near `significand · 2 ^ exponent`. -/
def coarsest (significand : Nat) (exponent : Int) : Int :=
  ((significand.log2 : Int) + 1 + exponent) * 30103 / 100000 + 2

/-- The coarsest grid at or below `grid` with a hit, trying `count` grids. -/
def search (f : BinaryFormat) (tie : Tie) (significand : Nat) (exponent : Int) :
    (count : Nat) → (grid : Int) → Option (Nat × Int)
  | 0, _ => none
  | count + 1, grid =>
    match hit? f tie significand exponent grid with
    | some point => some (point, grid)
    | none => search f tie significand exponent count (grid - 1)

/-- Digits and exponent of the shortest decimal of `significand · 2 ^ exponent`. -/
def shortest (f : BinaryFormat) (tie : Tie) (significand : Nat) (exponent : Int) : Nat × Int :=
  if significand = 0 then (0, 0)
  else
    let first := coarsest significand exponent
    let last := min exponent 0
    (search f tie significand exponent (first - last + 1).toNat first).getD (0, 0)

/-- Digits with the decimal point put where the exponent says, and never an exponent mark. -/
def positional (digits : List Char) (exponent : Int) : List Char :=
  if 0 ≤ exponent then digits ++ List.replicate exponent.toNat '0'
  else
    let places := (-exponent).toNat
    let padded := padLeft '0' (places + 1) digits
    padded.take (padded.length - places) ++ '.' :: padded.drop (padded.length - places)

/-- The plain text of a number: its shortest decimal without an exponent mark, a tie going up. A
whole number has no point. -/
def plain : Floating f → List Char
  | .nan => ['N', 'a', 'N']
  | .infinite negative => (if negative then ['-'] else []) ++ ['i', 'n', 'f']
  | .finite negative significand exponent _ =>
    let (point, grid) := shortest f .up significand exponent
    (if negative then ['-'] else []) ++ positional (digits point) grid

end Floating
end Playbook.Number
