/-!
# Random words

A generator of 32-bit words. Its state advances by a fixed odd step, so it goes through all the
states before one comes back, and a word is the state well mixed. A bounded draw takes words until
one falls below the largest multiple of the bound, so that every remainder is equally likely. It
comes to an end, because the state 0 has the word 0, which every bound accepts.
-/

namespace Playbook

/-- A generator of random words. -/
structure Random where
  /-- The state. -/
  state : UInt32
  deriving DecidableEq

namespace Random

/-- The distance between a state and the next one. -/
def step : UInt32 := 0x6d2b79f5

/-- The number that turns a distance between states into a number of steps. -/
def stepInverse : UInt32 := 0xdc58aa5d

/-- The word of a state. -/
def mix (state : UInt32) : UInt32 :=
  let first := (state ^^^ (state >>> 15)) * (state ||| 1)
  let second := first ^^^ (first + (first ^^^ (first >>> 7)) * (first ||| 61))
  second ^^^ (second >>> 14)

/-- The next word. -/
def next (random : Random) : UInt32 × Random :=
  let state := random.state + step
  (mix state, ⟨state⟩)

/-- How many words there are before the one of the state 0. -/
def remaining (random : Random) : Nat := (-(random.state + step) * stepInverse).toNat

/-- The step and its inverse are one. -/
theorem step_mul_stepInverse : step * stepInverse = 1 := by decide

/-- The state whose word comes next is 0 when no words remain. -/
theorem state_add_step_eq_zero {random : Random} (h : random.remaining = 0) :
    random.state + step = 0 := by
  have hm : -(random.state + step) * stepInverse = 0 := UInt32.toNat_inj.1 h
  calc random.state + step
      = -(-(random.state + step) * stepInverse) * step := by simp only [step, stepInverse]; grind
    _ = 0 := by rw [hm]; rfl

/-- A word takes one from the number that remain, unless none does. -/
theorem remaining_next {random : Random} (h : random.remaining ≠ 0) :
    random.next.2.remaining < random.remaining := by
  have hne : -(random.state + step) * stepInverse ≠ 0 := fun h0 ↦ h (by rw [remaining, h0]; rfl)
  have hstep : -(random.state + step + step) * stepInverse
      = -(random.state + step) * stepInverse - 1 := by simp only [step, stepInverse]; grind
  rw [remaining, remaining, next, hstep]
  generalize -(random.state + step) * stepInverse = m at hne
  have hm : 1 ≤ m.toNat := Nat.one_le_iff_ne_zero.2 fun h0 ↦ hne (UInt32.toNat_inj.1 h0)
  have hone : (1 : UInt32) ≤ m := UInt32.le_iff_toNat_le.2 hm
  rw [UInt32.toNat_sub_of_le _ _ hone]
  exact Nat.sub_lt hm Nat.one_pos

/-- The first word below a threshold. -/
def nextBelow (threshold : Nat) (h : 0 < threshold) (random : Random) : UInt32 × Random :=
  if random.next.1.toNat < threshold then random.next else nextBelow threshold h random.next.2
termination_by random.remaining
decreasing_by
  rename_i hword
  refine remaining_next fun h0 ↦ hword ?_
  rw [next, state_add_step_eq_zero h0]
  exact h

/-- The largest multiple of a bound that 32-bit words reach. -/
def threshold (bound : UInt32) : Nat := UInt32.size / bound.toNat * bound.toNat

/-- Some word is below the threshold of a bound. -/
theorem threshold_pos {bound : UInt32} (h : bound ≠ 0) : 0 < threshold bound := by
  have hpos : 0 < bound.toNat := Nat.pos_of_ne_zero fun h0 ↦ h (UInt32.toNat_inj.1 h0)
  exact Nat.mul_pos (Nat.div_pos (Nat.le_of_lt bound.toNat_lt) hpos) hpos

/-- A number below a bound, each as likely as any other. Nothing is drawn for the bound 0. -/
def bounded (bound : UInt32) (random : Random) : UInt32 × Random :=
  if h : bound = 0 then (0, random)
  else
    let (word, rest) := nextBelow (threshold bound) (threshold_pos h) random
    (word % bound, rest)

/-- A position in a collection of a length. -/
def index (length : Nat) (random : Random) : Nat × Random :=
  let (n, rest) := random.bounded (UInt32.ofNat (min length (UInt32.size - 1)))
  (n.toNat, rest)

end Random
end Playbook
