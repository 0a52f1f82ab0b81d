import Playbook.Proofs.RandomWords
import Mathlib.Data.Int.CardIntervalMod
import Mathlib.Data.Set.Card

/-!
# Bounded draws are unbiased

A bounded draw makes its number of the first word that is below a threshold, and passes over those
that are not (`Random.taken?`). The threshold is a multiple of the bound, so that each number below
the bound is made of as many words as any other one. Fewer words are passed over than there are
numbers below the bound, and the threshold is not less than the bound: more than half of all words
are taken.
-/

namespace Playbook

namespace Random

variable {bound : UInt32}

/-! ## The threshold -/

theorem toNat_pos (h : bound ≠ 0) : 0 < bound.toNat :=
  UInt32.lt_iff_toNat_lt.mp (UInt32.pos_iff_ne_zero.mpr h)

theorem threshold_le (bound : UInt32) : threshold bound ≤ UInt32.size := Nat.div_mul_le_self _ _

theorem le_threshold (h : bound ≠ 0) : bound.toNat ≤ threshold bound :=
  Nat.le_mul_of_pos_left _ (Nat.div_pos (Nat.le_of_lt bound.toNat_lt) (toNat_pos h))

/-- What is left of all words after as many whole rounds as there are is less than a round. -/
theorem size_lt_threshold_add (h : bound ≠ 0) : UInt32.size < threshold bound + bound.toNat :=
  Nat.lt_div_mul_add (toNat_pos h)

theorem size_lt_two_mul_threshold (h : bound ≠ 0) : UInt32.size < 2 * threshold bound := by
  have hrest := size_lt_threshold_add h
  have hround := le_threshold h
  omega

/-- Words of 64 bits are wide enough to compute the threshold in. -/
theorem toNat_threshold (bound : UInt32) :
    (((0xffffffff : UInt32).toUInt64 + 1) / bound.toUInt64 * bound.toUInt64).toNat =
      threshold bound := by
  have hsize : ((0xffffffff : UInt32).toUInt64 + 1).toNat = UInt32.size := by decide
  have hlt : threshold bound < 2 ^ 64 := Nat.lt_of_le_of_lt (threshold_le bound) (by decide)
  rw [UInt64.toNat_mul, UInt64.toNat_div, hsize, UInt32.toNat_toUInt64]
  exact Nat.mod_eq_of_lt hlt

/-! ## Word by word -/

/-- What a bounded draw makes of a word. It makes nothing of one that it passes over. -/
def taken? (bound word : UInt32) : Option UInt32 :=
  if word.toNat < threshold bound then some (word % bound) else none

theorem taken?_ne_none_iff {word : UInt32} :
    taken? bound word ≠ none ↔ word.toNat < threshold bound := by
  rw [taken?, ne_eq, ite_eq_right_iff]
  simp

theorem taken?_eq_some_iff {word n : UInt32} :
    taken? bound word = some n ↔ word.toNat < threshold bound ∧ word % bound = n := by
  rw [taken?, Option.ite_none_right_eq_some, Option.some_inj]

theorem taken?_eq_none_iff {word : UInt32} :
    taken? bound word = none ↔ ¬word.toNat < threshold bound := by
  rw [← taken?_ne_none_iff, not_not]

theorem nextBelow_eq_ite {threshold : Nat} (h : 0 < threshold) (random : Random) :
    nextBelow threshold h random =
      if random.next.1.toNat < threshold then random.next
      else nextBelow threshold h random.next.2 :=
  nextBelow.eq_def threshold h random

/-- A draw ends with the first word if something is made of it. -/
theorem bounded_of_taken (h : bound ≠ 0) {random : Random} {n : UInt32}
    (htaken : taken? bound random.next.1 = some n) :
    random.bounded bound = (n, random.next.2) := by
  obtain ⟨hword, rfl⟩ := taken?_eq_some_iff.mp htaken
  rw [bounded, dif_neg h, nextBelow_eq_ite, if_pos hword]

/-- A draw goes on with the next word if nothing is made of the first one. -/
theorem bounded_of_passed (h : bound ≠ 0) {random : Random}
    (hpassed : taken? bound random.next.1 = none) :
    random.bounded bound = random.next.2.bounded bound := by
  rw [bounded, dif_neg h, nextBelow_eq_ite, if_neg (taken?_eq_none_iff.mp hpassed), bounded,
    dif_neg h]

/-! ## How many words -/

/-- There are as many words as numbers below a limit. -/
theorem ncard_words_lt {limit : Nat} (h : limit ≤ UInt32.size) (p : Nat → Prop)
    [DecidablePred p] :
    {word : UInt32 | word.toNat < limit ∧ p word.toNat}.ncard = limit.count p := by
  have himage : UInt32.toNat '' {word : UInt32 | word.toNat < limit ∧ p word.toNat} =
      ((Finset.range limit).filter p : Set Nat) := by
    ext n
    rw [Finset.mem_coe, Finset.mem_filter, Finset.mem_range]
    constructor
    · rintro ⟨word, hword, rfl⟩
      exact hword
    · intro hn
      have hword : (UInt32.ofNat n).toNat = n :=
        UInt32.toNat_ofNat_of_lt' (Nat.lt_of_lt_of_le hn.1 h)
      exact ⟨UInt32.ofNat n, by rwa [Set.mem_ofPred_eq, hword], hword⟩
  have hinjective : Function.Injective UInt32.toNat := fun _ _ ↦ UInt32.toNat_inj.mp
  rw [← Set.ncard_image_of_injective _ hinjective, himage, Set.ncard_coe_finset,
    Nat.count_eq_card_filter_range]

/-- All words below the threshold are taken. -/
theorem ncard_taken (bound : UInt32) :
    {word | taken? bound word ≠ none}.ncard = threshold bound := by
  have hset : {word | taken? bound word ≠ none} =
      {word : UInt32 | word.toNat < threshold bound ∧ True} := by
    ext word
    rw [Set.mem_ofPred_eq, Set.mem_ofPred_eq, taken?_ne_none_iff, and_true]
  rw [hset, ncard_words_lt (threshold_le bound) fun _ ↦ True, Nat.count_true]

/-- The words below the threshold are whole rounds of remainders, and each number comes once in a
round. -/
theorem ncard_taken_eq {n : UInt32} (h : n < bound) :
    {word | taken? bound word = some n}.ncard = UInt32.size / bound.toNat := by
  have hlt : n.toNat < bound.toNat := UInt32.lt_iff_toNat_lt.mp h
  have hpos : 0 < bound.toNat := Nat.zero_lt_of_lt hlt
  have hset : {word | taken? bound word = some n} =
      {word : UInt32 | word.toNat < threshold bound ∧ word.toNat ≡ n.toNat [MOD bound.toNat]} := by
    ext word
    rw [Set.mem_ofPred_eq, Set.mem_ofPred_eq, taken?_eq_some_iff, Nat.ModEq, Nat.mod_eq_of_lt hlt,
      ← UInt32.toNat_mod, UInt32.toNat_inj]
  have hround : threshold bound % bound.toNat = 0 := Nat.mul_mod_left _ _
  rw [hset, ncard_words_lt (threshold_le bound) (· ≡ n.toNat [MOD bound.toNat]),
    Nat.count_modEq_card _ hpos, hround, if_neg (Nat.not_lt_zero _), threshold,
    Nat.mul_div_cancel _ hpos, Nat.add_zero]

end Random

/-- **Bounded draws are unbiased.** Each bound has a threshold, which words of 64 bits are wide
enough to compute. A draw makes something of a word exactly if the word is below the threshold, and
goes on to the next one otherwise. These are more than half of all words, and each number below the
bound is made of equally many of them, as many as there are whole rounds of numbers in all
words. -/
theorem Random.bounded_unbiased {bound : UInt32} (h : bound ≠ 0) :
    (2 ^ 31 < threshold bound ∧ threshold bound ≤ 2 ^ 32 ∧
      (((0xffffffff : UInt32).toUInt64 + 1) / bound.toUInt64 * bound.toUInt64).toNat =
        threshold bound) ∧
    (∀ random : Random, random.bounded bound =
      match taken? bound random.next.1 with
      | some n => (n, random.next.2)
      | none => random.next.2.bounded bound) ∧
    {word | taken? bound word ≠ none}.ncard = threshold bound ∧
    ∀ n < bound, {word | taken? bound word = some n}.ncard = 2 ^ 32 / bound.toNat := by
  have hhalf := size_lt_two_mul_threshold h
  have hsize : UInt32.size = 2 * 2 ^ 31 := by decide
  refine ⟨⟨by omega, threshold_le bound, toNat_threshold bound⟩, fun random ↦ ?_,
    ncard_taken bound, fun n hn ↦ ncard_taken_eq hn⟩
  cases hword : taken? bound random.next.1 with
  | none => exact bounded_of_passed h hword
  | some n => exact bounded_of_taken h hword

/-- All words make one round of numbers below a bound that is more than half of them: each number is
made of a single word. -/
theorem Random.bounded_unbiased_one_round :
    (3000000000 : UInt32) ≠ 0 ∧
      {word | taken? 3000000000 word ≠ none}.ncard = 3000000000 ∧
      {word | taken? 3000000000 word = some 2999999999}.ncard = 1 := by
  have hne : (3000000000 : UInt32) ≠ 0 := by decide
  obtain ⟨-, -, htaken, hnumber⟩ := Random.bounded_unbiased hne
  exact ⟨hne, htaken, hnumber 2999999999 (by decide)⟩

end Playbook
