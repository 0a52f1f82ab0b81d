import Playbook.Collection
import Mathlib.Data.Nat.Find
import Mathlib.Logic.Function.Iterate

/-!
# Random words one after the other

The states of a generator lie at equal distances, so the state after `n` words is known without the
words between. The distance is odd, and the states come round to 0 within `2 ^ 32` words. The word
of the state 0 is 0, which is below every threshold that is not 0 itself: a bounded draw that waits
for a word below its threshold does not wait forever, and takes the first one there is.
-/

namespace Playbook

namespace Random

/-! ## States and words -/

/-- The generator after a number of words. It is an iterate of a function that stays closed, or the
kernel would set out to compute words. -/
def after (random : Random) (words : Nat) : Random := (fun random ↦ random.next.2)^[words] random

/-- The word that comes after a number of others. -/
def word (random : Random) (words : Nat) : UInt32 := (random.after words).next.1

theorem after_succ (random : Random) (words : Nat) :
    random.after (words + 1) = random.next.2.after words := Function.iterate_succ_apply _ _ _

theorem word_zero (random : Random) : random.word 0 = random.next.1 := by
  rw [word, after, Function.iterate_zero_apply]

theorem word_succ (random : Random) (words : Nat) :
    random.word (words + 1) = random.next.2.word words := by rw [word, word, after_succ]

/-- The states lie at equal distances. -/
theorem state_after (random : Random) (words : Nat) :
    (random.after words).state = random.state + UInt32.ofNat words * step := by
  induction words generalizing random with
  | zero => exact (UInt32.add_zero _).symm
  | succ words ih =>
    have hnext : random.next.2.state = random.state + step := rfl
    rw [after_succ, ih, hnext, UInt32.ofNat_add]
    grind

/-- The word 0 comes when no words remain. -/
theorem word_remaining (random : Random) : random.word random.remaining = 0 := by
  have hstate : (random.after random.remaining).state + step = 0 := by
    rw [state_after, remaining, UInt32.ofNat_toNat]
    have hone := step_mul_stepInverse
    grind
  have hword : random.word random.remaining =
      mix ((random.after random.remaining).state + step) := rfl
  rw [hword, hstate]
  rfl

/-! ## The first word below a threshold -/

/-- There is a first word below a threshold, and it comes soon enough. -/
theorem exists_first_word_lt {threshold : Nat} (h : 0 < threshold) (random : Random) :
    ∃ n < UInt32.size,
      (∀ m < n, threshold ≤ (random.word m).toNat) ∧ (random.word n).toNat < threshold := by
  have hsome : (random.word random.remaining).toNat < threshold := by
    rw [word_remaining]
    exact h
  have hexists : ∃ n, (random.word n).toNat < threshold := ⟨_, hsome⟩
  refine ⟨Nat.find hexists, ?_, fun m hm ↦ ?_, Nat.find_spec hexists⟩
  · exact Nat.lt_of_le_of_lt (Nat.find_min' hexists hsome) (UInt32.toNat_lt_size _)
  · exact Nat.le_of_not_lt (Nat.find_min hexists hm)

/-- The draw passes over the words that are not below the threshold. -/
theorem nextBelow_eq {threshold n : Nat} (h : 0 < threshold) {random : Random}
    (hpassed : ∀ m < n, threshold ≤ (random.word m).toNat)
    (hword : (random.word n).toNat < threshold) :
    nextBelow threshold h random = (random.word n, random.after (n + 1)) := by
  induction n generalizing random with
  | zero =>
    rw [word_zero] at hword ⊢
    unfold nextBelow
    rw [if_pos hword, after_succ, after, Function.iterate_zero_apply]
  | succ n ih =>
    have hfirst : ¬random.next.1.toNat < threshold := by
      rw [← word_zero]
      exact Nat.not_lt_of_le (hpassed 0 (Nat.succ_pos n))
    unfold nextBelow
    rw [if_neg hfirst]
    have hrest : ∀ m < n, threshold ≤ (random.next.2.word m).toNat := by
      intro m hm
      rw [← word_succ]
      exact hpassed (m + 1) (Nat.succ_lt_succ hm)
    rw [word_succ] at hword ⊢
    rw [ih hrest hword, after_succ random]

theorem bounded_eq {bound : UInt32} (h : bound ≠ 0) {n : Nat} {random : Random}
    (hpassed : ∀ m < n, threshold bound ≤ (random.word m).toNat)
    (hword : (random.word n).toNat < threshold bound) :
    random.bounded bound = (random.word n % bound, random.after (n + 1)) := by
  rw [bounded, dif_neg h, nextBelow_eq (threshold_pos h) hpassed hword]

/-! ## Draws in range -/

theorem bounded_lt {bound : UInt32} (h : bound ≠ 0) (random : Random) :
    (random.bounded bound).1 < bound := by
  unfold bounded
  rw [dif_neg h]
  -- The word has to be a variable, or the kernel would set out to find it.
  rcases nextBelow (threshold bound) (threshold_pos h) random with ⟨word, rest⟩
  exact UInt32.mod_lt word (UInt32.pos_iff_ne_zero.mpr h)

/-- A position lies in the collection, also in one with more places than there are words. -/
theorem index_lt {length : Nat} (h : 0 < length) (random : Random) :
    (random.index length).1 < length := by
  have hsize : min length (UInt32.size - 1) < UInt32.size :=
    Nat.lt_of_le_of_lt (Nat.min_le_right _ _) (by decide)
  have hbound :
      (UInt32.ofNat (min length (UInt32.size - 1))).toNat = min length (UInt32.size - 1) :=
    UInt32.toNat_ofNat_of_lt hsize
  have hpos : 0 < min length (UInt32.size - 1) := Nat.lt_min.mpr ⟨h, by decide⟩
  have hne : UInt32.ofNat (min length (UInt32.size - 1)) ≠ 0 := by
    intro hzero
    rw [hzero] at hbound
    exact absurd hbound.symm (Nat.ne_of_gt hpos)
  have hlt := UInt32.lt_iff_toNat_lt.mp (bounded_lt hne random)
  rw [hbound] at hlt
  exact Nat.lt_of_lt_of_le hlt (Nat.min_le_left _ _)

end Random

namespace Variable

variable {v : Variable}

/-- Of values one is taken at the position that is drawn. -/
theorem exists_pick_eq_ok {values : List Value} (h : values ≠ []) (random : Random) :
    ∃ value ∈ values, v.pick values random = (.ok value, (random.index values.length).2) := by
  have hlt := Random.index_lt (List.length_pos_iff.mpr h) random
  have hempty : ¬values.isEmpty := fun hnil ↦ h (List.isEmpty_iff.mp hnil)
  refine ⟨values[(random.index values.length).1], List.getElem_mem hlt, ?_⟩
  rw [pick, if_neg hempty]
  simp only [List.getElem?_eq_getElem hlt]

theorem exists_randomItem_eq_ok {items : List Value} (hitems : v.items = .ok items)
    (h : items ≠ []) (random : Random) : ∃ item ∈ items, (v.randomItem random).1 = .ok item := by
  obtain ⟨item, hmem, hpick⟩ := exists_pick_eq_ok (v := v) h random
  refine ⟨item, hmem, ?_⟩
  rw [randomItem, hitems]
  exact congrArg Prod.fst hpick

theorem exists_randomValue_eq_ok {entries : Entries Value} (hentries : v.entries = .ok entries)
    (h : entries ≠ []) (random : Random) :
    ∃ entry ∈ entries, (v.randomValue random).1 = .ok entry.2 := by
  have hvalues : entries.map Prod.snd ≠ [] := fun hnil ↦ h (List.map_eq_nil_iff.mp hnil)
  obtain ⟨value, hmem, hpick⟩ := exists_pick_eq_ok (v := v) hvalues random
  obtain ⟨entry, hentry, rfl⟩ := List.mem_map.mp hmem
  refine ⟨entry, hentry, ?_⟩
  rw [randomValue, hentries]
  exact congrArg Prod.fst hpick

end Variable

/-- **Draws come to an end, and in range.** From every state a bounded draw passes over fewer words
than there are states, takes the first one below the threshold of its bound and yields a number
below the bound. A position that is drawn lies in the collection, so that something is always taken
from a sequence or a mapping with something in it. -/
theorem Random.draws_end_in_range (random : Random) :
    (∀ bound : UInt32, bound ≠ 0 →
      ∃ n < UInt32.size,
        (∀ m < n, threshold bound ≤ (random.word m).toNat) ∧
        (random.word n).toNat < threshold bound ∧
        random.bounded bound = (random.word n % bound, random.after (n + 1)) ∧
        (random.bounded bound).1 < bound) ∧
    (∀ length : Nat, 0 < length → (random.index length).1 < length) ∧
    (∀ (v : Variable) (items : List Value), v.items = .ok items → items ≠ [] →
      ∃ item ∈ items, (v.randomItem random).1 = .ok item) ∧
    ∀ (v : Variable) (entries : Entries Value), v.entries = .ok entries → entries ≠ [] →
      ∃ entry ∈ entries, (v.randomValue random).1 = .ok entry.2 := by
  refine ⟨fun bound hbound ↦ ?_, fun length hlength ↦ index_lt hlength random,
    fun v items hitems h ↦ Variable.exists_randomItem_eq_ok hitems h random,
    fun v entries hentries h ↦ Variable.exists_randomValue_eq_ok hentries h random⟩
  obtain ⟨n, hn, hpassed, hword⟩ := exists_first_word_lt (threshold_pos hbound) random
  exact ⟨n, hn, hpassed, hword, bounded_eq hbound hpassed hword, bounded_lt hbound random⟩

/-- Of the states 4 and onwards the first word is passed over for the bound 3000000000, and the
draw still comes to an end. -/
theorem Random.draws_end_in_range_passing :
    let random : Random := ⟨4⟩
    let v : Variable := ⟨"v", .sequence .bool [.bool false, .bool true]⟩
    let w : Variable := ⟨"w", .mapping .bool [("a", .bool true)]⟩
    threshold 3000000000 ≤ (random.word 0).toNat ∧
      (random.bounded 3000000000).1 < 3000000000 ∧
      (random.index 18446744073709551615).1 < 18446744073709551615 ∧
      (∃ item ∈ [Value.bool false, .bool true], (v.randomItem random).1 = .ok item) ∧
      ∃ entry ∈ [("a", Value.bool true)], (w.randomValue random).1 = .ok entry.2 := by
  intro random v w
  obtain ⟨hbounded, hindex, hitem, hvalue⟩ := Random.draws_end_in_range random
  obtain ⟨-, -, -, -, -, hlt⟩ := hbounded 3000000000 (by decide)
  exact ⟨by decide +kernel, hlt, hindex _ (by decide), hitem v _ rfl (by decide),
    hvalue w _ rfl (by decide)⟩

end Playbook
