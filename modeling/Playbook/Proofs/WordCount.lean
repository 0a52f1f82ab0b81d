import Playbook.Proofs.GeneratedData
import Playbook.Proofs.UnbiasedDraws

/-!
# The state counts the words

The state of a generator moves on by the same step with every word, so it tells how many words have
been drawn, up to a multiple of `2 ^ 32`. A request may pass over words, and it is not known from
the request how many.

So the words are counted where they come from a list. There a request is answered from the front of
the list and leaves the rest (`Request.read?`), and it can be seen which words it has used up: those
that are passed over with the others, and none where nothing is drawn. A run of requests to a
generator uses up as many words as there are in the list that the same requests read to its end.
-/

namespace Playbook

/-! ## States and words one after the other -/

namespace Random

/-- The next words. -/
def words (random : Random) : (count : Nat) → List UInt32
  | 0 => []
  | count + 1 => random.next.1 :: random.next.2.words count

theorem length_words (random : Random) (count : Nat) : (random.words count).length = count := by
  induction count generalizing random with
  | zero => rfl
  | succ count ih => rw [words, List.length_cons, ih]

theorem after_zero (random : Random) : random.after 0 = random := rfl

theorem after_add (random : Random) (count more : Nat) :
    random.after (count + more) = (random.after count).after more := by
  rw [after, after, after, Nat.add_comm, Function.iterate_add_apply]

theorem words_add (random : Random) (count more : Nat) :
    random.words (count + more) = random.words count ++ (random.after count).words more := by
  induction count generalizing random with
  | zero => rw [Nat.zero_add, after_zero]; rfl
  | succ count ih => rw [Nat.succ_add, words, words, ih, after_succ, List.cons_append]

/-- The step is odd, so that it can be divided by. -/
theorem mul_step_inj {a b : UInt32} : a * step = b * step ↔ a = b := by
  refine ⟨fun h ↦ ?_, fun h ↦ h ▸ rfl⟩
  calc a = a * step * stepInverse := by rw [UInt32.mul_assoc, step_mul_stepInverse, UInt32.mul_one]
    _ = b * step * stepInverse := by rw [h]
    _ = b := by rw [UInt32.mul_assoc, step_mul_stepInverse, UInt32.mul_one]

/-- A state comes back after `2 ^ 32` words and not before. -/
theorem state_after_eq_iff (random : Random) (count count' : Nat) :
    (random.after count).state = (random.after count').state ↔
      count % 2 ^ 32 = count' % 2 ^ 32 := by
  rw [state_after, state_after, UInt32.add_right_inj, mul_step_inj, ← UInt32.toNat_inj,
    UInt32.toNat_ofNat', UInt32.toNat_ofNat']

theorem toNat_state_after (random : Random) (count : Nat) :
    (random.after count).state.toNat =
      (random.state.toNat + count * 0x6d2b79f5) % 2 ^ 32 := by
  have hstep : step.toNat = 0x6d2b79f5 := rfl
  rw [state_after, UInt32.toNat_add, UInt32.toNat_mul, UInt32.toNat_ofNat', hstep]
  simp only [Nat.mod_mul_mod, Nat.add_mod_mod]

end Random

/-! ## Requests to a generator, and to a list of words -/

/-- The first number that is made of a word for a bound, and the words behind that one. -/
def Random.firstTaken? (bound : UInt32) : List UInt32 → Option (UInt32 × List UInt32)
  | [] => none
  | word :: rest =>
    match taken? bound word with
    | some n => some (n, rest)
    | none => firstTaken? bound rest

namespace Request

/-- What a generator answers a request with. -/
def draw : Request → Draw Nat
  | .word => UInt32.toNat <$> Draw.word
  | .bounded bound => UInt32.toNat <$> Draw.bounded bound
  | .index length => Draw.index length

/-- A number below a bound from a list of words. Nothing is read for the bound 0. -/
def readBounded? (bound : UInt32) : StateT (List UInt32) Option UInt32 := fun words ↦
  if bound = 0 then some (0, words) else Random.firstTaken? bound words

/-- What a list of words answers a request with, if there are enough of them. -/
def read? : Request → StateT (List UInt32) Option Nat
  | .word => fun words ↦ words.head?.map fun first ↦ (first.toNat, words.tail)
  | .bounded bound => UInt32.toNat <$> readBounded? bound
  | .index length => UInt32.toNat <$> readBounded? (UInt32.ofNat (min length (UInt32.size - 1)))

end Request

/-! ## Reading ahead of a generator -/

/-- Whether reading a list of words comes to what drawing does: it does not look at what it leaves,
and of the next words of a generator some number is read to the end, which is what the draw has used
up. -/
structure Draw.IsReadBy {α : Type} (draw : Draw α) (read : StateT (List UInt32) Option α) :
    Prop where
  append : ∀ {words rest a}, read words = some (a, rest) →
    ∀ more, read (words ++ more) = some (a, rest ++ more)
  reads : ∀ random : Random, ∃ count, (draw random).2 = random.after count ∧
    read (random.words count) = some ((draw random).1, [])

namespace Draw.IsReadBy

variable {α β : Type} {draw : Draw α} {read : StateT (List UInt32) Option α}

theorem pure (a : α) : Draw.IsReadBy (Pure.pure a) (Pure.pure a) where
  append h more := by cases h; rfl
  reads random := ⟨0, rfl, rfl⟩

theorem bind {next : α → Draw β} {readNext : α → StateT (List UInt32) Option β}
    (h : draw.IsReadBy read) (hnext : ∀ a, (next a).IsReadBy (readNext a)) :
    (draw >>= next).IsReadBy (read >>= readNext) where
  append {words rest b} hread more := by
    obtain ⟨⟨a, between⟩, ha, hb⟩ := Option.bind_eq_some_iff.mp hread
    exact Option.bind_eq_some_iff.mpr ⟨_, h.append ha more, (hnext a).append hb more⟩
  reads random := by
    obtain ⟨count, hstate, hread⟩ := h.reads random
    obtain ⟨more, hstate', hread'⟩ := (hnext (draw random).1).reads (random.after count)
    have hdraw : (draw >>= next) random = next (draw random).1 (random.after count) := by
      rw [← hstate]
      rfl
    have hfirst := h.append hread ((random.after count).words more)
    rw [← Random.words_add, List.nil_append] at hfirst
    rw [hdraw]
    exact ⟨count + more, hstate'.trans (random.after_add count more).symm,
      Option.bind_eq_some_iff.mpr ⟨_, hfirst, hread'⟩⟩

theorem map (h : draw.IsReadBy read) (f : α → β) : Draw.IsReadBy (f <$> draw) (f <$> read) := by
  rw [map_eq_pure_bind, map_eq_pure_bind]
  exact h.bind fun a ↦ pure (f a)

theorem mapM {ρ : Type} {draw : ρ → Draw α} {read : ρ → StateT (List UInt32) Option α}
    (h : ∀ request, (draw request).IsReadBy (read request)) (requests : List ρ) :
    Draw.IsReadBy (requests.mapM draw) (requests.mapM read) := by
  induction requests with
  | nil => exact pure []
  | cons request requests ih =>
    rw [List.mapM_cons, List.mapM_cons]
    exact (h request).bind fun a ↦ ih.bind fun rest ↦ pure (a :: rest)

/-- Only one number of words is read to the end. -/
theorem count_unique (h : draw.IsReadBy read) {random : Random} {count count' : Nat} {a a' : α}
    (hread : read (random.words count) = some (a, []))
    (hread' : read (random.words count') = some (a', [])) : count = count' := by
  wlog hle : count ≤ count' generalizing count count' a a'
  · exact (this hread' hread (Nat.le_of_not_le hle)).symm
  obtain ⟨more, rfl⟩ := Nat.exists_eq_add_of_le hle
  rw [Random.words_add, h.append hread] at hread'
  have hnil : (random.after count).words more = [] := congrArg Prod.snd (Option.some.inj hread')
  rw [← Random.length_words (random.after count) more, hnil, List.length_nil, Nat.add_zero]

end Draw.IsReadBy

/-! ## What requests use up -/

namespace Random

variable {bound : UInt32}

theorem firstTaken?_append {words rest : List UInt32} {n : UInt32}
    (h : firstTaken? bound words = some (n, rest)) (more : List UInt32) :
    firstTaken? bound (words ++ more) = some (n, rest ++ more) := by
  induction words with
  | nil => cases h
  | cons word words ih =>
    rw [firstTaken?] at h
    rw [List.cons_append, firstTaken?]
    cases hword : taken? bound word with
    | some n' =>
      rw [hword] at h
      cases h
      rfl
    | none =>
      rw [hword] at h
      exact ih h

/-- A bounded draw reads up to the first word that is not passed over. The induction is on the words
before it. -/
theorem bounded_and_firstTaken_eq (h : bound ≠ 0) {passed : Nat} {random : Random} {n : UInt32}
    (hpassed : ∀ m < passed, taken? bound (random.word m) = none)
    (htaken : taken? bound (random.word passed) = some n) :
    random.bounded bound = (n, random.after (passed + 1)) ∧
      firstTaken? bound (random.words (passed + 1)) = some (n, []) := by
  induction passed generalizing random with
  | zero =>
    rw [word_zero] at htaken
    rw [bounded_of_taken h htaken, words, firstTaken?, htaken]
    exact ⟨rfl, rfl⟩
  | succ passed ih =>
    have hfirst : taken? bound random.next.1 = none := by
      rw [← word_zero]
      exact hpassed 0 (Nat.succ_pos passed)
    have hrest : ∀ m < passed, taken? bound (random.next.2.word m) = none := by
      intro m hm
      rw [← word_succ]
      exact hpassed (m + 1) (Nat.succ_lt_succ hm)
    rw [word_succ] at htaken
    rw [bounded_of_passed h hfirst, words, firstTaken?, hfirst, after_succ]
    exact ih hrest htaken

end Random

theorem Draw.bounded_isReadBy (bound : UInt32) :
    (Draw.bounded bound).IsReadBy (Request.readBounded? bound) := by
  by_cases hbound : bound = 0
  · rw [hbound]
    exact Draw.IsReadBy.pure 0
  have hreads : Request.readBounded? bound = Random.firstTaken? bound :=
    funext fun words ↦ if_neg hbound
  rw [hreads]
  refine ⟨Random.firstTaken?_append, fun random ↦ ?_⟩
  obtain ⟨passed, -, hpassed, hword⟩ :=
    Random.exists_first_word_lt (Random.threshold_pos hbound) random
  have hnone : ∀ m < passed, Random.taken? bound (random.word m) = none := fun m hm ↦
    Random.taken?_eq_none_iff.mpr (Nat.not_lt_of_le (hpassed m hm))
  obtain ⟨hdraw, hread⟩ := Random.bounded_and_firstTaken_eq hbound hnone
    (Random.taken?_eq_some_iff.mpr ⟨hword, rfl⟩)
  rw [Draw.bounded, hdraw]
  exact ⟨passed + 1, rfl, hread⟩

theorem Request.draw_isReadBy (request : Request) : request.draw.IsReadBy request.read? := by
  cases request with
  | word =>
    refine ⟨fun {words rest n} hread more ↦ ?_, fun random ↦ ⟨1, rfl, rfl⟩⟩
    cases words with
    | nil => cases hread
    | cons first words =>
      cases hread
      rfl
  | bounded bound => exact (Draw.bounded_isReadBy bound).map _
  | index length => exact (Draw.bounded_isReadBy _).map _

/-- **The state counts the words.** Of the words that come next there is one number that a run of
requests, of any kinds, reads to the end, with the answers that the generator gives: words that are
passed over are among them, and nothing is read for the bound 0 or the length 0. The state has moved
on by as many steps, and it does not come back before `2 ^ 32` words. -/
theorem Random.state_counts_words (random : Random) (requests : List Request) :
    (∃ count,
      requests.mapM Request.read? (random.words count) =
        some ((requests.mapM Request.draw random).1, []) ∧
      (∀ count' answers,
        requests.mapM Request.read? (random.words count') = some (answers, []) → count' = count) ∧
      (requests.mapM Request.draw random).2.state.toNat =
        (random.state.toNat + count * 0x6d2b79f5) % 2 ^ 32) ∧
    (∀ words, Request.read? (.bounded 0) words = some (0, words) ∧
      Request.read? (.index 0) words = some (0, words)) ∧
    ∀ count count', (random.after count).state = (random.after count').state ↔
      count % 2 ^ 32 = count' % 2 ^ 32 := by
  have hread := Draw.IsReadBy.mapM Request.draw_isReadBy requests
  refine ⟨?_, fun words ↦ ⟨rfl, rfl⟩, random.state_after_eq_iff⟩
  obtain ⟨count, hstate, hwords⟩ := hread.reads random
  refine ⟨count, hwords, fun count' answers h ↦ hread.count_unique h hwords, ?_⟩
  rw [hstate, toNat_state_after]

/-- From the state 4 on, the first word is passed over for the bound 3000000000 and nothing is read
for the length 0, so that three words answer three requests. -/
theorem Random.state_counts_words_passing :
    (([.bounded 3000000000, .index 0, .word] : List Request).mapM Request.draw ⟨4⟩).2.state.toNat =
      (4 + 3 * 0x6d2b79f5) % 2 ^ 32 := by
  obtain ⟨⟨count, -, hunique, hstate⟩, -⟩ :=
    Random.state_counts_words ⟨4⟩ [.bounded 3000000000, .index 0, .word]
  have hread : ∃ answers, ([.bounded 3000000000, .index 0, .word] : List Request).mapM
      Request.read? (Random.words ⟨4⟩ 3) = some (answers, []) := ⟨_, rfl⟩
  obtain ⟨answers, hread⟩ := hread
  obtain rfl := hunique 3 answers hread
  exact hstate

/-- The first of two words is passed over, and the second is taken. -/
example : (Request.bounded 10).read? [0xffffffff, 42] = some (2, []) := by decide +kernel

end Playbook
