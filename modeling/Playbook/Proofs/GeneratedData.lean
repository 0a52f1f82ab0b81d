import Playbook.Data
import Playbook.Proofs.DayCount
import Playbook.Proofs.RandomWords
import Mathlib.Data.List.Forall2
import Mathlib.Data.List.GetD

/-!
# The shape of generated data

What is drawn differs from state to state, and so does the number of words that are used up, because
words may be passed over. The requests do not: a draw makes the same ones whatever comes out, and
what comes out has the same shape in every state. `Draw.Yields` says both at once, and it is put
together along the way draws are put together, so that texts of any length and masks of any kind
take one induction each.
-/

namespace Playbook

/-! ## Requests -/

/-- What a generator of random words is asked for. -/
inductive Request where
  | word
  | bounded (bound : UInt32)
  | index (length : Nat)

namespace Random

/-- The generator after a request. -/
def granting (random : Random) : Request → Random
  | .word => random.next.2
  | .bounded bound => (random.bounded bound).2
  | .index length => (random.index length).2

/-- The generator after requests. -/
def serving (random : Random) (requests : List Request) : Random := requests.foldl granting random

theorem serving_append (random : Random) (requests later : List Request) :
    random.serving (requests ++ later) = (random.serving requests).serving later :=
  List.foldl_append

end Random

/-! ## Draws of a shape -/

namespace Draw

variable {α β : Type} {draw : Draw α} {requests later : List Request} {P : α → Prop} {Q : β → Prop}

/-- Whether a draw makes these requests and no others, and has a result of this shape, in every
state. -/
def Yields (draw : Draw α) (requests : List Request) (P : α → Prop) : Prop :=
  ∀ random, P (draw random).1 ∧ (draw random).2 = random.serving requests

namespace Yields

theorem pure {a : α} (h : P a) : Yields (Pure.pure a) [] P := fun _ ↦ ⟨h, rfl⟩

theorem bind {next : α → Draw β} (h : draw.Yields requests P)
    (hnext : ∀ a, P a → (next a).Yields later Q) :
    Yields (draw >>= next) (requests ++ later) Q := by
  intro random
  obtain ⟨hshape, hstate⟩ := h random
  obtain ⟨hshape', hstate'⟩ := hnext _ hshape (draw random).2
  refine ⟨hshape', hstate'.trans ?_⟩
  rw [hstate, Random.serving_append]

theorem map {f : α → β} (h : draw.Yields requests P) (hf : ∀ a, P a → Q (f a)) :
    Yields (f <$> draw) requests Q := by
  intro random
  obtain ⟨hshape, hstate⟩ := h random
  exact ⟨hf _ hshape, hstate⟩

/-- A draw that ends with a computation makes no further requests. -/
theorem bind_pure {f : α → β} (h : draw.Yields requests P) (hf : ∀ a, P a → Q (f a)) :
    Yields (draw >>= fun a ↦ Pure.pure (f a)) requests Q := by
  rw [bind_pure_comp]
  exact h.map hf

theorem word : Draw.word.Yields [.word] fun _ ↦ True := fun _ ↦ ⟨trivial, rfl⟩

theorem bounded {bound : UInt32} (h : bound ≠ 0) :
    (Draw.bounded bound).Yields [.bounded bound] (· < bound) :=
  fun random ↦ ⟨Random.bounded_lt h random, rfl⟩

theorem oneOf {choices : List α} (h : choices ≠ []) (default : α) :
    (Draw.oneOf choices default).Yields [.index choices.length] (· ∈ choices) := by
  have hindex : (Draw.index choices.length).Yields [.index choices.length]
      (· < choices.length) :=
    fun random ↦ ⟨Random.index_lt (List.length_pos_iff.mpr h) random, rfl⟩
  refine hindex.bind_pure fun i hi ↦ ?_
  rw [List.getD_eq_getElem _ _ hi]
  exact List.getElem_mem hi

/-! ### Texts -/

/-- One request is made for each character. -/
theorem characters {alphabet : List Char} (h : alphabet ≠ []) (length : Nat) :
    (Draw.characters alphabet length).Yields (.replicate length (.index alphabet.length))
      fun text ↦ text.length = length ∧ ∀ c ∈ text, c ∈ alphabet := by
  induction length with
  | zero => exact .pure ⟨rfl, nofun⟩
  | succ length ih =>
    refine (oneOf h '?').bind fun c hc ↦ ?_
    refine ih.bind_pure fun text htext ↦ ?_
    exact ⟨congrArg Nat.succ htext.1, List.forall_mem_cons.mpr ⟨hc, htext.2⟩⟩

end Yields

/-- Whether a character may stand in the place of a character of a mask. -/
def Fills (m c : Char) : Prop := if m = '#' then c.isDigit = true else c = m

/-- Only a `#` is drawn for. -/
theorem masked_cons (m : Char) (mask : List Char) :
    Draw.masked (m :: mask) = do
      let c ← (if m = '#' then oneOf Charset.decimalDigits '?' else pure m)
      return c :: (← Draw.masked mask) := by
  conv => lhs; unfold Draw.masked
  split
  · contradiction
  next h =>
    obtain ⟨rfl, rfl⟩ := List.cons.inj h
    rw [if_pos rfl]
  next hm h =>
    obtain ⟨rfl, rfl⟩ := List.cons.inj h
    rw [if_neg hm, pure_bind]

/-- A digit is asked for in each place of a `#`, and in no other. -/
theorem Yields.masked (mask : List Char) :
    (Draw.masked mask).Yields (.replicate (mask.count '#') (.index 10))
      (List.Forall₂ Fills mask) := by
  have hdigits : ∀ c ∈ Charset.decimalDigits, c.isDigit := List.all_eq_true.mp (by decide)
  induction mask with
  | nil => exact .pure .nil
  | cons m mask ih =>
    rw [masked_cons]
    by_cases hm : m = '#'
    · rw [if_pos hm, hm, List.count_cons_self]
      refine (oneOf (by decide) '?').bind fun c hc ↦ ?_
      refine ih.bind_pure fun text htext ↦ .cons ?_ htext
      rw [Fills, if_pos rfl]
      exact hdigits c hc
    · rw [if_neg hm, pure_bind, List.count_cons_of_ne hm]
      refine ih.bind_pure fun text htext ↦ .cons ?_ htext
      rw [Fills, if_neg hm]

/-- Whether a word is made of so many small letters. -/
def IsSmallWord (length : Nat) (word : List Char) : Prop :=
  word.length = length ∧ ∀ c ∈ word, c.isLower

theorem Yields.smallWord (length : Nat) :
    (Draw.smallWord length).Yields (.replicate length (.index 52)) (IsSmallWord length) := by
  have hletters : Charset.letters.alphabet.all (·.toLower.isLower) := by decide
  refine (characters (by decide) length).bind_pure fun text htext ↦ ?_
  obtain ⟨hlength, hmem⟩ := htext
  refine ⟨(List.length_map _).trans hlength, fun c hc ↦ ?_⟩
  obtain ⟨letter, hletter, rfl⟩ := List.mem_map.mp hc
  exact List.all_eq_true.mp hletters letter (hmem letter hletter)

/-! ### Octets and identifiers -/

theorem Yields.octet {low high : UInt32} (hle : low ≤ high) (hhigh : high < 256) :
    (Draw.octet low high).Yields [.bounded (high - low + 1)]
      fun octet ↦ low.toNat ≤ octet.toNat ∧ octet.toNat ≤ high.toNat := by
  have hle' := UInt32.le_iff_toNat_le.mp hle
  have hhigh' : high.toNat < 256 := UInt32.lt_iff_toNat_lt.mp hhigh
  have hbound : (high - low + 1).toNat = high.toNat - low.toNat + 1 := by
    rw [UInt32.toNat_add, UInt32.toNat_sub_of_le _ _ hle, UInt32.toNat_one]
    omega
  have hne : high - low + 1 ≠ 0 := by
    intro h
    rw [h] at hbound
    exact absurd hbound (Nat.succ_ne_zero _).symm
  refine (bounded hne).bind_pure fun n hn ↦ ?_
  have hn' := UInt32.lt_iff_toNat_lt.mp hn
  have hsum : (low + n).toUInt8.toNat = low.toNat + n.toNat := by
    rw [UInt32.toNat_toUInt8, UInt32.toNat_add]
    omega
  rw [hsum]
  omega

theorem Yields.address :
    Draw.address.Yields [.bounded 223, .bounded 256, .bounded 256, .bounded 254]
      fun address ↦ (1 ≤ address.first ∧ address.first ≤ 223) ∧
        1 ≤ address.last ∧ address.last ≤ 254 := by
  refine (octet (by decide) (by decide)).bind fun first hfirst ↦ ?_
  refine (octet (by decide) (by decide)).bind fun second _ ↦ ?_
  refine (octet (by decide) (by decide)).bind fun third _ ↦ ?_
  refine (octet (by decide) (by decide)).bind_pure fun last hlast ↦ ?_
  simpa only [UInt8.le_iff_toNat_le] using ⟨hfirst, hlast⟩

end Draw

namespace Uuid

/-- The version of an identifier, which is the high half of its seventh byte. -/
def version (uuid : Uuid) : UInt8 := uuid.bytes.getD 6 0 >>> 4

/-- The variant of an identifier, which is the highest two bits of its ninth byte. -/
def variant (uuid : Uuid) : UInt8 := uuid.bytes.getD 8 0 >>> 6

theorem version_ofWords (a b c d : UInt32) : (ofWords a b c d).version = 4 := by
  change ((b >>> 16).toUInt8 &&& 0x0f ||| 0x40) >>> 4 = 4
  rw [UInt8.shiftRight_or, UInt8.shiftRight_and]
  exact (congrArg (· ||| 4) UInt8.and_zero).trans UInt8.zero_or

theorem variant_ofWords (a b c d : UInt32) : (ofWords a b c d).variant = 2 := by
  change (c.toUInt8 &&& 0x3f ||| 0x80) >>> 6 = 2
  rw [UInt8.shiftRight_or, UInt8.shiftRight_and]
  exact (congrArg (· ||| 2) UInt8.and_zero).trans UInt8.zero_or

end Uuid

namespace Draw

theorem Yields.uuid :
    Draw.uuid.Yields (.replicate 4 .word) fun uuid ↦ uuid.version = 4 ∧ uuid.variant = 2 := by
  refine word.bind fun a _ ↦ word.bind fun b _ ↦ word.bind fun c _ ↦ ?_
  exact word.bind_pure fun d _ ↦ ⟨Uuid.version_ofWords a b c d, Uuid.variant_ofWords a b c d⟩

/-! ### Moments -/

/-- Whether a moment is a whole second from 1970 to before 2100. -/
def IsInstant (m : Moment) : Prop :=
  m.time.nanosecond = 0 ∧ 1970 ≤ m.date.year ∧ m.date.year < 2100

theorem Yields.instant : Draw.instant.Yields [.bounded instantSpan] IsInstant := by
  refine (bounded (by decide)).bind_pure fun seconds hseconds ↦ ?_
  obtain ⟨m, htimestamp, hwhole, hyear⟩ :=
    Moment.exists_timestamp_eq (UInt32.lt_iff_toNat_lt.mp hseconds)
  rw [← htimestamp, Moment.ofTimestamp?_timestamp hwhole]
  exact ⟨hwhole, hyear⟩

end Draw

namespace DataSource

open Draw

/-- **Generated data has its shape.** In every state a text is as long as asked for and made of its
characters, a telephone number follows its mask, a mail address has ten small letters in front of
its provider and the address of a site eight between its fixed ends, a network address has no zero
and no broadcast octet at either end, an identifier is one of version 4 and of the standard variant,
and a moment is a whole second from 1970 to before 2100. Each makes its own requests of the
generator, whatever comes out, and leaves it where they lead. -/
theorem seeded_yields :
    (∀ charset length, (seeded.characters charset length).Yields
      (.replicate length (.index charset.alphabet.length))
      fun text ↦ text.length = length ∧ ∀ c ∈ text.toList, c ∈ charset.alphabet) ∧
    (∀ mask, (seeded.phone mask).Yields (.replicate (mask.toList.count '#') (.index 10))
      fun text ↦ text.length = mask.length ∧ List.Forall₂ Fills mask.toList text.toList) ∧
    (∀ provider, (seeded.email provider).Yields (.replicate 10 (.index 52))
      fun text ↦ ∃ user, IsSmallWord 10 user ∧ text.toList = user ++ '@' :: provider.toList) ∧
    seeded.url.Yields (.replicate 8 (.index 52) ++ [.index 5])
      (fun text ↦ ∃ host, IsSmallWord 8 host ∧ ∃ domain ∈ ["com", "net", "org", "info", "biz"],
        text.toList = "https://www.".toList ++ host ++ '.' :: domain.toList) ∧
    seeded.ip.Yields [.bounded 223, .bounded 256, .bounded 256, .bounded 254]
      (fun address ↦ (1 ≤ address.first ∧ address.first ≤ 223) ∧
        1 ≤ address.last ∧ address.last ≤ 254) ∧
    seeded.uuid.Yields (.replicate 4 .word) (fun uuid ↦ uuid.version = 4 ∧ uuid.variant = 2) ∧
    seeded.instant.Yields [.bounded 4102444800] IsInstant := by
  refine ⟨fun charset length ↦ ?_, fun mask ↦ ?_, fun provider ↦ ?_, ?_, .address, .uuid, .instant⟩
  · have hne : charset.alphabet ≠ [] := by cases charset <;> decide
    refine (Yields.characters hne length).map fun text htext ↦ ?_
    simpa using htext
  · refine (Yields.masked mask.toList).map fun text htext ↦ ?_
    rw [String.length_ofList, String.toList_ofList, ← String.length_toList, htext.length_eq]
    exact ⟨rfl, htext⟩
  · refine (Yields.smallWord 10).bind_pure fun user huser ↦ ?_
    exact ⟨user, huser, String.toList_ofList⟩
  · refine (Yields.smallWord 8).bind fun host hhost ↦ ?_
    refine (Yields.oneOf (by decide) "").bind_pure fun domain hdomain ↦ ?_
    exact ⟨host, hhost, domain, hdomain, by simp⟩

end DataSource

end Playbook
