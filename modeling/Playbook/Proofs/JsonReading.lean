import Playbook.Json.Reader
import Playbook.Json.Printer
import Playbook.Proofs.Decimals
import Playbook.Proofs.EntriesMap
import Playbook.Proofs.Outcome

/-!
# Written JSON is read back

The text of a value is a document, and the document denotes the value. What the strings in it hold
does not matter: an escape is read as the character it stands for, and a quote that is not escaped
ends the string it belongs to.

Numbers with a point are left out. The text of a whole number is the numeral that denotes it, since
all numbers that are kept exactly have fewer digits than the reader drops.
-/

namespace Playbook.Json

open Outcome

/-! ## Strings -/

theorem hexValue4?_hexDigit {n : Nat} (h : n < 0x20) :
    hexValue4? '0' '0' (hexDigit (n / 16)) (hexDigit n) = some n := by
  have hall : ∀ n : Fin 0x20,
      hexValue4? '0' '0' (hexDigit (n.val / 16)) (hexDigit n.val) = some n.val := by
    decide
  exact hall ⟨n, h⟩

theorem codes?_cons {c : Char} {text rest : List Char} {codes : List Nat} (hquote : c ≠ '"')
    (hbackslash : c ≠ '\\') (hvisible : ¬c.toNat < 0x20) (h : codes? text = some (codes, rest)) :
    codes? (c :: text) = some (c.toNat :: codes, rest) := by
  rw [codes?.eq_def]
  split
  · cases ‹c :: text = []›
  · exact absurd (List.cons.inj ‹c :: text = _›).1 hquote
  · exact absurd (List.cons.inj ‹c :: text = _›).1 hbackslash
  · exact absurd (List.cons.inj ‹c :: text = _›).1 hbackslash
  next hcons =>
    obtain ⟨rfl, rfl⟩ := List.cons.inj hcons
    rw [if_neg hvisible, h]
    rfl

/-- An escaped character is read as its code. -/
theorem codes?_escape (c : Char) {text rest : List Char} {codes : List Nat}
    (h : codes? text = some (codes, rest)) :
    codes? (escape c ++ text) = some (c.toNat :: codes, rest) := by
  -- Seven characters have an escape of their own; a control character without one has its code.
  by_cases hquote : c = '"'
  · simp [escape, codes?, escaped?, h, hquote]
  by_cases hbackslash : c = '\\'
  · simp [escape, codes?, escaped?, h, hbackslash]
  by_cases hbackspace : c = '\x08'
  · simp [escape, codes?, escaped?, h, hbackspace]
  by_cases htab : c = '\t'
  · simp [escape, codes?, escaped?, h, htab]
  by_cases hnewline : c = '\n'
  · simp [escape, codes?, escaped?, h, hnewline]
  by_cases hfeed : c = '\x0c'
  · simp [escape, codes?, escaped?, h, hfeed]
  by_cases hreturn : c = '\r'
  · simp [escape, codes?, escaped?, h, hreturn]
  rw [escape, if_neg hquote, if_neg hbackslash, if_neg hbackspace, if_neg htab, if_neg hnewline,
    if_neg hfeed, if_neg hreturn]
  by_cases hcontrol : c.toNat < 0x20
  · rw [if_pos hcontrol]
    simp [codes?, hexValue4?_hexDigit hcontrol, h]
  · rw [if_neg hcontrol]
    exact codes?_cons hquote hbackslash hcontrol h

theorem codes?_flatMap_escape (text rest : List Char) :
    codes? (text.flatMap escape ++ '"' :: rest) = some (text.map Char.toNat, rest) := by
  induction text with
  | nil => simp [codes?]
  | cons c text ih =>
    rw [List.flatMap_cons, List.append_assoc, List.map_cons]
    exact codes?_escape c ih

theorem isHighSurrogate_toNat (c : Char) : isHighSurrogate c.toNat = false := by
  have hvalid : c.toNat < 0xD800 ∨ 0xDFFF < c.toNat ∧ c.toNat < 0x110000 := c.valid
  simp only [isHighSurrogate, Bool.and_eq_false_iff, decide_eq_false_iff_not]
  omega

theorem isLowSurrogate_toNat (c : Char) : isLowSurrogate c.toNat = false := by
  have hvalid : c.toNat < 0xD800 ∨ 0xDFFF < c.toNat ∧ c.toNat < 0x110000 := c.valid
  simp only [isLowSurrogate, Bool.and_eq_false_iff, decide_eq_false_iff_not]
  omega

theorem characters?_toNat : ∀ text : List Char, characters? (text.map Char.toNat) = some text
  | [] => rfl
  | [c] => by
    simp [characters?, isHighSurrogate_toNat, isLowSurrogate_toNat]
  | c :: next :: rest => by
    have ih := characters?_toNat (next :: rest)
    rw [List.map_cons] at ih
    simp [characters?, isHighSurrogate_toNat, isLowSurrogate_toNat, ih]

/-- What is written between quotes is read as what was to be written. -/
theorem string?_flatMap_escape (s : String) (rest : List Char) :
    string? (s.toList.flatMap escape ++ '"' :: rest) = some (some s, rest) := by
  rw [string?, codes?_flatMap_escape, Option.map_some]
  dsimp only
  rw [characters?_toNat, Option.map_some, String.ofList_toList]

/-! ## Numerals -/

/-- A text that goes on with the end of a value, or not at all. -/
def Ends (rest : List Char) : Prop := ∀ c ∈ rest.head?, c = ',' ∨ c = ']' ∨ c = '}'

theorem Ends.nil : Ends [] := fun _ h ↦ absurd h (Option.not_mem_none _)

theorem Ends.cons {c : Char} (rest : List Char) (h : c = ',' ∨ c = ']' ∨ c = '}') :
    Ends (c :: rest) := by
  intro other hother
  rw [List.head?_cons, Option.mem_some_iff] at hother
  rw [← hother]
  exact h

namespace Numeral

open Playbook.Number (digits decimal isDigit_of_mem_digits)

variable {rest : List Char}

theorem isDigit_headD (h : Ends rest) : (rest.headD ' ').isDigit = false := by
  cases rest with
  | nil => rfl
  | cons c rest =>
    rcases h c rfl with rfl | rfl | rfl
    · rfl
    · rfl
    · rfl

theorem takeWhile_isDigit (n : Nat) (h : Ends rest) :
    (digits n ++ rest).takeWhile Char.isDigit = digits n ∧
      (digits n ++ rest).dropWhile Char.isDigit = rest := by
  have hdigits : ∀ c ∈ digits n, c.isDigit := fun c ↦ isDigit_of_mem_digits
  rw [List.takeWhile_append_of_pos hdigits, List.dropWhile_append_of_pos hdigits]
  cases rest with
  | nil => exact ⟨List.append_nil _, rfl⟩
  | cons c rest =>
    have hdigit : c.isDigit = false := isDigit_headD h
    rw [List.takeWhile_cons, List.dropWhile_cons, hdigit]
    exact ⟨List.append_nil _, rfl⟩

theorem head?_digits_ne {n : Nat} (h : 0 < n) : (digits n).head? ≠ some '0' := by
  induction n using Nat.strongRecOn with
  | ind n ih =>
    rw [digits]
    by_cases hsmall : n < 10
    · rw [Nat.toDigits_of_lt_base hsmall, List.head?_cons]
      have hall : ∀ digit : Fin 10, 0 < digit.val → some digit.val.digitChar ≠ some '0' := by decide
      exact hall ⟨n, hsmall⟩ h
    · have hge : 10 ≤ n := Nat.le_of_not_lt hsmall
      rw [Nat.toDigits_of_base_le (by decide) hge,
        List.head?_append_of_ne_nil _ Nat.toDigits_ne_nil]
      exact ih (n / 10) (by omega) (by omega)

theorem whole?_digits (n : Nat) (h : Ends rest) :
    whole? (digits n ++ rest) = some (digits n, rest) := by
  rcases Nat.eq_zero_or_pos n with rfl | hpos
  · -- Only a lone zero starts with one, and no digit comes after it.
    have hzero : digits 0 ++ rest = '0' :: rest := rfl
    rw [hzero, whole?, isDigit_headD h]
    rfl
  · obtain ⟨htake, hdrop⟩ := takeWhile_isDigit n h
    obtain ⟨c, cs, hcons, -⟩ := Playbook.Number.exists_digits_eq_cons n
    have hne := head?_digits_ne hpos
    rw [hcons] at htake hdrop hne ⊢
    unfold whole?
    split
    next heq =>
      obtain ⟨rfl, -⟩ := List.cons.inj heq
      exact absurd rfl hne
    · rw [htake, hdrop]
      rfl

theorem fraction?_of_ends (h : Ends rest) : fraction? rest = some (none, rest) := by
  unfold fraction?
  split
  · rcases h '.' rfl with h | h | h
    · cases h
    · cases h
    · cases h
  · rfl

theorem exponent?_of_ends (h : Ends rest) : exponent? rest = some (none, rest) := by
  cases rest with
  | nil => rfl
  | cons c rest =>
    rcases h c rfl with rfl | rfl | rfl
    · rfl
    · rfl
    · rfl

/-- The decimal of a whole number is read as a numeral without fraction and exponent. -/
theorem read?_decimal (n : Int) (h : Ends rest) :
    read? (decimal n ++ rest) = some (⟨decide (n < 0), digits n.natAbs, none, none⟩, rest) := by
  unfold decimal
  split
  next hneg =>
    simp [read?, whole?_digits n.natAbs h, fraction?_of_ends h, exponent?_of_ends h, hneg]
  next hpos =>
    -- A digit is no sign.
    obtain ⟨c, cs, hcons, hdigit⟩ := Playbook.Number.exists_digits_eq_cons n.natAbs
    have hminus : c ≠ '-' := by rintro rfl; exact absurd hdigit (by decide)
    have hwhole := whole?_digits n.natAbs h
    rw [hcons] at hwhole ⊢
    rw [List.cons_append] at hwhole ⊢
    simp [read?, hwhole, fraction?_of_ends h, exponent?_of_ends h, hpos, hminus]

/-! ### What a whole numeral denotes -/

theorem le_ofDigitChars (digits : List Char) (start : Nat) :
    start ≤ Nat.ofDigitChars 10 digits start := by
  induction digits generalizing start with
  | nil => exact Nat.le_refl _
  | cons c rest ih =>
    rw [Nat.ofDigitChars_cons]
    have hrest := ih (10 * start + (c.toNat - '0'.toNat))
    omega

/-- Digits of a number that fits are all taken. -/
theorem coefficient_eq (digits : List Char) (start : Nat)
    (h : Nat.ofDigitChars 10 digits start < coefficientBound) :
    coefficient digits start = (Nat.ofDigitChars 10 digits start, digits.length, 0) := by
  induction digits generalizing start with
  | nil => rfl
  | cons c rest ih =>
    rw [Nat.ofDigitChars_cons] at h ⊢
    have hnext := Nat.lt_of_le_of_lt (le_ofDigitChars rest _) h
    simp only [coefficient]
    rw [if_pos hnext, ih _ h]
    rfl

theorem number?_whole (n : Int) (fits : Fits n) :
    number? ⟨decide (n < 0), digits n.natAbs, none, none⟩ = some (.whole n fits) := by
  have hbounds := (fits_iff n).mp fits
  -- What is kept exactly has a size below the bound of coefficients, so no digit is dropped.
  have hsmall : n.natAbs < 18446744073709551616 := by omega
  have hdigits := Playbook.Number.ofDigitChars_digits n.natAbs
  have hcoefficient : coefficient (digits n.natAbs) 0 =
      (n.natAbs, (digits n.natAbs).length, 0) := by
    rw [coefficient_eq _ _ (by rw [hdigits]; exact hsmall), hdigits]
  have hnonzero : n < 0 → n.natAbs ≠ 0 := by omega
  have hexact : (if n < 0 then -(n.natAbs : Int) else n.natAbs) = n := by
    split
    · omega
    · omega
  simp only [number?, hcoefficient, decide_eq_true_eq, hexact, Option.isNone_none, true_and]
  rw [if_pos hnonzero, dif_pos fits]

end Numeral

/-! ## Values -/

/-- A value without numbers with a point, in which the members of an object have different names and
nothing stands deeper than `depth`. -/
inductive IsPlain : (depth : Nat) → Json → Prop
  | null {depth : Nat} : IsPlain depth .null
  | bool {depth : Nat} (b : Bool) : IsPlain depth (.bool b)
  | whole {depth : Nat} (n : Int) (fits : Fits n) : IsPlain depth (.number (.whole n fits))
  | string {depth : Nat} (s : String) : IsPlain depth (.string s)
  | array {depth : Nat} {items : List Json} (h : ∀ item ∈ items, IsPlain depth item) :
      IsPlain (depth + 1) (.array items)
  | object {depth : Nat} {members : List (String × Json)} (hnames : (members.map Prod.fst).Nodup)
      (h : ∀ member ∈ members, IsPlain depth member.2) : IsPlain (depth + 1) (.object members)

namespace Written

theorem ofItems_eq_map (items : List Json) : ofItems items = items.map ofJson := by
  induction items with
  | nil => rfl
  | cons item rest ih => rw [ofItems, ih, List.map_cons]

theorem ofMembers_eq_map (members : List (String × Json)) :
    ofMembers members = members.map fun member ↦ (some member.1, ofJson member.2) := by
  induction members with
  | nil => rfl
  | cons member rest ih => rw [ofMembers, ih, List.map_cons]

/-- The document of a value denotes it. -/
theorem value?_ofJson {depth : Nat} {value : Json} (h : IsPlain depth value) :
    value? depth (ofJson value) = some value := by
  induction h with
  | null => rw [ofJson, value?.eq_def]
  | bool b => rw [ofJson, value?.eq_def]
  | whole n fits => rw [ofJson, value?.eq_def]; rfl
  | string s => rw [ofJson, value?.eq_def]; rfl
  | array _ ih => rw [ofJson, ofItems_eq_map, value?, mapM_map_eq_some ih, Option.map_some]
  | @object depth members hnames _ ih =>
    have hmembers : (members.map fun member ↦ (some member.1, ofJson member.2)).mapM
        (member? (value? depth)) = some members := by
      apply mapM_map_eq_some
      intro member hmember
      rw [member?, ih member hmember]
      rfl
    rw [ofJson, ofMembers_eq_map, value?, hmembers, Option.map_some, Entries.ofPairs_eq_self hnames]

theorem sound_ofJson {depth : Nat} {value : Json} (h : IsPlain depth value) :
    sound depth (ofJson value) := by
  rw [sound, value?_ofJson h]
  rfl

/-! ### Texts of documents -/

/-- A text that starts with no blank and with no closing bracket or brace. -/
def Starts (text : List Char) : Prop :=
  ∃ c rest, text = c :: rest ∧ isSpace c = false ∧ c ≠ ']' ∧ c ≠ '\x7d'

theorem Starts.append {text : List Char} (h : Starts text) (rest : List Char) :
    Starts (text ++ rest) := by
  obtain ⟨c, text, rfl, hc⟩ := h
  exact ⟨c, text ++ rest, rfl, hc⟩

theorem skipSpace_of_starts {text : List Char} (h : Starts text) : skipSpace text = text := by
  obtain ⟨c, text, rfl, hspace, -⟩ := h
  rw [skipSpace, List.dropWhile_cons, hspace]
  rfl

theorem starts_decimal (n : Int) : Starts (Playbook.Number.decimal n) := by
  obtain ⟨c, cs, hcons, hc⟩ := Playbook.Number.exists_decimal_eq_cons n
  have hspace : isSpace c = false := by
    rw [Bool.eq_false_iff]
    intro hspace
    simp only [isSpace, decide_eq_true_eq] at hspace
    rcases hspace with rfl | rfl | rfl | rfl
    all_goals exact absurd hc (by decide)
  have hbracket : c ≠ ']' := by rintro rfl; exact absurd hc (by decide)
  have hbrace : c ≠ '\x7d' := by rintro rfl; exact absurd hc (by decide)
  exact ⟨c, cs, hcons, hspace, hbracket, hbrace⟩

theorem starts_quoted (s : String) : Starts (quoted s) :=
  ⟨_, _, rfl, by decide, by decide, by decide⟩

theorem scalar?_decimal {n : Int} {rest : List Char} (fits : Fits n) (h : Ends rest) :
    scalar? (Playbook.Number.decimal n ++ rest) = some (.number (some (.whole n fits)), rest) := by
  have hread := Numeral.read?_decimal n h
  obtain ⟨c, cs, hcons, hc⟩ := Playbook.Number.exists_decimal_eq_cons n
  have hn : c ≠ 'n' := by rintro rfl; exact absurd hc (by decide)
  have ht : c ≠ 't' := by rintro rfl; exact absurd hc (by decide)
  have hf : c ≠ 'f' := by rintro rfl; exact absurd hc (by decide)
  have hquote : c ≠ '"' := by rintro rfl; exact absurd hc (by decide)
  rw [hcons, List.cons_append] at hread ⊢
  unfold scalar?
  split
  · exact absurd (List.cons.inj ‹_›).1 hn
  · exact absurd (List.cons.inj ‹_›).1 ht
  · exact absurd (List.cons.inj ‹_›).1 hf
  · exact absurd (List.cons.inj ‹_›).1 hquote
  · rw [hread, Option.map_some]
    dsimp only
    rw [Numeral.number?_whole n fits]

theorem document?_decimal {n : Int} {rest : List Char} (fuel : Nat) (fits : Fits n)
    (h : Ends rest) : document? (fuel + 1) (Playbook.Number.decimal n ++ rest) =
      some (.number (some (.whole n fits)), rest) := by
  have hread := scalar?_decimal fits h
  obtain ⟨c, cs, hcons, hc⟩ := Playbook.Number.exists_decimal_eq_cons n
  have hbracket : c ≠ '[' := by rintro rfl; exact absurd hc (by decide)
  have hbrace : c ≠ '\x7b' := by rintro rfl; exact absurd hc (by decide)
  rw [hcons, List.cons_append] at hread ⊢
  rw [document?.eq_def]
  split
  · cases ‹fuel + 1 = 0›
  · exact absurd (List.cons.inj ‹_›).1 hbracket
  · exact absurd (List.cons.inj ‹_›).1 hbrace
  · exact hread

/-- The text of a value is read as its document whatever follows it. A reader that calls another one
goes on with less fuel, at most twice for each character. -/
structure ReadsBack (value : Json) : Prop where
  /-- The text starts at once. -/
  starts : Starts value.compact
  /-- The text is read. -/
  reads (fuel : Nat) (rest : List Char) : 2 * value.compact.length ≤ fuel → Ends rest →
    document? fuel (value.compact ++ rest) = some (ofJson value, rest)

theorem starts_compactItems {items : List Json} (hne : items ≠ [])
    (h : ∀ item ∈ items, ReadsBack item) : Starts (compactItems items) := by
  cases items with
  | nil => exact absurd rfl hne
  | cons item items =>
    have hitem := (h item List.mem_cons_self).starts
    cases items with
    | nil => exact hitem
    | cons next items => exact hitem.append _

/-- Items that are read back one by one are read back together. -/
theorem items?_compactItems {items : List Json} (hne : items ≠ [])
    (h : ∀ item ∈ items, ReadsBack item) (rest : List Char) (fuel : Nat)
    (hfuel : 2 * (compactItems items).length + 1 ≤ fuel) :
    items? fuel (compactItems items ++ ']' :: rest) = some (ofItems items, rest) := by
  induction items generalizing fuel with
  | nil => exact absurd rfl hne
  | cons item items ih =>
    obtain ⟨fuel, rfl⟩ : ∃ n, fuel = n + 1 := ⟨fuel - 1, by omega⟩
    obtain ⟨hitem, hitems⟩ := List.forall_mem_cons.mp h
    -- The last item is followed by the bracket, any other one by a comma: both end a number.
    cases items with
    | nil =>
      rw [compactItems] at hfuel ⊢
      have hread := hitem.reads fuel (']' :: rest) (by omega) (.cons _ (.inr (.inl rfl)))
      simp [items?, hread, skipSpace, isSpace, ofItems]
    | cons next items =>
      rw [compactItems] at hfuel ⊢
      rw [List.length_append, List.length_cons] at hfuel
      have hread := hitem.reads fuel (',' :: (compactItems (next :: items) ++ ']' :: rest))
        (by omega) (.cons _ (.inl rfl))
      have hcomma : skipSpace (',' :: (compactItems (next :: items) ++ ']' :: rest)) =
          ',' :: (compactItems (next :: items) ++ ']' :: rest) := rfl
      have hnext : skipSpace (compactItems (next :: items) ++ ']' :: rest) =
          compactItems (next :: items) ++ ']' :: rest :=
        skipSpace_of_starts ((starts_compactItems (List.cons_ne_nil _ _) hitems).append _)
      have hrest := ih (List.cons_ne_nil _ _) hitems fuel (by omega)
      rw [List.append_assoc, List.cons_append, items?, hread, ofItems]
      simp only [Option.bind_eq_bind, Option.bind_some, hcomma, hnext, hrest]

theorem name?_quoted (name : String) {rest : List Char} (h : Starts rest) :
    name? (quoted name ++ ':' :: rest) = some (some name, rest) := by
  have hcolon : skipSpace (':' :: rest) = ':' :: rest := rfl
  have hread := string?_flatMap_escape name (':' :: rest)
  rw [quoted, List.cons_append, List.append_assoc, List.singleton_append, name?, hread]
  simp only [Option.bind_eq_bind, Option.bind_some, hcolon, skipSpace_of_starts h]

theorem starts_compactMembers {members : List (String × Json)} (hne : members ≠ []) :
    Starts (compactMembers members) := by
  cases members with
  | nil => exact absurd rfl hne
  | cons member members =>
    cases members with
    | nil => exact (starts_quoted member.1).append _
    | cons next members => exact (starts_quoted member.1).append _

/-- Members whose values are read back one by one are read back together. -/
theorem members?_compactMembers {members : List (String × Json)} (hne : members ≠ [])
    (h : ∀ member ∈ members, ReadsBack member.2) (rest : List Char) (fuel : Nat)
    (hfuel : 2 * (compactMembers members).length + 1 ≤ fuel) :
    members? fuel (compactMembers members ++ '\x7d' :: rest) =
      some (ofMembers members, rest) := by
  induction members generalizing fuel with
  | nil => exact absurd rfl hne
  | cons member members ih =>
    obtain ⟨name, value⟩ := member
    obtain ⟨fuel, rfl⟩ : ∃ n, fuel = n + 1 := ⟨fuel - 1, by omega⟩
    have hvalue : ReadsBack value := h _ List.mem_cons_self
    have hmembers := (List.forall_mem_cons.mp h).2
    cases members with
    | nil =>
      rw [compactMembers] at hfuel ⊢
      rw [List.length_append, List.length_cons] at hfuel
      have hread := hvalue.reads fuel ('\x7d' :: rest) (by omega) (.cons _ (.inr (.inr rfl)))
      have hname := name?_quoted name (hvalue.starts.append ('\x7d' :: rest))
      rw [List.append_assoc, List.cons_append, members?, hname]
      simp [hread, skipSpace, isSpace, ofMembers]
    | cons next members =>
      rw [compactMembers] at hfuel ⊢
      rw [List.length_append, List.length_cons, List.length_append, List.length_cons] at hfuel
      have hread := hvalue.reads fuel (',' :: (compactMembers (next :: members) ++ '\x7d' :: rest))
        (by omega) (.cons _ (.inl rfl))
      have hname := name?_quoted name
        (hvalue.starts.append (',' :: (compactMembers (next :: members) ++ '\x7d' :: rest)))
      have hcomma : skipSpace (',' :: (compactMembers (next :: members) ++ '\x7d' :: rest)) =
          ',' :: (compactMembers (next :: members) ++ '\x7d' :: rest) := rfl
      have hnext : skipSpace (compactMembers (next :: members) ++ '\x7d' :: rest) =
          compactMembers (next :: members) ++ '\x7d' :: rest :=
        skipSpace_of_starts ((starts_compactMembers (List.cons_ne_nil _ _)).append _)
      have hrest := ih (List.cons_ne_nil _ _) hmembers fuel (by omega)
      rw [List.append_assoc, List.cons_append, List.append_assoc, List.cons_append, members?, hname,
        ofMembers]
      simp only [Option.bind_eq_bind, Option.bind_some, hread, hcomma, hnext, hrest]

/-! ### Every kind of value -/

theorem ReadsBack.of_succ {value : Json} (hstarts : Starts value.compact)
    (h : ∀ fuel rest, 2 * value.compact.length ≤ fuel + 1 → Ends rest →
      document? (fuel + 1) (value.compact ++ rest) = some (ofJson value, rest)) :
    ReadsBack value := by
  refine ⟨hstarts, fun fuel rest hfuel hrest ↦ ?_⟩
  obtain ⟨c, text, hcons, -⟩ := hstarts
  have hpos : 0 < value.compact.length := by
    rw [hcons]
    exact Nat.succ_pos _
  obtain ⟨fuel, rfl⟩ : ∃ n, fuel = n + 1 := ⟨fuel - 1, by omega⟩
  exact h fuel rest hfuel hrest

theorem readsBack_null : ReadsBack .null :=
  .of_succ ⟨_, _, rfl, by decide, by decide, by decide⟩ fun _ _ _ _ ↦ rfl

theorem readsBack_bool (b : Bool) : ReadsBack (.bool b) := by
  cases b with
  | false => exact .of_succ ⟨_, _, rfl, by decide, by decide, by decide⟩ fun _ _ _ _ ↦ rfl
  | true => exact .of_succ ⟨_, _, rfl, by decide, by decide, by decide⟩ fun _ _ _ _ ↦ rfl

theorem readsBack_whole (n : Int) (fits : Fits n) : ReadsBack (.number (.whole n fits)) :=
  .of_succ (starts_decimal n) fun fuel _ _ hrest ↦ document?_decimal fuel fits hrest

theorem readsBack_string (s : String) : ReadsBack (.string s) := by
  have hstarts : Starts (compact (.string s)) := starts_quoted s
  apply ReadsBack.of_succ hstarts
  intro fuel rest _ _
  have hdocument (text : List Char) : document? (fuel + 1) ('"' :: text) =
      (string? text).map fun read ↦ (.string read.1, read.2) := rfl
  rw [compact, quoted, List.cons_append, List.append_assoc, List.singleton_append, hdocument,
    string?_flatMap_escape, Option.map_some, ofJson]

theorem document?_bracket (fuel : Nat) {text : List Char} (h : Starts text) :
    document? (fuel + 1) ('[' :: text) =
      (items? fuel text).map fun read ↦ (.array read.1, read.2) := by
  have hskip := skipSpace_of_starts h
  obtain ⟨c, text, rfl, -, hbracket, -⟩ := h
  rw [document?, hskip]
  split
  · exact absurd (List.cons.inj ‹_›).1 hbracket
  · rfl

theorem readsBack_array {items : List Json} (h : ∀ item ∈ items, ReadsBack item) :
    ReadsBack (.array items) := by
  apply ReadsBack.of_succ ⟨_, _, rfl, by decide, by decide, by decide⟩
  intro fuel rest hfuel _
  rw [compact] at hfuel ⊢
  rw [List.length_cons, List.length_append] at hfuel
  rw [List.cons_append, List.append_assoc, List.singleton_append]
  cases items with
  | nil => rfl
  | cons item items =>
    have hne : item :: items ≠ [] := List.cons_ne_nil _ _
    have hread := items?_compactItems hne h rest fuel (by omega)
    rw [document?_bracket fuel ((starts_compactItems hne h).append _), hread, Option.map_some,
      ofJson]

theorem document?_brace (fuel : Nat) {text : List Char} (h : Starts text) :
    document? (fuel + 1) ('\x7b' :: text) =
      (members? fuel text).map fun read ↦ (.object read.1, read.2) := by
  have hskip := skipSpace_of_starts h
  obtain ⟨c, text, rfl, -, -, hbrace⟩ := h
  rw [document?, hskip]
  split
  · exact absurd (List.cons.inj ‹_›).1 hbrace
  · rfl

theorem readsBack_object {members : List (String × Json)}
    (h : ∀ member ∈ members, ReadsBack member.2) : ReadsBack (.object members) := by
  apply ReadsBack.of_succ ⟨_, _, rfl, by decide, by decide, by decide⟩
  intro fuel rest hfuel _
  rw [compact] at hfuel ⊢
  rw [List.length_cons, List.length_append] at hfuel
  rw [List.cons_append, List.append_assoc, List.singleton_append]
  cases members with
  | nil => rfl
  | cons member members =>
    have hne : member :: members ≠ [] := List.cons_ne_nil _ _
    have hread := members?_compactMembers hne h rest fuel (by omega)
    rw [document?_brace fuel ((starts_compactMembers hne).append _), hread, Option.map_some, ofJson]

/-- The text of a value is read as its document. -/
theorem readsBack_of_isPlain {depth : Nat} {value : Json} (h : IsPlain depth value) :
    ReadsBack value := by
  induction h with
  | null => exact readsBack_null
  | bool b => exact readsBack_bool b
  | whole n fits => exact readsBack_whole n fits
  | string s => exact readsBack_string s
  | array _ ih => exact readsBack_array ih
  | object _ _ ih => exact readsBack_object ih

theorem read?_compact {depth : Nat} {value : Json} (h : IsPlain depth value) :
    read? value.compact = some (ofJson value) := by
  obtain ⟨hstarts, hreads⟩ := readsBack_of_isPlain h
  have hread := hreads (2 * value.compact.length + 1) [] (Nat.le_succ _) .nil
  rw [List.append_nil] at hread
  rw [read?, skipSpace_of_starts hstarts, hread]
  rfl

end Written

/-- **Reading what is written.** A text that is written for a value is read as the value. -/
theorem parse?_render {value : Json} (h : IsPlain maxDepth value) :
    parse? value.render = some value := by
  rw [parse?, render, String.toList_ofList, Written.read?_compact h, Option.bind_some,
    Written.value?_ofJson h]

end Playbook.Json
