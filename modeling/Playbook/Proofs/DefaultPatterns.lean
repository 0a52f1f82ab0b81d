import Mathlib.Data.List.DropRight
import Playbook.Proofs.MomentText

/-!
# The default patterns never compete

A text is read to its end by one of the default patterns at most, so that the order in which they
are tried does not matter. The year comes first in some of them and the day in the others, and the
sign after the digits at the front of the text tells which: a hyphen, or the sign of a year that has
one, can come first only where the year does, and a point only where the day does. The patterns with
the same date are told apart by how the text goes on after it, since the date is read off the same
way. A blank of a pattern may stand for nothing, but the hour after it has a digit.
-/

namespace Playbook

/-! ## One result at most -/

section Results

variable {α β : Type} {f : α → Option β} {l l' : List α}

theorem countP_le_one_of_pairwise {p : α → Bool} (h : l.Pairwise fun a b ↦ p a → ¬p b) :
    l.countP p ≤ 1 := by
  induction h with
  | nil => exact Nat.zero_le 1
  | @cons a l hfirst _ ih =>
    by_cases ha : p a
    · rw [List.countP_cons_of_pos ha, List.countP_eq_zero.mpr fun b hb ↦ hfirst b hb ha]
    · rw [List.countP_cons_of_neg ha]
      exact ih

/-- Where one place at most has a result, the first result is the same in any order. -/
theorem findSome?_eq_of_perm (hperm : l.Perm l')
    (hone : l'.countP (fun a ↦ (f a).isSome) ≤ 1) : l.findSome? f = l'.findSome? f := by
  have hresults := hperm.filterMap f
  rw [← List.length_filterMap_eq_countP] at hone
  rw [← List.head?_filterMap, ← List.head?_filterMap]
  match l'.filterMap f, hone, hresults with
  | [], _, hresults => rw [hresults.eq_nil]
  | [b], _, hresults => rw [List.perm_singleton.mp hresults]

end Results

namespace Calendar

variable {items items' : List Item} {text rest : List Char} {fields fields' : Fields}

/-! ## Texts read to the end -/

/-- The items read the text to its end. -/
def ReadsAll (items : List Item) (text : List Char) (fields : Fields) : Prop :=
  ∃ fields', read? items text fields = some ([], fields')

theorem read?_append (items items' : List Item) (text : List Char) (fields : Fields) :
    read? (items ++ items') text fields =
      (read? items text fields).bind fun (rest, fields) ↦ read? items' rest fields := by
  induction items generalizing text fields with
  | nil => rfl
  | cons item items ih =>
    rw [List.cons_append, read?, read?, Option.bind_eq_bind, Option.bind_assoc]
    exact Option.bind_congr fun state _ ↦ ih state.1 state.2

theorem readsAll_append_iff :
    ReadsAll (items ++ items') text fields ↔
      ∃ rest fields', read? items text fields = some (rest, fields') ∧
        ReadsAll items' rest fields' := by
  simp only [ReadsAll, read?_append, Option.bind_eq_some_iff, Prod.exists]
  constructor
  · rintro ⟨out, rest, fields', hfront, hrest⟩
    exact ⟨rest, fields', hfront, out, hrest⟩
  · rintro ⟨rest, fields', hfront, out, hrest⟩
    exact ⟨out, rest, fields', hfront, hrest⟩

theorem ReadsAll.eq_nil (h : ReadsAll [] text fields) : text = [] := by
  obtain ⟨fields', hread⟩ := h
  exact congrArg Prod.fst (Option.some.inj hread)

theorem ReadsAll.exists_read? {item : Item} (h : ReadsAll (item :: items) text fields) :
    ∃ rest fields', item.read? text fields = some (rest, fields') ∧
      ReadsAll items rest fields' := by
  obtain ⟨out, hread⟩ := h
  obtain ⟨⟨rest, fields'⟩, hitem, hrest⟩ := Option.bind_eq_some_iff.mp hread
  exact ⟨rest, fields', hitem, out, hrest⟩

theorem ReadsAll.exists_eq_cons {c : Char} (h : ReadsAll (.literal c :: items) text fields) :
    ∃ rest, text = c :: rest := by
  obtain ⟨rest, fields', hitem, -⟩ := h.exists_read?
  simp only [Item.read?, reduceCtorEq, if_false, Item.readSimple?] at hitem
  cases text with
  | nil => cases hitem
  | cons first cs =>
    by_cases hfirst : c = first
    · exact ⟨cs, by rw [hfirst]⟩
    · rw [Text.after?, if_neg hfirst] at hitem
      cases hitem

theorem ReadsAll.exists_number {part : Part} {padding : Padding}
    (h : ReadsAll (.number part padding :: items) text fields) :
    ∃ n rest fields', part.read? text = some (n, rest) ∧ ReadsAll items rest fields' := by
  obtain ⟨rest, fields', hitem, hrest⟩ := h.exists_read?
  simp only [Item.read?, reduceCtorEq, if_false, Item.readSimple?] at hitem
  obtain ⟨⟨n, rest'⟩, hnumber, hput⟩ := Option.bind_eq_some_iff.mp hitem
  obtain ⟨out, -, hout⟩ := Option.bind_eq_some_iff.mp hput
  obtain ⟨rfl, rfl⟩ := Prod.mk.inj (Option.some.inj hout)
  exact ⟨n, _, _, hnumber, hrest⟩

theorem readsAll_of_scan? (h : scan? items text = some fields) : ReadsAll items text .empty := by
  rw [scan?] at h
  split at h
  next fields' hread => exact ⟨fields', hread⟩
  next => cases h

/-! ## What a number leaves -/

/-- Reading a number passes over digits only. -/
theorem dropWhile_isDigit_of_leadingNumber? {width n : Nat}
    (h : leadingNumber? width text = some (n, rest)) :
    rest.dropWhile Char.isDigit = text.dropWhile Char.isDigit := by
  have hsplit := List.prefix_iff_eq_append.mp
    ((List.takeWhile_prefix Char.isDigit).trans (List.take_prefix width text))
  simp only [leadingNumber?] at h
  split at h
  · cases h
  · obtain ⟨-, rfl⟩ := Prod.mk.inj (Option.some.inj h)
    conv_rhs => rw [← hsplit, List.dropWhile_append_of_pos fun _ ↦ List.mem_takeWhile_imp]

/-- A number has a digit in front. -/
theorem isDigit_of_leadingNumber? {width n : Nat} {c : Char}
    (h : leadingNumber? width (c :: text) = some (n, rest)) : c.isDigit := by
  by_contra hc
  have hempty : ((c :: text).take width).takeWhile Char.isDigit = [] := by
    cases width with
    | zero => rfl
    | succ width => rw [List.take_succ_cons, List.takeWhile_cons_of_neg hc]
  simp only [leadingNumber?, hempty] at h
  cases h

variable {part : Part} {padding padding' : Padding} {width : Nat} {n : Int}

theorem Part.exists_leadingNumber? (hpart : part.width? = some width)
    (h : part.read? text = some (n, rest)) :
    ∃ m, leadingNumber? width (Text.trimStart text) = some (m, rest) := by
  unfold Part.read? at h
  split at h
  · cases hpart
  · cases hpart
  · simp only [hpart] at h
    obtain ⟨⟨m, rest'⟩, hnumber, hpair⟩ := Option.map_eq_some_iff.mp h
    obtain ⟨-, rfl⟩ := Prod.mk.inj hpair
    exact ⟨m, hnumber⟩

/-- A number starts with a digit, or with blanks before it. -/
theorem Part.exists_eq_cons (hpart : part.width? = some width)
    (h : part.read? text = some (n, rest)) :
    ∃ c cs, text = c :: cs ∧ (Text.isBlank c ∨ c.isDigit) := by
  obtain ⟨m, hnumber⟩ := Part.exists_leadingNumber? hpart h
  cases text with
  | nil =>
    rw [Text.trimStart, List.dropWhile_nil, leadingNumber?, List.take_nil] at hnumber
    cases hnumber
  | cons c cs =>
    refine ⟨c, cs, rfl, ?_⟩
    by_cases hblank : Text.isBlank c
    · exact .inl hblank
    · rw [trimStart_cons cs (Bool.eq_false_iff.mpr hblank)] at hnumber
      exact .inr (isDigit_of_leadingNumber? hnumber)

theorem Part.read?_trimStart (part : Part) (text : List Char) :
    part.read? (Text.trimStart text) = part.read? text := by
  have htrim : Text.trimStart (Text.trimStart text) = Text.trimStart text :=
    List.dropWhile_idempotent Text.isBlank text
  unfold Part.read?
  rw [htrim]

/-- A blank of a pattern adds nothing to the blanks that a number may have in front. -/
theorem ReadsAll.of_blank_number {c : Char}
    (h : ReadsAll (.blank c :: .number part padding :: items) text fields) :
    ReadsAll (.number part padding :: items) text fields := by
  obtain ⟨rest, fields', hblank, hrest⟩ := h.exists_read?
  simp only [Item.read?, reduceCtorEq, if_false, Item.readSimple?] at hblank
  obtain ⟨rfl, rfl⟩ := Prod.mk.inj (Option.some.inj hblank)
  have hitem : (Item.number part padding).read? (Text.trimStart text) fields =
      (Item.number part padding).read? text fields := by
    simp only [Item.read?, reduceCtorEq, if_false, Item.readSimple?, Part.read?_trimStart]
  obtain ⟨out, hread⟩ := hrest
  refine ⟨out, ?_⟩
  rw [read?, ← hitem]
  exact hread

/-! ## The first sign -/

/-- What comes after the digits that a text starts with, blanks aside. -/
def firstSign (text : List Char) : Option Char :=
  ((Text.trimStart text).dropWhile Char.isDigit).head?

/-- A number is only digits, so that what has to come after it is the first sign. -/
theorem firstSign_of_leadingNumber? {m : Nat} {c : Char} {cs : List Char} (hc : c.isDigit = false)
    (h : leadingNumber? width (Text.trimStart text) = some (m, c :: cs)) :
    firstSign text = some c := by
  rw [firstSign, ← dropWhile_isDigit_of_leadingNumber? h,
    List.dropWhile_cons_of_neg (Bool.eq_false_iff.mp hc)]
  rfl

theorem firstSign_of_number (hpart : part.width? = some width) {c : Char}
    (hc : c.isDigit = false)
    (h : ReadsAll (.number part padding :: .literal c :: items) text fields) :
    firstSign text = some c := by
  obtain ⟨n, rest, fields', hread, hrest⟩ := h.exists_number
  obtain ⟨m, hnumber⟩ := Part.exists_leadingNumber? hpart hread
  obtain ⟨cs, rfl⟩ := hrest.exists_eq_cons
  exact firstSign_of_leadingNumber? hc hnumber

/-- A year may also have a sign in front of its digits. -/
theorem firstSign_of_year {c : Char} (hc : c.isDigit = false)
    (h : ReadsAll (.number .year padding :: .literal c :: items) text fields) :
    firstSign text ∈ [some '-', some '+', some c] := by
  obtain ⟨n, rest, fields', hread, hrest⟩ := h.exists_number
  obtain ⟨cs, rfl⟩ := hrest.exists_eq_cons
  have hyear : leadingYear? (Text.trimStart text) = some (n, c :: cs) := hread
  unfold leadingYear? at hyear
  split at hyear
  next htext =>
    have hsign : firstSign text = some '-' := by
      rw [firstSign, htext]
      rfl
    exact List.mem_cons.mpr (.inl hsign)
  next htext =>
    have hsign : firstSign text = some '+' := by
      rw [firstSign, htext]
      rfl
    exact List.mem_cons_of_mem _ (List.mem_cons.mpr (.inl hsign))
  next =>
    obtain ⟨⟨m, rest⟩, hnumber, hpair⟩ := Option.map_eq_some_iff.mp hyear
    obtain ⟨-, rfl⟩ := Prod.mk.inj hpair
    rw [firstSign_of_leadingNumber? hc hnumber]
    exact List.mem_cons_of_mem _ (List.mem_cons_of_mem _ List.mem_cons_self)

/-! ## Items that are apart -/

/-- No text is read to its end by both. -/
def Apart (items items' : List Item) : Prop :=
  ∀ text fields, ReadsAll items text fields → ¬ReadsAll items' text fields

theorem Apart.symm (h : Apart items items') : Apart items' items :=
  fun text fields hread hread' ↦ h text fields hread' hread

/-- What is read in front is read in the same way. -/
theorem Apart.append_left (front : List Item) (h : Apart items items') :
    Apart (front ++ items) (front ++ items') := by
  intro text fields hread hread'
  obtain ⟨rest, fields', hfront, hrest⟩ := readsAll_append_iff.mp hread
  obtain ⟨rest', fields'', hfront', hrest'⟩ := readsAll_append_iff.mp hread'
  obtain ⟨rfl, rfl⟩ := Prod.mk.inj (Option.some.inj (hfront.symm.trans hfront'))
  exact h _ _ hrest hrest'

theorem apart_literal_nil (c : Char) : Apart (.literal c :: items) [] := by
  intro text fields hread hnil
  obtain ⟨rest, htext⟩ := hread.exists_eq_cons
  rw [hnil.eq_nil] at htext
  cases htext

theorem apart_number_nil (hpart : part.width? = some width) :
    Apart (.number part padding :: items) [] := by
  intro text fields hread hnil
  obtain ⟨n, rest, fields', hnumber, -⟩ := hread.exists_number
  obtain ⟨c, cs, htext, -⟩ := Part.exists_eq_cons hpart hnumber
  rw [hnil.eq_nil] at htext
  cases htext

theorem apart_literal_number {c : Char} (hblank : Text.isBlank c = false)
    (hdigit : c.isDigit = false) (hpart : part.width? = some width) :
    Apart (.literal c :: items) (.number part padding :: items') := by
  intro text fields hread hread'
  obtain ⟨rest, rfl⟩ := hread.exists_eq_cons
  obtain ⟨n, rest, fields', hnumber, -⟩ := hread'.exists_number
  obtain ⟨c', cs, htext, hfirst⟩ := Part.exists_eq_cons hpart hnumber
  obtain ⟨rfl, rfl⟩ := List.cons.inj htext
  exact hfirst.elim (Bool.eq_false_iff.mp hblank) (Bool.eq_false_iff.mp hdigit)

/-- A year in front and a day in front are never the same text: no day has the sign of a year, and
the signs after them are not the same. -/
theorem apart_year_day :
    Apart (.number .year padding :: .literal '-' :: items)
      (.number .day padding' :: .literal '.' :: items') := by
  intro text fields hyear hday
  have hsigns := firstSign_of_year (by decide) hyear
  rw [firstSign_of_number rfl (by decide) hday] at hsigns
  exact absurd hsigns (by decide)

/-! ## The items of the default patterns -/

/-- Day, month and year, points between them. -/
def dayMonthYear : List Item :=
  [.number .day .zeros, .literal '.', .number .month .zeros, .literal '.', .number .year .zeros]

/-- Hour, minute and second, and the fraction of the second. -/
def timeOfDay : List Item := hourMinuteSecond ++ [.fraction]

/-- What may come after a date that starts with the year. -/
def yearFirstTails : List (List Item) := [.literal 'T' :: timeOfDay, .blank ' ' :: timeOfDay, []]

/-- What may come after a date that starts with the day. -/
def dayFirstTails : List (List Item) := [.blank ' ' :: timeOfDay, .blank ' ' :: hourMinute, []]

/-- The items of the default patterns, by their dates. -/
def defaultItems : List (List Item) :=
  yearFirstTails.map (yearMonthDay ++ ·) ++ dayFirstTails.map (dayMonthYear ++ ·)

theorem Apart.of_blank {c : Char} (h : Apart items (.number part padding :: items')) :
    Apart items (.blank c :: .number part padding :: items') :=
  fun text fields hread hread' ↦ h text fields hread hread'.of_blank_number

theorem apart_blank_nil {c : Char} (hpart : part.width? = some width) :
    Apart (.blank c :: .number part padding :: items) [] :=
  (apart_number_nil hpart).symm.of_blank.symm

theorem pairwise_yearFirstTails : yearFirstTails.Pairwise Apart := by
  have hseparator : Apart (.literal 'T' :: timeOfDay) (.blank ' ' :: timeOfDay) :=
    (apart_literal_number (by decide) (by decide) rfl).of_blank
  have hdate : Apart (.literal 'T' :: timeOfDay) [] := apart_literal_nil 'T'
  have hspaced : Apart (.blank ' ' :: timeOfDay) [] := apart_blank_nil rfl
  simp [yearFirstTails, hseparator, hdate, hspaced]

theorem pairwise_dayFirstTails : dayFirstTails.Pairwise Apart := by
  have hseconds : Apart (.blank ' ' :: timeOfDay) (.blank ' ' :: hourMinute) :=
    (apart_literal_nil ':').append_left (.blank ' ' :: hourMinute)
  have hlong : Apart (.blank ' ' :: timeOfDay) [] := apart_blank_nil rfl
  have hshort : Apart (.blank ' ' :: hourMinute) [] := apart_blank_nil rfl
  simp [dayFirstTails, hseconds, hlong, hshort]

theorem pairwise_defaultItems : defaultItems.Pairwise Apart := by
  refine List.pairwise_append.mpr ⟨?_, ?_, ?_⟩
  · exact List.pairwise_map.mpr
      (pairwise_yearFirstTails.imp fun h ↦ h.append_left yearMonthDay)
  · exact List.pairwise_map.mpr
      (pairwise_dayFirstTails.imp fun h ↦ h.append_left dayMonthYear)
  · simp only [List.forall_mem_map]
    exact fun _ _ _ _ ↦ apart_year_day

end Calendar

/-! ## Layouts -/

namespace Moment

open Calendar

/-- A pattern, and what is read by it. -/
inductive Layout where
  /-- A date with a time. -/
  | dateTime (pattern : String)
  /-- A date alone, at its midnight. -/
  | date (pattern : String)
  deriving DecidableEq

namespace Layout

/-- The pattern of a layout. -/
def pattern : Layout → String
  | dateTime pattern | date pattern => pattern

/-- The items of the pattern. -/
def items? (layout : Layout) : Option (List Item) := Calendar.items? layout.pattern.toList

/-- The moment a text is by a layout. -/
def read? (text : List Char) : Layout → Option Moment
  | dateTime pattern => ofPattern? text pattern
  | date pattern => ofDatePattern? text pattern

variable {layout : Layout} {text : List Char}

/-- A text that a layout accepts is read to its end by the items of its pattern. -/
theorem exists_readsAll (h : (layout.read? text).isSome) :
    ∃ items ∈ layout.items?, ReadsAll items text .empty := by
  obtain ⟨m, hread⟩ := Option.isSome_iff_exists.mp h
  cases layout with
  | dateTime pattern =>
    obtain ⟨items, hitems, hmoment⟩ := Option.bind_eq_some_iff.mp hread
    obtain ⟨fields, hscan, -⟩ := Option.bind_eq_some_iff.mp hmoment
    exact ⟨items, hitems, readsAll_of_scan? hscan⟩
  | date pattern =>
    obtain ⟨items, hitems, hmidnight⟩ := Option.bind_eq_some_iff.mp hread
    obtain ⟨date, hdate, -⟩ := Option.map_eq_some_iff.mp hmidnight
    obtain ⟨fields, hscan, -⟩ := Option.bind_eq_some_iff.mp hdate
    exact ⟨items, hitems, readsAll_of_scan? hscan⟩

end Layout

/-- The layouts that are understood without being told, in the order they are tried. -/
def defaultLayouts : List Layout :=
  defaultPatterns.map .dateTime ++ defaultDatePatterns.map .date

/-- Reads a date, with a time or without, by the first layout that accepts it. -/
def parseBy (layouts : List Layout) (text : String) : Except VariableError Moment :=
  match layouts.findSome? (Layout.read? (Text.trim text.toList)) with
  | some m => .ok m
  | none => .error (.invalidCast text Kind.dateTime.name)

theorem ofPatterns?_eq_findSome? (text : List Char) (patterns datePatterns : List String) :
    ofPatterns? text patterns datePatterns =
      (patterns.map Layout.dateTime ++ datePatterns.map Layout.date).findSome?
        (Layout.read? text) := by
  have htimes : Layout.read? text ∘ Layout.dateTime = ofPattern? text := rfl
  have hdates : Layout.read? text ∘ Layout.date = ofDatePattern? text := rfl
  rw [List.findSome?_append, List.findSome?_map, List.findSome?_map, htimes, hdates, ofPatterns?]
  cases patterns.findSome? (ofPattern? text) <;> rfl

theorem parse_none_eq_parseBy (text : String) :
    Moment.parse text none = parseBy defaultLayouts text := by
  rw [parse, parseBy]
  simp only [ofPatterns?_eq_findSome?]
  rfl

theorem items?_defaultLayouts :
    (defaultLayouts.map Layout.items?).Perm (defaultItems.map some) := by
  decide +kernel

/-- No text is accepted by two of the layouts. -/
theorem pairwise_defaultLayouts (text : List Char) :
    defaultLayouts.Pairwise fun layout layout' ↦
      (layout.read? text).isSome → ¬(layout'.read? text).isSome := by
  have hsome : (defaultItems.map some).Pairwise fun items? items?' ↦
      ∀ items ∈ items?, ∀ items' ∈ items?', Apart items items' := by
    rw [List.pairwise_map]
    refine pairwise_defaultItems.imp fun hapart items hitems items' hitems' ↦ ?_
    obtain rfl := Option.some.inj hitems
    obtain rfl := Option.some.inj hitems'
    exact hapart
  -- The items come by their dates here, and the layouts as they are tried.
  have hpairwise := hsome.perm items?_defaultLayouts.symm
    fun h items hitems items' hitems' ↦ (h items' hitems' items hitems).symm
  refine (List.pairwise_map.mp hpairwise).imp fun hapart haccepts haccepts' ↦ ?_
  obtain ⟨items, hitems, hreads⟩ := Layout.exists_readsAll haccepts
  obtain ⟨items', hitems', hreads'⟩ := Layout.exists_readsAll haccepts'
  exact hapart items hitems items' hitems' text .empty hreads hreads'

/-! ## Any order -/

/-- **The default patterns never compete.** Whatever the text is, one of the six layouts at most
accepts it without the blanks around it, and reading by the layouts in any order gives the moment,
or the error, that reading without a pattern gives. -/
theorem parse_default_any_order (text : String) :
    defaultLayouts.countP (fun layout ↦ (layout.read? (Text.trim text.toList)).isSome) ≤ 1 ∧
      ∀ layouts : List Layout, layouts.Perm defaultLayouts →
        parseBy layouts text = Moment.parse text none := by
  have hone := countP_le_one_of_pairwise (pairwise_defaultLayouts (Text.trim text.toList))
  refine ⟨hone, fun layouts hperm ↦ ?_⟩
  rw [parse_none_eq_parseBy, parseBy, parseBy, findSome?_eq_of_perm hperm hone]

/-- With the layouts tried from the last to the first, a text with blanks and a signed year in it is
the same moment. -/
theorem parse_default_reversed :
    parseBy defaultLayouts.reverse " 5.2.+2024 7:3:9.5 " =
        Moment.parse " 5.2.+2024 7:3:9.5 " none ∧
      (Moment.parse " 5.2.+2024 7:3:9.5 " none).toOption.isSome :=
  ⟨(parse_default_any_order " 5.2.+2024 7:3:9.5 ").2 _ (List.reverse_perm _), by decide +kernel⟩

end Moment
end Playbook
