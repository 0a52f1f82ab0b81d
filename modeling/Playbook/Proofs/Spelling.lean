import Playbook.Proofs.JsonReading
import Mathlib.Data.List.TakeWhile

/-!
# How JSON is spelled

A document is a list of tokens, and a text spells it if it has the tokens one after the other with
any blanks around them. A token has one spelling, with two exceptions: a string may be spelled with
escapes, and a number in different ways.

Both sides of the library keep to this. What is written for a value spells the document that writes
it, and what the reader takes off a text spells the document that it has read. So what is true of
all spellings is true of all that is written and of all that is read.
-/

namespace Playbook.Json

/-- A token. -/
inductive Token where
  /-- A bracket, a brace, a comma or a colon. -/
  | mark (c : Char)
  | null
  | bool (b : Bool)
  | number (n : Option Number)
  | string (s : Option String)

/-- The texts of a token. Numbers and strings are spelled as they are written, or in any way in
which they are read where a rest follows them. -/
def Token.IsText : Token → List Char → Prop
  | .mark c, text => text = [c]
  | .null, text => text = ['n', 'u', 'l', 'l']
  | .bool true, text => text = ['t', 'r', 'u', 'e']
  | .bool false, text => text = ['f', 'a', 'l', 's', 'e']
  | .number n, text => (∃ m, n = some m ∧ text = m.text) ∨
      ∃ numeral rest, Numeral.read? (text ++ rest) = some (numeral, rest) ∧ numeral.number? = n
  | .string s, text =>
    ∃ spelled rest, text = '"' :: spelled ∧ string? (spelled ++ rest) = some (s, rest)

/-- Whether a text has tokens one after the other, with blanks around them. -/
inductive Spelled : List Token → List Char → Prop
  | nil {gap : List Char} (hgap : ∀ c ∈ gap, isSpace c) : Spelled [] gap
  | cons {gap text rest : List Char} {token : Token} {tokens : List Token}
      (hgap : ∀ c ∈ gap, isSpace c) (htext : token.IsText text) (hrest : Spelled tokens rest) :
      Spelled (token :: tokens) (gap ++ (text ++ rest))

namespace Spelled

variable {tokens more : List Token} {token : Token} {text rest gap : List Char}

theorem empty : Spelled [] [] := .nil nofun

theorem cons_token (htext : token.IsText text) (hrest : Spelled tokens rest) :
    Spelled (token :: tokens) (text ++ rest) := cons (List.forall_mem_nil _) htext hrest

theorem cons_mark (c : Char) (hrest : Spelled tokens rest) :
    Spelled (.mark c :: tokens) (c :: rest) :=
  have htext : (Token.mark c).IsText [c] := rfl
  cons_token htext hrest

theorem of_isText (htext : token.IsText text) : Spelled [token] text := by
  rw [← List.append_nil text]
  exact cons_token htext empty

theorem after_gap (hgap : ∀ c ∈ gap, isSpace c) (h : Spelled tokens text) :
    Spelled tokens (gap ++ text) := by
  cases h with
  | nil hmore => exact nil (List.forall_mem_append.mpr ⟨hgap, hmore⟩)
  | cons hmore htext hrest =>
    rw [← List.append_assoc]
    exact cons (List.forall_mem_append.mpr ⟨hgap, hmore⟩) htext hrest

theorem append (h : Spelled tokens text) (hmore : Spelled more rest) :
    Spelled (tokens ++ more) (text ++ rest) := by
  induction h with
  | nil hgap => exact hmore.after_gap hgap
  | cons hgap htext _ ih =>
    rw [List.cons_append, List.append_assoc, List.append_assoc]
    exact cons hgap htext ih

end Spelled

/-! ## Tokens of documents -/

namespace Written

mutual

/-- The tokens of a document. -/
def tokens : Written → List Token
  | .null => [.null]
  | .bool b => [.bool b]
  | .number n => [.number n]
  | .string s => [.string s]
  | .array items => .mark '[' :: (itemTokens items ++ [.mark ']'])
  | .object members => .mark '{' :: (memberTokens members ++ [.mark '}'])

/-- The tokens of the items of an array, with commas between them. -/
def itemTokens : List Written → List Token
  | [] => []
  | [item] => tokens item
  | item :: next :: rest => tokens item ++ .mark ',' :: itemTokens (next :: rest)

/-- The tokens of the members of an object, with commas between them. -/
def memberTokens : List (Option String × Written) → List Token
  | [] => []
  | [(name, value)] => .string name :: .mark ':' :: tokens value
  | (name, value) :: next :: rest =>
    .string name :: .mark ':' :: (tokens value ++ .mark ',' :: memberTokens (next :: rest))

end

theorem itemTokens_cons (item : Written) {items : List Written} (h : items ≠ []) :
    itemTokens (item :: items) = tokens item ++ .mark ',' :: itemTokens items := by
  obtain ⟨next, rest, rfl⟩ := List.exists_cons_of_ne_nil h
  rw [itemTokens]

theorem memberTokens_cons (name : Option String) (value : Written)
    {members : List (Option String × Written)} (h : members ≠ []) :
    memberTokens ((name, value) :: members) =
      .string name :: .mark ':' :: (tokens value ++ .mark ',' :: memberTokens members) := by
  obtain ⟨next, rest, rfl⟩ := List.exists_cons_of_ne_nil h
  rw [memberTokens]

end Written

/-! ## What is written -/

open Written

theorem isText_quoted (s : String) : (Token.string (some s)).IsText (quoted s) := by
  refine ⟨s.toList.flatMap escape ++ ['"'], [], rfl, ?_⟩
  rw [List.append_nil]
  exact string?_flatMap_escape s []

mutual

/-- What is written for a value spells its document. -/
theorem spelled_compact : ∀ value : Json, Spelled (ofJson value).tokens value.compact
  | .null => .of_isText rfl
  | .bool true => .of_isText rfl
  | .bool false => .of_isText rfl
  | .number n => .of_isText (.inl ⟨n, rfl, rfl⟩)
  | .string s => .of_isText (isText_quoted s)
  | .array items =>
    .cons_mark '[' ((spelled_compactItems items).append (.of_isText rfl))
  | .object members =>
    .cons_mark '{' ((spelled_compactMembers members).append (.of_isText rfl))

theorem spelled_compactItems : ∀ items, Spelled (itemTokens (ofItems items)) (compactItems items)
  | [] => .empty
  | [item] => spelled_compact item
  | item :: next :: rest =>
    (spelled_compact item).append (.cons_mark ',' (spelled_compactItems (next :: rest)))

theorem spelled_compactMembers :
    ∀ members, Spelled (memberTokens (ofMembers members)) (compactMembers members)
  | [] => .empty
  | [(name, value)] =>
    .cons_token (isText_quoted name) (.cons_mark ':' (spelled_compact value))
  | (name, value) :: next :: rest =>
    .cons_token (isText_quoted name) (.cons_mark ':'
      ((spelled_compact value).append (.cons_mark ',' (spelled_compactMembers (next :: rest)))))

end

/-! ## What is read -/

/-- Whether a text starts with a spelling of tokens that a rest follows. -/
def Leads (tokens : List Token) (text rest : List Char) : Prop :=
  ∃ spelled, text = spelled ++ rest ∧ Spelled tokens spelled

namespace Leads

variable {tokens more : List Token} {token : Token} {first second third : List Char}

theorem append (h : Leads tokens first second) (hmore : Leads more second third) :
    Leads (tokens ++ more) first third := by
  obtain ⟨text, rfl, htext⟩ := h
  obtain ⟨rest, rfl, hrest⟩ := hmore
  exact ⟨text ++ rest, (List.append_assoc _ _ _).symm, htext.append hrest⟩

theorem cons (h : Leads [token] first second) (hmore : Leads tokens second third) :
    Leads (token :: tokens) first third := h.append hmore

theorem mark (c : Char) (rest : List Char) : Leads [.mark c] (c :: rest) rest :=
  ⟨[c], rfl, .of_isText rfl⟩

theorem of_skipSpace (h : Leads tokens (skipSpace first) second) : Leads tokens first second := by
  obtain ⟨text, htext, hspelled⟩ := h
  refine ⟨first.takeWhile isSpace ++ text, ?_, hspelled.after_gap fun c ↦ List.mem_takeWhile_imp⟩
  rw [List.append_assoc, ← htext, Json.skipSpace, List.takeWhile_append_dropWhile]

/-- The blanks before the rest belong to what is spelled. -/
theorem skipSpace (h : Leads tokens first second) : Leads tokens first (skipSpace second) := by
  have hgap : Leads [] second (Json.skipSpace second) :=
    ⟨second.takeWhile isSpace, List.takeWhile_append_dropWhile.symm,
      .nil fun _ ↦ List.mem_takeWhile_imp⟩
  rw [← List.append_nil tokens]
  exact h.append hgap

end Leads

/-! ### Strings and numerals -/

/-- Whether a text starts with what codes come of and a rest follows. A brace there has its code
among them. -/
def Codes (codes : List Nat) (text rest : List Char) : Prop :=
  ∃ spelled, text = spelled ++ rest ∧ ('{' ∈ spelled → '{'.toNat ∈ codes)

theorem Codes.cons {codes : List Nat} {text rest piece : List Char} {code : Nat}
    (hpiece : '{' ∈ piece → code = '{'.toNat) (h : Codes codes text rest) :
    Codes (code :: codes) (piece ++ text) rest := by
  obtain ⟨spelled, rfl, hbrace⟩ := h
  refine ⟨piece ++ spelled, (List.append_assoc _ _ _).symm, fun hmem ↦ ?_⟩
  rcases List.mem_append.mp hmem with hmem | hmem
  · rw [hpiece hmem]
    exact List.mem_cons_self
  · exact List.mem_cons_of_mem _ (hbrace hmem)

theorem brace_notMem_of_hexValue4? {a b c d : Char} {n : Nat} (h : hexValue4? a b c d = some n) :
    '{' ∉ [a, b, c, d] := by
  have hnone : hexValue? '{' = none := by decide
  simp only [hexValue4?, Option.bind_eq_bind, Option.bind_eq_some_iff] at h
  obtain ⟨_, ha, _, hb, _, hc, _, hd, -⟩ := h
  have hne : ∀ {x : Char} {value : Nat}, hexValue? x = some value → '{' ≠ x := by
    rintro x value hx rfl
    rw [hnone] at hx
    cases hx
  simp only [List.mem_cons, List.not_mem_nil, or_false, not_or]
  exact ⟨hne ha, hne hb, hne hc, hne hd⟩

/-- The codes of a string come of what stands before the rest. -/
theorem codes_of_codes?_eq_some {cs rest : List Char} {codes : List Nat}
    (h : codes? cs = some (codes, rest)) : Codes codes cs rest := by
  fun_induction codes? cs generalizing codes with
  | case1 => cases h
  | case2 rest' =>
    cases h
    exact ⟨['"'], rfl, by decide⟩
  | case3 a b c d rest' ih =>
    simp only [Option.bind_eq_bind, Option.bind_eq_some_iff] at h
    obtain ⟨code, hcode, ⟨codes, rest⟩, hrest, heq⟩ := h
    cases heq
    have hpiece : '{' ∈ ['\\', 'u', a, b, c, d] → code = '{'.toNat := fun hmem ↦ by
      have hdigit : '{' ∈ [a, b, c, d] := by simpa using hmem
      exact absurd hdigit (brace_notMem_of_hexValue4? hcode)
    exact (ih hrest).cons hpiece
  | case4 c rest' hunicode ih =>
    simp only [Option.bind_eq_bind, Option.bind_eq_some_iff] at h
    obtain ⟨code, hcode, ⟨codes, rest⟩, hrest, heq⟩ := h
    cases heq
    have hpiece : '{' ∈ ['\\', c] → code = '{'.toNat := fun hmem ↦ by
      obtain rfl : '{' = c := by simpa using hmem
      exact absurd hcode nofun
    exact (ih hrest).cons hpiece
  | case5 => cases h
  | case6 c rest' _ _ _ _ ih =>
    simp only [Option.bind_eq_bind, Option.bind_eq_some_iff] at h
    obtain ⟨⟨codes, rest⟩, hrest, heq⟩ := h
    cases heq
    have hpiece : '{' ∈ [c] → c.toNat = '{'.toNat := fun hmem ↦ by rw [List.mem_singleton.mp hmem]
    exact (ih hrest).cons hpiece

theorem mem_of_characters?_eq_some {codes : List Nat} {text : List Char}
    (h : characters? codes = some text) (hbrace : '{'.toNat ∈ codes) : '{' ∈ text := by
  fun_induction characters? codes generalizing text with
  | case1 => cases hbrace
  | case2 => cases h
  | case3 code =>
    cases h
    rw [← List.mem_singleton.mp hbrace, List.mem_singleton, Char.ofNat_toNat]
  | case4 => cases h
  | case5 code next rest _ hcode hnext ih =>
    -- The code of a brace is no half of a surrogate pair.
    obtain ⟨chars, hchars, rfl⟩ := Option.map_eq_some_iff.mp h
    rcases List.mem_cons.mp hbrace with rfl | hbrace
    · exact absurd hcode (by decide)
    rcases List.mem_cons.mp hbrace with rfl | hbrace
    · exact absurd hnext (by decide)
    exact List.mem_cons_of_mem _ (ih hchars hbrace)
  | case6 => cases h
  | case7 code next rest _ _ ih =>
    obtain ⟨chars, hchars, rfl⟩ := Option.map_eq_some_iff.mp h
    rcases List.mem_cons.mp hbrace with rfl | hbrace
    · rw [Char.ofNat_toNat]
      exact List.mem_cons_self
    · exact List.mem_cons_of_mem _ (ih hchars hbrace)

/-- A string comes of what stands before the rest, and a brace there is one of its characters. -/
theorem exists_of_string?_eq_some {cs rest : List Char} {s : Option String}
    (h : string? cs = some (s, rest)) :
    ∃ spelled, cs = spelled ++ rest ∧ ('{' ∈ spelled → ∀ t ∈ s, '{' ∈ t.toList) := by
  obtain ⟨⟨codes, rest⟩, hcodes, heq⟩ := Option.map_eq_some_iff.mp h
  cases heq
  obtain ⟨spelled, hcs, hbrace⟩ := codes_of_codes?_eq_some hcodes
  refine ⟨spelled, hcs, fun hmem t ht ↦ ?_⟩
  obtain ⟨chars, hchars, rfl⟩ := Option.map_eq_some_iff.mp ht
  rw [String.toList_ofList]
  exact mem_of_characters?_eq_some hchars (hbrace hmem)

namespace Numeral

/-- Whether a rest is left of a text after something without braces. -/
def Leaves (text rest : List Char) : Prop := ∃ read, text = read ++ rest ∧ '{' ∉ read

variable {first second third : List Char}

theorem Leaves.refl (text : List Char) : Leaves text text := ⟨[], rfl, nofun⟩

theorem Leaves.trans (h : Leaves first second) (h' : Leaves second third) :
    Leaves first third := by
  obtain ⟨read, rfl, hread⟩ := h
  obtain ⟨more, rfl, hmore⟩ := h'
  refine ⟨read ++ more, (List.append_assoc _ _ _).symm, ?_⟩
  rw [List.mem_append, not_or]
  exact ⟨hread, hmore⟩

theorem Leaves.tail {c : Char} (hc : c ≠ '{') (text : List Char) : Leaves (c :: text) text :=
  ⟨[c], rfl, fun hmem ↦ hc (List.mem_singleton.mp hmem).symm⟩

theorem leaves_digits (cs : List Char) : Leaves cs (cs.dropWhile Char.isDigit) := by
  refine ⟨cs.takeWhile Char.isDigit, List.takeWhile_append_dropWhile.symm, fun hmem ↦ ?_⟩
  exact absurd (List.mem_takeWhile_imp hmem) (by decide)

theorem leaves_of_whole? {cs rest digits : List Char} (h : whole? cs = some (digits, rest)) :
    Leaves cs rest := by
  unfold whole? at h
  split at h
  · split at h <;> cases h
    exact .tail (by decide) _
  · dsimp only at h
    split at h <;> cases h
    exact leaves_digits cs

theorem leaves_of_fraction? {cs rest : List Char} {fraction : Option (List Char)}
    (h : fraction? cs = some (fraction, rest)) : Leaves cs rest := by
  unfold fraction? at h
  split at h
  · dsimp only at h
    split at h <;> cases h
    exact (Leaves.tail (by decide) _).trans (leaves_digits _)
  · cases h
    exact .refl _

theorem leaves_exponentSign (cs : List Char) : Leaves cs (exponentSign cs).2 := by
  unfold exponentSign
  split
  · exact .tail (by decide) _
  · exact .tail (by decide) _
  · exact .refl _

theorem leaves_of_exponent? {cs rest : List Char} {exponent : Option Int}
    (h : exponent? cs = some (exponent, rest)) : Leaves cs rest := by
  unfold exponent? at h
  split at h
  · cases h
    exact .refl _
  next c cs =>
    split at h
    next hmark =>
      dsimp only at h
      split at h <;> cases h
      have hc : c ≠ '{' := by
        rintro rfl
        exact absurd hmark (by decide)
      exact (Leaves.tail hc _).trans ((leaves_exponentSign cs).trans (leaves_digits _))
    · cases h
      exact .refl _

/-- A numeral comes of what stands before the rest, and no brace is there. -/
theorem leaves_of_read? {cs rest : List Char} {numeral : Numeral}
    (h : read? cs = some (numeral, rest)) : Leaves cs rest := by
  simp only [read?, Option.bind_eq_bind, Option.bind_eq_some_iff] at h
  obtain ⟨⟨whole, afterWhole⟩, hwhole, ⟨fraction, afterFraction⟩, hfraction,
    ⟨exponent, afterExponent⟩, hexponent, heq⟩ := h
  cases heq
  have htail := (leaves_of_whole? hwhole).trans
    ((leaves_of_fraction? hfraction).trans (leaves_of_exponent? hexponent))
  split at htail
  · exact (Leaves.tail (by decide) _).trans htail
  · exact htail

end Numeral

/-! ### Documents -/

namespace Written

theorem leads_scalar? {cs rest : List Char} {document : Written}
    (h : scalar? cs = some (document, rest)) : Leads document.tokens cs rest := by
  unfold scalar? at h
  split at h
  · cases h
    exact ⟨['n', 'u', 'l', 'l'], rfl, .of_isText rfl⟩
  · cases h
    exact ⟨['t', 'r', 'u', 'e'], rfl, .of_isText rfl⟩
  · cases h
    exact ⟨['f', 'a', 'l', 's', 'e'], rfl, .of_isText rfl⟩
  · obtain ⟨⟨s, rest⟩, hstring, heq⟩ := Option.map_eq_some_iff.mp h
    cases heq
    obtain ⟨spelled, rfl, -⟩ := exists_of_string?_eq_some hstring
    exact ⟨'"' :: spelled, rfl, .of_isText ⟨spelled, rest, rfl, hstring⟩⟩
  · obtain ⟨⟨numeral, rest⟩, hnumeral, heq⟩ := Option.map_eq_some_iff.mp h
    cases heq
    obtain ⟨read, rfl, -⟩ := Numeral.leaves_of_read? hnumeral
    exact ⟨read, rfl, .of_isText (.inr ⟨numeral, rest, hnumeral, rfl⟩)⟩

theorem leads_name? {cs rest : List Char} {name : Option String}
    (h : name? cs = some (name, rest)) : Leads [.string name, .mark ':'] cs rest := by
  unfold name? at h
  split at h
  · simp only [Option.bind_eq_bind, Option.bind_eq_some_iff] at h
    obtain ⟨⟨s, afterName⟩, hstring, hcolon⟩ := h
    obtain ⟨spelled, rfl, -⟩ := exists_of_string?_eq_some hstring
    split at hcolon
    next afterColon heq =>
      cases hcolon
      have hname : Leads [.string s] ('"' :: (spelled ++ afterName)) afterName :=
        ⟨'"' :: spelled, rfl, .of_isText ⟨spelled, afterName, rfl, hstring⟩⟩
      have hmark : Leads [.mark ':'] afterName afterColon :=
        .of_skipSpace (heq ▸ .mark ':' afterColon)
      exact hname.cons hmark.skipSpace
    · cases hcolon
  · cases h

/-- What the reader of items has read before and after the first item. -/
theorem items?_cases {fuel : Nat} {cs rest : List Char} {items : List Written}
    (h : items? (fuel + 1) cs = some (items, rest)) :
    ∃ item afterItem, document? fuel cs = some (item, afterItem) ∧
      (skipSpace afterItem = ']' :: rest ∧ items = [item] ∨
        ∃ afterMark more, skipSpace afterItem = ',' :: afterMark ∧
          items? fuel (skipSpace afterMark) = some (more, rest) ∧ items = item :: more) := by
  simp only [items?, Option.bind_eq_bind, Option.bind_eq_some_iff] at h
  obtain ⟨⟨item, afterItem⟩, hitem, hnext⟩ := h
  refine ⟨item, afterItem, hitem, ?_⟩
  split at hnext
  · cases hnext
    exact .inl ⟨‹_›, rfl⟩
  · obtain ⟨⟨more, rest⟩, hmore, heq⟩ := Option.bind_eq_some_iff.mp hnext
    cases heq
    exact .inr ⟨_, more, ‹_›, hmore, rfl⟩
  · cases hnext

/-- What the reader of members has read before and after the first member. -/
theorem members?_cases {fuel : Nat} {cs rest : List Char} {members : List (Option String × Written)}
    (h : members? (fuel + 1) cs = some (members, rest)) :
    ∃ name afterName value afterValue, name? cs = some (name, afterName) ∧
      document? fuel afterName = some (value, afterValue) ∧
      (skipSpace afterValue = '}' :: rest ∧ members = [(name, value)] ∨
        ∃ afterMark more, skipSpace afterValue = ',' :: afterMark ∧
          members? fuel (skipSpace afterMark) = some (more, rest) ∧
          members = (name, value) :: more) := by
  simp only [members?, Option.bind_eq_bind, Option.bind_eq_some_iff] at h
  obtain ⟨⟨name, afterName⟩, hname, ⟨value, afterValue⟩, hvalue, hnext⟩ := h
  refine ⟨name, afterName, value, afterValue, hname, hvalue, ?_⟩
  split at hnext
  · cases hnext
    exact .inl ⟨‹_›, rfl⟩
  · obtain ⟨⟨more, rest⟩, hmore, heq⟩ := Option.bind_eq_some_iff.mp hnext
    cases heq
    exact .inr ⟨_, more, ‹_›, hmore, rfl⟩
  · cases hnext

theorem ne_nil_of_items? {fuel : Nat} {cs rest : List Char} {items : List Written}
    (h : items? fuel cs = some (items, rest)) : items ≠ [] := by
  cases fuel with
  | zero => cases h
  | succ fuel =>
    obtain ⟨item, -, -, ⟨-, rfl⟩ | ⟨-, more, -, -, rfl⟩⟩ := items?_cases h
    · exact List.cons_ne_nil _ _
    · exact List.cons_ne_nil _ _

theorem ne_nil_of_members? {fuel : Nat} {cs rest : List Char}
    {members : List (Option String × Written)} (h : members? fuel cs = some (members, rest)) :
    members ≠ [] := by
  cases fuel with
  | zero => cases h
  | succ fuel =>
    obtain ⟨-, -, -, -, -, -, ⟨-, rfl⟩ | ⟨-, more, -, -, rfl⟩⟩ := members?_cases h
    · exact List.cons_ne_nil _ _
    · exact List.cons_ne_nil _ _

/-- What the readers take off a text spells what they have read. The readers call each other with
less fuel, so the three facts go through the induction together. -/
theorem leads_of_reads (fuel : Nat) :
    (∀ cs document rest, document? fuel cs = some (document, rest) →
      Leads document.tokens cs rest) ∧
    (∀ cs items rest, items? fuel cs = some (items, rest) →
      Leads (itemTokens items ++ [.mark ']']) cs rest) ∧
    ∀ cs members rest, members? fuel cs = some (members, rest) →
      Leads (memberTokens members ++ [.mark '}']) cs rest := by
  induction fuel with
  | zero => exact ⟨nofun, nofun, nofun⟩
  | succ fuel ih =>
    obtain ⟨ihdocument, ihitems, ihmembers⟩ := ih
    refine ⟨fun cs document rest h ↦ ?document, fun cs items rest h ↦ ?items,
      fun cs members rest h ↦ ?members⟩
    case document =>
      rw [document?.eq_def] at h
      split at h
      · cases h
      next cs heq =>
        cases heq
        split at h
        next heq =>
          cases h
          exact (Leads.mark '[' cs).cons (.of_skipSpace (heq ▸ .mark ']' rest))
        · obtain ⟨⟨items, rest⟩, hitems, heq⟩ := Option.map_eq_some_iff.mp h
          cases heq
          exact (Leads.mark '[' cs).cons (.of_skipSpace (ihitems _ _ _ hitems))
      next cs heq =>
        cases heq
        split at h
        next heq =>
          cases h
          exact (Leads.mark '{' cs).cons (.of_skipSpace (heq ▸ .mark '}' rest))
        · obtain ⟨⟨members, rest⟩, hmembers, heq⟩ := Option.map_eq_some_iff.mp h
          cases heq
          exact (Leads.mark '{' cs).cons (.of_skipSpace (ihmembers _ _ _ hmembers))
      · exact leads_scalar? h
    case items =>
      obtain ⟨item, afterItem, hitem, ⟨hmark, rfl⟩ | ⟨afterMark, more, hmark, hmore, rfl⟩⟩ :=
        items?_cases h
      · exact (ihdocument _ _ _ hitem).append (.of_skipSpace (hmark ▸ .mark ']' rest))
      · have hcomma : Leads [.mark ','] afterItem afterMark :=
          .of_skipSpace (hmark ▸ .mark ',' afterMark)
        rw [itemTokens_cons item (ne_nil_of_items? hmore), List.append_assoc]
        exact (ihdocument _ _ _ hitem).append (hcomma.skipSpace.cons (ihitems _ _ _ hmore))
    case members =>
      obtain ⟨name, afterName, value, afterValue, hname, hvalue,
        ⟨hmark, rfl⟩ | ⟨afterMark, more, hmark, hmore, rfl⟩⟩ := members?_cases h
      · exact (leads_name? hname).append
          ((ihdocument _ _ _ hvalue).append (.of_skipSpace (hmark ▸ .mark '}' rest)))
      · have hcomma : Leads [.mark ','] afterValue afterMark :=
          .of_skipSpace (hmark ▸ .mark ',' afterMark)
        rw [memberTokens_cons name value (ne_nil_of_members? hmore), List.cons_append,
          List.cons_append, List.append_assoc]
        exact (leads_name? hname).append
          ((ihdocument _ _ _ hvalue).append (hcomma.skipSpace.cons (ihmembers _ _ _ hmore)))

/-- A text that is read as a document spells it. -/
theorem spelled_of_read? {text : List Char} {document : Written} (h : read? text = some document) :
    Spelled document.tokens text := by
  simp only [read?, Option.bind_eq_bind, Option.bind_eq_some_iff] at h
  obtain ⟨⟨document, rest⟩, hdocument, hend⟩ := h
  split at hend
  next hblank =>
    cases hend
    have hleads : Leads document.tokens text rest :=
      .of_skipSpace ((leads_of_reads _).1 _ _ _ hdocument)
    obtain ⟨spelled, htext, hspelled⟩ := hleads.skipSpace
    rw [htext, List.isEmpty_iff.mp hblank, List.append_nil]
    exact hspelled
  · cases hend

end Written
end Playbook.Json
