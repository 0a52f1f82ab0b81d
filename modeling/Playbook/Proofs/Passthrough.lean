import Playbook.Proofs.JsonText
import Playbook.Proofs.Scanning
import Playbook.Proofs.Settling
import Playbook.Proofs.Spelling

/-!
# JSON passes through interpolation

The braces of an object look like those of placeholders. But in whatever way a document is spelled,
what follows an opening brace is a string or the closing brace, so the name of a placeholder would
have to start with a blank or a quote, or to be empty. A text of a value can only have a placeholder
inside of a string.
-/

namespace Playbook

open Placeholder

/-! ## Where no placeholder starts -/

namespace Placeholder

variable {text rest : List Char} {c : Char}

theorem names_cons_of_nameAt?_eq_none (h : nameAt? (c :: rest) = none) :
    names (c :: rest) = names rest := by
  rw [names, Segment.scan_cons_of_nameAt?_eq_none h]
  rfl

/-- What has no opening brace adds no placeholder to what follows. -/
theorem names_append_of_notMem (h : '{' ∉ text) : names (text ++ rest) = names rest := by
  induction text with
  | nil => rfl
  | cons c text ih =>
    rw [List.mem_cons, not_or] at h
    rw [List.cons_append, names_cons_of_nameAt?_eq_none, ih h.2]
    rw [Option.eq_none_iff_forall_ne_some]
    intro name hname
    obtain ⟨-, after, hcons⟩ := nameAt?_eq_some_iff.mp hname
    exact h.1 (List.cons.inj hcons).1.symm

/-- No name starts with a blank or with a character that names cannot hold. -/
theorem names_brace (hc : Text.isBlank c ∨ isNameChar c = false) :
    names ('{' :: c :: rest) = names (c :: rest) := by
  apply names_cons_of_nameAt?_eq_none
  rw [Option.eq_none_iff_forall_ne_some]
  intro name hname
  obtain ⟨hisName, after, hcons⟩ := nameAt?_eq_some_iff.mp hname
  obtain ⟨hne, hallowed, hfirst, -⟩ := isName_iff.mp hisName
  obtain ⟨first, name, rfl⟩ := List.exists_cons_of_ne_nil hne
  obtain rfl : c = first := (List.cons.inj (List.cons.inj hcons).2).1
  rcases hc with hblank | hchar
  · exact absurd (hfirst c rfl) (by rw [hblank]; decide)
  · exact absurd (isNameChar_iff.mpr (hallowed c List.mem_cons_self)) (by rw [hchar]; decide)

end Placeholder

namespace Json

/-! ## Strings in values -/

mutual

/-- The strings in a value, the names of members among them. -/
def strings : Json → List String
  | .null => []
  | .bool _ => []
  | .number _ => []
  | .string s => [s]
  | .array items => itemStrings items
  | .object members => memberStrings members

/-- The strings in the items of an array. -/
def itemStrings : List Json → List String
  | [] => []
  | item :: rest => strings item ++ itemStrings rest

/-- The strings in the members of an object. -/
def memberStrings : List (String × Json) → List String
  | [] => []
  | (name, value) :: rest => name :: (strings value ++ memberStrings rest)

end

/-! ## Tokens of values -/

/-- Whether each opening brace is followed by a string or by the closing brace. -/
def Opens : List Token → Prop
  | [] => True
  | token :: rest =>
    (token = .mark '{' → ∃ next ∈ rest.head?, next = .mark '}' ∨ ∃ s, next = .string s) ∧ Opens rest

namespace Opens

variable {token : Token} {tokens more : List Token}

theorem cons (h : Opens tokens) (hne : token ≠ .mark '{' := by simp) : Opens (token :: tokens) :=
  ⟨fun heq ↦ absurd heq hne, h⟩

theorem append (h : Opens tokens) (hmore : Opens more) : Opens (tokens ++ more) := by
  induction tokens with
  | nil => exact hmore
  | cons token rest ih =>
    refine ⟨fun htoken ↦ ?_, ih h.2⟩
    obtain ⟨next, hnext, hkind⟩ := h.1 htoken
    obtain ⟨after, rfl⟩ := List.head?_eq_some_iff.mp hnext
    exact ⟨next, rfl, hkind⟩

/-- A mark that is no brace may stand after any tokens. -/
theorem append_mark (h : Opens tokens) (c : Char) (hc : c ≠ '{' := by decide) :
    Opens (tokens ++ [.mark c]) := by
  refine h.append (cons trivial ?_)
  rwa [ne_eq, Token.mark.injEq]

end Opens

namespace Written

mutual

theorem opens_tokens : ∀ document : Written, Opens document.tokens
  | .null => .cons trivial
  | .bool _ => .cons trivial
  | .number _ => .cons trivial
  | .string _ => .cons trivial
  | .array items => ((opens_itemTokens items).append_mark ']').cons
  | .object [] => ⟨fun _ ↦ ⟨_, rfl, .inl rfl⟩, .cons trivial⟩
  | .object ((name, value) :: rest) => by
    have hrest := (opens_memberTokens ((name, value) :: rest)).append_mark '}'
    refine ⟨fun _ ↦ ⟨.string name, ?_, .inr ⟨name, rfl⟩⟩, hrest⟩
    cases rest
    · rfl
    · rfl

theorem opens_itemTokens : ∀ items, Opens (itemTokens items)
  | [] => trivial
  | [item] => opens_tokens item
  | item :: next :: rest => (opens_tokens item).append (opens_itemTokens (next :: rest)).cons

theorem opens_memberTokens : ∀ members, Opens (memberTokens members)
  | [] => trivial
  | [(_, value)] => (opens_tokens value).cons.cons
  | (_, value) :: next :: rest =>
    ((opens_tokens value).append (opens_memberTokens (next :: rest)).cons).cons.cons

end

end Written

/-- Whether a token that is a string stands for one with a property. -/
def Token.Meets (p : String → Prop) : Token → Prop
  | .string s => ∃ t ∈ s, p t
  | _ => True

section

variable {p : String → Prop}

open Written

mutual

/-- What is true of the strings in a value is true of those among its tokens. -/
theorem meets_tokens : ∀ value : Json, (∀ s ∈ value.strings, p s) →
    ∀ token ∈ (ofJson value).tokens, token.Meets p
  | .null, _ => List.forall_mem_singleton.mpr trivial
  | .bool _, _ => List.forall_mem_singleton.mpr trivial
  | .number _, _ => List.forall_mem_singleton.mpr trivial
  | .string s, h => List.forall_mem_singleton.mpr ⟨s, rfl, List.forall_mem_singleton.mp h⟩
  | .array items, h =>
    List.forall_mem_cons.mpr ⟨trivial, List.forall_mem_append.mpr
      ⟨meets_itemTokens items h, List.forall_mem_singleton.mpr trivial⟩⟩
  | .object members, h =>
    List.forall_mem_cons.mpr ⟨trivial, List.forall_mem_append.mpr
      ⟨meets_memberTokens members h, List.forall_mem_singleton.mpr trivial⟩⟩

theorem meets_itemTokens : ∀ items : List Json, (∀ s ∈ itemStrings items, p s) →
    ∀ token ∈ itemTokens (ofItems items), token.Meets p
  | [], _ => List.forall_mem_nil _
  | [item], h => meets_tokens item (List.forall_mem_append.mp h).1
  | item :: next :: rest, h => by
    obtain ⟨hitem, hrest⟩ := List.forall_mem_append.mp h
    exact List.forall_mem_append.mpr ⟨meets_tokens item hitem,
      List.forall_mem_cons.mpr ⟨trivial, meets_itemTokens (next :: rest) hrest⟩⟩

theorem meets_memberTokens : ∀ members : List (String × Json), (∀ s ∈ memberStrings members, p s) →
    ∀ token ∈ memberTokens (ofMembers members), token.Meets p
  | [], _ => List.forall_mem_nil _
  | [(name, value)], h => by
    obtain ⟨hname, hrest⟩ := List.forall_mem_cons.mp h
    exact List.forall_mem_cons.mpr ⟨⟨name, rfl, hname⟩, List.forall_mem_cons.mpr
      ⟨trivial, meets_tokens value (List.forall_mem_append.mp hrest).1⟩⟩
  | (name, value) :: next :: rest, h => by
    obtain ⟨hname, hmore⟩ := List.forall_mem_cons.mp h
    obtain ⟨hvalue, hrest⟩ := List.forall_mem_append.mp hmore
    exact List.forall_mem_cons.mpr ⟨⟨name, rfl, hname⟩, List.forall_mem_cons.mpr ⟨trivial,
      List.forall_mem_append.mpr ⟨meets_tokens value hvalue,
        List.forall_mem_cons.mpr ⟨trivial, meets_memberTokens (next :: rest) hrest⟩⟩⟩⟩

end

end

/-! ## Texts of tokens -/

/-- Whether a string has no opening brace. -/
def IsBraceless (s : String) : Prop := '{' ∉ s.toList

instance (s : String) : Decidable (IsBraceless s) := inferInstanceAs (Decidable (_ ∉ _))

variable {token : Token} {tokens : List Token} {text : List Char}

/-- No token but the brace itself has a brace, if its string has none. -/
theorem brace_notMem_of_isText (htext : token.IsText text) (hmark : token ≠ .mark '{')
    (hstring : token.Meets IsBraceless) : '{' ∉ text := by
  cases token with
  | mark c =>
    obtain rfl : text = [c] := htext
    intro hmem
    exact hmark (by rw [List.mem_singleton.mp hmem])
  | null =>
    obtain rfl : text = ['n', 'u', 'l', 'l'] := htext
    decide
  | bool b =>
    cases b with
    | false =>
      obtain rfl : text = ['f', 'a', 'l', 's', 'e'] := htext
      decide
    | true =>
      obtain rfl : text = ['t', 'r', 'u', 'e'] := htext
      decide
  | number n =>
    rcases htext with ⟨m, -, rfl⟩ | ⟨numeral, rest, hread, -⟩
    · exact fun hmem ↦ absurd (Numeric.number m _ hmem) (by decide)
    · obtain ⟨read, heq, hbrace⟩ := Numeral.leaves_of_read? hread
      rwa [List.append_cancel_right heq]
  | string s =>
    obtain ⟨spelled, rest, rfl, hread⟩ := htext
    obtain ⟨read, heq, hbrace⟩ := exists_of_string?_eq_some hread
    obtain ⟨t, ht, hbraceless⟩ := hstring
    rw [List.append_cancel_right heq, List.mem_cons, not_or]
    exact ⟨by decide, fun hmem ↦ hbraceless (hbrace hmem t ht)⟩

theorem isBlank_of_isSpace {c : Char} (h : isSpace c) : Text.isBlank c := by
  simp only [isSpace, decide_eq_true_eq] at h
  rcases h with rfl | rfl | rfl | rfl
  all_goals decide

/-- A brace before a string or before the closing brace starts no placeholder. -/
theorem names_brace_of_spelled (h : Spelled (token :: tokens) text)
    (htoken : token = .mark '}' ∨ ∃ s, token = .string s) :
    names ('{' :: text) = names text := by
  cases h with
  | @cons gap first rest _ _ hgap hfirst hrest =>
    cases gap with
    | cons c gap => exact names_brace (.inl (isBlank_of_isSpace (hgap c List.mem_cons_self)))
    | nil =>
      rcases htoken with rfl | ⟨s, rfl⟩
      · obtain rfl : first = ['}'] := hfirst
        exact names_brace (.inr (by decide))
      · obtain ⟨spelled, -, rfl, -⟩ := hfirst
        exact names_brace (.inr (by decide))

/-- A text that spells tokens has no placeholder, if no string among them has a brace. -/
theorem names_eq_nil_of_spelled (h : Spelled tokens text) (hopens : Opens tokens)
    (hstrings : ∀ token ∈ tokens, token.Meets IsBraceless) : names text = [] := by
  induction h with
  | nil hgap => exact names_eq_nil_of_notMem fun hmem ↦ absurd (hgap _ hmem) (by decide)
  | @cons gap first rest token tokens hgap hfirst hrest ih =>
    obtain ⟨htoken, hmore⟩ := List.forall_mem_cons.mp hstrings
    have hbrace : '{' ∉ gap := fun hmem ↦ absurd (hgap _ hmem) (by decide)
    rw [names_append_of_notMem hbrace]
    by_cases hmark : token = .mark '{'
    · obtain ⟨next, hnext, hkind⟩ := hopens.1 hmark
      obtain ⟨after, rfl⟩ := List.head?_eq_some_iff.mp hnext
      subst hmark
      obtain rfl : first = ['{'] := hfirst
      rw [List.singleton_append, names_brace_of_spelled hrest hkind]
      exact ih hopens.2 hmore
    · rw [names_append_of_notMem (brace_notMem_of_isText hfirst hmark htoken)]
      exact ih hopens.2 hmore

/-- Whether a text is one of a value: what stands for it in another text, any spelling of its
tokens, or what is read as its document. -/
def IsTextOf (value : Json) (text : List Char) : Prop :=
  text = (Value.object value).text ∨ Spelled (Written.ofJson value).tokens text ∨
    Written.read? text = some (.ofJson value)

theorem names_eq_nil_of_isTextOf {value : Json} (h : ∀ s ∈ value.strings, IsBraceless s)
    (htext : value.IsTextOf text) : names text = [] := by
  have hspelled : ∀ {text}, Spelled (Written.ofJson value).tokens text → names text = [] :=
    fun hspelled ↦
      names_eq_nil_of_spelled hspelled (Written.opens_tokens _) (meets_tokens value h)
  rcases htext with rfl | htext | htext
  · -- A string stands without quotes in another text, any other value as it is written.
    cases value with
    | string s => exact names_eq_nil_of_notMem (h s List.mem_cons_self)
    | _ => exact hspelled (spelled_compact _)
  · exact hspelled htext
  · exact hspelled (Written.spelled_of_read? htext)

end Json

/-- **JSON passes through.** No text of a value has a placeholder if no string in the value and no
name of a member has an opening brace. So whatever the variables and the options are, resolving such
a text leaves it as it is. -/
theorem Interpolator.resolve_json (value : Json) (h : ∀ s ∈ value.strings, Json.IsBraceless s)
    (text : List Char) (htext : value.IsTextOf text) (interpolator : Interpolator)
    (values : Variables) :
    names text = [] ∧ occursIn text = false ∧ interpolator.resolve values text = .ok text := by
  have hnames := Json.names_eq_nil_of_isTextOf h htext
  refine ⟨hnames, ?_, resolve_of_names_eq_nil hnames⟩
  rw [Bool.eq_false_iff, Ne, occursIn_iff, not_not]
  exact hnames

/-- Braces side by side and inside each other, with blanks between them and a string with
escapes. -/
theorem Interpolator.resolve_json_nested :
    let text :=
      "\x7b \"a\" : [\x7b \x7d,\n\"\\\"\\u007d\"], \"b\":\x7b\"c\":\x7b\"d\":true\x7d \x7d\x7d".toList
    names text = [] ∧ occursIn text = false ∧ default.resolve [("a", .null)] text = .ok text :=
  resolve_json
    (.object [("a", .array [.object [], .string "\"\x7d"]),
      ("b", .object [("c", .object [("d", .bool true)])])])
    (by decide) _ (.inr (.inr (by simp only [String.reduceToList]; rfl))) default _

end Playbook
