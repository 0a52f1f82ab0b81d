import Playbook.Proofs.EntriesMap
import Playbook.Proofs.Failure
import Mathlib.Data.Finset.Card

/-!
# How deep a pass goes

`expand` counts its levels down, so that it cannot but end, and it hands a longer chain to what is
below, so that nothing can become of the chain above. Here a pass is a walk from text to text
(`visit`), and one chain serves all of it: it is lengthened on the way down to the text of a variable
and shortened on the way back, and the depth is a number that its length is held against. The loop
over the passes (`rescan`) holds the number of texts it has seen against the depth in the same way.

A walk takes a frame for each text that it is in the middle of, and a loop takes a turn for each text
it looks at. Nothing comes of them where frames or turns run out, so that it has to be proved that
something does. It is what comes of `expand` and `settle`, and of the way to it they keep a record:
each text that is gone over, with the chain at that time.

## What frames are enough

The depth may be greater than any text needs. But a name that is on the chain is not followed again,
so below it there is one variable fewer to go down to (`Variables.remaining`), and a frame for each
variable is enough. This takes the chain to be what it was when the walk comes back, or the names
beside one that has been followed would be held against a chain that is too long.
-/

namespace Playbook

open Placeholder Outcome

/-! ## Computations with a record -/

/-- A computation that keeps a record. It may fail, which leaves the record as it is by then, and
nothing comes of it if it runs out of what it takes. -/
abbrev Recorded (σ α : Type) := ExceptT VariableError (StateT σ Option) α

namespace Recorded

variable {σ α β : Type} {first : Recorded σ α} {next : α → Recorded σ β} {record between : σ}

theorem bind_of_ok {a : α} (h : first record = some (.ok a, between)) :
    (first >>= next) record = next a between := by
  change (first record).bind _ = _
  rw [h]
  rfl

theorem bind_of_error {e : VariableError} (h : first record = some (.error e, between)) :
    (first >>= next) record = some (.error e, between) := by
  change (first record).bind _ = _
  rw [h]
  rfl

end Recorded

/-- A text that is gone over, with the chain at that time. -/
structure Visit where
  /-- The names whose texts are being expanded, the outermost first. -/
  chain : List String
  /-- The text. -/
  text : List Char

/-- The record of a walk. -/
structure Trail where
  /-- The chain as it is. -/
  chain : List String := []
  /-- The visits there have been. -/
  visits : List Visit := []

/-- A walk from text to text. -/
abbrev Walk (α : Type) := Recorded Trail α

namespace Walk

/-- Puts down a visit to a text. -/
def note (text : List Char) : Walk Unit :=
  modify fun trail ↦ { trail with visits := trail.visits ++ [⟨trail.chain, text⟩] }

/-- The chain as it is. -/
def chain : Walk (List String) := return (← get).chain

/-- Lengthens the chain. -/
def push (name : String) : Walk Unit :=
  modify fun trail ↦ { trail with chain := trail.chain ++ [name] }

/-- Shortens the chain. -/
def pop : Walk Unit := modify fun trail ↦ { trail with chain := trail.chain.dropLast }

theorem chain_apply (names : List String) (visits : List Visit) :
    chain ⟨names, visits⟩ = some (.ok names, ⟨names, visits⟩) := rfl

theorem push_apply (names : List String) (name : String) (visits : List Visit) :
    push name ⟨names, visits⟩ = some (.ok (), ⟨names ++ [name], visits⟩) := rfl

theorem pop_concat (names : List String) (name : String) (visits : List Visit) :
    pop ⟨names ++ [name], visits⟩ = some (.ok (), ⟨names, visits⟩) :=
  calc pop ⟨names ++ [name], visits⟩ =
        some (.ok (), ⟨(names ++ [name]).dropLast, visits⟩) := rfl
    _ = some (.ok (), ⟨names, visits⟩) := by rw [List.dropLast_concat]

end Walk

/-! ## Walks and loops -/

namespace Interpolator

/-- What a segment becomes. `visit` goes over the text of a variable that is not on the chain. -/
def visitSegment (interpolator : Interpolator) (values : Variables)
    (visit : List Char → Walk (List Char)) : Segment → Walk (List Char)
  | .literal c => return [c]
  | .placeholder name =>
    match values.text? name with
    | none =>
      match interpolator.missing with
      | .fail => throw (.notFound name)
      | .keep => return written name
    | some value => do
      let chain ← Walk.chain
      if name ∈ chain then throw (.circular (chain ++ [name]))
      else if occursIn value then
        if interpolator.maxDepth ≤ chain.length then throw (.circular (chain ++ [name]))
        else do
          Walk.push name
          let inner ← visit value
          Walk.pop
          return inner
      else return value

/-- Goes over a text. This takes a frame, and the texts below have one frame fewer. -/
def visit (interpolator : Interpolator) (values : Variables) :
    (frames : Nat) → List Char → Walk (List Char)
  | 0, _ => fun _ ↦ none
  | frames + 1, text => do
    Walk.note text
    let pieces ← (Segment.scan text).mapM
      (interpolator.visitSegment values (interpolator.visit values frames))
    return pieces.flatten

/-- One pass over a text, with a chain of its own. Its visits are put down together. -/
def watchPass (interpolator : Interpolator) (values : Variables) (frames : Nat)
    (text : List Char) : Recorded (List (List Visit)) (List Char) := fun passes ↦
  (interpolator.visit values frames text {}).map fun (result, trail) ↦
    (result, passes ++ [trail.visits])

/-- Goes over a text again and again. `rescans` holds the first placeholder of every text that has
been gone over again. -/
def rescan (interpolator : Interpolator) (values : Variables) (frames : Nat) :
    (turns : Nat) → (rescans : List String) → List Char → Recorded (List (List Visit)) (List Char)
  | 0, _, _ => fun _ ↦ none
  | turns + 1, rescans, text =>
    match first? text with
    | none => return text
    | some name =>
      if interpolator.maxDepth ≤ rescans.length then throw (.circular (rescans ++ [name]))
      else do
        let next ← interpolator.watchPass values frames text
        if next = text then return text
        else interpolator.rescan values frames turns (rescans ++ [name]) next

/-- Resolves a text and puts down all passes. -/
def watch (interpolator : Interpolator) (values : Variables) (frames turns : Nat)
    (text : List Char) : Recorded (List (List Visit)) (List Char) :=
  if occursIn text then do
    let next ← interpolator.watchPass values frames text
    interpolator.rescan values frames turns [] next
  else return text

end Interpolator

/-! ## Walks that end -/

namespace Walk

variable {α β : Type} {chain : List String} {P : Visit → Prop}

/-- A walk that starts with a chain ends, whatever has been visited before: it has this result, all
that it visits is of this kind, and unless it fails it leaves the chain as it has found it. -/
def Ends (walk : Walk α) (chain : List String) (result : Except VariableError α)
    (P : Visit → Prop) : Prop :=
  ∀ visits, ∃ chain' new, walk ⟨chain, visits⟩ = some (result, ⟨chain', visits ++ new⟩) ∧
    (∀ a, result = .ok a → chain' = chain) ∧ ∀ visit ∈ new, P visit

namespace Ends

theorem pure (a : α) : Ends (Pure.pure a) chain (.ok a) P := by
  refine fun visits ↦ ⟨chain, [], ?_, fun _ _ ↦ rfl, nofun⟩
  rw [List.append_nil]
  rfl

theorem throw (e : VariableError) : Ends (α := α) (throw e) chain (.error e) P := by
  refine fun visits ↦ ⟨chain, [], ?_, nofun, nofun⟩
  rw [List.append_nil]
  rfl

theorem bind {first : Walk α} {next : α → Walk β} {result : Except VariableError α}
    {results : α → Except VariableError β} (h : Ends first chain result P)
    (hnext : ∀ a, result = .ok a → Ends (next a) chain (results a) P) :
    Ends (first >>= next) chain (result >>= results) P := by
  intro visits
  obtain ⟨between, new, hrun, hchain, hnew⟩ := h visits
  cases result with
  | error e => exact ⟨between, new, Recorded.bind_of_error hrun, nofun, hnew⟩
  | ok a =>
    obtain rfl := hchain a rfl
    obtain ⟨chain', more, hrun', hchain', hmore⟩ := hnext a rfl (visits ++ new)
    refine ⟨chain', new ++ more, ?_, hchain', fun visit hvisit ↦ ?_⟩
    · rw [Recorded.bind_of_ok hrun, hrun', List.append_assoc]
      rfl
    · exact (List.mem_append.mp hvisit).elim (hnew visit) (hmore visit)

theorem mono {walk : Walk α} {result : Except VariableError α} {Q : Visit → Prop}
    (h : Ends walk chain result P) (hsub : ∀ visit, P visit → Q visit) :
    Ends walk chain result Q := by
  intro visits
  obtain ⟨chain', new, hrun, hchain, hnew⟩ := h visits
  exact ⟨chain', new, hrun, hchain, fun visit hvisit ↦ hsub visit (hnew visit hvisit)⟩

theorem mapM {ι : Type} {walk : ι → Walk α} {result : ι → Except VariableError α} {l : List ι}
    (h : ∀ i ∈ l, Ends (walk i) chain (result i) P) :
    Ends (l.mapM walk) chain (l.mapM result) P := by
  induction l with
  | nil => exact pure []
  | cons i l ih =>
    obtain ⟨hfirst, hrest⟩ := List.forall_mem_cons.mp h
    rw [List.mapM_cons, List.mapM_cons]
    exact hfirst.bind fun a _ ↦ (ih hrest).bind fun rest _ ↦ pure (a :: rest)

/-- A walk may look at its chain. -/
theorem chain_bind {next : List String → Walk α} {result : Except VariableError α}
    (h : Ends (next chain) chain result P) : Ends (Walk.chain >>= next) chain result P := by
  intro visits
  rw [Recorded.bind_of_ok (chain_apply chain visits)]
  exact h visits

theorem note {text : List Char} (h : P ⟨chain, text⟩) : Ends (Walk.note text) chain (.ok ()) P :=
  fun _ ↦ ⟨chain, [⟨chain, text⟩], rfl, fun _ _ ↦ rfl, List.forall_mem_singleton.mpr h⟩

/-- A walk with a longer chain may be gone on before coming back. -/
theorem push_pop {walk : Walk α} {name : String} {result : Except VariableError α}
    (h : Ends walk (chain ++ [name]) result P) :
    Ends (do Walk.push name; let a ← walk; Walk.pop; return a) chain result P := by
  intro visits
  obtain ⟨below, new, hrun, hchain, hnew⟩ := h visits
  rw [Recorded.bind_of_ok (push_apply chain name visits)]
  cases result with
  | error e => exact ⟨below, new, Recorded.bind_of_error hrun, nofun, hnew⟩
  | ok a =>
    obtain rfl := hchain a rfl
    rw [Recorded.bind_of_ok hrun, Recorded.bind_of_ok (pop_concat chain name _)]
    exact ⟨chain, new, rfl, fun _ _ ↦ rfl, hnew⟩

end Ends
end Walk

/-! ## Variables that are left -/

namespace Variables

variable {values : Variables} {chain path : List String} {name : String} {text value : List Char}

theorem mem_names_of_text? (h : values.text? name = some value) : name ∈ values.names := by
  by_contra hname
  rw [text?, Entries.find?_eq_none_iff.mpr hname] at h
  cases h

/-- How many variables are not on a chain. -/
def remaining (values : Variables) (chain : List String) : Nat :=
  (values.names.toFinset \ chain.toFinset).card

theorem remaining_le_length (values : Variables) (chain : List String) :
    values.remaining chain ≤ values.length :=
  calc values.remaining chain ≤ values.names.toFinset.card :=
        Finset.card_le_card Finset.sdiff_subset
    _ ≤ values.names.length := List.toFinset_card_le _
    _ = values.length := List.length_map _

/-- A variable that comes on the chain is one fewer. -/
theorem remaining_concat_lt (hvalue : values.text? name = some value) (hname : name ∉ chain) :
    values.remaining (chain ++ [name]) < values.remaining chain := by
  refine Finset.card_lt_card (Finset.ssubset_iff_of_subset ?_ |>.mpr ⟨name, ?_, ?_⟩)
  · refine Finset.sdiff_subset_sdiff le_rfl ?_
    rw [List.toFinset_append]
    exact Finset.subset_union_left
  · rw [Finset.mem_sdiff, List.mem_toFinset, List.mem_toFinset]
    exact ⟨mem_names_of_text? hvalue, hname⟩
  · rw [Finset.mem_sdiff, List.mem_toFinset, List.mem_toFinset]
    exact fun h ↦ h.2 (List.mem_append_right _ List.mem_cons_self)

theorem mem_names_of_isPath (hpath : values.IsPath text path) (hname : name ∈ path) :
    name ∈ values.names := by
  induction path generalizing text with
  | nil => cases hname
  | cons first path ih =>
    obtain ⟨-, value, hvalue, hrest⟩ := hpath
    rcases List.mem_cons.mp hname with rfl | hname
    · exact mem_names_of_text? hvalue
    · exact ih hrest hname

/-- A path that comes to no name twice has no more names than there are variables. -/
theorem length_le_of_isPath (hpath : values.IsPath text path) (hnodup : path.Nodup) :
    path.length ≤ values.length := by
  have hsubset : path ⊆ values.names := fun _ hname ↦ mem_names_of_isPath hpath hname
  have hlength := (hnodup.subperm hsubset).length_le
  rwa [Entries.names, List.length_map] at hlength

end Variables

/-! ## Where walks lead -/

namespace Interpolator

variable {interpolator : Interpolator} {values : Variables}

/-- One visit leads to another if there is a path from the text of the first to that of the second
by which the chain has grown, which the depth allows and on which no name is one of the chain. -/
def Leads (interpolator : Interpolator) (values : Variables) (start goal : Visit) : Prop :=
  ∃ path, goal.chain = start.chain ++ path ∧ values.IsPath start.text path ∧
    values.textAt start.text path = goal.text ∧ (start.chain.Nodup → goal.chain.Nodup) ∧
    (start.chain.length ≤ interpolator.maxDepth → goal.chain.length ≤ interpolator.maxDepth)

theorem Leads.refl (visit : Visit) : interpolator.Leads values visit visit :=
  ⟨[], (List.append_nil _).symm, trivial, rfl, id, id⟩

/-- A visit leads where the visit to the text of a variable leads that is named in its text. -/
theorem Leads.of_inner {chain : List String} {text value : List Char} {name : String} {goal : Visit}
    (hname : name ∈ names text) (hvalue : values.text? name = some value) (hnew : name ∉ chain)
    (hlength : chain.length < interpolator.maxDepth)
    (h : interpolator.Leads values ⟨chain ++ [name], value⟩ goal) :
    interpolator.Leads values ⟨chain, text⟩ goal := by
  obtain ⟨path, hchain, hpath, htext, hnodup, hdepth⟩ := h
  refine ⟨name :: path, ?_, ⟨hname, value, hvalue, hpath⟩, ?_, fun hnodup' ↦ ?_, fun _ ↦ ?_⟩
  · rw [hchain, List.append_assoc, List.singleton_append]
  · rw [Variables.textAt, hvalue, Option.getD_some, htext]
  · refine hnodup ?_
    rw [← List.concat_eq_append, List.nodup_concat]
    exact ⟨hnew, hnodup'⟩
  · refine hdepth ?_
    rw [List.length_append, List.length_singleton]
    exact hlength

/-- From an empty chain, a visit leads along paths that come to no name twice, so that their length
is bounded by the depth and by the number of variables. -/
theorem Leads.of_nil {start : List Char} {goal : Visit}
    (h : interpolator.Leads values ⟨[], start⟩ goal) :
    goal.chain.Nodup ∧ values.IsPath start goal.chain ∧
      values.textAt start goal.chain = goal.text ∧
      goal.chain.length ≤ min interpolator.maxDepth values.length := by
  obtain ⟨path, hchain, hpath, htext, hnodup, hdepth⟩ := h
  rw [List.nil_append] at hchain
  rw [← hchain] at hpath htext
  exact ⟨hnodup List.nodup_nil, hpath, htext, Nat.le_min.mpr ⟨hdepth (Nat.zero_le _),
    Variables.length_le_of_isPath hpath (hnodup List.nodup_nil)⟩⟩

/-! ## A pass as a walk -/

variable {frames depth : Nat} {chain : List String} {text : List Char}

/-- A walk over a segment ends as `expandSegment` does if, wherever the walk goes down, the depth
is reached in both or the walk ends below as `expand` does. -/
theorem visitSegment_ends {visit : List Char → Walk (List Char)} {segment : Segment}
    (hsegment : segment ∈ Segment.scan text)
    (h : ∀ name value, values.text? name = some value → name ∉ chain →
      interpolator.maxDepth ≤ chain.length ∧ depth = 0 ∨
      chain.length < interpolator.maxDepth ∧ (visit value).Ends (chain ++ [name])
        (expandInner values interpolator.missing depth (chain ++ [name]) value)
        (interpolator.Leads values ⟨chain ++ [name], value⟩)) :
    (interpolator.visitSegment values visit segment).Ends chain
      (expandSegment values interpolator.missing
        (expandInner values interpolator.missing depth) chain segment)
      (interpolator.Leads values ⟨chain, text⟩) := by
  cases segment with
  | literal c =>
    rw [visitSegment]
    exact .pure [c]
  | placeholder name =>
    cases hvalue : values.text? name with
    | none =>
      cases hmissing : interpolator.missing with
      | fail =>
        simp only [visitSegment, expandSegment, hvalue, hmissing]
        exact .throw _
      | keep =>
        simp only [visitSegment, expandSegment, hvalue, hmissing]
        exact .pure _
    | some value =>
      simp only [visitSegment, expandSegment, hvalue]
      refine .chain_bind ?_
      by_cases hnew : name ∈ chain
      · rw [if_pos hnew, if_pos hnew]
        exact .throw _
      rw [if_neg hnew, if_neg hnew]
      by_cases hocc : occursIn value
      swap
      · rw [if_neg hocc, if_neg hocc]
        exact .pure _
      rw [if_pos hocc, if_pos hocc]
      rcases h name value hvalue hnew with ⟨hreached, rfl⟩ | ⟨hlength, hbelow⟩
      · rw [if_pos hreached]
        exact .throw _
      · rw [if_neg (Nat.not_le_of_lt hlength)]
        refine (Walk.Ends.push_pop hbelow).mono fun visit hvisit ↦ ?_
        exact hvisit.of_inner (mem_names.mpr hsegment) hvalue hnew hlength

/-- A walk over a text ends as `expand` does if it does so over each segment. -/
theorem visit_succ_ends
    (h : ∀ segment ∈ Segment.scan text,
      (interpolator.visitSegment values (interpolator.visit values frames) segment).Ends chain
        (expandSegment values interpolator.missing
          (expandInner values interpolator.missing depth) chain segment)
        (interpolator.Leads values ⟨chain, text⟩)) :
    (interpolator.visit values (frames + 1) text).Ends chain
      (expand values interpolator.missing depth chain text)
      (interpolator.Leads values ⟨chain, text⟩) := by
  have hmap : ∀ x : Except VariableError (List (List Char)),
      x.map List.flatten = x >>= fun pieces ↦ .ok pieces.flatten := by
    rintro (_ | _) <;> rfl
  rw [visit, expand_eq, hmap]
  exact (Walk.Ends.note (.refl _)).bind fun _ _ ↦ (Walk.Ends.mapM h).bind fun pieces _ ↦
    .pure pieces.flatten

/-- A walk from any chain ends as `expand` does with as many levels as the depth leaves, and with
fewer, as long as there is one for each variable that is left. It takes a frame for each level and
one for the text. The induction is on the levels. -/
theorem visit_ends (hdepth : depth ≤ interpolator.maxDepth - chain.length)
    (henough : interpolator.maxDepth - chain.length ≤ depth ∨ values.remaining chain ≤ depth)
    (hframes : depth < frames) :
    (interpolator.visit values frames text).Ends chain
      (expand values interpolator.missing depth chain text)
      (interpolator.Leads values ⟨chain, text⟩) := by
  obtain ⟨frames, rfl⟩ := Nat.exists_eq_succ_of_ne_zero (Nat.ne_zero_of_lt hframes)
  induction depth generalizing chain text frames with
  | zero =>
    refine visit_succ_ends fun segment hsegment ↦
      visitSegment_ends hsegment fun name value hvalue hnew ↦ .inl ⟨?_, rfl⟩
    -- There is a variable left, so it is the depth that has been reached.
    have hremaining := Variables.remaining_concat_lt hvalue hnew
    omega
  | succ depth ih =>
    obtain ⟨frames, rfl⟩ := Nat.exists_eq_succ_of_ne_zero (n := frames) (by omega)
    refine visit_succ_ends fun segment hsegment ↦
      visitSegment_ends hsegment fun name value hvalue hnew ↦ .inr ⟨by omega, ?_⟩
    have hremaining := Variables.remaining_concat_lt hvalue hnew
    have hlength : (chain ++ [name]).length = chain.length + 1 := List.length_append
    exact ih (by omega) (by omega) frames (by omega)

/-- No pass goes deeper than there are variables. -/
theorem pass_eq_expand_min (interpolator : Interpolator) (values : Variables) (text : List Char) :
    interpolator.pass values text =
      expand values interpolator.missing (min interpolator.maxDepth values.length) [] text := by
  have hremaining := values.remaining_le_length []
  have hpass : (interpolator.visit values (interpolator.maxDepth + 1) text).Ends []
      (interpolator.pass values text) (interpolator.Leads values ⟨[], text⟩) :=
    visit_ends (Nat.le_refl _) (.inl (Nat.le_refl _)) (Nat.lt_succ_self _)
  have hmin : (interpolator.visit values (interpolator.maxDepth + 1) text).Ends []
      (expand values interpolator.missing (min interpolator.maxDepth values.length) [] text)
      (interpolator.Leads values ⟨[], text⟩) :=
    visit_ends (Nat.min_le_left _ _) (by rw [List.length_nil]; omega) (by omega)
  obtain ⟨_, _, hrun, -⟩ := hpass []
  obtain ⟨_, _, hrun', -⟩ := hmin []
  exact congrArg Prod.fst (Option.some.inj (hrun.symm.trans hrun'))

/-! ## The loop -/

theorem watchPass_eq (interpolator : Interpolator) (values : Variables)
    (hframes : min interpolator.maxDepth values.length < frames) (text : List Char)
    (passes : List (List Visit)) :
    ∃ visits, interpolator.watchPass values frames text passes =
        some (interpolator.pass values text, passes ++ [visits]) ∧
      ∀ visit ∈ visits, interpolator.Leads values ⟨[], text⟩ visit := by
  have hremaining := values.remaining_le_length []
  have hends : (interpolator.visit values frames text).Ends [] (interpolator.pass values text)
      (interpolator.Leads values ⟨[], text⟩) := by
    rw [pass_eq_expand_min]
    exact visit_ends (Nat.min_le_left _ _) (by rw [List.length_nil]; omega) hframes
  obtain ⟨chain, visits, hrun, -, hvisits⟩ := hends []
  refine ⟨visits, ?_, hvisits⟩
  have hstart : interpolator.visit values frames text {} =
      some (interpolator.pass values text, ⟨chain, visits⟩) := hrun
  rw [watchPass, hstart]
  rfl

/-- Whether what has been put down are passes one after the other, the first of them over a text,
and each visit of a pass is one that the visit to its text leads to. -/
def Watched (interpolator : Interpolator) (values : Variables) (text : List Char)
    (passes : List (List Visit)) : Prop :=
  ∀ i (hi : i < passes.length), ∃ start, interpolator.passes values i text = .ok start ∧
    ∀ visit ∈ passes[i], interpolator.Leads values ⟨[], start⟩ visit

theorem Watched.cons {next : List Char} {visits : List Visit} {passes : List (List Visit)}
    (hvisits : ∀ visit ∈ visits, interpolator.Leads values ⟨[], text⟩ visit)
    (hpass : interpolator.pass values text = .ok next)
    (hpasses : interpolator.Watched values next passes) :
    interpolator.Watched values text (visits :: passes) := by
  intro i hi
  cases i with
  | zero => exact ⟨text, rfl, hvisits⟩
  | succ i =>
    obtain ⟨start, hstart, hvisits⟩ := hpasses i (Nat.lt_of_succ_lt_succ hi)
    exact ⟨start, passes_succ_eq_ok_iff.mpr ⟨next, hpass, hstart⟩, hvisits⟩

theorem Watched.singleton {visits : List Visit}
    (hvisits : ∀ visit ∈ visits, interpolator.Leads values ⟨[], text⟩ visit) :
    interpolator.Watched values text [visits] := by
  intro i hi
  obtain rfl := Nat.lt_one_iff.mp hi
  exact ⟨text, rfl, hvisits⟩

theorem Watched.nil : interpolator.Watched values text [] :=
  fun _ hi ↦ absurd hi (Nat.not_lt_zero _)

/-- A loop that starts with a text ends, whatever has been put down before: it has this result, and
it puts down passes from the text on, no more than are left. -/
def Settles (interpolator : Interpolator) (values : Variables) (text : List Char)
    (loop : Recorded (List (List Visit)) (List Char)) (left : Nat)
    (result : Except VariableError (List Char)) : Prop :=
  ∀ passes, ∃ new, loop passes = some (result, passes ++ new) ∧ new.length ≤ left ∧
    interpolator.Watched values text new

namespace Settles

variable {left : Nat}

theorem pure (out : List Char) :
    interpolator.Settles values text (Pure.pure out) left (.ok out) := by
  refine fun passes ↦ ⟨[], ?_, Nat.zero_le _, .nil⟩
  rw [List.append_nil]
  rfl

theorem throw (e : VariableError) :
    interpolator.Settles values text (throw e) left (.error e) := by
  refine fun passes ↦ ⟨[], ?_, Nat.zero_le _, .nil⟩
  rw [List.append_nil]
  rfl

/-- What goes on after a pass goes on from what the pass has made of the text. -/
theorem watchPass_bind {next : List Char → Recorded (List (List Visit)) (List Char)}
    {result : List Char → Except VariableError (List Char)}
    (hframes : min interpolator.maxDepth values.length < frames)
    (h : ∀ out, interpolator.Settles values out (next out) left (result out)) :
    interpolator.Settles values text (interpolator.watchPass values frames text >>= next)
      (left + 1) (interpolator.pass values text >>= result) := by
  intro passes
  obtain ⟨visits, hrun, hvisits⟩ := interpolator.watchPass_eq values hframes text passes
  cases hpass : interpolator.pass values text with
  | error e =>
    rw [hpass] at hrun
    exact ⟨[visits], Recorded.bind_of_error hrun, Nat.succ_pos left, .singleton hvisits⟩
  | ok out =>
    rw [hpass] at hrun
    obtain ⟨new, hrest, hlength, hnew⟩ := h out (passes ++ [visits])
    refine ⟨visits :: new, ?_, Nat.succ_le_succ hlength, hnew.cons hvisits hpass⟩
    rw [Recorded.bind_of_ok hrun, hrest, List.append_assoc, List.singleton_append]
    rfl

end Settles

/-- The loop ends as `settle` does, after no more passes than are left. The induction is on these,
which the loop does not count. -/
theorem rescan_settles (hframes : min interpolator.maxDepth values.length < frames)
    {left turns : Nat} {rescans : List String} (hturns : left < turns)
    (hleft : rescans.length + left = interpolator.maxDepth) (text : List Char) :
    interpolator.Settles values text (interpolator.rescan values frames turns rescans text) left
      (settle (interpolator.pass values) left rescans text) := by
  obtain ⟨turns, rfl⟩ := Nat.exists_eq_succ_of_ne_zero (Nat.ne_zero_of_lt hturns)
  induction left generalizing turns rescans text with
  | zero =>
    rw [rescan]
    cases hfirst : first? text with
    | none =>
      rw [settle_of_names_eq_nil (first?_eq_none_iff.mp hfirst)]
      exact .pure text
    | some name =>
      have hreached : interpolator.maxDepth ≤ rescans.length := Nat.le_of_eq hleft.symm
      rw [settle_zero hfirst]
      simp only [if_pos hreached]
      exact .throw _
  | succ left ih =>
    rw [rescan]
    cases hfirst : first? text with
    | none =>
      rw [settle_of_names_eq_nil (first?_eq_none_iff.mp hfirst)]
      exact .pure text
    | some name =>
      have hmore : ¬interpolator.maxDepth ≤ rescans.length := by omega
      rw [settle_succ hfirst]
      simp only [if_neg hmore]
      refine .watchPass_bind hframes fun next ↦ ?_
      by_cases hself : next = text
      · rw [if_pos hself, if_pos hself]
        exact .pure text
      · obtain ⟨turns, rfl⟩ := Nat.exists_eq_succ_of_ne_zero (n := turns) (by omega)
        have hleft' : (rescans ++ [name]).length + left = interpolator.maxDepth := by
          rw [List.length_append, List.length_singleton]
          omega
        rw [if_neg hself, if_neg hself]
        exact ih hleft' next turns (by omega)

/-- To watch how a text is resolved is to resolve it, in no more passes than one for the text and
one for each level. -/
theorem watch_settles (hframes : min interpolator.maxDepth values.length < frames) {turns : Nat}
    (hturns : interpolator.maxDepth < turns) (text : List Char) :
    interpolator.Settles values text (interpolator.watch values frames turns text)
      (interpolator.maxDepth + 1) (interpolator.resolve values text) := by
  rw [watch, resolve]
  by_cases hocc : occursIn text
  swap
  · rw [if_neg hocc, if_neg hocc]
    exact .pure text
  rw [if_pos hocc, if_pos hocc]
  exact .watchPass_bind hframes fun next ↦ rescan_settles hframes hturns (Nat.zero_add _) next

/-- **No pass goes deeper than there are variables.** However great the depth is, one frame more
than there are variables is enough to resolve any text, and the passes are no more than one for the
text and one for each level. Each visit of a pass comes with the path that leads from the text of the
pass to the text that is visited: no name is on it twice, each is that of a variable whose text has
the next one as a placeholder, and there are no more of them than levels, and than variables. A walk
from any chain ends if there is a frame for each variable that is not on the chain, or for each level
that is left, and unless it fails it leaves the chain as it has found it. -/
theorem resolve_bounded_by_variables (interpolator : Interpolator) (values : Variables)
    (text : List Char) :
    (∀ frames turns, min interpolator.maxDepth values.length < frames →
      interpolator.maxDepth < turns →
      ∃ passes, interpolator.watch values frames turns text [] =
          some (interpolator.resolve values text, passes) ∧
        passes.length ≤ interpolator.maxDepth + 1 ∧
        ∀ i (hi : i < passes.length), ∃ start, interpolator.passes values i text = .ok start ∧
          ∀ visit ∈ passes[i], visit.chain.Nodup ∧ values.IsPath start visit.chain ∧
            values.textAt start visit.chain = visit.text ∧
            visit.chain.length ≤ min interpolator.maxDepth values.length) ∧
    (∀ frames start trail,
      min (interpolator.maxDepth - trail.chain.length) (values.remaining trail.chain) < frames →
      ∃ result after, interpolator.visit values frames start trail = some (result, after) ∧
        ∀ out, result = .ok out → after.chain = trail.chain) ∧
    ∀ start, interpolator.pass values start =
      expand values interpolator.missing (min interpolator.maxDepth values.length) [] start := by
  refine ⟨fun frames turns hframes hturns ↦ ?_, fun frames start trail hframes ↦ ?_,
    interpolator.pass_eq_expand_min values⟩
  · obtain ⟨passes, hwatch, hlength, hpasses⟩ := watch_settles hframes hturns text []
    refine ⟨passes, hwatch, hlength, fun i hi ↦ ?_⟩
    obtain ⟨start, hstart, hvisits⟩ := hpasses i hi
    exact ⟨start, hstart, fun visit hvisit ↦ (hvisits visit hvisit).of_nil⟩
  · have hends : (interpolator.visit values frames start).Ends trail.chain _ _ :=
      visit_ends (Nat.min_le_left _ _) (by omega) hframes
    obtain ⟨chain, new, hrun, hchain, -⟩ := hends trail.visits
    exact ⟨_, _, hrun, hchain⟩

/-- With the greatest depth there is, `{a}` is resolved by way of `b` in four frames, and no chain
has more names than the three variables. -/
theorem resolve_bounded_by_variables_greatest_depth :
    ∃ passes, (of 18446744073709551615 .fail).watch
        [("a", .string "{b}"), ("b", .string "{c}"), ("c", .string "x")] 4 18446744073709551616
        ['{', 'a', '}'] [] = some (.ok ['x'], passes) ∧
      ∀ pass ∈ passes, ∀ visit ∈ pass, visit.chain.length ≤ 3 := by
  obtain ⟨passes, hwatch, -, hpasses⟩ := (resolve_bounded_by_variables
    (of 18446744073709551615 .fail)
    [("a", .string "{b}"), ("b", .string "{c}"), ("c", .string "x")] ['{', 'a', '}']).1
    4 18446744073709551616 (by decide) (by decide)
  have hresolve : (of 18446744073709551615 .fail).resolve
      [("a", .string "{b}"), ("b", .string "{c}"), ("c", .string "x")] ['{', 'a', '}'] =
        .ok ['x'] := by decide +kernel
  rw [hresolve] at hwatch
  refine ⟨passes, hwatch, fun pass hpass visit hvisit ↦ ?_⟩
  obtain ⟨i, hi, rfl⟩ := List.getElem_of_mem hpass
  obtain ⟨start, -, hvisits⟩ := hpasses i hi
  obtain ⟨-, -, -, hlength⟩ := hvisits visit hvisit
  exact (Nat.le_min.mp hlength).2

end Interpolator
end Playbook
