import Playbook.Proofs.Interleaving
import Mathlib.Data.List.Forall2

/-!
# Runs come to their ends

Runs that take turns cannot keep one another from going on. A run has only so many turns before it
(`Progress.turnsLeft`): each of its own turns takes one of them away, whatever the services answer,
and the turns of other runs leave it where it is. So a run is over once it has had that many turns,
and scenarios that are run together have one result each, in their order
(`Batch.forall₂_results_runTogether`).
-/

namespace Playbook

variable {σ : Type}

/-! ## What a run has before it -/

namespace Progress

variable {scenario : Scenario} {progress between after : Progress} {turns more : Nat}

/-- The number of turns that a run can need still. -/
def turnsLeft (scenario : Scenario) : Progress → Nat
  | .waiting => scenario.steps.length + 3
  | .running _ _ rest => rest.length + 2
  | .ending _ _ => 1
  | .done _ => 0

/-- Whether the report of a run, if there is one, counts all steps. -/
def CountsSteps (scenario : Scenario) : Progress → Prop
  | .ending _ result | .done result => ∀ report, result = .ok report →
    report.steps = scenario.steps.length
  | .waiting | .running _ _ _ => True

/-- What some turns of its own make of a run, whoever had turns in between. -/
structure Nears (scenario : Scenario) (turns : Nat) (progress after : Progress) : Prop where
  turnsLeft_le : after.turnsLeft scenario ≤ progress.turnsLeft scenario - turns
  countsSteps : progress.CountsSteps scenario → after.CountsSteps scenario

theorem Nears.refl : Nears scenario 0 progress progress where
  turnsLeft_le := Nat.le_refl _
  countsSteps := id

theorem Nears.trans (h : Nears scenario turns progress between)
    (h' : Nears scenario more between after) : Nears scenario (turns + more) progress after where
  turnsLeft_le := by
    have hfirst := h.turnsLeft_le
    have hthen := h'.turnsLeft_le
    omega
  countsSteps := h'.countsSteps ∘ h.countsSteps

/-- A run with no turns before it is over. -/
theorem exists_done_of_turnsLeft_eq_zero (h : progress.turnsLeft scenario = 0) :
    ∃ result, progress = .done result := by
  cases progress with
  | done result => exact ⟨result, rfl⟩
  | waiting | running | ending => cases h

end Progress

namespace Scenario

theorem steps_of_reportActive_eq_ok {scenario : Scenario} {scope : Scope} {report : Report}
    (h : scenario.reportActive scope = .ok report) : report.steps = scenario.steps.length := by
  unfold reportActive at h
  split at h <;> cases h
  rfl

theorem nears_advance (scenario : Scenario) (services : Services σ) (progress : Progress)
    (manager : Manager) (world : σ) : Progress.Nears scenario 1 progress
      (scenario.advance services (progress, manager, world)).1 := by
  have hturn := scenario.advances_advance services progress manager world
  generalize scenario.advance services (progress, manager, world) = after at hturn
  cases hturn with
  | refused => exact ⟨Nat.zero_le _, fun _ ↦ nofun⟩
  | begun => exact ⟨Nat.le_refl _, fun _ ↦ trivial⟩
  | lost => exact ⟨Nat.zero_le _, fun _ ↦ nofun⟩
  | reported => exact ⟨Nat.le_refl 1, fun _ _ ↦ steps_of_reportActive_eq_ok⟩
  | passed => exact ⟨Nat.le_refl _, fun _ ↦ trivial⟩
  | failed => exact ⟨Nat.le_add_left 1 _, fun _ ↦ nofun⟩
  | panicked => exact ⟨Nat.zero_le _, fun _ ↦ nofun⟩
  | ended => exact ⟨Nat.le_refl 0, id⟩
  | stayed => exact ⟨Nat.le_refl 0, id⟩

end Scenario

/-! ## Batches -/

namespace Batch

variable {batch between after : Batch σ} {places more : List Nat}

/-- What turns of the runs in some places make of a batch, each run counted with its own turns. -/
structure Nears (places : List Nat) (batch after : Batch σ) : Prop where
  length_eq : after.runs.length = batch.runs.length
  nears : ∀ {place} {scenario : Scenario} {progress : Progress},
    batch.runs[place]? = some (scenario, progress) →
    ∃ later, after.runs[place]? = some (scenario, later) ∧
      progress.Nears scenario (places.count place) later

theorem Nears.refl : batch.Nears [] batch where
  length_eq := rfl
  nears h := ⟨_, h, .refl⟩

theorem Nears.trans (h : batch.Nears places between) (h' : between.Nears more after) :
    batch.Nears (places ++ more) after where
  length_eq := h'.length_eq.trans h.length_eq
  nears hrun := by
    obtain ⟨progress, hbetween, hfirst⟩ := h.nears hrun
    obtain ⟨later, hafter, hthen⟩ := h'.nears hbetween
    rw [List.count_append]
    exact ⟨later, hafter, hfirst.trans hthen⟩

theorem nears_turn (services : Services σ) (batch : Batch σ) (place : Nat) :
    batch.Nears [place] (batch.turn services place) where
  length_eq := by
    cases hrun : batch.runs[place]? with
    | none => rw [turn, hrun]
    | some run =>
      rw [turn_eq hrun]
      exact List.length_set
  nears {other scenario progress} hrun := by
    rcases eq_or_ne place other with rfl | hne
    · rw [List.count_singleton_self]
      exact ⟨_, runs_turn_self hrun, scenario.nears_advance services progress _ _⟩
    · rw [List.count_cons_of_ne hne, List.count_nil]
      exact ⟨progress, (runs_turn_of_ne hne).trans hrun, .refl⟩

theorem nears_follow (services : Services σ) (batch : Batch σ) (schedule : List Nat) :
    batch.Nears schedule (batch.follow services schedule) := by
  induction schedule generalizing batch with
  | nil => exact .refl
  | cons place schedule ih => exact (nears_turn services batch place).trans (ih _)

/-- What a turn comes with changes the manager, and no run. -/
theorem nears_take (batch : Batch σ) (turn : Turn σ) : batch.Nears [turn.place] (batch.take turn) :=
  have h := nears_turn turn.services
    { batch with manager := { batch.manager with entropy := turn.entropy } } turn.place
  ⟨h.length_eq, h.nears⟩

theorem nears_foldl_take (batch : Batch σ) (turns : List (Turn σ)) :
    batch.Nears (turns.map Turn.place) (turns.foldl take batch) := by
  induction turns generalizing batch with
  | nil => exact .refl
  | cons turn turns ih => exact (nears_take batch turn).trans (ih _)

end Batch

/-- A schedule in the order of the scenarios has all the turns that each of them can need. -/
theorem Scenario.le_count_inOrder {scenarios : List Scenario} {place : Nat} {scenario : Scenario}
    (h : scenarios[place]? = some scenario) (first : Nat) :
    scenario.steps.length + 3 ≤ (inOrder first scenarios).count (first + place) := by
  induction scenarios generalizing place first with
  | nil => cases h
  | cons head rest ih =>
    rw [inOrder, List.count_append]
    cases place with
    | zero =>
      cases h
      rw [Nat.add_zero first, List.count_replicate_self]
      exact Nat.le_add_right _ _
    | succ place =>
      have hrest := ih h (first + 1)
      rw [Nat.add_right_comm, Nat.add_assoc] at hrest
      exact Nat.le_add_left_of_le hrest

namespace Batch

variable (services : Services σ) (turns : List (Turn σ)) (scenarios : List Scenario)
  (manager : Manager) (world : σ)

theorem length_runs_runTogether :
    (runTogether services turns scenarios manager world).runs.length = scenarios.length := by
  rw [runTogether, (nears_follow services _ _).length_eq, (nears_foldl_take _ turns).length_eq,
    start, List.length_map]

/-- In the end each run is over, and its report counts all steps. -/
theorem exists_done_runTogether {place : Nat} {scenario : Scenario}
    (h : scenarios[place]? = some scenario) :
    ∃ result, (runTogether services turns scenarios manager world).runs[place]? =
        some (scenario, .done result) ∧
      ∀ report, result = .ok report → report.steps = scenario.steps.length := by
  have hstart : (start scenarios manager world).runs[place]? = some (scenario, .waiting) := by
    rw [start, List.getElem?_map, h]
    rfl
  obtain ⟨between, hbetween, hturns⟩ := (nears_foldl_take _ turns).nears hstart
  obtain ⟨progress, hrun, hrest⟩ :=
    (nears_follow services _ (Scenario.inOrder 0 scenarios)).nears hbetween
  have hall := hturns.trans hrest
  have hcount := Scenario.le_count_inOrder h 0
  rw [Nat.zero_add] at hcount
  have hover : progress.turnsLeft scenario = 0 := by
    have hleft : progress.turnsLeft scenario ≤ scenario.steps.length + 3 - _ := hall.turnsLeft_le
    omega
  obtain ⟨result, rfl⟩ := Progress.exists_done_of_turnsLeft_eq_zero hover
  exact ⟨result, hrun, hall.countsSteps trivial⟩

theorem forall₂_filterMap_result? {P : Scenario → Except RunError Report → Prop}
    {scenarios : List Scenario} {runs : List (Scenario × Progress)}
    (h : List.Forall₂ (fun scenario run ↦ ∃ result, run.2 = .done result ∧ P scenario result)
      scenarios runs) :
    List.Forall₂ P scenarios (runs.filterMap fun run ↦ run.2.result?) := by
  induction h with
  | nil => exact .nil
  | @cons scenario run scenarios runs hrun _ ih =>
    obtain ⟨result, hdone, hresult⟩ := hrun
    rw [List.filterMap_cons_some (by rw [hdone]; rfl)]
    exact .cons hresult ih

/-- **Runs come to their ends.** Whatever turns scenarios take that are run together, and whatever
the services answer in each of them, every scenario has one result in the end, the results come in
the order of the scenarios, and their reports count all steps. -/
theorem forall₂_results_runTogether :
    List.Forall₂ (fun (scenario : Scenario) result ↦ ∀ report, result = .ok report →
        report.steps = scenario.steps.length)
      scenarios (runTogether services turns scenarios manager world).results := by
  apply forall₂_filterMap_result?
  rw [List.forall₂_iff_get]
  refine ⟨(length_runs_runTogether services turns scenarios manager world).symm, ?_⟩
  intro place hplace hplace'
  obtain ⟨result, hrun, hsteps⟩ := exists_done_runTogether services turns scenarios manager world
    (List.getElem?_eq_getElem hplace)
  rw [List.getElem?_eq_getElem hplace', Option.some.injEq] at hrun
  exact ⟨result, congrArg Prod.snd hrun, hsteps⟩

/-- Without turns of their own, scenarios that are run together are run one after the other. -/
theorem runTogether_nil (hnumbered : manager.Numbered) :
    let (results, _, after) := Scenario.runEach services scenarios manager world
    (runTogether services [] scenarios manager world).results = results ∧
      (runTogether services [] scenarios manager world).world = after := by
  have hfollow : runTogether services [] scenarios manager world = _ :=
    Scenario.follow_inOrder hnumbered scenarios world []
  have hlength := Scenario.length_runEach services scenarios manager world
  rw [hfollow]
  refine ⟨?_, rfl⟩
  rw [results, List.nil_append, ← List.map_uncurry_zip_eq_zipWith, List.filterMap_map]
  exact (congrFun List.filterMap_eq_map _).trans (List.map_snd_zip (Nat.le_of_eq hlength))

end Batch
end Playbook
