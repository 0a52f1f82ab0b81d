import Playbook.Proofs.Reference
import Playbook.Proofs.Settling
import Playbook.Proofs.StoreUpdate

/-!
# Resolved texts are final

A text that has been resolved is what it is going to be. Resolving it again changes nothing, and
neither does more depth or more leniency in the first place: where an interpolator finds a text, one
that follows placeholders further and forgives more finds the same one.

## One depth, two bounds

The depth bounds how far a pass follows placeholders and also how often a text is gone over again.
The first bound is part of what it takes for a pass to end in a text, and the second is part of
what it takes for the loop to (`resolve_eq_ok_iff`). Neither has a say in which text it is: a pass
computes the one expansion there is, and the loop ends where passes stop changing anything.
-/

namespace Playbook

open Placeholder Outcome

theorem Variables.IsWithin.mono {values : Variables} {depth depth' : Nat} {chain : List String}
    {text : List Char} (h : values.IsWithin depth chain text) (hdepth : depth ≤ depth') :
    values.IsWithin depth' chain text := by
  intro path hpath
  obtain ⟨hnodup, hcount⟩ := h path hpath
  exact ⟨hnodup, Nat.le_trans hcount hdepth⟩

namespace Interpolator

variable {values : Variables} {interpolator other : Interpolator} {text out : List Char}

/-! ## Resolving again -/

theorem pass_eq_self_of_resolve (h : interpolator.resolve values text = .ok out) :
    interpolator.pass values out = .ok out := by
  obtain ⟨count, -, -, hend⟩ := resolve_eq_ok_iff.mp h
  rcases hend with hnil | ⟨-, hpass⟩
  · exact pass_of_names_eq_nil hnil
  · exact hpass

/-- A text that a pass leaves as it is has been resolved. The loop goes over it once more to see
that, which even the least depth allows. -/
theorem resolve_eq_self_of_pass (h : interpolator.pass values text = .ok text) :
    interpolator.resolve values text = .ok text :=
  resolve_eq_ok_iff.mpr
    ⟨0, Nat.zero_le _, passes_of_pass_eq_self h 1, .inr ⟨interpolator.maxDepth_pos, h⟩⟩

/-- **Resolving twice is resolving once.** A text that has been resolved is resolved as itself, also
if it still has placeholders. -/
theorem resolve_idempotent (h : interpolator.resolve values text = .ok out) :
    interpolator.resolve values out = .ok out :=
  resolve_eq_self_of_pass (pass_eq_self_of_resolve h)

/-- One level is enough to resolve `{{y}}` as `{b}`, and `{b}` as itself, where `{b}` is the
placeholder of a variable. -/
theorem resolve_idempotent_respelled :
    (of 1 .fail).resolve [("y", .string "b"), ("b", .string "{{x}b}"), ("x", .string "")]
        ['{', '{', 'y', '}', '}'] = .ok ['{', 'b', '}'] ∧
      (of 1 .fail).resolve [("y", .string "b"), ("b", .string "{{x}b}"), ("x", .string "")]
        ['{', 'b', '}'] = .ok ['{', 'b', '}'] := by
  have h : (of 1 .fail).resolve [("y", .string "b"), ("b", .string "{{x}b}"), ("x", .string "")]
      ['{', '{', 'y', '}', '}'] = .ok ['{', 'b', '}'] := by decide
  exact ⟨h, resolve_idempotent h⟩

/-! ## Resolving with more depth and leniency -/

/-- An interpolator is at most another one if that one goes as deep at least and is as lenient, or
as lenient as can be. -/
instance : LE Interpolator where
  le interpolator other := interpolator.maxDepth ≤ other.maxDepth ∧
    (other.missing = interpolator.missing ∨ other.missing = .keep)

theorem le_lenient (interpolator : Interpolator) : interpolator ≤ interpolator.lenient :=
  ⟨Nat.le_refl _, .inr rfl⟩

theorem pass_mono (hle : interpolator ≤ other) (h : interpolator.pass values text = .ok out) :
    other.pass values text = .ok out := by
  obtain ⟨hdepth, hmissing⟩ := hle
  obtain ⟨hwithin, hcomplete⟩ := (exists_expand_eq_ok_iff_isWithin List.nodup_nil).mp ⟨out, h⟩
  have hcomplete' : other.missing = .fail → values.IsComplete text := by
    intro hfail
    rcases hmissing with hsame | hkeep
    · exact hcomplete (hsame.symm.trans hfail)
    · rw [hkeep] at hfail
      cases hfail
  obtain ⟨out', hout'⟩ : ∃ out', other.pass values text = .ok out' :=
    (exists_expand_eq_ok_iff_isWithin List.nodup_nil).mpr ⟨hwithin.mono hdepth, hcomplete'⟩
  -- Both passes compute the expansion of the text, and it has no more than one.
  rw [hout', (expands_of_expand hout').unique (expands_of_expand h)]

theorem passes_mono (hle : interpolator ≤ other) {count : Nat}
    (h : interpolator.passes values count text = .ok out) :
    other.passes values count text = .ok out := by
  induction count generalizing text with
  | zero => exact h
  | succ count ih =>
    obtain ⟨next, hnext, hrest⟩ := passes_succ_eq_ok_iff.mp h
    exact passes_succ_eq_ok_iff.mpr ⟨next, pass_mono hle hnext, ih hrest⟩

/-- The greater interpolator needs as many passes as the lesser one did, and it is allowed them. -/
theorem resolve_mono (hle : interpolator ≤ other) (h : interpolator.resolve values text = .ok out) :
    other.resolve values text = .ok out := by
  obtain ⟨count, hcount, hpasses, hend⟩ := resolve_eq_ok_iff.mp h
  refine resolve_eq_ok_iff.mpr ⟨count, Nat.le_trans hcount hle.1, passes_mono hle hpasses, ?_⟩
  rcases hend with hnil | ⟨hlt, hpass⟩
  · exact .inl hnil
  · exact .inr ⟨Nat.lt_of_lt_of_le hlt hle.1, pass_mono hle hpass⟩

end Interpolator

open Interpolator

theorem Scope.resolveBy_eq_ok_iff {scope : Scope} {interpolator : Interpolator}
    {text out : String} :
    scope.resolveBy interpolator text = .ok out ↔
      scope.isActive ∧ interpolator.resolve scope.store.values text.toList = .ok out.toList := by
  rw [resolveBy, then_eq_ok_iff, requireActive_eq_ok_iff, bind_eq_ok_iff]
  refine and_congr_right fun _ ↦ ⟨?_, fun h ↦ ⟨_, h, by rw [String.ofList_toList]; rfl⟩⟩
  rintro ⟨resolved, hresolved, hout⟩
  cases hout
  rwa [String.toList_ofList]

/-- **More depth and leniency find the same text.** What an interpolator resolves, every greater one
resolves alike; so a scope that resolves a text at all resolves it alike where placeholders without
a variable may stay. -/
theorem Interpolator.resolve_eq_ok_of_le :
    (∀ {interpolator other : Interpolator}, interpolator ≤ other →
      ∀ (values : Variables) (text out : List Char),
        interpolator.resolve values text = .ok out → other.resolve values text = .ok out) ∧
    ∀ (scope : Scope) (text out : String),
      scope.resolve text = .ok out → scope.resolveOrLiteral text = .ok out := by
  refine ⟨fun hle _ _ _ h ↦ resolve_mono hle h, fun scope text out h ↦ ?_⟩
  obtain ⟨hactive, hresolve⟩ := Scope.resolveBy_eq_ok_iff.mp h
  exact Scope.resolveBy_eq_ok_iff.mpr ⟨hactive, resolve_mono (le_lenient _) hresolve⟩

/-- One level resolves `{a}` by way of `b`, so four levels do that keep what is absent, and so does
a scope with one level. -/
theorem Interpolator.resolve_eq_ok_of_le_keep :
    of 1 .fail ≤ of 4 .keep ∧
    (of 1 .fail).resolve [("a", .string "{b}"), ("b", .string "x")] ['{', 'a', '}'] = .ok ['x'] ∧
    (of 4 .keep).resolve [("a", .string "{b}"), ("b", .string "x")] ['{', 'a', '}'] = .ok ['x'] ∧
    (Scope.mk 1 (of 1 .fail) ⟨0⟩ ⟨[("a", .string "{b}"), ("b", .string "x")], false⟩
      false).resolve "{a}" = .ok "x" ∧
    (Scope.mk 1 (of 1 .fail) ⟨0⟩ ⟨[("a", .string "{b}"), ("b", .string "x")], false⟩
      false).resolveOrLiteral "{a}" = .ok "x" := by
  have hle : of 1 .fail ≤ of 4 .keep := ⟨by decide, .inr rfl⟩
  have hresolve : (of 1 .fail).resolve [("a", .string "{b}"), ("b", .string "x")]
      ['{', 'a', '}'] = .ok ['x'] := by decide
  have hscope : (Scope.mk 1 (of 1 .fail) ⟨0⟩ ⟨[("a", .string "{b}"), ("b", .string "x")], false⟩
      false).resolve "{a}" = .ok "x" := Scope.resolveBy_eq_ok_iff.mpr ⟨rfl, hresolve⟩
  exact ⟨hle, hresolve, resolve_eq_ok_of_le.1 hle _ _ _ hresolve, hscope,
    resolve_eq_ok_of_le.2 _ _ _ hscope⟩

end Playbook
