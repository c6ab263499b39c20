/-!
# Transition systems

Several parties take turns in any order.  A system is a partial step function: an action
is the choice of who goes next, and of what is left open in that step.  A run may be held
to a condition on each of its steps.
-/

namespace Transitions

universe u v

variable {σ : Type u} {α : Type v}

/-- The states that are reached by steps which are all allowed. -/
inductive Reaches (step : α → σ → Option σ) (allowed : α → σ → Prop) (s : σ) : σ → Prop where
  | refl : Reaches step allowed s s
  | tail {t u : σ} {a : α} :
    Reaches step allowed s t → allowed a t → step a t = some u → Reaches step allowed s u

/-- The state after a list of actions, if each of them is possible. -/
def runs (step : α → σ → Option σ) : List α → σ → Option σ
  | [], s => some s
  | a :: as, s => (step a s).bind (runs step as)

variable {step : α → σ → Option σ} {allowed : α → σ → Prop} {s t u : σ}

namespace Reaches

/-- What allowed steps keep holds in every reached state. -/
theorem invariant {P : σ → Prop} (h : Reaches step allowed s t) (h0 : P s)
    (hstep : ∀ a t u, P t → allowed a t → step a t = some u → P u) : P t := by
  induction h with
  | refl => exact h0
  | tail _ ha hs ih => exact hstep _ _ _ ih ha hs

theorem trans (h : Reaches step allowed s t) (h' : Reaches step allowed t u) :
    Reaches step allowed s u := by
  induction h' with
  | refl => exact h
  | tail _ ha hs ih => exact .tail ih ha hs

theorem single {a : α} (ha : allowed a s) (hs : step a s = some t) : Reaches step allowed s t :=
  .tail .refl ha hs

/-- A list of allowed actions reaches the state in which it ends. -/
theorem of_runs {as : List α} (hall : ∀ a ∈ as, ∀ s, allowed a s)
    (h : runs step as s = some t) : Reaches step allowed s t := by
  induction as generalizing s with
  | nil =>
    obtain rfl := Option.some.inj h
    exact .refl
  | cons a as ih =>
    obtain ⟨u, hu, hrest⟩ := Option.bind_eq_some_iff.mp h
    have hfirst := single (hall a List.mem_cons_self s) hu
    exact hfirst.trans (ih (fun b hb ↦ hall b (List.mem_cons_of_mem a hb)) hrest)

end Reaches

end Transitions
