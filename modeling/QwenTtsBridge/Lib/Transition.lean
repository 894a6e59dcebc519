/-
  QwenTtsBridge.Lib.Transition — runs of a partial step function.

  A system is a step function `σ → ε → Option σ` (`none`: the event cannot happen in
  that state) and a start state. `Reach step ok init` are the states that runs reach
  whose every step meets `ok`; with `ok` always true these are all reachable states.
  - `Reach.inv`: what holds at the start and is kept by every allowed step holds in
    every reached state.
  - `reach_of_run`: a list of events that runs to its end witnesses a reached state, so
    a trace can be evaluated.
-/

import Mathlib.Data.List.Basic

namespace QwenTtsBridge.Lib.Transition

variable {σ ε : Type*} {step : σ → ε → Option σ} {ok ok' : σ → ε → Prop} {init s s' : σ}

inductive Reach (step : σ → ε → Option σ) (ok : σ → ε → Prop) (init : σ) : σ → Prop
  | init : Reach step ok init init
  | step {s s' : σ} (e : ε) : Reach step ok init s → ok s e → step s e = some s' → Reach step ok init s'

/-- Every step is allowed. -/
def anyStep (_ : σ) (_ : ε) : Prop := True

instance (s : σ) (e : ε) : Decidable (anyStep s e) := .isTrue trivial

theorem Reach.mono (h : ∀ s e, ok s e → ok' s e) (r : Reach step ok init s) : Reach step ok' init s := by
  induction r with
  | init => exact .init
  | step e _ hok hs ih => exact .step e ih (h _ _ hok) hs

theorem Reach.trans {s' : σ} (h : Reach step ok init s) (h' : Reach step ok s s') : Reach step ok init s' := by
  induction h' with
  | init => exact h
  | step e _ hok hs ih => exact .step e ih hok hs

/-- The invariant rule. `I` may rely on the state before the step being reachable. -/
theorem Reach.inv {I : σ → Prop} (hinit : I init)
    (hstep : ∀ s e s', Reach step ok init s → I s → ok s e → step s e = some s' → I s')
    (r : Reach step ok init s) : I s := by
  induction r with
  | init => exact hinit
  | step e hr hok hs ih => exact hstep _ e _ hr ih hok hs

/-- Run the events in order; `none` when one is not allowed or cannot happen. -/
def run (step : σ → ε → Option σ) (ok : σ → ε → Prop) [∀ s e, Decidable (ok s e)] : σ → List ε → Option σ
  | s, [] => some s
  | s, e :: es => if ok s e then (step s e).bind fun s' => run step ok s' es else none

theorem reach_of_run [∀ s e, Decidable (ok s e)] {es : List ε} (hr : Reach step ok init s)
    (h : run step ok s es = some s') : Reach step ok init s' := by
  induction es generalizing s with
  | nil => cases h; exact hr
  | cons e es ih =>
    simp only [run] at h
    split at h
    · rename_i hok
      obtain ⟨s₁, h₁, h₂⟩ := Option.bind_eq_some_iff.mp h
      exact ih (.step e hr hok h₁) h₂
    · cases h

/-- A trace that ends in a state with `p`. -/
theorem exists_reach_of_run [∀ s e, Decidable (ok s e)] (es : List ε) {p : σ → Bool}
    (h : (run step ok init es).map p = some true) : ∃ s, Reach step ok init s ∧ p s = true := by
  obtain ⟨s, hs, hp⟩ := Option.map_eq_some_iff.mp h
  exact ⟨s, reach_of_run .init hs, hp⟩

end QwenTtsBridge.Lib.Transition
