/-
  QwenTtsBridge.Lib.Watermark — a server that refuses keys at or below a high-water mark,
  and a client whose keys increase.

  `key e` is the key that the event `e` brings. If the mark starts at zero and moves only to
  the key of the event at hand, then after any run it is zero or one of the keys received
  (`mark_mem`), so a key that increases on all those received is above it
  (`mark_lt_of_increasing`).
-/

import QwenTtsBridge.Lib.Transition

namespace QwenTtsBridge.Lib.Watermark

open QwenTtsBridge.Lib.Transition

variable {σ ε : Type*} {step : σ → ε → Option σ} {init s s' : σ} {key : ε → Option Nat} {mark : σ → Nat}

/-- The state after the events, when all of them can happen in this order. -/
def after (step : σ → ε → Option σ) : σ → List ε → Option σ
  | s, [] => some s
  | s, e :: es => (step s e).bind fun s' => after step s' es

theorem reach_of_after {es : List ε} (hr : Reach step anyStep init s) (h : after step s es = some s') :
    Reach step anyStep init s' := by
  induction es generalizing s with
  | nil => cases h; exact hr
  | cons e es ih =>
    obtain ⟨s₁, h₁, h₂⟩ := Option.bind_eq_some_iff.mp h
    exact ih (.step e hr trivial h₁) h₂

theorem mark_mem (hmark : ∀ s e s', step s e = some s' → mark s' = mark s ∨ key e = some (mark s')) {es : List ε}
    (h : after step s es = some s') : mark s' = mark s ∨ mark s' ∈ es.filterMap key := by
  induction es generalizing s with
  | nil => cases h; exact .inl rfl
  | cons e es ih =>
    obtain ⟨s₁, h₁, h₂⟩ := Option.bind_eq_some_iff.mp h
    have hsub : ∀ k ∈ es.filterMap key, k ∈ (e :: es).filterMap key := by
      intro k hk
      rw [List.filterMap_cons]
      split
      · exact hk
      · exact List.mem_cons_of_mem _ hk
    rcases ih h₂ with heq | hmem
    · rcases hmark s e s₁ h₁ with hsame | hkey
      · exact .inl (heq.trans hsame)
      · refine .inr (List.mem_filterMap.mpr ⟨e, List.mem_cons_self, ?_⟩)
        rw [heq]
        exact hkey
    · exact .inr (hsub _ hmem)

/-- A positive key that increases on the keys received is above the mark. -/
theorem mark_lt_of_increasing (mark : σ → Nat) (hinit : mark init = 0)
    (hmark : ∀ s e s', step s e = some s' → mark s' = mark s ∨ key e = some (mark s')) {es : List ε} {k : Nat}
    (h : after step init es = some s') (hpos : 0 < k) (hinc : (es.filterMap key ++ [k]).Pairwise (· < ·)) :
    mark s' < k := by
  rcases mark_mem hmark h with heq | hmem
  · rw [heq, hinit]
    exact hpos
  · exact (List.pairwise_append.mp hinc).2.2 _ hmem k List.mem_cons_self

end QwenTtsBridge.Lib.Watermark
