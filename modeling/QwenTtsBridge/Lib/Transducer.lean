/-
  QwenTtsBridge.Lib.Transducer — stateful stages that turn one stream into another.

  A stage answers an input, and the end of the stream, with a list of outputs, or it throws;
  what a call that throws leaves of the stage's state is part of its result.
  - `feed` gives a stage a list of inputs, `complete` a whole stream;
  - `feed_append_ok`: a list may be given in parts;
  - `series` is the composition of stages: each takes the whole stream that the one before
    it has made.
-/

import Mathlib.Data.List.Basic

namespace QwenTtsBridge.Lib

/-- `α`: what streams are made of; `ρ`: how a stream ends; `ε`: what is thrown. -/
structure Transducer (ε α ρ : Type) where
  State : Type
  state : State
  onInput : State → α → State × Except ε (List α)
  onEnd : State → ρ → State × Except ε (List α)

namespace Transducer

variable {ε α ρ : Type} {p p' : Transducer ε α ρ} {xs ys out : List α}

def input (p : Transducer ε α ρ) (x : α) : Transducer ε α ρ × Except ε (List α) :=
  ({ p with state := (p.onInput p.state x).1 }, (p.onInput p.state x).2)

def close (p : Transducer ε α ρ) (reason : ρ) : Transducer ε α ρ × Except ε (List α) :=
  ({ p with state := (p.onEnd p.state reason).1 }, (p.onEnd p.state reason).2)

def feed : Transducer ε α ρ → List α → Transducer ε α ρ × Except ε (List α)
  | p, [] => (p, .ok [])
  | p, x :: xs =>
    match p.input x with
    | (p, .error e) => (p, .error e)
    | (p, .ok emitted) =>
      match p.feed xs with
      | (p, .error e) => (p, .error e)
      | (p, .ok next) => (p, .ok (emitted ++ next))

theorem feed_cons_ok {x : α} : p.feed (x :: xs) = (p', .ok out) ↔
    ∃ q emitted next, p.input x = (q, .ok emitted) ∧ q.feed xs = (p', .ok next) ∧ out = emitted ++ next := by
  constructor
  · intro h
    dsimp only [feed] at h
    split at h
    · cases h
    · rename_i q emitted hinput
      split at h
      · cases h
      · rename_i q' next hfeed
        cases h
        exact ⟨q, emitted, next, hinput, hfeed, rfl⟩
  · rintro ⟨q, emitted, next, hinput, hfeed, rfl⟩
    simp only [feed, hinput, hfeed]

theorem feed_append_ok : p.feed (xs ++ ys) = (p', .ok out) ↔
    ∃ q first second, p.feed xs = (q, .ok first) ∧ q.feed ys = (p', .ok second) ∧ out = first ++ second := by
  induction xs generalizing p out with
  | nil =>
    constructor
    · intro h
      exact ⟨p, [], out, rfl, h, rfl⟩
    · rintro ⟨q, first, second, h, h', rfl⟩
      cases h
      exact h'
  | cons x xs ih =>
    constructor
    · intro h
      obtain ⟨q, emitted, next, hinput, hrest, rfl⟩ := feed_cons_ok.mp h
      obtain ⟨q', first, second, hfirst, hsecond, rfl⟩ := ih.mp hrest
      exact ⟨q', emitted ++ first, second, feed_cons_ok.mpr ⟨q, emitted, first, hinput, hfirst, rfl⟩, hsecond,
        (List.append_assoc _ _ _).symm⟩
    · rintro ⟨q', first, second, hfirst, hsecond, rfl⟩
      obtain ⟨q, emitted, next, hinput, hrest, rfl⟩ := feed_cons_ok.mp hfirst
      exact feed_cons_ok.mpr ⟨q, emitted, next ++ second, hinput, ih.mpr ⟨q', next, second, hrest, hsecond, rfl⟩,
        List.append_assoc _ _ _⟩

/-- The whole stream: the inputs, then the end. -/
def complete (p : Transducer ε α ρ) (xs : List α) (reason : ρ) : Except ε (List α) :=
  match p.feed xs with
  | (_, .error e) => .error e
  | (p, .ok body) =>
    match p.close reason with
    | (_, .error e) => .error e
    | (_, .ok tail) => .ok (body ++ tail)

theorem complete_ok {reason : ρ} : p.complete xs reason = .ok out ↔
    ∃ q body q' tail, p.feed xs = (q, .ok body) ∧ q.close reason = (q', .ok tail) ∧ out = body ++ tail := by
  constructor
  · intro h
    unfold complete at h
    split at h
    · cases h
    · rename_i q body hfeed
      split at h
      · cases h
      · rename_i q' tail hclose
        cases h
        exact ⟨q, body, q', tail, hfeed, hclose, rfl⟩
  · rintro ⟨q, body, q', tail, hfeed, hclose, rfl⟩
    simp only [complete, hfeed, hclose]

/-- Every stage makes its whole output of the whole output of the one before it. -/
def series : List (Transducer ε α ρ) → List α → ρ → Except ε (List α)
  | [], xs, _ => .ok xs
  | p :: ps, xs, reason =>
    match p.complete xs reason with
    | .error e => .error e
    | .ok ys => series ps ys reason

theorem series_cons_ok {ps : List (Transducer ε α ρ)} {reason : ρ} : series (p :: ps) xs reason = .ok out ↔
    ∃ ys, p.complete xs reason = .ok ys ∧ series ps ys reason = .ok out := by
  constructor
  · intro h
    dsimp only [series] at h
    split at h
    · cases h
    · rename_i ys hcomplete
      exact ⟨ys, hcomplete, h⟩
  · rintro ⟨ys, hcomplete, h⟩
    simp only [series, hcomplete, h]

/-- No call of the stage throws, whatever came before. -/
def NeverThrows (p : Transducer ε α ρ) : Prop :=
  (∀ state x, ∃ out, (p.onInput state x).2 = .ok out) ∧ ∀ state reason, ∃ out, (p.onEnd state reason).2 = .ok out

theorem NeverThrows.feed (h : NeverThrows p) (xs : List α) : ∃ q out, p.feed xs = (q, .ok out) ∧ NeverThrows q := by
  induction xs generalizing p with
  | nil => exact ⟨p, [], rfl, h⟩
  | cons x xs ih =>
    obtain ⟨emitted, hemitted⟩ := h.1 p.state x
    have hinput : p.input x = ({ p with state := (p.onInput p.state x).1 }, .ok emitted) := by
      unfold input
      rw [hemitted]
    have hnext : NeverThrows { p with state := (p.onInput p.state x).1 } := h
    obtain ⟨q, next, hfeed, hq⟩ := ih hnext
    exact ⟨q, emitted ++ next, feed_cons_ok.mpr ⟨_, emitted, next, hinput, hfeed, rfl⟩, hq⟩

theorem NeverThrows.complete (h : NeverThrows p) (xs : List α) (reason : ρ) : ∃ out, p.complete xs reason = .ok out := by
  obtain ⟨q, body, hfeed, hq⟩ := h.feed xs
  obtain ⟨tail, htail⟩ := hq.2 q.state reason
  have hclose : q.close reason = ({ q with state := (q.onEnd q.state reason).1 }, .ok tail) := by
    unfold close
    rw [htail]
  exact ⟨body ++ tail, complete_ok.mpr ⟨q, body, _, tail, hfeed, hclose, rfl⟩⟩

theorem series_of_neverThrows {ps : List (Transducer ε α ρ)} (h : ∀ p ∈ ps, NeverThrows p) (xs : List α) (reason : ρ) :
    ∃ out, series ps xs reason = .ok out := by
  induction ps generalizing xs with
  | nil => exact ⟨xs, rfl⟩
  | cons p ps ih =>
    obtain ⟨ys, hys⟩ := (h p (List.mem_cons_self ..)).complete xs reason
    obtain ⟨out, hout⟩ := ih (fun q hq => h q (List.mem_cons_of_mem _ hq)) ys
    exact ⟨out, series_cons_ok.mpr ⟨ys, hys, hout⟩⟩

end Transducer

end QwenTtsBridge.Lib
