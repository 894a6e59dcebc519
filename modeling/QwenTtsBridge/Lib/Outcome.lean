/-
  QwenTtsBridge.Lib.Outcome — what a computation that can fail ends in.

  `Ends P Q x`: the value of `x` has `P`, or its error has `Q`. A chain of steps is taken
  apart by `Ends.bind`, one step at a time; what a step's value is known to have is there
  for the steps after it.
-/

namespace QwenTtsBridge.Lib

variable {ε α β : Type}

def Ends (P : α → Prop) (Q : ε → Prop) : Except ε α → Prop
  | .ok a => P a
  | .error e => Q e

@[simp] theorem ok_bind (a : α) (f : α → Except ε β) : ((.ok a : Except ε α) >>= f) = f a := rfl

/-- The steps of a chain that gives a value. -/
theorem exists_of_bind {x : Except ε α} {f : α → Except ε β} {b : β} (h : x >>= f = .ok b) :
    ∃ a, x = .ok a ∧ f a = .ok b := by
  cases x with
  | ok a => exact ⟨a, rfl, h⟩
  | error e => cases h

namespace Ends

variable {P P' : α → Prop} {Q Q' : ε → Prop} {R : β → Prop}

theorem bind {x : Except ε α} {f : α → Except ε β} (h : Ends P Q x) (hf : ∀ a, P a → Ends R Q (f a)) :
    Ends R Q (x >>= f) := by
  cases x with
  | ok a => exact hf a h
  | error e => exact h

theorem ite {c : Prop} [Decidable c] {x y : Except ε α} (hx : c → Ends P Q x) (hy : ¬ c → Ends P Q y) :
    Ends P Q (if c then x else y) := by
  by_cases h : c
  · rw [if_pos h]
    exact hx h
  · rw [if_neg h]
    exact hy h

theorem mono {x : Except ε α} (h : Ends P Q x) (hP : ∀ a, P a → P' a) (hQ : ∀ e, Q e → Q' e) : Ends P' Q' x := by
  cases x with
  | ok a => exact hP a h
  | error e => exact hQ e h

theorem value {x : Except ε α} {a : α} (h : Ends P Q x) (hx : x = .ok a) : P a := by
  rw [hx] at h
  exact h

theorem failure {x : Except ε α} {e : ε} (h : Ends P Q x) (hx : x = .error e) : Q e := by
  rw [hx] at h
  exact h

end Ends

/-- Every value that `x` gives has `P`. -/
abbrev Yields (P : α → Prop) (x : Except ε α) : Prop := Ends P (fun _ => True) x

theorem yields_any (x : Except ε α) : Yields (fun _ => True) x := by
  cases x <;> exact trivial

end QwenTtsBridge.Lib
