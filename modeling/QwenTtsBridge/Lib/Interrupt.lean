/-
  QwenTtsBridge.Lib.Interrupt — programs over a persistent state whose every step may fail
  and whose process may be killed between any two steps.

  A `Prog` is run against `Fates`, one for each step that it takes: the step is done, it
  throws without effect, or the process is killed before it. A killed task runs nothing
  more, no handler either.
  - `Safe C Q E p s`: whatever the fates, `p` from `s` returns in `Q`, throws in `E` or is
    killed in `C`. There is one rule for each construct.
  - `Completes p s x s'`: uninterrupted, `p` from `s` ends with `x` in `s'`.
  - `Calm Q E p s`: uninterrupted, `p` from `s` returns in `Q` or throws in `E`.
  - `Continues p q rest`, `Undone R p q s`: `p` is the first part of `q`; what `q` does where
    `p` ends, and what it leaves where a step of `p` fails.
-/

import Mathlib.Data.List.Basic

namespace QwenTtsBridge.Lib.Interrupt

/-- What becomes of one step; `ι` are the errors of steps that fail. -/
inductive Fate (ι : Type) where
  | done
  | fails (e : ι)
  | killed

abbrev Fates (ι : Type) := Nat → Fate ι

def Fates.tail {ι : Type} (fates : Fates ι) : Fates ι := fun n => fates (n + 1)

/-- No step fails and nobody kills the process. -/
def undisturbed {ι : Type} : Fates ι := fun _ => .done

inductive Exit (ε α : Type) where
  | value (a : α)
  | thrown (e : ε)
  | killed
  deriving DecidableEq

def Prog (ι σ ε α : Type) := Fates ι → σ → Exit ε α × σ × Fates ι

namespace Prog

variable {ι σ ε ε' α β : Type}

def bind (p : Prog ι σ ε α) (k : α → Prog ι σ ε β) : Prog ι σ ε β := fun fates s =>
  match p fates s with
  | (.value a, s', fates') => k a fates' s'
  | (.thrown e, s', fates') => (.thrown e, s', fates')
  | (.killed, s', fates') => (.killed, s', fates')

instance : Monad (Prog ι σ ε) where
  pure a := fun fates s => (.value a, s, fates)
  bind := bind

def throw (e : ε) : Prog ι σ ε α := fun fates s => (.thrown e, s, fates)

/-- A computation that takes no step. -/
def ofExcept : Except ε α → Prog ι σ ε α
  | .ok a => pure a
  | .error e => throw e

/-- One step. An error of its own leaves the state as it is, too. -/
def act (f : σ → Except ι (α × σ)) : Prog ι σ ι α := fun fates s =>
  match fates 0 with
  | .killed => (.killed, s, fates.tail)
  | .fails e => (.thrown e, s, fates.tail)
  | .done =>
    match f s with
    | .ok (a, s') => (.value a, s', fates.tail)
    | .error e => (.thrown e, s, fates.tail)

def mapError (g : ε → ε') (p : Prog ι σ ε α) : Prog ι σ ε' α := fun fates s =>
  match p fates s with
  | (.value a, s', fates') => (.value a, s', fates')
  | (.thrown e, s', fates') => (.thrown (g e), s', fates')
  | (.killed, s', fates') => (.killed, s', fates')

/-- `try { p } catch (e) { handler e }`. -/
def attempt (p : Prog ι σ ε α) (handler : ε → Prog ι σ ε' α) : Prog ι σ ε' α := fun fates s =>
  match p fates s with
  | (.value a, s', fates') => (.value a, s', fates')
  | (.thrown e, s', fates') => handler e fates' s'
  | (.killed, s', fates') => (.killed, s', fates')

/-- `p` with a destructor that runs however `p` is left, unless the process is killed. -/
def ensure (p : Prog ι σ ε α) (cleanup : Prog ι σ ε Unit) : Prog ι σ ε α := fun fates s =>
  match p fates s with
  | (.value a, s', fates') => (do cleanup; pure a : Prog ι σ ε α) fates' s'
  | (.thrown e, s', fates') => (do cleanup; throw e : Prog ι σ ε α) fates' s'
  | (.killed, s', fates') => (.killed, s', fates')

/-- `try { p } catch (e) { cleanup e; throw g e }`. -/
def rescue (p : Prog ι σ ε α) (cleanup : ε → Prog ι σ ε' Unit) (g : ε → ε') : Prog ι σ ε' α :=
  p.attempt fun e => do
    cleanup e
    throw (g e)

/-- The state that a run leaves behind. -/
def after (p : Prog ι σ ε α) (fates : Fates ι) (s : σ) : σ := (p fates s).2.1

end Prog

open Prog

variable {ι σ ε ε' α β : Type}

/-! ## Laws -/

section Laws

variable {γ : Type}

theorem Prog.bind_bind (p : Prog ι σ ε α) (k : α → Prog ι σ ε β) (l : β → Prog ι σ ε γ) :
    (p >>= k) >>= l = p >>= fun a => k a >>= l := by
  funext fates s
  change Prog.bind (Prog.bind p k) l fates s = Prog.bind p (fun a => Prog.bind (k a) l) fates s
  simp only [Prog.bind]
  rcases p fates s with ⟨x, s', fates'⟩
  cases x <;> rfl

/-- A handler that throws in the end may go round the parts. -/
theorem Prog.rescue_bind (p : Prog ι σ ε α) (k : α → Prog ι σ ε β) (cleanup : ε → Prog ι σ ε' Unit) (g : ε → ε') :
    (p >>= k).rescue cleanup g = p.rescue cleanup g >>= fun a => (k a).rescue cleanup g := by
  funext fates s
  change Prog.attempt (Prog.bind p k) _ fates s = Prog.bind (p.rescue cleanup g) _ fates s
  simp only [Prog.rescue, Prog.attempt, Prog.bind]
  rcases p fates s with ⟨x, s', fates'⟩
  cases x with
  | value a => rfl
  | killed => rfl
  | thrown e =>
    -- the handler does not come back to what follows
    have hleft : (cleanup e >>= fun _ => (throw (g e) : Prog ι σ ε' β)) fates' s' = Prog.bind (cleanup e)
      (fun _ => throw (g e)) fates' s' := rfl
    have hright : (cleanup e >>= fun _ => (throw (g e) : Prog ι σ ε' α)) fates' s' = Prog.bind (cleanup e)
      (fun _ => throw (g e)) fates' s' := rfl
    dsimp only
    rw [hleft, hright]
    simp only [Prog.bind]
    rcases cleanup e fates' s' with ⟨y, s'', fates''⟩
    cases y <;> rfl

theorem Prog.mapError_rescue {ε'' : Type} (p : Prog ι σ ε α) (f : ε → ε'') (cleanup : ε'' → Prog ι σ ε' Unit) (g : ε'' → ε') :
    (p.mapError f).rescue cleanup g = p.rescue (cleanup ∘ f) (g ∘ f) := by
  funext fates s
  simp only [Prog.rescue, Prog.attempt, Prog.mapError]
  rcases p fates s with ⟨x, s', fates'⟩
  cases x <;> rfl

end Laws

/-! ## Whatever the fates -/

def Safe (C : σ → Prop) (Q : α → σ → Prop) (E : ε → σ → Prop) (p : Prog ι σ ε α) (s : σ) : Prop :=
  ∀ fates, match p fates s with
    | (.value a, s', _) => Q a s'
    | (.thrown e, s', _) => E e s'
    | (.killed, s', _) => C s'

section Safe

variable {C : σ → Prop} {Q : α → σ → Prop} {E : ε → σ → Prop} {p : Prog ι σ ε α} {s : σ}

theorem safe_pure {a : α} (h : Q a s) : Safe C Q E (pure a : Prog ι σ ε α) s := fun _ => h

theorem safe_throw {e : ε} (h : E e s) : Safe C Q E (throw e : Prog ι σ ε α) s := fun _ => h

theorem safe_ofExcept {r : Except ε α} (hok : ∀ a, r = .ok a → Q a s) (herror : ∀ e, r = .error e → E e s) :
    Safe C Q E (ofExcept r : Prog ι σ ε α) s := by
  cases r with
  | ok a => exact safe_pure (hok a rfl)
  | error e => exact safe_throw (herror e rfl)

theorem safe_act {E : ι → σ → Prop} {f : σ → Except ι (α × σ)} (hkilled : C s) (herror : ∀ e, E e s)
    (hdone : ∀ a s', f s = .ok (a, s') → Q a s') : Safe C Q E (act f) s := by
  intro fates
  unfold act
  cases fates 0 with
  | killed => exact hkilled
  | fails e => exact herror e
  | done =>
    dsimp only
    cases hf : f s with
    | error e => exact herror e
    | ok r => exact hdone r.1 r.2 hf

theorem Safe.mono {C' : σ → Prop} {Q' : α → σ → Prop} {E' : ε → σ → Prop} (h : Safe C Q E p s)
    (hC : ∀ s', C s' → C' s') (hQ : ∀ a s', Q a s' → Q' a s') (hE : ∀ e s', E e s' → E' e s') :
    Safe C' Q' E' p s := by
  intro fates
  have := h fates
  revert this
  rcases p fates s with ⟨x, s', fates'⟩
  cases x with
  | value a => exact hQ a s'
  | thrown e => exact hE e s'
  | killed => exact hC s'

/-- Weaken what holds after the task returns. -/
theorem Safe.post {Q' : α → σ → Prop} (h : Safe C Q E p s) (hQ : ∀ a s', Q a s' → Q' a s') : Safe C Q' E p s :=
  h.mono (fun _ hC => hC) hQ fun _ _ hE => hE

theorem Safe.bind {Q' : β → σ → Prop} {k : α → Prog ι σ ε β} (h : Safe C Q E p s)
    (hk : ∀ a s', Q a s' → Safe C Q' E (k a) s') : Safe C Q' E (p >>= k) s := by
  intro fates
  have := h fates
  change match Prog.bind p k fates s with
    | (.value a, s', _) => Q' a s'
    | (.thrown e, s', _) => E e s'
    | (.killed, s', _) => C s'
  unfold Prog.bind
  revert this
  rcases p fates s with ⟨x, s', fates'⟩
  cases x with
  | value a => exact fun hQ => hk a s' hQ fates'
  | thrown e => exact id
  | killed => exact id

theorem Safe.mapError {E' : ε' → σ → Prop} {g : ε → ε'} (h : Safe C Q E p s) (hg : ∀ e s', E e s' → E' (g e) s') :
    Safe C Q E' (p.mapError g) s := by
  intro fates
  have := h fates
  unfold Prog.mapError
  revert this
  rcases p fates s with ⟨x, s', fates'⟩
  cases x with
  | value a => exact id
  | thrown e => exact hg e s'
  | killed => exact id

theorem Safe.attempt {E' : ε' → σ → Prop} {handler : ε → Prog ι σ ε' α} (h : Safe C Q E p s)
    (hhandler : ∀ e s', E e s' → Safe C Q E' (handler e) s') : Safe C Q E' (p.attempt handler) s := by
  intro fates
  have := h fates
  unfold Prog.attempt
  revert this
  rcases p fates s with ⟨x, s', fates'⟩
  cases x with
  | value a => exact id
  | thrown e => exact fun hE => hhandler e s' hE fates'
  | killed => exact id

theorem Safe.ensure {Q' : α → σ → Prop} {E' : ε → σ → Prop} {cleanup : Prog ι σ ε Unit} (h : Safe C Q E p s)
    (hvalue : ∀ a s', Q a s' → Safe C (fun _ => Q' a) E' cleanup s')
    (hthrown : ∀ e s', E e s' → Safe C (fun _ => E' e) E' cleanup s') : Safe C Q' E' (p.ensure cleanup) s := by
  intro fates
  have := h fates
  unfold Prog.ensure
  revert this
  rcases p fates s with ⟨x, s', fates'⟩
  cases x with
  | value a => exact fun hQ => (hvalue a s' hQ).bind (fun _ _ hQ' => safe_pure hQ') fates'
  | thrown e => exact fun hE => (hthrown e s' hE).bind (fun _ _ hE' => safe_throw hE') fates'
  | killed => exact id

theorem Safe.after (h : Safe C (fun _ => C) (fun _ => C) p s) (fates : Fates ι) : C (p.after fates s) := by
  have := h fates
  unfold Prog.after
  revert this
  rcases p fates s with ⟨x, s', fates'⟩
  cases x with
  | value a => exact id
  | thrown e => exact id
  | killed => exact id

end Safe

/-! ## Undisturbed -/

def Completes (p : Prog ι σ ε α) (s : σ) (x : Exit ε α) (s' : σ) : Prop :=
  p undisturbed s = (x, s', undisturbed)

def Exit.Meets (Q : α → σ → Prop) (E : ε → σ → Prop) (s : σ) : Exit ε α → Prop
  | .value a => Q a s
  | .thrown e => E e s
  | .killed => False

def Calm (Q : α → σ → Prop) (E : ε → σ → Prop) (p : Prog ι σ ε α) (s : σ) : Prop :=
  ∃ x s', Completes p s x s' ∧ x.Meets Q E s'

theorem completes_act {f : σ → Except ι (α × σ)} {a : α} {s s' : σ} (h : f s = .ok (a, s')) :
    Completes (act f) s (.value a) s' := by
  unfold Completes act
  dsimp only [undisturbed]
  rw [h]
  rfl

theorem completes_act_error {f : σ → Except ι (α × σ)} {e : ι} {s : σ} (h : f s = .error e) :
    Completes (act f) s (.thrown e) s := by
  unfold Completes act
  dsimp only [undisturbed]
  rw [h]
  rfl

section Calm

variable {Q : α → σ → Prop} {E : ε → σ → Prop} {p : Prog ι σ ε α} {s s' : σ}

theorem calm_pure {a : α} (h : Q a s) : Calm Q E (pure a : Prog ι σ ε α) s := ⟨.value a, s, rfl, h⟩

theorem calm_throw {e : ε} (h : E e s) : Calm Q E (throw e : Prog ι σ ε α) s := ⟨.thrown e, s, rfl, h⟩

theorem calm_ofExcept {r : Except ε α} (hok : ∀ a, r = .ok a → Q a s) (herror : ∀ e, r = .error e → E e s) :
    Calm Q E (ofExcept r : Prog ι σ ε α) s := by
  cases r with
  | ok a => exact calm_pure (hok a rfl)
  | error e => exact calm_throw (herror e rfl)

theorem calm_act {E : ι → σ → Prop} {f : σ → Except ι (α × σ)} (hdone : ∀ a s', f s = .ok (a, s') → Q a s')
    (herror : ∀ e, f s = .error e → E e s) : Calm Q E (act f) s := by
  cases hf : f s with
  | error e => exact ⟨.thrown e, s, completes_act_error hf, herror e hf⟩
  | ok r => exact ⟨.value r.1, r.2, completes_act hf, hdone r.1 r.2 hf⟩

theorem Calm.mono {Q' : α → σ → Prop} {E' : ε → σ → Prop} (h : Calm Q E p s) (hQ : ∀ a s', Q a s' → Q' a s')
    (hE : ∀ e s', E e s' → E' e s') : Calm Q' E' p s := by
  obtain ⟨x, s', hrun, hmeets⟩ := h
  cases x with
  | value a => exact ⟨.value a, s', hrun, hQ a s' hmeets⟩
  | thrown e => exact ⟨.thrown e, s', hrun, hE e s' hmeets⟩
  | killed => exact hmeets.elim

theorem Calm.bind {Q' : β → σ → Prop} {k : α → Prog ι σ ε β} (h : Calm Q E p s)
    (hk : ∀ a s', Q a s' → Calm Q' E (k a) s') : Calm Q' E (p >>= k) s := by
  obtain ⟨x, s', hrun, hmeets⟩ := h
  have hbind : (p >>= k) undisturbed s = Prog.bind p k undisturbed s := rfl
  unfold Prog.bind at hbind
  rw [show p undisturbed s = _ from hrun] at hbind
  cases x with
  | value a =>
    obtain ⟨y, s'', hrun', hmeets'⟩ := hk a s' hmeets
    exact ⟨y, s'', hbind.trans hrun', hmeets'⟩
  | thrown e => exact ⟨.thrown e, s', hbind, hmeets⟩
  | killed => exact hmeets.elim

theorem Calm.attempt {E' : ε' → σ → Prop} {handler : ε → Prog ι σ ε' α} (h : Calm Q E p s)
    (hhandler : ∀ e s', E e s' → Calm Q E' (handler e) s') : Calm Q E' (p.attempt handler) s := by
  obtain ⟨x, s', hrun, hmeets⟩ := h
  have hattempt : p.attempt handler undisturbed s = p.attempt handler undisturbed s := rfl
  conv_rhs at hattempt => unfold Prog.attempt
  rw [show p undisturbed s = _ from hrun] at hattempt
  cases x with
  | value a => exact ⟨.value a, s', hattempt, hmeets⟩
  | thrown e =>
    obtain ⟨y, s'', hrun', hmeets'⟩ := hhandler e s' hmeets
    exact ⟨y, s'', hattempt.trans hrun', hmeets'⟩
  | killed => exact hmeets.elim

theorem Calm.ensure {Q' : α → σ → Prop} {E' : ε → σ → Prop} {cleanup : Prog ι σ ε Unit} (h : Calm Q E p s)
    (hvalue : ∀ a s', Q a s' → Calm (fun _ => Q' a) E' cleanup s')
    (hthrown : ∀ e s', E e s' → Calm (fun _ => E' e) E' cleanup s') : Calm Q' E' (p.ensure cleanup) s := by
  obtain ⟨x, s', hrun, hmeets⟩ := h
  have hensure : p.ensure cleanup undisturbed s = p.ensure cleanup undisturbed s := rfl
  conv_rhs at hensure => unfold Prog.ensure
  rw [show p undisturbed s = _ from hrun] at hensure
  cases x with
  | value a =>
    obtain ⟨y, s'', hrun', hmeets'⟩ := (hvalue a s' hmeets).bind fun _ s'' h => calm_pure (a := a) h
    exact ⟨y, s'', hensure.trans hrun', hmeets'⟩
  | thrown e =>
    obtain ⟨y, s'', hrun', hmeets'⟩ := (hthrown e s' hmeets).bind fun _ s'' h => calm_throw (α := α) (e := e) h
    exact ⟨y, s'', hensure.trans hrun', hmeets'⟩
  | killed => exact hmeets.elim

theorem Calm.mapError {E' : ε' → σ → Prop} {g : ε → ε'} (h : Calm Q E p s) (hg : ∀ e s', E e s' → E' (g e) s') :
    Calm Q E' (p.mapError g) s := by
  obtain ⟨x, s', hrun, hmeets⟩ := h
  have hmap : p.mapError g undisturbed s = p.mapError g undisturbed s := rfl
  conv_rhs at hmap => unfold Prog.mapError
  rw [show p undisturbed s = _ from hrun] at hmap
  cases x with
  | value a => exact ⟨.value a, s', hmap, hmeets⟩
  | thrown e => exact ⟨.thrown (g e), s', hmap, hg e s' hmeets⟩
  | killed => exact hmeets.elim

theorem Calm.after {P : σ → Prop} (h : Calm (fun _ => P) (fun _ => P) p s) : P (p.after undisturbed s) := by
  obtain ⟨x, s', hrun, hmeets⟩ := h
  unfold Prog.after
  rw [show p undisturbed s = _ from hrun]
  cases x with
  | value a => exact hmeets
  | thrown e => exact hmeets
  | killed => exact hmeets.elim

theorem Safe.of_completes {a : α} (h : Safe C Q E p s) (hrun : Completes p s (.value a) s') : Q a s' := by
  have hend := h undisturbed
  rw [show p undisturbed s = _ from hrun] at hend
  exact hend

/-- There is one undisturbed run. -/
theorem Calm.of_completes {x : Exit ε α} (h : Calm Q E p s) (hrun : Completes p s x s') : x.Meets Q E s' := by
  obtain ⟨y, s'', hrun', hmeets⟩ := h
  have heq := hrun.symm.trans hrun'
  cases heq
  exact hmeets

end Calm

/-! ## Parts of a program -/

/-- Where `p` ends, `q` goes on as `rest`. -/
def Continues (p : Prog ι σ ε α) (q rest : Prog ι σ ε' β) : Prop :=
  ∀ fates s a s' fates', p fates s = (.value a, s', fates') → q fates s = rest fates' s'

/-- If a step of `p` fails, and none after it, then `q` fails too and leaves a state in `R`. -/
def Undone (R : σ → Prop) (p : Prog ι σ ε α) (q : Prog ι σ ε' β) (s : σ) : Prop :=
  ∀ fates e s', p fates s = (.thrown e, s', undisturbed) →
    ∃ e' s'', q fates s = (.thrown e', s'', undisturbed) ∧ R s''

section Parts

variable {γ : Type} {R R' : σ → Prop} {s : σ}

theorem Continues.bind (r : Prog ι σ ε γ) {k : γ → Prog ι σ ε α} {k' : γ → Prog ι σ ε β} {rest : Prog ι σ ε β}
    (h : ∀ c, Continues (k c) (k' c) rest) : Continues (r >>= k) (r >>= k') rest := by
  intro fates s a s' fates' hrun
  change Prog.bind r k fates s = _ at hrun
  change Prog.bind r k' fates s = _
  unfold Prog.bind at *
  revert hrun
  rcases r fates s with ⟨x, s₁, fates₁⟩
  cases x with
  | value c => exact h c fates₁ s₁ a s' fates'
  | thrown e => nofun
  | killed => nofun

theorem Continues.ensure {p : Prog ι σ ε' α} {q rest : Prog ι σ ε β} (h : Continues p q rest) (cleanup : Prog ι σ ε Unit) :
    Continues p (q.ensure cleanup) (rest.ensure cleanup) := by
  intro fates s a s' fates' hrun
  unfold Prog.ensure
  rw [h fates s a s' fates' hrun]

/-- The handler is not there any more. -/
theorem Continues.rescue {ε'' : Type} (p : Prog ι σ ε Unit) (f : ε → ε'') (cleanup : ε → Prog ι σ ε' Unit) (g : ε → ε')
    (rest : Prog ι σ ε' β) : Continues (p.mapError f) (p.rescue cleanup g >>= fun _ => rest) rest := by
  intro fates s a s' fates' hrun
  change Prog.bind (p.attempt _) _ fates s = _
  unfold Prog.bind Prog.attempt
  unfold Prog.mapError at hrun
  revert hrun
  rcases p fates s with ⟨x, s₁, fates₁⟩
  cases x with
  | value b =>
    intro hrun
    cases hrun
    rfl
  | thrown e => nofun
  | killed => nofun

theorem Undone.bind {Q : γ → σ → Prop} {r : Prog ι σ ε γ} {k : γ → Prog ι σ ε α} {k' : γ → Prog ι σ ε β}
    (hr : Safe (fun _ => True) Q (fun _ => R) r s) (hk : ∀ c s', Q c s' → Undone R (k c) (k' c) s') :
    Undone R (r >>= k) (r >>= k') s := by
  intro fates e s' hrun
  have hsafe := hr fates
  change Prog.bind r k fates s = _ at hrun
  change ∃ e' s'', Prog.bind r k' fates s = _ ∧ R s''
  unfold Prog.bind at *
  revert hrun hsafe
  rcases r fates s with ⟨x, s₁, fates₁⟩
  cases x with
  | value c => exact fun hQ hrun => hk c s₁ hQ fates₁ e s' hrun
  | thrown e₁ =>
    intro hR hrun
    cases hrun
    exact ⟨e, s', rfl, hR⟩
  | killed => nofun

theorem Undone.ensure {p : Prog ι σ ε' α} {q : Prog ι σ ε β} {cleanup : Prog ι σ ε Unit} (h : Undone R' p q s)
    (hcleanup : ∀ s', R' s' → Calm (fun _ => R) (fun _ => R) cleanup s') : Undone R p (q.ensure cleanup) s := by
  intro fates e s' hrun
  obtain ⟨e', s'', hq, hR'⟩ := h fates e s' hrun
  obtain ⟨y, s₃, hrun', hmeets⟩ := hcleanup s'' hR'
  have hensure : q.ensure cleanup fates s = (cleanup >>= fun _ => (throw e' : Prog ι σ ε β)) undisturbed s'' := by
    unfold Prog.ensure
    rw [hq]
  have hbind : (cleanup >>= fun _ => (throw e' : Prog ι σ ε β)) undisturbed s'' =
      Prog.bind cleanup (fun _ => throw e') undisturbed s'' := rfl
  unfold Prog.bind at hbind
  rw [show cleanup undisturbed s'' = _ from hrun'] at hbind
  cases y with
  | value u => exact ⟨e', s₃, hensure.trans hbind, hmeets⟩
  | thrown e₁ => exact ⟨e₁, s₃, hensure.trans hbind, hmeets⟩
  | killed => exact hmeets.elim

theorem Undone.rescue {ε'' : Type} {E : ε → σ → Prop} {p : Prog ι σ ε Unit} {f : ε → ε''}
    {cleanup : ε → Prog ι σ ε' Unit} {g : ε → ε'} {rest : Prog ι σ ε' β}
    (hp : Safe (fun _ => True) (fun _ _ => True) E p s)
    (hcleanup : ∀ e s', E e s' → Calm (fun _ => R) (fun _ => R) (cleanup e) s') :
    Undone R (p.mapError f) (p.rescue cleanup g >>= fun _ => rest) s := by
  intro fates e s' hrun
  have hsafe := hp fates
  change ∃ e' s'', Prog.bind (p.attempt _) _ fates s = _ ∧ R s''
  unfold Prog.bind Prog.attempt
  unfold Prog.mapError at hrun
  revert hrun hsafe
  rcases p fates s with ⟨x, s₁, fates₁⟩
  cases x with
  | value a => nofun
  | killed => nofun
  | thrown e₁ =>
    intro hrun hE
    cases hrun
    obtain ⟨y, s₃, hrun', hmeets⟩ := hcleanup e₁ s' hE
    have hbind : (cleanup e₁ >>= fun _ => (throw (g e₁) : Prog ι σ ε' Unit)) undisturbed s' =
        Prog.bind (cleanup e₁) (fun _ => throw (g e₁)) undisturbed s' := rfl
    unfold Prog.bind at hbind
    rw [show cleanup e₁ undisturbed s' = _ from hrun'] at hbind
    dsimp only
    cases y with
    | value u => exact ⟨g e₁, s₃, by rw [hbind]; rfl, hmeets⟩
    | thrown e₂ => exact ⟨e₂, s₃, by rw [hbind], hmeets⟩
    | killed => exact hmeets.elim

end Parts

end QwenTtsBridge.Lib.Interrupt
