/-
  QwenTtsBridge.Lib.EventLog — a log of events that answer keys, and what a thread has
  still to do to fill it.

  `Settles`: a list of actions, some of which answer a key and some of which declare keys
  settled; every key is answered before it is declared settled. `Script`: a list in which
  only quiet actions follow an ending one. `Silent`: no event that
  speaks for a key follows one that ends it. `Legal`: every event is allowed by those
  before it. `Sealed`: an event that closes the log is its last, and all keys are answered
  by then.
-/

import Mathlib.Data.List.Basic

namespace QwenTtsBridge.Lib.EventLog

/-! ## Keys are answered before they are settled -/

section Agenda

variable {α κ : Type*} {due : α → Option κ} {settles : α → List κ} {done done' : List κ} {a : α} {l l' : List α}

/-- `done` are the keys answered before the list starts. -/
def Settles (due : α → Option κ) (settles : α → List κ) (done : List κ) : List α → Prop
  | [] => True
  | a :: l => (∀ k ∈ settles a, k ∈ done) ∧ Settles due settles ((due a).toList ++ done) l

theorem Settles.mono (hd : ∀ k ∈ done, k ∈ done') (h : Settles due settles done l) : Settles due settles done' l := by
  induction l generalizing done done' with
  | nil => trivial
  | cons a l ih =>
    refine ⟨fun k hk => hd k (h.1 k hk), ih ?_ h.2⟩
    intro k hk
    rcases List.mem_append.mp hk with hk | hk
    · exact List.mem_append_left _ hk
    · exact List.mem_append_right _ (hd k hk)

theorem Settles.append (h : Settles due settles done l) (h' : Settles due settles done l') :
    Settles due settles done (l ++ l') := by
  induction l generalizing done with
  | nil => exact h'
  | cons a l ih => exact ⟨h.1, ih h.2 (h'.mono fun k hk => List.mem_append_right _ hk)⟩

/-- A list that declares nothing settled. -/
theorem settles_of_forall (h : ∀ a ∈ l, settles a = []) : Settles due settles done l := by
  induction l generalizing done with
  | nil => trivial
  | cons a l ih =>
    refine ⟨fun k hk => ?_, ih fun b hb => h b (List.mem_cons_of_mem _ hb)⟩
    rw [h a List.mem_cons_self] at hk
    cases hk

end Agenda

/-! ## Scripts -/

section Script

variable {α : Type*} {ends quiet : α → Bool} {a : α} {l l' : List α}

/-- Only quiet actions follow one that ends the script. -/
def Script (ends quiet : α → Bool) (l : List α) : Prop := l.Pairwise fun a b => ends a = true → quiet b = true

theorem script_of_quiet (h : ∀ a ∈ l, quiet a = true) : Script ends quiet l :=
  List.pairwise_of_forall_mem_list fun _ _ b hb _ => h b hb

theorem Script.tail (h : Script ends quiet (a :: l)) : Script ends quiet l := (List.pairwise_cons.mp h).2

theorem Script.rest (h : Script ends quiet (a :: l)) (ha : ends a = true) : ∀ b ∈ l, quiet b = true :=
  fun b hb => (List.pairwise_cons.mp h).1 b hb ha

theorem script_cons (h : ∀ b ∈ l, quiet b = true) : Script ends quiet (a :: l) :=
  List.pairwise_cons.mpr ⟨fun b hb _ => h b hb, script_of_quiet h⟩

theorem Script.push (h : Script ends quiet l) (hl : ∀ a ∈ l', ends a = false) : Script ends quiet (l' ++ l) := by
  have hnot : ∀ a ∈ l', ∀ b : α, ends a = true → quiet b = true := by
    intro a ha b hends
    rw [hl a ha] at hends
    cases hends
  exact List.pairwise_append.mpr
    ⟨List.pairwise_of_forall_mem_list fun a ha b _ => hnot a ha b, h, fun a ha b _ => hnot a ha b⟩

end Script

/-! ## Silence -/

section Silence

variable {ε κ : Type*} {ends speaks : κ → ε → Bool} {log : List ε} {e : ε}

/-- No event that speaks for a key follows one that ends it. -/
def Silent (ends speaks : κ → ε → Bool) (log : List ε) : Prop :=
  log.Pairwise fun a b => ∀ k, ends k a = true → speaks k b = false

theorem silent_nil : Silent ends speaks [] := List.Pairwise.nil

theorem Silent.snoc (h : Silent ends speaks log) (hn : ∀ k, speaks k e = true → ∀ a ∈ log, ends k a = false) :
    Silent ends speaks (log ++ [e]) := by
  refine List.pairwise_append.mpr ⟨h, List.pairwise_singleton _ _, fun a ha b hb k hends => ?_⟩
  rw [List.mem_singleton.mp hb]
  by_contra hspeaks
  rw [hn k (by simpa using hspeaks) a ha] at hends
  cases hends

end Silence

/-! ## Legal logs -/

section Legal

variable {ε : Type*} {allowed : List ε → ε → Prop} {log : List ε} {e : ε}

/-- Every event is allowed by those before it. -/
def Legal (allowed : List ε → ε → Prop) (log : List ε) : Prop :=
  ∀ before e after, log = before ++ e :: after → allowed before e

theorem legal_nil : Legal allowed [] := by
  intro before e after h
  simp at h

theorem Legal.snoc (h : Legal allowed log) (he : allowed log e) : Legal allowed (log ++ [e]) := by
  intro before e' after heq
  rcases List.eq_nil_or_concat' after with rfl | ⟨after', last, rfl⟩
  · obtain ⟨hlog, he'⟩ := List.append_inj' heq rfl
    rw [List.singleton_inj] at he'
    rw [← hlog, ← he']
    exact he
  · rw [← List.cons_append, ← List.append_assoc] at heq
    obtain ⟨rfl, -⟩ := List.append_inj' heq rfl
    exact h before e' after' rfl

theorem Legal.of_append {after : List ε} (h : Legal allowed (log ++ after)) : Legal allowed log := by
  rintro before e' after' rfl
  exact h before e' (after' ++ after) (by simp)

/-- Induction on a legal log from its end. -/
theorem Legal.snoc_iff : Legal allowed (log ++ [e]) ↔ Legal allowed log ∧ allowed log e :=
  ⟨fun h => ⟨h.of_append, h log e [] rfl⟩, fun h => h.1.snoc h.2⟩

end Legal

/-! ## Closed logs -/

section Sealed

variable {ε κ : Type*} {closes : ε → Bool} {answers : ε → Option κ} {keys : List κ} {log : List ε}

/-- An event that closes the log is its last one, and every key was answered before it. -/
def Sealed (closes : ε → Bool) (answers : ε → Option κ) (keys : List κ) (log : List ε) : Prop :=
  ∀ before e after, log = before ++ e :: after → closes e = true →
    after = [] ∧ ∀ k ∈ keys, k ∈ before.filterMap answers

theorem sealed_of_open (h : ∀ e ∈ log, closes e = false) : Sealed closes answers keys log := by
  rintro before e after rfl hcloses
  rw [h e (List.mem_append_right _ List.mem_cons_self)] at hcloses
  cases hcloses

theorem sealed_snoc {e : ε} (h : ∀ e ∈ log, closes e = false) (hk : ∀ k ∈ keys, k ∈ log.filterMap answers) :
    Sealed closes answers keys (log ++ [e]) := by
  intro before e' after heq hcloses
  rcases List.eq_nil_or_concat' after with rfl | ⟨after', last, rfl⟩
  · obtain ⟨hlog, -⟩ := List.append_inj' heq rfl
    exact ⟨rfl, hlog ▸ hk⟩
  · rw [← List.cons_append, ← List.append_assoc] at heq
    obtain ⟨rfl, -⟩ := List.append_inj' heq rfl
    rw [h e' (List.mem_append_right _ List.mem_cons_self)] at hcloses
    cases hcloses

end Sealed

end QwenTtsBridge.Lib.EventLog
