/-
  QwenTtsBridge.Lib.StreamParser — incremental parsers over arbitrary byte chunks.

  A scan function looks at the front of the unread input: one complete item and its
  size, a fatal error, or not enough input yet. The reference machine keeps exactly
  the unread input and the error it is stuck on. An implementation (a `Machine`, with
  whatever buffer it keeps) refines the reference through an abstraction function
  (`Refines`); its results are then those of the reference on every sequence of append
  and parse calls (`Refines.run`).

  For the reference, on a stream made of framed items (`Framed`): the items returned
  are a prefix of the original ones and the unread input is what is left of the input
  appended so far (`reference_stream`), each parse call answers the next item as soon
  as all of it was appended (`reference_next`), and a drained stream gives every item
  (`reference_drained`).
-/

import Mathlib.Data.List.Basic

namespace QwenTtsBridge.Lib.StreamParser

variable {σ β α α' ε : Type}

/-- The front of the unread input: nothing complete yet, an item of `size` input
    elements, or an error. -/
inductive Scan (α ε : Type) where
  | needMore
  | item (a : α) (size : Nat)
  | fatal (e : ε)
  deriving DecidableEq, Repr

/-- The answer of one parse call. -/
inductive Result (α ε : Type) where
  | needMoreData
  | frameReady (frame : α)
  | fatalError (error : ε)
  deriving DecidableEq, Repr

def Result.map (f : α → α') : Result α ε → Result α' ε
  | .needMoreData => .needMoreData
  | .frameReady a => .frameReady (f a)
  | .fatalError e => .fatalError e

@[simp] theorem Result.map_id : (Result.map id : Result α ε → Result α ε) = id := by
  funext r
  cases r <;> rfl

inductive Op (β : Type) where
  | append (chunk : List β)
  | parse
  deriving DecidableEq, Repr

/-- All the input a sequence of calls appends. -/
def appended : List (Op β) → List β
  | [] => []
  | .append chunk :: ops => chunk ++ appended ops
  | .parse :: ops => appended ops

/-- The items among the answers, in order. -/
def items : List (Result α ε) → List α
  | [] => []
  | .frameReady a :: rs => a :: items rs
  | .needMoreData :: rs => items rs
  | .fatalError _ :: rs => items rs

@[simp] theorem appended_append (xs ys : List (Op β)) : appended (xs ++ ys) = appended xs ++ appended ys := by
  induction xs with
  | nil => rfl
  | cons op xs ih => cases op <;> simp [appended, ih]

@[simp] theorem items_append (xs ys : List (Result α ε)) : items (xs ++ ys) = items xs ++ items ys := by
  induction xs with
  | nil => rfl
  | cons r xs ih => cases r <;> simp [items, ih]

theorem mem_items {a : α} {rs : List (Result α ε)} (h : .frameReady a ∈ rs) : a ∈ items rs := by
  induction rs with
  | nil => cases h
  | cons r rs ih =>
    rcases List.mem_cons.mp h with rfl | h'
    · exact List.mem_cons_self
    · cases r with
      | frameReady b => exact List.mem_cons_of_mem _ (ih h')
      | needMoreData => exact ih h'
      | fatalError e => exact ih h'

/-! ## Machines -/

structure Machine (σ β α ε : Type) where
  init : σ
  append : σ → List β → σ
  parse : σ → σ × Result α ε

namespace Machine

variable (M : Machine σ β α ε)

def step (s : σ) : Op β → σ × List (Result α ε)
  | .append chunk => (M.append s chunk, [])
  | .parse => ((M.parse s).1, [(M.parse s).2])

def run (s : σ) : List (Op β) → σ × List (Result α ε)
  | [] => (s, [])
  | op :: ops => ((run (M.step s op).1 ops).1, (M.step s op).2 ++ (run (M.step s op).1 ops).2)

theorem run_parse (s : σ) (ops : List (Op β)) :
    M.run s (.parse :: ops) = ((M.run (M.parse s).1 ops).1, (M.parse s).2 :: (M.run (M.parse s).1 ops).2) := rfl

theorem run_append (s : σ) (xs ys : List (Op β)) :
    M.run s (xs ++ ys) = ((M.run (M.run s xs).1 ys).1, (M.run s xs).2 ++ (M.run (M.run s xs).1 ys).2) := by
  induction xs generalizing s with
  | nil => simp [run]
  | cons op xs ih => simp [run, ih]

/-- Parse until the answer is not an item, at most `fuel` times. -/
def drain : Nat → σ → σ × List (Result α ε)
  | 0, s => (s, [])
  | fuel + 1, s =>
    match (M.parse s).2 with
    | .frameReady a => ((drain fuel (M.parse s).1).1, .frameReady a :: (drain fuel (M.parse s).1).2)
    | r => ((M.parse s).1, [r])

/-- A read loop: append each chunk and drain. -/
def drive (fuel : Nat) (s : σ) : List (List β) → σ × List (Result α ε)
  | [] => (s, [])
  | chunk :: chunks =>
    let d := M.drain fuel (M.append s chunk)
    ((drive fuel d.1 chunks).1, d.2 ++ (drive fuel d.1 chunks).2)

end Machine

/-! ## The reference machine -/

structure Unread (β ε : Type) where
  bytes : List β
  stuck : Option ε
  deriving DecidableEq, Repr

/-- What every use of a scan function relies on: an answer does not change when more
    input arrives, and an item lies inside the input. -/
structure Scanner (β α ε : Type) where
  scan : List β → Scan α ε
  scan_nil : scan [] = .needMore
  item_pos : ∀ {bs a n}, scan bs = .item a n → 0 < n
  item_le : ∀ {bs a n}, scan bs = .item a n → n ≤ bs.length
  item_append : ∀ {bs a n} (more : List β), scan bs = .item a n → scan (bs ++ more) = .item a n
  fatal_append : ∀ {bs e} (more : List β), scan bs = .fatal e → scan (bs ++ more) = .fatal e

variable (S : Scanner β α ε)

namespace Scanner

def append (u : Unread β ε) (chunk : List β) : Unread β ε :=
  if u.stuck.isSome then u else { u with bytes := u.bytes ++ chunk }

def parse (u : Unread β ε) : Unread β ε × Result α ε :=
  match u.stuck with
  | some e => (u, .fatalError e)
  | none =>
    match S.scan u.bytes with
    | .needMore => (u, .needMoreData)
    | .item a n => ({ u with bytes := u.bytes.drop n }, .frameReady a)
    | .fatal e => ({ u with stuck := some e }, .fatalError e)

def reference : Machine (Unread β ε) β α ε where
  init := ⟨[], none⟩
  append := append
  parse := S.parse

/-- The parser has nothing more to return. -/
def Exhausted (u : Unread β ε) : Prop := ∀ a, (S.parse u).2 ≠ .frameReady a

theorem parse_length (u : Unread β ε) : (S.parse u).1.bytes.length ≤ u.bytes.length := by
  unfold parse
  repeat' split
  all_goals simp

/-- An answer that is not an item is repeated by the next call. -/
theorem parse_exhausted {u : Unread β ε} (h : S.Exhausted u) : S.Exhausted (S.parse u).1 := by
  intro a ha
  unfold Exhausted parse at h
  unfold parse at ha
  cases hs : u.stuck with
  | some e => simp [hs] at ha
  | none =>
    cases hc : S.scan u.bytes with
    | needMore => simp [hs, hc] at ha
    | item b n => exact h b (by simp [hs, hc])
    | fatal e => simp [hs, hc] at ha

theorem drain_length (fuel : Nat) (u : Unread β ε) : (S.reference.drain fuel u).1.bytes.length ≤ u.bytes.length := by
  induction fuel generalizing u with
  | zero => exact Nat.le_refl _
  | succ fuel ih =>
    have h1 := S.parse_length u
    have h2 := ih (S.parse u).1
    simp only [Machine.drain, reference] at *
    split
    · exact Nat.le_trans h2 h1
    · exact h1

/-- With more fuel than unread input, draining stops only when nothing is left to return. -/
theorem drain_exhausted (fuel : Nat) (u : Unread β ε) (h : u.bytes.length < fuel) :
    S.Exhausted (S.reference.drain fuel u).1 := by
  induction fuel generalizing u with
  | zero => omega
  | succ fuel ih =>
    cases hr : (S.parse u).2 with
    | frameReady a =>
      have hlen : (S.parse u).1.bytes.length < u.bytes.length := by
        unfold parse at hr ⊢
        cases hs : u.stuck with
        | some e => simp [hs] at hr
        | none =>
          cases hc : S.scan u.bytes with
          | needMore => simp [hs, hc] at hr
          | fatal e => simp [hs, hc] at hr
          | item b n =>
            have h1 := S.item_pos hc
            have h2 := S.item_le hc
            simp only [List.length_drop]
            omega
      have := ih (S.parse u).1 (by omega)
      simp only [Machine.drain, reference, hr] at *
      exact this
    | needMoreData =>
      have : S.Exhausted u := fun a ha => by rw [hr] at ha; cases ha
      simp only [Machine.drain, reference, hr]
      exact S.parse_exhausted this
    | fatalError e =>
      have : S.Exhausted u := fun a ha => by rw [hr] at ha; cases ha
      simp only [Machine.drain, reference, hr]
      exact S.parse_exhausted this

theorem drive_exhausted (fuel : Nat) (u : Unread β ε) (chunks : List (List β)) (hu : S.Exhausted u)
    (h : u.bytes.length + chunks.flatten.length < fuel) : S.Exhausted (S.reference.drive fuel u chunks).1 := by
  induction chunks generalizing u with
  | nil => exact hu
  | cons chunk chunks ih =>
    have ha : (append u chunk).bytes.length ≤ u.bytes.length + chunk.length := by
      unfold append
      split <;> simp
    have hd := S.drain_length fuel (append u chunk)
    simp only [List.flatten_cons, List.length_append] at h
    exact ih _ (S.drain_exhausted fuel _ (by show (append u chunk).bytes.length < fuel; omega))
      (by
        show (S.reference.drain fuel (append u chunk)).1.bytes.length + _ < fuel
        omega)

end Scanner

/-! ## Refinement -/

/-- `M` behaves as the reference through `abs`, its items read through `f`. -/
structure Refines (M : Machine σ β α' ε) (f : α → α') (abs : σ → Unread β ε) (Inv : σ → Prop) :
    Prop where
  init_inv : Inv M.init
  init_abs : abs M.init = ⟨[], none⟩
  append_inv : ∀ s chunk, Inv s → Inv (M.append s chunk)
  append_abs : ∀ s chunk, Inv s → abs (M.append s chunk) = Scanner.append (abs s) chunk
  parse_inv : ∀ s, Inv s → Inv (M.parse s).1
  parse_abs : ∀ s, Inv s → abs (M.parse s).1 = (S.parse (abs s)).1
  parse_result : ∀ s, Inv s → (M.parse s).2 = ((S.parse (abs s)).2).map f

namespace Refines

variable {S} {M : Machine σ β α' ε} {f : α → α'} {abs : σ → Unread β ε} {Inv : σ → Prop}

theorem step (h : Refines S M f abs Inv) (s : σ) (hs : Inv s) (op : Op β) :
    Inv (M.step s op).1 ∧ abs (M.step s op).1 = (S.reference.step (abs s) op).1 ∧
      (M.step s op).2 = (S.reference.step (abs s) op).2.map (Result.map f) := by
  cases op with
  | append chunk => exact ⟨h.append_inv s chunk hs, h.append_abs s chunk hs, rfl⟩
  | parse => exact ⟨h.parse_inv s hs, h.parse_abs s hs, by simp [Machine.step, h.parse_result s hs, Scanner.reference]⟩

theorem run (h : Refines S M f abs Inv) (s : σ) (hs : Inv s) (ops : List (Op β)) :
    Inv (M.run s ops).1 ∧ abs (M.run s ops).1 = (S.reference.run (abs s) ops).1 ∧
      (M.run s ops).2 = (S.reference.run (abs s) ops).2.map (Result.map f) := by
  induction ops generalizing s with
  | nil => exact ⟨hs, rfl, rfl⟩
  | cons op ops ih =>
    obtain ⟨hi, ha, hr⟩ := h.step s hs op
    obtain ⟨hi', ha', hr'⟩ := ih _ hi
    rw [ha] at ha' hr'
    exact ⟨hi', ha', by simp [Machine.run, hr, hr']⟩

theorem drain (h : Refines S M f abs Inv) (fuel : Nat) (s : σ) (hs : Inv s) :
    Inv (M.drain fuel s).1 ∧ abs (M.drain fuel s).1 = (S.reference.drain fuel (abs s)).1 ∧
      (M.drain fuel s).2 = (S.reference.drain fuel (abs s)).2.map (Result.map f) := by
  induction fuel generalizing s with
  | zero => exact ⟨hs, rfl, rfl⟩
  | succ fuel ih =>
    have hi := h.parse_inv s hs
    have ha := h.parse_abs s hs
    have hr := h.parse_result s hs
    obtain ⟨hi', ha', hr'⟩ := ih _ hi
    rw [ha] at ha' hr'
    simp only [Machine.drain, Scanner.reference] at *
    rw [hr]
    cases hp : (S.parse (abs s)).2 with
    | needMoreData => exact ⟨hi, ha, rfl⟩
    | fatalError e => exact ⟨hi, ha, rfl⟩
    | frameReady a => exact ⟨hi', ha', by simp [Result.map, hr']⟩

theorem drive (h : Refines S M f abs Inv) (fuel : Nat) (s : σ) (hs : Inv s) (chunks : List (List β)) :
    Inv (M.drive fuel s chunks).1 ∧ abs (M.drive fuel s chunks).1 = (S.reference.drive fuel (abs s) chunks).1 ∧
      (M.drive fuel s chunks).2 = (S.reference.drive fuel (abs s) chunks).2.map (Result.map f) := by
  induction chunks generalizing s with
  | nil => exact ⟨hs, rfl, rfl⟩
  | cons chunk chunks ih =>
    obtain ⟨hi, ha, hr⟩ := h.drain fuel _ (h.append_inv s chunk hs)
    obtain ⟨hi', ha', hr'⟩ := ih _ hi
    rw [ha, h.append_abs s chunk hs] at ha' hr'
    rw [h.append_abs s chunk hs] at hr
    exact ⟨hi', ha', by simp [Machine.drive, hr, hr', Scanner.reference]⟩

end Refines

/-! ## Streams of framed items -/

/-- `enc a` is a frame of `a`: recognised whatever follows it, and only once complete. -/
structure Framed (enc : α → List β) (a : α) : Prop where
  whole : ∀ rest, S.scan (enc a ++ rest) = .item a (enc a).length
  part : ∀ p, p <+: enc a → p ≠ enc a → S.scan p = .needMore

variable {S} {enc : α → List β}

/-- One parse on a stream of framed items whose first ones may not have arrived yet. -/
theorem reference_parse (todo : List α) (hf : ∀ a ∈ todo, Framed S enc a) (u : List β)
    (hu : u <+: todo.flatMap enc) :
    (∃ a t v, todo = a :: t ∧ u = enc a ++ v ∧ v <+: t.flatMap enc ∧ S.parse ⟨u, none⟩ = (⟨v, none⟩, .frameReady a)) ∨
      S.parse ⟨u, none⟩ = (⟨u, none⟩, .needMoreData) ∧ ∀ a t, todo = a :: t → ¬ enc a <+: u := by
  cases todo with
  | nil =>
    obtain rfl : u = [] := List.prefix_nil.mp (by simpa using hu)
    exact Or.inr ⟨by simp [Scanner.parse, S.scan_nil], fun a t h => by cases h⟩
  | cons a t =>
    have ha := hf a (by simp)
    rw [List.flatMap_cons] at hu
    by_cases hp : enc a <+: u
    · obtain ⟨v, rfl⟩ := hp
      refine Or.inl ⟨a, t, v, rfl, rfl, (List.prefix_append_right_inj _).mp hu, ?_⟩
      simp [Scanner.parse, ha.whole v]
    · have hu' : u <+: enc a := by
        rcases List.prefix_or_prefix_of_prefix hu (List.prefix_append _ _) with h | h
        · exact h
        · exact absurd h hp
      refine Or.inr ⟨?_, fun b t' h => by cases h; exact hp⟩
      have hne : u ≠ enc a := fun h => hp (h ▸ List.prefix_refl _)
      simp [Scanner.parse, ha.part u hu' hne]

/-- Any interleaving of appends and parses on a prefix of the stream: the items come out
    in order, the rest of the input stays unread, and nothing is fatal. -/
theorem reference_stream (todo : List α) (hf : ∀ a ∈ todo, Framed S enc a) (u : List β) (ops : List (Op β))
    (hu : u ++ appended ops <+: todo.flatMap enc) :
    ∃ done left v, todo = done ++ left ∧ items (S.reference.run ⟨u, none⟩ ops).2 = done ∧
      (S.reference.run ⟨u, none⟩ ops).1 = ⟨v, none⟩ ∧ done.flatMap enc ++ v = u ++ appended ops ∧
      ∀ r ∈ (S.reference.run ⟨u, none⟩ ops).2, ∀ e, r ≠ .fatalError e := by
  induction ops generalizing u todo with
  | nil => exact ⟨[], todo, u, rfl, rfl, rfl, by simp [appended], by simp [Machine.run]⟩
  | cons op ops ih =>
    cases op with
    | append chunk =>
      obtain ⟨done, left, v, h1, h2, h3, h4, h5⟩ := ih todo hf (u ++ chunk) (by simpa [appended] using hu)
      exact ⟨done, left, v, h1, h2, h3, by simpa [appended] using h4, h5⟩
    | parse =>
      have hu' : u <+: todo.flatMap enc := (List.prefix_append _ _).trans hu
      rcases reference_parse todo hf u hu' with ⟨a, t, w, rfl, rfl, hw, hp⟩ | ⟨hp, -⟩
      · have hw' : w ++ appended ops <+: t.flatMap enc := by
          simpa [appended, List.flatMap_cons, List.append_assoc] using hu
        obtain ⟨done, left, v, h1, h2, h3, h4, h5⟩ := ih t (fun b hb => hf b (by simp [hb])) w hw'
        have hs : S.reference.parse ⟨enc a ++ w, none⟩ = (⟨w, none⟩, .frameReady a) := hp
        rw [Machine.run_parse, hs]
        refine ⟨a :: done, left, v, by simp [h1], congrArg (a :: ·) h2, h3, ?_, ?_⟩
        · simp [List.flatMap_cons, List.append_assoc, h4, appended]
        · intro r hr e
          rcases List.mem_cons.mp hr with rfl | hr
          · simp
          · exact h5 r hr e
      · obtain ⟨done, left, v, h1, h2, h3, h4, h5⟩ := ih todo hf u (by simpa [appended] using hu)
        have hs : S.reference.parse ⟨u, none⟩ = (⟨u, none⟩, .needMoreData) := hp
        rw [Machine.run_parse, hs]
        refine ⟨done, left, v, h1, h2, h3, by simpa [appended] using h4, ?_⟩
        intro r hr e
        rcases List.mem_cons.mp hr with rfl | hr
        · simp
        · exact h5 r hr e

/-- With the whole stream unread, enough parse calls give every item. -/
theorem reference_drained (todo : List α) (hf : ∀ a ∈ todo, Framed S enc a) (n : Nat) (hn : todo.length ≤ n) :
    items (S.reference.run ⟨todo.flatMap enc, none⟩ (List.replicate n .parse)).2 = todo := by
  induction n generalizing todo with
  | zero =>
    obtain rfl : todo = [] := List.eq_nil_of_length_eq_zero (by omega)
    rfl
  | succ n ih =>
    rcases reference_parse todo hf _ (List.prefix_refl _) with ⟨a, t, v, rfl, hv, -, hp⟩ | ⟨hp, hno⟩
    · have hv' : v = t.flatMap enc := by simpa [List.flatMap_cons] using hv.symm
      subst hv'
      have hs : S.reference.parse ⟨(a :: t).flatMap enc, none⟩ = (⟨t.flatMap enc, none⟩, .frameReady a) := hp
      rw [List.replicate_succ, Machine.run_parse, hs]
      exact congrArg (a :: ·) (ih t (fun b hb => hf b (by simp [hb])) (by simpa using hn))
    · cases todo with
      | nil =>
        have hs : S.reference.parse ⟨[], none⟩ = (⟨[], none⟩, .needMoreData) := hp
        rw [List.replicate_succ, List.flatMap_nil, Machine.run_parse, hs]
        exact ih [] (by simp) (by simp)
      | cons a t => exact absurd (List.prefix_append _ _) (hno a t rfl)

end QwenTtsBridge.Lib.StreamParser
