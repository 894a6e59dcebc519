/-
  QwenTtsBridge.Lib.Trim — trimming texts at both ends.

  `trim blank` drops the blanks at both ends. What it leaves neither begins nor ends with a
  blank (`unblanked_trim`), a text of that kind stays (`trim_of_unblanked`), and trimming
  with more blanks forgets an earlier trim (`trim_trim`).

  UTF-8 text is the concatenation of the encodings of its code points (`Decodes`), each of
  one ASCII byte or of bytes past ASCII, so trimming ASCII blanks off the bytes and off the
  code points is the same (`decode_trim`).
-/

import QwenTtsBridge.Lib.Utf8
import Mathlib.Data.List.DropRight

namespace QwenTtsBridge.Lib

def trim {α : Type*} (blank : α → Bool) (s : List α) : List α := (s.dropWhile blank).rdropWhile blank

/-- The list neither begins nor ends with a blank. -/
structure Unblanked {α : Type*} (blank : α → Bool) (s : List α) : Prop where
  front : ∀ c ∈ s.head?, blank c = false
  back : ∀ c ∈ s.getLast?, blank c = false

section Trim

variable {α : Type*} {blank wider : α → Bool} {s t : List α}

theorem dropWhile_of_front (h : ∀ c ∈ s.head?, blank c = false) : s.dropWhile blank = s := by
  cases s with
  | nil => rfl
  | cons c s => simp [h c rfl]

theorem rdropWhile_of_back (h : ∀ c ∈ s.getLast?, blank c = false) : s.rdropWhile blank = s := by
  rw [List.rdropWhile_eq_self_iff]
  intro hs
  simp [h (s.getLast hs) (List.getLast?_eq_some_getLast hs)]

theorem trim_of_unblanked (h : Unblanked blank s) : trim blank s = s := by
  rw [trim, dropWhile_of_front h.front, rdropWhile_of_back h.back]

theorem front_dropWhile (s : List α) : ∀ c ∈ (s.dropWhile blank).head?, blank c = false := by
  induction s with
  | nil => simp
  | cons a s ih =>
    rw [List.dropWhile_cons]
    split
    · exact ih
    · rename_i ha
      intro c hc
      cases hc
      simpa using ha

theorem unblanked_trim (blank : α → Bool) (s : List α) : Unblanked blank (trim blank s) := by
  constructor
  · intro c hc
    obtain ⟨rest, hrest⟩ := List.rdropWhile_prefix blank (s.dropWhile blank)
    refine front_dropWhile s c ?_
    rw [← hrest]
    unfold trim at hc
    cases h : (s.dropWhile blank).rdropWhile blank with
    | nil =>
      rw [h] at hc
      cases hc
    | cons a l =>
      rw [h] at hc
      exact hc
  · intro c hc
    have hne : trim blank s ≠ [] := by
      intro h
      rw [h] at hc
      cases hc
    have hlast := List.rdropWhile_last_not blank (s.dropWhile blank) hne
    rw [List.getLast?_eq_some_getLast hne] at hc
    cases hc
    exact Bool.not_eq_true _ ▸ hlast

theorem trim_append_left (hs : ∀ c ∈ s, blank c = true) (t : List α) : trim blank (s ++ t) = trim blank t := by
  rw [trim, List.dropWhile_append_of_pos hs, trim]

theorem rdropWhile_append_right (t : List α) (hs : ∀ c ∈ s, blank c = true) :
    (t ++ s).rdropWhile blank = t.rdropWhile blank := by
  induction s using List.reverseRecOn with
  | nil => rw [List.append_nil]
  | append_singleton s c ih =>
    rw [← List.append_assoc, List.rdropWhile_concat_pos _ _ _ (hs c (by simp))]
    exact ih fun x hx => hs x (List.mem_append_left _ hx)

theorem trim_append_right (t : List α) (hs : ∀ c ∈ s, blank c = true) : trim blank (t ++ s) = trim blank t := by
  induction t with
  | nil =>
    have hnone : s.dropWhile blank = [] := List.dropWhile_eq_nil_iff.mpr hs
    simp [trim, hnone]
  | cons c t ih =>
    by_cases hc : blank c = true
    · simpa only [trim, List.cons_append, List.dropWhile_cons_of_pos hc] using ih
    · simp only [trim, List.cons_append, List.dropWhile_cons_of_neg hc]
      exact rdropWhile_append_right (c :: t) hs

/-- A text is its trimmed part between blanks. -/
theorem eq_append_trim (blank : α → Bool) (s : List α) :
    ∃ before after, s = before ++ trim blank s ++ after ∧ (∀ c ∈ before, blank c = true) ∧
      ∀ c ∈ after, blank c = true := by
  refine ⟨s.takeWhile blank, (s.dropWhile blank).rtakeWhile blank, ?_, fun c hc => List.mem_takeWhile_imp hc,
    fun c hc => List.mem_rtakeWhile_imp hc⟩
  rw [trim, List.append_assoc, List.rdropWhile_append_rtakeWhile, List.takeWhile_append_dropWhile]

/-- Trimming with more blanks forgets an earlier trim. -/
theorem trim_trim (h : ∀ c, blank c = true → wider c = true) (s : List α) :
    trim wider (trim blank s) = trim wider s := by
  obtain ⟨before, after, hs, hbefore, hafter⟩ := eq_append_trim blank s
  have hwider := trim_append_right (before ++ trim blank s) fun c hc => h c (hafter c hc)
  rw [trim_append_left fun c hc => h c (hbefore c hc)] at hwider
  rw [← hwider, ← hs]

end Trim

namespace Utf8

/-- The bytes of one code point: an ASCII byte, or bytes past ASCII. -/
structure Piece (bytes : List UInt8) (c : Nat) : Prop where
  decodes : ∀ rest, decode (bytes ++ rest) = (decode rest).map (c :: ·)
  shape : (∃ b, bytes = [b] ∧ b.toNat = c ∧ c < 0x80) ∨ (bytes ≠ [] ∧ 0x80 ≤ c ∧ ∀ b ∈ bytes, ¬ b < 0x80)

theorem not_ascii_of_isTail {b : UInt8} (h : isTail b = true) : ¬ b < 0x80 := by
  simp only [isTail, Bool.and_eq_true, decide_eq_true_eq] at h
  exact UInt8.not_lt.mpr h.1

theorem exists_piece {a : UInt8} {rest : List UInt8} {s : List Nat} (h : decode (a :: rest) = some s) :
    ∃ bytes rest' c t, a :: rest = bytes ++ rest' ∧ s = c :: t ∧ decode rest' = some t ∧ Piece bytes c := by
  by_cases ha : a < 0x80
  · rw [decode.eq_def] at h
    simp only [if_pos ha, Option.map_eq_some_iff] at h
    obtain ⟨t, ht, rfl⟩ := h
    refine ⟨[a], rest, a.toNat, t, rfl, rfl, ht, fun r => ?_, .inl ⟨a, rfl, rfl, ha⟩⟩
    rw [List.cons_append, List.nil_append, decode.eq_def]
    simp only [if_pos ha]
  obtain ⟨c₀, t₀, hs, hc₀⟩ := decode_lead h ha
  rw [decode.eq_def] at h
  simp only [if_neg ha] at h
  split at h
  · rename_i htwo
    split at h
    · rename_i b rest
      split at h
      · rename_i hb
        obtain ⟨t, ht, heq⟩ := Option.map_eq_some_iff.mp h
        subst hs
        cases heq
        refine ⟨[a, b], rest, _, t₀, rfl, rfl, ht, fun r => ?_, .inr ⟨by simp, hc₀, ?_⟩⟩
        · rw [List.cons_append, List.cons_append, List.nil_append, decode.eq_def]
          simp only [if_neg ha, if_pos htwo, if_pos hb]
        · simp only [List.mem_cons, List.not_mem_nil, or_false, forall_eq_or_imp, forall_eq]
          exact ⟨ha, not_ascii_of_isTail hb⟩
      · cases h
    · cases h
  rename_i htwo
  split at h
  · rename_i hthree
    split at h
    · rename_i b c rest
      split at h
      · rename_i hcond
        obtain ⟨t, ht, heq⟩ := Option.map_eq_some_iff.mp h
        subst hs
        cases heq
        refine ⟨[a, b, c], rest, _, t₀, rfl, rfl, ht, fun r => ?_, .inr ⟨by simp, hc₀, ?_⟩⟩
        · rw [List.cons_append, List.cons_append, List.cons_append, List.nil_append, decode.eq_def]
          simp only [if_neg ha, if_neg htwo, if_pos hthree, if_pos hcond]
        · simp only [Bool.and_eq_true] at hcond
          simp only [List.mem_cons, List.not_mem_nil, or_false, forall_eq_or_imp, forall_eq]
          exact ⟨ha, not_ascii_of_isTail hcond.1.1.1, not_ascii_of_isTail hcond.1.1.2⟩
      · cases h
    · cases h
  rename_i hthree
  split at h
  · rename_i hfour
    split at h
    · rename_i b c d rest
      split at h
      · rename_i hcond
        obtain ⟨t, ht, heq⟩ := Option.map_eq_some_iff.mp h
        subst hs
        cases heq
        refine ⟨[a, b, c, d], rest, _, t₀, rfl, rfl, ht, fun r => ?_, .inr ⟨by simp, hc₀, ?_⟩⟩
        · rw [List.cons_append, List.cons_append, List.cons_append, List.cons_append, List.nil_append, decode.eq_def]
          simp only [if_neg ha, if_neg htwo, if_neg hthree, if_pos hfour, if_pos hcond]
        · simp only [Bool.and_eq_true] at hcond
          simp only [List.mem_cons, List.not_mem_nil, or_false, forall_eq_or_imp, forall_eq]
          exact ⟨ha, not_ascii_of_isTail hcond.1.1.1.1, not_ascii_of_isTail hcond.1.1.1.2,
            not_ascii_of_isTail hcond.1.1.2⟩
      · cases h
    · cases h
  · cases h

/-- The bytes are the encodings of the code points, one after the other. -/
inductive Decodes : List UInt8 → List Nat → Prop
  | nil : Decodes [] []
  | cons {bytes rest : List UInt8} {c : Nat} {t : List Nat} :
      Piece bytes c → Decodes rest t → Decodes (bytes ++ rest) (c :: t)

theorem decodes_of_decode {bytes : List UInt8} {s : List Nat} (h : decode bytes = some s) : Decodes bytes s := by
  induction s generalizing bytes with
  | nil =>
    cases bytes with
    | nil => exact .nil
    | cons a rest =>
      obtain ⟨_, _, _, _, -, hs, -⟩ := exists_piece h
      cases hs
  | cons c s ih =>
    cases bytes with
    | nil => cases h
    | cons a rest =>
      obtain ⟨piece, rest', c', t, heq, hs, ht, hpiece⟩ := exists_piece h
      cases hs
      rw [heq]
      exact .cons hpiece (ih ht)

theorem decode_of_decodes {bytes : List UInt8} {s : List Nat} (h : Decodes bytes s) : decode bytes = some s := by
  induction h with
  | nil => rfl
  | cons hpiece _ ih => rw [hpiece.decodes, ih, Option.map_some]

theorem Decodes.snoc {bytes piece : List UInt8} {s : List Nat} {c : Nat} (h : Decodes bytes s) (hpiece : Piece piece c) :
    Decodes (bytes ++ piece) (s ++ [c]) := by
  induction h with
  | nil =>
    have hlast := Decodes.cons hpiece .nil
    rwa [List.append_nil] at hlast
  | cons hfirst _ ih =>
    rw [List.append_assoc, List.cons_append]
    exact .cons hfirst ih

/-- The last code point. -/
theorem Decodes.exists_last {bytes : List UInt8} {s : List Nat} {c : Nat} (h : Decodes bytes (s ++ [c])) :
    ∃ before piece, bytes = before ++ piece ∧ Decodes before s ∧ Piece piece c := by
  induction s generalizing bytes with
  | nil =>
    cases h with
    | cons hpiece hnone =>
      cases hnone
      exact ⟨[], _, by simp, .nil, hpiece⟩
  | cons d s ih =>
    cases h with
    | cons hfirst hrest =>
      obtain ⟨before, piece, rfl, hbefore, hpiece⟩ := ih hrest
      exact ⟨_, piece, (List.append_assoc _ _ _).symm, .cons hfirst hbefore, hpiece⟩

section Blanks

variable {blank : UInt8 → Bool} {blank' : Nat → Bool} (hblank : ∀ b : UInt8, b < 0x80 → blank b = blank' b.toNat)
  (hbyte : ∀ b : UInt8, blank b = true → b < 0x80) (hpoint : ∀ c, blank' c = true → c < 0x80)

include hblank hbyte hpoint

theorem Decodes.dropWhile {bytes : List UInt8} {s : List Nat} (h : Decodes bytes s) :
    Decodes (bytes.dropWhile blank) (s.dropWhile blank') := by
  induction h with
  | nil => exact .nil
  | @cons piece rest c t hpiece hrest ih =>
    rcases hpiece.shape with ⟨b, rfl, rfl, hb⟩ | ⟨hne, hc, hpast⟩
    · have hsame := hblank b hb
      by_cases hbb : blank b = true
      · rw [List.cons_append, List.nil_append, List.dropWhile_cons_of_pos hbb,
          List.dropWhile_cons_of_pos (hsame ▸ hbb)]
        exact ih
      · rw [List.cons_append, List.nil_append, List.dropWhile_cons_of_neg hbb,
          List.dropWhile_cons_of_neg (hsame ▸ hbb)]
        exact .cons hpiece hrest
    · have hc' : ¬ blank' c = true := fun h => by
        have hlt := hpoint c h
        omega
      rw [List.dropWhile_cons_of_neg hc']
      cases piece with
      | nil => exact (hne rfl).elim
      | cons b piece =>
        have hb : ¬ blank b = true := fun h => hpast b List.mem_cons_self (hbyte b h)
        rw [List.cons_append, List.dropWhile_cons_of_neg hb]
        exact .cons hpiece hrest

theorem Decodes.rdropWhile {bytes : List UInt8} {s : List Nat} (h : Decodes bytes s) :
    Decodes (bytes.rdropWhile blank) (s.rdropWhile blank') := by
  induction s using List.reverseRecOn generalizing bytes with
  | nil =>
    cases h
    exact .nil
  | append_singleton s c ih =>
    obtain ⟨before, piece, rfl, hbefore, hpiece⟩ := h.exists_last
    rcases hpiece.shape with ⟨b, rfl, rfl, hb⟩ | ⟨hne, hc, hpast⟩
    · have hsame := hblank b hb
      by_cases hbb : blank b = true
      · rw [List.rdropWhile_concat_pos _ _ _ hbb, List.rdropWhile_concat_pos _ _ _ (hsame ▸ hbb)]
        exact ih hbefore
      · rw [List.rdropWhile_concat_neg _ _ _ hbb, List.rdropWhile_concat_neg _ _ _ (hsame ▸ hbb)]
        exact hbefore.snoc hpiece
    · have hc' : ¬ blank' c = true := fun h => by
        have hlt := hpoint c h
        omega
      rw [List.rdropWhile_concat_neg _ _ _ hc']
      have hwhole : (before ++ piece).rdropWhile blank = before ++ piece := by
        refine rdropWhile_of_back fun b hb => ?_
        rw [List.getLast?_append_of_ne_nil _ hne] at hb
        have hmem := List.mem_of_getLast? hb
        by_contra hblank
        exact hpast b hmem (hbyte b (by simpa using hblank))
      rw [hwhole]
      exact hbefore.snoc hpiece

/-- ASCII blanks may be trimmed off the bytes or off the code points. -/
theorem decode_trim {bytes : List UInt8} {s : List Nat} (h : decode bytes = some s) :
    decode (trim blank bytes) = some (trim blank' s) := by
  have hfront := (decodes_of_decode h).dropWhile hblank hbyte hpoint
  exact decode_of_decodes (hfront.rdropWhile hblank hbyte hpoint)

end Blanks

end Utf8

end QwenTtsBridge.Lib
