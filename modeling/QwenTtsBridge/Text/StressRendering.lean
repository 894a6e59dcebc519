/-
  QwenTtsBridge.Text.StressRendering — the explicit stress marks of `TtsFrontTextPreparer`
  (`text/tts_front_text_preparer.cpp`).

  `render_explicit_stress` walks over the words of the frontend's result with a cursor into
  the normalized text; `render_word_stress` puts a combining acute after one vowel of a word.
  Both also report whether a mark was set. Offsets are natural numbers; of the frontend's
  words only what is read here is kept.

  A word that starts in the text but runs past its end is skipped after the text before it
  was already copied, and the cursor does not move, so that text comes twice
  (`a_word_past_the_end_repeats_the_text`). This is the only way in which the result differs
  from the text with the accepted spans replaced (`stress_keeps_the_text_iff`).
-/

import QwenTtsBridge.Protocol.Control
import QwenTtsBridge.Lib.Utf8

namespace QwenTtsBridge.Text.StressRendering

open QwenTtsBridge.Protocol.Control QwenTtsBridge.Lib

/-! ## One word -/

def combiningAcute : CppString := [0xCC, 0x81]

def isVowel (codePoint : Nat) : Bool :=
  codePoint ∈ [0x0410, 0x0430, 0x0415, 0x0435, 0x0401, 0x0451, 0x0418, 0x0438, 0x041E, 0x043E, 0x0423, 0x0443,
    0x042B, 0x044B, 0x042D, 0x044D, 0x042E, 0x044E, 0x042F, 0x044F, 0x0041, 0x0061, 0x0045, 0x0065, 0x0049, 0x0069,
    0x004F, 0x006F, 0x0055, 0x0075, 0x0059, 0x0079]

/-- The bits of the lead byte of a longer code point, and its width. -/
def leadBits (lead : UInt8) : Option (Nat × Nat) :=
  if 0xC2 ≤ lead ∧ lead ≤ 0xDF then some (lead.toNat % 0x20, 2)
  else if 0xE0 ≤ lead ∧ lead ≤ 0xEF then some (lead.toNat % 0x10, 3)
  else if 0xF0 ≤ lead ∧ lead ≤ 0xF4 then some (lead.toNat % 0x08, 4)
  else none

/-- The loop over `count` continuation bytes. -/
def continuation : Nat → Nat → CppString → Option Nat
  | 0, codePoint, _ => some codePoint
  | _ + 1, _, [] => none
  | count + 1, codePoint, byte :: rest =>
    if byte &&& 0xC0 ≠ 0x80 then none else continuation count (codePoint * 0x40 + byte.toNat % 0x40) rest

/-- The code point that the bytes begin with, and its width. -/
def firstCodePoint : CppString → Option (Nat × Nat)
  | [] => none
  | lead :: rest =>
    if lead ≤ 0x7F then some (lead.toNat, 1)
    else
      match leadBits lead with
      | none => none
      | some (bits, width) => (continuation (width - 1) bits rest).map (·, width)

def decodeCodePoint (value : CppString) (offset : Nat) : Option (Nat × Nat) := firstCodePoint (value.drop offset)

/-- The loop of `render_word_stress`; every round takes a byte at least. -/
def renderFrom (word : CppString) (stressedVowel : Nat) : Nat → Nat → Nat → CppString → CppString × Bool
  | 0, _, _, output => (output, false)
  | fuel + 1, offset, vowelIndex, output =>
    if offset < word.length then
      match decodeCodePoint word offset with
      | none => (word, false)
      | some (codePoint, width) =>
        let output := output ++ (word.drop offset).take width
        if isVowel codePoint then
          if vowelIndex = stressedVowel then (output ++ combiningAcute ++ word.drop (offset + width), true)
          else renderFrom word stressedVowel fuel (offset + width) (vowelIndex + 1) output
        else renderFrom word stressedVowel fuel (offset + width) vowelIndex output
    else (output, false)

def renderWordStress (word : CppString) (stressedVowel : Nat) : CppString × Bool :=
  renderFrom word stressedVowel word.length 0 0 []

/-! ## The text -/

structure Word where
  sourceOffset : Nat
  surface : CppString
  pronunciation : CppString := []
  stressedVowel : Option Nat := none
  deriving DecidableEq, Repr

structure TextFrontendResult where
  normalizedText : CppString
  words : List Word
  deriving DecidableEq, Repr

def renderWord (word : Word) : CppString × Bool :=
  let replacement := if word.pronunciation.isEmpty then word.surface else word.pronunciation
  match word.stressedVowel with
  | some stressedVowel => renderWordStress replacement stressedVowel
  | none => (replacement, false)

def Word.surfaceEnd (word : Word) : Nat := word.sourceOffset + word.surface.length

def between (text : CppString) (first last : Nat) : CppString := (text.drop first).take (last - first)

def renderWords (text : CppString) : Nat → List Word → CppString × Bool
  | cursor, [] => (text.drop cursor, false)
  | cursor, word :: words =>
    if word.sourceOffset < cursor ∨ text.length < word.sourceOffset then renderWords text cursor words
    else
      let gap := between text cursor word.sourceOffset
      if text.length < word.surfaceEnd then
        let rest := renderWords text cursor words
        (gap ++ rest.1, rest.2)
      else
        let rest := renderWords text word.surfaceEnd words
        (gap ++ (renderWord word).1 ++ rest.1, (renderWord word).2 || rest.2)

def renderExplicitStress (result : TextFrontendResult) : CppString × Bool :=
  renderWords result.normalizedText 0 result.words

/-! ## What it is for -/

/-- The words that lie inside the text and do not overlap an earlier one. -/
def accepted (size : Nat) : Nat → List Word → List Word
  | _, [] => []
  | cursor, word :: words =>
    if cursor ≤ word.sourceOffset ∧ word.surfaceEnd ≤ size then word :: accepted size word.surfaceEnd words
    else accepted size cursor words

/-- The text from `cursor` on with the spans of the words replaced. -/
def replaceSpans (text : CppString) : Nat → List Word → CppString
  | cursor, [] => text.drop cursor
  | cursor, word :: words =>
    between text cursor word.sourceOffset ++ (renderWord word).1 ++ replaceSpans text word.surfaceEnd words

/-- A word that runs past the end starts where the last accepted one ends. -/
def NoOverrun (size : Nat) : Nat → List Word → Prop
  | _, [] => True
  | cursor, word :: words =>
    if cursor ≤ word.sourceOffset ∧ word.surfaceEnd ≤ size then NoOverrun size word.surfaceEnd words
    else (cursor ≤ word.sourceOffset → word.sourceOffset ≤ size → word.sourceOffset = cursor) ∧ NoOverrun size cursor words

/-- The bytes that come twice. -/
def repeated (size : Nat) : Nat → List Word → Nat
  | _, [] => 0
  | cursor, word :: words =>
    if cursor ≤ word.sourceOffset ∧ word.surfaceEnd ≤ size then repeated size word.surfaceEnd words
    else (if cursor ≤ word.sourceOffset ∧ word.sourceOffset ≤ size then word.sourceOffset - cursor else 0) +
      repeated size cursor words

theorem repeated_eq_zero {size cursor : Nat} {words : List Word} : repeated size cursor words = 0 ↔ NoOverrun size cursor words := by
  induction words generalizing cursor with
  | nil => exact ⟨fun _ => trivial, fun _ => rfl⟩
  | cons word words ih =>
    unfold repeated NoOverrun
    split
    · exact ih
    · rw [Nat.add_eq_zero_iff, ih]
      refine and_congr_left fun _ => ?_
      split
      · rename_i hin
        constructor
        · intro hzero _ _
          omega
        · intro hsame
          rw [hsame hin.1 hin.2, Nat.sub_self]
      · rename_i hout
        exact ⟨fun _ hle hle' => (hout ⟨hle, hle'⟩).elim, fun _ => rfl⟩

theorem between_length {text : CppString} {first last : Nat} (hfirst : first ≤ last) (hlast : last ≤ text.length) :
    (between text first last).length = last - first := by
  unfold between
  rw [List.length_take, List.length_drop]
  omega

/-- The three ways of a word. -/
theorem renderWords_cases (text : CppString) (cursor : Nat) (word : Word) (words : List Word) :
    (cursor ≤ word.sourceOffset ∧ word.surfaceEnd ≤ text.length ∧ (renderWords text cursor (word :: words)).1 =
      between text cursor word.sourceOffset ++ (renderWord word).1 ++ (renderWords text word.surfaceEnd words).1) ∨
    (cursor ≤ word.sourceOffset ∧ word.sourceOffset ≤ text.length ∧ text.length < word.surfaceEnd ∧
      (renderWords text cursor (word :: words)).1 =
        between text cursor word.sourceOffset ++ (renderWords text cursor words).1) ∨
    (¬ (cursor ≤ word.sourceOffset ∧ word.sourceOffset ≤ text.length) ∧
      (renderWords text cursor (word :: words)).1 = (renderWords text cursor words).1) := by
  dsimp only [renderWords]
  split
  · rename_i hskip
    exact .inr (.inr ⟨by omega, rfl⟩)
  · split
    · exact .inr (.inl ⟨by omega, by omega, by assumption, rfl⟩)
    · exact .inl ⟨by omega, by omega, rfl⟩

theorem renderWords_length (text : CppString) (cursor : Nat) (words : List Word) :
    (renderWords text cursor words).1.length =
      (replaceSpans text cursor (accepted text.length cursor words)).length + repeated text.length cursor words := by
  induction words generalizing cursor with
  | nil => rfl
  | cons word words ih =>
    have hend : word.sourceOffset ≤ word.surfaceEnd := Nat.le_add_right _ _
    rcases renderWords_cases text cursor word words with ⟨hle, hin, heq⟩ | ⟨hle, hstart, hpast, heq⟩ | ⟨hout, heq⟩
    · have haccept : cursor ≤ word.sourceOffset ∧ word.surfaceEnd ≤ text.length := ⟨hle, hin⟩
      rw [heq, accepted, if_pos haccept, repeated, if_pos haccept, replaceSpans]
      simp only [List.length_append, ih]
      omega
    · have hrefuse : ¬ (cursor ≤ word.sourceOffset ∧ word.surfaceEnd ≤ text.length) := by omega
      rw [heq, accepted, if_neg hrefuse, repeated, if_neg hrefuse, if_pos ⟨hle, hstart⟩, List.length_append, ih,
        between_length hle hstart]
      omega
    · have hrefuse : ¬ (cursor ≤ word.sourceOffset ∧ word.surfaceEnd ≤ text.length) := by omega
      rw [heq, accepted, if_neg hrefuse, repeated, if_neg hrefuse, if_neg hout, ih, Nat.zero_add]

theorem renderWords_eq {text : CppString} {cursor : Nat} {words : List Word} (h : NoOverrun text.length cursor words) :
    (renderWords text cursor words).1 = replaceSpans text cursor (accepted text.length cursor words) := by
  induction words generalizing cursor with
  | nil => rfl
  | cons word words ih =>
    have hend : word.sourceOffset ≤ word.surfaceEnd := Nat.le_add_right _ _
    rcases renderWords_cases text cursor word words with ⟨hle, hin, heq⟩ | ⟨hle, hstart, hpast, heq⟩ | ⟨hout, heq⟩
    · have haccept : cursor ≤ word.sourceOffset ∧ word.surfaceEnd ≤ text.length := ⟨hle, hin⟩
      rw [NoOverrun, if_pos haccept] at h
      rw [heq, accepted, if_pos haccept, replaceSpans, ih h]
    · have hrefuse : ¬ (cursor ≤ word.sourceOffset ∧ word.surfaceEnd ≤ text.length) := by omega
      rw [NoOverrun, if_neg hrefuse] at h
      have hnothing : between text cursor word.sourceOffset = [] := by
        rw [h.1 hle hstart, between, Nat.sub_self, List.take_zero]
      rw [heq, accepted, if_neg hrefuse, hnothing, List.nil_append, ih h.2]
    · have hrefuse : ¬ (cursor ≤ word.sourceOffset ∧ word.surfaceEnd ≤ text.length) := by omega
      rw [NoOverrun, if_neg hrefuse] at h
      rw [heq, accepted, if_neg hrefuse, ih h.2]

theorem renderWords_iff (text : CppString) (words : List Word) :
    (renderWords text 0 words).1 = replaceSpans text 0 (accepted text.length 0 words) ↔ NoOverrun text.length 0 words := by
  refine ⟨fun heq => repeated_eq_zero.mp ?_, renderWords_eq⟩
  have hlength := renderWords_length text 0 words
  rw [heq] at hlength
  omega

/-! ## The vowel -/

/-- The bytes are one code point, whatever follows them. -/
def IsCodePoint (unit : CppString) (codePoint : Nat) : Prop :=
  ∀ rest, firstCodePoint (unit ++ rest) = some (codePoint, unit.length)

/-- A sequence of code points with so many vowels. -/
inductive Spelled : Nat → CppString → Prop
  | nil : Spelled 0 []
  | cons {unit text : CppString} {codePoint vowels : Nat} (h : IsCodePoint unit codePoint) (hne : unit ≠ [])
      (ht : Spelled vowels text) : Spelled (vowels + (isVowel codePoint).toNat) (unit ++ text)

/-- `unit` is the vowel number `k` of the word, between `pre` and `post`. -/
def KthVowel (word : CppString) (k : Nat) (pre unit post : CppString) : Prop :=
  word = pre ++ unit ++ post ∧ Spelled k pre ∧ unit ≠ [] ∧ ∃ codePoint, IsCodePoint unit codePoint ∧ isVowel codePoint = true

theorem continuation_append {count codePoint n : Nat} {bytes : CppString} (h : continuation count codePoint bytes = some n)
    (rest : CppString) : count ≤ bytes.length ∧ continuation count codePoint (bytes.take count ++ rest) = some n := by
  induction count generalizing codePoint bytes with
  | zero => exact ⟨Nat.zero_le _, h⟩
  | succ count ih =>
    cases bytes with
    | nil => cases h
    | cons byte bytes =>
      unfold continuation at h
      split at h
      · cases h
      · rename_i hbyte
        obtain ⟨hle, hrest⟩ := ih h
        refine ⟨Nat.succ_le_succ hle, ?_⟩
        rw [List.take_succ_cons, List.cons_append, continuation, if_neg hbyte]
        exact hrest

theorem leadBits_width {lead : UInt8} {bits width : Nat} (h : leadBits lead = some (bits, width)) : 2 ≤ width := by
  unfold leadBits at h
  split_ifs at h
  all_goals
    cases h
    decide

/-- Decoding looks at no byte past the code point. -/
theorem isCodePoint_take {bytes : CppString} {codePoint width : Nat} (h : firstCodePoint bytes = some (codePoint, width)) :
    0 < width ∧ width ≤ bytes.length ∧ IsCodePoint (bytes.take width) codePoint := by
  cases bytes with
  | nil => cases h
  | cons lead bytes =>
    dsimp only [firstCodePoint] at h
    split at h
    · rename_i hascii
      cases h
      refine ⟨Nat.one_pos, by simp, fun rest => ?_⟩
      simp only [List.take_succ_cons, List.take_zero, List.cons_append, List.nil_append, firstCodePoint, if_pos hascii,
        List.length_cons, List.length_nil]
    · rename_i hascii
      split at h
      · cases h
      · rename_i bits width' hlead
        obtain ⟨n, hn, heq⟩ := Option.map_eq_some_iff.mp h
        cases heq
        obtain ⟨count, rfl⟩ : ∃ count, width = count + 1 := ⟨width - 1, by have := leadBits_width hlead; omega⟩
        rw [Nat.add_sub_cancel] at hn
        have hle := (continuation_append hn []).1
        refine ⟨Nat.succ_pos _, Nat.succ_le_succ hle, fun rest => ?_⟩
        have hlength : ((lead :: bytes).take (count + 1)).length = count + 1 := by
          rw [List.length_take, List.length_cons]
          omega
        rw [hlength, List.take_succ_cons, List.cons_append, firstCodePoint, if_neg hascii, hlead]
        dsimp only
        rw [Nat.add_sub_cancel, (continuation_append hn rest).2]
        rfl

theorem Spelled.append {a b : CppString} {k n : Nat} (ha : Spelled k a) (hb : Spelled n b) : Spelled (k + n) (a ++ b) := by
  induction ha with
  | nil =>
    rw [Nat.zero_add]
    exact hb
  | @cons unit text codePoint vowels h hne _ ih =>
    rw [List.append_assoc, Nat.add_right_comm]
    exact .cons h hne ih

theorem Spelled.snoc {text unit : CppString} {k codePoint : Nat} (ht : Spelled k text) (h : IsCodePoint unit codePoint)
    (hne : unit ≠ []) : Spelled (k + (isVowel codePoint).toNat) (text ++ unit) := by
  have hone : Spelled (0 + (isVowel codePoint).toNat) (unit ++ []) := .cons h hne .nil
  rw [Nat.zero_add, List.append_nil] at hone
  exact ht.append hone

section Word

variable {word done rest pre unit post : CppString} {k j fuel : Nat}

/-- One round, on the code point `unit`. -/
theorem renderFrom_step {codePoint : Nat} (hword : word = done ++ (unit ++ rest)) (hunit : IsCodePoint unit codePoint)
    (hne : unit ≠ []) : renderFrom word k (fuel + 1) done.length j done =
      if isVowel codePoint then
        if j = k then (done ++ unit ++ combiningAcute ++ rest, true)
        else renderFrom word k fuel (done ++ unit).length (j + 1) (done ++ unit)
      else renderFrom word k fuel (done ++ unit).length j (done ++ unit) := by
  have hlt : done.length < word.length := by
    have hpos := List.length_pos_iff.mpr hne
    rw [hword, List.length_append, List.length_append]
    omega
  have hdecode : decodeCodePoint word done.length = some (codePoint, unit.length) := by
    unfold decodeCodePoint
    rw [hword, List.drop_left]
    exact hunit rest
  have htake : (word.drop done.length).take unit.length = unit := by rw [hword, List.drop_left, List.take_left]
  have hdrop : word.drop (done.length + unit.length) = rest := by
    rw [hword, ← List.append_assoc, ← List.length_append, List.drop_left]
  rw [renderFrom, if_pos hlt, hdecode]
  dsimp only
  rw [htake, hdrop, List.length_append]

/-- The loop finds a vowel that is there. -/
theorem renderFrom_finds {vowels : Nat} (hpre : Spelled vowels pre) (hunit : unit ≠ []) {codePoint : Nat}
    (hvowel : IsCodePoint unit codePoint ∧ isVowel codePoint = true) (hword : word = done ++ (pre ++ unit ++ post))
    (hcount : j + vowels = k) (hfuel : (pre ++ unit ++ post).length ≤ fuel) :
    renderFrom word k fuel done.length j done = (done ++ pre ++ unit ++ combiningAcute ++ post, true) := by
  induction hpre generalizing done j fuel with
  | nil =>
    obtain ⟨fuel, rfl⟩ : ∃ n, fuel = n + 1 := by
      have hpos := List.length_pos_iff.mpr hunit
      rw [List.nil_append, List.length_append] at hfuel
      exact ⟨fuel - 1, by omega⟩
    rw [List.nil_append] at hword
    rw [renderFrom_step hword hvowel.1 hunit, if_pos hvowel.2, if_pos (by omega), List.append_nil]
  | @cons first text cp vowels h hne _ ih =>
    have hpos := List.length_pos_iff.mpr hne
    rw [List.append_assoc, List.append_assoc, List.length_append] at hfuel
    obtain ⟨fuel, rfl⟩ : ∃ n, fuel = n + 1 := ⟨fuel - 1, by omega⟩
    have hword' : word = done ++ first ++ (text ++ unit ++ post) := by
      rw [hword]
      simp only [List.append_assoc]
    have hleft : (text ++ unit ++ post).length ≤ fuel := by
      rw [List.append_assoc]
      omega
    have hfirst : word = done ++ (first ++ (text ++ unit ++ post)) := by rw [hword', List.append_assoc]
    rw [renderFrom_step hfirst h hne, ← List.append_assoc done first text]
    cases hcp : isVowel cp with
    | true =>
      rw [hcp, Bool.toNat_true] at hcount
      have hlater : j ≠ k := by omega
      rw [if_pos rfl, if_neg hlater]
      exact ih hword' (by omega) hleft
    | false =>
      rw [hcp, Bool.toNat_false] at hcount
      rw [if_neg (by decide)]
      exact ih hword' (by omega) hleft

/-- Without one the word stays as it is. -/
theorem renderFrom_cases (hword : word = done ++ rest) (hdone : Spelled j done) (hfuel : rest.length ≤ fuel) :
    renderFrom word k fuel done.length j done = (word, false) ∨
      ∃ pre unit post, KthVowel word k pre unit post ∧
        renderFrom word k fuel done.length j done = (pre ++ unit ++ combiningAcute ++ post, true) := by
  induction fuel generalizing done rest j with
  | zero =>
    have hnone : rest = [] := List.length_eq_zero_iff.mp (Nat.le_zero.mp hfuel)
    rw [hnone, List.append_nil] at hword
    exact .inl (by rw [hword, renderFrom])
  | succ fuel ih =>
    cases hfirst : firstCodePoint rest with
    | none =>
      refine .inl ?_
      have hdecode : decodeCodePoint word done.length = none := by
        unfold decodeCodePoint
        rw [hword, List.drop_left]
        exact hfirst
      rw [renderFrom, hdecode]
      by_cases hlt : done.length < word.length
      · rw [if_pos hlt]
      · have hnone : rest = [] := by
          rw [hword, List.length_append] at hlt
          exact List.length_eq_zero_iff.mp (by omega)
        rw [if_neg hlt, hword, hnone, List.append_nil]
    | some decoded =>
      obtain ⟨codePoint, width⟩ := decoded
      obtain ⟨hpos, hle, hunit⟩ := isCodePoint_take hfirst
      have hne : rest.take width ≠ [] := by
        intro hnone
        have hlength := congrArg List.length hnone
        rw [List.length_take, List.length_nil] at hlength
        omega
      have hsplit : word = done ++ (rest.take width ++ rest.drop width) := by rw [List.take_append_drop, hword]
      have hnext : word = done ++ rest.take width ++ rest.drop width := by rw [hsplit, List.append_assoc]
      have hleft : (rest.drop width).length ≤ fuel := by
        rw [List.length_drop]
        omega
      have hspelled := hdone.snoc hunit hne
      rw [renderFrom_step hsplit hunit hne]
      cases hvowel : isVowel codePoint with
      | true =>
        rw [hvowel, Bool.toNat_true] at hspelled
        rw [if_pos rfl]
        split
        · rename_i hj
          rw [← hj]
          exact .inr ⟨done, rest.take width, rest.drop width, ⟨hnext, hdone, hne, codePoint, hunit, hvowel⟩, rfl⟩
        · exact ih hnext hspelled hleft
      | false =>
        rw [hvowel, Bool.toNat_false] at hspelled
        rw [if_neg (by decide)]
        exact ih hnext hspelled hleft

theorem renderWordStress_at (h : KthVowel word k pre unit post) :
    renderWordStress word k = (pre ++ unit ++ combiningAcute ++ post, true) := by
  obtain ⟨hword, hpre, hne, codePoint, hvowel⟩ := h
  have hfound : renderFrom word k word.length ([] : CppString).length 0 [] = ([] ++ pre ++ unit ++ combiningAcute ++ post, true) :=
    renderFrom_finds hpre hne hvowel hword (Nat.zero_add _) (by rw [hword])
  exact hfound

theorem renderWordStress_cases (word : CppString) (k : Nat) : renderWordStress word k = (word, false) ∨
    ∃ pre unit post, KthVowel word k pre unit post ∧
      renderWordStress word k = (pre ++ unit ++ combiningAcute ++ post, true) := by
  have hcases : renderFrom word k word.length ([] : CppString).length 0 [] = (word, false) ∨
      ∃ pre unit post, KthVowel word k pre unit post ∧
        renderFrom word k word.length ([] : CppString).length 0 [] = (pre ++ unit ++ combiningAcute ++ post, true) :=
    renderFrom_cases (List.nil_append word).symm .nil (Nat.le_refl _)
  exact hcases

end Word

/-! ## UTF-8 -/

def Valid (text : CppString) : Prop := (Utf8.decode text).isSome = true

theorem tail_mask {b : UInt8} (h : Utf8.isTail b = true) : b &&& 0xC0 = 0x80 := by
  have hall : ∀ n : Fin 256, Utf8.isTail (UInt8.ofNat n) = true → UInt8.ofNat n &&& 0xC0 = 0x80 := by
    decide +kernel
  have hb := hall ⟨b.toNat, b.toNat_lt⟩
  rw [UInt8.ofNat_toNat] at hb
  exact hb h

theorem continuation_tail {b : UInt8} (h : Utf8.isTail b = true) (count codePoint : Nat) (rest : CppString) :
    continuation (count + 1) codePoint (b :: rest) = continuation count (codePoint * 0x40 + b.toNat % 0x40) rest :=
  if_neg (not_not_intro (tail_mask h))

theorem not_ascii {lead : UInt8} (h : ¬ lead < 0x80) : ¬ lead ≤ 0x7F := by
  intro hle
  have hnat : lead.toNat ≤ 0x7F := hle
  exact h (show lead.toNat < 0x80 by omega)

/-- A code point of a valid text is one of the source's, and may be followed by any valid text. -/
theorem Valid.first {lead : UInt8} {rest : CppString} (h : Valid (lead :: rest)) :
    ∃ codePoint width, firstCodePoint (lead :: rest) = some (codePoint, width) ∧
      ∀ tail, Valid ((lead :: rest).take width ++ tail) ↔ Valid tail := by
  unfold Valid at *
  rw [Utf8.decode.eq_def] at h
  dsimp only at h
  split at h
  · rename_i hascii
    have hle : lead ≤ 0x7F := by
      have hnat : lead.toNat < 0x80 := hascii
      exact (show lead.toNat ≤ 0x7F by omega)
    refine ⟨lead.toNat, 1, if_pos hle, fun tail => ?_⟩
    show (Utf8.decode (lead :: tail)).isSome = true ↔ _
    rw [Utf8.decode.eq_def]
    simp only [if_pos hascii, Option.isSome_map]
  · rename_i hascii
    have hlong := not_ascii hascii
    split at h
    · rename_i htwo
      have hlead : leadBits lead = some (lead.toNat % 0x20, 2) := if_pos (by simpa using htwo)
      split at h
      · rename_i b rest
        split at h
        · rename_i hb
          refine ⟨lead.toNat % 0x20 * 0x40 + b.toNat % 0x40, 2, ?_, fun tail => ?_⟩
          · simp only [firstCodePoint, if_neg hlong, hlead]
            rw [continuation_tail hb]
            rfl
          · show (Utf8.decode (lead :: b :: tail)).isSome = true ↔ _
            rw [Utf8.decode.eq_def]
            simp only [if_neg hascii, if_pos htwo, if_pos hb, Option.isSome_map]
        · cases h
      · cases h
    · rename_i htwo
      split at h
      · rename_i hthree
        have hlead : leadBits lead = some (lead.toNat % 0x10, 3) := by
          unfold leadBits
          rw [if_neg (by simpa using htwo), if_pos (by simpa using hthree)]
        split at h
        · rename_i b c rest
          split at h
          · rename_i hcond
            have htails : Utf8.isTail b = true ∧ Utf8.isTail c = true := by
              simp only [Bool.and_eq_true] at hcond
              exact ⟨hcond.1.1.1, hcond.1.1.2⟩
            refine ⟨(lead.toNat % 0x10 * 0x40 + b.toNat % 0x40) * 0x40 + c.toNat % 0x40, 3, ?_, fun tail => ?_⟩
            · simp only [firstCodePoint, if_neg hlong, hlead]
              rw [continuation_tail htails.1, continuation_tail htails.2]
              rfl
            · show (Utf8.decode (lead :: b :: c :: tail)).isSome = true ↔ _
              rw [Utf8.decode.eq_def]
              simp only [if_neg hascii, if_neg htwo, if_pos hthree, if_pos hcond, Option.isSome_map]
          · cases h
        · cases h
      · rename_i hthree
        split at h
        · rename_i hfour
          have hlead : leadBits lead = some (lead.toNat % 0x08, 4) := by
            unfold leadBits
            rw [if_neg (by simpa using htwo), if_neg (by simpa using hthree), if_pos (by simpa using hfour)]
          split at h
          · rename_i b c d rest
            split at h
            · rename_i hcond
              have htails : Utf8.isTail b = true ∧ Utf8.isTail c = true ∧ Utf8.isTail d = true := by
                simp only [Bool.and_eq_true] at hcond
                exact ⟨hcond.1.1.1.1, hcond.1.1.1.2, hcond.1.1.2⟩
              refine ⟨((lead.toNat % 0x08 * 0x40 + b.toNat % 0x40) * 0x40 + c.toNat % 0x40) * 0x40 + d.toNat % 0x40, 4, ?_,
                fun tail => ?_⟩
              · simp only [firstCodePoint, if_neg hlong, hlead]
                rw [continuation_tail htails.1, continuation_tail htails.2.1, continuation_tail htails.2.2]
                rfl
              · show (Utf8.decode (lead :: b :: c :: d :: tail)).isSome = true ↔ _
                rw [Utf8.decode.eq_def]
                simp only [if_neg hascii, if_neg htwo, if_neg hthree, if_pos hfour, if_pos hcond, Option.isSome_map]
            · cases h
          · cases h
        · cases h

/-- Valid text in front of a code point of a valid text. -/
theorem Valid.unit {unit rest : CppString} {codePoint : Nat} (hunit : IsCodePoint unit codePoint) (hne : unit ≠ [])
    (h : Valid (unit ++ rest)) (tail : CppString) : Valid (unit ++ tail) ↔ Valid tail := by
  cases unit with
  | nil => exact (hne rfl).elim
  | cons lead bytes =>
    rw [List.cons_append] at h
    obtain ⟨cp, width, hfirst, hvalid⟩ := Valid.first h
    have hsame := hunit rest
    rw [List.cons_append, hfirst] at hsame
    cases hsame
    rw [← List.cons_append, List.take_left] at hvalid
    exact hvalid tail

theorem Valid.spelled {pre rest : CppString} {k : Nat} (hpre : Spelled k pre) (h : Valid (pre ++ rest)) (tail : CppString) :
    Valid (pre ++ tail) ↔ Valid tail := by
  induction hpre with
  | nil => exact Iff.rfl
  | @cons unit text codePoint vowels hunit hne _ ih =>
    rw [List.append_assoc] at h ⊢
    rw [Valid.unit hunit hne h]
    exact ih ((Valid.unit hunit hne h _).mp h)

theorem renderWordStress_valid {word : CppString} (h : Valid word) (k : Nat) : Valid (renderWordStress word k).1 := by
  rcases renderWordStress_cases word k with heq | ⟨pre, unit, post, ⟨hword, hpre, hne, codePoint, hunit, -⟩, heq⟩
  · rw [heq]
    exact h
  · rw [heq]
    rw [hword, List.append_assoc] at h
    have hrest : Valid (unit ++ post) := (Valid.spelled hpre h _).mp h
    have hacute : Valid (combiningAcute ++ post) ↔ Valid post := by
      unfold Valid
      show (Utf8.decode (0xCC :: 0x81 :: post)).isSome = true ↔ _
      rw [Utf8.decode.eq_def]
      simp [Utf8.isTail]
    show Valid (pre ++ unit ++ combiningAcute ++ post)
    rw [List.append_assoc, List.append_assoc, Valid.spelled hpre h, Valid.unit hunit hne hrest, hacute]
    exact (Valid.unit hunit hne hrest _).mp hrest

/-! ## The result -/

/-- The output is the word with a mark after its vowel number `k`, if it has one. -/
structure Marks (word : CppString) (k : Nat) (output : CppString × Bool) : Prop where
  found : ∀ pre unit post, KthVowel word k pre unit post → output = (pre ++ unit ++ combiningAcute ++ post, true)
  missing : (¬ ∃ pre unit post, KthVowel word k pre unit post) → output = (word, false)
  valid : Valid word → Valid output.1

theorem stress_keeps_the_text_iff (result : TextFrontendResult) :
    ((renderExplicitStress result).1 =
        replaceSpans result.normalizedText 0 (accepted result.normalizedText.length 0 result.words) ∧
      ∀ word k, Marks word k (renderWordStress word k)) ↔
    NoOverrun result.normalizedText.length 0 result.words := by
  have hmarks : ∀ word k, Marks word k (renderWordStress word k) := by
    intro word k
    refine ⟨fun pre unit post h => renderWordStress_at h, fun hmissing => ?_, fun h => renderWordStress_valid h k⟩
    rcases renderWordStress_cases word k with heq | ⟨pre, unit, post, hvowel, -⟩
    · exact heq
    · exact (hmissing ⟨pre, unit, post, hvowel⟩).elim
  rw [and_iff_left hmarks]
  exact renderWords_iff result.normalizedText result.words

/-- A word of three bytes at the second byte of a text of two. -/
theorem a_word_past_the_end_repeats_the_text :
    (renderExplicitStress ⟨[97, 98], [⟨1, [120, 121, 122], [], none⟩]⟩).1 = [97, 97, 98] ∧
      replaceSpans [97, 98] 0 (accepted 2 0 [⟨1, [120, 121, 122], [], none⟩]) = [97, 98] := by
  decide

end QwenTtsBridge.Text.StressRendering
