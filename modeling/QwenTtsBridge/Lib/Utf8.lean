/-
  QwenTtsBridge.Lib.Utf8 — strict UTF-8 (RFC 3629) between bytes and code points.

  A text is a list of code points, so it may hold surrogates, which have no encoding:
  `encode` refuses a text with one, and `decode` refuses overlong forms, surrogates,
  values past U+10FFFF and truncated sequences.

  Proved: a text is encodable exactly when it holds no surrogate, and then takes
  `size` bytes (`encode_isSome`, `length_of_encode`); ASCII text in front does not decide
  whether bytes decode (`decode_ascii_append`), and only ASCII decodes to ASCII
  (`decode_ascii`, `bytes_of_decode_ascii`); the bytes are the encoding of what they decode
  to (`flatMap_of_decode`), so a text has one spelling (`decode_injective`); and every text of
  scalar values is decoded from its encoding (`decode_iff`).
-/

import Mathlib.Algebra.Ring.Nat
import Mathlib.Data.List.Basic

namespace QwenTtsBridge.Lib.Utf8

def isSurrogate (c : Nat) : Bool := 0xD800 ≤ c && c ≤ 0xDFFF

/-- A continuation byte. -/
def isTail (b : UInt8) : Bool := 0x80 ≤ b && b ≤ 0xBF

/-- The six payload bits of a continuation byte. -/
def tailBits (b : UInt8) : Nat := b.toNat % 0x40

def decode : List UInt8 → Option (List Nat)
  | [] => some []
  | a :: rest =>
    if a < 0x80 then (decode rest).map (a.toNat :: ·)
    else if 0xC2 ≤ a && a ≤ 0xDF then
      match rest with
      | b :: rest =>
        if isTail b then (decode rest).map ((a.toNat % 0x20 * 0x40 + tailBits b) :: ·) else none
      | [] => none
    else if 0xE0 ≤ a && a ≤ 0xEF then
      match rest with
      | b :: c :: rest =>
        let n := (a.toNat % 0x10 * 0x40 + tailBits b) * 0x40 + tailBits c
        if isTail b && isTail c && 0x800 ≤ n && !isSurrogate n then (decode rest).map (n :: ·) else none
      | _ => none
    else if 0xF0 ≤ a && a ≤ 0xF4 then
      match rest with
      | b :: c :: d :: rest =>
        let n := ((a.toNat % 0x08 * 0x40 + tailBits b) * 0x40 + tailBits c) * 0x40 + tailBits d
        if isTail b && isTail c && isTail d && 0x10000 ≤ n && n ≤ 0x10FFFF then (decode rest).map (n :: ·) else none
      | _ => none
    else none

/-- Text in ASCII neither is refused nor changes what follows it. -/
theorem decode_ascii_append {text : List UInt8} (rest : List UInt8) (h : ∀ b ∈ text, b < 0x80) :
    (decode (text ++ rest)).isSome = (decode rest).isSome := by
  induction text with
  | nil => rfl
  | cons b text ih =>
    have hb := h b List.mem_cons_self
    have hrest := ih fun c hc => h c (List.mem_cons_of_mem _ hc)
    rw [List.cons_append, decode.eq_def]
    simp only [if_pos hb, Option.isSome_map, hrest]

/-- A lead byte past ASCII starts a code point past ASCII. -/
theorem decode_lead {a : UInt8} {rest : List UInt8} {s : List Nat} (h : decode (a :: rest) = some s) (ha : ¬ a < 0x80) :
    ∃ c t, s = c :: t ∧ 0x80 ≤ c := by
  rw [decode.eq_def] at h
  simp only [if_neg ha] at h
  split at h
  · rename_i htwo
    obtain ⟨hlow, hhigh⟩ : 0xC2 ≤ a ∧ a ≤ 0xDF := by simpa using htwo
    split at h
    · rename_i b rest
      split at h
      · obtain ⟨t, -, rfl⟩ := Option.map_eq_some_iff.mp h
        have hlow : 0xC2 ≤ a.toNat := hlow
        have hhigh : a.toNat ≤ 0xDF := hhigh
        exact ⟨_, t, rfl, by omega⟩
      · cases h
    · cases h
  · split at h
    · split at h
      · split at h
        · rename_i hcond
          simp only [Bool.and_eq_true, decide_eq_true_eq] at hcond
          obtain ⟨t, -, rfl⟩ := Option.map_eq_some_iff.mp h
          exact ⟨_, t, rfl, by omega⟩
        · cases h
      · cases h
    · split at h
      · split at h
        · split at h
          · rename_i hcond
            simp only [Bool.and_eq_true, decide_eq_true_eq] at hcond
            obtain ⟨t, -, rfl⟩ := Option.map_eq_some_iff.mp h
            exact ⟨_, t, rfl, by omega⟩
          · cases h
        · cases h
      · cases h

/-- Only ASCII bytes decode to ASCII text. -/
theorem bytes_of_decode_ascii {text : List UInt8} {s : List Nat} (h : decode text = some s) (hs : ∀ c ∈ s, c < 0x80) :
    text.map UInt8.toNat = s := by
  induction text generalizing s with
  | nil =>
    rw [decode] at h
    cases h
    rfl
  | cons a rest ih =>
    by_cases ha : a < 0x80
    · rw [decode.eq_def] at h
      simp only [if_pos ha, Option.map_eq_some_iff] at h
      obtain ⟨t, ht, rfl⟩ := h
      rw [List.map_cons, ih ht fun c hc => hs c (List.mem_cons_of_mem _ hc)]
    · obtain ⟨c, t, rfl, hc⟩ := decode_lead h ha
      have hlt := hs c List.mem_cons_self
      omega

theorem decode_ascii {text : List UInt8} (h : ∀ b ∈ text, b < 0x80) : decode text = some (text.map UInt8.toNat) := by
  induction text with
  | nil => rfl
  | cons b text ih =>
    have hb := h b List.mem_cons_self
    have hrest := ih fun c hc => h c (List.mem_cons_of_mem _ hc)
    rw [decode.eq_def]
    simp only [if_pos hb, hrest, Option.map_some, List.map_cons]

/-- The encoding of a code point below `0x110000` that is no surrogate. -/
def encodeScalar (c : Nat) : List UInt8 :=
  if c < 0x80 then [.ofNat c]
  else if c < 0x800 then [.ofNat (0xC0 + c / 0x40), .ofNat (0x80 + c % 0x40)]
  else if c < 0x10000 then [.ofNat (0xE0 + c / 0x1000), .ofNat (0x80 + c / 0x40 % 0x40), .ofNat (0x80 + c % 0x40)]
  else [.ofNat (0xF0 + c / 0x40000), .ofNat (0x80 + c / 0x1000 % 0x40), .ofNat (0x80 + c / 0x40 % 0x40),
    .ofNat (0x80 + c % 0x40)]

def encode (text : List Nat) : Option (List UInt8) :=
  if text.any isSurrogate then none else some (text.flatMap encodeScalar)

def scalarSize (c : Nat) : Nat := if c < 0x80 then 1 else if c < 0x800 then 2 else if c < 0x10000 then 3 else 4

/-- The number of bytes of the encoding. -/
def size (text : List Nat) : Nat := (text.map scalarSize).sum

@[simp] theorem size_nil : size [] = 0 := rfl

@[simp] theorem size_cons (c : Nat) (text : List Nat) : size (c :: text) = scalarSize c + size text := rfl

@[simp] theorem size_append (a b : List Nat) : size (a ++ b) = size a + size b := by simp [size]

theorem length_encodeScalar (c : Nat) : (encodeScalar c).length = scalarSize c := by
  unfold encodeScalar scalarSize
  split_ifs <;> rfl

theorem encode_isSome (text : List Nat) : (encode text).isSome = !text.any isSurrogate := by
  unfold encode
  cases h : text.any isSurrogate <;> rfl

theorem length_of_encode {text : List Nat} {bytes : List UInt8} (h : encode text = some bytes) :
    bytes.length = size text := by
  unfold encode at h
  split at h
  · cases h
  · cases h
    induction text with
    | nil => rfl
    | cons c text ih =>
      rename_i hsurrogate
      have hrest : ¬ text.any isSurrogate = true := by
        intro ht
        exact hsurrogate (by simp [ht])
      rw [List.flatMap_cons, List.length_append, length_encodeScalar, ih hrest, size_cons]

/-! ## Back from a text -/

/-- The bits of a continuation byte give it back. -/
theorem ofNat_tailBits {b : UInt8} {n : Nat} (hb : isTail b = true) (hn : n % 0x40 = tailBits b) :
    UInt8.ofNat (0x80 + n % 0x40) = b := by
  simp only [isTail, Bool.and_eq_true, decide_eq_true_eq] at hb
  have hlow : 0x80 ≤ b.toNat := hb.1
  have hhigh : b.toNat ≤ 0xBF := hb.2
  unfold tailBits at hn
  apply UInt8.toNat_inj.mp
  rw [UInt8.toNat_ofNat']
  omega

theorem ofNat_lead {a : UInt8} {n : Nat} (h : n = a.toNat) : UInt8.ofNat n = a := by
  rw [h, UInt8.ofNat_toNat]

theorem tailBits_lt (b : UInt8) : tailBits b < 0x40 := Nat.mod_lt _ (by decide)

theorem encodeScalar_two {a b : UInt8} (ha : 0xC2 ≤ a ∧ a ≤ 0xDF) (hb : isTail b = true) :
    encodeScalar (a.toNat % 0x20 * 0x40 + tailBits b) = [a, b] := by
  have hlow : 0xC2 ≤ a.toNat := ha.1
  have hhigh : a.toNat ≤ 0xDF := ha.2
  have htail := tailBits_lt b
  unfold encodeScalar
  rw [if_neg (by omega), if_pos (by omega), ofNat_lead (a := a) (by omega), ofNat_tailBits hb (by omega)]

theorem encodeScalar_three {a b c : UInt8} (ha : 0xE0 ≤ a ∧ a ≤ 0xEF) (hb : isTail b = true) (hc : isTail c = true)
    (hn : 0x800 ≤ (a.toNat % 0x10 * 0x40 + tailBits b) * 0x40 + tailBits c) :
    encodeScalar ((a.toNat % 0x10 * 0x40 + tailBits b) * 0x40 + tailBits c) = [a, b, c] := by
  have hlow : 0xE0 ≤ a.toNat := ha.1
  have hhigh : a.toNat ≤ 0xEF := ha.2
  have hb' := tailBits_lt b
  have hc' := tailBits_lt c
  unfold encodeScalar
  rw [if_neg (by omega), if_neg (by omega), if_pos (by omega), ofNat_lead (a := a) (by omega), ofNat_tailBits hb (by omega),
    ofNat_tailBits hc (by omega)]

theorem encodeScalar_four {a b c d : UInt8} (ha : 0xF0 ≤ a ∧ a ≤ 0xF4) (hb : isTail b = true) (hc : isTail c = true)
    (hd : isTail d = true)
    (hn : 0x10000 ≤ ((a.toNat % 0x08 * 0x40 + tailBits b) * 0x40 + tailBits c) * 0x40 + tailBits d) :
    encodeScalar (((a.toNat % 0x08 * 0x40 + tailBits b) * 0x40 + tailBits c) * 0x40 + tailBits d) = [a, b, c, d] := by
  have hlow : 0xF0 ≤ a.toNat := ha.1
  have hhigh : a.toNat ≤ 0xF4 := ha.2
  have hb' := tailBits_lt b
  have hc' := tailBits_lt c
  have hd' := tailBits_lt d
  unfold encodeScalar
  rw [if_neg (by omega), if_neg (by omega), if_neg (by omega), ofNat_lead (a := a) (by omega), ofNat_tailBits hb (by omega),
    ofNat_tailBits hc (by omega), ofNat_tailBits hd (by omega)]

theorem flatMap_of_decode {bytes : List UInt8} {s : List Nat} (h : decode bytes = some s) :
    s.flatMap encodeScalar = bytes := by
  fun_induction decode bytes generalizing s with
  | case1 =>
    cases h
    rfl
  | case2 a rest ha ih =>
    obtain ⟨t, ht, rfl⟩ := Option.map_eq_some_iff.mp h
    have ha' : a.toNat < 0x80 := ha
    rw [List.flatMap_cons, ih ht]
    unfold encodeScalar
    rw [if_pos ha', UInt8.ofNat_toNat, List.singleton_append]
  | case3 a ha htwo b rest hb ih =>
    obtain ⟨t, ht, rfl⟩ := Option.map_eq_some_iff.mp h
    rw [List.flatMap_cons, ih ht, encodeScalar_two (by simpa using htwo) hb]
    rfl
  | case6 a ha htwo hthree b c rest n hcond =>
    rename_i ih
    obtain ⟨t, ht, rfl⟩ := Option.map_eq_some_iff.mp h
    simp only [Bool.and_eq_true, decide_eq_true_eq] at hcond
    rw [List.flatMap_cons, ih ht, encodeScalar_three (by simpa using hthree) hcond.1.1.1 hcond.1.1.2 hcond.1.2]
    rfl
  | case9 a ha htwo hthree hfour b c d rest n hcond =>
    rename_i ih
    obtain ⟨t, ht, rfl⟩ := Option.map_eq_some_iff.mp h
    simp only [Bool.and_eq_true, decide_eq_true_eq] at hcond
    rw [List.flatMap_cons, ih ht,
      encodeScalar_four (by simpa using hfour) hcond.1.1.1.1 hcond.1.1.1.2 hcond.1.1.2 hcond.1.2]
    rfl
  | _ => cases h

/-- No two byte strings decode to one text. -/
theorem decode_injective {a b : List UInt8} {s : List Nat} (ha : decode a = some s) (hb : decode b = some s) : a = b := by
  rw [← flatMap_of_decode ha, ← flatMap_of_decode hb]

/-! ## Scalar values -/

/-- A code point that UTF-8 encodes. -/
def IsScalar (c : Nat) : Prop := c ≤ 0x10FFFF ∧ isSurrogate c = false

theorem isScalar_of_decode {bytes : List UInt8} {s : List Nat} (h : decode bytes = some s) : ∀ c ∈ s, IsScalar c := by
  fun_induction decode bytes generalizing s with
  | case1 =>
    cases h
    intro c hc
    cases hc
  | case2 a rest ha ih =>
    obtain ⟨t, ht, rfl⟩ := Option.map_eq_some_iff.mp h
    have ha' : a.toNat < 0x80 := ha
    refine List.forall_mem_cons.mpr ⟨⟨by omega, ?_⟩, ih ht⟩
    simp only [isSurrogate, Bool.and_eq_false_iff, decide_eq_false_iff_not]
    omega
  | case3 a ha htwo b rest hb ih =>
    obtain ⟨t, ht, rfl⟩ := Option.map_eq_some_iff.mp h
    have htail := tailBits_lt b
    refine List.forall_mem_cons.mpr ⟨⟨by omega, ?_⟩, ih ht⟩
    simp only [isSurrogate, Bool.and_eq_false_iff, decide_eq_false_iff_not]
    omega
  | case6 a ha htwo hthree b c rest n hcond =>
    rename_i ih
    obtain ⟨t, ht, rfl⟩ := Option.map_eq_some_iff.mp h
    simp only [Bool.and_eq_true, Bool.not_eq_true'] at hcond
    have hb := tailBits_lt b
    have hc := tailBits_lt c
    exact List.forall_mem_cons.mpr ⟨⟨by omega, hcond.2⟩, ih ht⟩
  | case9 a ha htwo hthree hfour b c d rest n hcond =>
    rename_i ih
    obtain ⟨t, ht, rfl⟩ := Option.map_eq_some_iff.mp h
    simp only [Bool.and_eq_true, decide_eq_true_eq] at hcond
    refine List.forall_mem_cons.mpr ⟨⟨hcond.2, ?_⟩, ih ht⟩
    simp only [isSurrogate, Bool.and_eq_false_iff, decide_eq_false_iff_not]
    omega
  | _ => cases h

theorem toNat_ofNat_lt {n : Nat} (h : n < 0x100) : (UInt8.ofNat n).toNat = n := by
  rw [UInt8.toNat_ofNat']
  exact Nat.mod_eq_of_lt h

/-- A continuation byte and its bits. -/
theorem isTail_ofNat (n : Nat) :
    isTail (.ofNat (0x80 + n % 0x40)) = true ∧ tailBits (.ofNat (0x80 + n % 0x40)) = n % 0x40 := by
  have hn : (UInt8.ofNat (0x80 + n % 0x40)).toNat = 0x80 + n % 0x40 := toNat_ofNat_lt (by omega)
  constructor
  · simp only [isTail, UInt8.le_iff_toNat_le, hn, Bool.and_eq_true, decide_eq_true_eq, UInt8.reduceToNat]
    omega
  · unfold tailBits
    rw [hn]
    omega

theorem decode_encodeScalar {c : Nat} (h : IsScalar c) (rest : List UInt8) :
    decode (encodeScalar c ++ rest) = (decode rest).map (c :: ·) := by
  obtain ⟨hmax, hsurrogate⟩ := h
  unfold encodeScalar
  by_cases hone : c < 0x80
  · have hc : (UInt8.ofNat c).toNat = c := toNat_ofNat_lt (by omega)
    have hlead : UInt8.ofNat c < 0x80 := by rw [UInt8.lt_iff_toNat_lt, hc]; exact hone
    rw [if_pos hone, List.singleton_append, decode.eq_def]
    simp only [if_pos hlead, hc]
  rw [if_neg hone]
  by_cases htwo : c < 0x800
  · have hc : (UInt8.ofNat (0xC0 + c / 0x40)).toNat = 0xC0 + c / 0x40 := toNat_ofNat_lt (by omega)
    obtain ⟨htail, hbits⟩ := isTail_ofNat c
    rw [if_pos htwo, List.cons_append, List.singleton_append, decode.eq_def]
    simp only [UInt8.lt_iff_toNat_lt, UInt8.le_iff_toNat_le, hc, htail, hbits, UInt8.reduceToNat]
    rw [if_neg (by omega), if_pos (by simp; omega), if_pos trivial]
    have hvalue : (0xC0 + c / 0x40) % 0x20 * 0x40 + c % 0x40 = c := by omega
    rw [hvalue]
  rw [if_neg htwo]
  by_cases hthree : c < 0x10000
  · have hc : (UInt8.ofNat (0xE0 + c / 0x1000)).toNat = 0xE0 + c / 0x1000 := toNat_ofNat_lt (by omega)
    obtain ⟨htail, hbits⟩ := isTail_ofNat c
    obtain ⟨htail', hbits'⟩ := isTail_ofNat (c / 0x40)
    have hvalue : ((0xE0 + c / 0x1000) % 0x10 * 0x40 + c / 0x40 % 0x40) * 0x40 + c % 0x40 = c := by omega
    rw [if_pos hthree, List.cons_append, List.cons_append, List.singleton_append, decode.eq_def]
    simp only [UInt8.lt_iff_toNat_lt, UInt8.le_iff_toNat_le, hc, htail, hbits, htail', hbits', hvalue, hsurrogate,
      UInt8.reduceToNat]
    rw [if_neg (by omega), if_neg (by simp; omega), if_pos (by simp; omega), if_pos (by simp; omega)]
  · have hc : (UInt8.ofNat (0xF0 + c / 0x40000)).toNat = 0xF0 + c / 0x40000 := toNat_ofNat_lt (by omega)
    obtain ⟨htail, hbits⟩ := isTail_ofNat c
    obtain ⟨htail', hbits'⟩ := isTail_ofNat (c / 0x40)
    obtain ⟨htail'', hbits''⟩ := isTail_ofNat (c / 0x1000)
    have hvalue : (((0xF0 + c / 0x40000) % 0x08 * 0x40 + c / 0x1000 % 0x40) * 0x40 + c / 0x40 % 0x40) * 0x40 + c % 0x40 =
        c := by omega
    rw [if_neg hthree, List.cons_append, List.cons_append, List.cons_append, List.singleton_append, decode.eq_def]
    simp only [UInt8.lt_iff_toNat_lt, UInt8.le_iff_toNat_le, hc, htail, hbits, htail', hbits', htail'', hbits'', hvalue,
      UInt8.reduceToNat]
    rw [if_neg (by omega), if_neg (by simp; omega), if_neg (by simp; omega), if_pos (by simp; omega),
      if_pos (by simp; omega)]

/-- A text is decoded from the encodings of its code points and from nothing else. -/
theorem decode_iff {bytes : List UInt8} {text : List Nat} :
    decode bytes = some text ↔ (∀ c ∈ text, IsScalar c) ∧ bytes = text.flatMap encodeScalar := by
  constructor
  · intro h
    exact ⟨isScalar_of_decode h, (flatMap_of_decode h).symm⟩
  · rintro ⟨hscalar, rfl⟩
    induction text with
    | nil => rfl
    | cons c text ih =>
      obtain ⟨hc, htext⟩ := List.forall_mem_cons.mp hscalar
      rw [List.flatMap_cons, decode_encodeScalar hc, ih htext, Option.map_some]

end QwenTtsBridge.Lib.Utf8
