/-
  QwenTtsBridge.Client.Utf8Text — the client's two UTF-8 loops, read by read
  (`is_valid_utf8` and `count_non_space_utf8_bytes` of `client/qwen_tts_client.cpp`).

  `Request` has both as functions of what is left of the string. Here they walk the string
  by index as the source does, and `none` is a read past its end. The second loop tests no
  byte but the lead: on a string that the first one refuses it may read outside.

  `utf8_is_handled`: the first loop never reads outside and accepts exactly the encodings of
  texts of scalar values; on these the second one stays inside as well, and counts the bytes
  of the code points that are not spaces.
-/

import QwenTtsBridge.Client.Request
import QwenTtsBridge.Lib.Utf8

namespace QwenTtsBridge.Client

open QwenTtsBridge.Protocol.Control QwenTtsBridge.Lib.Utf8

/-! ## The loops -/

/-- The inner loop of `is_valid_utf8`; it gives no code point where a byte is no continuation. -/
def readContinuations (value : CppString) : Nat → Nat → Nat → Option (Option Nat)
  | 0, _, codePoint => some (some codePoint)
  | count + 1, index, codePoint =>
    match value[index]? with
    | none => none
    | some continuation =>
      if continuation &&& 0xC0 != 0x80 then some none
      else readContinuations value count (index + 1) (utf8Append codePoint continuation)

/-- `is_valid_utf8` from `index` on. -/
def isValidUtf8From (value : CppString) (index : Nat) : Option Bool :=
  if index < value.length then
    match value[index]? with
    | none => none
    | some lead =>
      match utf8Lead lead with
      | none => some false
      | some (bits, continuationCount) =>
        if continuationCount = 0 then isValidUtf8From value (index + 1)
        else if value.length < index + 1 + continuationCount then some false
        else
          match readContinuations value continuationCount (index + 1) bits with
          | none => none
          | some none => some false
          | some (some codePoint) =>
            if isScalarOfWidth codePoint continuationCount then
              isValidUtf8From value (index + 1 + continuationCount)
            else some false
  else some true
termination_by value.length - index

/-- The inner loop of `count_non_space_utf8_bytes`. -/
def appendBytes (value : CppString) : Nat → Nat → Nat → Option Nat
  | 0, _, codePoint => some codePoint
  | count + 1, index, codePoint =>
    match value[index]? with
    | none => none
    | some continuation => appendBytes value count (index + 1) (utf8Append codePoint continuation)

/-- `count_non_space_utf8_bytes` from `index` on. A byte that starts no sequence counts as one
    code point. -/
def countNonSpaceUtf8BytesFrom (value : CppString) (index result : Nat) : Option Nat :=
  if index < value.length then
    match value[index]? with
    | none => none
    | some lead =>
      let (bits, continuationCount) := (utf8Lead lead).getD (lead.toNat, 0)
      match appendBytes value continuationCount (index + 1) bits with
      | none => none
      | some codePoint =>
        countNonSpaceUtf8BytesFrom value (index + 1 + continuationCount)
          (if isUnicodeSpace codePoint then result else result + (continuationCount + 1))
  else some result
termination_by value.length - index

/-! ## Reads stay inside -/

section Reads

variable {value : CppString} {count index codePoint : Nat}

theorem drop_eq_cons (h : index < value.length) :
    ∃ lead, value[index]? = some lead ∧ value.drop index = lead :: value.drop (index + 1) :=
  ⟨value[index], List.getElem?_eq_getElem h, List.drop_eq_getElem_cons h⟩

theorem readContinuations_eq (h : index + count ≤ value.length) :
    readContinuations value count index codePoint =
      some (if ((value.drop index).take count).all (fun b => b &&& 0xC0 == 0x80) then
        some (((value.drop index).take count).foldl utf8Append codePoint) else none) := by
  induction count generalizing index codePoint with
  | zero => rfl
  | succ count ih =>
    have hindex : index < value.length := by omega
    obtain ⟨b, hb, hdrop⟩ := drop_eq_cons hindex
    rw [readContinuations, hb, hdrop, List.take_succ_cons]
    dsimp only
    by_cases hcontinuation : b &&& 0xC0 = 0x80
    · rw [if_neg (by simpa using hcontinuation), ih (by omega)]
      simp [hcontinuation]
    · rw [if_pos (by simpa using hcontinuation)]
      simp [hcontinuation]

theorem appendBytes_eq (h : index + count ≤ value.length) :
    appendBytes value count index codePoint = some (((value.drop index).take count).foldl utf8Append codePoint) := by
  induction count generalizing index codePoint with
  | zero => rfl
  | succ count ih =>
    have hindex : index < value.length := by omega
    obtain ⟨b, hb, hdrop⟩ := drop_eq_cons hindex
    rw [appendBytes, hb, hdrop, List.take_succ_cons, List.foldl_cons]
    exact ih (by omega)

end Reads

/-- Bytes in ASCII take the step that the others take, with no continuation. -/
theorem isValidUtf8Aux_cons {fuel : Nat} {lead : UInt8} {rest : CppString} {bits count : Nat}
    (h : utf8Lead lead = some (bits, count)) :
    isValidUtf8Aux (fuel + 1) (lead :: rest) =
      ((rest.take count).length == count && (rest.take count).all (fun b => b &&& 0xC0 == 0x80) &&
        isScalarOfWidth ((rest.take count).foldl utf8Append bits) count && isValidUtf8Aux fuel (rest.drop count)) := by
  rw [isValidUtf8Aux, h]
  cases count with
  | zero =>
    have hbits : bits ≤ 0x7F := by
      unfold utf8Lead at h
      split_ifs at h with hle
      · cases h
        exact UInt8.le_iff_toNat_le.mp hle
      all_goals simp at h
    have hscalar : isScalarOfWidth bits 0 = true := by
      simp only [isScalarOfWidth, Bool.not_eq_true', Bool.or_eq_false_iff, Bool.and_eq_false_iff, decide_eq_false_iff_not]
      simp
      omega
    simp [hscalar]
  | succ count => rfl

theorem isValidUtf8From_eq {value : CppString} {fuel index : Nat} (h : value.length ≤ index + fuel) :
    isValidUtf8From value index = some (isValidUtf8Aux fuel (value.drop index)) := by
  induction fuel generalizing index with
  | zero =>
    rw [isValidUtf8From, if_neg (by omega), List.drop_eq_nil_of_le (by omega)]
    rfl
  | succ fuel ih =>
    rw [isValidUtf8From]
    by_cases hindex : index < value.length
    · obtain ⟨lead, hlead, hdrop⟩ := drop_eq_cons hindex
      rw [if_pos hindex, hlead, hdrop]
      dsimp only
      cases hkind : utf8Lead lead with
      | none => rw [isValidUtf8Aux, hkind]
      | some p =>
        obtain ⟨bits, count⟩ := p
        have hnext := @ih (index + 1 + count) (by omega)
        rw [← List.drop_drop] at hnext
        cases count with
        | zero =>
          rw [isValidUtf8Aux, hkind]
          exact hnext
        | succ count =>
          rw [isValidUtf8Aux_cons hkind]
          dsimp only
          rw [if_neg count.succ_ne_zero]
          by_cases hshort : value.length < index + 1 + (count + 1)
          · rw [if_pos hshort]
            have hlength : ((value.drop (index + 1)).take (count + 1)).length ≠ count + 1 := by
              rw [List.length_take, List.length_drop]
              omega
            rw [beq_eq_false_iff_ne.mpr hlength]
            rfl
          · have hlength : ((value.drop (index + 1)).take (count + 1)).length = count + 1 := by
              rw [List.length_take, List.length_drop]
              omega
            rw [if_neg hshort, readContinuations_eq (by omega), hlength, hnext]
            cases ((value.drop (index + 1)).take (count + 1)).all (fun b => b &&& 0xC0 == 0x80) with
            | false => simp
            | true =>
              cases hscalar : isScalarOfWidth (((value.drop (index + 1)).take (count + 1)).foldl utf8Append bits) (count + 1)
                with
              | false => simp [hscalar]
              | true => simp [hscalar]
    · rw [if_neg hindex, List.drop_eq_nil_of_le (by omega)]
      rfl

/-- Where the first loop accepts, the second one finds every byte that it reads. -/
theorem countNonSpaceUtf8BytesFrom_eq {value : CppString} {fuel index result : Nat} (h : value.length ≤ index + fuel)
    (hvalid : isValidUtf8Aux fuel (value.drop index) = true) :
    countNonSpaceUtf8BytesFrom value index result =
      some (result + countNonSpaceUtf8BytesAux fuel (value.drop index)) := by
  induction fuel generalizing index result with
  | zero =>
    rw [countNonSpaceUtf8BytesFrom, if_neg (by omega)]
    rfl
  | succ fuel ih =>
    rw [countNonSpaceUtf8BytesFrom]
    by_cases hindex : index < value.length
    · obtain ⟨lead, hlead, hdrop⟩ := drop_eq_cons hindex
      rw [hdrop] at hvalid ⊢
      rw [if_pos hindex, hlead, countNonSpaceUtf8BytesAux]
      dsimp only
      cases hkind : utf8Lead lead with
      | none =>
        rw [isValidUtf8Aux, hkind] at hvalid
        cases hvalid
      | some p =>
        obtain ⟨bits, count⟩ := p
        rw [isValidUtf8Aux_cons hkind] at hvalid
        simp only [Bool.and_eq_true, beq_iff_eq, List.length_take, List.length_drop] at hvalid
        obtain ⟨⟨⟨hlength, -⟩, -⟩, hrest⟩ := hvalid
        rw [List.drop_drop] at hrest
        dsimp only [Option.getD_some]
        rw [List.drop_drop, appendBytes_eq (by omega)]
        dsimp only
        rw [ih (by omega) hrest]
        split_ifs <;> congr 1 <;> omega
    · rw [if_neg hindex, List.drop_eq_nil_of_le (by omega)]
      rfl

/-! ## Texts -/

theorem continuation_eq (b : UInt8) : (b &&& 0xC0 == 0x80) = isTail b := by
  have hall : ∀ n < 256, (UInt8.ofNat n &&& 0xC0 == 0x80) = isTail (UInt8.ofNat n) := by decide +kernel
  have hb := hall b.toNat b.toNat_lt
  rwa [UInt8.ofNat_toNat] at hb

section Lead

variable {a : UInt8}

theorem utf8Lead_one (h : a < 0x80) : utf8Lead a = some (a.toNat, 0) :=
  if_pos (UInt8.le_iff_toNat_le.mpr (Nat.le_of_lt_succ (UInt8.lt_iff_toNat_lt.mp h)))

theorem not_le_of_not_lt (h : ¬ a < 0x80) : ¬ a ≤ 0x7F := by
  intro hle
  exact h (UInt8.lt_iff_toNat_lt.mpr (Nat.lt_succ_of_le (UInt8.le_iff_toNat_le.mp hle)))

theorem utf8Lead_two (h : ¬ a < 0x80) (htwo : (0xC2 ≤ a && a ≤ 0xDF) = true) : utf8Lead a = some (a.toNat % 0x20, 1) := by
  unfold utf8Lead
  rw [if_neg (not_le_of_not_lt h), if_pos (by simpa using htwo)]

theorem utf8Lead_three (h : ¬ a < 0x80) (htwo : ¬ (0xC2 ≤ a && a ≤ 0xDF) = true)
    (hthree : (0xE0 ≤ a && a ≤ 0xEF) = true) : utf8Lead a = some (a.toNat % 0x10, 2) := by
  unfold utf8Lead
  rw [if_neg (not_le_of_not_lt h), if_neg (by simpa using htwo), if_pos (by simpa using hthree)]

theorem utf8Lead_four (h : ¬ a < 0x80) (htwo : ¬ (0xC2 ≤ a && a ≤ 0xDF) = true)
    (hthree : ¬ (0xE0 ≤ a && a ≤ 0xEF) = true) (hfour : (0xF0 ≤ a && a ≤ 0xF4) = true) :
    utf8Lead a = some (a.toNat % 0x08, 3) := by
  unfold utf8Lead
  rw [if_neg (not_le_of_not_lt h), if_neg (by simpa using htwo), if_neg (by simpa using hthree),
    if_pos (by simpa using hfour)]

theorem utf8Lead_none (h : ¬ a < 0x80) (htwo : ¬ (0xC2 ≤ a && a ≤ 0xDF) = true)
    (hthree : ¬ (0xE0 ≤ a && a ≤ 0xEF) = true) (hfour : ¬ (0xF0 ≤ a && a ≤ 0xF4) = true) : utf8Lead a = none := by
  unfold utf8Lead
  rw [if_neg (not_le_of_not_lt h), if_neg (by simpa using htwo), if_neg (by simpa using hthree),
    if_neg (by simpa using hfour)]

end Lead

section Widths

variable {n : Nat}

theorem isScalarOfWidth_one (h : n < 0x80) : isScalarOfWidth n 0 = true := by
  simp [isScalarOfWidth]
  omega

theorem isScalarOfWidth_two (h : n < 0x800) : isScalarOfWidth n 1 = true := by
  simp [isScalarOfWidth]
  omega

theorem isScalarOfWidth_three (h : n < 0x10000) : isScalarOfWidth n 2 = (decide (0x800 ≤ n) && !isSurrogate n) := by
  rw [Bool.eq_iff_iff]
  simp [isScalarOfWidth, isSurrogate]
  omega

theorem isScalarOfWidth_four : isScalarOfWidth n 3 = (decide (0x10000 ≤ n) && decide (n ≤ 0x10FFFF)) := by
  rw [Bool.eq_iff_iff]
  simp [isScalarOfWidth]
  omega

end Widths

theorem utf8Append_eq (codePoint : Nat) (b : UInt8) : utf8Append codePoint b = codePoint * 0x40 + tailBits b := rfl

theorem exists_fuel {fuel n : Nat} (h : n + 1 ≤ fuel) : ∃ rest, fuel = rest + 1 ∧ n ≤ rest :=
  ⟨fuel - 1, by omega, by omega⟩

/-- The first loop, against the decoder: one case for each width and for each way to refuse. -/
theorem isValidUtf8Aux_iff {fuel : Nat} {value : CppString} (h : value.length ≤ fuel) :
    isValidUtf8Aux fuel value = (decode value).isSome := by
  fun_induction decode value generalizing fuel with
  | case1 => cases fuel <;> rfl
  | case2 a rest ha ih =>
    obtain ⟨fuel, rfl, hfuel⟩ := exists_fuel h
    rw [isValidUtf8Aux_cons (utf8Lead_one ha), Option.isSome_map, ← ih hfuel]
    have hscalar := isScalarOfWidth_one (UInt8.lt_iff_toNat_lt.mp ha)
    simp [hscalar]
  | case3 a ha htwo b rest hb ih =>
    obtain ⟨fuel, rfl, hfuel⟩ := exists_fuel h
    rw [isValidUtf8Aux_cons (utf8Lead_two ha htwo), Option.isSome_map, ← ih (Nat.le_of_succ_le hfuel)]
    have htail := tailBits_lt b
    have hscalar : isScalarOfWidth (a.toNat % 0x20 * 0x40 + tailBits b) 1 = true := isScalarOfWidth_two (by omega)
    simp [utf8Append_eq, continuation_eq, hb, hscalar]
  | case4 a ha htwo b rest hb =>
    obtain ⟨fuel, rfl, hfuel⟩ := exists_fuel h
    rw [isValidUtf8Aux_cons (utf8Lead_two ha htwo)]
    simp [continuation_eq, hb]
  | case5 a ha htwo =>
    obtain ⟨fuel, rfl, hfuel⟩ := exists_fuel h
    rw [isValidUtf8Aux_cons (utf8Lead_two ha htwo)]
    rfl
  | case6 a ha htwo hthree b c rest n hcond =>
    rename_i ih
    obtain ⟨fuel, rfl, hfuel⟩ := exists_fuel h
    rw [isValidUtf8Aux_cons (utf8Lead_three ha htwo hthree), Option.isSome_map,
      ← ih (Nat.le_of_succ_le (Nat.le_of_succ_le hfuel))]
    have hb := tailBits_lt b
    have hc := tailBits_lt c
    have hscalar := isScalarOfWidth_three (n := n) (by omega)
    simp only [Bool.and_eq_true] at hcond
    simp [utf8Append_eq, continuation_eq, n, hscalar, hcond]
  | case7 a ha htwo hthree b c rest n =>
    rename_i hcond
    obtain ⟨fuel, rfl, hfuel⟩ := exists_fuel h
    rw [isValidUtf8Aux_cons (utf8Lead_three ha htwo hthree)]
    have hb := tailBits_lt b
    have hc := tailBits_lt c
    have hscalar := isScalarOfWidth_three (n := n) (by omega)
    have hrefused : (isTail b && isTail c && isScalarOfWidth n 2) = false := by
      rw [hscalar]
      simpa [Bool.and_assoc] using hcond
    simp [utf8Append_eq, continuation_eq, n] at hrefused ⊢
    intro hb hc hwidth
    rw [hrefused hb hc] at hwidth
    cases hwidth
  | case8 a rest ha htwo hthree hrest =>
    obtain ⟨fuel, rfl, hfuel⟩ := exists_fuel h
    rw [isValidUtf8Aux_cons (utf8Lead_three ha htwo hthree)]
    have hshort : rest.length < 2 := by
      rcases rest with _ | ⟨b, _ | ⟨c, rest⟩⟩
      · simp
      · simp
      · exact absurd rfl (hrest b c rest)
    have hlength : (rest.take 2).length ≠ 2 := by
      rw [List.length_take]
      omega
    rw [beq_eq_false_iff_ne.mpr hlength]
    rfl
  | case9 a ha htwo hthree hfour b c d rest n hcond =>
    rename_i ih
    obtain ⟨fuel, rfl, hfuel⟩ := exists_fuel h
    rw [isValidUtf8Aux_cons (utf8Lead_four ha htwo hthree hfour), Option.isSome_map,
      ← ih (Nat.le_of_succ_le (Nat.le_of_succ_le (Nat.le_of_succ_le hfuel)))]
    have hscalar := isScalarOfWidth_four (n := n)
    simp only [Bool.and_eq_true] at hcond
    simp [utf8Append_eq, continuation_eq, n, hscalar, hcond]
  | case10 a ha htwo hthree hfour b c d rest n =>
    rename_i hcond
    obtain ⟨fuel, rfl, hfuel⟩ := exists_fuel h
    rw [isValidUtf8Aux_cons (utf8Lead_four ha htwo hthree hfour)]
    have hrefused : (isTail b && isTail c && isTail d && isScalarOfWidth n 3) = false := by
      rw [isScalarOfWidth_four]
      simpa [Bool.and_assoc] using hcond
    simp [utf8Append_eq, continuation_eq, n] at hrefused ⊢
    intro hb hc hd hwidth
    rw [hrefused hb hc hd] at hwidth
    cases hwidth
  | case11 a rest ha htwo hthree hfour hrest =>
    obtain ⟨fuel, rfl, hfuel⟩ := exists_fuel h
    rw [isValidUtf8Aux_cons (utf8Lead_four ha htwo hthree hfour)]
    have hshort : rest.length < 3 := by
      rcases rest with _ | ⟨b, _ | ⟨c, _ | ⟨d, rest⟩⟩⟩
      · simp
      · simp
      · simp
      · exact absurd rfl (hrest b c d rest)
    have hlength : (rest.take 3).length ≠ 3 := by
      rw [List.length_take]
      omega
    rw [beq_eq_false_iff_ne.mpr hlength]
    rfl
  | case12 a rest ha htwo hthree hfour =>
    obtain ⟨fuel, rfl, hfuel⟩ := exists_fuel h
    rw [isValidUtf8Aux, utf8Lead_none ha htwo hthree hfour]
    rfl

/-- The bytes of the code points that are not spaces. -/
def nonSpaceSize (text : List Nat) : Nat := size (text.filter fun c => !isUnicodeSpace c)

@[simp] theorem nonSpaceSize_cons (c : Nat) (text : List Nat) :
    nonSpaceSize (c :: text) = (if isUnicodeSpace c then 0 else scalarSize c) + nonSpaceSize text := by
  unfold nonSpaceSize
  cases h : isUnicodeSpace c <;> simp [h]

theorem countNonSpaceUtf8BytesAux_cons {fuel : Nat} {lead : UInt8} {rest : CppString} {bits count : Nat}
    (h : utf8Lead lead = some (bits, count)) :
    countNonSpaceUtf8BytesAux (fuel + 1) (lead :: rest) =
      (if isUnicodeSpace ((rest.take count).foldl utf8Append bits) then 0 else count + 1) +
        countNonSpaceUtf8BytesAux fuel (rest.drop count) := by
  rw [countNonSpaceUtf8BytesAux, h]

theorem countNonSpaceUtf8BytesAux_eq {fuel : Nat} {value : CppString} {text : List Nat} (h : value.length ≤ fuel)
    (hdecode : decode value = some text) : countNonSpaceUtf8BytesAux fuel value = nonSpaceSize text := by
  fun_induction decode value generalizing fuel text with
  | case1 =>
    cases hdecode
    cases fuel <;> rfl
  | case2 a rest ha ih =>
    obtain ⟨t, ht, rfl⟩ := Option.map_eq_some_iff.mp hdecode
    obtain ⟨fuel, rfl, hfuel⟩ := exists_fuel h
    have hsize : scalarSize a.toNat = 1 := if_pos (UInt8.lt_iff_toNat_lt.mp ha)
    rw [countNonSpaceUtf8BytesAux_cons (utf8Lead_one ha), nonSpaceSize_cons, hsize, ← ih hfuel ht]
    rfl
  | case3 a ha htwo b rest hb ih =>
    obtain ⟨t, ht, rfl⟩ := Option.map_eq_some_iff.mp hdecode
    obtain ⟨fuel, rfl, hfuel⟩ := exists_fuel h
    have hsize : scalarSize (a.toNat % 0x20 * 0x40 + tailBits b) = 2 := by
      rw [← length_encodeScalar, encodeScalar_two (by simpa using htwo) hb]
      rfl
    rw [countNonSpaceUtf8BytesAux_cons (utf8Lead_two ha htwo), nonSpaceSize_cons, hsize,
      ← ih (Nat.le_of_succ_le hfuel) ht]
    rfl
  | case6 a ha htwo hthree b c rest n hcond =>
    rename_i ih
    obtain ⟨t, ht, rfl⟩ := Option.map_eq_some_iff.mp hdecode
    obtain ⟨fuel, rfl, hfuel⟩ := exists_fuel h
    simp only [Bool.and_eq_true, decide_eq_true_eq] at hcond
    have hsize : scalarSize n = 3 := by
      rw [← length_encodeScalar, encodeScalar_three (by simpa using hthree) hcond.1.1.1 hcond.1.1.2 hcond.1.2]
      rfl
    rw [countNonSpaceUtf8BytesAux_cons (utf8Lead_three ha htwo hthree), nonSpaceSize_cons, hsize,
      ← ih (Nat.le_of_succ_le (Nat.le_of_succ_le hfuel)) ht]
    rfl
  | case9 a ha htwo hthree hfour b c d rest n hcond =>
    rename_i ih
    obtain ⟨t, ht, rfl⟩ := Option.map_eq_some_iff.mp hdecode
    obtain ⟨fuel, rfl, hfuel⟩ := exists_fuel h
    simp only [Bool.and_eq_true, decide_eq_true_eq] at hcond
    have hsize : scalarSize n = 4 := by
      rw [← length_encodeScalar,
        encodeScalar_four (by simpa using hfour) hcond.1.1.1.1 hcond.1.1.1.2 hcond.1.1.2 hcond.1.2]
      rfl
    rw [countNonSpaceUtf8BytesAux_cons (utf8Lead_four ha htwo hthree hfour), nonSpaceSize_cons, hsize,
      ← ih (Nat.le_of_succ_le (Nat.le_of_succ_le (Nat.le_of_succ_le hfuel))) ht]
    rfl
  | _ => cases hdecode

/-- `value` is the concatenated encodings of the scalar values of `text`. -/
def Encodes (text : List Nat) (value : CppString) : Prop :=
  (∀ c ∈ text, IsScalar c) ∧ value = text.flatMap encodeScalar

theorem utf8_is_handled (value : CppString) :
    isValidUtf8From value 0 = some (isValidUtf8 value) ∧
    (isValidUtf8 value = true ↔ ∃ text, Encodes text value) ∧
    ∀ text, Encodes text value →
      countNonSpaceUtf8BytesFrom value 0 0 = some (countNonSpaceUtf8Bytes value) ∧
        countNonSpaceUtf8Bytes value = nonSpaceSize text := by
  have hvalid : isValidUtf8 value = (decode value).isSome := isValidUtf8Aux_iff (Nat.le_refl _)
  refine ⟨isValidUtf8From_eq (by omega), ?_, fun text htext => ?_⟩
  · rw [hvalid, Option.isSome_iff_exists]
    exact exists_congr fun text => decode_iff
  · have hdecode : decode value = some text := decode_iff.mpr htext
    have haccepted : isValidUtf8Aux value.length (value.drop 0) = true := by
      rw [List.drop_zero, isValidUtf8Aux_iff (Nat.le_refl _), hdecode]
      rfl
    refine ⟨?_, countNonSpaceUtf8BytesAux_eq (Nat.le_refl _) hdecode⟩
    have hcount : countNonSpaceUtf8BytesFrom value 0 0 =
        some (0 + countNonSpaceUtf8BytesAux value.length (value.drop 0)) :=
      countNonSpaceUtf8BytesFrom_eq (by omega) haccepted
    rwa [Nat.zero_add, List.drop_zero] at hcount

/-- U+00E9 and a space. -/
theorem an_accented_letter_is_counted :
    countNonSpaceUtf8BytesFrom [0xC3, 0xA9, 0x20] 0 0 = some 2 := by
  have htext : Encodes [0xE9, 0x20] [0xC3, 0xA9, 0x20] := by
    refine ⟨fun c hc => ?_, by decide⟩
    have hall : ∀ c ∈ [0xE9, 0x20], c ≤ 0x10FFFF ∧ isSurrogate c = false := by decide
    exact hall c hc
  exact ((utf8_is_handled [0xC3, 0xA9, 0x20]).2.2 [0xE9, 0x20] htext).1

/-- A lead byte at the end: the second loop reads past it, and the first one refuses it. -/
example : countNonSpaceUtf8BytesFrom [0xC3] 0 0 = none ∧ isValidUtf8 [0xC3] = false := by
  refine ⟨?_, by decide⟩
  rw [countNonSpaceUtf8BytesFrom]
  rfl

end QwenTtsBridge.Client
