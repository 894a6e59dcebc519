/-
  QwenTtsBridge.Voice.ManifestText — the text of the manifest that a publication writes.

  `manifestBytes` is its size, from the context, what was extracted and the generation; the
  reader takes at most `kMaxManifestBytes`, and the writer has no such limit. What the
  library documents of `dump(2)` and `parse` is `Platform.Documented`.
-/

import Mathlib.Data.Nat.Digits.Lemmas
import QwenTtsBridge.Protocol.ControlRoundTrip
import QwenTtsBridge.Protocol.Indented
import QwenTtsBridge.Voice.Published

namespace QwenTtsBridge.Voice.Prepared

open QwenTtsBridge.Lib QwenTtsBridge.Protocol QwenTtsBridge.Protocol.Control

/-- `dump(2)` writes the indented text of a value whose strings are UTF-8 and throws for the
    others, and what it has written is read back. -/
structure Platform.Documented (platform : Platform) (v : Json) : Prop where
  utf8 : v.isUtf8 = true → platform.dumpIndented v = .ok (v.indented platform.lib.floatText 0)
  illFormed : v.isUtf8 = false → ∃ e, platform.dumpIndented v = .error e
  readsBack : Json.Canonical v → v.isUtf8 = true → platform.lib.parse (v.indented platform.lib.floatText 0 ++ [10]) = .ok v

/-! ## Size -/

def digits (n : Nat) : Nat := (Control.decimalText n).length

/-- The bytes of the manifest, the last line break included. -/
def manifestBytes (context : PreparedContext) (extracted : Extracted) (generation : CppString) : Nat :=
  quotedBytes context.sourceAudioSha256 + quotedBytes context.referenceText + quotedBytes context.engineCommit +
    digits context.abiVersion.toNat + quotedBytes context.talkerSha256 + quotedBytes context.codecSha256 +
    generation.length + digits extracted.refSpkDim.toNat + digits (extracted.refSpkDim.toNat * 4) +
    (if context.xVectorOnly then 663
    else 906 + generation.length + digits extracted.numCodebooks.toNat + digits extracted.refT.toNat +
      digits (rvqBytes extracted.count))

theorem digits_eq_log {n : Nat} (h : n ≠ 0) : digits n = Nat.log 10 n + 1 := by
  unfold digits Control.decimalText
  rw [if_neg h, List.length_reverse, List.length_map, Nat.length_digits 10 n (by decide) h]

section Size

variable (floatText : Binary64 → CppString) (indent : Nat)

theorem indentedBytes_ofInt {n : Int} (hlow : 0 ≤ n) (hhigh : n < 2 ^ 64) :
    (Json.ofInt n).indentedBytes floatText indent = digits n.toNat := by
  unfold Json.ofInt
  rw [if_neg (by omega), indentedBytes_unsigned, UInt64.toNat_ofNat', Nat.mod_eq_of_lt (by omega), digits]

@[simp] theorem indentedBytes_lit (s : String) :
    (Json.lit s).indentedBytes floatText indent = quotedBytes (CppString.lit s) := indentedBytes_string floatText indent _

theorem quotedBytes_append (s t : CppString) : quotedBytes (s ++ t) = quotedBytes s + quotedBytes t - 2 := by
  simp only [quotedBytes, List.map_append, List.sum_append]
  omega

theorem escapedBytes_hex {b : UInt8} (h : isHexOrDash b = true) : escapedBytes b = 1 := by
  revert h
  revert b
  have hall : ∀ i : Fin 256, isHexOrDash (UInt8.ofNat i) = true → escapedBytes (UInt8.ofNat i) = 1 := by decide +kernel
  intro b
  have hb := hall ⟨b.toNat, b.toNat_lt⟩
  rwa [UInt8.ofNat_toNat] at hb

theorem quotedBytes_hex {s : CppString} (h : ∀ b ∈ s, isHexOrDash b = true) : quotedBytes s = s.length + 2 := by
  have hsum : (s.map escapedBytes).sum = s.length := by
    rw [List.map_congr_left fun b hb => escapedBytes_hex (h b hb)]
    simp
  rw [quotedBytes, hsum, Nat.add_comm]

theorem hexDigit_hex (n : UInt8) (h : n < 16) : isHexOrDash (hexDigit n) = true := by
  revert h
  have hall : ∀ i : Fin 256, UInt8.ofNat i < 16 → isHexOrDash (hexDigit (UInt8.ofNat i)) = true := by decide +kernel
  have hn := hall ⟨n.toNat, n.toNat_lt⟩
  rwa [UInt8.ofNat_toNat] at hn

theorem hex_hex (sha : Sha256) (bytes : Bytes) : ∀ b ∈ sha.hex bytes, isHexOrDash b = true := by
  intro b hb
  obtain ⟨c, -, hc⟩ := List.mem_flatMap.mp hb
  have hdiv : c / 16 < 16 := by
    rw [UInt8.lt_iff_toNat_lt, UInt8.toNat_div]
    have := c.toNat_lt
    show c.toNat / 16 < 16
    omega
  have hmod : c % 16 < 16 := by
    rw [UInt8.lt_iff_toNat_lt, UInt8.toNat_mod]
    exact Nat.mod_lt _ (by decide)
  simp only [List.mem_cons, List.not_mem_nil, or_false] at hc
  rcases hc with rfl | rfl
  · exact hexDigit_hex _ hdiv
  · exact hexDigit_hex _ hmod

theorem length_hex (sha : Sha256) (bytes : Bytes) : (sha.hex bytes).length = 64 := by
  unfold Sha256.hex hexText
  rw [List.length_flatMap]
  simp [sha.length_digest]

theorem quotedBytes_sha (sha : Sha256) (bytes : Bytes) : quotedBytes (sha.hex bytes) = 66 := by
  rw [quotedBytes_hex (hex_hex sha bytes), length_hex]

variable (generation : Generation)

theorem quotedBytes_speakerName : quotedBytes (speakerName generation.text) = generation.text.length + 16 := by
  have hfront : quotedBytes (CppString.lit "reference-") = 12 := by decide
  have htail : quotedBytes (CppString.lit ".spk") = 6 := by decide
  rw [speakerName, quotedBytes_append, quotedBytes_append, quotedBytes_hex generation.hex, hfront, htail]
  omega

theorem quotedBytes_rvqName : quotedBytes (rvqName generation.text) = generation.text.length + 16 := by
  have hfront : quotedBytes (CppString.lit "reference-") = 12 := by decide
  have htail : quotedBytes (CppString.lit ".rvq") = 6 := by decide
  rw [rvqName, quotedBytes_append, quotedBytes_append, quotedBytes_hex generation.hex, hfront, htail]
  omega

variable {context : PreparedContext} {extracted : Extracted} {generation} (sha : Sha256)

theorem indentedBytes_engine (hlow : 0 < context.abiVersion) (hhigh : context.abiVersion < 2 ^ 31) :
    (engineJson context).indentedBytes floatText 2 =
      68 + quotedBytes context.engineCommit + digits context.abiVersion.toNat := by
  have hdistinct : Distinct ["name", "commit", "abi_version"] := by decide
  have hnames : ["name", "commit", "abi_version", "qwentts.cpp"].map (fun s => quotedBytes (CppString.lit s)) =
      [6, 8, 13, 13] := by decide
  simp only [List.map_cons, List.map_nil, List.cons.injEq, and_true] at hnames
  rw [engineJson, indentedBytes_fields floatText 2 (by exact hdistinct) (List.cons_ne_nil _ _)]
  simp only [List.map_cons, List.map_nil, List.sum_cons, List.sum_nil, lineBytes, indentedBytes_lit,
    indentedBytes_string, indentedBytes_ofInt floatText _ (Int.le_of_lt hlow) (by omega), hnames]
  omega

theorem indentedBytes_models :
    (modelsJson context).indentedBytes floatText 2 =
      49 + quotedBytes context.talkerSha256 + quotedBytes context.codecSha256 := by
  have hdistinct : Distinct ["talker_sha256", "codec_sha256"] := by decide
  have hnames : ["talker_sha256", "codec_sha256"].map (fun s => quotedBytes (CppString.lit s)) = [15, 14] := by
    decide
  simp only [List.map_cons, List.map_nil, List.cons.injEq, and_true] at hnames
  rw [modelsJson, indentedBytes_fields floatText 2 (by exact hdistinct) (List.cons_ne_nil _ _)]
  simp only [List.map_cons, List.map_nil, List.sum_cons, List.sum_nil, lineBytes, indentedBytes_string, hnames]
  omega

theorem indentedBytes_preprocessing :
    (preprocessingJson context).indentedBytes floatText 2 = if context.xVectorOnly then 138 else 142 := by
  have hdistinct : Distinct ["version", "sample_rate", "channels", "sample_format", "icl_trailing_silence_samples"] := by
    decide
  have hnames : ["version", "sample_rate", "channels", "sample_format", "icl_trailing_silence_samples", "float32"].map
      (fun s => quotedBytes (CppString.lit s)) = [9, 13, 10, 15, 30, 9] := by decide
  simp only [List.map_cons, List.map_nil, List.cons.injEq, and_true] at hnames
  have hnumbers : digits kPreprocessingVersion.toNat = 1 ∧ digits kSampleRate.toNat = 5 ∧ digits (1 : Int).toNat = 1 ∧
      digits (0 : Int).toNat = 1 ∧ digits (12000 : Int).toNat = 5 := by
    refine ⟨digits_eq_log (by decide), (digits_eq_log (by decide)).trans ?_, digits_eq_log (by decide), by rfl,
      (digits_eq_log (by decide)).trans ?_⟩
    all_goals decide
  have hsilence : (Json.ofInt (expectedSilence context)).indentedBytes floatText 4 =
      if context.xVectorOnly then 1 else 5 := by
    unfold expectedSilence
    cases context.xVectorOnly
    · rw [if_neg Bool.false_ne_true, if_neg Bool.false_ne_true,
        indentedBytes_ofInt floatText 4 (by decide) (by decide), hnumbers.2.2.2.2]
    · rw [if_pos rfl, if_pos rfl, indentedBytes_ofInt floatText 4 (by decide) (by decide), hnumbers.2.2.2.1]
  rw [preprocessingJson, indentedBytes_fields floatText 2 (by exact hdistinct) (List.cons_ne_nil _ _)]
  simp only [List.map_cons, List.map_nil, List.sum_cons, List.sum_nil, lineBytes, indentedBytes_lit, hnames, hsilence,
    indentedBytes_ofInt floatText 4 (n := kPreprocessingVersion) (by decide) (by decide),
    indentedBytes_ofInt floatText 4 (n := kSampleRate) (by decide) (by decide),
    indentedBytes_ofInt floatText 4 (n := 1) (by decide) (by decide), hnumbers]
  split <;> rfl

theorem indentedBytes_speaker (hbounds : Bounds context extracted) (speaker : Bytes) :
    (speakerJson sha generation.text extracted speaker).indentedBytes floatText 2 =
      183 + generation.text.length + digits extracted.refSpkDim.toNat + digits (extracted.refSpkDim.toNat * 4) := by
  have hdistinct : Distinct ["path", "dimension", "size_bytes", "sha256", "scalar"] := by decide
  have hnames : ["path", "dimension", "size_bytes", "sha256", "scalar", "float32-le"].map
      (fun s => quotedBytes (CppString.lit s)) = [6, 11, 12, 8, 8, 12] := by decide
  simp only [List.map_cons, List.map_nil, List.cons.injEq, and_true] at hnames
  have hmax : kMaxSpeakerDimension = 2 ^ 20 := rfl
  obtain ⟨hpos, hdim⟩ := hbounds.dimension
  rw [speakerJson, indentedBytes_fields floatText 2 (by exact hdistinct) (List.cons_ne_nil _ _)]
  simp only [List.map_cons, List.map_nil, List.sum_cons, List.sum_nil, lineBytes, indentedBytes_lit, hnames,
    indentedBytes_string, indentedBytes_unsigned, quotedBytes_sha, quotedBytes_speakerName,
    indentedBytes_ofInt floatText 4 (n := extracted.refSpkDim) (by omega) (by omega)]
  rw [UInt64.toNat_ofNat', Nat.mod_eq_of_lt (by omega), ← digits]
  omega

theorem count_le (hbounds : Bounds context extracted) (hmode : context.xVectorOnly = false) :
    extracted.count ≤ 64 * 2 ^ 20 := by
  have hmaxCodebooks : kMaxRvqCodebooks = 64 := rfl
  have hmaxFrames : kMaxRvqFrames = 2 ^ 20 := rfl
  obtain ⟨-, -, hcodebooks, -, hframes⟩ := hbounds.codes hmode
  exact Nat.mul_le_mul (by omega) (by omega)

theorem rvqBytes_le (hbounds : Bounds context extracted) (hmode : context.xVectorOnly = false) :
    rvqBytes extracted.count ≤ kMaxRvqBytes := by
  have hcount := count_le hbounds hmode
  have hmax : kMaxRvqBytes = 256 * 1024 * 1024 := rfl
  rw [rvqBytes, show kRvqCodeBits = 11 from rfl]
  omega

theorem indentedBytes_rvq (hbounds : Bounds context extracted) (hmode : context.xVectorOnly = false) {packed : Bytes}
    (hpacked : packed.length = rvqBytes extracted.count) :
    (rvqJson sha generation.text extracted packed).indentedBytes floatText 2 =
      242 + generation.text.length + digits extracted.numCodebooks.toNat + digits extracted.refT.toNat +
        digits (rvqBytes extracted.count) := by
  have hdistinct : Distinct ["path", "codebooks", "frames", "bits_per_code", "layout", "size_bytes", "sha256"] := by
    decide
  have hnames : ["path", "codebooks", "frames", "bits_per_code", "layout", "size_bytes", "sha256",
      "codebook-major-frame-fastest"].map (fun s => quotedBytes (CppString.lit s)) = [6, 11, 8, 15, 8, 12, 8, 30] := by
    decide
  simp only [List.map_cons, List.map_nil, List.cons.injEq, and_true] at hnames
  have hbits : digits (Int.toNat (kRvqCodeBits : Int)) = 2 := (digits_eq_log (by decide)).trans (by decide)
  have hmaxCodebooks : kMaxRvqCodebooks = 64 := rfl
  have hmaxFrames : kMaxRvqFrames = 2 ^ 20 := rfl
  obtain ⟨-, hpos, hcodebooks, hframesPos, hframes⟩ := hbounds.codes hmode
  rw [rvqJson, indentedBytes_fields floatText 2 (by exact hdistinct) (List.cons_ne_nil _ _)]
  simp only [List.map_cons, List.map_nil, List.sum_cons, List.sum_nil, lineBytes, indentedBytes_lit, hnames, hbits,
    indentedBytes_string, indentedBytes_unsigned, quotedBytes_sha, quotedBytes_rvqName,
    indentedBytes_ofInt floatText 4 (n := extracted.numCodebooks) (by omega) (by omega),
    indentedBytes_ofInt floatText 4 (n := extracted.refT) (by omega) (by omega),
    indentedBytes_ofInt floatText 4 (n := (kRvqCodeBits : Int)) (by decide) (by decide)]
  have hsize : rvqBytes extracted.count < 2 ^ 64 := Nat.lt_of_le_of_lt (rvqBytes_le hbounds hmode) (by decide)
  rw [UInt64.toNat_ofNat', hpacked, Nat.mod_eq_of_lt hsize, ← digits]
  omega

theorem length_manifest (hbounds : Bounds context extracted) (hlow : 0 < context.abiVersion)
    (hhigh : context.abiVersion < 2 ^ 31) (speaker : Bytes) {packed : Bytes}
    (hpacked : context.xVectorOnly = false → packed.length = rvqBytes extracted.count) :
    (manifestJson sha context generation.text extracted speaker packed).indentedBytes floatText 0 + 1 =
      manifestBytes context extracted generation.text := by
  have hdistinct : Distinct ["schema_version", "format", "source_wav_sha256", "reference_text", "x_vector_only",
    "engine", "models", "preprocessing", "speaker", "rvq"] := by decide
  have hnames : ["schema_version", "format", "source_wav_sha256", "reference_text", "x_vector_only", "engine", "models",
      "preprocessing", "speaker", "rvq", "qwen3-tts-native-voice-reference"].map
      (fun s => quotedBytes (CppString.lit s)) = [16, 8, 19, 16, 15, 8, 8, 15, 9, 5, 34] := by decide
  simp only [List.map_cons, List.map_nil, List.cons.injEq, and_true] at hnames
  have hversion : digits kSchemaVersion.toNat = 1 := digits_eq_log (by decide)
  rw [manifestJson, indentedBytes_fields floatText 0 (by exact hdistinct) (List.cons_ne_nil _ _)]
  simp only [List.map_cons, List.map_nil, List.sum_cons, List.sum_nil, lineBytes, indentedBytes_lit, hnames,
    indentedBytes_string, indentedBytes_boolean, indentedBytes_engine floatText hlow hhigh, indentedBytes_models,
    indentedBytes_preprocessing, indentedBytes_speaker floatText sha hbounds speaker, Nat.zero_add,
    indentedBytes_ofInt floatText 2 (n := kSchemaVersion) (by decide) (by decide), hversion, manifestBytes]
  cases hmode : context.xVectorOnly with
  | true =>
    simp only [if_true, indentedBytes_null]
    omega
  | false =>
    simp only [Bool.false_eq_true, if_false, indentedBytes_rvq floatText sha hbounds hmode (hpacked hmode)]
    omega

end Size

/-! ## Strings -/

/-- The strings of the manifest that the context gives. -/
def PreparedContext.strings (context : PreparedContext) : List CppString :=
  [context.sourceAudioSha256, context.referenceText, context.engineCommit, context.talkerSha256, context.codecSha256]

theorem utf8_fields {pairs : List (String × Json)} (h : Distinct (pairs.map Prod.fst)) (hnames : Plain (pairs.map Prod.fst)) :
    (Json.object (JsonObject.fields pairs)).isUtf8 = pairs.all fun p => p.2.isUtf8 := by
  rw [Json.isUtf8, fieldsUtf8_eq_all, (fields_perm h).all_eq, List.all_map]
  rw [Bool.eq_iff_iff, List.all_eq_true, List.all_eq_true]
  refine forall₂_congr fun p hp => ?_
  have hname := List.all_eq_true.mp hnames p.1 (List.mem_map_of_mem hp)
  show (isUtf8 (CppString.lit p.1) && p.2.isUtf8) = true ↔ _
  rw [isUtf8_of_isAscii hname, Bool.true_and]

theorem isAscii_hex {s : CppString} (h : ∀ b ∈ s, isHexOrDash b = true) : isAscii s = true := by
  refine List.all_eq_true.mpr fun b hb => ?_
  have hall : ∀ i : Fin 256, isHexOrDash (UInt8.ofNat i) = true → decide (UInt8.ofNat i < 0x80) = true := by decide +kernel
  have hbyte := hall ⟨b.toNat, b.toNat_lt⟩
  rw [UInt8.ofNat_toNat] at hbyte
  exact hbyte (h b hb)

@[simp] theorem utf8_ofInt (n : Int) : (Json.ofInt n).isUtf8 = true := by
  unfold Json.ofInt
  split <;> rfl

theorem utf8_lit {s : String} (h : isAscii (CppString.lit s) = true) : (Json.lit s).isUtf8 = true := isUtf8_of_isAscii h

theorem utf8_artifactName (generation : Generation) {front tail : CppString} (hfront : isAscii front = true)
    (htail : isAscii tail = true) : isUtf8 (front ++ generation.text ++ tail) = true := by
  rw [List.append_assoc, isUtf8_append_of_isAscii hfront, isUtf8_append_of_isAscii (isAscii_hex generation.hex)]
  exact isUtf8_of_isAscii htail

section Strings

variable (generation : Generation) (sha : Sha256) (context : PreparedContext) (extracted : Extracted) (speaker packed : Bytes)

theorem utf8_speakerName : isUtf8 (speakerName generation.text) = true := utf8_artifactName generation (by rfl) (by rfl)

theorem utf8_rvqName : isUtf8 (rvqName generation.text) = true := utf8_artifactName generation (by rfl) (by rfl)

theorem utf8_engine : (engineJson context).isUtf8 = isUtf8 context.engineCommit := by
  have hdistinct : Distinct ["name", "commit", "abi_version"] := by decide
  have hplain : Plain ["name", "commit", "abi_version"] := by decide
  have hname : (Json.lit "qwentts.cpp").isUtf8 = true := utf8_lit (by decide)
  rw [engineJson, utf8_fields (by exact hdistinct) (by exact hplain)]
  simp only [List.all_cons, List.all_nil, hname, utf8_ofInt, Json.isUtf8, Bool.true_and, Bool.and_true]

theorem utf8_models : (modelsJson context).isUtf8 = (isUtf8 context.talkerSha256 && isUtf8 context.codecSha256) := by
  have hdistinct : Distinct ["talker_sha256", "codec_sha256"] := by decide
  have hplain : Plain ["talker_sha256", "codec_sha256"] := by decide
  rw [modelsJson, utf8_fields (by exact hdistinct) (by exact hplain)]
  simp only [List.all_cons, List.all_nil, Json.isUtf8, Bool.and_true]

theorem utf8_preprocessing : (preprocessingJson context).isUtf8 = true := by
  have hdistinct : Distinct ["version", "sample_rate", "channels", "sample_format", "icl_trailing_silence_samples"] := by
    decide
  have hplain : Plain ["version", "sample_rate", "channels", "sample_format", "icl_trailing_silence_samples"] := by
    decide
  have hformat : (Json.lit "float32").isUtf8 = true := utf8_lit (by decide)
  rw [preprocessingJson, utf8_fields (by exact hdistinct) (by exact hplain)]
  simp only [List.all_cons, List.all_nil, hformat, utf8_ofInt, Bool.and_true]

theorem utf8_speaker : (speakerJson sha generation.text extracted speaker).isUtf8 = true := by
  have hdistinct : Distinct ["path", "dimension", "size_bytes", "sha256", "scalar"] := by decide
  have hplain : Plain ["path", "dimension", "size_bytes", "sha256", "scalar"] := by decide
  have hscalar : (Json.lit "float32-le").isUtf8 = true := utf8_lit (by decide)
  have hhash : isUtf8 (sha.hex speaker) = true := isUtf8_of_isAscii (isAscii_hex (hex_hex sha speaker))
  rw [speakerJson, utf8_fields (by exact hdistinct) (by exact hplain)]
  simp only [List.all_cons, List.all_nil, hscalar, utf8_ofInt, Json.isUtf8, hhash, utf8_speakerName, Bool.and_true]

theorem utf8_rvq : (rvqJson sha generation.text extracted packed).isUtf8 = true := by
  have hdistinct : Distinct ["path", "codebooks", "frames", "bits_per_code", "layout", "size_bytes", "sha256"] := by
    decide
  have hplain : Plain ["path", "codebooks", "frames", "bits_per_code", "layout", "size_bytes", "sha256"] := by
    decide
  have hlayout : (Json.lit "codebook-major-frame-fastest").isUtf8 = true := utf8_lit (by decide)
  have hhash : isUtf8 (sha.hex packed) = true := isUtf8_of_isAscii (isAscii_hex (hex_hex sha packed))
  rw [rvqJson, utf8_fields (by exact hdistinct) (by exact hplain)]
  simp only [List.all_cons, List.all_nil, hlayout, utf8_ofInt, Json.isUtf8, hhash, utf8_rvqName, Bool.and_true]

theorem utf8_manifest : (manifestJson sha context generation.text extracted speaker packed).isUtf8 =
    context.strings.all isUtf8 := by
  have hdistinct : Distinct ["schema_version", "format", "source_wav_sha256", "reference_text", "x_vector_only",
    "engine", "models", "preprocessing", "speaker", "rvq"] := by decide
  have hplain : Plain ["schema_version", "format", "source_wav_sha256", "reference_text", "x_vector_only",
    "engine", "models", "preprocessing", "speaker", "rvq"] := by decide
  have hformat : (Json.lit "qwen3-tts-native-voice-reference").isUtf8 = true := utf8_lit (by decide)
  have hrvq : (if context.xVectorOnly then Json.null else rvqJson sha generation.text extracted packed).isUtf8 = true := by
    cases context.xVectorOnly with
    | true => rfl
    | false => exact utf8_rvq generation sha extracted packed
  have hstring (s : CppString) : (Json.string s).isUtf8 = isUtf8 s := rfl
  have hflag : (Json.boolean context.xVectorOnly).isUtf8 = true := rfl
  rw [manifestJson, utf8_fields (by exact hdistinct) (by exact hplain)]
  simp only [List.all_cons, List.all_nil, hformat, utf8_ofInt, hstring, hflag, hrvq, utf8_engine, utf8_models,
    utf8_preprocessing, utf8_speaker, Bool.true_and, Bool.and_true, PreparedContext.strings]

theorem utf8_marker (manifest : CppString) (xVectorOnly : Bool) :
    (markerJson manifest generation.text xVectorOnly).isUtf8 = isUtf8 manifest := by
  have hdistinct : Distinct ["schema_version", "format", "generation_id", "manifest_path", "speaker_path", "rvq_path"] := by
    decide
  have hplain : Plain ["schema_version", "format", "generation_id", "manifest_path", "speaker_path", "rvq_path"] := by
    decide
  have hformat : (Json.lit "qwen3-tts-native-publication").isUtf8 = true := utf8_lit (by decide)
  have hgeneration : isUtf8 generation.text = true := isUtf8_of_isAscii (isAscii_hex generation.hex)
  have hrvq : isUtf8 (if xVectorOnly then [] else rvqName generation.text) = true := by
    cases xVectorOnly with
    | true => rfl
    | false => exact utf8_rvqName generation
  rw [markerJson, utf8_fields (by exact hdistinct) (by exact hplain)]
  simp only [List.all_cons, List.all_nil, hformat, utf8_ofInt, Json.isUtf8, hgeneration, hrvq, utf8_speakerName,
    Bool.true_and, Bool.and_true]

end Strings

/-! ## Read back -/

theorem canonical_ofInt (n : Int) (hlow : 0 ≤ n) : Json.Canonical (Json.ofInt n) := by
  unfold Json.ofInt
  rw [if_neg (by omega)]
  exact .numberUnsigned _

theorem canonical_manifest (sha : Sha256) (context : PreparedContext) (extracted : Extracted) (generation : CppString)
    (speaker packed : Bytes) (hbounds : Bounds context extracted) (habi : 0 < context.abiVersion) :
    Json.Canonical (manifestJson sha context generation extracted speaker packed) := by
  have hstring (s : CppString) : Json.Canonical (.string s) := .string s
  refine canonical_fields fun p hp => ?_
  simp only [List.mem_cons, List.not_mem_nil, or_false] at hp
  rcases hp with rfl | rfl | rfl | rfl | rfl | rfl | rfl | rfl | rfl | rfl
  · exact canonical_ofInt kSchemaVersion (by decide)
  · exact hstring _
  · exact hstring _
  · exact hstring _
  · exact .boolean _
  · refine canonical_fields fun q hq => ?_
    simp only [List.mem_cons, List.not_mem_nil, or_false] at hq
    rcases hq with rfl | rfl | rfl
    · exact hstring _
    · exact hstring _
    · exact canonical_ofInt _ (Int.le_of_lt habi)
  · refine canonical_fields fun q hq => ?_
    simp only [List.mem_cons, List.not_mem_nil, or_false] at hq
    rcases hq with rfl | rfl
    · exact hstring _
    · exact hstring _
  · refine canonical_fields fun q hq => ?_
    simp only [List.mem_cons, List.not_mem_nil, or_false] at hq
    rcases hq with rfl | rfl | rfl | rfl | rfl
    · exact canonical_ofInt kPreprocessingVersion (by decide)
    · exact canonical_ofInt kSampleRate (by decide)
    · exact canonical_ofInt 1 (by decide)
    · exact hstring _
    · refine canonical_ofInt _ ?_
      unfold expectedSilence
      split <;> decide
  · refine canonical_fields fun q hq => ?_
    simp only [List.mem_cons, List.not_mem_nil, or_false] at hq
    rcases hq with rfl | rfl | rfl | rfl | rfl
    · exact hstring _
    · exact canonical_ofInt _ (Int.le_of_lt hbounds.dimension.1)
    · exact .numberUnsigned _
    · exact hstring _
    · exact hstring _
  · cases hmode : context.xVectorOnly with
    | true => exact .null
    | false =>
      obtain ⟨-, hcodebooks, -, hframes, -⟩ := hbounds.codes hmode
      refine canonical_fields fun q hq => ?_
      simp only [List.mem_cons, List.not_mem_nil, or_false] at hq
      rcases hq with rfl | rfl | rfl | rfl | rfl | rfl | rfl
      · exact hstring _
      · exact canonical_ofInt _ (Int.le_of_lt hcodebooks)
      · exact canonical_ofInt _ (Int.le_of_lt hframes)
      · exact canonical_ofInt (kRvqCodeBits : Int) (by decide)
      · exact hstring _
      · exact .numberUnsigned _
      · exact hstring _

/-- `operator==` of a value that was parsed, and itself. -/
theorem equals_self {v : Json} (h : Json.Canonical v) : Json.equals v v = true := by
  induction h with
  | null => rfl
  | boolean b => simp [Json.equals]
  | numberInteger hneg => simp [Json.equals]
  | numberUnsigned n => simp [Json.equals]
  | numberFloat x => simp [Json.equals]
  | string s => simp [Json.equals]
  | array hitems ih =>
    rename_i items
    rw [Json.equals]
    clear hitems
    induction items with
    | nil => rfl
    | cons v items ihItems =>
      rw [itemsEqual, ih v List.mem_cons_self, ihItems fun w hw => ih w (List.mem_cons_of_mem v hw)]
      rfl
  | object hsorted hfields ih =>
    rename_i fields
    rw [Json.equals]
    clear hsorted hfields
    induction fields with
    | nil => rfl
    | cons p fields ihFields =>
      obtain ⟨k, v⟩ := p
      rw [fieldsEqual, ih (k, v) List.mem_cons_self, ihFields fun q hq => ih q (List.mem_cons_of_mem _ hq)]
      simp

end QwenTtsBridge.Voice.Prepared
