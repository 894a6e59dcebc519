/-
  QwenTtsBridge.Voice.RoundTrip — what was published loads
  (`persist_prepared_voice_reference` and `load_prepared_voice_reference`).

  The writer checks dimensions, codes and strings on its way to the manifest; the reader has
  its own list. The lists differ in one point: the reader takes a manifest of at most
  `kMaxManifestBytes`, and the writer writes it however long it is. And the writer removes
  its marker in the end, whatever has its name by then.

  - `round_trip_iff`: a publication into an empty directory that reaches the rename of its
    manifest can be loaded, with what was extracted, exactly when it `Fits`; and one that
    fails before leaves no file behind.
-/

import QwenTtsBridge.Voice.Undisturbed

namespace QwenTtsBridge.Voice.Prepared

open QwenTtsBridge.Lib QwenTtsBridge.Lib.Interrupt QwenTtsBridge.Lib.WindowsPath QwenTtsBridge.Protocol.Control
open FileNames (key)

/-! ## Artifacts -/

section Artifacts

/-- ASCII, and no separator. -/
def isNameByte (b : UInt8) : Bool := b < 0x80 && !isSep b.toNat

theorem isNameByte_hex {b : UInt8} (h : isHexOrDash b = true) : isNameByte b = true := by
  have hall : ∀ i : Fin 256, isHexOrDash (UInt8.ofNat i) = true → isNameByte (UInt8.ofNat i) = true := by decide +kernel
  have hbyte := hall ⟨b.toNat, b.toNat_lt⟩
  rw [UInt8.ofNat_toNat] at hbyte
  exact hbyte h

theorem segments_name {name : CppString} (h : ∀ b ∈ name, isNameByte b = true) :
    segments (name.map UInt8.toNat) = [name.map UInt8.toNat] := by
  refine List.splitOnP_eq_singleton fun c hc => ?_
  obtain ⟨b, hb, rfl⟩ := List.mem_map.mp hc
  have hbyte := h b hb
  simp only [isNameByte, Bool.and_eq_true, Bool.not_eq_true'] at hbyte
  exact hbyte.2

theorem decode_name {name : CppString} (h : ∀ b ∈ name, isNameByte b = true) :
    Utf8.decode name = some (name.map UInt8.toNat) := by
  refine Utf8.decode_ascii fun b hb => ?_
  have hbyte := h b hb
  simp only [isNameByte, Bool.and_eq_true, decide_eq_true_eq] at hbyte
  exact hbyte.1

theorem encode_name {name : CppString} (h : ∀ b ∈ name, isNameByte b = true) :
    Utf8.encode (name.map UInt8.toNat) = some name := by
  have hsurrogate : (name.map UInt8.toNat).any Utf8.isSurrogate = false := by
    refine List.any_eq_false.mpr fun c hc => ?_
    obtain ⟨b, -, rfl⟩ := List.mem_map.mp hc
    have hlt := b.toNat_lt
    simp only [Utf8.isSurrogate, Bool.and_eq_true, decide_eq_true_eq]
    omega
  rw [Utf8.encode, hsurrogate, Utf8.flatMap_of_decode (decode_name h)]
  rfl

variable [FileNames]

/-- The name of an artifact leads to its file. -/
structure Named (name : CppString) : Prop where
  path : artifactPath name = .ok (name.map UInt8.toNat)
  file : ∀ d : Dir, d.tree.file (name.map UInt8.toNat) = d.file name

theorem named {name middle : CppString} (hname : name = CppString.lit "reference-" ++ middle)
    (h : ∀ b ∈ middle, isNameByte b = true) : Named name := by
  have hreference : ∀ b ∈ CppString.lit "reference-", isNameByte b = true := by decide +kernel
  have hbytes : ∀ b ∈ name, isNameByte b = true := by
    intro b hb
    rw [hname] at hb
    rcases List.mem_append.mp hb with hfront | hmiddle
    · exact hreference b hfront
    · exact h b hmiddle
  have hsegments := segments_name hbytes
  have hhead : name.map UInt8.toNat = 114 :: 101 :: 102 :: (CppString.lit "erence-" ++ middle).map UInt8.toNat := by
    rw [hname]
    rfl
  constructor
  · unfold artifactPath
    rw [decode_name hbytes]
    dsimp only
    rw [if_pos]
    unfold isSafeRelativePath
    rw [hsegments, hhead]
    rfl
  · intro d
    have hend : endsInSep (name.map UInt8.toNat) = false := by
      unfold endsInSep
      cases hlast : (name.map UInt8.toNat).getLast? with
      | none => rfl
      | some c =>
        obtain ⟨b, hb, rfl⟩ := List.mem_map.mp (List.mem_of_getLast? hlast)
        have hbyte := hbytes b hb
        simp only [isNameByte, Bool.and_eq_true, Bool.not_eq_true'] at hbyte
        exact hbyte.2
    have helements : elements (name.map UInt8.toNat) = [name.map UInt8.toNat] := by
      unfold elements
      rw [hsegments, hhead]
      rfl
    unfold Tree.file
    rw [hend, helements]
    show (Utf8.encode (name.map UInt8.toNat)).bind d.file = d.file name
    rw [encode_name hbytes]
    rfl

variable (generation : Generation)

theorem named_speaker : Named (speakerName generation.text) := by
  have hext : ∀ b ∈ CppString.lit ".spk", isNameByte b = true := by decide +kernel
  refine named (List.append_assoc _ _ _) fun b hb => ?_
  rcases List.mem_append.mp hb with hhex | htail
  · exact isNameByte_hex (generation.hex b hhex)
  · exact hext b htail

theorem named_rvq : Named (rvqName generation.text) := by
  have hext : ∀ b ∈ CppString.lit ".rvq", isNameByte b = true := by decide +kernel
  refine named (List.append_assoc _ _ _) fun b hb => ?_
  rcases List.mem_append.mp hb with hhex | htail
  · exact isNameByte_hex (generation.hex b hhex)
  · exact hext b htail

end Artifacts

/-! ## The reader -/

section Fields

variable {object : Json} {name : String} {sha : Sha256}

theorem expectString_ok {s : CppString} (h : object.field name = some (.string s)) (hs : s ≠ []) (what : String) :
    expectString object name s what = .ok () := by
  unfold expectString
  rw [requiredString_some h hs, ok_bind]
  exact refuseIf_false (by simp) what

theorem expectInteger_ok {n : Int} (h : object.field name = some (Json.ofInt n)) (hlow : 0 ≤ n) (hhigh : n < 2 ^ 31)
    (what : String) : expectInteger object name n what = .ok () := by
  unfold expectInteger
  rw [requiredInteger_ofInt h hlow hhigh, ok_bind]
  exact refuseIf_false (by simp) what

theorem at_ok {v : Json} (h : object.field name = some v) : at_ object name = .ok v := by
  unfold at_
  rw [h]

theorem readArtifact_ok [FileNames] {d : Dir} {declaration : Json} {artifact : CppString} {bytes : Bytes} {size maximum : Nat}
    (hpath : declaration.field "path" = some (.string artifact)) (hartifact : artifact ≠ []) (hnamed : Named artifact)
    (hhash : declaration.field "sha256" = some (.string (sha.hex bytes))) (hfile : d.file artifact = some bytes)
    (hlength : bytes.length = size) (hpos : 0 < size) (hmax : size ≤ maximum) (what : String) :
    readArtifact sha d.tree declaration size maximum what = .ok (bytes, sha.hex bytes) := by
  have hread : readBoundedFile d.tree (artifact.map UInt8.toNat) size maximum = .ok bytes := by
    unfold readBoundedFile
    rw [hnamed.file, hfile]
    dsimp only
    rw [if_neg (by omega)]
  unfold readArtifact
  rw [requiredString_some hpath hartifact, ok_bind, hnamed.path, ok_bind, hread, ok_bind,
    requiredString_some hhash (hex_ne_nil sha bytes), ok_bind, refuseIf_false (by simp), ok_bind]

theorem floats_speakerBytes (values : List UInt32) : floats (speakerBytes values) = values.map UInt32.toNat := by
  induction values with
  | nil => rfl
  | cons x values ih =>
    have hbytes := LittleEndian.readLe_writeLe_of_lt (n := 4) x.toNat_lt []
    rw [List.append_nil] at hbytes
    rw [speakerBytes, List.flatMap_cons, ← speakerBytes, List.map_cons]
    obtain ⟨a, b, c, e, hfour⟩ : ∃ a b c e, LittleEndian.writeLe 4 x.toNat = [a, b, c, e] := ⟨_, _, _, _, rfl⟩
    rw [hfour] at hbytes ⊢
    show LittleEndian.readLe 4 [a, b, c, e] :: floats (speakerBytes values) = _
    rw [hbytes, ih]

end Fields

section Load

variable {platform : Platform} {manifest : CppString} {context : PreparedContext} {extracted : Extracted}
  {generation : Generation} {values : List UInt32} {codes : List Int}

/-- What the reader checks of the context itself. -/
structure ContextInOrder (context : PreparedContext) : Prop where
  engineCommit : context.engineCommit ≠ []
  abiVersion : 0 < context.abiVersion
  talkerSha256 : context.talkerSha256 ≠ []
  codecSha256 : context.codecSha256 ≠ []
  sourceAudioSha256 : context.sourceAudioSha256 ≠ []

theorem contextInOrder (h : validateContext context = .ok ()) : ContextInOrder context := by
  simp only [validateContext, refuseIf_ok, Bool.or_eq_false_iff, decide_eq_false_iff_not, bne_eq_false_iff_eq,
    List.isEmpty_eq_false_iff] at h
  obtain ⟨⟨⟨⟨⟨hcommit, habi⟩, -⟩, htalker⟩, hcodec⟩, hsource⟩ := h
  have hlong {s : CppString} (h : s.length = 64) : s ≠ [] := by
    rintro rfl
    cases h
  exact ⟨hcommit, by omega, hlong htalker, hlong hcodec, hlong hsource⟩

theorem checkSource_published {root : Json} {speaker packed : Bytes} (hcontext : ContextInOrder context)
    (hroot : ManifestFields platform.sha context generation.text extracted speaker packed root) :
    checkSource context root = .ok () := by
  have htext : stringValue root "reference_text" [] = .ok context.referenceText := by
    unfold stringValue
    rw [hroot.text]
  have hflag : flagValue root "x_vector_only" (!context.xVectorOnly) = .ok context.xVectorOnly := by
    unfold flagValue
    rw [hroot.flag]
  unfold checkSource
  rw [htext, ok_bind, refuseIf_false (by simp), ok_bind, hflag, ok_bind, refuseIf_false (by simp), ok_bind]
  exact expectString_ok hroot.source hcontext.sourceAudioSha256 _

theorem checkEngine_published {root : Json} {speaker packed : Bytes} (hcontext : ContextInOrder context)
    (habi : context.abiVersion < 2 ^ 31)
    (hroot : ManifestFields platform.sha context generation.text extracted speaker packed root) :
    checkEngine context root = .ok () := by
  have hengine := engineJson_fields context
  unfold checkEngine
  rw [at_ok hroot.engine, ok_bind, refuseIf_false (by rfl), ok_bind, expectString_ok hengine.name (by decide), ok_bind,
    expectString_ok hengine.commit hcontext.engineCommit, ok_bind]
  exact expectInteger_ok hengine.abiVersion (Int.le_of_lt hcontext.abiVersion) habi _

theorem checkModels_published {root : Json} {speaker packed : Bytes} (hcontext : ContextInOrder context)
    (hroot : ManifestFields platform.sha context generation.text extracted speaker packed root) :
    checkModels context root = .ok () := by
  obtain ⟨htalker, hcodec⟩ := modelsJson_fields context
  unfold checkModels
  rw [at_ok hroot.models, ok_bind, refuseIf_false (by rfl), ok_bind, expectString_ok htalker hcontext.talkerSha256, ok_bind]
  exact expectString_ok hcodec hcontext.codecSha256 _

theorem checkPreprocessing_published {root : Json} {speaker packed : Bytes}
    (hroot : ManifestFields platform.sha context generation.text extracted speaker packed root) :
    checkPreprocessing context root = .ok () := by
  have hpreprocessing := preprocessingJson_fields context
  have hsilence : 0 ≤ expectedSilence context ∧ expectedSilence context < 2 ^ 31 := by
    unfold expectedSilence
    split <;> decide
  unfold checkPreprocessing
  rw [at_ok hroot.preprocessing, ok_bind, refuseIf_false (by rfl), ok_bind,
    expectInteger_ok hpreprocessing.version (by decide) (by decide), ok_bind,
    expectInteger_ok hpreprocessing.sampleRate (by decide) (by decide), ok_bind,
    expectInteger_ok hpreprocessing.channels (by decide) (by decide), ok_bind,
    expectInteger_ok hpreprocessing.silence hsilence.1 hsilence.2, ok_bind]
  exact expectString_ok hpreprocessing.sampleFormat (by decide) _

theorem checkIdentity_published {root : Json} {speaker packed : Bytes} (hcontext : ContextInOrder context)
    (habi : context.abiVersion < 2 ^ 31) (hobject : root.isObject = true)
    (hroot : ManifestFields platform.sha context generation.text extracted speaker packed root) :
    checkIdentity context root = .ok () := by
  have hformat : checkFormat root = .ok () := by
    unfold checkFormat
    rw [refuseIf_false (by rw [hobject]; rfl), ok_bind, expectInteger_ok hroot.schema (by decide) (by decide), ok_bind]
    exact expectString_ok hroot.format (by decide) _
  unfold checkIdentity
  rw [hformat, ok_bind, checkSource_published hcontext hroot, ok_bind, checkEngine_published hcontext habi hroot, ok_bind,
    checkModels_published hcontext hroot, ok_bind, checkPreprocessing_published hroot]

theorem length_publishedText (hchecked : Checked context extracted values codes) (hcontext : ContextInOrder context)
    (habi : context.abiVersion < 2 ^ 31) (hrange : ∀ code ∈ codes, InRange code) :
    (publishedText platform context extracted generation.text values codes).length =
      manifestBytes context extracted generation.text := by
  have hlength : context.xVectorOnly = false → (packedCodes context codes).length = rvqBytes extracted.count := by
    intro hmode
    obtain ⟨-, hlength, -⟩ := packedOrThrown_ok hmode hrange
    rw [hlength, (hchecked.codes hmode).2]
  rw [publishedText, List.length_append, ← length_manifest platform.lib.floatText platform.sha hchecked.bounds
    hcontext.abiVersion habi (speakerBytes values) hlength]
  rfl

variable [FileNames] {d : Dir}

theorem loadSpeaker_published (hchecked : Checked context extracted values codes)
    (hfile : d.file (speakerName generation.text) = some (speakerBytes values)) :
    loadSpeaker platform.sha d.tree (speakerJson platform.sha generation.text extracted (speakerBytes values)) =
      .ok (values.map UInt32.toNat, platform.sha.hex (speakerBytes values)) := by
  have hfields := speakerJson_fields platform.sha generation.text extracted (speakerBytes values)
  have hmaxDimension : kMaxSpeakerDimension = 2 ^ 20 := rfl
  have hmaxBytes : kMaxSpeakerBytes = 16 * 1024 * 1024 := rfl
  have hmaxSize : maxSize = 2 ^ 64 - 1 := rfl
  obtain ⟨hpos, hdim⟩ := hchecked.bounds.dimension
  have hlength : (speakerBytes values).length = extracted.refSpkDim.toNat * 4 := by
    rw [length_speakerBytes, hchecked.length]
  have hfinite : ((values.map UInt32.toNat).any fun value => !isfinite value) = false := by
    rw [List.any_map]
    exact hchecked.finite
  unfold loadSpeaker
  rw [requiredInteger_ofInt hfields.dimension (by omega) (by omega), ok_bind, requiredSize_some hfields.size, ok_bind,
    UInt64.toNat_ofNat', Nat.mod_eq_of_lt (by omega), refuseIf_false, ok_bind,
    expectString_ok hfields.scalar (by decide), ok_bind,
    readArtifact_ok hfields.path (List.append_ne_nil_of_right_ne_nil _ (by decide)) (named_speaker generation)
      hfields.hash hfile hlength (by omega) (by omega), ok_bind]
  · dsimp only
    rw [floats_speakerBytes, refuseIf_false hfinite, ok_bind]
  · simp only [Bool.or_eq_false_iff, decide_eq_false_iff_not, bne_self_eq_false, and_true]
    omega

theorem loadCodes_published (hchecked : Checked context extracted values codes) (hmode : context.xVectorOnly = false)
    (hrange : ∀ code ∈ codes, InRange code)
    (hfile : d.file (rvqName generation.text) = some (packedCodes context codes)) :
    loadCodes platform.sha d.tree context (rvqJson platform.sha generation.text extracted (packedCodes context codes)) =
      .ok (codes.map Int.toNat, extracted.refT, platform.sha.hex (packedCodes context codes)) := by
  have hfields := rvqJson_fields platform.sha generation.text extracted (packedCodes context codes)
  have hmaxCodebooks : kMaxRvqCodebooks = 64 := rfl
  have hmaxFrames : kMaxRvqFrames = 2 ^ 20 := rfl
  have hbits : kRvqCodeBits = 11 := rfl
  have hmaxSize : maxSize = 2 ^ 64 - 1 := rfl
  obtain ⟨hsame, hpos, hcodebooks, hframesPos, hframes⟩ := hchecked.bounds.codes hmode
  obtain ⟨-, hlength, hunpack, -⟩ := packedOrThrown_ok hmode hrange
  have hcodesLength := (hchecked.codes hmode).2
  have hcount := count_le hchecked.bounds hmode
  have hsizeMax := rvqBytes_le hchecked.bounds hmode
  have hsizePos := rvqBytes_pos hchecked.bounds hmode
  rw [hcodesLength] at hlength hunpack
  have hsize : (UInt64.ofNat (packedCodes context codes).length).toNat = rvqBytes extracted.count := by
    have hmax : kMaxRvqBytes = 256 * 1024 * 1024 := rfl
    rw [UInt64.toNat_ofNat', hlength, Nat.mod_eq_of_lt (by omega)]
  have hdiv : ¬ maxSize / extracted.refT.toNat < extracted.numCodebooks.toNat := by
    rw [Nat.not_lt, Nat.le_div_iff_mul_le (by omega)]
    exact Nat.le_trans hcount (by decide)
  unfold loadCodes
  rw [requiredInteger_ofInt hfields.codebooks (by omega) (by omega), ok_bind,
    requiredInteger_ofInt hfields.frames (by omega) (by omega), ok_bind,
    requiredInteger_ofInt hfields.bits (by decide) (by decide), ok_bind, refuseIf_false, ok_bind,
    expectString_ok hfields.layout (by decide), ok_bind, refuseIf_false (decide_eq_false hdiv), ok_bind]
  · dsimp only
    rw [← Extracted.count, refuseIf_false, ok_bind, requiredSize_some hfields.size, ok_bind, hsize, refuseIf_false, ok_bind,
      readArtifact_ok hfields.path (List.append_ne_nil_of_right_ne_nil _ (by decide)) (named_rvq generation)
        hfields.hash hfile hlength (by omega) hsizeMax, ok_bind]
    · dsimp only
      rw [hunpack, ok_bind]
    · simp only [Bool.or_eq_false_iff, decide_eq_false_iff_not, bne_self_eq_false, true_and]
      omega
    · refine decide_eq_false (Nat.not_lt.mpr (Nat.le_trans hcount ?_))
      decide
  · simp only [hsame, Bool.or_eq_false_iff, decide_eq_false_iff_not, bne_self_eq_false, true_and, and_true]
    omega

/-- What was extracted, as the reader gives it back. -/
structure Restored (context : PreparedContext) (extracted : Extracted) (data : PreparedData) : Prop where
  embedding : ∃ values, extracted.refSpkEmb = some values ∧ data.speakerEmbedding = values.map UInt32.toNat
  codebooks : data.numCodebooks = context.numCodebooks
  none : context.xVectorOnly = true → data.codes = [] ∧ data.frames = 0
  codes : context.xVectorOnly = false → data.numCodebooks = extracted.numCodebooks ∧ data.frames = extracted.refT ∧
    ∃ codes, extracted.refCodes = some codes ∧ data.codes.map Int.ofNat = codes

theorem readManifest_published (hworking : Working platform context extracted generation.text)
    (hadmissible : Admissible manifest context extracted values codes) (habi : context.abiVersion < 2 ^ 31)
    (hfits : manifestBytes context extracted generation.text ≤ kMaxManifestBytes) :
    readManifest platform.lib (some (publishedText platform context extracted generation.text values codes)) =
      .ok (publishedJson platform.sha context extracted generation.text values codes) := by
  have hchecked := checked_of_ok hadmissible.checked
  have hcontext := contextInOrder hadmissible.valid
  obtain ⟨-, hparse⟩ := parse_published hworking hchecked hcontext.abiVersion hadmissible.writable.strings
  have hlength : (publishedText platform context extracted generation.text values codes).length = _ :=
    length_publishedText hchecked hcontext habi hadmissible.writable.codes
  unfold readManifest
  dsimp only
  rw [if_neg (by omega), hparse]

/-- What the directory of a publication holds loads, if the manifest is short enough. -/
theorem load_published (hworking : Working platform context extracted generation.text)
    (hadmissible : Admissible manifest context extracted values codes) (habi : context.abiVersion < 2 ^ 31)
    (hfits : manifestBytes context extracted generation.text ≤ kMaxManifestBytes)
    (hmanifest : d.file manifest = some (publishedText platform context extracted generation.text values codes))
    (hspeaker : d.file (speakerName generation.text) = some (speakerBytes values))
    (hrvq : context.xVectorOnly = false → d.file (rvqName generation.text) = some (packedCodes context codes)) :
    ∃ data, loadPreparedVoiceReference platform.lib platform.sha context (d.file manifest) d.tree = .ok data ∧
      Restored context extracted data := by
  have hchecked := checked_of_ok hadmissible.checked
  have hcontext := contextInOrder hadmissible.valid
  have hroot := manifestJson_fields platform.sha context generation.text extracted (speakerBytes values)
    (packedCodes context codes)
  have hembedding : ∃ values', extracted.refSpkEmb = some values' ∧ values.map UInt32.toNat = values'.map UInt32.toNat :=
    ⟨values, hchecked.embedding, rfl⟩
  have hread := readManifest_published hworking hadmissible habi hfits
  rw [publishedJson] at hread
  unfold loadPreparedVoiceReference
  rw [hadmissible.valid, ok_bind, hmanifest, hread, ok_bind, checkIdentity_published hcontext habi (by rfl) hroot, ok_bind,
    at_ok hroot.speaker, ok_bind, loadSpeaker_published hchecked hspeaker, ok_bind]
  dsimp only
  unfold loadRvq
  rw [hroot.rvq]
  cases hmode : context.xVectorOnly with
  | true => exact ⟨_, rfl, hembedding, rfl, fun _ => ⟨rfl, rfl⟩, by simp [hmode]⟩
  | false =>
    obtain ⟨hcodes, -⟩ := hchecked.codes hmode
    obtain ⟨-, -, -, hsame⟩ := packedOrThrown_ok hmode hadmissible.writable.codes
    have hload : loadCodes platform.sha d.tree context
        (rvqJson platform.sha generation.text extracted (packedCodes context codes)) = _ :=
      loadCodes_published hchecked hmode hadmissible.writable.codes (hrvq hmode)
    rw [if_neg Bool.false_ne_true, if_neg Bool.false_ne_true]
    dsimp only [rvqJson] at hload ⊢
    rw [hload, ok_bind]
    refine ⟨_, rfl, hembedding, rfl, by simp [hmode], fun _ => ⟨?_, rfl, codes, hcodes, hsame⟩⟩
    exact (hchecked.bounds.codes hmode).1.symm

/-- Nothing else loads: the reader refuses a longer manifest. -/
theorem load_too_long (hadmissible : Admissible manifest context extracted values codes) (habi : context.abiVersion < 2 ^ 31)
    (hlong : kMaxManifestBytes < manifestBytes context extracted generation.text)
    (hmanifest : d.file manifest = some (publishedText platform context extracted generation.text values codes)) :
    ∃ e, loadPreparedVoiceReference platform.lib platform.sha context (d.file manifest) d.tree = .error e := by
  have hlength : (publishedText platform context extracted generation.text values codes).length = _ :=
    length_publishedText (checked_of_ok hadmissible.checked) (contextInOrder hadmissible.valid) habi hadmissible.writable.codes
  have hread : readManifest platform.lib (some (publishedText platform context extracted generation.text values codes)) =
      refuse "invalid prepared voice manifest: prepared voice manifest is too large: " := by
    unfold readManifest
    dsimp only
    rw [if_pos (by omega)]
  refine ⟨.runtimeError (CppString.lit "invalid prepared voice manifest: prepared voice manifest is too large: "), ?_⟩
  unfold loadPreparedVoiceReference
  rw [hadmissible.valid, ok_bind, hmanifest, hread]
  rfl

theorem load_missing (hvalid : validateContext context = .ok ()) (hmanifest : d.file manifest = none) :
    ∃ e, loadPreparedVoiceReference platform.lib platform.sha context (d.file manifest) d.tree = .error e := by
  refine ⟨.runtimeError (CppString.lit "invalid prepared voice manifest: prepared voice manifest is missing: "), ?_⟩
  unfold loadPreparedVoiceReference
  rw [hvalid, ok_bind, hmanifest]
  rfl

/-! ## The round trip -/

/-- What the directory holds in the end. -/
def released (d : Dir) : Dir := (d.set markerName none).set lockName none

theorem calm_remove {E : PreparedError → Dir → Prop} (hd : NoDirs d) (name : CppString) :
    Calm (fun _ d' => d' = d.set name none) E (removeIfExists name) d := by
  refine Calm.attempt (E := fun _ _ => False) (calm_change_ok ?_ rfl) fun _ _ => False.elim
  rw [hd name]
  rfl

theorem calm_afterRename {E : PreparedError → Dir → Prop} (hd : NoDirs d) :
    Calm (fun _ d' => d' = d.set markerName none) E (afterRename manifest context generation.text) d :=
  Calm.attempt (E := fun _ _ => False) (calm_hooked (calm_remove hd markerName)) fun _ _ => False.elim

theorem after_afterCommit (hd : NoDirs d) :
    (afterCommit platform manifest context generation.text).after undisturbed d = released d := by
  have hmarker : NoDirs (d.set markerName none) := hd.set markerName fun _ h => by cases h
  have hload : Calm (fun _ d' => d' = d.set markerName none) (fun _ d' => d' = d.set markerName none)
      (loadHere platform manifest context) (d.set markerName none) :=
    calm_look (fun _ _ => rfl) fun _ _ => rfl
  have hrest : Calm (fun _ d' => d' = d.set markerName none) (fun _ d' => d' = d.set markerName none)
      (do afterRename manifest context generation.text; loadHere platform manifest context) d := by
    refine (calm_afterRename hd).bind fun _ d' hd' => ?_
    subst hd'
    exact hload
  refine Calm.after (P := fun d' => d' = released d) (hrest.ensure ?_ ?_)
  · intro _ d' hd'
    subst hd'
    exact calm_remove hmarker lockName
  · intro _ d' hd'
    subst hd'
    exact calm_remove hmarker lockName

theorem released_file {name : CppString} (hmarker : key name ≠ key markerName) (hlock : key name ≠ key lockName) :
    (released d).file name = d.file name := by
  rw [released, file_set_ne hlock, file_set_ne hmarker]

end Load

section RoundTrip

variable [FileNames] (platform : Platform) (manifest : CppString) (context : PreparedContext) (extracted : Extracted)
  (generation : CppString)

/-- Undisturbed, in an empty directory, the manifest is renamed. -/
def Reaches : Prop := ∃ d, Completes (untilCommit platform manifest context extracted generation) empty (.value ()) d

def finalDir : Dir := (persistPreparedVoiceReference platform manifest context extracted generation).after undisturbed empty

/-- The directory loads for the same context, with what was extracted. -/
def RoundTrips : Prop :=
  ∃ data, loadPreparedVoiceReference platform.lib platform.sha context
      ((finalDir platform manifest context extracted generation).file manifest)
      (finalDir platform manifest context extracted generation).tree = .ok data ∧ Restored context extracted data

/-- The manifest is as long as the reader takes it, and its file is not that of the marker. -/
def Fits : Prop := manifestBytes context extracted generation ≤ kMaxManifestBytes ∧ key manifest ≠ key markerName

end RoundTrip

section RoundTrip

variable [FileNames] {platform : Platform} {manifest : CppString} {context : PreparedContext} {extracted : Extracted}
  {generation : Generation}

theorem reaches_iff (hworking : Working platform context extracted generation.text)
    (hfresh : ¬ generation.text <:+: key manifest) :
    Reaches platform manifest context extracted generation.text ↔
      ∃ values codes, Admissible manifest context extracted values codes := by
  have hcalm := untilCommit_calm hworking (apart generation hfresh)
  constructor
  · rintro ⟨d, hrun⟩
    obtain ⟨values, codes, hadmissible, -⟩ := hcalm.of_completes hrun
    exact ⟨values, codes, hadmissible⟩
  · rintro ⟨values, codes, hadmissible⟩
    obtain ⟨x, d, hrun, hmeets⟩ := hcalm
    cases x with
    | value u => exact ⟨d, hrun⟩
    | thrown e => exact (hmeets values codes hadmissible).elim
    | killed => exact hmeets.elim

theorem roundTrips_iff (hworking : Working platform context extracted generation.text) (habi : context.abiVersion < 2 ^ 31)
    (hfresh : ¬ generation.text <:+: key manifest) (hreaches : Reaches platform manifest context extracted generation.text) :
    RoundTrips platform manifest context extracted generation.text ↔ Fits manifest context extracted generation.text := by
  obtain ⟨d, hrun⟩ := hreaches
  obtain ⟨values, codes, hadmissible, hholds⟩ := (untilCommit_calm hworking (apart generation hfresh)).of_completes hrun
  have hfinal : finalDir platform manifest context extracted generation.text = released d := by
    unfold finalDir Prog.after
    rw [persist_continues platform manifest context extracted generation.text undisturbed empty () d undisturbed hrun]
    exact after_afterCommit hholds.noDirs
  unfold RoundTrips
  rw [hfinal]
  by_cases hmarker : key manifest = key markerName
  · -- the marker is removed, and so is the manifest
    have hgone : (released d).file manifest = none := by
      rw [released, file_set_ne hadmissible.lock, file_of_key hmarker, file_set_self]
    obtain ⟨e, he⟩ : ∃ e, loadPreparedVoiceReference platform.lib platform.sha context ((released d).file manifest)
      (released d).tree = .error e := load_missing hadmissible.valid hgone
    refine ⟨fun ⟨data, hdata, _⟩ => ?_, fun hfits => absurd hmarker hfits.2⟩
    rw [he] at hdata
    cases hdata
  have hmanifest : (released d).file manifest = _ := (released_file hmarker hadmissible.lock).trans hholds.manifestFile
  obtain ⟨hspeakerMarker, hrvqMarker⟩ := artifact_ne generation (.inl rfl)
  obtain ⟨hspeakerLock, hrvqLock⟩ := artifact_ne generation (.inr rfl)
  by_cases hfits : manifestBytes context extracted generation.text ≤ kMaxManifestBytes
  · have hload := load_published hworking hadmissible habi hfits hmanifest
      ((released_file hspeakerMarker hspeakerLock).trans hholds.speakerFile)
      fun hmode => (released_file hrvqMarker hrvqLock).trans (hholds.rvqFile hmode)
    exact ⟨fun _ => ⟨hfits, hmarker⟩, fun _ => hload⟩
  · obtain ⟨e, he⟩ := load_too_long hadmissible habi (Nat.lt_of_not_le hfits) hmanifest
    refine ⟨fun ⟨data, hdata, _⟩ => ?_, fun h => absurd h.1 hfits⟩
    rw [he] at hdata
    cases hdata

/-- A publication that reaches the rename of a manifest that fits returns. -/
theorem persist_returns (hworking : Working platform context extracted generation.text) (habi : context.abiVersion < 2 ^ 31)
    (hfresh : ¬ generation.text <:+: key manifest) (hreaches : Reaches platform manifest context extracted generation.text)
    (hfits : Fits manifest context extracted generation.text) :
    ∃ data d, Completes (persistPreparedVoiceReference platform manifest context extracted generation.text) empty
      (.value data) d := by
  obtain ⟨d, hrun⟩ := hreaches
  obtain ⟨values, codes, hadmissible, hholds⟩ := (untilCommit_calm hworking (apart generation hfresh)).of_completes hrun
  obtain ⟨hspeaker, hrvq⟩ := artifact_ne generation (.inl rfl)
  have hmarker : NoDirs (d.set markerName none) := hholds.noDirs.set markerName fun _ h => by cases h
  obtain ⟨data, hload, -⟩ := load_published (d := d.set markerName none) hworking hadmissible habi hfits.1
    ((file_set_ne hfits.2 none).trans hholds.manifestFile) ((file_set_ne hspeaker none).trans hholds.speakerFile)
    fun hmode => (file_set_ne hrvq none).trans (hholds.rvqFile hmode)
  have hrest : Calm (fun _ d' => d' = d.set markerName none) (fun _ _ => False)
      (do afterRename manifest context generation.text; loadHere platform manifest context) d := by
    refine (calm_afterRename hholds.noDirs).bind fun _ d' hd' => ?_
    subst hd'
    exact calm_look_ok hload rfl
  have hafter : Calm (fun _ _ => True) (fun _ _ => False) (afterCommit platform manifest context generation.text) d := by
    refine hrest.ensure (fun _ d' hd' => ?_) fun _ _ => False.elim
    subst hd'
    exact (calm_remove hmarker lockName).mono (fun _ _ _ => trivial) fun _ _ h => h
  obtain ⟨x, d', hcompletes, hmeets⟩ := hafter
  cases x with
  | value data =>
    refine ⟨data, d', ?_⟩
    exact (persist_continues platform manifest context extracted generation.text undisturbed empty () d undisturbed hrun).trans
      hcompletes
  | thrown e => exact hmeets.elim
  | killed => exact hmeets.elim

/-- The writer takes whatever the reader takes, and more: a longer manifest, and the marker's
    name. What fails before the manifest is renamed leaves no file that was not there. -/
theorem round_trip_iff (hworking : Working platform context extracted generation.text) (habi : context.abiVersion < 2 ^ 31)
    (hfresh : ¬ generation.text <:+: key manifest) :
    (Reaches platform manifest context extracted generation.text →
      (RoundTrips platform manifest context extracted generation.text ↔ Fits manifest context extracted generation.text)) ∧
    ∀ d, Undone (NewOnly [] d) (untilCommit platform manifest context extracted generation.text)
      (persistPreparedVoiceReference platform manifest context extracted generation.text) d :=
  ⟨roundTrips_iff hworking habi hfresh, persist_undone platform manifest context extracted generation.text⟩

end RoundTrip

/-! ## A voice of one number and one code -/

section Sample

/-- A capital ASCII letter counts as its small one. -/
def lowerCase (b : UInt8) : UInt8 := if 65 ≤ b ∧ b ≤ 90 then b + 32 else b

theorem map_lowerCase {name : CppString} (h : name.all isFolded = true) : name.map lowerCase = name := by
  have hsame : name.map lowerCase = name.map id := by
    refine List.map_congr_left fun b hb => ?_
    have hfolded := List.all_eq_true.mp h b hb
    simp only [isFolded, Bool.or_eq_true, Bool.and_eq_true, decide_eq_true_eq, beq_iff_eq, UInt8.le_iff_toNat_le,
      ← UInt8.toNat_inj, UInt8.reduceToNat] at hfolded
    rw [lowerCase, if_neg, id_eq]
    simp only [UInt8.le_iff_toNat_le, UInt8.reduceToNat]
    omega
  rw [hsame, List.map_id]

/-- A file system that folds the case of ASCII letters. -/
instance caseless : FileNames where
  key name := name.map lowerCase
  key_folded _ h := map_lowerCase h.1
  key_append front tail h _ := ⟨front.map lowerCase, by rw [List.map_append, map_lowerCase h.1]⟩

theorem Checked.unique {context : PreparedContext} {extracted : Extracted} {values values' : List UInt32}
    {codes codes' : List Int} (h : Checked context extracted values codes) (h' : Checked context extracted values' codes') :
    values = values' ∧ codes = codes' := by
  refine ⟨Option.some.inj (h.embedding.symm.trans h'.embedding), ?_⟩
  cases hmode : context.xVectorOnly with
  | true => rw [h.none hmode, h'.none hmode]
  | false => exact Option.some.inj ((h.codes hmode).1.symm.trans (h'.codes hmode).1)

/-- SHA-256 of the float 1 and of the code 5. -/
def sampleSha : Sha256 where
  digest bytes :=
    if bytes = [0, 0, 128, 63] then
      [224, 14, 94, 185, 68, 65, 130, 243, 82, 50, 51, 116, 239, 78, 8, 235,
        203, 120, 71, 37, 253, 212, 253, 97, 45, 119, 48, 84, 11, 62, 12, 140]
    else
      [41, 33, 161, 31, 37, 218, 218, 162, 74, 167, 154, 84, 142, 78, 129, 80,
        140, 46, 94, 86, 175, 45, 131, 61, 101, 226, 188, 206, 68, 140, 226, 245]
  length_digest bytes := by split_ifs <;> rfl

/-- A library that reads this value. -/
def samplePlatform (root : Json) : Platform where
  sha := sampleSha
  dumpIndented v := if v.isUtf8 then .ok (v.indented (fun _ => []) 0) else .error (.typeError (CppString.lit "invalid UTF-8 byte"))
  lib := { JsonLibrary.reading [] with
    parse text :=
      if text = root.indented (fun _ => []) 0 ++ [10] then .ok root
      else .error (.parseError (CppString.lit "syntax error")) }

theorem serializes_sample (root : Json) : (samplePlatform root).lib.Serializes where
  utf8 v hv := if_pos hv
  illFormed v hv := ⟨.typeError (CppString.lit "invalid UTF-8 byte"), if_neg (by rw [hv]; decide)⟩

theorem documented_sample (root : Json) : (samplePlatform root).Documented root where
  utf8 hutf8 := if_pos hutf8
  illFormed hutf8 := ⟨.typeError (CppString.lit "invalid UTF-8 byte"), if_neg (by rw [hutf8]; decide)⟩
  readsBack _ _ := if_pos rfl

def sampleExtracted : Extracted where
  refSpkEmb := some [0x3f800000]
  refSpkDim := 1
  refCodes := some [5]
  refT := 1
  numCodebooks := 1
  length_emb values h _ := by
    cases h
    rfl
  length_codes codes h _ _ := by
    cases h
    rfl

def sampleContext (referenceText : CppString) : PreparedContext where
  referenceText := referenceText
  xVectorOnly := false
  sourceAudioSha256 := List.replicate 64 97
  talkerSha256 := List.replicate 64 98
  codecSha256 := List.replicate 64 99
  engineCommit := CppString.lit "c0ffee"
  abiVersion := 6
  numCodebooks := 1

def sampleGeneration : Generation where
  text := CppString.lit "1a-2b-3c-4d-0"
  hex := by decide +kernel
  dashes := by decide +kernel
  short := by decide +kernel

def sampleRoot (referenceText : CppString) : Json :=
  publishedJson sampleSha (sampleContext referenceText) sampleExtracted sampleGeneration.text [0x3f800000] [5]

variable (referenceText : CppString)

theorem checkExtracted_sample : checkExtracted (sampleContext referenceText) sampleExtracted = .ok ([0x3f800000], [5]) := by
  rfl

theorem working_sample : Working (samplePlatform (sampleRoot referenceText)) (sampleContext referenceText) sampleExtracted
    sampleGeneration.text := by
  refine ⟨serializes_sample _, fun values codes hchecked => ?_⟩
  obtain ⟨rfl, rfl⟩ := (checked_of_ok (checkExtracted_sample referenceText)).unique hchecked
  exact documented_sample (sampleRoot referenceText)

theorem admissible_sample {manifest : CppString} (hmanifest : isUtf8 manifest = true) (hlock : key manifest ≠ key lockName)
    (htext : isUtf8 referenceText = true) :
    Admissible manifest (sampleContext referenceText) sampleExtracted [0x3f800000] [5] := by
  have hstrings : [List.replicate 64 97, CppString.lit "c0ffee", List.replicate 64 98, List.replicate 64 99].all isUtf8 =
      true := by decide +kernel
  simp only [List.all_cons, List.all_nil, Bool.and_eq_true, Bool.and_true] at hstrings
  obtain ⟨hsource, hcommit, htalker, hcodec⟩ := hstrings
  refine ⟨by rfl, checkExtracted_sample referenceText, hlock, ?_, hmanifest, ?_⟩
  · intro code hcode
    rw [List.mem_singleton.mp hcode]
    exact ⟨by decide, by decide⟩
  · simp only [PreparedContext.strings, sampleContext, List.all_cons, List.all_nil, hsource, htext, hcommit, htalker, hcodec,
      Bool.and_true]

variable {referenceText}

theorem reaches_sample (manifest : CppString) (hmanifest : isUtf8 manifest = true) (hlock : key manifest ≠ key lockName)
    (hfresh : ¬ sampleGeneration.text <:+: key manifest) (htext : isUtf8 referenceText = true) :
    Reaches (samplePlatform (sampleRoot referenceText)) manifest (sampleContext referenceText) sampleExtracted
      sampleGeneration.text :=
  (reaches_iff (working_sample referenceText) hfresh).mpr
    ⟨[0x3f800000], [5], admissible_sample referenceText hmanifest hlock htext⟩

theorem a_short_text_round_trips :
    Reaches (samplePlatform (sampleRoot (CppString.lit "hello"))) (CppString.lit "voice.json")
      (sampleContext (CppString.lit "hello")) sampleExtracted sampleGeneration.text ∧
    RoundTrips (samplePlatform (sampleRoot (CppString.lit "hello"))) (CppString.lit "voice.json")
      (sampleContext (CppString.lit "hello")) sampleExtracted sampleGeneration.text := by
  have hfresh : ¬ sampleGeneration.text <:+: key (CppString.lit "voice.json") := by decide +kernel
  have hreaches := reaches_sample (CppString.lit "voice.json") (by decide +kernel) (by decide +kernel) hfresh
    (by decide +kernel : isUtf8 (CppString.lit "hello") = true)
  have hfits : Fits (CppString.lit "voice.json") (sampleContext (CppString.lit "hello")) sampleExtracted
      sampleGeneration.text := ⟨by decide +kernel, by decide +kernel⟩
  exact ⟨hreaches, ((round_trip_iff (working_sample _) (by decide) hfresh).1 hreaches).mpr hfits⟩

/-- The publication returns, and what it leaves loads. -/
theorem a_short_text_is_committed :
    ∃ data d, Completes (persistPreparedVoiceReference (samplePlatform (sampleRoot (CppString.lit "hello")))
        (CppString.lit "voice.json") (sampleContext (CppString.lit "hello")) sampleExtracted sampleGeneration.text) empty
        (.value data) d ∧
      Committed (samplePlatform (sampleRoot (CppString.lit "hello"))) (CppString.lit "voice.json")
        (sampleContext (CppString.lit "hello")) sampleExtracted sampleGeneration.text data d := by
  have hfresh : ¬ sampleGeneration.text <:+: key (CppString.lit "voice.json") := by decide +kernel
  have hreaches := reaches_sample (CppString.lit "voice.json") (by decide +kernel) (by decide +kernel) hfresh
    (by decide +kernel : isUtf8 (CppString.lit "hello") = true)
  have hmarker : key (CppString.lit "voice.json") ≠ key markerName := by decide +kernel
  obtain ⟨data, d, hrun⟩ := persist_returns (working_sample _) (by decide) hfresh hreaches ⟨by decide +kernel, hmarker⟩
  exact ⟨data, d, hrun, Safe.of_completes (persist_committed hmarker (by decide +kernel)) hrun⟩

/-- A reference text of one mebibyte; and a manifest that is called like the marker, or so but
    for the case. -/
theorem a_long_text_does_not_load :
    (Reaches (samplePlatform (sampleRoot (List.replicate 1048576 97))) (CppString.lit "voice.json")
      (sampleContext (List.replicate 1048576 97)) sampleExtracted sampleGeneration.text ∧
    ¬ RoundTrips (samplePlatform (sampleRoot (List.replicate 1048576 97))) (CppString.lit "voice.json")
      (sampleContext (List.replicate 1048576 97)) sampleExtracted sampleGeneration.text) ∧
    ∀ manifest ∈ [markerName, CppString.lit ".QTB-publication.incomplete"],
      Reaches (samplePlatform (sampleRoot (CppString.lit "hello"))) manifest (sampleContext (CppString.lit "hello"))
        sampleExtracted sampleGeneration.text ∧
      ¬ RoundTrips (samplePlatform (sampleRoot (CppString.lit "hello"))) manifest (sampleContext (CppString.lit "hello"))
        sampleExtracted sampleGeneration.text := by
  refine ⟨?_, ?_⟩
  · have hfresh : ¬ sampleGeneration.text <:+: key (CppString.lit "voice.json") := by decide +kernel
    have hascii : isUtf8 (List.replicate 1048576 97) = true := isUtf8_of_isAscii (List.all_eq_true.mpr fun b hb => by
      rw [List.eq_of_mem_replicate hb]
      decide)
    have hreaches := reaches_sample (CppString.lit "voice.json") (by decide +kernel) (by decide +kernel) hfresh hascii
    refine ⟨hreaches, fun h => ?_⟩
    obtain ⟨hlength, -⟩ := (roundTrips_iff (working_sample _) (by decide) hfresh hreaches).mp h
    have hquoted := length_le_quotedBytes (List.replicate 1048576 97)
    rw [List.length_replicate] at hquoted
    have hmax : kMaxManifestBytes = 1048576 := rfl
    have htext : (sampleContext (List.replicate 1048576 97)).referenceText = List.replicate 1048576 97 := rfl
    rw [manifestBytes, htext] at hlength
    omega
  · intro manifest hmanifest
    have hmarker : key manifest = key markerName := by
      revert manifest
      decide +kernel
    have hfresh : ¬ sampleGeneration.text <:+: key manifest := by
      rw [hmarker]
      decide +kernel
    have hlock : key manifest ≠ key lockName := by
      rw [hmarker]
      decide +kernel
    have hutf8 : isUtf8 manifest = true := by
      revert manifest
      decide +kernel
    have hreaches := reaches_sample manifest hutf8 hlock hfresh (by decide +kernel : isUtf8 (CppString.lit "hello") = true)
    exact ⟨hreaches, fun h => ((roundTrips_iff (working_sample _) (by decide) hfresh hreaches).mp h).2 hmarker⟩

end Sample

end QwenTtsBridge.Voice.Prepared
