/-
  QwenTtsBridge.Voice.Undisturbed — a publication into an empty directory, of which no step
  fails.

  It reaches the rename of the manifest exactly when its input is `Admissible`
  (`untilCommit_calm`), and then the directory holds what was extracted, in full
  (`InPlace`).
-/

import QwenTtsBridge.Voice.CleanUp
import QwenTtsBridge.Voice.ManifestText

namespace QwenTtsBridge.Voice.Prepared

open QwenTtsBridge.Lib QwenTtsBridge.Lib.Interrupt QwenTtsBridge.Protocol.Control
open FileNames (key)

/-! ## Steps -/

section Steps

variable {α : Type} {d : Dir} {E : PreparedError → Dir → Prop}

theorem calm_look_ok {Q : α → Dir → Prop} {f : Dir → Outcome α} {a : α} (h : f d = .ok a) (hQ : Q a d) :
    Calm Q E (look f) d := by
  refine calm_look (fun b hb => ?_) fun e he => ?_
  · rw [h] at hb
    cases hb
    exact hQ
  · rw [h] at he
    cases he

theorem calm_hook {Q : Dir → Prop} (h : Q d) : Calm (fun _ => Q) E hook d := calm_look_ok rfl h

theorem calm_change_ok {Q : Unit → Dir → Prop} {f : Dir → Outcome Dir} {d' : Dir} (h : f d = .ok d') (hQ : Q () d') :
    Calm Q E (change f) d := by
  refine calm_change (fun d'' hd'' => ?_) fun e he => ?_
  · rw [h] at hd''
    cases hd''
    exact hQ
  · rw [h] at he
    cases he

variable [FileNames]

def NoDirs (d : Dir) : Prop := ∀ name, d.isDirectory name = false

/-- One file was written. -/
structure Put (name : CppString) (bytes : Bytes) (d d' : Dir) : Prop where
  noDirs : NoDirs d'
  file : d'.file name = some bytes
  other : ∀ other, key other ≠ key name → d'.file other = d.file other

/-- One file has another name. -/
structure Moved (source target : CppString) (bytes : Bytes) (d d' : Dir) : Prop where
  noDirs : NoDirs d'
  file : d'.file target = some bytes
  other : ∀ other, key other ≠ key source → key other ≠ key target → d'.file other = d.file other

theorem isDirectory_of_key {name other : CppString} (h : key other = key name) : d.isDirectory other = d.isDirectory name := by
  unfold Dir.isDirectory Dir.entry
  rw [h]

theorem NoDirs.set (h : NoDirs d) (name : CppString) {entry : Option Entry} (hentry : ∀ files, entry ≠ some (.directory files)) :
    NoDirs (d.set name entry) := by
  intro other
  by_cases hother : key other = key name
  · rw [isDirectory_of_key hother]
    unfold Dir.isDirectory
    rw [Dir.entry_set_self]
    split
    · exact absurd rfl (hentry _)
    · rfl
  · unfold Dir.isDirectory
    rw [Dir.entry_set_ne _ hother]
    exact h other

theorem calm_writeBytes (h : NoDirs d) (name : CppString) (bytes : Bytes) :
    Calm (fun _ => Put name bytes d) E (writeBytes name bytes) d := by
  unfold writeBytes
  refine Calm.bind (Q := fun _ d' => d' = d.set name (some (.file []))) ?_ fun _ d' hd' => ?_
  · exact calm_change_ok (by rw [h name]; rfl) rfl
  · subst hd'
    have hfile (bytes : Bytes) (files : CppString → Option Bytes) :
        some (Entry.file bytes) ≠ some (.directory files) := fun h => by cases h
    refine calm_change_ok rfl ⟨(h.set name (hfile [])).set name (hfile bytes), file_set_self _ _ _, ?_⟩
    intro other hother
    rw [file_set_ne hother, file_set_ne hother]

theorem calm_rename (h : NoDirs d) {source : CppString} (target : CppString) {bytes : Bytes} (hsource : d.file source = some bytes) :
    Calm (fun _ => Moved source target bytes d) E (rename source target) d := by
  have hentry : d.entry source = some (.file bytes) := by
    unfold Dir.file at hsource
    split at hsource
    · rename_i hentry
      cases hsource
      exact hentry
    · cases hsource
  have hrenamed : (if d.isDirectory target then .error .systemError
      else .ok ((d.set source none).set target (some (.file bytes))) : Outcome Dir) =
        .ok ((d.set source none).set target (some (.file bytes))) := by
    rw [h target]
    rfl
  unfold rename
  refine calm_change_ok (by rw [hentry]; exact hrenamed) ⟨?_, file_set_self _ _ _, ?_⟩
  · exact (h.set source fun _ h => by cases h).set target fun _ h => by cases h
  · intro other hs ht
    rw [file_set_ne ht, file_set_ne hs]

end Steps

/-! ## Names -/

section Names

theorem folded_append {front tail : CppString} (hfront : front.all isFolded = true) (htail : Folded tail) (hne : tail ≠ []) :
    Folded (front ++ tail) := by
  refine ⟨?_, ?_⟩
  · rw [List.all_append, hfront, htail.1, Bool.true_and]
  · rw [List.getLast?_append, List.getLast?_eq_some_getLast hne, Option.some_or, ← List.getLast?_eq_some_getLast hne]
    exact htail.2

/-- The names of the artifacts and their temporary names are in lower case. -/
theorem folded_names (generation : Generation) : Folded (speakerName generation.text) ∧ Folded (rvqName generation.text) ∧
    Folded (speakerTemp generation.text) ∧ Folded (rvqTemp generation.text) := by
  have hfront : (CppString.lit "reference-" ++ generation.text).all isFolded = true := by
    rw [List.all_append, generation.folded.1, Bool.and_true]
    decide
  have hspeaker : Folded (speakerName generation.text) := folded_append hfront (by decide) (by decide)
  have hrvq : Folded (rvqName generation.text) := folded_append hfront (by decide) (by decide)
  exact ⟨hspeaker, hrvq, folded_append hspeaker.1 (by decide) (by decide), folded_append hrvq.1 (by decide) (by decide)⟩

variable [FileNames]

theorem key_ne {name other : CppString} (hname : Folded name) (hother : Folded other) (h : name ≠ other) :
    key name ≠ key other := by
  rw [FileNames.key_folded name hname, FileNames.key_folded other hother]
  exact h

/-- The names of a publication are those of different files. -/
structure Apart (manifest generation : CppString) : Prop where
  rvqTemp_speakerTemp : key (rvqTemp generation) ≠ key (speakerTemp generation)
  rvqTemp_speakerName : key (rvqTemp generation) ≠ key (speakerName generation)
  rvqName_speakerName : key (rvqName generation) ≠ key (speakerName generation)
  rvqName_speakerTemp : key (rvqName generation) ≠ key (speakerTemp generation)
  manifestTemp_speakerName : key (manifestTemp manifest generation) ≠ key (speakerName generation)
  manifestTemp_rvqName : key (manifestTemp manifest generation) ≠ key (rvqName generation)
  manifestTemp_speakerTemp : key (manifestTemp manifest generation) ≠ key (speakerTemp generation)
  manifestTemp_rvqTemp : key (manifestTemp manifest generation) ≠ key (rvqTemp generation)
  manifest_speakerName : key manifest ≠ key (speakerName generation)
  manifest_rvqName : key manifest ≠ key (rvqName generation)

/-- A generation is new: the manifest is not named after it. -/
theorem apart {manifest : CppString} (generation : Generation) (h : ¬ generation.text <:+: key manifest) :
    Apart manifest generation.text := by
  obtain ⟨hspeakerName, hrvqName, hspeakerTemp, hrvqTemp⟩ := manifestTemp_ne generation manifest
  obtain ⟨hspeakerFolded, hrvqFolded, hspeakerTempFolded, hrvqTempFolded⟩ := folded_names generation
  have hinside (front tail : CppString) (hfolded : Folded (front ++ generation.text ++ tail)) :
      key manifest ≠ key (front ++ generation.text ++ tail) := by
    rw [FileNames.key_folded _ hfolded]
    intro heq
    rw [heq] at h
    exact h ⟨front, tail, rfl⟩
  have hlength (s t : CppString) (h : s.length ≠ t.length) : s ≠ t := fun heq => h (heq ▸ rfl)
  have hspk : (CppString.lit ".spk").length = 4 := rfl
  have hrvq : (CppString.lit ".rvq").length = 4 := rfl
  have htmp : (CppString.lit ".qtb-tmp").length = 8 := rfl
  have hnames : rvqName generation.text ≠ speakerName generation.text := by
    intro heq
    have htail := List.append_cancel_left heq
    revert htail
    decide
  refine ⟨key_ne hrvqTempFolded hspeakerTempFolded fun heq => hnames (List.append_cancel_right heq),
    key_ne hrvqTempFolded hspeakerFolded (hlength _ _ ?_), key_ne hrvqFolded hspeakerFolded hnames,
    key_ne hrvqFolded hspeakerTempFolded (hlength _ _ ?_), hspeakerName, hrvqName, hspeakerTemp, hrvqTemp,
    hinside _ _ hspeakerFolded, hinside _ _ hrvqFolded⟩
  · simp only [rvqTemp, rvqName, speakerName, List.length_append, hspk, hrvq, htmp]
    omega
  · simp only [speakerTemp, rvqName, speakerName, List.length_append, hspk, hrvq, htmp]
    omega

/-- No artifact is called like the marker or the lock, which begin with a dot. -/
theorem artifact_ne (generation : Generation) {name : CppString} (h : name = markerName ∨ name = lockName) :
    key (speakerName generation.text) ≠ key name ∧ key (rvqName generation.text) ≠ key name := by
  obtain ⟨hspeaker, hrvq, -⟩ := folded_names generation
  have hfolded : Folded name := by rcases h with rfl | rfl <;> decide
  have hhead : name.head? = some 46 := by rcases h with rfl | rfl <;> rfl
  refine ⟨key_ne hspeaker hfolded ?_, key_ne hrvq hfolded ?_⟩
  all_goals
    rintro rfl
    cases hhead

end Names

/-! ## What is published -/

/-- What `checkExtracted` lets through. -/
structure Checked (context : PreparedContext) (extracted : Extracted) (values : List UInt32) (codes : List Int) : Prop where
  bounds : Bounds context extracted
  embedding : extracted.refSpkEmb = some values
  length : values.length = extracted.refSpkDim.toNat
  finite : (values.any fun value => !isfinite value.toNat) = false
  none : context.xVectorOnly = true → codes = []
  codes : context.xVectorOnly = false → extracted.refCodes = some codes ∧ codes.length = extracted.count

theorem checked_of_ok {context : PreparedContext} {extracted : Extracted} {values : List UInt32} {codes : List Int}
    (h : checkExtracted context extracted = .ok (values, codes)) : Checked context extracted values codes := by
  have hbounds := checkExtracted_bounds h
  unfold checkExtracted at h
  split at h
  · cases h
  · rename_i values' hvalues
    obtain ⟨_, hspeaker, h⟩ := exists_of_bind h
    simp only [refuseIf_ok, Bool.or_eq_false_iff] at hspeaker
    have hlength := extracted.length_emb values' hvalues hbounds.dimension.1
    cases hmode : context.xVectorOnly with
    | true =>
      rw [hmode] at h
      cases h
      exact ⟨hbounds, hvalues, by omega, hspeaker.2, fun _ => rfl, by simp [hmode]⟩
    | false =>
      rw [hmode] at h
      simp only [Bool.false_eq_true, if_false] at h
      split at h
      · cases h
      · rename_i codes' hcodes
        obtain ⟨_, -, h⟩ := exists_of_bind h
        cases h
        obtain ⟨-, hcodebooks, -, hframes, -⟩ := hbounds.codes hmode
        have hcount := extracted.length_codes codes hcodes hframes hcodebooks
        refine ⟨hbounds, hvalues, by omega, hspeaker.2, by simp [hmode], fun _ => ⟨hcodes, ?_⟩⟩
        have hcast : (codes.length : Int) = (extracted.count : Int) := by
          rw [hcount, Extracted.count, Int.natCast_mul, Int.toNat_of_nonneg (Int.le_of_lt hcodebooks),
            Int.toNat_of_nonneg (Int.le_of_lt hframes)]
        exact Int.ofNat.inj hcast

/-- The packed codes, of codes in range. -/
def packedCodes (context : PreparedContext) (codes : List Int) : Bytes :=
  if context.xVectorOnly then []
  else
    match packCodes codes with
    | .ok packed => packed
    | .error _ => []

theorem packedOrThrown_ok {context : PreparedContext} {codes : List Int} (hmode : context.xVectorOnly = false)
    (h : ∀ code ∈ codes, InRange code) : packedOrThrown codes = .ok (packedCodes context codes) ∧
      (packedCodes context codes).length = rvqBytes codes.length ∧
      unpackCodes (packedCodes context codes) codes.length = .ok (codes.map Int.toNat) ∧
      (codes.map Int.toNat).map Int.ofNat = codes := by
  obtain ⟨naturals, rfl, hnaturals⟩ := ofNat_of_inRange h
  obtain ⟨packed, hpack, hlength, hvalue⟩ := packCodes_ok hnaturals
  have hsame : (naturals.map Int.ofNat).map Int.toNat = naturals := by
    rw [List.map_map]
    exact List.map_id _
  have hpacked : packedCodes context (naturals.map Int.ofNat) = packed := by
    unfold packedCodes
    rw [hmode, hpack]
    rfl
  have hthrown : packedOrThrown (naturals.map Int.ofNat) = .ok packed := by
    unfold packedOrThrown
    rw [hpack]
  have hbits : kRvqCodeBits = 11 := rfl
  rw [hpacked, hsame, hthrown, List.length_map]
  refine ⟨rfl, ?_, unpack_pack hnaturals hlength hvalue, rfl⟩
  rw [hlength, rvqBytes, hbits, Nat.mul_comm]

theorem packedOrThrown_error {codes : List Int} (h : ¬ ∀ code ∈ codes, InRange code) : ∃ e, packedOrThrown codes = .error e := by
  have hbad : ∃ code ∈ codes, ¬ InRange code := by
    by_contra hnone
    exact h fun code hcode => by
      by_contra hout
      exact hnone ⟨code, hcode, hout⟩
  refine ⟨.runtimeError (CppString.lit "prepared voice RVQ code is outside the 11-bit range"), ?_⟩
  unfold packedOrThrown
  rw [packCodes_refused hbad]
  rfl

theorem length_speakerBytes (values : List UInt32) : (speakerBytes values).length = values.length * 4 := by
  induction values with
  | nil => rfl
  | cons x values ih =>
    rw [speakerBytes, List.flatMap_cons, List.length_append, LittleEndian.writeLe_length, ← speakerBytes, ih, List.length_cons]
    omega

/-! ## The `try` block -/

section Stage

variable {platform : Platform} {manifest : CppString} {context : PreparedContext} {extracted : Extracted}
  {generation : Generation} {values : List UInt32} {codes : List Int} {d : Dir}

/-- What can be written down. -/
structure Writable (manifest : CppString) (context : PreparedContext) (codes : List Int) : Prop where
  codes : ∀ code ∈ codes, InRange code
  name : isUtf8 manifest = true
  strings : context.strings.all isUtf8 = true

/-- The manifest of this publication. -/
def publishedJson (sha : Sha256) (context : PreparedContext) (extracted : Extracted) (generation : CppString)
    (values : List UInt32) (codes : List Int) : Json :=
  manifestJson sha context generation extracted (speakerBytes values) (packedCodes context codes)

def publishedText (platform : Platform) (context : PreparedContext) (extracted : Extracted) (generation : CppString)
    (values : List UInt32) (codes : List Int) : Bytes :=
  (publishedJson platform.sha context extracted generation values codes).indented platform.lib.floatText 0 ++ [10]

/-- These files hold what is published. -/
structure Holds [FileNames] (platform : Platform) (context : PreparedContext) (extracted : Extracted) (generation : CppString)
    (values : List UInt32) (codes : List Int) (speaker rvq manifest : CppString) (d : Dir) : Prop where
  noDirs : NoDirs d
  speakerFile : d.file speaker = some (speakerBytes values)
  rvqFile : context.xVectorOnly = false → d.file rvq = some (packedCodes context codes)
  manifestFile : d.file manifest = some (publishedText platform context extracted generation values codes)

/-- The library does with this publication what it documents. -/
structure Working (platform : Platform) (context : PreparedContext) (extracted : Extracted) (generation : CppString) : Prop where
  serializes : platform.lib.Serializes
  documented : ∀ values codes, Checked context extracted values codes →
    platform.Documented (publishedJson platform.sha context extracted generation values codes)

theorem rvqBytes_pos (hbounds : Bounds context extracted) (hmode : context.xVectorOnly = false) :
    rvqBytes extracted.count ≠ 0 := by
  obtain ⟨-, hcodebooks, -, hframes, -⟩ := hbounds.codes hmode
  have hcount : 0 < extracted.count := Nat.mul_pos (by omega) (by omega)
  rw [rvqBytes, show kRvqCodeBits = 11 from rfl]
  omega

/-- The manifest is read back as it was written. -/
theorem parse_published (hworking : Working platform context extracted generation.text)
    (hchecked : Checked context extracted values codes) (habi : 0 < context.abiVersion)
    (hstrings : context.strings.all isUtf8 = true) :
    Json.Canonical (publishedJson platform.sha context extracted generation.text values codes) ∧
      platform.lib.parse (publishedText platform context extracted generation.text values codes) =
        .ok (publishedJson platform.sha context extracted generation.text values codes) := by
  have hcanonical : Json.Canonical (publishedJson platform.sha context extracted generation.text values codes) :=
    canonical_manifest _ _ _ _ _ _ hchecked.bounds habi
  have hutf8 : (publishedJson platform.sha context extracted generation.text values codes).isUtf8 = true :=
    (utf8_manifest generation _ _ _ _ _).trans hstrings
  exact ⟨hcanonical, (hworking.documented values codes hchecked).readsBack hcanonical hutf8⟩

theorem calm_hooked {Q : Dir → Prop} {E : PreparedError → Dir → Prop} {task : Task Unit} (h : Calm (fun _ => Q) E task d) :
    Calm (fun _ => Q) E (do hook; hook; task) d :=
  (calm_hook (Q := fun d' => d' = d) rfl).bind fun _ _ h₁ => (calm_hook (Q := fun d' => d' = d) h₁).bind fun _ _ h₂ => h₂ ▸ h

theorem calm_ofExcept_ok {α : Type} {Q : α → Dir → Prop} {E : PreparedError → Dir → Prop} {r : Outcome α} {a : α}
    (h : r = .ok a) (hQ : Q a d) : Calm Q E (.ofExcept r : Task α) d := by
  subst h
  exact calm_pure hQ

theorem calm_ofExcept_error {α : Type} {Q : α → Dir → Prop} {E : PreparedError → Dir → Prop} {r : Outcome α}
    (h : ∃ e, r = .error e) (hE : ∀ e, E e d) : Calm Q E (.ofExcept r : Task α) d := by
  obtain ⟨e, rfl⟩ := h
  exact calm_throw (hE e)

variable [FileNames]

theorem calm_placeMarker (hserializes : platform.lib.Serializes) (hd : NoDirs d) :
    Calm (fun _ d' => isUtf8 manifest = true ∧ NoDirs d') (fun _ _ => ¬ Writable manifest context codes)
      (placeMarker platform manifest context generation.text) d := by
  have hutf8 := utf8_marker generation manifest context.xVectorOnly
  unfold placeMarker
  cases hname : isUtf8 manifest with
  | false =>
    obtain ⟨e, he⟩ := hserializes.illFormed _ (hutf8.trans hname)
    refine (calm_ofExcept_error (Q := fun _ _ => False) ⟨.json, by rw [he]; rfl⟩ fun _ hwritable => ?_).bind fun _ _ => False.elim
    rw [hwritable.name] at hname
    cases hname
  | true =>
    refine (calm_ofExcept_ok (Q := fun _ => NoDirs) (by rw [hserializes.utf8 _ (hutf8.trans hname)]; rfl) hd).bind fun text d hd => ?_
    refine (calm_writeBytes hd _ text).bind fun _ d hput => (calm_rename hput.noDirs markerName hput.file).bind fun _ d hmoved => ?_
    exact (calm_hook hmoved.noDirs).bind fun _ d hd => (calm_hook hd).bind fun _ d hd => calm_hook ⟨rfl, hd⟩

theorem calm_writeCodes (hnames : Apart manifest generation.text) (hd : NoDirs d)
    (hspeaker : d.file (speakerTemp generation.text) = some (speakerBytes values)) :
    Calm (fun packed d' => (context.xVectorOnly = false → ∀ code ∈ codes, InRange code) ∧
        packed = packedCodes context codes ∧ NoDirs d' ∧ d'.file (speakerTemp generation.text) = some (speakerBytes values) ∧
        (context.xVectorOnly = false → d'.file (rvqTemp generation.text) = some (packedCodes context codes)))
      (fun _ _ => ¬ Writable manifest context codes) (writeCodes context generation.text codes) d := by
  unfold writeCodes
  cases hmode : context.xVectorOnly with
  | true =>
    refine calm_pure ⟨nofun, ?_, hd, hspeaker, nofun⟩
    unfold packedCodes
    rw [if_pos hmode]
  | false =>
    rw [if_neg Bool.false_ne_true]
    by_cases hrange : ∀ code ∈ codes, InRange code
    · obtain ⟨hpacked, -⟩ := packedOrThrown_ok hmode hrange
      refine (calm_ofExcept_ok (Q := fun packed d' => packed = packedCodes context codes ∧ d' = d) hpacked ⟨rfl, rfl⟩).bind
        fun packed d' h => ?_
      obtain ⟨rfl, rfl⟩ := h
      refine (calm_writeBytes hd _ _).bind fun _ d' hput => (calm_hook hput).bind fun _ d' hput => calm_pure ?_
      exact ⟨fun _ => hrange, rfl, hput.noDirs, (hput.other _ hnames.rvqTemp_speakerTemp.symm).trans hspeaker,
        fun _ => hput.file⟩
    · exact (calm_ofExcept_error (Q := fun _ _ => False) (packedOrThrown_error hrange) fun _ hwritable =>
        hrange hwritable.codes).bind fun _ _ => False.elim

theorem calm_hashTemps (hspeaker : d.file (speakerTemp generation.text) = some (speakerBytes values))
    (hcodes : context.xVectorOnly = false → d.file (rvqTemp generation.text) = some (packedCodes context codes))
    {E : PreparedError → Dir → Prop} :
    Calm (fun r d' => r = (speakerBytes values, packedCodes context codes) ∧ d' = d) E (hashTemps context generation.text) d := by
  unfold hashTemps
  refine (calm_look_ok (Q := fun r d' => r = speakerBytes values ∧ d' = d) (by rw [fileAt, hspeaker]) ⟨rfl, rfl⟩).bind
    fun speaker d' h => ?_
  obtain ⟨rfl, rfl⟩ := h
  cases hmode : context.xVectorOnly with
  | true =>
    rw [if_pos rfl]
    refine calm_pure ⟨?_, rfl⟩
    rw [packedCodes, if_pos hmode]
  | false =>
    rw [if_neg Bool.false_ne_true]
    refine (calm_look_ok (Q := fun r d => r = packedCodes context codes ∧ d = d') (by rw [fileAt, hcodes hmode]) ⟨rfl, rfl⟩).bind
      fun packed d h => ?_
    obtain ⟨rfl, rfl⟩ := h
    exact calm_pure ⟨rfl, rfl⟩

theorem calm_writeManifest (hworking : Working platform context extracted generation.text)
    (hnames : Apart manifest generation.text) (hchecked : Checked context extracted values codes) (hd : NoDirs d)
    (hspeaker : d.file (speakerTemp generation.text) = some (speakerBytes values))
    (hcodes : context.xVectorOnly = false → d.file (rvqTemp generation.text) = some (packedCodes context codes)) :
    Calm (fun root d' => context.strings.all isUtf8 = true ∧
        root = publishedJson platform.sha context extracted generation.text values codes ∧
        Holds platform context extracted generation.text values codes (speakerTemp generation.text)
          (rvqTemp generation.text) (manifestTemp manifest generation.text) d')
      (fun _ _ => ¬ Writable manifest context codes)
      (writeManifest platform manifest context extracted generation.text (speakerBytes values) (packedCodes context codes)) d := by
  have hdocumented := hworking.documented values codes hchecked
  have hutf8 := utf8_manifest generation platform.sha context extracted (speakerBytes values) (packedCodes context codes)
  rw [← publishedJson] at hutf8
  unfold writeManifest
  rw [← publishedJson]
  cases hstrings : context.strings.all isUtf8 with
  | false =>
    obtain ⟨e, he⟩ := hdocumented.illFormed (hutf8.trans hstrings)
    refine (calm_ofExcept_error (Q := fun _ _ => False) ⟨.json, by rw [he]; rfl⟩ fun _ hwritable => ?_).bind fun _ _ => False.elim
    rw [hwritable.strings] at hstrings
    cases hstrings
  | true =>
    refine (calm_ofExcept_ok (Q := fun text d' =>
      text = publishedText platform context extracted generation.text values codes ∧ d' = d)
      (by rw [hdocumented.utf8 (hutf8.trans hstrings)]; rfl) ⟨rfl, rfl⟩).bind fun text d' h => ?_
    obtain ⟨rfl, rfl⟩ := h
    refine (calm_writeBytes hd _ _).bind fun _ d hput => calm_pure ⟨rfl, rfl, hput.noDirs, ?_, fun hmode => ?_, hput.file⟩
    · exact (hput.other _ hnames.manifestTemp_speakerTemp.symm).trans hspeaker
    · exact (hput.other _ hnames.manifestTemp_rvqTemp.symm).trans (hcodes hmode)

/-- What was written is read back as it is. -/
theorem readBack_speaker (hchecked : Checked context extracted values codes) {name : CppString}
    (h : d.file name = some (speakerBytes values)) :
    readBack d name (extracted.refSpkDim.toNat * 4) kMaxSpeakerBytes = .ok (speakerBytes values) := by
  have hmaxDimension : kMaxSpeakerDimension = 2 ^ 20 := rfl
  have hmaxBytes : kMaxSpeakerBytes = 16 * 1024 * 1024 := rfl
  obtain ⟨hpos, hdim⟩ := hchecked.bounds.dimension
  unfold readBack
  rw [h]
  dsimp only
  rw [if_neg]
  rw [length_speakerBytes, hchecked.length]
  omega

theorem checkCodes_ok (hchecked : Checked context extracted values codes) (hmode : context.xVectorOnly = false)
    (hrange : ∀ code ∈ codes, InRange code) {name : CppString} (h : d.file name = some (packedCodes context codes)) :
    checkCodes codes (packedCodes context codes) d name = .ok () := by
  obtain ⟨-, hlength, hunpack, hsame⟩ := packedOrThrown_ok hmode hrange
  have hcount := (hchecked.codes hmode).2
  have hmax := rvqBytes_le hchecked.bounds hmode
  have hpos := rvqBytes_pos hchecked.bounds hmode
  have hread : readBack d name (packedCodes context codes).length kMaxRvqBytes = .ok (packedCodes context codes) := by
    unfold readBack
    rw [h]
    dsimp only
    rw [if_neg]
    rw [hlength, hcount]
    omega
  unfold checkCodes
  rw [hread, ok_bind, hunpack, ok_bind, hsame]
  exact refuseIf_false (by simp) _

theorem checkManifest_ok (hworking : Working platform context extracted generation.text)
    (hchecked : Checked context extracted values codes) (habi : 0 < context.abiVersion)
    (hstrings : context.strings.all isUtf8 = true) {name : CppString}
    (h : d.file name = some (publishedText platform context extracted generation.text values codes)) :
    checkManifest platform (publishedJson platform.sha context extracted generation.text values codes) d name = .ok () := by
  obtain ⟨hcanonical, hparse⟩ := parse_published hworking hchecked habi hstrings
  unfold checkManifest
  rw [h]
  dsimp only
  rw [hparse]
  dsimp only
  exact refuseIf_false (by rw [equals_self hcanonical]; rfl) _

theorem calm_stage (hworking : Working platform context extracted generation.text)
    (hnames : Apart manifest generation.text) (hchecked : Checked context extracted values codes)
    (habi : 0 < context.abiVersion) (hd : NoDirs d) :
    Calm (fun _ d' => Writable manifest context codes ∧
        Holds platform context extracted generation.text values codes (speakerName generation.text)
          (rvqTemp generation.text) (manifestTemp manifest generation.text) d')
      (fun _ _ => ¬ Writable manifest context codes)
      (stage platform manifest context extracted generation.text values codes) d := by
  unfold stage
  refine (calm_placeMarker hworking.serializes hd).bind fun _ d h => ?_
  obtain ⟨hname, hd⟩ := h
  refine (calm_writeBytes hd _ _).bind fun _ d hput => (calm_hook hput).bind fun _ d hput => ?_
  refine (calm_writeCodes hnames hput.noDirs hput.file).bind fun packed d h => ?_
  obtain ⟨hrange, rfl, hd, hspeaker, hcodes⟩ := h
  refine (calm_hashTemps hspeaker hcodes).bind fun r d' h => ?_
  obtain ⟨rfl, rfl⟩ := h
  refine (calm_writeManifest hworking hnames hchecked hd hspeaker hcodes).bind fun root d h => ?_
  obtain ⟨hstrings, rfl, hholds⟩ := h
  have hwritable : Writable manifest context codes := by
    refine ⟨?_, hname, hstrings⟩
    cases hmode : context.xVectorOnly with
    | true =>
      rw [hchecked.none hmode]
      nofun
    | false => exact hrange hmode
  have hcheck : Calm (fun _ d' => d' = d) (fun _ _ => ¬ Writable manifest context codes)
      (checkTemps platform manifest context generation.text codes (extracted.refSpkDim.toNat * 4)
        (packedCodes context codes) (publishedJson platform.sha context extracted generation.text values codes)) d := by
    unfold checkTemps
    refine (calm_look_ok (Q := fun _ d' => d' = d) (by rw [readBack_speaker hchecked hholds.speakerFile]; rfl) rfl).bind
      fun _ d' h => ?_
    subst h
    have hpacked : Calm (fun _ d'' => d'' = d') (fun _ _ => ¬ Writable manifest context codes)
        (checkPacked context generation.text codes (packedCodes context codes)) d' := by
      unfold checkPacked
      cases hmode : context.xVectorOnly with
      | true => exact calm_pure rfl
      | false => exact calm_look_ok (checkCodes_ok hchecked hmode hwritable.codes (hholds.rvqFile hmode)) rfl
    refine hpacked.bind fun _ d'' h => ?_
    subst h
    exact calm_look_ok (checkManifest_ok hworking hchecked habi hstrings hholds.manifestFile) rfl
  refine hcheck.bind fun _ d' h => ?_
  subst h
  refine (calm_rename hholds.noDirs _ hholds.speakerFile).mono (fun _ d hmoved => ⟨hwritable, hmoved.noDirs, hmoved.file, ?_, ?_⟩)
    fun _ _ h => h
  · intro hmode
    rw [hmoved.other _ hnames.rvqTemp_speakerTemp hnames.rvqTemp_speakerName]
    exact hholds.rvqFile hmode
  · rw [hmoved.other _ hnames.manifestTemp_speakerTemp hnames.manifestTemp_speakerName]
    exact hholds.manifestFile

theorem calm_untilRename (hworking : Working platform context extracted generation.text)
    (hnames : Apart manifest generation.text) (hchecked : Checked context extracted values codes)
    (habi : 0 < context.abiVersion) (hd : NoDirs d) :
    Calm (fun _ d' => Writable manifest context codes ∧
        Holds platform context extracted generation.text values codes (speakerName generation.text)
          (rvqName generation.text) manifest d')
      (fun _ _ => ¬ Writable manifest context codes)
      (untilRename platform manifest context extracted generation.text values codes) d := by
  unfold untilRename tracked
  refine Calm.bind ((calm_stage hworking hnames hchecked habi hd).mapError fun _ _ h => h) fun _ d h => ?_
  obtain ⟨hwritable, hholds⟩ := h
  refine Calm.bind (Q := fun _ => Holds platform context extracted generation.text values codes (speakerName generation.text)
    (rvqName generation.text) (manifestTemp manifest generation.text)) (Calm.mapError (calm_hooked ?_) fun _ _ h => h)
    fun _ d hholds => Calm.mapError (calm_hooked ?_) fun _ _ h => h
  · unfold publishCodes
    cases hmode : context.xVectorOnly with
    | true => exact calm_pure ⟨hholds.noDirs, hholds.speakerFile, by rw [hmode]; nofun, hholds.manifestFile⟩
    | false =>
      refine (calm_rename hholds.noDirs _ (hholds.rvqFile hmode)).mono
        (fun _ d hmoved => ⟨hmoved.noDirs, ?_, fun _ => hmoved.file, ?_⟩) fun _ _ h => h
      · rw [hmoved.other _ hnames.rvqTemp_speakerName.symm hnames.rvqName_speakerName.symm]
        exact hholds.speakerFile
      · rw [hmoved.other _ hnames.manifestTemp_rvqTemp hnames.manifestTemp_rvqName]
        exact hholds.manifestFile
  · refine (calm_rename hholds.noDirs _ hholds.manifestFile).mono
      (fun _ d hmoved => ⟨hwritable, hmoved.noDirs, ?_, fun hmode => ?_, hmoved.file⟩) fun _ _ h => h
    · rw [hmoved.other _ hnames.manifestTemp_speakerName.symm hnames.manifest_speakerName.symm]
      exact hholds.speakerFile
    · rw [hmoved.other _ hnames.manifestTemp_rvqName.symm hnames.manifest_rvqName.symm]
      exact hholds.rvqFile hmode

/-! ## The publication -/

def empty : Dir := fun _ => none

/-- What an empty directory takes. -/
structure Admissible (manifest : CppString) (context : PreparedContext) (extracted : Extracted) (values : List UInt32)
    (codes : List Int) : Prop where
  valid : validateContext context = .ok ()
  checked : checkExtracted context extracted = .ok (values, codes)
  lock : key manifest ≠ key lockName
  writable : Writable manifest context codes

/-- The directory with the lock. -/
def locked : Dir := empty.set lockName (some (.file []))

theorem noDirs_locked : NoDirs locked := by
  have hempty : NoDirs empty := fun _ => rfl
  exact hempty.set lockName fun _ h => by cases h

theorem locked_lock : locked.entry lockName = some (.file []) := Dir.entry_set_self ..

theorem locked_none {name : CppString} (h : key name ≠ key lockName) : locked.entry name = none := Dir.entry_set_ne _ h _

theorem calm_acquireLock {E : PreparedError → Dir → Prop} : Calm (fun _ d' => d' = locked) E (acquireLock 3) empty := by
  have hcreate : Calm (fun taken d' => taken = true ∧ d' = locked) E createLock empty := by
    refine calm_act (fun taken d' hd' => ?_) fun e he => ?_
    · cases hd'
      exact ⟨rfl, rfl⟩
    · cases he
  unfold acquireLock
  refine hcreate.bind fun taken d' h => ?_
  obtain ⟨rfl, rfl⟩ := h
  exact calm_pure rfl

theorem calm_admitPublication :
    Calm (fun _ d' => key manifest ≠ key lockName ∧ d' = locked) (fun _ _ => ¬ key manifest ≠ key lockName)
      (admitPublication platform manifest) locked := by
  have hfolded : Folded lockName := by decide
  have hmarker : locked.entry markerName = none := locked_none (key_ne (by decide) hfolded (by decide))
  have hspeaker : locked.entry (CppString.lit "reference.spk") = none := locked_none (key_ne (by decide) hfolded (by decide))
  have hrvq : locked.entry (CppString.lit "reference.rvq") = none := locked_none (key_ne (by decide) hfolded (by decide))
  have hexists (name : CppString) : Calm (fun present d' => present = (locked.entry name).isSome ∧ d' = locked)
      (fun _ _ => ¬ key manifest ≠ key lockName) (exists_ name) locked := calm_look_ok rfl ⟨rfl, rfl⟩
  have hrecover : Calm (fun _ d' => d' = locked) (fun _ _ => ¬ key manifest ≠ key lockName)
      (recoverIncompletePublication platform manifest) locked := by
    unfold recoverIncompletePublication
    refine (hexists markerName).bind fun present d' h => ?_
    obtain ⟨rfl, rfl⟩ := h
    rw [hmarker]
    exact calm_pure rfl
  unfold admitPublication refuseOverwrite
  refine hrecover.bind fun _ d' h => ?_
  subst h
  refine (hexists manifest).bind fun committed d' h => ?_
  obtain ⟨rfl, rfl⟩ := h
  refine (hexists _).bind fun speaker d' h => ?_
  obtain ⟨rfl, rfl⟩ := h
  refine (hexists _).bind fun rvq d' h => ?_
  obtain ⟨rfl, rfl⟩ := h
  rw [hspeaker, hrvq]
  by_cases hlock : key manifest = key lockName
  · refine calm_ofExcept_error ⟨.runtimeError (CppString.lit "refusing to overwrite an existing prepared voice publication"), ?_⟩
      fun _ h => h hlock
    rw [show locked.entry manifest = locked.entry lockName from congrArg locked hlock, locked_lock]
    rfl
  · refine calm_ofExcept_ok (refuseIf_false ?_ _) ⟨hlock, rfl⟩
    rw [locked_none hlock]
    rfl

/-- A publication reaches the rename of its manifest if its input is admissible, and only
    then. -/
theorem untilCommit_calm (hworking : Working platform context extracted generation.text)
    (hnames : Apart manifest generation.text) :
    Calm (fun _ d' => ∃ values codes, Admissible manifest context extracted values codes ∧
        Holds platform context extracted generation.text values codes (speakerName generation.text)
          (rvqName generation.text) manifest d')
      (fun _ _ => ∀ values codes, ¬ Admissible manifest context extracted values codes)
      (untilCommit platform manifest context extracted generation.text) empty := by
  unfold untilCommit
  have hvalidate : Calm (fun _ d' => validateContext context = .ok () ∧ d' = empty)
      (fun _ _ => ∀ values codes, ¬ Admissible manifest context extracted values codes)
      (.ofExcept (validateContext context) : Task Unit) empty := by
    refine calm_ofExcept (fun _ h => ⟨h, rfl⟩) fun e he values codes hadmissible => ?_
    rw [hadmissible.valid] at he
    cases he
  refine hvalidate.bind fun _ d h => ?_
  obtain ⟨hvalid, rfl⟩ := h
  refine (calm_hook (Q := fun d => d = empty) rfl).bind fun _ d h => ?_
  subst h
  have habi : 0 < context.abiVersion := by
    simp only [validateContext, refuseIf_ok, Bool.or_eq_false_iff, decide_eq_false_iff_not] at hvalid
    omega
  have hcheck : Calm (fun r d' => checkExtracted context extracted = .ok r ∧ d' = empty)
      (fun _ _ => ∀ values codes, ¬ Admissible manifest context extracted values codes)
      (.ofExcept (checkExtracted context extracted) : Task (List UInt32 × List Int)) empty := by
    refine calm_ofExcept (fun _ h => ⟨h, rfl⟩) fun e he values codes hadmissible => ?_
    rw [hadmissible.checked] at he
    cases he
  refine hcheck.bind fun r d h => ?_
  obtain ⟨values, codes⟩ := r
  obtain ⟨hextracted, rfl⟩ := h
  refine (calm_hook (Q := fun d => d = empty) rfl).bind fun _ d h => ?_
  subst h
  refine calm_acquireLock.bind fun _ d h => ?_
  subst h
  refine (calm_admitPublication.mono (fun _ _ h => h) fun _ _ h values codes hadmissible => h hadmissible.lock).bind
    fun _ d h => ?_
  obtain ⟨hlock, rfl⟩ := h
  have hrename := calm_untilRename hworking hnames (checked_of_ok hextracted) habi noDirs_locked
  refine Calm.mapError (hrename.mono (fun _ d h => ⟨values, codes, ⟨hvalid, hextracted, hlock, h.1⟩, h.2⟩) fun _ _ h => h)
    fun _ _ h values' codes' hadmissible => h ?_
  have hsame := hextracted.symm.trans hadmissible.checked
  cases hsame
  exact hadmissible.writable

end Stage

end QwenTtsBridge.Voice.Prepared
