/-
  QwenTtsBridge.Voice.Publication — publishing a prepared voice
  (`persist_prepared_voice_reference` of `prepared_voice_reference.cpp`).

  A publication writes a marker, the artifacts and the manifest, all under temporary names,
  and renames them into place, the manifest last: it is the commit. What an interrupted
  publication leaves behind is moved into a quarantine by the next one that holds the lock.

  The tasks run over one directory (`Dir`), one file-system step at a time; a step may fail
  and the process may be killed between two steps (`Lib.Interrupt`). Writing a file is two
  steps: it is there, and then it is written. The hooks of the tests are steps without an
  effect. No path is a reparse point, and narrow paths are UTF-8. Which names are one file is
  the file system's to say (`FileNames`): NTFS folds case.
-/

import QwenTtsBridge.Voice.CodePacking
import QwenTtsBridge.Voice.Registry
import QwenTtsBridge.Lib.Interrupt

namespace QwenTtsBridge.Voice.Prepared

open QwenTtsBridge.Lib QwenTtsBridge.Lib.Interrupt QwenTtsBridge.Python QwenTtsBridge.Protocol.Control

/-! ## File names -/

/-- The characters of the names that a publication makes up. -/
def isFolded (b : UInt8) : Bool := (97 ≤ b && b ≤ 122) || (48 ≤ b && b ≤ 57) || b == 45 || b == 46

/-- A name in lower case that does not end in a dot. -/
abbrev Folded (name : CppString) : Prop := name.all isFolded = true ∧ name.getLast? ≠ some 46

/-- How the file system compares names: two names are one file if their keys are equal. -/
class FileNames where
  key : CppString → CppString
  /-- A name in lower case is its own key. -/
  key_folded : ∀ name, Folded name → key name = name
  /-- An end of a name in lower case is the end of its key, whatever is before it. -/
  key_append : ∀ front tail, Folded tail → tail ≠ [] → ∃ front', key (front ++ tail) = front' ++ tail

open FileNames (key)

variable [FileNames]

/-! ## The directory -/

inductive Entry where
  | file (bytes : Bytes)
  | directory (files : CppString → Option Bytes)

/-- The entries, by the keys of their names. -/
abbrev Dir := CppString → Option Entry

def Dir.entry (d : Dir) (name : CppString) : Option Entry := d (key name)

def Dir.file (d : Dir) (name : CppString) : Option Bytes :=
  match d.entry name with
  | some (.file bytes) => some bytes
  | _ => none

def Dir.isDirectory (d : Dir) (name : CppString) : Bool :=
  match d.entry name with
  | some (.directory _) => true
  | _ => false

def Dir.set (d : Dir) (name : CppString) (entry : Option Entry) : Dir := Function.update d (key name) entry

theorem Dir.entry_set_self (d : Dir) (name : CppString) (entry : Option Entry) : (d.set name entry).entry name = entry :=
  Function.update_self ..

theorem Dir.entry_set_ne (d : Dir) {name other : CppString} (h : key other ≠ key name) (entry : Option Entry) :
    (d.set name entry).entry other = d.entry other :=
  Function.update_of_ne h ..

/-- The files of the directory, and below it. -/
def Dir.tree (d : Dir) : Tree
  | [name] => (Utf8.encode name).bind d.file
  | [inner, name] =>
    match (Utf8.encode inner).bind d.entry with
    | some (.directory files) => (Utf8.encode name).bind fun name => files (key name)
    | _ => none
  | _ => none

/-! ## Steps -/

abbrev Task (α : Type) := Prog PreparedError Dir PreparedError α

def look {α : Type} (f : Dir → Outcome α) : Task α := .act fun d => (f d).map (·, d)

def change (f : Dir → Outcome Dir) : Task Unit := .act fun d => (f d).map ((), ·)

def exists_ (name : CppString) : Task Bool := look fun d => .ok (d.entry name).isSome

/-- One of the hooks of the tests. -/
def hook : Task Unit := look fun _ => .ok ()

def writeBytes (name : CppString) (bytes : Bytes) : Task Unit := do
  change fun d =>
    if d.isDirectory name then .error (.atPath (CppString.lit "unable to write prepared voice artifact: ") [])
    else .ok (d.set name (some (.file [])))
  change fun d => .ok (d.set name (some (.file bytes)))

/-- `std::filesystem::rename`, which replaces a file that has the new name. -/
def rename (source target : CppString) : Task Unit := change fun d =>
  match d.entry source with
  | some (.file bytes) =>
    if d.isDirectory target then .error .systemError
    else .ok ((d.set source none).set target (some (.file bytes)))
  | _ => .error .systemError

/-- A rename into a directory. -/
def renameInto (source directory : CppString) (what : String) : Task Unit := change fun d =>
  match d.entry source, d.entry directory with
  | some (.file bytes), some (.directory files) =>
    .ok ((d.set source none).set directory (some (.directory (Function.update files (key source) (some bytes)))))
  | _, _ => refuse what

/-- `remove_if_exists`: a failure is not reported. -/
def removeIfExists (name : CppString) : Task Unit :=
  (change fun d => if d.isDirectory name then .error .systemError else .ok (d.set name none)).attempt fun _ => pure ()

/-! ## The lock -/

def lockName : CppString := CppString.lit ".qtb-publication.lock"

def markerName : CppString := CppString.lit ".qtb-publication.incomplete"

/-- `CreateFileW` with `CREATE_NEW`: whether the lock is taken. -/
def createLock : Task Bool := .act fun d =>
  if (d.entry lockName).isSome then .ok (false, d) else .ok (true, d.set lockName (some (.file [])))

def deleteLock : Task Unit := change fun d =>
  if d.isDirectory lockName then refuse "unable to remove stale prepared voice publication lock"
  else .ok (d.set lockName none)

/-- The constructor of `PublicationLock`, with so many attempts left. Nobody else holds the
    lock: a file that is there is stale, and the probe opens it. -/
def acquireLock : Nat → Task Unit
  | 0 => .ofExcept (refuse "prepared voice publication lock is contended")
  | attempts + 1 => do
    let taken ← createLock
    if taken then pure ()
    else do
      hook
      deleteLock
      acquireLock attempts

def withLock {α : Type} (task : Task α) : Task α := do
  acquireLock 3
  task.ensure (removeIfExists lockName)

/-! ## Names -/

def isHexOrDash (b : UInt8) : Bool := (48 ≤ b && b ≤ 57) || (97 ≤ b && b ≤ 102) || b == 45

/-- `new_generation_id`: five hexadecimal numbers with dashes between them. -/
structure Generation where
  text : CppString
  hex : ∀ b ∈ text, isHexOrDash b = true
  dashes : text.count 45 = 4
  short : text.length ≤ 160

def speakerName (generation : CppString) : CppString := CppString.lit "reference-" ++ generation ++ CppString.lit ".spk"

def rvqName (generation : CppString) : CppString := CppString.lit "reference-" ++ generation ++ CppString.lit ".rvq"

def speakerTemp (generation : CppString) : CppString := speakerName generation ++ CppString.lit ".qtb-tmp"

def rvqTemp (generation : CppString) : CppString := rvqName generation ++ CppString.lit ".qtb-tmp"

def manifestTemp (manifest generation : CppString) : CppString := manifest ++ CppString.lit ".qtb-tmp-" ++ generation

def markerTemp (generation : CppString) : CppString :=
  CppString.lit ".qtb-publication.incomplete.qtb-tmp-" ++ generation

def quarantineName (generation : CppString) : CppString := CppString.lit ".qtb-recovery-" ++ generation

/-! ## The marker -/

/-- What the tasks are built on: `dumpIndented` is `dump(2)`. -/
structure Platform where
  lib : JsonLibrary
  dumpIndented : Json → Except JsonException CppString
  sha : Sha256

/-- An `int`. The parser takes one that is not negative as unsigned, and the two compare
    equal. -/
def Json.ofInt (n : Int) : Json :=
  if n < 0 then .numberInteger (Int64.ofInt n) else .numberUnsigned (UInt64.ofNat n.toNat)

def markerJson (manifest generation : CppString) (xVectorOnly : Bool) : Json := .object (JsonObject.fields [
  ("schema_version", Json.ofInt 1),
  ("format", .lit "qwen3-tts-native-publication"),
  ("generation_id", .string generation),
  ("manifest_path", .string manifest),
  ("speaker_path", .string (speakerName generation)),
  ("rvq_path", .string (if xVectorOnly then [] else rvqName generation))])

def isSafeGenerationId (value : CppString) : Bool :=
  !value.isEmpty && decide (value.length ≤ 160) && value.all fun b =>
    (48 ≤ b && b ≤ 57) || (97 ≤ b && b ≤ 122) || (65 ≤ b && b ≤ 90) || b == 45

/-- `value.value(name, 0)`. -/
def intValue (root : Json) (name : String) : Outcome Int :=
  match root.field name with
  | none => .ok 0
  | some v =>
    match getInt v with
    | some n => .ok n
    | none => .error .json

def maxMarkerBytes : Nat := 16 * 1024

/-- `read_publication_marker`, of the bytes of the marker. -/
def readPublicationMarker (lib : JsonLibrary) (marker : Option Bytes) : Outcome (Json × CppString) :=
  match marker with
  | none => refuse "prepared voice manifest is missing: "
  | some text =>
    if maxMarkerBytes < text.length then refuse "prepared voice manifest is too large: "
    else
      match lib.parse text with
      | .error _ => refuse "invalid prepared voice publication marker: "
      | .ok value => do
        refuseIf (!value.isObject) "invalid prepared voice publication marker"
        let version ← intValue value "schema_version"
        refuseIf (version != 1) "invalid prepared voice publication marker"
        let format ← stringValue value "format" []
        refuseIf (format != CppString.lit "qwen3-tts-native-publication") "invalid prepared voice publication marker"
        let generation ← stringValue value "generation_id" []
        refuseIf (!isSafeGenerationId generation) "invalid prepared voice publication marker"
        .ok (value, generation)

/-- The generation that the marker of this manifest owns, and its names. -/
def readOwned (lib : JsonLibrary) (manifest : CppString) (marker : Option Bytes) :
    Outcome (CppString × CppString × CppString) := do
  let (value, generation) ← readPublicationMarker lib marker
  let speaker ← stringValue value "speaker_path" []
  let rvq ← stringValue value "rvq_path" []
  let markerManifest ← stringValue value "manifest_path" []
  refuseIf (markerManifest != manifest || speaker != speakerName generation ||
    (!rvq.isEmpty && rvq != rvqName generation)) "prepared voice publication marker conflicts with target"
  .ok (generation, speaker, rvq)

/-! ## Recovery -/

section Tasks

variable (platform : Platform) (manifest : CppString)

def makeQuarantine (quarantine : CppString) : Task Unit := do
  let present ← exists_ quarantine
  if present then
    look fun d => refuseIf (!d.isDirectory quarantine) "prepared voice recovery path is not a directory"
  else change fun d => .ok (d.set quarantine (some (.directory fun _ => none)))

/-- Whether the quarantine has a file of this name. -/
def inQuarantine (quarantine name : CppString) : Task Bool := look fun d =>
  match d.entry quarantine with
  | some (.directory files) => .ok (files (key name)).isSome
  | _ => .ok false

def moveOwned (quarantine name : CppString) : Task Unit :=
  if name.isEmpty then pure ()
  else do
    let present ← exists_ name
    if !present then pure ()
    else do
      let taken ← inQuarantine quarantine name
      if taken then .ofExcept (refuse "prepared voice recovery has conflicting owned artifact")
      else renameInto name quarantine "unable to quarantine incomplete prepared voice artifact"

def moveMarker (quarantine : CppString) : Task Unit := do
  let taken ← inQuarantine quarantine markerName
  if taken then .ofExcept (refuse "prepared voice recovery has conflicting publication marker")
  else renameInto markerName quarantine "unable to quarantine prepared voice publication marker"

/-- The end of `recover_incomplete_publication_locked`: the generation goes into quarantine. -/
def quarantineGeneration (generation speaker rvq : CppString) : Task Unit := do
  makeQuarantine (quarantineName generation)
  moveOwned (quarantineName generation) speaker
  hook
  moveOwned (quarantineName generation) rvq
  moveOwned (quarantineName generation) (speakerTemp generation)
  moveOwned (quarantineName generation) (rvqTemp generation)
  moveOwned (quarantineName generation) (manifestTemp manifest generation)
  moveMarker (quarantineName generation)

def recoverIncompletePublication : Task Unit := do
  let present ← exists_ markerName
  if !present then pure ()
  else do
    let (generation, speaker, rvq) ← look fun d => readOwned platform.lib manifest (d.file markerName)
    let committed ← exists_ manifest
    if committed then pure () else quarantineGeneration manifest generation speaker rvq

/-! ## Publication -/

/-- `qt_voice_ref`: a pointer that is not null points to as many values as the dimensions
    say. -/
structure Extracted where
  /-- The bits of the floats. -/
  refSpkEmb : Option (List UInt32)
  refSpkDim : Int
  refCodes : Option (List Int)
  refT : Int
  numCodebooks : Int
  length_emb : ∀ values, refSpkEmb = some values → 0 < refSpkDim → (values.length : Int) = refSpkDim
  length_codes : ∀ codes, refCodes = some codes → 0 < refT → 0 < numCodebooks → (codes.length : Int) = numCodebooks * refT

def speakerBytes (values : List UInt32) : Bytes := values.flatMap fun x => LittleEndian.writeLe 4 x.toNat

/-- The embedding and the codes, if they can be published. -/
def checkExtracted (context : PreparedContext) (extracted : Extracted) : Outcome (List UInt32 × List Int) :=
  match extracted.refSpkEmb with
  | none => refuse "extracted speaker embedding is invalid"
  | some values => do
    refuseIf (decide (extracted.refSpkDim ≤ 0) || decide (kMaxSpeakerDimension < extracted.refSpkDim) ||
      decide (maxSize / 4 < extracted.refSpkDim.toNat) || decide (kMaxSpeakerBytes < extracted.refSpkDim.toNat * 4) ||
      values.any fun value => !isfinite value.toNat) "extracted speaker embedding is invalid"
    if context.xVectorOnly then .ok (values, [])
    else
      match extracted.refCodes with
      | none => refuse "extracted RVQ layout is invalid"
      | some codes => do
        refuseIf (decide (extracted.refT ≤ 0) || decide (kMaxRvqFrames < extracted.refT) ||
          decide (extracted.numCodebooks ≤ 0) || decide (kMaxRvqCodebooks < extracted.numCodebooks) ||
          extracted.numCodebooks != context.numCodebooks ||
          decide (maxSize / extracted.refT.toNat < extracted.numCodebooks.toNat)) "extracted RVQ layout is invalid"
        .ok (values, codes)

/-- What `pack_codes` throws. It writes within its output, so the last case is none. -/
def packedOrThrown (codes : List Int) : Outcome Bytes :=
  match packCodes codes with
  | .ok bytes => .ok bytes
  | .error .outsideRange => refuse "prepared voice RVQ code is outside the 11-bit range"
  | .error .outOfBounds => .error .systemError

/-! What the manifest tells of the engine, the models, the recording and the artifacts. -/

def engineJson (context : PreparedContext) : Json := .object (JsonObject.fields [
  ("name", .lit "qwentts.cpp"),
  ("commit", .string context.engineCommit),
  ("abi_version", Json.ofInt context.abiVersion)])

def modelsJson (context : PreparedContext) : Json := .object (JsonObject.fields [
  ("talker_sha256", .string context.talkerSha256),
  ("codec_sha256", .string context.codecSha256)])

def preprocessingJson (context : PreparedContext) : Json := .object (JsonObject.fields [
  ("version", Json.ofInt kPreprocessingVersion),
  ("sample_rate", Json.ofInt kSampleRate),
  ("channels", Json.ofInt 1),
  ("sample_format", .lit "float32"),
  ("icl_trailing_silence_samples", Json.ofInt (expectedSilence context))])

def speakerJson (sha : Sha256) (generation : CppString) (extracted : Extracted) (speaker : Bytes) : Json :=
  .object (JsonObject.fields [
    ("path", .string (speakerName generation)),
    ("dimension", Json.ofInt extracted.refSpkDim),
    ("size_bytes", .numberUnsigned (UInt64.ofNat (extracted.refSpkDim.toNat * 4))),
    ("sha256", .string (sha.hex speaker)),
    ("scalar", .lit "float32-le")])

def rvqJson (sha : Sha256) (generation : CppString) (extracted : Extracted) (packed : Bytes) : Json :=
  .object (JsonObject.fields [
    ("path", .string (rvqName generation)),
    ("codebooks", Json.ofInt extracted.numCodebooks),
    ("frames", Json.ofInt extracted.refT),
    ("bits_per_code", Json.ofInt kRvqCodeBits),
    ("layout", .lit "codebook-major-frame-fastest"),
    ("size_bytes", .numberUnsigned (UInt64.ofNat packed.length)),
    ("sha256", .string (sha.hex packed))])

def manifestJson (sha : Sha256) (context : PreparedContext) (generation : CppString) (extracted : Extracted)
    (speaker packed : Bytes) : Json := .object (JsonObject.fields [
  ("schema_version", Json.ofInt kSchemaVersion),
  ("format", .lit "qwen3-tts-native-voice-reference"),
  ("source_wav_sha256", .string context.sourceAudioSha256),
  ("reference_text", .string context.referenceText),
  ("x_vector_only", .boolean context.xVectorOnly),
  ("engine", engineJson context),
  ("models", modelsJson context),
  ("preprocessing", preprocessingJson context),
  ("speaker", speakerJson sha generation extracted speaker),
  ("rvq", if context.xVectorOnly then .null else rvqJson sha generation extracted packed)])

mutual

/-- `operator==`, which compares numbers of two types by value. -/
def Json.equals : Json → Json → Bool
  | .null, .null => true
  | .boolean a, .boolean b => a == b
  | .numberInteger a, .numberInteger b => a == b
  | .numberUnsigned a, .numberUnsigned b => a == b
  | .numberInteger a, .numberUnsigned b => a == Int64.ofNat b.toNat
  | .numberUnsigned a, .numberInteger b => Int64.ofNat a.toNat == b
  | .numberFloat x, .numberFloat y => x == y && x != .nan
  | .numberFloat x, .numberInteger b => x == .ofInt b.toInt
  | .numberFloat x, .numberUnsigned b => x == .ofInt b.toNat
  | .numberInteger a, .numberFloat y => .ofInt a.toInt == y
  | .numberUnsigned a, .numberFloat y => .ofInt a.toNat == y
  | .string s, .string t => s == t
  | .array a, .array b => itemsEqual a b
  | .object a, .object b => fieldsEqual a b
  | _, _ => false

def itemsEqual : List Json → List Json → Bool
  | [], [] => true
  | v :: a, w :: b => Json.equals v w && itemsEqual a b
  | _, _ => false

def fieldsEqual : List (CppString × Json) → List (CppString × Json) → Bool
  | [], [] => true
  | (k, v) :: a, (l, w) :: b => k == l && Json.equals v w && fieldsEqual a b
  | _, _ => false

end

def dumped (result : Except JsonException CppString) : Outcome CppString :=
  match result with
  | .ok text => .ok (text ++ [10])
  | .error _ => .error .json

def fileAt (d : Dir) (name : CppString) : Outcome Bytes :=
  match d.file name with
  | some bytes => .ok bytes
  | none => .error (.atPath (CppString.lit "runtime file is missing: ") [])

/-- `read_bounded_file` of a file in the directory. -/
def readBack (d : Dir) (name : CppString) (size maximum : Nat) : Outcome Bytes :=
  match d.file name with
  | none => .error (.atPath (CppString.lit "prepared voice artifact is missing: ") [])
  | some bytes =>
    if bytes.length = 0 ∨ bytes.length ≠ size ∨ maximum < bytes.length then
      .error (.atPath (CppString.lit "prepared voice artifact size mismatch: ") [])
    else .ok bytes

/-- The codes are read back from their temporary file. -/
def checkCodes (codes : List Int) (packed : Bytes) (d : Dir) (name : CppString) : Outcome Unit := do
  let bytes ← readBack d name packed.length kMaxRvqBytes
  let checked ← unpackCodes bytes codes.length
  refuseIf (checked.map Int.ofNat != codes) "prepared voice RVQ round-trip mismatch"

/-- The manifest is read back from its temporary file. -/
def checkManifest (root : Json) (d : Dir) (name : CppString) : Outcome Unit :=
  match d.file name with
  | none => .error .json
  | some text =>
    match platform.lib.parse text with
    | .error _ => .error .json
    | .ok checked => refuseIf (!Json.equals checked root) "prepared voice manifest round-trip mismatch"

/-- What a publication has put in place when it fails. -/
structure Progress where
  speakerPublished : Bool
  rvqPublished : Bool
  manifestCommitted : Bool

def removeWhen (condition : Bool) (name : CppString) : Task Unit :=
  if condition then removeIfExists name else pure ()

/-- The `catch` block. -/
def cleanUp (generation : CppString) (progress : Progress) : Task Unit := do
  removeIfExists (speakerTemp generation)
  removeIfExists (rvqTemp generation)
  removeIfExists (manifestTemp manifest generation)
  if progress.manifestCommitted then removeIfExists (markerTemp generation)
  else do
    removeWhen progress.speakerPublished (speakerName generation)
    removeWhen progress.rvqPublished (rvqName generation)
    removeIfExists markerName
    removeIfExists (markerTemp generation)

/-- A part of the `try` block, and what of it is done when it fails. -/
def guarded {α : Type} (generation : CppString) (progress : Progress) (task : Task α) : Task α :=
  task.attempt fun e => do
    cleanUp manifest generation progress
    .throw e

variable (context : PreparedContext) (extracted : Extracted) (generation : CppString)

/-- The marker is written and renamed into place. -/
def placeMarker : Task Unit := do
  let text ← .ofExcept (dumped (platform.lib.dump (markerJson manifest generation context.xVectorOnly)))
  writeBytes (markerTemp generation) text
  rename (markerTemp generation) markerName
  hook
  hook
  hook

/-- The packed codes are written; there are none in the x-vector mode. -/
def writeCodes (codes : List Int) : Task Bytes :=
  if context.xVectorOnly then pure []
  else do
    let packed ← .ofExcept (packedOrThrown codes)
    writeBytes (rvqTemp generation) packed
    hook
    pure packed

/-- The hashes of the temporary files. -/
def hashTemps : Task (Bytes × Bytes) := do
  let speaker ← look fun d => fileAt d (speakerTemp generation)
  if context.xVectorOnly then pure (speaker, [])
  else do
    let packed ← look fun d => fileAt d (rvqTemp generation)
    pure (speaker, packed)

def writeManifest (speaker packed : Bytes) : Task Json := do
  let root := manifestJson platform.sha context generation extracted speaker packed
  let text ← .ofExcept (dumped (platform.dumpIndented root))
  writeBytes (manifestTemp manifest generation) text
  pure root

def checkPacked (codes : List Int) (packed : Bytes) : Task Unit :=
  if context.xVectorOnly then pure () else look fun d => checkCodes codes packed d (rvqTemp generation)

/-- Every temporary file is read again. -/
def checkTemps (codes : List Int) (size : Nat) (packed : Bytes) (root : Json) : Task Unit := do
  look fun d => (readBack d (speakerTemp generation) size kMaxSpeakerBytes).map fun _ => ()
  checkPacked context generation codes packed
  look fun d => checkManifest platform root d (manifestTemp manifest generation)

/-- The `try` block up to the first artifact that is published. -/
def stage (values : List UInt32) (codes : List Int) : Task Unit := do
  placeMarker platform manifest context generation
  writeBytes (speakerTemp generation) (speakerBytes values)
  hook
  let packed ← writeCodes context generation codes
  let (speaker, rvq) ← hashTemps context generation
  let root ← writeManifest platform manifest context extracted generation speaker rvq
  checkTemps platform manifest context generation codes (extracted.refSpkDim.toNat * 4) packed root
  rename (speakerTemp generation) (speakerName generation)

def publishCodes : Task Unit :=
  if context.xVectorOnly then pure ()
  else do
    rename (rvqTemp generation) (rvqName generation)

/-- The `try` block. -/
def publish (values : List UInt32) (codes : List Int) : Task Unit := do
  guarded manifest generation ⟨false, false, false⟩
    (stage platform manifest context extracted generation values codes)
  guarded manifest generation ⟨true, false, false⟩ do
    hook
    hook
    publishCodes context generation
  guarded manifest generation ⟨true, !context.xVectorOnly, false⟩ do
    hook
    hook
    rename (manifestTemp manifest generation) manifest
  guarded manifest generation ⟨true, !context.xVectorOnly, true⟩ do
    hook
    hook
    removeIfExists markerName

/-- Nothing is overwritten. -/
def refuseOverwrite : Task Unit := do
  let committed ← exists_ manifest
  let speaker ← exists_ (CppString.lit "reference.spk")
  let rvq ← exists_ (CppString.lit "reference.rvq")
  .ofExcept (refuseIf (committed || speaker || rvq)
    "refusing to overwrite an existing prepared voice publication")

/-- What stands before a new publication. -/
def admitPublication : Task Unit := do
  recoverIncompletePublication platform manifest
  refuseOverwrite manifest

/-- `load_prepared_voice_reference` of this directory. -/
def loadHere : Task PreparedData := look fun d =>
  loadPreparedVoiceReference platform.lib platform.sha context (d.file manifest) d.tree

def persistPreparedVoiceReference : Task PreparedData := do
  .ofExcept (validateContext context)
  hook
  let (values, codes) ← .ofExcept (checkExtracted context extracted)
  hook
  withLock do
    admitPublication platform manifest
    publish platform manifest context extracted generation values codes
    loadHere platform manifest context

end Tasks

end QwenTtsBridge.Voice.Prepared
