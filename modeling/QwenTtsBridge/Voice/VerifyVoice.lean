/-
  QwenTtsBridge.Voice.VerifyVoice — the static check of prepared voices
  (`verify_voice` with the native backend, `voice_library.py`).

  The check finds the row of the voice, works out which engine and models a voice has to be
  prepared for (`Binding`), and compares the manifest with the row, the binding and the
  artifacts. It says `prepared_stale` where the manifest is for something else and
  `prepared_corrupt` where it is not in order.

  The registry is given as the value that `json.loads` makes of it. The machine is a
  parameter: the directory of the registry with the files below it, the recordings, and the
  native profile that the configuration names. No path goes through a reparse point.
-/

import QwenTtsBridge.Voice.PreparedReference
import QwenTtsBridge.Voice.Registry

namespace QwenTtsBridge.Voice.Library

open QwenTtsBridge.Lib QwenTtsBridge.Lib.WindowsPath QwenTtsBridge.Python QwenTtsBridge.Voice.Prepared

/-! ## Exceptions -/

inductive Failure where
  /-- A ValueError of the module, such as `VoiceLibraryError`. -/
  | valueError (message : PyStr)
  | osError
  /-- Raised by `bytes.decode`, `json.loads`, `json.dumps` or `str.encode`. -/
  | exception (e : Exn)
  /-- `expanduser` found no home directory. -/
  | runtimeError
  deriving DecidableEq, Repr

/-- Caught by `except (OSError, KeyError, TypeError, ValueError, json.JSONDecodeError)`. -/
def Failure.isCaught : Failure → Bool
  | .valueError _ | .osError => true
  | .exception e => e.isValueError || e == .typeError
  | .runtimeError => false

/-- Caught by `except ValueError`. -/
def Failure.isValueError : Failure → Bool
  | .valueError _ => true
  | .exception e => e.isValueError
  | .osError | .runtimeError => false

/-- `str(exc)`; what the library says is left out. -/
def Failure.text : Failure → PyStr
  | .valueError message => message
  | _ => []

abbrev Outcome (α : Type) := Except Failure α

/-- A message that goes on with a path stops before it. -/
def raise {α : Type} (message : String) : Outcome α := .error (.valueError (PyStr.lit message))

def raiseFor {α : Type} (message : String) (voiceId : PyStr) : Outcome α :=
  .error (.valueError (PyStr.lit message ++ voiceId))

/-- `if not condition: raise ValueError(message)`. -/
def require (condition : Bool) (message : String) : Outcome Unit := if condition then .ok () else raise message

@[simp] theorem require_ok {condition : Bool} {message : String} {u : Unit} :
    require condition message = .ok u ↔ condition = true := by
  cases condition with
  | true => exact ⟨fun _ => rfl, fun _ => rfl⟩
  | false => exact ⟨nofun, nofun⟩

/-! ## Values -/

/-- `d.get(name)` where it is a string. -/
def str? (d : Dict) (name : String) : Option PyStr :=
  match Dict.get? d (PyStr.lit name) with
  | some (.str s) => some s
  | _ => none

/-- `d.get(name)` where it is an integer and no flag. -/
def int? (d : Dict) (name : String) : Option Int :=
  match Dict.get? d (PyStr.lit name) with
  | some (.int n) => some n
  | _ => none

def dict? (d : Dict) (name : String) : Option Dict :=
  match Dict.get? d (PyStr.lit name) with
  | some (.dict e) => some e
  | _ => none

/-- `v == n`. -/
def equalsInt (n : Int) : Value → Bool
  | .int m => m == n
  | .bool b => (if b then 1 else 0) == n
  | .float x => x == .ofInt n
  | _ => false

/-- `bool(v)`. -/
def truthy : Value → Bool
  | .none => false
  | .bool b => b
  | .int n => n != 0
  | .float x => x != .ofInt 0 && x != .ofRatio true 0 1
  | .str s => !s.isEmpty
  | .list items => !items.isEmpty
  | .dict items => !items.isEmpty

def isHexDigit (c : Nat) : Bool := (48 ≤ c && c ≤ 57) || (97 ≤ c && c ≤ 102) || (65 ≤ c && c ≤ 70)

def isSha256 (s : PyStr) : Bool := s.length == 64 && s.all isHexDigit

def sha256? (d : Dict) (name : String) : Option PyStr := (str? d name).filter isSha256

/-- `hashlib.sha256(value).hexdigest()`. -/
def hexdigest (sha : Sha256) (value : Bytes) : PyStr := (sha.hex value).map UInt8.toNat

/-- `str.lower()` where only ASCII can matter. -/
def lower (s : PyStr) : PyStr := s.map fun c => if 65 ≤ c ∧ c ≤ 90 then c + 32 else c

/-! ## Files -/

/-- A directory, by its resolved path, and the files below it. -/
structure Place where
  drive : PyStr
  rooted : isRooted drive = true
  names : List PyStr
  /-- The file system tells names apart by this. -/
  fold : PyStr → PyStr
  tree : Tree

/-- The directory of a file below this one. -/
def Place.parent (place : Place) (file : List PyStr) : Place :=
  { place with
    names := place.names ++ file.dropLast
    tree := fun names => place.tree (file.dropLast ++ names) }

/-- The file below a directory that a path names, as the names that lead to it: the body that
    `_resolve_manifest_artifact`, `_resolve_registry_relative_path` and
    `_resolve_runtime_artifact` share. -/
def resolveBelow (place : Place) (path : PyStr) (notRelative escapes : String) : Outcome (List PyStr) :=
  if isAbsolute path || (tailNames path).contains dotDot then raise notRelative
  else if hasRoot path then
    -- from the root of the drive of the directory
    if (place.names.map place.fold).isPrefixOf ((tailNames path).map place.fold) then
      .ok ((tailNames path).drop place.names.length)
    else raise escapes
  else if (drive path).isEmpty || lower (drive path) == lower place.drive then .ok (tailNames path)
  else raise escapes

def resolveManifestArtifact (place : Place) (value : PyStr) : Outcome (List PyStr) :=
  resolveBelow place value "native manifest artifact path is not relative"
    "native manifest artifact escapes its directory"

def resolveRuntimeArtifact (place : Place) (value : PyStr) : Outcome (List PyStr) :=
  resolveBelow place value "native runtime manifest contains an unsafe path"
    "native runtime manifest file escapes its directory"

def maxManifestBytes : Nat := 1 <<< 20
def maxSpeakerDimension : Int := 1 <<< 20
def maxSpeakerBytes : Int := 16 <<< 20
def maxRvqCodebooks : Int := 64
def maxRvqFrames : Int := 1 <<< 20
def maxRvqBytes : Int := 256 <<< 20

def readJsonFileBounded (py : Interpreter) (file : Option Bytes) (maximum : Nat) : Outcome Value :=
  match file with
  | none => .error .osError
  | some payload =>
    if maximum < payload.length then raise "JSON file is too large: "
    else
      match Utf8.decode payload with
      | none => .error (.exception .unicodeDecodeError)
      | some text =>
        match loads py text with
        | .ok v => .ok v
        | .error e => .error (.exception e)

def readBoundedArtifact (file : Option Bytes) (expected maximum : Int) : Outcome Bytes :=
  if expected ≤ 0 ∨ maximum < expected then raise "native artifact is missing or has an invalid size: "
  else
    match file with
    | none => raise "native artifact is missing or has an invalid size: "
    | some bytes =>
      if (bytes.length : Int) ≠ expected ∨ maximum < bytes.length then raise "native artifact size mismatch: "
      else .ok bytes

def sha256File (sha : Sha256) (file : Option Bytes) : Outcome PyStr :=
  match file with
  | none => .error .osError
  | some bytes => .ok (hexdigest sha bytes)

/-! ## Artifacts -/

def isNan (bits : Nat) : Bool := bits / 2 ^ 23 % 256 == 255 && bits % 2 ^ 23 != 0

def isInf (bits : Nat) : Bool := bits / 2 ^ 23 % 256 == 255 && bits % 2 ^ 23 == 0

section Artifacts

variable (sha : Sha256) (place : Place)

/-- The bytes of an artifact with this path and hash. -/
def verifiedArtifact (path hash : PyStr) (size maximum : Int) (message : String) : Outcome Bytes := do
  let file ← resolveManifestArtifact place path
  let bytes ← readBoundedArtifact (place.tree file) size maximum
  require (hexdigest sha bytes == hash) message
  .ok bytes

def verifySpeaker (speaker : Dict) : Outcome Unit :=
  match int? speaker "dimension", int? speaker "size_bytes" with
  | some dimension, some size => do
    require (decide (0 < dimension) && decide (dimension ≤ maxSpeakerDimension) && size == dimension * 4 &&
      decide (size ≤ maxSpeakerBytes)) "native speaker dimensions are invalid"
    require (str? speaker "scalar" == some (PyStr.lit "float32-le")) "native speaker scalar is unsupported"
    match sha256? speaker "sha256" with
    | none => raise "native speaker SHA-256 is invalid"
    | some hash =>
      match str? speaker "path" with
      | none => raise "native speaker path is invalid"
      | some path => do
        let bytes ← verifiedArtifact sha place path hash size maxSpeakerBytes
          "native speaker artifact is missing or corrupt"
        require ((floats bytes).all fun value => !isNan value && !isInf value)
          "native speaker artifact contains NaN or Inf"
  | _, _ => raise "native speaker dimensions are invalid"

def verifyRvq (rvq : Dict) : Outcome Unit :=
  match int? rvq "codebooks", int? rvq "frames", int? rvq "size_bytes" with
  | some codebooks, some frames, some size => do
    require (decide (0 < codebooks) && decide (codebooks ≤ maxRvqCodebooks) && decide (0 < frames) &&
      decide (frames ≤ maxRvqFrames)) "native RVQ dimensions are invalid"
    match str? rvq "path", sha256? rvq "sha256" with
    | some path, some hash => do
      -- any number that equals 11 is taken
      require ((Dict.get? rvq (PyStr.lit "bits_per_code")).any (equalsInt 11) &&
        str? rvq "layout" == some (PyStr.lit "codebook-major-frame-fastest") &&
        size == (codebooks * frames * 11 + 7) / 8 && decide (size ≤ maxRvqBytes))
        "native RVQ dimensions or layout are invalid"
      let _ ← verifiedArtifact sha place path hash size maxRvqBytes "native RVQ artifact is missing or corrupt"
      .ok ()
    | _, _ => raise "native RVQ artifact declaration is invalid"
  | _, _, _ => raise "native RVQ dimensions are invalid"

/-- `_verify_prepared_artifacts`; `place` is the directory of the manifest. -/
def verifyPreparedArtifacts (manifest : Dict) (xVectorOnly : Bool) : Outcome Unit :=
  match dict? manifest "speaker" with
  | none => raise "native speaker artifact declaration is invalid"
  | some speaker => do
    verifySpeaker sha place speaker
    if xVectorOnly then
      match Dict.get? manifest (PyStr.lit "rvq") with
      | some .none => .ok ()
      | _ => raise "x-vector-only native manifest requires rvq: null"
    else
      match dict? manifest "rvq" with
      | none => raise "ICL native manifest has no RVQ data"
      | some rvq => verifyRvq sha place rvq

end Artifacts

/-! ## The binding -/

structure Binding where
  nativeProfile : PyStr
  engine : PyStr
  engineCommit : PyStr
  qtAbiVersion : Int
  talkerSha256 : PyStr
  codecSha256 : PyStr
  bindingKey : PyStr
  deriving DecidableEq, Repr

/-- `ResolvedNativeProfile`: the directory of the runtime and the two models. -/
structure NativeProfile where
  runtime : Place
  talkerModel : Option Bytes
  codecModel : Option Bytes

def supportedNativeQtAbiVersion : Int := 6

/-- One entry of `files` in the runtime manifest: whether it is `qwen.dll`. -/
def verifyRuntimeFile (sha : Sha256) (runtime : Place) (item : Value) : Outcome Bool :=
  match item with
  | .dict d =>
    match str? d "path", sha256? d "sha256" with
    | some relative, some expected => do
      let artifact ← resolveRuntimeArtifact runtime relative
      let found ← match runtime.tree artifact with
        | none => raise "native runtime file verification failed: "
        | some bytes => .ok (hexdigest sha bytes)
      require (found == lower expected) "native runtime file verification failed: "
      .ok (artifact.getLast?.any fun name => lower name == PyStr.lit "qwen.dll")
    | _, _ => raise "native runtime manifest file is invalid: "
  | _ => raise "native runtime manifest file is invalid: "

def verifyRuntimeFiles (sha : Sha256) (runtime : Place) : List Value → Outcome Bool
  | [] => .ok false
  | item :: items => do
    let isDll ← verifyRuntimeFile sha runtime item
    let rest ← verifyRuntimeFiles sha runtime items
    .ok (isDll || rest)

/-- The commit and the ABI version that the runtime manifest gives. The engine is the only
    one that is taken. -/
def runtimeIdentity (value : Value) : Option (Dict × PyStr × Int) :=
  match value with
  | .dict d =>
    match str? d "engine_commit", int? d "qt_abi_version", str? d "architecture", str? d "backend" with
    | some commit, some abi, some architecture, some backend =>
      if (Dict.get? d (PyStr.lit "schema_version")).any (equalsInt 1) && str? d "engine" == some (PyStr.lit "qwentts.cpp") &&
          !commit.isEmpty && abi == supportedNativeQtAbiVersion && lower architecture == PyStr.lit "x64" &&
          !backend.isEmpty then
        some (d, commit, abi)
      else none
    | _, _, _, _ => none
  | _ => none

/-- `_load_runtime_identity`: the commit and the ABI version. -/
def loadRuntimeIdentity (py : Interpreter) (sha : Sha256) (runtime : Place) : Outcome (PyStr × Int) :=
  match readJsonFileBounded py (runtime.tree [PyStr.lit "manifest.json"]) maxManifestBytes with
  | .error e =>
    if e == .osError || e.isValueError then raise "native runtime manifest is invalid: " else .error e
  | .ok value =>
    match runtimeIdentity value with
    | none => raise "native runtime manifest identity is invalid: "
    | some (d, commit, abi) =>
      match Dict.get? d (PyStr.lit "files") with
      | some (.list (item :: items)) => do
        let dllDeclared ← verifyRuntimeFiles sha runtime (item :: items)
        require dllDeclared "native runtime manifest does not declare qwen.dll: "
        .ok (commit, abi)
      | _ => raise "native runtime manifest files are invalid: "

/-- `json.dumps(binding, sort_keys=True, …)`. -/
def bindingValue (nativeProfile engine commit talker codec : PyStr) (abi : Int) : Value :=
  .dict [(PyStr.lit "codec_sha256", .str codec), (PyStr.lit "engine", .str engine),
    (PyStr.lit "engine_commit", .str commit), (PyStr.lit "native_profile", .str nativeProfile),
    (PyStr.lit "qt_abi_version", .int abi), (PyStr.lit "talker_sha256", .str talker)]

def nativeBinding (py : Interpreter) (sha : Sha256) (profile : NativeProfile) (nativeProfile : PyStr) :
    Outcome Binding := do
  let (commit, abi) ← loadRuntimeIdentity py sha profile.runtime
  let talker ← sha256File sha profile.talkerModel
  let codec ← sha256File sha profile.codecModel
  match Utf8.encode (bindingValue nativeProfile (PyStr.lit "qwentts.cpp") commit talker codec abi).jsonText with
  | none => .error (.exception .unicodeEncodeError)
  | some encoded =>
    .ok ⟨nativeProfile, PyStr.lit "qwentts.cpp", commit, abi, talker, codec, (hexdigest sha encoded).take 32⟩

/-! ## The manifest -/

inductive Status where
  | unprepared
  | modelUnavailable (error : PyStr)
  /-- `reason: model_binding_changed`, or none. -/
  | preparedStale (bindingChanged : Bool)
  | preparedCorrupt (error : PyStr)
  | preparedValid (bindingKey : PyStr)
  deriving DecidableEq, Repr

/-- The row of a voice wants this of its prepared reference. -/
def xVectorOnly (row : Dict) : Bool := truthy ((Dict.get? row (PyStr.lit "x_vector_only")).getD (.bool false))

/-- `row.get("reference_text", "") == text`. -/
def hasText (row : Dict) (text : PyStr) : Bool :=
  match (Dict.get? row (PyStr.lit "reference_text")).getD (.str []) with
  | .str s => s == text
  | _ => false

/-- `row.get("reference_audio_sha256") in (None, hash)`. -/
def recordsHash (row : Dict) (hash : PyStr) : Bool :=
  match Dict.get? row (PyStr.lit "reference_audio_sha256") with
  | none | some .none => true
  | some (.str s) => s == hash
  | some _ => false

section Manifest

variable (sha : Sha256) (binding : Binding) (row : Dict)

/-- The source hash, the text and the flag of a manifest. -/
def readSource (manifest : Dict) : Outcome (PyStr × PyStr × Bool) := do
  require ((int? manifest "schema_version") == some 1) "native manifest schema_version is invalid"
  require (str? manifest "format" == some (PyStr.lit "qwen3-tts-native-voice-reference"))
    "unsupported native manifest format"
  match sha256? manifest "source_wav_sha256" with
  | none => raise "native manifest source_wav_sha256 is invalid"
  | some source =>
    match str? manifest "reference_text" with
    | none => raise "native manifest reference_text is invalid"
    | some text =>
      match Dict.get? manifest (PyStr.lit "x_vector_only") with
      | some (.bool flag) => .ok (source, text, flag)
      | _ => raise "native manifest x_vector_only is invalid"

def readEngine (manifest : Dict) : Outcome (PyStr × PyStr × Int) :=
  match dict? manifest "engine" with
  | none => raise "native manifest engine is invalid"
  | some engine =>
    match str? engine "name", str? engine "commit", int? engine "abi_version" with
    | some name, some commit, some abi =>
      if commit.isEmpty then raise "native manifest engine is invalid" else .ok (name, commit, abi)
    | _, _, _ => raise "native manifest engine is invalid"

def readModels (manifest : Dict) : Outcome (PyStr × PyStr) :=
  match dict? manifest "models" with
  | none => raise "native manifest models are invalid"
  | some models =>
    match sha256? models "talker_sha256", sha256? models "codec_sha256" with
    | some talker, some codec => .ok (talker, codec)
    | _, _ => raise "native manifest model hashes are invalid"

def checkPreprocessing (manifest : Dict) : Outcome Unit :=
  match dict? manifest "preprocessing" with
  | none => raise "native manifest preprocessing is invalid"
  | some preprocessing =>
    match int? preprocessing "version", int? preprocessing "sample_rate", int? preprocessing "channels",
        int? preprocessing "icl_trailing_silence_samples" with
    | some version, some rate, some channels, some silence =>
      require (version == 1 && rate == 24000 && channels == 1 &&
        str? preprocessing "sample_format" == some (PyStr.lit "float32") &&
        silence == (if xVectorOnly row then 0 else 12000)) "native manifest preprocessing is incompatible"
    | _, _, _, _ => raise "native manifest preprocessing is invalid"

/-- The `try` block of `verify_voice` after the manifest is read: `place` is its directory and
    `audio` the recording of the row. Whether the manifest is valid, or stale. -/
def verifyManifest (place : Place) (audio : Option Bytes) (manifest : Dict) : Outcome Bool := do
  let (source, text, flag) ← readSource manifest
  let current ← sha256File sha audio
  if source != current || !recordsHash row current || !hasText row text || flag != xVectorOnly row then .ok false
  else do
    let (name, commit, abi) ← readEngine manifest
    if name != binding.engine || commit != binding.engineCommit || abi != binding.qtAbiVersion then .ok false
    else do
      let (talker, codec) ← readModels manifest
      if talker != binding.talkerSha256 || codec != binding.codecSha256 then .ok false
      else do
        checkPreprocessing row manifest
        verifyPreparedArtifacts sha place manifest (xVectorOnly row)
        .ok true

/-- The `try` block with what is caught. -/
def manifestStatus (py : Interpreter) (place : Place) (audio file : Option Bytes) : Outcome Status :=
  let outcome : Outcome Bool := do
    let value ← readJsonFileBounded py file maxManifestBytes
    match value with
    | .dict manifest => verifyManifest sha binding row place audio manifest
    | _ => raise "native manifest must be a JSON object"
  match outcome with
  | .ok true => .ok (.preparedValid binding.bindingKey)
  | .ok false => .ok (.preparedStale false)
  | .error e => if e.isCaught then .ok (.preparedCorrupt e.text) else .error e

end Manifest

/-! ## Rows -/

def loadRows (py : Interpreter) : List PyStr → List Value → Outcome (List Dict)
  | _, [] => .ok []
  | seen, .dict d :: rows =>
    match str? d "voice_id" with
    | none => raise "voice_id must be a non-empty string"
    | some id => do
      require (!(strip py id).isEmpty) "voice_id must be a non-empty string"
      if seen.contains (strip py id) then raiseFor "duplicate voice_id: " (strip py id)
      else do
        let rest ← loadRows py (strip py id :: seen) rows
        .ok (Dict.set d (PyStr.lit "voice_id") (.str (strip py id)) :: rest)
  | _, _ :: _ => raise "each voice registry row must be an object"

/-- `load_voice_rows`, after `json.loads`. -/
def loadVoiceRows (py : Interpreter) (payload : Value) : Outcome (List Dict) :=
  match payload with
  | .dict d =>
    if (Dict.get? d (PyStr.lit "schema_version")).any (equalsInt 1) then
      match Dict.get? d (PyStr.lit "voices") with
      | some (.list rows) => loadRows py [] rows
      | _ => raise "voice registry voices must be an array"
    else raise "voice registry must be a schema_version 1 object"
  | _ => raise "voice registry must be a schema_version 1 object"

def requireVoiceId (py : Interpreter) (value : PyStr) : Outcome PyStr := do
  require (!(strip py value).isEmpty) "voice_id must be a non-empty string"
  require (decide ((strip py value).length ≤ 128)) "voice_id is too long"
  .ok (strip py value)

def findRow (py : Interpreter) (rows : List Dict) (voiceId : PyStr) : Outcome Dict := do
  let id ← requireVoiceId py voiceId
  match rows.find? fun row => str? row "voice_id" == some id with
  | some row => .ok row
  | none => raiseFor "voice_id was not found: " id

/-! ## The machine -/

/-- What `verify_voice` finds: the directory of the registry, the files that paths of rows
    name, and the native profile. -/
structure Machine where
  registry : Place
  files : Files Bytes
  /-- `resolve_native_profile`, which raises a ValueError. -/
  resolveNativeProfile : PyStr → Except PyStr NativeProfile

section Machine

variable (py : Interpreter) (sha : Sha256) (machine : Machine)

/-- `voice {row['voice_id']} has no reference_audio_path`. -/
def noAudioPath {α : Type} (row : Dict) : Outcome α :=
  .error (.valueError (PyStr.lit "voice " ++ (str? row "voice_id").getD [] ++ PyStr.lit " has no reference_audio_path"))

def rowAudioPath (row : Dict) : Outcome PyStr :=
  match str? row "reference_audio_path" with
  | none => noAudioPath row
  | some value =>
    if (strip py value).isEmpty then noAudioPath row
    else
      match machine.files.expandUser value with
      | none => .error .runtimeError
      | some path => .ok (machine.files.place path)

def resolveRegistryRelativePath (value : PyStr) : Outcome (List PyStr) :=
  match machine.files.expandUser value with
  | none => .error .runtimeError
  | some path =>
    resolveBelow machine.registry path "manifest_path must be a relative managed path"
      "manifest_path escapes the registry directory"

def validateEntries : List Value → Outcome Unit
  | [] => .ok ()
  | .dict entry :: entries =>
    match str? entry "manifest_path" with
    | none => raise "native reference requires manifest_path"
    | some path => do
      let _ ← resolveRegistryRelativePath machine path
      validateEntries entries
  | _ :: _ => raise "native reference entry must be an object"

def validateNativeReferencePaths (row : Dict) : Outcome Unit :=
  let legacy := match Dict.get? row (PyStr.lit "native_reference") with
    | none | some .none => []
    | some v => [v]
  match Dict.get? row (PyStr.lit "native_references") with
  | none | some .none => validateEntries machine legacy
  | some (.dict references) => validateEntries machine (legacy ++ references.map (·.2))
  | some _ => raise "native_references must be an object"

/-- `_select_native_reference`, and whether it is one of another binding. -/
def selectNativeReference (row : Dict) (bindingKey nativeProfile : PyStr) : Option (Dict × Bool) :=
  let legacy := (dict? row "native_reference").map fun d => (d, false)
  match dict? row "native_references" with
  | none => legacy
  | some references =>
    match Dict.get? references bindingKey with
    | some (.dict exact) => some (exact, false)
    | _ =>
      match references.find? fun p => match p.2 with
        | .dict d => str? d "native_profile" == some nativeProfile
        | _ => false with
      | some (_, .dict candidate) => some (candidate, true)
      | _ => legacy

/-- The end of `verify_voice`: a reference of this binding. -/
def verifyReference (binding : Binding) (row : Dict) (audio : PyStr) (reference : Dict) : Outcome Status :=
  match str? reference "manifest_path" with
  | none => .ok (.preparedCorrupt [])
  | some value =>
    match resolveRegistryRelativePath machine value with
    | .error e => if e.isValueError then .ok (.preparedCorrupt e.text) else .error e
    | .ok path =>
      match machine.registry.tree path with
      | none => .ok .unprepared
      | some file =>
        manifestStatus sha binding row py (machine.registry.parent path) (machine.files.file audio) (some file)

/-- `verify_voice` of a row that was found. -/
def verifyRow (row : Dict) (nativeProfile : PyStr) : Outcome Status := do
  let audio ← rowAudioPath py machine row
  require (!nativeProfile.isEmpty) "native verification requires --native-profile"
  match validateNativeReferencePaths machine row with
  | .error e => if e.isValueError then .ok (.preparedCorrupt e.text) else .error e
  | .ok _ =>
    match machine.resolveNativeProfile nativeProfile with
    | .error message => .ok (.modelUnavailable message)
    | .ok profile =>
      match nativeBinding py sha profile nativeProfile with
      | .error e => if e.isValueError then .ok (.modelUnavailable e.text) else .error e
      | .ok binding =>
        match selectNativeReference row binding.bindingKey nativeProfile with
        | none => .ok .unprepared
        | some (_, true) => .ok (.preparedStale true)
        | some (reference, false) => verifyReference py sha machine binding row audio reference

/-- `verify_voice(backend="native")`. -/
def verifyVoice (registry : Value) (voiceId nativeProfile : PyStr) : Outcome Status := do
  let rows ← loadVoiceRows py registry
  let row ← findRow py rows voiceId
  verifyRow py sha machine row nativeProfile

end Machine

end QwenTtsBridge.Voice.Library
