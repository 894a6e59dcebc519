/-
  QwenTtsBridge.Voice.PreparedReference — the reader of prepared voices
  (`load_prepared_voice_reference` of `prepared_voice_reference.cpp`).

  A prepared voice is a manifest and one or two artifacts: the speaker embedding, as 32-bit
  floats, and, unless the voice is x-vector only, the codes of the recording, packed into 11
  bits each. The reader takes them for a context, which says what they have to be made from.

  The files below the directory of the manifest are a function from the names that lead to a
  file to its bytes. No path goes through a reparse point. SHA-256 is a parameter.
-/

import QwenTtsBridge.Protocol.ControlCodec
import QwenTtsBridge.Python.Value
import QwenTtsBridge.Lib.Utf8
import QwenTtsBridge.Lib.LittleEndian
import QwenTtsBridge.Lib.WindowsPath

namespace QwenTtsBridge.Voice.Prepared

open QwenTtsBridge.Lib QwenTtsBridge.Lib.WindowsPath QwenTtsBridge.Python QwenTtsBridge.Protocol.Control

abbrev Bytes := List UInt8

/-! ## Digests -/

structure Sha256 where
  digest : Bytes → Bytes
  length_digest : ∀ bytes, (digest bytes).length = 32

def hexDigit (n : UInt8) : UInt8 := if n < 10 then 48 + n else 87 + n

def hexText (bytes : Bytes) : CppString := bytes.flatMap fun b => [hexDigit (b / 16), hexDigit (b % 16)]

/-- `sha256_bytes`, and `sha256_file` of a file with these bytes. -/
def Sha256.hex (sha : Sha256) (bytes : Bytes) : CppString := hexText (sha.digest bytes)

/-! ## Limits -/

def kSchemaVersion : Int := 1
def kPreprocessingVersion : Int := 1
def kSampleRate : Int := 24000
def kRvqCodeBits : Nat := 11
def kMaxRvqCode : Nat := 1 <<< kRvqCodeBits - 1
def kMaxSpeakerDimension : Int := 1 <<< 20
def kMaxRvqCodebooks : Int := 64
def kMaxRvqFrames : Int := 1 <<< 20
def kMaxManifestBytes : Nat := 1024 * 1024
def kMaxSpeakerBytes : Nat := 16 * 1024 * 1024
def kMaxRvqBytes : Nat := 256 * 1024 * 1024

/-- The largest `std::size_t` and `std::uintmax_t`. -/
def maxSize : Nat := 2 ^ 64 - 1

/-! ## Errors -/

inductive PreparedError where
  | runtimeError (what : CppString)
  /-- The text goes on with the path. -/
  | atPath (what : CppString) (path : List Nat)
  /-- `json::exception`. -/
  | json
  /-- `u8path` of bytes that are not UTF-8. -/
  | systemError
  deriving DecidableEq, Repr

abbrev Outcome (α : Type) := Except PreparedError α

def refuse {α : Type} (what : String) : Outcome α := .error (.runtimeError (CppString.lit what))

/-- `if (condition) throw std::runtime_error(what)`. -/
def refuseIf (condition : Bool) (what : String) : Outcome Unit := if condition then refuse what else .ok ()

@[simp] theorem refuseIf_ok {condition : Bool} {what : String} {u : Unit} :
    refuseIf condition what = .ok u ↔ condition = false := by
  cases condition with
  | false => exact ⟨fun _ => rfl, fun _ => rfl⟩
  | true => exact ⟨nofun, nofun⟩

theorem refuseIf_false {condition : Bool} (h : condition = false) (what : String) :
    refuseIf condition what = .ok () :=
  refuseIf_ok.mpr h

/-! ## Fields -/

def requiredString (object : Json) (name : String) : Outcome CppString :=
  match object.field name with
  | some (.string s) =>
    if s.isEmpty then refuse ("prepared voice manifest requires non-empty " ++ name) else .ok s
  | _ => refuse ("prepared voice manifest requires non-empty " ++ name)

/-- The low 32 bits of an integer: `get<int>()` checks no range. -/
def requiredInteger (object : Json) (name : String) : Outcome Int :=
  match object.field name with
  | some (.numberInteger n) => .ok (n.toInt.bmod (2 ^ 32))
  | some (.numberUnsigned n) => .ok ((n.toNat : Int).bmod (2 ^ 32))
  | _ => refuse ("prepared voice manifest requires integer " ++ name)

def requiredSize (object : Json) (name : String) : Outcome Nat :=
  match object.field name with
  | some (.numberUnsigned n) => .ok n.toNat
  | _ => refuse ("prepared voice manifest requires unsigned " ++ name)

/-- `root.at(name)`. -/
def at_ (root : Json) (name : String) : Outcome Json :=
  match root.field name with
  | some v => .ok v
  | none => .error .json

/-- `root.value(name, fallback)` for a string. -/
def stringValue (root : Json) (name : String) (fallback : CppString) : Outcome CppString :=
  match root.field name with
  | none => .ok fallback
  | some (.string s) => .ok s
  | some _ => .error .json

/-- `root.value(name, fallback)` for a flag. -/
def flagValue (root : Json) (name : String) (fallback : Bool) : Outcome Bool :=
  match root.field name with
  | none => .ok fallback
  | some (.boolean b) => .ok b
  | some _ => .error .json

/-! ## Files -/

/-- The regular files below a directory, by the names that lead to them. -/
abbrev Tree := List PyStr → Option Bytes

/-- The regular file that a relative path names. One that ends in a separator names none. -/
def Tree.file (tree : Tree) (path : PyStr) : Option Bytes :=
  if endsInSep path then none else tree (elements path)

def isSafeRelativePath (path : PyStr) : Bool :=
  !path.isEmpty && !isRooted path && (segments path).all fun part => part != dotDot && part != dot

def artifactPath (relativePath : CppString) : Outcome PyStr :=
  match Utf8.decode relativePath with
  | none => .error .systemError
  | some relative =>
    if isSafeRelativePath relative then .ok relative
    else refuse "prepared voice artifact path must be relative without traversal"

def readBoundedFile (tree : Tree) (path : PyStr) (expectedSize maximumSize : Nat) : Outcome Bytes :=
  match tree.file path with
  | none => .error (.atPath (CppString.lit "prepared voice artifact is missing: ") path)
  | some bytes =>
    if bytes.length = 0 ∨ bytes.length ≠ expectedSize ∨ maximumSize < bytes.length then
      .error (.atPath (CppString.lit "prepared voice artifact size mismatch: ") path)
    else .ok bytes

/-! ## Codes -/

/-- The inner loop of `unpack_codes`, until there are bits for one code. The accumulator holds
    at most 18 bits. -/
def refill (accumulator bits : Nat) : Bytes → Option (Nat × Nat × Bytes)
  | [] => if bits < kRvqCodeBits then none else some (accumulator, bits, [])
  | byte :: input =>
    if bits < kRvqCodeBits then refill (accumulator ||| byte.toNat <<< bits) (bits + 8) input
    else some (accumulator, bits, byte :: input)

def unpackLoop : Nat → Nat → Nat → Bytes → Option (List Nat)
  | 0, _, _, _ => some []
  | count + 1, accumulator, bits, input =>
    match refill accumulator bits input with
    | none => none
    | some (accumulator, bits, input) =>
      (unpackLoop count (accumulator >>> kRvqCodeBits) (bits - kRvqCodeBits) input).map
        ((accumulator &&& kMaxRvqCode) :: ·)

def unpackCodes (bytes : Bytes) (count : Nat) : Outcome (List Nat) :=
  match unpackLoop count 0 0 bytes with
  | none => refuse "prepared voice RVQ stream is truncated"
  | some codes => .ok codes

/-! ## Floats -/

/-- The 32-bit floats in little-endian bytes, as their bits. -/
def floats : Bytes → List Nat
  | a :: b :: c :: d :: rest => LittleEndian.readLe 4 [a, b, c, d] :: floats rest
  | _ => []

def isfinite (bits : Nat) : Bool := bits / 2 ^ 23 % 256 != 255

/-! ## The reader -/

structure PreparedContext where
  referenceText : CppString
  xVectorOnly : Bool
  sourceAudioSha256 : CppString
  talkerSha256 : CppString
  codecSha256 : CppString
  engineCommit : CppString
  abiVersion : Int
  numCodebooks : Int
  deriving DecidableEq, Repr

structure PreparedData where
  /-- The bits of the floats. -/
  speakerEmbedding : List Nat
  codes : List Nat
  frames : Int
  numCodebooks : Int
  cacheKey : CppString
  deriving DecidableEq, Repr

def validateContext (context : PreparedContext) : Outcome Unit :=
  refuseIf (context.engineCommit.isEmpty || decide (context.abiVersion ≤ 0) || decide (context.numCodebooks ≤ 0) ||
    context.talkerSha256.length != 64 || context.codecSha256.length != 64 || context.sourceAudioSha256.length != 64)
    "prepared voice context is incomplete"

/-- The texts go on with the path or with what the library says. -/
def readManifest (lib : JsonLibrary) (manifest : Option Bytes) : Outcome Json :=
  match manifest with
  | none => refuse "invalid prepared voice manifest: prepared voice manifest is missing: "
  | some text =>
    if kMaxManifestBytes < text.length then
      refuse "invalid prepared voice manifest: prepared voice manifest is too large: "
    else
      match lib.parse text with
      | .ok root => .ok root
      | .error _ => refuse "invalid prepared voice manifest: "

/-- A string field that has to be this one. -/
def expectString (object : Json) (name : String) (expected : CppString) (what : String) : Outcome Unit := do
  let value ← requiredString object name
  refuseIf (value != expected) what

def expectInteger (object : Json) (name : String) (expected : Int) (what : String) : Outcome Unit := do
  let value ← requiredInteger object name
  refuseIf (value != expected) what

def expectedSilence (context : PreparedContext) : Int := if context.xVectorOnly then 0 else 12000

/-- The identity that a manifest gives of its format. -/
def checkFormat (root : Json) : Outcome Unit := do
  refuseIf (!root.isObject) "unsupported prepared voice manifest format"
  expectInteger root "schema_version" kSchemaVersion "unsupported prepared voice manifest format"
  expectString root "format" (CppString.lit "qwen3-tts-native-voice-reference")
    "unsupported prepared voice manifest format"

/-- Of the recording, its text and the mode. -/
def checkSource (context : PreparedContext) (root : Json) : Outcome Unit := do
  let text ← stringValue root "reference_text" []
  refuseIf (text != context.referenceText) "prepared voice source or transcript identity mismatch"
  let xVectorOnly ← flagValue root "x_vector_only" (!context.xVectorOnly)
  refuseIf (xVectorOnly != context.xVectorOnly) "prepared voice source or transcript identity mismatch"
  expectString root "source_wav_sha256" context.sourceAudioSha256
    "prepared voice source or transcript identity mismatch"

def checkEngine (context : PreparedContext) (root : Json) : Outcome Unit := do
  let engine ← at_ root "engine"
  refuseIf (!engine.isObject) "prepared voice engine identity mismatch"
  expectString engine "name" (CppString.lit "qwentts.cpp") "prepared voice engine identity mismatch"
  expectString engine "commit" context.engineCommit "prepared voice engine identity mismatch"
  expectInteger engine "abi_version" context.abiVersion "prepared voice engine identity mismatch"

def checkModels (context : PreparedContext) (root : Json) : Outcome Unit := do
  let models ← at_ root "models"
  refuseIf (!models.isObject) "prepared voice model identity mismatch"
  expectString models "talker_sha256" context.talkerSha256 "prepared voice model identity mismatch"
  expectString models "codec_sha256" context.codecSha256 "prepared voice model identity mismatch"

def checkPreprocessing (context : PreparedContext) (root : Json) : Outcome Unit := do
  let preprocessing ← at_ root "preprocessing"
  refuseIf (!preprocessing.isObject) "prepared voice preprocessing identity mismatch"
  expectInteger preprocessing "version" kPreprocessingVersion "prepared voice preprocessing identity mismatch"
  expectInteger preprocessing "sample_rate" kSampleRate "prepared voice preprocessing identity mismatch"
  expectInteger preprocessing "channels" 1 "prepared voice preprocessing identity mismatch"
  expectInteger preprocessing "icl_trailing_silence_samples" (expectedSilence context)
    "prepared voice preprocessing identity mismatch"
  expectString preprocessing "sample_format" (CppString.lit "float32")
    "prepared voice preprocessing identity mismatch"

/-- The fields that say what the voice was made from. -/
def checkIdentity (context : PreparedContext) (root : Json) : Outcome Unit := do
  checkFormat root
  checkSource context root
  checkEngine context root
  checkModels context root
  checkPreprocessing context root

/-- The bytes of an artifact, with the hash that its declaration gives. -/
def readArtifact (sha : Sha256) (tree : Tree) (declaration : Json) (size maximum : Nat) (what : String) :
    Outcome (Bytes × CppString) := do
  let relative ← requiredString declaration "path"
  let path ← artifactPath relative
  let bytes ← readBoundedFile tree path size maximum
  let expected ← requiredString declaration "sha256"
  refuseIf (sha.hex bytes != expected) what
  .ok (bytes, expected)

/-- The speaker embedding and its hash. -/
def loadSpeaker (sha : Sha256) (tree : Tree) (speaker : Json) : Outcome (List Nat × CppString) := do
  let dimension ← requiredInteger speaker "dimension"
  let size ← requiredSize speaker "size_bytes"
  refuseIf (decide (dimension ≤ 0) || decide (kMaxSpeakerDimension < dimension) ||
    decide (maxSize / 4 < dimension.toNat) || size != dimension.toNat * 4 || decide (kMaxSpeakerBytes < size))
    "prepared voice speaker dimensions are invalid"
  expectString speaker "scalar" (CppString.lit "float32-le") "prepared voice speaker scalar is unsupported"
  let (bytes, hash) ← readArtifact sha tree speaker size kMaxSpeakerBytes "prepared voice speaker SHA-256 mismatch"
  refuseIf ((floats bytes).any fun value => !isfinite value) "prepared voice speaker embedding contains NaN or Inf"
  .ok (floats bytes, hash)

def rvqBytes (count : Nat) : Nat := (count * kRvqCodeBits + 7) / 8

/-- The codes, how many frames they are, and their hash. -/
def loadCodes (sha : Sha256) (tree : Tree) (context : PreparedContext) (rvq : Json) :
    Outcome (List Nat × Int × CppString) := do
  let codebooks ← requiredInteger rvq "codebooks"
  let frames ← requiredInteger rvq "frames"
  let bits ← requiredInteger rvq "bits_per_code"
  refuseIf (codebooks != context.numCodebooks || decide (codebooks ≤ 0) || decide (kMaxRvqCodebooks < codebooks) ||
    decide (frames ≤ 0) || decide (kMaxRvqFrames < frames) || bits != kRvqCodeBits)
    "prepared voice RVQ layout is incompatible"
  expectString rvq "layout" (CppString.lit "codebook-major-frame-fastest") "prepared voice RVQ layout is incompatible"
  refuseIf (decide (maxSize / frames.toNat < codebooks.toNat)) "prepared voice RVQ dimensions are too large"
  let count := codebooks.toNat * frames.toNat
  refuseIf (decide (maxSize / kRvqCodeBits < count)) "prepared voice RVQ dimensions are too large"
  let size ← requiredSize rvq "size_bytes"
  refuseIf (size != rvqBytes count || decide (kMaxRvqBytes < size)) "prepared voice RVQ size is invalid"
  let (bytes, hash) ← readArtifact sha tree rvq size kMaxRvqBytes "prepared voice RVQ SHA-256 mismatch"
  let codes ← unpackCodes bytes count
  .ok (codes, frames, hash)

/-- What stands in the cache key for the codes. -/
def loadRvq (sha : Sha256) (tree : Tree) (context : PreparedContext) (root : Json) :
    Outcome (List Nat × Int × CppString) :=
  if context.xVectorOnly then
    match root.field "rvq" with
    | some .null => .ok ([], 0, CppString.lit "xvector")
    | _ => refuse "x-vector-only prepared voice must not contain RVQ data"
  else
    match root.field "rvq" with
    | some (.object fields) => loadCodes sha tree context (.object fields)
    | _ => refuse "ICL prepared voice requires RVQ data"

/-- `load_prepared_voice_reference`: the manifest is the file at `context.manifest_path` and
    `tree` are the files below its directory. -/
def loadPreparedVoiceReference (lib : JsonLibrary) (sha : Sha256) (context : PreparedContext) (manifest : Option Bytes)
    (tree : Tree) : Outcome PreparedData := do
  validateContext context
  let root ← readManifest lib manifest
  checkIdentity context root
  let speaker ← at_ root "speaker"
  let (embedding, speakerHash) ← loadSpeaker sha tree speaker
  let (codes, frames, rvqHash) ← loadRvq sha tree context root
  .ok {
    speakerEmbedding := embedding
    codes := codes
    frames := frames
    numCodebooks := context.numCodebooks
    cacheKey := CppString.lit "prepared:" ++ speakerHash ++ CppString.lit ":" ++ rvqHash ++ CppString.lit ":" ++
      context.referenceText }

end QwenTtsBridge.Voice.Prepared
