/-
  QwenTtsBridge.Voice.Registry — the two readers of the shared voice registry
  (`VoiceProfileRegistry.from_json_file` of `engine/voice_profiles.py` and
  `NativeEngine::load_voice_registry` of `native_engine.cpp`).

  Both go through the rows of `voices` and make a profile of each. The document is given as
  the value that the reader's own JSON library makes of it. The files of the machine are a
  parameter (`Files`): which file a path names, the home directory in `~`, what is found
  wrong with a recording and where a prepared manifest is.

  The Python reader trims the id and, unless the row says not to, the text, with the white
  space of `str.strip`. The native reader leaves the id alone and trims the text with the
  white space of `std::isspace`, in the C locale.
-/

import QwenTtsBridge.Interop.Denotes
import QwenTtsBridge.Lib.Trim
import QwenTtsBridge.Lib.Outcome

namespace QwenTtsBridge.Voice

open QwenTtsBridge.Lib QwenTtsBridge.Python QwenTtsBridge.Protocol.Control QwenTtsBridge.Interop

/-! ## White space -/

/-- `str.isspace` of one character. -/
def isStrSpace (py : Interpreter) (c : Nat) : Bool :=
  if c < 128 then (9 ≤ c && c ≤ 13) || (28 ≤ c && c ≤ 32) else py.isSpace c

/-- `str.strip()`. -/
def strip (py : Interpreter) (s : PyStr) : PyStr := trim (isStrSpace py) s

/-- `std::isspace` of one byte. -/
def isspace (b : UInt8) : Bool := (9 ≤ b && b ≤ 13) || b == 32

def trimReferenceText (value : CppString) : CppString := trim isspace value

/-! ## Files -/

/-- The machine that both workers run on; `φ` are its files. -/
structure Files (φ : Type) where
  isAbsolute : PyStr → Bool
  /-- The directory of the registry joined with a path. -/
  inRegistry : PyStr → PyStr
  /-- `Path.expanduser`, which throws when there is no such user. -/
  expandUser : PyStr → Option PyStr
  /-- The regular file that a path names, through links. -/
  file : PyStr → Option φ
  /-- What `preflight_reference_audio` finds wrong with a recording: its name and size, and
      later what is in it. -/
  unfit : PyStr → Option PyStr
  unsound : PyStr → Option PyStr
  /-- `weakly_canonical(path).u8string()`. -/
  canonical : PyStr → CppString
  /-- `resolve_prepared_manifest_path`. -/
  resolveManifest : CppString → Except CppString PyStr

/-- A path of a row, from the directory of the registry. -/
def Files.place {φ : Type} (files : Files φ) (path : PyStr) : PyStr :=
  if files.isAbsolute path then path else files.inRegistry path

/-! ## The Python reader -/

inductive PyRegistryError where
  | voiceProfileError (message : PyStr)
  /-- `expanduser` found no home directory. -/
  | runtimeError
  deriving DecidableEq, Repr

structure PyVoiceProfile (φ : Type) where
  voiceId : PyStr
  referenceAudio : φ
  referenceText : PyStr
  preserveReferenceTextWhitespace : Bool
  xVectorOnly : Bool
  deriving DecidableEq, Repr

def maxReferenceTextCharacters : Nat := 1024

section Python

variable {φ : Type} (py : Interpreter) (files : Files φ)

def invalid {α : Type} (message : PyStr) : Except PyRegistryError α := .error (.voiceProfileError message)

def validateReferenceText (referenceText : PyStr) (xVectorOnly : Bool) : Except PyRegistryError Unit :=
  let text := strip py referenceText
  if !xVectorOnly && text.isEmpty then invalid (PyStr.lit "reference text is required unless x_vector_only is true")
  else if maxReferenceTextCharacters < text.length then
    invalid (PyStr.lit "reference text must not exceed 1024 characters")
  else .ok ()

/-- `preflight_reference_audio`: the file behind the path. -/
def preflightReferenceAudio (path referenceText : PyStr) (xVectorOnly : Bool) : Except PyRegistryError φ :=
  match files.file path with
  | none => invalid (PyStr.lit "reference audio must identify an existing local file")
  | some file =>
    match files.unfit path with
    | some message => invalid message
    | none => do
      validateReferenceText py referenceText xVectorOnly
      match files.unsound path with
      | some message => invalid message
      | none => .ok file

def parseVoiceProfile (row : Value) : Except PyRegistryError (PyVoiceProfile φ) :=
  match row with
  | .dict d =>
    match Dict.get? d (PyStr.lit "voice_id") with
    | some (.str voiceId) =>
      if (strip py voiceId).isEmpty then invalid (PyStr.lit "voice profile voice_id must be a non-empty string")
      else
        match Dict.get? d (PyStr.lit "reference_audio_path") with
        | some (.str path) =>
          if (strip py path).isEmpty then
            invalid (PyStr.lit "voice profile " ++ voiceId ++
              PyStr.lit " reference_audio_path must be a non-empty string")
          else
            match (Dict.get? d (PyStr.lit "reference_text")).getD (.str []),
                (Dict.get? d (PyStr.lit "preserve_reference_text_whitespace")).getD (.bool false),
                (Dict.get? d (PyStr.lit "x_vector_only")).getD (.bool false) with
            | .str text, .bool preserve, .bool xVectorOnly =>
              match files.expandUser path with
              | none => .error .runtimeError
              | some path => do
                let audio ← preflightReferenceAudio py files (files.place path) text xVectorOnly
                .ok ⟨strip py voiceId, audio, if preserve then text else strip py text, preserve, xVectorOnly⟩
            | _, _, _ =>
              invalid (PyStr.lit "voice profile " ++ voiceId ++ PyStr.lit " has invalid reference_text, " ++
                PyStr.lit "preserve_reference_text_whitespace, or x_vector_only")
        | _ =>
          invalid (PyStr.lit "voice profile " ++ voiceId ++
            PyStr.lit " reference_audio_path must be a non-empty string")
    | _ => invalid (PyStr.lit "voice profile voice_id must be a non-empty string")
  | _ => invalid (PyStr.lit "each voice profile must be an object")

/-- The loop of `from_json_file` over the rows. -/
def parseRows : List (PyVoiceProfile φ) → List Value → Except PyRegistryError (List (PyVoiceProfile φ))
  | profiles, [] => .ok profiles
  | profiles, row :: rows => do
    let profile ← parseVoiceProfile py files row
    if profiles.any (·.voiceId == profile.voiceId) then
      invalid (PyStr.lit "voice profile registry has duplicate voice_id: " ++ profile.voiceId)
    else parseRows (profiles ++ [profile]) rows

/-- `v == 1`. -/
def equalsOne : Value → Bool
  | .int n => n == 1
  | .bool b => b
  | .float x => x == .ofInt 1
  | _ => false

/-- `from_json_file`, after `json.loads`. -/
def fromJson (payload : Value) : Except PyRegistryError (List (PyVoiceProfile φ)) :=
  match payload with
  | .dict d =>
    if !((Dict.get? d (PyStr.lit "schema_version")).any equalsOne) then
      invalid (PyStr.lit "voice profile registry schema_version must be 1")
    else
      match Dict.get? d (PyStr.lit "voices") with
      | some (.list rows) => parseRows py files [] rows
      | _ => invalid (PyStr.lit "voice profile registry voices must be an array")
  | _ => invalid (PyStr.lit "voice profile registry root must be an object")

end Python

/-! ## The native reader -/

inductive NativeRegistryError where
  | runtimeError (what : CppString)
  /-- `nlohmann::json::type_error`. -/
  | typeError
  deriving DecidableEq, Repr

structure NativeVoiceProfile (φ : Type) where
  referenceAudio : φ
  referenceText : CppString
  preserveReferenceTextWhitespace : Bool
  xVectorOnly : Bool
  preparedManifestPath : Option PyStr
  prepareIfMissing : Bool
  deriving DecidableEq, Repr

section Native

variable {φ : Type} (files : Files φ)

def refuse {α : Type} (what : CppString) : Except NativeRegistryError α := .error (.runtimeError what)

def requiredString (object : Json) (name : String) (voiceId : CppString) : Except NativeRegistryError CppString :=
  let failure := CppString.lit "voice profile '" ++ voiceId ++ CppString.lit "' requires a non-empty " ++
    CppString.lit name
  match object.field name with
  | some (.string s) => if s.isEmpty then refuse failure else .ok s
  | _ => refuse failure

/-- `object.value(name, fallback)` for a flag. -/
def flagValue (object : Json) (name : String) (fallback : Bool) : Except NativeRegistryError Bool :=
  match object.field name with
  | none => .ok fallback
  | some (.boolean b) => .ok b
  | some _ => .error .typeError

/-- A text that may be missing. -/
def optionalText (object : Json) (name : String) (failure : CppString) : Except NativeRegistryError CppString :=
  match object.field name with
  | none => .ok []
  | some (.string s) => .ok s
  | some _ => refuse failure

/-- A flag that may be missing. -/
def optionalFlag (object : Json) (name : String) (failure : CppString) : Except NativeRegistryError Bool :=
  match object.field name with
  | none => .ok false
  | some (.boolean b) => .ok b
  | some _ => refuse failure

/-- The prepared manifest of a row and `prepare_if_missing`. -/
def readNativeReference (item : Json) (voiceId : CppString) : Except NativeRegistryError (Option PyStr × Bool) :=
  match item.field "native_reference" with
  | none => .ok (none, false)
  | some (.object fields) =>
    match (Json.object fields).field "manifest_path" with
    | some (.string path) =>
      if path.isEmpty then
        refuse (CppString.lit "native voice profile native_reference requires manifest_path: " ++ voiceId)
      else
        match files.resolveManifest path with
        | .error what => refuse what
        | .ok resolved => do
          let prepare ← optionalFlag (.object fields) "prepare_if_missing"
            (CppString.lit "native voice profile prepare_if_missing must be a boolean: " ++ voiceId)
          .ok (some resolved, prepare)
    | _ => refuse (CppString.lit "native voice profile native_reference requires manifest_path: " ++ voiceId)
  | some _ => refuse (CppString.lit "native voice profile native_reference must be an object: " ++ voiceId)

/-- The body of the loop of `load_voice_registry` after the check for duplicates. -/
def readProfile (item : Json) (voiceId : CppString) : Except NativeRegistryError (NativeVoiceProfile φ) := do
  let reference ← requiredString item "reference_audio_path" voiceId
  let path := files.place ((Utf8.decode reference).getD [])
  match files.file path with
  | none => refuse (CppString.lit "native voice profile reference audio is missing: " ++ files.canonical path)
  | some audio =>
    let text ← optionalText item "reference_text"
      (CppString.lit "native voice profile reference_text must be a string: " ++ voiceId)
    let preserve ← optionalFlag item "preserve_reference_text_whitespace"
      (CppString.lit "native voice profile preserve_reference_text_whitespace must be a boolean: " ++ voiceId)
    let xVectorOnly ← flagValue item "x_vector_only" false
    let text := if !xVectorOnly && !preserve then trimReferenceText text else text
    if !xVectorOnly && text.isEmpty then
      refuse (CppString.lit "native voice profile '" ++ voiceId ++
        CppString.lit "' requires a non-empty reference_text unless x_vector_only is true")
    else
      let (manifest, prepare) ← readNativeReference files item voiceId
      .ok ⟨audio, text, preserve, xVectorOnly, manifest, prepare⟩

/-- The loop of `load_voice_registry` over the rows. -/
def readRows : List (CppString × NativeVoiceProfile φ) → List Json →
    Except NativeRegistryError (List (CppString × NativeVoiceProfile φ))
  | profiles, [] => .ok profiles
  | profiles, item :: items =>
    if !item.isObject then refuse (CppString.lit "native voice registry entries must be objects")
    else do
      let voiceId ← requiredString item "voice_id" (CppString.lit "<unknown>")
      if profiles.any (·.1 == voiceId) then refuse (CppString.lit "duplicate native voice profile: " ++ voiceId)
      else
        let profile ← readProfile files item voiceId
        readRows (profiles ++ [(voiceId, profile)]) items

/-- `get<int>()`: the low 32 bits of an integer, a number cut to an integer, 0 or 1. A number
    that is too large to be cut is undefined behaviour and taken for a refusal. -/
def getInt : Json → Option Int
  | .boolean b => some (if b then 1 else 0)
  | .numberInteger n => some (n.toInt.bmod (2 ^ 32))
  | .numberUnsigned n => some ((n.toNat : Int).bmod (2 ^ 32))
  | .numberFloat (.finite x) => if -(2 ^ 31) ≤ x.toInt ∧ x.toInt < 2 ^ 31 then some x.toInt else none
  | _ => none

/-- `load_voice_registry`, after `Json::parse`. -/
def loadVoiceRegistry (document : Json) : Except NativeRegistryError (List (CppString × NativeVoiceProfile φ)) :=
  if !document.isObject then refuse (CppString.lit "native voice registry schema_version must be 1")
  else
    match document.field "schema_version" with
    | none => refuse (CppString.lit "native voice registry schema_version must be 1")
    | some version =>
      match getInt version with
      | none => .error .typeError
      | some n =>
        if n ≠ 1 then refuse (CppString.lit "native voice registry schema_version must be 1")
        else
          match document.field "voices" with
          | some (.array items) => readRows files [] items
          | _ => refuse (CppString.lit "native voice registry voices must be an array")

end Native

end QwenTtsBridge.Voice
