/-
  QwenTtsBridge.Voice.RegistryAgreement — when the two workers read the voice registry alike
  (`VoiceProfileRegistry.from_json_file` and `load_voice_registry`).

  What either reader makes of a row is a function of five fields (`Row`): `PythonOf` and
  `NativeOf` say which. They differ in three places: the id, which only Python trims; a path
  with `~`, which only Python expands; and the text, which both trim, but not of the same
  characters.

  - `registries_agree_iff`: of a document that both accept they make the same voices exactly
    when every row is plain there (`Plain`).
-/

import QwenTtsBridge.Voice.Registry
import QwenTtsBridge.Worker.PyMessages

namespace QwenTtsBridge.Voice

open QwenTtsBridge.Lib QwenTtsBridge.Python QwenTtsBridge.Protocol.Control QwenTtsBridge.Interop
open QwenTtsBridge.Worker.PyServer (sampleInterpreter)

/-! ## Rows -/

structure Row where
  voiceId : PyStr
  path : PyStr
  text : PyStr
  preserve : Bool
  xVectorOnly : Bool
  deriving DecidableEq, Repr

def textField (d : Dict) (name : String) : PyStr :=
  match Dict.get? d (PyStr.lit name) with
  | some (.str s) => s
  | _ => []

def flagField (d : Dict) (name : String) : Bool :=
  match Dict.get? d (PyStr.lit name) with
  | some (.bool b) => b
  | _ => false

def Row.of : Value → Row
  | .dict d =>
    { voiceId := textField d "voice_id"
      path := textField d "reference_audio_path"
      text := textField d "reference_text"
      preserve := flagField d "preserve_reference_text_whitespace"
      xVectorOnly := flagField d "x_vector_only" }
  | _ => ⟨[], [], [], false, false⟩

/-- The rows of a document. -/
def rowsOf : Value → List Row
  | .dict d =>
    match Dict.get? d (PyStr.lit "voices") with
    | some (.list rows) => rows.map Row.of
    | _ => []
  | _ => []

variable {φ : Type} {py : Interpreter} {files : Files φ} {row : Row}

theorem textField_of_getD {d : Dict} {name : String} {s : PyStr}
    (h : (Dict.get? d (PyStr.lit name)).getD (.str []) = .str s) : textField d name = s := by
  unfold textField
  cases hget : Dict.get? d (PyStr.lit name) with
  | none =>
    rw [hget] at h
    cases h
    rfl
  | some v =>
    rw [hget] at h
    cases h
    rfl

theorem flagField_of_getD {d : Dict} {name : String} {b : Bool}
    (h : (Dict.get? d (PyStr.lit name)).getD (.bool false) = .bool b) : flagField d name = b := by
  unfold flagField
  cases hget : Dict.get? d (PyStr.lit name) with
  | none =>
    rw [hget] at h
    cases h
    rfl
  | some v =>
    rw [hget] at h
    cases h
    rfl

/-! ## Python -/

structure PythonOf (py : Interpreter) (files : Files φ) (row : Row) (profile : PyVoiceProfile φ) : Prop where
  voiceId : profile.voiceId = strip py row.voiceId
  file : ∃ path, files.expandUser row.path = some path ∧ files.file (files.place path) = some profile.referenceAudio
  text : profile.referenceText = if row.preserve then row.text else strip py row.text
  xVectorOnly : profile.xVectorOnly = row.xVectorOnly

theorem preflight_file {path text : PyStr} {xVectorOnly : Bool} {audio : φ}
    (h : preflightReferenceAudio py files path text xVectorOnly = .ok audio) : files.file path = some audio := by
  unfold preflightReferenceAudio at h
  split at h
  · cases h
  · rename_i file hfile
    split at h
    · cases h
    · obtain ⟨-, -, h⟩ := exists_of_bind h
      split at h
      · cases h
      · cases h
        exact hfile

theorem parseVoiceProfile_python {value : Value} {profile : PyVoiceProfile φ}
    (h : parseVoiceProfile py files value = .ok profile) : PythonOf py files (Row.of value) profile := by
  unfold parseVoiceProfile at h
  split at h
  · rename_i d
    split at h
    · rename_i voiceId hid
      split at h
      · cases h
      · split at h
        · rename_i path hpath
          split at h
          · cases h
          · split at h
            · rename_i text preserve xVectorOnly htext hpreserve hx
              split at h
              · cases h
              · rename_i expanded hexpand
                obtain ⟨audio, haudio, h⟩ := exists_of_bind h
                cases h
                have hid' : (Row.of (.dict d)).voiceId = voiceId := by simp only [Row.of, textField, hid]
                have hpath' : (Row.of (.dict d)).path = path := by simp only [Row.of, textField, hpath]
                have htext' : (Row.of (.dict d)).text = text := textField_of_getD htext
                have hpreserve' : (Row.of (.dict d)).preserve = preserve := flagField_of_getD hpreserve
                refine ⟨by rw [hid'], ⟨expanded, by rw [hpath', hexpand], preflight_file haudio⟩, ?_, ?_⟩
                · rw [hpreserve', htext']
                · exact (flagField_of_getD hx).symm
            · cases h
        · cases h
    · cases h
  · cases h

theorem parseRows_python {profiles python : List (PyVoiceProfile φ)} {rows : List Value}
    (h : parseRows py files profiles rows = .ok python) (hdistinct : (profiles.map (·.voiceId)).Nodup) :
    (python.map (·.voiceId)).Nodup ∧
      ∃ new, python = profiles ++ new ∧ List.Forall₂ (PythonOf py files) (rows.map Row.of) new := by
  induction rows generalizing profiles with
  | nil =>
    cases h
    exact ⟨hdistinct, [], (List.append_nil _).symm, .nil⟩
  | cons value rows ih =>
    unfold parseRows at h
    obtain ⟨profile, hprofile, h⟩ := exists_of_bind h
    split at h
    · cases h
    · rename_i hfresh
      have hnew : ((profiles ++ [profile]).map (·.voiceId)).Nodup := by
        rw [List.map_append, List.map_singleton, ← List.concat_eq_append, List.nodup_concat]
        refine ⟨fun hmem => ?_, hdistinct⟩
        obtain ⟨q, hq, heq⟩ := List.mem_map.mp hmem
        exact hfresh (List.any_eq_true.mpr ⟨q, hq, by simp [heq]⟩)
      obtain ⟨hnodup, new, rfl, hall⟩ := ih h hnew
      refine ⟨hnodup, profile :: new, by simp, ?_⟩
      exact .cons (parseVoiceProfile_python hprofile) hall

theorem fromJson_python {payload : Value} {python : List (PyVoiceProfile φ)} (h : fromJson py files payload = .ok python) :
    (python.map (·.voiceId)).Nodup ∧ List.Forall₂ (PythonOf py files) (rowsOf payload) python := by
  unfold fromJson at h
  split at h
  · rename_i d
    split at h
    · cases h
    · split at h
      · rename_i rows hrows
        obtain ⟨hnodup, new, rfl, hall⟩ := parseRows_python h List.nodup_nil
        refine ⟨hnodup, ?_⟩
        simp only [rowsOf, hrows]
        exact hall
      · cases h
  · cases h

/-! ## Native -/

/-- The blanks of `trim_reference_text`, as code points. -/
def isBlank (c : Nat) : Bool := (9 ≤ c && c ≤ 13) || c == 32

structure NativeOf (files : Files φ) (row : Row) (entry : CppString × NativeVoiceProfile φ) : Prop where
  voiceId : Utf8.decode entry.1 = some row.voiceId
  file : files.file (files.place row.path) = some entry.2.referenceAudio
  text : row.xVectorOnly = false →
    Utf8.decode entry.2.referenceText = some (if row.preserve then row.text else trim isBlank row.text)
  xVectorOnly : entry.2.xVectorOnly = row.xVectorOnly

theorem isspace_eq (b : UInt8) : isspace b = isBlank b.toNat := by
  have heq : (b == 32) = (b.toNat == 32) := by
    rw [Bool.eq_iff_iff, beq_iff_eq, beq_iff_eq, ← UInt8.toNat_inj]
    rfl
  simp only [isspace, isBlank, UInt8.le_iff_toNat_le, heq]
  rfl

theorem isBlank_lt {c : Nat} (h : isBlank c = true) : c < 0x80 := by
  simp only [isBlank, Bool.or_eq_true, Bool.and_eq_true, decide_eq_true_eq, beq_iff_eq] at h
  omega

theorem isStrSpace_of_isBlank {c : Nat} (h : isBlank c = true) : isStrSpace py c = true := by
  have hlt := isBlank_lt h
  simp only [isBlank, Bool.or_eq_true, Bool.and_eq_true, decide_eq_true_eq, beq_iff_eq] at h
  simp only [isStrSpace, if_pos hlt, Bool.or_eq_true, Bool.and_eq_true, decide_eq_true_eq]
  omega

theorem decode_trimReferenceText {s : CppString} {t : PyStr} (h : Utf8.decode s = some t) :
    Utf8.decode (trimReferenceText s) = some (trim isBlank t) := by
  refine Utf8.decode_trim (fun b _ => isspace_eq b) (fun b hb => ?_) (fun c hc => isBlank_lt hc) h
  rw [isspace_eq] at hb
  exact isBlank_lt hb

section Fields

variable {fields : List (CppString × Json)} {d : Dict} {name : String} (h : Denotes (.object fields) (.dict d))
  (hname : isPlain name = true)

include h hname

theorem textField_of_string {s : CppString} (hfield : (Json.object fields).field name = some (.string s)) :
    Utf8.decode s = some (textField d name) := by
  obtain ⟨w, hw, hdenotes⟩ := h.get?_some hname hfield
  cases w with
  | str t =>
    simp only [textField, hw]
    exact hdenotes
  | _ => exact hdenotes.elim

theorem flagField_of_boolean {b : Bool} (hfield : (Json.object fields).field name = some (.boolean b)) :
    flagField d name = b := by
  obtain ⟨w, hw, hdenotes⟩ := h.get?_some hname hfield
  cases w with
  | bool b' =>
    simp only [flagField, hw]
    exact hdenotes.symm
  | _ => exact hdenotes.elim

theorem requiredString_text {voiceId s : CppString} (hread : requiredString (.object fields) name voiceId = .ok s) :
    Utf8.decode s = some (textField d name) := by
  unfold requiredString at hread
  dsimp only at hread
  split at hread
  · rename_i s' hfield
    split at hread
    · cases hread
    · cases hread
      exact textField_of_string h hname hfield
  · cases hread

theorem optionalText_text {failure s : CppString} (hread : optionalText (.object fields) name failure = .ok s) :
    Utf8.decode s = some (textField d name) := by
  unfold optionalText at hread
  split at hread
  · rename_i hfield
    cases hread
    simp only [textField, h.get?_none hname hfield]
    rfl
  · rename_i s' hfield
    cases hread
    exact textField_of_string h hname hfield
  · cases hread

theorem optionalFlag_flag {failure : CppString} {b : Bool}
    (hread : optionalFlag (.object fields) name failure = .ok b) : flagField d name = b := by
  unfold optionalFlag at hread
  split at hread
  · rename_i hfield
    cases hread
    simp only [flagField, h.get?_none hname hfield]
  · rename_i b' hfield
    cases hread
    exact flagField_of_boolean h hname hfield
  · cases hread

theorem flagValue_flag {b : Bool} (hread : flagValue (.object fields) name false = .ok b) : flagField d name = b := by
  unfold flagValue at hread
  split at hread
  · rename_i hfield
    cases hread
    simp only [flagField, h.get?_none hname hfield]
  · rename_i b' hfield
    cases hread
    exact flagField_of_boolean h hname hfield
  · cases hread

end Fields

theorem readProfile_native {fields : List (CppString × Json)} {d : Dict} (h : Denotes (.object fields) (.dict d))
    {voiceId unknown : CppString} {profile : NativeVoiceProfile φ}
    (hid : requiredString (.object fields) "voice_id" unknown = .ok voiceId)
    (hread : readProfile files (.object fields) voiceId = .ok profile) :
    NativeOf files (Row.of (.dict d)) (voiceId, profile) := by
  unfold readProfile at hread
  obtain ⟨reference, hreference, hread⟩ := exists_of_bind hread
  have hpath := requiredString_text h (by decide) hreference
  dsimp only at hread
  split at hread
  · cases hread
  rename_i audio haudio
  rw [hpath] at haudio
  obtain ⟨text, htext, hread⟩ := exists_of_bind hread
  obtain ⟨preserve, hpreserve, hread⟩ := exists_of_bind hread
  obtain ⟨xVectorOnly, hx, hread⟩ := exists_of_bind hread
  have hdecode := optionalText_text h (by decide) htext
  have hpreserve := optionalFlag_flag h (by decide) hpreserve
  have hflag := flagValue_flag h (by decide) hx
  generalize hused : (if !xVectorOnly && !preserve then trimReferenceText text else text) = used at hread
  split at hread
  · cases hread
  obtain ⟨⟨manifest, prepare⟩, -, hread⟩ := exists_of_bind hread
  cases hread
  refine ⟨requiredString_text h (by decide) hid, haudio, fun hoff => ?_, hflag.symm⟩
  have hoff' : xVectorOnly = false := hflag.symm.trans hoff
  show Utf8.decode used = some (if flagField d "preserve_reference_text_whitespace" then textField d "reference_text"
    else trim isBlank (textField d "reference_text"))
  rw [← hused, hpreserve, hoff']
  cases preserve with
  | true => exact hdecode
  | false => exact decode_trimReferenceText hdecode

theorem readRows_native {profiles native : List (CppString × NativeVoiceProfile φ)} {items : List Json}
    {rows : List Value} (hrows : itemsDenote items rows) (h : readRows files profiles items = .ok native) :
    ∃ new, native = profiles ++ new ∧ List.Forall₂ (NativeOf files) (rows.map Row.of) new := by
  induction items generalizing profiles rows with
  | nil =>
    cases rows with
    | nil =>
      cases h
      exact ⟨[], (List.append_nil _).symm, .nil⟩
    | cons _ _ => exact hrows.elim
  | cons item items ih =>
    cases rows with
    | nil => exact hrows.elim
    | cons value rows =>
      obtain ⟨hdenotes, hrest⟩ := hrows
      unfold readRows at h
      split at h
      · cases h
      rename_i hobject
      obtain ⟨voiceId, hid, h⟩ := exists_of_bind h
      split at h
      · cases h
      obtain ⟨profile, hprofile, h⟩ := exists_of_bind h
      obtain ⟨new, rfl, hall⟩ := ih hrest h
      refine ⟨(voiceId, profile) :: new, by simp, .cons ?_ hall⟩
      cases item with
      | object fields =>
        cases value with
        | dict d => exact readProfile_native hdenotes hid hprofile
        | _ => exact hdenotes.elim
      | _ => exact (hobject rfl).elim

theorem loadVoiceRegistry_native {document : Json} {payload : Value} {native : List (CppString × NativeVoiceProfile φ)}
    (hdoc : Denotes document payload) (h : loadVoiceRegistry files document = .ok native) :
    List.Forall₂ (NativeOf files) (rowsOf payload) native := by
  unfold loadVoiceRegistry at h
  split at h
  · cases h
  rename_i hobject
  split at h
  · cases h
  split at h
  · cases h
  split at h
  · cases h
  split at h
  · rename_i items hitems
    cases document with
    | object fields =>
      cases payload with
      | dict d =>
        obtain ⟨w, hw, hdenotes⟩ := hdoc.get?_some (by decide) hitems
        cases w with
        | list rows =>
          obtain ⟨new, rfl, hall⟩ := readRows_native hdenotes h
          simp only [rowsOf, hw]
          exact hall
        | _ => exact hdenotes.elim
      | _ => exact hdoc.elim
    | _ => exact (hobject rfl).elim
  · cases h

/-! ## Both -/

/-- The same voice ids, and for each the same flag, the same file and, when the text is used,
    the same text. -/
structure Alike (native : List (CppString × NativeVoiceProfile φ)) (python : List (PyVoiceProfile φ)) : Prop where
  ids : ∀ t, (∃ q ∈ python, q.voiceId = t) ↔ ∃ e ∈ native, Utf8.decode e.1 = some t
  voices : ∀ e ∈ native, ∀ q ∈ python, Utf8.decode e.1 = some q.voiceId →
    e.2.xVectorOnly = q.xVectorOnly ∧ e.2.referenceAudio = q.referenceAudio ∧
      (q.xVectorOnly = false → Utf8.decode e.2.referenceText = some q.referenceText)

/-- A row on which the differences of the readers do not show: its id neither begins nor
    ends with white space, its path names the same file with `~` expanded and without, and
    its text, if it is trimmed and used, neither begins nor ends with other white space
    than the six ASCII blanks. -/
structure Plain (py : Interpreter) (files : Files φ) (row : Row) : Prop where
  voiceId : Unblanked (isStrSpace py) row.voiceId
  file : ∀ path, files.expandUser row.path = some path →
    files.file (files.place path) = files.file (files.place row.path)
  text : row.xVectorOnly = false → row.preserve = false → Unblanked (isStrSpace py) (trim isBlank row.text)

/-- The two ways to trim a text give the same exactly when nothing else is there to trim. -/
theorem strip_eq_iff (py : Interpreter) (t : PyStr) :
    strip py t = trim isBlank t ↔ Unblanked (isStrSpace py) (trim isBlank t) := by
  constructor
  · intro h
    rw [← h]
    exact unblanked_trim _ _
  · intro h
    have hsame : trim (isStrSpace py) (trim isBlank t) = strip py t := trim_trim (fun _ => isStrSpace_of_isBlank) t
    rw [trim_of_unblanked h] at hsame
    exact hsame.symm

/-- What the readers make of one plain row. -/
theorem voices_of_plain (hrow : Plain py files row) {e : CppString × NativeVoiceProfile φ} {q : PyVoiceProfile φ}
    (he : NativeOf files row e) (hq : PythonOf py files row q) :
    e.2.xVectorOnly = q.xVectorOnly ∧ e.2.referenceAudio = q.referenceAudio ∧
      (q.xVectorOnly = false → Utf8.decode e.2.referenceText = some q.referenceText) := by
  refine ⟨he.xVectorOnly.trans hq.xVectorOnly.symm, ?_, fun hoff => ?_⟩
  · obtain ⟨path, hpath, hfile⟩ := hq.file
    have hsame := hrow.file path hpath
    rw [hfile, he.file] at hsame
    exact (Option.some.inj hsame).symm
  · have hoff' := hq.xVectorOnly.symm.trans hoff
    rw [he.text hoff', hq.text]
    by_cases hpreserve : row.preserve = true
    · rw [if_pos hpreserve, if_pos hpreserve]
    · rw [if_neg hpreserve, if_neg hpreserve, (strip_eq_iff py row.text).mpr (hrow.text hoff' (by simpa using hpreserve))]

/-- One row whose voices agree is plain. -/
theorem plain_of_voices {e : CppString × NativeVoiceProfile φ} {q : PyVoiceProfile φ} (he : NativeOf files row e)
    (hq : PythonOf py files row q) (hid : Unblanked (isStrSpace py) row.voiceId)
    (haudio : e.2.referenceAudio = q.referenceAudio)
    (htext : q.xVectorOnly = false → Utf8.decode e.2.referenceText = some q.referenceText) : Plain py files row := by
  refine ⟨hid, fun path hpath => ?_, fun hoff hpreserve => ?_⟩
  · obtain ⟨path', hpath', hfile⟩ := hq.file
    rw [hpath] at hpath'
    cases hpath'
    rw [hfile, he.file, haudio]
  · have hsame := htext (hq.xVectorOnly.trans hoff)
    rw [he.text hoff, hq.text, hpreserve] at hsame
    exact (strip_eq_iff py row.text).mp (Option.some.inj hsame).symm

section Pairs

variable {α β : Type} {R : α → β → Prop} {l : List α} {r : List β}

theorem exists_right_of_mem (h : List.Forall₂ R l r) {a : α} (ha : a ∈ l) : ∃ b ∈ r, R a b := by
  induction h with
  | nil => cases ha
  | cons hR _ ih =>
    rcases List.mem_cons.mp ha with rfl | ha
    · exact ⟨_, List.mem_cons_self, hR⟩
    · obtain ⟨b, hb, hab⟩ := ih ha
      exact ⟨b, List.mem_cons_of_mem _ hb, hab⟩

theorem exists_left_of_mem (h : List.Forall₂ R l r) {b : β} (hb : b ∈ r) : ∃ a ∈ l, R a b :=
  exists_right_of_mem h.flip hb

end Pairs

theorem registries_agree_iff {document : Json} {payload : Value} {native : List (CppString × NativeVoiceProfile φ)}
    {python : List (PyVoiceProfile φ)} (hdoc : Denotes document payload)
    (hnative : loadVoiceRegistry files document = .ok native) (hpython : fromJson py files payload = .ok python) :
    Alike native python ↔ ∀ row ∈ rowsOf payload, Plain py files row := by
  have hrowsN := loadVoiceRegistry_native hdoc hnative
  obtain ⟨hdistinct, hrowsP⟩ := fromJson_python hpython
  constructor
  · intro h row hrow
    obtain ⟨e, he, hnativeOf⟩ := exists_right_of_mem hrowsN hrow
    obtain ⟨q, hq, hpythonOf⟩ := exists_right_of_mem hrowsP hrow
    -- the native id is some voice's id of the Python reader, which has trimmed it
    obtain ⟨q', hq', hid⟩ := (h.ids row.voiceId).mpr ⟨e, he, hnativeOf.voiceId⟩
    obtain ⟨row', -, hpythonOf'⟩ := exists_left_of_mem hrowsP hq'
    have hplain : Unblanked (isStrSpace py) row.voiceId := by
      rw [← hid, hpythonOf'.voiceId]
      exact unblanked_trim _ _
    have hsame : q.voiceId = row.voiceId := hpythonOf.voiceId.trans (trim_of_unblanked hplain)
    obtain ⟨-, haudio, htext⟩ := h.voices e he q hq (hsame ▸ hnativeOf.voiceId)
    exact plain_of_voices hnativeOf hpythonOf hplain haudio htext
  · intro hplain
    have hkept {row : Row} (hrow : row ∈ rowsOf payload) : strip py row.voiceId = row.voiceId :=
      trim_of_unblanked (hplain row hrow).voiceId
    refine ⟨fun t => ⟨?_, ?_⟩, fun e he q hq hid => ?_⟩
    · rintro ⟨q, hq, rfl⟩
      obtain ⟨row, hrow, hpythonOf⟩ := exists_left_of_mem hrowsP hq
      obtain ⟨e, he, hnativeOf⟩ := exists_right_of_mem hrowsN hrow
      refine ⟨e, he, ?_⟩
      rw [hnativeOf.voiceId, hpythonOf.voiceId, hkept hrow]
    · rintro ⟨e, he, hid⟩
      obtain ⟨row, hrow, hnativeOf⟩ := exists_left_of_mem hrowsN he
      obtain ⟨q, hq, hpythonOf⟩ := exists_right_of_mem hrowsP hrow
      rw [hnativeOf.voiceId] at hid
      cases hid
      exact ⟨q, hq, hpythonOf.voiceId.trans (hkept hrow)⟩
    · obtain ⟨row, hrow, hnativeOf⟩ := exists_left_of_mem hrowsN he
      obtain ⟨q', hq', hpythonOf⟩ := exists_right_of_mem hrowsP hrow
      -- the profile that Python made of the same row has the same id, so it is this one
      rw [hnativeOf.voiceId] at hid
      have hsame : q'.voiceId = q.voiceId := (hpythonOf.voiceId.trans (hkept hrow)).trans (Option.some.inj hid)
      cases List.inj_on_of_nodup_map hdistinct hq' hq hsame
      exact voices_of_plain (hplain row hrow) hnativeOf hpythonOf

/-! ## A registry of one voice -/

/-- One recording, `a.wav` beside the registry. -/
def oneRecording : Files Unit where
  isAbsolute path := path.head? == some 47
  inRegistry path := PyStr.lit "/voices/" ++ path
  expandUser path := if path.head? == some 126 then none else some path
  file path := if path = PyStr.lit "/voices/a.wav" then some () else none
  unfit _ := none
  unsound _ := none
  canonical _ := CppString.lit "/voices/a.wav"
  resolveManifest _ := .error (CppString.lit "native_reference.manifest_path must be relative without traversal")

def oneVoiceDocument (voiceId : String) : Json :=
  .object [(CppString.lit "schema_version", .numberUnsigned 1), (CppString.lit "voices", .array [.object [
    (CppString.lit "reference_audio_path", .string (CppString.lit "a.wav")),
    (CppString.lit "reference_text", .string (CppString.lit " hello\n")),
    (CppString.lit "voice_id", .string (CppString.lit voiceId))]])]

def oneVoicePayload (voiceId : String) : Value :=
  .dict [(PyStr.lit "schema_version", .int 1), (PyStr.lit "voices", .list [.dict [
    (PyStr.lit "voice_id", .str (PyStr.lit voiceId)),
    (PyStr.lit "reference_audio_path", .str (PyStr.lit "a.wav")),
    (PyStr.lit "reference_text", .str (PyStr.lit " hello\n"))]])]

def nativeVoice (voiceId : String) : CppString × NativeVoiceProfile Unit :=
  (CppString.lit voiceId, ⟨(), CppString.lit "hello", false, false, none, false⟩)

def pythonVoice (voiceId : String) : PyVoiceProfile Unit := ⟨PyStr.lit voiceId, (), PyStr.lit "hello", false, false⟩

theorem a_plain_voice_is_read_alike :
    loadVoiceRegistry oneRecording (oneVoiceDocument "a") = .ok [nativeVoice "a"] ∧
      fromJson sampleInterpreter oneRecording (oneVoicePayload "a") = .ok [pythonVoice "a"] ∧
      Alike [nativeVoice "a"] [pythonVoice "a"] := by
  have hnative : loadVoiceRegistry oneRecording (oneVoiceDocument "a") = .ok [nativeVoice "a"] := by decide +kernel
  have hpython : fromJson sampleInterpreter oneRecording (oneVoicePayload "a") = .ok [pythonVoice "a"] := by
    decide +kernel
  refine ⟨hnative, hpython, (registries_agree_iff (denotes_of_eval (by decide +kernel)) hnative hpython).mpr fun row hrow => ?_⟩
  have hone : rowsOf (oneVoicePayload "a") = [⟨PyStr.lit "a", PyStr.lit "a.wav", PyStr.lit " hello\n", false, false⟩] :=
    rfl
  rw [hone, List.mem_singleton] at hrow
  subst hrow
  refine ⟨⟨by decide, by decide⟩, fun path hpath => ?_, fun _ _ => ⟨by decide, by decide⟩⟩
  cases hpath
  rfl

/-- A blank before the id: only Python trims it. -/
theorem a_blank_before_the_id_is_read_differently :
    Denotes (oneVoiceDocument " a") (oneVoicePayload " a") ∧
      loadVoiceRegistry oneRecording (oneVoiceDocument " a") = .ok [nativeVoice " a"] ∧
      fromJson sampleInterpreter oneRecording (oneVoicePayload " a") = .ok [pythonVoice "a"] ∧
      ¬ Alike [nativeVoice " a"] [pythonVoice "a"] := by
  refine ⟨denotes_of_eval (by decide +kernel), by decide +kernel, by decide +kernel, fun h => ?_⟩
  obtain ⟨q, hq, hid⟩ := (h.ids (PyStr.lit " a")).mpr ⟨_, List.mem_singleton_self _, decode_lit (by decide)⟩
  rw [List.mem_singleton] at hq
  subst hq
  exact absurd hid (by decide)

end QwenTtsBridge.Voice
