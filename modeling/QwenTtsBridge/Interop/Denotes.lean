/-
  QwenTtsBridge.Interop.Denotes — when a value of `nlohmann::json` and a Python value are one
  JSON value.

  The two sides keep a JSON value differently: a string as its UTF-8 bytes or its code
  points, an object as a map in the order of its keys or a `dict` in the order of the text,
  an integer in 64 bits, or as a floating-point number when it does not fit, or exactly.

  `Agree lib py text`: what the two libraries make of one text. That both agree is assumed
  where a payload crosses from one to the other, and only of the payload that does.
-/

import QwenTtsBridge.Protocol.Json
import QwenTtsBridge.Protocol.ControlCodec
import QwenTtsBridge.Python.Json

namespace QwenTtsBridge.Interop

open QwenTtsBridge.Lib QwenTtsBridge.Python QwenTtsBridge.Protocol.Control

mutual

def Denotes : Json → Value → Prop
  | .null, .none => True
  | .boolean a, .bool b => a = b
  | .numberInteger a, .int b => a.toInt = b
  | .numberUnsigned a, .int b => (a.toNat : Int) = b
  -- an integer that neither 64-bit type holds
  | .numberFloat x, .int n => (n < -(2 ^ 63) ∨ 2 ^ 64 ≤ n) ∧ x = .ofInt n
  | .numberFloat x, .float y => x = y
  | .string s, .str t => Utf8.decode s = some t
  | .array items, .list values => itemsDenote items values
  | .object fields, .dict d => fieldsDenote fields d ∧ ∀ p ∈ d, ∃ q ∈ fields, Utf8.decode q.1 = some p.1
  | _, _ => False

def itemsDenote : List Json → List Value → Prop
  | [], [] => True
  | v :: items, w :: values => Denotes v w ∧ itemsDenote items values
  | _, _ => False

/-- Every field is in the dict. -/
def fieldsDenote : List (CppString × Json) → Dict → Prop
  | [], _ => True
  | (k, v) :: fields, d => (∃ s w, Utf8.decode k = some s ∧ d.get? s = some w ∧ Denotes v w) ∧ fieldsDenote fields d

end

/-! ## Evaluation -/

mutual

/-- `Denotes`, to be evaluated. -/
def denotes? : Json → Value → Bool
  | .null, .none => true
  | .boolean a, .bool b => a == b
  | .numberInteger a, .int b => a.toInt == b
  | .numberUnsigned a, .int b => (a.toNat : Int) == b
  | .numberFloat x, .int n => (decide (n < -(2 ^ 63)) || decide (2 ^ 64 ≤ n)) && x == .ofInt n
  | .numberFloat x, .float y => x == y
  | .string s, .str t => Utf8.decode s == some t
  | .array items, .list values => itemsDenote? items values
  | .object fields, .dict d =>
    fieldsDenote? fields d && d.all fun p => fields.any fun q => Utf8.decode q.1 == some p.1
  | _, _ => false

def itemsDenote? : List Json → List Value → Bool
  | [], [] => true
  | v :: items, w :: values => denotes? v w && itemsDenote? items values
  | _, _ => false

def fieldsDenote? : List (CppString × Json) → Dict → Bool
  | [], _ => true
  | (k, v) :: fields, d =>
    (match Utf8.decode k with
    | none => false
    | some s =>
      match d.get? s with
      | none => false
      | some w => denotes? v w) && fieldsDenote? fields d

end

mutual

theorem denotes_of_eval : ∀ {v : Json} {w : Value}, denotes? v w = true → Denotes v w
  | v, w, h => by
    unfold denotes? at h
    split at h
    · trivial
    · simpa [Denotes] using h
    · simpa [Denotes] using h
    · simpa [Denotes] using h
    · simpa [Denotes] using h
    · simpa [Denotes] using h
    · simpa [Denotes] using h
    · exact itemsDenote_of_eval h
    · simp only [Bool.and_eq_true, List.all_eq_true, List.any_eq_true, beq_iff_eq] at h
      exact ⟨fieldsDenote_of_eval h.1, h.2⟩
    · cases h

theorem itemsDenote_of_eval : ∀ {items : List Json} {values : List Value}, itemsDenote? items values = true →
    itemsDenote items values
  | [], [], _ => trivial
  | v :: items, w :: values, h => by
    rw [itemsDenote?, Bool.and_eq_true] at h
    exact ⟨denotes_of_eval h.1, itemsDenote_of_eval h.2⟩
  | [], _ :: _, h => by cases h
  | _ :: _, [], h => by cases h

theorem fieldsDenote_of_eval : ∀ {fields : List (CppString × Json)} {d : Dict}, fieldsDenote? fields d = true →
    fieldsDenote fields d
  | [], _, _ => trivial
  | (k, v) :: fields, d, h => by
    rw [fieldsDenote?, Bool.and_eq_true] at h
    refine ⟨?_, fieldsDenote_of_eval h.2⟩
    have hhead := h.1
    split at hhead
    · cases hhead
    · rename_i s hs
      split at hhead
      · cases hhead
      · rename_i w hw
        exact ⟨s, w, hs, hw, denotes_of_eval hhead⟩

end

/-! ## Names -/

def isPlain (name : String) : Bool := name.toList.all (·.toNat < 0x80)

theorem lit_ascii {name : String} (h : isPlain name = true) : ∀ b ∈ CppString.lit name, b < 0x80 := by
  intro b hb
  obtain ⟨c, hc, rfl⟩ := List.mem_map.mp hb
  have hlt : c.toNat < 0x80 := by simpa using List.all_eq_true.mp h c hc
  show (UInt8.ofNat c.toNat).toNat < 0x80
  rw [UInt8.toNat_ofNat']
  omega

theorem lit_toNat {name : String} (h : isPlain name = true) :
    (CppString.lit name).map UInt8.toNat = PyStr.lit name := by
  rw [CppString.lit, PyStr.lit, List.map_map]
  refine List.map_congr_left fun c hc => ?_
  have hlt : c.toNat < 0x80 := by simpa using List.all_eq_true.mp h c hc
  show (UInt8.ofNat c.toNat).toNat = c.toNat
  rw [UInt8.toNat_ofNat']
  omega

theorem decode_lit {name : String} (h : isPlain name = true) :
    Utf8.decode (CppString.lit name) = some (PyStr.lit name) := by
  rw [Utf8.decode_ascii (lit_ascii h), lit_toNat h]

/-- A key that decodes to a name of the source is that name. -/
theorem eq_lit_of_decode {name : String} (h : isPlain name = true) {key : CppString}
    (hkey : Utf8.decode key = some (PyStr.lit name)) : key = CppString.lit name := by
  have hascii : ∀ c ∈ PyStr.lit name, c < 0x80 := by
    intro c hc
    obtain ⟨d, hd, rfl⟩ := List.mem_map.mp hc
    simpa using List.all_eq_true.mp h d hd
  have hbytes := Utf8.bytes_of_decode_ascii hkey hascii
  rw [← lit_toNat h] at hbytes
  exact List.map_injective_iff.mpr (fun a b hab => UInt8.toNat_inj.mp hab) hbytes

/-! ## Fields -/

section Fields

variable {fields : List (CppString × Json)} {d : Dict}

theorem fieldsDenote_mem (h : fieldsDenote fields d) {k : CppString} {v : Json} (hmem : (k, v) ∈ fields) :
    ∃ s w, Utf8.decode k = some s ∧ d.get? s = some w ∧ Denotes v w := by
  induction fields with
  | nil => cases hmem
  | cons p rest ih =>
    obtain ⟨k', v'⟩ := p
    obtain ⟨hhead, hrest⟩ := h
    rcases List.mem_cons.mp hmem with heq | hmem
    · cases heq
      exact hhead
    · exact ih hrest hmem

theorem mem_of_get? {key : PyStr} {w : Value} (h : d.get? key = some w) : (key, w) ∈ d := by
  obtain ⟨p, hp, rfl⟩ := Option.map_eq_some_iff.mp h
  have hkey : p.1 = key := by simpa using List.find?_some hp
  rw [← hkey]
  exact List.mem_of_find?_eq_some hp

variable (h : Denotes (.object fields) (.dict d)) {name : String} (hname : isPlain name = true)

include h hname

theorem Denotes.get?_some {v : Json} (hfield : (Json.object fields).field name = some v) :
    ∃ w, d.get? (PyStr.lit name) = some w ∧ Denotes v w := by
  obtain ⟨s, w, hs, hw, hv⟩ := fieldsDenote_mem h.1 (SortedMap.mem_of_find hfield)
  rw [decode_lit hname] at hs
  cases hs
  exact ⟨w, hw, hv⟩

theorem Denotes.get?_none (hfield : (Json.object fields).field name = none) : d.get? (PyStr.lit name) = none := by
  by_contra hne
  obtain ⟨w, hw⟩ := Option.ne_none_iff_exists'.mp hne
  obtain ⟨q, hq, hdecode⟩ := h.2 _ (mem_of_get? hw)
  have hkey := eq_lit_of_decode hname hdecode
  obtain ⟨k, v⟩ := q
  cases hkey
  exact SortedMap.find_ne_none hq hfield

theorem Denotes.isSome_get? : (d.get? (PyStr.lit name)).isSome = ((Json.object fields).field name).isSome := by
  cases hfield : (Json.object fields).field name with
  | none =>
    rw [h.get?_none hname hfield]
    rfl
  | some v =>
    obtain ⟨w, hw, -⟩ := h.get?_some hname hfield
    rw [hw]
    rfl

end Fields

/-! ## Texts -/

/-- Both libraries take the text as one value, or both refuse it. -/
inductive Agree (lib : JsonLibrary) (py : Interpreter) (text : CppString) : Prop
  | value {v : Json} {s : PyStr} {w : Value} : lib.parse text = .ok v → Utf8.decode text = some s →
    loads py s = .ok w → Denotes v w → Agree lib py text
  | refused {e : JsonException} : lib.parse text = .error e →
    (∀ s, Utf8.decode text = some s → ∃ e, loads py s = .error e) → Agree lib py text

theorem Agree.of_parse {lib : JsonLibrary} {py : Interpreter} {text : CppString} {v : Json} (h : Agree lib py text)
    (hv : lib.parse text = .ok v) : ∃ s w, Utf8.decode text = some s ∧ loads py s = .ok w ∧ Denotes v w := by
  cases h with
  | value hparse hs hw hdenotes =>
    rw [hv] at hparse
    cases hparse
    exact ⟨_, _, hs, hw, hdenotes⟩
  | refused hparse _ =>
    rw [hv] at hparse
    cases hparse

end QwenTtsBridge.Interop
