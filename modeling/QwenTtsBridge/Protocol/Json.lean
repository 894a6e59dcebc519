/-
  QwenTtsBridge.Protocol.Json — the values of `nlohmann::json` and what the codec asks of the
  library, whose code is not part of the repository.

  The library is a parameter (`JsonLibrary`). Where a result relies on what it documents,
  it names which part:
  - `Serializes`: `dump()` writes the compact text of a value, and throws exactly when a
    string or key of it is not UTF-8;
  - `ReadsBack`: `parse` of a dumped value gives the value. That is about values in the
    form that `parse` gives them (`Canonical`): finite numbers, a signed integer only when
    it is negative, the keys of an object in the order of its `std::map`.
-/

import QwenTtsBridge.Protocol.Control
import QwenTtsBridge.Lib.SortedMap
import QwenTtsBridge.Lib.Utf8

namespace QwenTtsBridge.Protocol.Control

open QwenTtsBridge.Lib

/-- `nlohmann::json`. The fields of an object are in the order in which it is walked. -/
inductive Json where
  | null
  | boolean (b : Bool)
  | numberInteger (n : Int64)
  | numberUnsigned (n : UInt64)
  | numberFloat (x : Binary64)
  | string (s : CppString)
  | array (items : List Json)
  | object (fields : List (CppString × Json))
  deriving Repr

/-- The fields of an object while it is built. -/
abbrev JsonObject := List (CppString × Json)

namespace JsonObject

/-- `out[name] = value`. -/
def set (object : JsonObject) (name : CppString) (value : Json) : JsonObject := SortedMap.insert name value object

/-- `Json{{name, value}, ...}` with distinct names. -/
def ofPairs (pairs : List (CppString × Json)) : JsonObject := pairs.foldl (fun out p => set out p.1 p.2) []

end JsonObject

namespace Json

/-- `object.find(name)`, or the null pointer of `find_field`. -/
def find : Json → CppString → Option Json
  | .object fields, name => SortedMap.find fields name
  | _, _ => none

def isObject : Json → Bool
  | .object _ => true
  | _ => false

@[simp] theorem isObject_object (object : JsonObject) : (Json.object object).isObject = true := rfl

@[simp] theorem find_empty (name : CppString) : (Json.object []).find name = none := rfl

theorem find_set (object : JsonObject) (name : CppString) (value : Json) (key : CppString) :
    (Json.object (object.set name value)).find key = if key = name then some value else (Json.object object).find key :=
  SortedMap.find_insert object name value key

/-! ## The form in which values are parsed -/

inductive Canonical : Json → Prop
  | null : Canonical .null
  | boolean (b : Bool) : Canonical (.boolean b)
  | numberInteger {n : Int64} : n < 0 → Canonical (.numberInteger n)
  | numberUnsigned (n : UInt64) : Canonical (.numberUnsigned n)
  | numberFloat (x : Binary64.Finite) : Canonical (.numberFloat (.finite x))
  | string (s : CppString) : Canonical (.string s)
  | array {items : List Json} : (∀ v ∈ items, Canonical v) → Canonical (.array items)
  | object {fields : List (CppString × Json)} :
    SortedMap.Sorted fields → (∀ p ∈ fields, Canonical p.2) → Canonical (.object fields)

theorem canonical_set {object : JsonObject} {value : Json} (h : Canonical (.object object)) (name : CppString)
    (hvalue : Canonical value) : Canonical (.object (object.set name value)) := by
  cases h with
  | object hsorted hfields =>
    refine .object (hsorted.insert name value) fun p hp => ?_
    rcases SortedMap.mem_insert hp with rfl | hp
    · exact hvalue
    · exact hfields p hp

theorem canonical_empty : Canonical (.object []) :=
  .object SortedMap.sorted_nil fun _ hp => (List.not_mem_nil hp).elim

theorem canonical_ofPairs {pairs : List (CppString × Json)} (h : ∀ p ∈ pairs, Canonical p.2) :
    Canonical (.object (JsonObject.ofPairs pairs)) := by
  have hfold : ∀ object : JsonObject, Canonical (.object object) →
      Canonical (.object (pairs.foldl (fun out p => JsonObject.set out p.1 p.2) object)) := by
    induction pairs with
    | nil => exact fun object hobject => hobject
    | cons p pairs ih =>
      intro object hobject
      exact ih (fun q hq => h q (List.mem_cons_of_mem _ hq)) _ (canonical_set hobject p.1 (h p List.mem_cons_self))
  exact hfold [] canonical_empty

end Json

/-! ## The compact text -/

/-- `dump()` escapes what JSON requires and copies everything else, `ensure_ascii` being off. -/
def escapeByte (b : UInt8) : CppString :=
  if b = 0x08 then CppString.lit "\\b"
  else if b = 0x09 then CppString.lit "\\t"
  else if b = 0x0A then CppString.lit "\\n"
  else if b = 0x0C then CppString.lit "\\f"
  else if b = 0x0D then CppString.lit "\\r"
  else if b = 0x22 then CppString.lit "\\\""
  else if b = 0x5C then CppString.lit "\\\\"
  else if b ≤ 0x1F then
    CppString.lit "\\u00" ++ [if b < 0x10 then 48 else 49, if b % 0x10 < 10 then 48 + b % 0x10 else 87 + b % 0x10]
  else [b]

def stringText (s : CppString) : CppString := [34] ++ s.flatMap escapeByte ++ [34]

def decimalText (n : Nat) : CppString :=
  if n = 0 then [48] else ((Nat.digits 10 n).map fun d => UInt8.ofNat (48 + d)).reverse

mutual

/-- The text of a value; `floatText` writes a floating-point number. -/
def Json.text (floatText : Binary64 → CppString) : Json → CppString
  | .null => CppString.lit "null"
  | .boolean b => if b then CppString.lit "true" else CppString.lit "false"
  | .numberInteger n => (if n < 0 then CppString.lit "-" else []) ++ decimalText n.toInt.natAbs
  | .numberUnsigned n => decimalText n.toNat
  | .numberFloat x => floatText x
  | .string s => stringText s
  | .array items => CppString.lit "[" ++ itemsText floatText items ++ CppString.lit "]"
  | .object fields => CppString.lit "\x7b" ++ fieldsText floatText fields ++ CppString.lit "\x7d"

def itemsText (floatText : Binary64 → CppString) : List Json → CppString
  | [] => []
  | [v] => v.text floatText
  | v :: w :: rest => v.text floatText ++ CppString.lit "," ++ itemsText floatText (w :: rest)

def fieldsText (floatText : Binary64 → CppString) : List (CppString × Json) → CppString
  | [] => []
  | [(k, v)] => stringText k ++ CppString.lit ":" ++ v.text floatText
  | (k, v) :: kv :: rest =>
    stringText k ++ CppString.lit ":" ++ v.text floatText ++ CppString.lit "," ++ fieldsText floatText (kv :: rest)

end

def isUtf8 (s : CppString) : Bool := (Utf8.decode s).isSome

mutual

/-- Every string and key is UTF-8. -/
def Json.isUtf8 : Json → Bool
  | .string s => Control.isUtf8 s
  | .array items => itemsUtf8 items
  | .object fields => fieldsUtf8 fields
  | _ => true

def itemsUtf8 : List Json → Bool
  | [] => true
  | v :: rest => v.isUtf8 && itemsUtf8 rest

def fieldsUtf8 : List (CppString × Json) → Bool
  | [] => true
  | (k, v) :: rest => isUtf8 k && v.isUtf8 && fieldsUtf8 rest

end

/-! ## The library -/

/-- What a call of the library throws, with its `what()`. -/
inductive JsonException where
  | parseError (what : CppString)
  | typeError (what : CppString)
  /-- Another `std::exception`, such as `out_of_range`. -/
  | exception (what : CppString)
  | unknown
  deriving DecidableEq, Repr

structure JsonLibrary where
  parse : CppString → Except JsonException Json
  dump : Json → Except JsonException CppString
  floatText : Binary64 → CppString

namespace JsonLibrary

structure Serializes (lib : JsonLibrary) : Prop where
  utf8 : ∀ v : Json, v.isUtf8 = true → lib.dump v = .ok (v.text lib.floatText)
  illFormed : ∀ v : Json, v.isUtf8 = false → ∃ e, lib.dump v = .error e

def ReadsBack (lib : JsonLibrary) : Prop :=
  ∀ v text, Json.Canonical v → lib.dump v = .ok text → lib.parse text = .ok v

/-- A library that writes every value and reads the texts of these. -/
def reading (values : List Json) : JsonLibrary where
  parse text :=
    match values.find? fun v => v.text (fun _ => []) == text with
    | some v => .ok v
    | none => .error (.parseError (CppString.lit "syntax error"))
  dump v := if v.isUtf8 then .ok (v.text fun _ => []) else .error (.typeError (CppString.lit "invalid UTF-8 byte"))
  floatText _ := []

theorem reading_serializes (values : List Json) : (reading values).Serializes where
  utf8 v hv := if_pos hv
  illFormed v hv := ⟨_, if_neg (by rw [hv]; decide)⟩

theorem reading_parse (v : Json) : (reading [v]).parse (v.text fun _ => []) = .ok v := by
  simp [reading]

end JsonLibrary

end QwenTtsBridge.Protocol.Control
