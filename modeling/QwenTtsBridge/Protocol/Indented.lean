/-
  QwenTtsBridge.Protocol.Indented — the text that `dump(2)` writes, and its size.

  Every entry of an object or an array goes on a line of its own, two blanks further in than
  what it belongs to; an empty object or array takes one line. Proved: what an object takes
  that is built from distinct names, from what its values take (`indentedBytes_fields`).
-/

import QwenTtsBridge.Protocol.PayloadSize

namespace QwenTtsBridge.Protocol.Control

open QwenTtsBridge.Lib

def blanks (n : Nat) : CppString := List.replicate n 32

mutual

/-- The text of a value that stands `indent` blanks in. -/
def Json.indented (floatText : Binary64 → CppString) (indent : Nat) : Json → CppString
  | .array items =>
    if items.isEmpty then CppString.lit "[]"
    else [91, 10] ++ indentedItems floatText (indent + 2) items ++ [10] ++ blanks indent ++ [93]
  | .object fields =>
    if fields.isEmpty then [123, 125]
    else [123, 10] ++ indentedFields floatText (indent + 2) fields ++ [10] ++ blanks indent ++ [125]
  | v => v.text floatText

def indentedItems (floatText : Binary64 → CppString) (indent : Nat) : List Json → CppString
  | [] => []
  | [v] => blanks indent ++ v.indented floatText indent
  | v :: w :: rest =>
    blanks indent ++ v.indented floatText indent ++ [44, 10] ++ indentedItems floatText indent (w :: rest)

def indentedFields (floatText : Binary64 → CppString) (indent : Nat) : List (CppString × Json) → CppString
  | [] => []
  | [(k, v)] => blanks indent ++ stringText k ++ [58, 32] ++ v.indented floatText indent
  | (k, v) :: kv :: rest =>
    blanks indent ++ stringText k ++ [58, 32] ++ v.indented floatText indent ++ [44, 10] ++
      indentedFields floatText indent (kv :: rest)

end

section Size

variable (floatText : Binary64 → CppString)

def Json.indentedBytes (indent : Nat) (v : Json) : Nat := (v.indented floatText indent).length

/-- A line and its end. -/
def lineBytes (indent : Nat) (name : CppString) (valueBytes : Nat) : Nat := indent + quotedBytes name + 2 + valueBytes + 2

theorem length_indentedFields (indent : Nat) {fields : JsonObject} (h : fields ≠ []) :
    (indentedFields floatText indent fields).length + 2 =
      (fields.map fun p => lineBytes indent p.1 (p.2.indentedBytes floatText indent)).sum := by
  induction fields with
  | nil => exact absurd rfl h
  | cons p rest ih =>
    obtain ⟨k, v⟩ := p
    cases rest with
    | nil =>
      simp only [indentedFields, List.length_append, List.length_cons, List.length_nil, length_stringText, blanks,
        List.length_replicate, List.map_cons, List.map_nil, List.sum_cons, List.sum_nil, lineBytes, Json.indentedBytes]
      omega
    | cons q rest =>
      have hrest := ih (List.cons_ne_nil q rest)
      rw [List.map_cons, List.sum_cons, ← hrest]
      simp only [indentedFields, List.length_append, List.length_cons, List.length_nil, length_stringText, blanks,
        List.length_replicate, lineBytes, Json.indentedBytes]
      omega

theorem indentedBytes_object (indent : Nat) {fields : JsonObject} (h : fields ≠ []) :
    (Json.object fields).indentedBytes floatText indent =
      indent + 2 + (fields.map fun p => lineBytes (indent + 2) p.1 (p.2.indentedBytes floatText (indent + 2))).sum := by
  rw [← length_indentedFields floatText (indent + 2) h, Json.indentedBytes, Json.indented,
    if_neg (by simpa using h)]
  simp only [List.length_append, List.length_cons, List.length_nil, blanks, List.length_replicate]
  omega

theorem indentedBytes_fields (indent : Nat) {pairs : List (String × Json)} (h : Distinct (pairs.map Prod.fst))
    (hne : pairs ≠ []) :
    (Json.object (JsonObject.fields pairs)).indentedBytes floatText indent = indent + 2 + (pairs.map fun p =>
      lineBytes (indent + 2) (CppString.lit p.1) (p.2.indentedBytes floatText (indent + 2))).sum := by
  have hperm := (fields_perm h).map fun p => lineBytes (indent + 2) p.1 (p.2.indentedBytes floatText (indent + 2))
  rw [indentedBytes_object floatText indent (fields_ne_nil h hne), hperm.sum_nat, List.map_map]
  rfl

variable (indent : Nat)

@[simp] theorem indentedBytes_null : Json.null.indentedBytes floatText indent = 4 := rfl

@[simp] theorem indentedBytes_string (s : CppString) : (Json.string s).indentedBytes floatText indent = quotedBytes s := by
  rw [Json.indentedBytes, Json.indented, Json.text, length_stringText]
  · simp
  · simp

@[simp] theorem indentedBytes_unsigned (n : UInt64) :
    (Json.numberUnsigned n).indentedBytes floatText indent = (decimalText n.toNat).length := by
  rw [Json.indentedBytes, Json.indented, Json.text]
  · simp
  · simp

@[simp] theorem indentedBytes_boolean (b : Bool) :
    (Json.boolean b).indentedBytes floatText indent = if b then 4 else 5 := by
  cases b <;> rfl

end Size

end QwenTtsBridge.Protocol.Control
