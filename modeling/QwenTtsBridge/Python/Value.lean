/-
  QwenTtsBridge.Python.Value — the Python values that control messages are made of.

  A Python `str` is a sequence of code points that may hold lone surrogates, so it is
  not a Lean `String`. `Value` is what `json.loads` can return; a `dict` keeps its keys
  in insertion order.
-/

import QwenTtsBridge.Lib.Binary64

namespace QwenTtsBridge.Python

open QwenTtsBridge.Lib

/-- A Python `str`: code points below `0x110000`, surrogates included. -/
abbrev PyStr := List Nat

instance : LawfulBEq PyStr := inferInstance

/-- A literal of the source. -/
def PyStr.lit (s : String) : PyStr := s.toList.map Char.toNat

inductive Value where
  | none
  | bool (b : Bool)
  | int (n : Int)
  | float (x : Binary64)
  | str (s : PyStr)
  | list (items : List Value)
  | dict (items : List (PyStr × Value))
  deriving Repr

/-- A JSON object as `json.loads` returns it: the keys are distinct. -/
abbrev Dict := List (PyStr × Value)

/-- `d.get(key)`. -/
def Dict.get? (d : Dict) (key : PyStr) : Option Value := (d.find? (·.1 == key)).map (·.2)

/-! ## Equality -/

mutual

/-- Equality of values, to be evaluated. -/
def Value.same : Value → Value → Bool
  | .none, .none => true
  | .bool a, .bool b => a == b
  | .int a, .int b => a == b
  | .float x, .float y => x == y
  | .str s, .str t => s == t
  | .list a, .list b => itemsSame a b
  | .dict a, .dict b => fieldsSame a b
  | _, _ => false

def itemsSame : List Value → List Value → Bool
  | [], [] => true
  | v :: a, w :: b => v.same w && itemsSame a b
  | _, _ => false

def fieldsSame : List (PyStr × Value) → List (PyStr × Value) → Bool
  | [], [] => true
  | (k, v) :: a, (l, w) :: b => k == l && v.same w && fieldsSame a b
  | _, _ => false

end

mutual

theorem Value.eq_of_same : ∀ {v w : Value}, v.same w = true → v = w
  | v, w, h => by
    unfold Value.same at h
    split at h
    · rfl
    · rw [beq_iff_eq.mp h]
    · rw [beq_iff_eq.mp h]
    · rw [beq_iff_eq.mp h]
    · rw [beq_iff_eq.mp h]
    · rw [eq_of_itemsSame h]
    · rw [eq_of_fieldsSame h]
    · cases h

theorem eq_of_itemsSame : ∀ {a b : List Value}, itemsSame a b = true → a = b
  | [], [], _ => rfl
  | v :: a, w :: b, h => by
    rw [itemsSame, Bool.and_eq_true] at h
    rw [Value.eq_of_same h.1, eq_of_itemsSame h.2]
  | [], _ :: _, h => by cases h
  | _ :: _, [], h => by cases h

theorem eq_of_fieldsSame : ∀ {a b : List (PyStr × Value)}, fieldsSame a b = true → a = b
  | [], [], _ => rfl
  | (k, v) :: a, (l, w) :: b, h => by
    rw [fieldsSame, Bool.and_eq_true, Bool.and_eq_true] at h
    rw [beq_iff_eq.mp h.1.1, Value.eq_of_same h.1.2, eq_of_fieldsSame h.2]
  | [], _ :: _, h => by cases h
  | _ :: _, [], h => by cases h

end

mutual

theorem Value.same_self : ∀ v : Value, v.same v = true
  | .none => rfl
  | .bool b => by simp [Value.same]
  | .int n => by simp [Value.same]
  | .float x => by simp [Value.same]
  | .str s => by simp [Value.same]
  | .list items => by rw [Value.same, itemsSame_self items]
  | .dict items => by rw [Value.same, fieldsSame_self items]

theorem itemsSame_self : ∀ items : List Value, itemsSame items items = true
  | [] => rfl
  | v :: items => by rw [itemsSame, Value.same_self v, itemsSame_self items, Bool.and_self]

theorem fieldsSame_self : ∀ items : List (PyStr × Value), fieldsSame items items = true
  | [] => rfl
  | (k, v) :: items => by
    rw [fieldsSame, Value.same_self v, fieldsSame_self items, beq_self_eq_true, Bool.and_self, Bool.and_self]

end

instance : DecidableEq Value := fun v w =>
  decidable_of_iff (v.same w = true) ⟨Value.eq_of_same, fun h => h ▸ v.same_self⟩

end QwenTtsBridge.Python
