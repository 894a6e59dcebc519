/-
  QwenTtsBridge.Python.Builtins — the exceptions, number conversions and texts of CPython
  that the worker's frame handling uses: `float`, `int`, `str` and `repr`.

  What depends on the interpreter is in `Interpreter`: how deep its recursion may go from
  the place of the call, the limit on integer text (`sys.get_int_max_str_digits`), and
  the Unicode database of its release.
-/

import QwenTtsBridge.Python.Value

namespace QwenTtsBridge.Python

open QwenTtsBridge.Lib

/-- The exceptions that the code tells apart or lets through. -/
inductive Exn where
  | unicodeDecodeError
  | unicodeEncodeError
  | jsonDecodeError
  /-- A ValueError of no subclass. -/
  | valueError
  | typeError
  | overflowError
  | recursionError
  deriving DecidableEq, Repr

/-- Caught by `except ValueError`. -/
def Exn.isValueError : Exn → Bool
  | .unicodeDecodeError | .unicodeEncodeError | .jsonDecodeError | .valueError => true
  | .typeError | .overflowError | .recursionError => false

/-- The name of the class. -/
def Exn.name : Exn → PyStr
  | .unicodeDecodeError => PyStr.lit "UnicodeDecodeError"
  | .unicodeEncodeError => PyStr.lit "UnicodeEncodeError"
  | .jsonDecodeError => PyStr.lit "JSONDecodeError"
  | .valueError => PyStr.lit "ValueError"
  | .typeError => PyStr.lit "TypeError"
  | .overflowError => PyStr.lit "OverflowError"
  | .recursionError => PyStr.lit "RecursionError"

structure Interpreter where
  /-- How many containers `json.loads` and `json.dumps` can enter, one inside the other, and
      how many nested calls of `repr` there is room for. -/
  loadsNesting : Nat
  dumpsNesting : Nat
  reprNesting : Nat
  /-- Zero is no limit. -/
  maxStrDigits : Nat
  /-- The Unicode database above ASCII. -/
  decimalDigit : Nat → Option Nat
  isSpace : Nat → Bool
  isPrintable : Nat → Bool
  dumpsNesting_pos : 0 < dumpsNesting
  maxStrDigits_min : maxStrDigits = 0 ∨ 640 ≤ maxStrDigits

/-- Whether a number of this many digits is past the limit on integer text. -/
def Interpreter.digitsExceeded (py : Interpreter) (count : Nat) : Bool :=
  0 < py.maxStrDigits && py.maxStrDigits < count

/-! ## Values -/

mutual

/-- The integers in a value, in order. -/
def Value.ints : Value → List Int
  | .int n => [n]
  | .list items => itemsInts items
  | .dict items => fieldsInts items
  | .none | .bool _ | .float _ | .str _ => []

def itemsInts : List Value → List Int
  | [] => []
  | v :: rest => v.ints ++ itemsInts rest

def fieldsInts : List (PyStr × Value) → List Int
  | [] => []
  | (_, v) :: rest => v.ints ++ fieldsInts rest

end

/-- No more than `room` containers, one inside the other. -/
def Value.nestsWithin : Nat → Value → Bool
  | 0, .list _ | 0, .dict _ => false
  | room + 1, .list items => items.all (nestsWithin room)
  | room + 1, .dict items => items.all fun (_, v) => nestsWithin room v
  | _, .none | _, .bool _ | _, .int _ | _, .float _ | _, .str _ => true

/-! ## Integers -/

/-- The decimal digits of `n`. -/
def natDigits (n : Nat) : PyStr := if n = 0 then [48] else (Nat.digits 10 n).reverse.map (48 + ·)

/-- `int.__repr__`. -/
def intRepr (py : Interpreter) (n : Int) : Except Exn PyStr :=
  let digits := natDigits n.natAbs
  if py.digitsExceeded digits.length then .error .valueError
  else .ok (if n < 0 then PyStr.lit "-" ++ digits else digits)

/-- Every integer in the value is within the limit on integer text. -/
def Value.IntsWithin (py : Interpreter) (v : Value) : Prop :=
  ∀ n ∈ v.ints, py.digitsExceeded (natDigits n.natAbs).length = false

instance (py : Interpreter) (v : Value) : Decidable (v.IntsWithin py) :=
  inferInstanceAs (Decidable (∀ n ∈ v.ints, py.digitsExceeded (natDigits n.natAbs).length = false))

def isDigit (c : Nat) : Bool := 48 ≤ c && c ≤ 57

/-- The number that decimal digits spell. -/
def natOfDigits (digits : List Nat) : Nat := digits.foldl (fun n d => 10 * n + d) 0

/-- The digit and white space tests of `int(str)`. -/
def Interpreter.digit? (py : Interpreter) (c : Nat) : Option Nat :=
  if isDigit c then some (c - 48) else if c < 128 then none else py.decimalDigit c

def Interpreter.isIntSpace (py : Interpreter) (c : Nat) : Bool :=
  if c < 128 then c == 32 || (9 ≤ c && c ≤ 13) else py.isSpace c

/-- Digits with single underscores between them. -/
def readDigits (py : Interpreter) : PyStr → Option (List Nat)
  | [] => none
  | [c] => (py.digit? c).map ([·])
  | c :: d :: rest =>
    match py.digit? c with
    | none => none
    | some n => if d = 95 then (readDigits py rest).map (n :: ·) else (readDigits py (d :: rest)).map (n :: ·)

/-- `int(s)` of a string. -/
def intOfStr (py : Interpreter) (s : PyStr) : Except Exn Int :=
  let s := ((s.dropWhile py.isIntSpace).reverse.dropWhile py.isIntSpace).reverse
  let (negative, s) := match s with
    | 43 :: rest => (false, rest)
    | 45 :: rest => (true, rest)
    | _ => (false, s)
  match readDigits py s with
  | none => .error .valueError
  | some digits =>
    if py.digitsExceeded digits.length then .error .valueError
    else .ok (if negative then -(natOfDigits digits : Int) else natOfDigits digits)

/-- `int(x)`. -/
def int (py : Interpreter) : Value → Except Exn Int
  | .bool b => .ok b.toNat
  | .int n => .ok n
  | .float .nan => .error .valueError
  | .float (.infinity _) => .error .overflowError
  | .float (.finite x) => .ok x.toInt
  | .str s => intOfStr py s
  | .none | .list _ | .dict _ => .error .typeError

/-! ## Floats -/

/-- The least integer that `float()` refuses with OverflowError. -/
def floatOverflow : Int := 2 ^ 1024 - 2 ^ 970

/-- `float(n)` of an integer. -/
def floatOfInt (n : Int) : Except Exn Binary64 :=
  if floatOverflow ≤ n ∨ n ≤ -floatOverflow then .error .overflowError else .ok (.ofInt n)

/-- The text of `digits * 10 ^ exponent`: positional for a decimal point in -3..16, else with
    an exponent of at least two digits. -/
def decimalText (digits : PyStr) (exponent : Int) : PyStr :=
  let point : Int := digits.length + exponent
  if -4 < point ∧ point ≤ 16 then
    if point ≤ 0 then PyStr.lit "0." ++ List.replicate (-point).toNat 48 ++ digits
    else if digits.length ≤ point then digits ++ List.replicate (point - digits.length).toNat 48 ++ PyStr.lit ".0"
    else digits.take point.toNat ++ PyStr.lit "." ++ digits.drop point.toNat
  else
    let power := natDigits (point - 1).natAbs
    digits.take 1 ++ (if digits.length ≤ 1 then [] else PyStr.lit "." ++ digits.drop 1) ++ PyStr.lit "e" ++
      (if point - 1 < 0 then PyStr.lit "-" else PyStr.lit "+") ++ List.replicate (2 - power.length) 48 ++ power

/-- `float.__repr__` of a finite value. -/
def finiteRepr (x : Binary64.Finite) : PyStr :=
  let (digits, exponent) := Binary64.shortestDecimal x
  (if x.negative then PyStr.lit "-" else []) ++ decimalText (natDigits digits) exponent

/-! ## `repr` and `str` -/

def hexDigit (n : Nat) : Nat := if n < 10 then 48 + n else 87 + n

/-- The last `count` hexadecimal digits of `n`. -/
def hexDigits : Nat → Nat → PyStr
  | 0, _ => []
  | count + 1, n => hexDigits count (n / 16) ++ [hexDigit (n % 16)]

def reprChar (py : Interpreter) (quote c : Nat) : PyStr :=
  if c = quote ∨ c = 92 then [92, c]
  else if c = 9 then PyStr.lit "\\t"
  else if c = 10 then PyStr.lit "\\n"
  else if c = 13 then PyStr.lit "\\r"
  else if c < 32 ∨ c = 127 then PyStr.lit "\\x" ++ hexDigits 2 c
  else if c < 127 ∨ py.isPrintable c then [c]
  else if c < 0x100 then PyStr.lit "\\x" ++ hexDigits 2 c
  else if c < 0x10000 then PyStr.lit "\\u" ++ hexDigits 4 c
  else PyStr.lit "\\U" ++ hexDigits 8 c

/-- `str.__repr__`. -/
def strRepr (py : Interpreter) (s : PyStr) : PyStr :=
  let quote := if 39 ∈ s ∧ 34 ∉ s then 34 else 39
  [quote] ++ s.flatMap (reprChar py quote) ++ [quote]

/-- `sep.join(texts)`. -/
def join (sep : PyStr) : List PyStr → PyStr
  | [] => []
  | [s] => s
  | s :: t :: rest => s ++ sep ++ join sep (t :: rest)

/-- `repr(x)` with room for this many nested calls. -/
def repr (py : Interpreter) : Nat → Value → Except Exn PyStr
  | 0, _ => .error .recursionError
  | _ + 1, .none => .ok (PyStr.lit "None")
  | _ + 1, .bool b => .ok (if b then PyStr.lit "True" else PyStr.lit "False")
  | _ + 1, .int n => intRepr py n
  | _ + 1, .float .nan => .ok (PyStr.lit "nan")
  | _ + 1, .float (.infinity negative) => .ok (if negative then PyStr.lit "-inf" else PyStr.lit "inf")
  | _ + 1, .float (.finite x) => .ok (finiteRepr x)
  | _ + 1, .str s => .ok (strRepr py s)
  | room + 1, .list items => do
    let texts ← items.mapM (repr py room)
    .ok (PyStr.lit "[" ++ join (PyStr.lit ", ") texts ++ PyStr.lit "]")
  | room + 1, .dict items => do
    let texts ← items.mapM fun (key, value) => do
      let key ← repr py room (.str key)
      let value ← repr py room value
      .ok (key ++ PyStr.lit ": " ++ value)
    .ok (PyStr.lit "\x7b" ++ join (PyStr.lit ", ") texts ++ PyStr.lit "\x7d")

/-- `str(x)`. -/
def str (py : Interpreter) : Value → Except Exn PyStr
  | .str s => .ok s
  | x => repr py py.reprNesting x

/-! ## When `repr` has room -/

theorem mem_itemsInts {vs : List Value} {n : Int} : n ∈ itemsInts vs ↔ ∃ v ∈ vs, n ∈ v.ints := by
  induction vs with
  | nil => simp [itemsInts]
  | cons v vs ih => simp [itemsInts, ih]

theorem mem_fieldsInts {d : Dict} {n : Int} : n ∈ fieldsInts d ↔ ∃ kv ∈ d, n ∈ kv.2.ints := by
  induction d with
  | nil => simp [fieldsInts]
  | cons kv d ih =>
    obtain ⟨k, v⟩ := kv
    simp [fieldsInts, ih]

theorem intsWithin_list {py : Interpreter} {vs : List Value} :
    (Value.list vs).IntsWithin py ↔ ∀ v ∈ vs, v.IntsWithin py := by
  simp only [Value.IntsWithin, Value.ints, mem_itemsInts]
  exact ⟨fun h v hv n hn => h n ⟨v, hv, hn⟩, fun h n ⟨v, hv, hn⟩ => h v hv n hn⟩

theorem intsWithin_dict {py : Interpreter} {d : Dict} :
    (Value.dict d).IntsWithin py ↔ ∀ kv ∈ d, kv.2.IntsWithin py := by
  simp only [Value.IntsWithin, Value.ints, mem_fieldsInts]
  exact ⟨fun h kv hkv n hn => h n ⟨kv, hkv, hn⟩, fun h n ⟨kv, hkv, hn⟩ => h kv hkv n hn⟩

/-- `repr` needs no more than `room` nested calls. -/
def Value.reprWithin : Nat → Value → Bool
  | 0, _ => false
  | room + 1, .list items => items.all (reprWithin room)
  | room + 1, .dict items => items.all fun (_, v) => reprWithin room v
  | _ + 1, .none | _ + 1, .bool _ | _ + 1, .int _ | _ + 1, .float _ | _ + 1, .str _ => true

/-- A call that succeeds exactly when `p` holds, and else raises `e`. -/
def OkIff {α : Type} (e : Exn) (p : Bool) (x : Except Exn α) : Prop :=
  (p = true ∧ ∃ a, x = .ok a) ∨ (p = false ∧ x = .error e)

theorem OkIff.bind {α β : Type} {e : Exn} {p q : Bool} {x : Except Exn α} {f : α → Except Exn β}
    (hx : OkIff e p x) (hf : ∀ a, OkIff e q (f a)) : OkIff e (p && q) (x >>= f) := by
  rcases hx with ⟨rfl, a, rfl⟩ | ⟨rfl, rfl⟩
  · show OkIff e q (f a)
    exact hf a
  · exact .inr ⟨rfl, rfl⟩

theorem OkIff.mapM {α β : Type} {e : Exn} {p : α → Bool} {f : α → Except Exn β} {l : List α}
    (h : ∀ a ∈ l, OkIff e (p a) (f a)) : OkIff e (l.all p) (l.mapM f) := by
  induction l with
  | nil => exact .inl ⟨rfl, [], rfl⟩
  | cons a l ih =>
    rw [List.mapM_cons, List.all_cons]
    have hrest := ih fun b hb => h b (List.mem_cons_of_mem _ hb)
    refine (h a List.mem_cons_self).bind fun b => ?_
    have hcons := hrest.bind (f := fun bs => (.ok (b :: bs) : Except Exn _)) (q := true) fun bs => .inl ⟨rfl, _, rfl⟩
    rwa [Bool.and_true] at hcons

theorem intRepr_ok {py : Interpreter} {n : Int} (h : py.digitsExceeded (natDigits n.natAbs).length = false) :
    ∃ s, intRepr py n = .ok s := by
  simp [intRepr, h]

theorem repr_outcome {py : Interpreter} {room : Nat} {v : Value} (hints : v.IntsWithin py) :
    OkIff .recursionError (v.reprWithin room) (repr py room v) := by
  induction room generalizing v with
  | zero => exact .inr ⟨rfl, rfl⟩
  | succ room ih =>
    cases v with
    | none => exact .inl ⟨rfl, _, rfl⟩
    | bool b => exact .inl ⟨rfl, _, rfl⟩
    | int n => exact .inl ⟨rfl, intRepr_ok (hints n (by simp [Value.ints]))⟩
    | float x =>
      cases x with
      | nan => exact .inl ⟨rfl, _, rfl⟩
      | infinity b => exact .inl ⟨rfl, _, rfl⟩
      | finite x => exact .inl ⟨rfl, _, rfl⟩
    | str s => exact .inl ⟨rfl, _, rfl⟩
    | list items =>
      have hitems := OkIff.mapM (fun v hv => ih (intsWithin_list.mp hints v hv))
      have hall := hitems.bind (q := true) fun texts =>
        .inl ⟨rfl, PyStr.lit "[" ++ join (PyStr.lit ", ") texts ++ PyStr.lit "]", rfl⟩
      rwa [Bool.and_true] at hall
    | dict items =>
      have hitems := OkIff.mapM (l := items) (p := fun kv => kv.2.reprWithin room) (e := .recursionError)
        (f := fun kv => do
          let key ← repr py room (.str kv.1)
          let value ← repr py room kv.2
          .ok (key ++ PyStr.lit ": " ++ value)) (by
        intro kv hkv
        have hkey := ih (v := .str kv.1) (by simp [Value.IntsWithin, Value.ints])
        have hvalue := ih (intsWithin_dict.mp hints kv hkv)
        have hpair := hkey.bind fun key => hvalue.bind (q := true) fun value =>
          .inl ⟨rfl, key ++ PyStr.lit ": " ++ value, rfl⟩
        have hroom : ((Value.str kv.1).reprWithin room && (kv.2.reprWithin room && true)) = kv.2.reprWithin room := by
          cases room with
          | zero => rfl
          | succ room => simp [Value.reprWithin]
        rwa [hroom] at hpair)
      have hall := hitems.bind (q := true) fun texts =>
        .inl ⟨rfl, PyStr.lit "\x7b" ++ join (PyStr.lit ", ") texts ++ PyStr.lit "\x7d", rfl⟩
      rwa [Bool.and_true] at hall

/-- `str(x)` needs room for what is no string. -/
def Value.strWithin (py : Interpreter) : Value → Bool
  | .str _ => true
  | v => v.reprWithin py.reprNesting

theorem str_outcome {py : Interpreter} {v : Value} (hints : v.IntsWithin py) :
    OkIff .recursionError (v.strWithin py) (str py v) := by
  cases v with
  | str s => exact .inl ⟨rfl, s, rfl⟩
  | none => exact repr_outcome hints
  | bool b => exact repr_outcome hints
  | int n => exact repr_outcome hints
  | float x => exact repr_outcome hints
  | list items => exact repr_outcome hints
  | dict items => exact repr_outcome hints

end QwenTtsBridge.Python
