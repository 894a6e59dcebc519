/-
  QwenTtsBridge.Python.Json — `json.loads` and `json.dumps` of CPython, as the worker calls
  them: `loads(payload.decode("utf-8"))` and `dumps(x, ensure_ascii=False,
  separators=(",", ":")).encode("utf-8")`.

  `loads` is the C scanner, left to right: what it meets first decides which exception it
  raises. A container is entered only while the recursion limit leaves room, and an
  integer literal past the limit on integer text raises a plain ValueError, which no
  `except json.JSONDecodeError` catches. `NaN`, `Infinity` and `-Infinity` are read, a key
  that comes twice keeps its place and takes the last value, and an escaped surrogate
  with no partner stays in the string.

  Every loop of the scanner takes at least one character a round, and its fuel is past the
  length of the text. Proved: every integer in a value that `loads` returns is within the
  limit (`loads_ints`).
-/

import QwenTtsBridge.Python.Builtins
import QwenTtsBridge.Lib.Utf8
import Mathlib.Data.List.TakeWhile
import Mathlib.Data.Nat.Digits.Lemmas

namespace QwenTtsBridge.Python

open QwenTtsBridge.Lib

/-- `d[key] = value`. -/
def Dict.set (d : Dict) (key : PyStr) (value : Value) : Dict :=
  match d with
  | [] => [(key, value)]
  | (k, v) :: rest => if k = key then (k, value) :: rest else (k, v) :: Dict.set rest key value

/-! ## `dumps` -/

def escapeChar (c : Nat) : PyStr :=
  if c = 34 then PyStr.lit "\\\""
  else if c = 92 then PyStr.lit "\\\\"
  else if c = 8 then PyStr.lit "\\b"
  else if c = 12 then PyStr.lit "\\f"
  else if c = 10 then PyStr.lit "\\n"
  else if c = 13 then PyStr.lit "\\r"
  else if c = 9 then PyStr.lit "\\t"
  else if c < 32 then PyStr.lit "\\u" ++ hexDigits 4 c
  else [c]

def stringText (s : PyStr) : PyStr := [34] ++ s.flatMap escapeChar ++ [34]

def intText (n : Int) : PyStr := (if n < 0 then PyStr.lit "-" else []) ++ natDigits n.natAbs

def floatText : Binary64 → PyStr
  | .nan => PyStr.lit "NaN"
  | .infinity negative => if negative then PyStr.lit "-Infinity" else PyStr.lit "Infinity"
  | .finite x => finiteRepr x

mutual

/-- The text that `dumps` writes. -/
def Value.jsonText : Value → PyStr
  | .none => PyStr.lit "null"
  | .bool b => if b then PyStr.lit "true" else PyStr.lit "false"
  | .int n => intText n
  | .float x => floatText x
  | .str s => stringText s
  | .list items => PyStr.lit "[" ++ itemsText items ++ PyStr.lit "]"
  | .dict items => PyStr.lit "\x7b" ++ fieldsText items ++ PyStr.lit "\x7d"

def itemsText : List Value → PyStr
  | [] => []
  | [v] => v.jsonText
  | v :: w :: rest => v.jsonText ++ PyStr.lit "," ++ itemsText (w :: rest)

def fieldsText : List (PyStr × Value) → PyStr
  | [] => []
  | [(k, v)] => stringText k ++ PyStr.lit ":" ++ v.jsonText
  | (k, v) :: kv :: rest => stringText k ++ PyStr.lit ":" ++ v.jsonText ++ PyStr.lit "," ++ fieldsText (kv :: rest)

end

/-- `json.dumps(v, ensure_ascii=False, separators=(",", ":"))`. No caller tells the two
    exceptions apart. -/
def dumps (py : Interpreter) (v : Value) : Except Exn PyStr :=
  if !v.nestsWithin py.dumpsNesting then .error .recursionError
  else if ¬ v.IntsWithin py then .error .valueError
  else .ok v.jsonText

/-! ## `loads` -/

/-- A part of the scanner: what it read, and the text after it. -/
abbrev Scan (α : Type) := PyStr → Except Exn (α × PyStr)

def isJsonSpace (c : Nat) : Bool := c == 32 || c == 9 || c == 10 || c == 13

def skipSpace (text : PyStr) : PyStr := text.dropWhile isJsonSpace

def hexValue? (c : Nat) : Option Nat :=
  if 48 ≤ c ∧ c ≤ 57 then some (c - 48)
  else if 97 ≤ c ∧ c ≤ 102 then some (c - 87)
  else if 65 ≤ c ∧ c ≤ 70 then some (c - 55)
  else none

/-- Four hexadecimal digits. -/
def hex4 : PyStr → Option (Nat × PyStr)
  | a :: b :: c :: d :: rest =>
    match hexValue? a, hexValue? b, hexValue? c, hexValue? d with
    | some a, some b, some c, some d => some (((a * 16 + b) * 16 + c) * 16 + d, rest)
    | _, _, _, _ => none
  | _ => none

/-- The character after a backslash, `u` apart. -/
def unescape? (c : Nat) : Option Nat :=
  if c = 34 ∨ c = 92 ∨ c = 47 then some c
  else if c = 98 then some 8
  else if c = 102 then some 12
  else if c = 110 then some 10
  else if c = 114 then some 13
  else if c = 116 then some 9
  else none

/-- The rest of an escaped surrogate pair, after its high half `u`. A second escape that is no
    low half is left to be read again. -/
def scanLow (u : Nat) (text : PyStr) : Option (Nat × PyStr) :=
  match text with
  | 92 :: 117 :: low =>
    match hex4 low with
    | none => none
    | some (l, rest) =>
      if 0xDC00 ≤ l ∧ l ≤ 0xDFFF then some (0x10000 + (u - 0xD800) * 0x400 + (l - 0xDC00), rest) else some (u, text)
  | _ => some (u, text)

/-- An escape, after its backslash. -/
def scanEscape : PyStr → Option (Nat × PyStr)
  | [] => none
  | e :: rest =>
    if e = 117 then
      match hex4 rest with
      | none => none
      | some (u, rest) => if 0xD800 ≤ u ∧ u ≤ 0xDBFF then scanLow u rest else some (u, rest)
    else (unescape? e).map (·, rest)

/-- The next character of a string, or its closing quote. -/
def scanChar : PyStr → Option (Option Nat × PyStr)
  | [] => none
  | c :: rest =>
    if c = 34 then some (none, rest)
    else if c = 92 then (scanEscape rest).map fun (c, rest) => (some c, rest)
    else if c < 32 then none
    else some (some c, rest)

/-- `scanstring`, after the opening quote. -/
def scanString : Nat → Scan PyStr
  | 0, _ => .error .jsonDecodeError
  | fuel + 1, text =>
    match scanChar text with
    | none => .error .jsonDecodeError
    | some (none, rest) => .ok ([], rest)
    | some (some c, rest) => do
      let (s, rest) ← scanString fuel rest
      .ok (c :: s, rest)

/-- The digits of `.digits`, if the text goes on so. -/
def scanFraction : PyStr → PyStr × PyStr
  | 46 :: d :: rest => if isDigit d then ((d :: rest).takeWhile isDigit, (d :: rest).dropWhile isDigit) else ([], 46 :: d :: rest)
  | text => ([], text)

/-- The exponent of `e`, an optional sign and digits, if the text goes on so. -/
def scanExponent (text : PyStr) : Option (Int × PyStr) :=
  match text with
  | e :: rest =>
    if e = 101 ∨ e = 69 then
      let (negative, rest) := match rest with
        | 45 :: rest => (true, rest)
        | 43 :: rest => (false, rest)
        | _ => (false, rest)
      let digits := rest.takeWhile isDigit
      let n : Int := natOfDigits (digits.map (· - 48))
      if digits.isEmpty then none else some (if negative then -n else n, rest.dropWhile isDigit)
    else none
  | [] => none

/-- The digits before a fraction or exponent: a zero, or a run that starts with no zero. -/
def scanInteger : PyStr → Option (PyStr × PyStr)
  | c :: rest =>
    if c = 48 then some ([c], rest)
    else if isDigit c then some ((c :: rest).takeWhile isDigit, (c :: rest).dropWhile isDigit)
    else none
  | [] => none

/-- `_match_number`. -/
def matchNumber (py : Interpreter) (text : PyStr) : Except Exn (Value × PyStr) :=
  let (negative, body) := match text with
    | 45 :: rest => (true, rest)
    | _ => (false, text)
  match scanInteger body with
  | none => .error .jsonDecodeError
  | some (digits, rest) =>
    let (fraction, rest) := scanFraction rest
    let magnitude := fun (ds : PyStr) => natOfDigits (ds.map (· - 48))
    match scanExponent rest with
    | some (exponent, rest) =>
      .ok (.float (.ofDecimal negative (magnitude (digits ++ fraction)) (exponent - fraction.length)), rest)
    | none =>
      if !fraction.isEmpty then
        .ok (.float (.ofDecimal negative (magnitude (digits ++ fraction)) (-fraction.length)), rest)
      else if py.digitsExceeded digits.length then .error .valueError
      else .ok (.int (if negative then -(magnitude digits : Int) else magnitude digits), rest)

/-- The rest of an array, from its next value on. -/
def scanItems (scan : Scan Value) : Nat → Scan (List Value)
  | 0, _ => .error .jsonDecodeError
  | fuel + 1, text => do
    let (v, text) ← scan text
    match skipSpace text with
    | 93 :: text => .ok ([v], text)
    | 44 :: text => do
      let (vs, text) ← scanItems scan fuel (skipSpace text)
      .ok (v :: vs, text)
    | _ => .error .jsonDecodeError

/-- The rest of an object, from its next key on; `d` holds what came before. -/
def scanFields (scan : Scan Value) : Nat → Dict → Scan Dict
  | 0, _, _ => .error .jsonDecodeError
  | fuel + 1, d, text =>
    match text with
    | 34 :: text => do
      let (key, text) ← scanString (text.length + 1) text
      match skipSpace text with
      | 58 :: text => do
        let (v, text) ← scan (skipSpace text)
        match skipSpace text with
        | 125 :: text => .ok (d.set key v, text)
        | 44 :: text => scanFields scan fuel (d.set key v) (skipSpace text)
        | _ => .error .jsonDecodeError
      | _ => .error .jsonDecodeError
    | _ => .error .jsonDecodeError

/-- The body of a container, after its opening bracket. -/
def scanArray (scan : Scan Value) (text : PyStr) : Except Exn (Value × PyStr) :=
  match skipSpace text with
  | 93 :: text => .ok (.list [], text)
  | text => do
    let (vs, text) ← scanItems scan (text.length + 1) text
    .ok (.list vs, text)

def scanObject (scan : Scan Value) (text : PyStr) : Except Exn (Value × PyStr) :=
  match skipSpace text with
  | 125 :: text => .ok (.dict [], text)
  | text => do
    let (d, text) ← scanFields scan (text.length + 1) [] text
    .ok (.dict d, text)

/-- The word that the text starts with, if it is one that stands for a value. -/
def scanWord (text : PyStr) : Option (Value × PyStr) :=
  [("null", Value.none), ("true", .bool true), ("false", .bool false), ("NaN", .float .nan),
    ("Infinity", .float (.infinity false)), ("-Infinity", .float (.infinity true))].findSome? fun (word, v) =>
      if (PyStr.lit word).isPrefixOf text then some (v, text.drop word.length) else none

/-- `scan_once`. `enter` scans the values inside a container; there is none when the recursion
    limit leaves no room for one. -/
def scanValue (py : Interpreter) (enter : Option (Scan Value)) (text : PyStr) : Except Exn (Value × PyStr) :=
  match text with
  | [] => .error .jsonDecodeError
  | c :: rest =>
    if c = 34 then do
      let (s, rest) ← scanString (rest.length + 1) rest
      .ok (.str s, rest)
    else if c = 123 then
      match enter with
      | none => .error .recursionError
      | some scan => scanObject scan rest
    else if c = 91 then
      match enter with
      | none => .error .recursionError
      | some scan => scanArray scan rest
    else match scanWord text with
      | some result => .ok result
      | none => matchNumber py text

def scanOnce (py : Interpreter) : Nat → Scan Value
  | 0 => scanValue py none
  | room + 1 => scanValue py (some (scanOnce py room))

/-- `json.loads(text)`. -/
def loads (py : Interpreter) (text : PyStr) : Except Exn Value :=
  match text with
  | 0xFEFF :: _ => .error .jsonDecodeError
  | _ => do
    let (v, rest) ← scanOnce py py.loadsNesting (skipSpace text)
    if (skipSpace rest).isEmpty then .ok v else .error .jsonDecodeError

/-! ## The scanner stops -/

theorem bind_ok {α β : Type} {x : Except Exn α} {f : α → Except Exn β} {r : β} (h : x >>= f = .ok r) :
    ∃ a, x = .ok a ∧ f a = .ok r := by
  cases x with
  | error e => cases h
  | ok a => exact ⟨a, rfl, h⟩

theorem skipSpace_le (text : PyStr) : (skipSpace text).length ≤ text.length := (List.dropWhile_suffix _).length_le

theorem hex4_lt {text rest : PyStr} {u : Nat} (h : hex4 text = some (u, rest)) : rest.length < text.length := by
  unfold hex4 at h
  split at h
  · split at h
    · cases h
      simp only [List.length_cons]
      omega
    · cases h
  · cases h

theorem scanLow_le {text rest : PyStr} {u c : Nat} (h : scanLow u text = some (c, rest)) :
    rest.length ≤ text.length := by
  unfold scanLow at h
  split at h
  · split at h
    · cases h
    · rename_i low l after hhex
      have := hex4_lt hhex
      split at h
      · simp only [Option.some.injEq, Prod.mk.injEq] at h
        rw [← h.2, List.length_cons, List.length_cons]
        omega
      · cases h
        exact Nat.le_refl _
  · cases h
    exact Nat.le_refl _

theorem scanEscape_lt {text rest : PyStr} {c : Nat} (h : scanEscape text = some (c, rest)) :
    rest.length < text.length := by
  unfold scanEscape at h
  split at h
  · cases h
  · rename_i e text
    split at h
    · split at h
      · cases h
      · rename_i u after hhex
        have := hex4_lt hhex
        split at h
        · have := scanLow_le h
          simp only [List.length_cons]
          omega
        · cases h
          simp only [List.length_cons]
          omega
    · obtain ⟨c', -, heq⟩ := Option.map_eq_some_iff.mp h
      cases heq
      exact Nat.lt_succ_self _

theorem scanChar_lt {text rest : PyStr} {c : Option Nat} (h : scanChar text = some (c, rest)) :
    rest.length < text.length := by
  unfold scanChar at h
  split at h
  · cases h
  · split at h
    · cases h
      exact Nat.lt_succ_self _
    · split at h
      · obtain ⟨⟨c', rest'⟩, hesc, heq⟩ := Option.map_eq_some_iff.mp h
        cases heq
        exact Nat.lt_succ_of_lt (scanEscape_lt hesc)
      · split at h
        · cases h
        · cases h
          exact Nat.lt_succ_self _

theorem scanString_lt {fuel : Nat} {text rest s : PyStr} (h : scanString fuel text = .ok (s, rest)) :
    rest.length < text.length := by
  induction fuel generalizing text s with
  | zero => cases h
  | succ fuel ih =>
    simp only [scanString] at h
    split at h
    · cases h
    · rename_i hchar
      cases h
      exact scanChar_lt hchar
    · rename_i c after hchar
      obtain ⟨⟨s', rest'⟩, hmore, heq⟩ := bind_ok h
      cases heq
      exact (ih hmore).trans (scanChar_lt hchar)

/-! ## Integers in loaded values -/

theorem natDigits_length_le {n k : Nat} (h : n < 10 ^ k) (hk : 0 < k) : (natDigits n).length ≤ k := by
  unfold natDigits
  split
  · exact hk
  · rw [List.length_map, List.length_reverse]
    exact (Nat.digits_length_le_iff (by decide) n).mpr h

theorem natOfDigits_append (ds : List Nat) (d : Nat) : natOfDigits (ds ++ [d]) = 10 * natOfDigits ds + d := by
  simp [natOfDigits]

theorem natOfDigits_lt {ds : List Nat} (h : ∀ d ∈ ds, d < 10) : natOfDigits ds < 10 ^ ds.length := by
  induction ds using List.reverseRecOn with
  | nil => decide
  | append_singleton ds d ih =>
    have hd : d < 10 := h d (by simp)
    have hds := ih fun x hx => h x (by simp [hx])
    rw [natOfDigits_append, List.length_append, List.length_singleton, Nat.pow_succ]
    omega

theorem digitsExceeded_mono {py : Interpreter} {a b : Nat} (hab : a ≤ b) (h : py.digitsExceeded b = false) :
    py.digitsExceeded a = false := by
  simp only [Interpreter.digitsExceeded, Bool.and_eq_false_iff, decide_eq_false_iff_not] at h ⊢
  omega

theorem mem_set {d : Dict} {key : PyStr} {value : Value} {kv : PyStr × Value} (h : kv ∈ d.set key value) :
    kv.2 = value ∨ kv ∈ d := by
  induction d with
  | nil =>
    simp only [Dict.set, List.mem_singleton] at h
    exact .inl (by rw [h])
  | cons kv' d ih =>
    obtain ⟨k, v⟩ := kv'
    simp only [Dict.set] at h
    split at h
    · rcases List.mem_cons.mp h with rfl | h
      · exact .inl rfl
      · exact .inr (List.mem_cons_of_mem _ h)
    · rcases List.mem_cons.mp h with rfl | h
      · exact .inr List.mem_cons_self
      · exact (ih h).imp_right (List.mem_cons_of_mem _)

/-- A part of the scanner that takes something off the text, and reads integers within the
    limit only. -/
def Sound (py : Interpreter) (scan : Scan Value) : Prop :=
  ∀ text v rest, scan text = .ok (v, rest) → rest.length < text.length ∧ v.IntsWithin py

section Scanner

variable {py : Interpreter} {scan : Scan Value} {text rest : PyStr} {v : Value}

theorem scanInteger_spec {digits : PyStr} (h : scanInteger text = some (digits, rest)) :
    rest.length < text.length ∧ digits ≠ [] ∧ ∀ c ∈ digits, isDigit c = true := by
  unfold scanInteger at h
  split at h
  · rename_i c text
    split at h
    · rename_i hc
      cases h
      exact ⟨Nat.lt_succ_self _, by simp, by simp [hc, isDigit]⟩
    · split at h
      · rename_i hd
        cases h
        refine ⟨?_, ?_, fun x hx => List.mem_takeWhile_imp hx⟩
        · rw [List.dropWhile_cons_of_pos hd]
          exact Nat.lt_succ_of_le (List.dropWhile_suffix _).length_le
        · rw [List.takeWhile_cons_of_pos hd]
          exact List.cons_ne_nil _ _
      · cases h
  · cases h

theorem scanFraction_le (text : PyStr) : (scanFraction text).2.length ≤ text.length := by
  unfold scanFraction
  split
  · split
    · exact (List.dropWhile_suffix _).length_le.trans (Nat.le_succ _)
    · exact Nat.le_refl _
  · exact Nat.le_refl _

theorem scanExponent_le {exponent : Int} (h : scanExponent text = some (exponent, rest)) :
    rest.length ≤ text.length := by
  unfold scanExponent at h
  split at h
  · rename_i e body
    split at h
    · generalize hsign : (match body with
        | 45 :: rest => (true, rest)
        | 43 :: rest => (false, rest)
        | _ => (false, body)) = sign at h
      obtain ⟨negative, digits⟩ := sign
      have hdigits : digits.length ≤ body.length := by
        split at hsign
        · cases hsign
          exact Nat.le_succ _
        · cases hsign
          exact Nat.le_succ _
        · cases hsign
          exact Nat.le_refl _
      simp only at h
      split at h
      · cases h
      · cases h
        exact (List.dropWhile_suffix _).length_le.trans (hdigits.trans (Nat.le_succ _))
    · cases h
  · cases h

theorem matchNumber_sound (py : Interpreter) : Sound py (matchNumber py) := by
  intro text v rest h
  unfold matchNumber at h
  generalize hsign : (match text with | 45 :: rest => (true, rest) | _ => (false, text)) = sign at h
  obtain ⟨negative, body⟩ := sign
  have hbody : body.length ≤ text.length := by
    split at hsign
    · cases hsign
      exact Nat.le_succ _
    · cases hsign
      exact Nat.le_refl _
  simp only at h
  split at h
  · cases h
  · rename_i digits afterInt hint
    obtain ⟨hlt, hne, hdigits⟩ := scanInteger_spec hint
    have hfrac := scanFraction_le afterInt
    split at h
    · rename_i exponent afterExp hexp
      have hle := scanExponent_le hexp
      cases h
      exact ⟨by omega, by simp [Value.IntsWithin, Value.ints]⟩
    · split at h
      · cases h
        exact ⟨by omega, by simp [Value.IntsWithin, Value.ints]⟩
      · split at h
        · cases h
        · rename_i hlimit
          cases h
          refine ⟨by omega, ?_⟩
          intro n hn
          have hnat : n.natAbs = natOfDigits (digits.map (· - 48)) := by
            rw [List.mem_singleton.mp hn]
            split <;> simp
          have hsmall : natOfDigits (digits.map (· - 48)) < 10 ^ digits.length := by
            have hdecimal : ∀ d ∈ digits.map (· - 48), d < 10 := by
              intro d hd
              obtain ⟨c, hc, rfl⟩ := List.mem_map.mp hd
              have := hdigits c hc
              simp only [isDigit, Bool.and_eq_true, decide_eq_true_eq] at this
              omega
            have := natOfDigits_lt hdecimal
            rwa [List.length_map] at this
          rw [hnat]
          exact digitsExceeded_mono (natDigits_length_le hsmall (List.length_pos_iff.mpr hne)) (by simpa using hlimit)

theorem scanWord_sound (h : scanWord text = some (v, rest)) : rest.length < text.length ∧ v.IntsWithin py := by
  obtain ⟨⟨word, w⟩, hmem, hword⟩ := List.exists_of_findSome?_eq_some h
  simp only at hword
  split at hword
  · rename_i hprefix
    cases hword
    have hle : word.length ≤ text.length := by
      have := (List.isPrefixOf_iff_prefix.mp hprefix).length_le
      rwa [PyStr.lit, List.length_map, String.length_toList] at this
    have hpos : 0 < word.length ∧ v.ints = [] := by
      simp only [List.mem_cons, Prod.mk.injEq, List.not_mem_nil, or_false] at hmem
      rcases hmem with ⟨rfl, rfl⟩ | ⟨rfl, rfl⟩ | ⟨rfl, rfl⟩ | ⟨rfl, rfl⟩ | ⟨rfl, rfl⟩ | ⟨rfl, rfl⟩ <;>
        exact ⟨by decide, rfl⟩
    refine ⟨?_, ?_⟩
    · rw [List.length_drop]
      omega
    · intro n hn
      rw [hpos.2] at hn
      cases hn
  · cases hword

theorem scanItems_sound (hscan : Sound py scan) {fuel : Nat} {vs : List Value}
    (h : scanItems scan fuel text = .ok (vs, rest)) :
    rest.length < text.length ∧ ∀ v ∈ vs, v.IntsWithin py := by
  induction fuel generalizing text vs with
  | zero => cases h
  | succ fuel ih =>
    obtain ⟨⟨v, after⟩, hv, h⟩ := bind_ok h
    obtain ⟨hlt, hints⟩ := hscan _ _ _ hv
    have hspace := skipSpace_le after
    simp only at h
    split at h
    · rename_i heq
      cases h
      rw [heq, List.length_cons] at hspace
      exact ⟨by omega, by simpa using hints⟩
    · rename_i more heq
      obtain ⟨⟨vs', after'⟩, hmore, heq'⟩ := bind_ok h
      cases heq'
      obtain ⟨hlt', hints'⟩ := ih hmore
      have hspace' := skipSpace_le more
      rw [heq, List.length_cons] at hspace
      refine ⟨by omega, ?_⟩
      intro w hw
      rcases List.mem_cons.mp hw with rfl | hw
      · exact hints
      · exact hints' w hw
    · cases h

theorem scanFields_sound (hscan : Sound py scan) {fuel : Nat} {d d' : Dict}
    (hd : ∀ kv ∈ d, kv.2.IntsWithin py) (h : scanFields scan fuel d text = .ok (d', rest)) :
    rest.length < text.length ∧ ∀ kv ∈ d', kv.2.IntsWithin py := by
  induction fuel generalizing text d with
  | zero => cases h
  | succ fuel ih =>
    simp only [scanFields] at h
    split at h
    · rename_i body
      obtain ⟨⟨key, afterKey⟩, hkey, h⟩ := bind_ok h
      have hklt := scanString_lt hkey
      have hkspace := skipSpace_le afterKey
      simp only at h
      split at h
      · rename_i afterColon hcolon
        obtain ⟨⟨v, after⟩, hv, h⟩ := bind_ok h
        obtain ⟨hlt, hints⟩ := hscan _ _ _ hv
        have hvspace := skipSpace_le afterColon
        have hspace := skipSpace_le after
        rw [hcolon, List.length_cons] at hkspace
        have hset : ∀ kv ∈ d.set key v, kv.2.IntsWithin py := by
          intro kv hkv
          rcases mem_set hkv with heq | hold
          · rw [heq]
            exact hints
          · exact hd kv hold
        simp only at h
        split at h
        · rename_i heq
          cases h
          rw [heq, List.length_cons] at hspace
          exact ⟨by simp only [List.length_cons]; omega, hset⟩
        · rename_i more heq
          obtain ⟨hlt', hints'⟩ := ih hset h
          have hspace' := skipSpace_le more
          rw [heq, List.length_cons] at hspace
          exact ⟨by simp only [List.length_cons]; omega, hints'⟩
        · cases h
      · cases h
    · cases h

theorem scanArray_sound (hscan : Sound py scan) (h : scanArray scan text = .ok (v, rest)) :
    rest.length < text.length ∧ v.IntsWithin py := by
  have hspace := skipSpace_le text
  unfold scanArray at h
  split at h
  · rename_i heq
    cases h
    rw [heq, List.length_cons] at hspace
    exact ⟨by omega, by simp [Value.IntsWithin, Value.ints, itemsInts]⟩
  · obtain ⟨⟨vs, after⟩, hitems, heq⟩ := bind_ok h
    cases heq
    obtain ⟨hlt, hints⟩ := scanItems_sound hscan hitems
    exact ⟨by omega, intsWithin_list.mpr hints⟩

theorem scanObject_sound (hscan : Sound py scan) (h : scanObject scan text = .ok (v, rest)) :
    rest.length < text.length ∧ v.IntsWithin py := by
  have hspace := skipSpace_le text
  unfold scanObject at h
  split at h
  · rename_i heq
    cases h
    rw [heq, List.length_cons] at hspace
    exact ⟨by omega, by simp [Value.IntsWithin, Value.ints, fieldsInts]⟩
  · obtain ⟨⟨d, after⟩, hfields, heq⟩ := bind_ok h
    cases heq
    obtain ⟨hlt, hints⟩ := scanFields_sound hscan (fun _ h => (List.not_mem_nil h).elim) hfields
    exact ⟨by omega, intsWithin_dict.mpr hints⟩

theorem scanValue_sound {enter : Option (Scan Value)} (henter : ∀ scan, enter = some scan → Sound py scan) :
    Sound py (scanValue py enter) := by
  intro text v rest h
  unfold scanValue at h
  split at h
  · cases h
  · rename_i c text
    split at h
    · obtain ⟨⟨s, after⟩, hstr, heq⟩ := bind_ok h
      cases heq
      exact ⟨Nat.lt_succ_of_lt (scanString_lt hstr), by simp [Value.IntsWithin, Value.ints]⟩
    · split at h
      · split at h
        · cases h
        · obtain ⟨hlt, hints⟩ := scanObject_sound (henter _ rfl) h
          exact ⟨Nat.lt_succ_of_lt hlt, hints⟩
      · split at h
        · split at h
          · cases h
          · obtain ⟨hlt, hints⟩ := scanArray_sound (henter _ rfl) h
            exact ⟨Nat.lt_succ_of_lt hlt, hints⟩
        · split at h
          · rename_i hword
            cases h
            exact scanWord_sound hword
          · exact matchNumber_sound py _ _ _ h

theorem scanOnce_sound (py : Interpreter) (room : Nat) : Sound py (scanOnce py room) := by
  induction room with
  | zero => exact scanValue_sound nofun
  | succ room ih =>
    refine scanValue_sound ?_
    intro scan hscan
    cases hscan
    exact ih

theorem loads_ints (h : loads py text = .ok v) : v.IntsWithin py := by
  unfold loads at h
  split at h
  · cases h
  · obtain ⟨⟨w, after⟩, hscan, h⟩ := bind_ok h
    simp only at h
    split at h
    · cases h
      exact (scanOnce_sound py _ _ _ _ hscan).2
    · cases h

end Scanner

end QwenTtsBridge.Python
