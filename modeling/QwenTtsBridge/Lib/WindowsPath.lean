/-
  QwenTtsBridge.Lib.WindowsPath — the spelling of Windows paths, as `pathlib.PureWindowsPath`
  and `std::filesystem::path` take them apart.

  A path is a list of code points. Both libraries take either slash for a separator and drop
  empty names. They differ elsewhere:
  - `PureWindowsPath` drops a `.` and a separator at the end, and takes any character before
    a colon for a drive;
  - `std::filesystem::path` keeps a `.`, notices a separator at the end, and takes only a
    letter for a drive.

  Proved: where neither difference shows (`Plain`), both see the same names
  (`tailNames_of_plain`).
-/

import Mathlib.Data.List.Basic

namespace QwenTtsBridge.Lib.WindowsPath

def isSep (c : Nat) : Bool := c == 47 || c == 92

/-- What stands between separators, empty pieces too. -/
def segments (path : List Nat) : List (List Nat) := path.splitOnP isSep

def dot : List Nat := [46]

def dotDot : List Nat := [46, 46]

/-! ## `pathlib` -/

/-- `ntpath.splitroot` of a path that starts with two separators: the drive goes on to the
    second separator after its first `start` characters. -/
def splitUnc (start : Nat) (path : List Nat) : List Nat × List Nat × List Nat :=
  match (path.drop start).findIdx? isSep with
  | none => (path, [], [])
  | some i =>
    match (path.drop (start + i + 1)).findIdx? isSep with
    | none => (path, [], [])
    | some j =>
      let stop := start + i + 1 + j
      (path.take stop, (path.drop stop).take 1, path.drop (stop + 1))

/-- `\\?\UNC\`, in either case. -/
def startsWithUncPrefix (path : List Nat) : Bool :=
  match path with
  | a :: b :: c :: d :: u :: n :: v :: e :: _ =>
    isSep a && isSep b && c == 63 && isSep d && (u == 85 || u == 117) && (n == 78 || n == 110) &&
      (v == 67 || v == 99) && isSep e
  | _ => false

/-- `ntpath.splitroot`: the drive, the root and the rest. -/
def splitroot (path : List Nat) : List Nat × List Nat × List Nat :=
  match path with
  | a :: b :: rest =>
    if isSep a then
      if isSep b then splitUnc (if startsWithUncPrefix path then 8 else 2) path else ([], [a], b :: rest)
    else if b == 58 then
      match rest with
      | c :: rest => if isSep c then ([a, b], [c], rest) else ([a, b], [], c :: rest)
      | [] => ([a, b], [], [])
    else ([], [], path)
  | [a] => if isSep a then ([], [a], []) else ([], [], [a])
  | [] => ([], [], [])

def drive (path : List Nat) : List Nat := (splitroot path).1

/-- `bool(path.root)`. A share with nothing after it has a root, too. -/
def hasRoot (path : List Nat) : Bool :=
  let (drive, root, _) := splitroot path
  if !root.isEmpty then true
  else if drive.head?.any isSep && !drive.getLast?.any isSep then
    match segments drive with
    | [_, _, host, _] => !(host == [] || host == [63] || host == [46] || host == [63, 46])
    | [_, _, _, _, _, _] => true
    | _ => false
  else false

/-- `path.is_absolute()`. -/
def isAbsolute (path : List Nat) : Bool := !(drive path).isEmpty && hasRoot path

/-- `path.parts` without the anchor. -/
def tailNames (path : List Nat) : List (List Nat) :=
  (segments (splitroot path).2.2).filter fun name => name != [] && name != dot

/-! ## `std::filesystem` -/

def isLetter (c : Nat) : Bool := (65 ≤ c && c ≤ 90) || (97 ≤ c && c ≤ 122)

/-- `path.has_root_name() || path.has_root_directory()`, of which `path.is_absolute()` is a
    case. -/
def isRooted : List Nat → Bool
  | a :: b :: _ => isSep a || (isLetter a && b == 58)
  | [a] => isSep a
  | [] => false

/-- The elements of a path without a root, but for the empty one after a separator at the
    end. -/
def elements (path : List Nat) : List (List Nat) := (segments path).filter (· != [])

def endsInSep (path : List Nat) : Bool := path.getLast?.any isSep

/-! ## Where both agree -/

/-- Relative, without `.`, and without a separator at the end. -/
structure Plain (path : List Nat) : Prop where
  ne_nil : path ≠ []
  relative : isRooted path = false
  noDot : dot ∉ segments path
  noEnd : endsInSep path = false

instance (path : List Nat) : Decidable (Plain path) :=
  decidable_of_iff (path ≠ [] ∧ isRooted path = false ∧ dot ∉ segments path ∧ endsInSep path = false)
    ⟨fun h => ⟨h.1, h.2.1, h.2.2.1, h.2.2.2⟩, fun h => ⟨h.1, h.2, h.3, h.4⟩⟩

theorem splitroot_of_plain_drive {path : List Nat} (h : isRooted path = false) (hdrive : drive path = []) :
    splitroot path = ([], [], path) := by
  unfold drive at hdrive
  match path with
  | [] => rfl
  | [a] =>
    have ha : isSep a = false := h
    simp only [splitroot, ha]
    rfl
  | a :: b :: rest =>
    simp only [isRooted, Bool.or_eq_false_iff] at h
    simp only [splitroot, h.1] at hdrive ⊢
    by_cases hb : (b == 58) = true
    · simp only [hb] at hdrive
      cases rest with
      | nil => cases hdrive
      | cons c rest => by_cases hc : isSep c = true <;> simp [hc] at hdrive
    · simp only [Bool.not_eq_true] at hb
      simp only [hb]
      rfl

theorem tailNames_of_plain {path : List Nat} (h : Plain path) (hdrive : drive path = []) :
    tailNames path = elements path := by
  unfold tailNames elements
  rw [splitroot_of_plain_drive h.relative hdrive]
  refine List.filter_congr fun name hname => ?_
  have hdot : name ≠ dot := fun heq => h.noDot (heq ▸ hname)
  rw [bne_iff_ne.mpr hdot, Bool.and_true]

end QwenTtsBridge.Lib.WindowsPath
