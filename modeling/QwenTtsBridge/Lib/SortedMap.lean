/-
  QwenTtsBridge.Lib.SortedMap — a map as the list of its entries in the order of their keys,
  which is the order in which `std::map` walks them.

  `insert` replaces the entry of an equal key. Lookups after an insert need no invariant
  (`find_insert`); what an insert keeps is that the keys increase (`Sorted.insert`). A map
  built from entries with distinct keys holds those entries and no others
  (`foldl_insert_perm`).
-/

import Mathlib.Data.List.Basic

namespace QwenTtsBridge.Lib

abbrev SortedMap (κ α : Type*) := List (κ × α)

namespace SortedMap

variable {κ α : Type*} [DecidableEq κ]

def find : SortedMap κ α → κ → Option α
  | [], _ => none
  | (k, v) :: rest, key => if key = k then some v else find rest key

@[simp] theorem find_nil (key : κ) : find ([] : SortedMap κ α) key = none := rfl

theorem mem_of_find {m : SortedMap κ α} {key : κ} {v : α} (h : find m key = some v) : (key, v) ∈ m := by
  induction m with
  | nil => cases h
  | cons p rest ih =>
    obtain ⟨k, w⟩ := p
    simp only [find] at h
    split at h
    · rename_i hk
      cases h
      rw [hk]
      exact List.mem_cons_self
    · exact List.mem_cons_of_mem _ (ih h)

theorem find_ne_none {m : SortedMap κ α} {key : κ} {v : α} (h : (key, v) ∈ m) : find m key ≠ none := by
  induction m with
  | nil => cases h
  | cons p rest ih =>
    obtain ⟨k, w⟩ := p
    rw [find]
    by_cases hk : key = k
    · simp [hk]
    · rcases List.mem_cons.mp h with heq | hmem
      · cases heq
        exact absurd rfl hk
      · simp [hk, ih hmem]

variable [LT κ] [DecidableLT κ]

def insert (key : κ) (v : α) : SortedMap κ α → SortedMap κ α
  | [] => [(key, v)]
  | (k, w) :: rest =>
    if key < k then (key, v) :: (k, w) :: rest
    else if key = k then (key, v) :: rest
    else (k, w) :: insert key v rest

theorem find_insert (m : SortedMap κ α) (key : κ) (v : α) (k : κ) :
    find (insert key v m) k = if k = key then some v else find m k := by
  induction m with
  | nil => simp [insert, find]
  | cons p rest ih =>
    obtain ⟨k', w⟩ := p
    simp only [insert]
    split
    · rfl
    split
    · rename_i heq
      simp only [find, ← heq]
      split <;> rfl
    · rename_i hne
      simp only [find, ih]
      by_cases hk : k = k'
      · rw [if_pos hk, if_pos hk, if_neg]
        intro hkey
        exact hne (hkey.symm.trans hk)
      · rw [if_neg hk, if_neg hk]

theorem mem_insert {m : SortedMap κ α} {key : κ} {v : α} {p : κ × α} (h : p ∈ insert key v m) :
    p = (key, v) ∨ p ∈ m := by
  induction m with
  | nil => exact .inl (List.mem_singleton.mp h)
  | cons q rest ih =>
    obtain ⟨k, w⟩ := q
    simp only [insert] at h
    split at h
    · exact List.mem_cons.mp h
    split at h
    · rcases List.mem_cons.mp h with h | h
      · exact .inl h
      · exact .inr (List.mem_cons_of_mem _ h)
    · rcases List.mem_cons.mp h with h | h
      · exact .inr (h ▸ List.mem_cons_self)
      · exact (ih h).imp_right (List.mem_cons_of_mem _)

theorem insert_perm {m : SortedMap κ α} {key : κ} (v : α) (h : key ∉ m.map Prod.fst) :
    (insert key v m).Perm ((key, v) :: m) := by
  induction m with
  | nil => exact .refl _
  | cons p rest ih =>
    obtain ⟨k, w⟩ := p
    obtain ⟨hne, hrest⟩ : key ≠ k ∧ key ∉ rest.map Prod.fst := by simpa using h
    simp only [insert, if_neg hne]
    split
    · exact .refl _
    · exact ((ih hrest).cons _).trans (.swap _ _ _)

/-- `pairs` are inserted into `m`, which has none of their keys. -/
theorem foldl_insert_perm (pairs m : SortedMap κ α) (h : ((m ++ pairs).map Prod.fst).Nodup) :
    (pairs.foldl (fun m p => insert p.1 p.2 m) m).Perm (m ++ pairs) := by
  induction pairs generalizing m with
  | nil =>
    rw [List.append_nil]
    exact .refl _
  | cons p pairs ih =>
    have hmid : ((p :: (m ++ pairs)).map Prod.fst).Nodup :=
      (List.perm_middle.map Prod.fst).nodup_iff.mp h
    have hfresh : p.1 ∉ m.map Prod.fst := by
      intro hmem
      refine (List.nodup_cons.mp hmid).1 ?_
      rw [List.map_append]
      exact List.mem_append_left _ hmem
    have hins := insert_perm p.2 hfresh
    have hnext : ((insert p.1 p.2 m ++ pairs).map Prod.fst).Nodup :=
      ((hins.append_right pairs).map Prod.fst).nodup_iff.mpr hmid
    exact ((ih _ hnext).trans (hins.append_right pairs)).trans List.perm_middle.symm

/-- The keys increase. -/
def Sorted (m : SortedMap κ α) : Prop := m.Pairwise fun p q => p.1 < q.1

omit [DecidableEq κ] [DecidableLT κ] in
theorem sorted_nil : Sorted ([] : SortedMap κ α) := List.Pairwise.nil

theorem Sorted.insert [Trans (α := κ) (· < ·) (· < ·) (· < ·)] [Std.Trichotomous (α := κ) (· < ·)] {m : SortedMap κ α}
    (h : Sorted m) (key : κ) (v : α) : Sorted (insert key v m) := by
  induction m with
  | nil => exact List.pairwise_singleton _ _
  | cons p rest ih =>
    obtain ⟨k, w⟩ := p
    have hcons := List.pairwise_cons.mp h
    simp only [SortedMap.insert]
    split
    · rename_i hlt
      refine List.pairwise_cons.mpr ⟨fun q hq => ?_, h⟩
      rcases List.mem_cons.mp hq with rfl | hq
      · exact hlt
      · exact Trans.trans hlt (hcons.1 q hq)
    split
    · rename_i heq
      exact List.pairwise_cons.mpr ⟨fun q hq => heq ▸ hcons.1 q hq, hcons.2⟩
    · rename_i hnlt hne
      refine List.pairwise_cons.mpr ⟨fun q hq => ?_, ih hcons.2⟩
      rcases mem_insert hq with rfl | hq
      · by_contra hkey
        exact hne (Std.Trichotomous.trichotomous key k hnlt hkey)
      · exact hcons.1 q hq

end SortedMap

end QwenTtsBridge.Lib
