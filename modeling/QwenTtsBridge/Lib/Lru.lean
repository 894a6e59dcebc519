/-
  QwenTtsBridge.Lib.Lru — an ordered dictionary that is used as an LRU cache.

  `OrderedDict` keeps its entries in insertion order and has each key once. A cache of
  `limit` entries moves a key to the end when it is found, adds a new one at the end and
  drops entries at the front while there are too many (`evictTo`).

  The reference is the list of all uses, oldest first: `uses.dedup` has each key at its
  last use, so the cache should hold the last `limit` of these. `recent_touch` and
  `recent_insert` say that finding and adding keep it so.
-/

import Mathlib.Data.List.Dedup
import Mathlib.Data.List.DropRight

namespace QwenTtsBridge.Lib

structure OrderedDict (κ ν : Type) where
  entries : List (κ × ν)
  distinct : (entries.map Prod.fst).Nodup

namespace OrderedDict

/-! ## Taking from the front -/

section Front

variable {κ ν : Type}

def empty : OrderedDict κ ν := ⟨[], List.nodup_nil⟩

def keys (d : OrderedDict κ ν) : List κ := d.entries.map Prod.fst

def length (d : OrderedDict κ ν) : Nat := d.entries.length

/-- `popitem(last=False)`. -/
def popFirst (d : OrderedDict κ ν) : OrderedDict κ ν where
  entries := d.entries.tail
  distinct := by
    rw [List.map_tail]
    exact d.distinct.sublist (List.tail_sublist _)

/-- `while len(d) > limit: d.popitem(last=False)`. -/
def evictTo (limit : Nat) (d : OrderedDict κ ν) : OrderedDict κ ν :=
  if limit < d.length then evictTo limit d.popFirst else d
termination_by d.length
decreasing_by
  simp only [length, popFirst, List.length_tail] at *
  omega

theorem nodup_keys (d : OrderedDict κ ν) : d.keys.Nodup := d.distinct

theorem length_keys (d : OrderedDict κ ν) : d.keys.length = d.length := List.length_map ..

theorem keys_popFirst (d : OrderedDict κ ν) : d.popFirst.keys = d.keys.tail := List.map_tail

theorem rtake_of_le {α : Type} {l : List α} {n : Nat} (h : l.length ≤ n) : l.rtake n = l := by
  rw [List.rtake, Nat.sub_eq_zero_of_le h, List.drop_zero]

theorem keys_evictTo (limit : Nat) (d : OrderedDict κ ν) : (d.evictTo limit).keys = d.keys.rtake limit := by
  fun_induction evictTo limit d with
  | case1 d hlong ih =>
    rw [ih, keys_popFirst, List.rtake, List.rtake, List.length_tail, List.drop_tail]
    congr 1
    have hlength := length_keys d
    omega
  | case2 d hshort =>
    rw [rtake_of_le]
    have hlength := length_keys d
    omega

theorem mem_evictTo {limit : Nat} {d : OrderedDict κ ν} {e : κ × ν} (h : e ∈ (d.evictTo limit).entries) :
    e ∈ d.entries := by
  fun_induction evictTo limit d with
  | case1 d hlong ih => exact List.mem_of_mem_tail (ih h)
  | case2 d hshort => exact h

end Front

/-! ## Keys -/

variable {κ ν : Type} [DecidableEq κ] {d : OrderedDict κ ν} {key : κ} {value : ν}

def get? (d : OrderedDict κ ν) (key : κ) : Option ν := (d.entries.find? (·.1 = key)).map Prod.snd

/-- `move_to_end`, of a key that is there. -/
def moveToEnd (d : OrderedDict κ ν) (key : κ) : OrderedDict κ ν where
  entries := d.entries.filter (·.1 != key) ++ d.entries.filter (·.1 == key)
  distinct := by
    have hperm : (d.entries.filter (·.1 != key) ++ d.entries.filter (·.1 == key)).Perm d.entries :=
      List.perm_append_comm.trans (List.filter_append_perm (fun e : κ × ν => e.1 == key) d.entries)
    exact (hperm.map Prod.fst).nodup_iff.mpr d.distinct

/-- `d[key] = value`: an old key keeps its place. -/
def set (d : OrderedDict κ ν) (key : κ) (value : ν) : OrderedDict κ ν where
  entries :=
    if key ∈ d.keys then d.entries.map fun e => if e.1 = key then (key, value) else e else d.entries ++ [(key, value)]
  distinct := by
    split
    · have hkeys : (d.entries.map fun e => if e.1 = key then (key, value) else e).map Prod.fst = d.keys := by
        rw [List.map_map]
        apply List.map_congr_left
        intro e _
        by_cases he : e.1 = key
        · simp [he]
        · simp [he]
      rw [hkeys]
      exact d.distinct
    · rename_i hnew
      rw [List.map_append]
      refine List.nodup_append.mpr ⟨d.distinct, List.nodup_singleton _, ?_⟩
      intro a ha b hb hab
      have hkey : b = key := List.mem_singleton.mp hb
      rw [hab, hkey] at ha
      exact hnew ha

theorem get?_isSome : (d.get? key).isSome ↔ key ∈ d.keys := by
  simp only [get?, Option.isSome_map, List.find?_isSome, keys, List.mem_map, decide_eq_true_eq]

theorem get?_eq_none : d.get? key = none ↔ key ∉ d.keys := by
  rw [← get?_isSome, Option.not_isSome_iff_eq_none]

theorem mem_of_get? (h : d.get? key = some value) : (key, value) ∈ d.entries := by
  obtain ⟨e, he, rfl⟩ := Option.map_eq_some_iff.mp h
  have hkey : e.1 = key := by simpa using List.find?_some he
  have hmem := List.mem_of_find?_eq_some he
  rw [← hkey]
  exact hmem

theorem keys_moveToEnd (h : key ∈ d.keys) : (d.moveToEnd key).keys = d.keys.erase key ++ [key] := by
  have hrest : (d.entries.filter (·.1 != key)).map Prod.fst = d.keys.erase key := by
    rw [d.nodup_keys.erase_eq_filter, keys, List.filter_map]
    rfl
  have hmoved : (d.entries.filter (·.1 == key)).map Prod.fst = [key] := by
    have hfilter : (d.entries.filter (·.1 == key)).map Prod.fst = d.keys.filter (· == key) := by
      rw [keys, List.filter_map]
      rfl
    rw [hfilter, List.filter_beq, List.count_eq_one_of_mem d.nodup_keys h]
    rfl
  rw [← hrest, ← hmoved]
  exact List.map_append

theorem mem_moveToEnd {e : κ × ν} : e ∈ (d.moveToEnd key).entries ↔ e ∈ d.entries := by
  simp only [moveToEnd, List.mem_append, List.mem_filter, bne_iff_ne, beq_iff_eq]
  tauto

theorem keys_set (h : key ∉ d.keys) : (d.set key value).keys = d.keys ++ [key] := by
  have hentries : (d.set key value).entries = d.entries ++ [(key, value)] := if_neg h
  rw [keys, hentries, List.map_append]
  rfl

/-- A new key is at the end. -/
theorem keys_add (h : key ∉ d.keys) : ((d.set key value).moveToEnd key).keys = d.keys ++ [key] := by
  have hkeys : (d.set key value).keys = d.keys ++ [key] := keys_set h
  rw [keys_moveToEnd (by simp [hkeys]), hkeys, List.erase_append_right _ h, List.erase_cons_head, List.append_nil]

theorem mem_set {e : κ × ν} (h : e ∈ (d.set key value).entries) : e ∈ d.entries ∨ e = (key, value) := by
  unfold set at h
  dsimp only at h
  split at h
  · obtain ⟨e', he', rfl⟩ := List.mem_map.mp h
    split
    · exact .inr rfl
    · exact .inl he'
  · rcases List.mem_append.mp h with h | h
    · exact .inl h
    · exact .inr (List.mem_singleton.mp h)

end OrderedDict

/-! ## The last distinct uses -/

namespace Lru

theorem rtake_append {α : Type} {limit : Nat} {out kept : List α} (h : out = [] ∨ limit ≤ kept.length) :
    (out ++ kept).rtake limit = kept.rtake limit := by
  rcases h with rfl | h
  · rfl
  · have hdrop : (out ++ kept).length - limit = out.length + (kept.length - limit) := by
      rw [List.length_append]
      omega
    rw [List.rtake, List.rtake, hdrop, List.drop_length_add_append]

variable {α : Type} [DecidableEq α] {uses : List α} {limit : Nat} {a : α}

/-- The last `limit` keys in use, each at its last use. -/
def recent (limit : Nat) (uses : List α) : List α := uses.dedup.rtake limit

theorem dedup_use (uses : List α) (a : α) : (uses ++ [a]).dedup = uses.dedup.erase a ++ [a] := by
  induction uses with
  | nil => simp
  | cons b uses ih =>
    rw [List.cons_append]
    by_cases hb : b ∈ uses
    · rw [List.dedup_cons_of_mem (List.mem_append_left _ hb), List.dedup_cons_of_mem hb, ih]
    · rw [List.dedup_cons_of_notMem hb]
      by_cases hab : b = a
      · subst hab
        rw [List.dedup_cons_of_mem (by simp), ih, List.erase_cons_head,
          List.erase_of_not_mem fun h => hb (List.mem_dedup.mp h)]
      · rw [List.dedup_cons_of_notMem (by simp [hb, hab]), ih, List.erase_cons_tail (by simpa using hab)]
        rfl

theorem length_recent (limit : Nat) (uses : List α) : (recent limit uses).length = min limit uses.dedup.length := by
  rw [recent, List.rtake, List.length_drop]
  omega

/-- The keys that are out, and those that are in; none is out while there is room. -/
theorem split_recent (limit : Nat) (uses : List α) :
    ∃ out, uses.dedup = out ++ recent limit uses ∧ (out = [] ∨ (recent limit uses).length = limit) := by
  refine ⟨uses.dedup.take (uses.dedup.length - limit), (List.take_append_drop _ _).symm, ?_⟩
  by_cases hroom : uses.dedup.length ≤ limit
  · left
    rw [Nat.sub_eq_zero_of_le hroom, List.take_zero]
  · right
    rw [length_recent]
    omega

theorem recent_touch (h : a ∈ recent limit uses) :
    (recent limit uses).erase a ++ [a] = recent limit (uses ++ [a]) := by
  obtain ⟨out, hsplit, hout⟩ := split_recent limit uses
  have hnodup : (out ++ recent limit uses).Nodup := hsplit ▸ uses.nodup_dedup
  have hnot : a ∉ out := fun ha => (List.nodup_append.mp hnodup).2.2 a ha a h rfl
  have hlength : ((recent limit uses).erase a ++ [a]).length = (recent limit uses).length := by
    have hpos := List.length_pos_of_mem h
    rw [List.length_append, List.length_erase_of_mem h, List.length_singleton]
    omega
  have hle : (recent limit uses).length ≤ limit := by
    rw [length_recent]
    omega
  rw [recent.eq_def limit (uses ++ [a]), dedup_use, hsplit, List.erase_append_right _ hnot, List.append_assoc,
    rtake_append, OrderedDict.rtake_of_le (by omega)]
  rcases hout with hout | hfull
  · exact .inl hout
  · exact .inr (by omega)

theorem recent_insert (h : a ∉ recent limit uses) :
    (recent limit uses ++ [a]).rtake limit = recent limit (uses ++ [a]) := by
  obtain ⟨out, hsplit, hout⟩ := split_recent limit uses
  have herase : uses.dedup.erase a = out.erase a ++ recent limit uses := by
    rw [hsplit]
    by_cases ha : a ∈ out
    · exact List.erase_append_left _ ha
    · rw [List.erase_append_right _ ha, List.erase_of_not_mem h, List.erase_of_not_mem ha]
  rw [recent.eq_def limit (uses ++ [a]), dedup_use, herase, List.append_assoc]
  refine (rtake_append ?_).symm
  rcases hout with rfl | hfull
  · left
    rfl
  · right
    rw [List.length_append, hfull]
    omega

end Lru

end QwenTtsBridge.Lib
