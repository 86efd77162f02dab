import Mathlib.Data.Finset.Card
import Mathlib.Order.Basic

/-!
# Maps in the order of their keys

An ordered map is a list of keys with their values. `SortedMap.insert` writes a value where its key
belongs, and `SortedMap.find` looks a key up. What is found after a write does not depend on the
order (`find_insert`). A map is `Sorted` when its keys increase, and then it has as many entries as
keys (`Sorted.length_eq`).
-/

open List

namespace SortedMap

variable {κ ν : Type*}

section Defs

variable [DecidableEq κ]

/-- The value of a key. -/
def find (m : List (κ × ν)) (k : κ) : Option ν :=
  (m.find? fun p => p.1 = k).map Prod.snd

/-- A write. -/
def insert [LT κ] [DecidableLT κ] (k : κ) (v : ν) : List (κ × ν) → List (κ × ν)
  | [] => [(k, v)]
  | p :: m =>
    if k = p.1 then (k, v) :: m
    else if k < p.1 then (k, v) :: p :: m
    else p :: insert k v m

end Defs

/-- The keys increase. -/
def Sorted [LT κ] (m : List (κ × ν)) : Prop :=
  m.Pairwise (·.1 < ·.1)

section Find

variable [DecidableEq κ] {m : List (κ × ν)} {k k' : κ} {v : ν} {p : κ × ν}

@[simp] theorem find_nil : find ([] : List (κ × ν)) k = none :=
  rfl

theorem find_cons : find (p :: m) k = if p.1 = k then some p.2 else find m k := by
  by_cases h : p.1 = k <;> simp [find, h]

theorem mem_of_find (h : find m k = some v) : (k, v) ∈ m := by
  induction m with
  | nil => simp at h
  | cons p m ih =>
    rw [find_cons] at h
    split_ifs at h with hk
    · obtain rfl := Option.some.inj h
      exact hk ▸ mem_cons_self
    · exact mem_cons_of_mem p (ih h)

theorem find_isSome_iff : (find m k).isSome ↔ k ∈ m.map Prod.fst := by
  induction m with
  | nil => simp
  | cons p m ih =>
    rw [find_cons, map_cons, mem_cons]
    split_ifs with hk
    · simp [hk]
    · rw [ih]
      simp [Ne.symm hk]

variable [LT κ] [DecidableLT κ]

theorem find_insert : find (insert k v m) k' = if k = k' then some v else find m k' := by
  induction m with
  | nil => simp [insert, find_cons]
  | cons p m ih =>
    rw [insert]
    by_cases hp : k = p.1
    · rw [if_pos hp, find_cons, find_cons, ← hp]
      split_ifs <;> rfl
    · rw [if_neg hp]
      by_cases hlt : k < p.1
      · rw [if_pos hlt, find_cons]
      · rw [if_neg hlt, find_cons, ih, find_cons]
        by_cases hk : k = k'
        · rw [if_pos hk, if_pos hk, if_neg fun h => hp (hk.trans h.symm)]
        · rw [if_neg hk, if_neg hk]

theorem mem_of_mem_insert (h : p ∈ insert k v m) : p = (k, v) ∨ p ∈ m := by
  induction m with
  | nil => exact .inl (mem_singleton.1 h)
  | cons q m ih =>
    rw [insert] at h
    split_ifs at h
    · exact (mem_cons.1 h).imp_right (mem_cons_of_mem q)
    · exact mem_cons.1 h
    · rcases mem_cons.1 h with rfl | h
      · exact .inr mem_cons_self
      · exact (ih h).imp_right (mem_cons_of_mem q)

theorem mem_keys_insert : k' ∈ (insert k v m).map Prod.fst ↔ k' = k ∨ k' ∈ m.map Prod.fst := by
  rw [← find_isSome_iff, find_insert, ← find_isSome_iff]
  split_ifs with h
  · simp [h]
  · simp [Ne.symm h]

end Find

section Linear

variable [LinearOrder κ] {m : List (κ × ν)} {k : κ} {v : ν}

theorem Sorted.insert (h : Sorted m) : Sorted (insert k v m) := by
  induction m with
  | nil => exact pairwise_singleton _ _
  | cons p m ih =>
    obtain ⟨hp, hm⟩ := pairwise_cons.1 h
    rw [SortedMap.insert]
    split_ifs with hk hlt
    · exact pairwise_cons.2 ⟨fun q hq => hk ▸ hp q hq, hm⟩
    · refine pairwise_cons.2 ⟨fun q hq => ?_, h⟩
      rcases mem_cons.1 hq with rfl | hq
      · exact hlt
      · exact hlt.trans (hp q hq)
    · refine pairwise_cons.2 ⟨fun q hq => ?_, ih hm⟩
      rcases mem_of_mem_insert hq with rfl | hq
      · exact lt_of_le_of_ne (not_lt.1 hlt) (Ne.symm hk)
      · exact hp q hq

theorem Sorted.length_eq (h : Sorted m) : m.length = (m.map Prod.fst).toFinset.card := by
  have hnodup : (m.map Prod.fst).Nodup := by
    rw [nodup_iff_pairwise_ne, pairwise_map]
    exact h.imp ne_of_lt
  rw [toFinset_card_of_nodup hnodup, length_map]

theorem insert_perm (h : k ∉ m.map Prod.fst) : (SortedMap.insert k v m).Perm ((k, v) :: m) := by
  induction m with
  | nil => exact List.Perm.refl _
  | cons p m ih =>
    rw [map_cons, mem_cons, not_or] at h
    rw [SortedMap.insert, if_neg h.1]
    split_ifs
    · exact List.Perm.refl _
    · exact ((ih h.2).cons p).trans (List.Perm.swap _ _ _)

/-- A write of a key that is there adds no entry. -/
theorem Sorted.length_insert (h : Sorted m) (hk : k ∈ m.map Prod.fst) :
    (SortedMap.insert k v m).length = m.length := by
  rw [h.insert.length_eq, h.length_eq]
  congr 1
  ext k'
  rw [mem_toFinset, mem_toFinset, mem_keys_insert]
  constructor
  · rintro (rfl | hk')
    · exact hk
    · exact hk'
  · exact .inr

end Linear

end SortedMap
