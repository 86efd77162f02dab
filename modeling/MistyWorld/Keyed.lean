import Mathlib.Algebra.BigOperators.Group.Finset.Piecewise
import Mathlib.Algebra.BigOperators.Group.List.Basic
import Mathlib.Algebra.Ring.Nat
import Mathlib.Data.List.Nodup

/-!
# Keyed collections and their sums

A map of records is a list whose records have distinct keys. `Keyed.find` looks a key
up, `Keyed.replace` overwrites the record with the key of the given one and
`Keyed.remove` erases a key. `Keyed.sum_replace` and `Keyed.sum_remove` say what each
does to a sum over the records, `Keyed.countP_replace` and `Keyed.countP_remove` to a count. `Finset.sum_update_add` is the same fact for a total
map, updated at one point, and `List.sum_map_update_add` for such a map along a list.
-/

open Function List

namespace Keyed

variable {α κ : Type*} [DecidableEq κ] (key : α → κ)

/-- The record with key `k`. -/
def find (l : List α) (k : κ) : Option α :=
  l.find? fun x => key x = k

/-- Overwrite the record that has the key of `x`. -/
def replace (l : List α) (x : α) : List α :=
  l.map fun y => if key y = key x then x else y

/-- Erase the record with key `k`. -/
def remove (l : List α) (k : κ) : List α :=
  l.filter fun x => key x ≠ k

variable {key} {l : List α} {x y : α} {k : κ}

theorem mem_of_find (h : find key l k = some x) : x ∈ l ∧ key x = k :=
  ⟨mem_of_find?_eq_some h, by simpa using List.find?_some h⟩

theorem find_cons_self (l : List α) (x : α) : find key (x :: l) (key x) = some x := by
  simp [find]

theorem find_cons_of_ne (h : key x ≠ k) : find key (x :: l) k = find key l k := by
  simp [find, h]

theorem find_eq_none (h : k ∉ l.map key) : find key l k = none := by
  refine List.find?_eq_none.2 fun x hx => ?_
  simp only [decide_eq_true_eq]
  rintro rfl
  exact h (mem_map_of_mem hx)

theorem not_mem_of_find_eq_none (h : find key l k = none) : k ∉ l.map key := by
  intro hk
  obtain ⟨x, hx, rfl⟩ := mem_map.1 hk
  simpa using List.find?_eq_none.1 h x hx

theorem find_of_mem (hl : (l.map key).Nodup) (hx : x ∈ l) : find key l (key x) = some x := by
  induction l with
  | nil => exact absurd hx not_mem_nil
  | cons y l ih =>
    simp only [map_cons, nodup_cons] at hl
    rcases mem_cons.1 hx with rfl | hx
    · exact find_cons_self l x
    · have hne : key y ≠ key x := fun h => hl.1 (h ▸ mem_map_of_mem hx)
      rw [find_cons_of_ne hne, ih hl.2 hx]

theorem find_replace_self (h : find key l (key x) = some y) :
    find key (replace key l x) (key x) = some x := by
  induction l with
  | nil => simp [find] at h
  | cons z l ih =>
    by_cases hk : key z = key x
    · simp [find, replace, hk]
    · rw [find_cons_of_ne hk] at h
      have hrest := ih h
      simp only [replace, map_cons, if_neg hk] at hrest ⊢
      rw [find_cons_of_ne hk, hrest]

theorem find_replace_of_ne (h : k ≠ key x) : find key (replace key l x) k = find key l k := by
  induction l with
  | nil => rfl
  | cons y l ih =>
    simp only [replace, map_cons] at ih ⊢
    split_ifs with hk
    · have hy : key y ≠ k := fun hy => h (hy.symm.trans hk)
      rw [find_cons_of_ne h.symm, find_cons_of_ne hy, ih]
    · by_cases hy : key y = k
      · subst hy
        rw [find_cons_self, find_cons_self]
      · rw [find_cons_of_ne hy, find_cons_of_ne hy, ih]

theorem find_remove_of_ne {j : κ} (h : k ≠ j) (l : List α) :
    find key (remove key l j) k = find key l k := by
  rw [find, remove, List.find?_filter, find]
  congr 1
  funext z
  by_cases hz : key z = k
  · simp [hz, h]
  · simp [hz]

theorem find_remove_self (l : List α) (k : κ) : find key (remove key l k) k = none :=
  find_eq_none (by simp [remove])

theorem mem_replace (h : y ∈ replace key l x) : y = x ∨ y ∈ l := by
  obtain ⟨z, hz, rfl⟩ := mem_map.1 h
  split_ifs with hk
  · exact Or.inl rfl
  · exact Or.inr hz

theorem mem_replace_iff :
    y ∈ replace key l x ↔ (y = x ∧ key x ∈ l.map key) ∨ (y ∈ l ∧ key y ≠ key x) := by
  simp only [replace, mem_map]
  constructor
  · rintro ⟨z, hz, rfl⟩
    split_ifs with hk
    · exact Or.inl ⟨rfl, z, hz, hk⟩
    · exact Or.inr ⟨hz, hk⟩
  · rintro (⟨rfl, z, hz, hk⟩ | ⟨hy, hk⟩)
    · exact ⟨z, hz, if_pos hk⟩
    · exact ⟨y, hy, if_neg hk⟩

theorem mem_replace_of_ne (hy : y ∈ l) (h : key y ≠ key x) : y ∈ replace key l x :=
  mem_map.2 ⟨y, hy, if_neg h⟩

theorem mem_remove : x ∈ remove key l k ↔ x ∈ l ∧ key x ≠ k := by
  simp [remove]

theorem map_key_replace (l : List α) (x : α) : (replace key l x).map key = l.map key := by
  induction l with
  | nil => rfl
  | cons y l ih =>
    simp only [replace, map_cons, List.cons.injEq] at ih ⊢
    refine ⟨?_, ih⟩
    split_ifs with hk
    · exact hk.symm
    · rfl

theorem replace_of_not_mem (h : key x ∉ l.map key) : replace key l x = l := by
  induction l with
  | nil => rfl
  | cons y l ih =>
    simp only [map_cons, mem_cons, not_or] at h
    simp only [replace, map_cons] at ih ⊢
    rw [if_neg (Ne.symm h.1), ih h.2]

theorem remove_of_not_mem (h : k ∉ l.map key) : remove key l k = l := by
  refine filter_eq_self.2 fun x hx => ?_
  simp only [ne_eq, decide_eq_true_eq]
  rintro rfl
  exact h (mem_map_of_mem hx)

theorem nodup_remove (h : (l.map key).Nodup) (k : κ) : ((remove key l k).map key).Nodup :=
  h.sublist (filter_sublist.map key)

variable {M : Type*} [AddCommMonoid M] (f : α → M)

/-- Overwriting a record changes a sum by the new record against the old one. -/
theorem sum_replace (hl : (l.map key).Nodup) (hx : find key l (key x) = some y) :
    ((replace key l x).map f).sum + f y = (l.map f).sum + f x := by
  induction l with
  | nil => simp [find] at hx
  | cons z l ih =>
    simp only [map_cons, nodup_cons] at hl
    by_cases hk : key z = key x
    · rw [← hk, find_cons_self, Option.some.injEq] at hx
      subst hx
      have hrest : replace key l x = l := replace_of_not_mem (hk ▸ hl.1)
      simp only [replace, map_cons, if_pos hk, sum_cons] at hrest ⊢
      rw [hrest, add_right_comm, add_comm (f x), add_right_comm]
    · rw [find_cons_of_ne hk] at hx
      have h := ih hl.2 hx
      simp only [replace, map_cons, if_neg hk, sum_cons] at h ⊢
      rw [add_assoc, h, add_assoc]

/-- Erasing a key takes its record out of a sum. -/
theorem sum_remove (hl : (l.map key).Nodup) (hy : find key l k = some y) :
    ((remove key l k).map f).sum + f y = (l.map f).sum := by
  induction l with
  | nil => simp [find] at hy
  | cons z l ih =>
    simp only [map_cons, nodup_cons] at hl
    by_cases hk : key z = k
    · subst hk
      rw [find_cons_self, Option.some.injEq] at hy
      subst hy
      have hrest : remove key l (key z) = l := remove_of_not_mem hl.1
      simp only [remove, ne_eq, decide_not] at hrest
      simp [remove, hrest, add_comm]
    · rw [find_cons_of_ne hk] at hy
      have h := ih hl.2 hy
      simp only [remove, ne_eq, decide_not] at h
      simp [remove, hk, add_assoc, h]

theorem countP_eq_sum (p : α → Bool) (l : List α) :
    l.countP p = (l.map fun x => if p x then 1 else 0).sum := by
  induction l with
  | nil => rfl
  | cons x l ih => rw [countP_cons, map_cons, sum_cons, ih, add_comm]

theorem countP_replace (p : α → Bool) (hl : (l.map key).Nodup) (hx : find key l (key x) = some y) :
    (replace key l x).countP p + (if p y then 1 else 0) = l.countP p + if p x then 1 else 0 := by
  rw [countP_eq_sum, countP_eq_sum]
  exact sum_replace (fun z => if p z then 1 else 0) hl hx

theorem countP_remove (p : α → Bool) (hl : (l.map key).Nodup) (hy : find key l k = some y) :
    (remove key l k).countP p + (if p y then 1 else 0) = l.countP p := by
  rw [countP_eq_sum, countP_eq_sum]
  exact sum_remove (fun z => if p z then 1 else 0) hl hy

end Keyed

namespace Finset

variable {ι β M : Type*} [DecidableEq ι] [AddCommMonoid M]

/-- Updating a map at a point of `s` changes a sum over `s` by the new value against the
old one. -/
theorem sum_update_add {s : Finset ι} {i : ι} (hi : i ∈ s) (g : ι → β → M) (f : ι → β) (b : β) :
    ∑ j ∈ s, g j (update f i b j) + g i (f i) = ∑ j ∈ s, g j (f j) + g i b := by
  have hrest : ∑ j ∈ s.erase i, g j (update f i b j) = ∑ j ∈ s.erase i, g j (f j) :=
    sum_congr rfl fun j hj => by rw [update_of_ne (ne_of_mem_erase hj)]
  rw [← add_sum_erase s _ hi, ← add_sum_erase s (fun j => g j (f j)) hi, hrest,
    update_self, add_right_comm, add_comm (g i b), add_right_comm]

end Finset

namespace List

variable {ι M : Type*} [DecidableEq ι] [AddCommMonoid M]

/-- Updating a map at an element of a list without repetitions changes a sum over the list
by the new value against the old one. -/
theorem sum_map_update_add {l : List ι} (hl : l.Nodup) {i : ι} (hi : i ∈ l) (f : ι → M) (b : M) :
    (l.map (update f i b)).sum + f i = (l.map f).sum + b := by
  rw [← sum_toFinset _ hl, ← sum_toFinset _ hl]
  exact Finset.sum_update_add (mem_toFinset.2 hi) (fun _ x => x) f b

end List
