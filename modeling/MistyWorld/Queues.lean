import Mathlib.Data.List.Nodup
import Mathlib.Logic.Function.Basic

/-!
# A family of queues

A family of queues gives every index a list. `Distinct` says that no element stands twice in the
family, neither in one queue nor in two. It is kept when a new element is put into a queue
(`Distinct.insert`), when one is taken out (`Distinct.erase`), and when one is put into another
queue before it is erased from its own (`Distinct.move`). `Distinct.count_eq` counts an element in
every queue.
-/

open Function

namespace Queues

variable {ι α : Type*}

/-- No element stands twice. -/
structure Distinct (queues : ι → List α) : Prop where
  nodup : ∀ i, (queues i).Nodup
  unique : ∀ {i j a}, a ∈ queues i → a ∈ queues j → i = j

theorem distinct_nil : Distinct fun _ : ι => ([] : List α) :=
  ⟨fun _ => List.nodup_nil, fun ha => absurd ha List.not_mem_nil⟩

variable [DecidableEq ι] {queues : ι → List α} {i j k : ι} {a b : α} {l : List α}

theorem mem_update : a ∈ update queues i l j ↔ (j = i ∧ a ∈ l) ∨ (j ≠ i ∧ a ∈ queues j) := by
  by_cases hji : j = i
  · subst hji
    simp
  · simp [hji]

/-- A queue gets one new element more. -/
theorem Distinct.insert (h : Distinct queues) (hperm : l.Perm (a :: queues i))
    (hnew : ∀ j, a ∉ queues j) : Distinct (update queues i l) := by
  have hcases : ∀ {k b}, b ∈ update queues i l k → (b = a ∧ k = i) ∨ b ∈ queues k := by
    intro k b hb
    rw [mem_update, hperm.mem_iff, List.mem_cons] at hb
    rcases hb with ⟨rfl, rfl | hb⟩ | ⟨-, hb⟩
    · exact .inl ⟨rfl, rfl⟩
    · exact .inr hb
    · exact .inr hb
  constructor
  · intro j
    by_cases hji : j = i
    · subst hji
      rw [update_self]
      exact hperm.nodup_iff.2 (List.nodup_cons.2 ⟨hnew j, h.nodup j⟩)
    · rw [update_of_ne hji]
      exact h.nodup j
  · intro j k b hj hk
    rcases hcases hj with ⟨rfl, rfl⟩ | hj' <;> rcases hcases hk with ⟨hb, rfl⟩ | hk'
    · rfl
    · exact absurd hk' (hnew k)
    · exact absurd (hb ▸ hj') (hnew j)
    · exact h.unique hj' hk'

/-- A queue loses elements. -/
theorem Distinct.sublist (h : Distinct queues) (hsub : l.Sublist (queues i)) :
    Distinct (update queues i l) := by
  have hmem : ∀ {j b}, b ∈ update queues i l j → b ∈ queues j := by
    intro j b hb
    rcases mem_update.1 hb with ⟨hji, hb⟩ | ⟨-, hb⟩
    · exact hji ▸ hsub.subset hb
    · exact hb
  refine ⟨fun j => ?_, fun hj hk => h.unique (hmem hj) (hmem hk)⟩
  by_cases hji : j = i
  · subst hji
    rw [update_self]
    exact (h.nodup j).sublist hsub
  · rw [update_of_ne hji]
    exact h.nodup j

variable [DecidableEq α]

section

variable (h : Distinct queues)
include h

theorem Distinct.erase (i : ι) (a : α) : Distinct (update queues i ((queues i).erase a)) :=
  h.sublist List.erase_sublist

section

variable (ha : a ∈ queues i)
include ha

theorem Distinct.mem_erase : b ∈ update queues i ((queues i).erase a) j ↔ b ≠ a ∧ b ∈ queues j := by
  rw [mem_update, (h.nodup i).mem_erase_iff]
  constructor
  · rintro (⟨rfl, hb⟩ | ⟨hji, hb⟩)
    · exact hb
    · exact ⟨fun hba => hji (h.unique (hba ▸ hb) ha), hb⟩
  · rintro ⟨hne, hb⟩
    by_cases hji : j = i
    · exact .inl ⟨hji, hne, hji ▸ hb⟩
    · exact .inr ⟨hji, hb⟩

/-- An element is put into another queue, and erased from its own. -/
theorem Distinct.move (hij : i ≠ j) (hperm : l.Perm (a :: queues j)) :
    Distinct (update (update queues j l) i ((queues i).erase a)) := by
  rw [update_comm hij.symm]
  refine (h.erase i a).insert ?_ fun k hk => ((h.mem_erase ha).1 hk).1 rfl
  rwa [update_of_ne hij.symm]

theorem Distinct.mem_move (hij : i ≠ j) (hperm : l.Perm (a :: queues j)) :
    b ∈ update (update queues j l) i ((queues i).erase a) k ↔
      (b = a ∧ k = j) ∨ (b ≠ a ∧ b ∈ queues k) := by
  rw [update_comm hij.symm, mem_update, hperm.mem_iff, List.mem_cons, h.mem_erase ha]
  constructor
  · rintro (⟨rfl, rfl | hb⟩ | ⟨-, hb⟩)
    · exact .inl ⟨rfl, rfl⟩
    · by_cases hba : b = a
      · exact .inl ⟨hba, rfl⟩
      · exact .inr ⟨hba, hb⟩
    · exact .inr hb
  · rintro (⟨rfl, rfl⟩ | ⟨hba, hb⟩)
    · exact .inl ⟨rfl, .inl rfl⟩
    · by_cases hkj : k = j
      · exact .inl ⟨hkj, .inr (hkj ▸ hb)⟩
      · exact .inr ⟨hkj, hba, hb⟩

/-- An element stands once in its queue, and in no other. -/
theorem Distinct.count_eq : (queues j).count a = if j = i then 1 else 0 := by
  by_cases hji : j = i
  · rw [if_pos hji, hji]
    exact List.count_eq_one_of_mem (h.nodup i) ha
  · rw [if_neg hji]
    exact List.count_eq_zero.2 fun hj => hji (h.unique hj ha)

end

end

end Queues
