import Mathlib.Data.List.Basic
import Mathlib.Data.Int.Notation

/-!
# Queues by time

A queue of events is a list of times with their events, the first of them first. `insert` puts an
event behind those that are not later, as a `multimap` with times as its keys does.
-/

open List

namespace TimeQueue

variable {E : Type*} {l : List (ℤ × E)} {x : ℤ × E}

/-- Insert an event behind those that are not later. -/
def insert (x : ℤ × E) : List (ℤ × E) → List (ℤ × E)
  | [] => [x]
  | y :: l => if y.1 ≤ x.1 then y :: insert x l else x :: y :: l

/-- The times do not fall. -/
def InOrder (l : List (ℤ × E)) : Prop :=
  l.Pairwise fun x y => x.1 ≤ y.1

theorem insert_cons_of_le {y : ℤ × E} (h : y.1 ≤ x.1) (l : List (ℤ × E)) :
    insert x (y :: l) = y :: insert x l :=
  if_pos h

theorem insert_perm (x : ℤ × E) (l : List (ℤ × E)) : (insert x l).Perm (x :: l) := by
  induction l with
  | nil => exact .refl _
  | cons y l ih =>
    rw [insert]
    split
    · exact (ih.cons y).trans (.swap x y l)
    · exact .refl _

theorem mem_insert {y : ℤ × E} : y ∈ insert x l ↔ y = x ∨ y ∈ l := by
  rw [(insert_perm x l).mem_iff, mem_cons]

theorem InOrder.insert (h : InOrder l) (x : ℤ × E) : InOrder (TimeQueue.insert x l) := by
  induction l with
  | nil => exact pairwise_singleton _ x
  | cons y l ih =>
    obtain ⟨hy, hl⟩ := pairwise_cons.1 h
    rw [TimeQueue.insert]
    split
    · next hle =>
      refine pairwise_cons.2 ⟨fun z hz => ?_, ih hl⟩
      rcases mem_insert.1 hz with rfl | hz
      · exact hle
      · exact hy z hz
    · next hlt =>
      refine pairwise_cons.2 ⟨fun z hz => ?_, h⟩
      rcases mem_cons.1 hz with rfl | hz
      · omega
      · have := hy z hz
        omega

theorem filter_insert_of_neg {p : ℤ × E → Bool} (h : p x = false) (l : List (ℤ × E)) :
    (insert x l).filter p = l.filter p := by
  induction l with
  | nil => rw [insert, filter_cons_of_neg (by simp [h])]
  | cons y l ih =>
    rw [insert]
    split
    · rw [filter_cons, filter_cons, ih]
    · rw [filter_cons_of_neg (by simp [h])]

theorem filter_insert_of_nil {p : ℤ × E → Bool} (h : p x = true) (hl : l.filter p = []) :
    (insert x l).filter p = [x] := by
  have hperm := (insert_perm x l).filter p
  rw [filter_cons_of_pos h, hl] at hperm
  exact perm_singleton.1 hperm

/-- The events are not before the time of the first one. -/
theorem InOrder.le_of_head (h : InOrder l) {now : ℤ} (hhead : ∀ x ∈ l.head?, now ≤ x.1) :
    ∀ x ∈ l, now ≤ x.1 := by
  cases l with
  | nil => exact fun x hx => absurd hx not_mem_nil
  | cons y l =>
    have hy : now ≤ y.1 := hhead y rfl
    intro x hx
    rcases mem_cons.1 hx with rfl | hx
    · exact hy
    · exact Int.le_trans hy ((pairwise_cons.1 h).1 x hx)

end TimeQueue
