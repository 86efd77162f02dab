import Mathlib.Algebra.BigOperators.Group.List.Basic
import Mathlib.Algebra.Ring.Nat

/-!
# Draws from balances

A list of draws is served one after the other. Each names a key and an amount, and takes the amount
from the balance of the key, or all of it when there is less. Together the draws of a key take their
sum, or all of the balance (`balance_foldl`).
-/

open List

namespace Draws

variable {S K : Type*} [DecidableEq K] {draws : List (K × ℕ)} {key : K}

/-- What a list of draws asks of a key. -/
def asked (draws : List (K × ℕ)) (key : K) : ℕ :=
  ((draws.filter fun d => d.1 = key).map Prod.snd).sum

theorem asked_nil (key : K) : asked [] key = 0 :=
  rfl

theorem asked_cons (d : K × ℕ) (draws : List (K × ℕ)) (key : K) :
    asked (d :: draws) key = (if d.1 = key then d.2 else 0) + asked draws key := by
  unfold asked
  by_cases h : d.1 = key
  · rw [filter_cons_of_pos (by simpa using h), map_cons, sum_cons, if_pos h]
  · rw [filter_cons_of_neg (by simpa using h), if_neg h, zero_add]

/-- A draw asks for no more than all draws of its key. -/
theorem le_asked {d : K × ℕ} (h : d ∈ draws) : d.2 ≤ asked draws d.1 := by
  induction draws with
  | nil => exact absurd h not_mem_nil
  | cons x draws ih =>
    rw [asked_cons]
    rcases mem_cons.1 h with rfl | h
    · rw [if_pos rfl]
      exact Nat.le_add_right _ _
    · exact le_trans (ih h) (Nat.le_add_left _ _)

/-- The only draw of a key asks for all that is asked. -/
theorem asked_eq_of_unique {ι : Type*} {slots : List ι} {id : ι → K} {amount : ι → ℕ} {i : ι}
    (hi : i ∈ slots) (hid : id i = key) (hone : (slots.filter fun i => id i = key).length ≤ 1) :
    asked (slots.map fun i => (id i, amount i)) key = amount i := by
  have hmem : i ∈ slots.filter fun i => id i = key := mem_filter.2 ⟨hi, by simpa using hid⟩
  have hfilter : ((slots.map fun i => (id i, amount i)).filter fun d => d.1 = key) =
      (slots.filter fun i => id i = key).map fun i => (id i, amount i) := filter_map
  rw [asked, hfilter]
  generalize slots.filter (fun i => id i = key) = l at hone hmem ⊢
  match l, hone, hmem with
  | [x], _, hmem =>
    obtain rfl := mem_singleton.1 hmem
    exact add_zero _

/-- Equal amounts ask for equal sums. -/
theorem asked_congr {ι : Type*} {slots : List ι} {id : ι → K} {f g : ι → ℕ}
    (h : ∀ i ∈ slots, id i = key → f i = g i) :
    asked (slots.map fun i => (id i, f i)) key = asked (slots.map fun i => (id i, g i)) key := by
  induction slots with
  | nil => rfl
  | cons i slots ih =>
    rw [map_cons, map_cons, asked_cons, asked_cons,
      ih fun j hj => h j (mem_cons_of_mem _ hj)]
    split_ifs with hid
    · rw [h i mem_cons_self hid]
    · rfl

/-- Larger amounts ask for more. -/
theorem asked_mono {ι : Type*} {slots : List ι} {id : ι → K} {f g : ι → ℕ}
    (h : ∀ i ∈ slots, id i = key → f i ≤ g i) :
    asked (slots.map fun i => (id i, f i)) key ≤ asked (slots.map fun i => (id i, g i)) key := by
  induction slots with
  | nil => exact le_refl _
  | cons i slots ih =>
    have hrest := ih fun j hj => h j (mem_cons_of_mem _ hj)
    rw [map_cons, map_cons, asked_cons, asked_cons]
    refine Nat.add_le_add ?_ hrest
    split_ifs with hid
    · exact h i mem_cons_self hid
    · exact le_refl _

/-- Nothing is asked where all amounts are zero. -/
theorem asked_eq_zero_iff : asked draws key = 0 ↔ ∀ d ∈ draws, d.1 = key → d.2 = 0 := by
  induction draws with
  | nil => simp [asked_nil]
  | cons d draws ih =>
    rw [asked_cons, forall_mem_cons, ← ih, Nat.add_eq_zero_iff]
    split_ifs with h
    · simp [h]
    · simp [h]

/-- Where each draw asks for `charged` instead of `real`, which is the same below a bound `M`, and
each is covered on its own by a balance below `M` : the real amounts are what the draws take if and
only if each of them is below the bound and those of a key with several draws are covered. -/
theorem min_asked_charged_iff {ι : Type*} {slots : List ι} {id : ι → K} {real charged : ι → ℕ}
    {M owned : ℕ} (heq : ∀ i ∈ slots, real i < M → charged i = real i)
    (hcovered : ∀ i ∈ slots, id i = key → charged i ≤ owned) (hM : owned < M)
    (hkey : ∃ i ∈ slots, id i = key) :
    min (asked (slots.map fun i => (id i, charged i)) key) owned =
        asked (slots.map fun i => (id i, real i)) key ↔
      (∀ i ∈ slots, id i = key → real i < M) ∧
        (1 < (slots.filter fun i => id i = key).length →
          asked (slots.map fun i => (id i, real i)) key ≤ owned) := by
  have hmem : ∀ {amount : ι → ℕ}, ∀ i ∈ slots, id i = key →
      amount i ≤ asked (slots.map fun i => (id i, amount i)) key := by
    intro amount i hi hid
    have h := le_asked (mem_map_of_mem (f := fun i => (id i, amount i)) hi)
    rwa [hid] at h
  constructor
  · intro h
    have hle : asked (slots.map fun i => (id i, real i)) key ≤ owned := by
      rw [← h]
      exact Nat.min_le_right _ _
    exact ⟨fun i hi hid => Nat.lt_of_le_of_lt (le_trans (hmem i hi hid) hle) hM, fun _ => hle⟩
  · rintro ⟨hsmall, hseveral⟩
    have hsame : asked (slots.map fun i => (id i, charged i)) key =
        asked (slots.map fun i => (id i, real i)) key :=
      asked_congr fun i hi hid => heq i hi (hsmall i hi hid)
    rw [hsame, Nat.min_eq_left]
    by_cases hone : 1 < (slots.filter fun i => id i = key).length
    · exact hseveral hone
    · obtain ⟨i, hi, hid⟩ := hkey
      rw [asked_eq_of_unique hi hid (Nat.le_of_not_lt hone), ← heq i hi (hsmall i hi hid)]
      exact hcovered i hi hid

/-- The draws of a key together take what they ask for, or the whole balance. -/
theorem balance_foldl (draw : S → K × ℕ → S) (balance : S → ℕ) (Ok : S → Prop)
    (hstep : ∀ s, Ok s → ∀ d ∈ draws, Ok (draw s d) ∧
      balance (draw s d) + min (if d.1 = key then d.2 else 0) (balance s) = balance s) {s : S}
    (hs : Ok s) :
    Ok (draws.foldl draw s) ∧
      balance (draws.foldl draw s) + min (asked draws key) (balance s) = balance s := by
  induction draws generalizing s with
  | nil => exact ⟨hs, by rw [asked_nil, Nat.zero_min]; rfl⟩
  | cons d draws ih =>
    obtain ⟨hok, hd⟩ := hstep s hs d mem_cons_self
    obtain ⟨hend, hrest⟩ := ih (fun s hs d' hd' => hstep s hs d' (mem_cons_of_mem _ hd')) hok
    refine ⟨hend, ?_⟩
    rw [foldl_cons, asked_cons]
    split_ifs at hd ⊢ <;> omega

end Draws
