import Mathlib.Algebra.BigOperators.Group.Finset.Basic
import Mathlib.Algebra.Order.BigOperators.Group.Finset
import Mathlib.Algebra.Ring.Nat
import Mathlib.Data.List.Nodup

/-!
# First fit

A number of units is spread over positions : the positions are tried in turn, each takes as much as
it has room for, and the search stops when all units are placed. `Plan.push` gives units to one
position and `fill` goes through a list of positions.

`Plan.Exact` is what such a plan keeps : the positions are distinct, the units given away and those
still to be placed add up to the units asked for, and every position has room for what it gets.

`Plan.Filled` adds that a position of the plan is full as long as units are left. A plan that has
been to all positions with room then leaves only what the room of all of them cannot take
(`Plan.Filled.placed_eq`).
-/

open List

namespace FirstFit

variable {α : Type*} [DecidableEq α]

/-- The units given to positions, and the units still to be placed. -/
structure Plan (α : Type*) where
  dest : List (α × ℕ)
  count : ℕ

/-- The positions of a plan. -/
def Plan.places (pl : Plan α) : List α :=
  pl.dest.map Prod.fst

/-- Give a position as much as fits in `space`. A position of the plan gets nothing more. -/
def Plan.push (pl : Plan α) (p : α) (space : ℕ) : Plan α :=
  if p ∈ pl.places then pl
  else ⟨pl.dest ++ [(p, min space pl.count)], pl.count - min space pl.count⟩

/-- Go through the positions that have room until all units are placed. -/
def fill (room : α → Option ℕ) : List α → Plan α → Plan α
  | [], pl => pl
  | p :: ps, pl =>
    match room p with
    | none => fill room ps pl
    | some space =>
      if p ∈ pl.places then fill room ps pl
      else if (pl.push p space).count = 0 then pl.push p space
      else fill room ps (pl.push p space)

/-- The plan spreads `total` units over distinct positions with room for them. -/
structure Plan.Exact (fits : α → ℕ → Prop) (total : ℕ) (pl : Plan α) : Prop where
  nodup : pl.places.Nodup
  sum : (pl.dest.map Prod.snd).sum + pl.count = total
  fits : ∀ pn ∈ pl.dest, fits pn.1 pn.2

/-- There is room for any number of units from one to `space`. -/
def Room (fits : α → ℕ → Prop) (p : α) (space : ℕ) : Prop :=
  1 ≤ space ∧ ∀ n, 1 ≤ n → n ≤ space → fits p n

variable {fits : α → ℕ → Prop} {total : ℕ} {pl : Plan α}

omit [DecidableEq α] in
theorem Plan.exact_nil (fits : α → ℕ → Prop) (total : ℕ) : Plan.Exact fits total ⟨[], total⟩ :=
  ⟨nodup_nil, by simp, by simp⟩

theorem Plan.push_of_mem {p : α} (h : p ∈ pl.places) (space : ℕ) : pl.push p space = pl :=
  if_pos h

theorem Plan.push_of_not_mem {p : α} (h : p ∉ pl.places) (space : ℕ) :
    pl.push p space = ⟨pl.dest ++ [(p, min space pl.count)], pl.count - min space pl.count⟩ :=
  if_neg h

theorem Plan.Exact.push (h : pl.Exact fits total) (hc : pl.count ≠ 0) {p : α} {space : ℕ}
    (hroom : Room fits p space) : (pl.push p space).Exact fits total := by
  by_cases hp : p ∈ pl.places
  · rw [Plan.push_of_mem hp]
    exact h
  rw [Plan.push_of_not_mem hp]
  refine ⟨?_, ?_, ?_⟩
  · have hnodup : (pl.places ++ [p]).Nodup :=
      nodup_append.2 ⟨h.nodup, nodup_singleton p, by
        rintro a ha b hb rfl
        rw [mem_singleton] at hb
        exact hp (hb ▸ ha)⟩
    simpa [Plan.places] using hnodup
  · have hsum := h.sum
    simp only [map_append, map_cons, map_nil, sum_append, sum_singleton]
    omega
  · intro pn hpn
    rcases mem_append.1 hpn with hpn | hpn
    · exact h.fits pn hpn
    · obtain rfl := mem_singleton.1 hpn
      have hspace := hroom.1
      have hfit : fits p (min space pl.count) := hroom.2 _ (by omega) (Nat.min_le_left _ _)
      exact hfit

theorem Plan.Exact.fill {room : α → Option ℕ} {ps : List α} (h : pl.Exact fits total)
    (hc : pl.count ≠ 0) (hroom : ∀ p ∈ ps, ∀ space, room p = some space → Room fits p space) :
    (fill room ps pl).Exact fits total := by
  induction ps generalizing pl with
  | nil => exact h
  | cons p ps ih =>
    have hps : ∀ q ∈ ps, ∀ space, room q = some space → Room fits q space :=
      fun q hq => hroom q (mem_cons_of_mem _ hq)
    unfold FirstFit.fill
    cases hspace : room p with
    | none => exact ih h hc hps
    | some space =>
      have hpush := h.push hc (hroom p mem_cons_self space hspace)
      simp only
      split_ifs with hmem hzero
      · exact ih h hc hps
      · exact hpush
      · exact ih hpush hzero hps

/-- The units of a plan, placed or not. -/
def Plan.weight (pl : Plan α) : ℕ :=
  (pl.dest.map Prod.snd).sum + pl.count

theorem Plan.weight_push (pl : Plan α) (p : α) (space : ℕ) :
    (pl.push p space).weight = pl.weight := by
  unfold Plan.push
  split_ifs
  · rfl
  · simp only [weight, map_append, map_cons, map_nil, sum_append,
      sum_singleton]
    omega

theorem weight_fill (room : α → Option ℕ) (ps : List α) (pl : Plan α) :
    (fill room ps pl).weight = pl.weight := by
  induction ps generalizing pl with
  | nil => rfl
  | cons p ps ih =>
    unfold fill
    cases room p with
    | none => exact ih pl
    | some space =>
      simp only
      split_ifs
      · exact ih pl
      · exact pl.weight_push p space
      · rw [ih, pl.weight_push]

/-! ## Full positions -/

theorem Plan.places_push (pl : Plan α) (p : α) (space : ℕ) :
    (pl.push p space).places = if p ∈ pl.places then pl.places else pl.places ++ [p] := by
  unfold Plan.push
  split_ifs
  · rfl
  · simp [places]

theorem Plan.mem_places_push (pl : Plan α) (p : α) (space : ℕ) : p ∈ (pl.push p space).places := by
  rw [places_push]
  split_ifs with hp
  · exact hp
  · exact mem_append_right _ (mem_singleton_self p)

theorem Plan.places_subset_push (pl : Plan α) (p : α) (space : ℕ) :
    pl.places ⊆ (pl.push p space).places := by
  rw [places_push]
  split_ifs
  · exact List.Subset.refl _
  · exact subset_append_left _ _

theorem places_subset_fill (room : α → Option ℕ) (ps : List α) (pl : Plan α) :
    pl.places ⊆ (fill room ps pl).places := by
  induction ps generalizing pl with
  | nil => exact List.Subset.refl _
  | cons p ps ih =>
    unfold fill
    cases room p with
    | none => exact ih pl
    | some space =>
      simp only
      split_ifs
      · exact ih pl
      · exact pl.places_subset_push p space
      · exact List.Subset.trans (pl.places_subset_push p space) (ih _)

/-- A search that leaves units has been to every position with room. -/
theorem mem_places_fill {room : α → Option ℕ} {ps : List α} {p : α} {space : ℕ} (hp : p ∈ ps)
    (hroom : room p = some space) (hc : (fill room ps pl).count ≠ 0) :
    p ∈ (fill room ps pl).places := by
  induction ps generalizing pl with
  | nil => cases hp
  | cons q ps ih =>
    unfold fill at hc ⊢
    rcases mem_cons.1 hp with rfl | hp
    · rw [hroom] at hc ⊢
      simp only at hc ⊢
      split_ifs at hc ⊢ with hmem hzero
      · exact places_subset_fill room ps pl hmem
      · exact pl.mem_places_push p space
      · exact places_subset_fill room ps _ (pl.mem_places_push p space)
    · cases hq : room q with
      | none =>
        rw [hq] at hc
        exact ih hp hc
      | some s =>
        rw [hq] at hc
        simp only at hc ⊢
        split_ifs at hc ⊢ with hmem hzero
        · exact ih hp hc
        · exact absurd hzero hc
        · exact ih hp hc

/-- The plan spreads `total` units over positions of `R`, and what it has been to is full as long as
units are left. -/
structure Plan.Filled (room : α → ℕ) (R : Finset α) (total : ℕ) (pl : Plan α) : Prop extends
    Plan.Exact (fun p n => p ∈ R ∧ n ≤ room p) total pl where
  full : pl.count ≠ 0 → ∀ pn ∈ pl.dest, pn.2 = room pn.1

variable {room : α → ℕ} {R : Finset α}

omit [DecidableEq α] in
theorem Plan.filled_nil (room : α → ℕ) (R : Finset α) (total : ℕ) :
    Plan.Filled room R total ⟨[], total⟩ :=
  ⟨Plan.exact_nil _ total, fun _ _ h => by cases h⟩

theorem Plan.Filled.push (h : pl.Filled room R total) (hc : pl.count ≠ 0) {p : α} (hp : p ∈ R)
    (hroom : 1 ≤ room p) : (pl.push p (room p)).Filled room R total := by
  have hfits : Room (fun q n => q ∈ R ∧ n ≤ room q) p (room p) :=
    ⟨hroom, fun n _ hn => ⟨hp, hn⟩⟩
  refine ⟨h.toExact.push hc hfits, fun hleft pn hpn => ?_⟩
  by_cases hmem : p ∈ pl.places
  · rw [Plan.push_of_mem hmem] at hpn
    exact h.full hc pn hpn
  rw [Plan.push_of_not_mem hmem] at hleft hpn
  rcases mem_append.1 hpn with hpn | hpn
  · exact h.full hc pn hpn
  · obtain rfl := mem_singleton.1 hpn
    simp only at hleft ⊢
    omega

theorem Plan.Filled.fill {space : α → Option ℕ} {ps : List α} (h : pl.Filled room R total)
    (hc : pl.count ≠ 0) (hspace : ∀ p ∈ ps, ∀ s, space p = some s → s = room p ∧ 1 ≤ s ∧ p ∈ R) :
    (fill space ps pl).Filled room R total := by
  induction ps generalizing pl with
  | nil => exact h
  | cons p ps ih =>
    have hps : ∀ q ∈ ps, ∀ s, space q = some s → s = room q ∧ 1 ≤ s ∧ q ∈ R :=
      fun q hq => hspace q (mem_cons_of_mem _ hq)
    unfold FirstFit.fill
    cases hs : space p with
    | none => exact ih h hc hps
    | some s =>
      obtain ⟨rfl, hone, hp⟩ := hspace p mem_cons_self s hs
      have hpush := h.push hc hp hone
      simp only
      split_ifs with hmem hzero
      · exact ih h hc hps
      · exact hpush
      · exact ih hpush hzero hps

/-- The units placed, by position. -/
theorem Plan.Exact.sum_places (h : pl.Exact fits total) {room : α → ℕ}
    (hle : ∀ pn ∈ pl.dest, pn.2 ≤ room pn.1) :
    (pl.dest.map Prod.snd).sum ≤ ∑ p ∈ pl.places.toFinset, room p := by
  rw [sum_toFinset room h.nodup, Plan.places, map_map]
  exact sum_le_sum hle

/-- No more is placed than there is room for. -/
theorem Plan.Filled.placed_le (h : pl.Filled room R total) :
    (pl.dest.map Prod.snd).sum ≤ ∑ p ∈ R, room p := by
  refine (h.sum_places fun pn hpn => (h.fits pn hpn).2).trans
    (Finset.sum_le_sum_of_subset fun p hp => ?_)
  obtain ⟨pn, hpn, rfl⟩ := mem_map.1 (mem_toFinset.1 hp)
  exact (h.fits pn hpn).1

/-- With units left, a plan that has been to all positions with room has used all of it. -/
theorem Plan.Filled.placed_eq (h : pl.Filled room R total) (hc : pl.count ≠ 0)
    (hall : ∀ p ∈ R, room p ≠ 0 → p ∈ pl.places) :
    (pl.dest.map Prod.snd).sum = ∑ p ∈ R, room p := by
  refine le_antisymm h.placed_le ?_
  have hsum : (pl.dest.map Prod.snd).sum = ∑ p ∈ pl.places.toFinset, room p := by
    rw [sum_toFinset room h.nodup, Plan.places, map_map]
    exact congrArg List.sum (map_congr_left (h.full hc))
  rw [hsum]
  refine Finset.sum_le_sum_of_ne_zero fun p hp hne => ?_
  exact mem_toFinset.2 (hall p hp hne)

end FirstFit
