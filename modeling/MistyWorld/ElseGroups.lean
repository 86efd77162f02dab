import MistyWorld.Keyed
import Mathlib.Data.Finset.Card
import Mathlib.Data.Finset.Lattice.Fold

/-!
# Lists tried in groups

The entries of a list carry a key. A list passes when the entries of one key all pass : an
"or" over the keys of an "and" over the entries. An entry stands for a condition of its own, or
refers to another list.

A loop evaluates such a list in one pass. It keeps a value for each key met so far, starts a key
at `top`, takes the `meet` with the value of each entry, and skips the entries of a key that is
`done`. `Scheme` holds what such a loop is made of, and `Passes` says which lists pass when the
conditions that pass are given. `exists_eval` relates the two, for every reading `p` of the
values as truth values : a loop that recurses into the lists referred to ends, when no list
refers to itself through others, and its value is read as `Passes`.
-/

open Keyed List

namespace ElseGroups

variable {ι κ ρ α ε : Type*} [DecidableEq κ]

/-- A loop over a list with a value for each key. -/
structure Scheme (ι κ α ε : Type*) where
  /-- The key of an entry. -/
  key : ι → κ
  /-- The value of a key before its first entry. -/
  top : α
  /-- The value of a key after another entry. -/
  meet : α → α → α
  /-- Whether further entries of the key are skipped. -/
  done : α → Bool
  /-- The value of an entry. -/
  value : ι → Except ε α

namespace Scheme

variable (S : Scheme ι κ α ε)

/-- One entry of the list. -/
def step (store : List (κ × α)) (i : ι) : Except ε (List (κ × α)) :=
  match find Prod.fst store (S.key i) with
  | none => (S.value i).map fun v => (S.key i, S.meet S.top v) :: store
  | some e =>
    if S.done e.2 then
      .ok store
    else
      (S.value i).map fun v => replace Prod.fst store (S.key i, S.meet e.2 v)

/-- `p` reads the values as truth values. -/
structure Reads (p : α → Bool) : Prop where
  top : p S.top = true
  meet : ∀ a b, p (S.meet a b) = (p a && p b)
  done : ∀ a, S.done a = true → p a = false

/-- The store after some entries : it has their keys, and the value of a key is read as true
when each of its entries passes. -/
structure Tallies (p : α → Bool) (P : ι → Prop) (l : List ι) (store : List (κ × α)) : Prop where
  nodup : (store.map Prod.fst).Nodup
  key : ∀ k, k ∈ store.map Prod.fst ↔ ∃ i ∈ l, S.key i = k
  value : ∀ e ∈ store, p e.2 = true ↔ ∀ i ∈ l, S.key i = e.1 → P i

variable {S} {p : α → Bool} {P : ι → Prop} {l : List ι} {store : List (κ × α)}

theorem Tallies.step (hp : S.Reads p) (h : S.Tallies p P l store) {i : ι}
    (hi : ∃ a, S.value i = .ok a ∧ (p a = true ↔ P i)) :
    ∃ store', S.step store i = .ok store' ∧ S.Tallies p P (l ++ [i]) store' := by
  obtain ⟨v, hv, hiff⟩ := hi
  simp only [Scheme.step, hv, Except.map]
  cases hfind : find Prod.fst store (S.key i) with
  | none =>
    have hnew : S.key i ∉ store.map Prod.fst := not_mem_of_find_eq_none hfind
    refine ⟨_, rfl, nodup_cons.2 ⟨hnew, h.nodup⟩, fun k => ?_, fun e he => ?_⟩
    · simp only [map_cons, mem_cons, h.key, mem_append, not_mem_nil, or_false,
        or_and_right, exists_or, exists_eq_left]
      rw [or_comm, eq_comm]
    · simp only [forall_mem_append, forall_mem_singleton]
      rcases mem_cons.1 he with rfl | he
      · have hnone : ∀ j ∈ l, S.key j ≠ S.key i := fun j hj hk => hnew ((h.key _).2 ⟨j, hj, hk⟩)
        simp only [hp.meet, hp.top, Bool.true_and, hiff, true_imp_iff]
        exact ⟨fun hP => ⟨fun j hj hk => absurd hk (hnone j hj), hP⟩, fun hP => hP.2⟩
      · have hne : S.key i ≠ e.1 := fun hk => hnew (hk ▸ mem_map_of_mem he)
        rw [h.value e he]
        exact ⟨fun hP => ⟨hP, fun hk => absurd hk hne⟩, fun hP => hP.1⟩
  | some e0 =>
    obtain ⟨hmem, hkey⟩ := mem_of_find hfind
    have hold : S.key i ∈ store.map Prod.fst := hkey ▸ mem_map_of_mem hmem
    have hkeys : ∀ k, (∃ j ∈ l ++ [i], S.key j = k) ↔ k ∈ store.map Prod.fst := by
      intro k
      simp only [h.key, mem_append, mem_singleton, or_and_right, exists_or,
        exists_eq_left, or_iff_left_iff_imp]
      rintro rfl
      exact (h.key _).1 hold
    by_cases hdone : S.done e0.2 = true
    · refine ⟨store, if_pos hdone, h.nodup, fun k => (hkeys k).symm, fun e he => ?_⟩
      simp only [forall_mem_append, forall_mem_singleton, ← h.value e he]
      refine ⟨fun hP => ⟨hP, fun hk => ?_⟩, fun hP => hP.1⟩
      have heq : e = e0 := inj_on_of_nodup_map h.nodup he hmem (hk.symm.trans hkey.symm)
      rw [heq, hp.done _ hdone] at hP
      cases hP
    · refine ⟨_, if_neg hdone, ?_, fun k => ?_, fun e he => ?_⟩
      · rw [map_key_replace]
        exact h.nodup
      · rw [map_key_replace]
        exact (hkeys k).symm
      · simp only [forall_mem_append, forall_mem_singleton]
        rcases mem_replace_iff.1 he with ⟨rfl, -⟩ | ⟨hin, hne⟩
        · have hgroup := h.value e0 hmem
          simp only [hkey] at hgroup
          simp only [hp.meet, Bool.and_eq_true, hgroup, hiff, true_imp_iff]
        · rw [h.value e hin]
          exact ⟨fun hP => ⟨hP, fun hk => absurd hk.symm hne⟩, fun hP => hP.1⟩

/-- The loop over a list whose entries all have a value. -/
theorem exists_foldlM (hp : S.Reads p) :
    ∀ l, (∀ i ∈ l, ∃ a, S.value i = .ok a ∧ (p a = true ↔ P i)) →
      ∃ store, l.foldlM S.step [] = .ok store ∧ S.Tallies p P l store := by
  intro l
  induction l using List.reverseRecOn with
  | nil => exact fun _ => ⟨[], rfl, nodup_nil, by simp, by simp⟩
  | append_singleton l i ih =>
    intro hl
    obtain ⟨store, hfold, h⟩ := ih fun j hj => hl j (mem_append_left _ hj)
    obtain ⟨store', hstep, h'⟩ := h.step hp (hl i (mem_append_right _ (mem_singleton_self i)))
    refine ⟨store', ?_, h'⟩
    rw [foldlM_append, hfold]
    change (S.step store i >>= pure) = _
    rw [hstep]
    rfl

omit [DecidableEq κ] in
/-- Some key is read as true when the entries of some key all pass. -/
theorem Tallies.any_iff (h : S.Tallies p P l store) :
    (store.any fun e => p e.2) = true ↔ ∃ i ∈ l, ∀ j ∈ l, S.key j = S.key i → P j := by
  rw [any_eq_true]
  constructor
  · rintro ⟨e, he, hpe⟩
    obtain ⟨i, hi, hk⟩ := (h.key e.1).1 (mem_map_of_mem he)
    exact ⟨i, hi, fun j hj hj' => (h.value e he).1 hpe j hj (hj'.trans hk)⟩
  · rintro ⟨i, hi, hP⟩
    obtain ⟨e, he, hk⟩ := mem_map.1 ((h.key _).2 ⟨i, hi, rfl⟩)
    exact ⟨e, he, (h.value e he).2 fun j hj hj' => hP j hj (hj'.trans hk)⟩

end Scheme

/-! ## Lists that refer to lists -/

section References

variable (key : ι → κ) (ref : ι → Option ρ) (refs : ρ → Option (List ι))

/-- The lists that pass when the conditions with `v` do. -/
inductive Passes (v : ι → Prop) : List ι → Prop
  | group {l : List ι} (i : ι) (hi : i ∈ l)
      (hv : ∀ j ∈ l, key j = key i → ref j = none → v j)
      (hr : ∀ j ∈ l, key j = key i → ∀ r, ref j = some r → Passes v ((refs r).getD [])) :
      Passes v l

variable {key ref refs}

omit [DecidableEq κ] in
/-- A list passes by one of its groups. -/
theorem passes_iff {v : ι → Prop} {l : List ι} :
    Passes key ref refs v l ↔ ∃ i ∈ l, ∀ j ∈ l, key j = key i →
      match ref j with
      | none => v j
      | some r => Passes key ref refs v ((refs r).getD []) := by
  constructor
  · rintro ⟨i, hi, hv, hr⟩
    refine ⟨i, hi, fun j hj hk => ?_⟩
    cases hj' : ref j with
    | none => exact hv j hj hk hj'
    | some r => exact hr j hj hk r hj'
  · rintro ⟨i, hi, h⟩
    refine .group i hi (fun j hj hk hr => ?_) fun j hj hk r hr => ?_
    · simpa only [hr] using h j hj hk
    · simpa only [hr] using h j hj hk

omit [DecidableEq κ] in
/-- A list that passes still does when more conditions have the property. -/
theorem Passes.mono {v v' : ι → Prop} (h : ∀ i, v i → v' i) {l : List ι}
    (hl : Passes key ref refs v l) : Passes key ref refs v' l := by
  induction hl with
  | group i hi hv _ ih => exact .group i hi (fun j hj hk hr => h j (hv j hj hk hr)) ih

/-- The loop that values a condition by `atom` and a reference by the list it refers to. -/
def scheme (key : ι → κ) (ref : ι → Option ρ) (refs : ρ → Option (List ι)) (top : α)
    (meet : α → α → α) (done : α → Bool) (atom : ι → Except ε α)
    (eval : List ι → Except ε α) : Scheme ι κ α ε where
  key := key
  top := top
  meet := meet
  done := done
  value i :=
    match ref i with
    | none => atom i
    | some r => eval ((refs r).getD [])

section Evaluation

variable {rank : ρ → ℕ} {known : Finset ρ} {Q : ι → Prop} {top : α} {meet : α → α → α}
  {done : α → Bool} {atom : ι → Except ε α} {join : List (κ × α) → α} {p : α → Bool}
  {v : ι → Prop}

/-- What the lists need for their evaluation to end : a reference of an entry leads to a list,
which has entries, and its rank is above those of their references. -/
structure WellFounded (ref : ι → Option ρ) (refs : ρ → Option (List ι)) (Q : ι → Prop)
    (known : Finset ρ) (rank : ρ → ℕ) : Prop where
  resolve : ∀ i, Q i → ∀ r, ref i = some r → r ∈ known ∧ ∃ l, refs r = some l
  entries : ∀ r l, refs r = some l → l ≠ [] ∧ ∀ i ∈ l, Q i
  descends : ∀ r l, refs r = some l → ∀ i ∈ l, ∀ s, ref i = some s → rank s < rank r

/-- `exists_eval`, with the induction on the lists that may still be referred to : those below a
rank. -/
theorem exists_eval_of_rank (hw : WellFounded ref refs Q known rank)
    (hp : ∀ eval, (scheme key ref refs top meet done atom eval).Reads p)
    (hjoin : ∀ store, p (join store) = store.any fun e => p e.2)
    (hatom : ∀ i, Q i → ref i = none → ∃ a, atom i = .ok a ∧ (p a = true ↔ v i))
    {eval : ℕ → List ι → Except ε α}
    (heval : ∀ n l, l ≠ [] → (∀ i ∈ l, Q i) → eval (n + 1) l =
      (l.foldlM (scheme key ref refs top meet done atom (eval n)).step []).map join) :
    ∀ n l m, l ≠ [] → (∀ i ∈ l, Q i) → (∀ i ∈ l, ∀ r, ref i = some r → rank r < m) →
      (known.filter fun r => rank r < m).card < n →
      ∃ a, eval n l = .ok a ∧ (p a = true ↔ Passes key ref refs v l) := by
  intro n
  induction n with
  | zero => exact fun _ _ _ _ _ hcard => absurd hcard (Nat.not_lt_zero _)
  | succ n ih =>
    intro l m hne hl hm hcard
    have hvalue : ∀ i ∈ l, ∃ a, (scheme key ref refs top meet done atom (eval n)).value i = .ok a ∧
        (p a = true ↔ match ref i with
          | none => v i
          | some r => Passes key ref refs v ((refs r).getD [])) := by
      intro i hi
      cases hr : ref i with
      | none => simpa only [scheme, hr] using hatom i (hl i hi) hr
      | some r =>
        obtain ⟨hmem, l', hl'⟩ := hw.resolve i (hl i hi) r hr
        obtain ⟨hne', hQ'⟩ := hw.entries r l' hl'
        have hlt : ((known.filter fun s => rank s < rank r)).card <
            (known.filter fun s => rank s < m).card := by
          refine Finset.card_lt_card ⟨fun s hs => ?_, fun hsub => ?_⟩
          · rw [Finset.mem_filter] at hs ⊢
            exact ⟨hs.1, hs.2.trans (hm i hi r hr)⟩
          · have hself := hsub (Finset.mem_filter.2 ⟨hmem, hm i hi r hr⟩)
            exact absurd (Finset.mem_filter.1 hself).2 (lt_irrefl _)
        have hrec := ih l' (rank r) hne' hQ' (hw.descends r l' hl') (by omega)
        simpa only [scheme, hr, hl', Option.getD_some] using hrec
    obtain ⟨store, hfold, h⟩ := Scheme.exists_foldlM (hp (eval n)) l hvalue
    refine ⟨join store, ?_, ?_⟩
    · rw [heval n l hne hl, hfold]
      rfl
    · rw [hjoin, h.any_iff, passes_iff]
      rfl

/-- An evaluation that recurses into the lists referred to ends, and its value is read as
`Passes`. It needs not be in more lists at once than there are to refer to, and the first. -/
theorem exists_eval (top : α) (meet : α → α → α) (done : α → Bool) (atom : ι → Except ε α)
    (join : List (κ × α) → α) (hw : WellFounded ref refs Q known rank)
    (hp : ∀ eval, (scheme key ref refs top meet done atom eval).Reads p)
    (hjoin : ∀ store, p (join store) = store.any fun e => p e.2)
    (hatom : ∀ i, Q i → ref i = none → ∃ a, atom i = .ok a ∧ (p a = true ↔ v i))
    {eval : ℕ → List ι → Except ε α}
    (heval : ∀ n l, l ≠ [] → (∀ i ∈ l, Q i) → eval (n + 1) l =
      (l.foldlM (scheme key ref refs top meet done atom (eval n)).step []).map join)
    {n : ℕ} {l : List ι} (hn : known.card < n) (hne : l ≠ []) (hl : ∀ i ∈ l, Q i) :
    ∃ a, eval n l = .ok a ∧ (p a = true ↔ Passes key ref refs v l) := by
  refine exists_eval_of_rank hw hp hjoin hatom heval n l ((known.sup rank) + 1) hne hl ?_ ?_
  · intro i hi r hr
    exact Nat.lt_succ_of_le (Finset.le_sup (hw.resolve i (hl i hi) r hr).1)
  · exact (Finset.card_filter_le _ _).trans_lt hn

end Evaluation

end References

end ElseGroups
