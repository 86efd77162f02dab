import Mathlib.Data.Fintype.Order
import Mathlib.Data.Set.Card
import Mathlib.Data.Set.Finite.Basic
import Mathlib.Logic.Relation
import Mathlib.Order.WellFounded

/-!
# References that are followed

A relation `r i j` says that `i` refers to `j`. Following references from `i` on goes on for ever if
a cycle can be reached, `Endless r i`. Where only finitely many things are referred to, it ends
otherwise (`acc_of_not_endless`), and the things that can be reached from `i` bound how long it takes
(`height_lt`).

A program that follows references is modelled with fuel, as a partial map that runs over a list of
steps. `foldlM_isSome` and `foldlM_eq_none` say when such a run has an end, and `iterate` is the run
of one step that is repeated.
-/

open List

namespace RefGraph

/-! ## Cycles -/

section Cycles

variable {ι : Type*} {r : ι → ι → Prop} {i : ι}

/-- A cycle of references can be reached. -/
def Endless (r : ι → ι → Prop) (i : ι) : Prop :=
  ∃ j, Relation.ReflTransGen r i j ∧ Relation.TransGen r j j

/-- Something endless refers to something endless. -/
theorem Endless.step (h : Endless r i) : ∃ j, r i j ∧ Endless r j := by
  obtain ⟨j, hreach, hcycle⟩ := h
  rcases Relation.ReflTransGen.cases_head hreach with rfl | ⟨k, hik, hkj⟩
  · obtain ⟨k, hik, hki⟩ := Relation.TransGen.head'_iff.1 hcycle
    exact ⟨k, hik, i, hki, hcycle⟩
  · exact ⟨k, hik, j, hkj, hcycle⟩

theorem Endless.of_step {j : ι} (hij : r i j) (h : Endless r j) : Endless r i := by
  obtain ⟨k, hreach, hcycle⟩ := h
  exact ⟨k, Relation.ReflTransGen.head hij hreach, hcycle⟩

/-- On finitely many things, references without a cycle are well founded. -/
theorem wellFounded_of_noCycle [Finite ι] (h : ∀ i, ¬ Relation.TransGen r i i) :
    WellFounded (flip r) := by
  have : Std.Irrefl (Relation.TransGen (flip r)) :=
    ⟨fun i hcycle => h i (Relation.transGen_swap.1 hcycle)⟩
  exact Subrelation.wf Relation.TransGen.single
    (Finite.wellFounded_of_trans_of_irrefl (Relation.TransGen (flip r)))

/-- Following references ends where no cycle can be reached. -/
theorem acc_of_not_endless (hfin : {j | ∃ i, r i j}.Finite) (h : ¬ Endless r i) :
    Acc (flip r) i := by
  have hreached : {j | Relation.ReflTransGen r i j}.Finite := by
    refine (hfin.insert i).subset fun j hj => ?_
    rcases Relation.ReflTransGen.cases_tail hj with rfl | ⟨k, -, hkj⟩
    · exact Set.mem_insert _ _
    · exact Set.mem_insert_of_mem _ ⟨k, hkj⟩
  have : Finite {j // Relation.ReflTransGen r i j} := hreached
  let r' : {j // Relation.ReflTransGen r i j} → {j // Relation.ReflTransGen r i j} → Prop :=
    fun a b => r a b
  have hwf : WellFounded (flip r') := wellFounded_of_noCycle fun a ha => by
    have hcycle : Relation.TransGen r a.1 a.1 := ha.lift Subtype.val fun _ _ hab => hab
    exact h ⟨a, a.2, hcycle⟩
  have hacc : ∀ a : {j // Relation.ReflTransGen r i j}, Acc (flip r) a.1 := fun a => by
    induction hwf.apply a with
    | intro a _ ih =>
      exact Acc.intro a.1 fun j hj => ih ⟨j, Relation.ReflTransGen.tail a.2 hj⟩ hj
  exact hacc ⟨i, Relation.ReflTransGen.refl⟩

/-- How many things of a finite set can be reached. -/
noncomputable def height (r : ι → ι → Prop) (K : Finset ι) (i : ι) : ℕ :=
  {j | j ∈ K ∧ Relation.TransGen r i j}.ncard

theorem finite_reached (r : ι → ι → Prop) (K : Finset ι) (i : ι) :
    {j | j ∈ K ∧ Relation.TransGen r i j}.Finite :=
  K.finite_toSet.subset fun _ hj => hj.1

/-- Without cycles, less can be reached from what is referred to. -/
theorem height_lt (h : ∀ i, ¬ Relation.TransGen r i i) {K : Finset ι} {j : ι} (hij : r i j)
    (hj : j ∈ K) : height r K j < height r K i := by
  refine Set.ncard_lt_ncard ⟨fun k hk => ⟨hk.1, .head hij hk.2⟩, fun hsub => ?_⟩
    (finite_reached r K i)
  exact h j (hsub ⟨hj, .single hij⟩).2

theorem height_lt_card (h : ∀ i, ¬ Relation.TransGen r i i) {K : Finset ι} (hi : i ∈ K) :
    height r K i < K.card := by
  rw [← Set.ncard_coe_finset]
  exact Set.ncard_lt_ncard ⟨fun k hk => hk.1, fun hsub => h i (hsub hi).2⟩ K.finite_toSet

end Cycles

/-! ## Runs of partial steps -/

section Runs

variable {α S : Type*}

theorem foldlM_isSome {f : S → α → Option S} {l : List α}
    (h : ∀ a ∈ l, ∀ s, (f s a).isSome = true) (s : S) : (l.foldlM f s).isSome = true := by
  induction l generalizing s with
  | nil => rfl
  | cons a l ih =>
    obtain ⟨s', hs'⟩ := Option.isSome_iff_exists.1 (h a mem_cons_self s)
    rw [foldlM_cons, hs']
    exact ih (fun b hb => h b (mem_cons_of_mem _ hb)) s'

theorem foldlM_eq_none {f : S → α → Option S} {l : List α} {a : α} (ha : a ∈ l)
    (h : ∀ s, f s a = none) (s : S) : l.foldlM f s = none := by
  induction l generalizing s with
  | nil => exact absurd ha not_mem_nil
  | cons b l ih =>
    rw [foldlM_cons]
    rcases mem_cons.1 ha with rfl | ha
    · rw [h s]
      rfl
    · cases f s b with
      | none => rfl
      | some s' => exact ih ha s'

/-- A step that is repeated. -/
def iterate (f : S → Option S) : ℕ → S → Option S
  | 0, s => some s
  | n + 1, s => (f s).bind (iterate f n)

theorem iterate_isSome {f : S → Option S} (h : ∀ s, (f s).isSome = true) (n : ℕ) (s : S) :
    (iterate f n s).isSome = true := by
  induction n generalizing s with
  | zero => rfl
  | succ n ih =>
    obtain ⟨s', hs'⟩ := Option.isSome_iff_exists.1 (h s)
    rw [iterate, hs']
    exact ih s'

theorem iterate_eq_none {f : S → Option S} (h : ∀ s, f s = none) {n : ℕ} (hn : 0 < n) (s : S) :
    iterate f n s = none := by
  obtain ⟨k, rfl⟩ : ∃ k, n = k + 1 := ⟨n - 1, by omega⟩
  rw [iterate, h s]
  rfl

/-- One amount of fuel is enough for all of a list. -/
theorem exists_fuel {P : α → ℕ → Prop} {l : List α}
    (h : ∀ a ∈ l, ∃ n, ∀ m ≥ n, P a m) : ∃ n, ∀ m ≥ n, ∀ a ∈ l, P a m := by
  induction l with
  | nil => exact ⟨0, fun _ _ a ha => absurd ha not_mem_nil⟩
  | cons a l ih =>
    obtain ⟨n1, h1⟩ := h a mem_cons_self
    obtain ⟨n2, h2⟩ := ih fun b hb => h b (mem_cons_of_mem _ hb)
    refine ⟨max n1 n2, fun m hm => forall_mem_cons.2 ⟨h1 m ?_, h2 m ?_⟩⟩
    · exact le_trans (le_max_left _ _) hm
    · exact le_trans (le_max_right _ _) hm

end Runs

end RefGraph
