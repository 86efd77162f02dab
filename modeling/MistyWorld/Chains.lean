import Mathlib.Data.Finset.Card
import Mathlib.Data.Finset.Image
import Mathlib.Data.Nat.Find
import Mathlib.Logic.Function.Basic

/-!
# Chains of a partial function

A partial function `f` leads from each element to at most one other, and so each element has a
chain. A chain ends, or comes back to an element that it has passed. The first step that does so is
found by going along the chain (`firstReturn_eq_some_iff`), and closes a cycle, `Returns`.

Cycles are opened one after another, for the chains of `0`, `1` and so on, by taking out of `f` the
step with which the chain comes back. The steps that are taken out are those with which the chain of
the least number that leads into the cycle comes back (`returns_cut_iff`).
-/

open Finset Option

namespace Chains

variable {α : Type*} (f : α → Option α)

/-- The element after some steps. -/
def chain (a : α) : ℕ → Option α
  | 0 => some a
  | n + 1 => (chain a n).bind f

/-- The chain of an element comes to another one. -/
def Leads (a b : α) : Prop :=
  ∃ n, chain f a n = some b

/-- The chain of `a` comes back to `m` from `c` after some steps, and has passed no element twice
before. -/
def ReturnsAt (a c m : α) (last : ℕ) : Prop :=
  chain f a last = some c ∧ f c = some m ∧ (∃ n ≤ last, chain f a n = some m) ∧
    ∀ n n', n < n' → n' ≤ last → chain f a n ≠ chain f a n'

/-- The first step of the chain of `a` that comes back is the one from `c` to `m`. -/
def Returns (a c m : α) : Prop :=
  ∃ last, ReturnsAt f a c m last

variable {f} {a b c m : α} {n k : ℕ}

/-! ## Chains -/

theorem chain_succ : chain f a (n + 1) = (chain f a n).bind f :=
  rfl

theorem chain_add (h : chain f a n = some b) (k : ℕ) : chain f a (n + k) = chain f b k := by
  induction k with
  | zero => exact h
  | succ k ih => rw [← Nat.add_assoc, chain_succ, ih, chain_succ]

theorem chain_congr {a' : α} {n' : ℕ} (h : chain f a n = chain f a' n') (k : ℕ) :
    chain f a (n + k) = chain f a' (n' + k) := by
  induction k with
  | zero => exact h
  | succ k ih => rw [← Nat.add_assoc, ← Nat.add_assoc, chain_succ, chain_succ, ih]

/-- A chain that has come to an element has not ended before. -/
theorem exists_chain_of_le (h : chain f a n = some b) (hk : k ≤ n) : ∃ x, chain f a k = some x := by
  induction n generalizing b with
  | zero =>
    obtain rfl := Nat.le_zero.1 hk
    exact ⟨a, rfl⟩
  | succ n ih =>
    rcases Nat.le_or_eq_of_le_succ hk with hle | rfl
    · obtain ⟨x, hx, -⟩ := bind_eq_some_iff.1 h
      exact ih hx hle
    · exact ⟨b, h⟩

theorem Leads.trans (hab : Leads f a b) (hbc : Leads f b c) : Leads f a c := by
  obtain ⟨n, hn⟩ := hab
  obtain ⟨k, hk⟩ := hbc
  exact ⟨n + k, (chain_add hn k).trans hk⟩

/-- Of two elements of a chain, the earlier one leads to the later one. -/
theorem Leads.of_le (hb : chain f a n = some b) (hc : chain f a k = some c) (hle : n ≤ k) :
    Leads f b c := by
  obtain ⟨d, rfl⟩ := Nat.exists_eq_add_of_le hle
  exact ⟨d, (chain_add hb d).symm.trans hc⟩

/-! ## Coming back -/

/-- Behind the step that comes back the chain has no other elements. -/
theorem ReturnsAt.chain_eq {last : ℕ} (h : ReturnsAt f a c m last) (n : ℕ) :
    ∃ n' ≤ last, chain f a n = chain f a n' := by
  obtain ⟨hlast, hstep, ⟨first, hfirst, hm⟩, -⟩ := h
  induction n with
  | zero => exact ⟨0, Nat.zero_le _, rfl⟩
  | succ n ih =>
    obtain ⟨n', hle, heq⟩ := ih
    rcases Nat.lt_or_eq_of_le hle with hlt | rfl
    · exact ⟨n' + 1, hlt, chain_congr heq 1⟩
    · refine ⟨first, hfirst, ?_⟩
      rw [chain_succ, heq, hlast, hm]
      exact hstep

/-- The chain does not end. -/
theorem ReturnsAt.exists_chain {last : ℕ} (h : ReturnsAt f a c m last) (n : ℕ) :
    ∃ x, chain f a n = some x := by
  obtain ⟨n', hle, heq⟩ := h.chain_eq n
  rw [heq]
  exact exists_chain_of_le h.1 hle

theorem ReturnsAt.le {c' m' : α} {last last' : ℕ} (h : ReturnsAt f a c m last)
    (h' : ReturnsAt f a c' m' last') : last' ≤ last := by
  obtain ⟨hlast, hstep, ⟨first, hfirst, hm⟩, -⟩ := h
  refine Nat.le_of_not_lt fun hlt => ?_
  refine h'.2.2.2 first (last + 1) (Nat.lt_succ_of_le hfirst) hlt ?_
  rw [hm, chain_succ, hlast]
  exact hstep.symm

/-- The first step that comes back is determined. -/
theorem Returns.unique {c' m' : α} (h : Returns f a c m) (h' : Returns f a c' m') : c = c' := by
  obtain ⟨last, h⟩ := h
  obtain ⟨last', h'⟩ := h'
  obtain rfl := Nat.le_antisymm (h'.le h) (h.le h')
  exact some.inj (h.1.symm.trans h'.1)

/-- The step that comes back belongs to a cycle. -/
theorem ReturnsAt.exists_period {last : ℕ} (h : ReturnsAt f a c m last) :
    ∃ p, 0 < p ∧ chain f c p = some c := by
  obtain ⟨hlast, hstep, ⟨first, hfirst, hm⟩, -⟩ := h
  obtain ⟨d, rfl⟩ := Nat.exists_eq_add_of_le hfirst
  have hone : chain f c 1 = some m := hstep
  have hback : chain f m d = some c := (chain_add hm d).symm.trans hlast
  exact ⟨1 + d, by omega, (chain_add hone d).trans hback⟩

theorem chain_mul {p : ℕ} (h : chain f c p = some c) (q : ℕ) : chain f c (p * q) = some c := by
  induction q with
  | zero => rfl
  | succ q ih => exact (chain_add ih p).trans h

/-- An element of a cycle is led to by every element of a chain that it belongs to. -/
theorem leads_of_period {p : ℕ} (hp : 0 < p) (hc : chain f c p = some c)
    (hb : chain f a n = some b) (hk : chain f a k = some c) : Leads f b c := by
  refine Leads.of_le hb ((chain_add hk (p * n)).trans (chain_mul hc n)) ?_
  have := Nat.le_mul_of_pos_left n hp
  omega

/-- A chain that passes an element twice comes back. -/
theorem exists_returnsAt {n' : ℕ} (hlt : n < n') (hb : chain f a n = some b)
    (hb' : chain f a n' = some b) : ∃ c m last, ReturnsAt f a c m last := by
  classical
  have hex : ∃ last, ∃ n ≤ last, ∃ b, chain f a n = some b ∧ chain f a (last + 1) = some b := by
    obtain ⟨last, rfl⟩ := Nat.exists_eq_succ_of_ne_zero (Nat.ne_zero_of_lt hlt)
    exact ⟨last, n, Nat.le_of_lt_succ hlt, b, hb, hb'⟩
  obtain ⟨first, hfirst, m, hm, hm'⟩ := Nat.find_spec hex
  obtain ⟨c, hc, hstep⟩ := bind_eq_some_iff.1 hm'
  refine ⟨c, m, Nat.find hex, hc, hstep, ⟨first, hfirst, hm⟩, fun i i' hi hi' heq => ?_⟩
  obtain ⟨last, rfl⟩ := Nat.exists_eq_succ_of_ne_zero (Nat.ne_zero_of_lt hi)
  obtain ⟨x, hx⟩ := exists_chain_of_le hc hi'
  exact Nat.find_min hex hi' ⟨i, Nat.le_of_lt_succ hi, x, heq.trans hx, hx⟩

/-! ## Finding the step that comes back -/

/-- Goes along the chain with the elements that were passed. -/
def firstReturn [DecidableEq α] (f : α → Option α) : ℕ → List α → α → Option (α × α)
  | 0, _, _ => none
  | fuel + 1, passed, a =>
    match f a with
    | none => none
    | some m => if m ∈ a :: passed then some (a, m) else firstReturn f fuel (a :: passed) m

theorem firstReturn_eq_some_of [DecidableEq α] {fuel : ℕ} {passed : List α} {x : α}
    (hpassed : ∀ y, y ∈ passed ↔ ∃ j < k, chain f a j = some y) (hx : chain f a k = some x)
    (hdistinct : ∀ n n', n < n' → n' ≤ k → chain f a n ≠ chain f a n') :
    firstReturn f fuel passed x = some (c, m) ↔
      ∃ last, k ≤ last ∧ last < k + fuel ∧ ReturnsAt f a c m last := by
  induction fuel generalizing k passed x with
  | zero =>
    constructor
    · intro h
      cases h
    · rintro ⟨last, hk, hlt, -⟩
      omega
  | succ fuel ih =>
    rw [firstReturn]
    cases hstep : f x with
    | none =>
      refine iff_of_false (fun h => by cases h) ?_
      rintro ⟨last, hk, -, hc, hm, -, -⟩
      have hend : chain f a (last + 1) = some m := by rw [chain_succ, hc]; exact hm
      obtain ⟨y, hy⟩ := exists_chain_of_le hend (Nat.succ_le_succ hk)
      rw [chain_succ, hx, bind_some, hstep] at hy
      cases hy
    | some y =>
      have hnext : chain f a (k + 1) = some y := by rw [chain_succ, hx]; exact hstep
      have hmem : ∀ z, z ∈ x :: passed ↔ ∃ j < k + 1, chain f a j = some z := by
        intro z
        rw [List.mem_cons, hpassed]
        constructor
        · rintro (rfl | ⟨j, hj, hz⟩)
          · exact ⟨k, Nat.lt_succ_self k, hx⟩
          · exact ⟨j, Nat.lt_succ_of_lt hj, hz⟩
        · rintro ⟨j, hj, hz⟩
          rcases Nat.lt_succ_iff_lt_or_eq.1 hj with hj | rfl
          · exact Or.inr ⟨j, hj, hz⟩
          · exact Or.inl (some.inj (hz.symm.trans hx))
      dsimp only
      by_cases hy : y ∈ x :: passed
      · -- the chain comes back here
        obtain ⟨j, hj, hjy⟩ := (hmem y).1 hy
        rw [if_pos hy]
        constructor
        · intro h
          obtain ⟨rfl, rfl⟩ := Prod.mk.inj (some.inj h)
          exact ⟨k, Nat.le_refl k, by omega, hx, hstep, ⟨j, Nat.le_of_lt_succ hj, hjy⟩, hdistinct⟩
        · rintro ⟨last, hk, -, hc, hm, -, hlast⟩
          rcases Nat.lt_or_eq_of_le hk with hlt | rfl
          · exact absurd (hjy.trans hnext.symm) (hlast j (k + 1) hj hlt)
          · obtain rfl := some.inj (hx.symm.trans hc)
            rw [some.inj (hstep.symm.trans hm)]
      · have hdistinct' : ∀ n n', n < n' → n' ≤ k + 1 → chain f a n ≠ chain f a n' := by
          intro n n' hlt hle heq
          rcases Nat.lt_or_eq_of_le hle with hlt' | rfl
          · exact hdistinct n n' hlt (Nat.le_of_lt_succ hlt') heq
          · exact hy ((hmem y).2 ⟨n, hlt, heq.trans hnext⟩)
        rw [if_neg hy, ih hmem hnext hdistinct']
        constructor
        · rintro ⟨last, hk, hlt, h⟩
          exact ⟨last, by omega, by omega, h⟩
        · rintro ⟨last, hk, hlt, h⟩
          rcases Nat.lt_or_eq_of_le hk with hk | rfl
          · exact ⟨last, hk, by omega, h⟩
          · obtain ⟨hc, hm, ⟨n, hn, hnm⟩, -⟩ := h
            obtain rfl := some.inj (hx.symm.trans hc)
            obtain rfl := some.inj (hstep.symm.trans hm)
            exact absurd ((hmem y).2 ⟨n, Nat.lt_succ_of_le hn, hnm⟩) hy

/-- With fuel for the elements that have a step, the first step that comes back is found. -/
theorem firstReturn_eq_some_iff [DecidableEq α] {K : Finset α} {fuel : ℕ}
    (hK : ∀ x y, f x = some y → x ∈ K) (hfuel : K.card ≤ fuel) :
    firstReturn f fuel [] a = some (c, m) ↔ Returns f a c m := by
  have hstart : ∀ n n', n < n' → n' ≤ 0 → chain f a n ≠ chain f a n' := fun n n' hlt hle => by
    omega
  have hpassed : ∀ y, y ∈ ([] : List α) ↔ ∃ j < 0, chain f a j = some y := by simp
  rw [firstReturn_eq_some_of hpassed rfl hstart]
  constructor
  · rintro ⟨last, -, -, h⟩
    exact ⟨last, h⟩
  · rintro ⟨last, h⟩
    refine ⟨last, Nat.zero_le _, ?_, h⟩
    -- the elements up to the last one have steps and are different
    have hsub : (Finset.range (last + 1)).image (chain f a) ⊆ K.image some := by
      intro x hx
      obtain ⟨n, hn, rfl⟩ := mem_image.1 hx
      obtain ⟨y, hy⟩ := h.exists_chain n
      obtain ⟨z, hz⟩ := h.exists_chain (n + 1)
      rw [chain_succ, hy] at hz
      exact hy ▸ mem_image_of_mem some (hK y z hz)
    have hinj : Set.InjOn (chain f a) (Finset.range (last + 1)) := by
      intro n hn n' hn' heq
      rw [coe_range, Set.mem_Iio] at hn hn'
      rcases Nat.lt_trichotomy n n' with hlt | heq' | hgt
      · exact absurd heq (h.2.2.2 n n' hlt (by omega))
      · exact heq'
      · exact absurd heq.symm (h.2.2.2 n' n hgt (by omega))
    have hcard := card_le_card hsub
    rw [card_image_of_injOn hinj, card_range] at hcard
    have := hcard.trans card_image_le
    omega

/-! ## Opening the cycles -/

section Cut

variable {f g : ℕ → Option ℕ} {i k c m : ℕ}

/-- The chain of `i` comes back with the step from `c` to `m`, and `i` is the least number that
leads into this cycle. -/
def Closing (f : ℕ → Option ℕ) (i c m : ℕ) : Prop :=
  (∀ j < i, ¬Leads f j c) ∧ Returns f i c m

/-- The cycles that a number less than `k` leads into are opened. -/
structure Cut (f g : ℕ → Option ℕ) (k : ℕ) : Prop where
  cut : ∀ c, (∃ i < k, ∃ m, Closing f i c m) → g c = none
  kept : ∀ c, (¬∃ i < k, ∃ m, Closing f i c m) → g c = f c

theorem Cut.zero (f : ℕ → Option ℕ) : Cut f f 0 :=
  ⟨fun _ ⟨_, hi, _⟩ => absurd hi (Nat.not_lt_zero _), fun _ _ => rfl⟩

section

variable (h : Cut f g k)
include h

theorem Cut.le {x y : ℕ} (hg : g x = some y) : f x = some y := by
  by_cases hcut : ∃ i < k, ∃ m, Closing f i x m
  · rw [h.cut x hcut] at hg
    cases hg
  · rwa [h.kept x hcut] at hg

theorem Cut.chain_le {a x n : ℕ} (hg : chain g a n = some x) : chain f a n = some x := by
  induction n generalizing x with
  | zero => exact hg
  | succ n ih =>
    obtain ⟨y, hy, hx⟩ := bind_eq_some_iff.1 hg
    rw [chain_succ, ih hy]
    exact h.le hx

/-- The chain of the number that closes a cycle is not cut. -/
theorem Cut.chain_eq (hclosing : Closing f k c m) (n : ℕ) : chain g k n = chain f k n := by
  obtain ⟨hleast, last, hreturns⟩ := hclosing
  induction n with
  | zero => rfl
  | succ n ih =>
    obtain ⟨x, hx⟩ := hreturns.exists_chain n
    have hkept : g x = f x := by
      refine h.kept x ?_
      rintro ⟨i, hi, m', -, last', hreturns'⟩
      obtain ⟨n', hn', heq⟩ := hreturns.chain_eq n
      -- the number leads to `x`, and `x` to `c`
      have hxc : Leads f x c := Leads.of_le (heq.symm.trans hx) hreturns.1 hn'
      exact hleast i hi (Leads.trans ⟨last', hreturns'.1⟩ hxc)
    rw [chain_succ, chain_succ, ih, hx, bind_some, bind_some, hkept]

/-- In what is left the chain of the next number comes back just with the step that it closes a
cycle with. -/
theorem returns_cut_iff : Returns g k c m ↔ Closing f k c m := by
  constructor
  · rintro ⟨last, hreturns⟩
    have hchain : ∀ n, chain g k n = chain f k n := fun n => by
      obtain ⟨x, hx⟩ := hreturns.exists_chain n
      rw [hx, h.chain_le hx]
    have hreturnsf : ReturnsAt f k c m last := by
      obtain ⟨hc, hm, hfirst, hdistinct⟩ := hreturns
      simp only [hchain] at hc hfirst hdistinct
      exact ⟨hc, h.le hm, hfirst, hdistinct⟩
    refine ⟨fun j hj hleads => ?_, last, hreturnsf⟩
    -- the least number that leads into the cycle has opened it
    classical
    have hex : ∃ j, Leads f j c := ⟨j, hleads⟩
    obtain ⟨t, ht⟩ := Nat.find_spec hex
    obtain ⟨p, hp, hperiod⟩ := hreturnsf.exists_period
    obtain ⟨c', m', last', hreturns'⟩ := exists_returnsAt (Nat.lt_add_of_pos_right hp) ht
      ((chain_add ht p).trans hperiod)
    have hback : Leads f c' c := leads_of_period hp hperiod hreturns'.1 ht
    have hclosing : Closing f (Nat.find hex) c' m' :=
      ⟨fun i hi hic => Nat.find_min hex hi (hic.trans hback), last', hreturns'⟩
    have hcut := h.cut c' ⟨_, Nat.lt_of_le_of_lt (Nat.find_min' hex hleads) hj, m', hclosing⟩
    -- and so the chain would end
    obtain ⟨p', hp', hperiod'⟩ := hreturns'.exists_period
    obtain ⟨n, hn⟩ : Leads f c c' := leads_of_period hp' hperiod' ht hreturns'.1
    obtain ⟨x, hx⟩ := hreturns.exists_chain (last + n + 1)
    rw [chain_succ, hchain, chain_add hreturnsf.1, hn, bind_some, hcut] at hx
    cases hx
  · intro hclosing
    obtain ⟨-, last, hc, hm, hfirst, hdistinct⟩ := id hclosing
    refine ⟨last, ?_, ?_, ?_, ?_⟩
    · rw [h.chain_eq hclosing, hc]
    · have hnext := h.chain_eq hclosing (last + 1)
      rw [chain_succ, chain_succ, h.chain_eq hclosing, hc, bind_some, bind_some]
        at hnext
      rw [hnext, hm]
    · simpa only [h.chain_eq hclosing] using hfirst
    · simpa only [h.chain_eq hclosing] using hdistinct

/-- Taking out the step opens the cycle. -/
theorem Cut.succ_of_returns (hreturns : Returns g k c m) :
    Cut f (Function.update g c none) (k + 1) := by
  have hclosing := (returns_cut_iff h).1 hreturns
  refine ⟨fun x hx => ?_, fun x hx => ?_⟩
  · rcases eq_or_ne x c with rfl | hne
    · exact Function.update_self _ _ _
    · rw [Function.update_of_ne hne]
      obtain ⟨i, hi, m', hx⟩ := hx
      rcases Nat.lt_succ_iff_lt_or_eq.1 hi with hi | rfl
      · exact h.cut x ⟨i, hi, m', hx⟩
      · exact absurd (((returns_cut_iff h).2 hx).unique hreturns) hne
  · have hne : x ≠ c := by
      rintro rfl
      exact hx ⟨k, Nat.lt_succ_self k, m, hclosing⟩
    rw [Function.update_of_ne hne]
    refine h.kept x fun hcut => hx ?_
    obtain ⟨i, hi, hcut⟩ := hcut
    exact ⟨i, Nat.lt_succ_of_lt hi, hcut⟩

/-- A chain that does not come back has no cycle to open. -/
theorem Cut.succ_of_not_returns (hnot : ∀ c m, ¬Returns g k c m) : Cut f g (k + 1) := by
  have hnone : ∀ c, (∃ i < k + 1, ∃ m, Closing f i c m) ↔ ∃ i < k, ∃ m, Closing f i c m := by
    intro c
    constructor
    · rintro ⟨i, hi, m, hclosing⟩
      rcases Nat.lt_succ_iff_lt_or_eq.1 hi with hi | rfl
      · exact ⟨i, hi, m, hclosing⟩
      · exact absurd ((returns_cut_iff h).2 hclosing) (hnot c m)
    · rintro ⟨i, hi, hclosing⟩
      exact ⟨i, Nat.lt_succ_of_lt hi, hclosing⟩
  exact ⟨fun c hc => h.cut c ((hnone c).1 hc), fun c hc => h.kept c (mt (hnone c).2 hc)⟩

end

end Cut

end Chains
