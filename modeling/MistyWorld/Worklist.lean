import Mathlib.Data.Finset.Max
import Mathlib.Data.Finset.Card

/-!
# Worklists

The expansion of a set along the links of a finite graph, with a set of nodes still to be
checked : the least of them is taken out, and if it is a node of the graph it is put among
the expanded ones and its links that are not are to be checked as well. Links may lead
anywhere, in circles or out of the graph.

A worklist carries that nothing is to be checked twice, from which the loop ends. What it
expands is what can be reached (`mem_expand`).
-/

/-- A finite graph. `links a = none` says that `a` is no node. -/
structure LinkGraph (α : Type*) where
  links : α → Option (Finset α)
  nodes : Finset α
  mem_nodes : ∀ {a l}, links a = some l → a ∈ nodes

open Finset

namespace LinkGraph

variable {α : Type*} (G : LinkGraph α)

/-- There is a path of nodes from `a` to the node `c`. -/
inductive Reaches : α → α → Prop
  | refl {a : α} {l : Finset α} : G.links a = some l → Reaches a a
  | step {a b c : α} {l : Finset α} : G.links a = some l → b ∈ l → Reaches b c → Reaches a c

variable {G}

theorem Reaches.known {a c : α} (h : G.Reaches a c) : ∃ l, G.links a = some l := by
  cases h with
  | refl hl | step hl _ _ => exact ⟨_, hl⟩

theorem not_reaches {a c : α} (h : G.links a = none) : ¬G.Reaches a c := by
  intro hr
  obtain ⟨l, hl⟩ := hr.known
  rw [h] at hl
  cases hl

end LinkGraph

/-- The nodes still to be checked and those that are expanded. -/
structure Worklist (α : Type*) where
  toCheck : Finset α
  expanded : Finset α
  disjoint : Disjoint toCheck expanded

namespace Worklist

variable {α : Type*} [LinearOrder α] (G : LinkGraph α) {w : Worklist α} {l : Finset α}

/-- A set of which nothing is expanded. -/
def start (s : Finset α) : Worklist α :=
  ⟨s, ∅, disjoint_empty_right s⟩

/-- The node `a`, which has the links `l`, is expanded. -/
def visit (w : Worklist α) (a : α) (l : Finset α) : Worklist α where
  toCheck := w.toCheck.erase a ∪ l.filter (· ∉ insert a w.expanded)
  expanded := insert a w.expanded
  disjoint := by
    rw [disjoint_left]
    intro b hb hexp
    rcases mem_union.1 hb with hb | hb
    · obtain ⟨hne, hcheck⟩ := mem_erase.1 hb
      rcases mem_insert.1 hexp with rfl | hexp
      · exact hne rfl
      · exact disjoint_left.1 w.disjoint hcheck hexp
    · exact (mem_filter.1 hb).2 hexp

/-- What is no node is dropped. -/
def drop (w : Worklist α) (a : α) : Worklist α where
  toCheck := w.toCheck.erase a
  expanded := w.expanded
  disjoint := w.disjoint.mono_left (erase_subset a w.toCheck)

/-- One round of the loop. -/
def next (w : Worklist α) (h : w.toCheck.Nonempty) : Worklist α :=
  match G.links (w.toCheck.min' h) with
  | none => w.drop (w.toCheck.min' h)
  | some l => w.visit (w.toCheck.min' h) l

theorem next_none {h : w.toCheck.Nonempty} (hl : G.links (w.toCheck.min' h) = none) :
    w.next G h = w.drop (w.toCheck.min' h) := by
  rw [next, hl]

theorem next_some {h : w.toCheck.Nonempty} (hl : G.links (w.toCheck.min' h) = some l) :
    w.next G h = w.visit (w.toCheck.min' h) l := by
  rw [next, hl]

/-- In every round a node is expanded, or nothing is and there is less to check. -/
theorem next_decreases (w : Worklist α) (h : w.toCheck.Nonempty) :
    Prod.Lex (· < ·) (· < ·)
      ((G.nodes \ (w.next G h).expanded).card, (w.next G h).toCheck.card)
      ((G.nodes \ w.expanded).card, w.toCheck.card) := by
  have hmem := w.toCheck.min'_mem h
  cases hl : G.links (w.toCheck.min' h) with
  | none =>
    rw [next_none G hl]
    exact Prod.Lex.right _ (card_erase_lt_of_mem hmem)
  | some l =>
    rw [next_some G hl]
    refine Prod.Lex.left _ _ (card_lt_card ?_)
    refine ssubset_iff_of_subset ?_ |>.2 ⟨w.toCheck.min' h, ?_, ?_⟩
    · exact sdiff_subset_sdiff (Finset.Subset.refl _) (subset_insert _ _)
    · exact mem_sdiff.2 ⟨G.mem_nodes hl, disjoint_left.1 w.disjoint hmem⟩
    · exact fun hin => (mem_sdiff.1 hin).2 (mem_insert_self _ _)

/-- A round is made if something is to be checked. -/
def advance (w : Worklist α) : Worklist α :=
  if h : w.toCheck.Nonempty then w.next G h else w

/-- The loop : rounds are made until nothing is to be checked. -/
def expand (w : Worklist α) : Finset α :=
  if h : w.toCheck.Nonempty then expand (w.next G h) else w.expanded
termination_by ((G.nodes \ w.expanded).card, w.toCheck.card)
decreasing_by exact next_decreases G w h

/-- After finitely many rounds nothing is to be checked, and the loop leaves with what is then
expanded. -/
theorem ends (w : Worklist α) :
    ∃ n, ((advance G)^[n] w).toCheck = ∅ ∧ w.expand G = ((advance G)^[n] w).expanded := by
  induction w using expand.induct G with
  | case1 w h ih =>
    obtain ⟨n, hn, hexp⟩ := ih
    refine ⟨n + 1, ?_, ?_⟩
    · rwa [Function.iterate_succ_apply, advance, dif_pos h]
    · rwa [Function.iterate_succ_apply, expand, advance, dif_pos h, dif_pos h]
  | case2 w h =>
    refine ⟨0, not_nonempty_iff_eq_empty.1 h, ?_⟩
    rw [expand, dif_neg h]
    rfl

/-- The links of the expanded nodes are expanded, to be checked or no nodes. -/
def Closed (w : Worklist α) : Prop :=
  ∀ a ∈ w.expanded, ∃ l, G.links a = some l ∧
    ∀ b ∈ l, b ∈ w.expanded ∨ b ∈ w.toCheck ∨ G.links b = none

variable {G} {a : α}

omit [LinearOrder α] in
theorem closed_start (s : Finset α) : (start s).Closed G := by
  intro a ha
  cases ha

theorem Closed.drop (hw : w.Closed G) (hl : G.links a = none) : (w.drop a).Closed G := by
  intro c hc
  obtain ⟨l, hlc, hsub⟩ := hw c hc
  refine ⟨l, hlc, fun b hb => ?_⟩
  rcases hsub b hb with hexp | hcheck | hnone
  · exact .inl hexp
  · by_cases hba : b = a
    · exact .inr (.inr (hba ▸ hl))
    · exact .inr (.inl (mem_erase.2 ⟨hba, hcheck⟩))
  · exact .inr (.inr hnone)

theorem mem_visit_toCheck {b : α} :
    b ∈ (w.visit a l).toCheck ↔
      b ≠ a ∧ b ∈ w.toCheck ∨ b ∈ l ∧ b ∉ insert a w.expanded := by
  simp only [visit, mem_union, mem_erase, mem_filter]

/-- Visiting a node keeps the worklist closed. -/
theorem Closed.visit (hw : w.Closed G) (hl : G.links a = some l) : (w.visit a l).Closed G := by
  intro c hc
  rcases mem_insert.1 hc with rfl | hc
  · refine ⟨l, hl, fun b hb => ?_⟩
    by_cases hexp : b ∈ insert c w.expanded
    · exact .inl hexp
    · exact .inr (.inl (mem_visit_toCheck.2 (.inr ⟨hb, hexp⟩)))
  · obtain ⟨l', hlc, hsub⟩ := hw c hc
    refine ⟨l', hlc, fun b hb => ?_⟩
    rcases hsub b hb with hexp | hcheck | hnone
    · exact .inl (mem_insert_of_mem hexp)
    · by_cases hba : b = a
      · exact .inl (hba ▸ mem_insert_self a w.expanded)
      · exact .inr (.inl (mem_visit_toCheck.2 (.inl ⟨hba, hcheck⟩)))
    · exact .inr (.inr hnone)

omit [LinearOrder α] in
/-- A path from an expanded node stays among them or leads through one to be checked. -/
theorem Closed.reaches (hw : w.Closed G) {c : α} (h : G.Reaches a c) (ha : a ∈ w.expanded) :
    c ∈ w.expanded ∨ ∃ b ∈ w.toCheck, G.Reaches b c := by
  induction h with
  | refl _ => exact .inl ha
  | @step a b c l hl hb hbc ih =>
    obtain ⟨l', hl', hsub⟩ := hw a ha
    rw [hl] at hl'
    obtain rfl := Option.some.inj hl'
    rcases hsub b hb with hexp | hcheck | hnone
    · exact ih hexp
    · exact .inr ⟨b, hcheck, hbc⟩
    · exact absurd hbc (LinkGraph.not_reaches hnone)

/-- Dropping what is no node loses no path. -/
theorem reaches_drop {c : α} (hl : G.links a = none) :
    (∃ b ∈ (w.drop a).toCheck, G.Reaches b c) ↔ ∃ b ∈ w.toCheck, G.Reaches b c := by
  constructor
  · rintro ⟨b, hb, hr⟩
    exact ⟨b, (mem_erase.1 hb).2, hr⟩
  · rintro ⟨b, hb, hr⟩
    refine ⟨b, mem_erase.2 ⟨fun hba => ?_, hb⟩, hr⟩
    exact LinkGraph.not_reaches hl (hba ▸ hr)

/-- Expanding a node follows its links. -/
theorem reaches_visit {c : α} (hw : w.Closed G) (ha : a ∈ w.toCheck) (hl : G.links a = some l) :
    (c ∈ (w.visit a l).expanded ∨ ∃ b ∈ (w.visit a l).toCheck, G.Reaches b c) ↔
      c ∈ w.expanded ∨ ∃ b ∈ w.toCheck, G.Reaches b c := by
  constructor
  · rintro (hc | ⟨b, hb, hr⟩)
    · rcases mem_insert.1 hc with rfl | hc
      · exact .inr ⟨c, ha, .refl hl⟩
      · exact .inl hc
    · rcases mem_visit_toCheck.1 hb with ⟨-, hb⟩ | ⟨hb, -⟩
      · exact .inr ⟨b, hb, hr⟩
      · exact .inr ⟨a, ha, .step hl hb hr⟩
  · rintro (hc | ⟨b, hb, hr⟩)
    · exact .inl (mem_insert_of_mem hc)
    · by_cases hba : b = a
      · subst hba
        exact (hw.visit hl).reaches hr (mem_insert_self b w.expanded)
      · exact .inr ⟨b, mem_visit_toCheck.2 (.inl ⟨hba, hb⟩), hr⟩

/-- What the loop expands is what was expanded and what can be reached. -/
theorem mem_expand_of_closed (w : Worklist α) (hw : w.Closed G) {c : α} :
    c ∈ w.expand G ↔ c ∈ w.expanded ∨ ∃ b ∈ w.toCheck, G.Reaches b c := by
  induction w using expand.induct G with
  | case1 w h ih =>
    rw [expand, dif_pos h]
    have hmem := w.toCheck.min'_mem h
    cases hl : G.links (w.toCheck.min' h) with
    | none =>
      rw [next_none G hl] at ih ⊢
      rw [ih (hw.drop hl), reaches_drop hl]
      exact Iff.rfl
    | some l =>
      rw [next_some G hl] at ih ⊢
      rw [ih (hw.visit hl), reaches_visit hw hmem hl]
  | case2 w h =>
    rw [expand, dif_neg h, not_nonempty_iff_eq_empty.1 h]
    simp

/-- The expansion of a set is what its elements reach. -/
theorem mem_expand {s : Finset α} {c : α} : c ∈ (start s).expand G ↔ ∃ a ∈ s, G.Reaches a c := by
  rw [mem_expand_of_closed _ (closed_start s)]
  simp [start]

end Worklist
