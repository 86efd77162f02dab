import Mathlib.Data.List.Basic
import Mathlib.Data.List.Count

/-!
# Runs of a step function

A machine is a step function on states and requests. `run` folds it over a list of
requests. `Along step P s as` says that `P` holds of every state of the run from `s`,
paired with the request it is about to serve. Invariants are proved for one step and
lifted to runs once (`invariant_run`, `Along.of_invariant`).

A run may keep a history of what happened, newest first. `since mark e h` counts the `e` in
`h` since the last `mark`.
-/

open List

namespace Machine

variable {S A : Type*} (step : S → A → S)

/-- The state after serving the requests in order. -/
def run (s : S) (as : List A) : S :=
  as.foldl step s

/-- `P` holds at every step of the run. -/
def Along (P : S → A → Prop) : S → List A → Prop
  | _, [] => True
  | s, a :: as => P s a ∧ Along P (step s a) as

@[simp] theorem run_nil (s : S) : run step s [] = s :=
  rfl

@[simp] theorem run_cons (s : S) (a : A) (as : List A) :
    run step s (a :: as) = run step (step s a) as :=
  rfl

theorem run_append (s : S) (as bs : List A) : run step s (as ++ bs) = run step (run step s as) bs :=
  foldl_append

variable {step} {P C : S → A → Prop} {Inv : S → Prop}

theorem Along.and {Q : S → A → Prop} :
    ∀ {as : List A} {s : S}, Along step P s as → Along step Q s as →
      Along step (fun s a => P s a ∧ Q s a) s as
  | [], _, _, _ => trivial
  | _ :: _, _, ⟨hp, hrest⟩, ⟨hq, hrest'⟩ => ⟨⟨hp, hq⟩, hrest.and hrest'⟩

/-- Where the invariant makes `P` and `Q` the same and a step with `P` keeps it, `P` holds along a
run exactly when `Q` does. -/
theorem Along.iff_of_invariant {Q : S → A → Prop} (hiff : ∀ s a, Inv s → (P s a ↔ Q s a))
    (hstep : ∀ s a, Inv s → P s a → Inv (step s a)) :
    ∀ {as : List A} {s : S}, Inv s → (Along step P s as ↔ Along step Q s as)
  | [], _, _ => Iff.rfl
  | a :: as, s, hs => by
    constructor
    · rintro ⟨hp, hrest⟩
      exact ⟨(hiff s a hs).1 hp, (Along.iff_of_invariant hiff hstep (hstep s a hs hp)).1 hrest⟩
    · rintro ⟨hq, hrest⟩
      have hp := (hiff s a hs).2 hq
      exact ⟨hp, (Along.iff_of_invariant hiff hstep (hstep s a hs hp)).2 hrest⟩

/-- What holds of every request holds along the run. -/
theorem Along.and_forall {C : A → Prop} :
    ∀ {as : List A} {s : S}, Along step P s as → (∀ a ∈ as, C a) →
      Along step (fun s a => C a ∧ P s a) s as
  | [], _, _, _ => trivial
  | a :: _, _, ⟨hp, hrest⟩, hc =>
    ⟨⟨hc a mem_cons_self, hp⟩, hrest.and_forall fun b hb => hc b (mem_cons_of_mem a hb)⟩

/-- An invariant that every step meeting `C` keeps gives `P` at every step of a run
whose steps all meet `C`. -/
theorem Along.of_invariant (hstep : ∀ s a, Inv s → C s a → Inv (step s a) ∧ P s a) :
    ∀ {as : List A} {s : S}, Inv s → Along step C s as → Along step P s as
  | [], _, _, _ => trivial
  | _ :: _, _, hs, ⟨hc, hrest⟩ =>
    ⟨(hstep _ _ hs hc).2, Along.of_invariant hstep (hstep _ _ hs hc).1 hrest⟩

/-- An invariant that every step meeting `C` keeps holds at the end of a run whose steps
all meet `C`. -/
theorem invariant_run (hstep : ∀ s a, Inv s → C s a → Inv (step s a)) :
    ∀ {as : List A} {s : S}, Inv s → Along step C s as → Inv (run step s as)
  | [], _, hs, _ => hs
  | a :: as, s, hs, ⟨hc, hrest⟩ => by
    rw [run_cons]
    exact invariant_run hstep (hstep s a hs hc) hrest

/-- An invariant that every step keeps holds at the end of every run. -/
theorem run_of_invariant (hstep : ∀ s a, Inv s → Inv (step s a)) :
    ∀ {s : S} (as : List A), Inv s → Inv (run step s as)
  | _, [], hs => hs
  | s, a :: as, hs => by
    exact run_of_invariant hstep as (hstep s a hs)

/-- `P` along a run is `P` after every proper initial part of it. -/
theorem along_iff : ∀ {as : List A} {s : S}, Along step P s as ↔
    ∀ pre a post, as = pre ++ a :: post → P (run step s pre) a
  | [], s => by simp [Along]
  | b :: bs, s => by
    constructor
    · rintro ⟨hp, hrest⟩ pre a post heq
      cases pre with
      | nil =>
        obtain ⟨rfl, rfl⟩ := List.cons.inj heq
        exact hp
      | cons c pre =>
        obtain ⟨rfl, rfl⟩ := List.cons.inj heq
        exact along_iff.1 hrest pre a post rfl
    · intro h
      refine ⟨h [] b bs rfl, along_iff.2 fun pre a post heq => ?_⟩
      subst heq
      exact h (b :: pre) a post rfl

theorem Along.of_forall (h : ∀ s a, P s a) :
    ∀ (as : List A) (s : S), Along step P s as
  | [], _ => trivial
  | a :: as, s => ⟨h s a, Along.of_forall h as (step s a)⟩

/-- Where a step meets `P` and keeps the invariant, or breaks `Q`, every state of a run has `Q`
exactly when each of its steps meets `P`. -/
theorem forall_prefix_iff_along {Q : S → Prop} (hinv : ∀ s, Inv s → Q s)
    (hstep : ∀ s a, Inv s → C s a → (P s a ∧ Inv (step s a)) ∨ (¬P s a ∧ ¬Q (step s a))) :
    ∀ {as : List A} {s : S}, Inv s → Along step C s as →
      ((∀ pre, pre <+: as → Q (run step s pre)) ↔ Along step P s as) := by
  intro as
  induction as with
  | nil =>
    intro s hs _
    refine ⟨fun _ => trivial, fun _ pre hpre => ?_⟩
    rw [prefix_nil.1 hpre]
    exact hinv s hs
  | cons a as ih =>
    intro s hs hc
    rcases hstep s a hs hc.1 with ⟨hp, hs'⟩ | ⟨hp, hq⟩
    · constructor
      · intro hall
        exact ⟨hp, (ih hs' hc.2).1 fun pre hpre =>
          hall (a :: pre) (cons_prefix_cons.2 ⟨rfl, hpre⟩)⟩
      · rintro ⟨-, hrest⟩ pre hpre
        cases pre with
        | nil => exact hinv s hs
        | cons b pre =>
          obtain ⟨rfl, htail⟩ := cons_prefix_cons.1 hpre
          exact (ih hs' hc.2).2 hrest pre htail
    · refine iff_of_false (fun hall => hq ?_) fun hrest => hp hrest.1
      exact hall [a] (cons_prefix_cons.2 ⟨rfl, nil_prefix⟩)

/-! ## Histories -/

section History

variable {E : Type*} [DecidableEq E]

/-- How often `e` happened since the last `mark`. -/
def since (mark e : E) (h : List E) : ℕ :=
  (h.takeWhile (· ≠ mark)).count e

theorem since_mark (mark e : E) (h : List E) : since mark e (mark :: h) = 0 := by
  simp [since]

theorem since_self {mark e : E} (hne : e ≠ mark) (h : List E) :
    since mark e (e :: h) = since mark e h + 1 := by
  simp [since, hne]

theorem since_cons_of_ne {mark e x : E} (hm : x ≠ mark) (he : x ≠ e) (h : List E) :
    since mark e (x :: h) = since mark e h := by
  simp [since, hm, he]

theorem since_le_cons {mark e x : E} (hm : x ≠ mark) (h : List E) :
    since mark e h ≤ since mark e (x :: h) := by
  simp only [since, takeWhile_cons, hm, ne_eq, not_false_eq_true, decide_true, if_true]
  exact count_le_count_cons

end History

end Machine
