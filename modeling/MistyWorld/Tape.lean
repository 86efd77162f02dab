import MistyWorld.RefGraph
import Mathlib.Data.Set.Basic

/-!
# Choices from a tape

A program that makes random choices is modelled with a tape : step after step it reads the cell at
its position and moves on. A step that reads only the cells it moves over (`Reads`) can be given any
choices, whatever the steps before it were given. So the outcomes of two steps in sequence are those
of the second from an outcome of the first (`outcome_bind_iff`), and the same goes for loops.
-/

open Option List RefGraph

namespace Tape

variable {U S A : Type*} {pos : S → ℕ} {p : ℕ}

/-- A partial computation that starts at a position of the tape, moves on, and reads the cells that
it moves over only. -/
def ReadsFrom (pos : S → ℕ) (p : ℕ) (f : (ℕ → U) → Option S) : Prop :=
  ∀ tape s, f tape = some s → p ≤ pos s ∧
    ∀ tape', (∀ n, p ≤ n → n < pos s → tape' n = tape n) → f tape' = some s

/-- A partial step that reads what it moves over only. -/
def Reads (pos : S → ℕ) (f : (ℕ → U) → S → Option S) : Prop :=
  ∀ s, ReadsFrom pos (pos s) fun tape => f tape s

/-- There are choices with which the step leads to a state. -/
def Outcome (f : (ℕ → U) → S → Option S) (s s' : S) : Prop :=
  ∃ tape, f tape s = some s'

theorem readsFrom_none : ReadsFrom pos p fun _ : ℕ → U => none :=
  fun _ _ h => nomatch h

theorem readsFrom_some {s : S} (h : p ≤ pos s) : ReadsFrom pos p fun _ : ℕ → U => some s := by
  intro tape s' hs
  cases hs
  exact ⟨h, fun _ _ => rfl⟩

/-- A cell is read, and the rest depends on it. -/
theorem ReadsFrom.cell {f : U → (ℕ → U) → Option S} (h : ∀ u, ReadsFrom pos (p + 1) (f u)) :
    ReadsFrom pos p fun tape => f (tape p) tape := by
  intro tape s hs
  obtain ⟨hle, hsame⟩ := h (tape p) tape s hs
  refine ⟨by omega, fun tape' htape => ?_⟩
  dsimp only
  rw [htape p (le_refl _) hle]
  exact hsame tape' fun n hn hlt => htape n (by omega) hlt

theorem reads_some {f : S → S} (h : ∀ s, pos s ≤ pos (f s)) :
    Reads pos fun (_ : ℕ → U) s => some (f s) :=
  fun s => readsFrom_some (h s)

variable {f g : (ℕ → U) → S → Option S} {P : S → Prop} {l : List A}

theorem ReadsFrom.bind {f : (ℕ → U) → Option S} (hf : ReadsFrom pos p f) (hg : Reads pos g) :
    ReadsFrom pos p fun tape => (f tape).bind (g tape) := by
  intro tape s'' hs
  obtain ⟨s', hs', hs''⟩ := bind_eq_some_iff.1 hs
  obtain ⟨hle, hsame⟩ := hf tape s' hs'
  obtain ⟨hle', hsame'⟩ := hg s' tape s'' hs''
  refine ⟨hle.trans hle', fun tape' htape => bind_eq_some_iff.2 ⟨s', ?_, ?_⟩⟩
  · exact hsame tape' fun n hn hlt => htape n hn (hlt.trans_le hle')
  · exact hsame' tape' fun n hn hlt => htape n (hle.trans hn) hlt

/-- Two steps that read the tape in sequence. -/
theorem Reads.bind (hf : Reads pos f) (hg : Reads pos g) :
    Reads pos fun tape s => (f tape s).bind (g tape) :=
  fun s => (hf s).bind hg

/-- The outcomes of two steps in sequence. -/
theorem outcome_bind_iff (hf : Reads pos f) (hg : Reads pos g) {s s'' : S} :
    Outcome (fun tape s => (f tape s).bind (g tape)) s s'' ↔
      ∃ s', Outcome f s s' ∧ Outcome g s' s'' := by
  constructor
  · rintro ⟨tape, hs⟩
    obtain ⟨s', hs', hs''⟩ := bind_eq_some_iff.1 hs
    exact ⟨s', ⟨tape, hs'⟩, tape, hs''⟩
  · rintro ⟨s', ⟨tape, hs'⟩, tape', hs''⟩
    obtain ⟨-, hsame⟩ := hf s tape s' hs'
    obtain ⟨-, hsame'⟩ := hg s' tape' s'' hs''
    -- the first step reads below the position between them
    refine ⟨fun n => if n < pos s' then tape n else tape' n,
      bind_eq_some_iff.2 ⟨s', hsame _ fun n _ hlt => if_pos hlt,
        hsame' _ fun n hn _ => if_neg (not_lt.2 hn)⟩⟩

theorem Reads.foldlM {f : (ℕ → U) → S → A → Option S}
    (h : ∀ a ∈ l, Reads pos fun tape s => f tape s a) :
    Reads pos fun tape s => l.foldlM (f tape) s := by
  induction l with
  | nil => exact reads_some fun _ => le_refl _
  | cons a l ih =>
    have hrest := ih fun b hb => h b (mem_cons_of_mem _ hb)
    exact (h a mem_cons_self).bind hrest

theorem Reads.iterate (h : Reads pos f) (n : ℕ) :
    Reads pos fun tape s => RefGraph.iterate (f tape) n s := by
  induction n with
  | zero => exact reads_some fun _ => le_refl _
  | succ n ih => exact h.bind ih

/-- A step that always ends has an outcome. -/
theorem exists_outcome [Nonempty U] {s : S} (h : ∀ tape, (f tape s).isSome = true) :
    ∃ s', Outcome f s s' := by
  obtain ⟨u⟩ := ‹Nonempty U›
  obtain ⟨s', hs'⟩ := isSome_iff_exists.1 (h fun _ => u)
  exact ⟨s', fun _ => u, hs'⟩

/-- What holds of a state and is kept by each step of a loop holds of the outcomes. -/
theorem Outcome.foldlM {f : (ℕ → U) → S → A → Option S} {s s' : S}
    (hstep : ∀ a ∈ l, ∀ s s', P s → Outcome (fun tape s => f tape s a) s s' → P s') (hs : P s)
    (h : Outcome (fun tape s => l.foldlM (f tape) s) s s') : P s' := by
  obtain ⟨tape, h⟩ := h
  induction l generalizing s with
  | nil =>
    cases h
    exact hs
  | cons a l ih =>
    obtain ⟨s1, hs1, h⟩ := bind_eq_some_iff.1 h
    exact ih (fun b hb => hstep b (mem_cons_of_mem _ hb))
      (hstep a mem_cons_self _ _ hs ⟨tape, hs1⟩) h

theorem Outcome.iterate {n : ℕ} {s s' : S} (hstep : ∀ s s', P s → Outcome f s s' → P s') (hs : P s)
    (h : Outcome (fun tape s => RefGraph.iterate (f tape) n s) s s') : P s' := by
  obtain ⟨tape, h⟩ := h
  induction n generalizing s with
  | zero =>
    cases h
    exact hs
  | succ n ih =>
    obtain ⟨s1, hs1, h⟩ := bind_eq_some_iff.1 h
    exact ih (hstep _ _ hs ⟨tape, hs1⟩) h

/-- Where one step of a loop can reach what the steps keep, the loop can. -/
theorem exists_outcome_foldlM [Nonempty U] {f : (ℕ → U) → S → A → Option S} {Ok : S → Prop} {a : A}
    (ha : a ∈ l) (hreads : ∀ a ∈ l, Reads pos fun tape s => f tape s a)
    (hends : ∀ a ∈ l, ∀ tape s, (f tape s a).isSome = true)
    (hok : ∀ a ∈ l, ∀ s s', Ok s → Outcome (fun tape s => f tape s a) s s' → Ok s')
    (hkeep : ∀ a ∈ l, ∀ s s', P s → Outcome (fun tape s => f tape s a) s s' → P s')
    (hreach : ∀ s, Ok s → ∃ s', Outcome (fun tape s => f tape s a) s s' ∧ P s') {s : S} (hs : Ok s) :
    ∃ s', Outcome (fun tape s => l.foldlM (f tape) s) s s' ∧ P s' := by
  obtain ⟨pre, post, rfl⟩ := append_of_mem ha
  have hpre : ∀ b ∈ pre, b ∈ pre ++ a :: post := fun b hb => mem_append_left _ hb
  have hpost : ∀ b ∈ post, b ∈ pre ++ a :: post := fun b hb =>
    mem_append_right _ (mem_cons_of_mem _ hb)
  obtain ⟨s1, hs1⟩ := exists_outcome (f := fun tape s => pre.foldlM (f tape) s) (s := s)
    fun tape => foldlM_isSome (fun b hb => hends b (hpre b hb) tape) s
  obtain ⟨s2, hs2, hP⟩ := hreach s1 (hs1.foldlM (fun b hb => hok b (hpre b hb)) hs)
  obtain ⟨s3, hs3⟩ := exists_outcome (f := fun tape s => post.foldlM (f tape) s) (s := s2)
    fun tape => foldlM_isSome (fun b hb => hends b (hpost b hb) tape) s2
  have hreadsPost : Reads pos fun tape s => post.foldlM (f tape) s :=
    .foldlM fun b hb => hreads b (hpost b hb)
  have htail : Outcome (fun tape s => (a :: post).foldlM (f tape) s) s1 s3 := by
    exact (outcome_bind_iff (hreads a ha) hreadsPost).2 ⟨s2, hs2, hs3⟩
  refine ⟨s3, ?_, hs3.foldlM (fun b hb => hkeep b (hpost b hb)) hP⟩
  simp only [foldlM_append]
  refine (outcome_bind_iff (.foldlM fun b hb => hreads b (hpre b hb)) (.foldlM fun b hb => ?_)).2
    ⟨s1, hs1, htail⟩
  exact hreads b (mem_append_right _ hb)

/-- The same for one step that is repeated. -/
theorem exists_outcome_iterate [Nonempty U] {Ok : S → Prop} (hreads : Reads pos f)
    (hends : ∀ tape s, (f tape s).isSome = true) (hkeep : ∀ s s', P s → Outcome f s s' → P s')
    (hreach : ∀ s, Ok s → ∃ s', Outcome f s s' ∧ P s') {n : ℕ} (hn : 0 < n) {s : S} (hs : Ok s) :
    ∃ s', Outcome (fun tape s => RefGraph.iterate (f tape) n s) s s' ∧ P s' := by
  obtain ⟨n, rfl⟩ : ∃ k, n = k + 1 := ⟨n - 1, by omega⟩
  obtain ⟨s1, hs1, hP⟩ := hreach s hs
  obtain ⟨s2, hs2⟩ := @exists_outcome _ _ (fun tape s => RefGraph.iterate (f tape) n s) _ s1
    fun tape => iterate_isSome (hends tape) n s1
  exact ⟨s2, (outcome_bind_iff hreads (hreads.iterate n)).2 ⟨s1, hs1, hs2⟩,
    hs2.iterate hkeep hP⟩

end Tape
