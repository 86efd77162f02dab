import Mathlib.Data.List.Infix

/-!
# Joined words

Words without a separator are joined with it. The joined word has its parts back
(`intercalate_inj`), and a word without the separator that occurs in it occurs in a part
(`infix_intercalate_iff`). It need not be a part : a part may be longer.
-/

open List

namespace JoinedWords

variable {α : Type*} {sep : α} {u a b : List α} {ws ws' : List (List α)}

/-- A word without the separator does not reach across it. -/
theorem infix_append_cons_iff (hu : sep ∉ u) : u <:+: a ++ sep :: b ↔ u <:+: a ∨ u <:+: b := by
  constructor
  · rintro ⟨s, t, h⟩
    rw [append_assoc] at h
    rcases append_eq_append_iff.1 h with ⟨c, hc, hb⟩ | ⟨c, hs, hc⟩
    · -- the word starts in the first part
      rcases append_eq_append_iff.1 hb with ⟨d, rfl, -⟩ | ⟨d, rfl, hd⟩
      · exact .inl ⟨s, d, by rw [append_assoc, hc]⟩
      · cases d with
        | nil => exact .inl ⟨s, [], by simpa using hc.symm⟩
        | cons x d =>
          obtain ⟨rfl, -⟩ := List.cons.inj hd
          exact (hu (mem_append_right _ mem_cons_self)).elim
    · -- the word starts after it
      cases c with
      | nil =>
        cases u with
        | nil => exact .inl nil_infix
        | cons x u =>
          obtain ⟨rfl, -⟩ := List.cons.inj hc
          exact (hu mem_cons_self).elim
      | cons x c =>
        obtain ⟨-, hb⟩ := List.cons.inj hc
        exact .inr ⟨c, t, by rw [append_assoc, hb]; rfl⟩
  · rintro (h | h)
    · exact h.trans (prefix_append a _).isInfix
    · exact h.trans ((suffix_cons sep b).trans (suffix_append a _)).isInfix

theorem infix_intercalate_iff (hu : sep ∉ u) (hws : ws ≠ []) :
    u <:+: [sep].intercalate ws ↔ ∃ w ∈ ws, u <:+: w := by
  induction ws with
  | nil => exact absurd rfl hws
  | cons w ws ih =>
    cases ws with
    | nil => simp
    | cons w' ws =>
      rw [intercalate_cons_cons, append_assoc, singleton_append,
        infix_append_cons_iff hu, ih (cons_ne_nil w' ws)]
      simp

/-- There is a separator between any two words. -/
theorem count_intercalate [DecidableEq α] (h : ∀ w ∈ ws, sep ∉ w) (hws : ws ≠ []) :
    ([sep].intercalate ws).count sep + 1 = ws.length := by
  induction ws with
  | nil => exact absurd rfl hws
  | cons w ws ih =>
    have hw : w.count sep = 0 := count_eq_zero.2 (h w mem_cons_self)
    cases ws with
    | nil => simpa using hw
    | cons w' ws =>
      have hrest := ih (fun v hv => h v (mem_cons_of_mem w hv)) (cons_ne_nil w' ws)
      rw [intercalate_cons_cons, count_append, count_append, hw,
        count_singleton_self]
      rw [length_cons, ← hrest]
      omega

theorem intercalate_inj [DecidableEq α] (h : ∀ w ∈ ws, sep ∉ w) (h' : ∀ w ∈ ws', sep ∉ w)
    (hws : ws ≠ []) (hws' : ws' ≠ []) (heq : [sep].intercalate ws = [sep].intercalate ws') :
    ws = ws' := by
  rw [← splitOn_intercalate sep h hws, heq, splitOn_intercalate sep h' hws']

end JoinedWords
