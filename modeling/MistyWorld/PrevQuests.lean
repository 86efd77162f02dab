import MistyWorld.Quest

/-!
# Quests that come before a quest

`SatisfyQuestPreviousQuest` walks `prevQuests` and stops at the first entry whose own quest is done,
or begun when the entry is negative. What it answers there is final : `verdict` of that entry
(`satisfyPrevQuests_eq`), whatever the entries after it say.

An entry is satisfied when its quest, and every quest of its exclusive group when that is negative,
is done, or begun when the entry is negative. The loop asks this of a positive entry, but of a
negative one it asks that no other quest of the group is begun. `Sincere` is the exact condition
under which the verdict of an entry is the answer that the list should get
(`verdict_iff`, `satisfyQuestPreviousQuest_iff`).
-/

open List

namespace MistyWorld

namespace QuestBook

variable (env : QuestEnv) (b : QuestBook)

/-! ## What an entry asks -/

/-- A quest is rewarded, or active when the entry is negative. -/
def Meets (i : ℤ) (questId : ℕ) : Prop :=
  if 0 < i then questId ∈ b.rewardedQuests else b.getQuestStatus env questId ≠ .none

instance (i : ℤ) (questId : ℕ) : Decidable (b.Meets env i questId) :=
  inferInstanceAs (Decidable (if 0 < i then questId ∈ b.rewardedQuests
    else b.getQuestStatus env questId ≠ .none))

/-- The entry is satisfied : by its own quest and, if its exclusive group is negative, by every
quest of that group. -/
def Satisfied (i : ℤ) : Prop :=
  ∃ prev, env.template i.natAbs = some prev ∧ i ≠ 0 ∧ b.Meets env i i.natAbs ∧
    (prev.exclusiveGroup < 0 →
      ∀ questId ∈ env.exclusiveQuestGroups prev.exclusiveGroup, b.Meets env i questId)

/-- The other quests of the exclusive group of an entry. -/
def others (prev : Quest) (i : ℤ) : List ℕ :=
  (env.exclusiveQuestGroups prev.exclusiveGroup).filter (· ≠ i.natAbs)

/-- The loop stops at the entry. -/
def stopsAt (i : ℤ) : Bool :=
  (env.template i.natAbs).isSome && i ≠ 0 && b.Meets env i i.natAbs

/-- What the loop answers when it stops at the entry. -/
def verdict (i : ℤ) : Bool :=
  match env.template i.natAbs with
  | none => false
  | some prev =>
    0 ≤ prev.exclusiveGroup ||
      if 0 < i then (others env prev i).all (· ∈ b.rewardedQuests)
      else (others env prev i).all fun id => b.getQuestStatus env id = .none

/-- The verdict of the entry is the answer for the whole list : its exclusive group is not
negative, or the entry is positive and its group is rewarded or no entry is satisfied, or it is
negative and has no others in its group, or these are all inactive and some entry is satisfied, or
one of them is active and no entry is satisfied. -/
def Sincere (l : List ℤ) (i : ℤ) : Prop :=
  ∀ prev, env.template i.natAbs = some prev → prev.exclusiveGroup < 0 →
    if 0 < i then
      (∀ id ∈ others env prev i, id ∈ b.rewardedQuests) ∨ ∀ j ∈ l, ¬ b.Satisfied env j
    else
      others env prev i = [] ∨
      (∀ id ∈ others env prev i, b.getQuestStatus env id = .none) ∧ (∃ j ∈ l, b.Satisfied env j) ∨
      (∃ id ∈ others env prev i, b.getQuestStatus env id ≠ .none) ∧ ∀ j ∈ l, ¬ b.Satisfied env j

variable {env b} {l : List ℤ} {i : ℤ} {prev : Quest}

theorem stopsAt_iff : b.stopsAt env i = true ↔
    (∃ prev, env.template i.natAbs = some prev) ∧ i ≠ 0 ∧ b.Meets env i i.natAbs := by
  unfold stopsAt
  rw [Bool.and_eq_true, Bool.and_eq_true, decide_eq_true_iff, decide_eq_true_iff, and_assoc,
    Option.isSome_iff_exists]

theorem Satisfied.stopsAt (h : b.Satisfied env i) : b.stopsAt env i = true := by
  obtain ⟨prev, hprev, hne, hmeets, -⟩ := h
  exact stopsAt_iff.2 ⟨⟨prev, hprev⟩, hne, hmeets⟩

/-- An entry where the loop stops is satisfied if the others of its group are. -/
theorem satisfied_iff (hprev : env.template i.natAbs = some prev) (h : b.stopsAt env i = true) :
    b.Satisfied env i ↔
      (prev.exclusiveGroup < 0 → ∀ id ∈ others env prev i, b.Meets env i id) := by
  obtain ⟨-, hne, hself⟩ := stopsAt_iff.1 h
  constructor
  · rintro ⟨prev', hprev', -, -, hgroup⟩ hneg id hid
    obtain rfl : prev' = prev := Option.some_inj.1 (hprev'.symm.trans hprev)
    exact hgroup hneg id (mem_of_mem_filter hid)
  · intro hothers
    refine ⟨prev, hprev, hne, hself, fun hneg id hid => ?_⟩
    by_cases heq : id = i.natAbs
    · rwa [heq]
    · exact hothers hneg id (mem_filter.2 ⟨hid, by simpa using heq⟩)

/-! ## The loop -/

theorem satisfyPrevQuests_cons (i : ℤ) (is : List ℤ) :
    b.satisfyPrevQuests env (i :: is) =
      if b.stopsAt env i then b.verdict env i else b.satisfyPrevQuests env is := by
  rw [satisfyPrevQuests, stopsAt, verdict]
  cases env.template i.natAbs with
  | none => rfl
  | some prev =>
    rcases lt_trichotomy i 0 with hneg | rfl | hpos
    · have hnot : ¬ 0 < i := not_lt.2 hneg.le
      simp [Meets, hneg, hnot, hneg.ne, others]
    · simp
    · have hnot : ¬ i < 0 := not_lt.2 hpos.le
      simp [Meets, hpos, hnot, hpos.ne', others]

/-- The loop answers with the verdict of the first entry where it stops. -/
theorem satisfyPrevQuests_eq (l : List ℤ) :
    b.satisfyPrevQuests env l = (l.find? (b.stopsAt env)).any (b.verdict env) := by
  induction l with
  | nil => rfl
  | cons i is ih =>
    rw [satisfyPrevQuests_cons, List.find?_cons]
    cases b.stopsAt env i with
    | true => rfl
    | false => exact ih

/-- The verdict of an entry where the loop stops is right exactly when the entry is sincere. -/
theorem verdict_iff (hi : i ∈ l) (h : b.stopsAt env i = true) :
    (b.verdict env i = true ↔ ∃ j ∈ l, b.Satisfied env j) ↔ b.Sincere env l i := by
  obtain ⟨⟨prev, hprev⟩, hne, -⟩ := stopsAt_iff.1 h
  have hsat := satisfied_iff hprev h
  have hsome : b.Satisfied env i → ∃ j ∈ l, b.Satisfied env j := fun hs => ⟨i, hi, hs⟩
  have hsincere : ∀ P : Quest → Prop,
      (∀ p, env.template i.natAbs = some p → p.exclusiveGroup < 0 → P p) ↔
        (prev.exclusiveGroup < 0 → P prev) := fun P =>
    ⟨fun hp => hp prev hprev, fun hp p hp' => Option.some_inj.1 (hprev.symm.trans hp') ▸ hp⟩
  rw [Sincere, hsincere]
  simp only [verdict, hprev]
  by_cases hgroup : prev.exclusiveGroup < 0
  swap
  · rw [decide_eq_true (not_lt.1 hgroup), Bool.true_or]
    exact iff_of_true (iff_of_true rfl (hsome (hsat.2 fun hneg => absurd hneg hgroup)))
      fun hneg => absurd hneg hgroup
  rw [decide_eq_false (not_le.2 hgroup), Bool.false_or]
  simp only [hgroup, true_implies] at hsat ⊢
  by_cases hpos : 0 < i
  · simp only [Meets, if_pos hpos] at hsat
    simp only [if_pos hpos, all_eq_true, decide_eq_true_iff]
    by_cases hall : ∀ id ∈ others env prev i, id ∈ b.rewardedQuests
    · exact iff_of_true (iff_of_true hall (hsome (hsat.2 hall))) (Or.inl hall)
    · simp only [iff_false_left hall, or_iff_right hall, not_exists, not_and]
  · simp only [Meets, if_neg hpos] at hsat
    simp only [if_neg hpos, all_eq_true, decide_eq_true_iff]
    by_cases hnil : others env prev i = []
    · have hnone : ∀ P : ℕ → Prop, ∀ id ∈ others env prev i, P id := by
        rw [hnil]
        exact fun P id hid => absurd hid not_mem_nil
      exact iff_of_true (iff_of_true (hnone _) (hsome (hsat.2 (hnone _)))) (Or.inl hnil)
    by_cases hidle : ∀ id ∈ others env prev i, b.getQuestStatus env id = .none
    · have hquiet : ¬ ∃ id ∈ others env prev i, b.getQuestStatus env id ≠ .none :=
        fun ⟨id, hid, hactive⟩ => hactive (hidle id hid)
      simp only [iff_true_left hidle, hnil, hquiet, false_or, false_and, or_false,
        and_iff_right hidle]
    · have hactive : ∃ id ∈ others env prev i, b.getQuestStatus env id ≠ .none := by
        by_contra hquiet
        exact hidle fun id hid => by_contra fun hne => hquiet ⟨id, hid, hne⟩
      simp only [hnil, hidle, false_or, false_and, and_iff_right hactive, false_iff, not_exists,
        not_and]

/-- Some order of the list begins with any of its entries. -/
theorem exists_perm_find? {p : ℤ → Bool} (hi : i ∈ l) (h : p i = true) :
    ∃ l' : List ℤ, l'.Perm l ∧ l'.find? p = some i :=
  ⟨i :: l.erase i, (perm_cons_erase hi).symm, by rw [List.find?_cons, h]⟩

/-- The answer of `SatisfyQuestPreviousQuest` is that some entry is satisfied exactly when the first
entry where the loop stops is sincere. It is so in every order of the list exactly when every entry
where the loop may stop is. -/
theorem satisfyQuestPreviousQuest_iff {q : Quest} (hne : q.prevQuests ≠ []) :
    ((b.satisfyQuestPreviousQuest env q = true ↔ ∃ i ∈ q.prevQuests, b.Satisfied env i) ↔
      ∀ i, q.prevQuests.find? (b.stopsAt env) = some i → b.Sincere env q.prevQuests i) ∧
    (((b.satisfyQuestPreviousQuest env q = true ↔ ∃ i ∈ q.prevQuests, b.Satisfied env i) ∧
        ∀ l : List ℤ, l.Perm q.prevQuests →
          b.satisfyQuestPreviousQuest env { q with prevQuests := l } =
            b.satisfyQuestPreviousQuest env q) ↔
      ∀ i ∈ q.prevQuests, b.stopsAt env i = true → b.Sincere env q.prevQuests i) := by
  have hanswer : ∀ l, l ≠ [] → b.satisfyQuestPreviousQuest env { q with prevQuests := l } =
      (l.find? (b.stopsAt env)).any (b.verdict env) := fun l hl => by
    rw [satisfyQuestPreviousQuest, satisfyPrevQuests_eq, isEmpty_eq_false_iff.2 hl,
      Bool.false_or]
  have hself : b.satisfyQuestPreviousQuest env q =
      (q.prevQuests.find? (b.stopsAt env)).any (b.verdict env) := hanswer _ hne
  -- in every order the loop stops at an entry of the list, or the list has none
  have hright : ∀ l : List ℤ, l.Perm q.prevQuests →
      (((l.find? (b.stopsAt env)).any (b.verdict env) = true ↔
          ∃ i ∈ q.prevQuests, b.Satisfied env i) ↔
        ∀ i, l.find? (b.stopsAt env) = some i → b.Sincere env q.prevQuests i) := by
    intro l hl
    cases hfind : l.find? (b.stopsAt env) with
    | none =>
      refine iff_of_true ?_ fun i hi => by cases hi
      refine iff_of_false Bool.false_ne_true ?_
      rintro ⟨i, hi, hsat⟩
      exact List.find?_eq_none.1 hfind i (hl.mem_iff.2 hi) hsat.stopsAt
    | some i =>
      have hi : i ∈ q.prevQuests := hl.mem_iff.1 (mem_of_find?_eq_some hfind)
      rw [Option.any_some, verdict_iff hi (List.find?_some hfind)]
      exact ⟨fun hs j hj => Option.some_inj.1 hj ▸ hs, fun hs => hs i rfl⟩
  have hfull : ∀ l : List ℤ, l.Perm q.prevQuests → l ≠ [] := by
    rintro l hl rfl
    exact hne (nil_perm.1 hl)
  rw [hself]
  refine ⟨hright _ (List.Perm.refl _), ⟨?_, ?_⟩⟩
  · rintro ⟨hspec, hperm⟩ i hi hstop
    obtain ⟨l, hl, hfind⟩ := exists_perm_find? hi hstop
    have hsame := hperm l hl
    rw [hanswer l (hfull l hl)] at hsame
    exact (hright l hl).1 (by rw [hsame, hspec]) i hfind
  · intro hall
    have hspec : ∀ l : List ℤ, l.Perm q.prevQuests →
        ((l.find? (b.stopsAt env)).any (b.verdict env) = true ↔
          ∃ i ∈ q.prevQuests, b.Satisfied env i) := fun l hl =>
      (hright l hl).2 fun i hi => hall i (hl.mem_iff.1 (mem_of_find?_eq_some hi))
        (List.find?_some hi)
    refine ⟨hspec _ (List.Perm.refl _), fun l hl => ?_⟩
    rw [hanswer l (hfull l hl)]
    exact Bool.eq_iff_iff.2 ((hspec l hl).trans (hspec _ (List.Perm.refl _)).symm)

/-! ## A chain with a group -/

/-- A quest of the exclusive group -5. -/
def groupQuest (id : ℕ) : Quest where
  id := id
  exclusiveGroup := -5

/-- Quests 10 and 11 are the group -5. -/
def groupEnv : QuestEnv where
  template i := if i = 10 ∨ i = 11 then some (groupQuest i) else none
  template_id := by
    intro i q h
    split_ifs at h
    cases h
    rfl
  exclusiveQuestGroups g := if g = -5 then [10, 11] else []

/-- A quest with the given previous quests. -/
def chainQuest (prevQuests : List ℤ) : Quest where
  id := 12
  prevQuests := prevQuests

/-- A player who is on the given quests. -/
def onQuests (ids : List ℕ) : QuestBook where
  questStatus i := if i ∈ ids then some { status := .incomplete } else none

theorem satisfyQuestPreviousQuest_iff_rewarded :
    [(10 : ℤ)] ≠ [] ∧
      ((({ rewardedQuests := [10, 11] } : QuestBook).satisfyQuestPreviousQuest groupEnv
          (chainQuest [10]) = true ↔
        ∃ i ∈ [(10 : ℤ)], ({ rewardedQuests := [10, 11] } : QuestBook).Satisfied groupEnv i) ↔
      ∀ i, [(10 : ℤ)].find? (({ rewardedQuests := [10, 11] } : QuestBook).stopsAt groupEnv) =
        some i → ({ rewardedQuests := [10, 11] } : QuestBook).Sincere groupEnv [10] i) :=
  ⟨by decide, (@satisfyQuestPreviousQuest_iff groupEnv { rewardedQuests := [10, 11] }
    (chainQuest [10]) (by decide)).1⟩

/-- Both quests of the group are active, and the quest after them is refused. -/
theorem satisfyQuestPreviousQuest_active :
    ¬((onQuests [10, 11]).satisfyQuestPreviousQuest groupEnv (chainQuest [-10]) = true ↔
      ∃ i ∈ [(-10 : ℤ)], (onQuests [10, 11]).Satisfied groupEnv i) := by
  have hrefused : (onQuests [10, 11]).satisfyQuestPreviousQuest groupEnv (chainQuest [-10]) =
      false := by decide
  have hsat : (onQuests [10, 11]).Satisfied groupEnv (-10) :=
    ⟨groupQuest 10, rfl, by decide, by decide, fun _ => by decide⟩
  exact fun h => Bool.false_ne_true (h.2 ⟨-10, mem_singleton.2 rfl, hsat⟩)

end QuestBook

end MistyWorld
