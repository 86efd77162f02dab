import MistyWorld.QuestLog
import MistyWorld.Run

/-!
# What a quest is rewarded for

A quest should be rewarded once, or once in its period, and only for objectives met since it
was accepted (`RewardsFair`). `Sound` describes the quests for which the code keeps this.

The proof follows one quest. `Kept` is the invariant, with the number `k` of rewards of the
quest that have begun and are not yet in the stores. Whatever the checks of items, money and
reputation do keeps it, for every `k`, and leaves the quest in the stores it was in (`Calm`,
`check_calm`).
-/

open Option Machine

namespace MistyWorld

/-! ## Fair rewards -/

/-- `IsDaily`, `IsWeekly` and `IsMonthly`. -/
def Quest.hasPeriod (t : Quest) : Period → Bool
  | .day => t.daily
  | .week => t.weekly
  | .month => t.monthly

/-- The counters of the quest reached what it requires since it was last accepted. -/
structure ObjectivesMet (t : Quest) (h : List Deed) : Prop where
  credits : ∀ j, t.requiredNpcOrGo j ≠ 0 →
    t.requiredNpcOrGoCount j ≤ since (.accepted t.id) (.credited t.id j) h
  explored : t.explorationOrEvent → 0 < since (.accepted t.id) (.explored t.id) h

theorem ObjectivesMet.cons {t : Quest} {h : List Deed} {x : Deed} (hx : x ≠ .accepted t.id)
    (hm : ObjectivesMet t h) : ObjectivesMet t (x :: h) :=
  ⟨fun j hj => (hm.credits j hj).trans (since_le_cons hx h),
    fun he => lt_of_lt_of_le (hm.explored he) (since_le_cons hx h)⟩

/-- What should hold of the rewards of a quest in a history. -/
structure RewardsFair (env : QuestEnv) (t : Quest) (h : List Deed) : Prop where
  once : t.repeatable = false → h.count (.rewarded t.id) ≤ 1
  onceInPeriod : ∀ period, t.hasPeriod period →
    since (.reset period) (.rewarded t.id) h ≤ 1
  earned : t.isAutoComplete env = false → t.dfQuest = false →
    ∀ after before, h = after ++ .rewarded t.id :: before → ObjectivesMet t before

/-- The quests whose rewards the code keeps fair. -/
structure Sound (env : QuestEnv) (t : Quest) : Prop where
  /-- Only the dungeon finder quests are kept in the store of the day. -/
  day : t.daily → t.dfQuest
  /-- Those are kept in no other store. -/
  week : t.weekly → t.dfQuest = false
  month : t.monthly → t.daily = false ∧ t.dfQuest = false ∧ t.weekly = false
  /-- The checks that a reward raises do not complete a tracking quest. -/
  tracking : t.tracking → t.deliver = false ∧ 0 ≤ t.rewOrReqMoney ∧
    t.repObjectiveFaction = 0 ∧ t.repObjectiveFaction2 = 0
  /-- The setting that turns automatic completion off is not met by a flag it ignores. -/
  auto : t.autoCompleteFlag → env.ignoreAutoComplete = false

namespace QuestBook

/-- The store of the quests done in the current period. -/
def stores (b : QuestBook) : Period → List ℕ
  | .day => b.dfQuests
  | .week => b.weeklyQuests
  | .month => b.monthlyQuests

/-- An invitation to a tracking quest is accepted only while its period leaves it open. -/
def Proper (t : Quest) (s : Option QuestBook) (a : Outside × Request) : Prop :=
  ∀ b, s = some b → ∀ invited, a.2 = .confirmAccept t.id invited → t.tracking →
    (b.satisfyQuestDay t && b.satisfyQuestWeek t && b.satisfyQuestMonth t) = true

/-! ## The invariant -/

/-- The deed neither accepts nor rewards the quest, and resets nothing. -/
def Quiet (q : ℕ) : Deed → Prop
  | .accepted x => x ≠ q
  | .credited _ _ => True
  | .explored _ => True
  | .rewarded x => x ≠ q
  | .reset _ => False

/-- The data of the quest agree with the history. -/
structure DataOk (env : QuestEnv) (t : Quest) (b : QuestBook) (d : QuestStatusData) : Prop where
  credits : ∀ j, t.requiredNpcOrGo j ≠ 0 →
    d.creatureOrGOCount j ≤ since (.accepted t.id) (.credited t.id j) b.history
  explored : d.explored → 0 < since (.accepted t.id) (.explored t.id) b.history
  complete : d.status = .complete → t.isAutoComplete env = false → ObjectivesMet t b.history
  ready : t.tracking → d.status = .incomplete →
    ∀ period, t.hasPeriod period → t.id ∉ b.stores period

/-- The invariant, while `k` rewards of the quest are under way. -/
structure Kept (env : QuestEnv) (t : Quest) (k : ℕ) (b : QuestBook) : Prop where
  data : ∀ d, b.questStatus t.id = some d → DataOk env t b d
  once : t.repeatable = false →
    b.history.count (.rewarded t.id) ≤ (if t.id ∈ b.rewardedQuests then 1 else 0) + k
  period : ∀ period, t.hasPeriod period →
    since (.reset period) (.rewarded t.id) b.history ≤
      (if t.id ∈ b.stores period then 1 else 0) + k
  earned : t.isAutoComplete env = false →
    ∀ after before, b.history = after ++ .rewarded t.id :: before → ObjectivesMet t before

/-- From `b` to `b'` the invariant is kept and the quest neither enters nor leaves a store. -/
structure Calm (env : QuestEnv) (t : Quest) (b b' : QuestBook) : Prop where
  kept : ∀ k, Kept env t k b → Kept env t k b'
  rewarded : t.id ∈ b'.rewardedQuests ↔ t.id ∈ b.rewardedQuests
  stores : ∀ period, t.id ∈ b'.stores period ↔ t.id ∈ b.stores period

variable {env : QuestEnv} {t : Quest} {b b' b₁ : QuestBook} {k x : ℕ} {d : QuestStatusData}

theorem Calm.refl (b : QuestBook) : Calm env t b b :=
  ⟨fun _ h => h, .rfl, fun _ => .rfl⟩

theorem Calm.trans (h1 : Calm env t b b₁) (h2 : Calm env t b₁ b') : Calm env t b b' :=
  ⟨fun k h => h2.kept k (h1.kept k h), h2.rewarded.trans h1.rewarded,
    fun period => (h2.stores period).trans (h1.stores period)⟩

/-- A book with no quests satisfies the invariant. -/
theorem kept_init : Kept env t 0 {} where
  data := fun d h => by simp at h
  once := fun _ => by simp
  period := fun _ _ => by simp [since]
  earned := fun _ after before h => by simp at h

theorem Kept.fair (h : Kept env t 0 b) : RewardsFair env t b.history where
  once := fun hrep => (h.once hrep).trans (by split_ifs <;> simp)
  onceInPeriod := fun period hp => (h.period period hp).trans (by split_ifs <;> simp)
  earned := fun hauto _ => h.earned hauto

/-! ## What does not concern the quest -/

theorem DataOk.congr (h : DataOk env t b d) (hh : b'.history = b.history)
    (hs : ∀ period, t.id ∈ b'.stores period ↔ t.id ∈ b.stores period) :
    DataOk env t b' d where
  credits := by rw [hh]; exact h.credits
  explored := by rw [hh]; exact h.explored
  complete := by rw [hh]; exact h.complete
  ready := fun ht hd period hp => by rw [hs]; exact h.ready ht hd period hp

/-- The invariant reads the status of the quest, its places in the stores and the history. -/
theorem Calm.of_eq (hd : b'.questStatus t.id = b.questStatus t.id)
    (hr : t.id ∈ b'.rewardedQuests ↔ t.id ∈ b.rewardedQuests)
    (hs : ∀ period, t.id ∈ b'.stores period ↔ t.id ∈ b.stores period)
    (hh : b'.history = b.history) : Calm env t b b' where
  kept := fun k h => by
    refine ⟨fun d hd' => ?_, ?_, fun period hp => ?_, ?_⟩
    · exact (h.data d (hd ▸ hd')).congr hh hs
    · rw [hh]
      simpa only [hr] using h.once
    · rw [hh]
      simpa only [hs period] using h.period period hp
    · rw [hh]
      exact h.earned
  rewarded := hr
  stores := hs

theorem Calm.outside (o : Outside) : Calm env t b { b with outside := o } :=
  .of_eq rfl .rfl (fun period => by cases period <;> exact .rfl) rfl

theorem Calm.setQuestSlot (slot : Fin maxQuestLogSize) (x : ℕ) :
    Calm env t b (b.setQuestSlot slot x) :=
  .of_eq rfl .rfl (fun period => by cases period <;> exact .rfl) rfl

theorem Calm.removeTimedQuest (x : ℕ) : Calm env t b (b.removeTimedQuest x) :=
  .of_eq rfl .rfl (fun period => by cases period <;> exact .rfl) rfl

theorem Calm.setData_of_ne (hx : x ≠ t.id) (d : QuestStatusData) : Calm env t b (b.setData x d) :=
  .of_eq (Function.update_of_ne hx.symm _ _) .rfl
    (fun period => by cases period <;> exact .rfl) rfl

theorem Calm.removeActiveQuest_of_ne (hx : x ≠ t.id) : Calm env t b (b.removeActiveQuest x) :=
  .of_eq (Function.update_of_ne hx.symm _ _) .rfl
    (fun period => by cases period <;> exact .rfl) rfl

theorem Calm.record {x : Deed} (hx : Quiet t.id x) : Calm env t b (b.record x) where
  kept := fun k h => by
    have haccepted : x ≠ .accepted t.id := by rintro rfl; exact hx rfl
    have hrewarded : x ≠ .rewarded t.id := by rintro rfl; exact hx rfl
    refine ⟨fun d hd => ?_, fun hrep => ?_, fun period hp => ?_, ?_⟩
    · have hok := h.data d hd
      exact
        { credits := fun j hj => (hok.credits j hj).trans (since_le_cons haccepted _)
          explored := fun he => lt_of_lt_of_le (hok.explored he) (since_le_cons haccepted _)
          complete := fun hc hauto => (hok.complete hc hauto).cons haccepted
          ready := fun htr hi period hp hmem => hok.ready htr hi period hp (by
            cases period <;> exact hmem) }
    · rw [QuestBook.record, List.count_cons_of_ne hrewarded]
      exact h.once hrep
    · have hreset : x ≠ .reset period := by rintro rfl; exact hx
      rw [QuestBook.record, since_cons_of_ne hreset hrewarded]
      refine (h.period period hp).trans (le_of_eq ?_)
      cases period <;> rfl
    · intro hauto after before heq
      cases after with
      | nil => exact absurd (List.cons.inj heq).1 hrewarded
      | cons _ after => exact h.earned hauto after before (List.cons.inj heq).2
  rewarded := .rfl
  stores := fun period => by cases period <;> exact .rfl

/-! ## The data of the quest -/

theorem dataOk_default : DataOk env t b {} where
  credits := fun _ _ => Nat.zero_le _
  explored := fun h => absurd h Bool.false_ne_true
  complete := nofun
  ready := fun _ h => nomatch h

theorem Kept.dataOk (h : Kept env t k b) : DataOk env t b (b.data t.id) := by
  unfold QuestBook.data
  cases hd : b.questStatus t.id with
  | none => exact dataOk_default
  | some d => exact h.data d hd

/-- The data may change in what the invariant does not read. -/
theorem DataOk.of_eq {d' : QuestStatusData} (h : DataOk env t b d)
    (hc : d'.creatureOrGOCount = d.creatureOrGOCount) (he : d'.explored = d.explored)
    (hs : d'.status = d.status) : DataOk env t b d' where
  credits := by rw [hc]; exact h.credits
  explored := by rw [he]; exact h.explored
  complete := by rw [hs]; exact h.complete
  ready := by rw [hs]; exact h.ready

theorem Calm.setData_self (h : ∀ k, Kept env t k b → DataOk env t b d) :
    Calm env t b (b.setData t.id d) where
  kept := fun k hk => by
    refine ⟨fun d' hd' => ?_, hk.once, fun period hp => ?_, hk.earned⟩
    · have hsame : d = d' := by
        simpa [setData] using hd'
      exact hsame ▸ (h k hk).congr rfl fun period => by cases period <;> exact .rfl
    · refine (hk.period period hp).trans (le_of_eq ?_)
      cases period <;> rfl
  rewarded := .rfl
  stores := fun period => by cases period <;> exact .rfl

/-- Writing data that differ from those of the quest only in what the invariant does not
read. -/
theorem Calm.setData (hc : d.creatureOrGOCount = (b.data x).creatureOrGOCount)
    (he : d.explored = (b.data x).explored) (hs : d.status = (b.data x).status) :
    Calm env t b (b.setData x d) := by
  by_cases hx : x = t.id
  · subst hx
    exact .setData_self fun k hk => hk.dataOk.of_eq hc he hs
  · exact .setData_of_ne hx d

theorem Calm.touch (x : ℕ) : Calm env t b (b.touch x) :=
  .setData rfl rfl rfl

@[simp] theorem data_setData (b : QuestBook) (x : ℕ) (d : QuestStatusData) :
    (b.setData x d).data x = d := by
  simp [QuestBook.data, QuestBook.setData]

@[simp] theorem data_touch (b : QuestBook) (x : ℕ) : (b.touch x).data x = b.data x := by
  simp [QuestBook.touch]

/-- The status of another quest changes. -/
theorem Calm.setQuestStatus_of_ne (hx : x ≠ t.id) (status : QuestStatus) :
    Calm env t b (b.setQuestStatus env x status) := by
  unfold QuestBook.setQuestStatus
  split
  · exact .setData_of_ne hx _
  · exact .refl b

section Template

variable (ht : env.template t.id = some t)
include ht

theorem setQuestStatus_self (status : QuestStatus) :
    b.setQuestStatus env t.id status = b.setData t.id { b.data t.id with status := status } := by
  simp [QuestBook.setQuestStatus, ht]

/-- A quest that is not a tracking one may become incomplete. -/
theorem Calm.incompleteQuest (htr : x = t.id → t.tracking = false) :
    Calm env t b (b.incompleteQuest env x) := by
  unfold QuestBook.incompleteQuest
  split_ifs with h0
  · exact .refl b
  by_cases hx : x = t.id
  · subst hx
    rw [setQuestStatus_self ht]
    refine .setData_self fun k hk => ⟨hk.dataOk.credits, hk.dataOk.explored, ?_, ?_⟩
    · intro h
      cases h
    · intro h
      rw [htr rfl] at h
      cases h
  · exact .setQuestStatus_of_ne hx _

/-- What `CanCompleteQuest` says of a quest. -/
theorem canCompleteQuest_cases (h : b.canCompleteQuest env t.id) :
    (t.repeatable = false → t.id ∉ b.rewardedQuests) ∧
      ((t.isAutoComplete env || t.autoCompleteFlag) = true ∧ b.canTakeQuest env t = true ∨
        ∃ d, b.questStatus t.id = some d ∧ d.status = .incomplete ∧
          b.meetsObjectives t d = true) := by
  unfold canCompleteQuest at h
  simp only [ht] at h
  split_ifs at h with h0 h1 h2
  · refine ⟨fun hrep hmem => h1 (by simp [hrep, hmem]), .inl ?_⟩
    simpa using h2
  · refine ⟨fun hrep hmem => h1 (by simp [hrep, hmem]), .inr ?_⟩
    cases hd : b.questStatus t.id with
    | none => simp [hd] at h
    | some d =>
      simp only [hd, Bool.and_eq_true, decide_eq_true_eq] at h
      exact ⟨d, rfl, h⟩

end Template

/-- The tests of `CanCompleteQuest` read counters that agree with the history. -/
theorem DataOk.objectivesMet (h : DataOk env t b d) (hm : b.meetsObjectives t d = true) :
    ObjectivesMet t b.history := by
  simp only [meetsObjectives, Bool.and_eq_true, Bool.or_eq_true, Bool.not_eq_true',
    List.all_eq_true, decide_eq_true_eq] at hm
  obtain ⟨⟨⟨⟨⟨⟨-, hcredits⟩, -⟩, hexplored⟩, -⟩, -⟩, -⟩ := hm
  refine ⟨fun j hj => ?_, fun he => ?_⟩
  · have hflag : t.hasCredits = true := by
      have hall := t.credit_flag ⟨j, hj⟩
      simp only [Bool.and_eq_true] at hall
      simp [Quest.hasCredits, hall.1.1]
    rcases hcredits with hno | hall
    · rw [hflag] at hno
      cases hno
    · rcases hall j (List.mem_finRange j) with (hzero | hzero) | hle
      · exact absurd hzero hj
      · omega
      · exact hle.trans (h.credits j hj)
  · rcases hexplored with hno | hyes
    · rw [he] at hno
      cases hno
    · exact h.explored hyes

theorem satisfyQuestDay_not_mem (hsound : Sound env t) (h : b.satisfyQuestDay t = true)
    (hp : t.daily = true) : t.id ∉ b.dfQuests := by
  simp only [satisfyQuestDay, hp, hsound.day hp] at h
  simp only [Bool.not_true, Bool.and_self, Bool.false_eq_true, if_false, if_true,
    List.isEmpty_iff] at h
  rw [h]
  exact List.not_mem_nil

theorem satisfyQuestWeek_not_mem (h : b.satisfyQuestWeek t = true) (hp : t.weekly = true) :
    t.id ∉ b.weeklyQuests := by
  simp only [satisfyQuestWeek, hp, Bool.not_true, Bool.false_or, List.isEmpty_iff] at h
  split_ifs at h with hnil
  · rw [hnil]
    exact List.not_mem_nil
  · simpa using h

theorem satisfyQuestMonth_not_mem (h : b.satisfyQuestMonth t = true) (hp : t.monthly = true) :
    t.id ∉ b.monthlyQuests := by
  simp only [satisfyQuestMonth, hp, Bool.not_true, Bool.false_or, List.isEmpty_iff] at h
  split_ifs at h with hnil
  · rw [hnil]
    exact List.not_mem_nil
  · simpa using h

/-- A quest whose period leaves it open is not in the store of the period. -/
theorem not_mem_stores (hsound : Sound env t)
    (h : (b.satisfyQuestDay t && b.satisfyQuestWeek t && b.satisfyQuestMonth t) = true)
    (period : Period) (hp : t.hasPeriod period = true) : t.id ∉ b.stores period := by
  simp only [Bool.and_eq_true] at h
  cases period with
  | day => exact satisfyQuestDay_not_mem hsound h.1.1 hp
  | week => exact satisfyQuestWeek_not_mem h.1.2 hp
  | month => exact satisfyQuestMonth_not_mem h.2 hp

theorem canTakeQuest_open (h : b.canTakeQuest env t = true) :
    (b.satisfyQuestDay t && b.satisfyQuestWeek t && b.satisfyQuestMonth t) = true := by
  simp only [canTakeQuest, Bool.and_eq_true] at h ⊢
  exact ⟨⟨h.1.1.1.1.2, h.1.1.1.2⟩, h.1.1.2⟩

theorem canRewardQuest_open (h : b.canRewardQuest env t = true) :
    (b.satisfyQuestDay t && b.satisfyQuestWeek t && b.satisfyQuestMonth t) = true := by
  simp only [canRewardQuest, Bool.and_eq_true] at h ⊢
  exact ⟨⟨h.1.1.1.1.1.1.1.2, h.1.1.1.1.1.1.2⟩, h.1.1.1.1.1.2⟩

/-- Nothing stands against a reward of the quest. -/
structure Due (env : QuestEnv) (t : Quest) (b : QuestBook) : Prop where
  once : t.repeatable = false → t.id ∉ b.rewardedQuests
  period : ∀ period, t.hasPeriod period → t.id ∉ b.stores period
  earned : t.isAutoComplete env = false → ObjectivesMet t b.history

section

variable (ht : env.template t.id = some t)
include ht

/-- A quest that can be completed has met its objectives. -/
theorem Kept.objectivesMet (hsound : Sound env t) (hk : Kept env t k b)
    (h : b.canCompleteQuest env t.id = true) (hauto : t.isAutoComplete env = false) :
    ObjectivesMet t b.history := by
  rcases (canCompleteQuest_cases ht h).2 with ⟨hflag, -⟩ | ⟨d, hd, -, hm⟩
  · -- with the flag set, only the setting makes the quest not complete by itself
    rw [hauto, Bool.false_or] at hflag
    simp [Quest.isAutoComplete, hsound.auto hflag, hflag] at hauto
  · exact (hk.data d hd).objectivesMet hm

/-- A tracking quest that can be completed is due. -/
theorem Kept.due (hsound : Sound env t) (hk : Kept env t k b) (htr : t.tracking = true)
    (h : b.canCompleteQuest env t.id = true) : Due env t b := by
  refine ⟨(canCompleteQuest_cases ht h).1, ?_, hk.objectivesMet ht hsound h⟩
  rcases (canCompleteQuest_cases ht h).2 with ⟨-, htake⟩ | ⟨d, hd, hi, -⟩
  · exact not_mem_stores hsound (canTakeQuest_open htake)
  · exact (hk.data d hd).ready htr hi

/-- A quest that can be completed may be marked complete. -/
theorem Calm.setComplete (hsound : Sound env t) (h : b.canCompleteQuest env t.id = true) :
    Calm env t b (b.setQuestStatus env t.id .complete) := by
  rw [setQuestStatus_self ht]
  refine .setData_self fun k hk => ⟨hk.dataOk.credits, hk.dataOk.explored, ?_, ?_⟩
  · exact fun _ hauto => hk.objectivesMet ht hsound h hauto
  · exact fun _ hi => nomatch hi

end

/-! ## Completing -/

section Complete

variable (ht : env.template t.id = some t) (hsound : Sound env t)
  {reward : Quest → QuestBook → Option QuestBook}
  (hreward : ∀ {r b b'}, r.id ≠ t.id → reward r b = some b' → Calm env t b b')
include ht hsound hreward

/-- Completing a quest is calm, if it is another one or not a tracking one. -/
theorem tryComplete_calm (htr : x = t.id → t.tracking = false)
    (h : b.tryComplete env reward x = some b') : Calm env t b b' := by
  unfold tryComplete at h
  split_ifs at h with hcan
  swap
  · exact some.inj h ▸ .refl b
  unfold completeQuest at h
  split_ifs at h with h0
  · exact some.inj h ▸ .refl b
  by_cases hx : x = t.id
  · subst hx
    simp only [ht, htr rfl, Bool.false_eq_true, if_false, some.injEq] at h
    subst h
    exact .setComplete ht hsound hcan
  · split at h
    · rename_i q hq
      have hcalm : Calm env t b (b.setQuestStatus env x .complete) := .setQuestStatus_of_ne hx _
      split_ifs at h
      · exact hcalm.trans (hreward (by rw [env.template_id hq]; exact hx) h)
      · exact some.inj h ▸ hcalm
    · exact some.inj h ▸ .refl b

end Complete

/-! ## The loops over the log -/

/-- A loop relates its ends by what its body does. -/
theorem eachSlot_rel {R : QuestBook → QuestBook → Prop} (hrefl : ∀ b, R b b)
    (htrans : ∀ {b b₁ b'}, R b b₁ → R b₁ b' → R b b')
    {body : ℕ → QuestBook → Option (QuestBook × Bool)}
    (hbody : ∀ {x b b' stop}, b.InLog x → body x b = some (b', stop) → R b b') :
    ∀ (is : List (Fin maxQuestLogSize)) {b b' : QuestBook}, eachSlot body is b = some b' → R b b'
  | [], b, b', h => some.inj h ▸ hrefl b
  | i :: is, b, b', h => by
    rw [eachSlot] at h
    split_ifs at h with h0
    · exact eachSlot_rel hrefl htrans hbody is h
    · have hin : b.InLog (b.slots i) := ⟨h0, i, rfl⟩
      split at h
      · cases h
      · rename_i hrun
        exact some.inj h ▸ hbody hin hrun
      · rename_i hrun
        exact htrans (hbody hin hrun) (eachSlot_rel hrefl htrans hbody is h)

theorem next_eq {stop : Bool} (h : b.next = some (b', stop)) : b = b' :=
  (Prod.mk.inj (some.inj h)).1

/-- The quest has an objective that the checks look at. -/
def Asks (q : Quest) : Prop :=
  q.deliver = true ∨ q.rewOrReqMoney < 0 ∨ q.repObjectiveFaction ≠ 0 ∨ q.repObjectiveFaction2 ≠ 0

/-- The rule of the checks : what they do to a quest of the log that has such an objective. -/
structure CheckRule (env : QuestEnv) (reward : Quest → QuestBook → Option QuestBook)
    (R : QuestBook → QuestBook → Prop) : Prop where
  refl : ∀ b, R b b
  trans : ∀ {b b₁ b'}, R b b₁ → R b₁ b' → R b b'
  count : ∀ {b x} counts, b.InLog x → R b (b.setData x { b.data x with itemCount := counts })
  complete : ∀ {b b' x q}, b.InLog x → env.template x = some q → Asks q →
    b.tryComplete env reward x = some b' → R b b'
  incomplete : ∀ {b x q}, b.InLog x → env.template x = some q → Asks q →
    (b.data x).status = .complete → R b (b.incompleteQuest env x)

namespace CheckRule

variable {reward : Quest → QuestBook → Option QuestBook} {R : QuestBook → QuestBook → Prop}
  (hR : CheckRule env reward R)
include hR

theorem forSlots {body : ℕ → QuestBook → Option (QuestBook × Bool)}
    (hbody : ∀ {x b b' stop}, b.InLog x → body x b = some (b', stop) → R b b')
    (h : b.forSlots body = some b') : R b b' :=
  eachSlot_rel hR.refl hR.trans hbody _ h

theorem touch (hin : b.InLog x) : R b (b.touch x) :=
  hR.count (b.data x).itemCount hin

theorem map_tryComplete {q : Quest} {stop stop' : Bool} (hin : b.InLog x)
    (hq : env.template x = some q) (hask : Asks q)
    (h : (b.tryComplete env reward x).map (·, stop') = some (b', stop)) : R b b' := by
  obtain ⟨b₁, hrun, hpair⟩ := map_eq_some_iff.1 h
  obtain ⟨rfl, -⟩ := Prod.mk.inj hpair
  exact hR.complete hin hq hask hrun

theorem itemAddedQuestCheck {entry count : ℕ}
    (h : b.itemAddedQuestCheck env reward entry count = some b') : R b b' := by
  refine hR.forSlots (fun {x b b' stop} hin h => ?_) h
  have htouch : R b (b.touch x) := hR.touch hin
  have hin' : (b.touch x).InLog x := hin
  dsimp only at h
  split_ifs at h with hinc
  · exact next_eq h ▸ htouch
  split at h
  · exact next_eq h ▸ htouch
  · rename_i q hq
    split_ifs at h with hdel
    · exact next_eq h ▸ htouch
    split at h
    · exact next_eq h ▸ htouch
    · exact hR.trans htouch (hR.trans (hR.count _ hin')
        (hR.map_tryComplete hin hq (.inl (by simpa using hdel)) h))

/-- A lost item makes its quests incomplete, whatever their status. -/
theorem itemRemovedQuestCheck {entry count : ℕ}
    (hincomplete : ∀ {b x q}, b.InLog x → env.template x = some q → Asks q →
      R b (b.incompleteQuest env x))
    (h : b.itemRemovedQuestCheck env entry count = some b') : R b b' := by
  refine hR.forSlots (fun {x b b' stop} hin h => ?_) h
  split at h
  · exact next_eq h ▸ hR.refl b
  · rename_i q hq
    split_ifs at h with hdel
    · exact next_eq h ▸ hR.refl b
    split at h
    · exact next_eq h ▸ hR.refl b
    · have htouch : R b (b.touch x) := hR.touch hin
      have hin' : (b.touch x).InLog x := hin
      dsimp only at h
      generalize (if ((b.touch x).data x).status ≠ .complete then _ else _) = cur at h
      split_ifs at h
      · obtain ⟨rfl, -⟩ := Prod.mk.inj (some.inj h)
        exact hR.trans htouch (hR.trans (hR.count _ hin')
          (hincomplete hin hq (.inl (by simpa using hdel))))
      · obtain ⟨rfl, -⟩ := Prod.mk.inj (some.inj h)
        exact htouch

theorem weighed {q : Quest} {enough stop : Bool} (hin : b.InLog x)
    (hq : env.template x = some q) (hask : Asks q)
    (h : b.weighed env reward enough x = some (b', stop)) : R b b' := by
  have htouch : R b (b.touch x) := hR.touch hin
  have hin' : (b.touch x).InLog x := hin
  unfold QuestBook.weighed at h
  dsimp only at h
  split_ifs at h with hinc henough hcomplete
  · exact hR.trans htouch (hR.map_tryComplete hin' hq hask h)
  · exact next_eq h ▸ htouch
  · exact next_eq h ▸ htouch
  · exact next_eq h ▸ hR.trans htouch (hR.incomplete hin' hq hask hcomplete)
  · exact next_eq h ▸ htouch

theorem weighedSlots {asks : Quest → Bool} {enough : Quest → QuestBook → Bool}
    (hasks : ∀ q, asks q = true → Asks q)
    (h : b.weighedSlots env reward asks enough = some b') : R b b' := by
  refine hR.forSlots (fun {x b b' stop} hin h => ?_) h
  split at h
  · exact next_eq h ▸ hR.refl b
  · rename_i q hq
    split_ifs at h with hask
    · exact hR.weighed hin hq (hasks q hask) h
    · exact next_eq h ▸ hR.refl b

/-- The checks, but for that of a lost item. -/
theorem check {c : Check} (hremoved : ∀ entry count, c = .itemRemoved entry count → R b b')
    (h : b.check env reward c = some b') : R b b' := by
  cases c with
  | itemAdded entry count => exact hR.itemAddedQuestCheck h
  | itemRemoved entry count => exact hremoved entry count rfl
  | moneyChanged count =>
    rw [QuestBook.check, moneyChanged] at h
    exact hR.weighedSlots (fun q hq => .inr (.inl (by simpa using hq))) h
  | reputationChanged faction =>
    rw [QuestBook.check, reputationChanged] at h
    refine hR.weighedSlots (fun q hq => ?_) h
    have hid : q.repObjectiveFaction = faction.id := by simpa using hq
    exact .inr (.inr (.inl (hid ▸ faction.id_pos.ne')))
  | reputationChanged2 faction =>
    rw [QuestBook.check, reputationChanged2] at h
    refine hR.weighedSlots (fun q hq => ?_) h
    have hid : q.repObjectiveFaction2 = faction.id := by simpa using hq
    exact .inr (.inr (.inr (hid ▸ faction.id_pos.ne')))

end CheckRule

section Checks

variable (ht : env.template t.id = some t) (hsound : Sound env t)
  {reward : Quest → QuestBook → Option QuestBook}
  (hreward : ∀ {r b b'}, r.id ≠ t.id → reward r b = some b' → Calm env t b b')
include ht hsound

omit ht in
/-- A tracking quest has none of the objectives the checks look at. -/
theorem not_tracking {q : Quest} (hq : env.template x = some q)
    (h : Asks q) (hx : x = t.id) (ht : env.template t.id = some t) : t.tracking = false := by
  subst hx
  obtain rfl : q = t := some.inj (hq.symm.trans ht)
  by_contra htr
  obtain ⟨hd, hm, hf, hf'⟩ := hsound.tracking (by simpa using htr)
  rcases h with h | h | h | h
  · rw [hd] at h
    cases h
  · omega
  · exact h hf
  · exact h hf'

theorem calm_incompleteQuest {q : Quest} (hq : env.template x = some q) (hask : Asks q) :
    Calm env t b (b.incompleteQuest env x) :=
  .incompleteQuest ht fun hx => not_tracking hsound hq hask hx ht

include hreward

theorem calm_rule : CheckRule env reward (Calm env t) where
  refl := .refl
  trans := .trans
  count _ _ := .setData rfl rfl rfl
  complete _ hq hask := tryComplete_calm ht hsound hreward fun hx =>
    not_tracking hsound hq hask hx ht
  incomplete _ hq hask _ := calm_incompleteQuest ht hsound hq hask

theorem itemAddedQuestCheck_calm {entry count : ℕ}
    (h : b.itemAddedQuestCheck env reward entry count = some b') : Calm env t b b' :=
  (calm_rule ht hsound hreward).itemAddedQuestCheck h

/-- A check is calm. -/
theorem check_calm {c : Check} (h : b.check env reward c = some b') : Calm env t b b' := by
  have hR : CheckRule env reward (Calm env t) := calm_rule ht hsound hreward
  refine hR.check (fun entry count hc => ?_) h
  subst hc
  exact hR.itemRemovedQuestCheck (fun _ hq hask => calm_incompleteQuest ht hsound hq hask) h

theorem runEffects_calm : ∀ (es : List RaisedCheck) {b b' : QuestBook},
    runEffects env reward es b = some b' → Calm env t b b'
  | [], b, b', h => some.inj h ▸ .refl b
  | e :: es, b, b', h => by
    rw [runEffects] at h
    split at h
    · cases h
    · rename_i hrun
      exact Calm.trans (.outside e.outside)
        ((check_calm ht hsound hreward hrun).trans (runEffects_calm es h))

end Checks

/-! ## Accepting -/

section Accepting

variable {reward : Quest → QuestBook → Option QuestBook} {giverTimer : Option ℕ} {reachable : Bool}

/-- A request takes a quest that can be taken, or does nothing. -/
def MayTake (env : QuestEnv) (reward : Quest → QuestBook → Option QuestBook) (b b' : QuestBook) :
    Prop :=
  b' = b ∨ ∃ q giverTimer, env.template q.id = some q ∧ b.canTakeQuest env q = true ∧
    b.addAndComplete env reward q giverTimer = some b'

theorem mayTake_of {c : Quest → Bool} (x : ℕ) (giverTimer : Option ℕ)
    (hc : ∀ q, c q = true → b.canTakeQuest env q = true)
    (h : (match env.template x with
      | some q => if c q then b.addAndComplete env reward q giverTimer else some b
      | none => some b) = some b') : MayTake env reward b b' := by
  split at h
  · rename_i q hq
    obtain rfl := env.template_id hq
    split_ifs at h with hask
    · exact .inr ⟨q, giverTimer, hq, hc q hask, h⟩
    · exact .inl (some.inj h).symm
  · exact .inl (some.inj h).symm

theorem handleQuestgiverAcceptQuest_takes
    (h : b.handleQuestgiverAcceptQuest env reward x reachable giverTimer = some b') :
    MayTake env reward b b' :=
  mayTake_of (c := fun q => reachable && b.canTakeQuest env q && b.canAddQuest q) x giverTimer
    (by simp +contextual) h

theorem handleQuestgiverQueryQuest_takes
    (h : b.handleQuestgiverQueryQuest env reward x reachable = some b') :
    MayTake env reward b b' :=
  mayTake_of (c := fun q =>
    reachable && b.canTakeQuest env q && q.isAutoAccept env && b.canAddQuest q) x none
    (by simp +contextual) h

theorem autoAccept_takes (h : b.autoAccept env reward x reachable giverTimer = some b') :
    MayTake env reward b b' :=
  mayTake_of (c := fun q =>
    reachable && q.isAutoAccept env && b.canAddQuest q && b.canTakeQuest env q) x giverTimer
    (by simp) h

end Accepting

end QuestBook

end MistyWorld
