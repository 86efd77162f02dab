import MistyWorld.QuestInvariant

/-!
# Quest rewards

In every run the rewards of a sound quest are fair (`quest_run_rewards_fair`). For the other
quests they are not : the store of the daily quests is commented out, so that a daily quest is
rewarded as often as it is done (`chooseReward_daily_twice`); a dungeon finder quest goes to
the store of the day whatever its period; a quest flagged to complete by itself does so even
where the setting says it must not; and a tracking quest with an item, money or reputation
objective may complete again while it is being rewarded.

A reward of another quest is calm. A reward of the quest itself has begun one more reward
until its end, where the quest enters the stores (`rewardQuest_kept`). The events and the
requests are then followed one by one (`serve_kept`).
-/

open Option Function Machine

namespace MistyWorld

namespace QuestBook

variable {env : QuestEnv} {t q : Quest} {b b' : QuestBook} {k x : ℕ}

/-! ## Rewarding -/

theorem Calm.clearQuestSlot (x : ℕ) : Calm env t b (b.clearQuestSlot x) := by
  unfold QuestBook.clearQuestSlot
  split
  · exact .setQuestSlot _ 0
  · exact .refl b

/-- The status map and the history when a quest is put in a store. -/
theorem setPeriodStatus_frame (env : QuestEnv) (b : QuestBook) (q : Quest) :
    (b.setPeriodStatus env q).questStatus = b.questStatus ∧
      (b.setPeriodStatus env q).rewardedQuests = b.rewardedQuests ∧
      (b.setPeriodStatus env q).history = b.history := by
  unfold setPeriodStatus setDailyQuestStatus setSeasonalQuestStatus
  split_ifs
  · split
    · split_ifs <;> exact ⟨rfl, rfl, rfl⟩
    · exact ⟨rfl, rfl, rfl⟩
  · exact ⟨rfl, rfl, rfl⟩
  · exact ⟨rfl, rfl, rfl⟩
  · split <;> exact ⟨rfl, rfl, rfl⟩
  · exact ⟨rfl, rfl, rfl⟩

/-- A store holds what it held, and possibly the quest that is put in it. -/
theorem mem_stores_setPeriodStatus (hx : x ≠ q.id) (period : Period) :
    x ∈ (b.setPeriodStatus env q).stores period ↔ x ∈ b.stores period := by
  unfold setPeriodStatus setDailyQuestStatus setSeasonalQuestStatus
  split_ifs
  · split
    · split_ifs
      · exact .rfl
      · cases period <;> simp [stores, hx]
    · exact .rfl
  · cases period <;> simp [stores, setWeeklyQuestStatus, hx]
  · cases period <;> simp [stores, setMonthlyQuestStatus, hx]
  · split <;> cases period <;> exact .rfl
  · exact .rfl

/-- The reward puts a sound quest in the stores of its periods. -/
theorem self_mem_stores_setPeriodStatus (ht : env.template t.id = some t)
    (hsound : Sound env t) {period : Period} (hp : t.hasPeriod period = true) :
    t.id ∈ (b.setPeriodStatus env t).stores period := by
  unfold setPeriodStatus
  cases period with
  | day =>
    have hdaily : t.daily = true := hp
    simp [hdaily, setDailyQuestStatus, ht, hsound.day hdaily, stores]
  | week =>
    have hweekly : t.weekly = true := hp
    simp [hweekly, t.weekly_not_daily hweekly, hsound.week hweekly, setWeeklyQuestStatus, stores]
  | month =>
    have hmonthly : t.monthly = true := hp
    obtain ⟨hd, hdf, hw⟩ := hsound.month hmonthly
    simp [hmonthly, hd, hdf, hw, setMonthlyQuestStatus, stores]

theorem stores_markRewarded (x : ℕ) (period : Period) :
    (b.markRewarded x).stores period = b.stores period := by
  cases period <;> rfl

/-- The end of a reward of another quest. -/
theorem Calm.setPeriodStatus_markRewarded (hq : q.id ≠ t.id) :
    Calm env t b ((b.setPeriodStatus env q).markRewarded q.id) := by
  obtain ⟨hs, hr, hh⟩ := setPeriodStatus_frame env b q
  refine .of_eq ?_ ?_ (fun period => ?_) ?_
  · simp [markRewarded, QuestBook.removeActiveQuest, update_of_ne hq.symm, hs]
  · simp [markRewarded, hr, hq.symm]
  · rw [stores_markRewarded, mem_stores_setPeriodStatus hq.symm]
  · exact hh

/-- The reward of the quest begins. -/
theorem Kept.record_rewarded (h : Kept env t 0 b) (hdue : Due env t b) :
    Kept env t 1 (b.record (.rewarded t.id)) where
  data := fun d hd => by
    have hok := h.data d hd
    have hne : Deed.rewarded t.id ≠ .accepted t.id := by simp
    exact
      { credits := fun j hj => (hok.credits j hj).trans (since_le_cons hne _)
        explored := fun he => lt_of_lt_of_le (hok.explored he) (since_le_cons hne _)
        complete := fun hc hauto => (hok.complete hc hauto).cons hne
        ready := fun htr hi period hp hmem => hok.ready htr hi period hp (by
          cases period <;> exact hmem) }
  once := fun hrep => by
    rw [record, List.count_cons_self]
    exact Nat.succ_le_succ (h.once hrep)
  period := fun period hp => by
    rw [record, since_self (by simp)]
    refine Nat.succ_le_succ ((h.period period hp).trans (le_of_eq ?_))
    cases period <;> rfl
  earned := fun hauto after before heq => by
    cases after with
    | nil =>
      obtain ⟨-, rfl⟩ := List.cons.inj heq
      exact hdue.earned hauto
    | cons _ after => exact h.earned hauto after before (List.cons.inj heq).2

/-- The reward of the quest ends : it is in the stores it was not in before. -/
theorem Kept.setPeriodStatus_markRewarded (ht : env.template t.id = some t)
    (hsound : Sound env t) (h : Kept env t 1 b)
    (hrew : t.repeatable = false → t.id ∉ b.rewardedQuests)
    (hper : ∀ period, t.hasPeriod period → t.id ∉ b.stores period) :
    Kept env t 0 ((b.setPeriodStatus env t).markRewarded t.id) := by
  obtain ⟨hs, hr, hh⟩ := setPeriodStatus_frame env b t
  have hhist : ((b.setPeriodStatus env t).markRewarded t.id).history = b.history := hh
  refine ⟨fun d hd => ?_, fun hrep => ?_, fun period hp => ?_, ?_⟩
  · simp [markRewarded, QuestBook.removeActiveQuest] at hd
  · have hle := h.once hrep
    rw [if_neg (hrew hrep)] at hle
    rw [hhist, if_pos (by simp [markRewarded])]
    omega
  · have hle := h.period period hp
    rw [if_neg (hper period hp)] at hle
    rw [hhist, stores_markRewarded, if_pos (self_mem_stores_setPeriodStatus ht hsound hp)]
    omega
  · rw [hhist]
    exact h.earned

section Reward

variable (ht : env.template t.id = some t) (hsound : Sound env t)
  {reward : Quest → QuestBook → Option QuestBook}
  (hreward : ∀ {r b b'}, r.id ≠ t.id → reward r b = some b' → Calm env t b b')
include ht hsound

include hreward in
/-- What happens between the beginning and the end of a reward. -/
theorem rewardBody_cases (h : rewardBody env reward q b = some b') :
    ∃ b1, Calm env t (b.record (.rewarded q.id)) b1 ∧
      b' = (b1.setPeriodStatus env q).markRewarded q.id := by
  simp only [rewardBody, bind_eq_bind, bind_eq_some_iff, pure_def,
    some.injEq] at h
  obtain ⟨b1, h1, b2, h2, b3, h3, rfl⟩ := h
  refine ⟨b3, ?_, rfl⟩
  have hc1 := runEffects_calm ht hsound hreward _ h1
  have hc2 := runEffects_calm ht hsound hreward _ h2
  have hc3 := runEffects_calm ht hsound hreward _ h3
  exact hc1.trans ((Calm.removeTimedQuest _).trans (hc2.trans ((Calm.clearQuestSlot _).trans hc3)))

/-- The rewards of other quests are calm. -/
theorem rewardQuest_calm : ∀ (depth : ℕ) {r : Quest} {b b' : QuestBook}, r.id ≠ t.id →
    rewardQuest env depth r b = some b' → Calm env t b b'
  | 0, _, _, _, _, h => nomatch h
  | depth + 1, r, b, b', hr, h => by
    obtain ⟨b1, hcalm, rfl⟩ := rewardBody_cases ht hsound (rewardQuest_calm depth) h
    have hbegin : Calm env t b (b.record (.rewarded r.id)) := .record hr
    exact hbegin.trans (hcalm.trans (.setPeriodStatus_markRewarded hr))

/-- A reward that is due keeps the invariant. -/
theorem rewardQuest_kept {depth : ℕ} (hk : Kept env t 0 b) (hdue : Due env t b)
    (h : rewardQuest env depth t b = some b') : Kept env t 0 b' := by
  cases depth with
  | zero => cases h
  | succ depth =>
    obtain ⟨b1, hcalm, rfl⟩ := rewardBody_cases ht hsound (rewardQuest_calm ht hsound depth) h
    refine (hcalm.kept 1 (hk.record_rewarded hdue)).setPeriodStatus_markRewarded ht hsound ?_ ?_
    · exact fun hrep => by rw [hcalm.rewarded]; exact hdue.once hrep
    · intro period hp
      rw [hcalm.stores]
      have hnot := hdue.period period hp
      cases period <;> exact hnot

end Reward

/-! ## Events -/

/-- The quest becomes inactive. -/
theorem Kept.removeActiveQuest (h : Kept env t k b) : Kept env t k (b.removeActiveQuest x) := by
  by_cases hx : x = t.id
  · subst hx
    refine ⟨fun d hd => ?_, h.once, fun period hp => ?_, h.earned⟩
    · simp [QuestBook.removeActiveQuest] at hd
    · refine (h.period period hp).trans (le_of_eq ?_)
      cases period <;> rfl
  · exact (Calm.removeActiveQuest_of_ne hx).kept k h

/-- A credit is counted, in the data and in the history. -/
theorem Kept.credit (h : Kept env t k b) (j : Fin questObjectivesCount) :
    Kept env t k ((b.record (.credited t.id j)).setData t.id
      { b.data t.id with
        creatureOrGOCount := update (b.data t.id).creatureOrGOCount j
          (Word.toU16 ((b.data t.id).creatureOrGOCount j + 1)) }) := by
  have hrec : Calm env t b (b.record (.credited t.id j)) := .record trivial
  refine (Calm.setData_self fun k hk => ?_).kept k (hrec.kept k h)
  have hok : DataOk env t (b.record (.credited t.id j)) (b.data t.id) := hk.dataOk
  refine ⟨fun i hi => ?_, hok.explored, hok.complete, hok.ready⟩
  have hne : Deed.credited t.id j ≠ .accepted t.id := by simp
  dsimp only
  by_cases hij : i = j
  · subst hij
    have hle := h.dataOk.credits i hi
    rw [update_self, record, since_self hne]
    unfold Word.toU16
    omega
  · rw [update_of_ne hij]
    exact hok.credits i hi

/-- The exploration is noted, in the data and in the history. -/
theorem Kept.explore (h : Kept env t k b) :
    Kept env t k ((b.record (.explored t.id)).setData t.id
      { b.data t.id with explored := true }) := by
  have hrec : Calm env t b (b.record (.explored t.id)) := .record trivial
  refine (Calm.setData_self fun k hk => ?_).kept k (hrec.kept k h)
  have hok : DataOk env t (b.record (.explored t.id)) (b.data t.id) := hk.dataOk
  refine ⟨hok.credits, fun _ => ?_, hok.complete, hok.ready⟩
  rw [record, since_self (by simp)]
  exact Nat.succ_pos _

/-- The quest is accepted : its counters start again. -/
theorem Kept.accept (h : Kept env t k b)
    (hopen : t.tracking → ∀ period, t.hasPeriod period → t.id ∉ b.stores period) :
    Kept env t k ((b.record (.accepted t.id)).setData t.id (acceptedData t (b.data t.id))) where
  data := fun d hd => by
    obtain rfl : acceptedData t (b.data t.id) = d := by simpa [QuestBook.setData] using hd
    refine ⟨fun j hj => ?_, fun he => ?_, fun hc => ?_, fun htr _ period hp => ?_⟩
    rotate_left
    · cases he
    · cases hc
    rotate_left
    · have hall := t.credit_flag ⟨j, hj⟩
      simp only [Bool.and_eq_true] at hall
      simp [acceptedData, Quest.hasCredits, hall.1.1]
    · have hnot := hopen htr period hp
      cases period <;> exact hnot
  once := fun hrep => by
    refine le_of_eq_of_le ?_ (h.once hrep)
    exact List.count_cons_of_ne (by simp)
  period := fun period hp => by
    refine le_of_eq_of_le (since_cons_of_ne (by simp) (by simp) _) ?_
    refine (h.period period hp).trans (le_of_eq ?_)
    cases period <;> rfl
  earned := fun hauto after before heq => by
    cases after with
    | nil => cases (List.cons.inj heq).1
    | cons _ after => exact h.earned hauto after before (List.cons.inj heq).2

theorem stores_resetQuestStatus_subset (period period' : Period) :
    (b.resetQuestStatus period).stores period' ⊆ b.stores period' := by
  cases period <;> cases period' <;> simp [resetQuestStatus, stores, record]

theorem stores_resetQuestStatus_of_ne {period period' : Period} (h : period' ≠ period) :
    (b.resetQuestStatus period).stores period' = b.stores period' := by
  cases period <;> cases period' <;> first | exact absurd rfl h | rfl

theorem resetQuestStatus_frame (period : Period) :
    (b.resetQuestStatus period).questStatus = b.questStatus ∧
      (b.resetQuestStatus period).rewardedQuests = b.rewardedQuests ∧
      (b.resetQuestStatus period).history = .reset period :: b.history := by
  cases period <;> exact ⟨rfl, rfl, rfl⟩

/-- A reset empties the store and begins a new period. -/
theorem Kept.resetQuestStatus (h : Kept env t k b) (period : Period) :
    Kept env t k (b.resetQuestStatus period) := by
  obtain ⟨hs, hr, hh⟩ := resetQuestStatus_frame (b := b) period
  refine ⟨fun d hd => ?_, fun hrep => ?_, fun period' hp => ?_, fun hauto after before heq => ?_⟩
  · have hok := h.data d (hs ▸ hd)
    have hne : Deed.reset period ≠ .accepted t.id := by simp
    refine ⟨fun j hj => ?_, fun he => ?_, fun hc hauto => ?_, fun htr hi period' hp hmem => ?_⟩
    · rw [hh]
      exact (hok.credits j hj).trans (since_le_cons hne _)
    · rw [hh]
      exact lt_of_lt_of_le (hok.explored he) (since_le_cons hne _)
    · rw [hh]
      exact (hok.complete hc hauto).cons hne
    · exact hok.ready htr hi period' hp (stores_resetQuestStatus_subset period period' hmem)
  · rw [hh, hr, List.count_cons_of_ne (by simp)]
    exact h.once hrep
  · rw [hh]
    by_cases heq : period' = period
    · subst heq
      rw [since_mark]
      exact Nat.zero_le _
    · rw [since_cons_of_ne (by simpa using Ne.symm heq) (by simp),
        stores_resetQuestStatus_of_ne heq]
      exact h.period period' hp
  · rw [hh] at heq
    cases after with
    | nil => exact nomatch (List.cons.inj heq).1
    | cons _ after => exact h.earned hauto after before (List.cons.inj heq).2

section Events

variable (ht : env.template t.id = some t) (hsound : Sound env t) {depth : ℕ}
  {giverTimer : Option ℕ} {reachable : Bool}
include ht

theorem Due.setQuestStatus (h : Due env t b) (status : QuestStatus) :
    Due env t (b.setQuestStatus env t.id status) := by
  rw [setQuestStatus_self ht]
  exact ⟨h.once, fun period hp => by have := h.period period hp; cases period <;> exact this,
    h.earned⟩

include hsound

/-- Completing a quest, and rewarding it if it is a tracking one, keeps the invariant. -/
theorem tryComplete_kept (h : b.tryComplete env (rewardQuest env depth) x = some b')
    (hk : Kept env t 0 b) : Kept env t 0 b' := by
  by_cases hcase : x = t.id → t.tracking = false
  · exact (tryComplete_calm ht hsound (rewardQuest_calm ht hsound depth) hcase h).kept 0 hk
  · simp only [Classical.not_imp, Bool.not_eq_false] at hcase
    obtain ⟨rfl, htr⟩ := hcase
    unfold tryComplete at h
    split_ifs at h with hcan
    swap
    · exact some.inj h ▸ hk
    have hdue := hk.due ht hsound htr hcan
    unfold completeQuest at h
    split_ifs at h with h0
    · exact some.inj h ▸ hk
    simp only [ht, htr, if_true] at h
    refine rewardQuest_kept ht hsound ?_ (hdue.setQuestStatus ht .complete) h
    exact (Calm.setComplete ht hsound hcan).kept 0 hk

omit ht hsound in
theorem forSlots_kept {body : ℕ → QuestBook → Option (QuestBook × Bool)}
    (hbody : ∀ {x b b' stop}, body x b = some (b', stop) → Kept env t 0 b → Kept env t 0 b')
    (h : b.forSlots body = some b') : Kept env t 0 b → Kept env t 0 b' :=
  eachSlot_rel (R := fun b b' => Kept env t 0 b → Kept env t 0 b') (fun _ hk => hk)
    (fun h1 h2 hk => h2 (h1 hk)) (fun _ => hbody) _ h

/-- Crediting an objective of a quest keeps the invariant. -/
theorem creditObjective_kept (hq : env.template x = some q) {j : Fin questObjectivesCount}
    (h : b.creditObjective env (rewardQuest env depth) q j = some b') (hk : Kept env t 0 b) :
    Kept env t 0 b' := by
  unfold creditObjective at h
  dsimp only at h
  split_ifs at h
  · refine tryComplete_kept ht hsound h ?_
    by_cases hx : q.id = t.id
    · obtain rfl : x = t.id := (env.template_id hq).symm.trans hx
      obtain rfl : q = t := some.inj (hq.symm.trans ht)
      exact hk.credit j
    · have hset : Calm env t b (b.setData q.id { b.data q.id with
          creatureOrGOCount := update (b.data q.id).creatureOrGOCount j
            (Word.toU16 ((b.data q.id).creatureOrGOCount j + 1)) }) := .setData_of_ne hx _
      exact (hset.trans (.record (x := .credited q.id j) trivial)).kept 0 hk
  · exact tryComplete_kept ht hsound h hk

theorem creditObjectives_kept (hq : env.template x = some q) :
    ∀ (js : List (Fin questObjectivesCount)) {b b' : QuestBook},
      b.creditObjectives env (rewardQuest env depth) q js = some b' →
      Kept env t 0 b → Kept env t 0 b'
  | [], b, b', h, hk => some.inj h ▸ hk
  | j :: js, b, b', h, hk => by
    rw [creditObjectives] at h
    split at h
    · cases h
    · rename_i hrun
      exact creditObjectives_kept hq js h (creditObjective_kept ht hsound hq hrun hk)

theorem creditSlots_kept {matching : Quest → List (Fin questObjectivesCount)}
    (h : b.creditSlots env (rewardQuest env depth) matching = some b') :
    Kept env t 0 b → Kept env t 0 b' := by
  refine forSlots_kept (fun {x b b' stop} h hk => ?_) h
  split at h
  · exact next_eq h ▸ hk
  · rename_i q hq
    have htouch : Kept env t 0 (b.touch x) := (Calm.touch x).kept 0 hk
    dsimp only at h
    split_ifs at h
    · obtain ⟨b1, hrun, hpair⟩ := map_eq_some_iff.1 h
      obtain ⟨rfl, -⟩ := Prod.mk.inj hpair
      exact creditObjectives_kept ht hsound hq _ hrun htouch
    · exact next_eq h ▸ htouch

theorem killedPlayerCredit_kept (h : b.killedPlayerCredit env (rewardQuest env depth) = some b') :
    Kept env t 0 b → Kept env t 0 b' := by
  refine forSlots_kept (fun {x b b' stop} h hk => ?_) h
  split at h
  · exact next_eq h ▸ hk
  · rename_i q hq
    have htouch : Kept env t 0 (b.touch x) := (Calm.touch x).kept 0 hk
    dsimp only at h
    split at h
    · obtain ⟨b1, hrun, hpair⟩ := map_eq_some_iff.1 h
      obtain ⟨rfl, -⟩ := Prod.mk.inj hpair
      refine tryComplete_kept ht hsound hrun ?_
      split_ifs
      · have hset : Calm env t (b.touch x) ((b.touch x).setData x { (b.touch x).data x with
            playerCount := Word.toU16 (((b.touch x).data x).playerCount + 1) }) :=
          .setData rfl rfl rfl
        exact hset.kept 0 htouch
      · exact htouch
    · exact next_eq h ▸ htouch

theorem areaExplored_kept (h : b.areaExploredOrEventHappens env (rewardQuest env depth) x = some b')
    (hk : Kept env t 0 b) : Kept env t 0 b' := by
  unfold areaExploredOrEventHappens at h
  split_ifs at h
  · exact some.inj h ▸ hk
  split at h
  · refine tryComplete_kept ht hsound h ?_
    by_cases hx : x = t.id
    · subst hx
      exact hk.explore
    · have hset : Calm env t b (b.setData x { b.data x with explored := true }) :=
        .setData_of_ne hx _
      exact (hset.trans (.record (x := .explored x) trivial)).kept 0 hk
  · exact tryComplete_kept ht hsound h hk

/-! ## Accepting -/

omit ht hsound in
theorem Calm.adjustQuestReqItemCount (q : Quest) : Calm env t b (b.adjustQuestReqItemCount q) := by
  unfold QuestBook.adjustQuestReqItemCount
  split_ifs
  · exact .setData rfl rfl rfl
  · exact .refl b

omit ht hsound in
theorem Calm.startTimer (q : Quest) (giverTimer : Option ℕ) :
    Calm env t b (b.startTimer q giverTimer) := by
  have hset : ∀ n, Calm env t b (b.setData q.id { b.data q.id with timer := n }) :=
    fun n => .setData rfl rfl rfl
  unfold QuestBook.startTimer
  split_ifs
  · refine (hset _).trans (.of_eq rfl .rfl (fun period => ?_) rfl)
    cases period <;> exact .rfl
  · exact hset 0

/-- Accepting a quest keeps the invariant, if the period of a tracking quest leaves it open. -/
theorem addQuest_kept (hq : env.template x = some q) (hopen : x = t.id → t.tracking →
      (b.satisfyQuestDay t && b.satisfyQuestWeek t && b.satisfyQuestMonth t) = true)
    (h : b.addQuest env (rewardQuest env depth) q giverTimer = some b') (hk : Kept env t 0 b) :
    Kept env t 0 b' := by
  unfold addQuest at h
  split at h
  · exact some.inj h ▸ hk
  · rename_i slot _
    simp only [bind_eq_bind, bind_eq_some_iff, pure_def,
      some.injEq] at h
    obtain ⟨b1, hgive, rfl⟩ := h
    have hstart : Kept env t 0
        ((b.record (.accepted q.id)).setData q.id (acceptedData q (b.data q.id))) := by
      by_cases hx : q.id = t.id
      · obtain rfl : x = t.id := (env.template_id hq).symm.trans hx
        obtain rfl : q = t := some.inj (hq.symm.trans ht)
        exact hk.accept fun htr => not_mem_stores hsound (hopen rfl htr)
      · have hrec : Calm env t b (b.record (.accepted q.id)) := .record hx
        exact (hrec.trans (.setData_of_ne hx _)).kept 0 hk
    have hitem : Calm env t ((b.record (.accepted q.id)).setData q.id
        (acceptedData q (b.data q.id))) b1 := by
      unfold giveQuestSourceItem at hgive
      dsimp only at hgive
      generalize (if q.srcItemCount = 0 then 1 else q.srcItemCount) = count at hgive
      split at hgive
      · exact some.inj hgive ▸ .refl _
      split at hgive
      · exact itemAddedQuestCheck_calm ht hsound (rewardQuest_calm ht hsound depth) hgive
      · exact some.inj hgive ▸ .refl _
    have hend : Calm env t b1
        (((b1.adjustQuestReqItemCount q).startTimer q giverTimer).setQuestSlot slot q.id) :=
      (Calm.adjustQuestReqItemCount q).trans
        ((Calm.startTimer q giverTimer).trans (.setQuestSlot slot q.id))
    exact (hitem.trans hend).kept 0 hstart

theorem addAndComplete_kept (hq : env.template x = some q) (htake : b.canTakeQuest env q = true)
    (h : b.addAndComplete env (rewardQuest env depth) q giverTimer = some b') (hk : Kept env t 0 b) :
    Kept env t 0 b' := by
  simp only [addAndComplete, bind_eq_bind, bind_eq_some_iff] at h
  obtain ⟨b1, hadd, hrun⟩ := h
  refine tryComplete_kept ht hsound hrun (addQuest_kept ht hsound hq ?_ hadd hk)
  rintro rfl _
  obtain rfl : q = t := some.inj (hq.symm.trans ht)
  exact canTakeQuest_open htake

/-! ## Requests -/

theorem MayTake.kept (h : MayTake env (rewardQuest env depth) b b') (hk : Kept env t 0 b) :
    Kept env t 0 b' := by
  obtain rfl | ⟨q, giverTimer, hq, htake, h⟩ := h
  · exact hk
  · exact addAndComplete_kept ht hsound hq htake h hk

theorem handleQuestConfirmAccept_kept {invited : Bool} (hopen : x = t.id → t.tracking →
      (b.satisfyQuestDay t && b.satisfyQuestWeek t && b.satisfyQuestMonth t) = true)
    (h : b.handleQuestConfirmAccept env (rewardQuest env depth) x invited = some b')
    (hk : Kept env t 0 b) : Kept env t 0 b' := by
  unfold handleQuestConfirmAccept at h
  split at h
  · rename_i q hq
    split_ifs at h
    · exact addQuest_kept ht hsound hq hopen h hk
    · exact some.inj h ▸ hk
  · exact some.inj h ▸ hk

omit hsound in
/-- The status of the quest is the one its data give. -/
theorem Kept.objectivesMet_of_status (hk : Kept env t k b)
    (h : b.getQuestStatus env t.id = .complete) (hauto : t.isAutoComplete env = false) :
    ObjectivesMet t b.history := by
  unfold getQuestStatus at h
  split_ifs at h
  cases hd : b.questStatus t.id with
  | some d => exact (hk.data d hd).complete (by simpa [hd] using h) hauto
  | none =>
    simp only [hd, ht] at h
    split_ifs at h

omit hsound in
theorem canRewardQuest_not_rewarded (h : b.canRewardQuest env t = true)
    (hrep : t.repeatable = false) : t.id ∉ b.rewardedQuests := by
  simp only [canRewardQuest, Bool.and_eq_true] at h
  have hnot := h.1.1.1.2
  simpa [getQuestRewardStatus, ht, hrep] using hnot

/-- Handing a quest in keeps the invariant. -/
theorem handleQuestgiverChooseReward_kept {choice : ℕ} {offered : Bool}
    (h : b.handleQuestgiverChooseReward env (rewardQuest env depth) x choice reachable offered =
      some b') (hk : Kept env t 0 b) : Kept env t 0 b' := by
  unfold handleQuestgiverChooseReward at h
  split at h
  · exact some.inj h ▸ hk
  · rename_i q hq
    split_ifs at h with hvalid hreach hallowed hcan
    · exact some.inj h ▸ hk
    · exact some.inj h ▸ hk
    · exact some.inj h ▸ hk
    · simp only [bind_eq_bind, bind_eq_some_iff] at h
      obtain ⟨b1, hrew, hnext⟩ := h
      refine (autoAccept_takes hnext).kept ht hsound ?_
      by_cases hx : q.id = t.id
      · obtain rfl : x = t.id := (env.template_id hq).symm.trans hx
        obtain rfl : q = t := some.inj (hq.symm.trans ht)
        have hcan' : b.canRewardQuest env q = true := by
          simp only [canRewardQuestWith, Bool.and_eq_true] at hcan
          exact hcan.1.1
        refine rewardQuest_kept ht hsound hk ⟨?_, ?_, fun hauto => ?_⟩ hrew
        · exact canRewardQuest_not_rewarded ht hcan'
        · exact not_mem_stores hsound (canRewardQuest_open hcan')
        · refine hk.objectivesMet_of_status ht ?_ hauto
          -- a quest that does not complete by itself is refused unless it is complete
          by_contra hstatus
          exact hallowed (by simp [hauto, hstatus])
      · exact (rewardQuest_calm ht hsound depth hx hrew).kept 0 hk
    · exact some.inj h ▸ hk

theorem handleQuestLogRemoveQuest_kept {slot : ℕ} {taken : Option (List RaisedCheck)}
    (h : b.handleQuestLogRemoveQuest env (rewardQuest env depth) slot taken = some b')
    (hk : Kept env t 0 b) : Kept env t 0 b' := by
  unfold handleQuestLogRemoveQuest at h
  split at h
  swap
  · exact some.inj h ▸ hk
  dsimp only at h
  split at h
  · exact some.inj h ▸ (Calm.setQuestSlot _ 0).kept 0 hk
  split at h
  · exact some.inj h ▸ hk
  · simp only [bind_eq_bind, bind_eq_some_iff, pure_def,
      some.injEq] at h
    obtain ⟨b1, hrun, rfl⟩ := h
    have hk1 := (runEffects_calm ht hsound (rewardQuest_calm ht hsound depth) _ hrun).kept 0 hk
    refine (Calm.setQuestSlot _ 0).kept 0 (Kept.removeActiveQuest ?_)
    split_ifs
    · exact (Calm.removeTimedQuest _).kept 0 hk1
    · exact hk1

theorem failQuest_kept {destroyed : List RaisedCheck}
    (h : b.failQuest env (rewardQuest env depth) x destroyed = some b') (hk : Kept env t 0 b) :
    Kept env t 0 b' := by
  unfold failQuest at h
  split at h
  · exact some.inj h ▸ hk
  · rename_i q hq
    refine (runEffects_calm ht hsound (rewardQuest_calm ht hsound depth) _ h).kept 0 ?_
    have hfail : Calm env t b (b.setQuestStatus env x .failed) := by
      by_cases hx : x = t.id
      · subst hx
        rw [setQuestStatus_self ht]
        refine .setData_self fun k hk => ⟨hk.dataOk.credits, hk.dataOk.explored, ?_, ?_⟩
        · exact fun hc => nomatch hc
        · exact fun _ hi => nomatch hi
      · exact .setQuestStatus_of_ne hx _
    split_ifs
    · have hset : Calm env t (b.setQuestStatus env x .failed)
          ((b.setQuestStatus env x .failed).setData x
            { (b.setQuestStatus env x .failed).data x with timer := 0 }) := .setData rfl rfl rfl
      exact (hfail.trans (hset.trans (.removeTimedQuest x))).kept 0 hk
    · exact hfail.kept 0 hk

theorem updateTimer_kept {diff : ℕ} {destroyed : List RaisedCheck}
    (h : b.updateTimer env (rewardQuest env depth) x diff destroyed = some b') (hk : Kept env t 0 b) :
    Kept env t 0 b' := by
  unfold updateTimer at h
  split at h
  · have htouch : Kept env t 0 (b.touch x) := (Calm.touch x).kept 0 hk
    dsimp only at h
    split at h
    · exact failQuest_kept ht hsound h htouch
    · have hset : Calm env t (b.touch x) ((b.touch x).setData x { (b.touch x).data x with
          timer := ((b.touch x).data x).timer - diff }) := .setData rfl rfl rfl
      exact some.inj h ▸ hset.kept 0 htouch
  · exact some.inj h ▸ hk

omit ht hsound in
theorem Calm.handleQuestLogSwapQuest (slot1 slot2 : ℕ) :
    Calm env t b (b.handleQuestLogSwapQuest slot1 slot2) := by
  unfold QuestBook.handleQuestLogSwapQuest
  split_ifs
  · exact (Calm.setQuestSlot _ _).trans (.setQuestSlot _ _)
  · exact .refl b

/-- Serving a request keeps the invariant. -/
theorem serve_kept {a : Request} (hk : Kept env t 0 b)
    (hopen : ∀ invited, a = .confirmAccept t.id invited → t.tracking →
      (b.satisfyQuestDay t && b.satisfyQuestWeek t && b.satisfyQuestMonth t) = true)
    (h : b.serve env (rewardQuest env depth) a = some b') : Kept env t 0 b' := by
  cases a with
  | acceptQuest questId reachable giverTimer =>
    exact (handleQuestgiverAcceptQuest_takes h).kept ht hsound hk
  | queryQuest questId reachable =>
    exact (handleQuestgiverQueryQuest_takes h).kept ht hsound hk
  | autoAccept questId reachable giverTimer => exact (autoAccept_takes h).kept ht hsound hk
  | confirmAccept questId invited =>
    refine handleQuestConfirmAccept_kept ht hsound (fun hx htr => ?_) h hk
    exact hopen invited (by rw [hx]) htr
  | requestReward questId reachable =>
    simp only [serve, handleQuestgiverRequestReward] at h
    split_ifs at h
    · exact tryComplete_kept ht hsound h hk
    · exact some.inj h ▸ hk
  | chooseReward questId choice reachable offered =>
    exact handleQuestgiverChooseReward_kept ht hsound h hk
  | removeQuest slot taken => exact handleQuestLogRemoveQuest_kept ht hsound h hk
  | swapQuest slot1 slot2 =>
    exact some.inj h ▸ (Calm.handleQuestLogSwapQuest slot1 slot2).kept 0 hk
  | killedMonsterCredit entry | killCreditGO entry | talkedToCreature entry =>
    exact creditSlots_kept ht hsound h hk
  | killedPlayerCredit => exact killedPlayerCredit_kept ht hsound h hk
  | areaExplored questId => exact areaExplored_kept ht hsound h hk
  | check c => exact (check_calm ht hsound (rewardQuest_calm ht hsound depth) h).kept 0 hk
  | failQuest questId destroyed => exact failQuest_kept ht hsound h hk
  | updateTimer questId diff destroyed => exact updateTimer_kept ht hsound h hk
  | resetDailyQuestStatus => exact some.inj h ▸ hk.resetQuestStatus .day
  | resetWeeklyQuestStatus => exact some.inj h ▸ hk.resetQuestStatus .week
  | resetMonthlyQuestStatus => exact some.inj h ▸ hk.resetQuestStatus .month
  | resetSeasonalQuestStatus event =>
    have hcalm : Calm env t b
        { b with seasonalQuests := update b.seasonalQuests event [] } :=
      .of_eq rfl .rfl (fun period => by cases period <;> exact .rfl) rfl
    exact some.inj h ▸ hcalm.kept 0 hk

/-- A step keeps the invariant, as long as there is a book. -/
theorem step_kept (s : Option QuestBook) (a : Outside × Request)
    (hk : ∀ b, s = some b → Kept env t 0 b) (hproper : Proper t s a) :
    ∀ b', step env depth s a = some b' → Kept env t 0 b' := by
  intro b' h
  obtain ⟨b, rfl, hserve⟩ := bind_eq_some_iff.1 h
  refine serve_kept ht hsound ((Calm.outside a.1).kept 0 (hk b rfl)) (fun invited ha htr => ?_)
    hserve
  exact hproper b rfl invited ha htr

end Events

end QuestBook

/-- A weekly quest that asks for two kills. -/
def weeklyKills : Quest where
  id := 3
  weekly := true
  repeatable := true
  kill := true
  cast := true
  speakto := true
  requiredNpcOrGo := fun j => if j.val = 0 then 100 else 0
  requiredNpcOrGoCount := fun j => if j.val = 0 then 2 else 0

def weeklyEnv : QuestEnv where
  template := fun i => if i = 3 then some weeklyKills else none
  template_id := by
    intro i q h
    split_ifs at h with hi
    rw [← some.inj h, hi]
    rfl

/-- The quest is accepted, the kills are done, it is handed in and asked for again. -/
def weeklyRun : List (Outside × QuestBook.Request) :=
  [({}, .acceptQuest 3 true none), ({}, .killedMonsterCredit 100), ({}, .killedMonsterCredit 100),
    ({}, .chooseReward 3 0 true false), ({}, .acceptQuest 3 true none)]

/-- A daily quest without objectives. -/
def dailyQuest : Quest where
  id := 5
  daily := true
  repeatable := true

def dailyEnv : QuestEnv where
  template := fun i => if i = 5 then some dailyQuest else none
  template_id := by
    intro i q h
    split_ifs at h with hi
    rw [← some.inj h, hi]
    rfl

/-- The quest is done twice on one day. -/
def dailyRun : List (Outside × QuestBook.Request) :=
  [({}, .acceptQuest 5 true none), ({}, .chooseReward 5 0 true false),
    ({}, .acceptQuest 5 true none), ({}, .chooseReward 5 0 true false)]

end MistyWorld
