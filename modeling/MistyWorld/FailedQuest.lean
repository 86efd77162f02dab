import MistyWorld.QuestInvariant

/-!
# Failed quests

`Player::FailQuest` marks a quest failed and then destroys its items. Every function that an
objective event, a gain of items, or a change of money or reputation calls leaves a failed quest
alone. `Player::ItemRemovedQuestCheck` does not : it makes incomplete the first quest of the log to
which items of the lost entry are delivered, whatever its status (`itemRemovedQuestCheck_eq`).

A loss spares the quest if another quest comes first or if the counter is high enough (`Spared`).
The functions with the suffix `Sparing` are those of the server with a test before each loss : they
give `none` where a loss does not spare the quest. A run whose steps they follow keeps the quest
failed (`failedQuest_stays`).
-/

open Option Word Machine

namespace MistyWorld

namespace QuestBook

/-! ## Losses -/

section Losses

variable (env : QuestEnv)

/-- The quest at which the loop of `ItemRemovedQuestCheck` returns, with its objective. -/
def lossTarget (entry : ℕ) (b : QuestBook) : List (Fin maxQuestLogSize) →
    Option (Quest × Fin questItemObjectivesCount)
  | [] => none
  | i :: is =>
    if b.slots i = 0 then lossTarget entry b is
    else
      match env.template (b.slots i) with
      | none => lossTarget entry b is
      | some t =>
        if !t.deliver then lossTarget entry b is
        else
          match (List.finRange questItemObjectivesCount).find? (t.requiredItemId · = entry) with
          | none => lossTarget entry b is
          | some j => some (t, j)

/-- What `ItemRemovedQuestCheck` does with the quest at which it returns. -/
def lose (entry count : ℕ) (t : Quest) (j : Fin questItemObjectivesCount) (b : QuestBook) :
    QuestBook :=
  let b := b.touch t.id
  let d := b.data t.id
  let cur := if d.status ≠ .complete then d.itemCount j
    else toU16 (b.outside.itemCountWithBank entry)
  if cur < toU32 (t.requiredItemCount j + count) then
    let n := removedItemCount cur (t.requiredItemCount j) count
    (b.setData t.id { d with itemCount := Function.update d.itemCount j n }).incompleteQuest env
      t.id
  else b

/-- A loss of `count` units of the entry leaves the quest, which is not complete, as it is. -/
def Spared (q entry count : ℕ) (b : QuestBook) : Prop :=
  ∀ t ∈ b.lossTarget env entry (List.finRange maxQuestLogSize), t.1.id = q →
    toU32 (t.1.requiredItemCount t.2 + count) ≤ (b.data q).itemCount t.2

instance (q entry count : ℕ) (b : QuestBook) : Decidable (b.Spared env q entry count) :=
  inferInstanceAs (Decidable (∀ t ∈ b.lossTarget env entry (List.finRange maxQuestLogSize), _))

/-- The check is no loss, or one that leaves the quest as it is. -/
def Spares (q : ℕ) (b : QuestBook) : Check → Bool
  | .itemRemoved entry count => b.Spared env q entry count
  | _ => true

variable (q : ℕ) (reward : Quest → QuestBook → Option QuestBook)

/-- `check`, unless it is a loss that does not spare the quest. -/
def checkSparing (b : QuestBook) (c : Check) : Option QuestBook :=
  if b.Spares env q c then b.check env reward c else none

def runEffectsSparing : List RaisedCheck → QuestBook → Option QuestBook
  | [], b => some b
  | e :: es, b =>
    match { b with outside := e.outside }.checkSparing env q reward e.check with
    | none => none
    | some b' => runEffectsSparing es b'

def rewardBodySparing (r : Quest) (b : QuestBook) : Option QuestBook := do
  let effects := env.raised b.rewards
  let b := b.record (.rewarded r.id)
  let b ← runEffectsSparing env q reward effects.taken b
  let b := b.removeTimedQuest r.id
  let b ← runEffectsSparing env q reward effects.given b
  let b := b.clearQuestSlot r.id
  let b ← runEffectsSparing env q reward effects.paid b
  return (b.setPeriodStatus env r).markRewarded r.id

def rewardQuestSparing : ℕ → Quest → QuestBook → Option QuestBook
  | 0 => fun _ _ => none
  | depth + 1 => rewardBodySparing env q (rewardQuestSparing depth)

/-- `failQuest` without the destruction of items, which then follows. -/
def failQuestSparing (questId : ℕ) (destroyed : List RaisedCheck) (b : QuestBook) :
    Option QuestBook :=
  match env.template questId with
  | none => some b
  | some _ => (b.failQuest env reward questId []).bind (runEffectsSparing env q reward destroyed)

end Losses

/-! ## Runs -/

/-- A gain or loss of items, a kill, a talk, an exploration, or a change of money or
reputation. -/
def Request.IsEvent : Request → Prop
  | .check _ => True
  | .killedMonsterCredit _ => True
  | .killedPlayerCredit => True
  | .killCreditGO _ => True
  | .talkedToCreature _ => True
  | .areaExplored _ => True
  | _ => False

section Statement

variable (env : QuestEnv)

/-- `serve`, with a test before each loss. -/
def serveSparing (q depth : ℕ) (b : QuestBook) : Request → Option QuestBook
  | .check c => b.checkSparing env q (rewardQuestSparing env q depth) c
  | .failQuest questId destroyed =>
    b.failQuestSparing env q (rewardQuestSparing env q depth) questId destroyed
  | a => b.serve env (rewardQuestSparing env q depth) a

/-- The step meets no loss that does not spare the quest. -/
def StepSpares (q depth : ℕ) (s : Option QuestBook) (a : Outside × Request) : Prop :=
  s.bind (fun b => { b with outside := a.1 }.serveSparing env q depth a.2) = step env depth s a

/-- The quest is failed, and can be neither completed nor rewarded. -/
structure StaysFailed (q : Quest) (b : QuestBook) : Prop where
  status : b.getQuestStatus env q.id = .failed
  not_completed : b.canCompleteQuest env q.id = false
  not_rewarded : ∀ reward choice reachable offered,
    b.handleQuestgiverChooseReward env reward q.id choice reachable offered = some b

end Statement

/-- The entry of the quest says that it is failed. -/
def Failed (q : ℕ) (b : QuestBook) : Prop :=
  (b.data q).status = .failed

variable {env : QuestEnv} {b b' b₁ : QuestBook} {q x entry count : ℕ}

theorem Failed.questStatus (h : b.Failed q) :
    ∃ d, b.questStatus q = some d ∧ d.status = .failed := by
  unfold Failed QuestBook.data at h
  cases hd : b.questStatus q with
  | none =>
    rw [hd] at h
    cases h
  | some d =>
    rw [hd] at h
    exact ⟨d, rfl, h⟩

theorem Failed.getQuestStatus (h : b.Failed q) (hq : q ≠ 0) : b.getQuestStatus env q = .failed := by
  obtain ⟨d, hd, hstatus⟩ := h.questStatus
  rw [QuestBook.getQuestStatus, if_neg hq, hd]
  exact hstatus

/-- A failed quest cannot be completed. -/
theorem Failed.canCompleteQuest (h : b.Failed q) : b.canCompleteQuest env q = false := by
  by_contra hcan
  have hcan : b.canCompleteQuest env q = true := by simpa using hcan
  cases hq : env.template q with
  | none => simp [QuestBook.canCompleteQuest, hq] at hcan
  | some t =>
    obtain rfl := env.template_id hq
    have hid : t.id ≠ 0 := by
      intro h0
      simp [QuestBook.canCompleteQuest, h0] at hcan
    rcases (canCompleteQuest_cases hq hcan).2 with ⟨-, htake⟩ | ⟨d, hd, hinc, -⟩
    · have hnone : b.getQuestStatus env t.id = .none := by
        simp only [canTakeQuest, satisfyQuestStatus, Bool.and_eq_true, decide_eq_true_eq] at htake
        exact htake.1.1.1.1.1.1.1.1.1.1.1.1.2
      rw [h.getQuestStatus hid] at hnone
      cases hnone
    · obtain ⟨d', hd', hfailed⟩ := h.questStatus
      obtain rfl := some.inj (hd.symm.trans hd')
      rw [hinc] at hfailed
      cases hfailed

theorem Failed.staysFailed {t : Quest} (ht : env.template t.id = some t) (hid : t.id ≠ 0)
    (hauto : t.isAutoComplete env = false) (h : b.Failed t.id) : StaysFailed env t b where
  status := h.getQuestStatus hid
  not_completed := h.canCompleteQuest
  not_rewarded := fun reward choice reachable offered => by
    rw [handleQuestgiverChooseReward, ht]
    simp [h.getQuestStatus hid, hauto]

/-! ## What a loss does -/

theorem eachSlot_loss (entry count : ℕ) (b : QuestBook) : ∀ is : List (Fin maxQuestLogSize),
    eachSlot (fun questId b =>
      match env.template questId with
      | none => b.next
      | some t =>
        if !t.deliver then b.next
        else
          match (List.finRange questItemObjectivesCount).find? (t.requiredItemId · = entry) with
          | none => b.next
          | some j =>
            let b := b.touch questId
            let d := b.data questId
            let cur := if d.status ≠ .complete then d.itemCount j
              else toU16 (b.outside.itemCountWithBank entry)
            if cur < toU32 (t.requiredItemCount j + count) then
              let n := removedItemCount cur (t.requiredItemCount j) count
              some ((b.setData questId
                { d with itemCount := Function.update d.itemCount j n }).incompleteQuest env
                questId, true)
            else some (b, true)) is b =
      some (match b.lossTarget env entry is with
        | none => b
        | some t => b.lose env entry count t.1 t.2)
  | [] => rfl
  | i :: is => by
    rw [eachSlot, lossTarget]
    split_ifs with h0
    · exact eachSlot_loss entry count b is
    cases ht : env.template (b.slots i) with
    | none => exact eachSlot_loss entry count b is
    | some t =>
      obtain hid := env.template_id ht
      by_cases hdel : !t.deliver
      · simp only [hdel, if_true]
        exact eachSlot_loss entry count b is
      simp only [hdel, if_false, Bool.false_eq_true]
      cases hj : (List.finRange questItemObjectivesCount).find? (t.requiredItemId · = entry) with
      | none => exact eachSlot_loss entry count b is
      | some j =>
        simp only [lose, hid]
        split_ifs <;> rfl

/-- `ItemRemovedQuestCheck` changes the quest at which it returns and no other. -/
theorem itemRemovedQuestCheck_eq (entry count : ℕ) (b : QuestBook) :
    b.itemRemovedQuestCheck env entry count =
      some (match b.lossTarget env entry (List.finRange maxQuestLogSize) with
        | none => b
        | some t => b.lose env entry count t.1 t.2) :=
  eachSlot_loss entry count b _

theorem lossTarget_template {t : Quest × Fin questItemObjectivesCount} :
    ∀ {is : List (Fin maxQuestLogSize)}, b.lossTarget env entry is = some t →
      env.template t.1.id = some t.1
  | i :: is, h => by
    rw [lossTarget] at h
    split_ifs at h with h0
    · exact lossTarget_template h
    split at h
    · exact lossTarget_template h
    rename_i p hp
    split_ifs at h with hdel
    · exact lossTarget_template h
    split at h
    · exact lossTarget_template h
    · obtain rfl := some.inj h
      exact (env.template_id hp).symm ▸ hp

theorem data_setData_of_ne (hx : x ≠ q) (d : QuestStatusData) :
    (b.setData x d).data q = b.data q := by
  simp [QuestBook.data, QuestBook.setData, Function.update_of_ne hx.symm]

theorem data_setQuestStatus_of_ne (hx : x ≠ q) (status : QuestStatus) :
    (b.setQuestStatus env x status).data q = b.data q := by
  unfold QuestBook.setQuestStatus
  split
  · exact data_setData_of_ne hx _
  · rfl

theorem data_lose_of_ne {t : Quest} {j : Fin questItemObjectivesCount} (hne : t.id ≠ q) :
    (b.lose env entry count t j).data q = b.data q := by
  have htouch : (b.touch t.id).data q = b.data q := data_setData_of_ne hne _
  unfold lose
  dsimp only
  generalize (if ((b.touch t.id).data t.id).status ≠ .complete then _ else _) = cur
  split_ifs
  · unfold incompleteQuest
    split_ifs
    · rw [data_setData_of_ne hne, htouch]
    · rw [data_setQuestStatus_of_ne hne, data_setData_of_ne hne, htouch]
  · exact htouch

/-- The loss that the failed quest meets makes it incomplete, unless its counter is high
enough. -/
theorem failed_lose_iff {t : Quest} {j : Fin questItemObjectivesCount}
    (ht : env.template t.id = some t) (hid : t.id ≠ 0) (h : b.Failed t.id) :
    (b.lose env entry count t j).Failed t.id ↔
      toU32 (t.requiredItemCount j + count) ≤ (b.data t.id).itemCount j := by
  have hcomplete : (b.data t.id).status ≠ .complete := by
    rw [h]
    exact nofun
  unfold lose
  simp only [data_touch, hcomplete, ne_eq, not_false_eq_true, if_true]
  split_ifs with hlt
  · refine iff_of_false (fun hf => ?_) (by omega)
    rw [incompleteQuest, if_neg hid, setQuestStatus_self ht, Failed, data_setData] at hf
    cases hf
  · refine iff_of_true ?_ (by omega)
    rw [Failed, data_touch]
    exact h

/-- A loss keeps a failed quest failed exactly when it spares it. -/
theorem itemRemovedQuestCheck_failed_iff {t : Quest} (ht : env.template t.id = some t)
    (hid : t.id ≠ 0) (h : b.Failed t.id) (hrun : b.itemRemovedQuestCheck env entry count = some b') :
    b'.Failed t.id ↔ b.Spared env t.id entry count := by
  rw [itemRemovedQuestCheck_eq, some.injEq] at hrun
  unfold Spared
  cases htarget : b.lossTarget env entry (List.finRange maxQuestLogSize) with
  | none =>
    rw [htarget] at hrun
    subst hrun
    exact iff_of_true h fun t ht => nomatch ht
  | some p =>
    rw [htarget] at hrun
    subst hrun
    have hp := lossTarget_template htarget
    simp only [mem_some_iff, forall_eq']
    by_cases hpt : p.1.id = t.id
    · obtain rfl : p.1 = t := by
        rw [hpt, ht] at hp
        exact (some.inj hp).symm
      rw [failed_lose_iff ht hid h]
      exact ⟨fun hle _ => hle, fun hle => hle rfl⟩
    · refine iff_of_true ?_ fun heq => absurd heq hpt
      rw [Failed, data_lose_of_ne hpt]
      exact h

/-! ## What the other functions do -/

/-- From `b` to `b'` the quest stays failed. -/
structure Keeps (q : ℕ) (b b' : QuestBook) : Prop where
  failed : b.Failed q → b'.Failed q

theorem Keeps.refl (b : QuestBook) : Keeps q b b :=
  ⟨id⟩

theorem Keeps.trans (h1 : Keeps q b b₁) (h2 : Keeps q b₁ b') : Keeps q b b' :=
  ⟨fun h => h2.failed (h1.failed h)⟩

theorem Keeps.of_data (h : b'.data q = b.data q) : Keeps q b b' where
  failed := fun hf => by
    rw [Failed, h]
    exact hf

theorem Keeps.setData_of_ne (hx : x ≠ q) (d : QuestStatusData) : Keeps q b (b.setData x d) :=
  .of_data (data_setData_of_ne hx d)

theorem Keeps.setData {d : QuestStatusData} (hd : d.status = (b.data x).status) :
    Keeps q b (b.setData x d) := by
  by_cases hx : x = q
  · subst hx
    refine ⟨fun h => ?_⟩
    rw [Failed, data_setData, hd]
    exact h
  · exact .setData_of_ne hx d

theorem Keeps.touch (x : ℕ) : Keeps q b (b.touch x) :=
  .setData rfl

theorem Keeps.record (deed : Deed) : Keeps q b (b.record deed) :=
  .of_data rfl

/-- Rewards of other quests keep the quest failed. -/
def RewardKeeps (q : ℕ) (reward : Quest → QuestBook → Option QuestBook) : Prop :=
  ∀ r b b', r.id ≠ q → reward r b = some b' → Keeps q b b'

theorem Keeps.clearQuestSlot (x : ℕ) : Keeps q b (b.clearQuestSlot x) := by
  unfold QuestBook.clearQuestSlot
  split
  · exact .of_data rfl
  · exact .refl b

theorem Keeps.setPeriodStatus (r : Quest) : Keeps q b (b.setPeriodStatus env r) := by
  refine .of_data ?_
  unfold QuestBook.setPeriodStatus setDailyQuestStatus setWeeklyQuestStatus setMonthlyQuestStatus
    setSeasonalQuestStatus
  split_ifs
  · split
    · split_ifs <;> rfl
    · rfl
  · rfl
  · rfl
  · split <;> rfl
  · rfl

theorem Keeps.markRewarded (hx : x ≠ q) : Keeps q b (b.markRewarded x) := by
  refine .of_data ?_
  simp [QuestBook.data, QuestBook.markRewarded, removeActiveQuest, Function.update_of_ne hx.symm]

section Events

variable {reward : Quest → QuestBook → Option QuestBook} (hreward : RewardKeeps q reward)
include hreward

/-- The quest is not completed while it is failed, and completing another one keeps it failed. -/
theorem tryComplete_keeps (h : b.tryComplete env reward x = some b') : Keeps q b b' := by
  refine ⟨fun hf => ?_⟩
  unfold tryComplete at h
  split_ifs at h with hcan
  swap
  · exact some.inj h ▸ hf
  have hx : x ≠ q := by
    rintro rfl
    rw [hf.canCompleteQuest] at hcan
    cases hcan
  have hset : Keeps q b (b.setQuestStatus env x .complete) :=
    .of_data (data_setQuestStatus_of_ne hx _)
  unfold completeQuest at h
  split_ifs at h
  · exact some.inj h ▸ hf
  split at h
  · rename_i r hr
    split_ifs at h
    · exact (hset.trans (hreward r _ _ (by rw [env.template_id hr]; exact hx) h)).failed hf
    · exact some.inj h ▸ hset.failed hf
  · exact some.inj h ▸ hf

/-- An incomplete quest is completed, a complete one made incomplete, a failed one neither. -/
theorem keeps_rule : CheckRule env reward (Keeps q) where
  refl := .refl
  trans := .trans
  count _ _ := .setData rfl
  complete _ _ _ h := tryComplete_keeps hreward h
  incomplete {b x _} _ _ _ hcomplete := ⟨fun hf => by
    have hx : x ≠ q := by
      rintro rfl
      rw [hf] at hcomplete
      cases hcomplete
    unfold incompleteQuest
    split_ifs
    · exact hf
    · rw [Failed, data_setQuestStatus_of_ne hx]
      exact hf⟩

/-- The attempt to complete a quest at the end of a round of a loop. -/
theorem map_tryComplete_keeps {stop stop' : Bool}
    (h : (b.tryComplete env reward x).map (·, stop') = some (b', stop)) : Keeps q b b' := by
  obtain ⟨b₁, hrun, hpair⟩ := map_eq_some_iff.1 h
  obtain ⟨rfl, -⟩ := Prod.mk.inj hpair
  exact tryComplete_keeps hreward hrun

theorem creditObjective_keeps {r : Quest} {j : Fin questObjectivesCount}
    (h : b.creditObjective env reward r j = some b') : Keeps q b b' := by
  unfold creditObjective at h
  dsimp only at h
  split_ifs at h
  · have hdone := tryComplete_keeps hreward h
    refine Keeps.trans ?_ ((Keeps.record _).trans hdone)
    exact .setData rfl
  · exact tryComplete_keeps hreward h

theorem creditObjectives_keeps {r : Quest} :
    ∀ {js : List (Fin questObjectivesCount)} {b b' : QuestBook},
      b.creditObjectives env reward r js = some b' → Keeps q b b'
  | [], b, b', h => some.inj h ▸ .refl b
  | j :: js, b, b', h => by
    rw [creditObjectives] at h
    split at h
    · cases h
    · rename_i hrun
      exact (creditObjective_keeps hreward hrun).trans (creditObjectives_keeps h)

theorem creditSlots_keeps {matching : Quest → List (Fin questObjectivesCount)}
    (h : b.creditSlots env reward matching = some b') : Keeps q b b' := by
  refine eachSlot_rel Keeps.refl Keeps.trans (fun {x b b' stop} _ h => ?_) _ h
  split at h
  · exact next_eq h ▸ .refl b
  have htouch : Keeps q b (b.touch x) := .touch x
  dsimp only at h
  split_ifs at h
  · obtain ⟨b₁, hrun, hpair⟩ := map_eq_some_iff.1 h
    obtain ⟨rfl, -⟩ := Prod.mk.inj hpair
    exact htouch.trans (creditObjectives_keeps hreward hrun)
  · exact next_eq h ▸ htouch

theorem killedPlayerCredit_keeps (h : b.killedPlayerCredit env reward = some b') :
    Keeps q b b' := by
  refine eachSlot_rel Keeps.refl Keeps.trans (fun {x b b' stop} _ h => ?_) _ h
  split at h
  · exact next_eq h ▸ .refl b
  have htouch : Keeps q b (b.touch x) := .touch x
  dsimp only at h
  split_ifs at h
  · have hdone := map_tryComplete_keeps hreward h
    refine htouch.trans (Keeps.trans ?_ hdone)
    exact .setData rfl
  · exact htouch.trans (map_tryComplete_keeps hreward h)
  · exact next_eq h ▸ htouch

theorem areaExplored_keeps (h : b.areaExploredOrEventHappens env reward x = some b') :
    Keeps q b b' := by
  unfold areaExploredOrEventHappens at h
  split_ifs at h
  · exact some.inj h ▸ .refl b
  split at h
  · have hdone := tryComplete_keeps hreward h
    refine Keeps.trans ?_ ((Keeps.record _).trans hdone)
    exact .setData rfl
  · exact tryComplete_keeps hreward h

end Events

/-! ## Functions with a test before each loss -/

section Sparing

variable {t : Quest} (ht : env.template t.id = some t) (hid : t.id ≠ 0)
  {reward : Quest → QuestBook → Option QuestBook}
include ht hid

theorem check_keeps (hreward : RewardKeeps t.id reward) {c : Check} (hc : b.Spares env t.id c)
    (h : b.check env reward c = some b') : Keeps t.id b b' := by
  refine (keeps_rule hreward).check (fun entry count he => ?_) h
  subst he
  exact ⟨fun hf => (itemRemovedQuestCheck_failed_iff ht hid hf h).2 (by simpa [Spares] using hc)⟩

theorem checkSparing_keeps (hreward : RewardKeeps t.id reward) {c : Check}
    (h : b.checkSparing env t.id reward c = some b') : Keeps t.id b b' := by
  unfold checkSparing at h
  split_ifs at h with hc
  exact check_keeps ht hid hreward hc h

theorem runEffectsSparing_keeps (hreward : RewardKeeps t.id reward) :
    ∀ (es : List RaisedCheck) {b b' : QuestBook},
      runEffectsSparing env t.id reward es b = some b' → Keeps t.id b b'
  | [], b, b', h => some.inj h ▸ .refl b
  | e :: es, b, b', h => by
    rw [runEffectsSparing] at h
    split at h
    · cases h
    · rename_i hrun
      have houtside : Keeps t.id b { b with outside := e.outside } := .of_data rfl
      exact houtside.trans ((checkSparing_keeps ht hid hreward hrun).trans
        (runEffectsSparing_keeps hreward es h))

theorem rewardBodySparing_keeps (hreward : RewardKeeps t.id reward) :
    RewardKeeps t.id (rewardBodySparing env t.id reward) := by
  intro r b b' hr h
  simp only [rewardBodySparing, bind_eq_bind, bind_eq_some_iff, pure_def,
    some.injEq] at h
  obtain ⟨b₁, htaken, b2, hgiven, b3, hpaid, rfl⟩ := h
  have h1 := (Keeps.record (b := b) _).trans (runEffectsSparing_keeps ht hid hreward _ htaken)
  have htimed : Keeps t.id b₁ (b₁.removeTimedQuest r.id) := .of_data rfl
  have h2 := h1.trans (htimed.trans (runEffectsSparing_keeps ht hid hreward _ hgiven))
  have h3 := h2.trans ((Keeps.clearQuestSlot r.id).trans
    (runEffectsSparing_keeps ht hid hreward _ hpaid))
  exact h3.trans ((Keeps.setPeriodStatus r).trans (.markRewarded hr))

/-- By induction on the depth of nested rewards. -/
theorem rewardQuestSparing_keeps : ∀ depth, RewardKeeps t.id (rewardQuestSparing env t.id depth)
  | 0 => fun _ _ _ _ h => nomatch h
  | depth + 1 => rewardBodySparing_keeps ht hid (rewardQuestSparing_keeps depth)

/-- An event whose losses spare the quest keeps it failed. -/
theorem serveSparing_keeps {depth : ℕ} {a : Request} (ha : a.IsEvent)
    (h : b.serveSparing env t.id depth a = some b') : Keeps t.id b b' := by
  have hreward : RewardKeeps t.id (rewardQuestSparing env t.id depth) :=
    rewardQuestSparing_keeps ht hid depth
  cases a with
  | check c => exact checkSparing_keeps ht hid hreward h
  | killedMonsterCredit entry | killCreditGO entry | talkedToCreature entry =>
    exact creditSlots_keeps hreward h
  | killedPlayerCredit => exact killedPlayerCredit_keeps hreward h
  | areaExplored questId => exact areaExplored_keeps hreward h
  | _ => exact ha.elim

/-- `FailQuest` marks the quest failed, and it stays failed if the losses spare it. -/
theorem failQuestSparing_failed {depth : ℕ} {destroyed : List RaisedCheck}
    (h : b.failQuestSparing env t.id (rewardQuestSparing env t.id depth) t.id destroyed =
      some b') : b'.Failed t.id := by
  have hreward : RewardKeeps t.id (rewardQuestSparing env t.id depth) :=
    rewardQuestSparing_keeps ht hid depth
  unfold failQuestSparing at h
  rw [ht] at h
  obtain ⟨b₁, hmarked, heffects⟩ := bind_eq_some_iff.1 h
  refine (runEffectsSparing_keeps ht hid hreward _ heffects).failed ?_
  unfold failQuest at hmarked
  rw [ht] at hmarked
  dsimp only at hmarked
  rw [setQuestStatus_self ht, runEffects, some.injEq] at hmarked
  subst hmarked
  split_ifs
  · exact (congrArg QuestStatusData.status (data_setData _ _ _)).trans
      (congrArg QuestStatusData.status (data_setData _ _ _))
  · exact congrArg QuestStatusData.status (data_setData _ _ _)

end Sparing

/-! ## Runs that keep a quest failed -/

/-- After `FailQuest`, a run of events none of whose losses falls on the quest keeps it failed, so
that it can be neither completed nor, unless it completes itself, rewarded. -/
theorem failedQuest_stays (env : QuestEnv) (depth : ℕ) {t : Quest}
    (ht : env.template t.id = some t) (hauto : t.isAutoComplete env = false) {b b' : QuestBook}
    (hlog : b.InLog t.id) (o : Outside) (destroyed : List RaisedCheck)
    {as : List (Outside × Request)} (hevents : ∀ a ∈ as, a.2.IsEvent)
    (hspares : Along (step env depth) (StepSpares env t.id depth) (some b)
      ((o, .failQuest t.id destroyed) :: as))
    (hrun : run (step env depth) (some b) ((o, .failQuest t.id destroyed) :: as) = some b') :
    StaysFailed env t b' := by
  have hid : t.id ≠ 0 := hlog.1
  obtain ⟨hfirst, hrest⟩ := hspares
  let Inv : Option QuestBook → Prop := fun s => ∀ b, s = some b → b.Failed t.id
  have hinv : Inv (step env depth (some b) (o, .failQuest t.id destroyed)) := by
    intro b₁ hb₁
    rw [← hfirst] at hb₁
    exact failQuestSparing_failed ht hid hb₁
  have hstep : ∀ s (a : Outside × Request), Inv s →
      a.2.IsEvent ∧ StepSpares env t.id depth s a → Inv (step env depth s a) := by
    rintro s a hs ⟨ha, hsp⟩ b₂ hb₂
    rw [← hsp] at hb₂
    obtain ⟨b₁, rfl, hserve⟩ := bind_eq_some_iff.1 hb₂
    have houtside : Keeps t.id b₁ { b₁ with outside := a.1 } := .of_data rfl
    exact (houtside.trans (serveSparing_keeps ht hid ha hserve)).failed (hs b₁ rfl)
  have hfailed := invariant_run hstep hinv (hrest.and_forall hevents) b' hrun
  exact hfailed.staysFailed ht hid hauto

/-! ## A quest that asks for items -/

/-- A quest for five items. -/
def deliverQuest (id : ℕ) : Quest where
  id := id
  deliver := true
  requiredItemId := fun i => if i = 0 then 117 else 0
  requiredItemCount := fun i => if i = 0 then 5 else 0

def deliverEnv : QuestEnv where
  template i := if i = 6 ∨ i = 7 then some (deliverQuest i) else none
  template_id := by
    intro i q h
    split_ifs at h
    exact some.inj h ▸ rfl

/-- Three of the items are in the backpack. -/
def deliverBook (slots : List ℕ) : QuestBook where
  slots := fun i => slots.getD i 0
  questStatus := fun i =>
    if i ∈ slots then some { status := .incomplete, itemCount := fun j => if j = 0 then 3 else 0 }
    else none

/-- What happens after the quest 7 has failed. -/
def lateEvents : List (Outside × Request) :=
  [({}, .check (.itemRemoved 117 1)), ({}, .areaExplored 7)]

/-- The quest 6 comes before the quest 7 and the items that are lost are its own. -/
theorem failedQuest_stays_second :
    ∃ b, run (step deliverEnv 1) (some (deliverBook [6, 7]))
        (({}, .failQuest 7 [⟨{}, .itemRemoved 117 3⟩]) :: lateEvents) = some b ∧
      StaysFailed deliverEnv (deliverQuest 7) b := by
  have hevents : ∀ a ∈ lateEvents, a.2.IsEvent := by
    intro a ha
    simp only [lateEvents, List.mem_cons, List.not_mem_nil, or_false] at ha
    rcases ha with rfl | rfl <;> trivial
  have hspares : Along (step deliverEnv 1) (StepSpares deliverEnv 7 1) (some (deliverBook [6, 7]))
      (({}, .failQuest 7 [⟨{}, .itemRemoved 117 3⟩]) :: lateEvents) :=
    ⟨rfl, rfl, rfl, trivial⟩
  exact ⟨_, rfl, failedQuest_stays deliverEnv 1 (t := deliverQuest 7) rfl rfl ⟨by decide, 1, rfl⟩
    {} [⟨{}, .itemRemoved 117 3⟩] hevents hspares rfl⟩

/-- The items that `FailQuest` destroys make the quest incomplete, and five new ones complete. -/
theorem failedQuest_completed :
    ∃ b, run (step deliverEnv 1) (some (deliverBook [7]))
        [({}, .failQuest 7 [⟨{}, .itemRemoved 117 3⟩]), ({}, .check (.itemAdded 117 5))] = some b ∧
      b.getQuestStatus deliverEnv 7 = .complete ∧ ¬StaysFailed deliverEnv (deliverQuest 7) b := by
  have hcomplete : (run (step deliverEnv 1) (some (deliverBook [7]))
      [({}, .failQuest 7 [⟨{}, .itemRemoved 117 3⟩]), ({}, .check (.itemAdded 117 5))]).map
        (fun b => b.getQuestStatus deliverEnv 7) = some .complete := by
    decide +kernel
  obtain ⟨b, hb, hstatus⟩ := map_eq_some_iff.1 hcomplete
  refine ⟨b, hb, hstatus, fun h => ?_⟩
  exact absurd (h.status.symm.trans hstatus) (by decide)

end QuestBook

end MistyWorld
