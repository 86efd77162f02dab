import MistyWorld.Quest

/-!
# The quest log

A quest is accepted into a free slot of the log (`addQuest`), objective events raise its
counters, it becomes complete (`completeQuest`) and is handed in (`rewardQuest`).

`CompleteQuest` rewards a tracking quest at once, and `RewardQuest` gives and takes items,
money and reputation, whose checks may complete further quests. The two functions call each
other : `rewardQuest` takes the depth of calls the stack allows, and `none` is the stack
running out. Every request and every check brings the world outside anew, and the checks a
reward raises are given by `QuestEnv.raised`. No function reads `history`, except that the
number of rewards so far says which entry of `raised` is next.
-/

open Function Word

namespace MistyWorld

namespace QuestBook

variable (env : QuestEnv)

/-! ## The loops over the log -/

/-- The loop `for (uint8 i = 0; i < MAX_QUEST_LOG_SIZE; ++i)` over the slots that hold a quest. The
body says whether the loop is left. -/
def eachSlot (body : ℕ → QuestBook → Option (QuestBook × Bool)) :
    List (Fin maxQuestLogSize) → QuestBook → Option QuestBook
  | [], b => some b
  | i :: is, b =>
    if b.slots i = 0 then eachSlot body is b
    else
      match body (b.slots i) b with
      | none => none
      | some (b', true) => some b'
      | some (b', false) => eachSlot body is b'

def forSlots (body : ℕ → QuestBook → Option (QuestBook × Bool)) (b : QuestBook) :
    Option QuestBook :=
  eachSlot body (List.finRange maxQuestLogSize) b

/-- A slot of the log holds the quest. -/
def InLog (b : QuestBook) (questId : ℕ) : Prop :=
  questId ≠ 0 ∧ ∃ i, b.slots i = questId

/-- Go on with the next slot. -/
def next (b : QuestBook) : Option (QuestBook × Bool) :=
  some (b, false)

variable (reward : Quest → QuestBook → Option QuestBook)

/-- `Player::CompleteQuest`, with `Player::RewardQuest` as a parameter. -/
def completeQuest (b : QuestBook) (questId : ℕ) : Option QuestBook :=
  if questId = 0 then some b
  else
    match env.template questId with
    | some q =>
      if q.tracking then reward q (b.setQuestStatus env questId .complete)
      else some (b.setQuestStatus env questId .complete)
    | none => some b

/-- `Player::IncompleteQuest`. -/
def incompleteQuest (b : QuestBook) (questId : ℕ) : QuestBook :=
  if questId = 0 then b else b.setQuestStatus env questId .incomplete

/-- `if (CanCompleteQuest(questid)) CompleteQuest(questid);` -/
def tryComplete (b : QuestBook) (questId : ℕ) : Option QuestBook :=
  if b.canCompleteQuest env questId then b.completeQuest env reward questId else some b

/-- The item counter after `count` more units. -/
def addedItemCount (cur req count : ℕ) : ℕ :=
  if cur < req then
    toU16 (cur + toU16 (if toU32 (cur + count) ≤ req then (count : ℤ) else req - cur))
  else cur

/-- `Player::ItemAddedQuestCheck`. -/
def itemAddedQuestCheck (entry count : ℕ) (b : QuestBook) : Option QuestBook :=
  b.forSlots fun questId b =>
    let b := b.touch questId
    if (b.data questId).status ≠ .incomplete then b.next
    else
      match env.template questId with
      | none => b.next
      | some q =>
        if !q.deliver then b.next
        else
          match (List.finRange questItemObjectivesCount).find? (q.requiredItemId · = entry) with
          | none => b.next
          | some j =>
            let d := b.data questId
            let n := addedItemCount (d.itemCount j) (q.requiredItemCount j) count
            ((b.setData questId { d with itemCount := update d.itemCount j n }).tryComplete
              env reward questId).map (·, true)

/-- The item counter after `count` fewer units. -/
def removedItemCount (cur req count : ℕ) : ℕ :=
  let rem := toU16 (if cur ≤ req then (count : ℤ) else count + req - cur)
  if cur ≤ rem then 0 else cur - rem

/-- `Player::ItemRemovedQuestCheck`. -/
def itemRemovedQuestCheck (entry count : ℕ) (b : QuestBook) : Option QuestBook :=
  b.forSlots fun questId b =>
    match env.template questId with
    | none => b.next
    | some q =>
      if !q.deliver then b.next
      else
        match (List.finRange questItemObjectivesCount).find? (q.requiredItemId · = entry) with
        | none => b.next
        | some j =>
          let b := b.touch questId
          let d := b.data questId
          let cur := if d.status ≠ .complete then d.itemCount j
            else toU16 (b.outside.itemCountWithBank entry)
          if cur < toU32 (q.requiredItemCount j + count) then
            let n := removedItemCount cur (q.requiredItemCount j) count
            some ((b.setData questId
              { d with itemCount := update d.itemCount j n }).incompleteQuest env questId,
              true)
          else some (b, true)

/-- The two branches shared by `MoneyChanged` and `ReputationChanged` : an incomplete quest is
completed when the amount reaches what it asks for, a complete one falls back when it does not. -/
def weighed (enough : Bool) (questId : ℕ) (b : QuestBook) : Option (QuestBook × Bool) :=
  let b := b.touch questId
  if (b.data questId).status = .incomplete then
    if enough then (b.tryComplete env reward questId).map (·, false) else b.next
  else if (b.data questId).status = .complete then
    if enough then b.next else (b.incompleteQuest env questId).next
  else b.next

/-- The loop of `MoneyChanged` and `ReputationChanged`, over the quests that ask for an amount. -/
def weighedSlots (asks : Quest → Bool) (enough : Quest → QuestBook → Bool) (b : QuestBook) :
    Option QuestBook :=
  b.forSlots fun questId b =>
    match env.template questId with
    | none => b.next
    | some q => if asks q then b.weighed env reward (enough q b) questId else b.next

/-- `Player::MoneyChanged`. -/
def moneyChanged (count : ℕ) (b : QuestBook) : Option QuestBook :=
  b.weighedSlots env reward (fun q => q.rewOrReqMoney < 0)
    fun q _ => -q.rewOrReqMoney ≤ toI32 count

/-- `Player::ReputationChanged`. -/
def reputationChanged (faction : FactionEntry) (b : QuestBook) : Option QuestBook :=
  b.weighedSlots env reward (fun q => q.repObjectiveFaction = faction.id)
    fun q b => q.repObjectiveValue ≤ b.outside.reputation faction.id

/-- `Player::ReputationChanged2`. -/
def reputationChanged2 (faction : FactionEntry) (b : QuestBook) : Option QuestBook :=
  b.weighedSlots env reward (fun q => q.repObjectiveFaction2 = faction.id)
    fun q b => q.repObjectiveValue2 ≤ b.outside.reputation faction.id

/-- Run one check. -/
def check (b : QuestBook) : Check → Option QuestBook
  | .itemAdded entry count => b.itemAddedQuestCheck env reward entry count
  | .itemRemoved entry count => b.itemRemovedQuestCheck env entry count
  | .moneyChanged count => b.moneyChanged env reward count
  | .reputationChanged faction => b.reputationChanged env reward faction
  | .reputationChanged2 faction => b.reputationChanged2 env reward faction

/-- Run the checks of a list of effects. -/
def runEffects : List RaisedCheck → QuestBook → Option QuestBook
  | [], b => some b
  | e :: es, b =>
    match { b with outside := e.outside }.check env reward e.check with
    | none => none
    | some b' => runEffects es b'

/-! ## Rewarding -/

/-- `Player::SetDailyQuestStatus` : the store of the daily quests is commented out, only the
dungeon finder quests are kept. -/
def setDailyQuestStatus (b : QuestBook) (questId : ℕ) : QuestBook :=
  match env.template questId with
  | some q => if !q.dfQuest then b else { b with dfQuests := b.dfQuests.insert questId }
  | none => b

/-- `Player::SetWeeklyQuestStatus`. -/
def setWeeklyQuestStatus (b : QuestBook) (questId : ℕ) : QuestBook :=
  { b with weeklyQuests := b.weeklyQuests.insert questId }

/-- `Player::SetMonthlyQuestStatus`. -/
def setMonthlyQuestStatus (b : QuestBook) (questId : ℕ) : QuestBook :=
  { b with monthlyQuests := b.monthlyQuests.insert questId }

/-- `Player::SetSeasonalQuestStatus`. -/
def setSeasonalQuestStatus (b : QuestBook) (questId : ℕ) : QuestBook :=
  match env.template questId with
  | some _ =>
    let event := env.eventIdForQuest questId
    { b with
      seasonalQuests :=
        update b.seasonalQuests event ((b.seasonalQuests event).insert questId) }
  | none => b

/-- The choice of the store in `RewardQuest`. -/
def setPeriodStatus (b : QuestBook) (q : Quest) : QuestBook :=
  if q.daily || q.dfQuest then b.setDailyQuestStatus env q.id
  else if q.weekly then b.setWeeklyQuestStatus q.id
  else if q.monthly then b.setMonthlyQuestStatus q.id
  else if q.isSeasonal then b.setSeasonalQuestStatus env q.id
  else b

/-- The slot of the quest is freed. -/
def clearQuestSlot (b : QuestBook) (questId : ℕ) : QuestBook :=
  match b.findQuestSlot questId with
  | some slot => b.setQuestSlot slot 0
  | none => b

/-- `RemoveActiveQuest(quest_id); m_RewardedQuests.insert(quest_id);` -/
def markRewarded (b : QuestBook) (questId : ℕ) : QuestBook :=
  { b.removeActiveQuest questId with rewardedQuests := b.rewardedQuests.insert questId }

/-- The body of `Player::RewardQuest`. -/
def rewardBody (q : Quest) (b : QuestBook) : Option QuestBook := do
  let effects := env.raised b.rewards
  let b := b.record (.rewarded q.id)
  let b ← runEffects env reward effects.taken b
  let b := b.removeTimedQuest q.id
  let b ← runEffects env reward effects.given b
  let b := b.clearQuestSlot q.id
  let b ← runEffects env reward effects.paid b
  return (b.setPeriodStatus env q).markRewarded q.id

/-- `Player::RewardQuest`, with the depth of nested rewards that the stack allows. -/
def rewardQuest : ℕ → Quest → QuestBook → Option QuestBook
  | 0 => fun _ _ => none
  | depth + 1 => rewardBody env (rewardQuest depth)

/-! ## Accepting -/

/-- `Player::GiveQuestSourceItem`. -/
def giveQuestSourceItem (q : Quest) (b : QuestBook) : Option QuestBook :=
  let count := if q.srcItemCount = 0 then 1 else q.srcItemCount
  if q.srcItemId = 0 then some b
  else if b.outside.canStoreNewItem q.srcItemId count = .ok then
    b.itemAddedQuestCheck env reward q.srcItemId count
  else some b

/-- `Player::AdjustQuestReqItemCount`. -/
def adjustQuestReqItemCount (q : Quest) (b : QuestBook) : QuestBook :=
  if q.deliver then
    b.setData q.id
      { b.data q.id with
        itemCount := fun i =>
          if q.requiredItemCount i ≠ 0 then
            toU16 (min (b.outside.itemCountWithBank (q.requiredItemId i)) (q.requiredItemCount i))
          else (b.data q.id).itemCount i }
  else b

/-- The entry of a quest when it is accepted. -/
def acceptedData (q : Quest) (d : QuestStatusData) : QuestStatusData :=
  { d with
    status := .incomplete
    explored := false
    itemCount := if q.deliver then fun _ => 0 else d.itemCount
    creatureOrGOCount := if q.hasCredits then fun _ => 0 else d.creatureOrGOCount
    playerCount := if q.playerKill then 0 else d.playerCount }

/-- The timer of an accepted quest : the time limit, or what is left of it to the player who
shares the quest. -/
def startTimer (q : Quest) (giverTimer : Option ℕ) (b : QuestBook) : QuestBook :=
  let limit := (giverTimer.map (· / 1000)).getD q.limitTime
  if q.timed then
    { b.setData q.id { b.data q.id with timer := toU32 (limit * 1000) } with
      timedQuests := b.timedQuests.insert q.id }
  else b.setData q.id { b.data q.id with timer := 0 }

/-- `Player::AddQuest`. `giverTimer` is the timer of the player who shares the quest. -/
def addQuest (q : Quest) (giverTimer : Option ℕ) (b : QuestBook) : Option QuestBook :=
  match b.findQuestSlot 0 with
  | none => some b
  | some slot => do
    let b := (b.record (.accepted q.id)).setData q.id (acceptedData q (b.data q.id))
    let b ← b.giveQuestSourceItem env reward q
    return ((b.adjustQuestReqItemCount q).startTimer q giverTimer).setQuestSlot slot q.id

/-- Accept a quest and complete it if that is possible at once. -/
def addAndComplete (q : Quest) (giverTimer : Option ℕ) (b : QuestBook) : Option QuestBook := do
  let b ← b.addQuest env reward q giverTimer
  b.tryComplete env reward q.id

/-! ## Objective events -/

/-- A credit for an objective, and the attempt to complete the quest. -/
def creditObjective (q : Quest) (j : Fin questObjectivesCount) (b : QuestBook) :
    Option QuestBook :=
  let d := b.data q.id
  let count := update d.creatureOrGOCount j (toU16 (d.creatureOrGOCount j + 1))
  if d.creatureOrGOCount j < q.requiredNpcOrGoCount j then
    ((b.setData q.id { d with creatureOrGOCount := count }).record (.credited q.id j)).tryComplete
      env reward q.id
  else b.tryComplete env reward q.id

/-- Credit the given objectives in turn. The source goes on with a reference to the entry, which a
tracking quest no longer has once it is complete; the entry is then read as a new one here. -/
def creditObjectives (q : Quest) : List (Fin questObjectivesCount) → QuestBook → Option QuestBook
  | [], b => some b
  | j :: js, b =>
    match b.creditObjective env reward q j with
    | none => none
    | some b' => creditObjectives q js b'

/-- The loop over the log of the credits : for each incomplete quest, the objectives that
`matching` chooses are credited. -/
def creditSlots (matching : Quest → List (Fin questObjectivesCount)) (b : QuestBook) :
    Option QuestBook :=
  b.forSlots fun questId b =>
    match env.template questId with
    | none => b.next
    | some q =>
      let b := b.touch questId
      if (b.data questId).status = .incomplete then
        ((b.creditObjectives env reward q (matching q))).map (·, false)
      else b.next

/-- `Player::KilledMonsterCredit` : the first objective with the creature's entry. -/
def killedMonsterCredit (entry : ℕ) (b : QuestBook) : Option QuestBook :=
  b.creditSlots env reward fun q =>
    if b.outside.allowedInRaid q.id && q.kill then
      ((List.finRange questObjectivesCount).find? fun j =>
        0 < q.requiredNpcOrGo j && (q.requiredNpcOrGo j).toNat = entry).toList
    else []

/-- `Player::KillCreditGO` : the first objective with the game object's entry. -/
def killCreditGO (entry : ℕ) (b : QuestBook) : Option QuestBook :=
  b.creditSlots env reward fun q =>
    if q.cast then
      ((List.finRange questObjectivesCount).find? fun j =>
        (if q.requiredNpcOrGo j < 0 then (q.requiredNpcOrGo j).natAbs else 0) = entry).toList
    else []

/-- `Player::TalkedToCreature` : every objective with the creature's entry. -/
def talkedToCreature (entry : ℕ) (b : QuestBook) : Option QuestBook :=
  b.creditSlots env reward fun q =>
    if q.hasCredits then
      (List.finRange questObjectivesCount).filter fun j =>
        0 < q.requiredNpcOrGo j && (q.requiredNpcOrGo j).toNat = entry
    else []

/-- `Player::KilledPlayerCredit` : the loop stops at the first quest that counts player kills. -/
def killedPlayerCredit (b : QuestBook) : Option QuestBook :=
  b.forSlots fun questId b =>
    match env.template questId with
    | none => b.next
    | some q =>
      let b := b.touch questId
      let d := b.data questId
      if d.status = .incomplete && b.outside.allowedInRaid questId && q.playerKill then
        ((if d.playerCount < q.playersSlain then
          b.setData questId { d with playerCount := toU16 (d.playerCount + 1) } else b).tryComplete
          env reward questId).map (·, true)
      else b.next

/-- `Player::AreaExploredOrEventHappens`. -/
def areaExploredOrEventHappens (questId : ℕ) (b : QuestBook) : Option QuestBook :=
  if questId = 0 then some b
  else
    match b.findQuestSlot questId with
    | some _ =>
      ((b.setData questId { b.data questId with explored := true }).record
        (.explored questId)).tryComplete env reward questId
    | none => b.tryComplete env reward questId

/-- `Player::FailQuest`. `destroyed` are the checks of the items that are destroyed. -/
def failQuest (questId : ℕ) (destroyed : List RaisedCheck) (b : QuestBook) : Option QuestBook :=
  match env.template questId with
  | none => some b
  | some q =>
    let b := b.setQuestStatus env questId .failed
    let b := if q.timed then
      (b.setData questId { b.data questId with timer := 0 }).removeTimedQuest questId else b
    runEffects env reward destroyed b

/-- One round of the loop over the timed quests in `Player::Update`. -/
def updateTimer (questId diff : ℕ) (destroyed : List RaisedCheck) (b : QuestBook) :
    Option QuestBook :=
  if questId ∈ b.timedQuests then
    let b := b.touch questId
    let d := b.data questId
    if d.timer ≤ diff then b.failQuest env reward questId destroyed
    else some (b.setData questId { d with timer := d.timer - diff })
  else some b

/-! ## Requests -/

/-- What can happen to a player's quests. `reachable` says that the quest giver of the request
exists, offers or ends the quest, and can be interacted with. -/
inductive Request
  /-- `giverTimer` is the timer of the player who shares the quest. -/
  | acceptQuest (questId : ℕ) (reachable : Bool) (giverTimer : Option ℕ)
  | queryQuest (questId : ℕ) (reachable : Bool)
  /-- The automatic acceptance in `SendPreparedQuest` and `HandlePushQuestToParty`. -/
  | autoAccept (questId : ℕ) (reachable : Bool) (giverTimer : Option ℕ)
  /-- `invited` : the quest divider is in the game and in the same raid. -/
  | confirmAccept (questId : ℕ) (invited : Bool)
  | requestReward (questId : ℕ) (reachable : Bool)
  /-- `offered` : the quest giver offers the next quest of the chain. -/
  | chooseReward (questId reward : ℕ) (reachable offered : Bool)
  /-- `taken` : the checks of the source items that are taken back, if they can be. -/
  | removeQuest (slot : ℕ) (taken : Option (List RaisedCheck))
  | swapQuest (slot₁ slot₂ : ℕ)
  | killedMonsterCredit (entry : ℕ)
  | killedPlayerCredit
  | killCreditGO (entry : ℕ)
  | talkedToCreature (entry : ℕ)
  | areaExplored (questId : ℕ)
  | check (check : Check)
  | failQuest (questId : ℕ) (destroyed : List RaisedCheck)
  | updateTimer (questId diff : ℕ) (destroyed : List RaisedCheck)
  | resetDailyQuestStatus
  | resetWeeklyQuestStatus
  | resetMonthlyQuestStatus
  | resetSeasonalQuestStatus (event : ℕ)

/-- `WorldSession::HandleQuestgiverAcceptQuestOpcode`. -/
def handleQuestgiverAcceptQuest (questId : ℕ) (reachable : Bool) (giverTimer : Option ℕ)
    (b : QuestBook) : Option QuestBook :=
  match env.template questId with
  | some q =>
    if reachable && b.canTakeQuest env q && b.canAddQuest q then
      b.addAndComplete env reward q giverTimer
    else some b
  | none => some b

/-- `WorldSession::HandleQuestgiverQueryQuestOpcode`. -/
def handleQuestgiverQueryQuest (questId : ℕ) (reachable : Bool) (b : QuestBook) :
    Option QuestBook :=
  match env.template questId with
  | some q =>
    if reachable && b.canTakeQuest env q && q.isAutoAccept env && b.canAddQuest q then
      b.addAndComplete env reward q none
    else some b
  | none => some b

/-- The automatic acceptance of a quest that is offered. -/
def autoAccept (questId : ℕ) (reachable : Bool) (giverTimer : Option ℕ) (b : QuestBook) :
    Option QuestBook :=
  match env.template questId with
  | some q =>
    if reachable && q.isAutoAccept env && b.canAddQuest q && b.canTakeQuest env q then
      b.addAndComplete env reward q giverTimer
    else some b
  | none => some b

/-- `WorldSession::HandleQuestConfirmAccept`. Whether the quest can be taken was asked when the
invitation was sent, and is not asked again. -/
def handleQuestConfirmAccept (questId : ℕ) (invited : Bool) (b : QuestBook) :
    Option QuestBook :=
  match env.template questId with
  | some q =>
    if q.partyAccept && invited && b.canAddQuest q then b.addQuest env reward q none else some b
  | none => some b

/-- `WorldSession::HandleQuestgiverRequestRewardOpcode`. -/
def handleQuestgiverRequestReward (questId : ℕ) (reachable : Bool) (b : QuestBook) :
    Option QuestBook :=
  if reachable then b.tryComplete env reward questId else some b

/-- `WorldSession::HandleQuestgiverChooseRewardOpcode`. -/
def handleQuestgiverChooseReward (questId choice : ℕ) (reachable offered : Bool)
    (b : QuestBook) : Option QuestBook :=
  match env.template questId with
  | none => some b
  | some q =>
    if !q.isRewChoiceItemValid choice then some b
    else if !q.autoSubmit && !reachable then some b
    else if (!b.canSeeStartQuest env q && b.getQuestStatus env questId = .none) ||
        (b.getQuestStatus env questId ≠ .complete && !q.isAutoComplete env) then some b
    else if b.canRewardQuestWith env q choice then do
      let b ← reward q b
      b.autoAccept env reward q.nextQuestInChain offered none
    else some b

/-- `WorldSession::HandleQuestLogRemoveQuest`. -/
def handleQuestLogRemoveQuest (slot : ℕ) (taken : Option (List RaisedCheck)) (b : QuestBook) :
    Option QuestBook :=
  if h : slot < maxQuestLogSize then
    let questId := b.slots ⟨slot, h⟩
    if questId = 0 then some (b.setQuestSlot ⟨slot, h⟩ 0)
    else
      match taken with
      | none => some b
      | some effects => do
        let b ← runEffects env reward effects b
        let timed := match env.template questId with
          | some q => q.timed
          | none => false
        let b := if timed then b.removeTimedQuest questId else b
        return (b.removeActiveQuest questId).setQuestSlot ⟨slot, h⟩ 0
  else some b

/-- `WorldSession::HandleQuestLogSwapQuest`. -/
def handleQuestLogSwapQuest (slot₁ slot₂ : ℕ) (b : QuestBook) : QuestBook :=
  if h : slot₁ ≠ slot₂ ∧ slot₁ < maxQuestLogSize ∧ slot₂ < maxQuestLogSize then
    b.swapQuestSlot ⟨slot₁, h.2.1⟩ ⟨slot₂, h.2.2⟩
  else b

/-- `ResetDailyQuestStatus`, `ResetWeeklyQuestStatus` and `ResetMonthlyQuestStatus`. -/
def resetQuestStatus (b : QuestBook) : Period → QuestBook
  | .day => { b.record (.reset .day) with dfQuests := [] }
  | .week => { b.record (.reset .week) with weeklyQuests := [] }
  | .month => { b.record (.reset .month) with monthlyQuests := [] }

/-- Serve a request. -/
def serve (b : QuestBook) : Request → Option QuestBook
  | .acceptQuest questId reachable giverTimer =>
    b.handleQuestgiverAcceptQuest env reward questId reachable giverTimer
  | .queryQuest questId reachable => b.handleQuestgiverQueryQuest env reward questId reachable
  | .autoAccept questId reachable giverTimer =>
    b.autoAccept env reward questId reachable giverTimer
  | .confirmAccept questId invited => b.handleQuestConfirmAccept env reward questId invited
  | .requestReward questId reachable =>
    b.handleQuestgiverRequestReward env reward questId reachable
  | .chooseReward questId choice reachable offered =>
    b.handleQuestgiverChooseReward env reward questId choice reachable offered
  | .removeQuest slot taken => b.handleQuestLogRemoveQuest env reward slot taken
  | .swapQuest slot₁ slot₂ => some (b.handleQuestLogSwapQuest slot₁ slot₂)
  | .killedMonsterCredit entry => b.killedMonsterCredit env reward entry
  | .killedPlayerCredit => b.killedPlayerCredit env reward
  | .killCreditGO entry => b.killCreditGO env reward entry
  | .talkedToCreature entry => b.talkedToCreature env reward entry
  | .areaExplored questId => b.areaExploredOrEventHappens env reward questId
  | .check c => b.check env reward c
  | .failQuest questId destroyed => b.failQuest env reward questId destroyed
  | .updateTimer questId diff destroyed => b.updateTimer env reward questId diff destroyed
  | .resetDailyQuestStatus => some (b.resetQuestStatus .day)
  | .resetWeeklyQuestStatus => some (b.resetQuestStatus .week)
  | .resetMonthlyQuestStatus => some (b.resetQuestStatus .month)
  | .resetSeasonalQuestStatus event =>
    some { b with seasonalQuests := update b.seasonalQuests event [] }

/-- One step of a run : the world outside changes, then the request is served, with a stack for
`depth` nested rewards. A step that exhausts the stack ends the run. -/
def step (depth : ℕ) (s : Option QuestBook) (a : Outside × Request) : Option QuestBook :=
  s.bind fun b => { b with outside := a.1 }.serve env (rewardQuest env depth) a.2

end QuestBook

end MistyWorld
