import MistyWorld.Money
import Mathlib.Data.List.FinRange

/-!
# Quests

The quest templates, what a player keeps about quests, and the questions the server asks
before a quest is taken, completed or rewarded. A player keeps the status map
`m_QuestStatus`, the slots of the log, the set of rewarded quests and the stores of the
quests done in the current day, week, month or season.

The inventory, the purse and the reputations are not part of this module : what they answer
is an `Outside`. `history` records, newest first, acceptances, credits, explorations, rewards
and resets.
-/

open Word

namespace MistyWorld

/-! ## Templates -/

/-- `QUEST_OBJECTIVES_COUNT`. -/
abbrev questObjectivesCount : ℕ := 4

/-- `QUEST_ITEM_OBJECTIVES_COUNT`. -/
abbrev questItemObjectivesCount : ℕ := 6

/-- `MAX_QUEST_LOG_SIZE`. -/
abbrev maxQuestLogSize : ℕ := 25

/-- `PLAYER_MAX_DAILY_QUESTS`. -/
def playerMaxDailyQuests : ℕ := 750

theorem noCredits {c s k : Bool} :
    (∃ j : Fin questObjectivesCount, (fun _ => (0 : ℤ)) j ≠ 0) → (k && c && s) = true := by
  rintro ⟨_, h⟩
  exact absurd rfl h

theorem notPeriodic {r : Bool} : (false || false || false) = true → r = true := by
  decide +revert

theorem notWeekly {d : Bool} : false = true → d = false := by
  decide +revert

/-- A quest template, with the bits of `Flags` and `SpecialFlags` that are read, as the loader
leaves it : periodic quests are repeatable and a quest with a creature or game object objective
has the flags for it. -/
structure Quest where
  id : ℕ
  method : ℕ := 2
  partyAccept : Bool := false
  tracking : Bool := false
  daily : Bool := false
  weekly : Bool := false
  autoCompleteFlag : Bool := false
  autoAcceptFlag : Bool := false
  autoSubmit : Bool := false
  repeatable : Bool := false
  explorationOrEvent : Bool := false
  dfQuest : Bool := false
  monthly : Bool := false
  cast : Bool := false
  deliver : Bool := false
  speakto : Bool := false
  kill : Bool := false
  timed : Bool := false
  playerKill : Bool := false
  /-- `ZoneOrSort` is one of the seasonal sorts. -/
  seasonalSort : Bool := false
  requiredItemId : Fin questItemObjectivesCount → ℕ := fun _ => 0
  requiredItemCount : Fin questItemObjectivesCount → ℕ := fun _ => 0
  requiredNpcOrGo : Fin questObjectivesCount → ℤ := fun _ => 0
  requiredNpcOrGoCount : Fin questObjectivesCount → ℕ := fun _ => 0
  playersSlain : ℕ := 0
  rewOrReqMoney : ℤ := 0
  repObjectiveFaction : ℕ := 0
  repObjectiveValue : ℤ := 0
  repObjectiveFaction2 : ℕ := 0
  repObjectiveValue2 : ℤ := 0
  limitTime : ℕ := 0
  srcItemId : ℕ := 0
  srcItemCount : ℕ := 0
  requiredCurrency : List (ℕ × ℕ) := []
  /-- The arrays `RewardChoiceItemId` and `RewardChoiceItemCount`. -/
  rewardChoiceItem : List (ℕ × ℕ) := List.replicate 6 (0, 0)
  rewChoiceItemsCount : ℕ := 0
  /-- The arrays `RewardItemId` and `RewardItemIdCount`. -/
  rewardItem : List (ℕ × ℕ) := List.replicate 4 (0, 0)
  rewItemsCount : ℕ := 0
  exclusiveGroup : ℤ := 0
  nextQuestInChain : ℕ := 0
  prevChainQuests : List ℕ := []
  prevQuests : List ℤ := []
  credit_flag : (∃ j, requiredNpcOrGo j ≠ 0) → (kill && cast && speakto) = true := by
    first | exact noCredits | decide
  periodic_repeatable : (daily || weekly || monthly) = true → repeatable = true := by
    first | exact notPeriodic | decide
  weekly_not_daily : weekly = true → daily = false := by
    first | exact notWeekly | decide

/-- `Quest::IsSeasonal`. -/
def Quest.isSeasonal (q : Quest) : Bool :=
  q.seasonalSort && !q.repeatable

/-- `HasSpecialFlag(QUEST_SPECIAL_FLAGS_KILL | QUEST_SPECIAL_FLAGS_CAST |
QUEST_SPECIAL_FLAGS_SPEAKTO)`. -/
def Quest.hasCredits (q : Quest) : Bool :=
  q.kill || q.cast || q.speakto

/-- `Quest::IsRewChoiceItemValid`. -/
def Quest.isRewChoiceItemValid (q : Quest) (itemId : ℕ) : Bool :=
  q.rewardChoiceItem.any fun c => c.1 = itemId

/-- `Quest::GetRewChoiceItemCount`. -/
def Quest.getRewChoiceItemCount (q : Quest) (itemId : ℕ) : ℕ :=
  ((q.rewardChoiceItem.find? fun c => c.1 = itemId).map Prod.snd).getD 0

/-! ## The player's quest data -/

inductive QuestStatus
  | none
  | complete
  | incomplete
  | failed
  | rewarded
  deriving DecidableEq, Inhabited, Repr

/-- `QuestStatusData`, with the values of its constructor. -/
structure QuestStatusData where
  status : QuestStatus := .none
  timer : ℕ := 0
  itemCount : Fin questItemObjectivesCount → ℕ := fun _ => 0
  creatureOrGOCount : Fin questObjectivesCount → ℕ := fun _ => 0
  playerCount : ℕ := 0
  explored : Bool := false

/-- The answers of `CanStoreNewItem` that the quest code tells apart. -/
inductive StoreResult
  | ok
  | itemMaxCount
  | refused
  deriving DecidableEq, Repr

/-- What the rest of the player and of the world answers. -/
structure Outside where
  money : ℕ := 0
  reputation : ℕ → ℤ := fun _ => 0
  /-- `GetItemCount(entry)`. -/
  itemCount : ℕ → ℕ := fun _ => 0
  /-- `GetItemCount(entry, true)`. -/
  itemCountWithBank : ℕ → ℕ := fun _ => 0
  hasCurrency : ℕ → ℕ → Bool := fun _ _ => true
  canStoreNewItem : ℕ → ℕ → StoreResult := fun _ _ => .ok
  /-- `DisableMgr::IsDisabledFor(DISABLE_TYPE_QUEST, ..)`. -/
  disabled : ℕ → Bool := fun _ => false
  /-- `SatisfyQuestClass`, `SatisfyQuestRace`, `SatisfyQuestSkill` and
  `SatisfyQuestReputation`. -/
  satisfyQuestTraits : ℕ → Bool := fun _ => true
  satisfyQuestLevel : ℕ → Bool := fun _ => true
  satisfyQuestConditions : ℕ → Bool := fun _ => true
  /-- The player's level is within `CONFIG_QUEST_HIGH_LEVEL_HIDE_DIFF` of the quest's. -/
  levelShown : ℕ → Bool := fun _ => true
  /-- Not in a raid group, or the quest is allowed in the raid. -/
  allowedInRaid : ℕ → Bool := fun _ => true

/-- `FactionEntry`. -/
structure FactionEntry where
  id : ℕ
  id_pos : 0 < id

/-- The checks that a change of items, money or reputation raises. -/
inductive Check
  | itemAdded (entry count : ℕ)
  | itemRemoved (entry count : ℕ)
  | moneyChanged (count : ℕ)
  | reputationChanged (faction : FactionEntry)
  | reputationChanged2 (faction : FactionEntry)

/-- A check, with the world as it is when the check runs. -/
structure RaisedCheck where
  outside : Outside := {}
  check : Check

/-- The checks raised while a reward runs : those of the items and currencies taken, those of
the items, currencies and reputations given, and, once the slot of the log is free, those of
the experience and money. -/
structure RewardEffects where
  taken : List RaisedCheck := []
  given : List RaisedCheck := []
  paid : List RaisedCheck := []

/-- The periods after which a quest may be done again. -/
inductive Period
  | day
  | week
  | month
  deriving DecidableEq, Repr

/-- What the history of a player records. -/
inductive Deed
  | accepted (questId : ℕ)
  | credited (questId : ℕ) (objective : Fin questObjectivesCount)
  | explored (questId : ℕ)
  | rewarded (questId : ℕ)
  | reset (period : Period)
  deriving DecidableEq, Repr

/-- What a player keeps about quests. -/
structure QuestBook where
  questStatus : ℕ → Option QuestStatusData := fun _ => none
  slots : Fin maxQuestLogSize → ℕ := fun _ => 0
  rewardedQuests : List ℕ := []
  weeklyQuests : List ℕ := []
  monthlyQuests : List ℕ := []
  dfQuests : List ℕ := []
  seasonalQuests : ℕ → List ℕ := fun _ => []
  timedQuests : List ℕ := []
  outside : Outside := {}
  history : List Deed := []

/-- The templates, the settings, and the checks that the rewards of a run raise, in the order
in which the rewards begin. -/
structure QuestEnv where
  template : ℕ → Option Quest
  template_id : ∀ {i q}, template i = some q → q.id = i
  exclusiveQuestGroups : ℤ → List ℕ := fun _ => []
  eventIdForQuest : ℕ → ℕ := fun _ => 0
  ignoreAutoAccept : Bool := false
  ignoreAutoComplete : Bool := false
  raised : ℕ → RewardEffects := fun _ => {}

/-- `Quest::IsAutoAccept`. -/
def Quest.isAutoAccept (env : QuestEnv) (q : Quest) : Bool :=
  if env.ignoreAutoAccept then false else q.autoAcceptFlag

/-- `Quest::IsAutoComplete`. -/
def Quest.isAutoComplete (env : QuestEnv) (q : Quest) : Bool :=
  if env.ignoreAutoComplete then false else q.method = 0 || q.autoCompleteFlag

namespace QuestBook

/-! ## Reading and writing -/

/-- The value of `m_QuestStatus[questId]`. -/
def data (b : QuestBook) (questId : ℕ) : QuestStatusData :=
  (b.questStatus questId).getD {}

def setData (b : QuestBook) (questId : ℕ) (d : QuestStatusData) : QuestBook :=
  { b with questStatus := Function.update b.questStatus questId (some d) }

/-- The subscript `m_QuestStatus[questId]` creates a missing entry. -/
def touch (b : QuestBook) (questId : ℕ) : QuestBook :=
  b.setData questId (b.data questId)

def record (b : QuestBook) (deed : Deed) : QuestBook :=
  { b with history := deed :: b.history }

def isReward : Deed → Bool
  | .rewarded _ => true
  | _ => false

/-- The number of rewards begun so far. -/
def rewards (b : QuestBook) : ℕ :=
  b.history.countP isReward

/-- `Player::FindQuestSlot`; `none` is `MAX_QUEST_LOG_SIZE`. -/
def findQuestSlot (b : QuestBook) (questId : ℕ) : Option (Fin maxQuestLogSize) :=
  (List.finRange maxQuestLogSize).find? fun i => b.slots i = questId

/-- `Player::SetQuestSlot`. -/
def setQuestSlot (b : QuestBook) (slot : Fin maxQuestLogSize) (questId : ℕ) : QuestBook :=
  { b with slots := Function.update b.slots slot questId }

/-- `Player::SwapQuestSlot`. -/
def swapQuestSlot (b : QuestBook) (slot₁ slot₂ : Fin maxQuestLogSize) : QuestBook :=
  (b.setQuestSlot slot₁ (b.slots slot₂)).setQuestSlot slot₂ (b.slots slot₁)

variable (env : QuestEnv)

/-- `Player::GetQuestStatus`. -/
def getQuestStatus (b : QuestBook) (questId : ℕ) : QuestStatus :=
  if questId = 0 then .none
  else
    match b.questStatus questId with
    | some d => d.status
    | none =>
      match env.template questId with
      | some q => if !q.repeatable && questId ∈ b.rewardedQuests then .rewarded else .none
      | none => .none

/-- `Player::GetQuestRewardStatus`. -/
def getQuestRewardStatus (b : QuestBook) (questId : ℕ) : Bool :=
  match env.template questId with
  | some q => if !q.repeatable then questId ∈ b.rewardedQuests else false
  | none => false

/-- `Player::SetQuestStatus`. -/
def setQuestStatus (b : QuestBook) (questId : ℕ) (status : QuestStatus) : QuestBook :=
  match env.template questId with
  | some _ => b.setData questId { b.data questId with status := status }
  | none => b

/-- `Player::RemoveActiveQuest`. -/
def removeActiveQuest (b : QuestBook) (questId : ℕ) : QuestBook :=
  { b with questStatus := Function.update b.questStatus questId none }

/-- `Player::RemoveTimedQuest`. -/
def removeTimedQuest (b : QuestBook) (questId : ℕ) : QuestBook :=
  { b with timedQuests := b.timedQuests.erase questId }

/-! ## Whether a quest may be taken -/

/-- The fields `PLAYER_FIELD_DAILY_QUESTS_1 ..` as `SatisfyQuestDay` reads them : their reading is
commented out and every value is zero. -/
def dailyQuestFields : List ℕ :=
  List.replicate playerMaxDailyQuests 0

/-- `Player::SatisfyQuestDay`. -/
def satisfyQuestDay (b : QuestBook) (q : Quest) : Bool :=
  if !q.daily && !q.dfQuest then true
  else if q.dfQuest then b.dfQuests.isEmpty
  else dailyQuestFields.all (· ≠ q.id) && dailyQuestFields.any (· = 0)

/-- `Player::SatisfyQuestWeek`. -/
def satisfyQuestWeek (b : QuestBook) (q : Quest) : Bool :=
  if !q.weekly || b.weeklyQuests.isEmpty then true else q.id ∉ b.weeklyQuests

/-- `Player::SatisfyQuestMonth`. -/
def satisfyQuestMonth (b : QuestBook) (q : Quest) : Bool :=
  if !q.monthly || b.monthlyQuests.isEmpty then true else q.id ∉ b.monthlyQuests

/-- `Player::SatisfyQuestSeasonal`. -/
def satisfyQuestSeasonal (b : QuestBook) (q : Quest) : Bool :=
  if !q.isSeasonal then true else q.id ∉ b.seasonalQuests (env.eventIdForQuest q.id)

/-- `Player::SatisfyQuestStatus`. -/
def satisfyQuestStatus (b : QuestBook) (q : Quest) : Bool :=
  b.getQuestStatus env q.id = .none

/-- `Player::SatisfyQuestTimed`. -/
def satisfyQuestTimed (b : QuestBook) (q : Quest) : Bool :=
  b.timedQuests.isEmpty || !q.timed

/-- `Player::SatisfyQuestExclusiveGroup`. -/
def satisfyQuestExclusiveGroup (b : QuestBook) (q : Quest) : Bool :=
  if q.exclusiveGroup ≤ 0 then true
  else
    (env.exclusiveQuestGroups q.exclusiveGroup).all fun excludeId =>
      if excludeId = q.id then true
      else
        match env.template excludeId with
        | none => true
        | some n =>
          b.satisfyQuestDay n && b.satisfyQuestWeek n && b.satisfyQuestSeasonal env n &&
            b.getQuestStatus env excludeId = .none &&
            (q.repeatable && n.repeatable || excludeId ∉ b.rewardedQuests)

/-- `Player::SatisfyQuestNextChain`. -/
def satisfyQuestNextChain (b : QuestBook) (q : Quest) : Bool :=
  q.nextQuestInChain = 0 || b.getQuestStatus env q.nextQuestInChain = .none

/-- `Player::SatisfyQuestPrevChain`. -/
def satisfyQuestPrevChain (b : QuestBook) (q : Quest) : Bool :=
  q.prevChainQuests.all fun id =>
    match b.questStatus id with
    | some d => d.status = .none
    | none => true

/-- The loop of `Player::SatisfyQuestPreviousQuest` : the first entry that is rewarded, or active
when it is negative, decides. -/
def satisfyPrevQuests (b : QuestBook) : List ℤ → Bool
  | [] => false
  | i :: is =>
    match env.template i.natAbs with
    | none => satisfyPrevQuests b is
    | some prev =>
      let group := (env.exclusiveQuestGroups prev.exclusiveGroup).filter (· ≠ i.natAbs)
      if 0 < i && i.natAbs ∈ b.rewardedQuests then
        0 ≤ prev.exclusiveGroup || group.all (· ∈ b.rewardedQuests)
      else if i < 0 && b.getQuestStatus env i.natAbs ≠ .none then
        0 ≤ prev.exclusiveGroup || group.all fun id => b.getQuestStatus env id = .none
      else satisfyPrevQuests b is

/-- `Player::SatisfyQuestPreviousQuest`. -/
def satisfyQuestPreviousQuest (b : QuestBook) (q : Quest) : Bool :=
  q.prevQuests.isEmpty || b.satisfyPrevQuests env q.prevQuests

/-- `Player::SatisfyQuestLog`. -/
def satisfyQuestLog (b : QuestBook) : Bool :=
  (b.findQuestSlot 0).isSome

/-- `Player::CanTakeQuest`. -/
def canTakeQuest (b : QuestBook) (q : Quest) : Bool :=
  !b.outside.disabled q.id && b.satisfyQuestStatus env q && b.satisfyQuestExclusiveGroup env q &&
    b.outside.satisfyQuestTraits q.id && b.outside.satisfyQuestLevel q.id &&
    b.satisfyQuestPreviousQuest env q && b.satisfyQuestTimed q && b.satisfyQuestNextChain env q &&
    b.satisfyQuestPrevChain q && b.satisfyQuestDay q && b.satisfyQuestWeek q &&
    b.satisfyQuestMonth q && b.satisfyQuestSeasonal env q && b.outside.satisfyQuestConditions q.id

/-- `Player::CanSeeStartQuest`. -/
def canSeeStartQuest (b : QuestBook) (q : Quest) : Bool :=
  !b.outside.disabled q.id && b.outside.satisfyQuestTraits q.id &&
    b.satisfyQuestExclusiveGroup env q && b.satisfyQuestPreviousQuest env q &&
    b.satisfyQuestNextChain env q && b.satisfyQuestPrevChain q && b.satisfyQuestDay q &&
    b.satisfyQuestWeek q && b.satisfyQuestMonth q && b.satisfyQuestSeasonal env q &&
    b.outside.levelShown q.id

/-- `Player::CanAddQuest`. -/
def canAddQuest (b : QuestBook) (q : Quest) : Bool :=
  b.satisfyQuestLog &&
    (q.srcItemId = 0 || b.outside.canStoreNewItem q.srcItemId q.srcItemCount ≠ .refused)

/-! ## Whether it may be completed and rewarded -/

/-- The tests of `CanCompleteQuest` on an incomplete quest. -/
def meetsObjectives (b : QuestBook) (q : Quest) (d : QuestStatusData) : Bool :=
  (!q.deliver || (List.finRange questItemObjectivesCount).all fun i =>
      q.requiredItemCount i = 0 || q.requiredItemCount i ≤ d.itemCount i) &&
    (!q.hasCredits || (List.finRange questObjectivesCount).all fun i =>
      q.requiredNpcOrGo i = 0 || q.requiredNpcOrGoCount i = 0 ||
        q.requiredNpcOrGoCount i ≤ d.creatureOrGOCount i) &&
    (!q.playerKill || q.playersSlain = 0 || q.playersSlain ≤ d.playerCount) &&
    (!q.explorationOrEvent || d.explored) && (!q.timed || d.timer ≠ 0) &&
    (0 ≤ q.rewOrReqMoney || hasEnoughMoney b.outside.money q.rewOrReqMoney.natAbs) &&
    (q.repObjectiveFaction = 0 ||
      q.repObjectiveValue ≤ b.outside.reputation q.repObjectiveFaction)

/-- `Player::CanCompleteQuest`. -/
def canCompleteQuest (b : QuestBook) (questId : ℕ) : Bool :=
  if questId = 0 then false
  else
    match env.template questId with
    | none => false
    | some q =>
      if !q.repeatable && questId ∈ b.rewardedQuests then false
      else if (q.isAutoComplete env || q.autoCompleteFlag) && b.canTakeQuest env q then true
      else
        match b.questStatus questId with
        | none => false
        | some d => d.status = .incomplete && b.meetsObjectives q d

/-- `Player::CanRewardQuest(quest, msg)`. -/
def canRewardQuest (b : QuestBook) (q : Quest) : Bool :=
  (q.dfQuest || q.isAutoComplete env || q.autoCompleteFlag ||
      b.getQuestStatus env q.id = .complete) &&
    b.satisfyQuestDay q && b.satisfyQuestWeek q && b.satisfyQuestMonth q &&
    b.satisfyQuestSeasonal env q && !b.getQuestRewardStatus env q.id &&
    (!q.deliver || (List.finRange questItemObjectivesCount).all fun i =>
      q.requiredItemCount i = 0 ||
        q.requiredItemCount i ≤ b.outside.itemCount (q.requiredItemId i)) &&
    (q.requiredCurrency.all fun c => c.1 = 0 || b.outside.hasCurrency c.1 c.2) &&
    (0 ≤ q.rewOrReqMoney || hasEnoughMoney b.outside.money q.rewOrReqMoney.natAbs)

/-- `Player::CanRewardQuest(quest, reward, msg)`. -/
def canRewardQuestWith (b : QuestBook) (q : Quest) (reward : ℕ) : Bool :=
  b.canRewardQuest env q &&
    (q.rewChoiceItemsCount = 0 || (q.isRewChoiceItemValid reward &&
      b.outside.canStoreNewItem reward (q.getRewChoiceItemCount reward) = .ok)) &&
    (q.rewardItem.take q.rewItemsCount).all fun c =>
      c.1 = 0 || b.outside.canStoreNewItem c.1 c.2 = .ok

end QuestBook

end MistyWorld
