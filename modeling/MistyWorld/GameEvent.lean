import MistyWorld.Run
import MistyWorld.Word
import Mathlib.Data.Finset.Card

/-!
# Game events

Holidays recur in time, world events go through phases : an inactive event starts when the
events it requires are far enough, waits for its conditions, then for its length, and is
finished. `GameEventMgr` keeps the data of the events and the active ones. An active event adds
its quests to the quest givers and its spawns to the grid, and takes them back when it stops.

The amounts of the conditions are of any type with an addition and a comparison; in the source
they are `float`.
-/

open Word

namespace MistyWorld

/-- `MINUTE`. -/
def minute : ℕ := 60

/-- `max_ge_check_delay`, a day. -/
def maxGeCheckDelay : ℕ := 86400

inductive GameEventState
  | normal
  | worldInactive
  | worldConditions
  | worldNextphase
  | worldFinished
  | internal
  deriving DecidableEq, Repr

structure GameEventFinishCondition (F : Type*) where
  reqNum : F
  done : F

structure GameEventData (F : Type*) where
  /-- `start` and `end`, in seconds. -/
  start : ℤ := 1
  endTime : ℤ := 0
  nextstart : ℕ := 0
  occurence : ℕ := 0
  length : ℕ := 0
  state : GameEventState := .normal
  conditions : List (ℕ × GameEventFinishCondition F) := []
  prerequisiteEvents : List ℕ := []

/-- What is loaded about the events and does not change. The guids are listed by internal event
id. -/
structure GameEventTables (F : Type*) where
  /-- `mGameEvent.size()`, one more than the greatest event id. -/
  size : ℕ
  creatureQuests : ℕ → List (ℕ × ℕ) := fun _ => []
  gameObjectQuests : ℕ → List (ℕ × ℕ) := fun _ => []
  creatureGuids : ℤ → List ℕ := fun _ => []
  gameobjectGuids : ℤ → List ℕ := fun _ => []
  /-- The event, the condition and the amount that a quest counts for. -/
  questToEventConditions : ℕ → Option (ℕ × ℕ × F) := fun _ => none

/-- The events, the active ones, and what they change : the multimaps of the quest givers and
the guids in the grid. -/
structure GameEventMgr (F : Type*) where
  event : ℕ → GameEventData F
  activeEvents : Finset ℕ := ∅
  creatureQuestMap : List (ℕ × ℕ) := []
  goQuestMap : List (ℕ × ℕ) := []
  creaturesInGrid : Finset ℕ := ∅
  gameobjectsInGrid : Finset ℕ := ∅
  isSystemInit : Bool := true

namespace GameEventMgr

variable {F : Type*} (t : GameEventTables F)

def setEvent (m : GameEventMgr F) (eventId : ℕ) (data : GameEventData F) : GameEventMgr F :=
  { m with event := Function.update m.event eventId data }

/-- `GameEventMgr::IsActiveEvent`. -/
def isActiveEvent (m : GameEventMgr F) (eventId : ℕ) : Bool :=
  eventId ∈ m.activeEvents

/-! ## Quests and spawns -/

/-- `hasCreatureQuestActiveEventExcept` and `hasGameObjectQuestActiveEventExcept` : another active
event of the table lists the quest, for whatever quest giver. -/
def hasQuestActiveEventExcept (m : GameEventMgr F) (quests : ℕ → List (ℕ × ℕ))
    (questId eventId : ℕ) : Bool :=
  decide (∃ e ∈ m.activeEvents, e ≠ eventId ∧ ∃ rel ∈ quests e, rel.2 = questId)

/-- A loop of `UpdateEventQuests` over the relations of an event : each is put in the multimap,
or one like it is taken out. -/
def updateRelations (activate : Bool) (usedElsewhere : ℕ → Bool) (map : List (ℕ × ℕ))
    (rels : List (ℕ × ℕ)) : List (ℕ × ℕ) :=
  rels.foldl
    (fun map rel =>
      if activate then map ++ [rel]
      else if usedElsewhere rel.2 then map
      else map.erase rel)
    map

/-- `GameEventMgr::UpdateEventQuests`. -/
def updateEventQuests (m : GameEventMgr F) (eventId : ℕ) (activate : Bool) : GameEventMgr F :=
  { m with
    creatureQuestMap := updateRelations activate
      (m.hasQuestActiveEventExcept t.creatureQuests · eventId) m.creatureQuestMap
      (t.creatureQuests eventId)
    goQuestMap := updateRelations activate
      (m.hasQuestActiveEventExcept t.gameObjectQuests · eventId) m.goQuestMap
      (t.gameObjectQuests eventId) }

def internalEventId (eventId : ℤ) : ℤ :=
  t.size + eventId - 1

/-- The internal event id is an index of the vectors of guids. -/
def inGuidRange (eventId : ℤ) : Bool :=
  0 ≤ internalEventId t eventId && internalEventId t eventId < 2 * t.size - 1

/-- `hasCreatureActiveEventExcept` and `hasGameObjectActiveEventExcept`. -/
def hasGuidActiveEventExcept (m : GameEventMgr F) (guids : ℤ → List ℕ) (guid : ℕ)
    (eventId : ℤ) : Bool :=
  decide (∃ e ∈ m.activeEvents, (e : ℤ) ≠ eventId ∧ guid ∈ guids (internalEventId t e))

/-- A loop of `GameEventSpawn`. -/
def addGuids (grid : Finset ℕ) (guids : List ℕ) : Finset ℕ :=
  guids.foldl (fun grid guid => insert guid grid) grid

/-- A loop of `GameEventUnspawn`. -/
def removeGuids (neededElsewhere : ℕ → Bool) (grid : Finset ℕ) (guids : List ℕ) : Finset ℕ :=
  guids.foldl (fun grid guid => if neededElsewhere guid then grid else grid.erase guid) grid

/-- `GameEventMgr::GameEventSpawn`. -/
def gameEventSpawn (m : GameEventMgr F) (eventId : ℤ) : GameEventMgr F :=
  if inGuidRange t eventId then
    { m with
      creaturesInGrid := addGuids m.creaturesInGrid (t.creatureGuids (internalEventId t eventId))
      gameobjectsInGrid :=
        addGuids m.gameobjectsInGrid (t.gameobjectGuids (internalEventId t eventId)) }
  else m

/-- `GameEventMgr::GameEventUnspawn`. -/
def gameEventUnspawn (m : GameEventMgr F) (eventId : ℤ) : GameEventMgr F :=
  if inGuidRange t eventId then
    { m with
      creaturesInGrid := removeGuids
        (fun guid => 0 < eventId && m.hasGuidActiveEventExcept t t.creatureGuids guid eventId)
        m.creaturesInGrid (t.creatureGuids (internalEventId t eventId))
      gameobjectsInGrid := removeGuids
        (fun guid => 0 < eventId && m.hasGuidActiveEventExcept t t.gameobjectGuids guid eventId)
        m.gameobjectsInGrid (t.gameobjectGuids (internalEventId t eventId)) }
  else m

/-- `GameEventMgr::ApplyNewEvent`, as far as quests and spawns go. -/
def applyNewEvent (m : GameEventMgr F) (eventId : ℕ) : GameEventMgr F :=
  ((m.gameEventSpawn t eventId).gameEventUnspawn t (-eventId)).updateEventQuests t eventId true

/-- `GameEventMgr::UnApplyEvent`. -/
def unApplyEvent (m : GameEventMgr F) (eventId : ℕ) : GameEventMgr F :=
  ((m.gameEventUnspawn t eventId).gameEventSpawn t (-eventId)).updateEventQuests t eventId false

/-! ## Phases -/

variable [LT F] [DecidableLT F]

/-- `GameEventMgr::CheckOneGameEventConditions` at the time `now`. -/
def checkOneGameEventConditions (m : GameEventMgr F) (now eventId : ℕ) : GameEventMgr F × Bool :=
  let data := m.event eventId
  if data.conditions.any fun c => c.2.done < c.2.reqNum then (m, false)
  else
    (m.setEvent eventId
      { data with
        state := .worldNextphase
        nextstart := if data.nextstart = 0 then now + toU32 (data.length * 60)
          else data.nextstart },
      true)

/-- `GameEventMgr::StartEvent`. -/
def startEvent (m : GameEventMgr F) (now eventId : ℕ) (overwrite : Bool) :
    GameEventMgr F × Bool :=
  let data := m.event eventId
  if data.state = .normal ∨ data.state = .internal then
    let m := { m with activeEvents := insert eventId m.activeEvents }.applyNewEvent t eventId
    (if overwrite then
      m.setEvent eventId
        { data with
          start := now
          endTime := if data.endTime ≤ now then now + data.length else data.endTime }
    else m, false)
  else
    let m := if data.state = .worldInactive then
      m.setEvent eventId { data with state := .worldConditions } else m
    ({ m with activeEvents := insert eventId m.activeEvents }.applyNewEvent t
      eventId).checkOneGameEventConditions now eventId

/-- `GameEventMgr::StopEvent`. -/
def stopEvent [Zero F] (m : GameEventMgr F) (now eventId : ℕ) (overwrite : Bool) :
    GameEventMgr F :=
  let data := m.event eventId
  let worldEvent := data.state ≠ .normal ∧ data.state ≠ .internal
  let m := { m with activeEvents := m.activeEvents.erase eventId }.unApplyEvent t eventId
  if overwrite ∧ ¬worldEvent then
    let start : ℤ := now - toU32 (data.length * minute)
    m.setEvent eventId
      { data with
        start := start
        endTime := if data.endTime ≤ start then start + data.length else data.endTime }
  else if worldEvent ∧ (overwrite ∨ data.state ≠ .worldFinished) then
    m.setEvent eventId
      { data with
        nextstart := 0
        state := .worldInactive
        conditions := data.conditions.map fun c => (c.1, { c.2 with done := 0 }) }
  else m

/-- `GameEventMgr::CheckOneGameEvent`. -/
def checkOneGameEvent (m : GameEventMgr F) (now entry : ℕ) : Bool :=
  let data := m.event entry
  match data.state with
  | .normal =>
    data.start < now && now < data.endTime &&
      (now - data.start) % toU32 (data.occurence * minute) < toU32 (data.length * minute)
  | .worldConditions => true
  | .worldNextphase => true
  | .worldFinished => false
  | .internal => false
  | .worldInactive =>
    (data.prerequisiteEvents.all fun p =>
      ((m.event p).state = .worldNextphase || (m.event p).state = .worldFinished) &&
        (m.event p).nextstart ≤ now) &&
      !data.prerequisiteEvents.isEmpty

/-- `GameEventMgr::NextCheck`. -/
def nextCheck (m : GameEventMgr F) (now entry : ℕ) : ℕ :=
  let data := m.event entry
  if (data.state = .worldNextphase ∨ data.state = .worldFinished) ∧ now ≤ data.nextstart then
    toU32 (data.nextstart - now : ℕ)
  else if data.state = .worldConditions then
    if data.length ≠ 0 then toU32 (data.length * 60) else maxGeCheckDelay
  else if data.endTime < now then maxGeCheckDelay
  else if now < data.start then toU32 (data.start - now)
  else
    let phase := (now - data.start) % toU32 (data.occurence * 60)
    let delay := toU32 (if phase < toU32 (data.length * 60)
      then (toU32 (data.length * minute) : ℤ) - phase
      else (toU32 (data.occurence * minute) : ℤ) - phase)
    if data.endTime < now + delay then toU32 (data.endTime - now) else delay

/-- The state of the loop of `Update` : the events queued to be started and stopped, and the least
delay. -/
structure UpdatePass (F : Type*) where
  mgr : GameEventMgr F
  activate : List ℕ := []
  deactivate : List ℕ := []
  nextEventDelay : ℕ := maxGeCheckDelay

/-- The end of the body of the loop. -/
def UpdatePass.delay (p : UpdatePass F) (now entry : ℕ) : UpdatePass F :=
  { p with nextEventDelay := min p.nextEventDelay (p.mgr.nextCheck now entry) }

/-- The body of the loop of `Update`. -/
def updateOne (now : ℕ) (p : UpdatePass F) (entry : ℕ) : UpdatePass F :=
  let m := p.mgr
  let data := m.event entry
  if m.checkOneGameEvent now entry then
    if data.state = .worldNextphase ∧ data.nextstart ≤ now then
      { p with
        mgr := m.setEvent entry { data with state := .worldFinished, nextstart := 0 }
        deactivate := if m.isActiveEvent entry then p.deactivate ++ [entry] else p.deactivate }
    else
      let m := if data.state = .worldConditions then (m.checkOneGameEventConditions now entry).1
        else m
      { p with
        mgr := m
        activate := if m.isActiveEvent entry then p.activate else p.activate ++ [entry] }.delay
          now entry
  else if m.isActiveEvent entry then
    { p with deactivate := p.deactivate ++ [entry] }.delay now entry
  else
    { p with
      mgr := if m.isSystemInit then m else m.gameEventSpawn t (-entry) }.delay now entry

/-- The loop of `Update` over the queue of events to be started. -/
def startQueued (now : ℕ) (s : GameEventMgr F × ℕ) (entry : ℕ) : GameEventMgr F × ℕ :=
  let r := s.1.startEvent t now entry false
  (r.1, if r.2 then 0 else s.2)

/-- `GameEventMgr::Update` : the new state and the delay of the next check in milliseconds. -/
def update [Zero F] (m : GameEventMgr F) (now : ℕ) : GameEventMgr F × ℕ :=
  let pass := (List.range' 1 (t.size - 1)).foldl (updateOne t now) { mgr := m }
  let started := pass.activate.foldl (startQueued t now) (pass.mgr, pass.nextEventDelay)
  (pass.deactivate.foldl (fun m entry => m.stopEvent t now entry false) started.1,
    toU32 ((started.2 + 1) * 1000))

/-- `GameEventMgr::HandleQuestComplete`. -/
def handleQuestComplete [Add F] (m : GameEventMgr F) (now questId : ℕ) : GameEventMgr F :=
  match t.questToEventConditions questId with
  | none => m
  | some (eventId, condition, num) =>
    let data := m.event eventId
    if !m.isActiveEvent eventId ∨ data.state ≠ .worldConditions then m
    else
      match data.conditions.find? fun c => c.1 = condition with
      | none => m
      | some c =>
        if c.2.done < c.2.reqNum then
          let done := c.2.done + num
          let done := if c.2.reqNum < done then c.2.reqNum else done
          ((m.setEvent eventId
            { data with
              conditions := data.conditions.map fun x =>
                if x.1 = condition then (x.1, { x.2 with done := done }) else x
              }).checkOneGameEventConditions now eventId).1
        else m

end GameEventMgr

end MistyWorld
