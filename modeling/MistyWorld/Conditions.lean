import MistyWorld.ElseGroups
import MistyWorld.Quest
import MistyWorld.Word

/-!
# Conditions

`ConditionMgr` loads the table `conditions` (`loadConditions`). A condition has a type with up to
three values, speaks about one of the objects of a `ConditionSourceInfo` (its condition target),
and may be negative. The conditions of a list with one `ElseGroup` must all be met, and a list is
met when those of one group are. An entry may refer to a list of the reference store instead
(`isObjectMeetToConditionList`).

Spells look for their targets in the grid with a mask of object types, computed from the list of
conditions of the target (`getSearcherTypeMaskForConditionList`) : each condition type has a mask
of the kinds of objects it can be met by.

The functions that recurse into references count the lists they are in, and stop with
`Failure.endless` when there are more than the store has. `World` is what the conditions ask of
the world and its objects, `Database` what loading asks of the other tables.
-/

open Keyed Word

namespace MistyWorld

/-- How an evaluation stops without a value : at an `ASSERT`, at an access past the targets of a
condition, or not at all. -/
inductive Failure
  | assertion
  | outOfBounds
  | endless
  deriving DecidableEq, Repr

/-! ## Objects -/

/-- The object types of the grid, in the order of the bits of `GridMapTypeMask`. -/
inductive GridMapType
  | corpse
  | creature
  | dynamicObject
  | gameObject
  | player
  | areaTrigger
  deriving DecidableEq, Inhabited, Repr

namespace GridMapType

/-- The place of the bit of the type in `GridMapTypeMask`. -/
def bit : GridMapType → ℕ
  | corpse => 0
  | creature => 1
  | dynamicObject => 2
  | gameObject => 3
  | player => 4
  | areaTrigger => 5

/-- `GridMapTypeMask` -/
def mask (k : GridMapType) : ℕ :=
  2 ^ k.bit

end GridMapType

/-- `GRID_MAP_TYPE_MASK_ALL` -/
def gridMapTypeMaskAll : ℕ :=
  0x3F

/-- `TypeMask` -/
def typeMaskObject : ℕ :=
  0x0001

@[inherit_doc typeMaskObject]
def typeMaskUnit : ℕ :=
  0x0008

@[inherit_doc typeMaskObject]
def typeMaskPlayer : ℕ :=
  0x0010

@[inherit_doc typeMaskObject]
def typeMaskGameObject : ℕ :=
  0x0020

@[inherit_doc typeMaskObject]
def typeMaskDynamicObject : ℕ :=
  0x0040

@[inherit_doc typeMaskObject]
def typeMaskCorpse : ℕ :=
  0x0080

@[inherit_doc typeMaskObject]
def typeMaskAreaTrigger : ℕ :=
  0x0100

namespace GridMapType

/-- `m_objectType`, as the constructors of the classes set it. -/
def objectType : GridMapType → ℕ
  | creature => typeMaskObject ||| typeMaskUnit
  | player => typeMaskObject ||| typeMaskUnit ||| typeMaskPlayer
  | gameObject => typeMaskObject ||| typeMaskGameObject
  | dynamicObject => typeMaskObject ||| typeMaskDynamicObject
  | corpse => typeMaskObject ||| typeMaskCorpse
  | areaTrigger => typeMaskObject ||| typeMaskAreaTrigger

/-- `GetTypeId`, a `TypeID`. -/
def typeId : GridMapType → ℕ
  | creature => 3
  | player => 4
  | gameObject => 5
  | dynamicObject => 6
  | corpse => 7
  | areaTrigger => 8

/-- `Object::isType`, of a 16-bit mask. -/
def isType (k : GridMapType) (mask : ℕ) : Bool :=
  (toU16 mask &&& k.objectType) != 0

/-- `ToUnit` does not return null. -/
def isUnit (k : GridMapType) : Bool :=
  k.isType typeMaskUnit

/-- `ToPlayer` does not return null. -/
def isPlayer (k : GridMapType) : Bool :=
  k.typeId == player.typeId

/-- `ToCreature` does not return null. -/
def isCreature (k : GridMapType) : Bool :=
  k.typeId == creature.typeId

end GridMapType

/-! ## Conditions -/

/-- `ConditionTypes`. Numbers past the last are read as `max`. -/
inductive ConditionTypes
  | none
  | aura
  | item
  | itemEquipped
  | zoneId
  | reputationRank
  | team
  | skill
  | questRewarded
  | questTaken
  | drunkenState
  | worldState
  | activeEvent
  | instanceInfo
  | questNone
  | «class»
  | race
  | achievement
  | title
  | spawnMask
  | gender
  | unitState
  | mapId
  | areaId
  | creatureType
  | spell
  | phaseMask
  | level
  | questComplete
  | nearCreature
  | nearGameObject
  | objectEntry
  | typeMask
  | relationTo
  | reactionTo
  | distanceTo
  | alive
  | hpVal
  | hpPct
  | max
  deriving DecidableEq, Repr

/-- `ConditionSourceType`. Numbers past the last are read as `max`. -/
inductive ConditionSourceType
  | none
  | creatureLootTemplate
  | disenchantLootTemplate
  | fishingLootTemplate
  | gameObjectLootTemplate
  | itemLootTemplate
  | mailLootTemplate
  | millingLootTemplate
  | pickpocketingLootTemplate
  | prospectingLootTemplate
  | referenceLootTemplate
  | skinningLootTemplate
  | spellLootTemplate
  | spellImplicitTarget
  | gossipMenu
  | gossipMenuOption
  | creatureTemplateVehicle
  | spell
  | spellClickEvent
  | questAccept
  | questShowMark
  | vehicleSpell
  | smartEvent
  | npcVendor
  | spellProc
  | phaseDefinition
  | max
  deriving DecidableEq, Repr

/-- The types in the order of their numbers. -/
def ConditionTypes.all : List ConditionTypes :=
  [none, aura, item, itemEquipped, zoneId, reputationRank, team, skill, questRewarded, questTaken,
    drunkenState, worldState, activeEvent, instanceInfo, questNone, «class», race, achievement,
    title, spawnMask, gender, unitState, mapId, areaId, creatureType, spell, phaseMask, level,
    questComplete, nearCreature, nearGameObject, objectEntry, typeMask, relationTo, reactionTo,
    distanceTo, alive, hpVal, hpPct]

/-- `ConditionTypes(n)` -/
def ConditionTypes.ofNumber (n : ℕ) : ConditionTypes :=
  all.getD n max

@[inherit_doc ConditionTypes.all]
def ConditionSourceType.all : List ConditionSourceType :=
  [none, creatureLootTemplate, disenchantLootTemplate, fishingLootTemplate, gameObjectLootTemplate,
    itemLootTemplate, mailLootTemplate, millingLootTemplate, pickpocketingLootTemplate,
    prospectingLootTemplate, referenceLootTemplate, skinningLootTemplate, spellLootTemplate,
    spellImplicitTarget, gossipMenu, gossipMenuOption, creatureTemplateVehicle, spell,
    spellClickEvent, questAccept, questShowMark, vehicleSpell, smartEvent, npcVendor, spellProc,
    phaseDefinition]

/-- `ConditionSourceType(n)` -/
def ConditionSourceType.ofNumber (n : ℕ) : ConditionSourceType :=
  all.getD n max

/-- `Condition`, with the values of its constructor. -/
structure Condition where
  sourceType : ConditionSourceType := .none
  sourceGroup : ℕ := 0
  sourceEntry : ℤ := 0
  sourceId : ℕ := 0
  elseGroup : ℕ := 0
  conditionType : ConditionTypes := .none
  conditionValue1 : ℕ := 0
  conditionValue2 : ℕ := 0
  conditionValue3 : ℕ := 0
  referenceId : ℕ := 0
  scriptId : ℕ := 0
  conditionTarget : ℕ := 0
  negativeCondition : Bool := false
  deriving DecidableEq, Repr

/-- `ConditionSourceInfo` : the targets of a condition, up to `MAX_CONDITION_TARGETS`. -/
structure ConditionSourceInfo (O : Type*) where
  target0 : Option O
  target1 : Option O := none
  target2 : Option O := none

/-- `mConditionTargets[i]` -/
def ConditionSourceInfo.target {O : Type*} (s : ConditionSourceInfo O) :
    ℕ → Except Failure (Option O)
  | 0 => .ok s.target0
  | 1 => .ok s.target1
  | 2 => .ok s.target2
  | _ => .error .outOfBounds

/-- `InstanceScript`, as far as conditions read it. -/
structure InstanceScript where
  getData : ℕ → ℕ
  getData64 : ℕ → ℕ
  getBossState : ℕ → ℕ
  deriving Inhabited

/-- What conditions ask of the world. Distances and health percentages are floats, given by
their values. `onConditionCheck` is the script of the condition, if it has one. -/
structure World (O : Type*) where
  gridType : O → GridMapType
  hasAuraEffect : O → ℕ → ℕ → Bool
  hasItemCount : O → ℕ → ℕ → Bool → Bool
  hasItemOrGemWithIdEquipped : O → ℕ → ℕ → Bool
  getZoneId : O → ℕ
  factionStore : ℕ → Bool
  getRank : O → ℕ → ℕ
  hasAchieved : O → ℕ → Bool
  getTeam : O → ℕ
  getClassMask : O → ℕ
  getRaceMask : O → ℕ
  getGender : O → ℕ
  hasSkill : O → ℕ → Bool
  getBaseSkillValue : O → ℕ → ℕ
  getQuestRewardStatus : O → ℕ → Bool
  getQuestStatus : O → ℕ → QuestStatus
  isActiveEvent : ℕ → Bool
  /-- The script of the dungeon the object is in. -/
  getInstanceScript : O → Option InstanceScript
  getMapId : O → ℕ
  getAreaId : O → ℕ
  hasSpell : O → ℕ → Bool
  getLevel : O → ℕ
  getDrunkenState : O → ℕ
  getClosestCreatureWithEntry : O → ℕ → ℚ → Option O
  getClosestGameObjectWithEntry : O → ℕ → ℚ → Option O
  getEntry : O → ℕ
  isInPartyWith : O → O → Bool
  isInRaidWith : O → O → Bool
  getOwnerGUID : O → ℕ
  getCreatorGUID : O → ℕ
  getGUID : O → ℕ
  isOnVehicle : O → O → Bool
  getReactionTo : O → O → ℕ
  getDistance : O → O → ℚ
  isAlive : O → Bool
  getHealth : O → ℕ
  getHealthPct : O → ℚ
  getWorldState : ℕ → ℕ
  getPhaseMask : O → ℕ
  hasTitle : O → ℕ → Bool
  getSpawnMode : O → ℕ
  hasUnitState : O → ℕ → Bool
  getCreatureType : O → ℕ
  /-- The conversion of an integer to a float. -/
  toFloat : ℕ → ℚ
  onConditionCheck : Condition → ConditionSourceInfo O → Bool
  deriving Inhabited

/-- `CompareValues`, by the number of the `ComparisionType`. -/
def compareValues {T : Type*} [LinearOrder T] (type : ℕ) (a b : T) : Except Failure Bool :=
  match type with
  | 0 => .ok (a = b)
  | 1 => .ok (b < a)
  | 2 => .ok (a < b)
  | 3 => .ok (b ≤ a)
  | 4 => .ok (a ≤ b)
  | _ => .error .assertion

namespace Condition

/-- `isLoaded` -/
def isLoaded (c : Condition) : Bool :=
  c.conditionType != .none || c.referenceId != 0

section Meets

variable {O : Type*} [DecidableEq O] (w : World O)

/-- The inner switch of `CONDITION_INSTANCE_INFO`, on the kind of information. -/
def instanceInfo (script : InstanceScript) (c : Condition) : Bool :=
  match c.conditionValue3 with
  | 0 => script.getData c.conditionValue1 == c.conditionValue2
  | 1 => script.getData64 c.conditionValue1 == c.conditionValue2
  | 2 => script.getBossState c.conditionValue1 == c.conditionValue2
  | _ => false

/-- The inner switch of `CONDITION_RELATION_TO`, on the `RelationType`. -/
def relationTo (unit toUnit : O) (c : Condition) : Bool :=
  match c.conditionValue2 with
  | 0 => unit = toUnit
  | 1 => w.isInPartyWith unit toUnit
  | 2 => w.isInRaidWith unit toUnit
  | 3 => w.getOwnerGUID unit == w.getGUID toUnit
  | 4 => w.isOnVehicle unit toUnit
  | 5 => w.getCreatorGUID unit == w.getGUID toUnit
  | _ => false

/-- The switch of `Meets` on the type of the condition. -/
def condMeets (s : ConditionSourceInfo O) (object : O) (c : Condition) : Except Failure Bool :=
  let isUnit := (w.gridType object).isUnit
  let isPlayer := (w.gridType object).isPlayer
  let value1 := c.conditionValue1
  let value2 := c.conditionValue2
  let value3 := c.conditionValue3
  match c.conditionType with
  | .none => .ok true
  | .aura => .ok (isUnit && w.hasAuraEffect object value1 value2)
  | .item =>
    if isPlayer then
      if value2 = 0 then
        .error .assertion
      else
        .ok (w.hasItemCount object value1 value2 (value3 != 0))
    else
      .ok false
  | .itemEquipped => .ok (isPlayer && w.hasItemOrGemWithIdEquipped object value1 1)
  | .zoneId => .ok (w.getZoneId object == value1)
  | .reputationRank =>
    .ok (isPlayer && w.factionStore value1 && (value2 &&& 2 ^ w.getRank object value1) != 0)
  | .achievement => .ok (isPlayer && w.hasAchieved object value1)
  | .team => .ok (isPlayer && w.getTeam object == value1)
  | .class => .ok (isUnit && (w.getClassMask object &&& value1) != 0)
  | .race => .ok (isUnit && (w.getRaceMask object &&& value1) != 0)
  | .gender => .ok (isPlayer && w.getGender object == value1)
  | .skill =>
    .ok (isPlayer && w.hasSkill object value1 && decide (value2 ≤ w.getBaseSkillValue object value1))
  | .questRewarded => .ok (isPlayer && w.getQuestRewardStatus object value1)
  | .questTaken => .ok (isPlayer && w.getQuestStatus object value1 == .incomplete)
  | .questComplete =>
    .ok (isPlayer && (w.getQuestStatus object value1 == .complete &&
      !w.getQuestRewardStatus object value1))
  | .questNone => .ok (isPlayer && w.getQuestStatus object value1 == .none)
  | .activeEvent => .ok (w.isActiveEvent value1)
  | .instanceInfo =>
    match w.getInstanceScript object with
    | some script => .ok (c.instanceInfo script)
    | none => .ok false
  | .mapId => .ok (w.getMapId object == value1)
  | .areaId => .ok (w.getAreaId object == value1)
  | .spell => .ok (isPlayer && w.hasSpell object value1)
  | .level => if isUnit then compareValues value2 (w.getLevel object) value1 else .ok false
  | .drunkenState => .ok (isPlayer && decide (value1 ≤ w.getDrunkenState object))
  | .nearCreature =>
    .ok (w.getClosestCreatureWithEntry object value1 (w.toFloat value2)).isSome
  | .nearGameObject =>
    .ok (w.getClosestGameObjectWithEntry object value1 (w.toFloat value2)).isSome
  | .objectEntry =>
    .ok ((w.gridType object).typeId == value1 && (value2 == 0 || w.getEntry object == value2))
  | .typeMask => .ok ((w.gridType object).isType value1)
  | .relationTo =>
    match s.target value1 with
    | .error e => .error e
    | .ok none => .ok false
    | .ok (some toObject) =>
      .ok ((w.gridType toObject).isUnit && isUnit && c.relationTo w object toObject)
  | .reactionTo =>
    match s.target value1 with
    | .error e => .error e
    | .ok none => .ok false
    | .ok (some toObject) =>
      .ok ((w.gridType toObject).isUnit && isUnit &&
        (2 ^ w.getReactionTo object toObject &&& value2) != 0)
  | .distanceTo =>
    match s.target value1 with
    | .error e => .error e
    | .ok none => .ok false
    | .ok (some toObject) => compareValues value3 (w.getDistance object toObject) (w.toFloat value2)
  | .alive => .ok (isUnit && w.isAlive object)
  | .hpVal => if isUnit then compareValues value2 (w.getHealth object) value1 else .ok false
  | .hpPct =>
    if isUnit then compareValues value2 (w.getHealthPct object) (w.toFloat value1) else .ok false
  | .worldState => .ok (value2 == w.getWorldState value1)
  | .phaseMask => .ok ((w.getPhaseMask object &&& value1) != 0)
  | .title => .ok (isPlayer && w.hasTitle object value1)
  | .spawnMask => .ok ((2 ^ w.getSpawnMode object &&& value1) != 0)
  | .unitState => .ok (isUnit && w.hasUnitState object value1)
  | .creatureType =>
    .ok ((w.gridType object).isCreature && w.getCreatureType object == value1)
  | .max => .ok false

/-- `Condition::Meets` -/
def meets (s : ConditionSourceInfo O) (c : Condition) : Except Failure Bool :=
  if 3 ≤ c.conditionTarget then
    .error .assertion
  else
    match s.target c.conditionTarget with
    | .error e => .error e
    | .ok none => .ok false
    | .ok (some object) =>
      (c.condMeets w s object).map fun met => (met != c.negativeCondition) && w.onConditionCheck c s

end Meets

/-- `Condition::GetSearcherTypeMaskForCondition` -/
def getSearcherTypeMaskForCondition (c : Condition) : Except Failure ℕ :=
  let all := gridMapTypeMaskAll
  let unit := GridMapType.creature.mask ||| GridMapType.player.mask
  let player := GridMapType.player.mask
  if c.negativeCondition then
    .ok all
  else
    match c.conditionType with
    | .none => .ok all
    | .aura => .ok unit
    | .item => .ok player
    | .itemEquipped => .ok player
    | .zoneId => .ok all
    | .reputationRank => .ok player
    | .achievement => .ok player
    | .team => .ok player
    | .class => .ok unit
    | .race => .ok unit
    | .skill => .ok player
    | .questRewarded => .ok player
    | .questTaken => .ok player
    | .questComplete => .ok player
    | .questNone => .ok player
    | .activeEvent => .ok all
    | .instanceInfo => .ok all
    | .mapId => .ok all
    | .areaId => .ok all
    | .spell => .ok player
    | .level => .ok unit
    | .drunkenState => .ok player
    | .nearCreature => .ok all
    | .nearGameObject => .ok all
    | .objectEntry =>
      match c.conditionValue1 with
      | 3 => .ok GridMapType.creature.mask
      | 4 => .ok player
      | 5 => .ok GridMapType.gameObject.mask
      | 7 => .ok GridMapType.corpse.mask
      | 8 => .ok GridMapType.areaTrigger.mask
      | _ => .ok 0
    | .typeMask =>
      let bits (mask types : ℕ) := if c.conditionValue1 &&& mask ≠ 0 then types else 0
      .ok (bits typeMaskUnit unit ||| bits typeMaskPlayer player |||
        bits typeMaskGameObject GridMapType.gameObject.mask |||
        bits typeMaskCorpse GridMapType.corpse.mask |||
        bits typeMaskAreaTrigger GridMapType.areaTrigger.mask)
    | .relationTo => .ok unit
    | .reactionTo => .ok unit
    | .distanceTo => .ok all
    | .alive => .ok unit
    | .hpVal => .ok unit
    | .hpPct => .ok unit
    | .worldState => .ok all
    | .phaseMask => .ok all
    | .title => .ok player
    | .spawnMask => .ok all
    | .gender => .ok player
    | .unitState => .ok unit
    | .creatureType => .ok GridMapType.creature.mask
    | .max => .error .assertion

/-- `GetMaxAvailableConditionTargets` -/
def getMaxAvailableConditionTargets (c : Condition) : ℕ :=
  match c.sourceType with
  | .spell | .spellImplicitTarget | .creatureTemplateVehicle | .vehicleSpell | .spellClickEvent
  | .gossipMenu | .gossipMenuOption | .smartEvent | .npcVendor | .spellProc => 2
  | _ => 1

end Condition

/-! ## The store -/

/-- `ConditionMgr` : the reference templates, and the other conditions that were kept. Which list
of the server holds which of these is left open. -/
structure ConditionMgr where
  conditionReferenceStore : List (ℕ × List Condition) := []
  loaded : List Condition := []

namespace ConditionMgr

/-- `ConditionReferenceStore.find` -/
def reference (mgr : ConditionMgr) (id : ℕ) : Option (List Condition) :=
  (find Prod.fst mgr.conditionReferenceStore id).map Prod.snd

/-- The mask of an entry, a reference or a normal condition. -/
def entryMask (mgr : ConditionMgr) (listMask : List Condition → Except Failure ℕ)
    (c : Condition) : Except Failure ℕ :=
  if c.referenceId ≠ 0 then
    match mgr.reference c.referenceId with
    | some conditions => listMask conditions
    | none => .error .assertion
  else
    c.getSearcherTypeMaskForCondition

/-- One condition of the loop of `GetSearcherTypeMaskForConditionList`. -/
def searcherTypeMaskStep (mgr : ConditionMgr) (listMask : List Condition → Except Failure ℕ)
    (elseGroupStore : List (ℕ × ℕ)) (c : Condition) : Except Failure (List (ℕ × ℕ)) :=
  if !c.isLoaded then
    .error .assertion
  else
    match find Prod.fst elseGroupStore c.elseGroup with
    | none =>
      (mgr.entryMask listMask c).map fun mask => (c.elseGroup, gridMapTypeMaskAll &&& mask) :: elseGroupStore
    | some group =>
      -- no point of checking anymore, empty mask
      if group.2 = 0 then
        .ok elseGroupStore
      else
        (mgr.entryMask listMask c).map fun mask =>
          replace Prod.fst elseGroupStore (c.elseGroup, group.2 &&& mask)

/-- `GetSearcherTypeMaskForConditionList`, in at most `depth` lists at once. -/
def searcherTypeMask (mgr : ConditionMgr) : ℕ → List Condition → Except Failure ℕ
  | 0, _ => .error .endless
  | depth + 1, conditions =>
    if conditions = [] then
      .ok gridMapTypeMaskAll
    else
      (conditions.foldlM (mgr.searcherTypeMaskStep (mgr.searcherTypeMask depth)) []).map
        fun elseGroupStore => elseGroupStore.foldl (fun mask group => mask ||| group.2) 0

/-- `GetSearcherTypeMaskForConditionList` -/
def getSearcherTypeMaskForConditionList (mgr : ConditionMgr) (conditions : List Condition) :
    Except Failure ℕ :=
  mgr.searcherTypeMask (mgr.conditionReferenceStore.length + 1) conditions

section Meets

variable {O : Type*} [DecidableEq O] (mgr : ConditionMgr) (w : World O)
  (s : ConditionSourceInfo O)

/-- Whether an entry is met, a reference or a normal condition. A reference that leads nowhere
leaves its group as it is. -/
def entryMeets (listMeets : List Condition → Except Failure Bool) (c : Condition) :
    Except Failure Bool :=
  if c.referenceId ≠ 0 then
    match mgr.reference c.referenceId with
    | some conditions => listMeets conditions
    | none => .ok true
  else
    c.meets w s

/-- One condition of the loop of `IsObjectMeetToConditionList`. -/
def meetStep (listMeets : List Condition → Except Failure Bool)
    (elseGroupStore : List (ℕ × Bool)) (c : Condition) : Except Failure (List (ℕ × Bool)) :=
  if c.isLoaded then
    match find Prod.fst elseGroupStore c.elseGroup with
    | none =>
      (mgr.entryMeets w s listMeets c).map fun met => (c.elseGroup, met) :: elseGroupStore
    | some group =>
      if !group.2 then
        .ok elseGroupStore
      else
        (mgr.entryMeets w s listMeets c).map fun met =>
          replace Prod.fst elseGroupStore (c.elseGroup, met)
  else
    .ok elseGroupStore

/-- `IsObjectMeetToConditionList`, in at most `depth` lists at once. -/
def meetList : ℕ → List Condition → Except Failure Bool
  | 0, _ => .error .endless
  | depth + 1, conditions =>
    (conditions.foldlM (mgr.meetStep w s (meetList depth)) []).map
      fun elseGroupStore => elseGroupStore.any Prod.snd

/-- `IsObjectMeetToConditionList` -/
def isObjectMeetToConditionList (conditions : List Condition) : Except Failure Bool :=
  mgr.meetList w s (mgr.conditionReferenceStore.length + 1) conditions

/-- `IsObjectMeetToConditions` of a `ConditionSourceInfo` -/
def isObjectMeetToConditions (conditions : List Condition) : Except Failure Bool :=
  if conditions = [] then .ok true else mgr.isObjectMeetToConditionList w s conditions

end Meets

end ConditionMgr

/-! ## Loading -/

/-- What loading asks of the other tables of the server. -/
structure Database where
  getSpellInfo : ℕ → Bool
  getItemTemplate : ℕ → Bool
  /-- The zone of an area. -/
  getAreaEntryByAreaID : ℕ → Option ℕ
  factionStore : ℕ → Bool
  skillLineStore : ℕ → Bool
  getConfigMaxSkillValue : ℕ
  getQuestTemplate : ℕ → Bool
  /-- The event is in the map of events, and is valid. -/
  isValidEvent : ℕ → Bool
  getAchievement : ℕ → Bool
  mapStore : ℕ → Bool
  getCreatureTemplate : ℕ → Bool
  getGameObjectTemplate : ℕ → Bool
  getWorldState : ℕ → ℕ
  charTitlesStore : ℕ → Bool
  /-- `HaveLootFor` of the loot templates of the source type. -/
  haveLootFor : ConditionSourceType → ℕ → Bool
  /-- `isReference` of the loot template of the source type and group. -/
  isReference : ConditionSourceType → ℕ → ℕ → Bool
  /-- The effect of the spell has a target of category nearby, cone or area. -/
  hasAreaTarget : ℕ → ℕ → Bool
  /-- The owner of the list named by the source group takes the condition, after those loaded. -/
  addGrouped : List Condition → Condition → Bool
  deriving Inhabited

/-- A row of the table `conditions`. -/
structure ConditionRow where
  sourceTypeOrReferenceId : ℤ
  sourceGroup : ℕ := 0
  sourceEntry : ℤ := 0
  sourceId : ℤ := 0
  elseGroup : ℕ := 0
  conditionTypeOrReference : ℤ
  conditionTarget : ℕ := 0
  conditionValue1 : ℕ := 0
  conditionValue2 : ℕ := 0
  conditionValue3 : ℕ := 0
  negativeCondition : Bool := false
  scriptId : ℕ := 0

namespace ConditionMgr

/-- `CanHaveSourceGroupSet` -/
def canHaveSourceGroupSet : ConditionSourceType → Bool
  | .creatureLootTemplate | .disenchantLootTemplate | .fishingLootTemplate
  | .gameObjectLootTemplate | .itemLootTemplate | .mailLootTemplate | .millingLootTemplate
  | .pickpocketingLootTemplate | .prospectingLootTemplate | .referenceLootTemplate
  | .skinningLootTemplate | .spellLootTemplate | .gossipMenu | .gossipMenuOption | .vehicleSpell
  | .spellImplicitTarget | .spellClickEvent | .smartEvent | .phaseDefinition | .npcVendor => true
  | _ => false

/-- `CanHaveSourceIdSet` -/
def canHaveSourceIdSet : ConditionSourceType → Bool
  | .smartEvent => true
  | _ => false

/-- `PhaseMgr::IsConditionTypeSupported` -/
def isConditionTypeSupported : ConditionTypes → Bool
  | .questRewarded | .questTaken | .questComplete | .questNone | .team | .class | .race
  | .instanceInfo | .level => true
  | _ => false

variable (db : Database)

/-- The effects of the mask that have targets to search for. -/
def areaEffects (spell sourceGroup : ℕ) : ℕ :=
  (List.range 32).foldl (fun group i =>
    if group.testBit i && !db.hasAreaTarget spell i then group ^^^ 2 ^ i else group) sourceGroup

/-- `isSourceTypeValid`. It takes effects off the source group of an implicit target. -/
def isSourceTypeValid (c : Condition) : Option Condition :=
  let entry := toU32 c.sourceEntry
  let keepIf (valid : Bool) : Option Condition := if valid then some c else none
  match c.sourceType with
  | .none | .max => none
  | .creatureLootTemplate | .disenchantLootTemplate | .fishingLootTemplate
  | .gameObjectLootTemplate | .itemLootTemplate | .mailLootTemplate | .millingLootTemplate
  | .pickpocketingLootTemplate | .prospectingLootTemplate | .referenceLootTemplate
  | .skinningLootTemplate | .spellLootTemplate =>
    keepIf (db.haveLootFor c.sourceType c.sourceGroup &&
      (db.getItemTemplate entry || db.isReference c.sourceType c.sourceGroup entry))
  | .spellImplicitTarget =>
    let group := areaEffects db entry c.sourceGroup
    if db.getSpellInfo entry ∧ c.sourceGroup ≠ 0 ∧ group ≠ 0 then
      some { c with sourceGroup := group }
    else
      none
  | .creatureTemplateVehicle => keepIf (db.getCreatureTemplate entry)
  | .spell | .spellProc => keepIf (db.getSpellInfo entry)
  | .questAccept | .questShowMark => keepIf (db.getQuestTemplate entry)
  | .vehicleSpell | .spellClickEvent =>
    keepIf (db.getCreatureTemplate c.sourceGroup && db.getSpellInfo entry)
  | .phaseDefinition => keepIf (isConditionTypeSupported c.conditionType)
  | .npcVendor => keepIf (db.getCreatureTemplate c.sourceGroup && db.getItemTemplate entry)
  | .gossipMenu | .gossipMenuOption | .smartEvent => some c

/-- The types that a condition on the type mask may not ask for. -/
def otherTypes : ℕ :=
  0xFFFFFFFF ^^^ (typeMaskUnit ||| typeMaskPlayer ||| typeMaskGameObject ||| typeMaskCorpse)

/-- The switch of `isConditionTypeValid` on the type of the condition. The masks of playable
classes and races are sums without brackets, so that only their first part is met with the
value. -/
def valuesValid (c : Condition) : Bool :=
  let value1 := c.conditionValue1
  let value2 := c.conditionValue2
  let value3 := c.conditionValue3
  let validTarget := decide (value1 < c.getMaxAvailableConditionTargets) && value1 != c.conditionTarget
  match c.conditionType with
  | .aura => db.getSpellInfo value1 && decide (value2 ≤ 2)
  | .item => db.getItemTemplate value1 && value2 != 0
  | .itemEquipped => db.getItemTemplate value1
  | .zoneId => db.getAreaEntryByAreaID value1 == some 0
  | .reputationRank => db.factionStore value1
  | .team => value1 == 469 || value1 == 67
  | .skill => db.skillLineStore value1 && decide (1 ≤ value2 ∧ value2 ≤ db.getConfigMaxSkillValue)
  | .questRewarded | .questTaken | .questNone | .questComplete => db.getQuestTemplate value1
  | .activeEvent => db.isValidEvent value1
  | .achievement => db.getAchievement value1
  | .class => (value1 &&& 0x5FF) ||| 0x200 != 0
  | .race => (value1 &&& 0x2007FF) ||| 0x3800000 != 0
  | .gender => decide (toU8 value1 ≤ 1)
  | .mapId => db.mapStore value1
  | .spell => db.getSpellInfo value1
  | .level => decide (value2 < 5)
  | .drunkenState => decide (value1 ≤ 3) && value2 == 0
  | .nearCreature => db.getCreatureTemplate value1
  | .nearGameObject => db.getGameObjectTemplate value1
  | .objectEntry =>
    match value1 with
    | 3 => value2 == 0 || db.getCreatureTemplate value2
    | 5 => value2 == 0 || db.getGameObjectTemplate value2
    | 4 | 7 => true
    | _ => false
  | .typeMask =>
    value1 != 0 && value1 &&& otherTypes == 0
  | .relationTo => validTarget && decide (value2 < 6)
  | .reactionTo => validTarget && value2 != 0
  | .distanceTo => validTarget && decide (value3 < 5)
  | .hpVal => decide (value2 < 5)
  | .hpPct => decide (value1 ≤ 100) && decide (value2 < 5)
  | .worldState => db.getWorldState value1 != 0
  | .title => db.charTitlesStore value1
  | .spawnMask => decide (value1 ≤ 0x3F)
  | .unitState => decide (value1 ≤ 0xFFFFFFFF)
  | .creatureType => value1 != 0 && decide (value1 ≤ 13)
  | .alive | .areaId | .instanceInfo | .phaseMask | .none | .max => true

/-- `isConditionTypeValid` -/
def isConditionTypeValid (c : Condition) : Bool :=
  c.conditionType != .none && c.conditionType != .max &&
    decide (c.conditionTarget < c.getMaxAvailableConditionTargets) && valuesValid db c

/-- The condition of a row, before its checks. -/
def readRow (row : ConditionRow) : Condition where
  sourceType :=
    if 0 ≤ row.sourceTypeOrReferenceId then
      .ofNumber row.sourceTypeOrReferenceId.toNat
    else
      .none
  sourceGroup := row.sourceGroup
  sourceEntry := row.sourceEntry
  sourceId := toU32 row.sourceId
  elseGroup := row.elseGroup
  conditionType :=
    if 0 ≤ row.conditionTypeOrReference then
      .ofNumber row.conditionTypeOrReference.toNat
    else
      .none
  conditionValue1 := row.conditionValue1
  conditionValue2 := row.conditionValue2
  conditionValue3 := row.conditionValue3
  referenceId :=
    if row.conditionTypeOrReference < 0 then row.conditionTypeOrReference.natAbs else 0
  scriptId := row.scriptId
  conditionTarget := row.conditionTarget
  negativeCondition := row.negativeCondition

/-- Add a condition to a reference template, new or old. -/
def addReference (mgr : ConditionMgr) (id : ℕ) (c : Condition) : ConditionMgr where
  conditionReferenceStore :=
    match mgr.reference id with
    | none => (id, [c]) :: mgr.conditionReferenceStore
    | some conditions =>
      replace Prod.fst mgr.conditionReferenceStore (id, conditions ++ [c])
  loaded := mgr.loaded

/-- The lists that take a grouped condition without further checks. -/
def takesGrouped : ConditionSourceType → Bool
  | .spellClickEvent | .vehicleSpell | .smartEvent | .phaseDefinition | .npcVendor => true
  | _ => false

/-- Add a condition that is not in a reference template. -/
def addCondition (mgr : ConditionMgr) (c : Condition) : ConditionMgr :=
  if c.sourceGroup ≠ 0 ∧ !canHaveSourceGroupSet c.sourceType then
    mgr
  else if c.sourceId ≠ 0 ∧ !canHaveSourceIdSet c.sourceType then
    mgr
  else if c.sourceGroup ≠ 0 ∧ !takesGrouped c.sourceType ∧ !db.addGrouped mgr.loaded c then
    mgr
  else
    { mgr with loaded := mgr.loaded ++ [c] }

/-- One row of `LoadConditions`. -/
def loadRow (mgr : ConditionMgr) (row : ConditionRow) : ConditionMgr :=
  let c := readRow row
  if row.conditionTypeOrReference < 0 ∧
      row.conditionTypeOrReference = row.sourceTypeOrReferenceId then
    mgr
  else if 0 ≤ row.conditionTypeOrReference ∧ !isConditionTypeValid db c then
    mgr
  else if row.sourceTypeOrReferenceId < 0 then
    mgr.addReference row.sourceTypeOrReferenceId.natAbs c
  else if 0 ≤ row.conditionTypeOrReference then
    match isSourceTypeValid db c with
    | none => mgr
    | some c => addCondition db mgr c
  else
    addCondition db mgr c

/-- `LoadConditions` -/
def loadConditions (rows : List ConditionRow) : ConditionMgr :=
  rows.foldl (loadRow db) {}

end ConditionMgr

end MistyWorld
