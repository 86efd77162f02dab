import Mathlib.Data.List.Sort
import MistyWorld.GroupRoles
import MistyWorld.SortedMap

/-!
# The queue of the dungeon finder

An `LfgQueue` has the data of the players and groups that want to go into a dungeon. Those that are
new are tried one after the other : `FindNewGroups` puts queued ones to a new one, as long as they
agree, and a list that makes a full group becomes a proposal. Those that find no group stay in the
queue.

Whether the guids of a list agree is kept in `CompatibleMapStore`, under a key made of the guids :
their decimals in order, with bars between them. The largest such key that a guid is in is its
`bestCompatible`. To find the keys of a guid, its decimals are looked for in them.

Guids are numbers, and strings lists of characters. The player states, ignore lists and groups that
the queue asks its manager for are given by an `LfgView`. What is sent to the players is left out,
and with it the times. So are the dungeon and the leader of a proposal, which are drawn at random.
-/

namespace MistyWorld

/-- `LfgCompatibility`, in its order. -/
inductive LfgCompatibility
  | pending
  | wrongGroupSize
  | tooMuchPlayers
  | multipleLfgGroups
  | hasIgnores
  | noRoles
  | noDungeons
  | withLessPlayers
  | badStates
  | matched
deriving DecidableEq

/-- The value of a constant of `LfgCompatibility`. -/
def LfgCompatibility.toNat : LfgCompatibility → ℕ
  | pending => 0
  | wrongGroupSize => 1
  | tooMuchPlayers => 2
  | multipleLfgGroups => 3
  | hasIgnores => 4
  | noRoles => 5
  | noDungeons => 6
  | withLessPlayers => 7
  | badStates => 8
  | matched => 9

/-- `MAXGROUPSIZE` -/
def maxGroupSize : ℕ := 5

/-- A string. -/
abbrev LfgKey := List Char

/-- A guid as it is written to a stream. -/
def guidString (guid : ℕ) : LfgKey :=
  Nat.toDigits 10 guid

/-- The guids of a list, in order and without duplicates. -/
def guidSet (check : List ℕ) : List ℕ :=
  check.dedup.insertionSort (· ≤ ·)

/-- `ConcatenateGuids` -/
def concatenateGuids (check : List ℕ) : LfgKey :=
  ['|'].intercalate ((guidSet check).map guidString)

/-- Whether `std::string::find` finds a guid in a key. -/
def LfgKey.mentions (key : LfgKey) (guid : ℕ) : Bool :=
  guidString guid <:+: key

/-- The number of guids of a key, in 8 bits. -/
def LfgKey.groups (key : LfgKey) : ℕ :=
  (key.count '|' + 1) % 256

/-- `LfgCompatibilityData` -/
structure LfgCompatibilityData where
  compatibility : LfgCompatibility := .pending
  roles : LfgRolesMap := []
deriving DecidableEq

/-- `LfgQueueData` -/
structure LfgQueueData where
  tanks : BitVec 8 := 1#8
  healers : BitVec 8 := 1#8
  dps : BitVec 8 := 3#8
  dungeons : Finset ℕ := ∅
  roles : LfgRolesMap := []
  bestCompatible : LfgKey := []

/-- What the queue asks its manager for. The ignore lists are those of players in the world. -/
structure LfgView where
  isGroupGuid : ℕ → Bool
  isLfgGroup : ℕ → Bool
  ignores : ℕ → ℕ → Bool
  isQueued : ℕ → Bool
  wasInDungeon : ℕ → Bool

/-- `HasIgnore` -/
def LfgView.hasIgnore (env : LfgView) (guid1 guid2 : ℕ) : Bool :=
  env.ignores guid1 guid2 || env.ignores guid2 guid1

/-- `AllQueued` -/
def LfgView.allQueued (env : LfgView) (check : List ℕ) : Bool :=
  !check.isEmpty && check.all env.isQueued

/-- A player of a proposal, with the group he is queued with. -/
structure LfgMatchPlayer where
  guid : ℕ
  role : BitVec 8
  group : ℕ
  accepted : Bool
deriving DecidableEq

/-- A proposal that the queue makes. -/
structure LfgMatch where
  queues : List ℕ
  group : ℕ
  isNew : Bool
  players : List LfgMatchPlayer
deriving DecidableEq

/-- `LFGQueue`, with the proposals it has made. -/
structure LfgQueue where
  queueData : ℕ → Option LfgQueueData := fun _ => none
  compatibles : List (LfgKey × LfgCompatibilityData) := []
  currentQueue : List ℕ := []
  newToQueue : List ℕ := []
  proposals : List LfgMatch := []

/-- `CheckGroupRoles`, with calls as deep as it needs. -/
def LfgRolesMap.check (groles : LfgRolesMap) : Bool × LfgRolesMap :=
  (checkGroupRoles (3 * groles.length + 1) groles true).getD (false, groles)

/-! ## Best compatible lists -/

/-- A role that is still needed. -/
def LfgQueueData.takeRole (data : LfgQueueData) (role : BitVec 8) : LfgQueueData :=
  if role &&& LfgRole.tank.flag ≠ 0 then { data with tanks := data.tanks - 1 }
  else if role &&& LfgRole.healer.flag ≠ 0 then { data with healers := data.healers - 1 }
  else { data with dps := data.dps - 1 }

/-- `UpdateBestCompatibleInQueue` -/
def LfgQueueData.updateBest (data : LfgQueueData) (key : LfgKey) (roles : LfgRolesMap) :
    LfgQueueData :=
  let storedSize := if data.bestCompatible = [] then 0 else data.bestCompatible.groups
  if key.groups ≤ storedSize then data
  else
    roles.foldl (fun data p => data.takeRole p.2)
      { data with bestCompatible := key, tanks := 1#8, healers := 1#8, dps := 3#8 }

/-- `FindBestCompatibleInQueue` -/
def findBest (compatibles : List (LfgKey × LfgCompatibilityData)) (guid : ℕ)
    (data : LfgQueueData) : LfgQueueData :=
  compatibles.foldl (fun data p =>
    if p.2.compatibility = .withLessPlayers ∧ p.1.mentions guid then
      data.updateBest p.1 p.2.roles
    else data) data

namespace LfgQueue

/-! ## Joining and leaving -/

/-- `AddToQueue` -/
def addToQueue (s : LfgQueue) (guid : ℕ) : LfgQueue :=
  if (s.queueData guid).isSome then { s with newToQueue := s.newToQueue ++ [guid] } else s

/-- `AddQueueData` -/
def addQueueData (s : LfgQueue) (guid : ℕ) (dungeons : Finset ℕ) (roles : LfgRolesMap) :
    LfgQueue :=
  { s with queueData := Function.update s.queueData guid (some { dungeons, roles }) }.addToQueue
    guid

/-- `RemoveFromNewQueue` and `RemoveFromCurrentQueue` -/
def leaveQueues (s : LfgQueue) (guid : ℕ) : LfgQueue :=
  { s with
    newToQueue := s.newToQueue.filter (· ≠ guid)
    currentQueue := s.currentQueue.filter (· ≠ guid) }

/-- `RemoveFromCompatibles` -/
def removeFromCompatibles (s : LfgQueue) (guid : ℕ) : LfgQueue :=
  { s with compatibles := s.compatibles.filter fun p => !p.1.mentions guid }

/-- The best compatible list of another guid, when one is removed. -/
def forgetBest (compatibles : List (LfgKey × LfgCompatibilityData)) (removed guid : ℕ)
    (data : LfgQueueData) : LfgQueueData :=
  if data.bestCompatible.mentions removed then
    findBest compatibles guid { data with bestCompatible := [] }
  else data

/-- `RemoveFromQueue` -/
def removeFromQueue (s : LfgQueue) (guid : ℕ) : LfgQueue :=
  let s := (s.leaveQueues guid).removeFromCompatibles guid
  { s with queueData := fun other =>
      if other = guid then none
      else (s.queueData other).map (forgetBest s.compatibles guid other) }

/-- `UpdateQueueTimers`. Each entry is updated on its own. -/
def updateQueueTimers (s : LfgQueue) : LfgQueue :=
  { s with queueData := fun guid => (s.queueData guid).map fun data =>
      if data.bestCompatible = [] then findBest s.compatibles guid data else data }

/-- `SetCompatibilityData` -/
def setCompatibilityData (s : LfgQueue) (key : LfgKey) (data : LfgCompatibilityData) : LfgQueue :=
  { s with compatibles := SortedMap.insert key data s.compatibles }

/-- `GetCompatibles` -/
def getCompatibles (s : LfgQueue) (key : LfgKey) : LfgCompatibility :=
  match SortedMap.find s.compatibles key with
  | some data => data.compatibility
  | none => .pending

/-- `SetCompatibles`, which keeps the roles that are stored. -/
def setCompatibles (s : LfgQueue) (key : LfgKey) (compatibles : LfgCompatibility) : LfgQueue :=
  let data := (SortedMap.find s.compatibles key).getD {}
  s.setCompatibilityData key { data with compatibility := compatibles }

/-- An entry gets a list that may be its best. -/
def updateBestOf (key : LfgKey) (roles : LfgRolesMap) (s : LfgQueue) (guid : ℕ) : LfgQueue :=
  { s with
    queueData := Function.update s.queueData guid
      ((s.queueData guid).map fun data => data.updateBest key roles) }

/-! ## Compatibility -/

/-- What is counted of a list : its players and LFG groups, and the groups of the players. -/
structure Count where
  numPlayers : ℕ := 0
  numLfgGroups : ℕ := 0
  groups : ℕ → ℕ := fun _ => 0
  group : ℕ := 0

/-- A guid with queue data is counted. -/
def Count.add (env : LfgView) (guid : ℕ) (data : LfgQueueData) (c : Count) : Count where
  numPlayers := (c.numPlayers + data.roles.length) % 256
  numLfgGroups := c.numLfgGroups + if env.isLfgGroup guid then 1 else 0
  groups := data.roles.foldl (fun groups p =>
    Function.update groups p.1 (if env.isGroupGuid guid then guid else 0)) c.groups
  group := if env.isLfgGroup guid ∧ c.numLfgGroups = 0 then guid else c.group

/-- The count of a list, or a guid without queue data. -/
def count (env : LfgView) (s : LfgQueue) : List ℕ → Count → Except ℕ Count
  | [], c => .ok c
  | guid :: check, c =>
    if c.numLfgGroups < 2 ∧ c.numPlayers ≤ maxGroupSize then
      match s.queueData guid with
      | none => .error guid
      | some data => count env s check (c.add env guid data)
    else .ok c

/-- The roles of an entry, which `QueueDataStore` makes when there is none. -/
def rolesOf (s : LfgQueue) (guid : ℕ) : LfgRolesMap :=
  ((s.queueData guid).getD {}).roles

/-- The dungeons of an entry. -/
def dungeonsOf (s : LfgQueue) (guid : ℕ) : Finset ℕ :=
  ((s.queueData guid).getD {}).dungeons

/-- A player joins those of a proposal, unless one of them ignores him. -/
def addRole (env : LfgView) (proposalRoles : LfgRolesMap) (p : ℕ × BitVec 8) : LfgRolesMap :=
  if proposalRoles.any fun p' => p.1 ≠ p'.1 && env.hasIgnore p.1 p'.1 then proposalRoles
  else SortedMap.insert p.1 p.2 proposalRoles

/-- The players of a list. -/
def proposalRoles (env : LfgView) (s : LfgQueue) (check : List ℕ) : LfgRolesMap :=
  (check.flatMap s.rolesOf).foldl (addRole env) []

/-- The common dungeons of a list. -/
def proposalDungeons (s : LfgQueue) : List ℕ → Finset ℕ
  | [] => ∅
  | guid :: check => check.foldl (fun dungeons guid => dungeons ∩ s.dungeonsOf guid)
      (s.dungeonsOf guid)

/-- The roles of the players, when the guids of a list agree. Those of a single group have been
checked before it joined. -/
def agreedRoles (env : LfgView) (s : LfgQueue) (check : List ℕ) (numPlayers : ℕ) :
    Except LfgCompatibility LfgRolesMap :=
  if 1 < check.length then
    let roles := proposalRoles env s check
    if (numPlayers - roles.length : ℤ) % 256 ≠ 0 then .error .hasIgnores
    else if !roles.check.1 then .error .noRoles
    else if proposalDungeons s check = ∅ then .error .noDungeons
    else .ok roles.check.2
  else .ok (LfgRolesMap.check (check.flatMap s.rolesOf)).2

/-- The proposal of a list. -/
def proposal (env : LfgView) (check : List ℕ) (c : Count) (roles : LfgRolesMap) : LfgMatch :=
  let isNew := c.numLfgGroups ≠ 1 || !env.wasInDungeon (check.headD 0)
  { queues := check
    group := c.group
    isNew
    players := roles.map fun p =>
      { guid := p.1
        role := p.2
        group := c.groups p.1
        accepted := !isNew && c.groups p.1 ≠ 0 && c.groups p.1 = c.group } }

/-- The end of `CheckCompatibility`, when the guids of the list agree. -/
def checkAgreed (env : LfgView) (check : List ℕ) (c : Count) (roles : LfgRolesMap) (s : LfgQueue) :
    LfgCompatibility × LfgQueue :=
  let key := concatenateGuids check
  if c.numPlayers ≠ maxGroupSize then
    let s := check.foldl (updateBestOf key roles) s
    (.withLessPlayers, s.setCompatibilityData key ⟨.withLessPlayers, roles⟩)
  else if !env.allQueued check then (.badStates, s.setCompatibles key .badStates)
  else
    let s := check.foldl leaveQueues s
    let s := { s with proposals := s.proposals ++ [proposal env check c roles] }
    (.matched, s.setCompatibles key .matched)

/-- `CheckCompatibility`, from the count of the players on. -/
def checkGroups (env : LfgView) (check : List ℕ) (s : LfgQueue) : LfgCompatibility × LfgQueue :=
  let key := concatenateGuids check
  match count env s check {} with
  | .error guid => (.pending, s.removeFromQueue guid)
  | .ok c =>
    if check.length = 1 ∧ c.numPlayers ≠ maxGroupSize then
      let roles := (LfgRolesMap.check (check.flatMap s.rolesOf)).2
      let s := check.foldl (updateBestOf key roles) s
      (.withLessPlayers, s.setCompatibilityData key ⟨.withLessPlayers, roles⟩)
    else if 1 < c.numLfgGroups then
      (.multipleLfgGroups, s.setCompatibles key .multipleLfgGroups)
    else if maxGroupSize < c.numPlayers then
      (.tooMuchPlayers, s.setCompatibles key .tooMuchPlayers)
    else
      match agreedRoles env s check c.numPlayers with
      | .error compatibility => (compatibility, s.setCompatibles key compatibility)
      | .ok roles => checkAgreed env check c roles s

/-- `CheckCompatibility`. A longer list is checked without its first guid before. -/
def checkCompatibility (env : LfgView) : List ℕ → LfgQueue → LfgCompatibility × LfgQueue
  | [], s => (.wrongGroupSize, s)
  | guid :: check, s =>
    if maxGroupSize < (guid :: check).length then (.wrongGroupSize, s)
    else if 2 < (guid :: check).length then
      let child := checkCompatibility env check s
      if child.1.toNat < LfgCompatibility.withLessPlayers.toNat then
        (child.1, child.2.setCompatibles (concatenateGuids (guid :: check)) child.1)
      else checkGroups env (guid :: check) child.2
    else checkGroups env (guid :: check) s

/-! ## The search -/

/-- The compatibility of a list as `FindNewGroups` sees it : what is stored, or what is found. -/
def lookCompatibility (env : LfgView) (check : List ℕ) (s : LfgQueue) :
    LfgCompatibility × LfgQueue :=
  let key := concatenateGuids check
  let found := if s.getCompatibles key = .pending then checkCompatibility env check s
    else (s.getCompatibles key, s)
  if found.1 = .badStates ∧ env.allQueued check then (.matched, found.2.setCompatibles key .matched)
  else found

/-- The loop of `FindNewGroups` over `all`, which `again` shortens, in the given number of
rounds. -/
def matchLoop (again : List ℕ → List ℕ → LfgQueue → Option (LfgCompatibility × List ℕ × LfgQueue))
    (compatibles : LfgCompatibility) (check : List ℕ) :
    ℕ → List ℕ → LfgQueue → Option (LfgCompatibility × List ℕ × LfgQueue)
  | _, [], s => some (compatibles, [], s)
  | 0, _ :: _, _ => none
  | rounds + 1, guid :: all, s =>
    match again (check ++ [guid]) all s with
    | none => none
    | some (subcompatibility, all, s) =>
      if subcompatibility = .matched then some (.matched, all, s)
      else matchLoop again compatibles check rounds all s

/-- `FindNewGroups`, with what is left of `all`. Calls are nested no deeper than `fuel`. -/
def findNewGroups (env : LfgView) :
    ℕ → List ℕ → List ℕ → LfgQueue → Option (LfgCompatibility × List ℕ × LfgQueue)
  | 0, _, _, _ => none
  | fuel + 1, check, all, s =>
    let found := lookCompatibility env check s
    if found.1 ≠ .withLessPlayers then some (found.1, all, found.2)
    else matchLoop (findNewGroups env fuel) found.1 check all.length all found.2

/-- `FindGroups`, for the new guids in the given number of rounds, with the proposals it counts. -/
def findGroups (env : LfgView) : ℕ → ℕ → LfgQueue → Option (ℕ × LfgQueue)
  | rounds, proposals, s =>
    match s.newToQueue, rounds with
    | [], _ => some (proposals, s)
    | _ :: _, 0 => none
    | frontguid :: _, rounds + 1 =>
      let s := { s with newToQueue := s.newToQueue.filter (· ≠ frontguid) }
      match findNewGroups env (s.currentQueue.length + 1) [frontguid] s.currentQueue s with
      | none => none
      | some (compatibles, _, s) =>
        if compatibles = .matched then findGroups env rounds ((proposals + 1) % 256) s
        else findGroups env rounds proposals
          { s with currentQueue := s.currentQueue ++ [frontguid] }

end LfgQueue

end MistyWorld
