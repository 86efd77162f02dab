import Mathlib.Data.Option.Basic
import Mathlib.Logic.Function.Basic
import MistyWorld.Keyed
import MistyWorld.Run

/-!
# Instance binds

A save lists the players and the groups that are bound to it, and each of these holds the save in
`m_boundInstances`, by difficulty and map. The last one that leaves a save deletes it, unless
`lock_instLists` is set. Saves are objects on a heap : a use of a deleted save, a difficulty beyond
the array `m_boundInstances`, a loop that does not end and the assertion in `~InstanceSave` are no
states but failures.

`AddInstanceSave` takes six difficulties of a raid, and `m_boundInstances` has four. So the binds
are two-way, with no failure, as long as difficulties beyond the array are not used
(`bind_run`), and else fail (`not_bound_flexRaid`).

Statements, packets and what a reset does to maps are left out. Hash maps are lists in the order of
their iteration, a new key first.
-/

open Keyed Option Function List Machine

namespace MistyWorld

/-- `MAX_DIFFICULTY`, the length of `m_boundInstances`. -/
def maxDifficulty : ℕ :=
  4

/-- `MAX_DUNGEON_DIFFICULTY` -/
def maxDungeonDifficulty : ℕ :=
  3

/-- `MAX_RAID_DIFFICULTY` -/
def maxRaidDifficulty : ℕ :=
  6

/-- `DUNGEON_DIFFICULTY_HEROIC` -/
def dungeonDifficultyHeroic : ℕ :=
  1

/-- Who is bound to instances. -/
inductive Holder
  | player (guid : ℕ)
  | group (guid : ℕ)
deriving DecidableEq

/-- `InstanceSave` -/
structure InstanceSave where
  instanceId : ℕ
  mapid : ℕ
  difficulty : ℕ
  canReset : Bool
  playerList : List ℕ := []
  groupList : List ℕ := []
  toDelete : Bool := false

namespace InstanceSave

/-- `AddPlayer`, `AddGroup` : the push to the list. -/
def push (save : InstanceSave) : Holder → InstanceSave
  | .player p => { save with playerList := save.playerList ++ [p] }
  | .group g => { save with groupList := save.groupList ++ [g] }

/-- The removal of `RemovePlayer` and `RemoveGroup` from the list. -/
def drop (save : InstanceSave) : Holder → InstanceSave
  | .player p => { save with playerList := save.playerList.filter (· ≠ p) }
  | .group g => { save with groupList := save.groupList.filter (· ≠ g) }

/-- How often one is in the list. -/
def count (save : InstanceSave) : Holder → ℕ
  | .player p => save.playerList.count p
  | .group g => save.groupList.count g

/-- Nobody is bound. -/
def isEmpty (save : InstanceSave) : Bool :=
  save.playerList.isEmpty && save.groupList.isEmpty

end InstanceSave

/-- `InstancePlayerBind`, `InstanceGroupBind` : the save by its place on the heap. -/
structure InstanceBind where
  save : ℕ
  perm : Bool

/-- The maps, which of them are raids and which difficulties they have, and the groups of
battlegrounds. -/
structure BindConfig where
  isRaid : ℕ → Option Bool
  mapDifficulty : ℕ → ℕ → Bool
  isBGGroup : ℕ → Bool

/-- The saves on the heap, those in `m_instanceSaveById`, and who is bound to which of them. -/
structure InstanceBinds where
  saves : ℕ → Option InstanceSave := fun _ => none
  nextSave : ℕ := 0
  byId : List (ℕ × ℕ) := []
  lockInstLists : Bool := false
  bound : Holder → ℕ → List (ℕ × InstanceBind) := fun _ _ => []

namespace InstanceBinds

variable (cfg : BindConfig)

/-- `m_boundInstances[difficulty]` -/
def boundInstances (s : InstanceBinds) (h : Holder) (difficulty : ℕ) :
    Option (List (ℕ × InstanceBind)) :=
  if difficulty < maxDifficulty then some (s.bound h difficulty) else none

/-- Write `m_boundInstances[difficulty]`. -/
def setBound (s : InstanceBinds) (h : Holder) (difficulty : ℕ) (binds : List (ℕ × InstanceBind)) :
    InstanceBinds :=
  { s with bound := fun h' d => if h' = h ∧ d = difficulty then binds else s.bound h' d }

/-- Write a save. -/
def setSave (s : InstanceBinds) (a : ℕ) (save : Option InstanceSave) : InstanceBinds :=
  { s with saves := update s.saves a save }

/-- `AddInstanceSave` -/
def addInstanceSave (s : InstanceBinds) (mapId instanceId difficulty : ℕ) (canReset : Bool) :
    InstanceBinds :=
  match find Prod.fst s.byId instanceId with
  | some _ => s
  | none =>
    match cfg.isRaid mapId with
    | none => s
    | some raid =>
      if instanceId = 0 then
        s
      else if difficulty ≥ (if raid then maxRaidDifficulty else maxDungeonDifficulty) then
        s
      else
        { s.setSave s.nextSave (some
            { instanceId, mapid := mapId % 2 ^ 16, difficulty, canReset }) with
          nextSave := s.nextSave + 1
          byId := (instanceId, s.nextSave) :: s.byId }

/-- `RemoveInstanceSave` -/
def removeInstanceSave (s : InstanceBinds) (instanceId : ℕ) : Option InstanceBinds :=
  match find Prod.fst s.byId instanceId with
  | none => some s
  | some entry => do
    let save ← s.saves entry.2
    some { s.setSave entry.2 (some { save with toDelete := true }) with
      byId := remove Prod.fst s.byId instanceId }

/-- `delete`, with the assertion of `~InstanceSave`. -/
def deleteSave (s : InstanceBinds) (a : ℕ) : Option InstanceBinds := do
  let save ← s.saves a
  if save.isEmpty then some (s.setSave a none) else none

/-- `AddPlayer`, `AddGroup` -/
def addHolder (s : InstanceBinds) (a : ℕ) (h : Holder) : Option InstanceBinds := do
  let save ← s.saves a
  some (s.setSave a (some (save.push h)))

/-- `RemovePlayer`, `RemoveGroup`, with `UnloadIfEmpty`. -/
def removeHolder (s : InstanceBinds) (a : ℕ) (h : Holder) : Option InstanceBinds := do
  let save ← s.saves a
  let save := save.drop h
  let s := s.setSave a (some save)
  let s ← if save.isEmpty && !s.lockInstLists then s.removeInstanceSave save.instanceId else some s
  let save ← s.saves a
  if save.toDelete then s.deleteSave a else some s

/-- `UnbindInstance` of players and groups. -/
def unbindInstance (s : InstanceBinds) (h : Holder) (mapid difficulty : ℕ) :
    Option InstanceBinds := do
  let binds ← s.boundInstances h difficulty
  match find Prod.fst binds mapid with
  | none => some s
  | some entry => do
    let s ← s.removeHolder entry.2.save h
    some (s.setBound h difficulty (remove Prod.fst (s.bound h difficulty) mapid))

/-- `BindToInstance` of players and groups. -/
def bindToInstance (s : InstanceBinds) (h : Holder) (a : ℕ) (permanent : Bool) :
    Option InstanceBinds := do
  let save ← s.saves a
  let binds ← s.boundInstances h save.difficulty
  let s ← match find Prod.fst binds save.mapid with
    | none => s.addHolder a h
    | some entry =>
      if entry.2.save = a then
        some s
      else do
        let s ← s.removeHolder entry.2.save h
        s.addHolder a h
  some (s.setBound h save.difficulty ((save.mapid, ⟨a, permanent⟩) ::
    remove Prod.fst (s.bound h save.difficulty) save.mapid))

/-- `Player::BindToInstance`. A permanent bind of a player keeps the save from resets. -/
def playerBindToInstance (s : InstanceBinds) (player a : ℕ) (permanent : Bool) :
    Option InstanceBinds := do
  let s ← s.bindToInstance (.player player) a permanent
  if permanent then do
    let save ← s.saves a
    some (s.setSave a (some { save with canReset := false }))
  else
    some s

/-- `Group::BindToInstance` -/
def groupBindToInstance (s : InstanceBinds) (group a : ℕ) (permanent : Bool) :
    Option InstanceBinds :=
  if cfg.isBGGroup group then some s else s.bindToInstance (.group group) a permanent

/-- The difficulty of `GetDownscaledMapDifficultyData`, in 32 bits. -/
def downscaled (mapId difficulty : ℕ) : ℕ :=
  if cfg.mapDifficulty mapId difficulty then
    difficulty
  else
    let lower := if difficulty > 1 then difficulty - 2 else (difficulty + (2 ^ 32 - 1)) % 2 ^ 32
    if cfg.mapDifficulty mapId lower then lower else (lower + (2 ^ 32 - 1)) % 2 ^ 32

/-- Whether `Group::GetBoundInstance` finds a bind. -/
def groupHasBound (s : InstanceBinds) (group difficulty mapId : ℕ) : Option Bool := do
  let binds ← s.boundInstances (.group group) (downscaled cfg mapId difficulty)
  some (find Prod.fst binds mapId).isSome

/-- The turn of `ConvertInstancesToGroup` for a bind. -/
def convertBind (player group : ℕ) (switchLeader : Bool) (difficulty : ℕ) (s : InstanceBinds)
    (entry : ℕ × InstanceBind) : Option InstanceBinds := do
  let save ← s.saves entry.2.save
  let keeps ←
    (if switchLeader then s.groupHasBound cfg group save.difficulty entry.1 else some false)
  let s ← (if keeps then some s else s.groupBindToInstance cfg group entry.2.save entry.2.perm)
  if switchLeader && !entry.2.perm then
    s.unbindInstance (.player player) entry.1 difficulty
  else
    some s

/-- `ConvertInstancesToGroup` -/
def convertInstancesToGroup (s : InstanceBinds) (player group : ℕ) (switchLeader : Bool) :
    Option InstanceBinds :=
  (List.range maxDifficulty).foldlM (fun s difficulty =>
    (s.bound (.player player) difficulty).foldlM
      (convertBind cfg player group switchLeader difficulty) s) s

/-- The methods of a reset. -/
inductive ResetMethod
  | all
  | changeDifficulty
  | groupDisband
deriving DecidableEq

/-- Whether `Group::ResetInstances` resets a bind. `havePlayers` says of an instance whether its
map is loaded, and has players. -/
def resetsBind (method : ResetMethod) (isRaid : Bool) (difficulty : ℕ)
    (havePlayers : ℕ → Option Bool) (s : InstanceBinds) (entry : ℕ × InstanceBind) :
    Option Bool := do
  let save ← s.saves entry.2.save
  let isEmpty :=
    match havePlayers save.instanceId with
    | none => true
    | some players => if method = .groupDisband && !save.canReset then true else !players
  some (match cfg.isRaid entry.1 with
    | none => false
    | some raid =>
      raid = isRaid && (save.canReset || method = .groupDisband) &&
        !(method = .all && (raid || difficulty = dungeonDifficultyHeroic)) &&
        (isEmpty || method = .groupDisband || method = .changeDifficulty))

/-- The loop of `Group::ResetInstances`, which starts again after each bind that it resets. -/
def resetLoop (group : ℕ) (method : ResetMethod) (isRaid : Bool) (difficulty : ℕ)
    (havePlayers : ℕ → Option Bool) : ℕ → InstanceBinds → Option InstanceBinds
  | 0, _ => none
  | rounds + 1, s => do
    let binds ← s.boundInstances (.group group) difficulty
    match ← binds.findM? (s.resetsBind cfg method isRaid difficulty havePlayers) with
    | none => some s
    | some entry => do
      let s := s.setBound (.group group) difficulty (remove Prod.fst binds entry.1)
      let s ← s.removeHolder entry.2.save (.group group)
      resetLoop group method isRaid difficulty havePlayers rounds s

/-- `Group::ResetInstances`, with `GetDifficulty(isRaid)`. -/
def groupResetInstances (s : InstanceBinds) (group : ℕ) (method : ResetMethod) (isRaid : Bool)
    (difficulty : ℕ) (havePlayers : ℕ → Option Bool) : Option InstanceBinds :=
  if cfg.isBGGroup group then
    some s
  else
    resetLoop cfg group method isRaid difficulty havePlayers
      ((s.bound (.group group) difficulty).length + 1) s

/-- The first player or group of a save. -/
def firstPlayer (save : InstanceSave) : Option Holder :=
  save.playerList.head?.map .player

@[inherit_doc firstPlayer]
def firstGroup (save : InstanceSave) : Option Holder :=
  save.groupList.head?.map .group

/-- The loops of `_ResetSave`, which unbind the first one of a save until there is none. -/
def unbindLoop (first : InstanceSave → Option Holder) (a : ℕ) :
    ℕ → InstanceBinds → Option InstanceBinds
  | 0, s => do
    let save ← s.saves a
    if (first save).isNone then some s else none
  | rounds + 1, s => do
    let save ← s.saves a
    match first save with
    | none => some s
    | some h => do
      let s ← s.unbindInstance h save.mapid save.difficulty
      unbindLoop first a rounds s

/-- `_ResetSave`, for an entry of `m_instanceSaveById`. -/
def resetSave (s : InstanceBinds) (entry : ℕ × ℕ) : Option InstanceBinds := do
  let s := { s with lockInstLists := true }
  let save ← s.saves entry.2
  let s ← unbindLoop firstPlayer entry.2 save.playerList.length s
  let save ← s.saves entry.2
  let s ← unbindLoop firstGroup entry.2 save.groupList.length s
  let s ← s.deleteSave entry.2
  some { s with byId := remove Prod.fst s.byId entry.1, lockInstLists := false }

/-- `_ResetInstance` of a map that is instanceable. -/
def resetInstance (s : InstanceBinds) (instanceId : ℕ) : Option InstanceBinds :=
  match find Prod.fst s.byId instanceId with
  | none => some s
  | some entry => s.resetSave entry

/-- The global reset of `_ResetOrWarnAll`. -/
def globalReset (s : InstanceBinds) (mapid difficulty : ℕ) : Option InstanceBinds :=
  s.byId.foldlM (fun s entry => do
    let save ← s.saves entry.2
    if save.mapid = mapid ∧ save.difficulty = difficulty then s.resetSave entry else some s) s

/-- The calls. A save is one of `m_instanceSaveById`, by its instance. -/
inductive BindCall
  | addInstanceSave (mapId instanceId difficulty : ℕ) (canReset : Bool)
  | playerBind (player instanceId : ℕ) (permanent : Bool)
  | playerUnbind (player mapid difficulty : ℕ)
  | groupBind (group instanceId : ℕ) (permanent : Bool)
  | groupUnbind (group mapid difficulty : ℕ)
  | groupReset (group : ℕ) (method : ResetMethod) (isRaid : Bool) (difficulty : ℕ)
      (havePlayers : ℕ → Option Bool)
  | convert (player group : ℕ) (switchLeader : Bool)
  | resetInstance (instanceId : ℕ)
  | globalReset (mapid difficulty : ℕ)

/-- `GetInstanceSave` -/
def getInstanceSave (s : InstanceBinds) (instanceId : ℕ) : Option ℕ :=
  (find Prod.fst s.byId instanceId).map Prod.snd

/-- The binds after a call. -/
def serve (s : InstanceBinds) : BindCall → Option InstanceBinds
  | .addInstanceSave mapId instanceId difficulty canReset =>
    some (s.addInstanceSave cfg mapId instanceId difficulty canReset)
  | .playerBind player instanceId permanent =>
    match s.getInstanceSave instanceId with
    | none => some s
    | some a => s.playerBindToInstance player a permanent
  | .playerUnbind player mapid difficulty => s.unbindInstance (.player player) mapid difficulty
  | .groupBind group instanceId permanent =>
    match s.getInstanceSave instanceId with
    | none => some s
    | some a => s.groupBindToInstance cfg group a permanent
  | .groupUnbind group mapid difficulty => s.unbindInstance (.group group) mapid difficulty
  | .groupReset group method isRaid difficulty havePlayers =>
    s.groupResetInstances cfg group method isRaid difficulty havePlayers
  | .convert player group switchLeader =>
    s.convertInstancesToGroup cfg player group switchLeader
  | .resetInstance instanceId => s.resetInstance instanceId
  | .globalReset mapid difficulty => s.globalReset mapid difficulty

/-- A failure stays one. -/
def serveAll (s : Option InstanceBinds) (call : BindCall) : Option InstanceBinds :=
  s.bind fun s => s.serve cfg call

/-! ## The law -/

/-- The save that one is bound to, for a difficulty and map. -/
def held (s : InstanceBinds) (h : Holder) (difficulty mapid : ℕ) : Option ℕ :=
  (find Prod.fst (s.bound h difficulty) mapid).map fun entry => entry.2.save

/-- Binds are two-way, and of saves that are registered. -/
structure TwoWay (s : InstanceBinds) : Prop where
  count : ∀ a save, s.saves a = some save → ∀ h,
    save.count h = if s.held h save.difficulty save.mapid = some a then 1 else 0
  registered : ∀ h difficulty mapid a, s.held h difficulty mapid = some a →
    ∃ save, s.saves a = some save ∧ s.getInstanceSave save.instanceId = some a

/-- When a call uses no difficulty beyond `m_boundInstances`. -/
def InArray (s : InstanceBinds) : BindCall → Prop
  | .playerBind _ instanceId _ => ∀ a save, s.getInstanceSave instanceId = some a →
    s.saves a = some save → save.difficulty < maxDifficulty
  | .groupBind group instanceId _ => cfg.isBGGroup group ∨
    ∀ a save, s.getInstanceSave instanceId = some a → s.saves a = some save →
      save.difficulty < maxDifficulty
  | .playerUnbind _ _ difficulty | .groupUnbind _ _ difficulty => difficulty < maxDifficulty
  | .groupReset group _ _ difficulty _ => cfg.isBGGroup group ∨ difficulty < maxDifficulty
  | .convert player _ switchLeader => switchLeader = true →
    ∀ difficulty, difficulty < maxDifficulty → ∀ entry ∈ s.bound (.player player) difficulty,
      downscaled cfg entry.1 difficulty < maxDifficulty
  | .addInstanceSave .. | .resetInstance _ | .globalReset .. => True

/-! ## The lists of a save -/

variable {save : InstanceSave} {h h' : Holder}

theorem count_push : (save.push h).count h' = save.count h' + if h' = h then 1 else 0 := by
  have hone : ∀ (l : List ℕ) (p q : ℕ),
      (l ++ [p]).count q = l.count q + if q = p then 1 else 0 := by
    intro l p q
    by_cases hq : q = p
    · simp [hq]
    · simp [hq, Ne.symm hq]
  cases h <;> cases h' <;> simp [InstanceSave.push, InstanceSave.count, hone]

theorem count_drop : (save.drop h).count h' = if h' = h then 0 else save.count h' := by
  cases h with
  | player p =>
    cases h' with
    | player q =>
      by_cases hq : q = p
      · simp [InstanceSave.drop, InstanceSave.count, hq, count_eq_zero]
      · simp [InstanceSave.drop, InstanceSave.count, hq, count_filter]
    | group q => simp [InstanceSave.drop, InstanceSave.count]
  | group p =>
    cases h' with
    | player q => simp [InstanceSave.drop, InstanceSave.count]
    | group q =>
      by_cases hq : q = p
      · simp [InstanceSave.drop, InstanceSave.count, hq, count_eq_zero]
      · simp [InstanceSave.drop, InstanceSave.count, hq, count_filter]

theorem isEmpty_iff : save.isEmpty = true ↔ ∀ h, save.count h = 0 := by
  rw [InstanceSave.isEmpty, Bool.and_eq_true, List.isEmpty_iff, List.isEmpty_iff]
  constructor
  · rintro ⟨hp, hg⟩ (p | g)
    · simp [InstanceSave.count, hp]
    · simp [InstanceSave.count, hg]
  · intro h
    exact ⟨eq_nil_iff_forall_not_mem.2 fun p => count_eq_zero.1 (h (.player p)),
      eq_nil_iff_forall_not_mem.2 fun g => count_eq_zero.1 (h (.group g))⟩

@[simp] theorem push_instanceId : (save.push h).instanceId = save.instanceId := by
  cases h <;> rfl

@[simp] theorem push_mapid : (save.push h).mapid = save.mapid := by
  cases h <;> rfl

@[simp] theorem push_difficulty : (save.push h).difficulty = save.difficulty := by
  cases h <;> rfl

@[simp] theorem push_toDelete : (save.push h).toDelete = save.toDelete := by
  cases h <;> rfl

@[simp] theorem drop_instanceId : (save.drop h).instanceId = save.instanceId := by
  cases h <;> rfl

@[simp] theorem drop_mapid : (save.drop h).mapid = save.mapid := by
  cases h <;> rfl

@[simp] theorem drop_difficulty : (save.drop h).difficulty = save.difficulty := by
  cases h <;> rfl

@[simp] theorem drop_toDelete : (save.drop h).toDelete = save.toDelete := by
  cases h <;> rfl

/-! ## The invariant -/

/-- What the calls keep. -/
structure Sound (s : InstanceBinds) : Prop where
  ids : (s.byId.map Prod.fst).Nodup
  keys : ∀ h difficulty, ((s.bound h difficulty).map Prod.fst).Nodup
  live : ∀ {a save}, s.saves a = some save →
    (save.instanceId, a) ∈ s.byId ∧ a < s.nextSave ∧ save.toDelete = false
  registered : ∀ {entry}, entry ∈ s.byId →
    ∃ save, s.saves entry.2 = some save ∧ save.instanceId = entry.1
  held : ∀ {h difficulty mapid a}, s.held h difficulty mapid = some a → difficulty < maxDifficulty ∧
    ∃ save, s.saves a = some save ∧ save.mapid = mapid ∧ save.difficulty = difficulty
  count : ∀ {a save}, s.saves a = some save → ∀ h,
    save.count h = if s.held h save.difficulty save.mapid = some a then 1 else 0

variable {s : InstanceBinds} {a difficulty mapid : ℕ} {binds : List (ℕ × InstanceBind)}

theorem Sound.find_byId (hs : s.Sound) {entry : ℕ × ℕ} (h : entry ∈ s.byId) :
    find Prod.fst s.byId entry.1 = some entry :=
  find_of_mem hs.ids h

theorem Sound.twoWay (hs : s.Sound) : s.TwoWay := by
  refine ⟨fun a save ha h => hs.count ha h, fun h difficulty mapid a hheld => ?_⟩
  obtain ⟨-, save, ha, -, -⟩ := hs.held hheld
  exact ⟨save, ha, by rw [getInstanceSave, hs.find_byId (hs.live ha).1]; rfl⟩

theorem sound_empty : Sound {} :=
  ⟨.nil, fun _ _ => .nil, fun h => absurd h (by simp), fun h => absurd h not_mem_nil,
    fun h => absurd h (by simp [InstanceBinds.held, find]), fun h => absurd h (by simp)⟩

theorem boundInstances_of_lt (hlt : difficulty < maxDifficulty) :
    s.boundInstances h difficulty = some (s.bound h difficulty) :=
  if_pos hlt

theorem held_eq_of_mem (hs : s.Sound) {entry : ℕ × InstanceBind}
    (hentry : entry ∈ s.bound h difficulty) : s.held h difficulty entry.1 = some entry.2.save := by
  rw [InstanceBinds.held, find_of_mem (hs.keys h difficulty) hentry]
  rfl

theorem Sound.eq_of_instanceId (hs : s.Sound) {c : ℕ} {save save' : InstanceSave}
    (ha : s.saves a = some save) (hc : s.saves c = some save')
    (hid : save'.instanceId = save.instanceId) : c = a := by
  have hfirst := hs.find_byId (hs.live ha).1
  have hsecond := hs.find_byId (hs.live hc).1
  rw [hid, hfirst, some.injEq] at hsecond
  exact (congrArg Prod.snd hsecond).symm

/-! ## One leaves a save -/

/-- The state after `removeHolder`. -/
def dropped (s : InstanceBinds) (a : ℕ) (save : InstanceSave) (h : Holder) : InstanceBinds :=
  if (save.drop h).isEmpty && !s.lockInstLists then
    { s.setSave a none with byId := remove Prod.fst s.byId save.instanceId }
  else
    s.setSave a (some (save.drop h))

theorem removeHolder_eq (hfind : find Prod.fst s.byId save.instanceId =
      some (save.instanceId, a)) (ha : s.saves a = some save) (hkeep : save.toDelete = false) :
    s.removeHolder a h = some (s.dropped a save h) := by
  have hfind' : find Prod.fst s.byId (save.drop h).instanceId =
      some (save.instanceId, a) := by
    rw [drop_instanceId, hfind]
  rw [removeHolder, dropped, ha]
  simp only [bind_eq_bind, bind_some]
  by_cases hempty :
    ((save.drop h).isEmpty && !(s.setSave a (some (save.drop h))).lockInstLists) = true
  · have hnone : { save.drop h with toDelete := true }.isEmpty = true := by
      rw [Bool.and_eq_true] at hempty
      exact hempty.1
    rw [if_pos hempty]
    rw [if_pos (show ((save.drop h).isEmpty && !s.lockInstLists) = true from hempty)]
    simp only [removeInstanceSave, setSave, hfind', update_self, bind_eq_bind,
      bind_some, if_true, deleteSave, update_idem]
    rw [if_pos hnone, drop_instanceId]
  · rw [if_neg hempty]
    rw [if_neg (show ¬((save.drop h).isEmpty && !s.lockInstLists) = true from hempty)]
    simp only [setSave, update_self, bind_some, drop_toDelete, hkeep,
      Bool.false_eq_true, if_false]

theorem saves_dropped_of_ne {c : ℕ} (hne : c ≠ a) : (s.dropped a save h).saves c = s.saves c := by
  rw [dropped]
  split <;> exact update_of_ne hne _ _

theorem saves_dropped_self : (s.dropped a save h).saves a =
    if (save.drop h).isEmpty && !s.lockInstLists then none else some (save.drop h) := by
  rw [dropped]
  split <;> exact update_self _ _ _

theorem byId_dropped : (s.dropped a save h).byId =
    if (save.drop h).isEmpty && !s.lockInstLists then
      remove Prod.fst s.byId save.instanceId else s.byId := by
  rw [dropped]
  split <;> rfl

@[simp] theorem bound_dropped : (s.dropped a save h).bound = s.bound := by
  rw [dropped]
  split <;> rfl

@[simp] theorem nextSave_dropped : (s.dropped a save h).nextSave = s.nextSave := by
  rw [dropped]
  split <;> rfl

@[simp] theorem lockInstLists_dropped : (s.dropped a save h).lockInstLists = s.lockInstLists := by
  rw [dropped]
  split <;> rfl

/-! ## The maps of binds -/

theorem held_setBound (binds : List (ℕ × InstanceBind)) (h' : Holder) (d' m' : ℕ) :
    (s.setBound h difficulty binds).held h' d' m' =
      if h' = h ∧ d' = difficulty then
        (find Prod.fst binds m').map fun entry => entry.2.save
      else
        s.held h' d' m' := by
  rw [InstanceBinds.held, setBound]
  dsimp only
  split <;> rfl

theorem held_setBound_remove (h' : Holder) (d' m' : ℕ) :
    (s.setBound h difficulty (remove Prod.fst (s.bound h difficulty) mapid)).held h' d' m' =
      if h' = h ∧ d' = difficulty ∧ m' = mapid then none else s.held h' d' m' := by
  rw [held_setBound]
  by_cases hm : m' = mapid
  · subst hm
    rw [find_remove_self]
    by_cases hhd : h' = h ∧ d' = difficulty
    · rw [if_pos hhd, if_pos ⟨hhd.1, hhd.2, rfl⟩]
      rfl
    · rw [if_neg hhd, if_neg fun hall => hhd ⟨hall.1, hall.2.1⟩]
  · have hno : ¬(h' = h ∧ d' = difficulty ∧ m' = mapid) := fun hall => hm hall.2.2
    rw [find_remove_of_ne hm, if_neg hno]
    split
    · next hhd => rw [hhd.1, hhd.2]; rfl
    · rfl

theorem held_setBound_cons (b : InstanceBind) (h' : Holder) (d' m' : ℕ) :
    (s.setBound h difficulty
      ((mapid, b) :: remove Prod.fst (s.bound h difficulty) mapid)).held h' d' m' =
      if h' = h ∧ d' = difficulty ∧ m' = mapid then some b.save else s.held h' d' m' := by
  rw [held_setBound]
  by_cases hm : m' = mapid
  · subst hm
    have hself : find Prod.fst ((m', b) ::
        remove Prod.fst (s.bound h difficulty) m') m' = some (m', b) :=
      find_cons_self _ (m', b)
    rw [hself]
    by_cases hhd : h' = h ∧ d' = difficulty
    · rw [if_pos hhd, if_pos ⟨hhd.1, hhd.2, rfl⟩]
      rfl
    · rw [if_neg hhd, if_neg fun hall => hhd ⟨hall.1, hall.2.1⟩]
  · have hno : ¬(h' = h ∧ d' = difficulty ∧ m' = mapid) := fun hall => hm hall.2.2
    have hne : Prod.fst (mapid, b) ≠ m' := Ne.symm hm
    rw [find_cons_of_ne hne, find_remove_of_ne hm, if_neg hno]
    split
    · next hhd => rw [hhd.1, hhd.2]; rfl
    · rfl

theorem keys_setBound (hkeys : ∀ h d, ((s.bound h d).map Prod.fst).Nodup)
    (hbinds : (binds.map Prod.fst).Nodup) (h' : Holder) (d' : ℕ) :
    (((s.setBound h difficulty binds).bound h' d').map Prod.fst).Nodup := by
  rw [setBound]
  dsimp only
  split
  · exact hbinds
  · exact hkeys h' d'

theorem nodup_cons_remove (hbinds : (binds.map Prod.fst).Nodup) (b : InstanceBind) :
    (((mapid, b) :: remove Prod.fst binds mapid).map Prod.fst).Nodup := by
  rw [map_cons, nodup_cons]
  refine ⟨fun hmem => ?_, nodup_remove hbinds mapid⟩
  obtain ⟨entry, hentry, heq⟩ := mem_map.1 hmem
  exact (mem_remove.1 hentry).2 heq

theorem setBound_setBound (binds binds' : List (ℕ × InstanceBind)) :
    (s.setBound h difficulty binds).setBound h difficulty binds' =
      s.setBound h difficulty binds' := by
  rw [setBound, setBound, setBound]
  congr 1
  funext h' d'
  dsimp only
  split <;> rfl

theorem bound_setBound_self (binds : List (ℕ × InstanceBind)) :
    (s.setBound h difficulty binds).bound h difficulty = binds :=
  if_pos ⟨rfl, rfl⟩

theorem remove_remove (binds : List (ℕ × InstanceBind)) :
    remove Prod.fst (remove Prod.fst binds mapid) mapid =
      remove Prod.fst binds mapid :=
  remove_of_not_mem fun hmem => by
    obtain ⟨entry, hentry, heq⟩ := mem_map.1 hmem
    exact (mem_remove.1 hentry).2 heq

/-! ## Unbinding and binding -/

theorem held_detach (h' : Holder) (d' m' : ℕ) :
    ((s.dropped a save h).setBound h difficulty
      (remove Prod.fst (s.bound h difficulty) mapid)).held h' d' m' =
      if h' = h ∧ d' = difficulty ∧ m' = mapid then none else s.held h' d' m' := by
  have hbound : s.bound h difficulty = (s.dropped a save h).bound h difficulty := by
    rw [bound_dropped]
  rw [hbound, held_setBound_remove, InstanceBinds.held, bound_dropped]
  rfl

/-- One leaves a save, and the bind is taken away. -/
theorem Sound.detach (hs : s.Sound) (hheld : s.held h difficulty mapid = some a)
    (ha : s.saves a = some save) :
    ((s.dropped a save h).setBound h difficulty
      (remove Prod.fst (s.bound h difficulty) mapid)).Sound := by
  obtain ⟨hlt, save', ha', hmap, hdiff⟩ := hs.held hheld
  obtain rfl := some.inj (ha.symm.trans ha')
  -- another one that holds the save keeps it from being deleted
  have hother : ∀ {h' d' m'}, ¬(h' = h ∧ d' = difficulty ∧ m' = mapid) →
      s.held h' d' m' = some a → h' ≠ h ∧ (save.drop h).isEmpty = false := by
    intro h' d' m' hne hheld'
    obtain ⟨-, save', ha', rfl, rfl⟩ := hs.held hheld'
    obtain rfl := some.inj (ha.symm.trans ha')
    have hh : h' ≠ h := fun heq => hne ⟨heq, hdiff, hmap⟩
    refine ⟨hh, ?_⟩
    rw [Bool.eq_false_iff, Ne, isEmpty_iff]
    intro hnone
    have hcount := hs.count ha h'
    rw [if_pos hheld'] at hcount
    have := hnone h'
    rw [count_drop, if_neg hh, hcount] at this
    exact absurd this Nat.one_ne_zero
  have hsaves : ∀ {c sv}, (s.dropped a save h).saves c = some sv →
      (c = a ∧ sv = save.drop h ∧ (s.dropped a save h).byId = s.byId) ∨
        (c ≠ a ∧ s.saves c = some sv) := by
    intro c sv hc
    by_cases hca : c = a
    · subst hca
      rw [saves_dropped_self] at hc
      split at hc
      · exact absurd hc (by simp)
      · next hempty =>
        exact .inl ⟨rfl, (some.inj hc).symm, by rw [byId_dropped, if_neg hempty]⟩
    · rw [saves_dropped_of_ne hca] at hc
      exact .inr ⟨hca, hc⟩
  refine ⟨?_, ?_, fun {c sv} hc => ?_, fun {entry} hentry => ?_, fun {h' d' m' c} hheld' => ?_,
    fun {c sv} hc h' => ?_⟩
  · change ((s.dropped a save h).byId.map Prod.fst).Nodup
    rw [byId_dropped]
    split
    · exact nodup_remove hs.ids _
    · exact hs.ids
  · exact keys_setBound (by rw [bound_dropped]; exact hs.keys) (nodup_remove (hs.keys _ _) _)
  · change (sv.instanceId, c) ∈ (s.dropped a save h).byId ∧ c < (s.dropped a save h).nextSave ∧ _
    rw [nextSave_dropped]
    rcases hsaves hc with ⟨rfl, rfl, hid⟩ | ⟨hca, hc'⟩
    · obtain ⟨hmem, hnext, hflag⟩ := hs.live ha
      rw [hid, drop_instanceId, drop_toDelete]
      exact ⟨hmem, hnext, hflag⟩
    · obtain ⟨hmem, hnext, hflag⟩ := hs.live hc'
      refine ⟨?_, hnext, hflag⟩
      rw [byId_dropped]
      split
      · exact mem_remove.2 ⟨hmem, fun hid => hca (hs.eq_of_instanceId ha hc' hid)⟩
      · exact hmem
  · change entry ∈ (s.dropped a save h).byId at hentry
    change ∃ sv, (s.dropped a save h).saves entry.2 = some sv ∧ _
    rw [byId_dropped] at hentry
    have hmem : entry ∈ s.byId := by
      split at hentry
      · exact (mem_remove.1 hentry).1
      · exact hentry
    obtain ⟨sv, hsv, hid⟩ := hs.registered hmem
    by_cases hca : entry.2 = a
    · rw [hca] at hsv ⊢
      obtain rfl := some.inj (ha.symm.trans hsv)
      rw [saves_dropped_self]
      split at hentry
      · exact absurd hid.symm (mem_remove.1 hentry).2
      · next hempty => exact ⟨_, if_neg hempty, by rw [drop_instanceId, hid]⟩
    · exact ⟨sv, (saves_dropped_of_ne hca).trans hsv, hid⟩
  · rw [held_detach] at hheld'
    split at hheld'
    · exact absurd hheld' (by simp)
    · next hne =>
      obtain ⟨hlt', sv, hsv, hm, hd⟩ := hs.held hheld'
      refine ⟨hlt', ?_⟩
      change ∃ sv, (s.dropped a save h).saves c = some sv ∧ _
      by_cases hca : c = a
      · subst hca
        obtain rfl := some.inj (ha.symm.trans hsv)
        rw [saves_dropped_self, (hother hne hheld').2]
        exact ⟨_, rfl, by rw [drop_mapid, hm], by rw [drop_difficulty, hd]⟩
      · exact ⟨sv, (saves_dropped_of_ne hca).trans hsv, hm, hd⟩
  · rw [held_detach]
    rcases hsaves hc with ⟨rfl, rfl, -⟩ | ⟨hca, hc'⟩
    · rw [count_drop, drop_difficulty, drop_mapid]
      by_cases hh : h' = h
      · have hyes : h' = h ∧ save.difficulty = difficulty ∧ save.mapid = mapid :=
          ⟨hh, hdiff, hmap⟩
        rw [if_pos hh, if_pos hyes, if_neg (some_ne_none c).symm]
      · have hno : ¬(h' = h ∧ save.difficulty = difficulty ∧ save.mapid = mapid) :=
          fun hall => hh hall.1
        rw [if_neg hh, if_neg hno, hs.count ha h']
    · rw [hs.count hc' h']
      by_cases hall : h' = h ∧ sv.difficulty = difficulty ∧ sv.mapid = mapid
      · rw [if_pos hall, hall.1, hall.2.1, hall.2.2, hheld, if_neg (by simp [Ne.symm hca]),
          if_neg (by simp)]
      · rw [if_neg hall]

theorem saves_setSave {c : ℕ} {save' sv : InstanceSave}
    (hc : (s.setSave a (some save')).saves c = some sv) :
    (c = a ∧ sv = save') ∨ (c ≠ a ∧ s.saves c = some sv) := by
  by_cases hca : c = a
  · subst hca
    have hself : (s.setSave c (some save')).saves c = some save' := update_self _ _ _
    exact .inl ⟨rfl, some.inj (hc.symm.trans hself)⟩
  · exact .inr ⟨hca, (update_of_ne hca _ _).symm.trans hc⟩

/-- A save is still there when another one, or itself, is written. -/
theorem exists_setSave {c : ℕ} (save' : InstanceSave) {sv : InstanceSave}
    (ha : s.saves a = some save) (hc : s.saves c = some sv)
    (hid : save'.instanceId = save.instanceId) (hmap : save'.mapid = save.mapid)
    (hdiff : save'.difficulty = save.difficulty) :
    ∃ sv', (s.setSave a (some save')).saves c = some sv' ∧ sv'.instanceId = sv.instanceId ∧
      sv'.mapid = sv.mapid ∧ sv'.difficulty = sv.difficulty := by
  by_cases hca : c = a
  · subst hca
    obtain rfl := some.inj (ha.symm.trans hc)
    exact ⟨save', update_self _ _ _, hid, hmap, hdiff⟩
  · exact ⟨sv, (update_of_ne hca _ _).trans hc, rfl, rfl, rfl⟩

/-- One joins a save, and the bind is added. -/
theorem Sound.attach (hs : s.Sound) (ha : s.saves a = some save)
    (hnone : s.held h save.difficulty save.mapid = none) (hlt : save.difficulty < maxDifficulty)
    (permanent : Bool) :
    ((s.setSave a (some (save.push h))).setBound h save.difficulty ((save.mapid, ⟨a, permanent⟩) ::
      remove Prod.fst (s.bound h save.difficulty) save.mapid)).Sound := by
  have hheld : ∀ h' d' m', ((s.setSave a (some (save.push h))).setBound h save.difficulty
      ((save.mapid, ⟨a, permanent⟩) ::
        remove Prod.fst (s.bound h save.difficulty) save.mapid)).held h' d' m' =
      if h' = h ∧ d' = save.difficulty ∧ m' = save.mapid then some a else s.held h' d' m' :=
    fun h' d' m' => held_setBound_cons (s := s.setSave a (some (save.push h))) _ h' d' m'
  have hexists := fun {c sv} (hc : s.saves c = some sv) =>
    exists_setSave _ ha hc (push_instanceId (h := h)) push_mapid push_difficulty
  refine ⟨hs.ids, keys_setBound hs.keys (nodup_cons_remove (hs.keys _ _) _), fun {c sv} hc => ?_,
    fun {entry} hentry => ?_, fun {h' d' m' c} hheld' => ?_, fun {c sv} hc h' => ?_⟩
  · rcases saves_setSave hc with ⟨rfl, rfl⟩ | ⟨-, hc'⟩
    · rw [push_instanceId, push_toDelete]
      exact hs.live ha
    · exact hs.live hc'
  · obtain ⟨sv, hsv, hid⟩ := hs.registered hentry
    obtain ⟨sv', hsv', hid', -, -⟩ := hexists hsv
    exact ⟨sv', hsv', hid'.trans hid⟩
  · rw [hheld] at hheld'
    split at hheld'
    · next hall =>
      obtain rfl := some.inj hheld'
      exact ⟨hall.2.1 ▸ hlt, save.push h, update_self _ _ _,
        push_mapid.trans hall.2.2.symm, push_difficulty.trans hall.2.1.symm⟩
    · obtain ⟨hlt', sv, hsv, hm, hd⟩ := hs.held hheld'
      obtain ⟨sv', hsv', -, hm', hd'⟩ := hexists hsv
      exact ⟨hlt', sv', hsv', hm'.trans hm, hd'.trans hd⟩
  · rw [hheld]
    rcases saves_setSave hc with ⟨rfl, rfl⟩ | ⟨hca, hc'⟩
    · rw [count_push, push_difficulty, push_mapid, hs.count ha h']
      by_cases hh : h' = h
      · subst hh
        simp [hnone]
      · simp [hh]
    · rw [hs.count hc' h']
      by_cases hall : h' = h ∧ sv.difficulty = save.difficulty ∧ sv.mapid = save.mapid
      · rw [if_pos hall, hall.1, hall.2.1, hall.2.2, hnone]
        simp [Ne.symm hca]
      · rw [if_neg hall]

/-- A bind to the same save is written again. -/
theorem Sound.rebind (hs : s.Sound) (hheld : s.held h difficulty mapid = some a)
    (permanent : Bool) :
    (s.setBound h difficulty ((mapid, ⟨a, permanent⟩) ::
      remove Prod.fst (s.bound h difficulty) mapid)).Sound := by
  have hsame : ∀ h' d' m', (s.setBound h difficulty ((mapid, ⟨a, permanent⟩) ::
      remove Prod.fst (s.bound h difficulty) mapid)).held h' d' m' = s.held h' d' m' := by
    intro h' d' m'
    rw [held_setBound_cons]
    split
    · next hall => rw [hall.1, hall.2.1, hall.2.2, hheld]
    · rfl
  refine ⟨hs.ids, keys_setBound hs.keys (nodup_cons_remove (hs.keys _ _) _), hs.live,
    hs.registered, fun hheld' => ?_, fun hc h' => ?_⟩
  · rw [hsame] at hheld'
    exact hs.held hheld'
  · rw [hsame]
    exact hs.count hc h'

theorem Sound.setCanReset (hs : s.Sound) (ha : s.saves a = some save) (canReset : Bool) :
    (s.setSave a (some { save with canReset })).Sound := by
  refine ⟨hs.ids, hs.keys, fun {c sv} hc => ?_, fun {entry} hentry => ?_,
    fun {h' d' m' c} hheld => ?_, fun {c sv} hc h' => ?_⟩
  · rcases saves_setSave hc with ⟨rfl, rfl⟩ | ⟨-, hc'⟩
    · have hlive := hs.live ha
      exact hlive
    · exact hs.live hc'
  · obtain ⟨sv, hsv, hid⟩ := hs.registered hentry
    obtain ⟨sv', hsv', hid', -, -⟩ :=
      exists_setSave { save with canReset } ha hsv rfl rfl rfl
    exact ⟨sv', hsv', hid'.trans hid⟩
  · obtain ⟨hlt, sv, hsv, hm, hd⟩ := hs.held hheld
    obtain ⟨sv', hsv', -, hm', hd'⟩ :=
      exists_setSave { save with canReset } ha hsv rfl rfl rfl
    exact ⟨hlt, sv', hsv', hm'.trans hm, hd'.trans hd⟩
  · rcases saves_setSave hc with ⟨rfl, rfl⟩ | ⟨-, hc'⟩
    · have hcount := hs.count ha h'
      cases h' <;> exact hcount
    · exact hs.count hc' h'

/-- A save that nobody holds is deleted. -/
theorem Sound.delete (hs : s.Sound) (ha : s.saves a = some save) (hempty : save.isEmpty = true) :
    Sound { s.setSave a none with byId := remove Prod.fst s.byId save.instanceId } := by
  have hfree : ∀ h d m, s.held h d m ≠ some a := by
    intro h d m hheld
    obtain ⟨-, save', ha', rfl, rfl⟩ := hs.held hheld
    obtain rfl := some.inj (ha.symm.trans ha')
    have hcount := hs.count ha h
    rw [if_pos hheld, isEmpty_iff.1 hempty h] at hcount
    exact absurd hcount Nat.zero_ne_one
  have hsaves : ∀ {c sv}, (s.setSave a none).saves c = some sv → c ≠ a ∧ s.saves c = some sv := by
    intro c sv hc
    have hca : c ≠ a := by
      rintro rfl
      have hself : (s.setSave c none).saves c = none := update_self _ _ _
      exact some_ne_none sv (hc.symm.trans hself)
    exact ⟨hca, (update_of_ne hca _ _).symm.trans hc⟩
  refine ⟨nodup_remove hs.ids _, hs.keys, fun {c sv} hc => ?_, fun {entry} hentry => ?_,
    fun {h' d' m' c} hheld => ?_, fun {c sv} hc h' => hs.count (hsaves hc).2 h'⟩
  · obtain ⟨hca, hc'⟩ := hsaves hc
    obtain ⟨hmem, hrest⟩ := hs.live hc'
    exact ⟨mem_remove.2 ⟨hmem, fun hid => hca (hs.eq_of_instanceId ha hc' hid)⟩, hrest⟩
  · obtain ⟨hmem, hne⟩ := mem_remove.1 hentry
    obtain ⟨sv, hsv, hid⟩ := hs.registered hmem
    have hca : entry.2 ≠ a := by
      intro hca
      rw [hca] at hsv
      obtain rfl := some.inj (ha.symm.trans hsv)
      exact hne hid.symm
    exact ⟨sv, (update_of_ne hca _ _).trans hsv, hid⟩
  · have hca : c ≠ a := fun hca => hfree h' d' m' (hca ▸ hheld)
    obtain ⟨hlt, sv, hsv, hrest⟩ := hs.held hheld
    exact ⟨hlt, sv, (update_of_ne hca _ _).trans hsv, hrest⟩

/-! ## The calls -/

theorem Sound.removeHolder (hs : s.Sound) (ha : s.saves a = some save) :
    s.removeHolder a h = some (s.dropped a save h) :=
  removeHolder_eq (hs.find_byId (hs.live ha).1) ha (hs.live ha).2.2

theorem find_of_held (hheld : s.held h difficulty mapid = some a) :
    ∃ entry, find Prod.fst (s.bound h difficulty) mapid = some entry ∧ entry.2.save = a := by
  obtain ⟨entry, hfind, hsave⟩ := map_eq_some_iff.1 hheld
  exact ⟨entry, hfind, hsave⟩

theorem Sound.unbind_of_held (hs : s.Sound) (hheld : s.held h difficulty mapid = some a)
    (ha : s.saves a = some save) : s.unbindInstance h mapid difficulty =
      some ((s.dropped a save h).setBound h difficulty
        (remove Prod.fst (s.bound h difficulty) mapid)) := by
  obtain ⟨entry, hfind, rfl⟩ := find_of_held hheld
  rw [unbindInstance, boundInstances_of_lt (hs.held hheld).1]
  simp only [bind_eq_bind, bind_some, hfind, hs.removeHolder ha, bound_dropped]

theorem unbind_of_none (hlt : difficulty < maxDifficulty)
    (hnone : s.held h difficulty mapid = none) : s.unbindInstance h mapid difficulty = some s := by
  have hfind : find Prod.fst (s.bound h difficulty) mapid = none :=
    map_eq_none_iff.1 hnone
  rw [unbindInstance, boundInstances_of_lt hlt]
  simp only [bind_eq_bind, bind_some, hfind]

/-- One keeps the binds of other difficulties and maps. -/
structure SameOthers (s s' : InstanceBinds) (h : Holder) (difficulty mapid : ℕ) : Prop where
  difficulties : ∀ d, d ≠ difficulty → s'.bound h d = s.bound h d
  entries : ∀ entry ∈ s.bound h difficulty, entry.1 ≠ mapid → entry ∈ s'.bound h difficulty

theorem sameOthers_setBound {s' : InstanceBinds} (hbound : s'.bound = s.bound)
    (hbinds : ∀ entry ∈ s.bound h difficulty, entry.1 ≠ mapid → entry ∈ binds) :
    SameOthers s (s'.setBound h difficulty binds) h difficulty mapid := by
  refine ⟨fun d hne => ?_, fun entry hentry hmap => ?_⟩
  · exact (if_neg fun hall => hne hall.2).trans (congrFun (congrFun hbound h) d)
  · rw [bound_setBound_self]
    exact hbinds entry hentry hmap

theorem bound_setBound_of_ne {s' : InstanceBinds} (hbound : s'.bound = s.bound) (hne : h' ≠ h) :
    (s'.setBound h difficulty binds).bound h' = s.bound h' :=
  funext fun d => (if_neg fun hall => hne hall.1).trans (congrFun (congrFun hbound h') d)

variable (h mapid) in
theorem Sound.unbindInstance (hs : s.Sound) (hlt : difficulty < maxDifficulty) :
    ∃ s', s.unbindInstance h mapid difficulty = some s' ∧ s'.Sound ∧
      SameOthers s s' h difficulty mapid := by
  rcases hheld : s.held h difficulty mapid with _ | a
  · exact ⟨s, unbind_of_none hlt hheld, hs, fun _ _ => rfl, fun _ hentry _ => hentry⟩
  · obtain ⟨-, save, ha, -⟩ := hs.held hheld
    exact ⟨_, hs.unbind_of_held hheld ha, hs.detach hheld ha,
      sameOthers_setBound bound_dropped fun entry hentry hne => mem_remove.2 ⟨hentry, hne⟩⟩

theorem Sound.bindToInstance (hs : s.Sound) (ha : s.saves a = some save)
    (hlt : save.difficulty < maxDifficulty) (permanent : Bool) :
    ∃ s', s.bindToInstance h a permanent = some s' ∧ s'.Sound ∧
      (∀ h', h' ≠ h → s'.bound h' = s.bound h') ∧ ∃ save', s'.saves a = some save' := by
  rw [InstanceBinds.bindToInstance, ha, bind_eq_bind, bind_some,
    boundInstances_of_lt hlt, bind_eq_bind, bind_some]
  rcases hheld : s.held h save.difficulty save.mapid with _ | b
  · have hfind : find Prod.fst (s.bound h save.difficulty) save.mapid = none :=
      map_eq_none_iff.1 hheld
    rw [hfind]
    simp only [addHolder, ha, bind_eq_bind, bind_some]
    exact ⟨_, rfl, hs.attach ha hheld hlt permanent, fun _ => bound_setBound_of_ne rfl, _,
      update_self _ _ _⟩
  · obtain ⟨entry, hfind, rfl⟩ := find_of_held hheld
    rw [hfind]
    dsimp only
    by_cases hsame : entry.2.save = a
    · rw [if_pos hsame]
      exact ⟨_, rfl, hs.rebind (hsame ▸ hheld) permanent, fun _ => bound_setBound_of_ne rfl, save,
        ha⟩
    · obtain ⟨-, old, hold, -⟩ := hs.held hheld
      have hsound := hs.detach hheld hold
      have ha' : (s.dropped entry.2.save old h).saves a = some save :=
        (saves_dropped_of_ne (Ne.symm hsame)).trans ha
      have hattach := hsound.attach (h := h) ha' (by rw [held_detach]; simp) hlt
        permanent
      rw [bound_setBound_self, remove_remove] at hattach
      rw [if_neg hsame]
      simp only [hs.removeHolder hold, addHolder, ha', bind_eq_bind, bind_some]
      have hbound :
          ((s.dropped entry.2.save old h).setSave a (some (save.push h))).bound = s.bound :=
        bound_dropped
      rw [hbound]
      refine ⟨_, rfl, ?_, fun _ => bound_setBound_of_ne hbound, _, update_self _ _ _⟩
      exact (setBound_setBound (s := (s.dropped entry.2.save old h).setSave a _) _ _) ▸ hattach

theorem Sound.playerBind (hs : s.Sound) (ha : s.saves a = some save)
    (hlt : save.difficulty < maxDifficulty) (player : ℕ) (permanent : Bool) :
    ∃ s', s.playerBindToInstance player a permanent = some s' ∧ s'.Sound := by
  obtain ⟨s', hs', hsound, -, save', ha'⟩ :=
    hs.bindToInstance (h := .player player) ha hlt permanent
  rw [playerBindToInstance, hs', bind_eq_bind, bind_some]
  cases permanent with
  | false => exact ⟨s', rfl, hsound⟩
  | true =>
    rw [if_pos rfl, ha']
    exact ⟨_, rfl, hsound.setCanReset ha' false⟩

variable {cfg : BindConfig}

theorem Sound.groupBind (hs : s.Sound) {group : ℕ} (ha : s.saves a = some save)
    (hlt : cfg.isBGGroup group ∨ save.difficulty < maxDifficulty) (permanent : Bool) :
    ∃ s', s.groupBindToInstance cfg group a permanent = some s' ∧ s'.Sound ∧
      ∀ player, s'.bound (.player player) = s.bound (.player player) := by
  rw [groupBindToInstance]
  by_cases hbg : cfg.isBGGroup group
  · rw [if_pos hbg]
    exact ⟨s, rfl, hs, fun _ => rfl⟩
  · obtain ⟨s', hs', hsound, hothers, -⟩ :=
      hs.bindToInstance (h := .group group) ha (hlt.resolve_left hbg) permanent
    rw [if_neg hbg]
    exact ⟨s', hs', hsound, fun player => hothers _ (by simp)⟩

variable (save) in
/-- A new save, that nobody holds. -/
theorem Sound.add (hs : s.Sound) (hnew : save.instanceId ∉ s.byId.map Prod.fst)
    (hempty : save.isEmpty = true) (hkeep : save.toDelete = false) :
    Sound { s.setSave s.nextSave (some save) with
      nextSave := s.nextSave + 1
      byId := (save.instanceId, s.nextSave) :: s.byId } := by
  have hfresh : s.saves s.nextSave = none := by
    rcases hsave : s.saves s.nextSave with _ | save
    · rfl
    · exact absurd (hs.live hsave).2.1 (lt_irrefl _)
  have hfree : ∀ h d m, s.held h d m ≠ some s.nextSave := by
    intro h d m hheld
    obtain ⟨-, save, hsave, -⟩ := hs.held hheld
    exact absurd (hfresh.symm.trans hsave) (by simp)
  have hold : ∀ {c sv}, s.saves c = some sv →
      (s.setSave s.nextSave (some save)).saves c = some sv := by
    intro c sv hc
    refine (update_of_ne ?_ _ _).trans hc
    rintro rfl
    exact absurd (hfresh.symm.trans hc) (by simp)
  refine ⟨?_, hs.keys, fun {c sv} hc => ?_, fun {entry} hentry => ?_,
    fun {h' d' m' c} hheld => ?_, fun {c sv} hc h' => ?_⟩
  · rw [map_cons, nodup_cons]
    exact ⟨hnew, hs.ids⟩
  · rcases saves_setSave hc with ⟨rfl, rfl⟩ | ⟨-, hc'⟩
    · exact ⟨mem_cons_self, Nat.lt_succ_self _, hkeep⟩
    · obtain ⟨hmem, hnext, hflag⟩ := hs.live hc'
      exact ⟨mem_cons_of_mem _ hmem, Nat.lt_succ_of_lt hnext, hflag⟩
  · rcases mem_cons.1 hentry with rfl | hentry
    · exact ⟨_, update_self _ _ _, rfl⟩
    · obtain ⟨sv, hsv, hid⟩ := hs.registered hentry
      exact ⟨sv, hold hsv, hid⟩
  · obtain ⟨hlt, sv, hsv, hrest⟩ := hs.held hheld
    exact ⟨hlt, sv, hold hsv, hrest⟩
  · rcases saves_setSave hc with ⟨rfl, rfl⟩ | ⟨-, hc'⟩
    · exact (isEmpty_iff.1 hempty h').trans (if_neg (hfree _ _ _)).symm
    · exact hs.count hc' h'

theorem Sound.addInstanceSave (hs : s.Sound) (mapId instanceId difficulty : ℕ) (canReset : Bool) :
    (s.addInstanceSave cfg mapId instanceId difficulty canReset).Sound := by
  rw [InstanceBinds.addInstanceSave]
  split
  · exact hs
  next hfind =>
  split
  · exact hs
  · refine iteInduction (fun _ => hs) fun _ => iteInduction (fun _ => hs) fun _ => ?_
    exact hs.add { instanceId, mapid := mapId % 2 ^ 16, difficulty, canReset }
      (not_mem_of_find_eq_none hfind) rfl rfl

/-! ## The conversion to a group -/

theorem Sound.convertBind (hs : s.Sound) {player : ℕ} (group : ℕ) {switchLeader : Bool}
    {entry : ℕ × InstanceBind} (hentry : entry ∈ s.bound (.player player) difficulty)
    (hdown : switchLeader = true → downscaled cfg entry.1 difficulty < maxDifficulty) :
    ∃ s', convertBind cfg player group switchLeader difficulty s entry = some s' ∧ s'.Sound ∧
      SameOthers s s' (.player player) difficulty entry.1 := by
  obtain ⟨hlt, save, ha, hmap, hdiff⟩ := hs.held (held_eq_of_mem hs hentry)
  obtain ⟨keeps, hkeeps⟩ : ∃ keeps, (if switchLeader then
      s.groupHasBound cfg group save.difficulty entry.1 else some false) = some keeps := by
    cases switchLeader with
    | false => exact ⟨false, rfl⟩
    | true =>
      rw [if_pos rfl, groupHasBound, hdiff, boundInstances_of_lt (hdown rfl)]
      exact ⟨_, rfl⟩
  obtain ⟨s1, hs1, hsound1, hplayer⟩ : ∃ s1, (if keeps then some s else
      s.groupBindToInstance cfg group entry.2.save entry.2.perm) = some s1 ∧ s1.Sound ∧
      ∀ player, s1.bound (.player player) = s.bound (.player player) := by
    cases keeps with
    | false => exact hs.groupBind ha (.inr (hdiff ▸ hlt)) entry.2.perm
    | true => exact ⟨s, rfl, hs, fun _ => rfl⟩
  rw [InstanceBinds.convertBind, ha]
  simp only [bind_eq_bind, bind_some, hkeeps, hs1]
  split
  · obtain ⟨s2, hs2, hsound2, hothers⟩ :=
      hsound1.unbindInstance (.player player) entry.1 hlt
    exact ⟨s2, hs2, hsound2, fun d hne => by rw [hothers.difficulties d hne, hplayer],
      fun e he hne => hothers.entries e (by rw [hplayer]; exact he) hne⟩
  · exact ⟨s1, rfl, hsound1, fun d _ => by rw [hplayer], fun e he _ => by rw [hplayer]; exact he⟩

variable (cfg) in
/-- The binds of one difficulty. -/
theorem Sound.convertBinds (player group : ℕ) (switchLeader : Bool) :
    ∀ {l : List (ℕ × InstanceBind)} {s : InstanceBinds}, s.Sound → (l.map Prod.fst).Nodup →
      (∀ entry ∈ l, entry ∈ s.bound (.player player) difficulty ∧
        (switchLeader = true → downscaled cfg entry.1 difficulty < maxDifficulty)) →
      ∃ s', l.foldlM (InstanceBinds.convertBind cfg player group switchLeader difficulty) s =
          some s' ∧ s'.Sound ∧
        ∀ d, d ≠ difficulty → s'.bound (.player player) d = s.bound (.player player) d
  | [], s, hs, _, _ => ⟨s, rfl, hs, fun _ _ => rfl⟩
  | entry :: l, s, hs, hkeys, hl => by
    obtain ⟨hnot, hrest⟩ := nodup_cons.1 hkeys
    obtain ⟨hentry, hdown⟩ := hl entry mem_cons_self
    obtain ⟨s1, hs1, hsound1, hothers⟩ := hs.convertBind group hentry hdown
    obtain ⟨s', hs', hsound', hbound⟩ := Sound.convertBinds player group switchLeader hsound1
        hrest fun e he => by
      obtain ⟨hmem, hdown⟩ := hl e (mem_cons_of_mem entry he)
      exact ⟨hothers.entries e hmem fun heq => hnot (heq ▸ mem_map_of_mem he), hdown⟩
    refine ⟨s', ?_, hsound', fun d hne => (hbound d hne).trans (hothers.difficulties d hne)⟩
    rw [foldlM_cons, hs1]
    exact hs'

/-- The difficulties, one after the other. -/
theorem Sound.convertDifficulties (player group : ℕ) {switchLeader : Bool} :
    ∀ {l : List ℕ} {s : InstanceBinds}, s.Sound → l.Nodup →
      (switchLeader = true → ∀ d ∈ l, ∀ entry ∈ s.bound (.player player) d,
        downscaled cfg entry.1 d < maxDifficulty) →
      ∃ s', l.foldlM (fun s d => (s.bound (.player player) d).foldlM
        (InstanceBinds.convertBind cfg player group switchLeader d) s) s = some s' ∧ s'.Sound
  | [], s, hs, _, _ => ⟨s, rfl, hs⟩
  | d :: l, s, hs, hnodup, hdown => by
    obtain ⟨hnot, hrest⟩ := nodup_cons.1 hnodup
    obtain ⟨s1, hs1, hsound1, hbound⟩ := hs.convertBinds cfg player group switchLeader
      (hs.keys (.player player) d) fun entry hentry =>
      ⟨hentry, fun hswitch => hdown hswitch d mem_cons_self entry hentry⟩
    obtain ⟨s', hs', hsound'⟩ := Sound.convertDifficulties player group hsound1 hrest
      fun hswitch d' hd' entry hentry => by
        rw [hbound d' fun heq => hnot (heq ▸ hd')] at hentry
        exact hdown hswitch d' (mem_cons_of_mem d hd') entry hentry
    refine ⟨s', ?_, hsound'⟩
    rw [foldlM_cons, hs1]
    exact hs'

/-! ## The reset of a group's instances -/

theorem findM?_mem {α : Type} {p : α → Option Bool} : ∀ {l : List α}, (∀ x ∈ l, ∃ b, p x = some b) →
    ∃ r, l.findM? p = some r ∧ ∀ x, r = some x → x ∈ l
  | [], _ => ⟨none, rfl, fun x hx => absurd hx (by simp)⟩
  | y :: l, h => by
    obtain ⟨b, hb⟩ := h y mem_cons_self
    rw [List.findM?, hb]
    cases b with
    | true =>
      refine ⟨some y, rfl, fun x hx => ?_⟩
      rw [← some.inj hx]
      exact mem_cons_self
    | false =>
      obtain ⟨r, hr, hmem⟩ := findM?_mem fun x hx => h x (mem_cons_of_mem y hx)
      exact ⟨r, hr, fun x hx => mem_cons_of_mem y (hmem x hx)⟩

theorem dropped_setBound (binds : List (ℕ × InstanceBind)) (h' : Holder) :
    (s.setBound h difficulty binds).dropped a save h' =
      (s.dropped a save h').setBound h difficulty binds := by
  rw [dropped, dropped]
  split
  · next hempty =>
    rw [if_pos (show ((save.drop h').isEmpty && !s.lockInstLists) = true from hempty)]
    rfl
  · next hempty =>
    rw [if_neg (show ¬((save.drop h').isEmpty && !s.lockInstLists) = true from hempty)]
    rfl

theorem Sound.resetLoop {group : ℕ} {method : ResetMethod} {isRaid : Bool}
    {havePlayers : ℕ → Option Bool} (hlt : difficulty < maxDifficulty) :
    ∀ {rounds : ℕ} {s : InstanceBinds}, s.Sound →
      (s.bound (.group group) difficulty).length < rounds →
      ∃ s', InstanceBinds.resetLoop cfg group method isRaid difficulty havePlayers rounds s =
        some s' ∧ s'.Sound
  | 0, s, _, hlen => absurd hlen (Nat.not_lt_zero _)
  | rounds + 1, s, hs, hlen => by
    obtain ⟨r, hr, hmem⟩ := findM?_mem (l := s.bound (.group group) difficulty)
      (p := s.resetsBind cfg method isRaid difficulty havePlayers) fun entry hentry => by
        obtain ⟨-, save, ha, -⟩ := hs.held (held_eq_of_mem hs hentry)
        rw [resetsBind, ha]
        exact ⟨_, rfl⟩
    rw [InstanceBinds.resetLoop, boundInstances_of_lt hlt, bind_eq_bind, bind_some,
      hr, bind_eq_bind, bind_some]
    cases r with
    | none => exact ⟨s, rfl, hs⟩
    | some entry =>
      have hentry := hmem entry rfl
      have hheld := held_eq_of_mem hs hentry
      obtain ⟨-, save, ha, -⟩ := hs.held hheld
      have hremove : (s.setBound (.group group) difficulty
          (remove Prod.fst (s.bound (.group group) difficulty) entry.1)).removeHolder
          entry.2.save (.group group) = some ((s.dropped entry.2.save save (.group group)).setBound
            (.group group) difficulty
            (remove Prod.fst (s.bound (.group group) difficulty) entry.1)) := by
        rw [← dropped_setBound]
        exact removeHolder_eq (hs.find_byId (hs.live ha).1) ha (hs.live ha).2.2
      dsimp only
      rw [hremove, bind_eq_bind, bind_some]
      refine Sound.resetLoop hlt (hs.detach hheld ha) ?_
      rw [bound_setBound_self]
      have hshort : (remove Prod.fst (s.bound (.group group) difficulty) entry.1).length <
          (s.bound (.group group) difficulty).length :=
        length_filter_lt_length_iff_exists.2 ⟨entry, hentry, by simp⟩
      omega

/-! ## The reset of a save -/

/-- A loop that goes through one of the lists of a save. -/
structure Walks (first : InstanceSave → Option Holder) (size : InstanceSave → ℕ) : Prop where
  count_pos : ∀ save h, first save = some h → save.count h ≠ 0
  size_drop : ∀ save h, first save = some h → size (save.drop h) < size save

theorem walks_firstPlayer : Walks firstPlayer fun save => save.playerList.length := by
  refine ⟨fun save h hfirst => ?_, fun save h hfirst => ?_⟩ <;>
    obtain ⟨p, hp, rfl⟩ := map_eq_some_iff.1 hfirst
  · exact Nat.pos_iff_ne_zero.1 (count_pos_iff.2 (mem_of_head? hp))
  · exact length_filter_lt_length_iff_exists.2 ⟨p, mem_of_head? hp, by simp⟩

theorem walks_firstGroup : Walks firstGroup fun save => save.groupList.length := by
  refine ⟨fun save h hfirst => ?_, fun save h hfirst => ?_⟩ <;>
    obtain ⟨g, hg, rfl⟩ := map_eq_some_iff.1 hfirst
  · exact Nat.pos_iff_ne_zero.1 (count_pos_iff.2 (mem_of_head? hg))
  · exact length_filter_lt_length_iff_exists.2 ⟨g, mem_of_head? hg, by simp⟩

/-- What the loops of `_ResetSave` leave of the other saves, and of the one that they empty. -/
structure Emptied (s s' : InstanceBinds) (a : ℕ) (save save' : InstanceSave) : Prop where
  sound : s'.Sound
  lock : s'.lockInstLists = true
  byId : s'.byId = s.byId
  self : s'.saves a = some save'
  others : ∀ c, c ≠ a → s'.saves c = s.saves c
  instanceId : save'.instanceId = save.instanceId
  count : ∀ h, save'.count h ≤ save.count h

theorem Sound.unbindLoop {first : InstanceSave → Option Holder} {size : InstanceSave → ℕ}
    (hwalks : Walks first size) :
    ∀ {rounds : ℕ} {s : InstanceBinds} {save : InstanceSave}, s.Sound → s.lockInstLists = true →
      s.saves a = some save → size save ≤ rounds →
      ∃ s' save', InstanceBinds.unbindLoop first a rounds s = some s' ∧ Emptied s s' a save save' ∧
        first save' = none := by
  intro rounds
  induction rounds with
  | zero =>
    intro s save hs hlock ha hsize
    have hfirst : first save = none := by
      rcases hfirst : first save with _ | h
      · rfl
      · have := hwalks.size_drop save h hfirst
        omega
    refine ⟨s, save, ?_, ⟨hs, hlock, rfl, ha, fun _ _ => rfl, rfl, fun _ => le_refl _⟩, hfirst⟩
    rw [InstanceBinds.unbindLoop, ha, bind_eq_bind, bind_some, hfirst]
    rfl
  | succ rounds ih =>
    intro s save hs hlock ha hsize
    rw [InstanceBinds.unbindLoop, ha, bind_eq_bind, bind_some]
    rcases hfirst : first save with _ | h
    · exact ⟨s, save, rfl, ⟨hs, hlock, rfl, ha, fun _ _ => rfl, rfl, fun _ => le_refl _⟩,
        hfirst⟩
    · have hheld : s.held h save.difficulty save.mapid = some a := by
        by_contra hno
        exact hwalks.count_pos save h hfirst ((hs.count ha h).trans (if_neg hno))
      have hkeeps : ((save.drop h).isEmpty && !s.lockInstLists) = false := by
        rw [hlock, Bool.not_true, Bool.and_false]
      have hsmall := hwalks.size_drop save h hfirst
      have hself : (s.dropped a save h).saves a = some (save.drop h) := by
        rw [saves_dropped_self, hkeeps]
        rfl
      obtain ⟨s', save', hs', hemptied, hnone⟩ := ih (hs.detach hheld ha)
        (lockInstLists_dropped.trans hlock) hself (by omega)
      dsimp only
      rw [hs.unbind_of_held hheld ha, bind_eq_bind, bind_some]
      refine ⟨s', save', hs', ⟨hemptied.sound, hemptied.lock, hemptied.byId.trans ?_, hemptied.self,
        fun c hne => (hemptied.others c hne).trans (saves_dropped_of_ne hne),
        hemptied.instanceId.trans drop_instanceId, fun h' => (hemptied.count h').trans ?_⟩, hnone⟩
      · exact byId_dropped.trans (by rw [hkeeps]; rfl)
      · rw [count_drop]
        split
        · exact Nat.zero_le _
        · exact Nat.le_refl _

theorem isEmpty_of_first {save : InstanceSave} (hplayer : ∀ p, save.count (.player p) = 0)
    (hgroup : firstGroup save = none) : save.isEmpty = true := by
  rw [isEmpty_iff]
  rintro (p | g)
  · exact hplayer p
  · have hnil : save.groupList = [] := List.head?_eq_none_iff.1 (map_eq_none_iff.1 hgroup)
    rw [InstanceSave.count, hnil, count_nil]

/-- A save is reset : all its binds are taken away, and it is deleted. -/
theorem Sound.resetSave (hs : s.Sound) {entry : ℕ × ℕ} (hentry : entry ∈ s.byId) :
    ∃ s', s.resetSave entry = some s' ∧ s'.Sound ∧
      s'.byId = remove Prod.fst s.byId entry.1 := by
  obtain ⟨save, ha, hid⟩ := hs.registered hentry
  have hlocked : Sound { s with lockInstLists := true } :=
    ⟨hs.ids, hs.keys, hs.live, hs.registered, hs.held, hs.count⟩
  obtain ⟨s1, save1, hs1, hfirst, hplayers⟩ :=
    hlocked.unbindLoop walks_firstPlayer rfl ha (le_refl _)
  obtain ⟨s2, save2, hs2, hsecond, hgroups⟩ :=
    hfirst.sound.unbindLoop walks_firstGroup hfirst.lock hfirst.self (le_refl _)
  have hempty : save2.isEmpty = true := by
    refine isEmpty_of_first (fun p => ?_) hgroups
    have hnil : save1.playerList = [] :=
      List.head?_eq_none_iff.1 (map_eq_none_iff.1 hplayers)
    have hle := hsecond.count (.player p)
    rw [InstanceSave.count, InstanceSave.count, hnil, count_nil] at hle
    exact Nat.le_zero.1 hle
  have hid2 : save2.instanceId = entry.1 := (hsecond.instanceId.trans hfirst.instanceId).trans hid
  have hdelete := hsecond.sound.delete hsecond.self hempty
  rw [hid2] at hdelete
  rw [InstanceBinds.resetSave]
  simp only [bind_eq_bind, bind_some, ha, hs1, hfirst.self, hs2, deleteSave,
    hsecond.self, hempty, if_true]
  refine ⟨_, rfl, ⟨hdelete.ids, hdelete.keys, hdelete.live, hdelete.registered, hdelete.held,
    hdelete.count⟩, ?_⟩
  exact congrArg (fun l => remove Prod.fst l entry.1) (hsecond.byId.trans hfirst.byId)

theorem Sound.globalReset (hs : s.Sound) (mapid difficulty : ℕ) :
    ∃ s', s.globalReset mapid difficulty = some s' ∧ s'.Sound := by
  suffices hall : ∀ (l : List (ℕ × ℕ)) (s : InstanceBinds), s.Sound → (l.map Prod.fst).Nodup →
      (∀ entry ∈ l, entry ∈ s.byId) → ∃ s', l.foldlM (fun s entry => do
        let save ← s.saves entry.2
        if save.mapid = mapid ∧ save.difficulty = difficulty then s.resetSave entry else some s) s =
        some s' ∧ s'.Sound from
    hall s.byId s hs hs.ids fun _ hentry => hentry
  intro l
  induction l with
  | nil => exact fun s hs _ _ => ⟨s, rfl, hs⟩
  | cons entry l ih =>
    intro s hs hkeys hl
    obtain ⟨hnot, hrest⟩ := nodup_cons.1 hkeys
    have hentry := hl entry mem_cons_self
    obtain ⟨save, ha, -⟩ := hs.registered hentry
    rw [foldlM_cons]
    simp only [ha, bind_eq_bind, bind_some]
    split
    · obtain ⟨s1, hs1, hsound1, hbyId⟩ := hs.resetSave hentry
      rw [hs1]
      refine ih s1 hsound1 hrest fun e he => ?_
      rw [hbyId]
      refine mem_remove.2 ⟨hl e (mem_cons_of_mem entry he), fun heq => ?_⟩
      exact hnot (heq ▸ mem_map_of_mem he)
    · exact ih s hs hrest fun e he => hl e (mem_cons_of_mem entry he)

/-! ## Every run -/

theorem Sound.saves_of_getInstanceSave (hs : s.Sound) {instanceId : ℕ}
    (hget : s.getInstanceSave instanceId = some a) : ∃ save, s.saves a = some save := by
  obtain ⟨entry, hfind, rfl⟩ := map_eq_some_iff.1 hget
  obtain ⟨save, hsave, -⟩ := hs.registered (mem_of_find hfind).1
  exact ⟨save, hsave⟩

theorem Sound.serve (hs : s.Sound) {call : BindCall} (hin : InArray cfg s call) :
    ∃ s', s.serve cfg call = some s' ∧ s'.Sound := by
  cases call with
  | addInstanceSave mapId instanceId difficulty canReset =>
    exact ⟨_, rfl, hs.addInstanceSave mapId instanceId difficulty canReset⟩
  | playerBind player instanceId permanent =>
    rw [InstanceBinds.serve]
    rcases hget : s.getInstanceSave instanceId with _ | a
    · exact ⟨s, rfl, hs⟩
    · obtain ⟨save, ha⟩ := hs.saves_of_getInstanceSave hget
      exact hs.playerBind ha (hin a save hget ha) player permanent
  | playerUnbind player mapid difficulty =>
    obtain ⟨s', hs', hsound, -⟩ := hs.unbindInstance (.player player) mapid hin
    exact ⟨s', hs', hsound⟩
  | groupBind group instanceId permanent =>
    rw [InstanceBinds.serve]
    rcases hget : s.getInstanceSave instanceId with _ | a
    · exact ⟨s, rfl, hs⟩
    · obtain ⟨save, ha⟩ := hs.saves_of_getInstanceSave hget
      obtain ⟨s', hs', hsound, -⟩ :=
        hs.groupBind ha (hin.imp_right fun h => h a save hget ha) permanent
      exact ⟨s', hs', hsound⟩
  | groupUnbind group mapid difficulty =>
    obtain ⟨s', hs', hsound, -⟩ := hs.unbindInstance (.group group) mapid hin
    exact ⟨s', hs', hsound⟩
  | groupReset group method isRaid difficulty havePlayers =>
    rw [InstanceBinds.serve, groupResetInstances]
    by_cases hbg : cfg.isBGGroup group
    · rw [if_pos hbg]
      exact ⟨s, rfl, hs⟩
    · rw [if_neg hbg]
      exact Sound.resetLoop (hin.resolve_left hbg) hs (Nat.lt_succ_self _)
  | convert player group switchLeader =>
    refine hs.convertDifficulties _ group nodup_range fun hswitch d hd => ?_
    exact hin hswitch d (mem_range.1 hd)
  | resetInstance instanceId =>
    rw [InstanceBinds.serve, resetInstance]
    rcases hfind : find Prod.fst s.byId instanceId with _ | entry
    · exact ⟨s, rfl, hs⟩
    · obtain ⟨s', hs', hsound, -⟩ := hs.resetSave (mem_of_find hfind).1
      exact ⟨s', hs', hsound⟩
  | globalReset mapid difficulty => exact hs.globalReset mapid difficulty

end InstanceBinds

open InstanceBinds

/-- As long as no difficulty beyond `m_boundInstances` is used, no call fails, and binds are
two-way. -/
theorem bind_run (cfg : BindConfig) (calls : List BindCall)
    (hin : Along (serveAll cfg) (fun s call => ∀ s' ∈ s, InArray cfg s' call) (some {}) calls) :
    ∃ s, run (serveAll cfg) (some {}) calls = some s ∧ s.TwoWay := by
  have hstep : ∀ (o : Option InstanceBinds) (call : BindCall),
      (∃ s, o = some s ∧ s.Sound) → (∀ s ∈ o, InArray cfg s call) →
      ∃ s, serveAll cfg o call = some s ∧ s.Sound := by
    rintro o call ⟨s, rfl, hsound⟩ hin
    exact hsound.serve (hin s rfl)
  obtain ⟨s, hs, hsound⟩ := invariant_run hstep ⟨{}, rfl, sound_empty⟩ hin
  exact ⟨s, hs, hsound.twoWay⟩

/-- Raids only, of all difficulties. -/
def raids : BindConfig where
  isRaid := fun _ => some true
  mapDifficulty := fun _ _ => true
  isBGGroup := fun _ => false

theorem bind_run_raids : ∃ s, run (serveAll raids) (some {})
    [.addInstanceSave 631 1 0 true, .playerBind 7 1 true, .groupUnbind 3 631 0] = some s ∧
      s.TwoWay := by
  refine bind_run raids _ ⟨fun _ _ => trivial, fun s hs a save hget ha => ?_, fun _ _ => ?_,
    trivial⟩
  · obtain rfl := some.inj hs
    obtain rfl : 0 = a := some.inj hget
    obtain rfl := some.inj ha
    decide
  · exact (by decide : 0 < maxDifficulty)

/-- The save of a raid of difficulty 4 is made, and its bind is beyond `m_boundInstances`. -/
theorem not_bound_flexRaid : ¬∃ s, run (serveAll raids) (some {})
    [.addInstanceSave 1136 1 4 true, .playerBind 7 1 true] = some s ∧ s.TwoWay := by
  rintro ⟨s, hs, -⟩
  have hnone : run (serveAll raids) (some {})
      [.addInstanceSave 1136 1 4 true, .playerBind 7 1 true] = none := rfl
  exact some_ne_none s (hs.symm.trans hnone)

end MistyWorld
