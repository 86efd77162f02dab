import Mathlib.Data.List.Nodup
import Mathlib.Data.Rat.Defs
import Mathlib.Logic.Function.Basic
import Mathlib.Order.Basic
import MistyWorld.Word

/-!
# Spawn pools

The pools of `PoolMgr`. A pool has a limit and four groups of members : creatures, game objects,
child pools and quests. `ActivePoolData` records which of them are active, together with one counter
for each pool (`mSpawnedPools`), whose presence also says that a child pool is active. A group
spawns by as many rolls as the counter is below the limit (`PoolGroup::SpawnObject`), one more when
an active member asks for its respawn; quests are chosen by an algorithm of their own.

Pools spawn and despawn their child pools. The recursion ends because the mother relation has no
cycle : a configuration gives every pool a `rank` above those of its children, which is the fuel of
the recursions here. `PoolConfig.spawnPool_eq` and `PoolConfig.despawnPool_eq` are the equations of
the source, without fuel.

Random numbers and the answers of the database are lists in the state, used from their heads. The
`log` records every choice of quests, with what it was based on.
-/

open List Word

namespace MistyWorld

/-! ## Groups and configurations -/

/-- The kinds of members of a pool, the type parameter of `PoolGroup`. -/
inductive PoolKind
  | creature
  | gameobject
  | pool
  | quest
  deriving DecidableEq

/-- An entry of a group. -/
structure PoolObject where
  guid : ℕ
  chance : ℚ
  deriving DecidableEq

/-- The members of one kind of a pool. -/
structure PoolGroup where
  explicitlyChanced : List PoolObject := []
  equalChanced : List PoolObject := []

variable {group : PoolGroup}

namespace PoolGroup

/-- `isEmpty`. -/
def isEmpty (group : PoolGroup) : Bool :=
  group.explicitlyChanced.isEmpty && group.equalChanced.isEmpty

/-- The members, in the order in which `DespawnObject` goes through them. -/
def guids (group : PoolGroup) : List ℕ :=
  (group.equalChanced ++ group.explicitlyChanced).map PoolObject.guid

/-- `GetFirstEqualChancedObjectId`. -/
def firstEqualChancedObjectId (group : PoolGroup) : ℕ :=
  (group.equalChanced.head?.map PoolObject.guid).getD 0

theorem mem_guids {g : ℕ} : g ∈ group.guids ↔
    (∃ o ∈ group.equalChanced, o.guid = g) ∨ ∃ o ∈ group.explicitlyChanced, o.guid = g := by
  simp only [guids, map_append, mem_append, mem_map]

theorem guids_of_isEmpty (h : group.isEmpty = true) : group.guids = [] := by
  rw [isEmpty, Bool.and_eq_true, List.isEmpty_iff, List.isEmpty_iff] at h
  rw [guids, h.1, h.2, append_nil, map_nil]

end PoolGroup

/-- What the pools need of a quest template. -/
structure PoolQuest where
  isDaily : Bool
  isWeekly : Bool

/-- What `LoadFromDB` leaves : the limit and the groups of each pool, and the pool a child pool
belongs to. No member is in two pools, and the mother relation has no cycle. -/
structure PoolConfig where
  maxPoolId : ℕ
  maxLimit : ℕ → ℕ
  group : PoolKind → ℕ → PoolGroup
  mother : ℕ → Option ℕ
  questTemplate : ℕ → Option PoolQuest
  rank : ℕ → ℕ
  maxLimit_lt : ∀ p, maxLimit p < 2 ^ 32
  nodup : ∀ kind p, (group kind p).guids.Nodup
  unique : ∀ {kind p q g}, g ∈ (group kind p).guids → g ∈ (group kind q).guids → p = q
  mother_iff : ∀ {child p}, mother child = some p ↔ child ∈ (group .pool p).guids
  rank_lt : ∀ {child p}, child ∈ (group .pool p).guids → rank child < rank p

/-! ## Active objects -/

/-- Which members are active, and how many of each pool. -/
structure ActivePoolData where
  spawnedCreatures : List ℕ := []
  spawnedGameobjects : List ℕ := []
  activeQuests : List ℕ := []
  spawnedPools : ℕ → Option ℕ := fun _ => none

namespace ActivePoolData

/-- `GetActiveObjectCount`. -/
def count (d : ActivePoolData) (p : ℕ) : ℕ :=
  (d.spawnedPools p).getD 0

/-- `IsActiveObject`. -/
def isActiveObject (d : ActivePoolData) : PoolKind → ℕ → Bool
  | .creature, g => d.spawnedCreatures.contains g
  | .gameobject, g => d.spawnedGameobjects.contains g
  | .pool, g => (d.spawnedPools g).isSome
  | .quest, g => d.activeQuests.contains g

/-- `++mSpawnedPools[pool_id]`. -/
def increase (d : ActivePoolData) (p : ℕ) : ActivePoolData :=
  { d with spawnedPools := Function.update d.spawnedPools p (some (d.count p + 1)) }

/-- Takes one from `mSpawnedPools[pool_id]`, which stays at zero. -/
def decrease (d : ActivePoolData) (p : ℕ) : ActivePoolData :=
  { d with spawnedPools := Function.update d.spawnedPools p (some (d.count p - 1)) }

/-- `ActivateObject`. -/
def activateObject (d : ActivePoolData) (kind : PoolKind) (g p : ℕ) : ActivePoolData :=
  match kind with
  | .creature => { d with spawnedCreatures := d.spawnedCreatures.insert g }.increase p
  | .gameobject => { d with spawnedGameobjects := d.spawnedGameobjects.insert g }.increase p
  | .pool => { d with spawnedPools := Function.update d.spawnedPools g (some 0) }.increase p
  | .quest => { d with activeQuests := d.activeQuests.insert g }.increase p

/-- `RemoveObject`. -/
def removeObject (d : ActivePoolData) (kind : PoolKind) (g p : ℕ) : ActivePoolData :=
  match kind with
  | .creature => { d with spawnedCreatures := d.spawnedCreatures.filter (· ≠ g) }.decrease p
  | .gameobject => { d with spawnedGameobjects := d.spawnedGameobjects.filter (· ≠ g) }.decrease p
  | .pool => { d with spawnedPools := Function.update d.spawnedPools g none }.decrease p
  | .quest => { d with activeQuests := d.activeQuests.filter (· ≠ g) }.decrease p

end ActivePoolData

/-! ## The state -/

/-- A choice of quests : the pool, who triggered it, what was active, the saved rows and the quests
chosen from when there are none. -/
structure QuestSpawn where
  pool : ℕ
  triggerFrom : ℕ
  spawns : ActivePoolData
  rows : List ℕ
  newQuests : List ℕ

/-- The manager : what is active, the random numbers and saved rows to come, and the choices of
quests so far. -/
structure PoolMgr where
  spawns : ActivePoolData := {}
  chances : List ℚ := []
  picks : List ℕ := []
  saved : List (List ℕ) := []
  log : List QuestSpawn := []

namespace PoolMgr

/-- `rand_chance`. -/
def randChance (s : PoolMgr) : ℚ × PoolMgr :=
  (s.chances.headD 0, { s with chances := s.chances.tail })

/-- `irand(0, size - 1)`. -/
def irand (s : PoolMgr) (size : ℕ) : ℕ × PoolMgr :=
  (s.picks.headD 0 % size, { s with picks := s.picks.tail })

/-- The rows of `CHAR_SEL_POOL_QUEST_SAVE`. -/
def query (s : PoolMgr) : List ℕ × PoolMgr :=
  (s.saved.headD [], { s with saved := s.saved.tail })

/-- The manager with other data. -/
def withSpawns (s : PoolMgr) (d : ActivePoolData) : PoolMgr :=
  { s with spawns := d }

@[simp] theorem withSpawns_spawns (s : PoolMgr) (d : ActivePoolData) :
    (s.withSpawns d).spawns = d :=
  rfl

/-- `ActivateObject` on the manager's data. -/
def activateObject (s : PoolMgr) (kind : PoolKind) (g p : ℕ) : PoolMgr :=
  s.withSpawns (s.spawns.activateObject kind g p)

end PoolMgr

/-! ## Rolls -/

namespace PoolGroup

variable (d : ActivePoolData) (kind : PoolKind) (triggerFrom : ℕ)

/-- A member can be rolled when it is the trigger or is not active. -/
def free (g : ℕ) : Bool :=
  g == triggerFrom || !d.isActiveObject kind g

/-- The loop of `RollOne` over the explicitly chanced members. -/
def rollExplicit : ℚ → List PoolObject → Option ℕ
  | _, [] => none
  | roll, o :: os =>
    if roll - o.chance < 0 ∧ free d kind triggerFrom o.guid then some o.guid
    else rollExplicit (roll - o.chance) os

/-- The part of `RollOne` for the equally chanced members. -/
def rollEqual (os : List PoolObject) (s : PoolMgr) : Option ℕ × PoolMgr :=
  if os.isEmpty then (none, s)
  else
    let (index, s) := s.irand os.length
    (((os[index]?).map PoolObject.guid).filter (free d kind triggerFrom), s)

/-- `RollOne`. -/
def rollOne (group : PoolGroup) (s : PoolMgr) : Option ℕ × PoolMgr :=
  if group.explicitlyChanced.isEmpty then
    rollEqual s.spawns kind triggerFrom group.equalChanced s
  else
    let d := s.spawns
    let (roll, s) := s.randChance
    match rollExplicit d kind triggerFrom roll group.explicitlyChanced with
    | some g => (some g, s)
    | none => rollEqual d kind triggerFrom group.equalChanced s

variable {d kind triggerFrom}

theorem rollExplicit_eq_some {roll : ℚ} {os : List PoolObject} {g : ℕ}
    (h : rollExplicit d kind triggerFrom roll os = some g) :
    (∃ o ∈ os, o.guid = g) ∧ free d kind triggerFrom g := by
  induction os generalizing roll with
  | nil => exact absurd h (by simp only [rollExplicit, reduceCtorEq, not_false_eq_true])
  | cons o os ih =>
    rw [rollExplicit] at h
    split at h
    · next hfree =>
      obtain rfl := Option.some.inj h
      exact ⟨⟨o, mem_cons_self, rfl⟩, hfree.2⟩
    · obtain ⟨⟨o', ho', hg⟩, hfree⟩ := ih h
      exact ⟨⟨o', mem_cons_of_mem o ho', hg⟩, hfree⟩

theorem rollEqual_eq_some {os : List PoolObject} {s : PoolMgr} {g : ℕ}
    (h : (rollEqual d kind triggerFrom os s).1 = some g) :
    (∃ o ∈ os, o.guid = g) ∧ free d kind triggerFrom g := by
  rw [rollEqual] at h
  split at h
  · exact absurd h (by simp only [reduceCtorEq, not_false_eq_true])
  · obtain ⟨hmap, hfree⟩ := Option.filter_eq_some_iff.mp h
    obtain ⟨o, ho, hg⟩ := Option.map_eq_some_iff.mp hmap
    exact ⟨⟨o, mem_of_getElem? ho, hg⟩, hfree⟩

/-- What is rolled is a member that can be rolled. -/
theorem rollOne_eq_some {s : PoolMgr} {g : ℕ} (h : (group.rollOne kind triggerFrom s).1 = some g) :
    g ∈ group.guids ∧ free s.spawns kind triggerFrom g := by
  rw [mem_guids]
  rw [rollOne] at h
  split at h
  · exact ⟨.inl (rollEqual_eq_some h).1, (rollEqual_eq_some h).2⟩
  · dsimp only at h
    split at h
    · next hroll =>
      obtain rfl := Option.some.inj h
      exact ⟨.inr (rollExplicit_eq_some hroll).1, (rollExplicit_eq_some hroll).2⟩
    · exact ⟨.inl (rollEqual_eq_some h).1, (rollEqual_eq_some h).2⟩

variable (d kind triggerFrom)

theorem rollEqual_snd (os : List PoolObject) (s : PoolMgr) :
    (rollEqual d kind triggerFrom os s).2.spawns = s.spawns ∧
      (rollEqual d kind triggerFrom os s).2.log = s.log := by
  rw [rollEqual]
  split <;> exact ⟨rfl, rfl⟩

/-- A roll uses random numbers only. -/
theorem rollOne_snd (group : PoolGroup) (s : PoolMgr) :
    (group.rollOne kind triggerFrom s).2.spawns = s.spawns ∧
      (group.rollOne kind triggerFrom s).2.log = s.log := by
  rw [rollOne]
  split
  · exact rollEqual_snd s.spawns kind triggerFrom _ s
  · dsimp only
    split
    · exact ⟨rfl, rfl⟩
    · exact rollEqual_snd s.spawns kind triggerFrom _ s.randChance.2

end PoolGroup

namespace PoolConfig

variable (cfg : PoolConfig)

/-! ## Despawning -/

/-- One round of `PoolGroup::DespawnObject`, with what is done for the object. -/
def despawnRound (despawn1 : ℕ → ActivePoolData → ActivePoolData) (kind : PoolKind) (p guid : ℕ)
    (d : ActivePoolData) (g : ℕ) : ActivePoolData :=
  if d.isActiveObject kind g ∧ (guid = 0 ∨ g = guid) then (despawn1 g d).removeObject kind g p
  else d

/-- `PoolGroup::DespawnObject` : all active members of the group, or the given one. -/
def despawnObject (despawn1 : ℕ → ActivePoolData → ActivePoolData) (kind : PoolKind) (p guid : ℕ)
    (d : ActivePoolData) : ActivePoolData :=
  (cfg.group kind p).guids.foldl (despawnRound despawn1 kind p guid) d

/-- `Despawn1Object`, as far as pools are concerned. -/
def despawn1Object (despawnPool : ℕ → ActivePoolData → ActivePoolData) (kind : PoolKind) (g : ℕ)
    (d : ActivePoolData) : ActivePoolData :=
  if kind = .pool then despawnPool g d else d

/-- One part of `DespawnPool`. -/
def despawnGroup (despawnPool : ℕ → ActivePoolData → ActivePoolData) (p : ℕ)
    (d : ActivePoolData) (kind : PoolKind) : ActivePoolData :=
  if (cfg.group kind p).isEmpty then d
  else cfg.despawnObject (despawn1Object despawnPool kind) kind p 0 d

/-- `DespawnPool` with fuel. -/
def despawnPoolFuel : ℕ → ℕ → ActivePoolData → ActivePoolData
  | 0, _, d => d
  | n + 1, p, d =>
    [PoolKind.creature, .gameobject, .pool, .quest].foldl
      (cfg.despawnGroup (despawnPoolFuel n) p) d

/-- `DespawnPool`. -/
def despawnPool (p : ℕ) (d : ActivePoolData) : ActivePoolData :=
  cfg.despawnPoolFuel (cfg.rank p + 1) p d

/-! ## Spawning creatures, game objects and pools -/

/-- The loop of `PoolGroup::SpawnObject` with what is done for one object. The first activation
while the trigger waits is paid for by the despawn of the trigger. -/
def spawnLoop (spawn1 : ℕ → PoolMgr → PoolMgr) (kind : PoolKind) (p : ℕ) :
    ℕ → ℕ → ℕ → PoolMgr → PoolMgr
  | 0, _, _, s => s
  | n + 1, lastDespawned, triggerFrom, s =>
    let (obj, s) := (cfg.group kind p).rollOne kind triggerFrom s
    match obj with
    | none => spawnLoop spawn1 kind p n lastDespawned triggerFrom s
    | some g =>
      if g = lastDespawned then spawnLoop spawn1 kind p n lastDespawned triggerFrom s
      else if g = triggerFrom then spawnLoop spawn1 kind p n lastDespawned 0 s
      else
        let s := spawn1 g (s.activateObject kind g p)
        if triggerFrom = 0 then spawnLoop spawn1 kind p n lastDespawned 0 s
        else
          spawnLoop spawn1 kind p n triggerFrom 0 (s.withSpawns
            (cfg.despawnObject (despawn1Object cfg.despawnPool kind) kind p triggerFrom s.spawns))

/-- The rounds of the loop : `limit - count` as an `int`, and one more with a trigger. -/
def rounds (limit count triggerFrom : ℕ) : ℕ :=
  (toI32 ((limit : ℤ) - count) + if triggerFrom = 0 then 0 else 1).toNat

/-- `PoolGroup::SpawnObject`. -/
def spawnObject (spawn1 : ℕ → PoolMgr → PoolMgr) (kind : PoolKind) (p triggerFrom : ℕ)
    (s : PoolMgr) : PoolMgr :=
  cfg.spawnLoop spawn1 kind p (rounds (cfg.maxLimit p) (s.spawns.count p) triggerFrom) 0
    triggerFrom s

/-! ## Spawning quests -/

/-- The loop over the saved rows, which ends when `--limit` is zero. -/
def restoreQuests (p : ℕ) : ℕ → List ℕ → ActivePoolData → ActivePoolData
  | _, [], d => d
  | limit, quest :: rows, d =>
    let d := d.activateObject .quest quest p
    let limit := toU32 ((limit : ℤ) - 1)
    if limit = 0 then d else restoreQuests p limit rows d

/-- `SelectRandomContainerElement`. -/
def selectRandom (l : List ℕ) (s : PoolMgr) : ℕ × PoolMgr :=
  let (index, s) := s.irand l.length
  (l.getD index 0, s)

/-- The quests of the pool that are not active. -/
def freshQuests (p : ℕ) (d : ActivePoolData) : List ℕ :=
  (cfg.group .quest p).equalChanced.foldl (fun fresh o =>
    if d.isActiveObject .quest o.guid then fresh else fresh.insert o.guid) []

/-- The loop that recycles current quests, of whichever pool, with the size of the set as fuel. -/
def recycleQuests (limit : ℕ) : ℕ → List ℕ → List ℕ → PoolMgr → List ℕ × PoolMgr
  | 0, _, newQuests, s => (newQuests, s)
  | n + 1, currentQuests, newQuests, s =>
    let (quest, s) := selectRandom currentQuests s
    let newQuests := newQuests.insert quest
    let currentQuests := currentQuests.filter (· ≠ quest)
    if newQuests.length < limit ∧ currentQuests ≠ [] then
      recycleQuests limit n currentQuests newQuests s
    else (newQuests, s)

/-- The loop that activates quests, which ends when `--limit` is zero, with the size of the set as
fuel. -/
def activateQuests (p : ℕ) : ℕ → ℕ → List ℕ → PoolMgr → PoolMgr
  | 0, _, _, s => s
  | n + 1, limit, newQuests, s =>
    let (quest, s) := selectRandom newQuests s
    let s := s.activateObject .quest quest p
    let newQuests := newQuests.filter (· ≠ quest)
    let limit := toU32 ((limit : ℤ) - 1)
    if limit ≠ 0 ∧ newQuests ≠ [] then activateQuests p n limit newQuests s else s

/-- The part of `PoolGroup<Quest>::SpawnObject` after the saved rows. -/
def chooseQuests (p triggerFrom : ℕ) (s : PoolMgr) : PoolMgr :=
  let before := s.spawns
  let currentQuests := before.activeQuests
  let fresh := cfg.freshQuests p before
  let s := s.withSpawns (cfg.despawnObject (fun _ d => d) .quest p 0 s.spawns)
  let (newQuests, s) :=
    if cfg.maxLimit p > fresh.length ∧ currentQuests ≠ [] then
      recycleQuests (cfg.maxLimit p) currentQuests.length currentQuests fresh s
    else (fresh, s)
  let s := { s with log := ⟨p, triggerFrom, before, [], newQuests⟩ :: s.log }
  activateQuests p newQuests.length (cfg.maxLimit p) newQuests s

/-- `PoolGroup<Quest>::SpawnObject`. -/
def spawnQuests (p triggerFrom : ℕ) (s : PoolMgr) : PoolMgr :=
  if triggerFrom = 0 then
    let (rows, s) := s.query
    if rows = [] then cfg.chooseQuests p triggerFrom s
    else
      { s with
        spawns := restoreQuests p (cfg.maxLimit p) rows s.spawns
        log := ⟨p, triggerFrom, s.spawns, rows, []⟩ :: s.log }
  else cfg.chooseQuests p triggerFrom s

/-! ## Pools -/

/-- `Spawn1Object`, as far as pools are concerned. -/
def spawn1Object (spawnPool : ℕ → PoolMgr → PoolMgr) (kind : PoolKind) (g : ℕ) (s : PoolMgr) :
    PoolMgr :=
  if kind = .pool then spawnPool g s else s

/-- `SpawnPool<T>`. -/
def spawnGroup (spawnPool : ℕ → PoolMgr → PoolMgr) (p triggerFrom : ℕ) (s : PoolMgr)
    (kind : PoolKind) : PoolMgr :=
  if (cfg.group kind p).isEmpty then s
  else if kind = .quest then cfg.spawnQuests p triggerFrom s
  else cfg.spawnObject (spawn1Object spawnPool kind) kind p triggerFrom s

/-- `SpawnPool` with fuel. -/
def spawnPoolFuel : ℕ → ℕ → PoolMgr → PoolMgr
  | 0, _, s => s
  | n + 1, p, s =>
    [PoolKind.pool, .gameobject, .creature, .quest].foldl
      (cfg.spawnGroup (spawnPoolFuel n) p 0) s

/-- `SpawnPool`. -/
def spawnPool (p : ℕ) (s : PoolMgr) : PoolMgr :=
  cfg.spawnPoolFuel (cfg.rank p + 1) p s

/-- `UpdatePool<T>`. -/
def updatePool (kind : PoolKind) (p guid : ℕ) (s : PoolMgr) : PoolMgr :=
  let motherpoolid := (cfg.mother p).getD 0
  if motherpoolid ≠ 0 then cfg.spawnGroup cfg.spawnPool motherpoolid p s .pool
  else cfg.spawnGroup cfg.spawnPool p guid s kind

/-- The pools that `ChangeDailyQuests` (or, with `isDaily` in place of `isWeekly`,
`ChangeWeeklyQuests`) updates. The group of a pool without quests has the pool id zero. -/
def changedPools (skips : PoolQuest → Bool) : List ℕ :=
  (List.range (cfg.maxPoolId + 1)).filterMap fun p =>
    (cfg.questTemplate (cfg.group .quest p).firstEqualChancedObjectId).bind fun quest =>
      if skips quest then none
      else if (cfg.group .quest p).isEmpty then some 0
      else some p

/-- `UpdatePool<Quest>(pool, 1)`. -/
def changeQuests (s : PoolMgr) (p : ℕ) : PoolMgr :=
  cfg.updatePool .quest p 1 s

/-- `ChangeDailyQuests`. -/
def changeDailyQuests (s : PoolMgr) : PoolMgr :=
  (cfg.changedPools PoolQuest.isWeekly).foldl cfg.changeQuests s

/-- `ChangeWeeklyQuests`. -/
def changeWeeklyQuests (s : PoolMgr) : PoolMgr :=
  (cfg.changedPools PoolQuest.isDaily).foldl cfg.changeQuests s

/-! ## The recursion without fuel -/

section Fuel

variable {cfg} {p : ℕ}

theorem despawnObject_congr {f f' : ℕ → ActivePoolData → ActivePoolData} {kind : PoolKind}
    (h : ∀ g ∈ (cfg.group kind p).guids, f g = f' g) (guid : ℕ) (d : ActivePoolData) :
    cfg.despawnObject f kind p guid d = cfg.despawnObject f' kind p guid d :=
  foldl_ext _ _ _ fun d g hg => by rw [despawnRound, despawnRound, h g hg]

theorem despawnGroup_congr {f f' : ℕ → ActivePoolData → ActivePoolData}
    (h : ∀ g, cfg.rank g < cfg.rank p → f g = f' g) (d : ActivePoolData) (kind : PoolKind) :
    cfg.despawnGroup f p d kind = cfg.despawnGroup f' p d kind := by
  rw [despawnGroup, despawnGroup]
  split
  · rfl
  · refine despawnObject_congr (fun g hg => funext fun d => ?_) 0 d
    rw [despawn1Object, despawn1Object]
    split
    · next hkind =>
      subst hkind
      rw [h g (cfg.rank_lt hg)]
    · rfl

theorem despawnPoolFuel_congr {n m : ℕ} (hn : cfg.rank p < n) (hm : cfg.rank p < m) :
    cfg.despawnPoolFuel n p = cfg.despawnPoolFuel m p := by
  induction n generalizing m p with
  | zero => exact absurd hn (Nat.not_lt_zero _)
  | succ n ih =>
    cases m with
    | zero => exact absurd hm (Nat.not_lt_zero _)
    | succ m =>
      funext d
      refine foldl_ext _ _ _ fun d kind _ => despawnGroup_congr (fun g hg => ?_) d kind
      exact ih (by omega) (by omega)

/-- `DespawnPool` as the source has it. -/
theorem despawnPool_eq (p : ℕ) (d : ActivePoolData) : cfg.despawnPool p d =
    [PoolKind.creature, .gameobject, .pool, .quest].foldl
      (cfg.despawnGroup cfg.despawnPool p) d :=
  foldl_ext _ _ _ fun d kind _ => despawnGroup_congr
    (fun g hg => despawnPoolFuel_congr hg (Nat.lt_succ_self (cfg.rank g))) d kind

theorem spawnLoop_congr {f f' : ℕ → PoolMgr → PoolMgr} {kind : PoolKind}
    (h : ∀ g ∈ (cfg.group kind p).guids, f g = f' g) (n last triggerFrom : ℕ) (s : PoolMgr) :
    cfg.spawnLoop f kind p n last triggerFrom s = cfg.spawnLoop f' kind p n last triggerFrom s := by
  induction n generalizing last triggerFrom s with
  | zero => rfl
  | succ n ih =>
    rw [spawnLoop, spawnLoop]
    dsimp only
    split
    · exact ih last triggerFrom _
    · next g hg =>
      rw [h g (PoolGroup.rollOne_eq_some hg).1]
      simp only [ih]

theorem spawnGroup_congr {f f' : ℕ → PoolMgr → PoolMgr}
    (h : ∀ g, cfg.rank g < cfg.rank p → f g = f' g) (triggerFrom : ℕ) (s : PoolMgr)
    (kind : PoolKind) : cfg.spawnGroup f p triggerFrom s kind =
      cfg.spawnGroup f' p triggerFrom s kind := by
  rw [spawnGroup, spawnGroup]
  split
  · rfl
  · split
    · rfl
    · refine spawnLoop_congr (fun g hg => funext fun s => ?_) _ _ _ _
      rw [spawn1Object, spawn1Object]
      split
      · next hkind =>
        subst hkind
        rw [h g (cfg.rank_lt hg)]
      · rfl

theorem spawnPoolFuel_congr {n m : ℕ} (hn : cfg.rank p < n) (hm : cfg.rank p < m) :
    cfg.spawnPoolFuel n p = cfg.spawnPoolFuel m p := by
  induction n generalizing m p with
  | zero => exact absurd hn (Nat.not_lt_zero _)
  | succ n ih =>
    cases m with
    | zero => exact absurd hm (Nat.not_lt_zero _)
    | succ m =>
      funext s
      refine foldl_ext _ _ _ fun s kind _ => spawnGroup_congr (fun g hg => ?_) 0 s kind
      exact ih (by omega) (by omega)

/-- `SpawnPool` as the source has it. -/
theorem spawnPool_eq (p : ℕ) (s : PoolMgr) : cfg.spawnPool p s =
    [PoolKind.pool, .gameobject, .creature, .quest].foldl
      (cfg.spawnGroup cfg.spawnPool p 0) s :=
  foldl_ext _ _ _ fun s kind _ => spawnGroup_congr
    (fun g hg => spawnPoolFuel_congr hg (Nat.lt_succ_self (cfg.rank g))) 0 s kind

end Fuel

/-! ## Calls -/

/-- The calls of the pool system. -/
inductive Call
  | spawnPool (p : ℕ)
  | despawnPool (p : ℕ)
  | updatePool (kind : PoolKind) (p guid : ℕ)
  | changeDailyQuests
  | changeWeeklyQuests

/-- One call. -/
def step (s : PoolMgr) : Call → PoolMgr
  | .spawnPool p => cfg.spawnPool p s
  | .despawnPool p => s.withSpawns (cfg.despawnPool p s.spawns)
  | .updatePool kind p guid => cfg.updatePool kind p guid s
  | .changeDailyQuests => cfg.changeDailyQuests s
  | .changeWeeklyQuests => cfg.changeWeeklyQuests s

end PoolConfig

end MistyWorld
