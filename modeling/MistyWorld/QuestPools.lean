import MistyWorld.PoolsInvariant

/-!
# Quest pools stay separate

`PoolGroup<Quest>::SpawnObject` clears its pool and activates other quests of it. When there are
fewer of these than the limit, quests are recycled from a copy of the active quests, which was taken
before the pool was cleared and has the quests of all pools. A quest of another pool that is
recycled is activated once more, and the creatures and game objects that start it are related to it
twice. This can happen exactly if the limit exceeds the quests of the pool that are not active and a
quest is active that the pool does not list (`separate_iff`).

The pools and their random numbers are those of `PoolMgr`. In addition the state has the quest
relations of the objects, and records which quests were activated, and whether they were active.
-/

open List Word

namespace MistyWorld

/-! ## Relations -/

/-- `mQuestCreatureRelation` and `mQuestGORelation` : the pairs of a quest and an object that starts
it. -/
structure PooledQuestRelations where
  creature : List (ℕ × ℕ) := []
  gameobject : List (ℕ × ℕ) := []

/-- The pairs of the quest, as the map of the objects has them. -/
def relationsOf (pooled : List (ℕ × ℕ)) (quest : ℕ) : List (ℕ × ℕ) :=
  (pooled.filter fun relation => relation.1 = quest).map Prod.swap

/-- The state of the quest pools. The maps have pairs of an object and a quest. -/
structure QuestPools where
  mgr : PoolMgr
  creatureQuestRelations : List (ℕ × ℕ)
  goQuestRelations : List (ℕ × ℕ)
  activated : List (ℕ × Bool) := []

namespace QuestPools

variable (pooled : PooledQuestRelations) (group : PoolGroup) (poolId limit triggerFrom : ℕ)
  {newQuests : List ℕ} {mgr : PoolMgr}

/-- `IsActiveObject<Quest>` -/
def isActive (s : QuestPools) (quest : ℕ) : Bool :=
  s.mgr.spawns.isActiveObject .quest quest

/-- `Despawn1Object` -/
def despawn1Object (s : QuestPools) (quest : ℕ) : QuestPools :=
  { s with
    creatureQuestRelations :=
      (relationsOf pooled.creature quest).foldl List.erase s.creatureQuestRelations
    goQuestRelations := (relationsOf pooled.gameobject quest).foldl List.erase s.goQuestRelations }

/-- `Spawn1Object` -/
def spawn1Object (s : QuestPools) (quest : ℕ) : QuestPools :=
  { s with
    creatureQuestRelations := s.creatureQuestRelations ++ relationsOf pooled.creature quest
    goQuestRelations := s.goQuestRelations ++ relationsOf pooled.gameobject quest }

/-- One round of `DespawnObject(spawns)`. -/
def despawnRound (s : QuestPools) (quest : ℕ) : QuestPools :=
  if s.isActive quest then
    let s := s.despawn1Object pooled quest
    { s with mgr := s.mgr.withSpawns (s.mgr.spawns.removeObject .quest quest poolId) }
  else s

/-- `DespawnObject(spawns)` -/
def despawnObject (s : QuestPools) : QuestPools :=
  group.guids.foldl (despawnRound pooled poolId) s

/-- `ActivateObject<Quest>` and `Spawn1Object`. -/
def activateQuest (s : QuestPools) (quest : ℕ) : QuestPools :=
  { s with
    mgr := s.mgr.activateObject .quest quest poolId
    activated := s.activated ++ [(quest, s.isActive quest)] }.spawn1Object pooled quest

/-- The loop over the saved rows, which ends when `--limit` is zero. -/
def restoreQuests : ℕ → List ℕ → QuestPools → QuestPools
  | _, [], s => s
  | limit, quest :: rows, s =>
    let s := s.activateQuest pooled poolId quest
    let limit := toU32 ((limit : ℤ) - 1)
    if limit = 0 then s else restoreQuests limit rows s

/-- The quests of the pool that are not active. -/
def freshQuests (d : ActivePoolData) : List ℕ :=
  group.equalChanced.foldl (fun newQuests o =>
    if d.isActiveObject .quest o.guid then newQuests else newQuests.insert o.guid) []

/-- The loop that activates quests, which ends when `--limit` is zero, with the size of the set as
fuel. -/
def activateQuests : ℕ → ℕ → List ℕ → QuestPools → QuestPools
  | 0, _, _, s => s
  | n + 1, limit, newQuests, s =>
    let (quest, mgr) := PoolConfig.selectRandom newQuests s.mgr
    let s := { s with mgr := mgr }.activateQuest pooled poolId quest
    let newQuests := newQuests.filter (· ≠ quest)
    let limit := toU32 ((limit : ℤ) - 1)
    if limit ≠ 0 ∧ newQuests ≠ [] then activateQuests n limit newQuests s else s

/-- The quests to choose from, after those of the pool were cleared. -/
def selectQuests (s : QuestPools) : List ℕ × QuestPools :=
  let currentQuests := s.mgr.spawns.activeQuests
  let newQuests := freshQuests group s.mgr.spawns
  let s := s.despawnObject pooled group poolId
  if limit > newQuests.length ∧ currentQuests ≠ [] then
    let recycled :=
      PoolConfig.recycleQuests limit currentQuests.length currentQuests newQuests s.mgr
    (recycled.1, { s with mgr := recycled.2 })
  else (newQuests, s)

/-- The part of `SpawnObject` after the saved rows. -/
def chooseQuests (s : QuestPools) : QuestPools :=
  let before := s.mgr.spawns
  let (newQuests, s) := s.selectQuests pooled group poolId limit
  let log := ⟨poolId, triggerFrom, before, [], newQuests⟩ :: s.mgr.log
  activateQuests pooled poolId newQuests.length limit newQuests
    { s with mgr := { s.mgr with log := log } }

/-- `PoolGroup<Quest>::SpawnObject` -/
def spawnObject (s : QuestPools) : QuestPools :=
  if triggerFrom = 0 then
    let (rows, mgr) := s.mgr.query
    if rows = [] then { s with mgr := mgr }.chooseQuests pooled group poolId limit triggerFrom
    else
      let log := ⟨poolId, triggerFrom, s.mgr.spawns, rows, []⟩ :: s.mgr.log
      restoreQuests pooled poolId limit rows { s with mgr := { mgr with log := log } }
  else s.chooseQuests pooled group poolId limit triggerFrom

/-! ## The model without relations -/

section Connection

variable {pooled} (cfg : PoolConfig)

theorem mgr_despawnObject (s : QuestPools) :
    (s.despawnObject pooled (cfg.group .quest poolId) poolId).mgr =
      s.mgr.withSpawns (cfg.despawnObject (fun _ d => d) .quest poolId 0 s.mgr.spawns) := by
  rw [despawnObject, PoolConfig.despawnObject]
  induction (cfg.group .quest poolId).guids generalizing s with
  | nil => rfl
  | cons quest quests ih =>
    rw [foldl_cons, foldl_cons, ih, despawnRound, PoolConfig.despawnRound]
    by_cases hactive : s.isActive quest = true
    · have hactive' : s.mgr.spawns.isActiveObject .quest quest = true := hactive
      rw [if_pos hactive, if_pos ⟨hactive', .inl rfl⟩]
      rfl
    · have hactive' : ¬s.mgr.spawns.isActiveObject .quest quest = true := hactive
      rw [if_neg hactive, if_neg fun h => hactive' h.1]

theorem mgr_activateQuests (n limit : ℕ) (newQuests : List ℕ) (s : QuestPools) :
    (activateQuests pooled poolId n limit newQuests s).mgr =
      PoolConfig.activateQuests poolId n limit newQuests s.mgr := by
  induction n generalizing limit newQuests s with
  | zero => rfl
  | succ n ih =>
    rw [activateQuests, PoolConfig.activateQuests]
    dsimp only
    split
    · exact ih _ _ _
    · rfl

theorem spawns_restoreQuests (limit : ℕ) (rows : List ℕ) (s : QuestPools) :
    (restoreQuests pooled poolId limit rows s).mgr =
      s.mgr.withSpawns (PoolConfig.restoreQuests poolId limit rows s.mgr.spawns) := by
  induction rows generalizing limit s with
  | nil => rfl
  | cons quest rows ih =>
    rw [restoreQuests, PoolConfig.restoreQuests]
    split
    · rfl
    · exact ih _ _

/-- The relations aside, this is the choice of quests of `PoolMgr`. -/
theorem mgr_spawnObject (s : QuestPools) :
    (s.spawnObject pooled (cfg.group .quest poolId) poolId (cfg.maxLimit poolId) triggerFrom).mgr =
      cfg.spawnQuests poolId triggerFrom s.mgr := by
  have hchoose : ∀ s : QuestPools,
      (s.chooseQuests pooled (cfg.group .quest poolId) poolId (cfg.maxLimit poolId)
        triggerFrom).mgr = cfg.chooseQuests poolId triggerFrom s.mgr := by
    intro s
    rw [chooseQuests, mgr_activateQuests, PoolConfig.chooseQuests, selectQuests]
    rw [mgr_despawnObject]
    have hfresh : freshQuests (cfg.group .quest poolId) s.mgr.spawns =
        cfg.freshQuests poolId s.mgr.spawns := rfl
    rw [hfresh]
    split
    · rfl
    · dsimp only
      rw [mgr_despawnObject]
  rw [spawnObject, PoolConfig.spawnQuests]
  split
  · dsimp only
    split
    · exact hchoose _
    · exact spawns_restoreQuests poolId _ _ _
  · exact hchoose s

end Connection

/-! ## Which quests are active -/

section Active

variable {pooled group poolId}

@[simp] theorem isActive_activateQuest (s : QuestPools) (quest g : ℕ) :
    (s.activateQuest pooled poolId quest).isActive g = true ↔ s.isActive g = true ∨ g = quest := by
  refine (ActivePoolData.isActiveObject_activateObject s.mgr.spawns .quest quest poolId .quest
    g).trans ?_
  simp [isActive]

theorem isActive_despawnRound (s : QuestPools) (quest g : ℕ) :
    (s.despawnRound pooled poolId quest).isActive g = true ↔ s.isActive g = true ∧ g ≠ quest := by
  rw [despawnRound]
  by_cases hactive : s.isActive quest = true
  · rw [if_pos hactive]
    refine (ActivePoolData.isActiveObject_removeObject s.mgr.spawns .quest quest poolId .quest
      g).trans ?_
    simp [isActive]
  · rw [if_neg hactive]
    exact ⟨fun h => ⟨h, fun heq => hactive (heq ▸ h)⟩, And.left⟩

/-- Clearing the pool leaves the quests active that it does not list. -/
theorem isActive_despawnObject (s : QuestPools) (g : ℕ) :
    (s.despawnObject pooled group poolId).isActive g = true ↔
      s.isActive g = true ∧ g ∉ group.guids := by
  rw [despawnObject]
  induction group.guids generalizing s with
  | nil => simp
  | cons quest quests ih =>
    rw [foldl_cons, ih, isActive_despawnRound, mem_cons, not_or, and_assoc]

theorem activated_despawnObject (s : QuestPools) :
    (s.despawnObject pooled group poolId).activated = s.activated := by
  rw [despawnObject]
  induction group.guids generalizing s with
  | nil => rfl
  | cons quest quests ih =>
    rw [foldl_cons, ih, despawnRound]
    split <;> rfl

theorem mem_freshQuests {d : ActivePoolData} {quest : ℕ} (h : quest ∈ freshQuests group d) :
    quest ∈ group.guids := by
  have hloop : ∀ (os : List PoolObject) (newQuests : List ℕ),
      (∀ g ∈ newQuests, g ∈ group.guids) → (∀ o ∈ os, o.guid ∈ group.guids) →
      ∀ g ∈ os.foldl (fun newQuests o =>
        if d.isActiveObject .quest o.guid then newQuests else newQuests.insert o.guid) newQuests,
        g ∈ group.guids := by
    intro os
    induction os with
    | nil => exact fun _ h _ => h
    | cons o os ih =>
      intro newQuests h hos
      rw [foldl_cons]
      refine ih _ ?_ fun o' ho' => hos o' (mem_cons_of_mem _ ho')
      split
      · exact h
      · intro g hg
        rcases mem_insert_iff.1 hg with rfl | hg
        · exact hos o mem_cons_self
        · exact h g hg
  refine hloop group.equalChanced [] (by simp) (fun o ho => ?_) quest h
  exact PoolGroup.mem_guids.2 (.inl ⟨o, ho, rfl⟩)

/-- The quests that are recycled are current ones. -/
theorem mem_recycleQuests {limit n : ℕ} {currentQuests : List ℕ} {s : PoolMgr} {g : ℕ}
    (hcurrent : currentQuests ≠ [])
    (h : g ∈ (PoolConfig.recycleQuests limit n currentQuests newQuests s).1) :
    g ∈ newQuests ∨ g ∈ currentQuests := by
  induction n generalizing currentQuests newQuests s with
  | zero => exact .inl h
  | succ n ih =>
    have hmem := PoolConfig.selectRandom_mem hcurrent s
    have hinsert : ∀ x ∈ newQuests.insert (PoolConfig.selectRandom currentQuests s).1,
        x ∈ newQuests ∨ x ∈ currentQuests := by
      intro x hx
      rcases mem_insert_iff.1 hx with rfl | hx
      · exact .inr hmem
      · exact .inl hx
    rw [PoolConfig.recycleQuests] at h
    dsimp only at h
    split at h
    · next hgo =>
      rcases ih hgo.2 h with hg | hg
      · exact hinsert g hg
      · exact .inr (mem_of_mem_filter hg)
    · exact hinsert g h

theorem spawns_recycleQuests (limit n : ℕ) (currentQuests newQuests : List ℕ) (s : PoolMgr) :
    (PoolConfig.recycleQuests limit n currentQuests newQuests s).2.spawns = s.spawns := by
  induction n generalizing currentQuests newQuests s with
  | zero => rfl
  | succ n ih =>
    rw [PoolConfig.recycleQuests]
    dsimp only
    split
    · exact ih _ _ _
    · rfl

/-! ## What is activated -/

/-- What a call of `SpawnObject` has activated is listed in the pool and was not active, and the
quests that the pool does not list are active as before. -/
structure Separate (group : PoolGroup) (before after : QuestPools) : Prop where
  listed : ∀ e ∈ after.activated, e.1 ∈ group.guids
  once : ∀ e ∈ after.activated, e.2 = false
  others : ∀ g ∉ group.guids, after.isActive g = before.isActive g

theorem Separate.activateQuest {before s : QuestPools} {quest : ℕ}
    (h : Separate group before s) (hlisted : quest ∈ group.guids)
    (hinactive : s.isActive quest = false) :
    Separate group before (s.activateQuest pooled poolId quest) := by
  refine ⟨fun e he => ?_, fun e he => ?_, fun g hg => ?_⟩
  · rcases mem_append.1 he with he | he
    · exact h.listed e he
    · rw [mem_singleton.1 he]
      exact hlisted
  · rcases mem_append.1 he with he | he
    · exact h.once e he
    · rw [mem_singleton.1 he]
      exact hinactive
  · rw [← h.others g hg, Bool.eq_iff_iff, isActive_activateQuest]
    exact or_iff_left fun heq => hg (heq ▸ hlisted)

theorem isActive_withMgr {s : QuestPools} (hspawns : mgr.spawns = s.mgr.spawns) (g : ℕ) :
    { s with mgr := mgr }.isActive g = s.isActive g := by
  rw [isActive, hspawns, isActive]

/-- Random numbers and the log do not matter. -/
theorem Separate.withMgr {before s : QuestPools} (h : Separate group before s)
    (hspawns : mgr.spawns = s.mgr.spawns) : Separate group before { s with mgr := mgr } :=
  ⟨h.listed, h.once, fun g hg => (isActive_withMgr hspawns g).trans (h.others g hg)⟩

/-- Listed quests that are not active are activated once each. -/
theorem Separate.activateQuests {before s : QuestPools} {n limit : ℕ} (h : Separate group before s)
    (hn : 0 < n → newQuests ≠ []) (hlisted : ∀ quest ∈ newQuests, quest ∈ group.guids)
    (hinactive : ∀ quest ∈ newQuests, s.isActive quest = false) :
    Separate group before (s.activateQuests pooled poolId n limit newQuests) := by
  induction n generalizing limit newQuests s with
  | zero => exact h
  | succ n ih =>
    obtain ⟨quest, mgr, hselect⟩ : ∃ quest mgr,
        PoolConfig.selectRandom newQuests s.mgr = (quest, mgr) := ⟨_, _, rfl⟩
    have hmem : quest ∈ newQuests := by
      have hsel := PoolConfig.selectRandom_mem (hn (Nat.succ_pos n)) s.mgr
      rwa [hselect] at hsel
    have hspawns : mgr.spawns = s.mgr.spawns := by
      have hsnd := (PoolConfig.selectRandom_snd newQuests s.mgr).1
      rwa [hselect] at hsnd
    have hstep : Separate group before ({ s with mgr := mgr }.activateQuest pooled poolId quest) :=
      (h.withMgr hspawns).activateQuest (hlisted quest hmem)
        ((isActive_withMgr hspawns quest).trans (hinactive quest hmem))
    rw [QuestPools.activateQuests, hselect]
    dsimp only
    split
    · next hgo =>
      refine ih hstep (fun _ => hgo.2) (fun g hg => hlisted g (mem_of_mem_filter hg)) ?_
      intro g hg
      obtain ⟨hg, hne⟩ := mem_filter.1 hg
      rw [Bool.eq_false_iff, Ne, isActive_activateQuest, isActive_withMgr hspawns,
        hinactive g hg]
      simpa using hne
    · exact hstep

theorem separate_clear {s : QuestPools} (hs : s.activated = []) :
    Separate group s (s.despawnObject pooled group poolId) := by
  refine ⟨?_, ?_, fun g hg => ?_⟩
  · rw [activated_despawnObject, hs]
    exact fun e he => absurd he not_mem_nil
  · rw [activated_despawnObject, hs]
    exact fun e he => absurd he not_mem_nil
  · rw [Bool.eq_iff_iff, isActive_despawnObject]
    exact and_iff_left hg

/-- The selection clears the pool and draws random numbers. -/
theorem selectQuests_snd (limit : ℕ) (s : QuestPools) :
    ∃ mgr, mgr.spawns = (s.despawnObject pooled group poolId).mgr.spawns ∧
      (s.selectQuests pooled group poolId limit).2 =
        { s.despawnObject pooled group poolId with mgr := mgr } := by
  rw [selectQuests]
  split
  · exact ⟨_, spawns_recycleQuests _ _ _ _ _, rfl⟩
  · exact ⟨_, rfl, rfl⟩

/-- The selection takes listed quests, unless quests are recycled and one of them is not listed. -/
theorem mem_selectQuests {limit : ℕ} {s : QuestPools}
    (h : limit ≤ (freshQuests group s.mgr.spawns).length ∨
      ∀ quest ∈ s.mgr.spawns.activeQuests, quest ∈ group.guids) :
    ∀ quest ∈ (s.selectQuests pooled group poolId limit).1, quest ∈ group.guids := by
  rw [selectQuests]
  split
  · next hgo =>
    intro quest hquest
    rcases mem_recycleQuests hgo.2 hquest with hquest | hquest
    · exact mem_freshQuests hquest
    · exact h.resolve_left (Nat.not_le.2 hgo.1) quest hquest
  · exact fun quest hquest => mem_freshQuests hquest

/-- If the selection takes listed quests only, the pool stays separate. -/
theorem separate_chooseQuests {limit triggerFrom : ℕ} {s : QuestPools} (hs : s.activated = [])
    (hlisted : ∀ quest ∈ (s.selectQuests pooled group poolId limit).1, quest ∈ group.guids) :
    Separate group s (s.chooseQuests pooled group poolId limit triggerFrom) := by
  obtain ⟨mgr, hspawns, hsnd⟩ := @selectQuests_snd pooled group poolId limit s
  have hclear := (@separate_clear pooled group poolId s hs).withMgr hspawns
  rw [chooseQuests]
  dsimp only
  rw [hsnd]
  refine Separate.activateQuests (hclear.withMgr rfl) ne_nil_of_length_pos hlisted
    fun quest hquest => ?_
  have hgone : (s.despawnObject pooled group poolId).isActive quest = false := by
    rw [Bool.eq_false_iff, Ne, isActive_despawnObject]
    exact fun hactive => hactive.2 (hlisted quest hquest)
  exact (isActive_withMgr hspawns quest).trans hgone

end Active

/-! ## Random choices -/

section Choices

variable {pooled group poolId}

theorem picks_despawnObject (s : QuestPools) :
    (s.despawnObject pooled group poolId).mgr.picks = s.mgr.picks := by
  rw [despawnObject]
  induction group.guids generalizing s with
  | nil => rfl
  | cons quest quests ih =>
    rw [foldl_cons, ih, despawnRound]
    split <;> rfl

theorem selectRandom_of_picks (l : List ℕ) {index : ℕ} {rest : List ℕ}
    (hpicks : mgr.picks = index :: rest) :
    PoolConfig.selectRandom l mgr = (l.getD (index % l.length) 0, { mgr with picks := rest }) := by
  rw [PoolConfig.selectRandom, PoolMgr.irand, hpicks, headD_cons, tail_cons]

/-- Each element of a list may be chosen. -/
theorem selectRandom_idxOf {l : List ℕ} {quest : ℕ} (h : quest ∈ l) {rest : List ℕ}
    (hpicks : mgr.picks = l.idxOf quest :: rest) :
    PoolConfig.selectRandom l mgr = (quest, { mgr with picks := rest }) := by
  have hlt := idxOf_lt_length_iff.2 h
  rw [selectRandom_of_picks l hpicks, Nat.mod_eq_of_lt hlt, getD_eq_getElem?_getD,
    List.getElem?_eq_getElem hlt, Option.getD_some, getElem_idxOf]

/-- A quest that is selected stays so while others are recycled. -/
theorem exists_picks_kept {quest : ℕ} (limit n : ℕ) (currentQuests : List ℕ) (h : quest ∈ newQuests) :
    ∃ picks selected, quest ∈ selected ∧ ∀ (rest : List ℕ) (mgr : PoolMgr),
      mgr.picks = picks ++ rest →
      PoolConfig.recycleQuests limit n currentQuests newQuests mgr =
        (selected, { mgr with picks := rest }) := by
  induction n generalizing currentQuests newQuests with
  | zero =>
    refine ⟨[], newQuests, h, fun rest mgr hpicks => ?_⟩
    rw [nil_append] at hpicks
    rw [PoolConfig.recycleQuests, ← hpicks]
  | succ n ih =>
    obtain ⟨first, hfirst⟩ : ∃ first, currentQuests.getD (0 % currentQuests.length) 0 = first :=
      ⟨_, rfl⟩
    by_cases hgo : (newQuests.insert first).length < limit ∧
        currentQuests.filter (· ≠ first) ≠ []
    · obtain ⟨picks, selected, hmem, hrun⟩ := ih (currentQuests.filter (· ≠ first))
        (mem_insert_of_mem h : quest ∈ newQuests.insert first)
      refine ⟨0 :: picks, selected, hmem, fun rest mgr hpicks => ?_⟩
      rw [PoolConfig.recycleQuests, selectRandom_of_picks currentQuests hpicks, hfirst]
      dsimp only
      rw [if_pos hgo, hrun rest _ rfl]
    · refine ⟨[0], newQuests.insert first, mem_insert_of_mem h, fun rest mgr hpicks => ?_⟩
      rw [PoolConfig.recycleQuests, selectRandom_of_picks currentQuests hpicks, hfirst]
      dsimp only
      rw [if_neg hgo]
      rfl

/-- Each current quest may be recycled. -/
theorem exists_picks_recycled {quest : ℕ} (limit : ℕ) {currentQuests : List ℕ}
    (newQuests : List ℕ) (h : quest ∈ currentQuests) :
    ∃ picks selected, quest ∈ selected ∧ ∀ (rest : List ℕ) (mgr : PoolMgr),
      mgr.picks = picks ++ rest →
      PoolConfig.recycleQuests limit currentQuests.length currentQuests newQuests mgr =
        (selected, { mgr with picks := rest }) := by
  obtain ⟨n, hn⟩ := Nat.exists_eq_succ_of_ne_zero (length_pos_of_mem h).ne'
  rw [hn]
  by_cases hgo : (newQuests.insert quest).length < limit ∧ currentQuests.filter (· ≠ quest) ≠ []
  · obtain ⟨picks, selected, hmem, hrun⟩ := exists_picks_kept limit n
      (currentQuests.filter (· ≠ quest)) (mem_insert_self : quest ∈ newQuests.insert quest)
    refine ⟨currentQuests.idxOf quest :: picks, selected, hmem, fun rest mgr hpicks => ?_⟩
    rw [PoolConfig.recycleQuests, selectRandom_idxOf h hpicks]
    dsimp only
    rw [if_pos hgo, hrun rest _ rfl]
  · refine ⟨[currentQuests.idxOf quest], newQuests.insert quest, mem_insert_self,
      fun rest mgr hpicks => ?_⟩
    rw [PoolConfig.recycleQuests, selectRandom_idxOf h hpicks]
    dsimp only
    rw [if_neg hgo]
    rfl

theorem prefix_activated (n limit : ℕ) (newQuests : List ℕ) (s : QuestPools) :
    s.activated <+: (s.activateQuests pooled poolId n limit newQuests).activated := by
  induction n generalizing limit newQuests s with
  | zero => exact prefix_rfl
  | succ n ih =>
    rw [activateQuests]
    dsimp only
    split
    · refine List.IsPrefix.trans ?_ (ih _ _ _)
      exact prefix_append _ _
    · exact prefix_append _ _

/-- Each selected quest may be activated. -/
theorem exists_activated {quest : ℕ} (h : quest ∈ newQuests) (limit : ℕ) {s : QuestPools}
    (hpicks : s.mgr.picks = [newQuests.idxOf quest]) :
    ∃ e ∈ (s.activateQuests pooled poolId newQuests.length limit newQuests).activated,
      e.1 = quest := by
  obtain ⟨n, hn⟩ := Nat.exists_eq_succ_of_ne_zero (length_pos_of_mem h).ne'
  rw [hn, activateQuests, selectRandom_idxOf h hpicks]
  dsimp only
  split
  · exact ⟨_, (prefix_activated _ _ _ _).subset (mem_append_right _ mem_cons_self), rfl⟩
  · exact ⟨_, mem_append_right _ mem_cons_self, rfl⟩

/-- The state with other random numbers to come. -/
def withPicks (s : QuestPools) (picks : List ℕ) : QuestPools :=
  { s with mgr := { s.mgr with picks := picks } }

/-- A quest of another pool that is active may be activated again. -/
theorem exists_picks_chosen {limit : ℕ} (triggerFrom : ℕ) {s : QuestPools} {quest : ℕ}
    (hlimit : (freshQuests group s.mgr.spawns).length < limit)
    (h : quest ∈ s.mgr.spawns.activeQuests) :
    ∃ picks, ∃ e ∈ ((s.withPicks picks).chooseQuests pooled group poolId limit
      triggerFrom).activated, e.1 = quest := by
  obtain ⟨picks, selected, hmem, hrun⟩ := exists_picks_recycled limit
    (freshQuests group s.mgr.spawns) h
  refine ⟨picks ++ [selected.idxOf quest], ?_⟩
  obtain ⟨t, ht⟩ : ∃ t, s.withPicks (picks ++ [selected.idxOf quest]) = t := ⟨_, rfl⟩
  have hspawns : t.mgr.spawns = s.mgr.spawns := ht ▸ rfl
  have hpicks : (t.despawnObject pooled group poolId).mgr.picks =
      picks ++ [selected.idxOf quest] := by
    rw [picks_despawnObject, ← ht]
    rfl
  have hgo : limit > (freshQuests group s.mgr.spawns).length ∧ s.mgr.spawns.activeQuests ≠ [] :=
    ⟨hlimit, ne_nil_of_mem h⟩
  have hselect : t.selectQuests pooled group poolId limit =
      (selected, { t.despawnObject pooled group poolId with
        mgr := { (t.despawnObject pooled group poolId).mgr with
          picks := [selected.idxOf quest] } }) := by
    rw [selectQuests]
    rw [hspawns, if_pos hgo, hrun _ _ hpicks]
  rw [ht, chooseQuests, hselect]
  exact exists_activated hmem limit rfl

end Choices

/-! ## When the pools stay separate -/

section Separation

variable {pooled group poolId}

/-- Without saved rows the quests are chosen. -/
theorem spawnObject_eq {limit triggerFrom : ℕ} {s : QuestPools}
    (hrows : triggerFrom ≠ 0 ∨ s.mgr.query.1 = []) :
    ∃ saved, ∀ picks, (s.withPicks picks).spawnObject pooled group poolId limit triggerFrom =
      ({ s with mgr := { s.mgr with saved := saved } }.withPicks picks).chooseQuests pooled group
        poolId limit triggerFrom := by
  by_cases htrigger : triggerFrom = 0
  · refine ⟨s.mgr.saved.tail, fun picks => ?_⟩
    rw [spawnObject, if_pos htrigger]
    dsimp only
    have hnone : (s.withPicks picks).mgr.query.1 = [] := hrows.resolve_left (not_not.2 htrigger)
    rw [if_pos hnone]
    rfl
  · refine ⟨s.mgr.saved, fun picks => ?_⟩
    rw [spawnObject, if_neg htrigger]

/-- When there are no saved rows, a pool stays separate whatever the random numbers are, if and only
if it has enough quests that are not active, or lists every active quest. -/
theorem separate_iff (pooled : PooledQuestRelations) (group : PoolGroup)
    (poolId limit triggerFrom : ℕ) (s : QuestPools) (hs : s.activated = [])
    (hrows : triggerFrom ≠ 0 ∨ s.mgr.query.1 = []) :
    (∀ picks, Separate group (s.withPicks picks)
      ((s.withPicks picks).spawnObject pooled group poolId limit triggerFrom)) ↔
    limit ≤ (freshQuests group s.mgr.spawns).length ∨
      ∀ quest ∈ s.mgr.spawns.activeQuests, quest ∈ group.guids := by
  obtain ⟨saved, hsaved⟩ := @spawnObject_eq pooled group poolId limit triggerFrom s hrows
  simp only [hsaved]
  constructor
  · intro hseparate
    refine or_iff_not_imp_left.2 fun hlimit quest hquest => ?_
    -- the quest may be recycled first, and activated first
    obtain ⟨picks, e, he, hquest⟩ := @exists_picks_chosen pooled group poolId limit triggerFrom
      { s with mgr := { s.mgr with saved := saved } } quest (Nat.lt_of_not_le hlimit) hquest
    exact hquest ▸ (hseparate picks).listed e he
  · intro h picks
    have hchosen := @separate_chooseQuests pooled group poolId limit triggerFrom
      ({ s with mgr := { s.mgr with saved := saved } }.withPicks picks) hs (mem_selectQuests h)
    exact ⟨hchosen.listed, hchosen.once, hchosen.others⟩

/-- Two quests, started by two creatures. -/
def twoRelations : PooledQuestRelations where
  creature := [(7, 70), (8, 80)]

/-- A pool with the second of them. -/
def smallPool : PoolGroup where
  equalChanced := [⟨8, 0⟩]

/-- The first quest is active, and the pool has another one to activate. -/
def firstActive : QuestPools where
  mgr := { spawns := { activeQuests := [7] } }
  creatureQuestRelations := [(70, 7)]
  goQuestRelations := []

/-- With a limit of one the pool activates its own quest. -/
theorem separate_iff_smallPool :
    Separate smallPool (firstActive.withPicks [0])
      ((firstActive.withPicks [0]).spawnObject twoRelations smallPool 2 1 0) :=
  (separate_iff twoRelations smallPool 2 1 0 firstActive rfl (by decide)).2 (by decide) [0]

/-- With a limit of two it activates the first quest once more, which is a quest of another pool,
and then relates its creature to it twice. -/
theorem not_separate_smallPool :
    let after := (firstActive.withPicks [0, 0]).spawnObject twoRelations smallPool 2 2 0
    ¬Separate smallPool (firstActive.withPicks [0, 0]) after ∧
      after.activated = [(7, true), (8, false)] ∧
      after.creatureQuestRelations = [(70, 7), (70, 7), (80, 8)] := by
  refine ⟨fun h => ?_, by decide, by decide⟩
  exact absurd (h.once (7, true) (by decide)) (by decide)

end Separation

end QuestPools

end MistyWorld
