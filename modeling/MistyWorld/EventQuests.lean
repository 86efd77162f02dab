import MistyWorld.GameEvent

/-!
# What events add and take back

The quest givers should have their permanent quests and those of the active events, each once,
and an event's spawn should be in the grid while one of its events is active. For the spawns
this holds in every run (`spawned_run`). For the quests it does not : a started event puts
its pairs in the multimap whatever is there, and a stopped one leaves a pair as long as another
active event lists the quest, be it for another quest giver (`stopEvent_leaves_quest`). It does
in the runs whose events do not meet in these ways (`eventRun_restores`).
-/

open List Machine

namespace MistyWorld

namespace GameEventMgr

variable {F : Type*} {t : GameEventTables F} {m : GameEventMgr F} {e : ℕ}
  {quests : ℕ → List (ℕ × ℕ)} {active : Finset ℕ}

/-! ## Quests and spawns of the active events -/

/-- The multimap holds the permanent pairs and those of the active events, without repetition. -/
structure HasQuests (permanent : List (ℕ × ℕ)) (quests : ℕ → List (ℕ × ℕ)) (active : Finset ℕ)
    (map : List (ℕ × ℕ)) : Prop where
  nodup : map.Nodup
  mem_iff : ∀ rel, rel ∈ map ↔ rel ∈ permanent ∨ ∃ e ∈ active, rel ∈ quests e

/-- The guids of events are in the grid when one of their events is active. -/
def HasSpawns (guids : ℕ → List ℕ) (active grid : Finset ℕ) : Prop :=
  ∀ guid, (∃ e, guid ∈ guids e) → (guid ∈ grid ↔ ∃ e ∈ active, guid ∈ guids e)

/-! ## The loops -/

theorem updateRelations_start (used : ℕ → Bool) : ∀ (rels map : List (ℕ × ℕ)),
    updateRelations true used map rels = map ++ rels
  | [], map => (append_nil map).symm
  | rel :: rels, map => by
    have ih := updateRelations_start used rels (map ++ [rel])
    rw [updateRelations] at ih ⊢
    rw [foldl_cons, if_pos rfl, ih, append_assoc]
    rfl

/-- Where no quest is used elsewhere, the pairs are taken out. -/
theorem updateRelations_stop {used : ℕ → Bool} : ∀ {rels : List (ℕ × ℕ)} (map : List (ℕ × ℕ)),
    (∀ rel ∈ rels, used rel.2 = false) → updateRelations false used map rels = map.diff rels
  | [], _, _ => rfl
  | rel :: rels, map, h => by
    have ih := updateRelations_stop (map.erase rel)
      fun r hr => h r (mem_cons_of_mem rel hr)
    rw [updateRelations] at ih ⊢
    rw [foldl_cons, if_neg Bool.false_ne_true, h rel mem_cons_self,
      if_neg Bool.false_ne_true, ih, diff_cons]

theorem mem_addGuids : ∀ (guids : List ℕ) {grid : Finset ℕ} {guid : ℕ},
    guid ∈ addGuids grid guids ↔ guid ∈ grid ∨ guid ∈ guids
  | [], grid, guid => by simp [addGuids]
  | g :: guids, grid, guid => by
    have ih : guid ∈ addGuids (insert g grid) guids ↔ guid ∈ insert g grid ∨ guid ∈ guids :=
      mem_addGuids guids
    rw [addGuids] at ih ⊢
    rw [foldl_cons, ih, Finset.mem_insert, mem_cons]
    tauto

theorem mem_removeGuids {needed : ℕ → Bool} : ∀ (guids : List ℕ) {grid : Finset ℕ} {guid : ℕ},
    guid ∈ removeGuids needed grid guids ↔
      guid ∈ grid ∧ (guid ∈ guids → needed guid = true)
  | [], grid, guid => by simp [removeGuids]
  | g :: guids, grid, guid => by
    have ih := @mem_removeGuids needed guids grid guid
    have ih' := @mem_removeGuids needed guids (grid.erase g) guid
    rw [removeGuids] at ih ih' ⊢
    rw [foldl_cons]
    split_ifs with hg
    · rw [ih, mem_cons]
      constructor
      · rintro ⟨hgrid, hneeded⟩
        exact ⟨hgrid, fun h => h.elim (fun h => h ▸ hg) hneeded⟩
      · rintro ⟨hgrid, hneeded⟩
        exact ⟨hgrid, fun h => hneeded (.inr h)⟩
    · rw [ih', Finset.mem_erase, mem_cons]
      constructor
      · rintro ⟨⟨hne, hgrid⟩, hneeded⟩
        exact ⟨hgrid, fun h => h.elim (fun h => absurd h hne) hneeded⟩
      · rintro ⟨hgrid, hneeded⟩
        refine ⟨⟨fun h => hg (h ▸ hneeded (.inl h)), hgrid⟩, fun h => hneeded (.inr h)⟩

/-! ## What starting and stopping do -/

/-- The two agree in all but the data of the events. -/
structure SameWorld (m m' : GameEventMgr F) : Prop where
  activeEvents : m'.activeEvents = m.activeEvents
  creatureQuestMap : m'.creatureQuestMap = m.creatureQuestMap
  goQuestMap : m'.goQuestMap = m.goQuestMap
  creaturesInGrid : m'.creaturesInGrid = m.creaturesInGrid
  gameobjectsInGrid : m'.gameobjectsInGrid = m.gameobjectsInGrid

theorem SameWorld.refl (m : GameEventMgr F) : SameWorld m m :=
  ⟨rfl, rfl, rfl, rfl, rfl⟩

theorem sameWorld_setEvent (m : GameEventMgr F) (e : ℕ) (data : GameEventData F) :
    SameWorld m (m.setEvent e data) :=
  ⟨rfl, rfl, rfl, rfl, rfl⟩

/-- The spawns are listed under positive event ids only. -/
structure PositiveSpawns (t : GameEventTables F) : Prop where
  creature : ∀ e : ℤ, e < 0 → t.creatureGuids (internalEventId t e) = []
  gameobject : ∀ e : ℤ, e < 0 → t.gameobjectGuids (internalEventId t e) = []

/-- The id of an event. -/
def EventId (t : GameEventTables F) (e : ℕ) : Prop :=
  0 < e ∧ e < t.size

theorem EventId.inGuidRange (h : EventId t e) : inGuidRange t e = true := by
  obtain ⟨hpos, hlt⟩ := h
  have hlow : 0 ≤ internalEventId t e := by
    unfold internalEventId
    omega
  have hhigh : internalEventId t e < 2 * t.size - 1 := by
    unfold internalEventId
    omega
  rw [GameEventMgr.inGuidRange, decide_eq_true hlow, decide_eq_true hhigh]
  rfl

section

variable (ht : PositiveSpawns t)
include ht

theorem gameEventSpawn_neg (he : EventId t e) (m : GameEventMgr F) :
    m.gameEventSpawn t (-e) = m := by
  have hneg : (-(e : ℤ)) < 0 := by
    have := he.1
    omega
  unfold gameEventSpawn
  split_ifs
  · rw [ht.creature _ hneg, ht.gameobject _ hneg]
    rfl
  · rfl

theorem gameEventUnspawn_neg (he : EventId t e) (m : GameEventMgr F) :
    m.gameEventUnspawn t (-e) = m := by
  have hneg : (-(e : ℤ)) < 0 := by
    have := he.1
    omega
  unfold gameEventUnspawn
  split_ifs
  · rw [ht.creature _ hneg, ht.gameobject _ hneg]
    rfl
  · rfl

/-- What applying an event changes. -/
theorem applyNewEvent_eq (he : EventId t e) (m : GameEventMgr F) :
    m.applyNewEvent t e =
      { m with
        creatureQuestMap := m.creatureQuestMap ++ t.creatureQuests e
        goQuestMap := m.goQuestMap ++ t.gameObjectQuests e
        creaturesInGrid := addGuids m.creaturesInGrid (t.creatureGuids (internalEventId t e))
        gameobjectsInGrid :=
          addGuids m.gameobjectsInGrid (t.gameobjectGuids (internalEventId t e)) } := by
  rw [applyNewEvent, gameEventUnspawn_neg ht he, gameEventSpawn, if_pos he.inGuidRange,
    updateEventQuests, updateRelations_start, updateRelations_start]

/-- What taking an event back changes. -/
theorem unApplyEvent_eq (he : EventId t e) (m : GameEventMgr F) :
    m.unApplyEvent t e =
      { m with
        creatureQuestMap := updateRelations false
          (m.hasQuestActiveEventExcept t.creatureQuests · e) m.creatureQuestMap
          (t.creatureQuests e)
        goQuestMap := updateRelations false
          (m.hasQuestActiveEventExcept t.gameObjectQuests · e) m.goQuestMap
          (t.gameObjectQuests e)
        creaturesInGrid := removeGuids
          (fun guid => m.hasGuidActiveEventExcept t t.creatureGuids guid e)
          m.creaturesInGrid (t.creatureGuids (internalEventId t e))
        gameobjectsInGrid := removeGuids
          (fun guid => m.hasGuidActiveEventExcept t t.gameobjectGuids guid e)
          m.gameobjectsInGrid (t.gameobjectGuids (internalEventId t e)) } := by
  have hpos : (0 : ℤ) < e := by
    have := he.1
    omega
  rw [unApplyEvent, gameEventSpawn_neg ht he, gameEventUnspawn, if_pos he.inGuidRange]
  simp only [decide_eq_true hpos, Bool.true_and]
  rfl

end

section Requests

variable [LT F] [DecidableLT F]

theorem sameWorld_checkConditions (m : GameEventMgr F) (now e : ℕ) :
    SameWorld m (m.checkOneGameEventConditions now e).1 := by
  unfold checkOneGameEventConditions
  dsimp only
  split
  · exact .refl m
  · exact sameWorld_setEvent m e _

/-- Starting an event is applying it, as far as quests and spawns go. -/
theorem sameWorld_startEvent (m : GameEventMgr F) (now e : ℕ) (overwrite : Bool) :
    ∃ m1, SameWorld m m1 ∧
      SameWorld ({ m1 with activeEvents := insert e m1.activeEvents }.applyNewEvent t e)
        (m.startEvent t now e overwrite).1 := by
  unfold startEvent
  dsimp only
  split
  · refine ⟨m, .refl m, ?_⟩
    split
    · exact sameWorld_setEvent _ e _
    · exact .refl _
  · refine ⟨_, ?_, sameWorld_checkConditions _ now e⟩
    split
    · exact sameWorld_setEvent m e _
    · exact .refl m

omit [LT F] [DecidableLT F] in
/-- Stopping an event is taking it back, as far as quests and spawns go. -/
theorem sameWorld_stopEvent [Zero F] (m : GameEventMgr F) (now e : ℕ) (overwrite : Bool) :
    SameWorld ({ m with activeEvents := m.activeEvents.erase e }.unApplyEvent t e)
      (m.stopEvent t now e overwrite) := by
  unfold stopEvent
  dsimp only
  split
  · exact sameWorld_setEvent _ e _
  · split
    · exact sameWorld_setEvent _ e _
    · exact .refl _

end Requests

/-! ## The two laws -/

theorem HasSpawns.start {guids : ℕ → List ℕ} {grid : Finset ℕ} (h : HasSpawns guids active grid)
    (e : ℕ) : HasSpawns guids (insert e active) (addGuids grid (guids e)) := by
  intro guid hguid
  rw [mem_addGuids, h guid hguid]
  simp only [Finset.mem_insert, exists_eq_or_imp]
  exact or_comm

theorem HasSpawns.stop {guids : ℕ → List ℕ} {grid : Finset ℕ} {needed : ℕ → Bool}
    (h : HasSpawns guids active grid)
    (hneeded : ∀ guid, needed guid = true ↔ ∃ a ∈ active.erase e, guid ∈ guids a) :
    HasSpawns guids (active.erase e) (removeGuids needed grid (guids e)) := by
  intro guid hguid
  rw [mem_removeGuids, h guid hguid, hneeded]
  constructor
  · rintro ⟨⟨a, ha, hmem⟩, helse⟩
    by_cases hae : a = e
    · exact helse (hae ▸ hmem)
    · exact ⟨a, Finset.mem_erase.2 ⟨hae, ha⟩, hmem⟩
  · rintro ⟨a, ha, hmem⟩
    exact ⟨⟨a, Finset.mem_of_mem_erase ha, hmem⟩, fun _ => ⟨a, ha, hmem⟩⟩

theorem HasQuests.start {permanent map : List (ℕ × ℕ)} (h : HasQuests permanent quests active map)
    (hpermanent : ∀ rel ∈ quests e, rel ∉ permanent) (hnodup : (quests e).Nodup)
    (hapart : ∀ rel ∈ quests e, ∀ a ∈ active, rel ∉ quests a) :
    HasQuests permanent quests (insert e active) (map ++ quests e) where
  nodup := by
    refine nodup_append'.2 ⟨h.nodup, hnodup, fun rel hmap hrel => ?_⟩
    rcases (h.mem_iff rel).1 hmap with hperm | ⟨a, ha, hmem⟩
    · exact hpermanent rel hrel hperm
    · exact hapart rel hrel a ha hmem
  mem_iff := fun rel => by
    rw [mem_append, h.mem_iff rel]
    simp only [Finset.mem_insert, exists_eq_or_imp]
    rw [or_assoc]
    exact or_congr_right or_comm

theorem HasQuests.stop {permanent map : List (ℕ × ℕ)} (used : ℕ → Bool)
    (h : HasQuests permanent quests active map) (hpermanent : ∀ rel ∈ quests e, rel ∉ permanent)
    (hapart : ∀ rel ∈ quests e, ∀ a ∈ active.erase e, ∀ rel' ∈ quests a, rel'.2 ≠ rel.2)
    (hused : ∀ rel ∈ quests e, used rel.2 = false) :
    HasQuests permanent quests (active.erase e) (updateRelations false used map (quests e)) := by
  rw [updateRelations_stop map hused]
  refine ⟨h.nodup.sublist (diff_sublist map (quests e)), fun rel => ?_⟩
  rw [h.nodup.mem_sdiff_iff, h.mem_iff rel]
  constructor
  · rintro ⟨hperm | ⟨a, ha, hmem⟩, hnot⟩
    · exact .inl hperm
    · have hae : a ≠ e := fun hae => hnot (hae ▸ hmem)
      exact .inr ⟨a, Finset.mem_erase.2 ⟨hae, ha⟩, hmem⟩
  · rintro (hperm | ⟨a, ha, hmem⟩)
    · exact ⟨.inl hperm, fun hrel => hpermanent rel hrel hperm⟩
    · exact ⟨.inr ⟨a, Finset.mem_of_mem_erase ha, hmem⟩,
        fun hrel => hapart rel hrel a ha rel hmem rfl⟩

/-! ## Runs -/

/-- An event is started or stopped at a time. -/
inductive EventRequest
  | start (now eventId : ℕ) (overwrite : Bool)
  | stop (now eventId : ℕ) (overwrite : Bool)

variable [LT F] [DecidableLT F] [Zero F]

def eventStep (t : GameEventTables F) (m : GameEventMgr F) : EventRequest → GameEventMgr F
  | .start now eventId overwrite => (m.startEvent t now eventId overwrite).1
  | .stop now eventId overwrite => m.stopEvent t now eventId overwrite

/-- Inactive events are started, active ones stopped. -/
def Proper (t : GameEventTables F) (m : GameEventMgr F) : EventRequest → Prop
  | .start _ e _ => EventId t e ∧ e ∉ m.activeEvents
  | .stop _ e _ => e ∈ m.activeEvents

/-- A started event lists no pair twice and none that an active event lists; no active event lists
a quest of a stopped one. -/
def ApartIn (quests : ℕ → List (ℕ × ℕ)) (m : GameEventMgr F) : EventRequest → Prop
  | .start _ e _ => (quests e).Nodup ∧ ∀ rel ∈ quests e, ∀ a ∈ m.activeEvents, rel ∉ quests a
  | .stop _ e _ =>
    ∀ rel ∈ quests e, ∀ a ∈ m.activeEvents.erase e, ∀ rel' ∈ quests a, rel'.2 ≠ rel.2

instance : DecidablePred (EventId t) := fun e =>
  inferInstanceAs (Decidable (0 < e ∧ e < t.size))

instance (m : GameEventMgr F) : DecidablePred (Proper t m)
  | .start _ e _ => inferInstanceAs (Decidable (EventId t e ∧ e ∉ m.activeEvents))
  | .stop _ e _ => inferInstanceAs (Decidable (e ∈ m.activeEvents))

instance (quests : ℕ → List (ℕ × ℕ)) (m : GameEventMgr F) : DecidablePred (ApartIn quests m)
  | .start _ e _ => inferInstanceAs (Decidable
      ((quests e).Nodup ∧ ∀ rel ∈ quests e, ∀ a ∈ m.activeEvents, rel ∉ quests a))
  | .stop _ e _ => inferInstanceAs (Decidable
      (∀ rel ∈ quests e, ∀ a ∈ m.activeEvents.erase e, ∀ rel' ∈ quests a, rel'.2 ≠ rel.2))

/-- The guids of an event. -/
def guidsOf (t : GameEventTables F) (guids : ℤ → List ℕ) (e : ℕ) : List ℕ :=
  guids (internalEventId t e)

/-- The invariant of the spawns. -/
structure Spawned (t : GameEventTables F) (m : GameEventMgr F) : Prop where
  ids : ∀ e ∈ m.activeEvents, EventId t e
  creatures : HasSpawns (guidsOf t t.creatureGuids) m.activeEvents m.creaturesInGrid
  gameobjects : HasSpawns (guidsOf t t.gameobjectGuids) m.activeEvents m.gameobjectsInGrid

variable {t : GameEventTables F} {m : GameEventMgr F} {r : EventRequest}

/-- The step of a request keeps the invariant of the spawns. -/
theorem Spawned.step (ht : PositiveSpawns t) (h : Spawned t m) (hr : Proper t m r) :
    Spawned t (eventStep t m r) := by
  cases r with
  | start now e overwrite =>
    obtain ⟨m1, hm1, hm'⟩ := sameWorld_startEvent (t := t) m now e overwrite
    rw [applyNewEvent_eq ht hr.1] at hm'
    refine ⟨?_, ?_, ?_⟩
    · intro a ha
      rw [eventStep, hm'.activeEvents, Finset.mem_insert, hm1.activeEvents] at ha
      rcases ha with rfl | ha
      · exact hr.1
      · exact h.ids a ha
    · rw [eventStep, hm'.activeEvents, hm'.creaturesInGrid, hm1.activeEvents,
        hm1.creaturesInGrid]
      exact h.creatures.start e
    · rw [eventStep, hm'.activeEvents, hm'.gameobjectsInGrid, hm1.activeEvents,
        hm1.gameobjectsInGrid]
      exact h.gameobjects.start e
  | stop now e overwrite =>
    have hm' := sameWorld_stopEvent (t := t) m now e overwrite
    rw [unApplyEvent_eq ht (h.ids e hr)] at hm'
    have hneeded : ∀ guids guid, hasGuidActiveEventExcept t
        { m with activeEvents := m.activeEvents.erase e } guids guid e = true ↔
          ∃ a ∈ m.activeEvents.erase e, guid ∈ guidsOf t guids a := by
      intro guids guid
      rw [hasGuidActiveEventExcept, decide_eq_true_eq]
      constructor
      · rintro ⟨a, ha, -, hmem⟩
        exact ⟨a, ha, hmem⟩
      · rintro ⟨a, ha, hmem⟩
        have hae := (Finset.mem_erase.1 ha).1
        exact ⟨a, ha, by omega, hmem⟩
    refine ⟨?_, ?_, ?_⟩
    · intro a ha
      rw [eventStep, hm'.activeEvents] at ha
      exact h.ids a (Finset.mem_of_mem_erase ha)
    · rw [eventStep, hm'.activeEvents, hm'.creaturesInGrid]
      exact h.creatures.stop (hneeded t.creatureGuids)
    · rw [eventStep, hm'.activeEvents, hm'.gameobjectsInGrid]
      exact h.gameobjects.stop (hneeded t.gameobjectGuids)

/-- The permanent pairs are none of an event. -/
def Permanent (permanent : List (ℕ × ℕ)) (quests : ℕ → List (ℕ × ℕ)) : Prop :=
  ∀ e, ∀ rel ∈ quests e, rel ∉ permanent

/-- The invariant of the quests of the creatures and of the game objects. -/
structure Related (t : GameEventTables F) (creature gameobject : List (ℕ × ℕ))
    (m : GameEventMgr F) : Prop where
  creatures : HasQuests creature t.creatureQuests m.activeEvents m.creatureQuestMap
  gameobjects : HasQuests gameobject t.gameObjectQuests m.activeEvents m.goQuestMap

omit [LT F] [DecidableLT F] [Zero F] in
/-- The quests of no other active event are used by those that are stopped. -/
theorem hasQuestActiveEventExcept_eq_false
    (h : ∀ rel ∈ quests e, ∀ a ∈ m.activeEvents.erase e, ∀ rel' ∈ quests a, rel'.2 ≠ rel.2) :
    ∀ rel ∈ quests e, hasQuestActiveEventExcept
      { m with activeEvents := m.activeEvents.erase e } quests rel.2 e = false := by
  intro rel hrel
  rw [hasQuestActiveEventExcept, decide_eq_false_iff_not]
  rintro ⟨a, ha, -, rel', hrel', hquest⟩
  exact h rel hrel a ha rel' hrel' hquest

/-- The step of a request whose events are apart keeps the invariant of the quests. -/
theorem Related.step {creature gameobject : List (ℕ × ℕ)} (ht : PositiveSpawns t)
    (hc : Permanent creature t.creatureQuests) (hg : Permanent gameobject t.gameObjectQuests)
    (hs : Spawned t m) (h : Related t creature gameobject m) (hr : Proper t m r)
    (hapartc : ApartIn t.creatureQuests m r) (hapartg : ApartIn t.gameObjectQuests m r) :
    Related t creature gameobject (eventStep t m r) := by
  cases r with
  | start now e overwrite =>
    obtain ⟨m1, hm1, hm'⟩ := sameWorld_startEvent (t := t) m now e overwrite
    rw [applyNewEvent_eq ht hr.1] at hm'
    refine ⟨?_, ?_⟩
    · rw [eventStep, hm'.activeEvents, hm'.creatureQuestMap, hm1.activeEvents,
        hm1.creatureQuestMap]
      exact h.creatures.start (hc e) hapartc.1 hapartc.2
    · rw [eventStep, hm'.activeEvents, hm'.goQuestMap, hm1.activeEvents, hm1.goQuestMap]
      exact h.gameobjects.start (hg e) hapartg.1 hapartg.2
  | stop now e overwrite =>
    have hm' := sameWorld_stopEvent (t := t) m now e overwrite
    rw [unApplyEvent_eq ht (hs.ids e hr)] at hm'
    refine ⟨?_, ?_⟩
    · have := h.creatures.stop
        (hasQuestActiveEventExcept { m with activeEvents := m.activeEvents.erase e }
          t.creatureQuests · e)
        (hc e) hapartc (hasQuestActiveEventExcept_eq_false hapartc)
      rw [eventStep, hm'.activeEvents, hm'.creatureQuestMap]
      exact this
    · have := h.gameobjects.stop
        (hasQuestActiveEventExcept { m with activeEvents := m.activeEvents.erase e }
          t.gameObjectQuests · e)
        (hg e) hapartg (hasQuestActiveEventExcept_eq_false hapartg)
      rw [eventStep, hm'.activeEvents, hm'.goQuestMap]
      exact this

/-- No event is active : the multimaps hold the permanent pairs and no event's spawn is in the
grid. -/
structure AtRest (t : GameEventTables F) (creature gameobject : List (ℕ × ℕ))
    (m : GameEventMgr F) : Prop where
  active : m.activeEvents = ∅
  creatures : m.creatureQuestMap.Nodup ∧ ∀ rel, rel ∈ m.creatureQuestMap ↔ rel ∈ creature
  gameobjects : m.goQuestMap.Nodup ∧ ∀ rel, rel ∈ m.goQuestMap ↔ rel ∈ gameobject
  creaturesInGrid : ∀ e, ∀ guid ∈ guidsOf t t.creatureGuids e, guid ∉ m.creaturesInGrid
  gameobjectsInGrid : ∀ e, ∀ guid ∈ guidsOf t t.gameobjectGuids e, guid ∉ m.gameobjectsInGrid

omit [LT F] [DecidableLT F] [Zero F] in
theorem AtRest.spawned {creature gameobject : List (ℕ × ℕ)}
    (h : AtRest t creature gameobject m) : Spawned t m where
  ids := fun e he => by
    rw [h.active] at he
    cases he
  creatures := fun guid ⟨e, he⟩ => by
    simp [h.active, h.creaturesInGrid e guid he]
  gameobjects := fun guid ⟨e, he⟩ => by
    simp [h.active, h.gameobjectsInGrid e guid he]

omit [LT F] [DecidableLT F] [Zero F] in
theorem AtRest.related {creature gameobject : List (ℕ × ℕ)}
    (h : AtRest t creature gameobject m) : Related t creature gameobject m where
  creatures := ⟨h.creatures.1, fun rel => by simp [h.active, h.creatures.2 rel]⟩
  gameobjects := ⟨h.gameobjects.1, fun rel => by simp [h.active, h.gameobjects.2 rel]⟩

/-- In every run the spawns of the active events, and no others, are in the grid. -/
theorem spawned_run {creature gameobject : List (ℕ × ℕ)} (ht : PositiveSpawns t)
    (h0 : AtRest t creature gameobject m) {rs : List EventRequest}
    (hproper : Along (eventStep t) (Proper t) m rs) : Spawned t (run (eventStep t) m rs) :=
  invariant_run (fun _ _ hs hr => hs.step ht hr) h0.spawned hproper

end GameEventMgr

open GameEventMgr in
/-- In every run from rest the spawns of the active events, and no others, are in the grid; and
where the events that are started and stopped are apart from the active ones, the quest givers
have their permanent quests and those of the active events. -/
theorem eventRun_restores {F : Type*} [LT F] [DecidableLT F] [Zero F] (t : GameEventTables F)
    (ht : PositiveSpawns t) {creature gameobject : List (ℕ × ℕ)}
    (hc : Permanent creature t.creatureQuests) (hg : Permanent gameobject t.gameObjectQuests)
    {m₀ : GameEventMgr F} (h₀ : AtRest t creature gameobject m₀) (rs : List EventRequest)
    (hproper : Along (eventStep t) (Proper t) m₀ rs) :
    Spawned t (run (eventStep t) m₀ rs) ∧
    (Along (eventStep t)
        (fun m r => ApartIn t.creatureQuests m r ∧ ApartIn t.gameObjectQuests m r) m₀ rs →
      Related t creature gameobject (run (eventStep t) m₀ rs)) := by
  refine ⟨spawned_run ht h₀ hproper, fun hapart => ?_⟩
  have hstep : ∀ m r, Spawned t m ∧ Related t creature gameobject m →
      Proper t m r ∧ ApartIn t.creatureQuests m r ∧ ApartIn t.gameObjectQuests m r →
      Spawned t (eventStep t m r) ∧ Related t creature gameobject (eventStep t m r) :=
    fun m r h hr => ⟨h.1.step ht hr.1, h.2.step ht hc hg h.1 hr.1 hr.2.1 hr.2.2⟩
  exact (invariant_run hstep ⟨h₀.spawned, h₀.related⟩ (hproper.and hapart)).2

/-- Two events with a quest of their own each and a spawn they share. -/
def twoEvents : GameEventTables ℕ where
  size := 3
  creatureQuests := fun e => if e = 1 then [(10, 100)] else if e = 2 then [(11, 101)] else []
  creatureGuids := fun i => if i = 3 ∨ i = 4 then [7] else []

/-- Creature `5` always has quest `50`. -/
def twoEventsAtRest : GameEventMgr ℕ where
  event := fun _ => { length := 10 }
  creatureQuestMap := [(5, 50)]

open GameEventMgr in
theorem eventRun_restores_twoEvents :
    Spawned twoEvents (run (eventStep twoEvents) twoEventsAtRest
      [.start 20 1 false, .start 21 2 false, .stop 22 1 false]) ∧
    Related twoEvents [(5, 50)] [] (run (eventStep twoEvents) twoEventsAtRest
      [.start 20 1 false, .start 21 2 false, .stop 22 1 false]) := by
  have ht : PositiveSpawns twoEvents := by
    refine ⟨fun e he => if_neg ?_, fun _ _ => rfl⟩
    have : internalEventId twoEvents e = 2 + e := by
      unfold internalEventId
      have : (twoEvents.size : ℤ) = 3 := rfl
      omega
    omega
  have hquests : ∀ e, ∀ rel ∈ twoEvents.creatureQuests e,
      (e = 1 ∧ rel = (10, 100)) ∨ (e = 2 ∧ rel = (11, 101)) := by
    intro e rel hrel
    unfold twoEvents at hrel
    dsimp only at hrel
    split_ifs at hrel with h1 h2
    · exact .inl ⟨h1, mem_singleton.1 hrel⟩
    · exact .inr ⟨h2, mem_singleton.1 hrel⟩
    · cases hrel
  have hc : Permanent [(5, 50)] twoEvents.creatureQuests := by
    intro e rel hrel
    rcases hquests e rel hrel with ⟨-, rfl⟩ | ⟨-, rfl⟩ <;> decide
  have hg : Permanent [] twoEvents.gameObjectQuests := fun _ _ _ => not_mem_nil
  have h₀ : AtRest twoEvents [(5, 50)] [] twoEventsAtRest :=
    ⟨rfl, ⟨by decide, fun _ => .rfl⟩, ⟨by decide, fun _ => .rfl⟩,
      fun _ _ _ => Finset.notMem_empty _, fun _ _ _ => Finset.notMem_empty _⟩
  obtain ⟨hs, hr⟩ := eventRun_restores twoEvents ht hc hg h₀
    [.start 20 1 false, .start 21 2 false, .stop 22 1 false]
    ⟨by decide, by decide, by decide, trivial⟩
  exact ⟨hs, hr ⟨by decide, by decide, by decide, trivial⟩⟩

/-- Quest `100` is given by creature `10` during the first event, by creature `11` during the
second. -/
def sharedQuest : GameEventTables ℕ where
  size := 3
  creatureQuests := fun e => if e = 1 then [(10, 100)] else if e = 2 then [(11, 100)] else []

open GameEventMgr in
/-- The first event is over, and its quest giver keeps the quest. -/
theorem stopEvent_leaves_quest :
    Along (eventStep sharedQuest) (Proper sharedQuest) twoEventsAtRest
      [.start 20 1 false, .start 21 2 false, .stop 22 1 false] ∧
    AtRest sharedQuest [(5, 50)] [] twoEventsAtRest ∧
    ¬Related sharedQuest [(5, 50)] [] (run (eventStep sharedQuest) twoEventsAtRest
      [.start 20 1 false, .start 21 2 false, .stop 22 1 false]) := by
  refine ⟨⟨by decide, by decide, by decide, trivial⟩, ⟨rfl, ⟨by decide, fun _ => .rfl⟩, ⟨by decide, fun _ => .rfl⟩,
      fun _ _ h => absurd h not_mem_nil, fun _ _ h => absurd h not_mem_nil⟩, fun h => ?_⟩
  have hkept := (h.creatures.mem_iff (10, 100)).1 (by decide)
  revert hkept
  decide

end MistyWorld
