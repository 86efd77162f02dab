import MistyWorld.GameEvent
import Mathlib.Logic.Relation

/-!
# The phases of world events

A world event should only move forward, from inactive through its conditions and its length to
finished, be active in between, start when the events it requires are far enough, and finish no
earlier than its length after its conditions were met. The first three hold in every run of
updates and completed quests, whatever the events require of each other. The last one holds for
the events whose length in seconds fits in 32 bits (`worldEvents_run`) : the product is taken in
32 bits, so a longer event finishes too early (`update_finishes_early`).

An update is a pass over the events that queues those to be started and stopped, and two loops
over the queues. `Updated` says what it does to one event.
-/

open Function List Machine Word

namespace MistyWorld

namespace GameEventMgr

variable {F : Type*} {data : GameEventData F}

/-! ## Phases -/

def IsWorld (state : GameEventState) : Prop :=
  state ≠ .normal ∧ state ≠ .internal

instance : DecidablePred IsWorld := fun _ =>
  inferInstanceAs (Decidable (_ ∧ _))

/-- The edges of the life of a world event. -/
inductive PhaseEdge : GameEventState → GameEventState → Prop
  | start : PhaseEdge .worldInactive .worldConditions
  | met : PhaseEdge .worldConditions .worldNextphase
  | finish : PhaseEdge .worldNextphase .worldFinished

/-- The states along the life of a world event. -/
def Forward : GameEventState → GameEventState → Prop :=
  Relation.ReflTransGen PhaseEdge

def ConditionsMet [LT F] (data : GameEventData F) : Prop :=
  ∀ c ∈ data.conditions, ¬c.2.done < c.2.reqNum

/-- The event is far enough for those that require it. -/
def FarEnough (now : ℕ) (data : GameEventData F) : Prop :=
  (data.state = .worldNextphase ∨ data.state = .worldFinished) ∧ data.nextstart ≤ now

/-! ## The conditions -/

section Conditions

variable [LT F] [DecidableLT F]

/-- An event that goes on to wait for its length. -/
def waitingData (now : ℕ) (data : GameEventData F) : GameEventData F :=
  { data with
    state := .worldNextphase
    nextstart := if data.nextstart = 0 then now + toU32 (data.length * 60) else data.nextstart }

omit [LT F] [DecidableLT F] in
@[simp] theorem waitingData_state (now : ℕ) (data : GameEventData F) :
    (waitingData now data).state = .worldNextphase :=
  rfl

/-- What the check of its conditions makes of an event. -/
def checkedData (now : ℕ) (data : GameEventData F) : GameEventData F :=
  if data.conditions.any fun c => c.2.done < c.2.reqNum then data else waitingData now data

theorem checkOneGameEventConditions_eq (m : GameEventMgr F) (now e : ℕ) :
    (m.checkOneGameEventConditions now e).1 = m.setEvent e (checkedData now (m.event e)) := by
  unfold checkOneGameEventConditions checkedData
  dsimp only
  split
  · rw [setEvent, update_eq_self]
  · rfl

theorem checkedData_cases (now : ℕ) (data : GameEventData F) :
    checkedData now data = data ∨
      ConditionsMet data ∧ checkedData now data = waitingData now data := by
  unfold checkedData
  split
  · exact .inl rfl
  · rename_i hunmet
    refine .inr ⟨fun c hc hlt => hunmet ?_, rfl⟩
    exact any_eq_true.2 ⟨c, hc, decide_eq_true hlt⟩

omit [LT F] [DecidableLT F] in
theorem waitingData_waiting {now : ℕ} (hstate : data.state = .worldNextphase)
    (hnext : data.nextstart ≠ 0) : waitingData now data = data := by
  rw [waitingData, if_neg hnext, ← hstate]

omit [LT F] [DecidableLT F] in
theorem waitingData_waitingData (now : ℕ) (data : GameEventData F) :
    waitingData now (waitingData now data) = waitingData now data := by
  by_cases hnext : (waitingData now data).nextstart = 0
  · have h0 : data.nextstart = 0 := by
      by_contra h
      exact h (by rwa [waitingData, if_neg h] at hnext)
    rw [waitingData, if_pos hnext, waitingData, if_pos h0]
  · exact waitingData_waiting rfl hnext

/-- Checking twice at a time is checking once. -/
theorem checkedData_checkedData (now : ℕ) (data : GameEventData F) :
    checkedData now (checkedData now data) = checkedData now data := by
  by_cases hunmet : data.conditions.any fun c => c.2.done < c.2.reqNum
  · have : checkedData now data = data := if_pos hunmet
    rw [this, this]
  · have : checkedData now data = waitingData now data := if_neg hunmet
    rw [this]
    exact (if_neg hunmet).trans (waitingData_waitingData now data)

/-- An event that waits for its length is left as it is. -/
theorem checkedData_waiting {now : ℕ} (hstate : data.state = .worldNextphase)
    (hnext : data.nextstart ≠ 0) : checkedData now data = data := by
  rcases checkedData_cases now data with h | ⟨-, h⟩
  · exact h
  · rw [h, waitingData_waiting hstate hnext]

theorem checkedData_state {now : ℕ} (h : data.state = .worldConditions) :
    (checkedData now data).state = .worldConditions ∨
      (checkedData now data).state = .worldNextphase := by
  rcases checkedData_cases now data with heq | ⟨-, heq⟩
  · exact .inl (by rw [heq, h])
  · exact .inr (by rw [heq, waitingData])

end Conditions

/-! ## The pass -/

variable {t : GameEventTables F} {m : GameEventMgr F} {e a : ℕ} {data' : GameEventData F}

def InRange (t : GameEventTables F) (e : ℕ) : Prop :=
  1 ≤ e ∧ e < t.size

section Pass

variable [LT F] [DecidableLT F]

/-- Its turn in the pass finishes the event. -/
def Due (now : ℕ) (data : GameEventData F) : Prop :=
  data.state = .worldNextphase ∧ data.nextstart ≤ now

instance (now : ℕ) (data : GameEventData F) : Decidable (Due now data) :=
  inferInstanceAs (Decidable (_ ∧ _))

def finishedData (data : GameEventData F) : GameEventData F :=
  { data with state := .worldFinished, nextstart := 0 }

omit [LT F] [DecidableLT F] in
@[simp] theorem finishedData_state (data : GameEventData F) :
    (finishedData data).state = .worldFinished :=
  rfl

/-- What its turn in the pass makes of an event. -/
def passedData (now : ℕ) (data : GameEventData F) : GameEventData F :=
  if Due now data then finishedData data
  else if data.state = .worldConditions then checkedData now data
  else data

theorem passedData_of_ne {now : ℕ} (hdue : ¬Due now data) (hstate : data.state ≠ .worldConditions) :
    passedData now data = data := by
  rw [passedData, if_neg hdue, if_neg hstate]

omit [LT F] [DecidableLT F] in
theorem not_due {now : ℕ} (h : data.state ≠ .worldNextphase) : ¬Due now data :=
  fun hdue => h hdue.1

/-- The turn of an event queues it to be started. -/
def Starts (m : GameEventMgr F) (now e : ℕ) : Prop :=
  e ∉ m.activeEvents ∧ m.checkOneGameEvent now e = true ∧ ¬Due now (m.event e)

/-- The turn of an event queues it to be stopped. -/
def Stops (m : GameEventMgr F) (now e : ℕ) : Prop :=
  e ∈ m.activeEvents ∧ (m.checkOneGameEvent now e = false ∨ Due now (m.event e))

/-- The turn of an event. -/
structure Turn (now e : ℕ) (p p' : UpdatePass F) : Prop where
  event : p'.mgr.event = Function.update p.mgr.event e (passedData now (p.mgr.event e))
  active : p'.mgr.activeEvents = p.mgr.activeEvents
  activate : p'.activate = p.activate ∧ ¬Starts p.mgr now e ∨
    p'.activate = p.activate ++ [e] ∧ Starts p.mgr now e
  deactivate : p'.deactivate = p.deactivate ∧ ¬Stops p.mgr now e ∨
    p'.deactivate = p.deactivate ++ [e] ∧ Stops p.mgr now e

omit [DecidableLT F] [LT F] in
theorem event_gameEventSpawn (m : GameEventMgr F) (e : ℤ) :
    (m.gameEventSpawn t e).event = m.event ∧
      (m.gameEventSpawn t e).activeEvents = m.activeEvents := by
  unfold gameEventSpawn
  split_ifs <;> exact ⟨rfl, rfl⟩

omit [DecidableLT F] [LT F] in
theorem isActiveEvent_iff : m.isActiveEvent e = true ↔ e ∈ m.activeEvents :=
  decide_eq_true_iff

omit [DecidableLT F] [LT F] in
theorem checkOneGameEvent_running {now : ℕ}
    (h : (m.event e).state = .worldConditions ∨ (m.event e).state = .worldNextphase) :
    m.checkOneGameEvent now e = true := by
  rcases h with h | h <;> simp [checkOneGameEvent, h]

theorem turn_updateOne (t : GameEventTables F) (now e : ℕ) (p : UpdatePass F) :
    Turn now e p (updateOne t now p e) := by
  by_cases hcheck : p.mgr.checkOneGameEvent now e = true
  · by_cases hdue : Due now (p.mgr.event e)
    · have hpass : passedData now (p.mgr.event e) = finishedData (p.mgr.event e) := if_pos hdue
      have hno : ¬Starts p.mgr now e := fun h => h.2.2 hdue
      unfold Due at hdue
      rw [updateOne, if_pos hcheck, if_pos hdue]
      refine ⟨by rw [hpass]; rfl, rfl, .inl ⟨rfl, hno⟩, ?_⟩
      by_cases hactive : e ∈ p.mgr.activeEvents
      · exact .inr ⟨if_pos (isActiveEvent_iff.2 hactive), hactive, .inr hdue⟩
      · exact .inl ⟨if_neg fun h => hactive (isActiveEvent_iff.1 h), fun h => hactive h.1⟩
    · have hno : ¬Stops p.mgr now e := fun h =>
        h.2.elim (fun h => by rw [hcheck] at h; cases h) hdue
      have hmgr : (if (p.mgr.event e).state = .worldConditions
          then (p.mgr.checkOneGameEventConditions now e).1 else p.mgr) =
            p.mgr.setEvent e (passedData now (p.mgr.event e)) := by
        rw [passedData, if_neg hdue, checkOneGameEventConditions_eq]
        split
        · rfl
        · rw [setEvent, update_eq_self]
      unfold Due at hdue
      rw [updateOne, if_pos hcheck, if_neg hdue, hmgr]
      refine ⟨rfl, rfl, ?_, .inl ⟨rfl, hno⟩⟩
      by_cases hactive : e ∈ p.mgr.activeEvents
      · exact .inl ⟨if_pos (isActiveEvent_iff.2 hactive), fun h => h.1 hactive⟩
      · exact .inr ⟨if_neg fun h => hactive (isActiveEvent_iff.1 h), hactive, hcheck, hdue⟩
  · have hnotdue : ¬Due now (p.mgr.event e) := fun h =>
      hcheck (checkOneGameEvent_running (.inr h.1))
    have hpass : passedData now (p.mgr.event e) = p.mgr.event e := by
      rw [passedData, if_neg hnotdue,
        if_neg fun h => hcheck (checkOneGameEvent_running (.inl h))]
    have hno : ¬Starts p.mgr now e := fun h => hcheck h.2.1
    rw [updateOne, if_neg hcheck]
    by_cases hactive : e ∈ p.mgr.activeEvents
    · rw [if_pos (isActiveEvent_iff.2 hactive)]
      refine ⟨?_, rfl, .inl ⟨rfl, hno⟩, .inr ⟨rfl, hactive, .inl ?_⟩⟩
      · rw [hpass, update_eq_self]
        rfl
      · exact Bool.eq_false_iff.2 hcheck
    · rw [if_neg fun h => hactive (isActiveEvent_iff.1 h)]
      obtain ⟨hevent, hactives⟩ := event_gameEventSpawn (t := t) p.mgr (-e)
      refine ⟨?_, ?_, .inl ⟨rfl, hno⟩, .inl ⟨rfl, fun h => hactive h.1⟩⟩
      · rw [hpass, update_eq_self, UpdatePass.delay]
        split
        · rfl
        · exact hevent
      · rw [UpdatePass.delay]
        split
        · rfl
        · exact hactives

/-- A state in the middle of the pass : each event is as before its turn or as after it. -/
structure Between (t : GameEventTables F) (now : ℕ) (m mid : GameEventMgr F) : Prop where
  active : mid.activeEvents = m.activeEvents
  event : ∀ e, mid.event e = m.event e ∨
    InRange t e ∧ mid.event e = passedData now (m.event e)

/-- What the pass makes of an event. -/
structure Passed (t : GameEventTables F) (now : ℕ) (m : GameEventMgr F) (p : UpdatePass F)
    (e : ℕ) : Prop where
  event : p.mgr.event e = passedData now (m.event e)
  queued : ∃ mid, Between t now m mid ∧ mid.event e = m.event e ∧
    (e ∈ p.activate ↔ Starts mid now e) ∧ (e ∈ p.deactivate ↔ Stops mid now e)

/-- What the pass over the events `l` makes of the events. -/
structure PassedAll (t : GameEventTables F) (now : ℕ) (m : GameEventMgr F) (l : List ℕ)
    (p : UpdatePass F) : Prop where
  between : Between t now m p.mgr
  passed : ∀ e ∈ l, Passed t now m p e
  others : ∀ e ∉ l, p.mgr.event e = m.event e ∧ e ∉ p.activate ∧ e ∉ p.deactivate
  nodup : p.activate.Nodup

/-- One more turn. -/
theorem PassedAll.snoc {now : ℕ} {l : List ℕ} {p : UpdatePass F} (h : PassedAll t now m l p)
    (he : e ∉ l) (hrange : InRange t e) : PassedAll t now m (l ++ [e]) (updateOne t now p e) := by
  obtain ⟨hevent, hactive, hact, hdeact⟩ := turn_updateOne t now e p
  obtain ⟨hsame, hnoact, hnodeact⟩ := h.others e he
  have hmemact : ∀ a, a ∈ (updateOne t now p e).activate ↔
      a ∈ p.activate ∨ a = e ∧ Starts p.mgr now e := by
    intro a
    rcases hact with ⟨h1, h2⟩ | ⟨h1, h2⟩ <;> simp [h1, h2]
  have hmemdeact : ∀ a, a ∈ (updateOne t now p e).deactivate ↔
      a ∈ p.deactivate ∨ a = e ∧ Stops p.mgr now e := by
    intro a
    rcases hdeact with ⟨h1, h2⟩ | ⟨h1, h2⟩ <;> simp [h1, h2]
  have hother : ∀ a, a ≠ e → (updateOne t now p e).mgr.event a = p.mgr.event a :=
    fun a ha => by rw [hevent, Function.update_of_ne ha]
  have hself : (updateOne t now p e).mgr.event e = passedData now (m.event e) := by
    rw [hevent, update_self, hsame]
  refine ⟨⟨hactive.trans h.between.active, fun a => ?_⟩, fun a ha => ?_, fun a ha => ?_, ?_⟩
  · by_cases hae : a = e
    · subst hae
      exact .inr ⟨hrange, hself⟩
    · rw [hother a hae]
      exact h.between.event a
  · by_cases hae : a = e
    · subst hae
      refine ⟨hself, p.mgr, h.between, hsame, ?_, ?_⟩
      · rw [hmemact]
        simp [hnoact]
      · rw [hmemdeact]
        simp [hnodeact]
    · have hal : a ∈ l := by
        rcases mem_append.1 ha with hal | hal
        · exact hal
        · exact absurd (mem_singleton.1 hal) hae
      obtain ⟨hpassed, mid, hmid, hmida, hmidact, hmiddeact⟩ := h.passed a hal
      refine ⟨(hother a hae).trans hpassed, mid, hmid, hmida, ?_, ?_⟩
      · rw [hmemact, ← hmidact]
        simp [hae]
      · rw [hmemdeact, ← hmiddeact]
        simp [hae]
  · have hae : a ≠ e := fun hae => ha (by simp [hae])
    obtain ⟨hsamea, hnoacta, hnodeacta⟩ := h.others a fun hal => ha (by simp [hal])
    refine ⟨(hother a hae).trans hsamea, ?_, ?_⟩
    · rw [hmemact]
      simp [hnoacta, hae]
    · rw [hmemdeact]
      simp [hnodeacta, hae]
  · rcases hact with ⟨h1, -⟩ | ⟨h1, -⟩
    · rw [h1]
      exact h.nodup
    · rw [h1]
      exact nodup_append'.2 ⟨h.nodup, nodup_singleton e,
        disjoint_singleton.2 hnoact⟩

/-- The pass over all the events. -/
theorem passedAll_range (t : GameEventTables F) (now : ℕ) (m : GameEventMgr F) :
    ∀ n, n ≤ t.size - 1 → PassedAll t now m (List.range' 1 n)
      ((List.range' 1 n).foldl (updateOne t now) { mgr := m })
  | 0, _ => ⟨⟨rfl, fun _ => .inl rfl⟩, fun _ he => absurd he not_mem_nil,
      fun _ _ => ⟨rfl, not_mem_nil, not_mem_nil⟩, nodup_nil⟩
  | n + 1, hn => by
    have ih := passedAll_range t now m n (by omega)
    rw [List.range'_concat, foldl_append]
    refine ih.snoc ?_ ⟨by omega, by omega⟩
    rw [mem_range'_1]
    omega

end Pass

/-! ## The two queues -/

theorem event_applyNewEvent (t : GameEventTables F) (m : GameEventMgr F) (e : ℕ) :
    (m.applyNewEvent t e).event = m.event ∧
      (m.applyNewEvent t e).activeEvents = m.activeEvents := by
  unfold applyNewEvent updateEventQuests gameEventUnspawn gameEventSpawn
  split_ifs <;> exact ⟨rfl, rfl⟩

theorem event_unApplyEvent (t : GameEventTables F) (m : GameEventMgr F) (e : ℕ) :
    (m.unApplyEvent t e).event = m.event ∧
      (m.unApplyEvent t e).activeEvents = m.activeEvents := by
  unfold unApplyEvent updateEventQuests gameEventUnspawn gameEventSpawn
  split_ifs <;> exact ⟨rfl, rfl⟩

section Queues

variable [LT F] [DecidableLT F]

/-- What being started makes of a world event. -/
def startedData (now : ℕ) (data : GameEventData F) : GameEventData F :=
  checkedData now
    (if data.state = .worldInactive then { data with state := .worldConditions } else data)

theorem startEvent_world (t : GameEventTables F) (now : ℕ) (hworld : IsWorld (m.event e).state) :
    (m.startEvent t now e false).1.event =
      Function.update m.event e (startedData now (m.event e)) := by
  have hno : ¬((m.event e).state = .normal ∨ (m.event e).state = .internal) := by
    rintro (h | h)
    · exact hworld.1 h
    · exact hworld.2 h
  rw [startEvent, if_neg hno, checkOneGameEventConditions_eq, setEvent]
  rw [(event_applyNewEvent t _ e).1, startedData]
  split
  · rw [setEvent]
    dsimp only
    rw [update_self, update_idem]
  · rfl

theorem startEvent_notWorld (t : GameEventTables F) (now : ℕ) (hworld : ¬IsWorld (m.event e).state) :
    (m.startEvent t now e false).1.event = m.event := by
  have hyes : (m.event e).state = .normal ∨ (m.event e).state = .internal := by
    by_contra h
    exact hworld ⟨fun h' => h (.inl h'), fun h' => h (.inr h')⟩
  rw [startEvent, if_pos hyes]
  exact (event_applyNewEvent t _ e).1

theorem startEvent_active (t : GameEventTables F) (m : GameEventMgr F) (now e : ℕ) :
    (m.startEvent t now e false).1.activeEvents = insert e m.activeEvents := by
  unfold startEvent
  dsimp only
  split
  · exact (event_applyNewEvent t _ e).2
  · rw [checkOneGameEventConditions_eq, setEvent]
    refine (event_applyNewEvent t _ e).2.trans ?_
    split <;> rfl

/-- Starting an event leaves the data of the others. -/
theorem startEvent_other (t : GameEventTables F) (m : GameEventMgr F) (now : ℕ) (h : a ≠ e) :
    (m.startEvent t now e false).1.event a = m.event a := by
  by_cases hworld : IsWorld (m.event e).state
  · rw [startEvent_world t now hworld, Function.update_of_ne h]
  · rw [startEvent_notWorld t now hworld]

/-- What the loop over the events to be started does to one that is not among them. -/
theorem startAll_other (t : GameEventTables F) (now : ℕ) :
    ∀ {l : List ℕ} {s : GameEventMgr F × ℕ}, a ∉ l →
      (l.foldl (startQueued t now) s).1.event a = s.1.event a ∧
        (a ∈ (l.foldl (startQueued t now) s).1.activeEvents ↔ a ∈ s.1.activeEvents)
  | [], _, _ => ⟨rfl, Iff.rfl⟩
  | e :: l, s, h => by
    obtain ⟨hae, hal⟩ := not_or.1 (mem_cons.not.1 h)
    obtain ⟨hevent, hactive⟩ := startAll_other t now (s := startQueued t now s e) hal
    refine ⟨hevent.trans (startEvent_other t s.1 now hae), hactive.trans ?_⟩
    rw [startQueued, startEvent_active, Finset.mem_insert]
    exact or_iff_right hae

/-- What it does to one that is. -/
theorem startAll_mem (t : GameEventTables F) (now : ℕ) :
    ∀ {l : List ℕ} {s : GameEventMgr F × ℕ}, l.Nodup → a ∈ l → IsWorld (s.1.event a).state →
      (l.foldl (startQueued t now) s).1.event a = startedData now (s.1.event a) ∧
        a ∈ (l.foldl (startQueued t now) s).1.activeEvents
  | e :: l, s, hnodup, h, hworld => by
    obtain ⟨hel, hl⟩ := nodup_cons.1 hnodup
    rw [foldl_cons]
    by_cases hae : a = e
    · subst hae
      obtain ⟨hevent, hactive⟩ := startAll_other t now (s := startQueued t now s a) hel
      refine ⟨?_, hactive.2 ?_⟩
      · rw [hevent, startQueued, startEvent_world t now hworld, update_self]
      · rw [startQueued, startEvent_active]
        exact Finset.mem_insert_self a _
    · have hother : (startQueued t now s e).1.event a = s.1.event a :=
        startEvent_other t s.1 now hae
      have hal : a ∈ l := (mem_cons.1 h).resolve_left hae
      obtain ⟨hevent, hactive⟩ := startAll_mem t now (s := startQueued t now s e) hl hal
        (by rwa [hother])
      exact ⟨by rw [hevent, hother], hactive⟩

end Queues

/-- Stopping an event leaves the others. -/
theorem stopEvent_other [Zero F] (t : GameEventTables F) (m : GameEventMgr F) (now : ℕ) (h : a ≠ e) :
    (m.stopEvent t now e false).event a = m.event a ∧
      (a ∈ (m.stopEvent t now e false).activeEvents ↔ a ∈ m.activeEvents) := by
  obtain ⟨hevent, hactive⟩ :=
    event_unApplyEvent t { m with activeEvents := m.activeEvents.erase e } e
  have hmem : a ∈ ({ m with activeEvents := m.activeEvents.erase e }.unApplyEvent t
      e).activeEvents ↔ a ∈ m.activeEvents := by
    rw [hactive]
    exact Finset.mem_erase.trans (and_iff_right h)
  rw [stopEvent, if_neg fun h => Bool.false_ne_true h.1]
  split
  · refine ⟨?_, hmem⟩
    rw [setEvent]
    dsimp only
    rw [Function.update_of_ne h, hevent]
  · exact ⟨by rw [hevent], hmem⟩

/-- Stopping a finished event only takes it from the active ones. -/
theorem stopEvent_finished [Zero F] (t : GameEventTables F) (now : ℕ)
    (h : (m.event e).state = .worldFinished) : (m.stopEvent t now e false).event e = m.event e ∧
      e ∉ (m.stopEvent t now e false).activeEvents := by
  obtain ⟨hevent, hactive⟩ :=
    event_unApplyEvent t { m with activeEvents := m.activeEvents.erase e } e
  rw [stopEvent, if_neg fun h => Bool.false_ne_true h.1,
    if_neg fun h' => h'.2.elim Bool.false_ne_true fun h' => h' h]
  refine ⟨by rw [hevent], ?_⟩
  rw [hactive]
  exact Finset.notMem_erase e _

/-- What the loop over the events to be stopped does to one that is not among them. -/
theorem stopAll_other [Zero F] (t : GameEventTables F) (now : ℕ) :
    ∀ {l : List ℕ} {m : GameEventMgr F}, a ∉ l →
      (l.foldl (fun m e => m.stopEvent t now e false) m).event a = m.event a ∧
        (a ∈ (l.foldl (fun m e => m.stopEvent t now e false) m).activeEvents ↔
          a ∈ m.activeEvents)
  | [], _, _ => ⟨rfl, Iff.rfl⟩
  | e :: l, m, h => by
    obtain ⟨hae, hal⟩ := not_or.1 (mem_cons.not.1 h)
    obtain ⟨hevent, hactive⟩ := stopAll_other t now (m := m.stopEvent t now e false) hal
    obtain ⟨hevent', hactive'⟩ := stopEvent_other t m now hae
    exact ⟨hevent.trans hevent', hactive.trans hactive'⟩

/-- What it does to a finished one. -/
theorem stopAll_finished [Zero F] (t : GameEventTables F) (now : ℕ) :
    ∀ {l : List ℕ} {m : GameEventMgr F}, (m.event a).state = .worldFinished →
      (l.foldl (fun m e => m.stopEvent t now e false) m).event a = m.event a ∧
        (a ∈ (l.foldl (fun m e => m.stopEvent t now e false) m).activeEvents ↔
          a ∈ m.activeEvents ∧ a ∉ l)
  | [], m, _ => ⟨rfl, by simp⟩
  | e :: l, m, h => by
    rw [foldl_cons]
    by_cases hae : a = e
    · subst hae
      obtain ⟨hevent, hactive⟩ := stopEvent_finished t now h
      obtain ⟨hevent', hactive'⟩ := stopAll_finished t now (l := l)
        (m := m.stopEvent t now a false) (by rw [hevent, h])
      refine ⟨hevent'.trans hevent, ?_⟩
      rw [hactive']
      simp [hactive]
    · obtain ⟨hevent, hactive⟩ := stopEvent_other t m now hae
      obtain ⟨hevent', hactive'⟩ := stopAll_finished t now (l := l)
        (m := m.stopEvent t now e false) (by rw [hevent, h])
      refine ⟨hevent'.trans hevent, ?_⟩
      rw [hactive', hactive, mem_cons, not_or, and_iff_right hae]

/-! ## An update -/

section Update

variable [LT F] [DecidableLT F] [Zero F]

/-- What an update makes of a world event. -/
inductive Updated (t : GameEventTables F) (now : ℕ) (m m' : GameEventMgr F) (e : ℕ) : Prop
  | finished (hstate : (m.event e).state = .worldFinished) (hevent : m'.event e = m.event e)
      (hactive : e ∉ m'.activeEvents)
  | finish (hdue : Due now (m.event e)) (hevent : m'.event e = finishedData (m.event e))
      (hactive : e ∉ m'.activeEvents)
  | wait (hstate : (m.event e).state = .worldNextphase) (hnext : now < (m.event e).nextstart)
      (hevent : m'.event e = m.event e) (hactive : e ∈ m'.activeEvents)
  | conditions (hstate : (m.event e).state = .worldConditions)
      (hevent : m'.event e = checkedData now (m.event e)) (hactive : e ∈ m'.activeEvents)
  | sleep (hstate : (m.event e).state = .worldInactive) (hevent : m'.event e = m.event e)
      (hactive : e ∉ m'.activeEvents)
  | start (hstate : (m.event e).state = .worldInactive)
      (hprerequisites : ∃ mid, Between t now m mid ∧
        ∀ p ∈ (m.event e).prerequisiteEvents, FarEnough now (mid.event p))
      (hevent : m'.event e = startedData now (m.event e)) (hactive : e ∈ m'.activeEvents)

/-- No inactive world event is among the active ones. -/
def NoneAsleep (m : GameEventMgr F) : Prop :=
  ∀ e ∈ m.activeEvents, (m.event e).state ≠ .worldInactive

omit [LT F] [DecidableLT F] [Zero F] in
theorem farEnough_of_check {now : ℕ} (hstate : (m.event e).state = .worldInactive)
    (h : m.checkOneGameEvent now e = true) :
    ∀ p ∈ (m.event e).prerequisiteEvents, FarEnough now (m.event p) := by
  intro p hp
  rw [checkOneGameEvent] at h
  simp only [hstate, Bool.and_eq_true, all_eq_true] at h
  have := h.1 p hp
  simpa [FarEnough] using this

/-- An update passes over the events, and starts and stops those it has queued. -/
theorem update_queued (t : GameEventTables F) (now : ℕ) (m : GameEventMgr F) (hrange : InRange t e)
    (hworld : IsWorld (passedData now (m.event e)).state) :
    ∃ mid, Between t now m mid ∧ mid.event e = m.event e ∧
      (Starts mid now e →
        (m.update t now).1.event e = startedData now (passedData now (m.event e)) ∧
          e ∈ (m.update t now).1.activeEvents) ∧
      (¬Starts mid now e → ¬Stops mid now e →
        (m.update t now).1.event e = passedData now (m.event e) ∧
          (e ∈ (m.update t now).1.activeEvents ↔ e ∈ m.activeEvents)) ∧
      (Stops mid now e → (passedData now (m.event e)).state = .worldFinished →
        (m.update t now).1.event e = passedData now (m.event e) ∧
          e ∉ (m.update t now).1.activeEvents) := by
  have hpass := passedAll_range t now m (t.size - 1) le_rfl
  have hmem : e ∈ List.range' 1 (t.size - 1) := by
    rw [mem_range'_1]
    have := hrange.1
    have := hrange.2
    omega
  obtain ⟨hevent, mid, hmid, hmide, hact, hdeact⟩ := hpass.passed e hmem
  rw [update]
  refine ⟨mid, hmid, hmide, fun hstart => ?_, fun hnostart hnostop => ?_, fun hstop hfin => ?_⟩
  · have hnostop : ¬Stops mid now e := fun h => hstart.1 h.1
    obtain ⟨hs, hsactive⟩ := startAll_mem t now hpass.nodup (hact.2 hstart)
      (s := (_, _)) (by rwa [hevent])
    obtain ⟨h, hactive⟩ := stopAll_other t now (mt hdeact.1 hnostop)
    exact ⟨by rw [h, hs, hevent], hactive.2 hsactive⟩
  · obtain ⟨hs, hsactive⟩ := startAll_other t now (mt hact.1 hnostart) (s := (_, _))
    obtain ⟨h, hactive⟩ := stopAll_other t now (mt hdeact.1 hnostop)
    refine ⟨by rw [h, hs, hevent], ?_⟩
    rw [hactive, hsactive, hpass.between.active]
  · have hnostart : ¬Starts mid now e := fun h => h.1 hstop.1
    obtain ⟨hs, hsactive⟩ := startAll_other t now (mt hact.1 hnostart) (s := (_, _))
    obtain ⟨h, hactive⟩ := stopAll_finished t now (by rw [hs, hevent, hfin])
    refine ⟨by rw [h, hs, hevent], fun hmem => ?_⟩
    exact (hactive.1 hmem).2 (hdeact.2 hstop)

omit [LT F] [DecidableLT F] [Zero F] in
theorem not_stops {mid : GameEventMgr F} {now : ℕ} (hcheck : mid.checkOneGameEvent now e = true)
    (hdue : ¬Due now (mid.event e)) : ¬Stops mid now e := by
  rintro ⟨-, h | h⟩
  · rw [hcheck] at h
    cases h
  · exact hdue h

section

variable (t : GameEventTables F)

theorem updated_due (now : ℕ) (hrange : InRange t e) (hdue : Due now (m.event e)) :
    Updated t now m (m.update t now).1 e := by
  have hpassed : passedData now (m.event e) = finishedData (m.event e) := if_pos hdue
  have hfinished : (passedData now (m.event e)).state = .worldFinished := by
    rw [hpassed, finishedData]
  obtain ⟨mid, hmid, hmide, -, hrest, hstop⟩ := update_queued t now m hrange
    (by rw [hfinished]; decide)
  have hmiddue : Due now (mid.event e) := by rwa [hmide]
  have hnostart : ¬Starts mid now e := fun h => h.2.2 hmiddue
  by_cases hactive : e ∈ m.activeEvents
  · obtain ⟨hevent, hactive⟩ := hstop ⟨hmid.active ▸ hactive, .inr hmiddue⟩ hfinished
    exact .finish hdue (hevent.trans hpassed) hactive
  · have hnostop : ¬Stops mid now e := fun h => hactive (hmid.active ▸ h.1)
    obtain ⟨hevent, hiff⟩ := hrest hnostart hnostop
    exact .finish hdue (hevent.trans hpassed) fun h => hactive (hiff.1 h)

/-- A running event that is not finished is left as it was passed, or started from that. -/
theorem update_running (now : ℕ) (hrange : InRange t e) (hdue : ¬Due now (m.event e))
    (hstate : (m.event e).state = .worldConditions ∨ (m.event e).state = .worldNextphase)
    (hpassed : (passedData now (m.event e)).state = .worldConditions ∨
      (passedData now (m.event e)).state = .worldNextphase) :
    e ∈ (m.update t now).1.activeEvents ∧
      ((m.update t now).1.event e = passedData now (m.event e) ∨
        (m.update t now).1.event e = checkedData now (passedData now (m.event e))) := by
  obtain ⟨mid, hmid, hmide, hstart, hrest, -⟩ := update_queued t now m hrange
    (by rcases hpassed with h | h <;> rw [h] <;> decide)
  have hcheck : mid.checkOneGameEvent now e = true := checkOneGameEvent_running (by rwa [hmide])
  have hmiddue : ¬Due now (mid.event e) := by rwa [hmide]
  by_cases hactive : e ∈ m.activeEvents
  · have hmidactive : e ∈ mid.activeEvents := hmid.active ▸ hactive
    obtain ⟨hevent, hiff⟩ := hrest (fun h => h.1 hmidactive) (not_stops hcheck hmiddue)
    exact ⟨hiff.2 hactive, .inl hevent⟩
  · have hmidactive : e ∉ mid.activeEvents := hmid.active ▸ hactive
    obtain ⟨hevent, hactive⟩ := hstart ⟨hmidactive, hcheck, hmiddue⟩
    refine ⟨hactive, .inr (hevent.trans ?_)⟩
    rw [startedData, if_neg]
    rcases hpassed with h | h <;> rw [h] <;> decide

theorem updated_conditions (now : ℕ) (hrange : InRange t e)
    (hstate : (m.event e).state = .worldConditions) : Updated t now m (m.update t now).1 e := by
  have hdue : ¬Due now (m.event e) := fun h => by
    have := h.1
    rw [hstate] at this
    cases this
  have hpassed : passedData now (m.event e) = checkedData now (m.event e) := by
    rw [passedData, if_neg hdue, if_pos hstate]
  have hrun := update_running t now hrange hdue (.inl hstate)
  rw [hpassed, checkedData_checkedData, or_self] at hrun
  obtain ⟨hactive, hevent⟩ := hrun (checkedData_state hstate)
  exact .conditions hstate hevent hactive

theorem updated_wait (now : ℕ) (hrange : InRange t e) (hstate : (m.event e).state = .worldNextphase)
    (hnext : now < (m.event e).nextstart) : Updated t now m (m.update t now).1 e := by
  have hdue : ¬Due now (m.event e) := fun h => absurd h.2 (not_le.2 hnext)
  have hpassed : passedData now (m.event e) = m.event e := by
    rw [passedData, if_neg hdue, if_neg (by rw [hstate]; decide)]
  have hrun := update_running t now hrange hdue (.inr hstate)
  rw [hpassed, checkedData_waiting hstate (by omega), or_self] at hrun
  obtain ⟨hactive, hevent⟩ := hrun (.inr hstate)
  exact .wait hstate hnext hevent hactive

theorem updated_finished (now : ℕ) (hrange : InRange t e)
    (hstate : (m.event e).state = .worldFinished) : Updated t now m (m.update t now).1 e := by
  have hpassed : passedData now (m.event e) = m.event e := by
    rw [passedData, if_neg (by rintro ⟨h, -⟩; rw [hstate] at h; cases h),
      if_neg (by rw [hstate]; decide)]
  obtain ⟨mid, hmid, hmide, -, hrest, hstop⟩ := update_queued t now m hrange
    (by rw [hpassed, hstate]; decide)
  rw [hpassed] at hrest hstop
  have hcheck : mid.checkOneGameEvent now e = false := by
    simp [checkOneGameEvent, hmide, hstate]
  have hnostart : ¬Starts mid now e := by
    rintro ⟨-, h, -⟩
    rw [hcheck] at h
    cases h
  by_cases hactive : e ∈ m.activeEvents
  · obtain ⟨hevent, hactive⟩ := hstop ⟨hmid.active ▸ hactive, .inl hcheck⟩ hstate
    exact .finished hstate hevent hactive
  · have hnostop : ¬Stops mid now e := fun h => hactive (hmid.active ▸ h.1)
    obtain ⟨hevent, hiff⟩ := hrest hnostart hnostop
    exact .finished hstate hevent fun h => hactive (hiff.1 h)

theorem updated_inactive (now : ℕ) (hasleep : NoneAsleep m) (hrange : InRange t e)
    (hstate : (m.event e).state = .worldInactive) : Updated t now m (m.update t now).1 e := by
  have hpassed : passedData now (m.event e) = m.event e := by
    rw [passedData, if_neg (by rintro ⟨h, -⟩; rw [hstate] at h; cases h),
      if_neg (by rw [hstate]; decide)]
  obtain ⟨mid, hmid, hmide, hstart, hrest, -⟩ := update_queued t now m hrange
    (by rw [hpassed, hstate]; decide)
  rw [hpassed] at hstart hrest
  have hactive : e ∉ m.activeEvents := fun h => hasleep e h hstate
  have hmidactive : e ∉ mid.activeEvents := hmid.active ▸ hactive
  by_cases hstarts : Starts mid now e
  · obtain ⟨hevent, hactive⟩ := hstart hstarts
    have hfar := farEnough_of_check (by rwa [hmide]) hstarts.2.1
    rw [hmide] at hfar
    exact .start hstate ⟨mid, hmid, hfar⟩ hevent hactive
  · obtain ⟨hevent, hiff⟩ := hrest hstarts fun h => hmidactive h.1
    exact .sleep hstate hevent fun h => hactive (hiff.1 h)

theorem updated_update (now : ℕ) (hasleep : NoneAsleep m) (hrange : InRange t e)
    (hworld : IsWorld (m.event e).state) : Updated t now m (m.update t now).1 e := by
  cases hstate : (m.event e).state with
  | normal => exact absurd hstate hworld.1
  | internal => exact absurd hstate hworld.2
  | worldInactive => exact updated_inactive t now hasleep hrange hstate
  | worldConditions => exact updated_conditions t now hrange hstate
  | worldNextphase =>
    rcases Nat.lt_or_ge now (m.event e).nextstart with hnext | hdue
    · exact updated_wait t now hrange hstate hnext
    · exact updated_due t now hrange ⟨hstate, hdue⟩
  | worldFinished => exact updated_finished t now hrange hstate

/-- An update leaves the data of what is not a world event of the tables. -/
theorem update_other (now : ℕ) (m : GameEventMgr F) (h : ¬InRange t e) :
    (m.update t now).1.event e = m.event e ∧
      (e ∈ (m.update t now).1.activeEvents ↔ e ∈ m.activeEvents) := by
  have hpass := passedAll_range t now m (t.size - 1) le_rfl
  have hmem : e ∉ List.range' 1 (t.size - 1) := by
    rw [mem_range'_1]
    rintro ⟨h1, h2⟩
    exact h ⟨h1, by omega⟩
  obtain ⟨hevent, hact, hdeact⟩ := hpass.others e hmem
  obtain ⟨hs, hsactive⟩ := startAll_other t now hact (s := (_, _))
  obtain ⟨hstop, hactive⟩ := stopAll_other t now hdeact
  rw [update]
  refine ⟨by rw [hstop, hs, hevent], ?_⟩
  rw [hactive, hsactive, hpass.between.active]

end

omit [Zero F] in
/-- Starting an event that is no world event leaves its data. -/
theorem startAll_notWorld (t : GameEventTables F) (now : ℕ) :
    ∀ {l : List ℕ} {s : GameEventMgr F × ℕ}, ¬IsWorld (s.1.event a).state →
      (l.foldl (startQueued t now) s).1.event a = s.1.event a
  | [], _, _ => rfl
  | e :: l, s, h => by
    have hsame : (startQueued t now s e).1.event a = s.1.event a := by
      by_cases hae : a = e
      · subst hae
        exact congrFun (startEvent_notWorld t now h) a
      · exact startEvent_other t s.1 now hae
    rw [foldl_cons, startAll_notWorld t now (by rwa [hsame]), hsame]

omit [LT F] [DecidableLT F] in
/-- Stopping an event that is no world event leaves its data. -/
theorem stopAll_notWorld (t : GameEventTables F) (now : ℕ) :
    ∀ {l : List ℕ} {m : GameEventMgr F}, ¬IsWorld (m.event a).state →
      (l.foldl (fun m e => m.stopEvent t now e false) m).event a = m.event a
  | [], _, _ => rfl
  | e :: l, m, h => by
    have hsame : (m.stopEvent t now e false).event a = m.event a := by
      by_cases hae : a = e
      · subst hae
        rw [stopEvent, if_neg fun h => Bool.false_ne_true h.1, if_neg fun h' => h h'.1]
        exact congrFun (event_unApplyEvent t _ a).1 a
      · exact (stopEvent_other t m now hae).1
    rw [foldl_cons, stopAll_notWorld t now (by rwa [hsame]), hsame]

theorem update_notWorld (t : GameEventTables F) (now : ℕ) (hrange : InRange t e)
    (h : ¬IsWorld (m.event e).state) : (m.update t now).1.event e = m.event e := by
  have hpass := passedAll_range t now m (t.size - 1) le_rfl
  have hmem : e ∈ List.range' 1 (t.size - 1) := by
    rw [mem_range'_1]
    have := hrange.1
    have := hrange.2
    omega
  have hevent := (hpass.passed e hmem).event
  rw [passedData, if_neg (by rintro ⟨h', -⟩; rw [h'] at h; exact h (by decide)),
    if_neg (by intro h'; rw [h'] at h; exact h (by decide))] at hevent
  rw [update]
  rw [stopAll_notWorld t now, startAll_notWorld t now, hevent]
  · rwa [hevent]
  · rwa [startAll_notWorld t now (by rwa [hevent]), hevent]

end Update

/-! ## What a request makes of an event -/

section Requests

variable [LT F]

/-- How far a request brings an event. -/
inductive Advance (now : ℕ) (data : GameEventData F) : GameEventData F → Prop
  | stay : Advance now data data
  | counted (conditions : List (ℕ × GameEventFinishCondition F))
      (h : data.state = .worldConditions) :
      Advance now data { data with conditions := conditions }
  | started (h : data.state = .worldInactive) :
      Advance now data { data with state := .worldConditions }
  | met (conditions : List (ℕ × GameEventFinishCondition F))
      (h : data.state = .worldInactive ∨ data.state = .worldConditions)
      (hmet : ConditionsMet { data with conditions := conditions }) :
      Advance now data (waitingData now { data with conditions := conditions })
  | finished (h : Due now data) : Advance now data (finishedData data)

theorem Advance.forward {now : ℕ} (h : Advance now data data') :
    Forward data.state data'.state := by
  cases h with
  | stay => exact .refl
  | counted _ _ => exact .refl
  | started h =>
    rw [h]
    exact .single .start
  | met _ h _ =>
    rcases h with h | h <;> rw [h]
    · exact .tail (.single .start) .met
    · exact .single .met
  | finished h =>
    rw [h.1]
    exact .single .finish

variable [DecidableLT F]

theorem Updated.advance {now : ℕ} {m' : GameEventMgr F} (h : Updated t now m m' e) :
    Advance now (m.event e) (m'.event e) := by
  cases h with
  | finished _ hevent _ | wait _ _ hevent _ | sleep _ hevent _ => exact hevent ▸ .stay
  | finish hdue hevent _ => exact hevent ▸ .finished hdue
  | conditions hstate hevent _ =>
    rw [hevent]
    rcases checkedData_cases now (m.event e) with h | ⟨hmet, h⟩ <;> rw [h]
    · exact .stay
    · exact .met _ (.inr hstate) hmet
  | start hstate _ hevent _ =>
    rw [hevent, startedData, if_pos hstate]
    rcases checkedData_cases now { m.event e with state := .worldConditions } with h | ⟨hmet, h⟩ <;>
      rw [h]
    · exact .started hstate
    · exact .met _ (.inl hstate) hmet

theorem update_advance [Zero F] (t : GameEventTables F) (now : ℕ) (hasleep : NoneAsleep m) (e : ℕ) :
    Advance now (m.event e) ((m.update t now).1.event e) := by
  by_cases hrange : InRange t e
  · by_cases hworld : IsWorld (m.event e).state
    · exact (updated_update t now hasleep hrange hworld).advance
    · rw [update_notWorld t now hrange hworld]
      exact .stay
  · rw [(update_other t now m hrange).1]
    exact .stay

theorem handleQuestComplete_active [Add F] (t : GameEventTables F) (m : GameEventMgr F)
    (now quest : ℕ) : (m.handleQuestComplete t now quest).activeEvents = m.activeEvents := by
  unfold handleQuestComplete
  dsimp only
  split
  · rfl
  · split
    · rfl
    · split
      · rfl
      · split
        · rw [checkOneGameEventConditions_eq]
          rfl
        · rfl

/-- A completed quest brings at most its event further, from its conditions. -/
theorem handleQuestComplete_advance [Add F] (t : GameEventTables F) (m : GameEventMgr F)
    (now quest e : ℕ) :
    (m.handleQuestComplete t now quest).event e = m.event e ∨
      (m.event e).state = .worldConditions ∧
        Advance now (m.event e) ((m.handleQuestComplete t now quest).event e) := by
  unfold handleQuestComplete
  dsimp only
  split
  · exact .inl rfl
  · rename_i eventId _ _ _
    split
    · exact .inl rfl
    · rename_i hrunning
      have hstate : (m.event eventId).state = .worldConditions := by
        by_contra h
        exact hrunning (.inr h)
      split
      · exact .inl rfl
      · split
        · rw [checkOneGameEventConditions_eq, setEvent, setEvent]
          dsimp only
          by_cases he : e = eventId
          · subst he
            refine .inr ⟨hstate, ?_⟩
            rw [update_self, update_self]
            generalize List.map _ _ = conditions
            rcases checkedData_cases now { m.event e with conditions := conditions } with
              h | ⟨hmet, h⟩ <;> rw [h]
            · exact .counted _ hstate
            · exact .met _ (.inr hstate) hmet
          · exact .inl (by rw [Function.update_of_ne he, Function.update_of_ne he])
        · exact .inl rfl

end Requests

/-! ## Runs -/

inductive PhaseRequest
  | update (now : ℕ)
  | questComplete (now questId : ℕ)

def PhaseRequest.now : PhaseRequest → ℕ
  | .update now => now
  | .questComplete now _ => now

/-- The events, and when each was last seen to have met its conditions. -/
structure PhaseHistory (F : Type*) where
  mgr : GameEventMgr F
  met : ℕ → Option ℕ := fun _ => none

section Runs

variable [LT F] [DecidableLT F] [Add F] [Zero F]

def phaseAnswer (t : GameEventTables F) (m : GameEventMgr F) : PhaseRequest → GameEventMgr F
  | .update now => (m.update t now).1
  | .questComplete now questId => m.handleQuestComplete t now questId

def phaseStep (t : GameEventTables F) (s : PhaseHistory F) (r : PhaseRequest) : PhaseHistory F where
  mgr := phaseAnswer t s.mgr r
  met := fun e =>
    if (s.mgr.event e).state ≠ .worldNextphase ∧
        ((phaseAnswer t s.mgr r).event e).state = .worldNextphase then some r.now
    else s.met e

/-- No inactive event is among the active ones, and the events before their length have no time
set. -/
structure Loaded (m : GameEventMgr F) : Prop where
  asleep : NoneAsleep m
  nextstart : ∀ e, (m.event e).state = .worldInactive ∨ (m.event e).state = .worldConditions →
    (m.event e).nextstart = 0

/-- What a request does to the phases. -/
structure PhaseLaws (t : GameEventTables F) (s : PhaseHistory F) (r : PhaseRequest) : Prop where
  forward : ∀ e, Forward (s.mgr.event e).state ((phaseStep t s r).mgr.event e).state
  active : ∀ now, r = .update now → ∀ e, InRange t e → IsWorld (s.mgr.event e).state →
    (e ∈ (phaseStep t s r).mgr.activeEvents ↔
      ((phaseStep t s r).mgr.event e).state = .worldConditions ∨
        ((phaseStep t s r).mgr.event e).state = .worldNextphase)
  leaves : ∀ e, (s.mgr.event e).state = .worldInactive →
    ((phaseStep t s r).mgr.event e).state ≠ .worldInactive →
    ∀ p ∈ (s.mgr.event e).prerequisiteEvents, FarEnough r.now ((phaseStep t s r).mgr.event p)
  met : ∀ e, (s.mgr.event e).state ≠ .worldNextphase →
    ((phaseStep t s r).mgr.event e).state = .worldNextphase →
    ConditionsMet ((phaseStep t s r).mgr.event e)

/-- The event finishes no earlier than its length after its conditions were met, unless the run
began after they were. -/
def FinishesOnTime (t : GameEventTables F) (m₀ : GameEventMgr F) (e : ℕ) (s : PhaseHistory F)
    (r : PhaseRequest) : Prop :=
  (s.mgr.event e).state ≠ .worldFinished →
  ((phaseStep t s r).mgr.event e).state = .worldFinished →
  (m₀.event e).state = .worldNextphase ∨
    ∃ met, s.met e = some met ∧ met + (m₀.event e).length * 60 ≤ r.now

variable {t : GameEventTables F} {now : ℕ}

theorem Loaded.advance (h : Loaded m) (t : GameEventTables F) (r : PhaseRequest) (e : ℕ) :
    Advance r.now (m.event e) ((phaseAnswer t m r).event e) := by
  cases r with
  | update now => exact update_advance t now h.asleep e
  | questComplete now quest =>
    rcases handleQuestComplete_advance t m now quest e with hsame | ⟨-, hadvance⟩
    · rw [phaseAnswer, hsame]
      exact .stay
    · exact hadvance

omit [DecidableLT F] [Add F] [Zero F] in
theorem Advance.ne_inactive (h : Advance now data data') (hne : data.state ≠ .worldInactive) :
    data'.state ≠ .worldInactive := by
  cases h with
  | stay => exact hne
  | counted _ _ => exact hne
  | started h => exact absurd h hne
  | met _ _ _ => simp
  | finished _ => simp

omit [DecidableLT F] [Add F] [Zero F] in
/-- The events before their length go on without a time set. -/
theorem Advance.nextstart (h : Advance now data data')
    (hzero : data.state = .worldInactive ∨ data.state = .worldConditions → data.nextstart = 0)
    (h' : data'.state = .worldInactive ∨ data'.state = .worldConditions) : data'.nextstart = 0 := by
  cases h with
  | stay => exact hzero h'
  | counted _ h => exact hzero (.inr h)
  | started h => exact hzero (.inl h)
  | met _ _ _ => simp at h'
  | finished _ => rfl

omit [Add F] [Zero F] in
theorem Updated.active_iff {m' : GameEventMgr F} (h : Updated t now m m' e) :
    e ∈ m'.activeEvents ↔
      (m'.event e).state = .worldConditions ∨ (m'.event e).state = .worldNextphase := by
  cases h with
  | finished hstate hevent hactive | sleep hstate hevent hactive =>
    rw [hevent, hstate]
    exact iff_of_false hactive (by decide)
  | finish _ hevent hactive =>
    rw [hevent, finishedData]
    exact iff_of_false hactive (by simp)
  | wait hstate _ hevent hactive =>
    rw [hevent, hstate]
    exact iff_of_true hactive (by decide)
  | conditions hstate hevent hactive =>
    rw [hevent]
    exact iff_of_true hactive (checkedData_state hstate)
  | start hstate _ hevent hactive =>
    rw [hevent, startedData, if_pos hstate]
    exact iff_of_true hactive (checkedData_state rfl)

/-- No request puts an inactive event among the active ones. -/
theorem Loaded.step (h : Loaded m) (t : GameEventTables F) (r : PhaseRequest) :
    Loaded (phaseAnswer t m r) := by
  refine ⟨fun e he => ?_, fun e => (h.advance t r e).nextstart (h.nextstart e)⟩
  cases r with
  | update now =>
    by_cases hrange : InRange t e
    · by_cases hworld : IsWorld (m.event e).state
      · rcases (updated_update t now h.asleep hrange hworld).active_iff.1 he with h' | h' <;>
          rw [phaseAnswer, h'] <;> decide
      · rw [phaseAnswer, update_notWorld t now hrange hworld]
        intro h'
        rw [h'] at hworld
        exact hworld (by decide)
    · obtain ⟨hevent, hactive⟩ := update_other t now m hrange
      rw [phaseAnswer, hevent]
      exact h.asleep e (hactive.1 he)
  | questComplete now quest =>
    rw [phaseAnswer, handleQuestComplete_active] at he
    rcases handleQuestComplete_advance t m now quest e with hsame | ⟨hstate, hadvance⟩
    · rw [phaseAnswer, hsame]
      exact h.asleep e he
    · exact hadvance.ne_inactive (by rw [hstate]; decide)

omit [Add F] in
/-- What was far enough in the middle of the pass still is after the update. -/
theorem farEnough_update {p : ℕ} {mid : GameEventMgr F} (hasleep : NoneAsleep m)
    (hmid : Between t now m mid) (h : FarEnough now (mid.event p)) :
    FarEnough now ((m.update t now).1.event p) := by
  have hstate := h.1
  rcases hmid.event p with hsame | ⟨hrange, hpassed⟩
  · rw [hsame] at h hstate
    by_cases hrange : InRange t p
    · have hworld : IsWorld (m.event p).state := by
        rcases hstate with h | h <;> rw [h] <;> decide
      cases updated_update t now hasleep hrange hworld with
      | finished _ hevent _ => rwa [hevent]
      | finish _ hevent _ =>
        rw [hevent]
        exact ⟨.inr rfl, Nat.zero_le now⟩
      | wait _ _ hevent _ => rwa [hevent]
      | conditions h' _ _ | sleep h' _ _ | start h' _ _ _ => simp [h'] at hstate
    · rwa [(update_other t now m hrange).1]
  · rw [hpassed] at h hstate
    by_cases hworld : IsWorld (m.event p).state
    · cases updated_update t now hasleep hrange hworld with
      | finished h' hevent _ | sleep h' hevent _ =>
        rwa [passedData_of_ne (not_due (by rw [h']; decide)) (by rw [h']; decide), ← hevent] at h
      | finish _ hevent _ =>
        rw [hevent]
        exact ⟨.inr rfl, Nat.zero_le now⟩
      | wait h' hnext hevent _ =>
        rwa [passedData_of_ne (fun hdue => absurd hdue.2 (not_le.2 hnext)) (by rw [h']; decide),
          ← hevent] at h
      | conditions h' hevent _ =>
        rwa [passedData, if_neg (not_due (by rw [h']; decide)), if_pos h', ← hevent] at h
      | start h' _ _ _ =>
        rw [passedData_of_ne (not_due (by rw [h']; decide)) (by rw [h']; decide), h'] at hstate
        simp at hstate
    · have hne : ∀ state, IsWorld state → (m.event p).state ≠ state := fun _ hs h' =>
        hworld (h' ▸ hs)
      rwa [passedData_of_ne (not_due (hne _ (by decide))) (hne _ (by decide)),
        ← update_notWorld t now hrange hworld] at h

/-- What every request does to the phases. -/
theorem Loaded.laws {s : PhaseHistory F} (h : Loaded s.mgr) (t : GameEventTables F)
    (r : PhaseRequest) : PhaseLaws t s r where
  forward := fun e => (h.advance t r e).forward
  active := by
    rintro now rfl e hrange hworld
    exact (updated_update t now h.asleep hrange hworld).active_iff
  leaves := by
    intro e hstate hleaves p hp
    cases r with
    | update now =>
      by_cases hrange : InRange t e
      · cases updated_update t now h.asleep hrange (by rw [hstate]; decide) with
        | finished h' _ _ | wait h' _ _ _ | conditions h' _ _ => rw [hstate] at h'; cases h'
        | finish h' _ _ => rw [Due, hstate] at h'; cases h'.1
        | sleep _ hevent _ => exact absurd (hstate ▸ congrArg _ hevent) hleaves
        | start _ hprerequisites _ _ =>
          obtain ⟨mid, hmid, hfar⟩ := hprerequisites
          exact farEnough_update h.asleep hmid (hfar p hp)
      · exact absurd (hstate ▸ congrArg _ (update_other t now s.mgr hrange).1) hleaves
    | questComplete now quest =>
      rcases handleQuestComplete_advance t s.mgr now quest e with hsame | ⟨h', -⟩
      · exact absurd (hstate ▸ congrArg _ hsame) hleaves
      · rw [hstate] at h'
        cases h'
  met := by
    intro e hne hnext
    have hadvance := h.advance t r e
    change ((phaseAnswer t s.mgr r).event e).state = _ at hnext
    change ConditionsMet ((phaseAnswer t s.mgr r).event e)
    generalize (phaseAnswer t s.mgr r).event e = data' at hadvance hnext
    cases hadvance with
    | stay | counted _ _ => exact absurd hnext hne
    | started _ => cases hnext
    | met _ _ hmet => exact hmet
    | finished _ => cases hnext

/-! ### The time of the end -/

/-- The invariant of an event whose length fits. -/
structure OnTime (m₀ : GameEventMgr F) (e : ℕ) (s : PhaseHistory F) : Prop where
  length : (s.mgr.event e).length = (m₀.event e).length
  waits : (s.mgr.event e).state = .worldNextphase → (m₀.event e).state = .worldNextphase ∨
    ∃ met, s.met e = some met ∧
      met + (m₀.event e).length * 60 ≤ (s.mgr.event e).nextstart

omit [DecidableLT F] [Add F] [Zero F] in
/-- The time kept for an event that waits is far enough after `met`. -/
theorem Advance.onTime {length : ℕ} {met : Option ℕ} {began : Prop} (h : Advance now data data')
    (hfits : length * 60 < 2 ^ 32) (hlength : data.length = length)
    (hzero : data.state = .worldInactive ∨ data.state = .worldConditions → data.nextstart = 0)
    (hwaits : data.state = .worldNextphase →
      began ∨ ∃ x, met = some x ∧ x + length * 60 ≤ data.nextstart) :
    data'.length = length ∧
    (data'.state = .worldNextphase → began ∨ ∃ x,
      (if data.state ≠ .worldNextphase ∧ data'.state = .worldNextphase then some now else met) =
        some x ∧ x + length * 60 ≤ data'.nextstart) ∧
    (data.state ≠ .worldFinished → data'.state = .worldFinished →
      began ∨ ∃ x, met = some x ∧ x + length * 60 ≤ now) := by
  cases h with
  | stay =>
    rw [if_neg fun h => h.1 h.2]
    exact ⟨hlength, hwaits, fun hne heq => absurd heq hne⟩
  | counted _ h =>
    refine ⟨hlength, fun h' => ?_, fun hne heq => absurd heq hne⟩
    rw [h] at h'
    cases h'
  | started h =>
    refine ⟨hlength, fun h' => ?_, fun _ h' => ?_⟩ <;> cases h'
  | met conditions h _ =>
    have hne : data.state ≠ .worldNextphase := by
      rcases h with h | h <;> rw [h] <;> decide
    have hnext : (waitingData now { data with conditions := conditions }).nextstart =
        now + toU32 (data.length * 60) := if_pos (hzero h)
    have hseconds : toU32 ((length : ℤ) * 60) = length * 60 := by
      exact_mod_cast toU32_of_lt hfits
    refine ⟨hlength, fun _ => .inr ⟨now, if_pos ⟨hne, rfl⟩, ?_⟩, fun _ h' => ?_⟩
    · rw [hnext, hlength, hseconds]
    · cases h'
  | finished h =>
    refine ⟨hlength, fun h' => ?_, fun _ _ => ?_⟩
    · cases h'
    · rcases hwaits h.1 with h' | ⟨x, hx, hle⟩
      · exact .inl h'
      · exact .inr ⟨x, hx, hle.trans h.2⟩

/-- The step of a request keeps the invariant, and the event finishes on time in it. -/
theorem OnTime.step {m0 : GameEventMgr F} (hfits : (m0.event e).length * 60 < 2 ^ 32)
    {s : PhaseHistory F} (hloaded : Loaded s.mgr) (h : OnTime m0 e s) (t : GameEventTables F)
    (r : PhaseRequest) : OnTime m0 e (phaseStep t s r) ∧ FinishesOnTime t m0 e s r := by
  obtain ⟨hlength, hwaits, hfinish⟩ := (hloaded.advance t r e).onTime hfits h.length
    (hloaded.nextstart e) h.waits
  exact ⟨⟨hlength, hwaits⟩, hfinish⟩

end Runs

end GameEventMgr

open GameEventMgr in
/-- In every run of updates and completed quests the world events keep to their phases, and those
whose length in seconds fits in 32 bits finish no earlier than their length after their conditions
were met. -/
theorem worldEvents_run {F : Type*} [LT F] [DecidableLT F] [Add F] [Zero F]
    (t : GameEventTables F) {m₀ : GameEventMgr F} (h₀ : Loaded m₀) (rs : List PhaseRequest) :
    Along (phaseStep t) (PhaseLaws t) { mgr := m₀ } rs ∧
    ∀ e, (m₀.event e).length * 60 < 2 ^ 32 →
      Along (phaseStep t) (FinishesOnTime t m₀ e) { mgr := m₀ } rs := by
  have hall : Along (phaseStep t) (fun _ _ => True) { mgr := m₀ } rs :=
    along_iff.2 fun _ _ _ _ => trivial
  constructor
  · have hstep : ∀ s r, Loaded s.mgr → True →
        Loaded (phaseStep t s r).mgr ∧ PhaseLaws t s r := fun s r h _ =>
      ⟨h.step t r, h.laws t r⟩
    exact Along.of_invariant hstep h₀ hall
  · intro e hfits
    have hstep : ∀ s r, Loaded s.mgr ∧ OnTime m₀ e s → True →
        (Loaded (phaseStep t s r).mgr ∧ OnTime m₀ e (phaseStep t s r)) ∧
          FinishesOnTime t m₀ e s r := fun s r h _ =>
      have hontime := h.2.step hfits h.1 t r
      ⟨⟨h.1.step t r, hontime.1⟩, hontime.2⟩
    exact Along.of_invariant hstep ⟨h₀, rfl, fun h => .inl h⟩ hall

/-- One event that requires another. -/
def chained : GameEventTables ℕ where
  size := 3
  questToEventConditions := fun quest => if quest = 100 then some (1, 7, 2) else none

/-- Event `1` waits for three of condition `7`, event `2` for event `1`. -/
def chainedAtStart (length : ℕ) : GameEventMgr ℕ where
  event := fun e =>
    if e = 1 then
      { length := length, state := .worldConditions, conditions := [(7, { reqNum := 3, done := 0 })] }
    else { length := length, state := .worldInactive, prerequisiteEvents := [1] }

open GameEventMgr in
theorem loaded_chainedAtStart (length : ℕ) : Loaded (chainedAtStart length) := by
  refine ⟨fun e he => absurd he (Finset.notMem_empty e), fun e _ => ?_⟩
  unfold chainedAtStart
  dsimp only
  split <;> rfl

open GameEventMgr in
/-- Two quests meet the condition, at `120`; after its length the first event is finished, and the
second one starts. -/
theorem worldEvents_run_chained :
    Along (phaseStep chained) (PhaseLaws chained) { mgr := chainedAtStart 10 }
      [.update 100, .questComplete 110 100, .questComplete 120 100, .update 719, .update 720] ∧
    Along (phaseStep chained) (FinishesOnTime chained (chainedAtStart 10) 1)
      { mgr := chainedAtStart 10 }
      [.update 100, .questComplete 110 100, .questComplete 120 100, .update 719, .update 720] ∧
    ((run (phaseStep chained) { mgr := chainedAtStart 10 }
      [.update 100, .questComplete 110 100, .questComplete 120 100, .update 719,
        .update 720]).mgr.event 1).state = .worldFinished := by
  obtain ⟨hlaws, hontime⟩ := worldEvents_run chained (loaded_chainedAtStart 10)
    [.update 100, .questComplete 110 100, .questComplete 120 100, .update 719, .update 720]
  exact ⟨hlaws, hontime 1 (by decide), by decide⟩

open GameEventMgr in
/-- An event of `71582789` minutes is over `44` seconds after its conditions are met. -/
theorem update_finishes_early :
    ¬Along (phaseStep chained) (FinishesOnTime chained (chainedAtStart 71582789) 1)
      { mgr := chainedAtStart 71582789 }
      [.update 100, .questComplete 110 100, .questComplete 120 100, .update 164] := by
  rintro ⟨-, -, -, hlast, -⟩
  rcases hlast (by decide) (by decide) with h | ⟨met, hmet, hle⟩
  · revert h
    decide
  · obtain rfl : met = 120 := Option.some.inj (hmet.symm.trans (show _ = some 120 by decide))
    revert hle
    decide

end MistyWorld
