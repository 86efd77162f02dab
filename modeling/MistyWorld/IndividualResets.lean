import MistyWorld.InstanceReset

/-!
# The resets of single instances

An instance with a reset time of its own is reset two hours after the last of its creatures
respawns. `LoadResetTimes` updates the stored times from the last respawns, by one query for all
instances, and queues an event of type 0 for each instance whose time is to come. `ScheduleReset`
takes the event out of the queue again when a player enters.

The loop over the last respawns asks the query of the instances for its next row, so it sees one
of them. And an event has 16 bits for its instance, by which alone it is found, while a warning or a
reset of a map has the number 0, or the one of an instance of the map. So the right instances are
reset at the right times, and a cancellation takes no other event, exactly when the stored times are
the right ones but for the first respawn, the numbers of the instances have 16 bits, and an event of
another kind or instance is only found after one of the instance itself
(`individual_resets_iff`).
-/

open List

namespace MistyWorld

/-- A row of `creature_respawn`. -/
structure CreatureRespawn where
  respawnTime : ℕ
  instanceId : ℕ

/-- The time of the last respawn of an instance, if it has one. -/
def lastRespawn (respawns : List CreatureRespawn) (instanceId : ℕ) : Option ℕ :=
  ((respawns.filter fun r => r.instanceId = instanceId).map CreatureRespawn.respawnTime).max?

/-- The rows answer `CHAR_SEL_MAX_CREATURE_RESPAWNS` : the last respawn of each instance, in any
order. -/
structure IsMaxRespawns (respawns : List CreatureRespawn) (rows : List MaxRespawnRow) : Prop where
  nodup : (rows.map MaxRespawnRow.instanceId).Nodup
  mem_iff : ∀ row, row ∈ rows ↔
    0 < row.instanceId ∧ lastRespawn respawns row.instanceId = some row.time

/-- The time at which an instance is to be reset. -/
def individualResetTime (respawns : List CreatureRespawn) (row : InstanceRow) : ℕ :=
  match lastRespawn respawns row.id with
  | some time => time + 2 * 3600
  | none => row.resettime

/-- What `_ResetInstance` is called with for an event. -/
def InstResetEvent.resetInstance (event : InstResetEvent) : ℕ × ℕ :=
  (event.mapid, event.instanceId)

namespace ResetSchedule

variable {cfg : ResetConfig} {tables : ResetTables} {respawns : List CreatureRespawn} {now : ℕ}
  {s : ResetSchedule}

/-! ## The times -/

/-- The time of an instance after the loop over the last respawns. -/
def loadedTime (tables : ResetTables) (row : InstanceRow) : ℕ :=
  match tables.maxRespawns with
  | [] => row.resettime
  | respawn :: _ =>
    if respawn.instanceId = row.id then (respawn.time + 2 * 3600) % 2 ^ 32 else row.resettime

theorem instResetTime_eq (tables : ResetTables) :
    instResetTime tables = (tables.instances.filter fun row => row.resettime ≠ 0).map fun row =>
      { row with resettime := loadedTime tables row } := by
  refine map_congr_left fun row _ => ?_
  cases hrows : tables.maxRespawns with
  | nil => simp only [loadedTime, hrows]
  | cons respawn rest =>
    simp only [loadedTime, hrows]
    split <;> rfl

theorem mem_instResetTime {row : InstanceRow} :
    row ∈ instResetTime tables ↔ ∃ stored ∈ tables.instances, stored.resettime ≠ 0 ∧
      { stored with resettime := loadedTime tables stored } = row := by
  simp only [instResetTime_eq, mem_map, mem_filter, decide_eq_true_eq, and_assoc]

/-- The instance of the first row has no overflow, and the other ones have the right time stored. -/
def TimeMeets (tables : ResetTables) (respawns : List CreatureRespawn) (row : InstanceRow) : Prop :=
  ∀ time, lastRespawn respawns row.id = some time →
    if tables.maxRespawns.head?.map MaxRespawnRow.instanceId = some row.id then
      time + 2 * 3600 < 2 ^ 32
    else
      row.resettime = time + 2 * 3600

theorem loadedTime_eq_iff (hanswer : IsMaxRespawns respawns tables.maxRespawns)
    (row : InstanceRow) :
    loadedTime tables row = individualResetTime respawns row ↔ TimeMeets tables respawns row := by
  cases hlast : lastRespawn respawns row.id with
  | none =>
    have hmeets : TimeMeets tables respawns row := fun time htime => nomatch hlast.symm.trans htime
    refine iff_of_true ?_ hmeets
    rw [individualResetTime, hlast, loadedTime]
    split
    · rfl
    · next respawn rest hrows =>
      refine if_neg fun hid => ?_
      have h := ((hanswer.mem_iff respawn).1 (hrows ▸ mem_cons_self)).2
      rw [hid, hlast] at h
      cases h
  | some time =>
    have hmeets : TimeMeets tables respawns row ↔
        if tables.maxRespawns.head?.map MaxRespawnRow.instanceId = some row.id then
          time + 2 * 3600 < 2 ^ 32
        else
          row.resettime = time + 2 * 3600 :=
      ⟨fun h => h time hlast, fun h time' htime' => by
        obtain rfl := Option.some.inj (hlast.symm.trans htime')
        exact h⟩
    rw [hmeets, individualResetTime, hlast, loadedTime]
    split
    · next hrows => simp [hrows]
    · next respawn rest hrows =>
      simp only [hrows, List.head?_cons, Option.map_some, Option.some.injEq]
      by_cases hid : respawn.instanceId = row.id
      · have h := ((hanswer.mem_iff respawn).1 (hrows ▸ mem_cons_self)).2
        rw [hid, hlast] at h
        obtain rfl := Option.some.inj h
        rw [if_pos hid, if_pos hid]
        exact ⟨fun h => h ▸ Nat.mod_lt _ (by decide), Nat.mod_eq_of_lt⟩
      · rw [if_neg hid, if_neg hid]

/-! ## The events -/

/-- The events of single instances. -/
def individualEvents (s : ResetSchedule) : List (ℤ × InstResetEvent) :=
  s.queue.filter fun x => x.2.type = 0

/-- The event that `LoadResetTimes` queues for an instance, with its time. -/
def individualEvent (row : InstanceRow) : ℤ × InstResetEvent :=
  (row.resettime, instResetEvent 0 row.key row.id)

theorem individualEvents_scheduleReset {event : InstResetEvent} (h : event.type ≠ 0) (time : ℤ)
    (s : ResetSchedule) : (s.scheduleReset true time event).individualEvents = s.individualEvents :=
  TimeQueue.filter_insert_of_neg (by simp [h]) s.queue

theorem individualEvents_loadMapDifficulty (s : ResetSchedule) (d : MapDifficulty) :
    (loadMapDifficulty cfg tables now s d).individualEvents = s.individualEvents := by
  rw [loadMapDifficulty]
  split
  · rfl
  · have htype : nextType (startTime cfg d (s.resetTimes d.key) now) now ≠ 0 :=
      Nat.ne_of_gt (nextType_mem _ now).1
    refine List.foldlRecOn
      (motive := fun t : ResetSchedule => t.individualEvents = s.individualEvents) _ _ ?_
      fun t ht row _ => ?_
    · exact individualEvents_scheduleReset htype _ _
    · exact (individualEvents_scheduleReset htype _ t).trans ht

theorem individualEvents_loadInstances (rows : List InstanceRow) : ∀ s : ResetSchedule,
    (rows.foldl (fun s row =>
      if row.resettime > now then
        s.scheduleReset true row.resettime (instResetEvent 0 row.key row.id)
      else
        s) s).individualEvents.Perm
      (((rows.filter fun row => now < row.resettime).map individualEvent) ++
        s.individualEvents) := by
  induction rows with
  | nil => exact fun s => .refl _
  | cons row rows ih =>
    intro s
    rw [foldl_cons]
    refine (ih _).trans ?_
    by_cases hfuture : row.resettime > now
    · rw [if_pos hfuture, filter_cons_of_pos (by simpa using hfuture), map_cons]
      have hinsert : (s.scheduleReset true row.resettime
          (instResetEvent 0 row.key row.id)).individualEvents.Perm
          (individualEvent row :: s.individualEvents) :=
        (TimeQueue.insert_perm _ s.queue).filter _
      exact (hinsert.append_left _).trans perm_middle
    · rw [if_neg hfuture, filter_cons_of_neg (by simpa using hfuture)]

/-- An event is queued for each instance whose time is to come. -/
theorem individualEvents_loadResetTimes :
    (loadResetTimes cfg tables now).individualEvents.Perm
      (((instResetTime tables).filter fun row => now < row.resettime).map individualEvent) := by
  have hloaded := @individualEvents_loadInstances now (instResetTime tables) { now := now }
  refine List.Perm.trans (.of_eq ?_) (hloaded.trans (.of_eq (append_nil _)))
  rw [loadResetTimes]
  have hglobal : ∀ s : ResetSchedule, (cfg.mapDifficulties.foldl
      (loadMapDifficulty cfg tables now) s).individualEvents = s.individualEvents := fun s =>
    List.foldlRecOn (motive := fun t : ResetSchedule => t.individualEvents = s.individualEvents)
      _ _ rfl fun t ht d _ => (individualEvents_loadMapDifficulty t d).trans ht
  rw [hglobal]
  refine List.foldlRecOn (motive := fun t : ResetSchedule => t.individualEvents = _) _ _ rfl
    fun t ht row _ => ?_
  rw [← ht]
  split <;> rfl

/-! ## `Update` -/

/-- The events for which the loop of `Update` calls `_ResetInstance`, the first one first. -/
def firedEvents (cfg : ResetConfig) : ℕ → ResetSchedule → List (ℤ × InstResetEvent)
  | 0, _ => []
  | turns + 1, s =>
    match s.queue with
    | [] => []
    | (time, event) :: rest =>
      if time ≥ s.now then
        []
      else
        (if event.type = 0 then [(time, event)] else []) ++
          firedEvents cfg turns (s.processFirst cfg time event rest)

theorem now_resetOrWarnAll (s : ResetSchedule) (key : MapDiff) (warn : Bool) (resetTime : ℕ) :
    (s.resetOrWarnAll cfg key warn resetTime).now = s.now := by
  rw [resetOrWarnAll]
  split
  · rfl
  · split
    · split
      · rfl
      · split <;> rfl
    · rfl

theorem now_processFirst (s : ResetSchedule) (time : ℤ) (event : InstResetEvent)
    (rest : List (ℤ × InstResetEvent)) : (s.processFirst cfg time event rest).now = s.now := by
  rw [processFirst]
  split
  · rfl
  · split
    · exact now_resetOrWarnAll s _ _ _
    · exact now_resetOrWarnAll s _ _ _

/-- One of two events that are not of single instances is erased from the front. -/
theorem filter_tail_insert {p : ℤ × InstResetEvent → Bool} {x y : ℤ × InstResetEvent}
    (hx : p x = false) (hy : p y = false) (rest : List (ℤ × InstResetEvent)) :
    (TimeQueue.insert x (y :: rest)).tail.filter p = rest.filter p := by
  rw [TimeQueue.insert]
  split
  · exact TimeQueue.filter_insert_of_neg hx rest
  · exact filter_cons_of_neg (by simp [hy])

theorem queue_resetOrWarnAll (s : ResetSchedule) (key : MapDiff) (warn : Bool) (resetTime : ℕ) :
    (s.resetOrWarnAll cfg key warn resetTime).queue = s.queue ∨
      ∃ time, (s.resetOrWarnAll cfg key warn resetTime).queue =
        TimeQueue.insert (time, instResetEvent 1 key 0) s.queue := by
  rw [resetOrWarnAll]
  split
  · exact .inl rfl
  · cases warn with
    | true => exact .inl rfl
    | false =>
      simp only [Bool.not_false, if_true]
      split
      · exact .inl rfl
      · split
        · exact .inl rfl
        · exact .inr ⟨_, rfl⟩

/-- A turn takes the event of a single instance, or none. -/
theorem individualEvents_processFirst {time : ℤ} {event : InstResetEvent}
    {rest : List (ℤ × InstResetEvent)} (hqueue : s.queue = (time, event) :: rest) :
    (s.processFirst cfg time event rest).individualEvents =
      rest.filter fun x => x.2.type = 0 := by
  rw [processFirst]
  by_cases htype : event.type = 0
  · rw [if_pos htype]
    rfl
  rw [if_neg htype]
  by_cases hfour : event.type = 4
  · have hwarn : ¬(event.type ≠ 4) := not_not_intro hfour
    simp only [if_neg hwarn, individualEvents]
    rcases @queue_resetOrWarnAll cfg s event.key (event.type ≠ 4) (s.resetTimes event.key)
      with heq | ⟨time', heq⟩
    · rw [heq, hqueue]
      rfl
    · rw [heq, hqueue]
      exact filter_tail_insert (by simp [instResetEvent]) (by simp [htype]) rest
  · simp only [ne_eq, hfour, not_false_eq_true, if_true, decide_true, individualEvents,
      resetOrWarnAll_warn, hqueue, tail_cons]
    exact filter_tail_insert (by simp) (by simp) rest

/-- `Update` calls `_ResetInstance` for the events of single instances that are due, and leaves the
other ones. -/
theorem firedEvents_append (turns : ℕ) : ∀ s : ResetSchedule,
    firedEvents cfg turns s ++ (updateLoop cfg turns s).individualEvents = s.individualEvents ∧
      ∀ x ∈ firedEvents cfg turns s, x.1 < s.now := by
  induction turns with
  | zero => exact fun s => ⟨rfl, fun x hx => absurd hx not_mem_nil⟩
  | succ turns ih =>
    intro s
    cases hqueue : s.queue with
    | nil =>
      simp only [firedEvents, updateLoop, hqueue, nil_append]
      exact ⟨trivial, fun x hx => absurd hx not_mem_nil⟩
    | cons x rest =>
      obtain ⟨time, event⟩ := x
      simp only [firedEvents, updateLoop, hqueue]
      by_cases hdue : time ≥ s.now
      · rw [if_pos hdue, if_pos hdue]
        exact ⟨rfl, fun x hx => absurd hx not_mem_nil⟩
      · rw [if_neg hdue, if_neg hdue]
        obtain ⟨happend, hbefore⟩ := ih (s.processFirst cfg time event rest)
        rw [individualEvents_processFirst hqueue] at happend
        rw [now_processFirst] at hbefore
        rw [append_assoc, happend, individualEvents, hqueue, filter_cons]
        refine ⟨?_, fun x hx => ?_⟩
        · by_cases htype : event.type = 0
          · simp [htype]
          · simp [htype]
        · rcases mem_append.1 hx with hfirst | hrest
          · split at hfirst
            · rw [mem_singleton.1 hfirst]
              exact Int.not_le.1 hdue
            · exact absurd hfirst not_mem_nil
          · exact hbefore x hrest

/-! ## Cancellations -/

/-- An event of a single instance, for an instance. -/
def Own (instanceId : ℕ) (x : ℤ × InstResetEvent) : Prop :=
  x.2.type = 0 ∧ x.2.instanceId = instanceId

/-- `ScheduleReset` takes at most an event of the instance out of the queue. -/
def CancelsOwn (s : ResetSchedule) (time : ℤ) (key : MapDiff) (instanceId : ℕ) : Prop :=
  (s.scheduleReset false time (instResetEvent 0 key instanceId)).queue = s.queue ∨
    ∃ pre x post, s.queue = pre ++ x :: post ∧ Own instanceId x ∧
      (s.scheduleReset false time (instResetEvent 0 key instanceId)).queue = pre ++ post

/-- An event with the same 16 bits, but of another instance or of a map, is found after one of the
instance itself : one that alone is at the given time, or that is earlier in the queue, and at the
given time if the other one is. -/
def CancelMeets (s : ResetSchedule) (time : ℤ) (instanceId : ℕ) : Prop :=
  ∀ (m : ℕ) (x : ℤ × InstResetEvent), s.queue[m]? = some x →
    x.2.instanceId = instanceId % 2 ^ 16 → ¬Own instanceId x →
    ∃ (n : ℕ) (y : ℤ × InstResetEvent), s.queue[n]? = some y ∧ Own instanceId y ∧
      (y.1 = time ∧ x.1 ≠ time ∨ n < m ∧ (x.1 = time → y.1 = time))

/-- What is taken out of the queue is the first event with the same 16 bits at the given time, or
the first one where there is none at that time. -/
theorem scheduleReset_false_cases (s : ResetSchedule) (time : ℤ) (key : MapDiff) (instanceId : ℕ) :
    ((∀ x ∈ s.queue, x.2.instanceId ≠ instanceId % 2 ^ 16) ∧
      (s.scheduleReset false time (instResetEvent 0 key instanceId)).queue = s.queue) ∨
    ∃ pre x post, s.queue = pre ++ x :: post ∧ x.2.instanceId = instanceId % 2 ^ 16 ∧
      (s.scheduleReset false time (instResetEvent 0 key instanceId)).queue = pre ++ post ∧
      (x.1 = time ∧ (∀ y ∈ pre, y.2.instanceId = instanceId % 2 ^ 16 → y.1 ≠ time) ∨
        (∀ y ∈ s.queue, y.2.instanceId = instanceId % 2 ^ 16 → y.1 ≠ time) ∧
          ∀ y ∈ pre, y.2.instanceId ≠ instanceId % 2 ^ 16) := by
  have hid : (instResetEvent 0 key instanceId).instanceId = instanceId % 2 ^ 16 := rfl
  simp only [scheduleReset, Bool.not_false, if_true, hid]
  split
  · next hany =>
    obtain ⟨z, hz, hat⟩ := any_eq_true.1 hany
    obtain ⟨x, pre, post, hpre, hx, hqueue, herase⟩ := @exists_of_eraseP _
      (fun x => decide (x.1 = time) && decide (x.2.instanceId = instanceId % 2 ^ 16)) _ _ hz hat
    simp only [Bool.and_eq_true, decide_eq_true_eq] at hx
    refine .inr ⟨pre, x, post, hqueue, hx.2, herase, .inl ⟨hx.1, fun y hy hsame htime => ?_⟩⟩
    exact hpre y hy (by simp [hsame, htime])
  · next hnone =>
    have hother : ∀ y ∈ s.queue, y.2.instanceId = instanceId % 2 ^ 16 → y.1 ≠ time := by
      intro y hy hsame htime
      exact hnone (any_eq_true.2 ⟨y, hy, by simp [hsame, htime]⟩)
    by_cases hsome : ∃ z ∈ s.queue, z.2.instanceId = instanceId % 2 ^ 16
    · obtain ⟨z, hz, hsame⟩ := hsome
      obtain ⟨x, pre, post, hpre, hx, hqueue, herase⟩ :=
        exists_of_eraseP (p := fun x => decide (x.2.instanceId = instanceId % 2 ^ 16)) hz
          (decide_eq_true hsame)
      exact .inr ⟨pre, x, post, hqueue, of_decide_eq_true hx, herase,
        .inr ⟨hother, fun y hy heq => hpre y hy (decide_eq_true heq)⟩⟩
    · have hall : ∀ x ∈ s.queue, x.2.instanceId ≠ instanceId % 2 ^ 16 := fun x hx heq =>
        hsome ⟨x, hx, heq⟩
      exact .inl ⟨hall, eraseP_of_forall_not fun x hx => by simpa using hall x hx⟩

/-- Where the events have 16 bits for the instance. -/
theorem cancelsOwn_iff (hbits : ∀ x ∈ s.queue, x.2.instanceId < 2 ^ 16) (time : ℤ) (key : MapDiff)
    (instanceId : ℕ) : s.CancelsOwn time key instanceId ↔ s.CancelMeets time instanceId := by
  have hown : ∀ y ∈ s.queue, Own instanceId y → y.2.instanceId = instanceId % 2 ^ 16 := by
    intro y hy hown
    rw [← hown.2, Nat.mod_eq_of_lt (hbits y hy)]
  rcases scheduleReset_false_cases s time key instanceId with
    ⟨hnone, hsame⟩ | ⟨pre, x, post, hqueue, hx, herase, hfirst⟩
  · refine iff_of_true (.inl hsame) fun m y hy heq => ?_
    exact absurd heq (hnone y (mem_of_getElem? hy))
  have hat : s.queue[pre.length]? = some x := by
    rw [hqueue, List.getElem?_append_right Nat.le.refl, Nat.sub_self, List.getElem?_cons_zero]
  have hpre : ∀ {n : ℕ} {y}, s.queue[n]? = some y → n < pre.length → y ∈ pre := by
    intro n y hy hlt
    rw [hqueue, List.getElem?_append_left hlt] at hy
    exact mem_of_getElem? hy
  have hremoved : s.CancelsOwn time key instanceId ↔ Own instanceId x := by
    constructor
    · rintro (hsame | ⟨pre', x', post', hqueue', hown', herase'⟩)
      · have hlength := congrArg List.length (herase.symm.trans (hsame.trans hqueue))
        simp at hlength
      · have hperm : (x :: (pre ++ post)).Perm (x' :: (pre ++ post)) := by
          refine (perm_middle.symm.trans (.of_eq hqueue.symm)).trans ?_
          rw [herase.symm.trans herase', hqueue']
          exact perm_middle
        have hsingle : [x].Perm [x'] := (perm_append_right_iff (pre ++ post)).1 hperm
        rwa [singleton_perm_singleton.1 hsingle]
    · exact fun h => .inr ⟨pre, x, post, hqueue, h, herase⟩
  rw [hremoved]
  constructor
  · intro hx' m y hy hbits' hnot
    refine ⟨pre.length, x, hat, hx', ?_⟩
    have hne : m ≠ pre.length := by
      rintro rfl
      exact hnot (Option.some.inj (hat.symm.trans hy) ▸ hx')
    rcases hfirst with ⟨htime, hother⟩ | ⟨hother, hnone⟩
    · by_cases hytime : y.1 = time
      · refine .inr ⟨?_, fun _ => htime⟩
        by_contra hle
        exact hother y (hpre hy (by omega)) hbits' hytime
      · exact .inl ⟨htime, hytime⟩
    · refine .inr ⟨?_, fun hytime => ?_⟩
      · by_contra hle
        exact hnone y (hpre hy (by omega)) hbits'
      · exact absurd hytime (hother y (mem_of_getElem? hy) hbits')
  · intro hmeets
    by_contra hnot
    obtain ⟨n, y, hy, hyown, hbefore⟩ := hmeets pre.length x hat hx hnot
    have hmem := mem_of_getElem? hy
    have hybits := hown y hmem hyown
    rcases hfirst with ⟨htime, hother⟩ | ⟨hother, hnone⟩
    · rcases hbefore with ⟨-, hne⟩ | ⟨hlt, hsame⟩
      · exact hne htime
      · exact hother y (hpre hy hlt) hybits (hsame htime)
    · rcases hbefore with ⟨hytime, -⟩ | ⟨hlt, -⟩
      · exact hother y hmem hybits hytime
      · exact hnone y (hpre hy hlt) hybits

/-! ## Instances are reset at their times -/

/-- The instances with a reset time of their own are given the right one by `LoadResetTimes`, each
one whose time is to come has one event, at that time and for that instance, and any later `Update`
resets only such instances, after their times. -/
structure ResetsRight (cfg : ResetConfig) (tables : ResetTables) (respawns : List CreatureRespawn)
    (now : ℕ) : Prop where
  times : ∀ row ∈ tables.instances, row.resettime ≠ 0 →
    { row with resettime := individualResetTime respawns row } ∈ instResetTime tables
  pending : ∀ row ∈ tables.instances, row.resettime ≠ 0 → now < individualResetTime respawns row →
    ∃ event, ((loadResetTimes cfg tables now).individualEvents.filter fun x =>
        x.2.instanceId = row.id % 2 ^ 16) = [((individualResetTime respawns row : ℤ), event)] ∧
      event.resetInstance = (row.map, row.id)
  fires : ∀ (later turns : ℕ),
    ∀ x ∈ firedEvents cfg turns { loadResetTimes cfg tables now with now := later },
      x.1 < later ∧ ∃ row ∈ tables.instances, row.resettime ≠ 0 ∧
        now < individualResetTime respawns row ∧ x.1 = individualResetTime respawns row ∧
        x.2.resetInstance = (row.map, row.id)

/-- When an instance is reset at its time. -/
def RowMeets (tables : ResetTables) (respawns : List CreatureRespawn) (now : ℕ)
    (row : InstanceRow) : Prop :=
  TimeMeets tables respawns row ∧ (now < individualResetTime respawns row → row.id < 2 ^ 16)

theorem mem_instResetTime_iff (hids : (tables.instances.map InstanceRow.id).Nodup)
    {row : InstanceRow} (hrow : row ∈ tables.instances) (hown : row.resettime ≠ 0) (time : ℕ) :
    { row with resettime := time } ∈ instResetTime tables ↔ loadedTime tables row = time := by
  rw [mem_instResetTime]
  constructor
  · rintro ⟨stored, hstored, -, heq⟩
    have hid : stored.id = row.id := (InstanceRow.mk.inj heq).1
    obtain rfl := inj_on_of_nodup_map hids hstored hrow hid
    exact (InstanceRow.mk.inj heq).2.2.2
  · rintro rfl
    exact ⟨row, hrow, hown, rfl⟩

/-- The queued events are those of the instances whose right time is to come. -/
theorem mem_individualEvents
    (hmeets : ∀ row ∈ tables.instances, row.resettime ≠ 0 → RowMeets tables respawns now row)
    (hanswer : IsMaxRespawns respawns tables.maxRespawns) {x : ℤ × InstResetEvent}
    (hx : x ∈ (loadResetTimes cfg tables now).individualEvents) :
    ∃ row ∈ tables.instances, row.resettime ≠ 0 ∧ now < individualResetTime respawns row ∧
      x.1 = individualResetTime respawns row ∧ x.2.resetInstance = (row.map, row.id) := by
  obtain ⟨loaded, hloaded, rfl⟩ := mem_map.1 (individualEvents_loadResetTimes.subset hx)
  rw [mem_filter, decide_eq_true_eq, mem_instResetTime] at hloaded
  obtain ⟨⟨row, hrow, hown, rfl⟩, hfuture⟩ := hloaded
  obtain ⟨htime, hid⟩ := hmeets row hrow hown
  rw [← loadedTime_eq_iff hanswer] at htime
  simp only [htime] at hfuture ⊢
  refine ⟨row, hrow, hown, hfuture, rfl, ?_⟩
  change (row.map, row.id % 2 ^ 16) = (row.map, row.id)
  rw [Nat.mod_eq_of_lt (hid hfuture)]

section

variable (hids : (tables.instances.map InstanceRow.id).Nodup)
include hids

theorem nodup_instResetTime : (instResetTime tables).Nodup := by
  refine List.Nodup.of_map InstanceRow.id ?_
  rw [instResetTime_eq, map_map]
  exact hids.sublist (filter_sublist.map InstanceRow.id)

/-- The instance whose time is to come is the only one with its number, also in 16 bits. -/
theorem perm_singleton_instResetTime (hanswer : IsMaxRespawns respawns tables.maxRespawns)
    (hmeets : ∀ row ∈ tables.instances, row.resettime ≠ 0 → RowMeets tables respawns now row)
    {row : InstanceRow} (hrow : row ∈ tables.instances) (hown : row.resettime ≠ 0)
    (hfuture : now < individualResetTime respawns row) :
    (((instResetTime tables).filter fun r => now < r.resettime).filter fun r =>
        r.id % 2 ^ 16 = row.id % 2 ^ 16).Perm
      [{ row with resettime := individualResetTime respawns row }] := by
  refine (perm_ext_iff_of_nodup (((nodup_instResetTime hids).filter _).filter _)
    (nodup_singleton _)).2 fun r => ?_
  simp only [mem_filter, decide_eq_true_eq, mem_singleton]
  constructor
  · rintro ⟨⟨hr, hr'⟩, hbits⟩
    obtain ⟨stored, hstored, hstored', rfl⟩ := mem_instResetTime.1 hr
    obtain ⟨htime, hid⟩ := hmeets stored hstored hstored'
    rw [← loadedTime_eq_iff hanswer] at htime
    simp only [htime] at hr' hbits ⊢
    rw [Nat.mod_eq_of_lt (hid hr'), Nat.mod_eq_of_lt ((hmeets row hrow hown).2 hfuture)] at hbits
    rw [inj_on_of_nodup_map hids hstored hrow hbits]
  · rintro rfl
    refine ⟨⟨?_, hfuture⟩, rfl⟩
    rw [mem_instResetTime_iff hids hrow hown]
    exact (loadedTime_eq_iff hanswer row).2 (hmeets row hrow hown).1

theorem resetsRight_iff (hanswer : IsMaxRespawns respawns tables.maxRespawns) :
    ResetsRight cfg tables respawns now ↔
      ∀ row ∈ tables.instances, row.resettime ≠ 0 → RowMeets tables respawns now row := by
  constructor
  · intro h row hrow hown
    refine ⟨?_, fun hfuture => ?_⟩
    · have htime := h.times row hrow hown
      rw [mem_instResetTime_iff hids hrow hown] at htime
      exact (loadedTime_eq_iff hanswer row).1 htime
    · obtain ⟨event, hone, hreset⟩ := h.pending row hrow hown hfuture
      have hmem := mem_singleton_self ((individualResetTime respawns row : ℤ), event)
      rw [← hone, mem_filter, decide_eq_true_eq] at hmem
      have hid : event.instanceId = row.id := congrArg Prod.snd hreset
      have hbits : event.instanceId = row.id % 2 ^ 16 := hmem.2
      rw [← hid, hbits]
      exact Nat.mod_lt _ (by decide)
  · intro hmeets
    refine ⟨fun row hrow hown => ?_, fun row hrow hown hfuture => ?_, fun later turns x hx => ?_⟩
    · rw [mem_instResetTime_iff hids hrow hown]
      exact (loadedTime_eq_iff hanswer row).2 (hmeets row hrow hown).1
    · have hone := perm_singleton_instResetTime hids hanswer hmeets hrow hown hfuture
      have hperm := (@individualEvents_loadResetTimes cfg tables now).filter fun x =>
        decide (x.2.instanceId = row.id % 2 ^ 16)
      rw [filter_map] at hperm
      refine ⟨instResetEvent 0 row.key row.id,
        perm_singleton.1 (hperm.trans (hone.map individualEvent)), ?_⟩
      change (row.map, row.id % 2 ^ 16) = (row.map, row.id)
      rw [Nat.mod_eq_of_lt ((hmeets row hrow hown).2 hfuture)]
    · obtain ⟨happend, hbefore⟩ :=
        @firedEvents_append cfg turns { loadResetTimes cfg tables now with now := later }
      have hqueued : x ∈ (loadResetTimes cfg tables now).individualEvents := by
        have hmem := mem_append_left (updateLoop cfg turns
          { loadResetTimes cfg tables now with now := later }).individualEvents hx
        rwa [happend] at hmem
      exact ⟨hbefore x hx, mem_individualEvents hmeets hanswer hqueued⟩

end

end ResetSchedule

open ResetSchedule

/-- For the last respawns as the query answers them, in any order, and a cancellation in any
schedule : the instances are reset at their times, and only an event of the instance itself is
cancelled, exactly when each row and the cancellation meet their conditions. -/
theorem individual_resets_iff (cfg : ResetConfig) {tables : ResetTables}
    {respawns : List CreatureRespawn} (hids : (tables.instances.map InstanceRow.id).Nodup)
    (hanswer : IsMaxRespawns respawns tables.maxRespawns) (now : ℕ) {s : ResetSchedule}
    (hbits : ∀ x ∈ s.queue, x.2.instanceId < 2 ^ 16) (time : ℤ) (key : MapDiff) (instanceId : ℕ) :
    (ResetsRight cfg tables respawns now ∧ s.CancelsOwn time key instanceId) ↔
      (∀ row ∈ tables.instances, row.resettime ≠ 0 → RowMeets tables respawns now row) ∧
        s.CancelMeets time instanceId :=
  and_congr (resetsRight_iff hids hanswer) (cancelsOwn_iff hbits time key instanceId)

/-- Two respawns in an instance. -/
def twoRespawns : List CreatureRespawn :=
  [⟨6000000, 1⟩, ⟨7000000, 1⟩]

theorem isMaxRespawns_twoRespawns : IsMaxRespawns twoRespawns [⟨7000000, 1⟩] := by
  refine ⟨by decide, fun ⟨time, instanceId⟩ => ?_⟩
  by_cases hid : 1 = instanceId
  · subst hid
    simp [lastRespawn, twoRespawns, eq_comm]
  · simp [lastRespawn, twoRespawns, hid, Ne.symm hid]

/-- An instance with two respawns, and a cancellation while its event is the only one. -/
theorem individual_resets_twoRespawns :
    ResetsRight weekly { instances := [⟨1, 33, 0, 5000000⟩], maxRespawns := [⟨7000000, 1⟩] }
        twoRespawns 4000000 ∧
      CancelsOwn { queue := [(7007200, ⟨0, 33, 0, 1⟩)] } 5000000 (33, 0) 1 := by
  refine (individual_resets_iff weekly (by decide) isMaxRespawns_twoRespawns 4000000 (by decide)
    5000000 (33, 0) 1).2 ⟨fun row hrow _ => ?_, fun m x hx hid hnot => ?_⟩
  · rw [mem_singleton.1 hrow]
    have hlast : lastRespawn twoRespawns 1 = some 7000000 := by decide
    refine ⟨fun time htime => ?_, fun _ => by decide⟩
    obtain rfl := Option.some.inj (hlast.symm.trans htime)
    decide
  · have hmem := mem_singleton.1 (mem_of_getElem? hx)
    exact absurd (hmem ▸ ⟨rfl, rfl⟩) hnot

/-- A respawn in each of two instances. -/
def oneRespawnEach : List CreatureRespawn :=
  [⟨6000000, 1⟩, ⟨7000000, 2⟩]

theorem isMaxRespawns_oneRespawnEach :
    IsMaxRespawns oneRespawnEach [⟨6000000, 1⟩, ⟨7000000, 2⟩] := by
  refine ⟨by decide, fun ⟨time, instanceId⟩ => ?_⟩
  by_cases hfirst : 1 = instanceId
  · subst hfirst
    simp [lastRespawn, oneRespawnEach, eq_comm]
  · by_cases hsecond : 2 = instanceId
    · subst hsecond
      simp [lastRespawn, oneRespawnEach, eq_comm]
    · simp [lastRespawn, oneRespawnEach, hfirst, hsecond, Ne.symm hfirst, Ne.symm hsecond]

/-- With a respawn in each of two instances, the second one keeps the time that was stored. -/
theorem not_individual_resets_oneRespawnEach :
    IsMaxRespawns oneRespawnEach [⟨6000000, 1⟩, ⟨7000000, 2⟩] ∧
      ¬ResetsRight weekly
        { instances := [⟨1, 33, 0, 5000000⟩, ⟨2, 33, 0, 5000000⟩]
          maxRespawns := [⟨6000000, 1⟩, ⟨7000000, 2⟩] }
        oneRespawnEach 4000000 := by
  refine ⟨isMaxRespawns_oneRespawnEach, fun h => ?_⟩
  have hmem := h.times ⟨2, 33, 0, 5000000⟩ (by simp) (by decide)
  rw [mem_instResetTime_iff (by decide) (by simp) (by decide)] at hmem
  exact absurd hmem (by decide)

end MistyWorld
