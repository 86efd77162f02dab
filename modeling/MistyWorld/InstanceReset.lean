import Mathlib.Algebra.Order.BigOperators.Group.List
import Mathlib.Algebra.Order.Ring.Nat
import Mathlib.Data.List.Induction
import Mathlib.Data.List.Nodup
import Mathlib.Logic.Function.Basic
import MistyWorld.Run
import MistyWorld.TimeQueue

/-!
# The global reset of instances

`InstanceSaveManager` keeps the time at which the instances of a map and difficulty are reset next,
and a queue of events : the reset of one instance (type 0), and for each map difficulty with a reset
period the warnings (types 1 to 3) and the reset (type 4), each of them queued by the one before.

`LoadResetTimes` also queues an event of the type of the map difficulty for each of its instances
that has a reset time of its own, and `Update` serves each of them as it does the global one. So
the schedule holds when the saved instances with reset times are of map difficulties without a
period (`resetSchedule_run`), and else there are two events at once
(`not_scheduled_savedInstance`).

The rate of reset times is 1 and the periods are whole numbers of days, for which the division by a
day is exact. What a reset does to players, groups and maps is left out.
-/

open Function List Machine

namespace MistyWorld

/-- `DAY` -/
def day : ℕ :=
  86400

/-- `ResetTimeDelay`, by its index. -/
def resetTimeDelay : ℕ → ℤ
  | 0 => 3600
  | 1 => 900
  | 2 => 300
  | _ => 60

/-- An entry of `sMapDifficultyMap`. -/
structure MapDifficulty where
  mapid : ℕ
  difficulty : ℕ
  resetTime : ℕ
deriving DecidableEq

/-- A map and a difficulty. -/
abbrev MapDiff :=
  ℕ × ℕ

/-- The key of an entry. -/
def MapDifficulty.key (d : MapDifficulty) : MapDiff :=
  (d.mapid, d.difficulty)

/-- `period`, with a rate of 1. -/
def MapDifficulty.period (d : MapDifficulty) : ℕ :=
  let period := d.resetTime / day * day
  if period < day then day else period

/-- The maps and the hour of resets. -/
structure ResetConfig where
  mapDifficulties : List MapDifficulty
  resetTimeHour : ℕ
  instanceable : ℕ → Bool
  keys_nodup : (mapDifficulties.map MapDifficulty.key).Nodup
  resetTime_days : ∀ d ∈ mapDifficulties, day ∣ d.resetTime

/-- `diff`, the time of day of resets. -/
def ResetConfig.diff (cfg : ResetConfig) : ℕ :=
  cfg.resetTimeHour * 3600

/-- `InstResetEvent` -/
structure InstResetEvent where
  type : ℕ
  mapid : ℕ
  difficulty : ℕ
  instanceId : ℕ
deriving DecidableEq

/-- The constructor of `InstResetEvent`, which has 16 bits for the instance. -/
def instResetEvent (type : ℕ) (key : MapDiff) (instanceId : ℕ) : InstResetEvent :=
  ⟨type, key.1, key.2, instanceId % 2 ^ 16⟩

/-- The map and difficulty of an event. -/
def InstResetEvent.key (e : InstResetEvent) : MapDiff :=
  (e.mapid, e.difficulty)

/-- A row of the table `instance`. -/
structure InstanceRow where
  id : ℕ
  map : ℕ
  difficulty : ℕ
  resettime : ℕ

/-- The map and difficulty of a row. -/
def InstanceRow.key (row : InstanceRow) : MapDiff :=
  (row.map, row.difficulty)

/-- A row of the table `instanceIdreset`. -/
structure InstanceResetRow where
  mapid : ℕ
  difficulty : ℕ
  resettime : ℕ

/-- A row of the last respawn times of creatures, by instance. -/
structure MaxRespawnRow where
  time : ℕ
  instanceId : ℕ

/-- What is read at the start. -/
structure ResetTables where
  instances : List InstanceRow := []
  maxRespawns : List MaxRespawnRow := []
  instanceReset : List InstanceResetRow := []

/-- The schedule of `InstanceSaveManager`. `now` is the time of the last call, and `resets` are the
global resets with their times, the last one first. -/
structure ResetSchedule where
  resetTimes : MapDiff → ℕ := fun _ => 0
  queue : List (ℤ × InstResetEvent) := []
  now : ℕ := 0
  resets : List (MapDiff × ℕ) := []

namespace ResetSchedule

variable (cfg : ResetConfig)

/-- `SetResetTimeFor` -/
def setResetTimeFor (s : ResetSchedule) (key : MapDiff) (t : ℕ) : ResetSchedule :=
  { s with resetTimes := Function.update s.resetTimes key t }

/-- `ScheduleReset`. An event is taken out of the queue by its instance alone, first among those
at its time. -/
def scheduleReset (s : ResetSchedule) (add : Bool) (time : ℤ) (event : InstResetEvent) :
    ResetSchedule :=
  if !add then
    let same (x : ℤ × InstResetEvent) : Bool := x.2.instanceId = event.instanceId
    let atTime (x : ℤ × InstResetEvent) : Bool := x.1 = time && same x
    if s.queue.any atTime then
      { s with queue := s.queue.eraseP atTime }
    else
      { s with queue := s.queue.eraseP same }
  else
    { s with queue := TimeQueue.insert (time, event) s.queue }

/-- The type of the next warning, or of the reset, before the time `t`. -/
def nextType (t now : ℕ) : ℕ :=
  if (t : ℤ) - resetTimeDelay 0 > now then 1
  else if (t : ℤ) - resetTimeDelay 1 > now then 2
  else if (t : ℤ) - resetTimeDelay 2 > now then 3
  else 4

/-- The instances with a reset time of their own. The loop over the respawn times asks the query of
the instances for its next row, which has none left, so only the first respawn time is seen. -/
def instResetTime (tables : ResetTables) : List InstanceRow :=
  (tables.instances.filter fun row => row.resettime ≠ 0).map fun row =>
    match tables.maxRespawns with
    | [] => row
    | respawn :: _ =>
      if respawn.instanceId = row.id then
        { row with resettime := (respawn.time + 2 * 3600) % 2 ^ 32 }
      else
        row

/-- The reset time of a map difficulty after the start : a new one where there is none or it has
passed. -/
def startTime (d : MapDifficulty) (t now : ℕ) : ℕ :=
  let today := now / day * day
  let t := if t = 0 then today + d.period + cfg.diff else t
  if t < now then
    let t := t / day * day
    t + ((today - t) / d.period + 1) * d.period + cfg.diff
  else
    t

/-- The turn of `LoadResetTimes` for a map difficulty. -/
def loadMapDifficulty (tables : ResetTables) (now : ℕ) (s : ResetSchedule) (d : MapDifficulty) :
    ResetSchedule :=
  if d.resetTime = 0 then
    s
  else
    let t := startTime cfg d (s.resetTimes d.key) now
    let s := s.setResetTimeFor d.key t
    let type := nextType t now
    let time := (t : ℤ) - resetTimeDelay (type - 1)
    let s := s.scheduleReset true time (instResetEvent type d.key 0)
    let saved := tables.instances.filter fun row => row.resettime ≠ 0 ∧ row.key = d.key
    saved.foldl (fun s row => s.scheduleReset true time (instResetEvent type d.key row.id)) s

/-- `LoadResetTimes` -/
def loadResetTimes (tables : ResetTables) (now : ℕ) : ResetSchedule :=
  let s : ResetSchedule := { now := now }
  let s := (instResetTime tables).foldl (fun s row =>
    if row.resettime > now then
      s.scheduleReset true row.resettime (instResetEvent 0 row.key row.id)
    else
      s) s
  let s := tables.instanceReset.foldl (fun s row =>
    if cfg.mapDifficulties.any fun d => d.key = (row.mapid, row.difficulty) then
      s.setResetTimeFor (row.mapid, row.difficulty) (row.resettime / day * day + cfg.diff)
    else
      s) s
  cfg.mapDifficulties.foldl (loadMapDifficulty cfg tables now) s

/-- `_ResetOrWarnAll`. Times are numbers of 32 bits. -/
def resetOrWarnAll (s : ResetSchedule) (key : MapDiff) (warn : Bool) (resetTime : ℕ) :
    ResetSchedule :=
  if !cfg.instanceable key.1 then
    s
  else if !warn then
    match cfg.mapDifficulties.find? fun d => d.key = key with
    | none => s
    | some d =>
      if d.resetTime = 0 then
        s
      else
        let nextReset := ((resetTime + 60) / day * day + d.period + cfg.diff) % 2 ^ 32
        let s := s.setResetTimeFor key nextReset
        let s := { s with resets := (key, resetTime) :: s.resets }
        s.scheduleReset true ((nextReset + (2 ^ 32 - 3600)) % 2 ^ 32 : ℕ)
          (instResetEvent 1 key 0)
  else
    s

/-- A turn of the loop of `Update`, with the first event of the queue. -/
def processFirst (s : ResetSchedule) (time : ℤ) (event : InstResetEvent)
    (rest : List (ℤ × InstResetEvent)) : ResetSchedule :=
  if event.type = 0 then
    { s with queue := rest }
  else
    let resetTime := s.resetTimes event.key
    let s := s.resetOrWarnAll cfg event.key (event.type ≠ 4) resetTime
    let s := if event.type ≠ 4 then
        -- the event itself is changed, in the queue
        let next := { event with type := event.type + 1 }
        { s with queue := (time, next) :: s.queue.tail }.scheduleReset true
          (resetTime - resetTimeDelay (next.type - 1)) next
      else
        s
    { s with queue := s.queue.tail }

/-- The loop of `Update`. -/
def updateLoop : ℕ → ResetSchedule → ResetSchedule
  | 0, s => s
  | turns + 1, s =>
    match s.queue with
    | [] => s
    | (time, event) :: rest =>
      if time ≥ s.now then s else updateLoop turns (s.processFirst cfg time event rest)

/-- How many turns an event is good for before it is the global reset that follows. -/
def turnsOf (event : InstResetEvent) : ℕ :=
  5 - event.type

/-- The turns that the loop may take : those of the events, and of the resets that are due. -/
def turns (s : ResetSchedule) : ℕ :=
  (s.queue.map fun x => turnsOf x.2).sum +
    (cfg.mapDifficulties.map fun d =>
      4 * ((s.now + 3600 + d.period - s.resetTimes d.key) / d.period)).sum

/-- `Update` -/
def update (s : ResetSchedule) (now : ℕ) : ResetSchedule :=
  let s := { s with now := now }
  updateLoop cfg (s.turns cfg) s

/-- The calls : `Update`, and `ScheduleReset` for the reset of an instance. -/
inductive Call
  | update (now : ℕ)
  | scheduleReset (add : Bool) (time : ℤ) (key : MapDiff) (instanceId : ℕ)

/-- The schedule after a call. -/
def serve (s : ResetSchedule) : Call → ResetSchedule
  | .update now => s.update cfg now
  | .scheduleReset add time key instanceId =>
    s.scheduleReset add time (instResetEvent 0 key instanceId)

end ResetSchedule

/-! ## The schedule -/

namespace ResetSchedule

/-- The warnings and resets of a map difficulty. -/
def globalEvents (s : ResetSchedule) (key : MapDiff) : List (ℤ × InstResetEvent) :=
  s.queue.filter fun x => x.2.type ≠ 0 ∧ x.2.key = key

/-- One warning or reset is pending, and its time is the one of its type before the reset time. -/
def Pending (s : ResetSchedule) (key : MapDiff) : Prop :=
  ∃ type, 1 ≤ type ∧ type ≤ 4 ∧ s.globalEvents key =
    [((s.resetTimes key : ℤ) - resetTimeDelay (type - 1), instResetEvent type key 0)]

/-- The times of the resets of a map difficulty, the last one first. -/
def resetsOf (s : ResetSchedule) (key : MapDiff) : List ℕ :=
  (s.resets.filter fun r => r.1 = key).map Prod.snd

/-- From one reset to the next the time advances by a period. -/
def Advances (s : ResetSchedule) (d : MapDifficulty) : Prop :=
  (s.resetTimes d.key :: s.resetsOf d.key).IsChain fun later earlier => later = earlier + d.period

/-- The schedule of a map difficulty. -/
structure Scheduled (s : ResetSchedule) (d : MapDifficulty) : Prop where
  pending : s.Pending d.key
  now_le : s.now ≤ s.resetTimes d.key
  advances : s.Advances d

/-- A reset that is due by `now` is one of an instanceable map, and the next one is not beyond the
times of 32 bits. -/
def Due (cfg : ResetConfig) (s : ResetSchedule) (d : MapDifficulty) (now : ℕ) : Prop :=
  ∀ k, s.resetTimes d.key + k * d.period < now + 60 →
    cfg.instanceable d.mapid ∧ s.resetTimes d.key + (k + 1) * d.period < 2 ^ 32

/-- When a call keeps the schedule. -/
def Meets (cfg : ResetConfig) (s : ResetSchedule) : Call → Prop
  | .update now => s.now ≤ now ∧ ∀ d ∈ cfg.mapDifficulties, d.resetTime ≠ 0 → Due cfg s d now
  | .scheduleReset add _ _ instanceId => add = true ∨ instanceId % 2 ^ 16 ≠ 0

/-! ## The invariant -/


/-- A map difficulty that is reset. -/
def Periodic (cfg : ResetConfig) (d : MapDifficulty) : Prop :=
  d ∈ cfg.mapDifficulties ∧ d.resetTime ≠ 0

/-- What the schedule keeps through the turns of `Update`. -/
structure Sound (cfg : ResetConfig) (s : ResetSchedule) : Prop where
  inOrder : TimeQueue.InOrder s.queue
  pending : ∀ d, Periodic cfg d → s.Pending d.key
  timeOfDay : ∀ d, Periodic cfg d → s.resetTimes d.key % day = cfg.diff
  advances : ∀ d, Periodic cfg d → s.Advances d
  known : ∀ x ∈ s.queue, x.2.type ≠ 0 → ∃ d, Periodic cfg d ∧ x.2.key = d.key

variable {cfg : ResetConfig} {s : ResetSchedule} {d : MapDifficulty}
  {rest : List (ℤ × InstResetEvent)}

theorem period_eq (hd : Periodic cfg d) : d.period = d.resetTime ∧ day ≤ d.period := by
  obtain ⟨n, hn⟩ := cfg.resetTime_days d hd.1
  have hpos : d.resetTime ≠ 0 := hd.2
  have hday : 0 < day := by decide
  have hn0 : n ≠ 0 := by
    rintro rfl
    exact hpos hn
  have hle : day ≤ day * n := Nat.le_mul_of_pos_right day (Nat.pos_of_ne_zero hn0)
  have hdiv : d.resetTime / day * day = d.resetTime := by
    rw [hn, Nat.mul_div_cancel_left n hday, mul_comm]
  rw [MapDifficulty.period, hdiv, if_neg (by omega)]
  exact ⟨rfl, by omega⟩

theorem eq_of_key_eq {d' : MapDifficulty} (hd : Periodic cfg d) (hd' : Periodic cfg d')
    (h : d'.key = d.key) : d' = d :=
  inj_on_of_nodup_map cfg.keys_nodup hd'.1 hd.1 h

/-- An event of a map difficulty in the queue is the pending one. -/
theorem Sound.eq_of_mem (h : s.Sound cfg) (hd : Periodic cfg d) {x : ℤ × InstResetEvent}
    (hx : x ∈ s.queue) (htype : x.2.type ≠ 0) (hkey : x.2.key = d.key) :
    ∃ type, 1 ≤ type ∧ type ≤ 4 ∧ s.globalEvents d.key = [x] ∧
      x = ((s.resetTimes d.key : ℤ) - resetTimeDelay (type - 1), instResetEvent type d.key 0) := by
  obtain ⟨type, h1, h4, heq⟩ := h.pending d hd
  have hmem : x ∈ s.globalEvents d.key := by
    rw [globalEvents, mem_filter]
    exact ⟨hx, by simp [htype, hkey]⟩
  rw [heq, mem_singleton] at hmem
  exact ⟨type, h1, h4, by rw [heq, hmem], hmem⟩

/-- The pending event of a map difficulty is replaced by a later one. -/
theorem Sound.replace (h : s.Sound cfg) (hd : Periodic cfg d) {x y : ℤ × InstResetEvent}
    (hq : s.queue = x :: rest) (hx : x.2.type ≠ 0) (hkey : x.2.key = d.key) {s' : ResetSchedule}
    {type : ℕ} (h1 : 1 ≤ type) (h4 : type ≤ 4)
    (hy : y = ((s'.resetTimes d.key : ℤ) - resetTimeDelay (type - 1),
      instResetEvent type d.key 0)) (hqueue : s'.queue = TimeQueue.insert y rest)
    (htimes : ∀ key, key ≠ d.key → s'.resetTimes key = s.resetTimes key)
    (hresets : ∀ key, key ≠ d.key → s'.resetsOf key = s.resetsOf key)
    (htod : s'.resetTimes d.key % day = cfg.diff) (hadv : s'.Advances d) : s'.Sound cfg := by
  have hykey : y.2.key = d.key := by rw [hy]; rfl
  have hytype : y.2.type ≠ 0 := by
    rw [hy]
    exact (by omega : type ≠ 0)
  obtain ⟨-, -, -, hone, -⟩ := h.eq_of_mem hd (hq ▸ mem_cons_self) hx hkey
  have hrest : rest.filter (fun x => x.2.type ≠ 0 ∧ x.2.key = d.key) = [] := by
    rw [globalEvents, hq, filter_cons_of_pos (by simp [hx, hkey])] at hone
    exact (List.cons.inj hone).2
  have hother : ∀ d', Periodic cfg d' → d' ≠ d →
      s'.resetTimes d'.key = s.resetTimes d'.key ∧ s'.resetsOf d'.key = s.resetsOf d'.key ∧
        s'.globalEvents d'.key = s.globalEvents d'.key := by
    intro d' hd' hne
    have hkne : d'.key ≠ d.key := fun heq => hne (eq_of_key_eq hd hd' heq)
    refine ⟨htimes _ hkne, hresets _ hkne, ?_⟩
    rw [globalEvents, globalEvents, hqueue, hq,
      TimeQueue.filter_insert_of_neg (by simp [hykey, hkne.symm]),
      filter_cons_of_neg (by simp [hkey, hkne.symm])]
  refine ⟨?_, fun d' hd' => ?_, fun d' hd' => ?_, fun d' hd' => ?_, fun z hz hztype => ?_⟩
  · rw [hqueue]
    have hord := h.inOrder
    rw [hq] at hord
    exact TimeQueue.InOrder.insert (pairwise_cons.1 hord).2 y
  · by_cases hne : d' = d
    · subst hne
      refine ⟨type, h1, h4, ?_⟩
      rw [globalEvents, hqueue, ← hy]
      exact TimeQueue.filter_insert_of_nil (by simp [hytype, hykey]) hrest
    · obtain ⟨ht, -, hg⟩ := hother d' hd' hne
      rw [Pending, ht, hg]
      exact h.pending d' hd'
  · by_cases hne : d' = d
    · rw [hne]
      exact htod
    · rw [(hother d' hd' hne).1]
      exact h.timeOfDay d' hd'
  · by_cases hne : d' = d
    · rw [hne]
      exact hadv
    · obtain ⟨ht, hr, -⟩ := hother d' hd' hne
      rw [Advances, ht, hr]
      exact h.advances d' hd'
  · rw [hqueue, TimeQueue.mem_insert] at hz
    rcases hz with rfl | hz
    · exact ⟨d, hd, hykey⟩
    · exact h.known z (hq ▸ mem_cons_of_mem x hz) hztype

/-! ## A turn of `Update` -/

theorem resetTimeDelay_lt {i : ℕ} (h : i < 3) : resetTimeDelay (i + 1) < resetTimeDelay i := by
  match i, h with
  | 0, _ | 1, _ | 2, _ => decide

theorem next_reset_eq {t p diff : ℕ} (ht : t % day = diff) (hdiff : diff + 60 < day)
    (hp : t + p < 2 ^ 32) : ((t + 60) / day * day + p + diff) % 2 ^ 32 = t + p := by
  have hdm := Nat.div_add_mod t day
  have hdiv : (t + 60) / day = t / day := by
    rw [day] at *
    omega
  rw [hdiv, Nat.mod_eq_of_lt] <;> rw [mul_comm] <;> omega

theorem resetOrWarnAll_warn (key : MapDiff) (t : ℕ) : s.resetOrWarnAll cfg key true t = s := by
  rw [resetOrWarnAll]
  split <;> rfl

theorem find?_key (hd : Periodic cfg d) :
    (cfg.mapDifficulties.find? fun d' => d'.key = d.key) = some d := by
  obtain ⟨d', hd'⟩ := Option.isSome_iff_exists.1
    (List.find?_isSome (p := fun d' : MapDifficulty => d'.key = d.key) |>.2 ⟨d, hd.1, by simp⟩)
  have hkey : d'.key = d.key := by simpa using List.find?_some hd'
  rw [hd', inj_on_of_nodup_map cfg.keys_nodup (mem_of_find?_eq_some hd') hd.1 hkey]

theorem resetOrWarnAll_reset (hd : Periodic cfg d) (hhour : cfg.resetTimeHour ≤ 23)
    (hinst : cfg.instanceable d.mapid) {t : ℕ} (ht : t % day = cfg.diff)
    (hbound : t + d.period < 2 ^ 32) :
    s.resetOrWarnAll cfg d.key false t = { s with
      resetTimes := Function.update s.resetTimes d.key (t + d.period)
      resets := (d.key, t) :: s.resets
      queue := TimeQueue.insert ((t + d.period : ℕ) - resetTimeDelay 0, instResetEvent 1 d.key 0)
        s.queue } := by
  have hdiff : cfg.diff + 60 < day := by
    rw [ResetConfig.diff, day]
    omega
  have hperiod : 86400 ≤ d.period := (period_eq hd).2
  have htime : ((t + d.period + (2 ^ 32 - 3600)) % 2 ^ 32 : ℕ) =
      ((t + d.period : ℕ) : ℤ) - resetTimeDelay 0 := by
    rw [resetTimeDelay]
    omega
  have hkey : cfg.instanceable d.key.1 = true := hinst
  simp only [resetOrWarnAll, hkey, Bool.not_true, Bool.not_false, Bool.false_eq_true, if_false,
    if_true, find?_key hd, hd.2, next_reset_eq ht hdiff hbound, scheduleReset, setResetTimeFor,
    htime]

/-- What a turn of `Update` does. -/
theorem Sound.processFirst_cases (h : s.Sound cfg) (hhour : cfg.resetTimeHour ≤ 23)
    (hdue : ∀ d, Periodic cfg d → Due cfg s d s.now) {time : ℤ} {event : InstResetEvent}
    (hq : s.queue = (time, event) :: rest) (hlt : time < s.now) :
    (event.type = 0 ∧ s.processFirst cfg time event rest = { s with queue := rest }) ∨
    ∃ d, Periodic cfg d ∧
      ((∃ type, 1 ≤ type ∧ type ≤ 3 ∧ event = instResetEvent type d.key 0 ∧
        s.processFirst cfg time event rest = { s with
          queue := TimeQueue.insert ((s.resetTimes d.key : ℤ) - resetTimeDelay type,
            instResetEvent (type + 1) d.key 0) rest }) ∨
      (event = instResetEvent 4 d.key 0 ∧ s.resetTimes d.key < s.now + 60 ∧
        s.processFirst cfg time event rest = { s with
          resetTimes := Function.update s.resetTimes d.key (s.resetTimes d.key + d.period)
          resets := (d.key, s.resetTimes d.key) :: s.resets
          queue := TimeQueue.insert ((s.resetTimes d.key + d.period : ℕ) - resetTimeDelay 0,
            instResetEvent 1 d.key 0) rest })) := by
  by_cases htype : event.type = 0
  · exact .inl ⟨htype, if_pos htype⟩
  refine .inr ?_
  have hmem : (time, event) ∈ s.queue := hq ▸ mem_cons_self
  obtain ⟨d, hd, hkey⟩ := h.known _ hmem htype
  obtain ⟨type, h1, h4, -, heq⟩ := h.eq_of_mem hd hmem htype hkey
  obtain ⟨rfl, rfl⟩ := Prod.mk.inj heq
  refine ⟨d, hd, ?_⟩
  have hk : (instResetEvent type d.key 0).key = d.key := rfl
  have ht : (instResetEvent type d.key 0).type = type := rfl
  by_cases hlast : type = 4
  · subst hlast
    refine .inr ⟨rfl, ?_, ?_⟩
    · have : ((s.resetTimes d.key : ℤ)) - 60 < s.now := hlt
      omega
    · have hnow : s.resetTimes d.key + 0 * d.period < s.now + 60 := by
        have : ((s.resetTimes d.key : ℤ)) - 60 < s.now := hlt
        omega
      obtain ⟨hinst, hbound⟩ := hdue d hd 0 hnow
      have hle : (s.resetTimes d.key : ℤ) - 60 ≤
          (s.resetTimes d.key + d.period : ℕ) - resetTimeDelay 0 := by
        have : 86400 ≤ d.period := (period_eq hd).2
        rw [resetTimeDelay]
        omega
      rw [zero_add, Nat.one_mul] at hbound
      rw [processFirst, if_neg htype]
      simp only [hk, ht, ne_eq, not_true_eq_false, decide_false, if_false,
        resetOrWarnAll_reset hd hhour hinst (h.timeOfDay d hd) hbound, hq]
      rw [TimeQueue.insert_cons_of_le hle]
      rfl
  · have hle : (s.resetTimes d.key : ℤ) - resetTimeDelay (type - 1) ≤
        s.resetTimes d.key - resetTimeDelay type := by
      have := resetTimeDelay_lt (show type - 1 < 3 by omega)
      rw [Nat.sub_add_cancel h1] at this
      omega
    refine .inl ⟨type, h1, by omega, rfl, ?_⟩
    rw [processFirst, if_neg htype]
    simp only [hk, ht, ne_eq, hlast, not_false_eq_true, decide_true, if_true,
      resetOrWarnAll_warn, scheduleReset, hq, tail_cons, Bool.not_true, Bool.false_eq_true,
      if_false, Nat.add_sub_cancel]
    rw [TimeQueue.insert_cons_of_le hle]
    rfl

theorem sum_insert (x : ℤ × InstResetEvent) (l : List (ℤ × InstResetEvent)) :
    ((TimeQueue.insert x l).map fun x => turnsOf x.2).sum =
      turnsOf x.2 + (l.map fun x => turnsOf x.2).sum := by
  rw [((TimeQueue.insert_perm x l).map _).sum_eq, map_cons, sum_cons]

theorem sum_add_le {f g : MapDifficulty → ℕ} {c : ℕ} {l : List MapDifficulty} (hd : d ∈ l)
    (hle : ∀ d' ∈ l, g d' ≤ f d') (hc : g d + c ≤ f d) : (l.map g).sum + c ≤ (l.map f).sum := by
  obtain ⟨l1, l2, rfl⟩ := append_of_mem hd
  have h₁ : (l1.map g).sum ≤ (l1.map f).sum :=
    sum_le_sum fun d' hd' => hle d' (mem_append_left _ hd')
  have h2 : (l2.map g).sum ≤ (l2.map f).sum :=
    sum_le_sum fun d' hd' =>
      hle d' (mem_append_right _ (mem_cons_of_mem d hd'))
  simp only [map_append, map_cons, sum_append, sum_cons]
  omega

/-- The resets that are due get fewer by one with each. -/
theorem due_sub_period {now t p : ℕ} (hp : day ≤ p) (ht : t < now + 60) :
    4 * ((now + 3600 + p - (t + p)) / p) + 4 ≤ 4 * ((now + 3600 + p - t) / p) := by
  have hpos : 0 < p := lt_of_lt_of_le (by decide) hp
  have hsub : now + 3600 + p - t = now + 3600 + p - (t + p) + p := by omega
  rw [hsub, Nat.add_div_right _ hpos]
  omega

/-- A turn of `Update` keeps the schedule and leaves fewer turns to do. -/
theorem Sound.turn (h : s.Sound cfg) (hhour : cfg.resetTimeHour ≤ 23)
    (hdue : ∀ d, Periodic cfg d → Due cfg s d s.now) {time : ℤ} {event : InstResetEvent}
    (hq : s.queue = (time, event) :: rest) (hlt : time < s.now) :
    (s.processFirst cfg time event rest).Sound cfg ∧
    (s.processFirst cfg time event rest).now = s.now ∧
    (∀ d, Periodic cfg d → Due cfg (s.processFirst cfg time event rest) d s.now) ∧
    (s.processFirst cfg time event rest).turns cfg < s.turns cfg := by
  have hord := h.inOrder
  rw [hq] at hord
  rcases h.processFirst_cases hhour hdue hq hlt with
    ⟨htype, heq⟩ | ⟨d, hd, ⟨type, h1, h3, rfl, heq⟩ | ⟨rfl, hnow, heq⟩⟩
  · rw [heq]
    refine ⟨?_, rfl, hdue, ?_⟩
    · have hglobal : ∀ key, globalEvents { s with queue := rest } key = s.globalEvents key := by
        intro key
        rw [globalEvents, globalEvents, hq, filter_cons_of_neg (by simp [htype])]
      refine ⟨(pairwise_cons.1 hord).2, fun d hd => ?_, h.timeOfDay, h.advances,
        fun x hx => h.known x (hq ▸ mem_cons_of_mem _ hx)⟩
      obtain ⟨type, h1, h4, hone⟩ := h.pending d hd
      exact ⟨type, h1, h4, (hglobal d.key).trans hone⟩
    · simp only [turns, hq, map_cons, sum_cons, turnsOf, htype]
      omega
  · rw [heq]
    refine ⟨?_, rfl, hdue, ?_⟩
    · exact h.replace hd hq (show type ≠ 0 by omega) rfl (by omega : 1 ≤ type + 1) (by omega)
        (by rw [Nat.add_sub_cancel]) rfl (fun _ _ => rfl) (fun _ _ => rfl) (h.timeOfDay d hd)
        (h.advances d hd)
    · simp only [turns, hq, sum_insert, map_cons, sum_cons]
      simp only [turnsOf, instResetEvent]
      omega
  · have hperiod : day ≤ d.period := (period_eq hd).2
    generalize hs' : s.processFirst cfg time (instResetEvent 4 d.key 0) rest = s'
    rw [hs'] at heq
    have hself : s'.resetTimes d.key = s.resetTimes d.key + d.period := by
      rw [heq]
      exact update_self _ _ _
    have hother : ∀ key, key ≠ d.key → s'.resetTimes key = s.resetTimes key := by
      intro key hne
      rw [heq]
      exact update_of_ne hne _ _
    have hresets : s'.resets = (d.key, s.resetTimes d.key) :: s.resets := by rw [heq]
    have hqueue : s'.queue = TimeQueue.insert
        ((s'.resetTimes d.key : ℤ) - resetTimeDelay (1 - 1), instResetEvent 1 d.key 0) rest := by
      rw [hself, heq]
    refine ⟨?_, by rw [heq], fun d' hd' k hk => ?_, ?_⟩
    · refine h.replace hd hq (show 4 ≠ 0 by decide) rfl (le_refl 1) (by omega) rfl hqueue
        hother (fun key hne => ?_) ?_ ?_
      · rw [resetsOf, resetsOf, hresets, filter_cons_of_neg (by simp [hne.symm])]
      · obtain ⟨n, hn⟩ := cfg.resetTime_days d hd.1
        rw [hself, (period_eq hd).1, hn, Nat.add_mul_mod_self_left]
        exact h.timeOfDay d hd
      · rw [Advances, hself, resetsOf, hresets, filter_cons_of_pos (by simp)]
        exact isChain_cons_cons.2 ⟨rfl, h.advances d hd⟩
    · by_cases hne : d'.key = d.key
      · obtain rfl := eq_of_key_eq hd hd' hne
        rw [hself] at hk ⊢
        have := hdue d' hd (k + 1) (by rw [Nat.succ_mul]; omega)
        rw [Nat.succ_mul (k + 1), ← add_assoc, Nat.add_right_comm] at this
        exact this
      · rw [hother _ hne] at hk ⊢
        exact hdue d' hd' k hk
    · have hnow' : s'.now = s.now := by rw [heq]
      have hsum := sum_add_le (c := 4) hd.1
        (f := fun d' => 4 * ((s.now + 3600 + d'.period - s.resetTimes d'.key) / d'.period))
        (g := fun d' => 4 * ((s.now + 3600 + d'.period - s'.resetTimes d'.key) / d'.period))
        (fun d' hd' => ?_) ?_
      · simp only [turns, hq, hqueue, hnow', sum_insert, map_cons, sum_cons]
        simp only [turnsOf, instResetEvent]
        omega
      · refine Nat.mul_le_mul_left 4 (Nat.div_le_div_right (Nat.sub_le_sub_left ?_ _))
        by_cases hne : d'.key = d.key
        · rw [hne, hself]
          omega
        · rw [hother _ hne]
      · simp only [hself]
        exact due_sub_period hperiod hnow

/-- `Update` keeps the schedule, and leaves no event of the past. -/
theorem Sound.updateLoop (hhour : cfg.resetTimeHour ≤ 23) : ∀ {turns : ℕ} {s : ResetSchedule},
    s.Sound cfg → (∀ d, Periodic cfg d → Due cfg s d s.now) → s.turns cfg ≤ turns →
    (s.updateLoop cfg turns).Sound cfg ∧ (s.updateLoop cfg turns).now = s.now ∧
    ∀ x ∈ (s.updateLoop cfg turns).queue, (s.now : ℤ) ≤ x.1 := by
  intro turns
  induction turns with
  | zero =>
    intro s h _ hturns
    have hq : s.queue = [] := by
      rcases hq : s.queue with _ | ⟨x, rest⟩
      · rfl
      · have htype : x.2.type ≤ 4 := by
          by_cases htype : x.2.type = 0
          · omega
          · have hmem : x ∈ s.queue := hq ▸ mem_cons_self
            obtain ⟨d, hd, hkey⟩ := h.known x hmem htype
            obtain ⟨type, -, h4, -, rfl⟩ := h.eq_of_mem hd hmem htype hkey
            exact h4
        rw [turns, hq, map_cons, sum_cons, turnsOf] at hturns
        omega
    exact ⟨h, rfl, fun x hx => absurd (hq ▸ hx) not_mem_nil⟩
  | succ turns ih =>
    intro s h hdue hturns
    rw [ResetSchedule.updateLoop]
    split
    · next hq => exact ⟨h, rfl, fun x hx => absurd (hq ▸ hx) not_mem_nil⟩
    · next time event rest hq =>
      split
      · next hge =>
        refine ⟨h, rfl, h.inOrder.le_of_head fun x hx => ?_⟩
        rw [hq] at hx
        obtain rfl := Option.some.inj hx
        exact hge
      · next hlt =>
        obtain ⟨h', hnow, hdue', hfewer⟩ := h.turn hhour hdue hq (by omega)
        obtain ⟨hs, hn, hx⟩ := ih h' (hnow ▸ hdue') (by omega)
        exact ⟨hs, hn.trans hnow, hnow ▸ hx⟩

/-! ## The start -/

/-- The reset time at the start is not in the past, and at the hour of resets. -/
theorem startTime_spec (now : ℕ) (hd : Periodic cfg d) {t : ℕ}
    (ht : t = 0 ∨ t % day = cfg.diff) (hdiff : cfg.diff < day) :
    now ≤ startTime cfg d t now ∧ startTime cfg d t now % day = cfg.diff := by
  obtain ⟨n, hn⟩ := cfg.resetTime_days d hd.1
  have hperiod : d.period = day * n := (period_eq hd).1.trans hn
  have hge : day ≤ d.period := (period_eq hd).2
  have hnow : now < now / day * day + day := by
    have := Nat.div_add_mod' now day
    have := Nat.mod_lt now (show 0 < day by decide)
    omega
  have hmod : ∀ a, (a * day + cfg.diff) % day = cfg.diff := fun a => by
    rw [Nat.mul_add_mod', Nat.mod_eq_of_lt hdiff]
  rw [startTime]
  by_cases h0 : t = 0
  · have hfirst : now / day * day + d.period + cfg.diff = (now / day + n) * day + cfg.diff := by
      rw [hperiod, mul_comm day n, Nat.add_mul]
    simp only [h0, if_true]
    rw [if_neg (by omega), hfirst]
    exact ⟨by rw [← hfirst]; omega, hmod _⟩
  · simp only [h0, if_false]
    split
    · next hlt =>
      have hle : t / day * day ≤ now / day * day :=
        Nat.mul_le_mul_right day (Nat.div_le_div_right (by omega))
      have hnext : now / day * day - t / day * day <
          ((now / day * day - t / day * day) / d.period + 1) * d.period := by
        have hpos : 0 < d.period := lt_of_lt_of_le (by decide) hge
        rw [mul_comm _ d.period]
        exact Nat.lt_mul_div_succ _ hpos
      generalize (now / day * day - t / day * day) / d.period + 1 = q at hnext ⊢
      have hdays : t / day * day + q * d.period = (t / day + q * n) * day := by
        rw [hperiod, Nat.add_mul, Nat.mul_assoc, mul_comm n day]
      have hlater : now / day < t / day + q * n := by
        refine Nat.lt_of_mul_lt_mul_right (a := day) ?_
        omega
      have hday : (now / day + 1) * day ≤ (t / day + q * n) * day :=
        Nat.mul_le_mul_right day hlater
      rw [Nat.add_mul, Nat.one_mul] at hday
      rw [hdays]
      exact ⟨by omega, hmod _⟩
    · next hge => exact ⟨by omega, ht.resolve_left h0⟩

/-- The type of the first event is that of a warning or a reset. -/
theorem nextType_mem (t now : ℕ) : 1 ≤ nextType t now ∧ nextType t now ≤ 4 := by
  rw [nextType]
  split
  · decide
  split
  · decide
  split <;> decide

/-- No saved instance of a map difficulty that is reset has a reset time of its own. -/
def NoOwnResets (cfg : ResetConfig) (tables : ResetTables) : Prop :=
  ∀ row ∈ tables.instances, row.resettime ≠ 0 → ∀ d, Periodic cfg d → row.key ≠ d.key

/-- What the start has done for the map difficulties of a list. -/
structure Loaded (cfg : ResetConfig) (now : ℕ) (l : List MapDifficulty) (s : ResetSchedule) :
    Prop where
  inOrder : TimeQueue.InOrder s.queue
  now_eq : s.now = now
  resets : s.resets = []
  pending : ∀ d ∈ l, d.resetTime ≠ 0 → s.Pending d.key
  timeOfDay : ∀ d ∈ l, d.resetTime ≠ 0 →
    now ≤ s.resetTimes d.key ∧ s.resetTimes d.key % day = cfg.diff
  fresh : ∀ key, key ∉ l.map MapDifficulty.key →
    s.resetTimes key = 0 ∨ s.resetTimes key % day = cfg.diff
  known : ∀ x ∈ s.queue, x.2.type ≠ 0 → ∃ d ∈ l, d.resetTime ≠ 0 ∧ x.2.key = d.key

variable {tables : ResetTables} {now : ℕ}

theorem loadMapDifficulty_eq (hown : NoOwnResets cfg tables) (hd : Periodic cfg d) :
    loadMapDifficulty cfg tables now s d = { s with
      resetTimes := Function.update s.resetTimes d.key
        (startTime cfg d (s.resetTimes d.key) now)
      queue := TimeQueue.insert
        ((startTime cfg d (s.resetTimes d.key) now : ℤ) -
          resetTimeDelay (nextType (startTime cfg d (s.resetTimes d.key) now) now - 1),
          instResetEvent (nextType (startTime cfg d (s.resetTimes d.key) now) now) d.key 0)
        s.queue } := by
  have hsaved : tables.instances.filter (fun row => row.resettime ≠ 0 ∧ row.key = d.key) = [] := by
    rw [filter_eq_nil_iff]
    intro row hrow
    simpa using fun h0 => hown row hrow h0 d hd
  rw [loadMapDifficulty, if_neg hd.2]
  simp only [hsaved, foldl_nil]
  rfl

theorem Loaded.loadMapDifficulty (hown : NoOwnResets cfg tables) (hdiff : cfg.diff < day)
    {l : List MapDifficulty} (hd : d ∈ cfg.mapDifficulties) (hnew : d.key ∉ l.map MapDifficulty.key)
    (h : Loaded cfg now l s) :
    Loaded cfg now (l ++ [d]) (ResetSchedule.loadMapDifficulty cfg tables now s d) := by
  have hin : ∀ {d' : MapDifficulty}, d' ∈ l ++ [d] → d'.resetTime ≠ 0 → d.resetTime = 0 ∨ d' ≠ d →
      d' ∈ l := by
    intro d' hd' hper hor
    rcases mem_append.1 hd' with hmem | hmem
    · exact hmem
    · rw [mem_singleton] at hmem
      subst hmem
      exact absurd rfl (hor.resolve_left hper)
  have hout : ∀ {key : MapDiff}, key ∉ (l ++ [d]).map MapDifficulty.key →
      key ∉ l.map MapDifficulty.key ∧ key ≠ d.key := by
    intro key hkey
    rw [map_append, mem_append, not_or] at hkey
    exact ⟨hkey.1, by simpa using hkey.2⟩
  by_cases hper : d.resetTime = 0
  · have heq : ResetSchedule.loadMapDifficulty cfg tables now s d = s := if_pos hper
    rw [heq]
    refine ⟨h.inOrder, h.now_eq, h.resets,
      fun d' hd' h0 => h.pending d' (hin hd' h0 (.inl hper)) h0,
      fun d' hd' h0 => h.timeOfDay d' (hin hd' h0 (.inl hper)) h0,
      fun key hkey => h.fresh key (hout hkey).1, fun x hx htype => ?_⟩
    obtain ⟨d', hd', hrest⟩ := h.known x hx htype
    exact ⟨d', mem_append_left _ hd', hrest⟩
  · have hdper : Periodic cfg d := ⟨hd, hper⟩
    obtain ⟨hle, htod⟩ := startTime_spec now hdper (h.fresh d.key hnew) hdiff
    obtain ⟨h1, h4⟩ := nextType_mem (startTime cfg d (s.resetTimes d.key) now) now
    rw [loadMapDifficulty_eq hown hdper]
    generalize startTime cfg d (s.resetTimes d.key) now = t at *
    generalize nextType t now = type at *
    have hne : ∀ {d' : MapDifficulty}, d' ∈ l → d'.key ≠ d.key := fun hd' heq =>
      hnew (heq ▸ mem_map_of_mem hd')
    have hnone : s.queue.filter (fun x => x.2.type ≠ 0 ∧ x.2.key = d.key) = [] := by
      rw [filter_eq_nil_iff]
      intro x hx hboth
      obtain ⟨htype, hkey⟩ := of_decide_eq_true hboth
      obtain ⟨d', hd', -, hkey'⟩ := h.known x hx htype
      exact hne hd' (hkey'.symm.trans hkey)
    have htype0 : type ≠ 0 := by omega
    refine ⟨h.inOrder.insert _, h.now_eq, h.resets, fun d' hd' h0 => ?_, fun d' hd' h0 => ?_,
      fun key hkey => ?_, fun x hx htype => ?_⟩
    · by_cases hdd : d' = d
      · subst hdd
        refine ⟨type, h1, h4, ?_⟩
        simp only [update_self]
        exact TimeQueue.filter_insert_of_nil (by simp [instResetEvent, InstResetEvent.key, htype0])
          hnone
      · have hmem := hin hd' h0 (.inr hdd)
        obtain ⟨type', h1', h4', hone⟩ := h.pending d' hmem h0
        refine ⟨type', h1', h4', ?_⟩
        simp only [update_of_ne (hne hmem)]
        rw [← hone]
        exact TimeQueue.filter_insert_of_neg
          (by simp [instResetEvent, InstResetEvent.key, (hne hmem).symm]) _
    · by_cases hdd : d' = d
      · subst hdd
        simp only [update_self]
        exact ⟨hle, htod⟩
      · have hmem := hin hd' h0 (.inr hdd)
        simp only [update_of_ne (hne hmem)]
        exact h.timeOfDay d' hmem h0
    · simp only [update_of_ne (hout hkey).2]
      exact h.fresh key (hout hkey).1
    · rcases TimeQueue.mem_insert.1 hx with rfl | hx
      · exact ⟨d, mem_append_right _ mem_cons_self, hper, rfl⟩
      · obtain ⟨d', hd', hrest⟩ := h.known x hx htype
        exact ⟨d', mem_append_left _ hd', hrest⟩

theorem loaded_instances (cfg : ResetConfig) (rows : List InstanceRow) (h : Loaded cfg now [] s) :
    Loaded cfg now [] (rows.foldl (fun s row =>
      if row.resettime > now then
        s.scheduleReset true row.resettime (instResetEvent 0 row.key row.id)
      else
        s) s) := by
  refine List.foldlRecOn rows _ h fun s h row _ => ?_
  split
  · refine ⟨h.inOrder.insert _, h.now_eq, h.resets, fun _ hd => absurd hd not_mem_nil,
      fun _ hd => absurd hd not_mem_nil, h.fresh, fun x hx htype => ?_⟩
    rcases TimeQueue.mem_insert.1 hx with rfl | hx
    · exact absurd rfl htype
    · exact h.known x hx htype
  · exact h

theorem loaded_instanceReset (hdiff : cfg.diff < day) (rows : List InstanceResetRow)
    (h : Loaded cfg now [] s) :
    Loaded cfg now [] (rows.foldl (fun s row =>
      if cfg.mapDifficulties.any fun d => d.key = (row.mapid, row.difficulty) then
        s.setResetTimeFor (row.mapid, row.difficulty) (row.resettime / day * day + cfg.diff)
      else
        s) s) := by
  refine List.foldlRecOn rows _ h fun s h row _ => ?_
  split
  · refine ⟨h.inOrder, h.now_eq, h.resets, fun _ hd => absurd hd not_mem_nil,
      fun _ hd => absurd hd not_mem_nil, fun key hkey => ?_, h.known⟩
    by_cases heq : key = (row.mapid, row.difficulty)
    · refine .inr ?_
      simp only [heq, setResetTimeFor, update_self]
      rw [Nat.mul_add_mod', Nat.mod_eq_of_lt hdiff]
    · simp only [setResetTimeFor, update_of_ne heq]
      exact h.fresh key hkey
  · exact h

theorem loaded_loadResetTimes (hown : NoOwnResets cfg tables) (hdiff : cfg.diff < day) :
    Loaded cfg now cfg.mapDifficulties (loadResetTimes cfg tables now) := by
  have hstart : Loaded cfg now [] { now := now } :=
    ⟨.nil, rfl, rfl, fun _ hd => absurd hd not_mem_nil,
      fun _ hd => absurd hd not_mem_nil, fun _ _ => .inl rfl,
      fun _ hx => absurd hx not_mem_nil⟩
  have htables := loaded_instanceReset hdiff tables.instanceReset
    (loaded_instances cfg (instResetTime tables) hstart)
  rw [loadResetTimes]
  generalize List.foldl _ _ tables.instanceReset = s at htables ⊢
  -- by induction on the map difficulties done so far
  suffices hall : ∀ l, l <+: cfg.mapDifficulties →
      Loaded cfg now l (l.foldl (ResetSchedule.loadMapDifficulty cfg tables now) s) from
    hall _ (prefix_refl _)
  intro l
  induction l using List.reverseRecOn with
  | nil => exact fun _ => htables
  | append_singleton l d ih =>
    intro hpre
    have hkeys := cfg.keys_nodup.sublist (hpre.sublist.map MapDifficulty.key)
    rw [map_append, nodup_append] at hkeys
    rw [foldl_append]
    refine (ih ((prefix_append l [d]).trans hpre)).loadMapDifficulty hown hdiff
      (hpre.subset (by simp)) fun hmem => ?_
    exact hkeys.2.2 _ hmem _ (by simp) rfl

theorem Loaded.sound (h : Loaded cfg now cfg.mapDifficulties s) :
    s.Sound cfg ∧ ∀ d, Periodic cfg d → s.now ≤ s.resetTimes d.key := by
  refine ⟨⟨h.inOrder, fun d hd => h.pending d hd.1 hd.2, fun d hd => (h.timeOfDay d hd.1 hd.2).2,
    fun d _ => ?_, fun x hx htype => ?_⟩, fun d hd => ?_⟩
  · rw [Advances, resetsOf, h.resets]
    exact .singleton _
  · obtain ⟨d, hd, hper, hkey⟩ := h.known x hx htype
    exact ⟨d, ⟨hd, hper⟩, hkey⟩
  · rw [h.now_eq]
    exact (h.timeOfDay d hd.1 hd.2).1

/-! ## The calls -/

/-- An event of an instance is taken out of the queue. -/
theorem Sound.eraseP (h : s.Sound cfg) {p : ℤ × InstResetEvent → Bool}
    (hp : ∀ x, p x = true → x.2.instanceId ≠ 0) :
    Sound cfg { s with queue := s.queue.eraseP p } := by
  rcases exists_or_eq_self_of_eraseP p s.queue with heq | ⟨a, l1, l2, -, ha, hl, heq⟩ <;>
    rw [heq]
  · exact h
  · have hsub : (l1 ++ l2).Sublist s.queue := by
      rw [hl]
      exact List.Sublist.append_left (sublist_cons_self a l2) l1
    refine ⟨h.inOrder.sublist hsub, fun d hd => ?_, h.timeOfDay, h.advances,
      fun x hx => h.known x (hsub.subset hx)⟩
    obtain ⟨type, h1, h4, hone⟩ := h.pending d hd
    refine ⟨type, h1, h4, ?_⟩
    have hnot : ¬(decide (a.2.type ≠ 0 ∧ a.2.key = d.key) = true) := by
      intro hboth
      have hmem : a ∈ s.globalEvents d.key := mem_filter.2 ⟨by simp [hl], hboth⟩
      rw [hone, mem_singleton] at hmem
      exact hp a ha (hmem ▸ rfl)
    have hcons : (a :: l2).filter (fun x => x.2.type ≠ 0 ∧ x.2.key = d.key) =
        l2.filter fun x => x.2.type ≠ 0 ∧ x.2.key = d.key := filter_cons_of_neg hnot
    rw [globalEvents, hl, filter_append, hcons, ← filter_append] at hone
    exact hone

theorem Sound.scheduleReset (h : s.Sound cfg) {add : Bool} {time : ℤ} {key : MapDiff}
    {instanceId : ℕ} (hmeets : add = true ∨ instanceId % 2 ^ 16 ≠ 0) :
    (s.scheduleReset add time (instResetEvent 0 key instanceId)).Sound cfg := by
  cases add with
  | false =>
    have hid : instanceId % 2 ^ 16 ≠ 0 := hmeets.resolve_left Bool.false_ne_true
    simp only [ResetSchedule.scheduleReset, Bool.not_false, if_true]
    split
    · refine h.eraseP fun x hx => ?_
      simp only [Bool.and_eq_true, decide_eq_true_eq] at hx
      exact hx.2 ▸ hid
    · refine h.eraseP fun x hx => ?_
      exact of_decide_eq_true hx ▸ hid
  | true =>
    refine ⟨h.inOrder.insert _, fun d hd => ?_, h.timeOfDay, h.advances, fun x hx htype => ?_⟩
    · obtain ⟨type, h1, h4, hone⟩ := h.pending d hd
      exact ⟨type, h1, h4, (TimeQueue.filter_insert_of_neg (by simp [instResetEvent]) _).trans hone⟩
    · rcases TimeQueue.mem_insert.1 hx with rfl | hx
      · exact absurd rfl htype
      · exact h.known x hx htype

theorem resetTimeDelay_nonneg (i : ℕ) : 0 ≤ resetTimeDelay i := by
  rw [resetTimeDelay.eq_def]
  split <;> decide

/-- The reset times are not before the events of the queue. -/
theorem Sound.le_resetTimes (h : s.Sound cfg) {now : ℕ} (hle : ∀ x ∈ s.queue, (now : ℤ) ≤ x.1)
    (hd : Periodic cfg d) : now ≤ s.resetTimes d.key := by
  obtain ⟨type, -, -, hone⟩ := h.pending d hd
  have hmem := hone ▸ mem_singleton_self
    ((s.resetTimes d.key : ℤ) - resetTimeDelay (type - 1), instResetEvent type d.key 0)
  have htime := hle _ (mem_filter.1 hmem).1
  have hdelay := resetTimeDelay_nonneg (type - 1)
  omega

theorem Sound.serve (h : s.Sound cfg) (hle : ∀ d, Periodic cfg d → s.now ≤ s.resetTimes d.key)
    (hhour : cfg.resetTimeHour ≤ 23) {call : Call} (hmeets : Meets cfg s call) :
    (s.serve cfg call).Sound cfg ∧
      ∀ d, Periodic cfg d → (s.serve cfg call).now ≤ (s.serve cfg call).resetTimes d.key := by
  cases call with
  | update now =>
    have hstart : Sound cfg { s with now := now } :=
      ⟨h.inOrder, h.pending, h.timeOfDay, h.advances, h.known⟩
    obtain ⟨hs, hnow, hx⟩ := hstart.updateLoop hhour
      (fun d hd => hmeets.2 d hd.1 hd.2) (le_refl _)
    exact ⟨hs, fun d hd => hs.le_resetTimes (hnow ▸ hx) hd⟩
  | scheduleReset add time key instanceId =>
    refine ⟨h.scheduleReset hmeets, ?_⟩
    have hsame : (s.scheduleReset add time (instResetEvent 0 key instanceId)).now = s.now ∧
        (s.scheduleReset add time (instResetEvent 0 key instanceId)).resetTimes = s.resetTimes := by
      simp only [ResetSchedule.scheduleReset]
      split
      · split <;> exact ⟨rfl, rfl⟩
      · exact ⟨rfl, rfl⟩
    intro d hd
    exact hsame.1 ▸ hsame.2 ▸ hle d hd

end ResetSchedule

open ResetSchedule

/-- Where resets are before midnight, no saved instance of a map difficulty that is reset has a
reset time of its own, no event is cancelled for an instance whose number is 0 in 16 bits, and what
is due is of instanceable maps and within 32 bits, the schedule holds at every time. -/
theorem resetSchedule_run (cfg : ResetConfig) (tables : ResetTables) (now : ℕ) (calls : List Call)
    (hhour : cfg.resetTimeHour ≤ 23) (hown : NoOwnResets cfg tables)
    (hmeets : Along (serve cfg) (Meets cfg) (loadResetTimes cfg tables now) calls)
    (d : MapDifficulty) (hd : Periodic cfg d) :
    (run (serve cfg) (loadResetTimes cfg tables now) calls).Scheduled d := by
  have hdiff : cfg.diff < day := by
    rw [ResetConfig.diff, day]
    omega
  have hstep : ∀ s call, (Sound cfg s ∧ ∀ d, Periodic cfg d → s.now ≤ s.resetTimes d.key) →
      Meets cfg s call → Sound cfg (serve cfg s call) ∧
        ∀ d, Periodic cfg d → (serve cfg s call).now ≤ (serve cfg s call).resetTimes d.key :=
    fun _ _ hs hmeets => hs.1.serve hs.2 hhour hmeets
  obtain ⟨hs, hle⟩ := invariant_run hstep (loaded_loadResetTimes hown hdiff).sound
    hmeets
  exact ⟨hs.pending d hd, hle d hd, hs.advances d hd⟩

/-- A map difficulty that is reset every week, at four. -/
def weekly : ResetConfig where
  mapDifficulties := [⟨533, 0, 7 * day⟩]
  resetTimeHour := 4
  instanceable := fun _ => true
  keys_nodup := by decide
  resetTime_days := by decide

theorem due_weekly {s : ResetSchedule} (ht : s.resetTimes (533, 0) = 27 * day + 4 * 3600) :
    Due weekly s ⟨533, 0, 7 * day⟩ (28 * day) := by
  have hperiod : (⟨533, 0, 7 * day⟩ : MapDifficulty).period = 7 * day := by decide
  intro k hk
  rw [MapDifficulty.key, ht, hperiod] at hk ⊢
  have h0 : k = 0 := by
    by_contra hne
    have : 1 * (7 * day) ≤ k * (7 * day) := Nat.mul_le_mul_right _ (Nat.pos_of_ne_zero hne)
    omega
  rw [h0]
  exact ⟨rfl, by decide⟩

theorem resetSchedule_run_weekly :
    (run (serve weekly) (loadResetTimes weekly {} (20 * day))
      [.update (28 * day), .scheduleReset false 0 (533, 0) 7]).Scheduled ⟨533, 0, 7 * day⟩ := by
  refine resetSchedule_run weekly {} _ _ (by decide) (fun _ h => absurd h not_mem_nil) ?_ _
    ⟨mem_singleton_self _, by decide⟩
  refine ⟨⟨by decide, fun d hd _ => ?_⟩, .inr (by decide), trivial⟩
  rw [mem_singleton.1 hd]
  exact due_weekly (by decide)

/-- A saved instance with a reset time of its own has a second event queued for its map, with which
the map is reset twice at once. -/
theorem not_scheduled_savedInstance :
    ¬(run (serve weekly) (loadResetTimes weekly { instances := [⟨7, 533, 0, 21 * day⟩] } (20 * day))
      [.update (28 * day)]).Scheduled ⟨533, 0, 7 * day⟩ := by
  have htwo : ((run (serve weekly)
      (loadResetTimes weekly { instances := [⟨7, 533, 0, 21 * day⟩] } (20 * day))
      [.update (28 * day)]).globalEvents (533, 0)).length = 2 := by
    decide
  rintro ⟨⟨type, -, -, heq⟩, -⟩
  rw [MapDifficulty.key] at heq
  rw [heq] at htwo
  exact absurd htwo (Nat.ne_of_lt (Nat.lt_succ_self 1))

end MistyWorld
