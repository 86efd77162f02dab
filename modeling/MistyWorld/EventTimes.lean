import MistyWorld.GameEvent

/-!
# The times of events

A normal event lasts for its length from each multiple of its occurrence after its start, up to its
end. `CheckOneGameEvent` says whether it is on, `NextCheck` how long that stays so at least, and
`Update` comes back a second after the smallest of these delays.

The two functions agree at every boundary but one : in the second of the start the event is not on
yet, and the delay is that to the end of its first window. And both divide by the occurrence, which
loading does not check. `eventTimes_iff` says when the delay is right, and `update_delay` that
`Update` comes back with it.
-/

open List Word

namespace MistyWorld

/-! ## Loading -/

/-- A row of `game_event`. The times are in seconds. -/
structure GameEventRow where
  eventEntry : ℕ
  startTime : ℕ
  endTime : ℕ
  occurence : ℕ
  length : ℕ
  worldEvent : GameEventState := .normal

namespace GameEventRow

variable (row : GameEventRow)

/-- The data that a row gives. -/
def data (F : Type*) : GameEventData F where
  start := row.startTime
  endTime := row.endTime
  occurence := toU32 row.occurence
  length := toU32 row.length
  state := row.worldEvent

end GameEventRow

namespace GameEventMgr

variable {F : Type*}

/-- The body of the loop of `LoadFromDB`. -/
def loadRow (m : GameEventMgr F) (row : GameEventRow) : GameEventMgr F :=
  if toU8 row.eventEntry = 0 then m else m.setEvent (toU8 row.eventEntry) (row.data F)

/-- `GameEventMgr::LoadFromDB`. -/
def loadEvents (rows : List GameEventRow) : GameEventMgr F :=
  rows.foldl loadRow { event := fun _ => {} }

/-! ## Divisions -/

/-- `a % b`, if it is not a division by zero. -/
def modulo (a : ℤ) (b : ℕ) : Option ℤ :=
  if b = 0 then none else some (a % b)

/-- `CheckOneGameEvent`, unless it divides by zero. -/
def checkOneGameEvent? (m : GameEventMgr F) (now entry : ℕ) : Option Bool :=
  let data := m.event entry
  match data.state with
  | .normal =>
    if data.start < now ∧ now < data.endTime then
      (modulo (now - data.start) (toU32 (data.occurence * minute))).map fun phase : ℤ =>
        phase < toU32 (data.length * minute)
    else some false
  | _ => some (m.checkOneGameEvent now entry)

/-- `NextCheck`, unless it divides by zero. -/
def nextCheck? (m : GameEventMgr F) (now entry : ℕ) : Option ℕ :=
  let data := m.event entry
  if (data.state = .worldNextphase ∨ data.state = .worldFinished) ∧ now ≤ data.nextstart then
    some (m.nextCheck now entry)
  else if data.state = .worldConditions then some (m.nextCheck now entry)
  else if data.endTime < now then some maxGeCheckDelay
  else if now < data.start then some (toU32 (data.start - now))
  else
    (modulo (now - data.start) (toU32 (data.occurence * 60))).map fun phase : ℤ =>
      let delay := toU32 (if phase < toU32 (data.length * 60)
        then (toU32 (data.length * minute) : ℤ) - phase
        else (toU32 (data.occurence * minute) : ℤ) - phase)
      if data.endTime < now + delay then toU32 (data.endTime - now) else delay

section Update

variable [LT F] [DecidableLT F] (t : GameEventTables F)

/-- The body of the loop of `Update`, unless it divides by zero. An event that is finished is not
asked for its next check. -/
def updateOne? (now : ℕ) (p : UpdatePass F) (entry : ℕ) : Option (UpdatePass F) :=
  let data := p.mgr.event entry
  let next := updateOne t now p entry
  if (p.mgr.checkOneGameEvent? now entry).isSome = true ∧
      (data.state = .worldNextphase ∧ data.nextstart ≤ now ∨
        (next.mgr.nextCheck? now entry).isSome = true) then some next
  else none

/-- `Update`, unless it divides by zero. -/
def update? [Zero F] (m : GameEventMgr F) (now : ℕ) : Option (GameEventMgr F × ℕ) :=
  ((List.range' 1 (t.size - 1)).foldlM (updateOne? t now) { mgr := m }).map fun _ =>
    m.update t now

end Update

/-- The events that `Update` goes over. -/
def events (t : GameEventTables F) : List ℕ :=
  List.range' 1 (t.size - 1)

/-- The smallest delay that `Update` finds. -/
def smallestCheck (t : GameEventTables F) (m : GameEventMgr F) (now : ℕ) : ℕ :=
  (events t).foldl (fun delay entry => min delay (m.nextCheck now entry)) maxGeCheckDelay

end GameEventMgr

/-! ## Boundaries -/

namespace GameEventData

variable {F : Type*} (data : GameEventData F) (now : ℕ)

/-- The seconds from a window to the next, in 32 bits. -/
def period : ℕ :=
  toU32 (data.occurence * minute)

/-- The seconds of a window, in 32 bits. -/
def window : ℕ :=
  toU32 (data.length * minute)

/-- The seconds since the beginning of the last window. -/
def phase : ℤ :=
  (now - data.start) % data.period

/-- Both functions divide by the period. -/
def Divides : Prop :=
  data.start ≤ now ∧ now ≤ data.endTime

/-- The event has its first window from the next second on. -/
def StartsNow : Prop :=
  data.start = now ∧ (now : ℤ) + 1 < data.endTime ∧ data.window ≠ 0

/-- A start, an end or a boundary of a window is at the time, or a second later. The distance to a
start is taken in 32 bits. -/
def Turns : Prop :=
  (now < data.start ∧ now ≤ data.endTime) ∧ (data.start - now) % 2 ^ 32 ≤ 1 ∨
    data.Divides now ∧ (data.endTime ≤ now + 1 ∨ data.phase now + 1 = data.window ∨
      data.window ≤ data.phase now ∧ data.phase now + 1 = data.period)

instance : Decidable (data.Divides now) :=
  inferInstanceAs (Decidable (_ ∧ _))

instance : Decidable (data.StartsNow now) :=
  inferInstanceAs (Decidable (_ ∧ _ ∧ _))

instance : Decidable (data.Turns now) :=
  inferInstanceAs (Decidable (_ ∨ _))

end GameEventData

namespace GameEventMgr

variable {F : Type*} {m : GameEventMgr F} {now entry : ℕ} {data : GameEventData F}

theorem checkOneGameEvent_normal (h : (m.event entry).state = .normal) (now : ℕ) :
    m.checkOneGameEvent now entry = true ↔ (m.event entry).start < now ∧
      now < (m.event entry).endTime ∧ (m.event entry).phase now < (m.event entry).window := by
  simp only [checkOneGameEvent, h, Bool.and_eq_true, decide_eq_true_eq, and_assoc,
    GameEventData.phase, GameEventData.window, GameEventData.period]

theorem nextCheck_normal (h : (m.event entry).state = .normal) (now : ℕ) :
    m.nextCheck now entry =
      let data := m.event entry
      if data.endTime < now then maxGeCheckDelay
      else if now < data.start then toU32 (data.start - now)
      else
        let delay := toU32 (if data.phase now < data.window then data.window - data.phase now
          else data.period - data.phase now)
        if data.endTime < now + delay then toU32 (data.endTime - now) else delay := by
  simp only [nextCheck, h, reduceCtorEq, or_self, false_and, if_false]
  rfl

theorem modulo_isSome {a : ℤ} {b : ℕ} : (modulo a b).isSome = true ↔ b ≠ 0 := by
  unfold modulo
  split_ifs with h <;> simp [h]

theorem nextCheck?_isSome (h : (m.event entry).state = .normal) (now : ℕ) :
    (m.nextCheck? now entry).isSome = true ↔
      ((m.event entry).Divides now → (m.event entry).period ≠ 0) := by
  simp only [nextCheck?, h, reduceCtorEq, or_self, false_and, if_false]
  split_ifs with hend hstart
  · exact ⟨fun _ hdiv => absurd hdiv.2 (not_le.2 hend), fun _ => rfl⟩
  · exact ⟨fun _ hdiv => absurd hdiv.1 (not_le.2 hstart), fun _ => rfl⟩
  · rw [Option.isSome_map, modulo_isSome]
    exact ⟨fun hne _ => hne, fun hne => hne ⟨not_lt.1 hstart, not_lt.1 hend⟩⟩

theorem checkOneGameEvent?_isSome (h : (m.event entry).state = .normal) {now : ℕ}
    (hperiod : (m.event entry).Divides now → (m.event entry).period ≠ 0) :
    (m.checkOneGameEvent? now entry).isSome = true := by
  simp only [checkOneGameEvent?, h]
  split_ifs with hon
  · rw [Option.isSome_map, modulo_isSome]
    exact hperiod ⟨hon.1.le, hon.2.le⟩
  · rfl

/-- Between two multiples of the period the phase grows with the time. -/
theorem phase_add (hperiod : data.period ≠ 0) {now u : ℕ} (hle : now ≤ u)
    (hlt : data.phase now + (u - now) < data.period) :
    data.phase u = data.phase now + (u - now) := by
  unfold GameEventData.phase at *
  have hsplit : (u - data.start : ℤ) = (now - data.start) + (u - now) := by omega
  have hnonneg : (0 : ℤ) ≤ (now - data.start) % data.period := Int.emod_nonneg _ (by omega)
  rw [hsplit, ← Int.emod_add_emod]
  exact Int.emod_eq_of_lt (by omega) hlt

theorem phase_bounds (hperiod : data.period ≠ 0) (now : ℕ) :
    0 ≤ data.phase now ∧ data.phase now < data.period :=
  ⟨Int.emod_nonneg _ (by omega), Int.emod_lt_of_pos _ (by omega)⟩

theorem phase_start (h : data.start = now) : data.phase now = 0 := by
  rw [GameEventData.phase, h, sub_self, Int.zero_emod]

section

variable (h : (m.event entry).state = .normal)
include h

/-- The delay from inside or outside a window, within 32 bits. -/
theorem nextCheck_divides (hdiv : (m.event entry).Divides now)
    (hperiod : (m.event entry).period ≠ 0) :
    ∃ delay : ℕ, m.nextCheck now entry = min delay ((m.event entry).endTime - now).toNat ∧
      (((m.event entry).phase now < (m.event entry).window ∧
          (delay : ℤ) = (m.event entry).window - (m.event entry).phase now) ∨
        ((m.event entry).window ≤ (m.event entry).phase now ∧
          (delay : ℤ) = (m.event entry).period - (m.event entry).phase now)) := by
  obtain ⟨hnonneg, hlt⟩ := phase_bounds hperiod now
  have hwindow : (m.event entry).window < 2 ^ 32 := toU32_lt _
  have hlt32 : (m.event entry).period < 2 ^ 32 := toU32_lt _
  obtain ⟨hstart, hend⟩ := hdiv
  rw [nextCheck_normal h]
  dsimp only
  rw [if_neg (not_lt.2 hend), if_neg (not_lt.2 hstart)]
  generalize (m.event entry).phase now = phase at *
  generalize (m.event entry).window = window at *
  generalize (m.event entry).period = period at *
  generalize (m.event entry).endTime = endTime at *
  by_cases hin : phase < window
  · refine ⟨toU32 (window - phase), ?_, .inl ⟨hin, toU32_of_range (by omega) (by omega)⟩⟩
    have hdelay := toU32_of_range (z := window - phase) (by omega) (by omega)
    split_ifs with hlast
    · have := toU32_of_range (z := endTime - now) (by omega) (by omega)
      omega
    · omega
  · refine ⟨toU32 (period - phase), ?_, .inr ⟨not_lt.1 hin, toU32_of_range (by omega) (by omega)⟩⟩
    have hdelay := toU32_of_range (z := period - phase) (by omega) (by omega)
    split_ifs with hlast
    · have := toU32_of_range (z := endTime - now) (by omega) (by omega)
      omega
    · omega

theorem nextCheck_of_not_divides (hdiv : ¬ (m.event entry).Divides now) :
    ((m.event entry).endTime < now ∧ m.nextCheck now entry = maxGeCheckDelay) ∨
      now ≤ (m.event entry).endTime ∧ now < (m.event entry).start ∧
        m.nextCheck now entry = toU32 ((m.event entry).start - now) := by
  rw [nextCheck_normal h]
  by_cases hend : (m.event entry).endTime < now
  · exact .inl ⟨hend, if_pos hend⟩
  · have hbefore : now < (m.event entry).start :=
      not_le.1 fun hstart => hdiv ⟨hstart, not_lt.1 hend⟩
    exact .inr ⟨not_lt.1 hend, hbefore, by rw [if_neg hend, if_pos hbefore]⟩

/-- Until its next check an event stays as it is, unless it is about to start. -/
theorem checkOneGameEvent_until (hperiod : (m.event entry).Divides now → (m.event entry).period ≠ 0)
    (hstart : ¬ (m.event entry).StartsNow now) {u : ℕ} (hle : now ≤ u)
    (hlt : u < now + m.nextCheck now entry) :
    m.checkOneGameEvent u entry = m.checkOneGameEvent now entry := by
  rcases hle.eq_or_lt with rfl | hlater
  · rfl
  rw [Bool.eq_iff_iff, checkOneGameEvent_normal h, checkOneGameEvent_normal h]
  by_cases hdiv : (m.event entry).Divides now
  · obtain ⟨delay, hcheck, hdelay⟩ := nextCheck_divides h hdiv (hperiod hdiv)
    obtain ⟨hnonneg, hphase⟩ := phase_bounds (hperiod hdiv) now
    obtain ⟨-, hphase'⟩ := phase_bounds (hperiod hdiv) u
    have hgrow := phase_add (hperiod hdiv) hle
    have hzero : (m.event entry).start = now → (m.event entry).phase now = 0 := phase_start
    unfold GameEventData.StartsNow at hstart
    obtain ⟨hfrom, hto⟩ := hdiv
    generalize (m.event entry).phase now = phase at *
    generalize (m.event entry).phase u = phase' at *
    generalize (m.event entry).window = window at *
    generalize (m.event entry).period = period at *
    generalize (m.event entry).endTime = endTime at *
    omega
  · rcases nextCheck_of_not_divides h hdiv with ⟨hend, -⟩ | ⟨-, hbefore, hcheck⟩
    · omega
    · have hshort : (toU32 ((m.event entry).start - now) : ℤ) ≤ (m.event entry).start - now := by
        unfold toU32
        omega
      omega

/-- A check within a second is one at a boundary. -/
theorem nextCheck_le_one_iff (hperiod : (m.event entry).Divides now → (m.event entry).period ≠ 0) :
    m.nextCheck now entry ≤ 1 ↔ (m.event entry).Turns now := by
  unfold GameEventData.Turns
  by_cases hdiv : (m.event entry).Divides now
  · obtain ⟨delay, hcheck, hdelay⟩ := nextCheck_divides h hdiv (hperiod hdiv)
    obtain ⟨hnonneg, hphase⟩ := phase_bounds (hperiod hdiv) now
    simp only [hdiv, true_and]
    obtain ⟨hfrom, hto⟩ := hdiv
    generalize (m.event entry).phase now = phase at *
    generalize (m.event entry).window = window at *
    generalize (m.event entry).period = period at *
    generalize (m.event entry).endTime = endTime at *
    omega
  · simp only [hdiv, false_and, or_false]
    rcases nextCheck_of_not_divides h hdiv with ⟨hend, hcheck⟩ | ⟨hend, hbefore, hcheck⟩
    · rw [hcheck, maxGeCheckDelay]
      omega
    · rw [hcheck, toU32]
      omega

/-- At its start an event is off, and on a second later. -/
theorem checkOneGameEvent_start (hstart : (m.event entry).StartsNow now) :
    m.checkOneGameEvent now entry = false ∧ m.checkOneGameEvent (now + 1) entry = true := by
  obtain ⟨hnow, hend, hwindow⟩ := hstart
  constructor
  · rw [Bool.eq_false_iff, Ne, checkOneGameEvent_normal h]
    omega
  · rw [checkOneGameEvent_normal h]
    refine ⟨by omega, by omega, ?_⟩
    have hphase : (m.event entry).phase (now + 1) ≤ 1 := by
      have hone : ((now + 1 : ℕ) : ℤ) - now = (1 : ℕ) := by omega
      rw [GameEventData.phase, hnow, hone]
      exact_mod_cast Nat.mod_le 1 _
    have hfour : 4 ≤ (m.event entry).window := by
      unfold GameEventData.window toU32 minute at *
      omega
    omega

end

/-! ## Updates -/

theorem lt_foldl_min_iff {f : ℕ → ℕ} {k : ℕ} : ∀ (l : List ℕ) (d : ℕ),
    k < l.foldl (fun d e => min d (f e)) d ↔ k < d ∧ ∀ e ∈ l, k < f e
  | [], d => by simp
  | e :: l, d => by
    rw [foldl_cons, lt_foldl_min_iff l, lt_min_iff, forall_mem_cons, and_assoc]

variable {t : GameEventTables F} {p : UpdatePass F}

theorem smallestCheck_le {e : ℕ} (he : e ∈ events t) :
    smallestCheck t m now ≤ m.nextCheck now e := by
  by_contra hlt
  exact lt_irrefl _ (((lt_foldl_min_iff (events t) maxGeCheckDelay).1 (not_le.1 hlt)).2 e he)

/-- All events are normal events. -/
def Normal (m : GameEventMgr F) : Prop :=
  ∀ e, (m.event e).state = .normal

/-- Rows of normal events load normal events. -/
theorem normal_loadEvents {rows : List GameEventRow}
    (hrows : ∀ row ∈ rows, row.worldEvent = .normal) :
    (loadEvents rows : GameEventMgr F).Normal := by
  refine List.foldlRecOn rows loadRow (fun _ => rfl) fun m hm row hrow e => ?_
  unfold loadRow
  split_ifs
  · exact hm e
  · by_cases he : e = toU8 row.eventEntry
    · rw [he, setEvent]
      simp only [Function.update_self]
      exact hrows row hrow
    · simp only [setEvent, Function.update_of_ne he]
      exact hm e

/-- For every table of normal events and every time : no division by zero is made, and no event
changes before the smallest delay has passed, exactly when no event in its time has an occurrence of
zero seconds, and an event that starts in this second is accompanied by a boundary, of it or of
another event, at most a second away. -/
theorem eventTimes_iff (t : GameEventTables F) (rows : List GameEventRow)
    (hrows : ∀ row ∈ rows, row.worldEvent = .normal) (now : ℕ) :
    let m : GameEventMgr F := loadEvents rows
    ((∀ e ∈ events t, (m.checkOneGameEvent? now e).isSome = true ∧
          (m.nextCheck? now e).isSome = true) ∧
        ∀ e ∈ events t, ∀ u, now ≤ u → u < now + smallestCheck t m now →
          m.checkOneGameEvent u e = m.checkOneGameEvent now e) ↔
      (∀ e ∈ events t, (m.event e).Divides now → (m.event e).period ≠ 0) ∧
        ((∃ e ∈ events t, (m.event e).StartsNow now) → ∃ e ∈ events t, (m.event e).Turns now) := by
  intro m
  have hnormal : m.Normal := normal_loadEvents hrows
  constructor
  · rintro ⟨hdivisions, hsame⟩
    have hperiod : ∀ e ∈ events t, (m.event e).Divides now → (m.event e).period ≠ 0 :=
      fun e he => (nextCheck?_isSome (hnormal e) now).1 (hdivisions e he).2
    refine ⟨hperiod, ?_⟩
    rintro ⟨e, he, hstart⟩
    by_contra hnone
    push Not at hnone
    have hlong : 1 < smallestCheck t m now := by
      refine (lt_foldl_min_iff (events t) maxGeCheckDelay).2 ⟨by decide, fun a ha => not_le.1 ?_⟩
      rw [nextCheck_le_one_iff (hnormal a) (hperiod a ha)]
      exact hnone a ha
    obtain ⟨hoff, hon⟩ := checkOneGameEvent_start (hnormal e) hstart
    have heq := hsame e he (now + 1) (by omega) (by omega)
    rw [hoff, hon] at heq
    cases heq
  · rintro ⟨hperiod, hturns⟩
    refine ⟨fun e he => ⟨checkOneGameEvent?_isSome (hnormal e) (hperiod e he),
      (nextCheck?_isSome (hnormal e) now).2 (hperiod e he)⟩, fun e he u hle hlt => ?_⟩
    by_cases hstart : (m.event e).StartsNow now
    · obtain ⟨a, ha, hturn⟩ := hturns ⟨e, he, hstart⟩
      have hcheck := (nextCheck_le_one_iff (hnormal a) (hperiod a ha)).2 hturn
      have hsmall : smallestCheck t m now ≤ m.nextCheck now a := smallestCheck_le ha
      obtain rfl : u = now := by omega
      rfl
    · have hsmall : smallestCheck t m now ≤ m.nextCheck now e := smallestCheck_le he
      exact checkOneGameEvent_until (hnormal e) (hperiod e he) hstart hle (by omega)

theorem gameEventSpawn_event (m : GameEventMgr F) (eventId : ℤ) :
    (m.gameEventSpawn t eventId).event = m.event := by
  unfold gameEventSpawn
  split_ifs <;> rfl

theorem gameEventUnspawn_event (m : GameEventMgr F) (eventId : ℤ) :
    (m.gameEventUnspawn t eventId).event = m.event := by
  unfold gameEventUnspawn
  split_ifs <;> rfl

theorem nextCheck_congr {m' : GameEventMgr F} (h : m'.event = m.event) (now entry : ℕ) :
    m'.nextCheck now entry = m.nextCheck now entry := by
  unfold nextCheck
  rw [h]

theorem delay_normal (hp : p.mgr.event = m.event) (now entry : ℕ) :
    (p.delay now entry).mgr.event = m.event ∧
      (p.delay now entry).nextEventDelay = min p.nextEventDelay (m.nextCheck now entry) :=
  ⟨hp, by rw [UpdatePass.delay, nextCheck_congr hp]⟩

section Update

variable [LT F] [DecidableLT F]

/-- The loop leaves normal events as they are, and takes the least delay. -/
theorem updateOne_normal (hm : m.Normal) (hp : p.mgr.event = m.event) (now entry : ℕ) :
    (updateOne t now p entry).mgr.event = m.event ∧
      (updateOne t now p entry).nextEventDelay =
        min p.nextEventDelay (m.nextCheck now entry) := by
  have hstate : (p.mgr.event entry).state = .normal := by
    rw [hp]
    exact hm entry
  unfold updateOne
  simp only [hstate, reduceCtorEq, false_and, if_false]
  have hspawn := (gameEventSpawn_event (t := t) p.mgr (-entry)).trans hp
  split_ifs
  · exact delay_normal hp now entry
  · exact delay_normal hp now entry
  · exact delay_normal hp now entry
  · exact delay_normal hp now entry
  · exact delay_normal hspawn now entry

theorem foldl_updateOne_normal (hm : m.Normal) (now : ℕ) : ∀ (l : List ℕ) {p : UpdatePass F},
    p.mgr.event = m.event → (l.foldl (updateOne t now) p).mgr.event = m.event ∧
      (l.foldl (updateOne t now) p).nextEventDelay =
        l.foldl (fun delay entry => min delay (m.nextCheck now entry)) p.nextEventDelay
  | [], _, hp => ⟨hp, rfl⟩
  | e :: l, p, hp => by
    obtain ⟨hevent, hdelay⟩ := updateOne_normal (t := t) hm hp now e
    obtain ⟨hevent', hdelay'⟩ := foldl_updateOne_normal hm now l hevent
    exact ⟨hevent', by rw [foldl_cons, foldl_cons, hdelay', hdelay]⟩

/-- Starting normal events does not ask for an update. -/
theorem foldl_startQueued_normal (hm : m.Normal) (now : ℕ) : ∀ (l : List ℕ)
    {s : GameEventMgr F × ℕ}, s.1.event = m.event → (l.foldl (startQueued t now) s).2 = s.2
  | [], _, _ => rfl
  | e :: l, s, hs => by
    have hstate : (s.1.event e).state = .normal := by
      rw [hs]
      exact hm e
    have hstart : s.1.startEvent t now e false =
        (applyNewEvent t { s.1 with activeEvents := insert e s.1.activeEvents } e, false) := by
      simp [startEvent, hstate]
    have hevent : (startQueued t now s e).1.event = m.event := by
      rw [startQueued, hstart, applyNewEvent, updateEventQuests, gameEventUnspawn_event,
        gameEventSpawn_event, hs]
    rw [foldl_cons, foldl_startQueued_normal hm now l hevent, startQueued, hstart]
    rfl

/-- Where no check divides by zero, the loop goes through. -/
theorem updateOne?_normal (hm : m.Normal) (hp : p.mgr.event = m.event) {now entry : ℕ}
    (hperiod : (m.event entry).Divides now → (m.event entry).period ≠ 0) :
    updateOne? t now p entry = some (updateOne t now p entry) := by
  obtain ⟨hnext, -⟩ := updateOne_normal (t := t) hm hp now entry
  rw [updateOne?, if_pos]
  refine ⟨checkOneGameEvent?_isSome ?_ ?_, Or.inr ((nextCheck?_isSome ?_ now).2 ?_)⟩
  · rw [hp]
    exact hm entry
  · rwa [hp]
  · rw [hnext]
    exact hm entry
  · rwa [hnext]

theorem foldlM_updateOne?_normal (hm : m.Normal) (now : ℕ) : ∀ (l : List ℕ) {p : UpdatePass F},
    p.mgr.event = m.event → (∀ e ∈ l, (m.event e).Divides now → (m.event e).period ≠ 0) →
      l.foldlM (updateOne? t now) p = some (l.foldl (updateOne t now) p)
  | [], _, _, _ => rfl
  | e :: l, p, hp, hperiod => by
    obtain ⟨he, hl⟩ := forall_mem_cons.1 hperiod
    rw [foldlM_cons, updateOne?_normal hm hp he]
    exact foldlM_updateOne?_normal hm now l (updateOne_normal hm hp now e).1 hl

/-- `Update` comes back a second after the smallest delay, where no event between its start and its
end has the period zero. -/
theorem update_delay [Zero F] (hm : m.Normal) {now : ℕ}
    (hperiod : ∀ e ∈ events t, (m.event e).Divides now → (m.event e).period ≠ 0) :
    (m.update? t now).map Prod.snd = some ((smallestCheck t m now + 1) * 1000) := by
  obtain ⟨hevent, hdelay⟩ := foldl_updateOne_normal (t := t) hm now (List.range' 1 (t.size - 1))
    (p := { mgr := m }) rfl
  have hle : smallestCheck t m now ≤ maxGeCheckDelay := by
    by_contra hlt
    exact lt_irrefl _ ((lt_foldl_min_iff (events t) maxGeCheckDelay).1 (not_le.1 hlt)).1
  have hstarted := foldl_startQueued_normal (t := t) (m := m) hm now
    ((List.range' 1 (t.size - 1)).foldl (updateOne t now) { mgr := m }).activate
    (s := (((List.range' 1 (t.size - 1)).foldl (updateOne t now) { mgr := m }).mgr,
      ((List.range' 1 (t.size - 1)).foldl (updateOne t now) { mgr := m }).nextEventDelay)) hevent
  unfold maxGeCheckDelay at hle
  have hpass := foldlM_updateOne?_normal (t := t) hm now (List.range' 1 (t.size - 1))
    (p := { mgr := m }) rfl hperiod
  rw [update?, hpass, Option.map_some, Option.map_some]
  unfold update
  dsimp only
  rw [hstarted, hdelay]
  change some (toU32 (((smallestCheck t m now + 1 : ℕ) * 1000 : ℕ) : ℤ)) = _
  rw [toU32_of_lt (by omega)]

end Update

/-! ## An event that starts now -/

/-- An event of ten minutes in every hundred. -/
def hourlyRow : GameEventRow where
  eventEntry := 1
  startTime := 1000
  endTime := 100000
  occurence := 100
  length := 10

/-- The table of one event. -/
def oneEvent : GameEventTables ℕ where
  size := 2

/-- A second after its start the delay is right. -/
theorem eventTimes_later :
    smallestCheck oneEvent (loadEvents [hourlyRow] : GameEventMgr ℕ) 1001 = 599 ∧
      (loadEvents [hourlyRow] : GameEventMgr ℕ).checkOneGameEvent 1599 1 =
        (loadEvents [hourlyRow] : GameEventMgr ℕ).checkOneGameEvent 1001 1 := by
  have hcheck : smallestCheck oneEvent (loadEvents [hourlyRow] : GameEventMgr ℕ) 1001 = 599 := by
    decide
  exact ⟨hcheck, ((eventTimes_iff oneEvent [hourlyRow] (by decide) 1001).2
    ⟨by decide, fun h => absurd h (by decide)⟩).2 1 (by decide) 1599 (by decide)
      (by rw [hcheck]; decide)⟩

theorem update_delay_later :
    ((loadEvents [hourlyRow] : GameEventMgr ℕ).update? oneEvent 1001).map Prod.snd =
      some 600000 := by
  have hcheck : smallestCheck oneEvent (loadEvents [hourlyRow] : GameEventMgr ℕ) 1001 = 599 := by
    decide
  exact (update_delay (normal_loadEvents (by decide)) (by decide)).trans (by rw [hcheck])

/-- In the second of its start the event is off, and the delay is that to the end of its window. An
event that never recurs makes a division by zero. -/
theorem eventTimes_start :
    smallestCheck oneEvent (loadEvents [hourlyRow] : GameEventMgr ℕ) 1000 = 600 ∧
      (loadEvents [hourlyRow] : GameEventMgr ℕ).checkOneGameEvent 1000 1 = false ∧
      (loadEvents [hourlyRow] : GameEventMgr ℕ).checkOneGameEvent 1001 1 = true ∧
      (loadEvents [{ hourlyRow with occurence := 0 }] : GameEventMgr ℕ).nextCheck? 1001 1 =
        none := by
  decide

end GameEventMgr

end MistyWorld
