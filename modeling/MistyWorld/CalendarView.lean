import MistyWorld.Calendar
import Mathlib.Data.Finset.Image

/-!
# What a player sees of the calendar

`GetPlayerEvents` collects the events of the invites of a player, and those whose guild id is that
of the player, if the player is found online. A player without a guild has the guild id `0`, and so
has an event without a guild : such a player is shown the personal events of everybody.

What is shown is what should be, exactly when every event of the player's number has the player
among its invitees, or the player is online with a guild or offline without one
(`playerEvents_iff`). Where it is, adding, changing or removing an event without a guild that the
player is not invited to makes no difference (`agree_addEvent`, `agree_updateEvent`,
`agree_removeEvent`).
-/

open List

namespace MistyWorld

namespace CalendarMgr

/-- `GetPlayerEvents`. A null pointer is `none`; `online` is whether `FindPlayer` finds the
player. -/
def getPlayerEvents (m : CalendarMgr) (online : ℕ → Bool) (getGuildId : ℕ → ℕ) (guid : ℕ) :
    Finset (Option CalendarEvent) :=
  let events :=
    ((m.invites.filter fun i => i.invitee = guid).map fun i => m.getEvent i.eventId).toFinset
  if online guid then
    events ∪ ((m.events.filter fun e => e.guildId = getGuildId guid).map some).toFinset
  else events

/-- What `HandleCalendarUpdateEvent` changes of an event here. -/
def updateEvent (m : CalendarMgr) (eventId flags : ℕ) : CalendarMgr :=
  { m with events := m.events.map fun e => if e.eventId = eventId then { e with flags } else e }

/-- The player has an invite that belongs to the event. -/
def Invited (m : CalendarMgr) (guid : ℕ) (e : CalendarEvent) : Prop :=
  ∃ i ∈ m.invites, i.invitee = guid ∧ m.getEvent i.eventId = some e

/-- Each invite belongs to an existing event. -/
def Belong (m : CalendarMgr) : Prop :=
  ∀ i ∈ m.invites, ∃ e, m.getEvent i.eventId = some e

/-- The events that a player is to be shown. -/
def ShownTo (m : CalendarMgr) (getGuildId : ℕ → ℕ) (guid : ℕ) (e : CalendarEvent) : Prop :=
  m.Invited guid e ∨ getGuildId guid ≠ 0 ∧ e ∈ m.events ∧ e.guildId = getGuildId guid

/-- What is shown is what should be, and no null entry. -/
def ShowsRight (m : CalendarMgr) (online : ℕ → Bool) (getGuildId : ℕ → ℕ) (guid : ℕ) : Prop :=
  none ∉ m.getPlayerEvents online getGuildId guid ∧
    ∀ e, some e ∈ m.getPlayerEvents online getGuildId guid ↔ m.ShownTo getGuildId guid e

/-- The calendars differ by events without a guild that the player is not invited to. -/
structure Agree (m m' : CalendarMgr) (guid : ℕ) : Prop where
  invited : ∀ e, m.Invited guid e ↔ m'.Invited guid e
  guild : ∀ e, e.guildId ≠ 0 → (e ∈ m.events ↔ e ∈ m'.events)

variable {m m' : CalendarMgr} {online : ℕ → Bool} {getGuildId : ℕ → ℕ} {guid : ℕ}

theorem mem_getPlayerEvents {e : CalendarEvent} :
    some e ∈ m.getPlayerEvents online getGuildId guid ↔ m.Invited guid e ∨
      online guid = true ∧ e ∈ m.events ∧ e.guildId = getGuildId guid := by
  have hinvited : some e ∈ ((m.invites.filter fun i => i.invitee = guid).map fun i =>
      m.getEvent i.eventId).toFinset ↔ m.Invited guid e := by
    simp [Invited, and_assoc]
  unfold getPlayerEvents
  split_ifs with honline
  · rw [Finset.mem_union, hinvited]
    simp [honline]
  · rw [hinvited]
    simp [honline]

theorem none_notMem_getPlayerEvents (h : m.Belong) :
    none ∉ m.getPlayerEvents online getGuildId guid := by
  have hinvites : none ∉ ((m.invites.filter fun i => i.invitee = guid).map fun i =>
      m.getEvent i.eventId).toFinset := by
    simp only [mem_toFinset, mem_map, mem_filter, not_exists, not_and]
    rintro i ⟨hi, -⟩ hnone
    obtain ⟨e, he⟩ := h i hi
    rw [he] at hnone
    cases hnone
  unfold getPlayerEvents
  split_ifs
  · rw [Finset.mem_union, not_or]
    exact ⟨hinvites, by simp⟩
  · exact hinvites

/-- A player is shown what it should be exactly when every event with its guild id, that of no guild
included, is one it is invited to, or it is online exactly if it has a guild. Then the events that
are not for the player do not matter. -/
theorem playerEvents_iff (m : CalendarMgr) (h : m.Belong) (online : ℕ → Bool) (getGuildId : ℕ → ℕ)
    (guid : ℕ) :
    (m.ShowsRight online getGuildId guid ↔
      ∀ e ∈ m.events, e.guildId = getGuildId guid →
        m.Invited guid e ∨ (online guid = true ↔ getGuildId guid ≠ 0)) ∧
    (m.ShowsRight online getGuildId guid → ∀ m' : CalendarMgr, m'.Belong → m.Agree m' guid →
      m'.ShowsRight online getGuildId guid →
      m'.getPlayerEvents online getGuildId guid = m.getPlayerEvents online getGuildId guid) := by
  refine ⟨⟨fun hright e he hguild => ?_, fun hcond => ⟨none_notMem_getPlayerEvents h, fun e => ?_⟩⟩,
    fun hright m' h' hagree hright' => ?_⟩
  · have hiff := hright.2 e
    rw [mem_getPlayerEvents, ShownTo] at hiff
    tauto
  · have hguild := fun he => hcond e he
    rw [mem_getPlayerEvents, ShownTo]
    tauto
  · ext o
    cases o with
    | none => exact iff_of_false hright'.1 hright.1
    | some e =>
      rw [hright'.2, hright.2, ShownTo, ShownTo, hagree.invited e]
      refine or_congr_right (and_congr_right fun hguild => and_congr_left fun heq => ?_)
      exact (hagree.guild e (heq ▸ hguild)).symm

/-! ## Changes -/

/-- In order, the event of an invite is the one with its id. -/
theorem InOrder.getEvent_eq_some_iff (h : InOrder m) {eventId : ℕ} {e : CalendarEvent} :
    m.getEvent eventId = some e ↔ e ∈ m.events ∧ e.eventId = eventId := by
  constructor
  · intro hfind
    exact ⟨mem_of_find?_eq_some hfind, by simpa using List.find?_some hfind⟩
  · rintro ⟨he, rfl⟩
    exact h.getEvent he

/-- Adding an event without a guild. -/
theorem agree_addEvent (h : m.Belong) {eventId : ℕ}
    (hguild : ∀ e ∈ m.drafts, e.eventId = eventId → e.guildId = 0) (guid : ℕ) :
    m.Agree (m.addEvent eventId) guid := by
  rw [addEvent]
  split
  · exact ⟨fun _ => .rfl, fun _ _ => .rfl⟩
  · rename_i e hfind
    have hid : e.eventId = eventId := by simpa using List.find?_some hfind
    have hzero := hguild e (mem_of_find?_eq_some hfind) hid
    refine ⟨fun a => ?_, fun a ha => ?_⟩
    · refine exists_congr fun i => and_congr_right fun hi => and_congr_right fun _ => ?_
      obtain ⟨b, hb⟩ := h i hi
      have happend : ({ m with drafts := m.drafts.erase e, events := m.events ++ [e] } :
          CalendarMgr).getEvent i.eventId = some b := by
        rw [getEvent] at hb ⊢
        rw [List.find?_append, hb, Option.some_or]
      rw [hb, happend]
    · rw [mem_append, mem_singleton]
      refine (or_iff_left fun heq => ha ?_).symm
      rw [heq, hzero]

/-- Changing an event without a guild, without an invite to the player. -/
theorem agree_updateEvent (h : m.Belong) {eventId : ℕ}
    (hguild : ∀ e ∈ m.events, e.eventId = eventId → e.guildId = 0)
    (hinvites : ∀ i ∈ m.invites, i.invitee = guid → i.eventId ≠ eventId) (flags : ℕ) :
    m.Agree (m.updateEvent eventId flags) guid := by
  refine ⟨fun a => ?_, fun a ha => ?_⟩
  · refine exists_congr fun i => and_congr_right fun hi => and_congr_right fun hp => ?_
    have hne := hinvites i hi hp
    have hpred : ((fun e : CalendarEvent => decide (e.eventId = i.eventId)) ∘
        fun e => if e.eventId = eventId then { e with flags } else e) =
        fun e => decide (e.eventId = i.eventId) := by
      funext e
      dsimp only [Function.comp]
      split_ifs <;> rfl
    have hsame : (m.updateEvent eventId flags).getEvent i.eventId = m.getEvent i.eventId := by
      rw [getEvent, updateEvent, List.find?_map, hpred]
      obtain ⟨b, hb⟩ := h i hi
      have hid : b.eventId = i.eventId := by simpa using List.find?_some hb
      rw [getEvent] at hb ⊢
      rw [hb, Option.map_some, if_neg (hid ▸ hne)]
    rw [hsame]
  · rw [updateEvent, mem_map]
    constructor
    · intro hmem
      exact ⟨a, hmem, if_neg fun heq => ha (hguild a hmem heq)⟩
    · rintro ⟨b, hb, rfl⟩
      split_ifs at ha ⊢ with heq
      · exact absurd (hguild b hb heq) ha
      · exact hb

/-- Removing an event without a guild, without an invite to the player. -/
theorem agree_removeEvent (h : InOrder m) {eventId : ℕ}
    (hguild : ∀ e ∈ m.events, e.eventId = eventId → e.guildId = 0)
    (hinvites : ∀ i ∈ m.invites, i.invitee = guid → i.eventId ≠ eventId) :
    m.Agree (m.removeEvent eventId) guid := by
  have h' := h.removeEvent eventId
  rw [removeEvent] at h' ⊢
  cases hfind : m.getEvent eventId with
  | none => exact ⟨fun _ => .rfl, fun _ _ => .rfl⟩
  | some e =>
    rw [hfind] at h'
    obtain ⟨he, hid⟩ := h.getEvent_eq_some_iff.1 hfind
    have hnodup : m.events.Nodup := by
      have hids := h.events.live_nodup
      rw [liveEventIds, map_append] at hids
      exact List.Nodup.of_map _ (List.Nodup.of_append_left hids)
    refine ⟨fun a => ?_, fun a ha => ?_⟩
    · constructor
      · rintro ⟨i, hi, hp, hget⟩
        have hne := hinvites i hi hp
        obtain ⟨hmem, haid⟩ := h.getEvent_eq_some_iff.1 hget
        refine ⟨i, mem_filter.2 ⟨hi, by simpa using hne⟩, hp, ?_⟩
        refine h'.getEvent_eq_some_iff.2 ⟨(hnodup.mem_erase_iff).2 ⟨?_, hmem⟩, haid⟩
        rintro rfl
        exact hne (haid.symm.trans hid)
      · rintro ⟨i, hi, hp, hget⟩
        obtain ⟨hmem, haid⟩ := h'.getEvent_eq_some_iff.1 hget
        exact ⟨i, (mem_filter.1 hi).1, hp,
          h.getEvent_eq_some_iff.2 ⟨mem_of_mem_erase hmem, haid⟩⟩
    · refine ⟨fun hmem => (hnodup.mem_erase_iff).2 ⟨?_, hmem⟩, mem_of_mem_erase⟩
      rintro rfl
      exact ha (hguild a he hid)

/-! ## The guild number of no guild -/

/-- Player `1` has a personal event that only player `2` is invited to. -/
def personalEvent : CalendarMgr where
  events := [⟨1, 1, 0, 0⟩]
  invites := [⟨1, 1, 2⟩]

/-- In a guild, player `3` is shown nothing of it. -/
theorem playerEvents_guild : personalEvent.ShowsRight (fun _ => true) (fun _ => 7) 3 := by
  have hbelong : personalEvent.Belong := by
    intro i hi
    rw [mem_singleton.1 hi]
    exact ⟨_, rfl⟩
  refine (playerEvents_iff personalEvent hbelong (fun _ => true) (fun _ => 7) 3).1.2 ?_
  intro e _ _
  right
  decide

/-- Without a guild, it is shown the event. -/
theorem playerEvents_noGuild :
    some ⟨1, 1, 0, 0⟩ ∈ personalEvent.getPlayerEvents (fun _ => true) (fun _ => 0) 3 ∧
      ¬personalEvent.ShownTo (fun _ => 0) 3 ⟨1, 1, 0, 0⟩ := by
  refine ⟨by decide, ?_⟩
  rintro (⟨i, hi, hp, -⟩ | ⟨hne, -⟩)
  · rw [mem_singleton.1 hi] at hp
    exact absurd hp (by decide)
  · exact hne rfl

end CalendarMgr

end MistyWorld
