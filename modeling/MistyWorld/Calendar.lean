import MistyWorld.IdPool
import MistyWorld.Run
import Mathlib.Data.List.Sort

/-!
# The calendar

Players create events and are invited to events. `CalendarMgr` keeps both, with a pool of ids for
each. When a character is removed its events and invites go with it, and when it leaves its guild
those of the guild do.

An event is created with a free id, invites may be sent for it, and it is added to the calendar.
The ids are always those of a single event and of a single invite. The two functions that remove
what belongs to a player go over the set of events while `RemoveEvent` erases from it : with an
event to remove they advance an iterator whose element is gone (`removeEvents_eq_none_iff`). Where
there is none, they remove exactly the invites they should (`calendar_run`).

Packets, mails and statements are left out, and the fields that only they use.
-/

open List Machine

namespace MistyWorld

def calendarFlagWithoutInvites : ℕ := 0x040
def calendarFlagGuildEvent : ℕ := 0x400

structure CalendarEvent where
  eventId : ℕ
  creatorGUID : ℕ
  guildId : ℕ := 0
  flags : ℕ := 0
  deriving DecidableEq, Repr

structure CalendarInvite where
  inviteId : ℕ
  eventId : ℕ
  invitee : ℕ
  deriving DecidableEq, Repr

namespace CalendarEvent

def isGuildEvent (e : CalendarEvent) : Bool :=
  e.flags &&& calendarFlagGuildEvent ≠ 0

def isGuildAnnouncement (e : CalendarEvent) : Bool :=
  e.flags &&& calendarFlagWithoutInvites ≠ 0

end CalendarEvent

/-- The calendar. The invites of all events are in one list, those of an event in their order;
`drafts` are the events that are created and not yet added. -/
structure CalendarMgr where
  events : List CalendarEvent := []
  drafts : List CalendarEvent := []
  invites : List CalendarInvite := []
  eventIds : IdPool := {}
  inviteIds : IdPool := {}
  deriving DecidableEq, Repr

namespace CalendarMgr

/-- `GetEvent`. -/
def getEvent (m : CalendarMgr) (eventId : ℕ) : Option CalendarEvent :=
  m.events.find? fun e => e.eventId = eventId

/-- `GetPlayerInvites` : the invites of the events in the order of their ids. -/
def getPlayerInvites (m : CalendarMgr) (guid : ℕ) : List CalendarInvite :=
  (m.invites.filter fun i => i.invitee = guid).mergeSort fun i j => i.eventId ≤ j.eventId

/-- `LoadFromDB` of the rows `id, creator, flags` of the events and of those of the invites. -/
def loadFromDB (guildIdFromDB : ℕ → ℕ) (rows : List (ℕ × ℕ × ℕ)) (inviteRows : List CalendarInvite) :
    CalendarMgr where
  events := rows.map fun row =>
    { eventId := row.1
      creatorGUID := row.2.1
      guildId :=
        if row.2.2 &&& calendarFlagGuildEvent ≠ 0 ∨ row.2.2 &&& calendarFlagWithoutInvites ≠ 0 then
          guildIdFromDB row.2.1 else 0
      flags := row.2.2 }
  invites := inviteRows
  eventIds := .load (rows.map Prod.fst)
  inviteIds := .load (inviteRows.map CalendarInvite.inviteId)

/-- A new event with the id that `GetFreeEventId` gives. -/
def createEvent (m : CalendarMgr) (creator guildId flags : ℕ) : CalendarMgr :=
  { m with
    drafts := m.drafts ++ [⟨m.eventIds.take.1, creator, guildId, flags⟩]
    eventIds := m.eventIds.take.2 }

/-- `AddEvent`. -/
def addEvent (m : CalendarMgr) (eventId : ℕ) : CalendarMgr :=
  match m.drafts.find? fun e => e.eventId = eventId with
  | none => m
  | some e => { m with drafts := m.drafts.erase e, events := m.events ++ [e] }

/-- `AddInvite`. -/
def addInvite (m : CalendarMgr) (e : CalendarEvent) (invite : CalendarInvite) : CalendarMgr :=
  if e.isGuildAnnouncement then m else { m with invites := m.invites ++ [invite] }

/-- `AddInvite` of a new invite, with the id that `GetFreeInviteId` gives, to an event that is added
or about to be. -/
def inviteTo (m : CalendarMgr) (eventId invitee : ℕ) : CalendarMgr :=
  match (m.events ++ m.drafts).find? fun e => e.eventId = eventId with
  | none => m
  | some e =>
    { m with inviteIds := m.inviteIds.take.2 }.addInvite e ⟨m.inviteIds.take.1, e.eventId, invitee⟩

/-- `RemoveEvent`. The destructors return the ids. -/
def removeEvent (m : CalendarMgr) (eventId : ℕ) : CalendarMgr :=
  match m.getEvent eventId with
  | none => m
  | some e =>
    let eventInvites := m.invites.filter fun i => i.eventId = eventId
    { m with
      invites := m.invites.filter fun i => i.eventId ≠ eventId
      inviteIds := (eventInvites.map CalendarInvite.inviteId).foldl IdPool.release m.inviteIds
      events := m.events.erase e
      eventIds := m.eventIds.release e.eventId }

/-- `RemoveInvite`. -/
def removeInvite (m : CalendarMgr) (inviteId eventId : ℕ) : CalendarMgr :=
  match m.getEvent eventId with
  | none => m
  | some _ =>
    match m.invites.find? fun i => i.eventId = eventId ∧ i.inviteId = inviteId with
    | none => m
    | some i =>
      { m with invites := m.invites.erase i, inviteIds := m.inviteIds.release i.inviteId }

/-- A loop over the events that removes some of them. It goes on from an event only if the event is
still there; otherwise the iterator it advances is invalid, and what follows is not defined. -/
def removeEvents (wanted : CalendarEvent → Bool) :
    List CalendarEvent → CalendarMgr → Option CalendarMgr
  | [], m => some m
  | e :: rest, m =>
    let m := if wanted e then m.removeEvent e.eventId else m
    if e ∈ m.events then removeEvents wanted rest m else none

/-- A loop over a copy of the invites of a player. -/
def removeInvites (wanted : CalendarMgr → CalendarInvite → Bool) (invites : List CalendarInvite)
    (m : CalendarMgr) : CalendarMgr :=
  invites.foldl (fun m i => if wanted m i then m.removeInvite i.inviteId i.eventId else m) m

/-- `RemoveAllPlayerEventsAndInvites`. -/
def removeAllPlayerEventsAndInvites (m : CalendarMgr) (guid : ℕ) : Option CalendarMgr :=
  (removeEvents (fun e => e.creatorGUID = guid) m.events m).map fun m =>
    removeInvites (fun _ _ => true) (m.getPlayerInvites guid) m

/-- The invite is to a guild event of the guild. -/
def toGuildEvent (guildId : ℕ) (m : CalendarMgr) (i : CalendarInvite) : Bool :=
  match m.getEvent i.eventId with
  | none => false
  | some e => e.isGuildEvent && e.guildId = guildId

/-- `RemovePlayerGuildEventsAndSignups`. -/
def removePlayerGuildEventsAndSignups (m : CalendarMgr) (guid guildId : ℕ) : Option CalendarMgr :=
  (removeEvents (fun e => e.creatorGUID = guid && (e.isGuildEvent || e.isGuildAnnouncement))
    m.events m).map fun m =>
      removeInvites (toGuildEvent guildId) (m.getPlayerInvites guid) m

/-! ## The ids -/

/-- The ids of the events, the created ones included. -/
def liveEventIds (m : CalendarMgr) : List ℕ :=
  (m.events ++ m.drafts).map CalendarEvent.eventId

def liveInviteIds (m : CalendarMgr) : List ℕ :=
  m.invites.map CalendarInvite.inviteId

/-- The invariant : the pools are in order for the ids of the events and of the invites. -/
structure InOrder (m : CalendarMgr) : Prop where
  events : m.eventIds.Serves m.liveEventIds
  invites : m.inviteIds.Serves m.liveInviteIds

variable {m : CalendarMgr} {i : CalendarInvite} {e : CalendarEvent}

theorem inOrder_loadFromDB {guildIdFromDB : ℕ → ℕ} {rows : List (ℕ × ℕ × ℕ)}
    {inviteRows : List CalendarInvite} (hrows : (rows.map Prod.fst).Nodup)
    (hrowsLt : ∀ row ∈ rows, row.1 < 2 ^ 64)
    (hinvites : (inviteRows.map CalendarInvite.inviteId).Nodup)
    (hinvitesLt : ∀ i ∈ inviteRows, i.inviteId < 2 ^ 64) :
    InOrder (loadFromDB guildIdFromDB rows inviteRows) where
  events := by
    have hids : (loadFromDB guildIdFromDB rows inviteRows).liveEventIds = rows.map Prod.fst := by
      simp [liveEventIds, loadFromDB]
    rw [hids]
    refine IdPool.serves_load hrows fun id hid => ?_
    obtain ⟨row, hrow, rfl⟩ := mem_map.1 hid
    exact hrowsLt row hrow
  invites := by
    refine IdPool.serves_load hinvites fun id hid => ?_
    obtain ⟨i, hi, rfl⟩ := mem_map.1 hid
    exact hinvitesLt i hi

theorem getEvent_congr {m' : CalendarMgr} (h : m'.events = m.events) :
    m'.getEvent = m.getEvent := by
  funext eventId
  rw [getEvent, getEvent, h]

section

variable (h : InOrder m)
include h

theorem InOrder.eq_of_eventId {e' : CalendarEvent} (he : e ∈ m.events) (he' : e' ∈ m.events)
    (heq : e.eventId = e'.eventId) : e = e' := by
  have hnodup := h.events.live_nodup
  rw [liveEventIds, map_append] at hnodup
  exact inj_on_of_nodup_map (List.Nodup.of_append_left hnodup) he he' heq

theorem InOrder.getEvent (he : e ∈ m.events) : m.getEvent e.eventId = some e := by
  cases hfind : m.getEvent e.eventId with
  | none =>
    have := List.find?_eq_none.1 hfind e he
    simp at this
  | some e' =>
    have hid : e'.eventId = e.eventId := by simpa using List.find?_some hfind
    rw [h.eq_of_eventId (mem_of_find?_eq_some hfind) he hid]

theorem InOrder.createEvent (creator guildId flags : ℕ) (hroom : m.eventIds.Room m.liveEventIds) :
    m.eventIds.take.1 ∉ m.liveEventIds ∧ InOrder (m.createEvent creator guildId flags) := by
  obtain ⟨hfresh, hserves⟩ := h.events.take hroom
  refine ⟨hfresh, hserves.perm ?_, h.invites⟩
  rw [CalendarMgr.createEvent, liveEventIds, liveEventIds]
  simp only [← append_assoc, map_append, map_cons, map_nil]
  exact (perm_append_singleton _ _).symm

theorem InOrder.addEvent (eventId : ℕ) : InOrder (m.addEvent eventId) := by
  rw [CalendarMgr.addEvent]
  split
  · exact h
  · rename_i e hfind
    refine ⟨h.events.perm ?_, h.invites⟩
    have hmem := mem_of_find?_eq_some hfind
    refine List.Perm.map _ ?_
    simp only [append_assoc, singleton_append]
    exact (perm_cons_erase hmem).append_left m.events

theorem InOrder.inviteTo (eventId invitee : ℕ) (hroom : m.inviteIds.Room m.liveInviteIds) :
    m.inviteIds.take.1 ∉ m.liveInviteIds ∧ InOrder (m.inviteTo eventId invitee) := by
  obtain ⟨hfresh, hserves⟩ := h.invites.take hroom
  refine ⟨hfresh, ?_⟩
  rw [CalendarMgr.inviteTo]
  split
  · exact h
  · rw [addInvite]
    split
    · exact ⟨h.events, hserves.mono (sublist_cons_self _ _)⟩
    · refine ⟨h.events, hserves.perm ?_⟩
      rw [liveInviteIds, liveInviteIds, map_append]
      exact (perm_append_singleton _ _).symm

theorem InOrder.removeEvent (eventId : ℕ) : InOrder (m.removeEvent eventId) := by
  rw [CalendarMgr.removeEvent]
  split
  · exact h
  · rename_i e hfind
    refine ⟨(h.events.perm ?_).release, (h.invites.perm ?_).releaseAll⟩
    · have hmem := mem_of_find?_eq_some hfind
      have hperm : (m.events ++ m.drafts).Perm (e :: (m.events.erase e ++ m.drafts)) :=
        (perm_cons_erase hmem).append_right m.drafts
      exact hperm.map CalendarEvent.eventId
    · rw [liveInviteIds, liveInviteIds, ← map_append]
      refine List.Perm.map _ ?_
      have := filter_append_perm (fun i : CalendarInvite => decide (i.eventId = eventId)) m.invites
      simpa using this.symm

theorem InOrder.erase_invite (hi : i ∈ m.invites) :
    InOrder { m with invites := m.invites.erase i, inviteIds := m.inviteIds.release i.inviteId } :=
  ⟨h.events, (h.invites.perm (List.Perm.map _ (perm_cons_erase hi))).release⟩

theorem InOrder.removeInvite (inviteId eventId : ℕ) :
    InOrder (m.removeInvite inviteId eventId) := by
  rw [CalendarMgr.removeInvite]
  split
  · exact h
  · split
    · exact h
    · rename_i hfind
      exact h.erase_invite (mem_of_find?_eq_some hfind)

end

/-! ## The loops -/

theorem getEvent_removeEvent_ne (h : InOrder m) (he : e ∈ m.events) :
    e ∉ (m.removeEvent e.eventId).events := by
  have hnodup : m.events.Nodup := by
    have := h.events.live_nodup
    rw [liveEventIds, map_append] at this
    exact List.Nodup.of_map _ (List.Nodup.of_append_left this)
  rw [CalendarMgr.removeEvent, h.getEvent he]
  exact hnodup.not_mem_erase

/-- The loop over the events fails exactly where there is one to remove. -/
theorem removeEvents_eq {wanted : CalendarEvent → Bool} (h : InOrder m) :
    ∀ l : List CalendarEvent, (∀ e ∈ l, e ∈ m.events) →
      removeEvents wanted l m = if ∃ e ∈ l, wanted e = true then none else some m
  | [], _ => by simp [removeEvents]
  | e :: l, hl => by
    have he := hl e mem_cons_self
    have ih : removeEvents wanted l m = if ∃ a ∈ l, wanted a = true then none else some m :=
      removeEvents_eq h l fun a ha => hl a (mem_cons_of_mem e ha)
    rw [removeEvents]
    by_cases hw : wanted e = true
    · rw [if_pos hw, if_neg (getEvent_removeEvent_ne h he),
        if_pos ⟨e, mem_cons_self, hw⟩]
    · rw [if_neg hw, if_pos he, ih]
      simp [hw]

theorem removeEvents_eq_none_iff {wanted : CalendarEvent → Bool} (h : InOrder m) :
    removeEvents wanted m.events m = none ↔ ∃ e ∈ m.events, wanted e = true := by
  rw [removeEvents_eq h m.events fun _ he => he]
  simp

/-- The events and drafts are those of `m`, the invites those that are not `removed`. -/
structure RemovesInvites (removed : CalendarInvite → Prop) (m m' : CalendarMgr) : Prop where
  inOrder : InOrder m'
  events : m'.events = m.events
  drafts : m'.drafts = m.drafts
  mem_invites : ∀ i, i ∈ m'.invites ↔ i ∈ m.invites ∧ ¬removed i

theorem InOrder.invites_nodup (h : InOrder m) : m.invites.Nodup :=
  h.invites.live_nodup.of_map _

theorem InOrder.find_invite (h : InOrder m) (hi : i ∈ m.invites) :
    m.invites.find? (fun j => j.eventId = i.eventId ∧ j.inviteId = i.inviteId) = some i := by
  cases hfind : m.invites.find? fun j => j.eventId = i.eventId ∧ j.inviteId = i.inviteId with
  | none =>
    have := List.find?_eq_none.1 hfind i hi
    simp at this
  | some j =>
    have hid : j.eventId = i.eventId ∧ j.inviteId = i.inviteId := by
      simpa using List.find?_some hfind
    have hj := mem_of_find?_eq_some hfind
    rw [inj_on_of_nodup_map h.invites.live_nodup hj hi hid.2]

/-- An invite to an event of the calendar is removed. -/
theorem InOrder.removeInvite_self (h : InOrder m) (hi : i ∈ m.invites)
    (hevent : m.getEvent i.eventId ≠ none) :
    RemovesInvites (· = i) m (m.removeInvite i.inviteId i.eventId) := by
  obtain ⟨e, he⟩ := Option.ne_none_iff_exists'.1 hevent
  have heq : m.removeInvite i.inviteId i.eventId =
      { m with invites := m.invites.erase i, inviteIds := m.inviteIds.release i.inviteId } := by
    rw [CalendarMgr.removeInvite, he]
    rw [h.find_invite hi]
  rw [heq]
  exact ⟨h.erase_invite hi, rfl, rfl, fun j => by
    rw [h.invites_nodup.mem_erase_iff]
    exact and_comm⟩

/-- The loop over invites of events of the calendar removes those that are wanted. -/
theorem removeInvites_spec {wanted : CalendarMgr → CalendarInvite → Bool}
    (hwanted : ∀ m m' : CalendarMgr, m'.events = m.events → wanted m' = wanted m) :
    ∀ {l : List CalendarInvite} {m : CalendarMgr}, InOrder m → l.Nodup →
      (∀ i ∈ l, i ∈ m.invites ∧ (wanted m i = true → m.getEvent i.eventId ≠ none)) →
      RemovesInvites (fun i => i ∈ l ∧ wanted m i = true) m (removeInvites wanted l m)
  | [], m, h, _, _ => ⟨h, rfl, rfl, by simp [removeInvites]⟩
  | i :: l, m, h, hnodup, hl => by
    obtain ⟨hil, hnodup⟩ := nodup_cons.1 hnodup
    obtain ⟨hi, hevent⟩ := hl i mem_cons_self
    have hrest : ∀ j ∈ l, j ∈ m.invites ∧ (wanted m j = true → m.getEvent j.eventId ≠ none) :=
      fun j hj => hl j (mem_cons_of_mem i hj)
    rw [removeInvites, foldl_cons]
    by_cases hw : wanted m i = true
    · obtain ⟨hinOrder, hevents, hdrafts, hinvites⟩ := h.removeInvite_self hi (hevent hw)
      have hsame := hwanted m _ hevents
      obtain ⟨hinOrder', hevents', hdrafts', hinvites'⟩ := removeInvites_spec hwanted hinOrder
        hnodup fun j hj => by
          rw [hsame, hinvites, getEvent_congr hevents]
          exact ⟨⟨(hrest j hj).1, fun hji => hil (hji ▸ hj)⟩, (hrest j hj).2⟩
      rw [if_pos hw]
      refine ⟨hinOrder', hevents'.trans hevents, hdrafts'.trans hdrafts, fun j => ?_⟩
      rw [← removeInvites, hinvites', hinvites, hsame, mem_cons]
      constructor
      · rintro ⟨⟨hj, hne⟩, hnot⟩
        exact ⟨hj, fun h => h.1.elim hne fun hjl => hnot ⟨hjl, h.2⟩⟩
      · rintro ⟨hj, hnot⟩
        exact ⟨⟨hj, fun hji => hnot ⟨Or.inl hji, hji ▸ hw⟩⟩, fun h => hnot ⟨Or.inr h.1, h.2⟩⟩
    · obtain ⟨hinOrder', hevents', hdrafts', hinvites'⟩ := removeInvites_spec hwanted h hnodup hrest
      rw [if_neg hw]
      refine ⟨hinOrder', hevents', hdrafts', fun j => ?_⟩
      rw [← removeInvites, hinvites', mem_cons]
      refine and_congr_right fun _ => not_congr (and_congr_left fun hwj => ?_)
      exact (or_iff_right fun hji : j = i => hw (hji ▸ hwj)).symm

theorem mem_getPlayerInvites {guid : ℕ} :
    i ∈ m.getPlayerInvites guid ↔ i ∈ m.invites ∧ i.invitee = guid := by
  simp [getPlayerInvites, mem_mergeSort]

theorem toGuildEvent_iff {guildId : ℕ} : toGuildEvent guildId m i = true ↔
    ∃ e, m.getEvent i.eventId = some e ∧ e.isGuildEvent = true ∧ e.guildId = guildId := by
  rw [toGuildEvent]
  cases m.getEvent i.eventId <;> simp

theorem toGuildEvent_congr (guildId : ℕ) {m' : CalendarMgr} (h : m'.events = m.events) :
    toGuildEvent guildId m' = toGuildEvent guildId m := by
  funext i
  rw [toGuildEvent, toGuildEvent, getEvent_congr h]

theorem InOrder.getPlayerInvites_nodup (h : InOrder m) (guid : ℕ) :
    (m.getPlayerInvites guid).Nodup :=
  (mergeSort_perm _ _).nodup_iff.2 (h.invites_nodup.filter _)

/-! ## Runs -/

inductive CalendarRequest
  | createEvent (creator guildId flags : ℕ)
  | addEvent (eventId : ℕ)
  | addInvite (eventId invitee : ℕ)
  | removeEvent (eventId : ℕ)
  | removeInvite (inviteId eventId : ℕ)
  | removeAllPlayerEventsAndInvites (guid : ℕ)
  | removePlayerGuildEventsAndSignups (guid guildId : ℕ)

def serve (m : CalendarMgr) : CalendarRequest → Option CalendarMgr
  | .createEvent creator guildId flags => some (m.createEvent creator guildId flags)
  | .addEvent eventId => some (m.addEvent eventId)
  | .addInvite eventId invitee => some (m.inviteTo eventId invitee)
  | .removeEvent eventId => some (m.removeEvent eventId)
  | .removeInvite inviteId eventId => some (m.removeInvite inviteId eventId)
  | .removeAllPlayerEventsAndInvites guid => m.removeAllPlayerEventsAndInvites guid
  | .removePlayerGuildEventsAndSignups guid guildId =>
    m.removePlayerGuildEventsAndSignups guid guildId

/-- A request is served, unless what happened before is not defined. -/
def calendarStep (s : Option CalendarMgr) (r : CalendarRequest) : Option CalendarMgr :=
  s.bind fun m => m.serve r

/-- Exactly these events and invites are removed, and everything else stays. -/
structure Removes (events : CalendarEvent → Prop) (invites : CalendarInvite → Prop)
    (m m' : CalendarMgr) : Prop where
  mem_events : ∀ e, e ∈ m'.events ↔ e ∈ m.events ∧ ¬events e
  drafts : m'.drafts = m.drafts
  mem_invites : ∀ i, i ∈ m'.invites ↔ i ∈ m.invites ∧ ¬invites i

/-- The invite is to an event of the calendar for which `p` holds. -/
def To (m : CalendarMgr) (p : CalendarEvent → Prop) (i : CalendarInvite) : Prop :=
  ∃ e ∈ m.events, e.eventId = i.eventId ∧ p e

/-- The event is a guild event or an announcement of the player. -/
def GuildEventBy (guid : ℕ) (e : CalendarEvent) : Prop :=
  e.creatorGUID = guid ∧ (e.isGuildEvent = true ∨ e.isGuildAnnouncement = true)

/-- What the request should remove. -/
def RemovesRight (m m' : CalendarMgr) : CalendarRequest → Prop
  | .removeAllPlayerEventsAndInvites guid =>
    Removes (fun e => e.creatorGUID = guid)
      (fun i => m.To (fun e => e.creatorGUID = guid) i ∨ i.invitee = guid) m m'
  | .removePlayerGuildEventsAndSignups guid guildId =>
    Removes (GuildEventBy guid)
      (fun i => m.To (GuildEventBy guid) i ∨
        i.invitee = guid ∧ m.To (fun e => e.isGuildEvent = true ∧ e.guildId = guildId) i) m m'
  | _ => True

/-- The id that the request hands out is not in use. -/
def HandsOutFresh (m : CalendarMgr) : CalendarRequest → Prop
  | .createEvent _ _ _ => m.eventIds.take.1 ∉ m.liveEventIds
  | .addInvite _ _ => m.inviteIds.take.1 ∉ m.liveInviteIds
  | _ => True

/-- A request is served as it should : nothing undefined happens, the ids stay distinct, the one
handed out is fresh, and what is removed is right. -/
def ServesRight (s : Option CalendarMgr) (r : CalendarRequest) : Prop :=
  ∃ m m', s = some m ∧ m.serve r = some m' ∧ m'.liveEventIds.Nodup ∧ m'.liveInviteIds.Nodup ∧
    m.HandsOutFresh r ∧ m.RemovesRight m' r

/-- There is an id to hand out; the player to be removed has created no event, and its invites are
to events of the calendar; the player that leaves its guild has created no guild event. -/
def Harmless (m : CalendarMgr) : CalendarRequest → Prop
  | .createEvent _ _ _ => m.eventIds.Room m.liveEventIds
  | .addInvite _ _ => m.inviteIds.Room m.liveInviteIds
  | .removeAllPlayerEventsAndInvites guid => (∀ e ∈ m.events, e.creatorGUID ≠ guid) ∧
    ∀ i ∈ m.invites, i.invitee = guid → m.getEvent i.eventId ≠ none
  | .removePlayerGuildEventsAndSignups guid _ => ∀ e ∈ m.events, ¬GuildEventBy guid e
  | _ => True

instance (guid : ℕ) : DecidablePred (GuildEventBy guid) := fun _ =>
  inferInstanceAs (Decidable (_ ∧ _))

instance (m : CalendarMgr) : DecidablePred m.Harmless
  | .createEvent _ _ _ => inferInstanceAs (Decidable (m.eventIds.Room m.liveEventIds))
  | .addInvite _ _ => inferInstanceAs (Decidable (m.inviteIds.Room m.liveInviteIds))
  | .removeAllPlayerEventsAndInvites guid => inferInstanceAs (Decidable (
      (∀ e ∈ m.events, e.creatorGUID ≠ guid) ∧
        ∀ i ∈ m.invites, i.invitee = guid → m.getEvent i.eventId ≠ none))
  | .removePlayerGuildEventsAndSignups guid _ =>
    inferInstanceAs (Decidable (∀ e ∈ m.events, ¬GuildEventBy guid e))
  | .addEvent _ | .removeEvent _ | .removeInvite _ _ => inferInstanceAs (Decidable True)

theorem InOrder.removeAllPlayerEventsAndInvites (h : InOrder m) {guid : ℕ}
    (hevents : ∀ e ∈ m.events, e.creatorGUID ≠ guid)
    (hinvites : ∀ i ∈ m.invites, i.invitee = guid → m.getEvent i.eventId ≠ none) :
    ∃ m', m.removeAllPlayerEventsAndInvites guid = some m' ∧ InOrder m' ∧
      m.RemovesRight m' (.removeAllPlayerEventsAndInvites guid) := by
  have hnone : ¬∃ e ∈ m.events, decide (e.creatorGUID = guid) = true := by
    rintro ⟨e, he, hcreator⟩
    exact hevents e he (of_decide_eq_true hcreator)
  rw [CalendarMgr.removeAllPlayerEventsAndInvites, removeEvents_eq h m.events fun _ he => he,
    if_neg hnone]
  have hconst : ∀ m m' : CalendarMgr, m'.events = m.events →
      (fun (_ : CalendarMgr) (_ : CalendarInvite) => true) m' = (fun _ _ => true) m :=
    fun _ _ _ => rfl
  obtain ⟨hinOrder, hsame, hdrafts, hremoved⟩ := removeInvites_spec
    hconst h (h.getPlayerInvites_nodup guid) fun i hi => by
      obtain ⟨hi, hguid⟩ := mem_getPlayerInvites.1 hi
      exact ⟨hi, fun _ => hinvites i hi hguid⟩
  refine ⟨_, rfl, hinOrder, fun e => ?_, hdrafts, fun i => ?_⟩
  · rw [hsame]
    exact (and_iff_left_of_imp fun he => hevents e he).symm
  · rw [hremoved, mem_getPlayerInvites]
    refine and_congr_right fun hi => not_congr ⟨fun hguid => Or.inr hguid.1.2, ?_⟩
    rintro (⟨e, he, -, hcreator⟩ | hguid)
    · exact absurd hcreator (hevents e he)
    · exact ⟨⟨hi, hguid⟩, rfl⟩

theorem InOrder.removePlayerGuildEventsAndSignups (h : InOrder m) {guid : ℕ} (guildId : ℕ)
    (hevents : ∀ e ∈ m.events, ¬GuildEventBy guid e) :
    ∃ m', m.removePlayerGuildEventsAndSignups guid guildId = some m' ∧ InOrder m' ∧
      m.RemovesRight m' (.removePlayerGuildEventsAndSignups guid guildId) := by
  have hnone : ¬∃ e ∈ m.events,
      (decide (e.creatorGUID = guid) && (e.isGuildEvent || e.isGuildAnnouncement)) = true := by
    rintro ⟨e, he, hguild⟩
    refine hevents e he ?_
    simpa [GuildEventBy] using hguild
  rw [CalendarMgr.removePlayerGuildEventsAndSignups, removeEvents_eq h m.events fun _ he => he,
    if_neg hnone]
  obtain ⟨hinOrder, hsame, hdrafts, hremoved⟩ := removeInvites_spec
    (fun _ _ hsame => toGuildEvent_congr guildId hsame) h (h.getPlayerInvites_nodup guid)
    fun i hi => by
      refine ⟨(mem_getPlayerInvites.1 hi).1, fun hwi => ?_⟩
      obtain ⟨e, he, -⟩ := toGuildEvent_iff.1 hwi
      rw [he]
      exact Option.some_ne_none e
  refine ⟨_, rfl, hinOrder, fun e => ?_, hdrafts, fun i => ?_⟩
  · rw [hsame]
    exact (and_iff_left_of_imp fun he => hevents e he).symm
  · rw [hremoved, mem_getPlayerInvites, toGuildEvent_iff]
    refine and_congr_right fun hi => not_congr ⟨?_, ?_⟩
    · rintro ⟨⟨-, hguid⟩, e, he, hguild⟩
      refine Or.inr ⟨hguid, e, mem_of_find?_eq_some he, ?_, hguild⟩
      simpa using List.find?_some he
    · rintro (⟨e, he, -, hguild⟩ | ⟨hguid, e, he, hid, hguild⟩)
      · exact absurd hguild (hevents e he)
      · exact ⟨⟨hi, hguid⟩, e, hid ▸ h.getEvent he, hguild⟩

/-- A harmless request is served as it should and keeps the invariant. -/
theorem InOrder.serve (h : InOrder m) {r : CalendarRequest} (hr : m.Harmless r) :
    ∃ m', m.serve r = some m' ∧ InOrder m' ∧ m.HandsOutFresh r ∧ m.RemovesRight m' r := by
  cases r with
  | createEvent creator guildId flags =>
    obtain ⟨hfresh, h'⟩ := h.createEvent creator guildId flags hr
    exact ⟨_, rfl, h', hfresh, trivial⟩
  | addEvent eventId => exact ⟨_, rfl, h.addEvent eventId, trivial, trivial⟩
  | addInvite eventId invitee =>
    obtain ⟨hfresh, h'⟩ := h.inviteTo eventId invitee hr
    exact ⟨_, rfl, h', hfresh, trivial⟩
  | removeEvent eventId => exact ⟨_, rfl, h.removeEvent eventId, trivial, trivial⟩
  | removeInvite inviteId eventId =>
    exact ⟨_, rfl, h.removeInvite inviteId eventId, trivial, trivial⟩
  | removeAllPlayerEventsAndInvites guid =>
    obtain ⟨m', hserve, h', hright⟩ := h.removeAllPlayerEventsAndInvites hr.1 hr.2
    exact ⟨m', hserve, h', trivial, hright⟩
  | removePlayerGuildEventsAndSignups guid guildId =>
    obtain ⟨m', hserve, h', hright⟩ := h.removePlayerGuildEventsAndSignups guildId hr
    exact ⟨m', hserve, h', trivial, hright⟩

end CalendarMgr

open CalendarMgr in
/-- From tables of distinct ids, in every run of harmless requests, every request is served as it
should. -/
theorem calendar_run {guildIdFromDB : ℕ → ℕ} {rows : List (ℕ × ℕ × ℕ)}
    {inviteRows : List CalendarInvite} (hrows : (rows.map Prod.fst).Nodup)
    (hrowsLt : ∀ row ∈ rows, row.1 < 2 ^ 64)
    (hinvites : (inviteRows.map CalendarInvite.inviteId).Nodup)
    (hinvitesLt : ∀ i ∈ inviteRows, i.inviteId < 2 ^ 64) (rs : List CalendarRequest)
    (hrs : Along calendarStep (fun s r => ∀ m ∈ s, m.Harmless r)
      (some (loadFromDB guildIdFromDB rows inviteRows)) rs) :
    Along calendarStep ServesRight (some (loadFromDB guildIdFromDB rows inviteRows)) rs := by
  have hstep : ∀ s r, (∃ m, s = some m ∧ InOrder m) → (∀ m ∈ s, m.Harmless r) →
      (∃ m, calendarStep s r = some m ∧ InOrder m) ∧ ServesRight s r := by
    rintro s r ⟨m, rfl, h⟩ hr
    obtain ⟨m', hserve, h', hfresh, hright⟩ := h.serve (hr m rfl)
    exact ⟨⟨m', hserve, h'⟩, m, m', rfl, hserve, h'.events.live_nodup, h'.invites.live_nodup,
      hfresh, hright⟩
  exact Along.of_invariant hstep
    ⟨_, rfl, inOrder_loadFromDB hrows hrowsLt hinvites hinvitesLt⟩ hrs

open CalendarMgr in
/-- Player `9` creates a second event and invites player `8`, who is then removed. -/
theorem calendar_run_twoEvents :
    Along calendarStep ServesRight
      (some (loadFromDB (fun _ => 0) [(1, 7, 0), (3, 9, 0)] [⟨1, 1, 8⟩, ⟨2, 3, 8⟩, ⟨4, 3, 7⟩]))
      [.createEvent 9 0 0, .addInvite 2 8, .addEvent 2, .removeAllPlayerEventsAndInvites 8] :=
  calendar_run (by decide) (by decide) (by decide) (by decide) _
    ⟨by decide, by decide, by decide, by decide, trivial⟩

open CalendarMgr in
/-- The character that created an event is removed : the loop goes on from the erased event. -/
theorem removeAllPlayerEventsAndInvites_creator :
    ¬Along calendarStep ServesRight (some (loadFromDB (fun _ => 0) [(1, 7, 0)] []))
      [.removeAllPlayerEventsAndInvites 7] := by
  rintro ⟨⟨m, m', hm, hserve, -⟩, -⟩
  obtain rfl := Option.some.inj hm
  have hnone : (loadFromDB (fun _ => 0) [(1, 7, 0)] []).serve
      (.removeAllPlayerEventsAndInvites 7) = none := by decide
  cases hserve

end MistyWorld
