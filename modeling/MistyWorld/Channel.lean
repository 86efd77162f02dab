import Mathlib.Data.List.MinMax
import MistyWorld.Keyed
import MistyWorld.Run

/-!
# Chat channels

A custom `Channel` keeps its members in `playersStore`, with their flags, and the guid of its owner.
`operator[]` of the map inserts a member that is not there. When the owner leaves, the first
member becomes the owner; when the owner is kicked, it is the one who kicked. So an owner who kicks
himself stays in the channel (`kickOrBan_self`).

The members are those whose last event is that they joined, none of them is banned, and the owner
is the one member with the flag, and a moderator, in every run in which the channel does not get
empty and no owner kicks himself, and in no other (`channel_run_iff`).

A player who is found by a name has this name : the names of requests are normalized like those of
players. Packets, the database and the flags of built-in channels are left out.
-/

open Keyed Option Machine

namespace MistyWorld

/-- `Channel::PlayerInfo` -/
structure PlayerInfo where
  player : ℕ := 0
  owner : Bool := false
  moderator : Bool := false
  muted : Bool := false

/-- An entry of `playersStore`. -/
structure ChannelMember where
  guid : ℕ
  info : PlayerInfo

/-- What players see happen to a member. -/
inductive ChannelEvent
  | joined (guid : ℕ)
  | left (guid : ℕ)
  | kicked (guid : ℕ)
deriving DecidableEq

/-- The player of an event. -/
def ChannelEvent.guid : ChannelEvent → ℕ
  | joined guid | left guid | kicked guid => guid

/-- A custom channel. `ownerGUID` is 0 without an owner, and `log` has the events, the last one
first. -/
structure Channel where
  ownership : Bool := true
  password : String := ""
  ownerGUID : ℕ := 0
  playersStore : List ChannelMember := []
  bannedStore : List ℕ := []
  log : List ChannelEvent := []

/-- The player who asks, and whether he has `RBAC_PERM_CHANGE_CHANNEL_NOT_MODERATOR`. -/
structure ChannelPlayer where
  guid : ℕ
  changeNotModerator : Bool
  guid_ne : guid ≠ 0

/-- A player asked for by his name, 0 when `FindPlayerByName` finds none. `sameSide` tells whether
he is of the team of the one who asks, or both may speak to the other team. -/
structure NamedPlayer (getName : ℕ → String) where
  name : String
  player : ℕ
  sameSide : Bool
  name_eq : player ≠ 0 → getName player = name

namespace Channel

/-- The entry of `playersStore` with a key. -/
def infoOf (s : Channel) (guid : ℕ) : Option PlayerInfo :=
  (find ChannelMember.guid s.playersStore guid).map ChannelMember.info

/-- `IsOn` -/
def isOn (s : Channel) (guid : ℕ) : Bool :=
  (s.infoOf guid).isSome

/-- `IsBanned` -/
def isBanned (s : Channel) (guid : ℕ) : Bool :=
  s.bannedStore.contains guid

/-- `playersStore[guid]`, changed by `f`. -/
def modify (s : Channel) (guid : ℕ) (f : PlayerInfo → PlayerInfo) : Channel :=
  { s with playersStore := match s.infoOf guid with
    | some info => replace ChannelMember.guid s.playersStore ⟨guid, f info⟩
    | none => s.playersStore ++ [⟨guid, f {}⟩] }

/-- `playersStore.erase(guid)` -/
def erase (s : Channel) (guid : ℕ) : Channel :=
  { s with playersStore := remove ChannelMember.guid s.playersStore guid }

/-- The channel after an event. -/
def record (s : Channel) (e : ChannelEvent) : Channel :=
  { s with log := e :: s.log }

/-- The flags of `playersStore[guid]` that the caller looks at. -/
def isModerator (s : Channel) (guid : ℕ) : Bool :=
  ((s.infoOf guid).getD {}).moderator

/-- `PlayerInfo::SetModerator`, on `playersStore[guid]`. -/
def setModerator (s : Channel) (guid : ℕ) (set : Bool) : Channel :=
  s.modify guid fun info => { info with moderator := set }

/-- `PlayerInfo::SetMuted`, on `playersStore[guid]`. -/
def setMute (s : Channel) (guid : ℕ) (set : Bool) : Channel :=
  s.modify guid fun info => { info with muted := set }

/-- `PlayerInfo::SetOwner`, on `playersStore[guid]`. -/
def setOwnerFlag (s : Channel) (guid : ℕ) (set : Bool) : Channel :=
  s.modify guid fun info => { info with owner := set }

/-- `SetOwner` with a guid -/
def setOwnerGUID (s : Channel) (guid : ℕ) : Channel :=
  let s := if s.ownerGUID ≠ 0 ∧ s.isOn s.ownerGUID then s.setOwnerFlag s.ownerGUID false else s
  let s := { s with ownerGUID := guid }
  if guid ≠ 0 then
    (s.setModerator guid true).setOwnerFlag guid true
  else
    s

/-- `JoinChannel` -/
def joinChannel (s : Channel) (player : ChannelPlayer) (pass : String) : Channel :=
  if s.isOn player.guid then
    s
  else if s.isBanned player.guid then
    s
  else if s.password ≠ "" ∧ pass ≠ s.password then
    s
  else
    let s := (s.record (.joined player.guid)).modify player.guid
      fun _ => { player := player.guid }
    if s.ownerGUID = 0 ∧ s.ownership then
      (s.setOwnerGUID player.guid).setModerator player.guid true
    else
      s

/-- `playersStore.begin()` -/
def begin (s : Channel) : Option ChannelMember :=
  s.playersStore.argmin ChannelMember.guid

/-- `LeaveChannel` -/
def leaveChannel (s : Channel) (player : ChannelPlayer) : Channel :=
  if !s.isOn player.guid then
    s
  else
    let changeowner := ((s.infoOf player.guid).getD {}).owner
    let s := (s.record (.left player.guid)).erase player.guid
    if changeowner ∧ s.ownership then
      match s.begin with
      | some first => (s.setModerator first.info.player true).setOwnerGUID first.info.player
      | none => s
    else
      s

variable {getName : ℕ → String}

/-- `KickOrBan` -/
def kickOrBan (s : Channel) (player : ChannelPlayer) (badname : NamedPlayer getName)
    (ban : Bool) : Channel :=
  let good := player.guid
  let victim := badname.player
  if !s.isOn good then
    s
  else if !s.isModerator good ∧ !player.changeNotModerator then
    s
  else if victim = 0 ∨ !s.isOn victim then
    s
  else
    let changeowner := s.ownerGUID = victim
    if !player.changeNotModerator ∧ changeowner ∧ good ≠ s.ownerGUID then
      s
    else
      let s := if ban ∧ !s.isBanned victim then
        { s with bannedStore := victim :: s.bannedStore } else s
      let s := (s.record (.kicked victim)).erase victim
      if changeowner ∧ s.ownership ∧ s.playersStore ≠ [] then
        (s.setModerator good true).setOwnerGUID good
      else
        s

/-- `UnBan` -/
def unBan (s : Channel) (player : ChannelPlayer) (badname : NamedPlayer getName) : Channel :=
  if !s.isOn player.guid then
    s
  else if !s.isModerator player.guid ∧ !player.changeNotModerator then
    s
  else if badname.player = 0 ∨ !s.isBanned badname.player then
    s
  else
    { s with bannedStore := s.bannedStore.filter (· ≠ badname.player) }

/-- `SetMode` -/
def setMode (s : Channel) (player : ChannelPlayer) (p2n : NamedPlayer getName)
    (mod set : Bool) : Channel :=
  let victim := p2n.player
  if !s.isOn player.guid then
    s
  else if !s.isModerator player.guid ∧ !player.changeNotModerator then
    s
  else if player.guid = s.ownerGUID ∧ p2n.name = getName player.guid ∧ mod then
    s
  else if victim = 0 ∨ !s.isOn victim ∨ !p2n.sameSide then
    s
  else if s.ownerGUID = victim ∧ s.ownerGUID ≠ player.guid then
    s
  else if mod then
    s.setModerator victim set
  else
    s.setMute victim set

/-- `SetOwner` with a name -/
def setOwner (s : Channel) (player : ChannelPlayer) (newname : NamedPlayer getName) : Channel :=
  let victim := newname.player
  if !s.isOn player.guid then
    s
  else if !player.changeNotModerator ∧ player.guid ≠ s.ownerGUID then
    s
  else if victim = 0 ∨ !s.isOn victim ∨ !newname.sameSide then
    s
  else
    (s.setModerator victim true).setOwnerGUID victim

/-- The requests of players. -/
inductive Request (getName : ℕ → String)
  | joinChannel (player : ChannelPlayer) (pass : String)
  | leaveChannel (player : ChannelPlayer)
  | kickOrBan (player : ChannelPlayer) (badname : NamedPlayer getName) (ban : Bool)
  | unBan (player : ChannelPlayer) (badname : NamedPlayer getName)
  | setMode (player : ChannelPlayer) (p2n : NamedPlayer getName) (mod set : Bool)
  | setOwner (player : ChannelPlayer) (newname : NamedPlayer getName)

/-- The channel after a request. -/
def serve (s : Channel) : Request getName → Channel
  | .joinChannel player pass => s.joinChannel player pass
  | .leaveChannel player => s.leaveChannel player
  | .kickOrBan player badname ban => s.kickOrBan player badname ban
  | .unBan player badname => s.unBan player badname
  | .setMode player p2n mod set => s.setMode player p2n mod set
  | .setOwner player newname => s.setOwner player newname

end Channel

/-! ## The laws of a channel -/

namespace Channel

/-- The player has joined, and has not left or been kicked since. -/
def Present (s : Channel) (guid : ℕ) : Prop :=
  s.log.find? (fun e => e.guid = guid) = some (.joined guid)

/-- One member has the owner flag. He is the owner, and a moderator. -/
def Owned (s : Channel) : Prop :=
  ∃ info, s.infoOf s.ownerGUID = some info ∧ info.owner ∧ info.moderator ∧
    ∀ guid info', s.infoOf guid = some info' → info'.owner → guid = s.ownerGUID

/-- The laws of a channel, without an owner only as long as it has no members. -/
structure Lawful (s : Channel) : Prop where
  isOn_iff : ∀ guid, s.isOn guid ↔ s.Present guid
  not_banned : ∀ guid, s.isBanned guid → ¬s.isOn guid
  owned : s.playersStore ≠ [] → s.Owned

/-- The request does not take the last member of the channel. -/
def Stays (s : Channel) (r : Request getName) : Prop :=
  s.playersStore ≠ [] → (s.serve r).playersStore ≠ []

/-- The request is not the owner's to kick or ban himself. -/
def NoSelfKick (s : Channel) : Request getName → Prop
  | .kickOrBan player badname _ => ¬(player.guid = badname.player ∧ player.guid = s.ownerGUID)
  | _ => True

end Channel

/-! ## The store -/

namespace Channel

variable {s t : Channel} {guid : ℕ} {f : PlayerInfo → PlayerInfo}

theorem isOn_iff_exists : s.isOn guid ↔ ∃ info, s.infoOf guid = some info :=
  isSome_iff_exists

theorem isOn_iff_mem : s.isOn guid ↔ guid ∈ s.playersStore.map ChannelMember.guid := by
  rw [isOn, infoOf, isSome_map]
  constructor
  · intro h
    obtain ⟨e, he⟩ := isSome_iff_exists.1 h
    obtain ⟨hmem, rfl⟩ := mem_of_find he
    exact List.mem_map_of_mem hmem
  · intro h
    by_contra hnone
    rw [not_isSome_iff_eq_none] at hnone
    exact not_mem_of_find_eq_none hnone h

theorem playersStore_ne_nil_iff : s.playersStore ≠ [] ↔ ∃ guid, s.isOn guid := by
  constructor
  · intro h
    obtain ⟨e, he⟩ := List.exists_mem_of_ne_nil _ h
    exact ⟨e.guid, isOn_iff_mem.2 (List.mem_map_of_mem he)⟩
  · rintro ⟨guid, h⟩
    obtain ⟨e, he, -⟩ := List.mem_map.1 (isOn_iff_mem.1 h)
    exact List.ne_nil_of_mem he

theorem infoOf_modify_self (s : Channel) (guid : ℕ) (f : PlayerInfo → PlayerInfo) :
    (s.modify guid f).infoOf guid = some (f ((s.infoOf guid).getD {})) := by
  cases h : s.infoOf guid with
  | some info =>
    obtain ⟨e, he, rfl⟩ := map_eq_some_iff.1 h
    obtain ⟨-, hkey⟩ := mem_of_find he
    have hfind : find ChannelMember.guid s.playersStore (ChannelMember.guid ⟨guid, f e.info⟩) = some e := he
    have hself := find_replace_self hfind
    simp only [infoOf, modify] at h ⊢
    rw [h]
    simp only [hself, map_some, getD_some]
  | none =>
    simp only [infoOf, modify] at h ⊢
    rw [h, getD_none]
    have hnone : find ChannelMember.guid s.playersStore guid = none := by
      rwa [map_eq_none_iff] at h
    simp only [find, List.find?_append] at hnone ⊢
    rw [hnone]
    simp

theorem infoOf_modify_of_ne {guid' : ℕ} (h : guid' ≠ guid) :
    (s.modify guid f).infoOf guid' = s.infoOf guid' := by
  cases hinfo : s.infoOf guid with
  | some info =>
    have hne : guid' ≠ ChannelMember.guid ⟨guid, f info⟩ := h
    simp only [infoOf, modify] at hinfo ⊢
    rw [hinfo]
    simp only [find_replace_of_ne hne]
  | none =>
    simp only [infoOf, modify] at hinfo ⊢
    rw [hinfo]
    simp [find, List.find?_append, Ne.symm h]

theorem infoOf_erase_self (s : Channel) (guid : ℕ) : (s.erase guid).infoOf guid = none := by
  rw [infoOf, erase, find_remove_self, map_none]

theorem infoOf_erase_of_ne {guid' : ℕ} (h : guid' ≠ guid) :
    (s.erase guid).infoOf guid' = s.infoOf guid' := by
  rw [infoOf, erase, find_remove_of_ne h, infoOf]

theorem isOn_modify (s : Channel) (guid : ℕ) (f : PlayerInfo → PlayerInfo) (guid' : ℕ) :
    (s.modify guid f).isOn guid' ↔ guid' = guid ∨ s.isOn guid' := by
  by_cases h : guid' = guid
  · subst h
    simp [isOn, infoOf_modify_self]
  · simp [isOn, infoOf_modify_of_ne h, h]

theorem isOn_erase (s : Channel) (guid guid' : ℕ) :
    (s.erase guid).isOn guid' ↔ guid' ≠ guid ∧ s.isOn guid' := by
  by_cases h : guid' = guid
  · subst h
    simp [isOn, infoOf_erase_self]
  · simp [isOn, infoOf_erase_of_ne h, h]

/-- The entries carry their own guid. -/
def OwnGuids (s : Channel) : Prop :=
  ∀ e ∈ s.playersStore, e.info.player = e.guid

theorem OwnGuids.erase (h : s.OwnGuids) (guid : ℕ) : (s.erase guid).OwnGuids :=
  fun e he => h e (mem_remove.1 he).1

theorem OwnGuids.infoOf (h : s.OwnGuids) {info : PlayerInfo} (hinfo : s.infoOf guid = some info) :
    info.player = guid := by
  obtain ⟨e, he, rfl⟩ := map_eq_some_iff.1 hinfo
  obtain ⟨hmem, rfl⟩ := mem_of_find he
  exact h e hmem

theorem OwnGuids.modify (h : s.OwnGuids)
    (hf : (f ((s.infoOf guid).getD {})).player = guid) : (s.modify guid f).OwnGuids := by
  intro e he
  rw [Channel.modify] at he
  cases hinfo : s.infoOf guid with
  | some info =>
    simp only [hinfo, getD_some] at he hf
    rcases mem_replace he with rfl | he
    · exact hf
    · exact h e he
  | none =>
    simp only [hinfo, getD_none] at he hf
    rcases List.mem_append.1 he with he | he
    · exact h e he
    · rw [List.mem_singleton.1 he]
      exact hf

/-! ## Changes of flags -/

/-- The members are the same, and what concerns who is one. -/
structure SameMembers (s t : Channel) : Prop where
  isOn_iff : ∀ guid, t.isOn guid ↔ s.isOn guid
  log_eq : t.log = s.log
  bannedStore_eq : t.bannedStore = s.bannedStore
  ownership_eq : t.ownership = s.ownership
  ownGuids : s.OwnGuids → t.OwnGuids

theorem SameMembers.refl (s : Channel) : SameMembers s s :=
  ⟨fun _ => Iff.rfl, rfl, rfl, rfl, id⟩

theorem SameMembers.trans {u : Channel} (h : SameMembers s t) (h' : SameMembers t u) :
    SameMembers s u :=
  ⟨fun guid => (h'.isOn_iff guid).trans (h.isOn_iff guid), h'.log_eq.trans h.log_eq,
    h'.bannedStore_eq.trans h.bannedStore_eq, h'.ownership_eq.trans h.ownership_eq,
    fun hs => h'.ownGuids (h.ownGuids hs)⟩

theorem sameMembers_modify (hon : s.isOn guid) (hf : ∀ info, (f info).player = info.player) :
    SameMembers s (s.modify guid f) := by
  refine ⟨fun guid' => ?_, rfl, rfl, rfl, fun h => h.modify ?_⟩
  · rw [isOn_modify]
    refine ⟨?_, .inr⟩
    rintro (rfl | h)
    · exact hon
    · exact h
  · obtain ⟨info, hinfo⟩ := isOn_iff_exists.1 hon
    rw [hf, hinfo, getD_some, h.infoOf hinfo]

/-- No one but the owner has the owner flag. -/
def OnlyOwner (s : Channel) : Prop :=
  ∀ guid info, s.infoOf guid = some info → info.owner → guid = s.ownerGUID

/-- The owner is a member with the owner flag, and a moderator. -/
def HasOwner (s : Channel) : Prop :=
  ∃ info, s.infoOf s.ownerGUID = some info ∧ info.owner ∧ info.moderator

theorem OnlyOwner.modify (h : s.OnlyOwner) (hf : ∀ info, (f info).owner = info.owner) :
    (s.modify guid f).OnlyOwner := by
  intro guid' info hinfo howner
  by_cases hne : guid' = guid
  · subst hne
    rw [infoOf_modify_self, some.injEq] at hinfo
    rw [← hinfo, hf] at howner
    cases hold : s.infoOf guid' with
    | none =>
      rw [hold, getD_none] at howner
      exact absurd howner Bool.false_ne_true
    | some old =>
      rw [hold, getD_some] at howner
      exact h guid' old hold howner
  · rw [infoOf_modify_of_ne hne] at hinfo
    exact h guid' info hinfo howner

theorem OnlyOwner.erase (h : s.OnlyOwner) (guid : ℕ) : (s.erase guid).OnlyOwner := by
  intro guid' info hinfo howner
  by_cases hne : guid' = guid
  · rw [hne, infoOf_erase_self] at hinfo
    exact absurd hinfo (by simp)
  · rw [infoOf_erase_of_ne hne] at hinfo
    exact h guid' info hinfo howner

/-- No member has the guid 0. -/
def GuidsNonzero (s : Channel) : Prop :=
  ∀ guid, s.isOn guid → guid ≠ 0

/-- The flag of the old owner is cleared. -/
theorem clearOwner_spec (h : s.OnlyOwner) (hguids : s.GuidsNonzero) :
    ∃ u, (if s.ownerGUID ≠ 0 ∧ s.isOn s.ownerGUID then s.setOwnerFlag s.ownerGUID false else s) =
        u ∧ SameMembers s u ∧ ∀ guid info, u.infoOf guid = some info → info.owner = false := by
  by_cases howner : s.ownerGUID ≠ 0 ∧ s.isOn s.ownerGUID
  · refine ⟨_, if_pos howner, sameMembers_modify howner.2 fun _ => rfl, fun guid info hinfo => ?_⟩
    rw [setOwnerFlag] at hinfo
    by_cases hne : guid = s.ownerGUID
    · rw [hne, infoOf_modify_self, some.injEq] at hinfo
      rw [← hinfo]
    · rw [infoOf_modify_of_ne hne] at hinfo
      by_contra hflag
      exact hne (h guid info hinfo (by simpa using hflag))
  · refine ⟨s, if_neg howner, .refl s, fun guid info hinfo => ?_⟩
    by_contra hflag
    have hon : s.isOn guid := isOn_iff_exists.2 ⟨info, hinfo⟩
    have hguid := h guid info hinfo (by simpa using hflag)
    rw [hguid] at hon
    exact howner ⟨hguids _ hon, hon⟩

/-- A member becomes the owner. -/
theorem setOwnerGUID_spec (hon : s.isOn guid) (hguids : s.GuidsNonzero) (h : s.OnlyOwner) :
    SameMembers s (s.setOwnerGUID guid) ∧ (s.setOwnerGUID guid).OnlyOwner ∧
      (s.setOwnerGUID guid).HasOwner := by
  obtain ⟨u, hu, hsame, hnone⟩ := clearOwner_spec h hguids
  have heq : s.setOwnerGUID guid =
      ({ u with ownerGUID := guid }.setModerator guid true).setOwnerFlag guid true := by
    rw [setOwnerGUID]
    simp only [hu, hguids guid hon, ne_eq, not_false_eq_true, if_true]
  have hmoved : SameMembers u { u with ownerGUID := guid } :=
    ⟨fun _ => Iff.rfl, rfl, rfl, rfl, id⟩
  have honMoved : { u with ownerGUID := guid }.isOn guid :=
    ((hsame.trans hmoved).isOn_iff guid).2 hon
  have hmoderator : SameMembers { u with ownerGUID := guid }
      ({ u with ownerGUID := guid }.setModerator guid true) :=
    sameMembers_modify honMoved fun _ => rfl
  have hflag : SameMembers ({ u with ownerGUID := guid }.setModerator guid true)
      (({ u with ownerGUID := guid }.setModerator guid true).setOwnerFlag guid true) :=
    sameMembers_modify ((hmoderator.isOn_iff guid).2 honMoved) fun _ => rfl
  rw [heq]
  refine ⟨((hsame.trans hmoved).trans hmoderator).trans hflag, ?_, ?_⟩
  · intro guid' info hinfo howner
    by_contra hne
    have hguid' : guid' ≠ guid := hne
    rw [setOwnerFlag, infoOf_modify_of_ne hguid', setModerator, infoOf_modify_of_ne hguid']
      at hinfo
    exact Bool.false_ne_true ((hnone guid' info hinfo).symm.trans howner)
  · refine ⟨_, infoOf_modify_self _ guid _, rfl, ?_⟩
    rw [setModerator, infoOf_modify_self]
    rfl

/-! ## The requests -/

/-- What holds of a channel whether or not it has an owner. -/
structure Kept (s : Channel) : Prop where
  isOn_iff : ∀ guid, s.isOn guid ↔ s.Present guid
  not_banned : ∀ guid, s.isBanned guid → ¬s.isOn guid
  ownGuids : s.OwnGuids
  guidsNonzero : s.GuidsNonzero
  ownership : s.ownership = true
  onlyOwner : s.OnlyOwner

/-- The invariant of a channel. -/
structure Ruled (s : Channel) : Prop extends Kept s where
  hasOwner : s.playersStore ≠ [] → s.HasOwner
  ownerGUID : s.playersStore = [] → s.ownerGUID = 0

theorem Kept.of_sameMembers (h : s.Kept) (hs : SameMembers s t) (honly : t.OnlyOwner) : t.Kept := by
  constructor
  · intro guid
    rw [hs.isOn_iff, h.isOn_iff, Present, Present, hs.log_eq]
  · intro guid hbanned
    rw [isBanned, hs.bannedStore_eq] at hbanned
    rw [hs.isOn_iff]
    exact h.not_banned guid hbanned
  · exact hs.ownGuids h.ownGuids
  · intro guid hon
    exact h.guidsNonzero guid ((hs.isOn_iff guid).1 hon)
  · exact hs.ownership_eq.trans h.ownership
  · exact honly

theorem Kept.ruled_of_hasOwner (h : s.Kept) (howner : s.HasOwner) : s.Ruled := by
  refine ⟨h, fun _ => howner, fun hnil => ?_⟩
  obtain ⟨info, hinfo, -⟩ := howner
  have hne := playersStore_ne_nil_iff.2 ⟨s.ownerGUID, isOn_iff_exists.2 ⟨info, hinfo⟩⟩
  exact absurd hnil hne

/-- A member is made the owner. -/
theorem Kept.setOwnerGUID (h : s.Kept) (hon : s.isOn guid) : (s.setOwnerGUID guid).Ruled := by
  obtain ⟨hsame, honly, howner⟩ := setOwnerGUID_spec hon h.guidsNonzero h.onlyOwner
  exact (h.of_sameMembers hsame honly).ruled_of_hasOwner howner

theorem Kept.setModerator (h : s.Kept) (hon : s.isOn guid) (set : Bool) :
    (s.setModerator guid set).Kept :=
  h.of_sameMembers (sameMembers_modify hon fun _ => rfl) (h.onlyOwner.modify fun _ => rfl)

/-- A member is made a moderator, and then the owner. -/
theorem Kept.handOver (h : s.Kept) (hon : s.isOn guid) :
    ((s.setModerator guid true).setOwnerGUID guid).Ruled :=
  (h.setModerator hon true).setOwnerGUID ((isOn_modify _ _ _ _).2 (.inl rfl))

variable {e : ChannelEvent}

theorem present_record_self (s : Channel) : (s.record e).Present e.guid ↔ e = .joined e.guid := by
  simp [Present, record]

theorem present_record_of_ne (h : guid ≠ e.guid) : (s.record e).Present guid ↔ s.Present guid := by
  simp [Present, record, Ne.symm h]

/-- A player becomes a member. -/
theorem Kept.enter (h : s.Kept) (hguid : guid ≠ 0) (hon : ¬s.isOn guid)
    (hbanned : ¬s.isBanned guid) :
    ((s.record (.joined guid)).modify guid fun _ => { player := guid }).Kept := by
  constructor
  · intro guid'
    rw [isOn_modify]
    by_cases hne : guid' = guid
    · subst hne
      exact iff_of_true (.inl rfl) ((present_record_self (e := .joined guid') s).2 rfl)
    · have hiff : (s.record (.joined guid)).Present guid' ↔ s.Present guid' :=
        present_record_of_ne hne
      exact (or_iff_right hne).trans ((h.isOn_iff guid').trans hiff.symm)
  · intro guid' hguid'
    rw [isOn_modify]
    rintro (rfl | hon')
    · exact hbanned hguid'
    · exact h.not_banned guid' hguid' hon'
  · exact OwnGuids.modify h.ownGuids rfl
  · intro guid' hon'
    rcases (isOn_modify _ _ _ _).1 hon' with rfl | hon'
    · exact hguid
    · exact h.guidsNonzero guid' hon'
  · exact h.ownership
  · intro guid' info hinfo howner
    by_cases hne : guid' = guid
    · rw [hne, infoOf_modify_self, some.injEq] at hinfo
      rw [← hinfo] at howner
      exact absurd howner Bool.false_ne_true
    · rw [infoOf_modify_of_ne hne] at hinfo
      exact h.onlyOwner guid' info hinfo howner

/-- A player is a member no longer. -/
theorem Kept.drop (h : s.Kept) (he : e ≠ .joined e.guid) : ((s.record e).erase e.guid).Kept := by
  constructor
  · intro guid
    rw [isOn_erase]
    by_cases hne : guid = e.guid
    · rw [hne]
      exact iff_of_false (fun hon => hon.1 rfl) fun hpresent =>
        he ((present_record_self s).1 hpresent)
    · have hiff : (s.record e).Present guid ↔ s.Present guid := present_record_of_ne hne
      exact (and_iff_right hne).trans ((h.isOn_iff guid).trans hiff.symm)
  · intro guid hbanned
    rw [isOn_erase]
    exact fun hon => h.not_banned guid hbanned hon.2
  · exact OwnGuids.erase h.ownGuids _
  · intro guid hon
    exact h.guidsNonzero guid ((isOn_erase _ _ _).1 hon).2
  · exact h.ownership
  · exact OnlyOwner.erase h.onlyOwner _

/-- The owner stays when another member goes. -/
theorem HasOwner.drop (h : s.HasOwner) (hne : s.ownerGUID ≠ e.guid) :
    ((s.record e).erase e.guid).HasOwner := by
  obtain ⟨info, hinfo, hflags⟩ := h
  exact ⟨info, (infoOf_erase_of_ne hne).trans hinfo, hflags⟩

/-- A change of flags that leaves the owner a moderator. -/
theorem Ruled.modify (h : s.Ruled) (hon : s.isOn guid)
    (hplayer : ∀ info, (f info).player = info.player) (howner : ∀ info, (f info).owner = info.owner)
    (hmoderator : guid = s.ownerGUID → ∀ info, info.moderator → (f info).moderator) :
    (s.modify guid f).Ruled := by
  refine Kept.ruled_of_hasOwner (h.toKept.of_sameMembers (sameMembers_modify hon hplayer)
    (h.onlyOwner.modify howner)) ?_
  obtain ⟨info, hinfo, hflag, hmod⟩ := h.hasOwner (playersStore_ne_nil_iff.2 ⟨guid, hon⟩)
  by_cases heq : s.ownerGUID = guid
  · refine ⟨f info, ?_, (howner info).trans hflag, hmoderator heq.symm info hmod⟩
    rw [show (s.modify guid f).ownerGUID = s.ownerGUID from rfl, heq, infoOf_modify_self, ← heq,
      hinfo, getD_some]
  · exact ⟨info, (infoOf_modify_of_ne heq).trans hinfo, hflag, hmod⟩

theorem Ruled.joinChannel (h : s.Ruled) (player : ChannelPlayer) (pass : String) :
    (s.joinChannel player pass).Ruled := by
  rw [Channel.joinChannel]
  by_cases hon : s.isOn player.guid
  · rwa [if_pos hon]
  rw [if_neg hon]
  by_cases hbanned : s.isBanned player.guid
  · rwa [if_pos hbanned]
  rw [if_neg hbanned]
  split
  · exact h
  have hkept := h.toKept.enter player.guid_ne hon hbanned
  have honNew : ((s.record (.joined player.guid)).modify player.guid
      fun _ => { player := player.guid }).isOn player.guid := (isOn_modify _ _ _ _).2 (.inl rfl)
  by_cases howner : s.ownerGUID = 0
  · obtain ⟨hsame, -⟩ := setOwnerGUID_spec honNew hkept.guidsNonzero hkept.onlyOwner
    rw [if_pos ⟨howner, h.ownership⟩]
    exact (hkept.setOwnerGUID honNew).modify ((hsame.isOn_iff _).2 honNew) (fun _ => rfl)
      (fun _ => rfl) fun _ _ _ => rfl
  · rw [if_neg fun hnew => howner hnew.1]
    refine hkept.ruled_of_hasOwner ?_
    have hne : s.playersStore ≠ [] := fun hnil => howner (h.ownerGUID hnil)
    obtain ⟨info, hinfo, hflags⟩ := h.hasOwner hne
    have hother : s.ownerGUID ≠ player.guid := fun heq =>
      hon (isOn_iff_exists.2 ⟨info, heq ▸ hinfo⟩)
    exact ⟨info, (infoOf_modify_of_ne hother).trans hinfo, hflags⟩

theorem begin_eq_none (s : Channel) : s.begin = none ↔ s.playersStore = [] :=
  List.argmin_eq_none

theorem Ruled.leaveChannel (h : s.Ruled) (player : ChannelPlayer)
    (hstays : s.playersStore ≠ [] → (s.leaveChannel player).playersStore ≠ []) :
    (s.leaveChannel player).Ruled := by
  rw [Channel.leaveChannel] at hstays ⊢
  by_cases hon : s.isOn player.guid
  swap
  · rwa [if_pos (by simpa using hon)]
  rw [if_neg (by simpa using hon)] at hstays ⊢
  have hkept : ((s.record (.left player.guid)).erase player.guid).Kept :=
    h.toKept.drop (e := .left player.guid) (by simp)
  obtain ⟨info, hinfo⟩ := isOn_iff_exists.1 hon
  have hne : s.playersStore ≠ [] := playersStore_ne_nil_iff.2 ⟨_, hon⟩
  rw [hinfo, getD_some] at hstays ⊢
  by_cases howner : info.owner
  · have howned : info.owner = true ∧
        ((s.record (.left player.guid)).erase player.guid).ownership = true :=
      ⟨howner, h.ownership⟩
    simp only [if_pos howned] at hstays ⊢
    cases hbegin : ((s.record (.left player.guid)).erase player.guid).begin with
    | none =>
      rw [hbegin] at hstays
      exact absurd ((begin_eq_none _).1 hbegin) (hstays hne)
    | some first =>
      have hmem := List.argmin_mem hbegin
      have hguid : first.info.player = first.guid := hkept.ownGuids first hmem
      simp only [hguid]
      exact hkept.handOver (isOn_iff_mem.2 (List.mem_map_of_mem hmem))
  · rw [if_neg fun howned => howner howned.1]
    refine hkept.ruled_of_hasOwner (HasOwner.drop (e := .left player.guid) (h.hasOwner hne) ?_)
    obtain ⟨info', hinfo', howner', -⟩ := h.hasOwner hne
    intro heq
    rw [heq, show ChannelEvent.guid (.left player.guid) = player.guid from rfl, hinfo,
      some.injEq] at hinfo'
    exact howner (hinfo' ▸ howner')

/-- Bans that concern no member keep the laws. -/
theorem Kept.setBannedStore (h : s.Kept) {banned : List ℕ}
    (hbanned : ∀ guid ∈ banned, ¬s.isOn guid) : Kept { s with bannedStore := banned } :=
  ⟨h.isOn_iff, fun guid hguid => hbanned guid (List.contains_iff_mem.1 hguid), h.ownGuids,
    h.guidsNonzero, h.ownership, h.onlyOwner⟩

/-- The channel once a member is kicked or banned. -/
def expel (s : Channel) (victim : ℕ) (ban : Bool) : Channel :=
  { (s.record (.kicked victim)).erase victim with
    bannedStore := if ban ∧ !s.isBanned victim then victim :: s.bannedStore else s.bannedStore }

theorem Kept.expel (h : s.Kept) (victim : ℕ) (ban : Bool) : (s.expel victim ban).Kept := by
  refine (h.drop (e := .kicked victim) (by simp)).setBannedStore fun guid hguid hon => ?_
  obtain ⟨hne, hon⟩ := (isOn_erase _ _ _).1 hon
  split at hguid
  · rcases List.mem_cons.1 hguid with heq | hguid
    · exact hne heq
    · exact h.not_banned guid (List.contains_iff_mem.2 hguid) hon
  · exact h.not_banned guid (List.contains_iff_mem.2 hguid) hon

theorem isOn_expel (s : Channel) (victim : ℕ) (ban : Bool) (guid : ℕ) :
    (s.expel victim ban).isOn guid ↔ guid ≠ victim ∧ s.isOn guid :=
  isOn_erase (s.record (.kicked victim)) victim guid

/-- The channel after a kick that is not refused. -/
def expelAndHandOver (s : Channel) (good victim : ℕ) (ban : Bool) : Channel :=
  if s.ownerGUID = victim ∧ s.ownership ∧ (s.expel victim ban).playersStore ≠ [] then
    ((s.expel victim ban).setModerator good true).setOwnerGUID good
  else
    s.expel victim ban

theorem kickOrBan_of_allowed {player : ChannelPlayer} {badname : NamedPlayer getName} (ban : Bool)
    (hon : s.isOn player.guid) (hmoderator : ¬(!s.isModerator player.guid ∧ !player.changeNotModerator))
    (hvictim : ¬(badname.player = 0 ∨ !s.isOn badname.player))
    (howner : ¬(!player.changeNotModerator ∧ s.ownerGUID = badname.player ∧
      player.guid ≠ s.ownerGUID)) :
    s.kickOrBan player badname ban = s.expelAndHandOver player.guid badname.player ban := by
  rw [kickOrBan, if_neg (by simpa using hon), if_neg hmoderator, if_neg hvictim]
  rw [if_neg howner, expelAndHandOver]
  by_cases hban : ban ∧ !s.isBanned badname.player
  · simp only [expel, if_pos hban]
    rfl
  · simp only [expel, if_neg hban]
    rfl

/-- A kick is refused, or it is one of a member by a member. -/
theorem kickOrBan_cases (s : Channel) (player : ChannelPlayer) (badname : NamedPlayer getName)
    (ban : Bool) :
    s.kickOrBan player badname ban = s ∨
      (s.isOn player.guid ∧ s.kickOrBan player badname ban =
        s.expelAndHandOver player.guid badname.player ban) := by
  by_cases hon : s.isOn player.guid
  swap
  · exact .inl (if_pos (by simpa using hon))
  by_cases hmoderator : !s.isModerator player.guid ∧ !player.changeNotModerator
  · exact .inl (by rw [kickOrBan, if_neg (by simpa using hon), if_pos hmoderator])
  by_cases hvictim : badname.player = 0 ∨ !s.isOn badname.player
  · exact .inl (by
      rw [kickOrBan, if_neg (by simpa using hon), if_neg hmoderator, if_pos hvictim])
  by_cases howner : !player.changeNotModerator ∧ s.ownerGUID = badname.player ∧
      player.guid ≠ s.ownerGUID
  · refine .inl ?_
    rw [kickOrBan, if_neg (by simpa using hon), if_neg hmoderator, if_neg hvictim]
    exact if_pos howner
  · exact .inr ⟨hon, kickOrBan_of_allowed ban hon hmoderator hvictim howner⟩

section

variable (h : s.Ruled)
include h

theorem Ruled.expelAndHandOver {good victim : ℕ} (ban : Bool) (hgood : s.isOn good)
    (hself : s.ownerGUID = victim → good ≠ victim) :
    (s.expelAndHandOver good victim ban).Ruled := by
  have hkept := h.toKept.expel victim ban
  have hne : s.playersStore ≠ [] := playersStore_ne_nil_iff.2 ⟨good, hgood⟩
  rw [Channel.expelAndHandOver]
  by_cases howner : s.ownerGUID = victim
  · have hon : (s.expel victim ban).isOn good :=
      (isOn_expel _ _ _ _).2 ⟨hself howner, hgood⟩
    rw [if_pos ⟨howner, h.ownership, playersStore_ne_nil_iff.2 ⟨good, hon⟩⟩]
    exact hkept.handOver hon
  · rw [if_neg fun hand => howner hand.1]
    exact hkept.ruled_of_hasOwner ((h.hasOwner hne).drop (e := .kicked victim) howner)

section

variable (player : ChannelPlayer)
include player

theorem Ruled.kickOrBan (badname : NamedPlayer getName) (ban : Bool)
    (hself : ¬(player.guid = badname.player ∧ player.guid = s.ownerGUID)) :
    (s.kickOrBan player badname ban).Ruled := by
  rcases s.kickOrBan_cases player badname ban with heq | ⟨hon, heq⟩
  · rwa [heq]
  · rw [heq]
    exact h.expelAndHandOver ban hon fun howner hgood => hself ⟨hgood, hgood.trans howner.symm⟩

/-- An owner who kicks himself is kicked, and a member. -/
theorem Ruled.kickOrBan_self (badname : NamedPlayer getName) (ban : Bool)
    (hself : player.guid = badname.player) (howner : player.guid = s.ownerGUID)
    (hstays : s.playersStore ≠ [] → (s.kickOrBan player badname ban).playersStore ≠ []) :
    ¬(s.kickOrBan player badname ban).Lawful := by
  have hne : s.playersStore ≠ [] := fun hnil =>
    player.guid_ne (howner.trans (h.ownerGUID hnil))
  obtain ⟨info, hinfo, -, hmoderator⟩ := h.hasOwner hne
  rw [← howner] at hinfo
  have hon : s.isOn player.guid := isOn_iff_exists.2 ⟨info, hinfo⟩
  have hkick : s.kickOrBan player badname ban =
      s.expelAndHandOver player.guid badname.player ban := by
    refine kickOrBan_of_allowed ban hon ?_ ?_ fun hnot => hnot.2.2 howner
    · simp [isModerator, hinfo, hmoderator]
    · simp [← hself, hon, player.guid_ne]
  rw [hkick, Channel.expelAndHandOver, ← hself] at hstays ⊢
  by_cases hleft : (s.expel player.guid ban).playersStore = []
  · rw [if_neg fun hand => hand.2.2 hleft] at hstays
    exact absurd hleft (hstays hne)
  rw [if_pos ⟨howner.symm, h.ownership, hleft⟩]
  intro hlawful
  have hkept := h.toKept.expel player.guid ban
  have honNew : ((s.expel player.guid ban).setModerator player.guid true).isOn player.guid :=
    (isOn_modify _ _ _ _).2 (.inl rfl)
  obtain ⟨hsame, -⟩ := setOwnerGUID_spec honNew (fun guid hguid => by
    rcases (isOn_modify _ _ _ _).1 hguid with rfl | hguid
    · exact player.guid_ne
    · exact hkept.guidsNonzero guid hguid) (hkept.onlyOwner.modify fun _ => rfl)
  have hpresent := (hlawful.isOn_iff player.guid).1 ((hsame.isOn_iff player.guid).2 honNew)
  rw [Present, hsame.log_eq] at hpresent
  exact absurd ((present_record_self (e := .kicked player.guid) s).1 hpresent) (by simp)

theorem Ruled.unBan (badname : NamedPlayer getName) : (s.unBan player badname).Ruled := by
  rw [Channel.unBan]
  split
  · exact h
  split
  · exact h
  split
  · exact h
  · have hkept : Kept { s with bannedStore := s.bannedStore.filter (· ≠ badname.player) } :=
      h.toKept.setBannedStore fun guid hguid =>
        h.not_banned guid (List.contains_iff_mem.2 (List.mem_filter.1 hguid).1)
    exact ⟨hkept, h.hasOwner, h.ownerGUID⟩

theorem Ruled.setMode (p2n : NamedPlayer getName) (mod set : Bool) :
    (s.setMode player p2n mod set).Ruled := by
  rw [Channel.setMode]
  split
  · exact h
  split
  · exact h
  by_cases hown : player.guid = s.ownerGUID ∧ p2n.name = getName player.guid ∧ mod
  · rwa [if_pos hown]
  rw [if_neg hown]
  by_cases hvictim : p2n.player = 0 ∨ !s.isOn p2n.player ∨ !p2n.sameSide
  · rwa [if_pos hvictim]
  rw [if_neg hvictim]
  simp only [not_or, Bool.not_eq_true', Bool.not_eq_false] at hvictim
  obtain ⟨hzero, hon, -⟩ := hvictim
  by_cases howner : s.ownerGUID = p2n.player ∧ s.ownerGUID ≠ player.guid
  · rwa [if_pos howner]
  rw [if_neg howner]
  cases mod with
  | true =>
    -- the owner may not be asked for : his name is the one of the caller
    refine h.modify hon (fun _ => rfl) (fun _ => rfl) fun heq => ?_
    have hplayer : s.ownerGUID = player.guid := by
      by_contra hne
      exact howner ⟨heq.symm, hne⟩
    refine absurd ⟨hplayer.symm, ?_, rfl⟩ hown
    rw [← p2n.name_eq hzero, heq, hplayer]
  | false =>
    exact h.modify hon (fun _ => rfl) (fun _ => rfl) fun _ _ hmoderator => hmoderator

theorem Ruled.setOwner (newname : NamedPlayer getName) : (s.setOwner player newname).Ruled := by
  rw [Channel.setOwner]
  split
  · exact h
  split
  · exact h
  by_cases hvictim : newname.player = 0 ∨ !s.isOn newname.player ∨ !newname.sameSide
  · rwa [if_pos hvictim]
  rw [if_neg hvictim]
  simp only [not_or, Bool.not_eq_true', Bool.not_eq_false] at hvictim
  exact h.toKept.handOver hvictim.2.1

end

/-- A request that does not take the last member keeps the laws, unless the owner kicks
himself. -/
theorem Ruled.serve {r : Request getName} (hstays : s.Stays r) (hself : s.NoSelfKick r) :
    (s.serve r).Ruled := by
  cases r with
  | joinChannel player pass => exact h.joinChannel player pass
  | leaveChannel player => exact h.leaveChannel player hstays
  | kickOrBan player badname ban => exact h.kickOrBan player badname ban hself
  | unBan player badname => exact h.unBan player badname
  | setMode player p2n mod set => exact h.setMode player p2n mod set
  | setOwner player newname => exact h.setOwner player newname

theorem Ruled.lawful : s.Lawful :=
  ⟨h.isOn_iff, h.not_banned, fun hne => by
    obtain ⟨info, hinfo, howner, hmoderator⟩ := h.hasOwner hne
    exact ⟨info, hinfo, howner, hmoderator, h.onlyOwner⟩⟩

theorem Ruled.serve_iff {r : Request getName} (hstays : s.Stays r) :
    (s.NoSelfKick r ∧ (s.serve r).Ruled) ∨ (¬s.NoSelfKick r ∧ ¬(s.serve r).Lawful) := by
  by_cases hself : s.NoSelfKick r
  · exact .inl ⟨hself, h.serve hstays hself⟩
  · refine .inr ⟨hself, ?_⟩
    cases r with
    | kickOrBan player badname ban =>
      obtain ⟨hsame, howner⟩ := not_not.1 hself
      exact h.kickOrBan_self player badname ban hsame howner hstays
    | joinChannel | leaveChannel | unBan | setMode | setOwner => exact absurd trivial hself

end

/-! ## Runs -/

/-- A channel that was just made, with the bans that were saved. -/
def created (password : String) (bannedStore : List ℕ) : Channel where
  password := password
  bannedStore := bannedStore

theorem created_ruled (password : String) (bannedStore : List ℕ) :
    (created password bannedStore).Ruled := by
  have hoff : ∀ guid, (created password bannedStore).infoOf guid = none := fun _ => rfl
  refine ⟨⟨fun guid => ?_, fun guid _ => ?_, fun e he => ?_, fun guid hon => ?_, rfl,
    fun guid info hinfo => ?_⟩, fun hne => absurd rfl hne, fun _ => rfl⟩
  · simp only [isOn, hoff, Present]
    simp [created]
  · simp [isOn, hoff]
  · exact absurd he List.not_mem_nil
  · simp [isOn, hoff] at hon
  · simp [hoff] at hinfo

end Channel

open Channel

/-- In a run that does not take the last member, the laws hold at all times exactly when no owner
kicks himself. -/
theorem channel_run_iff (getName : ℕ → String) (password : String) (bannedStore : List ℕ)
    (rs : List (Request getName)) (hstays : Along serve Stays (created password bannedStore) rs) :
    (∀ pre, pre <+: rs → (run serve (created password bannedStore) pre).Lawful) ↔
      Along serve NoSelfKick (created password bannedStore) rs :=
  forall_prefix_iff_along (fun _ h => h.lawful) (fun _ _ h hs => h.serve_iff hs)
    (created_ruled password bannedStore) hstays

/-- A player without permissions. -/
def plainPlayer (guid : ℕ) (h : guid ≠ 0) : ChannelPlayer :=
  ⟨guid, false, h⟩

/-- Player 1, who is asked for by his name. -/
def namedOne : NamedPlayer fun _ => "" where
  name := ""
  player := 1
  sameSide := true
  name_eq := fun _ => rfl

/-- Two players join. -/
def twoJoin : List (Request fun _ => "") :=
  [.joinChannel (plainPlayer 1 (by decide)) "", .joinChannel (plainPlayer 2 (by decide)) ""]

theorem channel_run_iff_twoJoin :
    (∀ pre, pre <+: twoJoin → (run serve (created "" []) pre).Lawful) ↔
      Along serve NoSelfKick (created "" []) twoJoin :=
  channel_run_iff (fun _ => "") "" [] twoJoin
    ⟨fun _ => List.cons_ne_nil _ _, fun _ => List.cons_ne_nil _ _, trivial⟩

/-- The owner, who has kicked himself, is still a member. -/
theorem not_lawful_kickOrBan_self :
    ¬(run serve (created "" [])
      (twoJoin ++ [.kickOrBan (plainPlayer 1 (by decide)) namedOne false])).Lawful := by
  intro h
  have hpresent := (h.isOn_iff 1).1 (by decide)
  exact absurd hpresent (by unfold Present; decide)

end MistyWorld
