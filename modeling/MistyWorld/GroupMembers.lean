import MistyWorld.Keyed
import MistyWorld.Run
import MistyWorld.Word
import Mathlib.Data.BitVec

/-!
# Members of a group

The members of a group are kept three times : in the member slots, in the references that the
players online hold to their group, and, in a raid, as a count for every sub group. The leader is
one of the members.

A player is offline, linked to the group but not in the world while teleporting, or in the world,
which is what `FindPlayer` asks. The distinct members and the counts are an invariant of every run
(`Structured`). The leader is not : when he is removed, the next one is the first member in the
world, while the group lives on with two linked members, so that a group whose other members all
teleport keeps a leader that is no member (`removeMember_keeps_leader`).

Battleground groups are left out, and so are the names, roles and icons.
-/

open Keyed Function List Machine Word

namespace MistyWorld

/-! ## Groups -/

/-- `MAXGROUPSIZE`. -/
def Group.maxGroupSize : ℕ := 5

/-- `MAXRAIDSIZE`. -/
def Group.maxRaidSize : ℕ := 40

/-- `MAX_RAID_SUBGROUPS`. -/
abbrev maxRaidSubgroups : ℕ := 8

abbrev GroupType := BitVec 8

def groupTypeNormal : GroupType := 0x00
def groupTypeRaid : GroupType := 0x02
def groupTypeLfg : GroupType := 0x08

/-- `MEMBER_FLAG_ASSISTANT`. -/
def memberFlagAssistant : BitVec 8 := 0x01

inductive RemoveMethod
  | default
  | kick
  | leave
  | kickLfg
  deriving DecidableEq

structure MemberSlot where
  guid : ℕ
  group : Fin maxRaidSubgroups := 0
  flags : BitVec 8 := 0
  deriving DecidableEq

/-- `memberMgr` holds the players with a reference to the group, the last one first. -/
structure Group where
  memberSlots : List MemberSlot := []
  memberMgr : List ℕ := []
  leaderGuid : ℕ
  groupType : GroupType := groupTypeNormal
  subGroupsCounts : Option (Fin maxRaidSubgroups → ℕ) := none

inductive Presence
  | offline
  | linked
  | inWorld
  deriving DecidableEq

/-- Where the players are, and what the dungeon finder asks of a group of one. -/
structure GroupWorld where
  presence : ℕ → Presence
  dungeonMapId : ℕ := 0
  isAlive : ℕ → Bool := fun _ => true
  mapId : ℕ → ℕ := fun _ => 0

/-- `ObjectAccessor::FindPlayer`. -/
def GroupWorld.findPlayer (w : GroupWorld) (guid : ℕ) : Bool :=
  w.presence guid = .inWorld

def GroupWorld.setPresence (w : GroupWorld) (guid : ℕ) (presence : Presence) : GroupWorld :=
  { w with presence := update w.presence guid presence }

namespace Group

def isLFGGroup (g : Group) : Bool :=
  g.groupType &&& groupTypeLfg != 0

def isRaidGroup (g : Group) : Bool :=
  g.groupType &&& groupTypeRaid != 0

def isFull (g : Group) : Bool :=
  if g.isRaidGroup then maxRaidSize ≤ g.memberSlots.length
  else maxGroupSize ≤ g.memberSlots.length

/-- The guids of the members, in the order of their slots. -/
def guids (g : Group) : List ℕ :=
  g.memberSlots.map MemberSlot.guid

/-- `_getMemberCSlot`. -/
def getMemberSlot (g : Group) (guid : ℕ) : Option MemberSlot :=
  find MemberSlot.guid g.memberSlots guid

def isMember (g : Group) (guid : ℕ) : Bool :=
  (g.getMemberSlot guid).isSome

/-! ## The counters -/

def increase (c : Fin maxRaidSubgroups → ℕ) (subgroup : Fin maxRaidSubgroups) :
    Fin maxRaidSubgroups → ℕ :=
  update c subgroup (toU8 (c subgroup + 1))

def decrease (c : Fin maxRaidSubgroups → ℕ) (subgroup : Fin maxRaidSubgroups) :
    Fin maxRaidSubgroups → ℕ :=
  update c subgroup (toU8 (c subgroup - 1))

/-- `SubGroupCounterIncrease`. -/
def subGroupCounterIncrease (g : Group) (subgroup : Fin maxRaidSubgroups) : Group :=
  { g with subGroupsCounts := g.subGroupsCounts.map fun c => increase c subgroup }

/-- `SubGroupCounterDecrease`. -/
def subGroupCounterDecrease (g : Group) (subgroup : Fin maxRaidSubgroups) : Group :=
  { g with subGroupsCounts := g.subGroupsCounts.map fun c => decrease c subgroup }

/-- `_initRaidSubGroupsCounter`. -/
def initRaidSubGroupsCounter (g : Group) : Group :=
  { g with
    subGroupsCounts := some (g.memberSlots.foldl (fun c slot => increase c slot.group) fun _ => 0) }

/-- `HasFreeSlotSubGroup`. -/
def hasFreeSlotSubGroup (g : Group) (subgroup : Fin maxRaidSubgroups) : Bool :=
  g.subGroupsCounts.any fun c => c subgroup < maxGroupSize

/-! ## Changes -/

def convertToRaid (g : Group) : Group :=
  { g with groupType := g.groupType ||| groupTypeRaid }.initRaidSubGroupsCounter

def convertToGroup (g : Group) : Group :=
  if 5 < g.memberSlots.length then g
  else { g with groupType := groupTypeNormal, subGroupsCounts := none }

/-- The first sub group that is not full. -/
def freeSubGroup (g : Group) : Option (Fin maxRaidSubgroups) :=
  match g.subGroupsCounts with
  | none => some 0
  | some c => (List.finRange maxRaidSubgroups).find? fun i => c i < maxGroupSize

/-- The player gets a slot in the sub group, and a reference to the group. -/
def joinSubGroup (g : Group) (guid : ℕ) (subGroup : Fin maxRaidSubgroups) : Group :=
  { g.subGroupCounterIncrease subGroup with
    memberSlots := g.memberSlots ++ [{ guid := guid, group := subGroup }]
    memberMgr := guid :: g.memberMgr }

/-- `AddMember` : there is no group afterwards where it returns `false`. -/
def addMember (g : Group) (guid : ℕ) : Option Group :=
  g.freeSubGroup.map (g.joinSubGroup guid)

/-- `Create`, for which the first member is an assertion. -/
def create (leader : ℕ) : Group :=
  (({ leaderGuid := leader } : Group).addMember leader).getD { leaderGuid := leader }

/-- `DelinkMember`. -/
def delinkMember (g : Group) (guid : ℕ) : Group :=
  { g with memberMgr := g.memberMgr.erase guid }

/-- `ChangeLeader`. -/
def changeLeader (g : Group) (w : GroupWorld) (newLeaderGuid : ℕ) : Group :=
  match g.getMemberSlot newLeaderGuid with
  | none => g
  | some slot =>
    if w.findPlayer slot.guid then
      { g with
        leaderGuid := slot.guid
        memberSlots := Keyed.replace MemberSlot.guid g.memberSlots
          { slot with flags := slot.flags &&& ~~~memberFlagAssistant } }
    else g

/-- The slot of a player is erased. -/
def removeSlot (g : Group) (guid : ℕ) : Group :=
  match g.getMemberSlot guid with
  | none => g
  | some slot =>
    { g.subGroupCounterDecrease slot.group with
      memberSlots := remove MemberSlot.guid g.memberSlots guid }

/-- The loop for a new leader : the first member in the world. -/
def pickLeader (g : Group) (w : GroupWorld) : Group :=
  match g.memberSlots.find? fun slot => w.findPlayer slot.guid with
  | none => g
  | some slot => g.changeLeader w slot.guid

/-- The group of one that the dungeon finder gives up. -/
def leftAlone (g : Group) (w : GroupWorld) : Bool :=
  g.isLFGGroup && g.memberSlots.length == 1 &&
    (w.dungeonMapId == 0 || !w.findPlayer g.leaderGuid ||
      (w.isAlive g.leaderGuid && w.mapId g.leaderGuid != w.dungeonMapId))

/-- More members than these are needed to go on, and as many links. -/
def minSize (g : Group) : ℕ :=
  if g.isLFGGroup then 1 else 2

/-- The reference and the slot of a player are taken out. The first unlinking is `SetGroup(NULL)` or
`SetOriginalGroup(NULL)`, of a player in the world. -/
def leave (g : Group) (w : GroupWorld) (guid : ℕ) : Group :=
  ((if w.findPlayer guid then g.delinkMember guid else g).delinkMember guid).removeSlot guid

/-- A player leaves the group, and his lead. -/
def takeOut (g : Group) (w : GroupWorld) (guid : ℕ) : Group :=
  if (g.leave w guid).leaderGuid = guid then (g.leave w guid).pickLeader w else g.leave w guid

/-- `RemoveMember` : there is no group afterwards where it is disbanded. -/
def removeMember (g : Group) (w : GroupWorld) (guid : ℕ) (method : RemoveMethod) : Option Group :=
  if g.isLFGGroup ∧ method = .kick then some g
  else if g.minSize < g.memberSlots.length then
    let g := g.takeOut w guid
    if g.leftAlone w then none
    else if g.memberMgr.length < g.minSize then none
    else some g
  else none

/-- `ChangeMembersGroup`. -/
def changeMembersGroup (g : Group) (guid : ℕ) (group : Fin maxRaidSubgroups) : Group :=
  if !g.isRaidGroup then g
  else
    match g.getMemberSlot guid with
    | none => g
    | some slot =>
      if slot.group = group then g
      else
        let g :=
          { g with
            memberSlots :=
              Keyed.replace MemberSlot.guid g.memberSlots { slot with group := group } }
        (g.subGroupCounterIncrease group).subGroupCounterDecrease slot.group

/-! ## Requests -/

/-- A player who goes offline gives up the reference, one who comes back gets it again. -/
def setPresence (g : Group) (w : GroupWorld) (guid : ℕ) (presence : Presence) : Group :=
  if presence = .offline then { g with memberMgr := g.memberMgr.filter (· ≠ guid) }
  else if w.presence guid = .offline ∧ g.isMember guid then
    { g with memberMgr := guid :: g.memberMgr }
  else g

inductive Request
  | addMember (guid : ℕ)
  | removeMember (guid : ℕ) (method : RemoveMethod)
  | changeLeader (guid : ℕ)
  | changeMembersGroup (guid : ℕ) (group : Fin maxRaidSubgroups)
  | convertToRaid
  | convertToGroup
  | setPresence (guid : ℕ) (presence : Presence)

/-- Only players who are not offline nor members are added, to a group that is not full, and members
are moved to a sub group that is not full. -/
def serveGroup (w : GroupWorld) (g : Group) : Request → Option Group
  | .addMember guid =>
    if g.isFull ∨ g.isMember guid ∨ w.presence guid = .offline then some g
    else some ((g.addMember guid).getD g)
  | .removeMember guid method => g.removeMember w guid method
  | .changeLeader guid => some (g.changeLeader w guid)
  | .changeMembersGroup guid group =>
    if g.hasFreeSlotSubGroup group then some (g.changeMembersGroup guid group) else some g
  | .convertToRaid => some g.convertToRaid
  | .convertToGroup => some g.convertToGroup
  | .setPresence guid presence => some (g.setPresence w guid presence)

def serveWorld (w : GroupWorld) : Request → GroupWorld
  | .setPresence guid presence => w.setPresence guid presence
  | _ => w

/-- A group, until it is disbanded, and the world. -/
structure Party where
  group : Option Group
  world : GroupWorld

def serve (p : Party) (r : Request) : Party :=
  ⟨p.group.bind fun g => serveGroup p.world g r, serveWorld p.world r⟩

/-- If the leader is removed and the group goes on, another member is in the world. -/
def KeepsLeader (g : Group) (w : GroupWorld) (guid : ℕ) (method : RemoveMethod) : Prop :=
  g.leaderGuid = guid → ¬(g.isLFGGroup = true ∧ method = .kick) →
    g.minSize < g.memberSlots.length → g.minSize ≤ (g.memberMgr.erase guid).length →
    ∃ a ∈ g.guids, a ≠ guid ∧ w.findPlayer a = true

/-- The requests keep a leader. -/
def KeepsLeaders (p : Party) : Request → Prop
  | .removeMember guid method => ∀ g, p.group = some g → g.KeepsLeader p.world guid method
  | _ => True

/-! ## The structure -/

/-- The counts are those of the slots, and no sub group has too many. -/
def Counted (c : Fin maxRaidSubgroups → ℕ) (slots : List MemberSlot) : Prop :=
  ∀ i, c i = slots.countP (fun slot => slot.group = i) ∧ c i ≤ maxGroupSize

/-- The members are distinct and, in a raid, counted. A group that is no raid has no counts, and no
more members than a sub group. -/
structure Structured (g : Group) : Prop where
  guids_nodup : g.guids.Nodup
  counted : g.isRaidGroup = true → ∃ c, g.subGroupsCounts = some c ∧ Counted c g.memberSlots
  party : g.isRaidGroup = false → g.subGroupsCounts = none ∧ g.memberSlots.length ≤ maxGroupSize

variable {g g' : Group} {w : GroupWorld} {guid : ℕ} {c : Fin maxRaidSubgroups → ℕ}
  {slot : MemberSlot} {slots : List MemberSlot}

theorem increase_apply (c : Fin maxRaidSubgroups → ℕ) {j : Fin maxRaidSubgroups}
    (hj : c j + 1 < 2 ^ 8) (i : Fin maxRaidSubgroups) :
    increase c j i = c i + if j = i then 1 else 0 := by
  rw [increase]
  by_cases hij : j = i
  · subst hij
    rw [update_self, if_pos rfl]
    exact toU8_of_lt hj
  · rw [update_of_ne (Ne.symm hij), if_neg hij, add_zero]

theorem decrease_apply (c : Fin maxRaidSubgroups → ℕ) {j : Fin maxRaidSubgroups}
    (hj : 0 < c j) (hlt : c j < 2 ^ 8) (i : Fin maxRaidSubgroups) :
    decrease c j i + (if j = i then 1 else 0) = c i := by
  rw [decrease]
  by_cases hij : j = i
  · subst hij
    rw [update_self, if_pos rfl, toU8]
    omega
  · rw [update_of_ne (Ne.symm hij), if_neg hij, add_zero]

theorem mem_guids (h : g.getMemberSlot guid = some slot) :
    slot ∈ g.memberSlots ∧ slot.guid = guid :=
  mem_of_find h

theorem isMember_iff : g.isMember guid = true ↔ guid ∈ g.guids := by
  rw [isMember, guids, mem_map]
  constructor
  · intro h
    obtain ⟨slot, hslot⟩ := Option.isSome_iff_exists.1 h
    exact ⟨slot, mem_guids hslot⟩
  · rintro ⟨slot, hmem, rfl⟩
    refine Option.isSome_iff_exists.2 ?_
    cases hfind : g.getMemberSlot slot.guid with
    | some s => exact ⟨s, rfl⟩
    | none =>
      have := List.find?_eq_none.1 hfind slot hmem
      simp at this

/-- Recounting the slots of a group whose sub groups are not too full. -/
theorem foldl_increase : ∀ (slots : List MemberSlot) (c : Fin maxRaidSubgroups → ℕ),
    (∀ i, c i + slots.countP (fun slot => slot.group = i) < 2 ^ 8) → ∀ i,
      slots.foldl (fun c slot => increase c slot.group) c i =
        c i + slots.countP fun slot => slot.group = i
  | [], _, _, _ => rfl
  | slot :: slots, c, h, i => by
    have hslot : c slot.group + 1 < 2 ^ 8 := by
      have := h slot.group
      rw [countP_cons_of_pos (by simp)] at this
      omega
    have hinc := increase_apply c hslot
    have hrest : ∀ i,
        increase c slot.group i + slots.countP (fun slot => slot.group = i) < 2 ^ 8 := by
      intro i
      have := h i
      rw [countP_cons] at this
      rw [hinc i]
      simp only [decide_eq_true_eq] at this
      omega
    rw [foldl_cons, foldl_increase slots _ hrest i, hinc i, countP_cons]
    simp only [decide_eq_true_eq]
    omega

theorem sum_countP_group (slots : List MemberSlot) :
    ∑ i, slots.countP (fun slot => slot.group = i) = slots.length := by
  induction slots with
  | nil => simp
  | cons slot slots ih =>
    simp only [countP_cons, Finset.sum_add_distrib, ih, decide_eq_true_eq]
    rw [Finset.sum_ite_eq, if_pos (Finset.mem_univ _), length_cons]

/-- Adding a slot to a sub group that is not full. -/
theorem Counted.append (h : Counted c slots) (hfree : c slot.group < maxGroupSize) :
    Counted (increase c slot.group) (slots ++ [slot]) := by
  intro i
  have hinc := increase_apply c (j := slot.group) (by unfold maxGroupSize at hfree; omega) i
  rw [hinc, countP_append, ← (h i).1, countP_singleton]
  simp only [decide_eq_true_eq]
  refine ⟨trivial, ?_⟩
  have := (h i).2
  split_ifs with hi
  · rw [← hi]
    omega
  · omega

/-- Erasing a slot of distinct members. -/
theorem Counted.remove (h : Counted c slots) (hnodup : (slots.map MemberSlot.guid).Nodup)
    (hfind : find MemberSlot.guid slots guid = some slot) :
    Counted (decrease c slot.group) (remove MemberSlot.guid slots guid) := by
  have hmem := (mem_of_find hfind).1
  have hpos : 0 < c slot.group := by
    rw [(h slot.group).1]
    exact countP_pos_iff.2 ⟨slot, hmem, by simp⟩
  have hlt : c slot.group < 2 ^ 8 := by
    have := (h slot.group).2
    unfold maxGroupSize at this
    omega
  intro i
  have hdec := decrease_apply c hpos hlt i
  have hcount := countP_remove (fun slot => decide (slot.group = i)) hnodup hfind
  have hi := h i
  simp only [decide_eq_true_eq] at hcount
  omega

/-- Moving a slot to a sub group that is not full. -/
theorem Counted.move (h : Counted c slots) (hnodup : (slots.map MemberSlot.guid).Nodup)
    (hfind : find MemberSlot.guid slots guid = some slot) {group : Fin maxRaidSubgroups}
    (hfree : c group < maxGroupSize) (hne : slot.group ≠ group) :
    Counted (decrease (increase c group) slot.group)
      (Keyed.replace MemberSlot.guid slots { slot with group := group }) := by
  obtain ⟨hmem, hguid⟩ := mem_of_find hfind
  subst hguid
  have hpos : 0 < c slot.group := by
    rw [(h slot.group).1]
    exact countP_pos_iff.2 ⟨slot, hmem, by simp⟩
  have hle := (h slot.group).2
  unfold maxGroupSize at hle hfree
  have hinc := increase_apply c (j := group) (by omega)
  have hprev : increase c group slot.group = c slot.group := by
    rw [hinc, if_neg (Ne.symm hne), add_zero]
  intro i
  have hdec := decrease_apply (increase c group) (j := slot.group) (by omega) (by omega) i
  have hcount := countP_replace (fun slot => decide (slot.group = i)) hnodup
    (x := { slot with group := group }) hfind
  have hi := h i
  simp only [decide_eq_true_eq] at hcount
  rw [hinc i] at hdec
  unfold maxGroupSize at hi ⊢
  refine ⟨by omega, ?_⟩
  by_cases hgroup : group = i
  · subst hgroup
    rw [if_pos rfl, if_neg hne] at hdec
    omega
  · rw [if_neg hgroup] at hdec
    omega

/-! ## The structure is kept -/

theorem isRaidGroup_normal : (groupTypeNormal &&& groupTypeRaid != 0) = false := rfl

theorem isRaidGroup_raid (groupType : GroupType) :
    ((groupType ||| groupTypeRaid) &&& groupTypeRaid != 0) = true := by
  revert groupType
  decide

section

variable (h : g.Structured)
include h

/-- A raid that is not full has a sub group that is not full. -/
theorem Structured.exists_free (hfull : g.isFull = false) :
    ∃ i, g.freeSubGroup = some i ∧ ∀ c, g.subGroupsCounts = some c → c i < maxGroupSize := by
  cases hraid : g.isRaidGroup with
  | false =>
    refine ⟨0, by rw [freeSubGroup, (h.party hraid).1], fun c hc => ?_⟩
    rw [(h.party hraid).1] at hc
    cases hc
  | true =>
    obtain ⟨c, hc, hcounted⟩ := h.counted hraid
    have hfew : ∃ i, c i < maxGroupSize := by
      by_contra hall
      have hfive : ∀ i ∈ Finset.univ, c i = maxGroupSize := fun i _ =>
        le_antisymm (hcounted i).2 (not_lt.1 fun hi => hall ⟨i, hi⟩)
      have hsum := sum_countP_group g.memberSlots
      simp only [← fun i => (hcounted i).1, Finset.sum_congr rfl hfive, Finset.sum_const,
        Finset.card_univ, Fintype.card_fin, nsmul_eq_mul] at hsum
      rw [isFull, if_pos hraid, ← hsum] at hfull
      exact absurd hfull (by decide)
    rw [freeSubGroup, hc]
    obtain ⟨j, hj⟩ := hfew
    have hsome : ((List.finRange maxRaidSubgroups).find?
        fun i => decide (c i < maxGroupSize)).isSome := by
      rw [List.find?_isSome]
      exact ⟨j, mem_finRange j, decide_eq_true hj⟩
    obtain ⟨i, hi⟩ := Option.isSome_iff_exists.1 hsome
    have hfree := List.find?_some hi
    refine ⟨i, hi, fun c' hc' => ?_⟩
    rw [← Option.some.inj hc']
    exact of_decide_eq_true hfree

/-- A player who is no member is added to a group that is not full. -/
theorem Structured.addMember (hfull : g.isFull = false) (hnew : guid ∉ g.guids) :
    ∃ g', g.addMember guid = some g' ∧ g'.Structured ∧
      g'.guids = g.guids ++ [guid] ∧ g'.memberMgr = guid :: g.memberMgr ∧
      g'.leaderGuid = g.leaderGuid := by
  obtain ⟨i, hi, hfree⟩ := h.exists_free hfull
  have hguids : (g.joinSubGroup guid i).guids = g.guids ++ [guid] := by
    rw [guids, joinSubGroup, map_append, map_singleton, guids]
  refine ⟨g.joinSubGroup guid i, by rw [Group.addMember, hi, Option.map_some],
    ⟨?_, fun hraid => ?_, fun hraid => ?_⟩, hguids, rfl, rfl⟩
  · rw [hguids]
    exact h.guids_nodup.append (nodup_singleton guid) (by simpa using hnew)
  · obtain ⟨c, hc, hcounted⟩ := h.counted hraid
    let slot : MemberSlot := { guid := guid, group := i }
    have hslot : c slot.group < maxGroupSize := hfree c hc
    exact ⟨increase c i, congrArg (Option.map fun c => increase c i) hc, hcounted.append hslot⟩
  · obtain ⟨hnone, -⟩ := h.party hraid
    have hraid' : g.isRaidGroup = false := hraid
    refine ⟨congrArg (Option.map fun c => increase c i) hnone, ?_⟩
    rw [isFull, hraid'] at hfull
    simp only [Bool.false_eq_true, if_false, decide_eq_false_iff_not, not_le] at hfull
    rw [joinSubGroup, length_append, length_singleton]
    exact hfull

theorem Structured.removeSlot (guid : ℕ) : (g.removeSlot guid).Structured := by
  rw [Group.removeSlot]
  cases hfind : g.getMemberSlot guid with
  | none => exact h
  | some slot =>
    refine ⟨nodup_remove h.guids_nodup guid, fun hraid => ?_, fun hraid => ?_⟩
    · obtain ⟨c, hc, hcounted⟩ := h.counted hraid
      exact ⟨decrease c slot.group, congrArg (Option.map fun c => decrease c slot.group) hc,
        hcounted.remove h.guids_nodup hfind⟩
    · obtain ⟨hnone, hlength⟩ := h.party hraid
      exact ⟨congrArg (Option.map fun c => decrease c slot.group) hnone,
        (length_filter_le _ _).trans hlength⟩

theorem Structured.delinkMember (guid : ℕ) : (g.delinkMember guid).Structured :=
  ⟨h.guids_nodup, h.counted, h.party⟩

/-- A new leader keeps his slot, but for the flags. -/
theorem Structured.changeLeader (w : GroupWorld) (guid : ℕ) :
    (g.changeLeader w guid).Structured := by
  rw [Group.changeLeader]
  split
  · exact h
  · rename_i slot hfind
    split
    · have hslot : find MemberSlot.guid g.memberSlots slot.guid = some slot := by
        rw [(mem_guids hfind).2]
        exact hfind
      refine ⟨?_, fun hraid => ?_, fun hraid => ?_⟩
      · rw [guids, map_key_replace]
        exact h.guids_nodup
      · obtain ⟨c, hc, hcounted⟩ := h.counted hraid
        refine ⟨c, hc, fun i => ⟨?_, (hcounted i).2⟩⟩
        have hcount := countP_replace (fun slot => decide (slot.group = i)) h.guids_nodup
          (x := { slot with flags := slot.flags &&& ~~~memberFlagAssistant }) hslot
        rw [(hcounted i).1]
        exact (Nat.add_right_cancel hcount).symm
      · obtain ⟨hnone, hlength⟩ := h.party hraid
        refine ⟨hnone, ?_⟩
        rw [Keyed.replace, length_map]
        exact hlength
    · exact h

theorem Structured.pickLeader (w : GroupWorld) : (g.pickLeader w).Structured := by
  rw [Group.pickLeader]
  split
  · exact h
  · exact h.changeLeader w _

theorem Structured.leave (w : GroupWorld) (guid : ℕ) : (g.leave w guid).Structured := by
  have hlink : (if w.findPlayer guid then g.delinkMember guid else g).Structured := by
    split
    · exact h.delinkMember guid
    · exact h
  exact (hlink.delinkMember guid).removeSlot guid

theorem Structured.takeOut (w : GroupWorld) (guid : ℕ) : (g.takeOut w guid).Structured := by
  rw [Group.takeOut]
  split
  · exact (h.leave w guid).pickLeader w
  · exact h.leave w guid

theorem Structured.changeMembersGroup {group : Fin maxRaidSubgroups}
    (hfree : g.hasFreeSlotSubGroup group = true) (guid : ℕ) :
    (g.changeMembersGroup guid group).Structured := by
  rw [Group.changeMembersGroup]
  split
  · exact h
  · rename_i hraid
    simp only [Bool.not_eq_true', Bool.not_eq_false] at hraid
    split
    · exact h
    · rename_i slot hfind
      split
      · exact h
      · rename_i hne
        have hslot : find MemberSlot.guid g.memberSlots slot.guid = some slot := by
          rw [(mem_guids hfind).2]
          exact hfind
        obtain ⟨c, hc, hcounted⟩ := h.counted hraid
        rw [hasFreeSlotSubGroup, hc, Option.any_some] at hfree
        refine ⟨?_, fun _ => ⟨_, ?_, hcounted.move h.guids_nodup hslot
          (of_decide_eq_true hfree) hne⟩, fun hparty => ?_⟩
        · exact (congrArg List.Nodup (map_key_replace _ _)).mpr h.guids_nodup
        · rw [subGroupCounterDecrease, subGroupCounterIncrease, hc, Option.map_some,
            Option.map_some]
        · exact absurd hraid (Bool.eq_false_iff.1 hparty)

theorem Structured.convertToRaid : g.convertToRaid.Structured := by
  have hcount : ∀ i, g.memberSlots.countP (fun slot => slot.group = i) ≤ maxGroupSize := by
    intro i
    cases hraid : g.isRaidGroup with
    | false => exact countP_le_length.trans (h.party hraid).2
    | true =>
      obtain ⟨c, -, hcounted⟩ := h.counted hraid
      exact (hcounted i).1 ▸ (hcounted i).2
  have hinit := foldl_increase g.memberSlots (fun _ => 0) fun i => by
    have := hcount i
    unfold maxGroupSize at this
    omega
  refine ⟨h.guids_nodup, fun _ => ⟨_, rfl, fun i => ?_⟩, fun hraid => ?_⟩
  · have := hinit i
    rw [Nat.zero_add] at this
    exact ⟨this, this ▸ hcount i⟩
  · exact absurd (isRaidGroup_raid g.groupType) (Bool.eq_false_iff.1 hraid)

theorem Structured.convertToGroup : g.convertToGroup.Structured := by
  rw [Group.convertToGroup]
  split
  · exact h
  · rename_i hsize
    exact ⟨h.guids_nodup, fun hraid => absurd hraid (Bool.eq_false_iff.1 isRaidGroup_normal),
      fun _ => ⟨rfl, not_lt.1 hsize⟩⟩

end

/-! ## The leader -/

theorem mem_guids_removeSlot {a : ℕ} : a ∈ (g.removeSlot guid).guids ↔ a ∈ g.guids ∧ a ≠ guid := by
  rw [removeSlot]
  cases hfind : g.getMemberSlot guid with
  | none =>
    refine (and_iff_left_of_imp fun ha hguid => ?_).symm
    have hmember := isMember_iff.2 (hguid ▸ ha)
    rw [isMember, hfind] at hmember
    cases hmember
  | some slot =>
    simp only [guids, mem_map, mem_remove]
    constructor
    · rintro ⟨s, ⟨hs, hne⟩, rfl⟩
      exact ⟨⟨s, hs, rfl⟩, hne⟩
    · rintro ⟨⟨s, hs, rfl⟩, hne⟩
      exact ⟨s, ⟨hs, hne⟩, rfl⟩

/-- Only the members and the counts change. -/
theorem removeSlot_frame (g : Group) (guid : ℕ) : (g.removeSlot guid).leaderGuid = g.leaderGuid ∧
    (g.removeSlot guid).memberMgr = g.memberMgr ∧ (g.removeSlot guid).groupType = g.groupType := by
  rw [removeSlot]
  split
  · exact ⟨rfl, rfl, rfl⟩
  · exact ⟨rfl, rfl, rfl⟩

theorem changeLeader_frame (g : Group) (w : GroupWorld) (guid : ℕ) :
    (g.changeLeader w guid).guids = g.guids ∧
    (g.changeLeader w guid).memberMgr = g.memberMgr ∧
    (g.changeLeader w guid).groupType = g.groupType := by
  rw [changeLeader]
  split
  · exact ⟨rfl, rfl, rfl⟩
  · split
    · exact ⟨map_key_replace _ _, rfl, rfl⟩
    · exact ⟨rfl, rfl, rfl⟩

theorem changeLeader_leader (hlead : g.leaderGuid ∈ g.guids) (w : GroupWorld) (guid : ℕ) :
    (g.changeLeader w guid).leaderGuid ∈ (g.changeLeader w guid).guids := by
  rw [(changeLeader_frame g w guid).1, changeLeader]
  split
  · exact hlead
  · rename_i slot hfind
    split
    · exact mem_map_of_mem (mem_guids hfind).1
    · exact hlead

theorem pickLeader_frame (g : Group) (w : GroupWorld) :
    (g.pickLeader w).guids = g.guids ∧ (g.pickLeader w).memberMgr = g.memberMgr ∧
    (g.pickLeader w).groupType = g.groupType := by
  rw [pickLeader]
  split
  · exact ⟨rfl, rfl, rfl⟩
  · exact changeLeader_frame g w _

/-- A leader is picked if some member is in the world, and else the old one stays. -/
theorem pickLeader_leader (h : g.Structured) (w : GroupWorld) :
    ((∃ a ∈ g.guids, w.findPlayer a = true) → (g.pickLeader w).leaderGuid ∈ g.guids) ∧
    ((¬∃ a ∈ g.guids, w.findPlayer a = true) → (g.pickLeader w).leaderGuid = g.leaderGuid) := by
  rw [pickLeader]
  cases hfind : g.memberSlots.find? fun slot => w.findPlayer slot.guid with
  | none =>
    refine ⟨fun ⟨a, ha, hworld⟩ => ?_, fun _ => rfl⟩
    obtain ⟨slot, hslot, rfl⟩ := mem_map.1 ha
    exact absurd hworld (List.find?_eq_none.1 hfind slot hslot)
  | some slot =>
    have hmem := mem_of_find?_eq_some hfind
    have hworld := List.find?_some hfind
    have hslot : g.getMemberSlot slot.guid = some slot := find_of_mem h.guids_nodup hmem
    refine ⟨fun _ => ?_, fun hnone => ?_⟩
    · dsimp only
      rw [changeLeader, hslot]
      dsimp only
      rw [if_pos hworld]
      exact mem_map_of_mem hmem
    · exact absurd ⟨slot.guid, mem_map_of_mem hmem, hworld⟩ hnone

theorem leave_frame (g : Group) (w : GroupWorld) (guid : ℕ) :
    (g.leave w guid).leaderGuid = g.leaderGuid ∧ (g.leave w guid).groupType = g.groupType := by
  obtain ⟨hleader, -, htype⟩ :=
    removeSlot_frame ((if w.findPlayer guid then g.delinkMember guid else g).delinkMember guid) guid
  rw [leave, hleader, htype]
  split
  · exact ⟨rfl, rfl⟩
  · exact ⟨rfl, rfl⟩

theorem mem_guids_leave {a : ℕ} : a ∈ (g.leave w guid).guids ↔ a ∈ g.guids ∧ a ≠ guid := by
  rw [leave, mem_guids_removeSlot]
  split
  · rfl
  · rfl

/-- Each member holds one reference at most. -/
theorem leave_memberMgr (h : g.memberMgr.Nodup) :
    (g.leave w guid).memberMgr = g.memberMgr.erase guid := by
  rw [leave, (removeSlot_frame _ guid).2.1]
  split
  · exact erase_of_not_mem h.not_mem_erase
  · rfl

theorem takeOut_frame (g : Group) (w : GroupWorld) (guid : ℕ) :
    (g.takeOut w guid).guids = (g.leave w guid).guids ∧
    (g.takeOut w guid).memberMgr = (g.leave w guid).memberMgr ∧
    (g.takeOut w guid).groupType = (g.leave w guid).groupType := by
  rw [takeOut]
  split
  · exact pickLeader_frame _ w
  · exact ⟨rfl, rfl, rfl⟩

/-- The leader who leaves is replaced exactly if another member is in the world. -/
theorem takeOut_leader_iff (h : g.Structured) (hlead : g.leaderGuid ∈ g.guids) :
    (g.takeOut w guid).leaderGuid ∈ (g.takeOut w guid).guids ↔
      (g.leaderGuid = guid → ∃ a ∈ g.guids, a ≠ guid ∧ w.findPlayer a = true) := by
  have hleave := h.leave w guid
  obtain ⟨hleader, -⟩ := leave_frame g w guid
  have hothers : (∃ a ∈ (g.leave w guid).guids, w.findPlayer a = true) ↔
      ∃ a ∈ g.guids, a ≠ guid ∧ w.findPlayer a = true := by
    simp only [mem_guids_leave, and_assoc]
  rw [(takeOut_frame g w guid).1, takeOut]
  by_cases hguid : g.leaderGuid = guid
  · rw [if_pos (hleader.trans hguid), ← hothers]
    obtain ⟨hpicked, hkept⟩ := pickLeader_leader hleave w
    refine ⟨fun hmem _ => ?_, fun hsome => hpicked (hsome hguid)⟩
    by_contra hnone
    rw [hkept hnone, hleader, mem_guids_leave] at hmem
    exact hmem.2 hguid
  · rw [if_neg (fun hleft => hguid (hleader ▸ hleft)), hleader, mem_guids_leave]
    exact ⟨fun _ hleft => absurd hleft hguid, fun _ => ⟨hlead, hguid⟩⟩

/-- What is left of a group after a removal. -/
theorem removeMember_cases {method : RemoveMethod} (h : g.removeMember w guid method = some g') :
    ((g.isLFGGroup = true ∧ method = .kick) ∧ g' = g) ∨
    (¬(g.isLFGGroup = true ∧ method = .kick) ∧ g.minSize < g.memberSlots.length ∧
      g.minSize ≤ (g.takeOut w guid).memberMgr.length ∧ g' = g.takeOut w guid) := by
  have hmin : (g.takeOut w guid).minSize = g.minSize := by
    rw [minSize, minSize, isLFGGroup, isLFGGroup, (takeOut_frame g w guid).2.2,
      (leave_frame g w guid).2]
  rw [removeMember] at h
  split at h
  · rename_i hkick
    exact Or.inl ⟨hkick, (Option.some.inj h).symm⟩
  · rename_i hkick
    split at h
    · rename_i hsize
      dsimp only at h
      split at h
      · cases h
      · split at h
        · cases h
        · rename_i hlinks
          rw [hmin] at hlinks
          exact Or.inr ⟨hkick, hsize, not_lt.1 hlinks, (Option.some.inj h).symm⟩
    · cases h

/-- The exact condition under which a removal leaves a group whose leader is a member. -/
theorem removeMember_leader_iff (h : g.Structured) (hlinks : g.memberMgr.Nodup)
    (hlead : g.leaderGuid ∈ g.guids) {method : RemoveMethod}
    (hg' : g.removeMember w guid method = some g') :
    g'.leaderGuid ∈ g'.guids ↔ g.KeepsLeader w guid method := by
  rcases removeMember_cases hg' with ⟨hkick, rfl⟩ | ⟨hkick, hsize, hlength, rfl⟩
  · exact ⟨fun _ _ hno => absurd hkick hno, fun _ => hlead⟩
  · rw [takeOut_leader_iff h hlead, KeepsLeader]
    rw [(takeOut_frame g w guid).2.1, leave_memberMgr hlinks] at hlength
    exact ⟨fun hothers hguid _ _ _ => hothers hguid,
      fun hothers hguid => hothers hguid hkick hsize hlength⟩

/-! ## The references -/

/-- The references are those of members who are not offline, one each. -/
structure Linked (g : Group) (w : GroupWorld) : Prop where
  nodup : g.memberMgr.Nodup
  member : ∀ a ∈ g.memberMgr, a ∈ g.guids
  online : ∀ a ∈ g.memberMgr, w.presence a ≠ .offline

theorem Linked.of_eq (h : g.Linked w) (hmgr : g'.memberMgr = g.memberMgr)
    (hguids : g'.guids = g.guids) : g'.Linked w := by
  refine ⟨hmgr ▸ h.nodup, fun a ha => ?_, fun a ha => h.online a (hmgr ▸ ha)⟩
  rw [hguids]
  exact h.member a (hmgr ▸ ha)

theorem Linked.takeOut (h : g.Linked w) : (g.takeOut w guid).Linked w := by
  have hmgr : (g.takeOut w guid).memberMgr = g.memberMgr.erase guid :=
    (takeOut_frame g w guid).2.1.trans (leave_memberMgr h.nodup)
  refine ⟨hmgr ▸ h.nodup.erase guid, fun a ha => ?_, fun a ha => ?_⟩
  · rw [hmgr, h.nodup.mem_erase_iff] at ha
    rw [(takeOut_frame g w guid).1, mem_guids_leave]
    exact ⟨h.member a ha.2, ha.1⟩
  · rw [hmgr] at ha
    exact h.online a (mem_of_mem_erase ha)

theorem Linked.setPresence (h : g.Linked w) (guid : ℕ) (presence : Presence) :
    (g.setPresence w guid presence).Linked (w.setPresence guid presence) := by
  have honline : ∀ a, a ≠ guid → (w.setPresence guid presence).presence a = w.presence a := by
    intro a hne
    simp [GroupWorld.setPresence, hne]
  have hself : (w.setPresence guid presence).presence guid = presence := by
    simp [GroupWorld.setPresence]
  rw [Group.setPresence]
  split_ifs with hoff hback
  · refine ⟨h.nodup.filter _, fun a ha => ?_, fun a ha => ?_⟩
    · exact h.member a (mem_filter.1 ha).1
    · obtain ⟨ha, hne⟩ := mem_filter.1 ha
      rw [honline a (of_decide_eq_true hne)]
      exact h.online a ha
  · have hnew : guid ∉ g.memberMgr := fun hmem => h.online guid hmem hback.1
    refine ⟨nodup_cons.2 ⟨hnew, h.nodup⟩, fun a ha => ?_, fun a ha => ?_⟩
    · rcases mem_cons.1 ha with rfl | ha
      · exact isMember_iff.1 hback.2
      · exact h.member a ha
    · rcases mem_cons.1 ha with rfl | ha
      · rwa [hself]
      · rw [honline a fun heq => hnew (heq ▸ ha)]
        exact h.online a ha
  · refine ⟨h.nodup, h.member, fun a ha => ?_⟩
    by_cases heq : a = guid
    · subst heq
      rwa [hself]
    · rw [honline a heq]
      exact h.online a ha

/-! ## Runs -/

theorem changeMembersGroup_frame (g : Group) (guid : ℕ) (group : Fin maxRaidSubgroups) :
    (g.changeMembersGroup guid group).guids = g.guids ∧
    (g.changeMembersGroup guid group).memberMgr = g.memberMgr ∧
    (g.changeMembersGroup guid group).leaderGuid = g.leaderGuid := by
  rw [changeMembersGroup]
  split
  · exact ⟨rfl, rfl, rfl⟩
  · split
    · exact ⟨rfl, rfl, rfl⟩
    · split
      · exact ⟨rfl, rfl, rfl⟩
      · exact ⟨map_key_replace _ _, rfl, rfl⟩

theorem convertToGroup_frame (g : Group) : g.convertToGroup.guids = g.guids ∧
    g.convertToGroup.memberMgr = g.memberMgr ∧ g.convertToGroup.leaderGuid = g.leaderGuid := by
  rw [convertToGroup]
  split
  · exact ⟨rfl, rfl, rfl⟩
  · exact ⟨rfl, rfl, rfl⟩

/-- Only the references change. -/
theorem setPresence_frame (g : Group) (w : GroupWorld) (guid : ℕ) (presence : Presence) :
    ∃ links, g.setPresence w guid presence = { g with memberMgr := links } := by
  rw [setPresence]
  split_ifs
  · exact ⟨_, rfl⟩
  · exact ⟨_, rfl⟩
  · exact ⟨g.memberMgr, rfl⟩

/-- What a request makes of a group that is in order : the group afterwards is in order, and its
leader is a member if he was, and is not lost by the request. -/
theorem serveGroup_spec (h : g.Structured) (hlinks : g.Linked w) {r : Request}
    (hg' : serveGroup w g r = some g') : g'.Structured ∧ g'.Linked (serveWorld w r) ∧
      (g.leaderGuid ∈ g.guids → KeepsLeaders ⟨some g, w⟩ r → g'.leaderGuid ∈ g'.guids) := by
  cases r with
  | addMember guid =>
    rw [serveGroup] at hg'
    split at hg'
    · obtain rfl := Option.some.inj hg'
      exact ⟨h, hlinks, fun hlead _ => hlead⟩
    · rename_i hnew
      simp only [not_or] at hnew
      obtain ⟨hfull, hmember, honline⟩ := hnew
      have hmember : guid ∉ g.guids := fun hmem => hmember (isMember_iff.2 hmem)
      obtain ⟨g1, hadd, hstructured, hguids, hmgr, hleader⟩ :=
        h.addMember (Bool.eq_false_iff.2 hfull) hmember
      rw [hadd, Option.getD_some] at hg'
      obtain rfl := Option.some.inj hg'
      refine ⟨hstructured, ⟨?_, fun a ha => ?_, fun a ha => ?_⟩, fun hlead _ => ?_⟩
      · rw [hmgr, nodup_cons]
        exact ⟨fun hmem => hmember (hlinks.member guid hmem), hlinks.nodup⟩
      · rw [hmgr] at ha
        rw [hguids, mem_append, mem_singleton]
        exact (mem_cons.1 ha).symm.imp_left (hlinks.member a)
      · rw [hmgr] at ha
        rcases mem_cons.1 ha with rfl | ha
        · exact honline
        · exact hlinks.online a ha
      · rw [hleader, hguids]
        exact mem_append_left _ hlead
  | removeMember guid method =>
    have hiff := fun hlead => removeMember_leader_iff h hlinks.nodup hlead hg'
    refine ⟨?_, ?_, fun hlead hkeeps => (hiff hlead).2 (hkeeps g rfl)⟩
    · rcases removeMember_cases hg' with ⟨-, rfl⟩ | ⟨-, -, -, rfl⟩
      · exact h
      · exact h.takeOut w guid
    · rcases removeMember_cases hg' with ⟨-, rfl⟩ | ⟨-, -, -, rfl⟩
      · exact hlinks
      · exact hlinks.takeOut
  | changeLeader guid =>
    obtain rfl := Option.some.inj hg'
    obtain ⟨hguids, hmgr, -⟩ := changeLeader_frame g w guid
    exact ⟨h.changeLeader w guid, hlinks.of_eq hmgr hguids,
      fun hlead _ => changeLeader_leader hlead w guid⟩
  | changeMembersGroup guid group =>
    rw [serveGroup] at hg'
    split at hg'
    · rename_i hfree
      obtain rfl := Option.some.inj hg'
      obtain ⟨hguids, hmgr, hleader⟩ := changeMembersGroup_frame g guid group
      refine ⟨h.changeMembersGroup hfree guid, hlinks.of_eq hmgr hguids, fun hlead _ => ?_⟩
      rwa [hleader, hguids]
    · obtain rfl := Option.some.inj hg'
      exact ⟨h, hlinks, fun hlead _ => hlead⟩
  | convertToRaid =>
    obtain rfl := Option.some.inj hg'
    exact ⟨h.convertToRaid, ⟨hlinks.nodup, hlinks.member, hlinks.online⟩, fun hlead _ => hlead⟩
  | convertToGroup =>
    obtain rfl := Option.some.inj hg'
    obtain ⟨hguids, hmgr, hleader⟩ := convertToGroup_frame g
    refine ⟨h.convertToGroup, hlinks.of_eq hmgr hguids, fun hlead _ => ?_⟩
    rwa [hleader, hguids]
  | setPresence guid presence =>
    obtain rfl := Option.some.inj hg'
    refine ⟨?_, hlinks.setPresence guid presence, ?_⟩
    · obtain ⟨links, heq⟩ := setPresence_frame g w guid presence
      rw [heq]
      exact ⟨h.guids_nodup, h.counted, h.party⟩
    · obtain ⟨links, heq⟩ := setPresence_frame g w guid presence
      rw [heq]
      exact fun hlead _ => hlead

theorem structured_create (leader : ℕ) : (create leader).Structured where
  guids_nodup := nodup_singleton leader
  counted := fun hraid => absurd hraid (Bool.eq_false_iff.1 isRaidGroup_normal)
  party := fun _ => ⟨rfl, Nat.succ_le_succ (Nat.zero_le 4)⟩

theorem linked_create {leader : ℕ} (h : w.presence leader ≠ .offline) :
    (create leader).Linked w where
  nodup := nodup_singleton leader
  member := fun a ha => ha
  online := fun a ha => by
    rw [mem_singleton.1 ha]
    exact h

/-- A group that goes on is in order. -/
def InOrder (p : Party) : Prop :=
  ∀ g, p.group = some g → g.Structured ∧ g.Linked p.world

theorem InOrder.serve {p : Party} (h : InOrder p) (r : Request) : InOrder (serve p r) := by
  intro g' hg'
  obtain ⟨g, hg, hserve⟩ := Option.bind_eq_some_iff.1 hg'
  obtain ⟨hstructured, hlinks⟩ := h g hg
  obtain ⟨hstructured', hlinks', -⟩ := serveGroup_spec hstructured hlinks hserve
  exact ⟨hstructured', hlinks'⟩

/-- A group that goes on is led by a member. -/
def Led (p : Party) : Prop :=
  InOrder p ∧ ∀ g, p.group = some g → g.leaderGuid ∈ g.guids

theorem Led.serve {p : Party} (h : Led p) {r : Request} (hr : KeepsLeaders p r) :
    Led (serve p r) := by
  refine ⟨h.1.serve r, fun g' hg' => ?_⟩
  obtain ⟨g, hg, hserve⟩ := Option.bind_eq_some_iff.1 hg'
  obtain ⟨hstructured, hlinks⟩ := h.1 g hg
  obtain ⟨-, -, hlead⟩ := serveGroup_spec hstructured hlinks hserve
  have hgroup : p = ⟨some g, p.world⟩ := by
    cases p
    exact congrArg (Party.mk · _) hg
  exact hlead (h.2 g hg) (hgroup ▸ hr)

/-- In every run of a created group, while it goes on : the members are distinct and the sub groups
of a raid are counted and not too full ; and the leader is a member, where no removal leaves the
lead to a group without another member in the world. -/
theorem group_run {leader : ℕ} {w : GroupWorld} (hw : w.presence leader ≠ .offline)
    (rs : List Request) {g : Group} (hg : (run serve ⟨some (create leader), w⟩ rs).group = some g) :
    g.guids.Nodup ∧
    (g.isRaidGroup = true → ∃ c, g.subGroupsCounts = some c ∧
      ∀ i, c i = g.memberSlots.countP (fun slot => slot.group = i) ∧ c i ≤ maxGroupSize) ∧
    (Along serve KeepsLeaders ⟨some (create leader), w⟩ rs → g.leaderGuid ∈ g.guids) := by
  have hstart : InOrder ⟨some (create leader), w⟩ := by
    rintro g ⟨rfl⟩
    exact ⟨structured_create leader, linked_create hw⟩
  have hled : Led ⟨some (create leader), w⟩ := by
    refine ⟨hstart, ?_⟩
    rintro g ⟨rfl⟩
    exact mem_singleton_self leader
  have horder : ∀ p r, InOrder p → InOrder (serve p r) := fun _ r h => h.serve r
  have hstep : ∀ p r, Led p → KeepsLeaders p r → Led (serve p r) := fun _ _ h hr => h.serve hr
  obtain ⟨hstructured, -⟩ := run_of_invariant horder rs hstart g hg
  exact ⟨hstructured.guids_nodup, hstructured.counted,
    fun hkeeps => (invariant_run hstep hled hkeeps).2 g hg⟩

/-- All players are in the world. -/
def everyoneOnline : GroupWorld where
  presence := fun _ => .inWorld

/-- A raid of three, whose leader leaves to a member in the world. -/
def raidRequests : List Request :=
  [.addMember 2, .addMember 3, .convertToRaid, .changeMembersGroup 3 1, .setPresence 2 .linked,
    .removeMember 1 .leave]

theorem group_run_raid : ∃ g,
    (run serve ⟨some (create 1), everyoneOnline⟩
      raidRequests).group = some g ∧ g.guids = [2, 3] ∧ g.leaderGuid = 3 ∧
    g.leaderGuid ∈ g.guids := by
  refine ⟨_, rfl, rfl, rfl, ?_⟩
  have hw : everyoneOnline.presence 1 ≠ .offline := by decide
  have hrest := (group_run hw raidRequests rfl).2.2
  refine hrest ⟨trivial, trivial, trivial, trivial, trivial, ?_, trivial⟩
  intro g hg _ _ _ _
  obtain rfl := Option.some.inj hg
  exact ⟨3, by decide, by decide, by decide⟩

/-- The leader of a group of three leaves while the other members are teleporting : the two of them
are a group, and its leader is still the one who left. -/
theorem removeMember_keeps_leader :
    ((run serve ⟨some (create 1), everyoneOnline⟩
      [.addMember 2, .addMember 3, .setPresence 2 .linked, .setPresence 3 .linked,
        .removeMember 1 .leave]).group.map fun g => (g.guids, g.leaderGuid)) =
      some ([2, 3], 1) := by
  decide

end Group

end MistyWorld
