import MistyWorld.Keyed
import MistyWorld.Word

/-!
# Guilds

The members of a guild, its rank table and its leader, with the handlers that change them :
`HandleRemoveMember`, `HandleUpdateMemberRank`, `HandleSetMemberRank`, `HandleAddNewRank`,
`HandleRemoveRank`, `HandleSetNewGuildMaster`, `HandleLeaveMember`, `AddMember` and
`DeleteMember`.

A member holds the id of his rank, a rank is found by its place in `m_ranks`, and the
leader is recorded by his guid and by rank 0. Ids of ranks are 8-bit words. The members are
listed in the order in which the hash map is walked.

A handler first decides (`checkRemoveMember`, `checkUpdateMemberRank`,
`checkSetMemberRank`), with the error it sends when it refuses, and then acts. A
disbanded guild is `none`.
-/

open List Word

namespace MistyWorld

/-! ## The data -/

/-- `GUILD_BANK_MAX_TABS`. -/
def guildBankMaxTabs : ℕ := 8

/-- `GUILD_RANKS_MIN_COUNT`. -/
def guildRanksMinCount : ℕ := 2

/-- `GUILD_RANKS_MAX_COUNT`. -/
def guildRanksMaxCount : ℕ := 10

/-- `GUILD_RANK_NONE`. -/
def guildRankNone : ℕ := 255

/-- `GR_GUILDMASTER`. -/
def grGuildmaster : ℕ := 0

/-- `GR_INITIATE`. -/
def grInitiate : ℕ := 4

/-- `GR_RIGHT_EMPTY`. -/
def grRightEmpty : ℕ := 0x40

/-- `GR_RIGHT_REMOVE`. -/
def grRightRemove : ℕ := 0x60

/-- `GR_RIGHT_PROMOTE`. -/
def grRightPromote : ℕ := 0xC0

/-- `GR_RIGHT_DEMOTE`. -/
def grRightDemote : ℕ := 0x140

/-- `GR_RIGHT_GCHATLISTEN | GR_RIGHT_GCHATSPEAK`. -/
def grRightChat : ℕ := 0x43

/-- `GR_RIGHT_ALL`. -/
def grRightAll : ℕ := 0xDDFFBF

/-- `GuildCommandError`, as far as the handlers below send it. -/
inductive GuildCommandError
  | permissions
  | nameInvalid
  | rankTooHigh
  | rankTooLow
  | leaderLeave
  | undeletableDueToLevel
  deriving DecidableEq, Repr

/-- What a handler decides : a refusal, with the error it sends if any, or its effect. -/
abbrev Decision (α : Type) :=
  Except (Option GuildCommandError) α

/-- `GUID_LOPART`. -/
def guidLopart (guid : ℕ) : ℕ :=
  guid % 2 ^ 32

/-- The guid of a player : `HIGHGUID_PLAYER` is 0, so it is a low part. -/
abbrev PlayerGuid := Fin (2 ^ 32)

theorem one_lt_guids : 1 < 2 ^ 32 := by
  decide

theorem two_lt_guids : 2 < 2 ^ 32 := by
  decide

theorem zero_lt_ranks : 0 < 2 ^ 8 := by
  decide

theorem one_lt_ranks : 1 < 2 ^ 8 := by
  decide

/-- `Guild::Member`. The guid of a player is a low part. `bankWithdraw` counts the items
taken today from each tab and, at `GUILD_BANK_MAX_TABS`, the money. -/
structure Member where
  guid : ℕ
  name : String
  rankId : ℕ
  bankWithdraw : ℕ → ℤ
  guid_lt : guid < 2 ^ 32
  rankId_lt : rankId < 2 ^ 8

/-- `GuildBankRightsAndSlots`. -/
structure GuildBankRightsAndSlots where
  rights : ℕ
  slots : ℕ
  deriving DecidableEq

/-- `Guild::RankInfo`. -/
structure RankInfo where
  rankId : ℕ
  rights : ℕ
  bankMoneyPerDay : ℕ
  bankTabRightsAndSlots : ℕ → GuildBankRightsAndSlots

/-- `Guild`. -/
structure Guild where
  leaderGuid : ℕ
  level : ℕ
  bankMoney : ℕ
  purchasedTabs : ℕ
  ranks : List RankInfo
  members : List Member
  members_nodup : (members.map Member.guid).Nodup

namespace Member

/-- `Member::IsRank`. -/
def isRank (m : Member) (rankId : ℕ) : Bool :=
  m.rankId = rankId

/-- `Member::IsRankNotLower`. -/
def isRankNotLower (m : Member) (rankId : ℕ) : Bool :=
  m.rankId ≤ rankId

/-- `Member::ChangeRank` : the id is cut to 8 bits. -/
def changeRank (m : Member) (newRank : ℕ) : Member :=
  { m with rankId := toU8 newRank, rankId_lt := toU8_lt _ }

theorem guid_changeRank (rankOf : ℕ → ℕ) (m : Member) :
    (m.changeRank (rankOf m.guid)).guid = m.guid :=
  rfl

end Member

namespace Guild

/-! ## Lookups -/

/-- `_GetRanksSize`. -/
def getRanksSize (g : Guild) : ℕ :=
  toU8 g.ranks.length

/-- `_GetLowestRankId`. -/
def getLowestRankId (g : Guild) : ℕ :=
  toU8 ((g.ranks.length : ℤ) - 1)

/-- `GetRankInfo`. -/
def getRankInfo (g : Guild) (rankId : ℕ) : Option RankInfo :=
  if rankId < g.getRanksSize then g.ranks[rankId]? else none

/-- `_GetRankRights`. -/
def getRankRights (g : Guild) (rankId : ℕ) : ℕ :=
  match g.getRankInfo rankId with
  | some info => info.rights
  | none => 0

/-- `GetMember(uint64)`. -/
def getMember (g : Guild) (guid : ℕ) : Option Member :=
  Keyed.find Member.guid g.members (guidLopart guid)

/-- `GetMember(std::string const&)`. -/
def getMemberByName (g : Guild) (name : String) : Option Member :=
  g.members.find? fun m => m.name = name

/-- `_HasRankRight` : a rank without rights at all, or one that is not in the table, passes
the comparison with `GR_RIGHT_EMPTY`. -/
def hasRankRight (g : Guild) (player right : ℕ) : Bool :=
  match g.getMember player with
  | some member => g.getRankRights member.rankId &&& right ≠ grRightEmpty
  | none => false

/-- `_IsLeader`. -/
def isLeader (g : Guild) (player : ℕ) : Bool :=
  player = g.leaderGuid ||
    match g.getMember player with
    | some member => member.isRank grGuildmaster
    | none => false

/-! ## Changes -/

/-- `Member::ChangeRank` on the record of a member. -/
def changeRank (g : Guild) (guid newRank : ℕ) : Guild where
  leaderGuid := g.leaderGuid
  level := g.level
  bankMoney := g.bankMoney
  purchasedTabs := g.purchasedTabs
  ranks := g.ranks
  members := g.members.map fun m => if m.guid = guid then m.changeRank newRank else m
  members_nodup := by
    have hkeys : (g.members.map fun m => if m.guid = guid then m.changeRank newRank else m).map
        Member.guid = g.members.map Member.guid := by
      rw [map_map]
      refine map_congr_left fun m _ => ?_
      simp only [Function.comp_apply]
      split_ifs <;> rfl
    rw [hkeys]
    exact g.members_nodup

/-- `m_members.erase`. -/
def eraseMember (g : Guild) (lowguid : ℕ) : Guild :=
  { g with
    members := Keyed.remove Member.guid g.members lowguid
    members_nodup := Keyed.nodup_remove g.members_nodup lowguid }

/-- `_SetLeaderGUID`. -/
def setLeaderGUID (g : Guild) (leader : Member) : Guild :=
  { g.changeRank leader.guid grGuildmaster with leaderGuid := leader.guid }

/-- The search of `DeleteMember` for a new leader : among the other members, the first one
of the highest rank. -/
def newLeader (lowguid : ℕ) : Option Member → List Member → Option Member
  | best, [] => best
  | best, m :: ms =>
    if m.guid = lowguid then newLeader lowguid best ms
    else
      match best with
      | none => newLeader lowguid (some m) ms
      | some b => newLeader lowguid (if b.rankId > m.rankId then some m else some b) ms

/-- `DeleteMember`. Only `Disband`, which removes everyone, sets `isDisbanding`. -/
def deleteMember (g : Guild) (guid : ℕ) (isDisbanding : Bool) : Option Guild :=
  if g.leaderGuid = guid ∧ isDisbanding = false then
    match newLeader (guidLopart guid) none g.members with
    | none => none
    | some leader => some ((g.setLeaderGUID leader).eraseMember (guidLopart guid))
  else some (g.eraseMember (guidLopart guid))

/-- Who asks to join : whether he is in another guild, and whether he is online or his row
of the characters table exists and passes `CheckStats`. -/
structure Candidate where
  guid : ℕ
  name : String
  inOtherGuild : Bool
  valid : Bool
  guid_lt : guid < 2 ^ 32

/-- The record of a new member. -/
def Candidate.toMember (c : Candidate) (rankId : ℕ) : Member :=
  ⟨c.guid, c.name, toU8 rankId, fun _ => 0, c.guid_lt, toU8_lt _⟩

/-- `AddMember`. A member of this guild has its id, so he cannot be added again. -/
def addMember (g : Guild) (c : Candidate) (rankId : ℕ) : Guild :=
  if h : c.guid ∈ g.members.map Member.guid then g
  else if c.inOtherGuild || !c.valid then g
  else
    { g with
      members := g.members ++ [c.toMember
        (if rankId = guildRankNone then g.getLowestRankId else rankId)]
      members_nodup := by
        rw [map_append, map_singleton, nodup_append]
        refine ⟨g.members_nodup, nodup_singleton _, ?_⟩
        rintro a ha b hb rfl
        obtain rfl : a = c.guid := mem_singleton.1 hb
        exact h ha }

/-- `_CreateRank`. -/
def createRank (g : Guild) (rights : ℕ) : Guild :=
  if g.getRanksSize ≥ guildRanksMaxCount then g
  else { g with ranks := g.ranks ++ [⟨g.getRanksSize, rights, 0, fun _ => ⟨0, 0⟩⟩] }

/-- `_CreateDefaultGuildRanks`. -/
def createDefaultGuildRanks (g : Guild) : Guild :=
  [grRightAll, grRightAll, grRightChat, grRightChat, grRightChat].foldl createRank g

/-- A guild with the default ranks and no members. -/
def founded (leader : Candidate) : Guild :=
  createDefaultGuildRanks ⟨leader.guid, 1, 0, 0, [], [], nodup_nil⟩

/-- `Guild::Create` : the default ranks, then the leader. Without him there is no guild. -/
def create (leader : Candidate) : Option Guild :=
  if ((founded leader).addMember leader grGuildmaster).members.isEmpty then none
  else some ((founded leader).addMember leader grGuildmaster)

/-! ## The handlers -/

/-- What `HandleRemoveMember` decides : the member to delete. -/
def checkRemoveMember (g : Guild) (player guid : ℕ) : Decision Member :=
  if !g.hasRankRight player grRightRemove then .error (some .permissions)
  else
    match g.getMember guid with
    | none => .error none
    | some member =>
      if member.isRank grGuildmaster then .error (some .leaderLeave)
      else
        match g.getMember player with
        | none => .error (some .rankTooHigh)
        | some memberMe =>
          if member.isRankNotLower memberMe.rankId then .error (some .rankTooHigh)
          else .ok member

/-- `HandleRemoveMember`. -/
def handleRemoveMember (g : Guild) (player guid : ℕ) : Option Guild :=
  match g.checkRemoveMember player guid with
  | .ok _ => g.deleteMember guid false
  | .error _ => some g

/-- What `HandleUpdateMemberRank` decides : the member and his new rank id. The argument of
`IsRankNotLower` is cut to 8 bits. -/
def checkUpdateMemberRank (g : Guild) (player guid : ℕ) (demote : Bool) :
    Decision (Member × ℕ) :=
  if !g.hasRankRight player (if demote then grRightDemote else grRightPromote) then
    .error (some .permissions)
  else
    match g.getMember guid with
    | none => .error none
    | some member =>
      if member.guid = player then .error (some .nameInvalid)
      else
        match g.getMember player with
        | none => .error none
        | some memberMe =>
          if demote then
            if member.isRankNotLower memberMe.rankId then .error (some .rankTooHigh)
            else if member.rankId ≥ g.getLowestRankId then .error (some .rankTooLow)
            else .ok (member, member.rankId + 1)
          else if member.isRankNotLower (toU8 (memberMe.rankId + 1 : ℕ)) then
            .error (some .rankTooHigh)
          else .ok (member, toU32 ((member.rankId : ℤ) - 1))

/-- `HandleUpdateMemberRank`. -/
def handleUpdateMemberRank (g : Guild) (player guid : ℕ) (demote : Bool) : Guild :=
  match g.checkUpdateMemberRank player guid demote with
  | .ok (member, newRankId) => g.changeRank member.guid newRankId
  | .error _ => g

/-- What `HandleSetMemberRank` decides : the member. There is no comparison of his rank, or
of the new one, with the rank of the player. -/
def checkSetMemberRank (g : Guild) (player targetGuid rank : ℕ) : Decision Member :=
  match g.getMember targetGuid with
  | none => .error none
  | some member =>
    if !g.hasRankRight player (if rank > member.rankId then grRightDemote else grRightPromote)
    then .error (some .permissions)
    else if member.guid = player then .error (some .nameInvalid)
    else .ok member

/-- `HandleSetMemberRank`, with the assignment that `SendGuildRanksUpdate` makes. -/
def handleSetMemberRank (g : Guild) (player targetGuid rank : ℕ) : Guild :=
  match g.checkSetMemberRank player targetGuid rank with
  | .ok member => g.changeRank member.guid rank
  | .error _ => g

/-- `HandleAddNewRank`. -/
def handleAddNewRank (g : Guild) (player : ℕ) : Guild :=
  if g.getRanksSize ≥ guildRanksMaxCount then g
  else if g.isLeader player then g.createRank grRightChat
  else g

/-- `HandleRemoveRank`. -/
def handleRemoveRank (g : Guild) (player rankId : ℕ) : Guild :=
  if g.getRanksSize ≤ guildRanksMinCount ∨ rankId ≥ g.getRanksSize ∨ g.isLeader player = false
  then g
  else { g with ranks := g.ranks.eraseIdx rankId }

/-- `HandleSetNewGuildMaster`. The old master's record is written after the new one's. -/
def handleSetNewGuildMaster (g : Guild) (player : ℕ) (name : String) : Guild :=
  if !g.isLeader player then g
  else
    match g.getMember player with
    | none => g
    | some oldGuildMaster =>
      match g.getMemberByName name with
      | none => g
      | some newGuildMaster =>
        (g.setLeaderGUID newGuildMaster).changeRank oldGuildMaster.guid grInitiate

/-- `HandleLeaveMember`, with `CONFIG_GUILD_UNDELETABLE_LEVEL`. -/
def handleLeaveMember (undeletableLevel : ℕ) (g : Guild) (player : ℕ) : Option Guild :=
  if g.isLeader player then
    if g.members.length > 1 then some g
    else if g.level ≥ undeletableLevel then some g
    else none
  else g.deleteMember player false

end Guild

end MistyWorld
