import MistyWorld.GuildMoney
import Mathlib.Data.Nat.Bitwise

/-!
# The rights of a rank

`HandleSetRankInfo` stores the rights that the client sends for a rank, and `_HasRankRight` reads
them. Each right that a handler asks for is a bit of its own together with the marker
`GR_RIGHT_EMPTY`, and the answer is that the two words have more in common than the marker. A value
without the marker has never exactly the marker in common, so it grants every right
(`and_ne_marker_iff`, `hasRankRight_iff`).

The gold of the bank may be taken by a rank that may take it for repairs only
(`withdraw_succeeds_iff`). `rights_granted_iff` is the exact condition under which both are as the
names of the rights say.
-/

open Word

namespace MistyWorld

/-- `GR_RIGHT_OFFCHATLISTEN`. -/
def grRightOffchatlisten : ℕ := 0x44

/-- `GR_RIGHT_OFFCHATSPEAK`. -/
def grRightOffchatspeak : ℕ := 0x48

/-- `GR_RIGHT_INVITE`. -/
def grRightInvite : ℕ := 0x50

/-- `GR_RIGHT_SETMOTD`. -/
def grRightSetmotd : ℕ := 0x1040

/-- `GR_RIGHT_EPNOTE`. -/
def grRightEpnote : ℕ := 0x2040

/-- `GR_RIGHT_EOFFNOTE`. -/
def grRightEoffnote : ℕ := 0x8040

/-- `GR_RIGHT_WITHDRAW_REPAIR`. -/
def grRightWithdrawRepair : ℕ := 0x40000

/-- `GR_RIGHT_WITHDRAW_GOLD`. -/
def grRightWithdrawGold : ℕ := 0x80000

/-- The rights that the handlers for members, notes, the message of the day and the officers'
channel ask for. -/
def grRights : List ℕ :=
  [grRightInvite, grRightRemove, grRightPromote, grRightDemote, grRightSetmotd, grRightEpnote,
    grRightEoffnote, grRightOffchatlisten, grRightOffchatspeak]

/-- The bit of a right without the marker. -/
def rightBit (right : ℕ) : ℕ :=
  right - grRightEmpty

/-! ## The settings of a rank -/

namespace RankInfo

/-- `RankInfo::SetRights`. -/
def setRights (info : RankInfo) (rights : ℕ) : RankInfo :=
  { info with rights := if info.rankId = grGuildmaster then grRightAll else rights }

/-- `RankInfo::SetBankMoneyPerDay`. -/
def setBankMoneyPerDay (info : RankInfo) (money : ℕ) : RankInfo :=
  { info with bankMoneyPerDay := if info.rankId = grGuildmaster then 0xFFFFFFFF else money }

/-- `RankInfo::SetBankTabSlotsAndRights`. -/
def setBankTabSlotsAndRights (info : RankInfo) (tabId : ℕ)
    (rightsAndSlots : GuildBankRightsAndSlots) : RankInfo :=
  { info with
    bankTabRightsAndSlots := Function.update info.bankTabRightsAndSlots tabId
      (if info.rankId = grGuildmaster then ⟨0xFF, 0xFFFFFFFF⟩ else rightsAndSlots) }

end RankInfo

namespace Guild

/-- `_SetRankBankTabRightsAndSlots` on the record of a rank. -/
def setTab (g : Guild) (info : RankInfo) (tab : ℕ × GuildBankRightsAndSlots) : RankInfo :=
  if tab.1 ≥ g.purchasedTabs then info else info.setBankTabSlotsAndRights tab.1 tab.2

/-- `HandleSetRankInfo`. The settings of the tabs come with their ids. -/
def handleSetRankInfo (g : Guild) (player rankId rights moneyPerDay : ℕ)
    (rightsAndSlots : List (ℕ × GuildBankRightsAndSlots)) : Guild :=
  if !g.isLeader player then g
  else
    match g.getRankInfo rankId with
    | none => g
    | some info =>
      { g with
        ranks := g.ranks.set rankId (rightsAndSlots.foldl g.setTab
          ((info.setRights rights).setBankMoneyPerDay moneyPerDay)) }

end Guild

/-! ## Bits -/

theorem and_marker_eq (v : ℕ) : v &&& grRightEmpty = 0 ∨ v &&& grRightEmpty = grRightEmpty := by
  have h : v &&& 2 ^ 6 = (v.testBit 6).toNat * 2 ^ 6 := Nat.and_two_pow v 6
  change v &&& 2 ^ 6 = 0 ∨ v &&& 2 ^ 6 = 2 ^ 6
  rw [h]
  cases v.testBit 6 with
  | false => exact .inl rfl
  | true => exact .inr rfl

/-- Something else than the marker is in common with a right exactly when its bit is there, or the
marker is not. -/
theorem and_ne_marker_iff (v : ℕ) {bit : ℕ} (hbit : bit &&& grRightEmpty = 0) :
    v &&& (grRightEmpty ||| bit) ≠ grRightEmpty ↔ v &&& bit ≠ 0 ∨ v &&& grRightEmpty = 0 := by
  have hdisjoint : (v &&& bit) &&& grRightEmpty = 0 := by
    rw [Nat.and_assoc, hbit, Nat.and_zero]
  rw [Nat.and_or_distrib_left]
  rcases and_marker_eq v with hmarker | hmarker
  · have hne : v &&& bit ≠ grRightEmpty := by
      intro heq
      rw [heq, Nat.and_self] at hdisjoint
      exact absurd hdisjoint (by decide)
    rw [hmarker, Nat.zero_or]
    exact iff_of_true hne (.inr rfl)
  · rw [hmarker]
    have hsplit : grRightEmpty ||| (v &&& bit) = grRightEmpty ↔ v &&& bit = 0 := by
      constructor
      · intro heq
        have habsorbed : v &&& bit = (v &&& bit) &&& (grRightEmpty ||| (v &&& bit)) := by
          rw [Nat.and_or_distrib_left, Nat.and_self, hdisjoint, Nat.zero_or]
        rw [habsorbed, heq, hdisjoint]
      · intro hzero
        rw [hzero, Nat.or_zero]
    rw [Ne, hsplit, or_iff_left (by decide : ¬ grRightEmpty = 0)]

/-- A right is its bit with the marker. -/
theorem right_eq {right : ℕ} (h : right ∈ grRights) :
    right = grRightEmpty ||| rightBit right ∧ rightBit right &&& grRightEmpty = 0 := by
  revert right
  decide

namespace Guild

variable {g : Guild} {player rankId leader : ℕ} {info : RankInfo} {m : Member}

theorem foldl_setTab (g : Guild) (info : RankInfo) (tabs : List (ℕ × GuildBankRightsAndSlots)) :
    (tabs.foldl g.setTab info).rights = info.rights ∧
      (tabs.foldl g.setTab info).bankMoneyPerDay = info.bankMoneyPerDay := by
  induction tabs generalizing info with
  | nil => exact ⟨rfl, rfl⟩
  | cons tab tabs ih =>
    rw [List.foldl_cons, (ih _).1, (ih _).2]
    unfold setTab
    split_ifs <;> exact ⟨rfl, rfl⟩

/-- What `HandleSetRankInfo` stores for a rank below the guild master. -/
theorem getRankInfo_handleSetRankInfo (hleader : g.isLeader leader = true)
    (hinfo : g.getRankInfo rankId = some info) (hmaster : info.rankId ≠ grGuildmaster)
    (rights moneyPerDay : ℕ) (rightsAndSlots : List (ℕ × GuildBankRightsAndSlots)) :
    ∃ info', (g.handleSetRankInfo leader rankId rights moneyPerDay rightsAndSlots).getRankInfo
        rankId = some info' ∧ info'.rights = rights ∧ info'.bankMoneyPerDay = moneyPerDay := by
  have hlt : rankId < g.getRanksSize := by
    unfold getRankInfo at hinfo
    by_contra hge
    rw [if_neg hge] at hinfo
    cases hinfo
  have hget : g.ranks[rankId]? = some info := by
    rwa [getRankInfo, if_pos hlt] at hinfo
  obtain ⟨hbound, -⟩ := List.getElem?_eq_some_iff.1 hget
  obtain ⟨hrights, hmoney⟩ := foldl_setTab g
    ((info.setRights rights).setBankMoneyPerDay moneyPerDay) rightsAndSlots
  refine ⟨_, ?_, hrights.trans (if_neg hmaster), hmoney.trans (if_neg hmaster)⟩
  rw [handleSetRankInfo, hleader, hinfo]
  unfold getRankInfo getRanksSize at hlt ⊢
  simp only [Bool.not_true, Bool.false_eq_true, if_false, List.length_set, if_pos hlt]
  exact List.getElem?_set_self hbound

/-- Only the ranks change. -/
theorem handleSetRankInfo_frame (g : Guild) (leader rankId rights moneyPerDay : ℕ)
    (rightsAndSlots : List (ℕ × GuildBankRightsAndSlots)) :
    (g.handleSetRankInfo leader rankId rights moneyPerDay rightsAndSlots).members = g.members ∧
      (g.handleSetRankInfo leader rankId rights moneyPerDay rightsAndSlots).bankMoney =
        g.bankMoney := by
  unfold handleSetRankInfo
  split_ifs
  · exact ⟨rfl, rfl⟩
  · split <;> exact ⟨rfl, rfl⟩

theorem getMember_handleSetRankInfo (g : Guild) (leader rankId rights moneyPerDay guid : ℕ)
    (rightsAndSlots : List (ℕ × GuildBankRightsAndSlots)) :
    (g.handleSetRankInfo leader rankId rights moneyPerDay rightsAndSlots).getMember guid =
      g.getMember guid := by
  rw [getMember, (handleSetRankInfo_frame g leader rankId rights moneyPerDay rightsAndSlots).1,
    getMember]

/-- A right of a member's rank is granted if its bit is set, or the marker is not. -/
theorem hasRankRight_iff (hm : g.getMember player = some m)
    (hinfo : g.getRankInfo m.rankId = some info) {right : ℕ} (hright : right ∈ grRights) :
    g.hasRankRight player right = true ↔
      info.rights &&& rightBit right ≠ 0 ∨ info.rights &&& grRightEmpty = 0 := by
  obtain ⟨heq, hbit⟩ := right_eq hright
  rw [hasRankRight, hm]
  simp only [getRankRights, hinfo, decide_eq_true_iff]
  conv_lhs => rw [heq]
  exact and_ne_marker_iff info.rights hbit

end Guild

namespace Treasury

variable {t : Treasury} {player amount : ℕ} {m : Member} {info : RankInfo}

/-- A credit of at most `MAX_MONEY_AMOUNT` succeeds if it is zero or stays below the limit. -/
theorem modifyMoney_succeeds_iff {money amount : ℕ} (h : amount ≤ maxMoneyAmount) :
    (modifyMoney money amount).2 = true ↔ amount = 0 ∨ money + amount < maxMoneyAmount := by
  have hroom : money < toU64 ((maxMoneyAmount : ℤ) - amount) ↔ money + amount < maxMoneyAmount := by
    unfold maxMoneyAmount toU64 at *
    omega
  unfold modifyMoney
  by_cases hzero : amount = 0
  · rw [if_pos (by exact_mod_cast hzero)]
    exact iff_of_true rfl (.inl hzero)
  rw [if_neg (by exact_mod_cast hzero), if_neg (by omega), or_iff_right hzero, ← hroom]
  by_cases hlt : money < toU64 ((maxMoneyAmount : ℤ) - amount)
  · rw [if_pos hlt]
    exact iff_of_true rfl hlt
  · rw [if_neg hlt]
    exact iff_of_false Bool.false_ne_true hlt

/-- `HandleSetRankInfo` on the guild. -/
def handleSetRankInfo (t : Treasury) (leader rankId rights moneyPerDay : ℕ)
    (rightsAndSlots : List (ℕ × GuildBankRightsAndSlots)) : Treasury where
  guild := t.guild.handleSetRankInfo leader rankId rights moneyPerDay rightsAndSlots
  gold := t.gold

/-- What the member's rank lets him take today. -/
def allowance (info : RankInfo) (m : Member) : ℤ :=
  toI32 (toI32 info.bankMoneyPerDay - m.bankWithdraw guildBankMaxTabs)

theorem allowance_lt (info : RankInfo) (m : Member) : allowance info m < 2 ^ 31 := by
  unfold allowance toI32
  omega

/-- What a member below the guild master may still take. -/
theorem getMemberRemainingMoney_eq (hinfo : t.guild.getRankInfo m.rankId = some info)
    (hmaster : m.rankId ≠ grGuildmaster) :
    t.guild.getMemberRemainingMoney m =
      if info.rights &&& grRightWithdraw ≠ 0 then max (allowance info m) 0 else 0 := by
  have hvalue : m.getBankWithdrawValue guildBankMaxTabs = m.bankWithdraw guildBankMaxTabs := by
    unfold Member.getBankWithdrawValue Member.isRank
    rw [if_neg (by simpa using hmaster)]
  have hperDay : t.guild.getRankBankMoneyPerDay m.rankId = toI32 info.bankMoneyPerDay := by
    rw [Guild.getRankBankMoneyPerDay, hinfo]
  have hrights : t.guild.getRankRights m.rankId = info.rights := by
    rw [Guild.getRankRights, hinfo]
  have hmax : ∀ z : ℤ, (if z > 0 then z else 0) = max z 0 := by
    intro z
    split_ifs <;> omega
  rw [Guild.getMemberRemainingMoney, if_neg hmaster, hvalue, hperDay, hrights]
  rw [← allowance, hmax]

/-- When what is left for today is less than an amount. -/
theorem remaining_lt_iff (hinfo : t.guild.getRankInfo m.rankId = some info)
    (hmaster : m.rankId ≠ grGuildmaster) {a : ℕ} :
    toU64 (t.guild.getMemberRemainingMoney m) < a ↔
      a ≠ 0 ∧ ¬(info.rights &&& grRightWithdraw ≠ 0 ∧ (a : ℤ) ≤ allowance info m) := by
  have hlt := allowance_lt info m
  rw [getMemberRemainingMoney_eq hinfo hmaster]
  generalize allowance info m = z at hlt ⊢
  by_cases hright : info.rights &&& grRightWithdraw ≠ 0
  · rw [if_pos hright, and_iff_right hright]
    unfold toU64
    omega
  · rw [if_neg hright, and_iff_left fun h => hright h.1]
    unfold toU64
    omega

/-- When a withdrawal of a member below the guild master succeeds : the bank has the amount, and it
is zero or his rank may withdraw, within its limit and that of his purse. -/
theorem withdraw_succeeds_iff (hm : t.guild.getMember player = some m)
    (hinfo : t.guild.getRankInfo m.rankId = some info) (hmaster : m.rankId ≠ grGuildmaster)
    (amount : ℕ) :
    (t.handleMemberWithdrawMoney player amount false).2 = true ↔
      min amount maxMoneyAmount ≤ t.guild.bankMoney ∧ (min amount maxMoneyAmount = 0 ∨
        info.rights &&& grRightWithdraw ≠ 0 ∧ (min amount maxMoneyAmount : ℕ) ≤ allowance info m ∧
          t.gold player + min amount maxMoneyAmount < maxMoneyAmount) := by
  have hle : min amount maxMoneyAmount ≤ maxMoneyAmount := Nat.min_le_right _ _
  unfold handleMemberWithdrawMoney
  dsimp only
  generalize min amount maxMoneyAmount = a at hle ⊢
  have h64 : toI64 (a : ℤ) = a := by
    refine toI64_of_range (by omega) ?_
    unfold maxMoneyAmount at hle
    omega
  have hpurse : (modifyMoney (t.gold player) (a : ℤ)).2 = true ↔
      a = 0 ∨ t.gold player + a < maxMoneyAmount := modifyMoney_succeeds_iff hle
  have hremaining := remaining_lt_iff hinfo hmaster (a := a)
  rw [hm, h64]
  dsimp only
  generalize toU64 (t.guild.getMemberRemainingMoney m) = left at hremaining ⊢
  generalize modifyMoney (t.gold player) (a : ℤ) = credit at hpurse ⊢
  by_cases hbank : t.guild.bankMoney < a
  · rw [if_pos hbank]
    exact iff_of_false Bool.false_ne_true fun h => absurd h.1 (not_le.2 hbank)
  rw [if_neg hbank, and_iff_right (not_lt.1 hbank)]
  by_cases hlimit : left < a
  · rw [if_pos hlimit]
    obtain ⟨hne, hnot⟩ := hremaining.1 hlimit
    refine iff_of_false Bool.false_ne_true ?_
    rintro (hzero | ⟨hright, hle', -⟩)
    · exact hne hzero
    · exact hnot ⟨hright, hle'⟩
  rw [if_neg hlimit]
  have hallowed : a = 0 ∨ info.rights &&& grRightWithdraw ≠ 0 ∧ (a : ℤ) ≤ allowance info m := by
    by_contra h
    rw [not_or] at h
    exact hlimit (hremaining.2 h)
  cases hcredit : credit.2 with
  | true =>
    refine iff_of_true rfl ?_
    rcases hpurse.1 hcredit with hzero | hroom
    · exact .inl hzero
    · exact hallowed.imp_right fun h => ⟨h.1, h.2, hroom⟩
  | false =>
    rw [hcredit] at hpurse
    refine iff_of_false Bool.false_ne_true ?_
    rintro (hzero | ⟨-, -, hroom⟩)
    · exact Bool.false_ne_true (hpurse.2 (.inl hzero))
    · exact Bool.false_ne_true (hpurse.2 (.inr hroom))

/-- Without the right to withdraw gold, the two rights of the bank come down to that for repairs. -/
theorem and_withdraw_iff {rights : ℕ} (h : rights &&& grRightWithdrawGold = 0) :
    rights &&& grRightWithdraw ≠ 0 ↔ rights &&& grRightWithdrawRepair ≠ 0 := by
  rw [show grRightWithdraw = grRightWithdrawRepair ||| grRightWithdrawGold from rfl,
    Nat.and_or_distrib_left, h, Nat.or_zero]

/-- What the stored rights of a rank mean for a member of it is what their names say exactly when
the marker, or the bit of every right asked for, is among them, and gold may be withdrawn, or the
withdrawal fails for another reason. -/
theorem rights_granted_iff {leader rights moneyPerDay : ℕ}
    {rightsAndSlots : List (ℕ × GuildBankRightsAndSlots)}
    (hleader : t.guild.isLeader leader = true) (hinfo : t.guild.getRankInfo m.rankId = some info)
    (hmaster : info.rankId ≠ grGuildmaster) (hrank : m.rankId ≠ grGuildmaster)
    (hm : t.guild.getMember player = some m) :
    ((∀ right ∈ grRights,
        (t.handleSetRankInfo leader m.rankId rights moneyPerDay rightsAndSlots).guild.hasRankRight
            player right = true ↔ rights &&& rightBit right ≠ 0) ∧
      (((t.handleSetRankInfo leader m.rankId rights moneyPerDay
          rightsAndSlots).handleMemberWithdrawMoney player amount false).2 = true →
        rights &&& grRightWithdrawGold ≠ 0)) ↔
    (rights &&& grRightEmpty ≠ 0 ∨ ∀ right ∈ grRights, rights &&& rightBit right ≠ 0) ∧
      (rights &&& grRightWithdrawGold ≠ 0 ∨
        t.guild.bankMoney < min amount maxMoneyAmount ∨ min amount maxMoneyAmount ≠ 0 ∧
          (rights &&& grRightWithdrawRepair = 0 ∨
            toI32 (toI32 moneyPerDay - m.bankWithdraw guildBankMaxTabs) <
              (min amount maxMoneyAmount : ℕ) ∨
            maxMoneyAmount ≤ t.gold player + min amount maxMoneyAmount)) := by
  obtain ⟨info', hinfo', hrights, hmoney⟩ := Guild.getRankInfo_handleSetRankInfo hleader
    hinfo hmaster rights moneyPerDay rightsAndSlots
  have hmember := Guild.getMember_handleSetRankInfo t.guild leader m.rankId rights moneyPerDay
    player rightsAndSlots
  rw [hm] at hmember
  have hbank := (Guild.handleSetRankInfo_frame t.guild leader m.rankId rights moneyPerDay
    rightsAndSlots).2
  have hsucceeds := withdraw_succeeds_iff
    (t := t.handleSetRankInfo leader m.rankId rights moneyPerDay rightsAndSlots) hmember hinfo'
    hrank amount
  refine and_congr ?_ ?_
  · have hone : ∀ right ∈ grRights,
        (((t.handleSetRankInfo leader m.rankId rights moneyPerDay
            rightsAndSlots).guild.hasRankRight player right = true ↔
            rights &&& rightBit right ≠ 0) ↔
          rights &&& grRightEmpty ≠ 0 ∨ rights &&& rightBit right ≠ 0) := by
      intro right hright
      have hhas := Guild.hasRankRight_iff hmember hinfo' hright
      rw [hrights] at hhas
      rw [handleSetRankInfo, hhas]
      by_cases hbit : rights &&& rightBit right ≠ 0
      · simp only [hbit, true_or, or_true, not_false_eq_true, ne_eq]
      · simp only [hbit, false_or, or_false, iff_false, ne_eq]
    rw [forall₂_congr hone]
    constructor
    · intro h
      by_cases hmarker : rights &&& grRightEmpty ≠ 0
      · exact .inl hmarker
      · exact .inr fun right hright => (h right hright).resolve_left hmarker
    · rintro (hmarker | hall) right hright
      · exact .inl hmarker
      · exact .inr (hall right hright)
  · rw [hrights, allowance, hmoney] at hsucceeds
    rw [hsucceeds]
    simp only [handleSetRankInfo, hbank]
    by_cases hright : rights &&& grRightWithdrawGold = 0
    · rw [and_withdraw_iff hright]
      simp only [hright, ne_eq, not_true_eq_false, imp_false, false_or]
      rw [not_and_or, not_or, not_and_or, not_and_or, not_le, not_le, not_lt, not_not]
    · exact iff_of_true (fun _ => hright) (.inl hright)

/-! ## A rank without rights -/

/-- A guild of its master and a member of rank 1, who each have the guid of their rank plus one. -/
def pairGuild : Treasury where
  guild :=
    { leaderGuid := 1
      level := 1
      bankMoney := 500
      purchasedTabs := 0
      ranks := [⟨0, grRightAll, 0xFFFFFFFF, fun _ => ⟨0, 0⟩⟩, ⟨1, grRightChat, 0, fun _ => ⟨0, 0⟩⟩]
      members := [⟨1, "", 0, fun _ => 0, one_lt_guids, zero_lt_ranks⟩,
        ⟨2, "", 1, fun _ => 0, two_lt_guids, one_lt_ranks⟩]
      members_nodup := by decide }
  gold _ := 0

/-- The member of rank 1. -/
def pairMember : Member :=
  ⟨2, "", 1, fun _ => 0, two_lt_guids, one_lt_ranks⟩

theorem rights_granted_iff_pair :
    ((∀ right ∈ grRights,
        (pairGuild.handleSetRankInfo 1 1 0x80050 1000 []).guild.hasRankRight 2 right = true ↔
          0x80050 &&& rightBit right ≠ 0) ∧
      (((pairGuild.handleSetRankInfo 1 1 0x80050 1000 []).handleMemberWithdrawMoney 2 300
          false).2 = true → 0x80050 &&& grRightWithdrawGold ≠ 0)) ↔
    (0x80050 &&& grRightEmpty ≠ 0 ∨ ∀ right ∈ grRights, 0x80050 &&& rightBit right ≠ 0) ∧
      (0x80050 &&& grRightWithdrawGold ≠ 0 ∨
        500 < min 300 maxMoneyAmount ∨ min 300 maxMoneyAmount ≠ 0 ∧
          (0x80050 &&& grRightWithdrawRepair = 0 ∨
            toI32 (toI32 1000 - 0) < (min 300 maxMoneyAmount : ℕ) ∨
            maxMoneyAmount ≤ 0 + min 300 maxMoneyAmount)) := by
  have hinfo : pairGuild.guild.getRankInfo pairMember.rankId =
      some ⟨1, grRightChat, 0, fun _ => ⟨0, 0⟩⟩ := rfl
  exact rights_granted_iff (t := pairGuild) (m := pairMember) (by decide) hinfo (by decide)
    (by decide) rfl

/-- A rank whose rights are all taken away may do everything, and one that may withdraw for repairs
takes gold. -/
theorem rights_granted_without_marker :
    (¬∀ right ∈ grRights, (pairGuild.handleSetRankInfo 1 1 0 0 []).guild.hasRankRight 2 right =
        true ↔ 0 &&& rightBit right ≠ 0) ∧
      ¬(((pairGuild.handleSetRankInfo 1 1 0x40040 1000 []).handleMemberWithdrawMoney 2 300
        false).2 = true → 0x40040 &&& grRightWithdrawGold ≠ 0) := by
  decide

end Treasury

end MistyWorld
