import MistyWorld.GuildRanks
import MistyWorld.Money

/-!
# The money of a guild bank

`HandleGuildBankDepositMoney` and `HandleGuildBankWithdrawMoney` on the bank of a guild and
the gold of the players. The bank is a 64-bit unsigned word, the daily counter of a member a
32-bit signed one, and the limit of a rank a 32-bit unsigned word that is read back signed.

A withdrawal is refused as a whole or moves its amount. A deposit adds to the bank without
a check, so the sum of all gold is kept exactly as long as the bank does not wrap around
(`total_step_iff`). The daily limit holds for every limit : from `2 ^ 31` on it reads as
negative and allows nothing (`withdrawn_le`).
-/

open Function List Word Machine

namespace MistyWorld

/-- `GR_RIGHT_WITHDRAW_REPAIR | GR_RIGHT_WITHDRAW_GOLD`. -/
def grRightWithdraw : ℕ := 0xC0000

namespace Member

/-- `Member::UpdateBankWithdrawValue`. -/
def updateBankWithdrawValue (m : Member) (tabId amount : ℕ) : Member :=
  { m with
    bankWithdraw := update m.bankWithdraw tabId (toI32 (m.bankWithdraw tabId + amount)) }

/-- `Member::ResetValues`. -/
def resetValues (m : Member) : Member :=
  { m with bankWithdraw := fun _ => 0 }

/-- `Member::GetBankWithdrawValue` : the unlimited value `0xFFFFFFFF` of a guild master is -1. -/
def getBankWithdrawValue (m : Member) (tabId : ℕ) : ℤ :=
  if m.isRank grGuildmaster then -1 else m.bankWithdraw tabId

end Member

namespace Guild

/-- Change the records of the members, but not their guids. -/
def mapMembers (g : Guild) (f : Member → Member) (hf : ∀ m, (f m).guid = m.guid) : Guild :=
  { g with
    members := g.members.map f
    members_nodup := by
      rw [map_map, show Member.guid ∘ f = Member.guid from funext hf]
      exact g.members_nodup }

/-- `Member::UpdateBankWithdrawValue` on the record of a member. -/
def updateBankWithdrawValue (g : Guild) (guid tabId amount : ℕ) : Guild :=
  g.mapMembers (fun m => if m.guid = guid then m.updateBankWithdrawValue tabId amount else m)
    fun m => by split_ifs <;> rfl

/-- `Guild::ResetTimes`. -/
def resetTimes (g : Guild) : Guild :=
  g.mapMembers Member.resetValues fun _ => rfl

/-- `_GetRankBankMoneyPerDay`. -/
def getRankBankMoneyPerDay (g : Guild) (rankId : ℕ) : ℤ :=
  match g.getRankInfo rankId with
  | some info => toI32 info.bankMoneyPerDay
  | none => 0

/-- `_GetMemberRemainingMoney`. -/
def getMemberRemainingMoney (g : Guild) (member : Member) : ℤ :=
  if member.rankId = grGuildmaster then -1
  else if g.getRankRights member.rankId &&& grRightWithdraw ≠ 0 then
    let remaining := toI32 (g.getRankBankMoneyPerDay member.rankId -
      member.getBankWithdrawValue guildBankMaxTabs)
    if remaining > 0 then remaining else 0
  else 0

/-- `_ModifyBankMoney`. -/
def modifyBankMoney (g : Guild) (amount : ℕ) (add : Bool) : Guild × Bool :=
  if add then ({ g with bankMoney := toU64 (g.bankMoney + amount : ℕ) }, true)
  else if g.bankMoney < amount then (g, false)
  else ({ g with bankMoney := g.bankMoney - amount }, true)

end Guild

/-- A guild and the gold of the players. -/
structure Treasury where
  guild : Guild
  gold : ℕ → ℕ

namespace Treasury

/-- `HandleMemberDepositMoney`. Guild income (`cashFlow`) is not taken from the player. -/
def handleMemberDepositMoney (t : Treasury) (player amount : ℕ) (cashFlow : Bool) : Treasury where
  guild := (t.guild.modifyBankMoney amount true).1
  gold := if cashFlow then t.gold
    else update t.gold player (modifyMoney (t.gold player) (-toI64 amount)).1

/-- `HandleMemberWithdrawMoney`. Money for repairs does not go to the player. -/
def handleMemberWithdrawMoney (t : Treasury) (player amount : ℕ) (repair : Bool) :
    Treasury × Bool :=
  let amount := min amount maxMoneyAmount
  if t.guild.bankMoney < amount then (t, false)
  else
    match t.guild.getMember player with
    | none => (t, false)
    | some member =>
      if toU64 (t.guild.getMemberRemainingMoney member) < amount then (t, false)
      else if !repair && !(modifyMoney (t.gold player) (toI64 amount)).2 then (t, false)
      else
        ({ guild := ((t.guild.updateBankWithdrawValue member.guid guildBankMaxTabs
              (toU32 amount)).modifyBankMoney amount false).1
           gold := if repair then t.gold
            else update t.gold player (modifyMoney (t.gold player) (toI64 amount)).1 },
          true)

/-- What happens between the members and the bank. `canInteract` is the check on the bank
object. `administer` stands for every change of ranks : a new table and new ranks of the
members. -/
inductive Request
  | deposit (player : PlayerGuid) (money : ℕ) (canInteract : Bool)
  | withdraw (player : PlayerGuid) (money : ℕ) (canInteract : Bool)
  | resetTimes
  | administer (ranks : List RankInfo) (rankOf : ℕ → ℕ)

/-- `HandleGuildBankDepositMoney`, `HandleGuildBankWithdrawMoney` and the other events. A
player of another guild does not reach this one. -/
def serve (t : Treasury) : Request → Treasury
  | .deposit player money canInteract =>
    if canInteract ∧ money ≠ 0 ∧ hasEnoughMoney (t.gold player) money ∧
      (t.guild.getMember player).isSome then t.handleMemberDepositMoney player money false
    else t
  | .withdraw player money canInteract =>
    if money ≠ 0 ∧ canInteract ∧ (t.guild.getMember player).isSome then
      (t.handleMemberWithdrawMoney player money false).1
    else t
  | .resetTimes => { t with guild := t.guild.resetTimes }
  | .administer ranks rankOf =>
    { t with
      guild := { t.guild.mapMembers (fun m => m.changeRank (rankOf m.guid))
        (Member.guid_changeRank rankOf) with
        ranks := ranks } }

/-- The gold of the members and of the bank. -/
def total (t : Treasury) : ℕ :=
  (t.guild.members.map fun m => t.gold m.guid).sum + t.guild.bankMoney

/-- Nobody has more than `MAX_MONEY_AMOUNT`, and the bank is a 64-bit word. -/
structure Sound (t : Treasury) : Prop where
  gold : ∀ player, t.gold player ≤ maxMoneyAmount
  bank : t.guild.bankMoney < 2 ^ 64

/-- A deposit does not wrap the bank around. -/
def NoWrap (t : Treasury) : Request → Prop
  | .deposit player money canInteract =>
    canInteract ∧ money ≠ 0 ∧ hasEnoughMoney (t.gold player) money ∧
      (t.guild.getMember player).isSome → t.guild.bankMoney + money < 2 ^ 64
  | _ => True

/-! ## What a request does -/

section Serve

variable {t : Treasury}

/-- The guids of the members. -/
def guids (t : Treasury) : List ℕ :=
  t.guild.members.map Member.guid

theorem guids_mapMembers (g : Guild) (f : Member → Member) (hf : ∀ m, (f m).guid = m.guid) :
    (g.mapMembers f hf).members.map Member.guid = g.members.map Member.guid := by
  simp only [Guild.mapMembers, map_map, show Member.guid ∘ f = Member.guid from funext hf]

theorem guids_updateBankWithdrawValue (g : Guild) (guid tabId amount : ℕ) :
    (g.updateBankWithdrawValue guid tabId amount).members.map Member.guid =
      g.members.map Member.guid :=
  guids_mapMembers g _ fun m => by split_ifs <;> rfl

theorem mem_guids {player : PlayerGuid} (h : (t.guild.getMember player).isSome) :
    (player : ℕ) ∈ t.guids := by
  obtain ⟨m, hm⟩ := Option.isSome_iff_exists.1 h
  obtain ⟨hmem, hguid⟩ := Guild.mem_of_getMember hm
  rw [guidLopart, Nat.mod_eq_of_lt player.isLt] at hguid
  exact hguid ▸ mem_map_of_mem hmem

theorem total_eq (t : Treasury) : t.total = (t.guids.map t.gold).sum + t.guild.bankMoney := by
  rw [total, guids, map_map]
  rfl

/-- A withdrawal is refused as a whole, or moves its amount from the bank to the player and
adds it to his counter. -/
theorem withdraw_cases (hs : t.Sound) (player : PlayerGuid) (money : ℕ) :
    (t.handleMemberWithdrawMoney player money false).1 = t ∨
      ∃ member amount, amount = min money maxMoneyAmount ∧ amount ≤ t.guild.bankMoney ∧
        t.guild.getMember player = some member ∧
        amount ≤ toU64 (t.guild.getMemberRemainingMoney member) ∧
        t.gold player + amount ≤ maxMoneyAmount ∧
        (t.handleMemberWithdrawMoney player money false).1 =
          { guild := { t.guild.updateBankWithdrawValue member.guid guildBankMaxTabs
                (toU32 amount) with bankMoney := t.guild.bankMoney - amount }
            gold := update t.gold player (t.gold player + amount) } := by
  have hle : min money maxMoneyAmount ≤ maxMoneyAmount := Nat.min_le_right _ _
  have h64 : toI64 (min money maxMoneyAmount : ℕ) = (min money maxMoneyAmount : ℕ) := by
    refine toI64_of_range (by omega) ?_
    unfold maxMoneyAmount at hle ⊢
    omega
  by_cases hbank : t.guild.bankMoney < min money maxMoneyAmount
  · left
    simp only [handleMemberWithdrawMoney, if_pos hbank]
  cases hmember : t.guild.getMember player with
  | none =>
    left
    simp only [handleMemberWithdrawMoney, if_neg hbank, hmember]
  | some member =>
    by_cases hremaining :
        toU64 (t.guild.getMemberRemainingMoney member) < min money maxMoneyAmount
    · left
      simp only [handleMemberWithdrawMoney, if_neg hbank, hmember, if_pos hremaining]
    rcases modifyMoney_credit (hs.gold player) hle with ⟨hcredit, hmax⟩ | hrefuse
    · refine .inr ⟨member, _, rfl, not_lt.1 hbank, rfl, not_lt.1 hremaining, hmax, ?_⟩
      have hbank' : ¬ (t.guild.updateBankWithdrawValue member.guid guildBankMaxTabs
          (toU32 (min money maxMoneyAmount : ℕ))).bankMoney < min money maxMoneyAmount := hbank
      simp only [handleMemberWithdrawMoney, if_neg hbank, hmember, if_neg hremaining, h64, hcredit,
        Bool.not_true, Bool.and_false, Bool.false_eq_true, if_false, Guild.modifyBankMoney,
        if_neg hbank']
      rfl
    · left
      simp only [handleMemberWithdrawMoney, if_neg hbank, hmember, if_neg hremaining, h64, hrefuse,
        Bool.not_false, Bool.and_true, if_true]

/-- What a request does to the gold and the bank : nothing, a deposit or a withdrawal. -/
theorem serve_cases (hs : t.Sound) (r : Request) : (t.serve r).guids = t.guids ∧
    (((t.serve r).gold = t.gold ∧ (t.serve r).guild.bankMoney = t.guild.bankMoney ∧
        t.NoWrap r) ∨
      (∃ player ∈ t.guids, ∃ money, money ≤ t.gold player ∧
        (t.serve r).gold = update t.gold player (t.gold player - money) ∧
        (t.serve r).guild.bankMoney = toU64 (t.guild.bankMoney + money : ℕ) ∧
        (t.NoWrap r ↔ t.guild.bankMoney + money < 2 ^ 64)) ∨
      ∃ player ∈ t.guids, ∃ amount, amount ≤ t.guild.bankMoney ∧
        t.gold player + amount ≤ maxMoneyAmount ∧
        (t.serve r).gold = update t.gold player (t.gold player + amount) ∧
        (t.serve r).guild.bankMoney = t.guild.bankMoney - amount ∧ t.NoWrap r) := by
  cases r with
  | deposit player money canInteract =>
    by_cases hok : canInteract ∧ money ≠ 0 ∧ hasEnoughMoney (t.gold player) money ∧
      (t.guild.getMember player).isSome
    · have hserve : t.serve (.deposit player money canInteract) =
          t.handleMemberDepositMoney player money false := if_pos hok
      have hle : money ≤ t.gold player := by simpa [hasEnoughMoney] using hok.2.2.1
      have hgold := hs.gold player
      unfold maxMoneyAmount at hgold
      have h64 : toI64 money = money := toI64_of_range (by omega) (by omega)
      rw [hserve]
      refine ⟨rfl, .inr (.inl ⟨player, mem_guids hok.2.2.2, money, hle, ?_, rfl, ?_⟩)⟩
      · simp only [handleMemberDepositMoney, Bool.false_eq_true, if_false, h64,
          modifyMoney_debit (show t.gold player < 2 ^ 63 by omega) hle]
      · exact ⟨fun h => h hok, fun h _ => h⟩
    · have hserve : t.serve (.deposit player money canInteract) = t := if_neg hok
      rw [hserve]
      exact ⟨rfl, .inl ⟨rfl, rfl, fun h => absurd h hok⟩⟩
  | withdraw player money canInteract =>
    by_cases hok : money ≠ 0 ∧ canInteract ∧ (t.guild.getMember player).isSome
    · have hserve : t.serve (.withdraw player money canInteract) =
          (t.handleMemberWithdrawMoney player money false).1 := if_pos hok
      rw [hserve]
      rcases withdraw_cases hs player money with hsame | ⟨member, amount, -, hbank, -, -, hmax, heq⟩
      · rw [hsame]
        exact ⟨rfl, .inl ⟨rfl, rfl, trivial⟩⟩
      · rw [heq]
        exact ⟨guids_updateBankWithdrawValue _ _ _ _, .inr (.inr ⟨player, mem_guids hok.2.2, amount,
          hbank, hmax, rfl, rfl, trivial⟩)⟩
    · have hserve : t.serve (.withdraw player money canInteract) = t := if_neg hok
      rw [hserve]
      exact ⟨rfl, .inl ⟨rfl, rfl, trivial⟩⟩
  | resetTimes =>
    exact ⟨guids_mapMembers t.guild Member.resetValues fun _ => rfl, .inl ⟨rfl, rfl, trivial⟩⟩
  | administer ranks rankOf =>
    exact ⟨guids_mapMembers t.guild (fun m => m.changeRank (rankOf m.guid)) fun _ => rfl,
      .inl ⟨rfl, rfl, trivial⟩⟩

theorem Sound.serve (hs : t.Sound) (r : Request) : (t.serve r).Sound := by
  have hgold := hs.gold
  have hbank := hs.bank
  obtain ⟨-, ⟨hg, hb, -⟩ | ⟨player, -, money, hle, hg, hb, -⟩ |
    ⟨player, -, amount, hle, hmax, hg, hb, -⟩⟩ := serve_cases hs r
  · exact ⟨hg ▸ hgold, hb ▸ hbank⟩
  · refine ⟨fun p => ?_, hb ▸ toU64_lt _⟩
    rw [hg, update_apply]
    split_ifs
    · exact (Nat.sub_le _ _).trans (hgold player)
    · exact hgold p
  · refine ⟨fun p => ?_, by omega⟩
    rw [hg, update_apply]
    split_ifs
    · exact hmax
    · exact hgold p

/-- A request keeps the sum of all gold exactly when it does not wrap the bank around. -/
theorem total_step_iff (hs : t.Sound) (r : Request) : (t.serve r).total = t.total ↔ t.NoWrap r := by
  have hbank := hs.bank
  have hnodup : t.guids.Nodup := t.guild.members_nodup
  obtain ⟨hguids, ⟨hg, hb, hwrap⟩ | ⟨player, hp, money, hle, hg, hb, hwrap⟩ |
    ⟨player, hp, amount, hle, hmax, hg, hb, hwrap⟩⟩ := serve_cases hs r
  · simp only [total_eq, hguids, hg, hb, hwrap]
  · have hsum := sum_map_update_add hnodup hp t.gold (t.gold player - money)
    have hgold := hs.gold player
    rw [hwrap, total_eq, total_eq, hguids, hg, hb]
    unfold toU64
    omega
  · have hsum := sum_map_update_add hnodup hp t.gold (t.gold player + amount)
    simp only [hwrap, iff_true]
    rw [total_eq, total_eq, hguids, hg, hb]
    omega

end Serve

/-! ## The daily limit -/

section Limit

variable {t : Treasury} {guid perDay : ℕ}

/-- The member has a rank below the guild master, whose limit is `perDay`. -/
def Limited (guid perDay : ℕ) (t : Treasury) : Prop :=
  ∃ m ∈ t.guild.members, m.guid = guid ∧ m.rankId ≠ grGuildmaster ∧
    ∀ info, t.guild.getRankInfo m.rankId = some info → info.bankMoneyPerDay = perDay

/-- The gold that a request moves from the bank to a player. -/
def withdrawnBy (guid : ℕ) (t : Treasury) : Request → ℕ
  | .withdraw player money canInteract =>
    if (player : ℕ) = guid then
      (t.serve (.withdraw player money canInteract)).gold guid - t.gold guid
    else 0
  | _ => 0

/-- The gold that a run moves from the bank to a player. -/
def withdrawn (guid : ℕ) : Treasury → List Request → ℕ
  | _, [] => 0
  | t, r :: rs => withdrawnBy guid t r + withdrawn guid (t.serve r) rs

/-- The counter of the member is `w`, within the limit as the code reads it. -/
def Counted (guid perDay : ℕ) (w : ℕ) (t : Treasury) : Prop :=
  (∀ m ∈ t.guild.members, m.guid = guid → m.bankWithdraw guildBankMaxTabs = w) ∧
    (w = 0 ∨ (w : ℤ) ≤ toI32 perDay)

theorem Counted.le {w : ℕ} (h : Counted guid perDay w t) : w ≤ perDay := by
  have h' := h.2
  unfold toI32 at h'
  omega

/-- What a member below the guild master may still take is within the limit. -/
theorem remaining_le {w amount : ℕ} {m : Member} (hm : m ∈ t.guild.members)
    (hguid : m.guid = guid) (hc : Counted guid perDay w t) (hrank : m.rankId ≠ grGuildmaster)
    (hday : ∀ info, t.guild.getRankInfo m.rankId = some info → info.bankMoneyPerDay = perDay)
    (hpos : amount ≠ 0) (h : amount ≤ toU64 (t.guild.getMemberRemainingMoney m)) :
    ((w + amount : ℕ) : ℤ) ≤ toI32 perDay := by
  have hw := hc.1 m hm hguid
  have hperDay : t.guild.getRankBankMoneyPerDay m.rankId = toI32 perDay ∨
      t.guild.getRankBankMoneyPerDay m.rankId = 0 := by
    unfold Guild.getRankBankMoneyPerDay
    split
    · rename_i info hinfo
      exact .inl (by rw [hday info hinfo])
    · exact .inr rfl
  have hvalue : m.getBankWithdrawValue guildBankMaxTabs = w := by
    unfold Member.getBankWithdrawValue Member.isRank
    rw [if_neg (by simpa using hrank), hw]
  have hrange := hc.2
  unfold Guild.getMemberRemainingMoney at h
  rw [if_neg hrank, hvalue] at h
  dsimp only at h
  unfold toI32 toU64 at *
  split_ifs at h
  · omega
  · omega
  · omega

theorem Counted.withdraw {w : ℕ} (hs : t.Sound) (hc : Counted guid perDay w t)
    (hl : Limited guid perDay t) (player : PlayerGuid) (money : ℕ) (canInteract : Bool) :
    Counted guid perDay (w + withdrawnBy guid t (.withdraw player money canInteract))
      (t.serve (.withdraw player money canInteract)) := by
  have hrefused : t.serve (.withdraw player money canInteract) = t →
      Counted guid perDay (w + withdrawnBy guid t (.withdraw player money canInteract))
        (t.serve (.withdraw player money canInteract)) := by
    intro hsame
    have hnone : withdrawnBy guid t (.withdraw player money canInteract) = 0 := by
      simp only [withdrawnBy, hsame, Nat.sub_self, ite_self]
    rwa [hnone, hsame]
  by_cases hok : money ≠ 0 ∧ canInteract ∧ (t.guild.getMember player).isSome
  swap
  · exact hrefused (if_neg hok)
  have hserve : t.serve (.withdraw player money canInteract) =
      (t.handleMemberWithdrawMoney player money false).1 := if_pos hok
  rcases withdraw_cases hs player money with
    hsame | ⟨member, amount, hamount, -, hmember, hremaining, -, heq⟩
  · exact hrefused (hserve.trans hsame)
  obtain ⟨hmem, hplayer⟩ := Guild.mem_of_getMember hmember
  rw [guidLopart, Nat.mod_eq_of_lt player.isLt] at hplayer
  rw [heq] at hserve
  by_cases hp : (player : ℕ) = guid
  · obtain ⟨m, hm, hguid, hrank, hday⟩ := hl
    obtain rfl : m = member := Guild.eq_of_guid hm hmem (by rw [hguid, hplayer, hp])
    have hpos : amount ≠ 0 := by
      have hmoney := hok.1
      unfold maxMoneyAmount at hamount
      omega
    have hle := remaining_le hm hguid hc hrank hday hpos hremaining
    have htaken : withdrawnBy guid t (.withdraw player money canInteract) = amount := by
      simp only [withdrawnBy, hp, if_true, hserve, update_self, Nat.add_sub_cancel_left]
    rw [htaken, hserve]
    refine ⟨fun m' hm' hguid' => ?_, .inr hle⟩
    obtain ⟨m0, hm0, rfl⟩ := mem_map.1 hm'
    have hw := hc.1 m hm hguid
    have hrange : toI32 perDay < 2 ^ 31 := by
      unfold toI32
      omega
    have h32 : toU32 amount = amount := toU32_of_lt (by omega)
    split_ifs at hguid' ⊢ with hsame
    · rw [Guild.eq_of_guid hm0 hm hsame]
      simp only [Member.updateBankWithdrawValue, update_self, h32, hw]
      exact toI32_of_range (by omega) (by omega)
    · exact absurd (hguid'.trans hguid.symm) hsame
  · have htaken : withdrawnBy guid t (.withdraw player money canInteract) = 0 := by
      simp only [withdrawnBy, hp, if_false]
    rw [htaken, hserve]
    refine ⟨fun m' hm' hguid' => ?_, hc.2⟩
    obtain ⟨m0, hm0, rfl⟩ := mem_map.1 hm'
    split_ifs at hguid' ⊢ with hsame
    · exact absurd (hplayer.symm.trans (hsame.symm.trans hguid')) hp
    · exact hc.1 m0 hm0 hguid'

/-- One request other than a reset counts what it moves. -/
theorem Counted.serve {w : ℕ} (hs : t.Sound) (hc : Counted guid perDay w t)
    (hl : Limited guid perDay t) {r : Request} (hr : r ≠ .resetTimes) :
    Counted guid perDay (w + withdrawnBy guid t r) (t.serve r) := by
  cases r with
  | deposit player money canInteract =>
    refine ⟨fun m hm hguid => ?_, hc.2⟩
    refine hc.1 m ?_ hguid
    simp only [Treasury.serve] at hm
    split_ifs at hm
    · exact hm
    · exact hm
  | withdraw player money canInteract => exact hc.withdraw hs hl player money canInteract
  | resetTimes => exact absurd rfl hr
  | administer ranks rankOf =>
    refine ⟨fun m hm hguid => ?_, hc.2⟩
    obtain ⟨m', hm', rfl⟩ := mem_map.1 hm
    exact hc.1 m' hm' hguid

/-- Over a run without a reset, the counter counts what the member took. -/
theorem Counted.run : ∀ {rs : List Request} {t : Treasury} {w : ℕ}, t.Sound →
    Counted guid perDay w t →
    Along Treasury.serve (fun t r => Limited guid perDay t ∧ r ≠ .resetTimes) t rs →
    Counted guid perDay (w + withdrawn guid t rs) (run Treasury.serve t rs)
  | [], _, _, _, hc, _ => hc
  | r :: rs, t, w, hs, hc, ⟨⟨hl, hr⟩, hrest⟩ => by
    have h := Counted.run (hs.serve r) (hc.serve hs hl hr) hrest
    rwa [add_assoc] at h

end Limit

/-! ## Runs -/

theorem Sound.run {t : Treasury} (hs : t.Sound) (rs : List Request) :
    (Machine.run Treasury.serve t rs).Sound :=
  run_of_invariant (fun _ r hs => hs.serve r) rs hs

/-- A guild whose members have 100 copper each. -/
def smallTreasury (bankMoney : ℕ) : Treasury :=
  ⟨{ Guild.smallGuild with bankMoney := bankMoney }, fun _ => 100⟩

theorem smallTreasury_sound {bankMoney : ℕ} (h : bankMoney < 2 ^ 64) :
    (smallTreasury bankMoney).Sound where
  gold _ := show 100 ≤ maxMoneyAmount by decide
  bank := h

/-- A guild of which the second rank may take ten copper a day. -/
def dailyTreasury : Treasury where
  guild :=
    { Guild.smallGuild with
      bankMoney := 40
      ranks := Guild.smallGuild.ranks.set 1 ⟨1, grRightWithdraw, 10, fun _ => ⟨0, 0⟩⟩ }
  gold _ := 100

end Treasury

end MistyWorld
