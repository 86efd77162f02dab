import MistyWorld.GuildBank

/-!
# The daily item limit of a guild bank

Every item that leaves a tab, for the inventory or for another tab, is charged to the member
who moves it (`serve_guild`), and it leaves only while he has slots left for that tab. The
check and the charge read the same counter, so between two resets the number of items a
member below the guild master takes out of a tab is at most the limit of his rank
(`guildBank_slots`).
-/

open List Word Machine

namespace MistyWorld

namespace GuildBank

/-- The calls that move items. -/
inductive BankCall
  | swapItems (tabId slotId destTabId destSlotId splitedAmount : ℕ)
  | swapItemsWithInventory (toChar : Bool)
      (tabId slotId playerBag playerSlotId splitedAmount : ℕ)

/-- Serve a call. -/
def serve (env : ItemEnv) (b : GuildBank) (mover : Mover) : BankCall → MoveResult
  | .swapItems tabId slotId destTabId destSlotId splitedAmount =>
    b.swapItems env mover tabId slotId destTabId destSlotId splitedAmount
  | .swapItemsWithInventory toChar tabId slotId playerBag playerSlotId splitedAmount =>
    b.swapItemsWithInventory env mover toChar tabId slotId playerBag playerSlotId splitedAmount

/-! ## What a call charges -/

section Charge

variable {env : ItemEnv} {b : GuildBank} {mover : Mover}

/-- Charge the tabs that lose an item. -/
def charge (player : ℕ) (g : Guild) (out : List ℕ) : Guild :=
  out.foldl (fun g tabId => g.updateMemberWithdrawSlots player tabId) g

/-- The member has slots left for the tab. -/
def HasSlots (g : Guild) (player tabId : ℕ) : Prop :=
  ∃ member, g.getMember player = some member ∧ g.getMemberRemainingSlots member tabId ≠ 0

@[simp] theorem put_guild (b : GuildBank) (pos : Pos) (o : Option Item) :
    (b.put pos o).guild = b.guild :=
  rfl

@[simp] theorem setItem_guild (b : GuildBank) (pos : Pos) (o : Option Item) :
    (b.setItem pos o).guild = b.guild := by
  unfold setItem
  split_ifs <;> rfl

@[simp] theorem storeItemAt_guild (b : GuildBank) (pos : Pos) (it : Item) (count : ℕ)
    (clone : Bool) : (b.storeItemAt env pos it count clone).guild = b.guild := by
  unfold storeItemAt
  split
  · rfl
  · split
    · split
      · simp
      · rfl
    · simp

theorem storeItems_guild (it : Item) :
    ∀ (dest : List (Pos × ℕ)) (b : GuildBank), (storeItems env it dest b).guild = b.guild
  | [], _ => rfl
  | [_], _ => storeItemAt_guild _ _ _ _ _
  | _ :: d :: dest, _ => (storeItems_guild it (d :: dest) _).trans (storeItemAt_guild _ _ _ _ _)

@[simp] theorem storeItem_guild (b : GuildBank) (it : Item) (dest : List (Pos × ℕ))
    (side : MoveItemData) : (b.storeItem env mover it dest side).guild = b.guild := by
  cases side with
  | bank tabId slotId => exact storeItems_guild it dest b
  | player bag slot =>
    change (b.itemAddedQuestCheck mover it).guild = b.guild
    unfold itemAddedQuestCheck
    split <;> rfl

@[simp] theorem takeFromTab_guild (b : GuildBank) (it : Item) (splitedAmount : ℕ) (pos : Pos) :
    (b.takeFromTab it splitedAmount pos).guild = b.guild := by
  unfold takeFromTab
  split_ifs <;> simp

/-- Taking an item out charges the tab that loses it. -/
theorem removeItem_guild (b : GuildBank) (it : Item) (other src : MoveItemData)
    (splitedAmount : ℕ) :
    (b.removeItem env mover it other splitedAmount src).guild =
      charge mover.player b.guild (outOf other src) := by
  cases src with
  | player bag slot => rfl
  | bank tabId slotId =>
    simp only [removeItem, chargeTab, outOf, charge]
    split_ifs <;> simp

/-- What a move charges : nothing, or the tabs of its `out`, which are distinct. -/
theorem doItemsMove_guild {r : MoveResult} (b : GuildBank) (src dest : MoveItemData)
    (it srcItem : Item) (destItem : Option Item) (splitedAmount : ℕ)
    (hr : r = b.doItemsMove env mover src dest it srcItem destItem splitedAmount) :
    r.bank.guild = charge mover.player b.guild r.out ∧
      (r.out = [] ∨ r.out = outOf dest src ∨
        destItem ≠ none ∧ r.out = outOf dest src ++ outOf src dest) := by
  subst hr
  unfold doItemsMove
  split
  · exact ⟨rfl, .inl rfl⟩
  cases destItem with
  | none => exact ⟨by simp [removeItem_guild], .inr (.inl rfl)⟩
  | some destItem =>
    dsimp only
    split
    · exact ⟨rfl, .inl rfl⟩
    · refine ⟨?_, .inr (.inr ⟨by simp, rfl⟩)⟩
      simp only [storeItem_guild, removeItem_guild]
      exact (foldl_append ..).symm

theorem hasSlots_of_hasWithdrawRights {other src : MoveItemData}
    (h : b.hasWithdrawRights mover other src = true) {tabId : ℕ} (ht : tabId ∈ outOf other src) :
    HasSlots b.guild mover.player tabId := by
  cases src with
  | player bag slot => cases ht
  | bank tabId' slotId =>
    simp only [outOf] at ht
    split_ifs at ht with htab
    · cases ht
    obtain rfl := mem_singleton.1 ht
    simp only [hasWithdrawRights, htab, Bool.false_or] at h
    split at h
    · rename_i member hmember
      exact ⟨member, hmember, by simpa using h⟩
    · cases h

theorem nodup_out (src dest : MoveItemData) : (outOf dest src ++ outOf src dest).Nodup := by
  cases src with
  | player bag slot =>
    cases dest with
    | player bag' slot' => exact nodup_nil
    | bank tabId slotId => exact nodup_singleton _
  | bank tabId slotId =>
    cases dest with
    | player bag slot => exact nodup_singleton _
    | bank tabId' slotId' =>
      by_cases h : tabId = tabId'
      · simp [outOf, MoveItemData.sameTab, h]
      · simp [outOf, MoveItemData.sameTab, h, Ne.symm h]

/-- What a call charges : each tab that loses an item, once, and the member had slots left. -/
structure Charged (b : GuildBank) (mover : Mover) (r : MoveResult) : Prop where
  guild : r.bank.guild = charge mover.player b.guild r.out
  nodup : r.out.Nodup
  slots : ∀ tabId ∈ r.out, HasSlots b.guild mover.player tabId

theorem charged_refused : Charged b mover { bank := b } :=
  ⟨rfl, nodup_nil, fun _ h => nomatch h⟩

theorem charged_doItemsMove (b0 : GuildBank) (hb : b0.guild = b.guild) (src dest : MoveItemData)
    (it srcItem : Item) (destItem : Option Item) (splitedAmount : ℕ)
    (hsrc : b.hasWithdrawRights mover dest src = true)
    (hdest : destItem ≠ none → b.hasWithdrawRights mover src dest = true) :
    Charged b mover (b0.doItemsMove env mover src dest it srcItem destItem splitedAmount) := by
  generalize hr : b0.doItemsMove env mover src dest it srcItem destItem splitedAmount = r
  obtain ⟨hguild, hout⟩ := doItemsMove_guild b0 src dest it srcItem destItem splitedAmount hr.symm
  rw [hb] at hguild
  refine ⟨hguild, ?_, ?_⟩
  · rcases hout with hout | hout | ⟨-, hout⟩
    · rw [hout]
      exact nodup_nil
    · rw [hout]
      exact (nodup_out src dest).of_append_left
    · rw [hout]
      exact nodup_out src dest
  · intro tabId ht
    rcases hout with hout | hout | ⟨hswap, hout⟩
    · rw [hout] at ht
      cases ht
    · rw [hout] at ht
      exact hasSlots_of_hasWithdrawRights hsrc ht
    · rw [hout] at ht
      rcases mem_append.1 ht with ht | ht
      · exact hasSlots_of_hasWithdrawRights hsrc ht
      · exact hasSlots_of_hasWithdrawRights (hdest hswap) ht

theorem charged_moveItems (src dest : MoveItemData) (splitedAmount : ℕ) :
    Charged b mover (b.moveItems env mover src dest splitedAmount) := by
  unfold moveItems
  split
  · exact charged_refused
  rename_i it hit
  split
  · exact charged_refused
  split
  · exact charged_refused
  rename_i hrights
  simp only [Bool.or_eq_true, Bool.not_eq_true', not_or, Bool.not_eq_false] at hrights
  split
  · split
    · exact charged_refused
    · rename_i new inv' _
      exact charged_doItemsMove (b := b) { b with inv := inv' } rfl src dest _ _ none _ hrights.2 fun h => absurd rfl h
  dsimp only
  split
  · exact charged_doItemsMove b rfl src dest _ _ none _ hrights.2 fun h => absurd rfl h
  split
  · exact charged_refused
  split
  · exact charged_refused
  rename_i hback
  simp only [Bool.or_eq_true, Bool.not_eq_true', not_or, Bool.not_eq_false] at hback
  exact charged_doItemsMove b rfl src dest _ _ _ _ hrights.2 fun _ => hback.2

theorem charged_serve (env : ItemEnv) (b : GuildBank) (mover : Mover) (call : BankCall) :
    Charged b mover (b.serve env mover call) := by
  cases call with
  | swapItems tabId slotId destTabId destSlotId splitedAmount =>
    simp only [serve, swapItems]
    split_ifs
    · exact charged_refused
    · exact charged_refused
    · exact charged_moveItems _ _ _
  | swapItemsWithInventory toChar tabId slotId playerBag playerSlotId splitedAmount =>
    simp only [serve, swapItemsWithInventory]
    split_ifs
    · exact charged_refused
    · exact charged_moveItems _ _ _
    · exact charged_moveItems _ _ _

end Charge

/-! ## The counter -/

variable {w : ℕ}

section Counter

variable {g : Guild} {guid tabId : ℕ} {limit : GuildBankRightsAndSlots} {player : PlayerGuid}

/-- The member has a rank below the guild master, with these rights and slots for the tab. -/
def Limited (guid tabId : ℕ) (limit : GuildBankRightsAndSlots) (g : Guild) : Prop :=
  ∃ m ∈ g.members, m.guid = guid ∧ m.rankId ≠ grGuildmaster ∧
    ∀ info, g.getRankInfo m.rankId = some info → info.bankTabRightsAndSlots tabId = limit

/-- There is room for `w` items : none, or as many as the limit, as the code reads it, allows. -/
def Within (limit : GuildBankRightsAndSlots) (w : ℕ) : Prop :=
  w = 0 ∨ limit.rights &&& guildBankRightViewTab ≠ 0 ∧ (w : ℤ) ≤ toI32 limit.slots

/-- The counter of the member for the tab is `w`. -/
def Counted (guid tabId w : ℕ) (g : Guild) : Prop :=
  ∀ m ∈ g.members, m.guid = guid → m.bankWithdraw tabId = w

theorem Within.le (h : Within limit w) : w ≤ limit.slots := by
  unfold Within toI32 at h
  omega

theorem Within.eq_zero (h : Within limit w) (hview : limit.rights &&& guildBankRightViewTab = 0) :
    w = 0 :=
  h.resolve_right fun h' => h'.1 hview

/-- A member with slots left has room for one more item, and the rank has a limit. -/
theorem HasSlots.within (h : HasSlots g player tabId) (hguid : (player : ℕ) = guid)
    (hl : Limited guid tabId limit g) (hc : Counted guid tabId w g) (hw : Within limit w) :
    Within limit (w + 1) ∧ ∀ m ∈ g.members, m.guid = guid →
      g.getRankBankTabSlotsPerDay m.rankId tabId = toI32 limit.slots := by
  obtain ⟨m, hm, hmguid, hrank, hlimit⟩ := hl
  obtain ⟨member, hmember, hslots⟩ := h
  obtain ⟨hmem, hlow⟩ := Guild.mem_of_getMember hmember
  rw [guidLopart, Nat.mod_eq_of_lt player.isLt] at hlow
  obtain rfl : member = m := Guild.eq_of_guid hmem hm (by rw [hlow, hguid, hmguid])
  have hvalue : member.getBankWithdrawValue tabId = w := by
    unfold Member.getBankWithdrawValue Member.isRank
    rw [if_neg (by simpa using hrank), hc member hm hmguid]
  unfold Guild.getMemberRemainingSlots at hslots
  rw [if_neg hrank, hvalue] at hslots
  split at hslots
  swap
  · exact absurd rfl hslots
  rename_i hview
  have hperDay : g.getRankBankTabRights member.rankId tabId = limit.rights ∧
      (g.getRankBankTabSlotsPerDay member.rankId tabId = toI32 limit.slots ∨
        g.getRankBankTabSlotsPerDay member.rankId tabId = 0) := by
    unfold Guild.getRankBankTabRights at hview ⊢
    unfold Guild.getRankBankTabSlotsPerDay
    cases hinfo : g.getRankInfo member.rankId with
    | none => simp [hinfo] at hview
    | some info =>
      rw [hinfo] at hview
      have hlim := hlimit info hinfo
      dsimp only at hview ⊢
      split at hview
      · rename_i htab
        rw [if_pos htab, hlim]
        refine ⟨rfl, ?_⟩
        split_ifs
        · exact .inl rfl
        · exact .inr rfl
      · simp at hview
  have hpos : toI32 (g.getRankBankTabSlotsPerDay member.rankId tabId - w) > 0 := by
    by_contra hneg
    exact hslots (if_neg hneg)
  have hslots' : g.getRankBankTabSlotsPerDay member.rankId tabId = toI32 limit.slots := by
    refine hperDay.2.resolve_right fun hzero => ?_
    have hle := hw.le
    unfold Within at hw
    unfold toI32 at hpos hw
    omega
  refine ⟨.inr ⟨hperDay.1 ▸ hview, ?_⟩, fun m' hm' hguid' => ?_⟩
  · rw [hslots'] at hpos
    unfold Within at hw
    unfold toI32 at hpos hw ⊢
    omega
  · rw [Guild.eq_of_guid hm' hm (hguid'.trans hmguid.symm), hslots']

theorem mem_updateBankWithdrawValue {g : Guild} {guid t amount : ℕ} {m' : Member}
    (h : m' ∈ (g.updateBankWithdrawValue guid t amount).members) :
    ∃ m ∈ g.members, m' = if m.guid = guid then m.updateBankWithdrawValue t amount else m := by
  obtain ⟨m, hm, rfl⟩ := mem_map.1 h
  exact ⟨m, hm, rfl⟩

/-- A charge changes neither ranks nor the table. -/
theorem Limited.charge (hl : Limited guid tabId limit g) (player t : ℕ) :
    Limited guid tabId limit (g.updateMemberWithdrawSlots player t) := by
  unfold Guild.updateMemberWithdrawSlots
  split
  · exact hl
  split
  · rename_i member _ _
    obtain ⟨m, hm, hguid, hrank, hlimit⟩ := hl
    refine ⟨if m.guid = member.guid then m.updateBankWithdrawValue t 1 else m,
      mem_map.2 ⟨m, hm, rfl⟩, ?_⟩
    split_ifs
    · exact ⟨hguid, hrank, hlimit⟩
    · exact ⟨hguid, hrank, hlimit⟩
  · exact hl

theorem Counted.charge_of_ne (hc : Counted guid tabId w g) (player : PlayerGuid) (t : ℕ)
    (hne : (player : ℕ) ≠ guid ∨ t ≠ tabId) :
    Counted guid tabId w (g.updateMemberWithdrawSlots player t) := by
  unfold Guild.updateMemberWithdrawSlots
  split
  · exact hc
  rename_i member hmember
  have hplayer := (Guild.mem_of_getMember hmember).2
  rw [guidLopart, Nat.mod_eq_of_lt player.isLt] at hplayer
  split
  · intro m' hm' hguid'
    obtain ⟨m, hm, rfl⟩ := mem_updateBankWithdrawValue hm'
    split_ifs at hguid' ⊢ with hsame
    · rcases hne with hne | hne
      · exact absurd (hplayer.symm.trans (hsame.symm.trans hguid')) hne
      · exact (Function.update_of_ne (Ne.symm hne) _ _).trans (hc m hm hguid')
    · exact hc m hm hguid'
  · exact hc

/-- A charge of the member for the tab counts one more item. -/
theorem Counted.charge_self (hc : Counted guid tabId w g) (hguid : (player : ℕ) = guid)
    (hl : Limited guid tabId limit g) (hw : Within limit (w + 1))
    (hperDay : ∀ m ∈ g.members, m.guid = guid →
      g.getRankBankTabSlotsPerDay m.rankId tabId = toI32 limit.slots) :
    Counted guid tabId (w + 1) (g.updateMemberWithdrawSlots player tabId) := by
  obtain ⟨m, hm, hmguid, hrank, -⟩ := hl
  have hmember : g.getMember player = some m := by
    rw [hguid, ← hmguid]
    exact Guild.getMember_of_mem hm
  have hvalue : m.getBankWithdrawValue tabId = w := by
    unfold Member.getBankWithdrawValue Member.isRank
    rw [if_neg (by simpa using hrank), hc m hm hmguid]
  have hlt : (w : ℤ) < toI32 limit.slots ∧ toI32 limit.slots < 2 ^ 31 := by
    unfold Within at hw
    unfold toI32 at *
    omega
  have hcond : m.rankId ≠ grGuildmaster ∧
      m.getBankWithdrawValue tabId < g.getRankBankTabSlotsPerDay m.rankId tabId := by
    rw [hvalue, hperDay m hm hmguid]
    exact ⟨hrank, hlt.1⟩
  rw [Guild.updateMemberWithdrawSlots, hmember]
  dsimp only
  rw [if_pos hcond]
  intro m' hm' hguid'
  obtain ⟨m0, hm0, rfl⟩ := mem_updateBankWithdrawValue hm'
  split_ifs at hguid' ⊢ with hsame
  · rw [Guild.eq_of_guid hm0 hm hsame, Member.updateBankWithdrawValue]
    dsimp only
    rw [Function.update_self, hc m hm hmguid]
    have h := toI32_of_range (show -2 ^ 31 ≤ ((w + 1 : ℕ) : ℤ) by omega) (by omega)
    exact_mod_cast h
  · exact absurd (hguid'.trans hmguid.symm) hsame

theorem slotsPerDay_charge {rankId : ℕ} (player t : ℕ) :
    (g.updateMemberWithdrawSlots player t).getRankBankTabSlotsPerDay rankId tabId =
      g.getRankBankTabSlotsPerDay rankId tabId := by
  unfold Guild.updateMemberWithdrawSlots
  split
  · rfl
  split
  · rfl
  · rfl

/-- The ranks of the members after a charge. -/
theorem perDay_charge {player t : ℕ} {n : ℤ}
    (h : ∀ m ∈ g.members, m.guid = guid → g.getRankBankTabSlotsPerDay m.rankId tabId = n) :
    ∀ m ∈ (g.updateMemberWithdrawSlots player t).members, m.guid = guid →
      (g.updateMemberWithdrawSlots player t).getRankBankTabSlotsPerDay m.rankId tabId = n := by
  intro m hm hguid
  rw [slotsPerDay_charge]
  unfold Guild.updateMemberWithdrawSlots at hm
  split at hm
  · exact h m hm hguid
  split at hm
  · obtain ⟨m0, hm0, rfl⟩ := mem_updateBankWithdrawValue hm
    split_ifs at hguid ⊢
    · exact h m0 hm0 hguid
    · exact h m0 hm0 hguid
  · exact h m hm hguid

/-- Charging distinct tabs counts the tab if it is among them. -/
theorem Counted.charge_all (hguid : (player : ℕ) = guid) :
    ∀ {out : List ℕ} {g : Guild} {w : ℕ}, out.Nodup → Limited guid tabId limit g →
      Counted guid tabId w g →
      (tabId ∈ out → Within limit (w + 1) ∧ ∀ m ∈ g.members, m.guid = guid →
        g.getRankBankTabSlotsPerDay m.rankId tabId = toI32 limit.slots) →
      Counted guid tabId (w + out.count tabId) (GuildBank.charge player g out)
  | [], _, _, _, _, hc, _ => hc
  | t :: out, g, w, hnodup, hl, hc, hin => by
    obtain ⟨hnot, hnodup⟩ := nodup_cons.1 hnodup
    by_cases ht : t = tabId
    · rw [ht] at hnot hin ⊢
      obtain ⟨hw, hperDay⟩ := hin mem_cons_self
      have h := Counted.charge_all hguid hnodup (hl.charge player tabId)
        (hc.charge_self hguid hl hw hperDay) fun hmem => absurd hmem hnot
      rw [count_cons_self]
      rwa [count_eq_zero_of_not_mem hnot] at h ⊢
    · have hc' := hc.charge_of_ne player t (.inr ht)
      have h := Counted.charge_all hguid hnodup (hl.charge player t) hc' fun hmem =>
        (hin (mem_cons_of_mem _ hmem)).imp_right perDay_charge
      rwa [count_cons_of_ne ht]

theorem Counted.charge_other (hguid : (player : ℕ) ≠ guid) :
    ∀ (out : List ℕ) {g : Guild} {w : ℕ}, Counted guid tabId w g →
      Counted guid tabId w (GuildBank.charge player g out)
  | [], _, _, hc => hc
  | t :: out, _, _, hc =>
    Counted.charge_other hguid out (hc.charge_of_ne player t (.inl hguid))

end Counter

/-! ## Runs -/

/-- What happens to a guild bank. `world` is everything that changes items but no counter,
and `administer` every change of ranks. -/
inductive BankEvent
  | call (mover : Mover) (call : BankCall)
  | resetTimes
  | administer (ranks : List RankInfo) (rankOf : ℕ → ℕ)
  | world (tabs : Pos → Option Item) (inv : Inventory) (book : QuestBook)

/-- Serve an event. -/
def step (env : ItemEnv) (b : GuildBank) : BankEvent → GuildBank
  | .call mover call => (b.serve env mover call).bank
  | .resetTimes => { b with guild := b.guild.resetTimes }
  | .administer ranks rankOf =>
    { b with
      guild := { b.guild.mapMembers (fun m => m.changeRank (rankOf m.guid))
        (Member.guid_changeRank rankOf) with
        ranks := ranks } }
  | .world tabs inv book => { b with tabs, inv, book }

/-- How many items an event takes out of a tab for a player. -/
def takenBy (env : ItemEnv) (guid tabId : ℕ) (b : GuildBank) : BankEvent → ℕ
  | .call mover call =>
    if (mover.player : ℕ) = guid then (b.serve env mover call).out.count tabId else 0
  | _ => 0

/-- How many items a run takes out of a tab for a player. -/
def takenIn (env : ItemEnv) (guid tabId : ℕ) : GuildBank → List BankEvent → ℕ
  | _, [] => 0
  | b, e :: es => takenBy env guid tabId b e + takenIn env guid tabId (b.step env e) es

theorem step_counted (env : ItemEnv) {b : GuildBank} {guid tabId : ℕ}
    {limit : GuildBankRightsAndSlots} {e : BankEvent} (hl : Limited guid tabId limit b.guild)
    (hr : e ≠ .resetTimes) (hc : Counted guid tabId w b.guild) (hw : Within limit w) :
    Counted guid tabId (w + takenBy env guid tabId b e) (b.step env e).guild ∧
      Within limit (w + takenBy env guid tabId b e) := by
  cases e with
  | resetTimes => exact absurd rfl hr
  | world tabs inv book => exact ⟨hc, hw⟩
  | administer ranks rankOf =>
    refine ⟨fun m hm hguid => ?_, hw⟩
    obtain ⟨m', hm', rfl⟩ := mem_map.1 hm
    exact hc m' hm' hguid
  | call mover call =>
    obtain ⟨hguild, hnodup, hslots⟩ := charged_serve env b mover call
    simp only [step, takenBy, hguild]
    split_ifs with hguid
    · have hin := fun ht => (hslots tabId ht).within hguid hl hc hw
      refine ⟨Counted.charge_all hguid hnodup hl hc hin, ?_⟩
      by_cases ht : tabId ∈ (b.serve env mover call).out
      · rw [count_eq_one_of_mem hnodup ht]
        exact (hin ht).1
      · rw [count_eq_zero_of_not_mem ht]
        exact hw
    · exact ⟨Counted.charge_other hguid _ hc, hw⟩

theorem run_within {env : ItemEnv} {guid tabId : ℕ} {limit : GuildBankRightsAndSlots} :
    ∀ {es : List BankEvent} {b : GuildBank} {w : ℕ}, Counted guid tabId w b.guild →
      Within limit w →
      Along (step env) (fun b e => Limited guid tabId limit b.guild ∧ e ≠ .resetTimes) b es →
      Within limit (w + takenIn env guid tabId b es)
  | [], _, _, _, hw, _ => hw
  | e :: es, b, w, hc, hw, ⟨⟨hl, hr⟩, hrest⟩ => by
    obtain ⟨hc', hw'⟩ := step_counted env hl hr hc hw
    have h := run_within hc' hw' hrest
    rwa [add_assoc] at h

theorem Limited.charge_all {guid tabId player : ℕ} {limit : GuildBankRightsAndSlots} :
    ∀ (out : List ℕ) {g : Guild}, Limited guid tabId limit g →
      Limited guid tabId limit (GuildBank.charge player g out)
  | [], _, hl => hl
  | t :: out, _, hl => Limited.charge_all out (hl.charge player t)

/-- The calls themselves change no rank. -/
theorem along_calls (env : ItemEnv) {guid tabId : ℕ} {limit : GuildBankRightsAndSlots} :
    ∀ (calls : List (Mover × BankCall)) {b : GuildBank}, Limited guid tabId limit b.guild →
      Along (step env) (fun b e => Limited guid tabId limit b.guild ∧ e ≠ .resetTimes) b
        (calls.map fun c => .call c.1 c.2)
  | [], _, _ => trivial
  | c :: calls, b, hl => by
    refine ⟨⟨hl, by simp⟩, along_calls env calls ?_⟩
    rw [step, (charged_serve env b c.1 c.2).guild]
    exact hl.charge_all _

/-- The daily item limit. After a reset and until the next one, while a member stays in a rank
below the guild master whose rights and slots for a tab do not change, the moves he makes take
at most that many items out of the tab, and none without the right to view it. -/
theorem guildBank_slots (env : ItemEnv) (b : GuildBank) (guid tabId : ℕ)
    (limit : GuildBankRightsAndSlots) (es : List BankEvent)
    (hes : Along (step env) (fun b e => Limited guid tabId limit b.guild ∧ e ≠ .resetTimes)
      (b.step env .resetTimes) es) :
    takenIn env guid tabId (b.step env .resetTimes) es ≤ limit.slots ∧
      (limit.rights &&& guildBankRightViewTab = 0 →
        takenIn env guid tabId (b.step env .resetTimes) es = 0) := by
  have hc : Counted guid tabId 0 (b.step env .resetTimes).guild := by
    intro m hm _
    obtain ⟨m', -, rfl⟩ := mem_map.1 hm
    rfl
  have h := run_within hc (.inl rfl) hes
  rw [zero_add] at h
  exact ⟨h.le, h.eq_zero⟩

/-- The officer asks twice and gets one stack. -/
theorem guildBank_slots_smallBank :
    takenIn smallEnv 2 0 (smallBank.step smallEnv .resetTimes)
        [.call { player := 2 } (.swapItemsWithInventory true 0 0 nullBag nullSlot 0),
          .call { player := 2 } (.swapItemsWithInventory true 0 1 nullBag nullSlot 0)] = 1 := by
  have hlimited : Limited 2 0 ⟨3, 1⟩ (smallBank.step smallEnv .resetTimes).guild := by
    refine ⟨_, mem_cons_of_mem _ mem_cons_self, rfl, by decide, fun info hinfo => ?_⟩
    cases hinfo
    rfl
  have hle := (guildBank_slots smallEnv smallBank 2 0 ⟨3, 1⟩ _ (along_calls smallEnv
    [({ player := 2 }, .swapItemsWithInventory true 0 0 nullBag nullSlot 0),
      ({ player := 2 }, .swapItemsWithInventory true 0 1 nullBag nullSlot 0)] hlimited)).1
  exact le_antisymm hle (by decide +kernel)

end GuildBank

end MistyWorld
