import MistyWorld.GuildMoney
import MistyWorld.ItemCount
import MistyWorld.QuestLog

/-!
# Moving items in and out of a guild bank

`Guild::SwapItems` and `Guild::SwapItemsWithInventory`. Both ends of a move are a slot of a
bank tab or a position of the inventory (`MoveItemData`). `_MoveItems` checks the source and
the rights, and then tries to move the split part, or to merge the whole stack into the
destination, or to swap it with what is there. `_DoItemsMove` asks both ends where they
would put the items, takes the items out, and stores them at the places it was told.

Whether `CanUnequipItem` lets an item go and which item is being looted are circumstances of
the player (`Mover`).

What leaves or enters the inventory passes `ItemRemovedQuestCheck` and `ItemAddedQuestCheck`. The
second comes between the search for room and the store, and where the item completes a tracking
quest it rewards it there : `RewardQuest` then destroys and gives items. What it does as a whole is
left to the player (`Mover.rewarded`).
-/

open Word FirstFit

namespace MistyWorld

/-- `GUILD_BANK_MAX_SLOTS`. -/
def guildBankMaxSlots : ℕ := 98

/-- `GUILD_BANK_RIGHT_VIEW_TAB`. -/
def guildBankRightViewTab : ℕ := 1

/-- `GUILD_BANK_RIGHT_DEPOSIT_ITEM`. -/
def guildBankRightDepositItem : ℕ := 3

/-- The player who moves, and what decides whether an item of his can be traded :
`CanUnequipItem` for its position, and `GetLootGUID`. -/
structure Mover where
  player : PlayerGuid
  canUnequip : Pos → Bool := fun _ => true
  lootGuid : ℕ := 0
  quests : QuestEnv := { template := fun _ => none, template_id := nofun }
  /-- The log and the inventory as `RewardQuest` leaves them, where an item that is added completes
  a tracking quest. -/
  rewarded : Item → QuestBook → Inventory → QuestBook × Inventory := fun _ book inv => (book, inv)

/-- `ItemAddedQuestCheck`, up to the reward of a tracking quest : none if it comes to that. -/
def Mover.counts (mover : Mover) (book : QuestBook) (it : Item) : Option QuestBook :=
  book.itemAddedQuestCheck mover.quests (fun _ _ => none) it.entry it.count

/-- `Item::CanBeTraded` for an item at a position of its owner. -/
def Item.canBeTraded (env : ItemEnv) (inv : Inventory) (mover : Mover) (pos : Pos) (it : Item) :
    Bool :=
  !it.lootGenerated && !it.soulBound &&
    !(env.isBag it && (isBagPos pos || inv.isNotEmptyBag env it)) &&
    mover.canUnequip pos && mover.lootGuid ≠ it.guid && !it.boundByEnchant

/-- `Item::GetMaxStackCount`. -/
def ItemEnv.getMaxStackCount (env : ItemEnv) (it : Item) : ℕ :=
  match env.template it.entry with
  | some proto => proto.getMaxStackSize
  | none => 0

namespace Guild

/-- `_GetPurchasedTabsSize`. -/
def getPurchasedTabsSize (g : Guild) : ℕ :=
  toU8 g.purchasedTabs

/-- `_GetRankBankTabSlotsPerDay`. -/
def getRankBankTabSlotsPerDay (g : Guild) (rankId tabId : ℕ) : ℤ :=
  if tabId < g.getPurchasedTabsSize then
    match g.getRankInfo rankId with
    | some info =>
      if tabId < guildBankMaxTabs then toI32 (info.bankTabRightsAndSlots tabId).slots else 0
    | none => 0
  else 0

/-- `_GetRankBankTabRights`. -/
def getRankBankTabRights (g : Guild) (rankId tabId : ℕ) : ℕ :=
  match g.getRankInfo rankId with
  | some info => if tabId < guildBankMaxTabs then (info.bankTabRightsAndSlots tabId).rights else 0
  | none => 0

/-- `_GetMemberRemainingSlots`. -/
def getMemberRemainingSlots (g : Guild) (member : Member) (tabId : ℕ) : ℤ :=
  if member.rankId = grGuildmaster then -1
  else if g.getRankBankTabRights member.rankId tabId &&& guildBankRightViewTab ≠ 0 then
    let remaining := toI32 (g.getRankBankTabSlotsPerDay member.rankId tabId -
      member.getBankWithdrawValue tabId)
    if remaining > 0 then remaining else 0
  else 0

/-- `_UpdateMemberWithdrawSlots`. -/
def updateMemberWithdrawSlots (g : Guild) (guid tabId : ℕ) : Guild :=
  match g.getMember guid with
  | none => g
  | some member =>
    if member.rankId ≠ grGuildmaster ∧
      member.getBankWithdrawValue tabId < g.getRankBankTabSlotsPerDay member.rankId tabId then
      g.updateBankWithdrawValue member.guid tabId 1
    else g

/-- `_MemberHasTabRights`. -/
def memberHasTabRights (g : Guild) (guid tabId rights : ℕ) : Bool :=
  match g.getMember guid with
  | none => false
  | some member =>
    member.isRank grGuildmaster || g.leaderGuid = guid ||
      g.getRankBankTabRights member.rankId tabId &&& rights = rights

end Guild

/-- `Guild::MoveItemData` : one end of a move. -/
inductive MoveItemData
  | bank (tabId slotId : ℕ)
  | player (bag slot : ℕ)
  deriving DecidableEq, Repr

/-- The other end is a slot of the same tab. -/
def MoveItemData.sameTab (tabId : ℕ) : MoveItemData → Bool
  | .bank tabId' _ => tabId' = tabId
  | .player _ _ => false

/-- A guild with the items of its bank, and the inventory and quest log of the player who moves. -/
structure GuildBank where
  guild : Guild
  tabs : Pos → Option Item
  inv : Inventory
  book : QuestBook := {}

namespace GuildBank

variable (env : ItemEnv) (b : GuildBank) (mover : Mover)

/-- `Guild::_GetItem`. -/
def getItem (pos : Pos) : Option Item :=
  if pos.1 < b.guild.purchasedTabs ∧ pos.2 < guildBankMaxSlots then b.tabs pos else none

/-- Write a slot of the bank. -/
def put (pos : Pos) (o : Option Item) : GuildBank :=
  { b with tabs := Function.update b.tabs pos o }

/-- `BankTab::SetItem`. -/
def setItem (pos : Pos) (o : Option Item) : GuildBank :=
  if pos.1 < b.guild.purchasedTabs ∧ pos.2 < guildBankMaxSlots then
    b.put pos (o.map fun it => it.giveTo 0)
  else b

/-! ## The checks -/

/-- `MoveItemData::InitItem`. -/
def initItem : MoveItemData → Option Item
  | .bank tabId slotId => b.getItem (tabId, slotId)
  | .player bag slot =>
    (b.inv.getItemByPos env (bag, slot)).filter fun it =>
      !b.inv.isNotEmptyBag env it && it.canBeTraded env b.inv mover (bag, slot)

/-- `MoveItemData::HasStoreRights`. -/
def hasStoreRights (other : MoveItemData) : MoveItemData → Bool
  | .bank tabId _ =>
    other.sameTab tabId ||
      b.guild.memberHasTabRights mover.player tabId guildBankRightDepositItem
  | .player _ _ => true

/-- `MoveItemData::HasWithdrawRights`. -/
def hasWithdrawRights (other : MoveItemData) : MoveItemData → Bool
  | .bank tabId _ =>
    other.sameTab tabId ||
      match b.guild.getMember mover.player with
      | some member => b.guild.getMemberRemainingSlots member tabId ≠ 0
      | none => false
  | .player _ _ => true

/-- `_ReserveSpace` : the space for an item at a slot, or none if another item is there or the
stack is full. -/
def reserveSpace (it : Item) (itemDest : Option Item) : Option ℕ :=
  match itemDest with
  | none => some (env.getMaxStackCount it)
  | some d =>
    if d.entry ≠ it.entry ∨ env.getMaxStackCount it ≤ d.count then none
    else some (env.getMaxStackCount it - d.count)

/-- The space that `CanStoreItemInTab` finds at a slot : with `merge` only stacks, else only free
slots. The slot of the item itself counts as free. -/
def tabSpace (it : Item) (merge : Bool) (pos : Pos) : Option ℕ :=
  let itemDest := otherItem (some it) (b.getItem pos)
  if itemDest.isSome ≠ merge then none else reserveSpace env it itemDest

/-- `CanStoreItemInTab`. -/
def canStoreItemInTab (it : Item) (tabId skipSlotId : ℕ) (merge : Bool) (pl : Plan Pos) :
    Plan Pos :=
  fill (b.tabSpace env it merge)
    (((List.range guildBankMaxSlots).filter fun j => j ≠ skipSlotId).map fun j => (tabId, j)) pl

/-- The search of `BankMoveItemData::CanStore` through the tab. -/
def searchTab (it : Item) (tabId slotId : ℕ) (pl : Plan Pos) :
    Except InventoryResult (List (Pos × ℕ)) :=
  let merged := if env.getMaxStackCount it > 1 then b.canStoreItemInTab env it tabId slotId true pl
    else pl
  if merged.count = 0 then .ok merged.dest
  else
    let stored := b.canStoreItemInTab env it tabId slotId false merged
    if stored.count = 0 then .ok stored.dest else .error .bankFull

/-- `BankMoveItemData::CanStore`. -/
def canStoreInTab (it : Item) (tabId slotId : ℕ) (swap : Bool) :
    Except InventoryResult (List (Pos × ℕ)) :=
  if it.soulBound then .error .dropBoundItem
  else if tabId ≥ b.guild.getPurchasedTabsSize then .error .wrongBagType
  else if slotId ≠ nullSlot then
    match reserveSpace env it
      (if swap then none else otherItem (some it) (b.getItem (tabId, slotId))) with
    | none => .error .cantStack
    | some space =>
      let pl := Plan.push ⟨[], it.count⟩ (tabId, slotId) space
      if pl.count = 0 then .ok pl.dest else b.searchTab env it tabId slotId pl
  else b.searchTab env it tabId slotId ⟨[], it.count⟩

/-- `MoveItemData::CanStore`. -/
def canStore (it : Item) (swap : Bool) :
    MoveItemData → Except InventoryResult (List (Pos × ℕ))
  | .bank tabId slotId => b.canStoreInTab env it tabId slotId swap
  | .player bag slot =>
    let r := b.inv.canStoreItem env bag slot it.entry it.count (some it) swap
    if r.res = .ok then .ok r.dest else .error r.res

/-! ## The quest log -/

/-- `Player::ItemAddedQuestCheck`. -/
def itemAddedQuestCheck (it : Item) : GuildBank :=
  match mover.counts b.book it with
  | some book => { b with book }
  | none => { b with book := (mover.rewarded it b.book b.inv).1, inv := (mover.rewarded it b.book b.inv).2 }

/-- The log after `Player::ItemRemovedQuestCheck`, which counts the items that the player still
has. -/
def withoutItem (it : Item) : QuestBook :=
  let outside := { b.book.outside with itemCountWithBank := fun e => b.inv.getItemCount env e none }
  ({ b.book with outside }.itemRemovedQuestCheck mover.quests it.entry it.count).getD b.book

/-! ## The moves -/

/-- Take an item, or a part of its stack, out of a slot of the bank. -/
def takeFromTab (it : Item) (splitedAmount : ℕ) (pos : Pos) : GuildBank :=
  if splitedAmount ≠ 0 then b.put pos (some { it with count := it.count - splitedAmount })
  else b.setItem pos none

/-- Take an item, or a part of its stack, out of a position of the inventory. -/
def takeFromInventory (it : Item) (splitedAmount : ℕ) (pos : Pos) : Inventory :=
  if splitedAmount ≠ 0 then
    b.inv.put env pos (some { it with count := it.count - splitedAmount })
  else b.inv.removeItem env pos

/-- `Guild::_UpdateMemberWithdrawSlots`, unless the item stays in the tab. -/
def chargeTab (other : MoveItemData) (tabId : ℕ) : GuildBank :=
  if other.sameTab tabId then b
  else { b with guild := b.guild.updateMemberWithdrawSlots mover.player tabId }

/-- `MoveItemData::RemoveItem`. -/
def removeItem (it : Item) (other : MoveItemData) (splitedAmount : ℕ) :
    MoveItemData → GuildBank
  | .bank tabId slotId =>
    (b.takeFromTab it splitedAmount (tabId, slotId)).chargeTab mover other tabId
  | .player bag slot =>
    { b with
      inv := b.takeFromInventory env it splitedAmount (bag, slot)
      book := if splitedAmount = 0 then b.withoutItem env mover it else b.book }

/-- `BankMoveItemData::_StoreItem`. -/
def storeItemAt (pos : Pos) (it : Item) (count : ℕ) (clone : Bool) : GuildBank :=
  match b.getItem pos with
  | some itemDest =>
    b.put pos (some { itemDest with count := toU32 (itemDest.count + count : ℕ) })
  | none =>
    if clone then
      match b.inv.cloneItem env it count with
      | some (new, inv') => { b with inv := inv' }.setItem pos (some new)
      | none => b
    else b.setItem pos (some { it with count })

/-- `BankMoveItemData::StoreItem` : clones at all places but the last. -/
def storeItems (it : Item) : List (Pos × ℕ) → GuildBank → GuildBank
  | [], b => b
  | [(pos, count)], b => b.storeItemAt env pos it count false
  | (pos, count) :: d :: dest, b =>
    storeItems it (d :: dest) (b.storeItemAt env pos it count true)

/-- `MoveItemData::StoreItem`. The inventory is the one that the quest check leaves. -/
def storeItem (it : Item) (dest : List (Pos × ℕ)) : MoveItemData → GuildBank
  | .bank _ _ => storeItems env it dest b
  | .player _ _ =>
    let b := b.itemAddedQuestCheck mover it
    { b with inv := (Inventory.storeItem env it dest b.inv).2 }

/-- The result of a call : the items, whether something moved, and the tabs out of which an item
went to the inventory or to another tab. -/
structure MoveResult where
  bank : GuildBank
  moved : Bool := false
  out : List ℕ := []

/-- The tab that loses an item to the other end. -/
def outOf (other : MoveItemData) : MoveItemData → List ℕ
  | .bank tabId _ => if other.sameTab tabId then [] else [tabId]
  | .player _ _ => []

/-- `_DoItemsMove`. `it` is the item at the source and `srcItem` the one that moves, `it` itself
or the clone that was split off. -/
def doItemsMove (src dest : MoveItemData) (it srcItem : Item) (destItem : Option Item)
    (splitedAmount : ℕ) : MoveResult :=
  match b.canStore env srcItem destItem.isSome dest with
  | .error _ => { bank := b }
  | .ok destVec =>
    match destItem with
    | none =>
      let b₁ := b.removeItem env mover it dest splitedAmount src
      { bank := b₁.storeItem env mover srcItem destVec dest, moved := true, out := outOf dest src }
    | some destItem =>
      match b.canStore env destItem true src with
      | .error _ => { bank := b }
      | .ok srcVec =>
        let b₁ := b.removeItem env mover it dest splitedAmount src
        let b₂ := b₁.removeItem env mover destItem src 0 dest
        let b₃ := b₂.storeItem env mover srcItem destVec dest
        { bank := b₃.storeItem env mover destItem srcVec src
          moved := true
          out := outOf dest src ++ outOf src dest }

/-- `_MoveItems`. -/
def moveItems (src dest : MoveItemData) (splitedAmount : ℕ) : MoveResult :=
  match b.initItem env mover src with
  | none => { bank := b }
  | some it =>
    if splitedAmount > it.count then { bank := b }
    else if !b.hasStoreRights mover src dest || !b.hasWithdrawRights mover dest src then
      { bank := b }
    else if splitedAmount ≠ 0 ∧ splitedAmount ≠ it.count then
      match b.inv.cloneItem env it splitedAmount with
      | none => { bank := b }
      | some (new, inv') =>
        { b with inv := inv' }.doItemsMove env mover src dest it (new.giveTo 0) none splitedAmount
    else
      let merged := b.doItemsMove env mover src dest it it none 0
      if merged.moved then merged
      else
        match b.initItem env mover dest with
        | none => { bank := b }
        | some destItem =>
          if !b.hasStoreRights mover dest src || !b.hasWithdrawRights mover src dest then
            { bank := b }
          else b.doItemsMove env mover src dest it it (some destItem) 0

/-- `Guild::SwapItems`. -/
def swapItems (tabId slotId destTabId destSlotId splitedAmount : ℕ) : MoveResult :=
  if tabId ≥ b.guild.getPurchasedTabsSize ∨ slotId ≥ guildBankMaxSlots ∨
    destTabId ≥ b.guild.getPurchasedTabsSize ∨ destSlotId ≥ guildBankMaxSlots then { bank := b }
  else if tabId = destTabId ∧ slotId = destSlotId then { bank := b }
  else b.moveItems env mover (.bank tabId slotId) (.bank destTabId destSlotId) splitedAmount

/-- `Guild::SwapItemsWithInventory`. -/
def swapItemsWithInventory (toChar : Bool) (tabId slotId playerBag playerSlotId
    splitedAmount : ℕ) : MoveResult :=
  if (slotId ≥ guildBankMaxSlots ∧ slotId ≠ nullSlot) ∨
    tabId ≥ b.guild.getPurchasedTabsSize then { bank := b }
  else if toChar then
    b.moveItems env mover (.bank tabId slotId) (.player playerBag playerSlotId) splitedAmount
  else b.moveItems env mover (.player playerBag playerSlotId) (.bank tabId slotId) splitedAmount

/-- A bank with one tab and two stacks, where the officers may take one item a day. -/
def smallBank : GuildBank where
  guild := { Guild.smallGuild with
    purchasedTabs := 1
    ranks := [⟨0, grRightAll, 0, fun _ => ⟨255, 0⟩⟩, ⟨1, grRightAll, 0, fun _ => ⟨3, 1⟩⟩] }
  tabs p := if p = (0, 0) then some { guid := 4, entry := 117, count := 5 }
    else if p = (0, 1) then some { guid := 5, entry := 117, count := 18 }
    else none
  inv := { smallInventory with nextGuid := 6 }

end GuildBank

end MistyWorld
