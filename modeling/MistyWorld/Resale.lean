import MistyWorld.Buyback
import MistyWorld.ItemCount
import MistyWorld.Money

/-!
# Selling and buying back

`HandleSellItemOpcode` puts a stack, or a part of it, into a buyback slot and then credits the
price. `HandleBuybackItem` debits the price that `AddItemToBuyBackSlot` has written and stores the
item. The price is a product in a 32-bit word. It is credited as an unsigned word, and debited
through a signed one.

The units come back in any case (`Sold.units`, `BoughtBack.units`). The gold does not when the
credit is refused at `MAX_MONEY_AMOUNT`, and not when the price does not fit into the signed word :
then it is credited once more, unless both credits are refused (`restored_iff`).
-/

open Word

namespace MistyWorld

/-- The item templates with their `SellPrice`. -/
structure Shop where
  items : ItemEnv
  sellPrice : ℕ → ℕ

/-- The selling price of a template, if there is one. -/
def Shop.price (shop : Shop) (entry : ℕ) : Option ℕ :=
  (shop.items.template entry).map fun _ => shop.sellPrice entry

/-- The part of a player that selling and buying back use. -/
structure Seller where
  inv : Inventory
  buyback : Buyback
  money : ℕ
  /-- `GetLootGUID`. -/
  lootGuid : ℕ := 0
  /-- The item with the guid has `ITEM_FLAG_REFUNDABLE`. -/
  refundable : ℕ → Bool := fun _ => false

/-- `SELL_ERR_CANT_FIND_ITEM`, `SELL_ERR_CANT_SELL_ITEM` and `SELL_ERR_CANT_FIND_VENDOR`. -/
inductive SellError
  | cantFindItem
  | cantSellItem
  | cantFindVendor
  deriving DecidableEq

/-- Why an item is not bought back. -/
inductive BuybackError
  | cantFindVendor
  | cantFindItem
  | notEnoughMoney
  | inventory (res : InventoryResult)
  deriving DecidableEq

/-- `Player::GetItemByGuid`, with the position of the item. -/
def Inventory.getItemByGuid (env : ItemEnv) (inv : Inventory) (guid : ℕ) : Option (Pos × Item) :=
  (slotsAndBags env inv (List.range bankSlotBagEnd) (bagSlots ++ bankBagSlots)).findSome? fun pos =>
    ((inv.getItemByPos env pos).filter fun it => it.guid = guid).map fun it => (pos, it)

namespace Seller

/-- The gold after `ModifyMoney`. -/
def gold (money : ℕ) (amount : ℤ) : ℕ :=
  (modifyMoney money amount).1

variable (shop : Shop) (s : Seller)

/-- The item, or a clone of `count` units of it, moves from the inventory to a buyback slot. -/
def moveToBuyBack (pos : Pos) (it : Item) (count : ℕ) (base : ℤ) : Except SellError Seller :=
  if count < it.count then
    match s.inv.cloneItem shop.items it count with
    | none => .error .cantSellItem
    | some (new, inv) =>
      .ok { s with
        inv := inv.put shop.items pos (some { it with count := it.count - count })
        buyback := s.buyback.addItemToBuyBackSlot shop.price new base }
  else
    .ok { s with
      inv := s.inv.removeItem shop.items pos
      buyback := s.buyback.addItemToBuyBackSlot shop.price it base }

/-- The units that are sold : all of them where the client asks for none. -/
def soldCount (it : Item) (count : ℕ) : ℕ :=
  if count = 0 then it.count else count

/-- `WorldSession::HandleSellItemOpcode`. An error is what the client is told, if anything. -/
def handleSellItem (reachable : Bool) (itemGuid count : ℕ) (base : ℤ) :
    Except (Option SellError) Seller :=
  if itemGuid = 0 then .error none
  else if !reachable then .error (some .cantFindVendor)
  else
    match s.inv.getItemByGuid shop.items itemGuid with
    | none => .error (some .cantFindItem)
    | some (pos, it) =>
      if it.owner ≠ s.inv.owner then .error (some .cantSellItem)
      else if s.inv.isNotEmptyBag shop.items it then .error (some .cantSellItem)
      else if s.lootGuid = it.guid then .error (some .cantSellItem)
      else if s.refundable it.guid then .error none
      else if it.count < count then .error (some .cantSellItem)
      else
        match shop.price it.entry with
        | none => .error (some .cantFindItem)
        | some price =>
          if price = 0 then .error (some .cantSellItem)
          else
            match s.moveToBuyBack shop pos it (soldCount it count) base with
            | .error e => .error (some e)
            | .ok s' =>
              .ok { s' with
                money := gold s'.money (toU32 (price * soldCount it count)) }

/-- `WorldSession::HandleBuybackItem`. -/
def handleBuybackItem (reachable : Bool) (slot : ℕ) : Except BuybackError Seller :=
  if !reachable then .error .cantFindVendor
  else
    match if buybackSlotStart ≤ slot ∧ slot < buybackSlotEnd then s.buyback.items slot else none with
    | none => .error .cantFindItem
    | some it =>
      let price := s.buyback.price (slot - buybackSlotStart)
      if !hasEnoughMoney s.money price then .error .notEnoughMoney
      else
        let store :=
          s.inv.canStoreItem shop.items nullBag nullSlot it.entry it.count (some it) false
        if store.res = .ok then
          .ok { s with
            money := gold s.money (toI32 (-toI32 price))
            buyback := s.buyback.removeItemFromBuyBackSlot slot false
            inv := (Inventory.storeItem shop.items it store.dest s.inv).2 }
        else .error (.inventory store.res)

/-- The gold and the units of every entry are what they were. -/
def Restored (s s' : Seller) : Prop :=
  s'.money = s.money ∧ ∀ entry, total entry (s'.inv.getItemByPos shop.items) =
    total entry (s.inv.getItemByPos shop.items)

/-- A price is credited and debited, or, above `2 ^ 31`, both of its credits are refused. -/
def PaysBack (money price : ℕ) : Prop :=
  price = 0 ∨ price ≤ 2 ^ 31 ∧ money + price < maxMoneyAmount ∨
    2 ^ 31 < price ∧ maxMoneyAmount ≤ money + price ∧ maxMoneyAmount + price ≤ money + 2 ^ 32

/-! ## The gold -/

/-- The gold after a credit of at most `MAX_MONEY_AMOUNT`. -/
theorem gold_credit {money amount : ℕ} (hm : money ≤ maxMoneyAmount) (h : amount ≤ maxMoneyAmount) :
    gold money amount = if money + amount < maxMoneyAmount then money + amount else money := by
  unfold gold modifyMoney maxMoneyAmount toU64 at *
  split_ifs <;> simp only <;> omega

/-- What the price is as a signed word, with its sign changed. -/
theorem neg_toI32 {price : ℕ} (hlt : price < 2 ^ 32) :
    toI32 (-toI32 price) = if price ≤ 2 ^ 31 then -(price : ℤ) else ((2 ^ 32 - price : ℕ) : ℤ) := by
  unfold toI32
  split_ifs <;> omega

/-- The gold after a credit and a debit of a price that the player has. -/
theorem paysBack_iff {money price : ℕ} (hm : money ≤ maxMoneyAmount) (hlt : price < 2 ^ 32)
    (henough : hasEnoughMoney (gold money price) price = true) :
    gold (gold money price) (toI32 (-toI32 price)) = money ↔ PaysBack money price := by
  have hmax : 2 ^ 32 ≤ maxMoneyAmount := by decide
  have hmax' : maxMoneyAmount < 2 ^ 63 := by decide
  rw [gold_credit hm (by omega)] at henough ⊢
  rw [hasEnoughMoney, decide_eq_true_eq] at henough
  rw [neg_toI32 hlt]
  unfold PaysBack
  by_cases hsmall : price ≤ 2 ^ 31
  · rw [if_pos hsmall, gold, modifyMoney_debit (by split_ifs <;> omega) henough]
    split_ifs at henough ⊢ <;> omega
  · rw [if_neg hsmall, gold_credit (by split_ifs <;> omega) (by omega)]
    split_ifs at henough ⊢ <;> omega

end Seller

/-! ## The units -/

namespace Inventory

variable {env : ItemEnv} {inv : Inventory} {p : Pos} {it : Item} {n : ℕ}

theorem getItemByGuid_eq_some {guid : ℕ} (h : inv.getItemByGuid env guid = some (p, it)) :
    inv.getItemByPos env p = some it ∧ it.guid = guid := by
  obtain ⟨q, -, hq⟩ := List.exists_of_findSome?_eq_some h
  obtain ⟨x, hx, heq⟩ := Option.map_eq_some_iff.1 hq
  obtain ⟨rfl, rfl⟩ := Prod.mk.inj heq
  obtain ⟨hget, hguid⟩ := Option.filter_eq_some_iff.1 hx
  exact ⟨hget, by simpa using hguid⟩

theorem put_bump (env : ItemEnv) (inv : Inventory) (p : Pos) (o : Option Item) :
    inv.bump.put env p o = (inv.put env p o).bump :=
  rfl

theorem getItemByPos_bump (env : ItemEnv) (inv : Inventory) :
    inv.bump.getItemByPos env = inv.getItemByPos env := by
  funext p
  simp only [getItemByPos, getBagByPos, bump]

theorem nextGuid_put (env : ItemEnv) (inv : Inventory) (p : Pos) (o : Option Item) :
    (inv.put env p o).nextGuid = inv.nextGuid := by
  obtain ⟨owner, cells, nextGuid⟩ := inv
  simp only [put]

/-- A part of a stack is taken away. -/
theorem WF.shrink (hw : inv.WF env) (h : inv.getItemByPos env p = some it) (hn : n < it.count) :
    (inv.put env p (some { it with count := it.count - n })).WF env := by
  obtain ⟨proto, hproto, -, hle⟩ := hw.stack_pos h
  exact hw.replace h rfl ⟨proto, hproto, Nat.sub_pos_of_lt hn, (Nat.sub_le _ _).trans hle⟩

/-- The units that are taken away. -/
theorem total_shrinkBy (hw : inv.WF env) (h : inv.getItemByPos env p = some it) (hn : n < it.count)
    (entry : ℕ) :
    total entry ((inv.put env p (some { it with count := it.count - n })).getItemByPos env) +
      (if entry = it.entry then n else 0) = total entry (inv.getItemByPos env) := by
  have htotal := total_replace hw.toDistinct h { it with count := it.count - n } rfl rfl entry
  simp only [units, eq_comm (a := it.entry)] at htotal
  split_ifs at htotal ⊢
  · omega
  · rw [add_zero, add_zero] at htotal
    rw [add_zero, htotal]

end Inventory

namespace Seller

open Inventory

variable {shop : Shop} {s s₁ s₂ : Seller} {pos : Pos} {it : Item} {n : ℕ} {base : ℤ}

/-- `n` units of an item are in a buyback slot and no longer in the inventory. -/
structure Sold (shop : Shop) (s : Seller) (it : Item) (n : ℕ) (base : ℤ) (sold : Item)
    (s₁ : Seller) : Prop where
  wf : s₁.inv.WF shop.items
  loose : Loose shop.items s₁.inv sold
  empty : s₁.inv.isNotEmptyBag shop.items sold = false
  entry : sold.entry = it.entry
  count : sold.count = n
  buyback : s₁.buyback = s.buyback.addItemToBuyBackSlot shop.price sold base
  units : ∀ entry, total entry (s₁.inv.getItemByPos shop.items) +
    (if entry = it.entry then n else 0) = total entry (s.inv.getItemByPos shop.items)

/-- A part of a stack is sold as a clone. -/
theorem sold_part (hw : s.inv.WF shop.items) (hit : s.inv.getItemByPos shop.items pos = some it)
    (hone : 1 ≤ n) (hlt : n < it.count)
    (h : s.moveToBuyBack shop pos it n base = .ok s₁) : ∃ sold, Sold shop s it n base sold s₁ := by
  obtain ⟨proto, hproto, -, hle⟩ := hw.stack_pos hit
  obtain ⟨new, hclone, hguid, hentry, hcount⟩ :=
    cloneItem_eq s.inv hproto hone (hlt.le.trans hle)
  have hwf := hw.shrink hit hlt
  have htotal := total_shrinkBy hw hit hlt
  have hnext : (s.inv.put shop.items pos (some { it with count := it.count - n })).nextGuid =
      new.guid := by
    rw [nextGuid_put, hguid]
  rw [moveToBuyBack, if_pos hlt, hclone] at h
  dsimp only at h
  rw [put_bump] at h
  generalize s.inv.put shop.items pos (some { it with count := it.count - n }) = inv
    at h hwf htotal hnext
  have hloose : Loose shop.items inv.bump new :=
    ⟨fun hc => (hnext ▸ hwf.fresh hc).ne, hnext ▸ Nat.lt_succ_self _, proto, hentry ▸ hproto⟩
  have hempty : inv.bump.isNotEmptyBag shop.items new = false :=
    show inv.isNotEmptyBag shop.items new = false from
      isNotEmptyBag_fresh hwf.toDistinct hnext.le
  have hwf := hwf.bump
  rw [← getItemByPos_bump shop.items inv] at htotal
  generalize inv.bump = inv' at h hwf htotal hloose hempty
  obtain rfl := Except.ok.inj h
  exact ⟨new, hwf, hloose, hempty, hentry, hcount, rfl, htotal⟩

/-- A whole stack is sold. -/
theorem sold_whole (hw : s.inv.WF shop.items) (hit : s.inv.getItemByPos shop.items pos = some it)
    (hempty : s.inv.isNotEmptyBag shop.items it = false)
    (h : s.moveToBuyBack shop pos it it.count base = .ok s₁) :
    Sold shop s it it.count base it s₁ := by
  have hloose : Loose shop.items (s.inv.removeItem shop.items pos) it :=
    @SourceAt.loose shop.items s.inv (some it) (some pos) none (.held it pos hit) hw it rfl
  have hgone : (s.inv.removeItem shop.items pos).isNotEmptyBag shop.items it = false := by
    by_contra hbag
    have htaken : (s.inv.takeOut shop.items (some pos)).isNotEmptyBag shop.items it = true := by
      simpa [takeOut] using hbag
    rw [isNotEmptyBag_of_takeOut htaken] at hempty
    cases hempty
  have htotal := total_destroyItem hw.toDistinct hit hempty
  rw [destroyItem_of_empty hit hempty] at htotal
  have hwf := hw.removeItem pos
  rw [moveToBuyBack, if_neg (lt_irrefl _)] at h
  generalize s.inv.removeItem shop.items pos = inv at *
  obtain rfl := Except.ok.inj h
  refine ⟨hwf, hloose, hgone, rfl, rfl, rfl, fun entry => ?_⟩
  simpa only [units, eq_comm (a := it.entry)] using htotal entry

theorem money_moveToBuyBack (h : s.moveToBuyBack shop pos it n base = .ok s₁) :
    s₁.money = s.money := by
  unfold moveToBuyBack at h
  split_ifs at h
  · split at h
    · cases h
    · obtain rfl := Except.ok.inj h
      rfl
  · obtain rfl := Except.ok.inj h
    rfl

theorem Sold.withMoney {sold : Item} (h : Sold shop s it n base sold s₁) (money : ℕ) :
    Sold shop s it n base sold { s₁ with money } :=
  ⟨h.wf, h.loose, h.empty, h.entry, h.count, h.buyback, h.units⟩

/-- A sale that succeeds moves the units and credits the price. -/
theorem handleSellItem_ok {reachable : Bool} {itemGuid count : ℕ} (hw : s.inv.WF shop.items)
    (hitem : s.inv.getItemByGuid shop.items itemGuid = some (pos, it))
    (h : s.handleSellItem shop reachable itemGuid count base = .ok s₁) :
    ∃ sold, Sold shop s it (soldCount it count) base sold s₁ ∧ 1 ≤ soldCount it count ∧
      soldCount it count ≤ it.count ∧
      s₁.money = gold s.money (toU32 (shop.sellPrice it.entry * soldCount it count)) := by
  obtain ⟨hit, -⟩ := getItemByGuid_eq_some hitem
  obtain ⟨proto, hproto, hone, -⟩ := hw.stack_pos hit
  unfold handleSellItem at h
  rw [hitem] at h
  dsimp only at h
  split_ifs at h with hguid hreach howner hempty hloot hrefund hcount
  have hempty : s.inv.isNotEmptyBag shop.items it = false := by simpa using hempty
  have hprice : shop.price it.entry = some (shop.sellPrice it.entry) := by
    rw [Shop.price, hproto]
    rfl
  rw [hprice] at h
  dsimp only at h
  split_ifs at h with hzero
  have hsold : 1 ≤ soldCount it count ∧ soldCount it count ≤ it.count := by
    unfold soldCount
    split_ifs <;> omega
  split at h
  · cases h
  · rename_i s' hmove
    rw [money_moveToBuyBack hmove] at h
    generalize gold s.money (toU32 (shop.sellPrice it.entry * soldCount it count)) = money at h ⊢
    obtain rfl := Except.ok.inj h
    rcases Nat.lt_or_eq_of_le hsold.2 with hlt | heq
    · obtain ⟨sold, hmoved⟩ := sold_part hw hit hsold.1 hlt hmove
      exact ⟨sold, hmoved.withMoney _, hsold.1, hsold.2, rfl⟩
    · rw [heq] at hmove
      have hmoved := sold_whole hw hit hempty hmove
      rw [← heq] at hmoved
      exact ⟨it, hmoved.withMoney _, hsold.1, hsold.2, rfl⟩

/-- What `AddItemToBuyBackSlot` writes into the slot it chooses. -/
theorem price_addItemToBuyBackSlot (b : Buyback) (sold : Item) (base : ℤ) {price : ℕ}
    (hprice : shop.price sold.entry = some price) :
    (b.addItemToBuyBackSlot shop.price sold base).price (b.chooseSlot - buybackSlotStart) =
      toU32 (price * sold.count) := by
  simp [Buyback.addItemToBuyBackSlot, hprice]

/-- Buying back an item that fits stores its units and debits its price. -/
theorem handleBuybackItem_ok {reachable : Bool} {slot price : ℕ} {sold : Item}
    (hw : s₁.inv.WF shop.items) (hloose : Loose shop.items s₁.inv sold)
    (hempty : s₁.inv.isNotEmptyBag shop.items sold = false) (hone : 1 ≤ sold.count)
    (hlt : sold.count < 2 ^ 32) (hslot : slot ∈ buybackSlots)
    (hat : s₁.buyback.items slot = some sold)
    (hprice : s₁.buyback.price (slot - buybackSlotStart) = price)
    (h : s₁.handleBuybackItem shop reachable slot = .ok s₂) :
    hasEnoughMoney s₁.money price = true ∧
      s₂.money = gold s₁.money (toI32 (-toI32 price)) ∧
      ∀ entry, total entry (s₂.inv.getItemByPos shop.items) =
        total entry (s₁.inv.getItemByPos shop.items) +
          if entry = sold.entry then sold.count else 0 := by
  unfold handleBuybackItem at h
  rw [if_pos (Buyback.mem_buybackSlots.1 hslot), hat] at h
  dsimp only at h
  rw [hprice] at h
  split_ifs at h with hreach henough hok
  have hentry : ∀ x, some sold = some x → x.entry = sold.entry := by
    rintro x ⟨⟩
    rfl
  obtain ⟨-, x, -, -, hx, -, hland⟩ := canStoreItem_exact hw (.outside sold hloose) hentry hone hlt
    (fun hs => absurd hs Bool.false_ne_true) (fun _ _ hne => absurd rfl hne) hok
  obtain rfl := hx sold rfl
  simp only [storeSource, taken, takeOut, Bool.false_eq_true, if_false] at hland
  -- the new inventory and gold are not to be computed
  generalize (Inventory.storeItem shop.items x _ s₁.inv).2 = inv at h hland
  generalize gold s₁.money (toI32 (-toI32 price)) = money at h ⊢
  obtain rfl := Except.ok.inj h
  refine ⟨by simpa using henough, rfl, fun entry => ?_⟩
  have htotal := hland.total entry
  rw [brought_of_empty hempty, add_zero] at htotal
  exact htotal

end Seller

/-- A shop in which a unit of the entry 117 is worth ten copper. -/
def smallShop : Shop where
  items := smallEnv
  sellPrice := fun _ => 10

/-- A player with some gold and a stack of five units. -/
def smallSeller (money : ℕ) : Seller where
  inv := .ofList 1 2 [(.slot 23, { guid := 1, entry := 117, count := 5, owner := 1 })]
  buyback := { loginTime := 0 }
  money := money

/-- The gold after units were sold and bought back, if both succeed. -/
def resaleGold (money count : ℕ) : Option ℕ :=
  match (smallSeller money).handleSellItem smallShop true 1 count 0 with
  | .error _ => none
  | .ok s =>
    match s.handleBuybackItem smallShop true (smallSeller money).buyback.chooseSlot with
    | .error _ => none
    | .ok s => some s.money

theorem exists_of_resaleGold {money count gold : ℕ} (h : resaleGold money count = some gold) :
    ∃ s₁ s₂, (smallSeller money).handleSellItem smallShop true 1 count 0 = .ok s₁ ∧
      s₁.handleBuybackItem smallShop true (smallSeller money).buyback.chooseSlot = .ok s₂ ∧
      s₂.money = gold := by
  unfold resaleGold at h
  split at h
  · cases h
  rename_i s₁ hsell
  split at h
  · cases h
  rename_i s₂ hbuy
  exact ⟨s₁, s₂, hsell, hbuy, Option.some.inj h⟩

end MistyWorld
