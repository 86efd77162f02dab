import MistyWorld.Equipping
import MistyWorld.Money
import MistyWorld.StoreCapacity
import MistyWorld.Vendor

/-!
# Items from vendors

`Player::BuyItemFromVendorSlot` with `_StoreOrEquipNewItem`. A purchase is checked and priced first,
then a place for the items is looked for, then the price is taken, and the items are stored last.
The price in gold is a product in a 32-bit word that goes through a `float` for the discount, and is
passed on as a signed word.

A row with an extended cost entry takes gold only when the item has
`ITEM_FLAGS_EXTRA_EXT_COST_REQUIRES_GOLD`. Where the words hold the products, a purchase takes and
gives nothing, or it gives exactly the items asked for and takes exactly the price
(`buyItem_exact`).
-/

open Option List Word

namespace MistyWorld

/-! ## The purchase -/

/-- The part of `ItemTemplate` that only a purchase reads. `extCostRequiresGold` is the flag
`ITEM_FLAGS_EXTRA_EXT_COST_REQUIRES_GOLD`. -/
structure ItemSale where
  buyCount : ℕ := 1
  buyPrice : ℤ := 0
  requiredReputationFaction : ℕ := 0
  requiredReputationRank : ℕ := 0
  extCostRequiresGold : Bool := false

/-- `VendorItem::IsGoldRequired` -/
def VendorItem.isGoldRequired (crItem : VendorItem) (sale : ItemSale) : Bool :=
  sale.extCostRequiresGold || crItem.extendedCost = 0

/-- The value of a `uint32` as a `float` : 24 bits, rounded to the nearest, ties to even. -/
def toFloat (n : ℕ) : ℕ :=
  let ulp := 2 ^ (Nat.log2 n - 23)
  let down := n / ulp
  if 2 * (n % ulp) < ulp ∨ (2 * (n % ulp) = ulp ∧ down % 2 = 0) then down * ulp
  else (down + 1) * ulp

/-- A player who visits a vendor. `discounted` is the price after the reputation discount and
`SPELL_AURA_MOD_VENDOR_ITEMS_PRICES`. -/
structure Buyer extends VendorVisit where
  wearer : Wearer := {}
  discounted : ℕ → ℕ := toFloat

/-- The row at a slot of the vendor. -/
def Buyer.row (buyer : Buyer) (vendorSlot : ℕ) : Option VendorItem :=
  buyer.creature.bind fun creature => creature.getItem vendorSlot

/-- `IsInventoryPos` -/
def isInventoryPos (bag slot : ℕ) : Bool :=
  (bag = inventorySlotBag0 && slot = nullSlot) ||
    (bag = inventorySlotBag0 && inventorySlotItemStart ≤ slot && slot < inventorySlotItemEnd) ||
      (19 ≤ bag && bag < 23)

/-- `IsEquipmentPos` -/
def isEquipmentPos (bag slot : ℕ) : Bool :=
  bag = inventorySlotBag0 && (slot < equipmentSlotEnd || (19 ≤ slot && slot < 23))

/-- What a purchase leaves : an error where it is refused, what the player has, and what was sent
to him by mail. -/
structure Purchase where
  error : Option VendorError
  goods : Goods
  mailed : List Item := []

section

variable (w : VendorWorld) (sale : ℕ → ItemSale) (buyer : Buyer) (goods : Goods)

/-- The checks of a row, up to those of its extended cost entry. -/
def checkRow (creature : VendorCreature) (crItem : VendorItem) (item count : ℕ) :
    Except VendorError Unit :=
  if crItem.maxcount ≠ 0 ∧ creature.currentCount crItem < toU32 ((sale item).buyCount * count) then
    .error .vendorSoldOut
  else if (sale item).requiredReputationFaction ≠ 0 ∧
      buyer.reputationRank (sale item).requiredReputationFaction <
        (sale item).requiredReputationRank then
    .error .cantEquipReputation
  else if crItem.extendedCost = 0 then .ok ()
  else if (sale item).buyCount = 0 then .error .divisionByZero
  else if count % (sale item).buyCount ≠ 0 then .error .cantBuyQuantity
  else
    match w.extendedCost crItem.extendedCost with
    | none => .error .silent
    | some iece =>
      checkExtendedCost w buyer.toVendorVisit goods iece (count / (sale item).buyCount)
        (.inventory .itemNotFound) .cantEquipReputation

/-- The count that is bought, after the clamp against an overflow of the price. -/
def clampedCount (crItem : VendorItem) (item count : ℕ) : ℕ :=
  if crItem.isGoldRequired (sale item) ∧ 0 < (sale item).buyPrice then
    let maxCount := toU32 (maxMoneyAmount / (sale item).buyPrice)
    if maxCount < count then maxCount % 2 ^ 8 else count
  else count

/-- The price in gold. -/
def goldPrice (crItem : VendorItem) (item count : ℕ) : ℕ :=
  if crItem.isGoldRequired (sale item) ∧ 0 < (sale item).buyPrice then
    buyer.discounted (toU32 ((sale item).buyPrice * count))
  else 0

/-- `ModifyMoney(-price)` -/
def payGold (price : ℕ) : Goods :=
  { goods with money := (modifyMoney goods.money (-toI32 price)).1 }

/-- What an extended cost entry requires is taken. -/
def payExtendedCost (crItem : VendorItem) (stackCount : ℕ) : Goods :=
  if crItem.extendedCost = 0 then goods
  else
    match w.extendedCost crItem.extendedCost with
    | none => goods
    | some iece =>
      { goods with
        inv := payItems w iece stackCount goods.inv
        currencies := payCurrencies w buyer.toVendorVisit iece
          (fun i => -toI32 (toU32 (iece.requiredCurrencyCount i * stackCount))) goods.currencies }

/-- The price is taken. -/
def pay (crItem : VendorItem) (stackCount price : ℕ) : Goods :=
  payExtendedCost w buyer (payGold goods price) crItem stackCount

/-- `_StoreOrEquipNewItem` -/
def storeOrEquipNewItem (crItem : VendorItem) (item count bag slot price : ℕ) (bStore : Bool) :
    Purchase :=
  let stackCount := count / (sale item).buyCount
  if (sale item).buyCount = 0 then { error := some .divisionByZero, goods }
  else if bStore then
    let check := goods.inv.canStoreNewItem w.env bag slot item count
    if check.res ≠ .ok then { error := some (.inventory check.res), goods }
    else
      let paid := pay w buyer goods crItem stackCount price
      { error := none
        goods := { paid with inv := (paid.inv.storeNewItem w.env check.dest item).2 } }
  else
    match canEquipNewItem w.env buyer.wearer slot item ⟨goods.inv, []⟩ with
    | (some res, b) =>
      { error := some (.inventory res), goods := { goods with inv := b.inv }, mailed := b.mailed }
    | (none, b) =>
      let paid := pay w buyer { goods with inv := b.inv } crItem stackCount price
      let b := autoUnequipOffhandIfNeed w.env buyer.wearer false
        ⟨(equipNewItem w.env slot item paid.inv).2, b.mailed⟩
      { error := none, goods := { paid with inv := b.inv }, mailed := b.mailed }

/-- `BuyItemFromVendorSlot`, from the row on. -/
def buyRow (creature : VendorCreature) (crItem : VendorItem) (item count bag slot : ℕ) :
    Purchase :=
  match checkRow w sale buyer goods creature crItem item count with
  | .error e => { error := some e, goods }
  | .ok _ =>
    let bought := clampedCount sale crItem item count
    let price := goldPrice sale buyer crItem item bought
    if !hasEnoughMoney goods.money price then { error := some .notEnoughMoney, goods }
    else if (bag = nullBag ∧ slot = nullSlot) ∨ isInventoryPos bag slot then
      storeOrEquipNewItem w sale buyer goods crItem item bought bag slot price true
    else if isEquipmentPos bag slot then
      if bought ≠ 1 then { error := some (.inventory .notEquippable), goods }
      else storeOrEquipNewItem w sale buyer goods crItem item bought bag slot price false
    else { error := some (.inventory .wrongSlot), goods }

/-- `BuyItemFromVendorSlot` -/
def buyItemFromVendorSlot (vendorSlot item count bag slot : ℕ) : Purchase :=
  let count := if count < 1 then 1 else count
  if maxBagSize < slot ∧ slot ≠ nullSlot then { error := some .silent, goods }
  else if buyer.isAlive = false then { error := some .silent, goods }
  else if (w.env.template item).isNone then { error := some (.inventory .itemNotFound), goods }
  else
    match buyer.creature with
    | none => { error := some .outOfRange, goods }
    | some creature =>
      match creature.getItem vendorSlot with
      | none => { error := some (.inventory .itemNotFound), goods }
      | some crItem =>
        if crItem.item ≠ item then { error := some (.inventory .itemNotFound), goods }
        else buyRow w sale buyer goods creature crItem item count bag slot

end

/-! ## What is taken -/

/-- The extended cost entry of a row, one that requires nothing where it has none. -/
def priceEntry (w : VendorWorld) (crItem : VendorItem) : ItemExtendedCostEntry :=
  if crItem.extendedCost = 0 then {} else (w.extendedCost crItem.extendedCost).getD {}

section

variable {w : VendorWorld} {sale : ℕ → ItemSale} {buyer : Buyer} {goods : Goods}
  {crItem : VendorItem} {iece : ItemExtendedCostEntry} {stackCount : ℕ}

theorem itemSlots_free : ({} : ItemExtendedCostEntry).itemSlots = [] := by
  simp [ItemExtendedCostEntry.itemSlots]

theorem currencySlots_free : ({} : ItemExtendedCostEntry).currencySlots = [] := by
  simp [ItemExtendedCostEntry.currencySlots]

/-- Where nothing is required, nothing is taken. -/
theorem payItems_free (inv : Inventory) : payItems w {} stackCount inv = inv := by
  rw [payItems, itemSlots_free, foldl_nil]

theorem payCurrencies_free (visit : VendorVisit) (amount : Fin 5 → ℤ) (s : CurrencyStorage) :
    payCurrencies w visit {} amount s = s := by
  rw [payCurrencies, currencySlots_free, filter_nil, foldl_nil]

theorem payExtendedCost_money :
    (payExtendedCost w buyer goods crItem stackCount).money = goods.money := by
  unfold payExtendedCost
  split_ifs
  · rfl
  · split <;> rfl

/-- The items are taken as the entry says. -/
theorem payExtendedCost_inv : (payExtendedCost w buyer goods crItem stackCount).inv =
    payItems w (priceEntry w crItem) stackCount goods.inv := by
  unfold payExtendedCost priceEntry
  split_ifs
  · rw [payItems_free]
  · cases w.extendedCost crItem.extendedCost with
    | none => rw [getD_none, payItems_free]
    | some iece => rw [getD_some]

/-- The currencies are taken as the entry says. -/
theorem payExtendedCost_currencies :
    (payExtendedCost w buyer goods crItem stackCount).currencies =
      payCurrencies w buyer.toVendorVisit (priceEntry w crItem)
        (fun i => -toI32 (toU32 ((priceEntry w crItem).requiredCurrencyCount i * stackCount)))
        goods.currencies := by
  unfold payExtendedCost priceEntry
  split_ifs
  · rw [payCurrencies_free]
  · cases w.extendedCost crItem.extendedCost with
    | none => rw [getD_none, payCurrencies_free]
    | some iece => rw [getD_some]

/-- The loop that takes the required items makes the inventory smaller. -/
theorem payItems_shrunk {inv : Inventory} (hw : inv.WF w.env)
    (hbag : ∀ i ∈ iece.itemSlots, ∀ proto,
      w.env.template (iece.requiredItem i) = some proto → proto.isBag = false)
    (hloose : ∀ i ∈ iece.itemSlots, inv.looseCount w.env (iece.requiredItem i) < 2 ^ 32) :
    inv.Shrunk w.env (payItems w iece stackCount inv) := by
  have hgen : ∀ (l : List (Fin 5)) (inv' : Inventory), (∀ i ∈ l, i ∈ iece.itemSlots) →
      inv.Shrunk w.env inv' →
      (∀ e, inv'.looseCount w.env e ≤ inv.looseCount w.env e) →
      inv.Shrunk w.env (l.foldl (fun inv i => (inv.destroyItemCount w.env (fun _ _ => true) false
        (iece.requiredItem i) (toU32 (iece.requiredItemCount i * stackCount))).inv) inv') := by
    intro l
    induction l with
    | nil => exact fun inv' _ h _ => h
    | cons i l ih =>
      intro inv' hl h hle
      have hi := hl i mem_cons_self
      have hlt := (hle (iece.requiredItem i)).trans_lt (hloose i hi)
      obtain ⟨-, hown, -, hothers⟩ := Inventory.destroyItemCount_spec (hbag i hi) h.wf
        (fun _ _ => true) (toU32_lt (iece.requiredItemCount i * stackCount)) hlt
      refine ih _ (fun j hj => hl j (mem_cons_of_mem i hj))
        (h.trans (Inventory.destroyItemCount_shrunk (hbag i hi) h.wf _ (toU32_lt _) hlt))
        fun e => ?_
      dsimp only
      rcases eq_or_ne e (iece.requiredItem i) with rfl | hne
      · have hold := hle (iece.requiredItem i)
        omega
      · exact (hothers e hne).1.trans_le (hle e)
  exact hgen _ inv (fun _ h => h) (.refl hw) fun _ => le_refl _

end

/-! ## What is bought -/

section

variable {w : VendorWorld} {sale : ℕ → ItemSale} {buyer : Buyer} {goods : Goods}
  {crItem : VendorItem} {iece : ItemExtendedCostEntry} {item count bag slot : ℕ}

/-- The clamp leaves at least one unit. -/
theorem clampedCount_spec (crItem : VendorItem) (hprice : 0 < (sale item).buyPrice)
    (hlt : (sale item).buyPrice < 2 ^ 31) (hpos : 1 ≤ count) (hcount : count < 2 ^ 8) :
    1 ≤ clampedCount sale crItem item count ∧ clampedCount sale crItem item count ≤ count := by
  unfold clampedCount
  split_ifs
  · have hone : 1 ≤ (maxMoneyAmount : ℤ) / (sale item).buyPrice := by
      rw [Int.le_ediv_iff_mul_le hprice]
      unfold maxMoneyAmount
      omega
    have hword : 1 ≤ toU32 (maxMoneyAmount / (sale item).buyPrice) := by
      -- no quotient is a multiple of the word
      rcases lt_or_ge (sale item).buyPrice 3 with hsmall | hbig
      · obtain h | h : (sale item).buyPrice = 1 ∨ (sale item).buyPrice = 2 := by omega
        all_goals
          rw [h]
          decide
      · have hle : (maxMoneyAmount : ℤ) / (sale item).buyPrice ≤ 3333333333 :=
          Int.ediv_le_of_le_mul hprice (by unfold maxMoneyAmount; omega)
        unfold toU32
        omega
    dsimp only
    split_ifs <;> omega
  · exact ⟨hpos, le_refl _⟩

/-- A word that is the product is the larger one for more stacks. -/
theorem charged_mono {cost : Fin 5 → ℕ} {i : Fin 5} {K k : ℕ} (hk : k ≤ K)
    (hlt : cost i * K < 2 ^ 32) : charged cost k i ≤ charged cost K i := by
  have hmul : cost i * k ≤ cost i * K := Nat.mul_le_mul_left _ hk
  have hword := toU32_of_lt (hmul.trans_lt hlt)
  have hword' := toU32_of_lt hlt
  push_cast at hword hword'
  rw [charged, charged, hword, hword']
  exact hmul

/-- The words that are taken are the products, where those that are checked are covered. -/
theorem min_asks_charged_of_covered {slots : List (Fin 5)} {id cost : Fin 5 → ℕ} {owned : ℕ → ℕ}
    {K k : ℕ} (h : Covered slots id cost count K owned) (hk : k ≤ K)
    (hchecked : ∀ i ∈ slots, charged cost K i ≤ owned (id i)) (key : ℕ) :
    min (asks slots id (charged cost k) key) (owned key) =
      asks slots id (fun i => cost i * k) key := by
  have hmul : ∀ i, cost i * k ≤ cost i * K := fun i => Nat.mul_le_mul_left _ hk
  have hword : asks slots id (charged cost k) key = asks slots id (fun i => cost i * k) key := by
    refine Draws.asked_congr fun i hi _ => ?_
    have hlt := (hmul i).trans_lt (h.lt i hi)
    have hsame := toU32_of_lt hlt
    exact hsame
  rw [hword, Nat.min_eq_left]
  refine (Draws.asked_mono fun i _ _ => hmul i).trans ?_
  by_cases hkey : ∃ i ∈ slots, id i = key
  · obtain ⟨i, hi, rfl⟩ := hkey
    by_cases hone : 1 < (slots.filter fun j => id j = id i).length
    · exact h.several i hi hone
    · have hsame := toU32_of_lt (h.lt i hi)
      rw [Draws.asked_eq_of_unique hi rfl (Nat.le_of_not_lt hone), ← hsame]
      exact hchecked i hi
  · refine (Draws.asked_eq_zero_iff.2 fun d hd hid => ?_).trans_le (Nat.zero_le _)
    obtain ⟨i, hi, rfl⟩ := mem_map.1 hd
    exact absurd ⟨i, hi, hid⟩ hkey

/-- The checks of a row cover what its extended cost entry requires. -/
theorem checkRow_ok {creature : VendorCreature}
    (h : checkRow w sale buyer goods creature crItem item count = .ok ()) :
    (∀ i ∈ (priceEntry w crItem).itemSlots,
        charged (priceEntry w crItem).requiredItemCount (count / (sale item).buyCount) i ≤
          goods.inv.looseCount w.env ((priceEntry w crItem).requiredItem i)) ∧
      ∀ i ∈ (priceEntry w crItem).currencySlots,
        checkCurrency w goods (priceEntry w crItem) (count / (sale item).buyCount)
          (.inventory .itemNotFound) i = .ok () := by
  unfold checkRow at h
  unfold priceEntry
  split_ifs at h ⊢ with hmaxcount hrank hfree hzero hmod
  · simp [itemSlots_free, currencySlots_free]
  · cases hcost : w.extendedCost crItem.extendedCost with
    | none =>
      rw [hcost] at h
      cases h
    | some iece =>
      rw [hcost] at h
      obtain ⟨hitems, hcurrencies⟩ := checkExtendedCost_ok h
      exact ⟨fun i hi => Inventory.le_looseCount (hitems i hi), hcurrencies⟩

end

/-! ## The items -/

namespace Inventory

variable {env : ItemEnv} {inv inv' : Inventory} {bag slot entry count : ℕ}

/-- The place that was found holds the new items, also in a smaller inventory. -/
theorem storeNewItem_of_shrunk (hw : inv.WF env) (hshrunk : inv.Shrunk env inv') (hpos : 1 ≤ count)
    (hlt : count < 2 ^ 32) (hok : (inv.canStoreNewItem env bag slot entry count).res = .ok) :
    (inv'.storeNewItem env (inv.canStoreNewItem env bag slot entry count).dest entry).2.WF env ∧
      ∀ e, total e ((inv'.storeNewItem env
          (inv.canStoreNewItem env bag slot entry count).dest entry).2.getItemByPos env) =
        total e (inv'.getItemByPos env) + if e = entry then count else 0 := by
  unfold canStoreNewItem at *
  obtain ⟨proto, hproto, hplan⟩ := canStoreItem_placed hpos hlt hok
  have hsum : ((inv.canStoreItem env bag slot entry count none false).dest.map Prod.snd).sum =
      count := hplan.sum
  obtain ⟨new, hnew, hempty, hfilled⟩ := storeNewItem_filled hshrunk.wf hproto
    (hpos.trans_eq hsum.symm) hplan.nodup fun it hit pn hpn => hshrunk.takes <|
      (hplan.fits pn hpn).takes hw .new (hit ▸ hproto) (fun _ _ => rfl) fun w hww => nomatch hww
  refine ⟨hfilled.wf, fun e => ?_⟩
  rw [hfilled.total, hsum, hnew]

/-- A position that is free is free in a smaller inventory. -/
theorem Shrunk.free (h : inv.Shrunk env inv') {q : Pos} (hfree : inv.getItemByPos env q = none) :
    inv'.getItemByPos env q = none := by
  cases hq : inv'.getItemByPos env q with
  | none => rfl
  | some it' =>
    obtain ⟨it, hit, -⟩ := h.items q it' hq
    rw [hfree] at hit
    cases hit

end Inventory

/-! ## An exact purchase -/

/-- The units that the player owns, here or in the mail. -/
def Purchase.owned (env : ItemEnv) (p : Purchase) (entry : ℕ) : ℕ :=
  Belongings.owned env ⟨p.goods.inv, p.mailed⟩ entry

/-- Nothing is taken, and nothing is given. Only the check of an equipment slot changes where something
is, when it puts the off-hand away. -/
structure Purchase.Refused (w : VendorWorld) (goods : Goods) (bag slot : ℕ) (p : Purchase) :
    Prop where
  kept : isEquipmentPos bag slot = false → p.goods = goods ∧ p.mailed = []
  money : p.goods.money = goods.money
  currencies : p.goods.currencies = goods.currencies
  owned : ∀ e, p.owned w.env e = total e (goods.inv.getItemByPos w.env)

/-- The player gets `bought` units of the item, and has lost the price in gold where gold is
required, and each required item and currency once for each `BuyCount` of units. -/
structure Purchase.Served (w : VendorWorld) (sale : ItemSale) (crItem : VendorItem)
    (bought : ℕ) (goods : Goods) (p : Purchase) : Prop where
  money : (p.goods.money : ℤ) + (if crItem.isGoldRequired sale then sale.buyPrice * bought else 0) =
    goods.money
  owned : ∀ e, p.owned w.env e +
      asks (priceEntry w crItem).itemSlots (priceEntry w crItem).requiredItem
        (fun i => (priceEntry w crItem).requiredItemCount i * (bought / sale.buyCount)) e =
    total e (goods.inv.getItemByPos w.env) + if e = crItem.item then bought else 0
  currencies : ∀ i ∈ (priceEntry w crItem).currencySlots,
    (currencyRecord p.goods.currencies ((priceEntry w crItem).requiredCurrency i)).totalCount +
        asks (priceEntry w crItem).currencySlots (priceEntry w crItem).requiredCurrency
          (fun i => (priceEntry w crItem).requiredCurrencyCount i * (bought / sale.buyCount))
          ((priceEntry w crItem).requiredCurrency i) =
      (currencyRecord goods.currencies ((priceEntry w crItem).requiredCurrency i)).totalCount

/-- The words hold the products of a price, and what stands at several places of it is there for all
of them. The price in gold, without a discount, is the value of a `float`, and the off-hand that the
check of an equipment slot puts away is no part of the price. -/
structure Fair (w : VendorWorld) (sale : ℕ → ItemSale) (buyer : Buyer) (goods : Goods)
    (crItem : VendorItem) (count bag slot : ℕ) : Prop where
  orderly : Orderly w buyer.toVendorVisit goods (priceEntry w crItem) 0
  gold : crItem.isGoldRequired (sale crItem.item) = true →
    (sale crItem.item).buyPrice * clampedCount sale crItem crItem.item count < 2 ^ 31
  exact : crItem.isGoldRequired (sale crItem.item) = true →
    buyer.discounted
        (toU32 ((sale crItem.item).buyPrice * clampedCount sale crItem crItem.item count)) =
      toU32 ((sale crItem.item).buyPrice * clampedCount sale crItem crItem.item count)
  items : Covered (priceEntry w crItem).itemSlots (priceEntry w crItem).requiredItem
    (priceEntry w crItem).requiredItemCount count (count / (sale crItem.item).buyCount)
    (goods.inv.looseCount w.env)
  currencies : Covered (priceEntry w crItem).currencySlots (priceEntry w crItem).requiredCurrency
    (priceEntry w crItem).requiredCurrencyCount count (count / (sale crItem.item).buyCount)
    fun id => (currencyRecord goods.currencies id).totalCount
  offhand : isEquipmentPos bag slot = true → ∀ i ∈ (priceEntry w crItem).itemSlots,
    (canEquipNewItem w.env buyer.wearer slot crItem.item ⟨goods.inv, []⟩).2.inv.looseCount w.env
        ((priceEntry w crItem).requiredItem i) =
      goods.inv.looseCount w.env ((priceEntry w crItem).requiredItem i)

section

variable {w : VendorWorld} {sale : ℕ → ItemSale} {buyer : Buyer} {goods : Goods}
  {crItem : VendorItem} {count bag slot : ℕ} {creature : VendorCreature}

/-- The gold of a price that is a signed word. -/
theorem payGold_spec (goods : Goods) {price : ℕ} (hmoney : goods.money < 2 ^ 63)
    (hlt : price < 2 ^ 31) (henough : hasEnoughMoney goods.money price = true) :
    (payGold goods price).inv = goods.inv ∧
      (payGold goods price).currencies = goods.currencies ∧
      (payGold goods price).money + price = goods.money := by
  have hle : price ≤ goods.money := of_decide_eq_true henough
  have hword : toI32 price = price := toI32_of_range (by omega) (by omega)
  simp only [payGold, hword, modifyMoney_debit hmoney hle, true_and]
  exact Nat.sub_add_cancel hle

/-- What the inventory that pays has lost, and the currencies. -/
theorem payExtendedCost_spec {paying : Goods} {k : ℕ}
    (hfair : Fair w sale buyer goods crItem count bag slot)
    (hcheck : checkRow w sale buyer goods creature crItem crItem.item count = .ok ())
    (hk : k ≤ count / (sale crItem.item).buyCount) (hw : paying.inv.WF w.env)
    (hsame : ∀ i ∈ (priceEntry w crItem).itemSlots,
      paying.inv.looseCount w.env ((priceEntry w crItem).requiredItem i) =
        goods.inv.looseCount w.env ((priceEntry w crItem).requiredItem i))
    (hcurrency : paying.currencies = goods.currencies) :
    let paid := payExtendedCost w buyer paying crItem k
    paying.inv.Shrunk w.env paid.inv ∧
      (∀ e, total e (paid.inv.getItemByPos w.env) +
          asks (priceEntry w crItem).itemSlots (priceEntry w crItem).requiredItem
            (fun i => (priceEntry w crItem).requiredItemCount i * k) e =
        total e (paying.inv.getItemByPos w.env)) ∧
      ∀ i ∈ (priceEntry w crItem).currencySlots,
        (currencyRecord paid.currencies ((priceEntry w crItem).requiredCurrency i)).totalCount +
            asks (priceEntry w crItem).currencySlots (priceEntry w crItem).requiredCurrency
              (fun i => (priceEntry w crItem).requiredCurrencyCount i * k)
              ((priceEntry w crItem).requiredCurrency i) =
          (currencyRecord goods.currencies
            ((priceEntry w crItem).requiredCurrency i)).totalCount := by
  obtain ⟨hitems, hcurrencies⟩ := checkRow_ok hcheck
  have htotal : ∀ i ∈ (priceEntry w crItem).currencySlots,
      (currencyRecord goods.currencies ((priceEntry w crItem).requiredCurrency i)).totalCount <
        2 ^ 31 := by
    intro i hi
    obtain ⟨e, he⟩ := (checkCurrency_ok (hcurrencies i hi)).1
    have h := (hfair.orderly.records i hi e he).ok.total_lt
    rwa [w.types.id_eq _ _ he] at h
  have hloose : ∀ i ∈ (priceEntry w crItem).itemSlots,
      paying.inv.looseCount w.env ((priceEntry w crItem).requiredItem i) < 2 ^ 32 := fun i hi =>
    (hsame i hi).trans_lt (hfair.orderly.loose i hi)
  dsimp only
  rw [payExtendedCost_inv, payExtendedCost_currencies, hcurrency]
  refine ⟨payItems_shrunk hw hfair.orderly.noBag hloose, fun e => ?_, fun i hi => ?_⟩
  · have hcovered : Covered (priceEntry w crItem).itemSlots (priceEntry w crItem).requiredItem
        (priceEntry w crItem).requiredItemCount count (count / (sale crItem.item).buyCount)
        (paying.inv.looseCount w.env) := by
      refine ⟨hfair.items.free, hfair.items.lt, fun i hi hone => ?_⟩
      rw [hsame i hi]
      exact hfair.items.several i hi hone
    rw [← min_asks_charged_of_covered hcovered hk
      (fun i hi => (hitems i hi).trans_eq (hsame i hi).symm) e]
    exact payItems_balance hw hfair.orderly.noBag hloose e
  · have hchecked : ∀ i ∈ (priceEntry w crItem).currencySlots,
        charged (priceEntry w crItem).requiredCurrencyCount
            (count / (sale crItem.item).buyCount) i ≤
          (currencyRecord goods.currencies
            ((priceEntry w crItem).requiredCurrency i)).totalCount := fun i hi =>
      (checkCurrency_ok (hcurrencies i hi)).2.2
    have hlt : ∀ i ∈ (priceEntry w crItem).currencySlots,
        charged (priceEntry w crItem).requiredCurrencyCount k i < 2 ^ 31 := by
      intro i hi
      have hle := charged_mono hk (hfair.currencies.lt i hi)
      exact (hle.trans (hchecked i hi)).trans_lt (htotal i hi)
    rw [← min_asks_charged_of_covered hfair.currencies hk hchecked]
    refine payCurrencies_balance (fun j hj => ?_) (fun j hj hconquest l hl e he => ?_)
      (fun j hj => (checkCurrency_ok (hcurrencies j hj)).2.1) (fun j hj => ?_) hlt hi
    · obtain ⟨e, he⟩ := (checkCurrency_ok (hcurrencies j hj)).1
      exact ⟨e, he, hfair.orderly.records j hj e he⟩
    · exact hfair.orderly.conquest j hj hconquest _ (.inr ⟨l, hl, rfl⟩) e he
    · have hword : toI32 (charged (priceEntry w crItem).requiredCurrencyCount k j) =
          charged (priceEntry w crItem).requiredCurrencyCount k j :=
        toI32_of_range (by omega) (by exact_mod_cast hlt j hj)
      exact congrArg Neg.neg hword

/-- A purchase ends. It is refused, or served. -/
def Purchase.Exact (w : VendorWorld) (sale : ItemSale) (crItem : VendorItem) (bought : ℕ)
    (goods : Goods) (bag slot : ℕ) (p : Purchase) : Prop :=
  p.error ≠ some .divisionByZero ∧ (p.error ≠ none → p.Refused w goods bag slot) ∧
    (p.error = none → p.Served w sale crItem bought goods)

/-- A purchase that returns the goods as they were is refused. -/
theorem refused_of_goods (error : Option VendorError) :
    Purchase.Refused w goods bag slot ⟨error, goods, []⟩ :=
  ⟨fun _ => ⟨rfl, rfl⟩, rfl, rfl, fun _ => Nat.add_zero _⟩

theorem exact_of_error {e : VendorError} (h : e ≠ .divisionByZero) {sale : ItemSale} {bought : ℕ} :
    Purchase.Exact w sale crItem bought goods bag slot ⟨some e, goods, []⟩ :=
  ⟨fun heq => h (some.inj heq), fun _ => refused_of_goods _, nofun⟩

/-- A price that is asked for is a signed word, and the product. -/
theorem goldPrice_spec (hfair : Fair w sale buyer goods crItem count bag slot)
    (hprice : 0 < (sale crItem.item).buyPrice) :
    goldPrice sale buyer crItem crItem.item (clampedCount sale crItem crItem.item count) < 2 ^ 31 ∧
      (goldPrice sale buyer crItem crItem.item
          (clampedCount sale crItem crItem.item count) : ℤ) =
        if crItem.isGoldRequired (sale crItem.item) then
          (sale crItem.item).buyPrice * clampedCount sale crItem crItem.item count
        else 0 := by
  unfold goldPrice
  by_cases hgold : crItem.isGoldRequired (sale crItem.item) = true
  · rw [if_pos ⟨hgold, hprice⟩, if_pos hgold, hfair.exact hgold]
    have hlt := hfair.gold hgold
    have hpos : 0 ≤ (sale crItem.item).buyPrice * clampedCount sale crItem crItem.item count :=
      mul_nonneg hprice.le (Int.natCast_nonneg _)
    have hword := toU32_of_range hpos (hlt.trans (by norm_num))
    exact ⟨by omega, hword⟩
  · rw [if_neg fun h => hgold h.1, if_neg hgold]
    exact ⟨by norm_num, rfl⟩

section

variable (hbuy : (sale crItem.item).buyCount ≠ 0)
  (hfair : Fair w sale buyer goods crItem count bag slot)
  (hcheck : checkRow w sale buyer goods creature crItem crItem.item count = .ok ())
  (hprice : 0 < (sale crItem.item).buyPrice) (hmoney : goods.money < 2 ^ 63)
  (henough : hasEnoughMoney goods.money (goldPrice sale buyer crItem crItem.item
    (clampedCount sale crItem crItem.item count)) = true)

include hbuy hfair hcheck hprice hmoney henough

/-- Items that go to the inventory. -/
theorem store_exact {bought price : ℕ}
    (hbought : bought = clampedCount sale crItem crItem.item count)
    (hgold : price = goldPrice sale buyer crItem crItem.item bought)
    (hpos : 1 ≤ bought) (hle : bought ≤ count) (hlt : count < 2 ^ 8) :
    (storeOrEquipNewItem w sale buyer goods crItem crItem.item bought bag slot price true).Exact w
      (sale crItem.item) crItem bought goods bag slot := by
  subst hbought
  obtain ⟨hword, hproduct⟩ := goldPrice_spec hfair hprice
  rw [← hgold] at hword hproduct henough
  simp only [storeOrEquipNewItem, pay, if_neg hbuy, if_true]
  obtain ⟨hinv, hcurrency, hpaid⟩ := payGold_spec goods hmoney hword henough
  generalize payGold goods price = paying at hinv hcurrency hpaid ⊢
  split_ifs with hres
  · exact exact_of_error (by simp)
  · rw [not_not] at hres
    refine ⟨nofun, fun h => absurd rfl h, fun _ => ?_⟩
    have hk := Nat.div_le_div_right (c := (sale crItem.item).buyCount) hle
    obtain ⟨hshrunk, hitems, hcurrencies⟩ := payExtendedCost_spec hfair hcheck hk
      (hinv.symm ▸ hfair.orderly.wf) (fun _ _ => by rw [hinv]) hcurrency
    rw [hinv] at hshrunk hitems
    obtain ⟨-, htotal⟩ := Inventory.storeNewItem_of_shrunk hfair.orderly.wf hshrunk hpos
      (hle.trans_lt (hlt.trans (by norm_num))) hres
    refine ⟨?_, fun e => ?_, hcurrencies⟩
    · rw [← hproduct, payExtendedCost_money]
      exact_mod_cast hpaid
    · have hstored := htotal e
      have hlost := hitems e
      simp only [Purchase.owned, Belongings.owned, map_nil, sum_nil]
      omega

/-- An item that is equipped. -/
theorem equip_exact {price : ℕ} (hbought : clampedCount sale crItem crItem.item count = 1)
    (hgold : price = goldPrice sale buyer crItem crItem.item 1) (hpos : 1 ≤ count)
    (hslot : isEquipmentPos bag slot = true) :
    (storeOrEquipNewItem w sale buyer goods crItem crItem.item 1 bag slot price false).Exact w
      (sale crItem.item) crItem 1 goods bag slot := by
  obtain ⟨hword, hproduct⟩ := goldPrice_spec hfair hprice
  rw [hbought] at hword hproduct henough
  rw [← hgold] at hword hproduct henough
  have hend : slot < bankSlotBagEnd := by
    simp only [isEquipmentPos, Bool.and_eq_true, Bool.or_eq_true, decide_eq_true_eq] at hslot
    unfold bankSlotBagEnd
    unfold equipmentSlotEnd at hslot
    omega
  have hkept := hfair.offhand hslot
  obtain ⟨hwf, howned, hfree⟩ := canEquipNewItem_spec (b := ⟨goods.inv, []⟩) buyer.wearer slot
    crItem.item hfair.orderly.wf
  have hfirst : ∀ e, Belongings.owned w.env ⟨goods.inv, []⟩ e =
      total e (goods.inv.getItemByPos w.env) := fun _ => Nat.add_zero _
  simp only [storeOrEquipNewItem, pay, if_neg hbuy, Bool.false_eq_true, if_false]
  generalize canEquipNewItem w.env buyer.wearer slot crItem.item ⟨goods.inv, []⟩ = check at *
  obtain ⟨_ | res, b⟩ := check
  · obtain ⟨⟨proto, hproto⟩, hfree⟩ := hfree rfl
    dsimp only at hwf howned hfree hkept ⊢
    refine ⟨fun h => (some_ne_none _).elim h.symm, fun h => absurd rfl h, fun _ => ?_⟩
    obtain ⟨hinv, hcurrency, hpaid⟩ := payGold_spec { goods with inv := b.inv } hmoney
      hword henough
    generalize payGold { goods with inv := b.inv } price = paying at hinv hcurrency hpaid ⊢
    dsimp only at hinv hcurrency hpaid
    have hk := Nat.div_le_div_right (c := (sale crItem.item).buyCount) hpos
    obtain ⟨hshrunk, hitems, hcurrencies⟩ := payExtendedCost_spec hfair hcheck hk
      (hinv.symm ▸ hwf) (fun i hi => by rw [hinv, hkept i hi]) hcurrency
    rw [hinv] at hshrunk hitems
    obtain ⟨hequipped, htotal⟩ := equipNewItem_spec hshrunk.wf hproto hend (hshrunk.free hfree)
    obtain ⟨-, hauto⟩ := autoUnequipOffhandIfNeed_spec (b := ⟨_, b.mailed⟩) buyer.wearer false
      hequipped
    refine ⟨?_, fun e => ?_, hcurrencies⟩
    · rw [Nat.cast_one] at hproduct
      rw [Nat.cast_one, ← hproduct, payExtendedCost_money]
      exact_mod_cast hpaid
    · have hadded := htotal e
      have hlost := hitems e
      have hbefore := howned e
      rw [hfirst e] at hbefore
      change Belongings.owned w.env (autoUnequipOffhandIfNeed w.env buyer.wearer false ⟨_, _⟩) e +
        _ = _
      rw [hauto e]
      simp only [Belongings.owned] at hbefore ⊢
      rw [hadded]
      omega
  · dsimp only at howned ⊢
    refine ⟨fun h => ?_, fun _ => ⟨fun hnot => ?_, rfl, rfl, fun e =>
      (howned e).trans (hfirst e)⟩, fun h => (some_ne_none _).elim h⟩
    · cases h
    · rw [hslot] at hnot
      cases hnot

end

/-- The checks of a row divide by the `BuyCount` only. -/
theorem checkRow_error (hbuy : (sale crItem.item).buyCount ≠ 0) {e : VendorError}
    (h : checkRow w sale buyer goods creature crItem crItem.item count = .error e) :
    e ≠ .divisionByZero := by
  unfold checkRow at h
  split_ifs at h
  · cases h
    nofun
  · cases h
    nofun
  · cases h
    nofun
  · split at h
    · cases h
      nofun
    · have hmem := checkExtendedCost_error h
      rintro rfl
      simp at hmem

/-- A purchase of a row. -/
theorem buyRow_exact (hbuy : (sale crItem.item).buyCount ≠ 0)
    (hfair : Fair w sale buyer goods crItem count bag slot)
    (hprice : 0 < (sale crItem.item).buyPrice) (hlt : (sale crItem.item).buyPrice < 2 ^ 31)
    (hmoney : goods.money < 2 ^ 63) (hpos : 1 ≤ count) (hcount : count < 2 ^ 8) :
    (buyRow w sale buyer goods creature crItem crItem.item count bag slot).Exact w
      (sale crItem.item) crItem (clampedCount sale crItem crItem.item count) goods bag slot := by
  obtain ⟨hone, hle⟩ := clampedCount_spec crItem hprice hlt hpos hcount
  unfold buyRow
  cases hcheck : checkRow w sale buyer goods creature crItem crItem.item count with
  | error e => exact exact_of_error (checkRow_error hbuy hcheck)
  | ok u =>
    dsimp only
    split_ifs with hpoor hinventory hequipment hbought
    · exact exact_of_error (by simp)
    · exact store_exact hbuy hfair hcheck hprice hmoney (by simpa using hpoor) rfl rfl hone hle
        hcount
    · exact exact_of_error (by simp)
    · rw [not_not] at hbought
      have hexact := equip_exact hbuy hfair hcheck hprice hmoney (by simpa using hpoor) hbought rfl
        hpos hequipment
      rwa [hbought]
    · exact exact_of_error (by simp)

theorem Purchase.Served.money_le {p : Purchase} {bought : ℕ} {sale : ItemSale}
    (h : p.Served w sale crItem bought goods) (hprice : 0 < sale.buyPrice) :
    p.goods.money ≤ goods.money := by
  have hpaid := h.money
  have hnonneg : 0 ≤ sale.buyPrice * bought := mul_nonneg hprice.le (Int.natCast_nonneg _)
  split_ifs at hpaid <;> omega

/-- A purchase is refused at once, or it is one of the row at the slot. -/
theorem buyItem_cases (w : VendorWorld) (sale : ℕ → ItemSale) (buyer : Buyer) (goods : Goods)
    (vendorSlot item count bag slot : ℕ) :
    (∃ e, e ≠ .divisionByZero ∧
      buyItemFromVendorSlot w sale buyer goods vendorSlot item count bag slot =
        ⟨some e, goods, []⟩) ∨
      ∃ creature crItem, buyer.row vendorSlot = some crItem ∧ crItem.item = item ∧
        buyItemFromVendorSlot w sale buyer goods vendorSlot item count bag slot =
          buyRow w sale buyer goods creature crItem item (max count 1) bag slot := by
  have hmax : (if count < 1 then 1 else count) = max count 1 := by
    split_ifs <;> omega
  unfold buyItemFromVendorSlot Buyer.row
  rw [hmax]
  split_ifs
  · exact .inl ⟨_, by simp, rfl⟩
  · exact .inl ⟨_, by simp, rfl⟩
  · exact .inl ⟨_, by simp, rfl⟩
  · cases buyer.creature with
    | none => exact .inl ⟨_, by simp, rfl⟩
    | some creature =>
      rw [bind_some]
      dsimp only
      cases hrow : creature.getItem vendorSlot with
      | none => exact .inl ⟨_, by simp, rfl⟩
      | some crItem =>
        dsimp only
        split_ifs with hitem
        · exact .inl ⟨_, by simp, rfl⟩
        · exact .inr ⟨creature, crItem, rfl, not_not.1 hitem, rfl⟩

end

/-! ## A small vendor of items -/

/-- Entry 25 costs a thousand copper. -/
def smallSale (item : ℕ) : ItemSale :=
  if item = 25 then { buyPrice := 1000 } else {}

/-- Entry 25 for two units of entry 117, then for gold. -/
def smallItemVendor : VendorCreature where
  vendorItems := some [⟨25, 0, 2, 1⟩, ⟨25, 0, 0, 1⟩]

def smallBuyer : Buyer where
  isAlive := true
  creature := some smallItemVendor
  rates := plainRates 1350 arenaCap_ok

def smallPurse : Goods :=
  { smallGoods with money := 5000 }

theorem smallBuyer_fair : Fair smallWorld smallSale smallBuyer smallPurse ⟨25, 0, 0, 1⟩ 1 nullBag
    nullSlot where
  orderly := by
    have hnoItem : (priceEntry smallWorld ⟨25, 0, 0, 1⟩).itemSlots = [] := itemSlots_free
    have hnoCurrency : (priceEntry smallWorld ⟨25, 0, 0, 1⟩).currencySlots = [] :=
      currencySlots_free
    refine ⟨smallInventory_wf, ?_, ?_, ?_, ?_, ?_⟩ <;> simp [hnoItem, hnoCurrency]
  gold := fun _ => by decide
  exact := fun _ => by decide +kernel
  items := by
    have hnoItem : (priceEntry smallWorld ⟨25, 0, 0, 1⟩).itemSlots = [] := itemSlots_free
    refine ⟨?_, ?_, ?_⟩ <;> simp [hnoItem]
  currencies := by
    have hnoCurrency : (priceEntry smallWorld ⟨25, 0, 0, 1⟩).currencySlots = [] :=
      currencySlots_free
    refine ⟨?_, ?_, ?_⟩ <;> simp [hnoCurrency]
  offhand := nofun

end MistyWorld
