import MistyWorld.Keyed
import MistyWorld.Word
import Mathlib.Algebra.BigOperators.Group.Finset.Sigma
import Mathlib.Data.Finset.Prod

/-!
# Items and inventories

A player holds items in the slots of `m_items` : equipment, bags, backpack, bank and bank bags.
A bag has slots of its own. A position is a pair of a bag and a slot, and the bag `255` stands
for the player himself.

The slots of a bag belong to the bag and move with it, so the items are kept in cells : a slot of
the player, or a slot of the bag with a guid. What is at a position is given by `getItemByPos`.
Writing a position changes what is there and, at the slot of a bag, the slots the bag shows
(`getItemByPos_put_of_ne`, `getItemByPos_put`).

`total` counts the units of an entry over all positions. `total_put` says what writing a position
does to it.
-/

open Option Function Word Finset

namespace MistyWorld

/-! ## Slots -/

/-- `INVENTORY_SLOT_BAG_0`. -/
def inventorySlotBag0 : ℕ := 255

/-- `NULL_BAG`. -/
def nullBag : ℕ := 0

/-- `NULL_SLOT`. -/
def nullSlot : ℕ := 255

/-- `EQUIPMENT_SLOT_END` and `INVENTORY_SLOT_BAG_START`. -/
def equipmentSlotEnd : ℕ := 19

/-- `INVENTORY_SLOT_BAG_END` and `INVENTORY_SLOT_ITEM_START`. -/
def inventorySlotItemStart : ℕ := 23

/-- `INVENTORY_SLOT_ITEM_END` and `BANK_SLOT_ITEM_START`. -/
def inventorySlotItemEnd : ℕ := 39

/-- `BANK_SLOT_BAG_END` and `BUYBACK_SLOT_START`. -/
def bankSlotBagEnd : ℕ := 74

/-- `BUYBACK_SLOT_END` and `PLAYER_SLOT_END`. -/
def playerSlotEnd : ℕ := 86

/-- `MAX_BAG_SIZE`. -/
def maxBagSize : ℕ := 36

/-- A bag and a slot, the two bytes of the position of the source. -/
abbrev Pos := ℕ × ℕ

/-- The slots `INVENTORY_SLOT_BAG_START ..` of the carried bags. -/
def bagSlots : List ℕ := List.range' 19 4

/-- The slots `BANK_SLOT_BAG_START ..` of the bank bags. -/
def bankBagSlots : List ℕ := List.range' 67 7

/-- The slot may hold a bag whose slots are in use. -/
def isBagSlot (slot : ℕ) : Bool :=
  slot ∈ bagSlots || slot ∈ bankBagSlots

/-- `Player::IsBagPos`. -/
def isBagPos (pos : Pos) : Bool :=
  pos.1 = inventorySlotBag0 && isBagSlot pos.2

/-- All positions of items, the buyback slots apart. -/
def positions : Finset Pos :=
  {inventorySlotBag0} ×ˢ range bankSlotBagEnd ∪
    (bagSlots ++ bankBagSlots).toFinset ×ˢ range maxBagSize

variable {slot : ℕ}

theorem isBagSlot_lt (h : isBagSlot slot = true) : slot < bankSlotBagEnd := by
  simp only [isBagSlot, bagSlots, bankBagSlots, List.mem_range'_1, Bool.or_eq_true,
    decide_eq_true_eq] at h
  unfold bankSlotBagEnd
  omega

theorem mem_positions_top (h : slot < bankSlotBagEnd) : (inventorySlotBag0, slot) ∈ positions := by
  simp [positions, h]

theorem mem_positions_bag {bag : ℕ} (hb : isBagSlot bag = true) (h : slot < maxBagSize) :
    (bag, slot) ∈ positions := by
  simp only [isBagSlot, Bool.or_eq_true, decide_eq_true_eq] at hb
  simp only [positions, mem_union, mem_product, List.mem_toFinset, List.mem_append, mem_range]
  exact .inr ⟨hb, h⟩

/-! ## Templates and items -/

theorem noSlots_le : 0 ≤ maxBagSize :=
  Nat.zero_le _

theorem oneItem_lt : (1 : ℤ) < 2 ^ 31 := by
  decide

/-- The part of `ItemTemplate` that storing reads. -/
structure ItemTemplate where
  itemId : ℕ
  itemClass : ℕ := 0
  subClass : ℕ := 0
  inventoryType : ℕ := 0
  bagFamily : ℕ := 0
  containerSlots : ℕ := 0
  stackable : ℤ := 1
  maxCount : ℤ := 0
  itemLimitCategory : ℕ := 0
  bonding : ℕ := 0
  /-- `GemProperties` is not zero. -/
  gemProperties : Bool := false
  /-- `Socket[0].Color` is not zero. -/
  socketed : Bool := false
  /-- `ITEM_PROTO_FLAG_BIND_TO_ACCOUNT`. -/
  bindToAccount : Bool := false
  /-- `ITEM_PROTO_FLAG_CONJURED`. -/
  conjured : Bool := false
  containerSlots_le : containerSlots ≤ maxBagSize := by first | exact noSlots_le | decide
  stackable_lt : stackable < 2 ^ 31 := by first | exact oneItem_lt | decide

/-- `ItemTemplate::GetMaxStackSize`. -/
def ItemTemplate.getMaxStackSize (proto : ItemTemplate) : ℕ :=
  if proto.stackable = 2147483647 ∨ proto.stackable ≤ 0 then 0x7FFFFFFE else proto.stackable.toNat

/-- The new item of a template is a bag : `InventoryType` is `INVTYPE_BAG`. -/
def ItemTemplate.isBag (proto : ItemTemplate) : Bool :=
  proto.inventoryType = 18

theorem ItemTemplate.getMaxStackSize_pos (proto : ItemTemplate) : 0 < proto.getMaxStackSize := by
  unfold getMaxStackSize
  split_ifs <;> omega

theorem ItemTemplate.getMaxStackSize_lt (proto : ItemTemplate) : proto.getMaxStackSize < 2 ^ 31 := by
  have := proto.stackable_lt
  unfold getMaxStackSize
  split_ifs <;> omega

/-- `Item`. -/
structure Item where
  guid : ℕ
  entry : ℕ
  count : ℕ
  owner : ℕ := 0
  soulBound : Bool := false
  lootGenerated : Bool := false
  inTrade : Bool := false
  /-- `ITEM_FLAG_BOP_TRADEABLE`, with the players it may be traded to. -/
  bopTradeable : Bool := false
  allowedGUIDs : List ℕ := []
  /-- `IsBoundByEnchant`. -/
  boundByEnchant : Bool := false
  /-- `ITEM_FIELD_EXPIRATION`. -/
  expiration : ℕ := 0
  /-- The entries of the gems in the sockets. -/
  gems : List ℕ := []
  deriving DecidableEq, Repr

/-- The units of an entry at a position. -/
def units (entry : ℕ) : Option Item → ℕ
  | none => 0
  | some it => if it.entry = entry then it.count else 0

/-- The units of an entry over all positions. -/
def total (entry : ℕ) (f : Pos → Option Item) : ℕ :=
  ∑ p ∈ positions, units entry (f p)

/-- `ItemLimitCategoryEntry`. -/
structure ItemLimitCategoryEntry where
  maxCount : ℕ
  /-- `ITEM_LIMIT_CATEGORY_MODE_HAVE`. -/
  modeHave : Bool

/-- The item templates and limit categories. -/
structure ItemEnv where
  template : ℕ → Option ItemTemplate
  template_id : ∀ {i proto}, template i = some proto → proto.itemId = i
  limitCategory : ℕ → Option ItemLimitCategoryEntry := fun _ => none

namespace ItemEnv

variable (env : ItemEnv)

/-- `Item::IsBag`. -/
def isBag (it : Item) : Bool :=
  match env.template it.entry with
  | some proto => proto.isBag
  | none => false

/-- `Bag::GetBagSize`. -/
def bagSize (it : Item) : ℕ :=
  match env.template it.entry with
  | some proto => proto.containerSlots
  | none => 0

theorem bagSize_le (it : Item) : env.bagSize it ≤ maxBagSize := by
  unfold bagSize
  split
  · exact ItemTemplate.containerSlots_le _
  · exact Nat.zero_le _

/-- The stack is within the bounds of its template. -/
def StackOk (it : Item) : Prop :=
  ∃ proto, env.template it.entry = some proto ∧ 1 ≤ it.count ∧ it.count ≤ proto.getMaxStackSize

theorem stackOk_iff (it : Item) :
    env.StackOk it ↔ (env.template it.entry).any
      (fun proto => 1 ≤ it.count && it.count ≤ proto.getMaxStackSize) = true := by
  simp [StackOk, any_eq_true]

instance (it : Item) : Decidable (env.StackOk it) :=
  decidable_of_iff _ (env.stackOk_iff it).symm

end ItemEnv

/-! ## Inventories -/

/-- Where an item is kept : in a slot of the player, or in a slot of the bag with a guid. -/
inductive Cell
  | slot (slot : ℕ)
  | bagSlot (bag slot : ℕ)
  deriving DecidableEq, Repr

/-- The guid of the bag that a cell belongs to. -/
def Cell.bag : Cell → ℕ
  | .slot _ => 0
  | .bagSlot g _ => g

/-- The items of a player, `m_items` and the `m_bagslot` of the bags. -/
structure Inventory where
  owner : ℕ := 1
  cells : Cell → Option Item := fun _ => none
  /-- The next guid that is handed out. -/
  nextGuid : ℕ := 1

namespace Inventory

/-- An inventory with the listed items. -/
def ofList (owner nextGuid : ℕ) (items : List (Cell × Item)) : Inventory where
  owner := owner
  cells := fun c => (Keyed.find Prod.fst items c).map Prod.snd
  nextGuid := nextGuid

variable (env : ItemEnv) (inv : Inventory)

/-- The slots that an item shows when it is at the slot of a bag. -/
def inside (o : Option Item) (slot : ℕ) : Option Item :=
  match o with
  | some it =>
    if env.isBag it && slot < env.bagSize it then inv.cells (.bagSlot it.guid slot) else none
  | none => none

/-- `Player::GetBagByPos`. -/
def getBagByPos (bag : ℕ) : Option Item :=
  if isBagSlot bag then (inv.cells (.slot bag)).filter env.isBag else none

/-- `Player::GetItemByPos`. -/
def getItemByPos (pos : Pos) : Option Item :=
  if pos.1 = inventorySlotBag0 ∧ pos.2 < bankSlotBagEnd then inv.cells (.slot pos.2)
  else
    match inv.getBagByPos env pos.1 with
    | some b => if pos.2 < env.bagSize b then inv.cells (.bagSlot b.guid pos.2) else none
    | none => none

/-- `Item::IsNotEmptyBag`. -/
def isNotEmptyBag (it : Item) : Bool :=
  env.isBag it && (List.range (env.bagSize it)).any fun j => (inv.cells (.bagSlot it.guid j)).isSome

/-- The cell that `_StoreItem` writes for a position. Where the bag is missing it is the slot of the
player. -/
def cellOf (pos : Pos) : Cell :=
  match if pos.1 = inventorySlotBag0 then none else inv.getBagByPos env pos.1 with
  | some b => .bagSlot b.guid pos.2
  | none => .slot pos.2

/-- Write a position. -/
def put (pos : Pos) (o : Option Item) : Inventory :=
  { inv with cells := update inv.cells (inv.cellOf env pos) o }

/-- `Player::RemoveItem`. -/
def removeItem (pos : Pos) : Inventory :=
  if (inv.getItemByPos env pos).isSome then inv.put env pos none else inv

/-- The units of an entry in the slots that an item shows. -/
def carried (entry : ℕ) (o : Option Item) : ℕ :=
  ∑ j ∈ range maxBagSize, units entry (inv.inside env o j)

/-- The units of an entry that an item brings to a position. -/
def weight (entry : ℕ) (p : Pos) (o : Option Item) : ℕ :=
  units entry o + if isBagPos p then inv.carried env entry o else 0

/-- No guid is in two cells and the guids to come are unused. -/
structure Distinct (inv : Inventory) : Prop where
  guid : ∀ {c d it it'}, inv.cells c = some it → inv.cells d = some it' → it.guid = it'.guid → c = d
  fresh : ∀ {c it}, inv.cells c = some it → it.guid < inv.nextGuid
  fresh_bag : ∀ g j, inv.nextGuid ≤ g → inv.cells (.bagSlot g j) = none

/-- The guids are distinct and every stack is within bounds. -/
structure WF (env : ItemEnv) (inv : Inventory) : Prop extends Distinct inv where
  stack : ∀ {c it}, inv.cells c = some it → env.StackOk it

variable {env inv} {p : Pos} {it b : Item} {o : Option Item} {bag : ℕ}

/-- A list of stacks within bounds, with guids of their own. -/
theorem wf_ofList {owner nextGuid : ℕ} {items : List (Cell × Item)}
    (hstack : ∀ x ∈ items, env.StackOk x.2) (hguid : (items.map fun x => x.2.guid).Nodup)
    (hfresh : ∀ x ∈ items, x.2.guid < nextGuid) (hbag : ∀ x ∈ items, x.1.bag < nextGuid) :
    (ofList owner nextGuid items).WF env := by
  have hmem : ∀ {c it}, (ofList owner nextGuid items).cells c = some it → (c, it) ∈ items := by
    intro c it hc
    obtain ⟨⟨c', it'⟩, hfind, rfl⟩ := map_eq_some_iff.1 hc
    obtain ⟨hx, rfl⟩ := Keyed.mem_of_find hfind
    exact hx
  refine ⟨⟨fun hc hd hg => ?_, fun hc => hfresh _ (hmem hc), ?_⟩, fun hc => hstack _ (hmem hc)⟩
  · exact congrArg Prod.fst (List.inj_on_of_nodup_map hguid (hmem hc) (hmem hd) hg)
  · intro g j hg
    cases hc : (ofList owner nextGuid items).cells (.bagSlot g j) with
    | none => rfl
    | some it => exact absurd (hbag _ (hmem hc)) (not_lt.2 hg)

/-! ## Reading -/

theorem getItemByPos_top (h : slot < bankSlotBagEnd) :
    inv.getItemByPos env (inventorySlotBag0, slot) = inv.cells (.slot slot) := by
  simp [getItemByPos, h]

theorem getBagByPos_bag0 : inv.getBagByPos env inventorySlotBag0 = none := by
  have hno : isBagSlot inventorySlotBag0 = false := by decide
  simp [getBagByPos, hno]

theorem ne_bag0_of_isBagSlot (h : isBagSlot bag = true) : bag ≠ inventorySlotBag0 := by
  rintro rfl
  have hno : isBagSlot inventorySlotBag0 = false := by decide
  cases h

theorem getItemByPos_of_ne {pos : Pos} (h : pos.1 ≠ inventorySlotBag0) :
    inv.getItemByPos env pos =
      if isBagSlot pos.1 then inv.inside env (inv.cells (.slot pos.1)) pos.2 else none := by
  rw [getItemByPos, if_neg fun hc => h hc.1, getBagByPos]
  split_ifs with hslot
  · cases hitem : inv.cells (.slot pos.1) with
    | none => rfl
    | some it =>
      by_cases hbag : env.isBag it = true
      · simp [inside, hbag, Option.filter]
      · simp [inside, hbag, Option.filter]
  · rfl

/-- A bag at a bag slot. -/
theorem getBagByPos_eq_some (h : inv.getBagByPos env bag = some b) :
    isBagSlot bag = true ∧ inv.cells (.slot bag) = some b ∧ env.isBag b = true := by
  unfold getBagByPos at h
  split_ifs at h with hslot
  obtain ⟨hitem, hbag⟩ := filter_eq_some_iff.1 h
  exact ⟨hslot, hitem, hbag⟩

theorem getBagByPos_of_cells (hs : isBagSlot bag = true) (h : inv.cells (.slot bag) = some b)
    (hb : env.isBag b = true) : inv.getBagByPos env bag = some b := by
  rw [getBagByPos, if_pos hs, h]
  exact filter_eq_some_iff.2 ⟨rfl, hb⟩

theorem getItemByPos_of_bag (h : inv.getBagByPos env bag = some b) :
    inv.getItemByPos env (inventorySlotBag0, bag) = some b := by
  obtain ⟨hslot, hitem, -⟩ := getBagByPos_eq_some h
  rw [getItemByPos_top (isBagSlot_lt hslot), hitem]

/-- The position exists : a slot of the player, or a slot of a bag that is there. -/
def Usable (env : ItemEnv) (inv : Inventory) (p : Pos) : Prop :=
  (p.1 = inventorySlotBag0 ∧ p.2 < bankSlotBagEnd) ∨
    ∃ b, inv.getBagByPos env p.1 = some b ∧ p.2 < env.bagSize b

theorem usable_top (h : slot < bankSlotBagEnd) : Usable env inv (inventorySlotBag0, slot) :=
  .inl ⟨rfl, h⟩

theorem Usable.mem_positions (h : Usable env inv p) : p ∈ positions := by
  rcases h with ⟨h1, h2⟩ | ⟨b, hb, hj⟩
  · obtain ⟨bag, slot⟩ := p
    subst h1
    exact mem_positions_top h2
  · exact mem_positions_bag (getBagByPos_eq_some hb).1 (lt_of_lt_of_le hj (env.bagSize_le b))

/-- What is at a position exists. -/
theorem usable_of_getItemByPos (h : inv.getItemByPos env p = some it) : Usable env inv p := by
  unfold getItemByPos at h
  split_ifs at h with htop
  · exact .inl htop
  · split at h
    · rename_i b hb
      split_ifs at h with hj
      exact .inr ⟨b, hb, hj⟩
    · cases h

theorem cellOf_top (slot : ℕ) : inv.cellOf env (inventorySlotBag0, slot) = .slot slot := by
  simp [cellOf]

theorem cellOf_bag (h : inv.getBagByPos env bag = some b) :
    inv.cellOf env (bag, slot) = .bagSlot b.guid slot := by
  have hne := ne_bag0_of_isBagSlot (getBagByPos_eq_some h).1
  simp [cellOf, hne, h]

theorem Usable.getItemByPos_eq (h : Usable env inv p) :
    inv.getItemByPos env p = inv.cells (inv.cellOf env p) := by
  obtain ⟨bag, slot⟩ := p
  rcases h with ⟨h1, h2⟩ | ⟨b, hb, hj⟩
  · have hbag : bag = inventorySlotBag0 := h1
    subst hbag
    rw [getItemByPos_top h2, cellOf_top]
  · have hne := ne_bag0_of_isBagSlot (getBagByPos_eq_some hb).1
    rw [cellOf_bag hb]
    simp [getItemByPos, hne, hb, hj]

theorem Distinct.bag_unique (hw : inv.Distinct) {bag' : ℕ} {b' : Item}
    (h : inv.getBagByPos env bag = some b) (h' : inv.getBagByPos env bag' = some b')
    (hg : b'.guid = b.guid) : bag' = bag :=
  Cell.slot.inj (hw.guid (getBagByPos_eq_some h').2.1 (getBagByPos_eq_some h).2.1 hg)

theorem Distinct.cellOf_inj (hw : inv.Distinct) {q : Pos} (hp : Usable env inv p)
    (hq : Usable env inv q) (h : inv.cellOf env p = inv.cellOf env q) : p = q := by
  obtain ⟨pb, ps⟩ := p
  obtain ⟨qb, qs⟩ := q
  rcases hp with ⟨hp1, -⟩ | ⟨b, hb, -⟩ <;> rcases hq with ⟨hq1, -⟩ | ⟨b', hb', -⟩
  · simp only at hp1 hq1
    subst hp1 hq1
    rw [cellOf_top, cellOf_top] at h
    rw [Cell.slot.inj h]
  · simp only at hp1
    subst hp1
    rw [cellOf_top, cellOf_bag hb'] at h
    cases h
  · simp only at hq1
    subst hq1
    rw [cellOf_top, cellOf_bag hb] at h
    cases h
  · rw [cellOf_bag hb, cellOf_bag hb'] at h
    obtain ⟨hg, hs⟩ := Cell.bagSlot.inj h
    exact Prod.ext (hw.bag_unique hb' hb hg) hs

/-- No guid is at two positions. -/
theorem Distinct.pos_unique (hw : inv.Distinct) {q : Pos} {it' : Item}
    (hp : inv.getItemByPos env p = some it) (hq : inv.getItemByPos env q = some it')
    (hg : it.guid = it'.guid) : p = q := by
  have hpu := usable_of_getItemByPos hp
  have hqu := usable_of_getItemByPos hq
  rw [hpu.getItemByPos_eq] at hp
  rw [hqu.getItemByPos_eq] at hq
  exact hw.cellOf_inj hpu hqu (hw.guid hp hq hg)

theorem WF.stack_pos (hw : inv.WF env) (h : inv.getItemByPos env p = some it) : env.StackOk it := by
  rw [(usable_of_getItemByPos h).getItemByPos_eq] at h
  exact hw.stack h

theorem Distinct.fresh_pos (hw : inv.Distinct) (h : inv.getItemByPos env p = some it) :
    it.guid < inv.nextGuid := by
  rw [(usable_of_getItemByPos h).getItemByPos_eq] at h
  exact hw.fresh h

/-! ## The slots a bag shows -/

theorem inside_congr {it' : Item} (hg : it.guid = it'.guid) (he : it.entry = it'.entry) :
    inv.inside env (some it) = inv.inside env (some it') := by
  have hbag : env.isBag it = env.isBag it' := by rw [ItemEnv.isBag, he, ItemEnv.isBag]
  have hsize : env.bagSize it = env.bagSize it' := by rw [ItemEnv.bagSize, he, ItemEnv.bagSize]
  funext j
  simp only [inside, hbag, hsize, hg]

theorem inside_none : inv.inside env none = fun _ => none :=
  rfl

/-- An item that is not a filled bag shows nothing. -/
theorem inside_of_empty (h : inv.isNotEmptyBag env it = false) :
    inv.inside env (some it) = fun _ => none := by
  funext j
  simp only [inside]
  split_ifs with hj
  · simp only [Bool.and_eq_true, decide_eq_true_eq] at hj
    simp only [isNotEmptyBag, hj.1, Bool.true_and, List.any_eq_false, List.mem_range] at h
    simpa using h j hj.2
  · rfl

theorem carried_of_inside {o' : Option Item} (h : inv.inside env o = inv.inside env o') (entry : ℕ) :
    inv.carried env entry o = inv.carried env entry o' := by
  unfold carried
  rw [h]

theorem carried_none (entry : ℕ) : inv.carried env entry none = 0 := by
  simp [carried, inside_none, units]

theorem carried_of_empty (h : inv.isNotEmptyBag env it = false) (entry : ℕ) :
    inv.carried env entry (some it) = 0 := by
  simp [carried, inside_of_empty h, units]

theorem isNotEmptyBag_fresh (hw : inv.Distinct) (h : inv.nextGuid ≤ it.guid) :
    inv.isNotEmptyBag env it = false := by
  simp [isNotEmptyBag, hw.fresh_bag it.guid _ h]

/-! ## Writing -/

theorem getBagByPos_put (h : inv.cellOf env p ≠ .slot bag) :
    (inv.put env p o).getBagByPos env bag = inv.getBagByPos env bag := by
  simp only [getBagByPos, put, update_of_ne h.symm]

theorem cellOf_ne_slot (hp : Usable env inv p) (h : isBagSlot bag = true)
    (hne : isBagPos p = true → bag ≠ p.2) : inv.cellOf env p ≠ .slot bag := by
  obtain ⟨pb, ps⟩ := p
  rcases hp with ⟨hp1, -⟩ | ⟨b, hb, -⟩
  · simp only at hp1
    subst hp1
    intro hc
    obtain rfl := Cell.slot.inj hc
    exact hne (by simp [isBagPos, h]) rfl
  · rw [cellOf_bag hb]
    exact fun hc => Cell.noConfusion hc

theorem getItemByPos_put_self (hp : Usable env inv p) (o : Option Item) :
    (inv.put env p o).getItemByPos env p = o := by
  obtain ⟨bag, slot⟩ := p
  rcases hp with ⟨h1, h2⟩ | ⟨b, hb, hj⟩
  · simp only at h1 h2
    subst h1
    rw [getItemByPos_top h2, put, cellOf_top]
    exact update_self _ _ _
  · have hcell : inv.cellOf env (bag, slot) = .bagSlot b.guid slot := cellOf_bag hb
    have hbag : (inv.put env (bag, slot) o).getBagByPos env bag = some b := by
      rw [getBagByPos_put, hb]
      rw [hcell]
      exact fun hc => Cell.noConfusion hc
    have hne := ne_bag0_of_isBagSlot (getBagByPos_eq_some hb).1
    simp only [getItemByPos, hne, false_and, if_false, hbag, if_pos hj]
    rw [put, hcell]
    exact update_self _ _ _

/-- Writing a position changes no other, those in a bag at that position apart. -/
theorem getItemByPos_put_of_ne (hw : inv.Distinct) {q : Pos} (hp : Usable env inv p)
    (o : Option Item) (hne : q ≠ p) (hbag : isBagPos p = true → q.1 ≠ p.2) :
    (inv.put env p o).getItemByPos env q = inv.getItemByPos env q := by
  by_cases htop : q.1 = inventorySlotBag0
  · obtain ⟨qb, qs⟩ := q
    subst htop
    by_cases hs : qs < bankSlotBagEnd
    · rw [getItemByPos_top hs, getItemByPos_top hs]
      refine update_of_ne (fun hc => hne ?_) _ _
      refine hw.cellOf_inj (usable_top hs) hp ?_
      rw [cellOf_top, hc]
    · simp only [getItemByPos, hs, and_false, if_false, getBagByPos_bag0]
  · rw [getItemByPos, getItemByPos, if_neg fun hc => htop hc.1, if_neg fun hc => htop hc.1]
    by_cases hslot : isBagSlot q.1 = true
    · rw [getBagByPos_put (cellOf_ne_slot hp hslot hbag)]
      cases hb : inv.getBagByPos env q.1 with
      | none => rfl
      | some b =>
        simp only
        split_ifs with hj
        · refine update_of_ne (fun hc => hne ?_) _ _
          refine hw.cellOf_inj (.inr ⟨b, hb, hj⟩) hp ?_
          rw [← hc]
          exact cellOf_bag hb
        · rfl
    · simp only [getBagByPos, if_neg hslot]

/-- Writing the slot of a bag shows the slots of what is written. -/
theorem getItemByPos_put_inside (hs : isBagSlot slot = true) (o : Option Item) (j : ℕ) :
    (inv.put env (inventorySlotBag0, slot) o).getItemByPos env (slot, j) = inv.inside env o j := by
  have hput : inv.put env (inventorySlotBag0, slot) o =
      { inv with cells := update inv.cells (.slot slot) o } := by
    rw [put, cellOf_top]
  rw [getItemByPos_of_ne (ne_bag0_of_isBagSlot hs), if_pos hs, hput]
  simp only [update_self]
  cases o with
  | none => rfl
  | some it => simp [inside]

/-- Writing a position changes what is there and nothing else, if the item that is written at the
slot of a bag shows the same slots as the one that was there. -/
theorem getItemByPos_put (hw : inv.Distinct) (hp : Usable env inv p)
    (h : isBagPos p = true → inv.inside env o = inv.inside env (inv.getItemByPos env p)) :
    (inv.put env p o).getItemByPos env = update (inv.getItemByPos env) p o := by
  funext q
  by_cases hq : q = p
  · rw [hq, getItemByPos_put_self hp, update_self]
  rw [update_of_ne hq]
  by_cases hin : isBagPos p = true ∧ q.1 = p.2
  · obtain ⟨hbp, hq1⟩ := hin
    have hins := h hbp
    obtain ⟨pb, ps⟩ := p
    obtain ⟨qb, qs⟩ := q
    simp only [isBagPos, Bool.and_eq_true, decide_eq_true_eq] at hbp hq1
    obtain ⟨rfl, hslot⟩ := hbp
    subst hq1
    rw [getItemByPos_put_inside hslot, hins, getItemByPos_top (isBagSlot_lt hslot),
      getItemByPos_of_ne (ne_bag0_of_isBagSlot hslot), if_pos hslot]
  · exact getItemByPos_put_of_ne hw hp o hq fun hbp hc => hin ⟨hbp, hc⟩

theorem put_cells {c : Cell} (h : (inv.put env p o).cells c = some it) :
    (c = inv.cellOf env p ∧ o = some it) ∨ (c ≠ inv.cellOf env p ∧ inv.cells c = some it) := by
  by_cases hcell : c = inv.cellOf env p
  · subst hcell
    exact .inl ⟨rfl, by simpa [put] using h⟩
  · exact .inr ⟨hcell, by simpa [put, update_of_ne hcell] using h⟩

theorem Distinct.put (hw : inv.Distinct) (h : ∀ it, o = some it → it.guid < inv.nextGuid ∧
      ∀ c it', inv.cells c = some it' → it'.guid = it.guid → c = inv.cellOf env p) :
    (inv.put env p o).Distinct := by
  refine ⟨?_, ?_, ?_⟩
  · intro c d it it' hc hd hg
    rcases put_cells hc with ⟨hc', ho⟩ | ⟨hc', hc⟩ <;> rcases put_cells hd with ⟨hd', ho'⟩ | ⟨hd', hd⟩
    · rw [hc', hd']
    · exact absurd ((h it ho).2 d it' hd hg.symm) hd'
    · exact absurd ((h it' ho').2 c it hc hg) hc'
    · exact hw.guid hc hd hg
  · intro c it hc
    rcases put_cells hc with ⟨-, ho⟩ | ⟨-, hc⟩
    · exact (h it ho).1
    · exact hw.fresh hc
  · intro g j hg
    have hne : Cell.bagSlot g j ≠ inv.cellOf env p := by
      unfold cellOf
      split
      · rename_i b hb
        have hb' : inv.getBagByPos env p.1 = some b := by
          split_ifs at hb
          exact hb
        have hlt := hw.fresh (getBagByPos_eq_some hb').2.1
        rintro hc
        obtain ⟨rfl, -⟩ := Cell.bagSlot.inj hc
        exact absurd hlt (not_lt.2 hg)
      · exact fun hc => Cell.noConfusion hc
    exact (update_of_ne hne _ _).trans (hw.fresh_bag g j hg)

theorem WF.put (hw : inv.WF env) (h : ∀ it, o = some it → env.StackOk it ∧ it.guid < inv.nextGuid ∧
      ∀ c it', inv.cells c = some it' → it'.guid = it.guid → c = inv.cellOf env p) :
    (inv.put env p o).WF env := by
  refine ⟨hw.toDistinct.put fun it ho => (h it ho).2, fun hc => ?_⟩
  rcases put_cells hc with ⟨-, ho⟩ | ⟨-, hc⟩
  · exact (h _ ho).1
  · exact hw.stack hc

theorem WF.put_none (hw : inv.WF env) (p : Pos) : (inv.put env p none).WF env :=
  hw.put fun _ hc => nomatch hc

theorem WF.removeItem (hw : inv.WF env) (p : Pos) : (inv.removeItem env p).WF env := by
  unfold Inventory.removeItem
  split_ifs
  · exact hw.put_none p
  · exact hw

/-! ## Counting -/

theorem inside_put_top (slot : ℕ) (o o' : Option Item) :
    (inv.put env (inventorySlotBag0, slot) o).inside env o' = inv.inside env o' := by
  funext j
  cases o' with
  | none => rfl
  | some it => simp [inside, put, cellOf_top]

theorem weight_put_top (entry : ℕ) (p : Pos) (slot : ℕ) (o o' : Option Item) :
    (inv.put env (inventorySlotBag0, slot) o).weight env entry p o' = inv.weight env entry p o' := by
  simp only [weight, carried, inside_put_top]

/-- The units of an entry, bag by bag. -/
theorem total_eq_sum_weight (entry : ℕ) :
    total entry (inv.getItemByPos env) =
      ∑ s ∈ range bankSlotBagEnd,
        inv.weight env entry (inventorySlotBag0, s) (inv.cells (.slot s)) := by
  have hdisj : Disjoint ({inventorySlotBag0} ×ˢ range bankSlotBagEnd)
      ((bagSlots ++ bankBagSlots).toFinset ×ˢ range maxBagSize) := by
    refine Finset.disjoint_left.2 fun p hp hq => ?_
    simp only [mem_product, mem_singleton, List.mem_toFinset] at hp hq
    rw [hp.1] at hq
    exact absurd hq.1 (by decide)
  have htop : ∀ s ∈ range bankSlotBagEnd,
      units entry (inv.getItemByPos env (inventorySlotBag0, s)) =
        units entry (inv.cells (.slot s)) := by
    intro s hs
    rw [getItemByPos_top (mem_range.1 hs)]
  have hbag : ∀ b ∈ (bagSlots ++ bankBagSlots).toFinset,
      ∑ j ∈ range maxBagSize, units entry (inv.getItemByPos env (b, j)) =
        if isBagPos (inventorySlotBag0, b) then inv.carried env entry (inv.cells (.slot b)) else 0 := by
    intro b hb
    have hslot : isBagSlot b = true := by
      simpa [isBagSlot] using hb
    rw [if_pos (by simp [isBagPos, hslot]), carried]
    refine sum_congr rfl fun j _ => ?_
    rw [getItemByPos_of_ne (ne_bag0_of_isBagSlot hslot), if_pos hslot]
  have hsub : (bagSlots ++ bankBagSlots).toFinset ⊆ range bankSlotBagEnd := by decide
  have hout : ∀ b ∈ range bankSlotBagEnd, b ∉ (bagSlots ++ bankBagSlots).toFinset →
      (if isBagPos (inventorySlotBag0, b) then inv.carried env entry (inv.cells (.slot b)) else 0) =
        0 := by
    intro b _ hb
    refine if_neg fun hpos => hb ?_
    simpa [isBagPos, isBagSlot] using hpos
  rw [total, positions, sum_union hdisj, sum_product, sum_singleton, sum_product,
    sum_congr rfl htop, sum_congr rfl hbag, sum_subset hsub hout, ← sum_add_distrib]
  rfl

/-- Writing one position of a map. -/
theorem total_update (hp : p ∈ positions) (entry : ℕ) (f : Pos → Option Item) (o : Option Item) :
    total entry (update f p o) + units entry (f p) = total entry f + units entry o :=
  Finset.sum_update_add hp (fun _ => units entry) f o

/-- Writing a position adds what is written, with what it carries, and takes what was there. -/
theorem total_put (hw : inv.Distinct) (hp : Usable env inv p) (entry : ℕ) (o : Option Item) :
    total entry ((inv.put env p o).getItemByPos env) +
        inv.weight env entry p (inv.getItemByPos env p) =
      total entry (inv.getItemByPos env) + inv.weight env entry p o := by
  have huse := hp
  obtain ⟨bag, slot⟩ := p
  rcases hp with ⟨h1, h2⟩ | ⟨b, hb, hj⟩
  · simp only at h1 h2
    subst h1
    have hcells : ∀ s, (inv.put env (inventorySlotBag0, slot) o).cells (.slot s) =
        update (fun s => inv.cells (.slot s)) slot o s := by
      intro s
      rw [put, cellOf_top]
      by_cases hs : s = slot
      · subst hs
        simp
      · simp [hs]
    rw [total_eq_sum_weight, total_eq_sum_weight, getItemByPos_top h2]
    simp only [weight_put_top, hcells]
    exact Finset.sum_update_add (mem_range.2 h2)
      (fun s => inv.weight env entry (inventorySlotBag0, s)) (fun s => inv.cells (.slot s)) o
  · have hno : isBagPos (bag, slot) = false := by
      have hne := ne_bag0_of_isBagSlot (getBagByPos_eq_some hb).1
      simp [isBagPos, hne]
    rw [getItemByPos_put hw huse (by simp [hno])]
    simp only [weight, hno, Bool.false_eq_true, if_false, add_zero]
    exact total_update huse.mem_positions entry _ o

/-! ## In the place of an item -/

/-- An item is put in the place of one with its guid. -/
theorem Distinct.replace (hw : inv.Distinct) {new : Item} (hit : inv.getItemByPos env p = some it)
    (hguid : new.guid = it.guid) : (inv.put env p (some new)).Distinct := by
  refine hw.put fun x hx => ?_
  obtain rfl := some.inj hx
  have hcell := hit
  rw [(usable_of_getItemByPos hit).getItemByPos_eq] at hcell
  exact ⟨hguid ▸ hw.fresh hcell, fun c it' hc hg => hw.guid hc hcell (hg.trans hguid)⟩

theorem WF.replace (hw : inv.WF env) {new : Item} (hit : inv.getItemByPos env p = some it)
    (hguid : new.guid = it.guid) (hok : env.StackOk new) : (inv.put env p (some new)).WF env := by
  refine ⟨hw.toDistinct.replace hit hguid, fun hc => ?_⟩
  rcases put_cells hc with ⟨-, ho⟩ | ⟨-, hc⟩
  · obtain rfl := some.inj ho
    exact hok
  · exact hw.stack hc

/-- A bag keeps its slots. -/
theorem getItemByPos_replace (hw : inv.Distinct) {new : Item}
    (hit : inv.getItemByPos env p = some it) (hguid : new.guid = it.guid)
    (hentry : new.entry = it.entry) :
    (inv.put env p (some new)).getItemByPos env =
      update (inv.getItemByPos env) p (some new) := by
  refine getItemByPos_put hw (usable_of_getItemByPos hit) fun _ => ?_
  rw [hit]
  exact inside_congr hguid hentry

theorem total_replace (hw : inv.Distinct) (hit : inv.getItemByPos env p = some it) (new : Item)
    (hguid : new.guid = it.guid) (hentry : new.entry = it.entry) (entry : ℕ) :
    total entry ((inv.put env p (some new)).getItemByPos env) + units entry (some it) =
      total entry (inv.getItemByPos env) + units entry (some new) := by
  have hput := total_put hw (usable_of_getItemByPos hit) entry (some new)
  have hcarried : inv.carried env entry (some new) = inv.carried env entry (some it) :=
    carried_of_inside (inside_congr hguid hentry) entry
  rw [hit] at hput
  simp only [weight, hcarried] at hput
  omega

theorem removeItem_eq_put (hit : inv.getItemByPos env p = some it) :
    inv.removeItem env p = inv.put env p none := by
  rw [removeItem, hit, if_pos isSome_some]

/-- An item that takes nothing along takes its own units. -/
theorem total_removeItem (hw : inv.Distinct) (hit : inv.getItemByPos env p = some it) (entry : ℕ)
    (hno : isBagPos p = true → inv.carried env entry (some it) = 0) :
    total entry ((inv.removeItem env p).getItemByPos env) + units entry (some it) =
      total entry (inv.getItemByPos env) := by
  have hput := total_put hw (usable_of_getItemByPos hit) entry none
  have hcarried : (if isBagPos p then inv.carried env entry (some it) else 0) = 0 :=
    ite_eq_right_iff.2 hno
  rw [hit] at hput
  simp only [weight, carried_none, hcarried, ite_self, Nat.add_zero] at hput
  rw [removeItem_eq_put hit, hput]
  exact Nat.add_zero _

end Inventory

end MistyWorld
