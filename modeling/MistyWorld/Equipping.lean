import MistyWorld.Placement

/-!
# Equipping new items

`Player::CanEquipNewItem`, `Player::EquipNewItem` and `Player::AutoUnequipOffhandIfNeed`. What the
checks read of the player besides the inventory is a `Wearer`. A check is not free of effects :
`FindEquipSlot` may put the off-hand away while it looks for a slot. The off-hand goes to the
inventory, or is sent by mail when there is no room, so it stays among the belongings of the player
(`unequipOffhand_spec`).
-/

open Word

namespace MistyWorld

/-- `EQUIPMENT_SLOT_OFFHAND` -/
def equipmentSlotOffhand : ℕ := 16

/-- What belongs to a player : the inventory, and what was sent to him by mail. -/
structure Belongings where
  inv : Inventory
  mailed : List Item := []

/-- The units of an entry that belong to a player. -/
def Belongings.owned (env : ItemEnv) (b : Belongings) (entry : ℕ) : ℕ :=
  total entry (b.inv.getItemByPos env) + (b.mailed.map fun it => units entry (some it)).sum

/-- What the checks of `CanEquipItem` read of the player : those before and after `FindEquipSlot`,
the slots that this finds for an item and whether it puts the off-hand away, and whether
`AutoUnequipOffhandIfNeed` has to. -/
structure Wearer where
  checks : Inventory → ItemTemplate → Option InventoryResult := fun _ _ => none
  slots : Inventory → ItemTemplate → List ℕ := fun _ _ => []
  unequips : Inventory → ItemTemplate → Bool := fun _ _ => false
  useChecks : Inventory → ItemTemplate → ℕ → Option InventoryResult := fun _ _ _ => none
  needsHand : Inventory → Bool := fun _ => false

/-- `AutoUnequipOffhandIfNeed`, where it comes to that. -/
def unequipOffhand (env : ItemEnv) (b : Belongings) : Belongings :=
  match b.inv.getItemByPos env (inventorySlotBag0, equipmentSlotOffhand) with
  | none => b
  | some offItem =>
    let check := b.inv.canStoreItem env nullBag nullSlot offItem.entry offItem.count (some offItem)
      false
    let removed := b.inv.removeItem env (inventorySlotBag0, equipmentSlotOffhand)
    if check.res = .ok then
      { b with inv := (Inventory.storeItem env offItem check.dest removed).2 }
    else
      { inv := removed, mailed := offItem :: b.mailed }

/-- `AutoUnequipOffhandIfNeed` -/
def autoUnequipOffhandIfNeed (env : ItemEnv) (wearer : Wearer) (force : Bool) (b : Belongings) :
    Belongings :=
  if force || wearer.needsHand b.inv then unequipOffhand env b else b

/-- `CanEquipNewItem` for a slot that is asked for, without a swap. -/
def canEquipNewItem (env : ItemEnv) (wearer : Wearer) (slot entry : ℕ) (b : Belongings) :
    Option InventoryResult × Belongings :=
  match env.template entry with
  | none => (some .itemNotFound, b)
  | some proto =>
    match wearer.checks b.inv proto with
    | some res => (some res, b)
    | none =>
      let found := if wearer.unequips b.inv proto then
        autoUnequipOffhandIfNeed env wearer true b else b
      if (found.inv.getItemByPos env (inventorySlotBag0, slot)).isSome ∨
          slot ∉ wearer.slots b.inv proto then
        (some .notEquippable, found)
      else
        (wearer.useChecks found.inv proto slot, found)

/-- The binding of `VisualizeItem` : `BIND_WHEN_PICKED_UP`, `BIND_WHEN_EQUIPED` or
`BIND_QUEST_ITEM`. -/
def ItemEnv.bindEquipped (env : ItemEnv) (it : Item) : Item :=
  if (env.template it.entry).any fun proto =>
      proto.bonding = 1 || proto.bonding = 2 || proto.bonding = 4 then
    { it with soulBound := true }
  else it

/-- `EquipNewItem` -/
def equipNewItem (env : ItemEnv) (slot entry : ℕ) (inv : Inventory) : Option Item × Inventory :=
  match inv.createItem env entry 1 with
  | none => (none, inv)
  | some (it, inv') =>
    match inv'.getItemByPos env (inventorySlotBag0, slot) with
    | none =>
      let equipped := env.bindEquipped it
      (some equipped, inv'.put env (inventorySlotBag0, slot) (some equipped))
    | some item2 =>
      let merged := { item2 with count := toU32 (item2.count + it.count) }
      (some merged, inv'.put env (inventorySlotBag0, slot) (some merged))

/-! ## The off-hand -/

section

variable {env : ItemEnv} {b : Belongings}

open Inventory

/-- The off-hand is put away, and nothing is lost. -/
theorem unequipOffhand_spec (hw : b.inv.WF env) :
    (unequipOffhand env b).inv.WF env ∧
      ∀ entry, (unequipOffhand env b).owned env entry = b.owned env entry := by
  unfold unequipOffhand
  split
  · exact ⟨hw, fun _ => rfl⟩
  · next offItem hoff =>
    have hremoved := fun entry => total_removeItem hw.toDistinct hoff entry
      fun hbag : isBagPos (inventorySlotBag0, equipmentSlotOffhand) = true =>
        absurd hbag (by decide)
    obtain ⟨proto, hproto, hone, -⟩ := hw.stack_pos hoff
    have hlt : offItem.count < 2 ^ 32 := by
      obtain ⟨proto', hproto', -, hle⟩ := hw.stack_pos hoff
      have hmax := proto'.getMaxStackSize_lt
      omega
    dsimp only
    split
    · next hok =>
      -- a filled bag finds no place without a slot that is asked for
      have hempty : b.inv.isNotEmptyBag env offItem = false := by
        by_contra hfilled
        have hpos := (canStoreItem_filledBag hone hlt
          (by simpa using hfilled : (some offItem).any (b.inv.isNotEmptyBag env) = true) hok).1
        exact absurd hpos (by decide)
      obtain ⟨_, it, -, hentry, hits, -, hland⟩ := canStoreItem_exact hw
        (.held offItem (inventorySlotBag0, equipmentSlotOffhand) hoff)
        (fun s hs => by rw [← Option.some.inj hs]) hone hlt
        (fun hs : false = true => nomatch hs) (fun s _ hne => absurd rfl hne) hok
      obtain rfl := hits offItem rfl
      refine ⟨hland.wf, fun entry => ?_⟩
      have hempty' : (b.inv.taken env (some (inventorySlotBag0, equipmentSlotOffhand))
          (if false then some (nullBag, nullSlot) else none)).isNotEmptyBag env it = false := by
        by_contra hfilled
        rw [Bool.not_eq_false] at hfilled
        rw [isNotEmptyBag_of_taken hfilled] at hempty
        exact nomatch hempty
      have htotal := hland.total entry
      rw [brought_of_empty hempty', add_zero] at htotal
      have hunits := hremoved entry
      have hcount : units entry (some it) = if entry = it.entry then it.count else 0 :=
        if_congr eq_comm rfl rfl
      simp only [storeSource, taken, takeOut, Bool.false_eq_true, if_false] at htotal
      simp only [Belongings.owned]
      omega
    · refine ⟨hw.removeItem _, fun entry => ?_⟩
      have hunits := hremoved entry
      simp only [Belongings.owned, List.map_cons, List.sum_cons]
      omega

theorem autoUnequipOffhandIfNeed_spec (wearer : Wearer) (force : Bool) (hw : b.inv.WF env) :
    (autoUnequipOffhandIfNeed env wearer force b).inv.WF env ∧
      ∀ entry, (autoUnequipOffhandIfNeed env wearer force b).owned env entry =
        b.owned env entry := by
  unfold autoUnequipOffhandIfNeed
  split_ifs
  · exact unequipOffhand_spec hw
  · exact ⟨hw, fun _ => rfl⟩

/-! ## New items -/

/-- A check takes nothing from the player, and what it finds is free. -/
theorem canEquipNewItem_spec (wearer : Wearer) (slot entry : ℕ) (hw : b.inv.WF env) :
    (canEquipNewItem env wearer slot entry b).2.inv.WF env ∧
      (∀ e, (canEquipNewItem env wearer slot entry b).2.owned env e = b.owned env e) ∧
      ((canEquipNewItem env wearer slot entry b).1 = none →
        (∃ proto, env.template entry = some proto) ∧
        (canEquipNewItem env wearer slot entry b).2.inv.getItemByPos env
          (inventorySlotBag0, slot) = none) := by
  unfold canEquipNewItem
  split
  · exact ⟨hw, fun _ => rfl, nofun⟩
  · next proto hproto =>
    split
    · exact ⟨hw, fun _ => rfl, nofun⟩
    · dsimp only
      have hfound : (if wearer.unequips b.inv proto then
          autoUnequipOffhandIfNeed env wearer true b else b).inv.WF env ∧
          ∀ e, (if wearer.unequips b.inv proto then
            autoUnequipOffhandIfNeed env wearer true b else b).owned env e = b.owned env e := by
        split_ifs
        · exact autoUnequipOffhandIfNeed_spec wearer true hw
        · exact ⟨hw, fun _ => rfl⟩
      generalize (if wearer.unequips b.inv proto then
        autoUnequipOffhandIfNeed env wearer true b else b) = found at hfound ⊢
      split
      · exact ⟨hfound.1, hfound.2, nofun⟩
      · next hfree =>
        rw [not_or, Option.not_isSome_iff_eq_none] at hfree
        exact ⟨hfound.1, hfound.2, fun _ => ⟨⟨proto, hproto⟩, hfree.1⟩⟩

/-- A new item at a free slot. -/
theorem equipNewItem_spec {inv : Inventory} (hw : inv.WF env) {proto : ItemTemplate}
    {slot entry : ℕ} (hproto : env.template entry = some proto) (hslot : slot < bankSlotBagEnd)
    (hfree : inv.getItemByPos env (inventorySlotBag0, slot) = none) :
    (equipNewItem env slot entry inv).2.WF env ∧
      ∀ e, total e ((equipNewItem env slot entry inv).2.getItemByPos env) =
        total e (inv.getItemByPos env) + if e = entry then 1 else 0 := by
  have hcreate : inv.createItem env entry 1 = some
      ({ guid := inv.nextGuid, entry, count := 1, owner := inv.owner }, inv.bump) := by
    have hmin : min 1 proto.getMaxStackSize = 1 := min_eq_left proto.getMaxStackSize_pos
    simp [createItem, hproto, hmin]
  have hfree' : inv.bump.getItemByPos env (inventorySlotBag0, slot) = none := hfree
  unfold equipNewItem
  simp only [hcreate, hfree']
  generalize hnew : env.bindEquipped _ = new
  have hguid : new.guid = inv.nextGuid := by
    rw [← hnew, ItemEnv.bindEquipped]
    split_ifs <;> rfl
  have hentry : new.entry = entry := by
    rw [← hnew, ItemEnv.bindEquipped]
    split_ifs <;> rfl
  have hcount : new.count = 1 := by
    rw [← hnew, ItemEnv.bindEquipped]
    split_ifs <;> rfl
  have hu : Usable env inv.bump (inventorySlotBag0, slot) := usable_top hslot
  refine ⟨hw.bump.put fun it hit => ?_, fun e => ?_⟩
  · cases hit
    have hfresh : new.guid < inv.nextGuid + 1 := by omega
    refine ⟨⟨proto, hentry ▸ hproto, hcount.ge, hcount.trans_le proto.getMaxStackSize_pos⟩,
      hfresh, fun c it' hc hg => ?_⟩
    have hold : it'.guid < inv.nextGuid := hw.fresh hc
    omega
  · have hput := total_put hw.bump.toDistinct hu e (some new)
    have hempty : inv.bump.isNotEmptyBag env new = false := by
      have h : inv.isNotEmptyBag env new = false := isNotEmptyBag_fresh hw.toDistinct hguid.ge
      exact h
    rw [hfree'] at hput
    simp only [weight, carried_none, carried_of_empty hempty, ite_self, add_zero] at hput
    have hunits : units e (some new) = if e = entry then 1 else 0 := by
      rw [units, hentry, hcount]
      exact if_congr eq_comm rfl rfl
    have hbump : inv.bump.getItemByPos env = inv.getItemByPos env := rfl
    have hnone : units e none = 0 := rfl
    rw [hunits, hbump, hnone, add_zero] at hput
    exact hput

end

end MistyWorld
