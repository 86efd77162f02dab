import MistyWorld.Placement

/-!
# Loot

The `Loot` of a corpse or a chest holds items and quest items. `FillLoot` adds what dropped and
lists, for each player, the quest items, the free for all items and the conditional items that
are for him. An item leaves the loot on three ways : `Player::StoreLootItem` takes the item of a
slot, `HandleLootMasterGiveOpcode` gives it to a member of the group, and `CountTheRoll` gives it
to the winner of a roll. `unlootedCount` is kept beside, in 8 bits.

A `Haul` is a loot with the inventories of the players, and a history of what was put into them.
What a player may see of the loot depends on his quests, skills and conditions at the time of a
call (`Looter`).
-/

open Word FirstFit

namespace MistyWorld

/-- `MAX_NR_LOOT_ITEMS`. -/
def maxNrLootItems : ℕ := 16

/-- `MAX_NR_QUEST_ITEMS`. -/
def maxNrQuestItems : ℕ := 32

/-- `LootMethod`. -/
inductive LootMethod
  | freeForAll
  | roundRobin
  | masterLoot
  | groupLoot
  | needBeforeGreed
  deriving DecidableEq, Repr

/-- The part of `ItemTemplate` that looting reads. -/
structure LootProto where
  quality : ℕ := 0
  /-- `ITEM_PROTO_FLAG_PARTY_LOOT`. -/
  partyLoot : Bool := false
  /-- `ITEM_FLAGS_CU_FOLLOW_LOOT_RULES`. -/
  followLootRules : Bool := false
  /-- `ITEM_FLAGS_CU_IGNORE_QUEST_STATUS`. -/
  ignoreQuestStatus : Bool := false
  /-- `ITEM_PROTO_FLAG_SMART_LOOT`. -/
  smartLoot : Bool := false
  requiredSkill : ℕ := 0
  /-- `Spells[1].SpellId`, the spell that a recipe teaches. -/
  taughtSpell : ℕ := 0
  /-- `ITEM_FLAGS_EXTRA_HORDE_ONLY`. -/
  hordeOnly : Bool := false
  /-- `ITEM_FLAGS_EXTRA_ALLIANCE_ONLY`. -/
  allianceOnly : Bool := false
  startQuest : ℕ := 0
  /-- `IsCurrencyToken`. -/
  currencyToken : Bool := false
  disenchantId : ℕ := 0
  requiredDisenchantSkill : ℕ := 0
  /-- `ITEM_FLAGS_EXTRA_NEED_ROLL_DISABLED`. -/
  needRollDisabled : Bool := false

/-- The item templates, and what looting reads of them. -/
structure LootEnv where
  items : ItemEnv
  proto : ℕ → LootProto := fun _ => {}

/-- `LootItem`. -/
structure LootItem where
  itemid : ℕ
  count : ℕ
  conditions : List ℕ := []
  allowedGUIDs : List ℕ := []
  isLooted : Bool := false
  isBlocked : Bool := false
  freeforall : Bool := false
  isUnderthreshold : Bool := false
  isCounted : Bool := false
  needsQuest : Bool := false
  followLootRules : Bool := false
  deriving DecidableEq, Repr

/-- `QuestItem` : the index of an item that is listed for a player. -/
structure QuestItem where
  index : ℕ
  isLooted : Bool := false
  deriving DecidableEq, Repr

/-- The lists of the players, `QuestItemMap`, by the low guid of the player. -/
abbrev QuestItemMap := List (ℕ × List QuestItem)

/-- `Loot`. -/
structure Loot where
  items : List LootItem := []
  questItems : List LootItem := []
  gold : ℕ := 0
  unlootedCount : ℕ := 0
  roundRobinPlayer : ℕ := 0
  playerQuestItems : QuestItemMap := []
  playerFFAItems : QuestItemMap := []
  playerConditionalItems : QuestItemMap := []
  deriving DecidableEq, Repr

/-- A player at the time of a call. -/
structure Looter where
  guid : ℕ
  /-- `IsObjectMeetToConditions`. -/
  meets : List ℕ → Bool := fun _ => false
  hasSkill : ℕ → Bool := fun _ => false
  hasSpell : ℕ → Bool := fun _ => false
  horde : Bool := false
  /-- The status of the quest is not `QUEST_STATUS_NONE`. -/
  hasQuestStatus : ℕ → Bool := fun _ => false
  hasQuestForItem : ℕ → Bool := fun _ => false
  /-- The loot method of his group, and `GetLooterGuid`. -/
  group : Option (LootMethod × ℕ) := none

/-- `LootItem::AllowedForPlayer`. -/
def LootItem.allowedForPlayer (env : LootEnv) (player : Looter) (item : LootItem) : Bool :=
  let proto := env.proto item.itemid
  (item.conditions.isEmpty || player.meets item.conditions) &&
    (env.items.template item.itemid).isSome &&
    !(proto.smartLoot && (!player.hasSkill proto.requiredSkill || player.hasSpell proto.taughtSpell)) &&
    !(proto.hordeOnly && !player.horde) && !(proto.allianceOnly && player.horde) &&
    !(!proto.ignoreQuestStatus &&
      (item.needsQuest || (proto.startQuest ≠ 0 && player.hasQuestStatus proto.startQuest)) &&
      !player.hasQuestForItem item.itemid)

/-- An item that follows the loot rules is shown to the members of a group, under master loot to
the master looter only. -/
def LootItem.shownByRules (player : Looter) (item : LootItem) : Bool :=
  item.followLootRules &&
    match player.group with
    | none => false
    | some (method, looterGuid) => method ≠ .masterLoot || looterGuid = player.guid

/-- `LootItem::AddAllowedLooter`. -/
def LootItem.addAllowedLooter (guid : ℕ) (item : LootItem) : LootItem :=
  if guid ∈ item.allowedGUIDs then item
  else { item with allowedGUIDs := guid :: item.allowedGUIDs }

/-! ## Lists of the players -/

namespace QuestItemMap

/-- `QuestItemMap::find`. -/
def find (m : QuestItemMap) (guid : ℕ) : Option (List QuestItem) :=
  (Keyed.find Prod.fst m guid).map Prod.snd

/-- Add the list of a player, unless it is empty. -/
def add (m : QuestItemMap) (guid : ℕ) (ql : List QuestItem) : QuestItemMap :=
  if ql.isEmpty then m else m ++ [(guid, ql)]

/-- Change the list of a player. -/
def modify (m : QuestItemMap) (guid : ℕ) (f : List QuestItem → List QuestItem) : QuestItemMap :=
  m.map fun e => if e.1 = guid then (e.1, f e.2) else e

end QuestItemMap

/-- The first entry for an index of `items`. -/
def entryAt (ql : List QuestItem) (index : ℕ) : Option QuestItem :=
  ql.find? fun q => q.index = index

/-- Mark the first entry for an index as looted. -/
def lootIndex (index : ℕ) : List QuestItem → List QuestItem
  | [] => []
  | q :: ql => if q.index = index then { q with isLooted := true } :: ql else q :: lootIndex index ql

/-- Mark the entry at a place of the list as looted. -/
def lootPlace (j : ℕ) (ql : List QuestItem) : List QuestItem :=
  ql.modify j fun q => { q with isLooted := true }

namespace Loot

variable (env : LootEnv) (loot : Loot) {item : LootItem}

/-- `isLooted`. -/
def isLooted : Bool :=
  loot.gold = 0 && loot.unlootedCount = 0

/-- `++unlootedCount`. -/
def count : Loot :=
  { loot with unlootedCount := toU8 (loot.unlootedCount + 1 : ℕ) }

/-- `--unlootedCount`. -/
def uncount : Loot :=
  { loot with unlootedCount := toU8 (loot.unlootedCount + 255 : ℕ) }

/-! ## Filling -/

/-- `LootStoreItem`. -/
structure StoreItem where
  itemid : ℕ
  needsQuest : Bool := false
  conditions : List ℕ := []

/-- The constructor of `LootItem`. -/
def newItem (si : StoreItem) (count : ℕ) : LootItem where
  itemid := si.itemid
  count := count
  conditions := si.conditions
  freeforall := (env.items.template si.itemid).isSome && (env.proto si.itemid).partyLoot
  followLootRules := (env.items.template si.itemid).isSome && (env.proto si.itemid).followLootRules
  needsQuest := si.needsQuest

/-- Add an item to the list that `AddItem` fills, and count it unless that is done when the lists
of the players are filled. -/
def push (si : StoreItem) (item : LootItem) : Loot :=
  if si.needsQuest then { loot with questItems := loot.questItems ++ [item] }
  else
    let loot' := { loot with items := loot.items ++ [item] }
    if si.conditions.isEmpty && !(env.proto si.itemid).partyLoot then loot'.count else loot'

/-- The loop of `AddItem` over the stacks. -/
def addStacks (si : StoreItem) (maxStack : ℕ) : ℕ → ℕ → Loot → Loot
  | 0, _, loot => loot
  | n + 1, count, loot =>
    if (if si.needsQuest then loot.questItems.length < maxNrQuestItems
      else loot.items.length < maxNrLootItems) then
      addStacks si maxStack n (count - maxStack)
        (loot.push env si (newItem env si (min count maxStack)))
    else loot

theorem oneDrop_lt : 1 < 256 := by
  decide

theorem fiveDrops_lt : 5 < 256 := by
  decide

/-- `Loot::AddItem`, with the count that was drawn. -/
def addItem (si : StoreItem) (count : Fin 256) : Loot :=
  match env.items.template si.itemid with
  | none => loot
  | some proto =>
    let maxStack := proto.getMaxStackSize
    let numStacks := count / maxStack + if (count : ℕ) % maxStack ≠ 0 then 1 else 0
    addStacks env si maxStack numStacks count loot

/-- The loop of `FillFFALoot`. -/
def fillFFA (player : Looter) : List ℕ → List QuestItem → Loot → Loot × List QuestItem
  | [], ql, loot => (loot, ql)
  | i :: is, ql, loot =>
    if loot.items[i]?.any fun item =>
      !item.isLooted && item.freeforall && item.allowedForPlayer env player then
      fillFFA player is (ql ++ [⟨i, false⟩]) loot.count
    else fillFFA player is ql loot

/-- `Loot::FillFFALoot`. -/
def fillFFALoot (player : Looter) : Loot :=
  let r := fillFFA env player (List.range loot.items.length) [] loot
  { r.1 with playerFFAItems := r.1.playerFFAItems.add player.guid r.2 }

/-- A quest item gets blocked when it first appears in the list of a player, but not under group
loot or round robin. -/
def blocksQuestItems (player : Looter) : Bool :=
  match player.group with
  | none => true
  | some (method, _) => method ≠ .groupLoot && method ≠ .roundRobin

/-- The loop of `FillQuestLoot`. -/
def fillQuest (player : Looter) : List ℕ → List QuestItem → Loot → Loot × List QuestItem
  | [], ql, loot => (loot, ql)
  | i :: is, ql, loot =>
    match loot.questItems[i]? with
    | none => fillQuest player is ql loot
    | some item =>
      if !item.isLooted && (item.allowedForPlayer env player || item.shownByRules player) then
        let loot₁ := if item.freeforall || !item.isBlocked then loot.count else loot
        let loot₂ := if blocksQuestItems player then
          { loot₁ with questItems := loot₁.questItems.set i { item with isBlocked := true } }
          else loot₁
        if loot.items.length + (ql.length + 1) = maxNrLootItems then (loot₂, ql ++ [⟨i, false⟩])
        else fillQuest player is (ql ++ [⟨i, false⟩]) loot₂
      else fillQuest player is ql loot

/-- `Loot::FillQuestLoot`. -/
def fillQuestLoot (player : Looter) : Loot :=
  if loot.items.length = maxNrLootItems then loot
  else
    let r := fillQuest env player (List.range loot.questItems.length) [] loot
    { r.1 with playerQuestItems := r.1.playerQuestItems.add player.guid r.2 }

/-- The loop of `FillNonQuestNonFFAConditionalLoot`. -/
def fillConditional (player : Looter) (presentAtLooting : Bool) :
    List ℕ → List QuestItem → Loot → Loot × List QuestItem
  | [], ql, loot => (loot, ql)
  | i :: is, ql, loot =>
    match loot.items[i]? with
    | none => fillConditional player presentAtLooting is ql loot
    | some item =>
      if !item.isLooted && !item.freeforall &&
        (item.allowedForPlayer env player || item.shownByRules player) then
        let item₁ := if presentAtLooting then item.addAllowedLooter player.guid else item
        if item.conditions.isEmpty then
          fillConditional player presentAtLooting is ql
            { loot with items := loot.items.set i item₁ }
        else
          let loot₁ := if item.isCounted then loot else loot.count
          fillConditional player presentAtLooting is (ql ++ [⟨i, false⟩])
            { loot₁ with items := loot₁.items.set i { item₁ with isCounted := true } }
      else fillConditional player presentAtLooting is ql loot

/-- `Loot::FillNonQuestNonFFAConditionalLoot`. -/
def fillNonQuestNonFFAConditionalLoot (player : Looter) (presentAtLooting : Bool) : Loot :=
  let r := fillConditional env player presentAtLooting (List.range loot.items.length) [] loot
  { r.1 with playerConditionalItems := r.1.playerConditionalItems.add player.guid r.2 }

/-- The lists of a player that has none yet. -/
def fillLists (player : Looter) (presentAtLooting : Bool) : Loot :=
  let loot₁ := if (loot.playerQuestItems.find player.guid).isNone then loot.fillQuestLoot env player
    else loot
  let loot₂ := if (loot₁.playerFFAItems.find player.guid).isNone then loot₁.fillFFALoot env player
    else loot₁
  if (loot₂.playerConditionalItems.find player.guid).isNone then
    loot₂.fillNonQuestNonFFAConditionalLoot env player presentAtLooting
  else loot₂

/-- `GetMaxSlotInLootFor`. -/
def getMaxSlotInLootFor (guid : ℕ) : ℕ :=
  loot.items.length + ((loot.playerQuestItems.find guid).getD []).length

/-! ## The item of a slot -/

/-- A piece of the loot : an item or a quest item, by its index. -/
inductive Piece
  | item (i : ℕ)
  | quest (i : ℕ)
  deriving DecidableEq, Repr

/-- The entry that `LootItemInSlot` finds in the lists of the player : `qitem`, by its place in the
list, `ffaitem` or `conditem`. -/
inductive Entry
  | none
  | quest (j : ℕ)
  | ffa
  | cond
  deriving DecidableEq, Repr

/-- What `LootItemInSlot` returns. -/
structure Found where
  piece : Piece
  item : LootItem
  entry : Entry

/-- The item of a piece. -/
def pieceItem : Piece → Option LootItem
  | .item i => loot.items[i]?
  | .quest i => loot.questItems[i]?

/-- Write the item of a piece. -/
def setPiece (item : LootItem) : Piece → Loot
  | .item i => { loot with items := loot.items.set i item }
  | .quest i => { loot with questItems := loot.questItems.set i item }

/-- The entry for an item in a list of the player. -/
def listed (m : QuestItemMap) (guid lootSlot : ℕ) : Option QuestItem :=
  (m.find guid).bind fun ql => entryAt ql lootSlot

/-- The entry that decides whether an item of `items` is looted. -/
def itemEntry (guid lootSlot : ℕ) (item : LootItem) : Entry × Bool :=
  if item.freeforall then
    match listed loot.playerFFAItems guid lootSlot with
    | some q => (.ffa, q.isLooted)
    | none => (.none, item.isLooted)
  else if !item.conditions.isEmpty then
    match listed loot.playerConditionalItems guid lootSlot with
    | some q => (.cond, q.isLooted)
    | none => (.none, item.isLooted)
  else (.none, item.isLooted)

/-- `Loot::LootItemInSlot`. -/
def lootItemInSlot (lootSlot guid : ℕ) : Option Found :=
  match loot.items[lootSlot]? with
  | none =>
    let questSlot := lootSlot - loot.items.length
    match (loot.playerQuestItems.find guid).bind fun ql => ql[questSlot]? with
    | none => none
    | some q =>
      if q.isLooted then none
      else loot.questItems[q.index]?.map fun item => ⟨.quest q.index, item, .quest questSlot⟩
  | some item =>
    let entry := loot.itemEntry guid lootSlot item
    if entry.2 then none else some ⟨.item lootSlot, item, entry.1⟩

/-- What `LootItemInSlot` finds : a quest item that the player has an entry for, or the item of the
slot with an entry that is not looted. -/
theorem lootItemInSlot_cases {loot : Loot} {lootSlot guid : ℕ} {f : Found}
    (h : loot.lootItemInSlot lootSlot guid = some f) :
    (∃ ql q j, loot.items[lootSlot]? = none ∧ loot.playerQuestItems.find guid = some ql ∧
      ql[j]? = some q ∧ q.isLooted = false ∧ f.piece = .quest q.index ∧ f.entry = .quest j ∧
      loot.questItems[q.index]? = some f.item) ∨
    (loot.items[lootSlot]? = some f.item ∧ f.piece = .item lootSlot ∧
      loot.itemEntry guid lootSlot f.item = (f.entry, false)) := by
  unfold lootItemInSlot at h
  cases hitem : loot.items[lootSlot]? with
  | none =>
    rw [hitem] at h
    simp only at h
    cases hq : (loot.playerQuestItems.find guid).bind fun ql => ql[lootSlot - loot.items.length]? with
    | none => rw [hq] at h; cases h
    | some q =>
      rw [hq] at h
      obtain ⟨ql, hfind, hget⟩ := Option.bind_eq_some_iff.1 hq
      simp only at h
      split at h
      · cases h
      · rename_i hlooted
        obtain ⟨item, hquest, rfl⟩ := Option.map_eq_some_iff.1 h
        exact .inl ⟨ql, q, _, rfl, hfind, hget, by simpa using hlooted, rfl, rfl, hquest⟩
  | some item =>
    rw [hitem] at h
    simp only at h
    split at h
    · cases h
    · rename_i hlooted
      cases h
      exact .inr ⟨rfl, rfl, Prod.ext rfl (by simpa using hlooted)⟩

/-- The entry for a free for all item. -/
theorem itemEntry_of_freeforall {loot : Loot} {guid k : ℕ} (h : item.freeforall = true) :
    loot.itemEntry guid k item =
      match listed loot.playerFFAItems guid k with
      | some q => (.ffa, q.isLooted)
      | none => (.none, item.isLooted) :=
  if_pos h

/-- The entry for another item. -/
theorem itemEntry_cases {loot : Loot} {guid k : ℕ} (h : item.freeforall = false) :
    loot.itemEntry guid k item = (.none, item.isLooted) ∨
      ∃ q, item.conditions.isEmpty = false ∧ listed loot.playerConditionalItems guid k = some q ∧
        loot.itemEntry guid k item = (.cond, q.isLooted) := by
  unfold itemEntry
  rw [if_neg (by simp [h])]
  split_ifs with hcond
  · cases listed loot.playerConditionalItems guid k with
    | none => exact .inl rfl
    | some q => exact .inr ⟨q, by simpa using hcond, rfl, rfl⟩
  · exact .inl rfl

theorem itemEntry_ne_quest {loot : Loot} {guid k : ℕ} {e : Entry} {b : Bool}
    (h : loot.itemEntry guid k item = (e, b)) (j : ℕ) : e ≠ .quest j := by
  rintro rfl
  rcases Bool.eq_false_or_eq_true item.freeforall with hffa | hffa
  · rw [itemEntry_of_freeforall hffa] at h
    cases hlisted : listed loot.playerFFAItems guid k <;> rw [hlisted] at h <;> cases h
  · rcases itemEntry_cases hffa with heq | ⟨q, -, -, heq⟩ <;> cases h.symm.trans heq

/-- Mark the entry of the player as looted. -/
def lootEntry (guid lootSlot : ℕ) : Entry → Loot
  | .none => loot
  | .quest j => { loot with playerQuestItems := loot.playerQuestItems.modify guid (lootPlace j) }
  | .ffa => { loot with playerFFAItems := loot.playerFFAItems.modify guid (lootIndex lootSlot) }
  | .cond =>
    { loot with
      playerConditionalItems := loot.playerConditionalItems.modify guid (lootIndex lootSlot) }

/-- Mark what `StoreLootItem` has handed out. -/
def markLooted (guid lootSlot : ℕ) (f : Found) : Loot :=
  let loot₁ := loot.lootEntry guid lootSlot f.entry
  let loot₂ := if f.item.freeforall then loot₁
    else loot₁.setPiece { f.item with isLooted := true } f.piece
  loot₂.uncount

end Loot

/-! ## Hauls -/

/-- Units of an item that were put into an inventory. -/
structure Handout where
  piece : Loot.Piece
  player : ℕ
  units : ℕ
  deriving DecidableEq, Repr

/-- A loot, the inventories of the players, and what was put into them, newest first. -/
structure Haul where
  loot : Loot
  invs : ℕ → Inventory
  handed : List Handout := []

namespace Haul

variable (env : LootEnv) (h : Haul)

/-- `CanStoreNewItem` and `StoreNewItem` for the item of a piece. No item is created for no
units. -/
def giveItem (piece : Loot.Piece) (guid itemid count : ℕ) : Option Haul :=
  let inv := h.invs guid
  let check := inv.canStoreItem env.items nullBag nullSlot itemid count none false
  if check.res = .ok then
    let units := (check.dest.map Prod.snd).sum
    some { h with
      invs := Function.update h.invs guid (inv.storeNewItem env.items check.dest itemid).2
      handed := if units = 0 then h.handed else ⟨piece, guid, units⟩ :: h.handed }
  else none

/-- The haul with another loot. -/
def withLoot (loot : Loot) : Haul :=
  { h with loot }

/-- `Player::StoreLootItem`. -/
def storeLootItem (guid lootSlot : ℕ) : Haul :=
  match h.loot.lootItemInSlot lootSlot guid with
  | none => h
  | some f =>
    if (match f.entry with | .quest _ => false | _ => f.item.isBlocked) then h
    else
      match h.giveItem env f.piece guid f.item.itemid f.item.count with
      | none => h
      | some h' => h'.withLoot (h.loot.markLooted guid lootSlot f)

/-- A request of `HandleLootMasterGiveOpcode` : the group of the sender, and the target if he is
online. -/
structure MasterGive where
  sender : ℕ
  group : Option (LootMethod × ℕ)
  slotid : ℕ
  target : Option Looter

/-- The piece at a slot of the master looter. -/
def pieceOfSlot (slotid : ℕ) : Loot.Piece :=
  if slotid ≥ h.loot.items.length then .quest (slotid - h.loot.items.length) else .item slotid

/-- `WorldSession::HandleLootMasterGiveOpcode`. -/
def masterGive (r : MasterGive) : Haul :=
  match r.group, r.target with
  | some (_, looterGuid), some target =>
    if looterGuid ≠ r.sender then h
    else
      match h.loot.pieceItem (h.pieceOfSlot r.slotid) with
      | none => h
      | some item =>
        if item.followLootRules && !item.allowedForPlayer env target then h
        else
          match h.giveItem env (h.pieceOfSlot r.slotid) target.guid item.itemid item.count with
          | none => h
          | some h' =>
            h'.withLoot (h.loot.setPiece { item with count := 0, isLooted := true }
              (h.pieceOfSlot r.slotid)).uncount
  | _, _ => h

/-- The loop of `FillNotNormalLootFor` over the currency items. -/
def storeCurrency (player : Looter) : List ℕ → Haul → Haul
  | [], h => h
  | i :: is, h =>
    if (h.loot.pieceItem (h.pieceOfSlot i)).any fun item =>
      !item.isLooted && item.freeforall && item.allowedForPlayer env player &&
        (env.proto item.itemid).currencyToken then
      storeCurrency player is (h.storeLootItem env player.guid i)
    else storeCurrency player is h

/-- `Loot::FillNotNormalLootFor`. -/
def fillNotNormalLootFor (player : Looter) (presentAtLooting : Bool) : Haul :=
  let h₁ := h.withLoot (h.loot.fillLists env player presentAtLooting)
  if presentAtLooting then
    storeCurrency env player (List.range (h₁.loot.getMaxSlotInLootFor player.guid)) h₁
  else h₁

/-- Items below the threshold of the group. -/
def markThreshold (threshold : ℕ) : Haul :=
  h.withLoot { h.loot with
    items := h.loot.items.map fun item =>
      if (env.items.template item.itemid).isSome && (env.proto item.itemid).quality < threshold then
        { item with isUnderthreshold := true }
      else item }

/-- `Loot::FillLoot` : what dropped, and the players whose lists are filled with whether they are
present, the owner alone for a personal loot. -/
def fillLoot (drops : List (Loot.StoreItem × Fin 256)) (owner : Looter)
    (members : Option (List (Looter × Bool) × ℕ)) : Haul :=
  let h₁ := h.withLoot (drops.foldl (fun loot d => loot.addItem env d.1 d.2) h.loot)
  match members with
  | none => h₁.fillNotNormalLootFor env owner true
  | some (players, threshold) =>
    let h₂ := h₁.withLoot { h₁.loot with roundRobinPlayer := owner.guid }
    (players.foldl (fun h p => h.fillNotNormalLootFor env p.1 p.2) h₂).markThreshold env threshold

end Haul

end MistyWorld
