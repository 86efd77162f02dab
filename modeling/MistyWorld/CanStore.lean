import MistyWorld.FirstFit
import MistyWorld.Inventory

/-!
# Where an item can be stored

`Player::CanStoreItem` looks for positions for a number of units of an entry. It asks for the
requested slot first, then for the requested bag, then for stacks to fill and free slots in the
backpack and in the bags. Each of these searches is a `Phase` that gets the destinations found so
far and the units still to be placed (a `Plan`). A `required` phase ends the search when it fails,
an `optional` one does not, and the search is over when all units are placed.

`Player::CanBankItem` is the same search over the slots of the bank, and both are made of
`inBagPhases` and `anywherePhases`.
-/

open List Word FirstFit

namespace MistyWorld

/-- `InventoryResult`. -/
inductive InventoryResult
  | ok
  | bagInBag
  | bankFull
  | cantEquipEver
  | cantStack
  | cantSwap
  | clientLockedOut
  | destroyNonemptyBag
  | dropBoundItem
  | genericStunned
  | invFull
  | itemMaxCount
  | itemMaxLimitCategoryCountExceededIs
  | itemNotFound
  | itemUniqueEquippable
  | lootGone
  | noBankSlot
  | noSlotAvailable
  | notDuringArenaMatch
  | notEquippable
  | notInCombat
  | notOwner
  | onlyOneAmmo
  | onlyOneQuiver
  | playerDead
  | proficiencyNeeded
  | splitFailed
  | tooFewToSplit
  | twoHandedEquipped
  | twoHSkillNotFound
  | wrongBagType
  | wrongSlot
  deriving DecidableEq, Repr

/-! ## Items and templates -/

/-- `Item::CanBeMergedPartlyWith`. -/
def Item.canBeMergedPartlyWith (it : Item) (proto : ItemTemplate) : InventoryResult :=
  if it.lootGenerated then .lootGone
  else if it.entry ≠ proto.itemId then .cantStack
  else if proto.getMaxStackSize ≤ it.count then .cantStack
  else .ok

/-- `Item::IsBindedNotWith`. -/
def Item.isBindedNotWith (env : ItemEnv) (player : ℕ) (it : Item) : Bool :=
  if !it.soulBound then false
  else if it.owner = player then false
  else if it.bopTradeable && player ∈ it.allowedGUIDs then false
  else !(env.template it.entry).any ItemTemplate.bindToAccount

/-- `ItemCanGoIntoBag`. -/
def itemCanGoIntoBag (proto bagProto : ItemTemplate) : Bool :=
  match bagProto.itemClass, bagProto.subClass with
  | 1, 0 => true
  | 1, 1 => proto.bagFamily &&& 0x0004 ≠ 0
  | 1, 2 => proto.bagFamily &&& 0x0020 ≠ 0
  | 1, 3 => proto.bagFamily &&& 0x0040 ≠ 0
  | 1, 4 => proto.bagFamily &&& 0x0080 ≠ 0
  | 1, 5 => proto.bagFamily &&& 0x0200 ≠ 0
  | 1, 6 => proto.bagFamily &&& 0x0400 ≠ 0
  | 1, 7 => proto.bagFamily &&& 0x0008 ≠ 0
  | 1, 8 => proto.bagFamily &&& 0x0010 ≠ 0
  | 1, 9 => proto.bagFamily &&& 0x8000 ≠ 0
  | 11, 2 => proto.bagFamily &&& 0x0001 ≠ 0
  | 11, 3 => proto.bagFamily &&& 0x0002 ≠ 0
  | _, _ => false

/-- The item is not the source, compared by guid as the source compares pointers. -/
def notSource (src : Option Item) (it : Item) : Bool :=
  src.all fun s => s.guid ≠ it.guid

/-- What is at a slot, where the source counts as moved away. -/
def otherItem (src o : Option Item) : Option Item :=
  o.filter (notSource src)

namespace Inventory

variable (env : ItemEnv) (inv : Inventory) {full : InventoryResult} {phs : List Phase}

/-! ## Limits -/

/-- The items at slots of the player. -/
def slotItems (slots : List ℕ) : List Item :=
  slots.filterMap fun i => inv.getItemByPos env (inventorySlotBag0, i)

/-- The items in bags. -/
def bagItems (bags : List ℕ) : List Item :=
  bags.flatMap fun bag =>
    match inv.getBagByPos env bag with
    | some b => (List.range (env.bagSize b)).filterMap fun j => inv.getItemByPos env (bag, j)
    | none => []

/-- The units of an entry among items, the skipped one apart. -/
def countEntry (item : ℕ) (skipItem : Option Item) (items : List Item) : ℕ :=
  ((items.filter fun it => notSource skipItem it && it.entry = item).map Item.count).sum

/-- The gems of an entry in the sockets of items. -/
def countGems (item : ℕ) (skipItem : Option Item) (items : List Item) : ℕ :=
  ((items.filter fun it =>
    notSource skipItem it && (env.template it.entry).any ItemTemplate.socketed).map
      fun it => it.gems.count item).sum

/-- The skipped item is a gem. -/
def skipsGem (skipItem : Option Item) : Bool :=
  skipItem.any fun s => (env.template s.entry).any ItemTemplate.gemProperties

/-- `Player::GetItemCount` with the bank. -/
def getItemCount (item : ℕ) (skipItem : Option Item) : ℕ :=
  let worn := inv.slotItems env (List.range inventorySlotItemEnd)
  let bags := inv.bagItems env bagSlots
  let bank := inv.slotItems env (List.range' inventorySlotItemEnd 35)
  let bankItems := inv.slotItems env (List.range' inventorySlotItemEnd 28)
  let bankBags := inv.bagItems env bankBagSlots
  toU32 (countEntry item skipItem worn + countEntry item skipItem bags +
    countEntry item skipItem bank + countEntry item skipItem bankBags +
    if skipsGem env skipItem then
      countGems env item skipItem worn + countGems env item skipItem bags +
        countGems env item skipItem bankItems + countGems env item skipItem bankBags
    else 0 : ℕ)

/-- `Player::GetItemCountWithLimitCategory`. -/
def getItemCountWithLimitCategory (limitCategory : ℕ) (skipItem : Option Item) : ℕ :=
  let items := inv.slotItems env (List.range bankSlotBagEnd) ++
    inv.bagItems env (bagSlots ++ bankBagSlots)
  toU32 ((items.filter fun it => notSource skipItem it &&
    (env.template it.entry).any fun proto => proto.itemLimitCategory = limitCategory).map
      Item.count).sum

/-- `Player::CanTakeMoreSimilarItems`, with the units that cannot be taken. -/
def canTakeMoreSimilarItems (entry count : ℕ) (item : Option Item) : InventoryResult × ℕ :=
  match env.template entry with
  | none => (.itemMaxCount, count)
  | some proto =>
    if item.any Item.lootGenerated then (.lootGone, 0)
    else if (proto.maxCount ≤ 0 ∧ proto.itemLimitCategory = 0) ∨ proto.maxCount = 2147483647 then
      (.ok, 0)
    else
      let curcount := inv.getItemCount env proto.itemId item
      if 0 < proto.maxCount ∧ proto.maxCount.toNat < toU32 (curcount + count) then
        (.itemMaxCount, toU32 (count + curcount - proto.maxCount))
      else if proto.itemLimitCategory = 0 then (.ok, 0)
      else
        match env.limitCategory proto.itemLimitCategory with
        | none => (.notEquippable, count)
        | some limit =>
          let curcount := inv.getItemCountWithLimitCategory env proto.itemLimitCategory item
          if limit.modeHave ∧ limit.maxCount < toU32 (curcount + count) then
            (.itemMaxLimitCategoryCountExceededIs, toU32 (count + curcount - limit.maxCount))
          else (.ok, 0)

/-! ## The searches -/

/-- `Player::CanStoreItem_InSpecificSlot`. -/
def canStoreItemInSpecificSlot (bag slot : ℕ) (proto : ItemTemplate) (swap : Bool)
    (src : Option Item) (pl : Plan Pos) : Except InventoryResult (Plan Pos) :=
  if src.any (inv.isNotEmptyBag env) && !isBagPos (bag, slot) then .error .destroyNonemptyBag
  else
    match if swap then none else otherItem src (inv.getItemByPos env (bag, slot)) with
    | none =>
      if bag = inventorySlotBag0 then
        if (bankSlotBagEnd ≤ slot ∧ slot < playerSlotEnd) ∨ playerSlotEnd ≤ slot then
          .error .wrongBagType
        else .ok (pl.push (bag, slot) proto.getMaxStackSize)
      else
        match (inv.getBagByPos env bag).bind fun b => env.template b.entry with
        | none => .error .wrongBagType
        | some bagProto =>
          if bagProto.containerSlots ≤ slot then .error .wrongBagType
          else if !itemCanGoIntoBag proto bagProto then .error .wrongBagType
          else .ok (pl.push (bag, slot) proto.getMaxStackSize)
    | some item2 =>
      match item2.canBeMergedPartlyWith proto with
      | .ok => .ok (pl.push (bag, slot) (proto.getMaxStackSize - item2.count))
      | res => .error res

/-- The space at a position : with `merge` a stack that can be filled, else a free slot. -/
def space (proto : ItemTemplate) (merge : Bool) (src : Option Item) (pos : Pos) : Option ℕ :=
  match otherItem src (inv.getItemByPos env pos) with
  | none => if merge then none else some proto.getMaxStackSize
  | some item2 =>
    if merge && item2.canBeMergedPartlyWith proto = .ok then
      some (proto.getMaxStackSize - item2.count)
    else none

/-- `Player::CanStoreItem_InBag`. -/
def canStoreItemInBag (bag : ℕ) (proto : ItemTemplate) (merge nonSpecialized : Bool)
    (src : Option Item) (skipBag skipSlot : ℕ) (pl : Plan Pos) :
    Except InventoryResult (Plan Pos) :=
  if bag = skipBag then .error .wrongBagType
  else
    match inv.getBagByPos env bag with
    | none => .error .wrongBagType
    | some b =>
      if !notSource src b then .error .wrongBagType
      else if src.any (inv.isNotEmptyBag env) then .error .destroyNonemptyBag
      else
        match env.template b.entry with
        | none => .error .wrongBagType
        | some bagProto =>
          if nonSpecialized ≠ (bagProto.itemClass = 1 && bagProto.subClass = 0) then
            .error .wrongBagType
          else if !itemCanGoIntoBag proto bagProto then .error .wrongBagType
          else
            .ok (fill (inv.space env proto merge src)
              (((List.range (env.bagSize b)).filter fun j => j ≠ skipSlot).map fun j => (bag, j))
              pl)

/-- `Player::CanStoreItem_InInventorySlots`. -/
def canStoreItemInInventorySlots (slotBegin slotEnd : ℕ) (proto : ItemTemplate) (merge : Bool)
    (src : Option Item) (skipBag skipSlot : ℕ) (pl : Plan Pos) :
    Except InventoryResult (Plan Pos) :=
  if src.any (inv.isNotEmptyBag env) then .error .destroyNonemptyBag
  else
    .ok (fill (inv.space env proto merge src)
      (((List.range' slotBegin (slotEnd - slotBegin)).filter fun j =>
        ¬ (skipBag = inventorySlotBag0 ∧ j = skipSlot)).map fun j => (inventorySlotBag0, j))
      pl)

/-- One search of the cascade, and what its failure means. -/
inductive Phase
  | required (run : Plan Pos → Except InventoryResult (Plan Pos))
  | optional (run : Plan Pos → Except InventoryResult (Plan Pos))
  /-- The search ends here when the source is a filled bag. -/
  | refuse (res : InventoryResult) (cond : Bool)

/-- The result of a search, its destinations, and `no_space_count` where it was set. -/
structure StoreResult where
  res : InventoryResult
  dest : List (Pos × ℕ) := []
  noSpace : Option ℕ := none

/-- The phases in turn. `noSimilar` units are refused from the start. -/
def search (full : InventoryResult) (noSimilar : ℕ) : List Phase → Plan Pos → StoreResult
  | [], pl => ⟨full, pl.dest, some (toU32 (pl.count + noSimilar))⟩
  | .refuse res cond :: phs, pl =>
    if cond then ⟨res, pl.dest, none⟩ else search full noSimilar phs pl
  | .required run :: phs, pl =>
    match run pl with
    | .error res => ⟨res, pl.dest, some (toU32 (pl.count + noSimilar))⟩
    | .ok pl' =>
      if pl'.count = 0 then
        if noSimilar = 0 then ⟨.ok, pl'.dest, none⟩ else ⟨.itemMaxCount, pl'.dest, some noSimilar⟩
      else search full noSimilar phs pl'
  | .optional run :: phs, pl =>
    match run pl with
    | .error _ => search full noSimilar phs pl
    | .ok pl' =>
      if pl'.count = 0 then
        if noSimilar = 0 then ⟨.ok, pl'.dest, none⟩ else ⟨.itemMaxCount, pl'.dest, some noSimilar⟩
      else search full noSimilar phs pl'

section Phases

variable (slotBegin slotEnd : ℕ) (bags : List ℕ) (bag slot : ℕ) (proto : ItemTemplate)
  (src : Option Item)

/-- A bag is tried as a specialized one first, then as one that is not. -/
def inBagTwice (merge : Bool) (pl : Plan Pos) : Except InventoryResult (Plan Pos) :=
  match inv.canStoreItemInBag env bag proto merge false src nullBag slot pl with
  | .ok pl' => .ok pl'
  | .error _ => inv.canStoreItemInBag env bag proto merge true src nullBag slot pl

/-- The requested bag, searched for stacks or for free slots. -/
def inBagPhase (merge : Bool) : Phase :=
  if bag = inventorySlotBag0 then
    .required (inv.canStoreItemInInventorySlots env slotBegin slotEnd proto merge src bag slot)
  else .required (inv.inBagTwice env bag slot proto src merge)

/-- The requested bag. -/
def inBagPhases : List Phase :=
  (if proto.stackable ≠ 1 then [inv.inBagPhase env slotBegin slotEnd bag slot proto src true]
    else []) ++
  [inv.inBagPhase env slotBegin slotEnd bag slot proto src false]

/-- Each of the bags, of one kind, for stacks or for free slots. -/
def eachBag (merge nonSpecialized : Bool) : List Phase :=
  bags.map fun i =>
    .optional (inv.canStoreItemInBag env i proto merge nonSpecialized src bag slot)

/-- The slots of the player, for stacks or for free slots. -/
def slotsPhase (merge : Bool) : Phase :=
  .required (inv.canStoreItemInInventorySlots env slotBegin slotEnd proto merge src bag slot)

/-- All slots and bags : stacks to fill, free slots of specialized bags, any free slot. -/
def anywherePhases (beforeFree : List Phase) : List Phase :=
  (if proto.stackable ≠ 1 then
    [inv.slotsPhase env slotBegin slotEnd bag slot proto src true] ++
    (if proto.bagFamily ≠ 0 then inv.eachBag env bags bag slot proto src true false else []) ++
    inv.eachBag env bags bag slot proto src true true
  else []) ++
  (if proto.bagFamily ≠ 0 then inv.eachBag env bags bag slot proto src false false else []) ++
  beforeFree ++
  [inv.slotsPhase env slotBegin slotEnd bag slot proto src false] ++
  inv.eachBag env bags bag slot proto src false true

end Phases

/-- The cascade of `Player::CanStoreItem`. -/
def canStorePhases (bag slot : ℕ) (proto : ItemTemplate) (swap : Bool) (src : Option Item) :
    List Phase :=
  (if bag ≠ nullBag ∧ slot ≠ nullSlot then
    [.required (inv.canStoreItemInSpecificSlot env bag slot proto swap src)] else []) ++
  (if bag ≠ nullBag then
    inv.inBagPhases env inventorySlotItemStart inventorySlotItemEnd bag slot proto src else []) ++
  inv.anywherePhases env inventorySlotItemStart inventorySlotItemEnd bagSlots bag slot proto src
    [.refuse .bagInBag (src.any (inv.isNotEmptyBag env))]

/-- `Player::CanStoreItem`. -/
def canStoreItem (bag slot entry count : ℕ) (src : Option Item) (swap : Bool) : StoreResult :=
  match env.template entry with
  | none => { res := if swap then .cantSwap else .itemNotFound, noSpace := some count }
  | some proto =>
    if src.any Item.lootGenerated then { res := .lootGone, noSpace := some count }
    else if src.any (Item.isBindedNotWith env inv.owner) then
      { res := .notOwner, noSpace := some count }
    else
      let (res, noSimilar) := inv.canTakeMoreSimilarItems env entry count src
      let count' := if res = .ok then count else toU32 (count - noSimilar)
      if res ≠ .ok ∧ count = noSimilar then { res, noSpace := some noSimilar }
      else search .invFull noSimilar (inv.canStorePhases env bag slot proto swap src) ⟨[], count'⟩

/-! ## What a search keeps -/

/-- The phase keeps a property of plans as long as units are left, and its failure is no success. -/
def Phase.Keeps (P : Plan Pos → Prop) : Phase → Prop
  | .required run => ∀ pl, P pl → pl.count ≠ 0 →
      (∀ pl', run pl = .ok pl' → P pl') ∧ run pl ≠ .error .ok
  | .optional run => ∀ pl, P pl → pl.count ≠ 0 → ∀ pl', run pl = .ok pl' → P pl'
  | .refuse res _ => res ≠ .ok

/-- A search ends in a plan that its phases keep. When it succeeds the plan places all units, and
nothing was refused. -/
theorem search_spec {P : Plan Pos → Prop} (hfull : full ≠ .ok) (noSimilar : ℕ)
    (hphs : ∀ ph ∈ phs, ph.Keeps P) {pl : Plan Pos} (hpl : P pl) (hc : pl.count ≠ 0) :
    ∃ pl', P pl' ∧ (search full noSimilar phs pl).dest = pl'.dest ∧
      ((search full noSimilar phs pl).res = .ok → noSimilar = 0 ∧ pl'.count = 0) := by
  induction phs generalizing pl with
  | nil => exact ⟨pl, hpl, rfl, fun h => absurd h hfull⟩
  | cons ph phs ih =>
    have hph := hphs ph mem_cons_self
    replace ih := @ih fun ph' h' => hphs ph' (mem_cons_of_mem _ h')
    cases ph with
    | refuse res cond =>
      rw [search]
      split_ifs
      · exact ⟨pl, hpl, rfl, fun h => absurd h hph⟩
      · exact ih hpl hc
    | required run =>
      rw [search]
      obtain ⟨hkeep, herr⟩ := hph pl hpl hc
      cases hrun : run pl with
      | error res =>
        refine ⟨pl, hpl, rfl, fun h => absurd ?_ herr⟩
        rw [hrun]
        exact congrArg _ h
      | ok pl' =>
        simp only
        split_ifs with hzero hns
        · exact ⟨pl', hkeep pl' hrun, rfl, fun _ => ⟨hns, hzero⟩⟩
        · exact ⟨pl', hkeep pl' hrun, rfl, by rintro ⟨⟩⟩
        · exact ih (hkeep pl' hrun) hzero
    | optional run =>
      rw [search]
      cases hrun : run pl with
      | error res => exact ih hpl hc
      | ok pl' =>
        simp only
        split_ifs with hzero hns
        · exact ⟨pl', hph pl hpl hc pl' hrun, rfl, fun _ => ⟨hns, hzero⟩⟩
        · exact ⟨pl', hph pl hpl hc pl' hrun, rfl, by rintro ⟨⟩⟩
        · exact ih (hph pl hpl hc pl' hrun) hzero

variable {pl : Plan Pos}

/-- A search that succeeds ends in a plan that places all units, and nothing was refused. -/
theorem search_ok {P : Plan Pos → Prop} (hfull : full ≠ .ok) {noSimilar : ℕ}
    (hphs : ∀ ph ∈ phs, ph.Keeps P) (hpl : P pl) (hc : pl.count ≠ 0)
    (h : (search full noSimilar phs pl).res = .ok) :
    noSimilar = 0 ∧ ∃ pl', P pl' ∧ pl'.count = 0 ∧
      (search full noSimilar phs pl).dest = pl'.dest := by
  obtain ⟨pl', hpl', hdest, hok⟩ := search_spec hfull noSimilar hphs hpl hc
  exact ⟨(hok h).1, pl', hpl', (hok h).2, hdest⟩

variable {env inv} {proto : ItemTemplate} {src : Option Item} {want : Option Pos} {asked : Pos}
  {merge : Bool}

/-- The position may take `n` units : it is free, or the source is there, or what is there will be
swapped away, or there is a stack of the entry with room for them. It is in no bag that moves, the
asked position apart. -/
structure Spot (env : ItemEnv) (inv : Inventory) (proto : ItemTemplate) (src : Option Item)
    (want : Option Pos) (asked : Pos) (p : Pos) (n : ℕ) : Prop where
  one_le : 1 ≤ n
  le_max : n ≤ proto.getMaxStackSize
  usable : Usable env inv p
  still : p = asked ∨ ∀ b, inv.getBagByPos env p.1 = some b → notSource src b = true
  room : otherItem src (inv.getItemByPos env p) = none ∨ want = some p ∨
    ∃ it, otherItem src (inv.getItemByPos env p) = some it ∧ it.entry = proto.itemId ∧
      it.count + n ≤ proto.getMaxStackSize

theorem canBeMergedPartlyWith_ok {it : Item} (h : it.canBeMergedPartlyWith proto = .ok) :
    it.entry = proto.itemId ∧ it.count < proto.getMaxStackSize := by
  unfold Item.canBeMergedPartlyWith at h
  split_ifs at h with hloot hentry hfull
  exact ⟨not_not.1 hentry, not_le.1 hfull⟩

/-- A free position. -/
theorem room_of_free {p : Pos} (hu : Usable env inv p)
    (hstill : p = asked ∨ ∀ b, inv.getBagByPos env p.1 = some b → notSource src b = true)
    (h : otherItem src (inv.getItemByPos env p) = none ∨ want = some p) :
    FirstFit.Room (Spot env inv proto src want asked) p proto.getMaxStackSize := by
  refine ⟨proto.getMaxStackSize_pos, fun n hn hmax => ⟨hn, hmax, hu, hstill, ?_⟩⟩
  rcases h with h | h
  · exact .inl h
  · exact .inr (.inl h)

/-- A stack that can be filled. -/
theorem room_of_stack {p : Pos} {it : Item} (hu : Usable env inv p)
    (hstill : p = asked ∨ ∀ b, inv.getBagByPos env p.1 = some b → notSource src b = true)
    (hit : otherItem src (inv.getItemByPos env p) = some it)
    (h : it.canBeMergedPartlyWith proto = .ok) :
    FirstFit.Room (Spot env inv proto src want asked) p (proto.getMaxStackSize - it.count) := by
  obtain ⟨hentry, hlt⟩ := canBeMergedPartlyWith_ok h
  refine ⟨by omega, fun n hn hmax => ⟨hn, by omega, hu, hstill, ?_⟩⟩
  exact .inr (.inr ⟨it, hit, hentry, by omega⟩)

theorem room_of_space {p : Pos} (hu : Usable env inv p)
    (hstill : ∀ b, inv.getBagByPos env p.1 = some b → notSource src b = true) {s : ℕ}
    (h : inv.space env proto merge src p = some s) :
    FirstFit.Room (Spot env inv proto src want asked) p s := by
  unfold space at h
  split at h
  · rename_i hnone
    split_ifs at h
    obtain rfl := Option.some.inj h
    exact room_of_free hu (.inr hstill) (.inl hnone)
  · rename_i it hit
    split_ifs at h with hmerge
    obtain rfl := Option.some.inj h
    simp only [Bool.and_eq_true, decide_eq_true_eq] at hmerge
    exact room_of_stack hu (.inr hstill) hit hmerge.2

variable {total entry count skipSlot skipBag : ℕ} {swap nonSpecialized : Bool} {pl' : Plan Pos}
  {Q : Phase → Prop}

/-- The plans of a search. -/
abbrev Placed (env : ItemEnv) (inv : Inventory) (proto : ItemTemplate) (src : Option Item)
    (want : Option Pos) (asked : Pos) (total : ℕ) : Plan Pos → Prop :=
  Plan.Exact (Spot env inv proto src want asked) total

theorem inSpecificSlot_placed {bag slot : ℕ} (hwant : swap = true → want = some (bag, slot))
    (hasked : asked = (bag, slot)) (h : Placed env inv proto src want asked total pl)
    (hc : pl.count ≠ 0)
    (hrun : inv.canStoreItemInSpecificSlot env bag slot proto swap src pl = .ok pl') :
    Placed env inv proto src want asked total pl' := by
  unfold canStoreItemInSpecificSlot at hrun
  generalize hother : (if swap = true then none
    else otherItem src (inv.getItemByPos env (bag, slot))) = o at hrun
  split at hrun
  · cases hrun
  cases o with
  | none =>
    have hfree : otherItem src (inv.getItemByPos env (bag, slot)) = none ∨
        want = some (bag, slot) := by
      split_ifs at hother with hswap
      · exact .inr (hwant hswap)
      · exact .inl hother
    simp only at hrun
    split at hrun
    · rename_i hbag
      split at hrun
      · cases hrun
      · rename_i hslot
        cases hrun
        subst hbag
        have hlt : slot < bankSlotBagEnd := by
          omega
        exact h.push hc (room_of_free (usable_top hlt) (.inl hasked.symm) hfree)
    · split at hrun
      · cases hrun
      · rename_i bagProto hproto
        obtain ⟨b, hb, hbp⟩ := Option.bind_eq_some_iff.1 hproto
        split_ifs at hrun with hsize hgo
        cases hrun
        have hlt : slot < env.bagSize b := by
          simp only [ItemEnv.bagSize, hbp]
          omega
        exact h.push hc (room_of_free (.inr ⟨b, hb, hlt⟩) (.inl hasked.symm) hfree)
  | some it =>
    split_ifs at hother
    simp only at hrun
    split at hrun
    · rename_i hmerge
      cases hrun
      obtain ⟨hget, -⟩ := Option.filter_eq_some_iff.1 hother
      exact h.push hc
        (room_of_stack (usable_of_getItemByPos hget) (.inl hasked.symm) hother hmerge)
    · cases hrun

/-- What `CanStoreItem_InBag` does when it does not fail. -/
theorem canStoreItemInBag_eq_ok {bag : ℕ}
    (h : inv.canStoreItemInBag env bag proto merge nonSpecialized src skipBag skipSlot pl =
      .ok pl') :
    ∃ b, inv.getBagByPos env bag = some b ∧ notSource src b = true ∧
      src.any (inv.isNotEmptyBag env) = false ∧
      pl' = fill (inv.space env proto merge src)
        (((List.range (env.bagSize b)).filter fun j => j ≠ skipSlot).map fun j => (bag, j)) pl := by
  unfold canStoreItemInBag at h
  split at h
  · cases h
  split at h
  · cases h
  rename_i b hb
  split at h
  · cases h
  rename_i hsrc
  split at h
  · cases h
  rename_i hne
  split at h
  · cases h
  split at h
  · cases h
  split at h
  · cases h
  cases h
  exact ⟨b, hb, by simpa using hsrc, by simpa using hne, rfl⟩

theorem inBag_placed {bag : ℕ} (h : Placed env inv proto src want asked total pl)
    (hc : pl.count ≠ 0)
    (hrun : inv.canStoreItemInBag env bag proto merge nonSpecialized src skipBag skipSlot pl =
      .ok pl') : Placed env inv proto src want asked total pl' := by
  obtain ⟨b, hb, hsrc, -, rfl⟩ := canStoreItemInBag_eq_ok hrun
  refine h.fill hc fun p hp s hs => ?_
  obtain ⟨j, hj, rfl⟩ := mem_map.1 hp
  have hlt : j < env.bagSize b := mem_range.1 (mem_of_mem_filter hj)
  refine room_of_space (.inr ⟨b, hb, hlt⟩) (fun b' hb' => ?_) hs
  rw [hb] at hb'
  cases hb'
  exact hsrc

theorem inInventorySlots_placed {slotBegin slotEnd : ℕ} (hend : slotEnd ≤ bankSlotBagEnd)
    (h : Placed env inv proto src want asked total pl) (hc : pl.count ≠ 0)
    (hrun : inv.canStoreItemInInventorySlots env slotBegin slotEnd proto merge src skipBag skipSlot
      pl = .ok pl') : Placed env inv proto src want asked total pl' := by
  unfold canStoreItemInInventorySlots at hrun
  split_ifs at hrun with hne
  cases hrun
  refine h.fill hc fun p hp s hs => ?_
  obtain ⟨j, hj, rfl⟩ := mem_map.1 hp
  have hmem := mem_range'_1.1 (mem_of_mem_filter hj)
  have hlt : j < bankSlotBagEnd := by omega
  refine room_of_space (usable_top hlt) (fun b hb => ?_) hs
  cases hb

/-! ## Failures -/

theorem inSpecificSlot_ne_error_ok (bag slot : ℕ) (swap : Bool) (pl : Plan Pos) :
    inv.canStoreItemInSpecificSlot env bag slot proto swap src pl ≠ .error .ok := by
  intro h
  unfold canStoreItemInSpecificSlot at h
  generalize (if swap = true then none
    else otherItem src (inv.getItemByPos env (bag, slot))) = o at h
  split at h
  · cases h
  cases o with
  | none =>
    simp only at h
    split at h
    · split at h <;> cases h
    · split at h
      · cases h
      · split_ifs at h <;> cases h
  | some it =>
    simp only at h
    split at h
    · cases h
    · rename_i hres
      exact hres (Except.error.inj h)

theorem inBag_ne_error_ok (bag : ℕ) (merge nonSpecialized : Bool) (skipBag skipSlot : ℕ)
    (pl : Plan Pos) :
    inv.canStoreItemInBag env bag proto merge nonSpecialized src skipBag skipSlot pl ≠
      .error .ok := by
  intro h
  unfold canStoreItemInBag at h
  split at h
  · cases h
  split at h
  · cases h
  split at h
  · cases h
  split at h
  · cases h
  split at h
  · cases h
  split at h
  · cases h
  split at h <;> cases h

theorem inInventorySlots_ne_error_ok (slotBegin slotEnd : ℕ) (merge : Bool) (skipBag skipSlot : ℕ)
    (pl : Plan Pos) :
    inv.canStoreItemInInventorySlots env slotBegin slotEnd proto merge src skipBag skipSlot pl ≠
      .error .ok := by
  intro h
  unfold canStoreItemInInventorySlots at h
  split at h <;> cases h

theorem inBagTwice_ne_error_ok (bag slot : ℕ) (merge : Bool) (pl : Plan Pos) :
    inv.inBagTwice env bag slot proto src merge pl ≠ .error .ok := by
  intro h
  unfold inBagTwice at h
  split at h
  · cases h
  · exact inBag_ne_error_ok _ _ _ _ _ _ h

/-! ## The cascade keeps the plan exact -/

theorem keeps_inBagPhase {slotBegin slotEnd : ℕ} (hend : slotEnd ≤ bankSlotBagEnd)
    (bag slot : ℕ) (merge : Bool) :
    (inv.inBagPhase env slotBegin slotEnd bag slot proto src merge).Keeps
      (Placed env inv proto src want asked total) := by
  unfold inBagPhase
  split
  · intro pl hpl hc
    exact ⟨fun pl' => inInventorySlots_placed hend hpl hc, inInventorySlots_ne_error_ok _ _ _ _ _ _⟩
  · intro pl hpl hc
    refine ⟨fun pl' hrun => ?_, inBagTwice_ne_error_ok _ _ _ _⟩
    unfold inBagTwice at hrun
    split at hrun
    · rename_i hfirst
      cases hrun
      exact inBag_placed hpl hc hfirst
    · exact inBag_placed hpl hc hrun

theorem keeps_eachBag (bags : List ℕ) (bag slot : ℕ) (merge nonSpecialized : Bool) :
    ∀ ph ∈ inv.eachBag env bags bag slot proto src merge nonSpecialized,
      ph.Keeps (Placed env inv proto src want asked total) := by
  intro ph hph
  obtain ⟨i, -, rfl⟩ := mem_map.1 hph
  exact fun pl hpl hc pl' => inBag_placed hpl hc

theorem keeps_slotsPhase {slotBegin slotEnd : ℕ} (hend : slotEnd ≤ bankSlotBagEnd)
    (bag slot : ℕ) (merge : Bool) :
    (inv.slotsPhase env slotBegin slotEnd bag slot proto src merge).Keeps
      (Placed env inv proto src want asked total) :=
  fun _ hpl hc =>
    ⟨fun _ => inInventorySlots_placed hend hpl hc, inInventorySlots_ne_error_ok _ _ _ _ _ _⟩

/-- A property of the phases of a search over all slots and bags. -/
theorem forall_anywherePhases {slotBegin slotEnd : ℕ} {bags : List ℕ} {bag slot : ℕ}
    {beforeFree : List Phase} (hslots : ∀ merge : Bool, (merge = true → proto.stackable ≠ 1) →
      Q (inv.slotsPhase env slotBegin slotEnd bag slot proto src merge))
    (hbags : ∀ merge nonSpecialized : Bool, (merge = true → proto.stackable ≠ 1) →
      ∀ ph ∈ inv.eachBag env bags bag slot proto src merge nonSpecialized, Q ph)
    (hbefore : ∀ ph ∈ beforeFree, Q ph) :
    ∀ ph ∈ inv.anywherePhases env slotBegin slotEnd bags bag slot proto src beforeFree, Q ph := by
  have hfree : false = true → proto.stackable ≠ 1 := fun h => Bool.noConfusion h
  intro ph hph
  unfold anywherePhases at hph
  simp only [mem_append] at hph
  rcases hph with (((hph | hph) | hph) | hph) | hph
  · split at hph
    · rename_i hstack
      simp only [mem_append] at hph
      rcases hph with (hph | hph) | hph
      · obtain rfl := mem_singleton.1 hph
        exact hslots true fun _ => hstack
      · split at hph
        · exact hbags _ _ (fun _ => hstack) ph hph
        · cases hph
      · exact hbags _ _ (fun _ => hstack) ph hph
    · cases hph
  · split at hph
    · exact hbags _ _ hfree ph hph
    · cases hph
  · exact hbefore ph hph
  · obtain rfl := mem_singleton.1 hph
    exact hslots false hfree
  · exact hbags _ _ hfree ph hph

/-- A property of the phases of a search in the requested bag. -/
theorem forall_inBagPhases {slotBegin slotEnd bag slot : ℕ}
    (h : ∀ merge : Bool, (merge = true → proto.stackable ≠ 1) →
      Q (inv.inBagPhase env slotBegin slotEnd bag slot proto src merge)) :
    ∀ ph ∈ inv.inBagPhases env slotBegin slotEnd bag slot proto src, Q ph := by
  intro ph hph
  rcases mem_append.1 hph with hph | hph
  · split at hph
    · rename_i hstack
      obtain rfl := mem_singleton.1 hph
      exact h true fun _ => hstack
    · cases hph
  · obtain rfl := mem_singleton.1 hph
    exact h false fun hf => Bool.noConfusion hf

/-- A property of the phases of `CanStoreItem`. -/
theorem forall_canStorePhases {bag slot : ℕ} (hslot : bag ≠ nullBag → slot ≠ nullSlot →
      Q (.required (inv.canStoreItemInSpecificSlot env bag slot proto swap src)))
    (hbag : bag ≠ nullBag → ∀ merge : Bool, (merge = true → proto.stackable ≠ 1) →
      Q (inv.inBagPhase env inventorySlotItemStart inventorySlotItemEnd bag slot proto src merge))
    (hslots : ∀ merge : Bool, (merge = true → proto.stackable ≠ 1) →
      Q (inv.slotsPhase env inventorySlotItemStart inventorySlotItemEnd bag slot proto src merge))
    (hbags : ∀ merge nonSpecialized : Bool, (merge = true → proto.stackable ≠ 1) →
      ∀ ph ∈ inv.eachBag env bagSlots bag slot proto src merge nonSpecialized, Q ph)
    (hrefuse : Q (.refuse .bagInBag (src.any (inv.isNotEmptyBag env)))) :
    ∀ ph ∈ inv.canStorePhases env bag slot proto swap src, Q ph := by
  intro ph hph
  unfold canStorePhases at hph
  simp only [mem_append] at hph
  rcases hph with (hph | hph) | hph
  · split at hph
    · rename_i hreq
      obtain rfl := mem_singleton.1 hph
      exact hslot hreq.1 hreq.2
    · cases hph
  · split at hph
    · rename_i hreq
      exact forall_inBagPhases (hbag hreq) ph hph
    · cases hph
  · refine forall_anywherePhases hslots hbags (fun ph hph => ?_) ph hph
    obtain rfl := mem_singleton.1 hph
    exact hrefuse

theorem keeps_canStorePhases {bag slot : ℕ} (hwant : swap = true → want = some (bag, slot)) :
    ∀ ph ∈ inv.canStorePhases env bag slot proto swap src,
      ph.Keeps (Placed env inv proto src want (bag, slot) total) := by
  have hend : inventorySlotItemEnd ≤ bankSlotBagEnd := by decide
  refine forall_canStorePhases (fun _ _ => ?_)
    (fun _ merge _ => keeps_inBagPhase hend bag slot merge)
    (fun merge _ => keeps_slotsPhase hend bag slot merge)
    (fun merge nonSpecialized _ => keeps_eachBag bagSlots bag slot merge nonSpecialized) ?_
  · exact fun pl hpl hc => ⟨fun pl' => inSpecificSlot_placed hwant rfl hpl hc,
      inSpecificSlot_ne_error_ok _ _ _ _⟩
  · exact fun h => InventoryResult.noConfusion h

theorem canTakeMoreSimilarItems_lt (hlt : count < 2 ^ 32) (item : Option Item) :
    (inv.canTakeMoreSimilarItems env entry count item).2 < 2 ^ 32 := by
  have hzero : 0 < 2 ^ 32 := by norm_num
  unfold canTakeMoreSimilarItems
  split
  · exact hlt
  dsimp only
  split_ifs
  · exact hzero
  · exact hzero
  · exact toU32_lt _
  · exact hzero
  · split
    · exact hlt
    · split_ifs
      · exact toU32_lt _
      · exact hzero

/-- A successful `CanStoreItem` is a search of its phases for all the units. -/
theorem canStoreItem_search {bag slot : ℕ} (hpos : 1 ≤ count) (hlt : count < 2 ^ 32)
    (h : (inv.canStoreItem env bag slot entry count src swap).res = .ok) :
    ∃ proto, env.template entry = some proto ∧
      inv.canStoreItem env bag slot entry count src swap =
        search .invFull 0 (inv.canStorePhases env bag slot proto swap src) ⟨[], count⟩ := by
  unfold canStoreItem at h ⊢
  split at h
  · simp only at h
    split_ifs at h
  rename_i proto hproto
  split at h
  · cases h
  rename_i hloot
  split at h
  · cases h
  rename_i hbound
  simp only [hproto]
  rw [if_neg hloot, if_neg hbound]
  have hsim : (inv.canTakeMoreSimilarItems env entry count src).2 < 2 ^ 32 :=
    canTakeMoreSimilarItems_lt hlt src
  generalize inv.canTakeMoreSimilarItems env entry count src = r at h hsim ⊢
  obtain ⟨res, noSimilar⟩ := r
  simp only at h hsim ⊢
  split at h
  · rename_i hres
    exact absurd h hres.1
  rename_i hres
  rw [if_neg hres]
  generalize hcount : (if res = .ok then count else toU32 (count - noSimilar)) = count' at h ⊢
  have hne : count' ≠ 0 := by
    rw [← hcount]
    split_ifs with hok
    · omega
    · have hne : count ≠ noSimilar := fun heq => hres ⟨hok, heq⟩
      unfold toU32
      omega
  have hphs : ∀ ph ∈ inv.canStorePhases env bag slot proto swap src,
      ph.Keeps (Placed env inv proto src (some (bag, slot)) (bag, slot) count') :=
    keeps_canStorePhases fun _ => rfl
  obtain ⟨rfl, -⟩ := search_ok (by decide) hphs (Plan.exact_nil _ count') hne h
  have heq : count' = count := by
    rw [← hcount]
    split_ifs with hok
    · rfl
    · simpa using toU32_of_lt hlt
  exact ⟨proto, rfl, by rw [heq]⟩

/-- A successful `CanStoreItem` places exactly the units asked for. -/
theorem canStoreItem_placed {bag slot : ℕ} (hpos : 1 ≤ count) (hlt : count < 2 ^ 32)
    (h : (inv.canStoreItem env bag slot entry count src swap).res = .ok) :
    ∃ proto, env.template entry = some proto ∧
      Placed env inv proto src (if swap then some (bag, slot) else none) (bag, slot) count
        ⟨(inv.canStoreItem env bag slot entry count src swap).dest, 0⟩ := by
  obtain ⟨proto, hproto, heq⟩ := canStoreItem_search hpos hlt h
  rw [heq] at h ⊢
  have hphs : ∀ ph ∈ inv.canStorePhases env bag slot proto swap src,
      ph.Keeps (Placed env inv proto src (if swap then some (bag, slot) else none) (bag, slot)
        count) :=
    keeps_canStorePhases fun hswap => if_pos hswap
  have hne : count ≠ 0 := by omega
  obtain ⟨-, pl', hpl', hc', hdest⟩ :=
    search_ok (by decide) hphs (Plan.exact_nil _ count) hne h
  refine ⟨proto, hproto, ?_⟩
  rw [hdest, ← hc']
  exact hpl'

/-! ## No more units than asked for -/

/-- The phase neither makes nor loses units. -/
def Phase.Weighs : Phase → Prop
  | .required run => ∀ pl pl', run pl = .ok pl' → pl'.weight = pl.weight
  | .optional run => ∀ pl pl', run pl = .ok pl' → pl'.weight = pl.weight
  | .refuse _ _ => True

theorem search_weight (full : InventoryResult) (noSimilar : ℕ) (hphs : ∀ ph ∈ phs, ph.Weighs)
    (pl : Plan Pos) : ((search full noSimilar phs pl).dest.map Prod.snd).sum ≤ pl.weight := by
  induction phs generalizing pl with
  | nil => exact Nat.le_add_right _ _
  | cons ph phs ih =>
    have hph := hphs ph mem_cons_self
    replace ih := @ih fun ph' h' => hphs ph' (mem_cons_of_mem _ h')
    cases ph with
    | refuse res cond =>
      rw [search]
      split_ifs
      · exact Nat.le_add_right _ _
      · exact ih pl
    | required run =>
      rw [search]
      cases hrun : run pl with
      | error res => exact Nat.le_add_right _ _
      | ok pl' =>
        rw [← hph pl pl' hrun]
        simp only
        split_ifs
        · exact Nat.le_add_right _ _
        · exact Nat.le_add_right _ _
        · exact ih pl'
    | optional run =>
      rw [search]
      cases hrun : run pl with
      | error res => exact ih pl
      | ok pl' =>
        rw [← hph pl pl' hrun]
        simp only
        split_ifs
        · exact Nat.le_add_right _ _
        · exact Nat.le_add_right _ _
        · exact ih pl'

theorem weight_inSpecificSlot {bag slot : ℕ}
    (h : inv.canStoreItemInSpecificSlot env bag slot proto swap src pl = .ok pl') :
    pl'.weight = pl.weight := by
  unfold canStoreItemInSpecificSlot at h
  split at h
  · cases h
  split at h
  · split at h
    · split at h
      · cases h
      · cases h
        exact pl.weight_push _ _
    · split at h
      · cases h
      · split_ifs at h
        cases h
        exact pl.weight_push _ _
  · split at h
    · cases h
      exact pl.weight_push _ _
    · cases h

theorem weight_inBag {bag : ℕ}
    (h : inv.canStoreItemInBag env bag proto merge nonSpecialized src skipBag skipSlot pl =
      .ok pl') : pl'.weight = pl.weight := by
  unfold canStoreItemInBag at h
  split at h
  · cases h
  split at h
  · cases h
  split at h
  · cases h
  split at h
  · cases h
  split at h
  · cases h
  split_ifs at h
  cases h
  exact weight_fill _ _ _

theorem weight_inInventorySlots {slotBegin slotEnd : ℕ}
    (h : inv.canStoreItemInInventorySlots env slotBegin slotEnd proto merge src skipBag skipSlot
      pl = .ok pl') : pl'.weight = pl.weight := by
  unfold canStoreItemInInventorySlots at h
  split_ifs at h
  cases h
  exact weight_fill _ _ _

theorem weighs_canStorePhases (env : ItemEnv) (inv : Inventory) (bag slot : ℕ)
    (proto : ItemTemplate) (swap : Bool) (src : Option Item) :
    ∀ ph ∈ inv.canStorePhases env bag slot proto swap src, ph.Weighs := by
  refine forall_canStorePhases (fun _ _ _ _ => weight_inSpecificSlot) (fun _ merge _ => ?_)
    (fun _ _ _ _ => weight_inInventorySlots) (fun merge nonSpecialized _ ph hph => ?_) trivial
  · unfold inBagPhase
    split_ifs
    · exact fun _ _ => weight_inInventorySlots
    · intro pl pl' h
      unfold inBagTwice at h
      split at h
      · rename_i hfirst
        cases h
        exact weight_inBag hfirst
      · exact weight_inBag h
  · obtain ⟨i, -, rfl⟩ := mem_map.1 hph
    exact fun _ _ => weight_inBag

/-- A successful `CanStoreItem` for no units finds places for none. -/
theorem canStoreItem_zero {bag slot : ℕ}
    (h : (inv.canStoreItem env bag slot entry 0 src swap).res = .ok) :
    ((inv.canStoreItem env bag slot entry 0 src swap).dest.map Prod.snd).sum = 0 := by
  unfold canStoreItem at h ⊢
  split at h
  · simp only at h
    split_ifs at h
  rename_i proto hproto
  split at h
  · cases h
  rename_i hloot
  split at h
  · cases h
  rename_i hbound
  rw [if_neg hloot, if_neg hbound]
  have hsim : (inv.canTakeMoreSimilarItems env entry 0 src).2 < 2 ^ 32 :=
    canTakeMoreSimilarItems_lt (by norm_num) src
  generalize inv.canTakeMoreSimilarItems env entry 0 src = r at h hsim ⊢
  obtain ⟨res, noSimilar⟩ := r
  simp only at h hsim ⊢
  split at h
  · rename_i hres
    exact absurd h hres.1
  rename_i hres
  rw [if_neg hres]
  generalize hcount : (if res = .ok then 0 else toU32 ((0 : ℕ) - noSimilar)) = count' at h ⊢
  have hzero : count' = 0 := by
    by_contra hne
    have hphs : ∀ ph ∈ inv.canStorePhases env bag slot proto swap src,
        ph.Keeps (Placed env inv proto src (some (bag, slot)) (bag, slot) count') :=
      keeps_canStorePhases fun _ => rfl
    obtain ⟨rfl, -⟩ := search_ok (by decide) hphs (Plan.exact_nil _ count') hne h
    apply hne
    rw [← hcount]
    split_ifs <;> rfl
  have hle := search_weight .invFull noSimilar
    (weighs_canStorePhases env inv bag slot proto swap src) ⟨[], count'⟩
  simpa [Plan.weight, hzero] using hle

/-- A successful `CanStoreItem` places no more units than asked for. -/
theorem canStoreItem_sum {bag slot : ℕ} (hlt : count < 2 ^ 32)
    (h : (inv.canStoreItem env bag slot entry count src swap).res = .ok) :
    ((inv.canStoreItem env bag slot entry count src swap).dest.map Prod.snd).sum = count := by
  rcases Nat.eq_zero_or_pos count with rfl | hpos
  · exact canStoreItem_zero h
  · obtain ⟨proto, -, hplan⟩ := canStoreItem_placed hpos hlt h
    exact hplan.sum

/-! ## Filled bags -/

/-- The phase fails on every plan. -/
def Phase.Fails : Phase → Prop
  | .required run => ∀ pl, ∃ res, run pl = .error res ∧ res ≠ .ok
  | .optional run => ∀ pl, ∃ res, run pl = .error res
  | .refuse res _ => res ≠ .ok

theorem search_of_fails (hfull : full ≠ .ok) {noSimilar : ℕ} (hphs : ∀ ph ∈ phs, ph.Fails)
    (pl : Plan Pos) : (search full noSimilar phs pl).res ≠ .ok := by
  induction phs with
  | nil => exact hfull
  | cons ph phs ih =>
    have hph := hphs ph mem_cons_self
    replace ih := ih fun ph' h' => hphs ph' (mem_cons_of_mem _ h')
    cases ph with
    | refuse res cond =>
      rw [search]
      split_ifs
      · exact hph
      · exact ih
    | required run =>
      obtain ⟨res, hrun, hres⟩ := hph pl
      rw [search, hrun]
      exact hres
    | optional run =>
      obtain ⟨res, hrun⟩ := hph pl
      rw [search, hrun]
      exact ih

section

variable (hsrc : src.any (inv.isNotEmptyBag env) = true)
include hsrc

theorem inBag_fails (bag : ℕ) (merge nonSpecialized : Bool) (skipBag skipSlot : ℕ) (pl : Plan Pos) :
    ∃ res, inv.canStoreItemInBag env bag proto merge nonSpecialized src skipBag skipSlot pl =
      .error res ∧ res ≠ .ok := by
  cases h : inv.canStoreItemInBag env bag proto merge nonSpecialized src skipBag skipSlot pl with
  | ok pl' =>
    obtain ⟨-, -, -, hne, -⟩ := canStoreItemInBag_eq_ok h
    rw [hne] at hsrc
    cases hsrc
  | error res =>
    refine ⟨res, rfl, ?_⟩
    rintro rfl
    exact inBag_ne_error_ok _ _ _ _ _ _ h

theorem inInventorySlots_fails (slotBegin slotEnd : ℕ) (merge : Bool) (skipBag skipSlot : ℕ)
    (pl : Plan Pos) :
    inv.canStoreItemInInventorySlots env slotBegin slotEnd proto merge src skipBag skipSlot pl =
      .error .destroyNonemptyBag :=
  if_pos hsrc

theorem inBagPhase_fails (slotBegin slotEnd bag slot : ℕ) (merge : Bool) :
    (inv.inBagPhase env slotBegin slotEnd bag slot proto src merge).Fails := by
  unfold inBagPhase
  split
  · exact fun pl => ⟨_, inInventorySlots_fails hsrc _ _ _ _ _ _, by decide⟩
  · intro pl
    obtain ⟨res1, h1, -⟩ : ∃ res, inv.canStoreItemInBag env bag proto merge false src nullBag slot
        pl = .error res ∧ res ≠ .ok := inBag_fails hsrc bag merge false nullBag slot pl
    obtain ⟨res2, h2, hne⟩ : ∃ res, inv.canStoreItemInBag env bag proto merge true src nullBag slot
        pl = .error res ∧ res ≠ .ok := inBag_fails hsrc bag merge true nullBag slot pl
    exact ⟨res2, by simp only [inBagTwice, h1, h2], hne⟩

theorem inBagPhases_fail (slotBegin slotEnd bag slot : ℕ) :
    ∀ ph ∈ inv.inBagPhases env slotBegin slotEnd bag slot proto src, ph.Fails :=
  forall_inBagPhases fun merge _ => inBagPhase_fails hsrc _ _ _ _ merge

theorem anywherePhases_fail (slotBegin slotEnd : ℕ) (bags : List ℕ) (bag slot : ℕ)
    {beforeFree : List Phase} (hbefore : ∀ ph ∈ beforeFree, ph.Fails) :
    ∀ ph ∈ inv.anywherePhases env slotBegin slotEnd bags bag slot proto src beforeFree,
      ph.Fails := by
  refine forall_anywherePhases (fun merge _ pl => ?_) (fun merge nonSpecialized _ ph hph => ?_)
    hbefore
  · exact ⟨_, inInventorySlots_fails hsrc _ _ _ _ _ _, by decide⟩
  · obtain ⟨i, -, rfl⟩ := mem_map.1 hph
    exact fun pl => (inBag_fails hsrc i merge nonSpecialized bag slot pl).imp fun _ h => h.1

end

/-- The requested slot is given as much as it has room for. -/
theorem inSpecificSlot_push {bag slot : ℕ}
    (h : inv.canStoreItemInSpecificSlot env bag slot proto swap src pl = .ok pl') :
    (src.any (inv.isNotEmptyBag env) = true → isBagPos (bag, slot) = true) ∧
      ∃ s, pl' = pl.push (bag, slot) s := by
  unfold canStoreItemInSpecificSlot at h
  generalize (if swap = true then none
    else otherItem src (inv.getItemByPos env (bag, slot))) = o at h
  split at h
  · cases h
  rename_i hne
  refine ⟨fun hsrc => by simpa [hsrc] using hne, ?_⟩
  cases o with
  | none =>
    simp only at h
    split at h
    · split at h
      · cases h
      · cases h
        exact ⟨_, rfl⟩
    · split at h
      · cases h
      · split_ifs at h
        cases h
        exact ⟨_, rfl⟩
  | some it =>
    simp only at h
    split at h
    · cases h
      exact ⟨_, rfl⟩
    · cases h

/-- A filled bag is stored whole, at the requested slot of a bag. -/
theorem search_filledBag {bag slot : ℕ} (hsrc : src.any (inv.isNotEmptyBag env) = true)
    (hfull : full ≠ .ok) {rest : List Phase} (hrest : ∀ ph ∈ rest, ph.Fails) {noSimilar : ℕ}
    (h : (search full noSimilar ((if bag ≠ nullBag ∧ slot ≠ nullSlot then
      [.required (inv.canStoreItemInSpecificSlot env bag slot proto swap src)] else []) ++ rest)
        ⟨[], count⟩).res = .ok) :
    isBagPos (bag, slot) = true ∧
      (search full noSimilar ((if bag ≠ nullBag ∧ slot ≠ nullSlot then
        [.required (inv.canStoreItemInSpecificSlot env bag slot proto swap src)] else []) ++ rest)
          ⟨[], count⟩).dest = [((bag, slot), count)] := by
  split_ifs at h ⊢ with hslot
  · rw [singleton_append, search] at h ⊢
    cases hrun : inv.canStoreItemInSpecificSlot env bag slot proto swap src ⟨[], count⟩ with
    | error res =>
      rw [hrun] at h
      exact absurd (by rw [hrun]; exact congrArg _ h) (inSpecificSlot_ne_error_ok _ _ _ _)
    | ok pl' =>
      obtain ⟨hbag, s, rfl⟩ := inSpecificSlot_push hrun
      have hpush : Plan.push ⟨[], count⟩ (bag, slot) s =
          ⟨[((bag, slot), min s count)], count - min s count⟩ :=
        Plan.push_of_not_mem not_mem_nil s
      simp only [hrun, hpush] at h ⊢
      split_ifs at h ⊢ with hzero hns
      · have hmin : min s count = count := by omega
        exact ⟨hbag hsrc, by rw [hmin]⟩
      · exact absurd h (search_of_fails hfull hrest _)
  · exact absurd h (search_of_fails hfull hrest _)

theorem canStoreItem_filledBag {bag slot : ℕ} (hpos : 1 ≤ count) (hlt : count < 2 ^ 32)
    (hsrc : src.any (inv.isNotEmptyBag env) = true)
    (h : (inv.canStoreItem env bag slot entry count src swap).res = .ok) :
    isBagPos (bag, slot) = true ∧
      (inv.canStoreItem env bag slot entry count src swap).dest = [((bag, slot), count)] := by
  obtain ⟨proto, -, heq⟩ := canStoreItem_search hpos hlt h
  rw [heq] at h ⊢
  unfold canStorePhases at h ⊢
  rw [append_assoc] at h ⊢
  have hrest : ∀ ph ∈ (if bag ≠ nullBag then
      inv.inBagPhases env inventorySlotItemStart inventorySlotItemEnd bag slot proto src else []) ++
      inv.anywherePhases env inventorySlotItemStart inventorySlotItemEnd bagSlots bag slot proto src
        [.refuse .bagInBag (src.any (inv.isNotEmptyBag env))], ph.Fails := by
    intro ph hph
    rcases mem_append.1 hph with hph | hph
    · split_ifs at hph
      · exact inBagPhases_fail hsrc _ _ _ _ ph hph
      · cases hph
    · refine anywherePhases_fail hsrc _ _ _ _ _ (fun ph hph => ?_) ph hph
      obtain rfl := mem_singleton.1 hph
      exact fun h => InventoryResult.noConfusion h
  exact search_filledBag hsrc (by decide) hrest h

end Inventory

end MistyWorld
