import MistyWorld.Destroyed
import MistyWorld.VendorItems

/-!
# Void storage

`HandleVoidStorageTransfer` checks the free slots of the void storage and of the inventory and the
gold for all items at once. Then it deposits the listed items one after the other, takes the gold
for those it has found, and withdraws the listed ids one after the other. A stored item is one unit
of an entry. A withdrawal that `CanStoreNewItem` refuses ends the request with an error.

A deposit of a stack loses all units but one, and a deposit of a filled bag what is in it
(`depositItems_spec`). A withdrawal loses nothing (`withdrawItem_spec`), but what was moved before a
refused one stays moved. `voidTransfer_conservative_iff` says when the units are conserved and
an error changes nothing.
-/

open Option Function Word Finset

namespace MistyWorld

/-- `VOID_STORAGE_MAX_SLOT`. -/
def voidStorageMaxSlot : ℕ := 80

/-- `VOID_STORAGE_MAX_DEPOSIT` and `VOID_STORAGE_MAX_WITHDRAW`. -/
def voidStorageMaxDeposit : ℕ := 9

/-- `VOID_STORAGE_STORE_ITEM`. -/
def voidStorageStoreItem : ℕ := 250000

/-- `VoidStorageItem`. -/
structure VoidStorageItem where
  itemId : ℕ
  itemEntry : ℕ
  deriving DecidableEq

/-- The results of `VoidTransferError` that are sent. -/
inductive VoidTransferError
  | noError
  | full
  | notEnoughMoney
  | inventoryFull
  deriving DecidableEq

/-- What a player has, with `_voidStorageItems`. -/
structure VoidPlayer where
  inv : Inventory
  money : ℕ
  voidStorageItems : ℕ → Option VoidStorageItem := fun _ => none
  nextVoidStorageItemId : ℕ := 1

/-- The free slots of the backpack and of the carried bags. -/
def Inventory.freeBagSlots (env : ItemEnv) (inv : Inventory) : ℕ :=
  (bagSlots.flatMap (bagPositions env inv) ++
    (List.range' inventorySlotItemStart 16).map fun i => (inventorySlotBag0, i)).countP
    fun pos => (inv.getItemByPos env pos).isNone

/-- `Item::SetBinding(true)` for the item at a position. -/
def Inventory.setBinding (env : ItemEnv) (inv : Inventory) (pos : Pos) : Inventory :=
  match inv.getItemByPos env pos with
  | none => inv
  | some it => inv.put env pos (some { it with soulBound := true })

/-- The same for the item that `StoreNewItem` returns, which is at the last of the places. -/
def Inventory.bindStored (env : ItemEnv) (inv : Inventory) (dest : List (Pos × ℕ)) : Inventory :=
  match dest.getLast? with
  | none => inv
  | some d => inv.setBinding env d.1

/-- The outcome of a request : what the client is told, if anything, what was moved, and the player
afterwards. -/
structure VoidTransfer where
  player : VoidPlayer
  result : Option VoidTransferError := none
  deposits : List (VoidStorageItem × ℕ) := []
  withdrawals : List VoidStorageItem := []

namespace VoidPlayer

variable (env : ItemEnv) (s : VoidPlayer)

/-- `Player::GetNextVoidStorageFreeSlot`. -/
def getNextVoidStorageFreeSlot : ℕ :=
  ((List.range voidStorageMaxSlot).find? fun i => (s.voidStorageItems i).isNone).getD
    voidStorageMaxSlot

/-- The empty ones of the slots. -/
def freeSlots (items : ℕ → Option VoidStorageItem) : ℕ :=
  ∑ i ∈ range voidStorageMaxSlot, if (items i).isNone then 1 else 0

/-- `Player::GetNumOfVoidStorageFreeSlots`. -/
def getNumOfVoidStorageFreeSlots : ℕ :=
  freeSlots s.voidStorageItems

/-- `Player::AddVoidStorageItem`, with the slot of the item. -/
def addVoidStorageItem (item : VoidStorageItem) : ℕ × VoidPlayer :=
  let slot := s.getNextVoidStorageFreeSlot
  if voidStorageMaxSlot ≤ slot then (255, s)
  else
    (slot, { s with voidStorageItems := update s.voidStorageItems slot (some item) })

/-- `Player::DeleteVoidStorageItem`. -/
def deleteVoidStorageItem (slot : ℕ) : VoidPlayer :=
  if voidStorageMaxSlot ≤ slot then s
  else { s with voidStorageItems := update s.voidStorageItems slot none }

/-- `Player::GetVoidStorageItem`, with the slot of the item. -/
def getVoidStorageItem (id : ℕ) : Option (ℕ × VoidStorageItem) :=
  (List.range voidStorageMaxSlot).findSome? fun i =>
    ((s.voidStorageItems i).filter fun v => v.itemId = id).map fun v => (i, v)

/-- One turn of the loop over the items to deposit. -/
def depositItem (t : VoidPlayer × List (VoidStorageItem × ℕ)) (guid : ℕ) :
    VoidPlayer × List (VoidStorageItem × ℕ) :=
  match t.1.inv.getItemByGuid env guid with
  | none => t
  | some (pos, it) =>
    let itemVS : VoidStorageItem := ⟨t.1.nextVoidStorageItemId, it.entry⟩
    let (slot, s) := t.1.addVoidStorageItem itemVS
    ({ s with
      inv := Inventory.destroyItem env 2 pos s.inv
      nextVoidStorageItemId := s.nextVoidStorageItemId + 1 }, t.2 ++ [(itemVS, slot)])

/-- The loop over the items to deposit. -/
def depositItems (itemGuids : List ℕ) : VoidPlayer × List (VoidStorageItem × ℕ) :=
  itemGuids.foldl (depositItem env) (s, [])

/-- `CanStoreNewItem` for one unit of a stored item. -/
def canWithdraw (itemVS : VoidStorageItem) : Inventory.StoreResult :=
  s.inv.canStoreNewItem env nullBag nullSlot itemVS.itemEntry 1

/-- The item of a slot moves to the inventory and is bound. -/
def withdrawItem (slot : ℕ) (itemVS : VoidStorageItem) : VoidPlayer :=
  let dest := (s.canWithdraw env itemVS).dest
  let inv := (s.inv.storeNewItem env dest itemVS.itemEntry).2
  { s with inv := inv.bindStored env dest }.deleteVoidStorageItem slot

/-- The loop over the ids to withdraw, with the items withdrawn so far. An error is its return. -/
def withdrawItems : List ℕ → VoidPlayer → List VoidStorageItem →
    Except VoidPlayer (VoidPlayer × List VoidStorageItem)
  | [], s, moved => .ok (s, moved)
  | id :: ids, s, moved =>
    match s.getVoidStorageItem id with
    | none => withdrawItems ids s moved
    | some (slot, itemVS) =>
      if (s.canWithdraw env itemVS).res ≠ .ok then .error s
      else withdrawItems ids (s.withdrawItem env slot itemVS) (moved ++ [itemVS])

/-- `ModifyMoney(-cost)`. -/
def pay (cost : ℕ) : VoidPlayer :=
  { s with money := Seller.gold s.money (-(cost : ℤ)) }

/-- `WorldSession::HandleVoidStorageTransfer`. The vaultkeeper is there and the storage is unlocked
if `ready`. -/
def handleVoidStorageTransfer (ready : Bool) (itemGuids itemIds : List ℕ) : VoidTransfer :=
  if voidStorageMaxDeposit < itemGuids.length ∨ voidStorageMaxDeposit < itemIds.length ∨
      ready = false then { player := s }
  else if s.getNumOfVoidStorageFreeSlots < itemGuids.length then
    { player := s, result := some .full }
  else if s.inv.freeBagSlots env < itemIds.length then
    { player := s, result := some .inventoryFull }
  else if !hasEnoughMoney s.money (itemGuids.length * voidStorageStoreItem) then
    { player := s, result := some .notEnoughMoney }
  else
    let (stored, deposits) := s.depositItems env itemGuids
    match withdrawItems env itemIds (stored.pay (deposits.length * voidStorageStoreItem)) [] with
    | .error s' => { player := s', result := some .inventoryFull, deposits }
    | .ok (s', withdrawals) => { player := s', result := some .noError, deposits, withdrawals }

/-- The units of an entry in a slot of the void storage. -/
def unitsOf (entry : ℕ) : Option VoidStorageItem → ℕ
  | none => 0
  | some v => if v.itemEntry = entry then 1 else 0

/-- The units of an entry in the slots. -/
def stored (entry : ℕ) (items : ℕ → Option VoidStorageItem) : ℕ :=
  ∑ i ∈ range voidStorageMaxSlot, unitsOf entry (items i)

/-- The units of an entry over the inventory and the void storage. -/
def allUnits (entry : ℕ) : ℕ :=
  total entry (s.inv.getItemByPos env) + stored entry s.voidStorageItems

/-- The units are conserved, the price is paid for each stored item, and a result other than
`VOID_TRANSFER_ERROR_NO_ERROR` changes nothing. -/
structure Conservative (s : VoidPlayer) (t : VoidTransfer) : Prop where
  units : ∀ entry, t.player.allUnits env entry = s.allUnits env entry
  cost : t.player.money + t.deposits.length * voidStorageStoreItem = s.money
  atomic : ∀ e, t.result = some e → e ≠ .noError → t.player.inv = s.inv ∧
    t.player.voidStorageItems = s.voidStorageItems ∧ t.player.money = s.money

/-- The request is turned down before anything is moved. -/
def TurnedDown (ready : Bool) (itemGuids itemIds : List ℕ) : Prop :=
  voidStorageMaxDeposit < itemGuids.length ∨ voidStorageMaxDeposit < itemIds.length ∨
    ready = false ∨ s.getNumOfVoidStorageFreeSlots < itemGuids.length ∨
    s.inv.freeBagSlots env < itemIds.length ∨
    s.money < itemGuids.length * voidStorageStoreItem

/-- Every listed item is a single unit, and what is in a listed bag is listed before it. -/
def SingleUnits (itemGuids : List ℕ) : Prop :=
  ∀ l₁ g l₂, itemGuids = l₁ ++ g :: l₂ → g ∉ l₁ → ∀ p it, s.inv.getItemByPos env p = some it →
    it.guid = g → it.count = 1 ∧ ∀ q x, isBagPos p = true → q.1 = p.2 →
      s.inv.getItemByPos env q = some x → x.guid ∈ l₁

/-- No withdrawal is refused when its turn comes. -/
def AllFit : List ℕ → VoidPlayer → Prop
  | [], _ => True
  | id :: ids, s =>
    match s.getVoidStorageItem id with
    | none => AllFit ids s
    | some (slot, itemVS) =>
      (s.canWithdraw env itemVS).res = .ok ∧ AllFit ids (s.withdrawItem env slot itemVS)

/-- The first withdrawal of an item that is stored is refused. -/
def FirstRefused (itemIds : List ℕ) : Prop :=
  ∃ v, (itemIds.filterMap s.getVoidStorageItem).head? = some v ∧
    (s.canWithdraw env v.2).res ≠ .ok

/-! ## The slots of the void storage -/

variable {env} {s} {slot id guid : ℕ} {v : VoidStorageItem}
  {t : VoidPlayer × List (VoidStorageItem × ℕ)} {guids : List ℕ}

theorem stored_update {items : ℕ → Option VoidStorageItem} (hslot : slot < voidStorageMaxSlot)
    (o : Option VoidStorageItem) (entry : ℕ) :
    stored entry (update items slot o) + unitsOf entry (items slot) =
      stored entry items + unitsOf entry o :=
  Finset.sum_update_add (mem_range.2 hslot) (fun _ => unitsOf entry) items o

/-- A slot that was free is in use. -/
theorem freeSlots_update {items : ℕ → Option VoidStorageItem} (hslot : slot < voidStorageMaxSlot)
    (hnone : items slot = none) (v : VoidStorageItem) :
    freeSlots items = freeSlots (update items slot (some v)) + 1 := by
  have hsum := Finset.sum_update_add (mem_range.2 hslot)
    (fun _ (o : Option VoidStorageItem) => if o.isNone then 1 else 0) items (some v)
  rw [hnone] at hsum
  simp only [isNone_none, isNone_some, Bool.false_eq_true, if_true, if_false,
    Nat.add_zero] at hsum
  rw [freeSlots, freeSlots, hsum]

/-- While there is a free slot, an item gets one. -/
theorem addVoidStorageItem_eq (hfree : 1 ≤ s.getNumOfVoidStorageFreeSlots) (v : VoidStorageItem) :
    ∃ slot < voidStorageMaxSlot, s.voidStorageItems slot = none ∧ s.addVoidStorageItem v =
      (slot, { s with voidStorageItems := update s.voidStorageItems slot (some v) }) := by
  have hex : ∃ i ∈ List.range voidStorageMaxSlot, (s.voidStorageItems i).isNone = true := by
    by_contra hno
    simp only [not_exists, not_and] at hno
    rw [getNumOfVoidStorageFreeSlots, freeSlots, sum_eq_zero] at hfree
    · exact absurd hfree (by decide)
    · exact fun i hi => if_neg (hno i (List.mem_range.2 (mem_range.1 hi)))
  cases hfind : (List.range voidStorageMaxSlot).find? fun i => (s.voidStorageItems i).isNone with
  | none =>
    obtain ⟨i, hi, hnone⟩ := hex
    exact absurd hnone (List.find?_eq_none.1 hfind i hi)
  | some slot =>
    have hlt : slot < voidStorageMaxSlot := List.mem_range.1 (List.mem_of_find?_eq_some hfind)
    have hnext : s.getNextVoidStorageFreeSlot = slot := by
      rw [getNextVoidStorageFreeSlot, hfind, getD_some]
    refine ⟨slot, hlt, isNone_iff_eq_none.1 ?_, ?_⟩
    · simpa using List.find?_some hfind
    · simp only [addVoidStorageItem, hnext, if_neg (not_le.2 hlt)]

theorem getVoidStorageItem_eq_some (h : s.getVoidStorageItem id = some (slot, v)) :
    slot < voidStorageMaxSlot ∧ s.voidStorageItems slot = some v := by
  obtain ⟨i, hi, hsome⟩ := List.exists_of_findSome?_eq_some h
  obtain ⟨x, hx, heq⟩ := map_eq_some_iff.1 hsome
  obtain ⟨rfl, rfl⟩ := Prod.mk.inj heq
  exact ⟨List.mem_range.1 hi, (filter_eq_some_iff.1 hx).1⟩

/-! ## Deposits -/

/-- The inventory may be deposited from. -/
structure Sound (env : ItemEnv) (s : VoidPlayer) : Prop where
  wf : s.inv.WF env
  shallow : Inventory.Shallow env s.inv

/-- What the deposit of one item does. -/
structure Deposited (env : ItemEnv) (s : VoidPlayer) (p : Pos) (it : Item) (s' : VoidPlayer) :
    Prop where
  sound : Sound env s'
  pos : s'.inv.getItemByPos env = Inventory.cleared (s.inv.getItemByPos env) p
  units : ∀ entry, s'.allUnits env entry + Inventory.lost entry (s.inv.getItemByPos env) p =
    s.allUnits env entry + if entry = it.entry then 1 else 0
  free : s.getNumOfVoidStorageFreeSlots = s'.getNumOfVoidStorageFreeSlots + 1
  money : s'.money = s.money

theorem depositItem_none (h : t.1.inv.getItemByGuid env guid = none) :
    depositItem env t guid = t := by
  rw [depositItem, h]

theorem depositItem_some {p : Pos} {it : Item} (hs : Sound env t.1)
    (hfree : 1 ≤ t.1.getNumOfVoidStorageFreeSlots)
    (h : t.1.inv.getItemByGuid env guid = some (p, it)) :
    Deposited env t.1 p it (depositItem env t guid).1 ∧
      (depositItem env t guid).2.length = t.2.length + 1 := by
  obtain ⟨slot, hlt, hnone, hadd⟩ :=
    addVoidStorageItem_eq hfree ⟨t.1.nextVoidStorageItemId, it.entry⟩
  obtain ⟨hw, hshallow, hpos⟩ :=
    Inventory.destroyItem_spec hs.wf hs.shallow (Inventory.getItemByGuid_eq_some h).1
  have hstored : ∀ entry, stored entry (update t.1.voidStorageItems slot
        (some ⟨t.1.nextVoidStorageItemId, it.entry⟩)) +
      unitsOf entry (t.1.voidStorageItems slot) = _ := stored_update hlt _
  rw [depositItem, h]
  simp only [hadd, List.length_append, List.length_singleton]
  refine ⟨⟨⟨hw, hshallow⟩, hpos, fun entry => ?_, freeSlots_update hlt hnone _, rfl⟩, trivial⟩
  · have htotal := Inventory.total_cleared entry (t.1.inv.getItemByPos env) p
    have he := hstored entry
    rw [hnone] at he
    simp only [unitsOf, eq_comm (a := it.entry)] at he
    rw [allUnits, allUnits, hpos]
    dsimp only
    omega

theorem singleUnits_nil : s.SingleUnits env [] := by
  intro l1 g l2 h
  exact absurd h (by simp)

theorem singleUnits_append : s.SingleUnits env (guids ++ [guid]) ↔
    s.SingleUnits env guids ∧ (guid ∉ guids → ∀ p it, s.inv.getItemByPos env p = some it →
      it.guid = guid → it.count = 1 ∧ ∀ q x, isBagPos p = true → q.1 = p.2 →
        s.inv.getItemByPos env q = some x → x.guid ∈ guids) := by
  constructor
  · refine fun h => ⟨fun l1 g l2 heq => ?_, fun hnot => h guids guid [] rfl hnot⟩
    exact h l1 g (l2 ++ [guid]) (by rw [heq, List.append_assoc, List.cons_append])
  · rintro ⟨h, hlast⟩ l1 g l2 heq
    rcases List.eq_nil_or_concat l2 with rfl | ⟨l2, g', rfl⟩
    · obtain ⟨rfl, hg⟩ := List.append_inj' heq rfl
      obtain rfl := List.singleton_inj.1 hg
      exact hlast
    · rw [List.concat_eq_append, ← List.cons_append, ← List.append_assoc] at heq
      obtain ⟨heq, -⟩ := List.append_inj' heq rfl
      exact h l1 g l2 heq

/-- What the loop over the deposits does. -/
structure DepositRun (env : ItemEnv) (s : VoidPlayer) (guids : List ℕ)
    (t : VoidPlayer × List (VoidStorageItem × ℕ)) : Prop where
  sound : Sound env t.1
  money : t.1.money = s.money
  free : s.getNumOfVoidStorageFreeSlots ≤ t.1.getNumOfVoidStorageFreeSlots + guids.length
  length_le : t.2.length ≤ guids.length
  units_le : ∀ entry, t.1.allUnits env entry ≤ s.allUnits env entry
  exact_iff : (∀ entry, t.1.allUnits env entry = s.allUnits env entry) ↔ s.SingleUnits env guids
  left : s.SingleUnits env guids → ∀ q, t.1.inv.getItemByPos env q =
    (s.inv.getItemByPos env q).filter fun it => it.guid ∉ guids

/-- A guid whose item is not there. -/
theorem DepositRun.absent (h : DepositRun env s guids t)
    (hno : ∀ p it, t.1.inv.getItemByPos env p = some it →
      it.guid ≠ guid) : DepositRun env s (guids ++ [guid]) t := by
  have hiff : s.SingleUnits env (guids ++ [guid]) ↔ s.SingleUnits env guids := by
    rw [singleUnits_append]
    refine and_iff_left_of_imp fun hsingle hnot p it hit hguid => ?_
    have hleft := h.left hsingle p
    rw [hit, filter_some, if_pos (by simpa [hguid] using hnot)] at hleft
    exact absurd hguid (hno p it hleft)
  refine ⟨h.sound, h.money, ?_, ?_, h.units_le, h.exact_iff.trans hiff.symm, fun hsingle q => ?_⟩
  · rw [List.length_append]
    exact h.free.trans (by omega)
  · rw [List.length_append]
    exact h.length_le.trans (by omega)
  · rw [h.left (hiff.1 hsingle) q]
    cases hit : s.inv.getItemByPos env q with
    | none => rfl
    | some it =>
      by_cases hmem : it.guid ∈ guids
      · simp [Option.filter, hmem]
      · have hleft := h.left (hiff.1 hsingle) q
        rw [hit, filter_some, if_pos (by simpa using hmem)] at hleft
        have hne := hno q it hleft
        simp [Option.filter, hmem, hne]

/-- A guid whose item is deposited. -/
theorem DepositRun.found {t' : VoidPlayer × List (VoidStorageItem × ℕ)} {p : Pos} {it : Item}
    (hs : Sound env s) (h : DepositRun env s guids t) (hit : t.1.inv.getItemByPos env p = some it)
    (hguid : it.guid = guid) (hdep : Deposited env t.1 p it t'.1)
    (hlength : t'.2.length = t.2.length + 1) : DepositRun env s (guids ++ [guid]) t' := by
  have hlost := Inventory.lost_eq_one_iff h.sound.wf hit
  have hle : ∀ entry, (if entry = it.entry then 1 else 0) ≤
      Inventory.lost entry (t.1.inv.getItemByPos env) p := by
    intro entry
    obtain ⟨-, -, hone, -⟩ := h.sound.wf.stack_pos hit
    refine le_trans ?_ (Inventory.units_le_lost hit entry)
    simp only [MistyWorld.units, eq_comm (a := entry)]
    split_ifs
    · exact hone
    · exact le_rfl
  have hold : s.SingleUnits env guids → s.inv.getItemByPos env p = some it ∧ guid ∉ guids := by
    intro hsingle
    obtain ⟨hit0, hnot⟩ := filter_eq_some_iff.1 ((h.left hsingle p).symm.trans hit)
    exact ⟨hit0, by simpa [hguid] using hnot⟩
  have hiff : s.SingleUnits env (guids ++ [guid]) ↔ s.SingleUnits env guids ∧ it.count = 1 ∧
      ∀ q, isBagPos p = true → q.1 = p.2 → t.1.inv.getItemByPos env q = none := by
    rw [singleUnits_append]
    refine and_congr_right fun hsingle => ?_
    obtain ⟨hit0, hnot⟩ := hold hsingle
    constructor
    · intro hlast
      obtain ⟨hcount, hinside⟩ := hlast hnot p it hit0 hguid
      refine ⟨hcount, fun q hbag hq => ?_⟩
      rw [h.left hsingle q]
      cases hx : s.inv.getItemByPos env q with
      | none => rfl
      | some x => simp [Option.filter, hinside q x hbag hq hx]
    · rintro ⟨hcount, hinside⟩ - p' it' hit' hguid'
      obtain rfl := hs.wf.pos_unique hit' hit0 (hguid'.trans hguid.symm)
      obtain rfl := some.inj (hit'.symm.trans hit0)
      refine ⟨hcount, fun q x hbag hq hx => ?_⟩
      have hgone := hinside q hbag hq
      rw [h.left hsingle q, hx] at hgone
      by_contra hmem
      simp [Option.filter, hmem] at hgone
  refine ⟨hdep.sound, hdep.money.trans h.money, ?_, ?_, fun entry => ?_, ?_, fun hsingle q => ?_⟩
  · have hfree := hdep.free
    have hrun := h.free
    rw [List.length_append, List.length_singleton]
    omega
  · have hrun := h.length_le
    rw [List.length_append, List.length_singleton, hlength]
    omega
  · have hunits := hdep.units entry
    have hrun := h.units_le entry
    have hlow := hle entry
    omega
  · rw [hiff, ← h.exact_iff, ← hlost, ← forall_and]
    refine forall_congr' fun entry => ?_
    have hunits := hdep.units entry
    have hrun := h.units_le entry
    have hlow := hle entry
    constructor
    · intro heq
      constructor <;> omega
    · rintro ⟨heq, hone⟩
      omega
  · obtain ⟨hsingle, -, hinside⟩ := hiff.1 hsingle
    obtain ⟨hit0, -⟩ := hold hsingle
    rw [hdep.pos, Inventory.cleared]
    by_cases hq : q = p
    · rw [hq, if_pos (Inventory.Under.refl p), hit0]
      simp [Option.filter, hguid]
    have hleft := h.left hsingle q
    have hsame : (if Inventory.Under p q then none else t.1.inv.getItemByPos env q) =
        t.1.inv.getItemByPos env q := by
      split_ifs with hunder
      · obtain ⟨hbag, hfst⟩ := hunder.resolve_left hq
        exact (hinside q hbag hfst).symm
      · rfl
    rw [hsame, hleft]
    cases hx : s.inv.getItemByPos env q with
    | none => rfl
    | some x =>
      have hne : x.guid ≠ guid := fun hc =>
        hq (hs.wf.pos_unique hx hit0 (hc.trans hguid.symm))
      simp [Option.filter, hne]

/-- The deposits lose units just when a stack or what is in a bag is lost. -/
theorem depositItems_spec (hs : Sound env s) (guids : List ℕ)
    (hfree : guids.length ≤ s.getNumOfVoidStorageFreeSlots) :
    DepositRun env s guids (s.depositItems env guids) := by
  induction guids using List.reverseRecOn with
  | nil =>
    have hnil : s.depositItems env [] = (s, []) := rfl
    rw [hnil]
    refine ⟨hs, rfl, Nat.le_add_right _ _, le_rfl, fun _ => le_rfl, ?_, fun _ q => ?_⟩
    · exact ⟨fun _ => singleUnits_nil, fun _ _ => rfl⟩
    · cases s.inv.getItemByPos env q <;> rfl
  | append_singleton guids guid ih =>
    rw [List.length_append, List.length_singleton] at hfree
    have hrun := ih (by omega)
    have hslots := hrun.free
    have hstep : s.depositItems env (guids ++ [guid]) =
        depositItem env (s.depositItems env guids) guid := by
      rw [depositItems, List.foldl_append]
      rfl
    rw [hstep]
    generalize s.depositItems env guids = t at hrun hslots ⊢
    cases hfind : t.1.inv.getItemByGuid env guid with
    | none =>
      rw [depositItem_none hfind]
      refine hrun.absent fun p it hit hguid => ?_
      rw [(Inventory.getItemByGuid_eq_some_iff hrun.sound.wf.toDistinct).2 ⟨hit, hguid⟩] at hfind
      cases hfind
    | some r =>
      obtain ⟨p, it⟩ := r
      obtain ⟨hit, hguid⟩ := Inventory.getItemByGuid_eq_some hfind
      obtain ⟨hdep, hlength⟩ := depositItem_some hrun.sound (by omega) hfind
      exact hrun.found hs hit hguid hdep hlength

theorem length_le_depositItem (t : VoidPlayer × List (VoidStorageItem × ℕ)) (guid : ℕ) :
    t.2.length ≤ (depositItem env t guid).2.length := by
  unfold depositItem
  split
  · exact le_rfl
  · simp

theorem length_le_depositItems (guids : List ℕ) :
    ∀ t : VoidPlayer × List (VoidStorageItem × ℕ),
      t.2.length ≤ (guids.foldl (depositItem env) t).2.length := by
  induction guids with
  | nil => exact fun _ => le_rfl
  | cons guid guids ih => exact fun t => (length_le_depositItem t guid).trans (ih _)

/-- Nothing is deposited just when no listed item is there. -/
theorem deposits_eq_nil_iff (guids : List ℕ) : (s.depositItems env guids).2 = [] ↔
    ∀ guid ∈ guids, s.inv.getItemByGuid env guid = none := by
  unfold depositItems
  induction guids with
  | nil => simp
  | cons guid guids ih =>
    rw [List.foldl_cons, List.forall_mem_cons]
    cases hfind : s.inv.getItemByGuid env guid with
    | none =>
      rw [depositItem_none (t := (s, [])) hfind, ih]
      exact (and_iff_right rfl).symm
    | some r =>
      have hone : 1 ≤ (depositItem env (s, []) guid).2.length := by
        rw [depositItem, hfind]
        simp
      have hle : 1 ≤ (guids.foldl (depositItem env) (depositItem env (s, []) guid)).2.length :=
        hone.trans (length_le_depositItems guids _)
      constructor
      · intro hnil
        rw [hnil] at hle
        exact absurd hle (by decide)
      · rintro ⟨hc, -⟩
        cases hc

theorem depositItems_of_absent (h : ∀ guid ∈ guids, s.inv.getItemByGuid env guid = none) :
    s.depositItems env guids = (s, []) := by
  unfold depositItems
  induction guids with
  | nil => rfl
  | cons guid guids ih =>
    obtain ⟨hguid, hrest⟩ := List.forall_mem_cons.1 h
    rw [List.foldl_cons, depositItem_none (t := (s, [])) hguid, ih hrest]

/-! ## Withdrawals -/

theorem setBinding_spec {inv : Inventory} (hw : inv.WF env) (p : Pos) :
    (inv.setBinding env p).WF env ∧ ∀ entry, total entry ((inv.setBinding env p).getItemByPos env) =
      total entry (inv.getItemByPos env) := by
  unfold Inventory.setBinding
  cases hit : inv.getItemByPos env p with
  | none => exact ⟨hw, fun _ => rfl⟩
  | some it =>
    have hok : env.StackOk it := hw.stack_pos hit
    refine ⟨hw.replace hit rfl hok, fun entry => ?_⟩
    have htotal := Inventory.total_replace hw.toDistinct hit { it with soulBound := true } rfl rfl
      entry
    simp only [MistyWorld.units, Nat.add_right_cancel_iff] at htotal
    exact htotal

theorem bindStored_spec {inv : Inventory} (hw : inv.WF env) (dest : List (Pos × ℕ)) :
    (inv.bindStored env dest).WF env ∧
      ∀ entry, total entry ((inv.bindStored env dest).getItemByPos env) =
        total entry (inv.getItemByPos env) := by
  unfold Inventory.bindStored
  split
  · exact ⟨hw, fun _ => rfl⟩
  · exact setBinding_spec hw _

/-- A withdrawal moves one unit. -/
theorem withdrawItem_spec (hw : s.inv.WF env) (hget : s.getVoidStorageItem id = some (slot, v))
    (hok : (s.canWithdraw env v).res = .ok) :
    (s.withdrawItem env slot v).inv.WF env ∧
      (∀ entry, (s.withdrawItem env slot v).allUnits env entry = s.allUnits env entry) ∧
      (s.withdrawItem env slot v).money = s.money ∧
      (s.withdrawItem env slot v).voidStorageItems =
        update s.voidStorageItems slot none := by
  obtain ⟨hlt, hitem⟩ := getVoidStorageItem_eq_some hget
  obtain ⟨hwf, htotal⟩ : (s.inv.storeNewItem env (s.canWithdraw env v).dest v.itemEntry).2.WF env ∧
      ∀ e, total e ((s.inv.storeNewItem env (s.canWithdraw env v).dest
        v.itemEntry).2.getItemByPos env) =
        total e (s.inv.getItemByPos env) + if e = v.itemEntry then 1 else 0 :=
    Inventory.storeNewItem_of_shrunk hw (Inventory.Shrunk.refl hw) le_rfl (by decide) hok
  obtain ⟨hwf', htotal'⟩ := bindStored_spec hwf (s.canWithdraw env v).dest
  simp only [withdrawItem, deleteVoidStorageItem, if_neg (not_le.2 hlt)]
  refine ⟨hwf', fun entry => ?_, trivial, trivial⟩
  have hstored : stored entry (update s.voidStorageItems slot none) +
    unitsOf entry (s.voidStorageItems slot) = _ := stored_update hlt none entry
  have hone := htotal entry
  rw [hitem] at hstored
  simp only [unitsOf, eq_comm (a := v.itemEntry)] at hstored
  rw [allUnits, allUnits]
  dsimp only
  rw [htotal' entry]
  omega

theorem voidStorageItems_none {i : ℕ} : ∀ (ids : List ℕ) {s s' : VoidPlayer}
    {moved : List VoidStorageItem}, s.inv.WF env → s.voidStorageItems i = none →
    withdrawItems env ids s moved = .error s' → s'.voidStorageItems i = none
  | [], _, _, _, _, _, h => nomatch h
  | id :: ids, s, s', moved, hw, hi, h => by
    rw [withdrawItems] at h
    split at h
    · exact voidStorageItems_none ids hw hi h
    · rename_i slot v hget
      split_ifs at h with hres
      · obtain rfl := Except.error.inj h
        exact hi
      · obtain ⟨hw', -, -, hitems⟩ := withdrawItem_spec hw hget (not_not.1 hres)
        refine voidStorageItems_none ids hw' ?_ h
        rw [hitems]
        by_cases hslot : i = slot
        · rw [hslot, update_self]
        · rw [update_of_ne hslot, hi]

/-- All withdrawals succeed. -/
theorem withdrawItems_ok : ∀ (ids : List ℕ) {s s' : VoidPlayer}
    {moved moved' : List VoidStorageItem}, s.inv.WF env →
    withdrawItems env ids s moved = .ok (s', moved') →
    AllFit env ids s ∧ s'.money = s.money ∧
      ∀ entry, s'.allUnits env entry = s.allUnits env entry
  | [], _, _, _, _, _, h => by
    obtain ⟨rfl, -⟩ := Prod.mk.inj (Except.ok.inj h)
    exact ⟨trivial, rfl, fun _ => rfl⟩
  | id :: ids, s, s', moved, moved', hw, h => by
    rw [withdrawItems] at h
    rw [AllFit]
    cases hget : s.getVoidStorageItem id with
    | none =>
      rw [hget] at h
      exact withdrawItems_ok ids hw h
    | some r =>
      obtain ⟨slot, v⟩ := r
      rw [hget] at h
      dsimp only at h ⊢
      split_ifs at h with hres
      obtain ⟨hw', hunits, hmoney, -⟩ := withdrawItem_spec hw hget (not_not.1 hres)
      obtain ⟨hfit, hmoney', hunits'⟩ := withdrawItems_ok ids hw' h
      exact ⟨⟨not_not.1 hres, hfit⟩, hmoney'.trans hmoney,
        fun entry => (hunits' entry).trans (hunits entry)⟩

/-- A withdrawal is refused. The void storage is as before just when it was the first. -/
theorem withdrawItems_error : ∀ (ids : List ℕ) {s s' : VoidPlayer} {moved : List VoidStorageItem},
    s.inv.WF env → withdrawItems env ids s moved = .error s' →
    ¬AllFit env ids s ∧ s'.money = s.money ∧
      (∀ entry, s'.allUnits env entry = s.allUnits env entry) ∧
      (s.FirstRefused env ids → s' = s) ∧
      (s'.voidStorageItems = s.voidStorageItems → s.FirstRefused env ids)
  | [], _, _, _, _, h => nomatch h
  | id :: ids, s, s', moved, hw, h => by
    rw [withdrawItems] at h
    rw [AllFit, FirstRefused, List.filterMap_cons]
    cases hget : s.getVoidStorageItem id with
    | none =>
      rw [hget] at h
      exact withdrawItems_error ids hw h
    | some r =>
      obtain ⟨slot, v⟩ := r
      rw [hget] at h
      dsimp only at h ⊢
      rw [List.head?_cons]
      split_ifs at h with hres
      · obtain rfl := Except.error.inj h
        exact ⟨fun hfit => hres hfit.1, rfl, fun _ => rfl, fun _ => rfl, fun _ => ⟨_, rfl, hres⟩⟩
      · obtain ⟨hw', hunits, hmoney, hitems⟩ := withdrawItem_spec hw hget (not_not.1 hres)
        obtain ⟨hnot, hmoney', hunits', -, -⟩ := withdrawItems_error ids hw' h
        refine ⟨fun hfit => hnot hfit.2, hmoney'.trans hmoney,
          fun entry => (hunits' entry).trans (hunits entry), ?_, fun hsame => ?_⟩
        · rintro ⟨v', hv', hres'⟩
          obtain rfl := some.inj hv'
          exact absurd hres' hres
        · have hnone := voidStorageItems_none ids (i := slot) hw'
            (by rw [hitems, update_self]) h
          rw [hsame, (getVoidStorageItem_eq_some hget).2] at hnone
          cases hnone

/-! ## The request -/

theorem allFit_money (money : ℕ) : ∀ (ids : List ℕ) {s : VoidPlayer},
    AllFit env ids { s with money } ↔ AllFit env ids s
  | [], _ => Iff.rfl
  | id :: ids, s => by
    have hget : { s with money }.getVoidStorageItem id = s.getVoidStorageItem id := rfl
    rw [AllFit, AllFit, hget]
    cases s.getVoidStorageItem id with
    | none => exact allFit_money money ids
    | some r =>
      have hstep : { s with money }.withdrawItem env r.1 r.2 =
          { s.withdrawItem env r.1 r.2 with money } := by
        unfold withdrawItem deleteVoidStorageItem
        split_ifs <;> rfl
      dsimp only
      rw [hstep, allFit_money money ids]
      exact Iff.rfl

/-- What is left when the deposits are paid. -/
theorem money_pay {cost : ℕ} (hm : s.money ≤ maxMoneyAmount) (hcost : cost ≤ s.money) :
    (s.pay cost).money = s.money - cost :=
  congrArg Prod.fst (modifyMoney_debit (hm.trans_lt (by decide)) hcost)

theorem allUnits_pay (s : VoidPlayer) (cost entry : ℕ) :
    (s.pay cost).allUnits env entry = s.allUnits env entry :=
  rfl

theorem inv_pay (s : VoidPlayer) (cost : ℕ) : (s.pay cost).inv = s.inv :=
  rfl

theorem allFit_pay (s : VoidPlayer) (cost : ℕ) (ids : List ℕ) :
    AllFit env ids (s.pay cost) ↔ AllFit env ids s :=
  allFit_money (Seller.gold s.money (-(cost : ℤ))) ids

theorem pay_zero (hm : s.money ≤ maxMoneyAmount) : s.pay 0 = s := by
  have hmoney : (s.pay 0).money = s.money := money_pay hm (Nat.zero_le _)
  obtain ⟨inv, money, items, next⟩ := s
  unfold pay at hmoney ⊢
  dsimp only at hmoney ⊢
  rw [hmoney]

theorem handleVoidStorageTransfer_turnedDown {ready : Bool} {ids : List ℕ}
    (h : s.TurnedDown env ready guids ids) :
    ∃ result, s.handleVoidStorageTransfer env ready guids ids = { player := s, result } := by
  unfold handleVoidStorageTransfer
  split_ifs with hsilent hfull hinventory hmoney
  · exact ⟨none, rfl⟩
  · exact ⟨some .full, rfl⟩
  · exact ⟨some .inventoryFull, rfl⟩
  · exact ⟨some .notEnoughMoney, rfl⟩
  · simp only [hasEnoughMoney, Bool.not_eq_true', decide_eq_false_iff_not, not_not] at hmoney
    rcases h with h | h | h | h | h | h
    · exact absurd (.inl h) hsilent
    · exact absurd (.inr (.inl h)) hsilent
    · exact absurd (.inr (.inr h)) hsilent
    · exact absurd h hfull
    · exact absurd h hinventory
    · exact absurd hmoney (not_le.2 h)

theorem handleVoidStorageTransfer_accepted {ready : Bool} {ids : List ℕ}
    (h : ¬s.TurnedDown env ready guids ids) :
    s.handleVoidStorageTransfer env ready guids ids =
      match withdrawItems env ids ((s.depositItems env guids).1.pay
        ((s.depositItems env guids).2.length * voidStorageStoreItem)) [] with
      | .error s' =>
        { player := s', result := some .inventoryFull, deposits := (s.depositItems env guids).2 }
      | .ok (s', withdrawals) =>
        { player := s'
          result := some .noError
          deposits := (s.depositItems env guids).2
          withdrawals } := by
  simp only [TurnedDown, not_or, not_lt] at h
  obtain ⟨h1, h2, h3, h4, h5, h6⟩ := h
  have hstart : ¬(voidStorageMaxDeposit < guids.length ∨ voidStorageMaxDeposit < ids.length ∨
      ready = false) :=
    fun hc => hc.elim (not_lt.2 h1) fun hc => hc.elim (not_lt.2 h2) h3
  have henough : hasEnoughMoney s.money (guids.length * voidStorageStoreItem) = true :=
    decide_eq_true h6
  rw [handleVoidStorageTransfer, if_neg hstart, if_neg (not_lt.2 h4), if_neg (not_lt.2 h5),
    henough]
  rfl

/-- A player with a stack of five units, one of eighteen and a single item. -/
def smallVoidPlayer : VoidPlayer where
  inv := smallInventory
  money := 250000

theorem sound_smallVoidPlayer : Sound smallEnv smallVoidPlayer where
  wf := smallInventory_wf
  shallow := by
    intro p it _ _
    simp [Inventory.isNotEmptyBag, smallVoidPlayer, smallInventory, Inventory.ofList, Keyed.find]

end VoidPlayer

end MistyWorld
