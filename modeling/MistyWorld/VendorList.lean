import MistyWorld.Vendor

/-!
# The list of a vendor

`WorldSession::SendListInventory`. The rows that the player may see become records of the packet,
some with an extended cost field and some without, and a bit for each record tells the reader
whether the field is there. The bits are taken from an array that is filled at the places of the
rows, and read at the places of the records.

The array is not initialised, so the place of a hidden row holds what was there before. The bits
fit the records for every content of it exactly when no hidden row stands before one that is shown
(`listInventory_iff`).
-/

open Option Function List Word

namespace MistyWorld

/-! ## What the list reads -/

/-- `MAX_VENDOR_ITEMS`. -/
def maxVendorItems : ℕ := 150

/-- `ITEM_VENDOR_TYPE_ITEM`. -/
def itemVendorTypeItem : ℕ := 1

/-- `BIND_WHEN_PICKED_UP`. -/
def bindWhenPickedUp : ℕ := 1

/-- The part of `ItemTemplate` that the list reads, with the bits of `Flags2`. -/
structure ListedItem where
  allowableClass : ℕ
  bonding : ℕ := 0
  hordeOnly : Bool := false
  allianceOnly : Bool := false
  extCostRequiresGold : Bool := false
  buyPrice : ℤ := 0
  buyCount : ℕ := 1
  displayInfoId : ℕ := 0

/-- The player and the vendor as the list reads them. -/
structure ListReader where
  isGameMaster : Bool := false
  classMask : ℕ
  horde : Bool
  /-- `GetItemTemplate`. -/
  itemTemplate : ℕ → Option ListedItem
  /-- `sCurrencyTypesStore.LookupEntry` finds the currency. -/
  isCurrency : ℕ → Bool := fun _ => false
  /-- `GetVendorItemCurrentCount`. -/
  currentCount : VendorItem → ℕ := fun _ => 0
  /-- `IsObjectMeetToConditions` for an item of this vendor. -/
  meetsConditions : ℕ → Bool := fun _ => true
  /-- The price after the reputation discount and `SPELL_AURA_MOD_VENDOR_ITEMS_PRICES`. -/
  discounted : ℤ → ℕ := Int.toNat

/-- `VendorItem::IsGoldRequired`. -/
def VendorItem.requiresGold (vendorItem : VendorItem) (proto : ListedItem) : Bool :=
  proto.extCostRequiresGold || vendorItem.extendedCost = 0

/-! ## Records -/

/-- A record of the packet. -/
structure ListRecord where
  leftInStock : ℕ
  price : ℕ
  type : ℕ
  displayInfoId : ℕ
  buyCount : ℕ
  item : ℕ
  extendedCost : Option ℕ
  /-- The place of the row, from 1 on. -/
  slot : ℕ
  deriving DecidableEq, Repr

/-- The 32-bit words of a record. -/
def ListRecord.words (r : ListRecord) : List ℕ :=
  [r.leftInStock, r.price, r.type, 0xFFFFFFFF, r.displayInfoId, r.buyCount, r.item] ++
    r.extendedCost.toList ++ [0, r.slot]

section

variable (reader : ListReader)

/-- What keeps an item from a player who is not a game master : his class, his side, or that it
is sold out. -/
def withheld (proto : ListedItem) (leftInStock : ℕ) : Bool :=
  proto.allowableClass &&& reader.classMask = 0 && proto.bonding = bindWhenPickedUp ||
    (proto.hordeOnly && !reader.horde || proto.allianceOnly && reader.horde) ||
      leftInStock = 0

/-- The stock of a row; a row without a maximum has no end. -/
def leftInStock (vendorItem : VendorItem) : ℕ :=
  if vendorItem.maxcount = 0 then 0xFFFFFFFF else reader.currentCount vendorItem

/-- The record of a row, if the player may see it. -/
def listRecord (slot : ℕ) (vendorItem : VendorItem) : Option ListRecord :=
  if vendorItem.type = itemVendorTypeItem then
    match reader.itemTemplate vendorItem.item with
    | none => none
    | some proto =>
      if !reader.isGameMaster && withheld reader proto (leftInStock reader vendorItem) then none
      else if !reader.meetsConditions vendorItem.item then none
      else
        some {
          leftInStock := leftInStock reader vendorItem
          price := if vendorItem.requiresGold proto then reader.discounted proto.buyPrice else 0
          type := vendorItem.type
          displayInfoId := proto.displayInfoId
          buyCount := proto.buyCount
          item := vendorItem.item
          extendedCost := if vendorItem.extendedCost ≠ 0 then some vendorItem.extendedCost else none
          slot := slot + 1 }
  else if vendorItem.type = itemVendorTypeCurrency then
    if !reader.isCurrency vendorItem.item then none
    else if vendorItem.extendedCost = 0 then none
    else
      some {
        leftInStock := 0xFFFFFFFF
        price := 0
        type := vendorItem.type
        displayInfoId := 0
        buyCount := 0
        item := vendorItem.item
        extendedCost := some vendorItem.extendedCost
        slot := slot + 1 }
  else none

/-- The player sees the row. -/
def isShown (vendorItem : VendorItem) : Bool :=
  (listRecord reader 0 vendorItem).isSome

/-! ## The packet -/

/-- What the loop over the rows keeps : `hasExtendedCost`, and the records so far. -/
structure ListState where
  hasExtendedCost : ℕ → Bool
  records : List ListRecord := []

/-- The loop over the rows from a place on. It ends after `MAX_VENDOR_ITEMS` records. -/
def listRows : ℕ → List VendorItem → ListState → ListState
  | _, [], s => s
  | slot, vendorItem :: rows, s =>
    match listRecord reader slot vendorItem with
    | none => listRows (slot + 1) rows s
    | some r =>
      let s : ListState := {
        hasExtendedCost := update s.hasExtendedCost slot r.extendedCost.isSome
        records := s.records ++ [r] }
      if s.records.length ≥ maxVendorItems then s else listRows (slot + 1) rows s

/-- The bits of a record. -/
structure RecordBits where
  unknown : Bool := false
  noExtendedCost : Bool
  hasUnknown : Bool := true
  deriving DecidableEq, Repr

/-- `SMSG_LIST_INVENTORY`. -/
structure ListInventory where
  guid : ℕ
  count : ℕ
  bits : List RecordBits
  /-- The number of rows, or `IsArmorer` when there is none. -/
  rawItemCount : ℕ
  records : List ListRecord

/-- The words of the records. -/
def ListInventory.itemsData (p : ListInventory) : List ℕ :=
  p.records.flatMap ListRecord.words

/-- `SendListInventory` for a vendor that the player can interact with. `memory` is what the
array `hasExtendedCost` holds before it is filled. -/
def sendListInventory (guid : ℕ) (isArmorer : Bool) (rows : List VendorItem)
    (memory : ℕ → Bool) : ListInventory :=
  let s := listRows reader 0 rows { hasExtendedCost := memory }
  let count := toU8 s.records.length
  { guid := guid
    count := count
    bits := (List.range count).map fun i => { noExtendedCost := !s.hasExtendedCost i }
    rawItemCount := if rows.length ≠ 0 then toU8 rows.length else isArmorer.toNat
    records := s.records }

end

/-! ## The reader of the packet -/

/-- Reads a record whose bit is given. -/
def readRecord (noExtendedCost : Bool) : List ℕ → Option (ListRecord × List ℕ)
  | left :: price :: type :: _ :: display :: buyCount :: item :: rest =>
    match noExtendedCost, rest with
    | true, _ :: slot :: rest =>
      some (⟨left, price, type, display, buyCount, item, none, slot⟩, rest)
    | false, cost :: _ :: slot :: rest =>
      some (⟨left, price, type, display, buyCount, item, some cost, slot⟩, rest)
    | _, _ => none
  | _ => none

/-- Reads a record for each bit. -/
def readRecords : List Bool → List ℕ → Option (List ListRecord × List ℕ)
  | [], ws => some ([], ws)
  | b :: bs, ws =>
    (readRecord b ws).bind fun (r, ws) => (readRecords bs ws).map fun (rs, ws) => (r :: rs, ws)

namespace ListInventory

/-- There is a bit for each record, and it is clear exactly when the record has the extended cost
field. -/
def BitsFit (p : ListInventory) : Prop :=
  p.bits.length = p.records.length ∧ ∀ (i : ℕ) (b : RecordBits) (r : ListRecord),
    p.bits[i]? = some b → p.records[i]? = some r →
      (b.noExtendedCost = false ↔ r.extendedCost.isSome = true)

/-- A reader that follows the bits reads exactly the records. -/
def ReadsBack (p : ListInventory) : Prop :=
  readRecords (p.bits.map RecordBits.noExtendedCost) p.itemsData = some (p.records, [])

end ListInventory

theorem readRecord_words (r : ListRecord) (rest : List ℕ) :
    readRecord r.extendedCost.isNone (r.words ++ rest) = some (r, rest) := by
  obtain ⟨left, price, type, display, buyCount, item, _ | cost, slot⟩ := r <;> rfl

/-- What was read under a bit has the field if the bit says so. -/
theorem isNone_of_readRecord {b : Bool} {ws ws' : List ℕ} {r : ListRecord}
    (h : readRecord b ws = some (r, ws')) : r.extendedCost.isNone = b := by
  unfold readRecord at h
  split at h
  · split at h
    · cases h
      rfl
    · cases h
      rfl
    · cases h
  · cases h

theorem readRecords_words (rs : List ListRecord) (rest : List ℕ) :
    readRecords (rs.map fun r => r.extendedCost.isNone) (rs.flatMap ListRecord.words ++ rest) =
      some (rs, rest) := by
  induction rs with
  | nil => rfl
  | cons r rs ih =>
    rw [map_cons, flatMap_cons, append_assoc, readRecords, readRecord_words,
      bind_some]
    dsimp only
    rw [ih, map_some]

theorem isNone_of_readRecords {bs : List Bool} {ws ws' : List ℕ} {rs : List ListRecord}
    (h : readRecords bs ws = some (rs, ws')) : (rs.map fun r => r.extendedCost.isNone) = bs := by
  induction bs generalizing ws rs with
  | nil =>
    cases h
    rfl
  | cons b bs ih =>
    obtain ⟨⟨r, ws1⟩, hr, hrest⟩ := bind_eq_some_iff.1 h
    obtain ⟨⟨rs', ws2⟩, hrs, heq⟩ := map_eq_some_iff.1 hrest
    cases heq
    rw [map_cons, isNone_of_readRecord hr, ih hrs]

namespace ListInventory

variable {p : ListInventory}

theorem readsBack_iff : p.ReadsBack ↔
    p.bits.map RecordBits.noExtendedCost = p.records.map fun r => r.extendedCost.isNone := by
  constructor
  · intro h
    exact (isNone_of_readRecords h).symm
  · intro h
    have hwords := readRecords_words p.records []
    rwa [append_nil, ← h] at hwords

theorem bitsFit_iff_readsBack : p.BitsFit ↔ p.ReadsBack := by
  rw [readsBack_iff, BitsFit]
  constructor
  · rintro ⟨hlen, hbits⟩
    refine ext_getElem? fun i => ?_
    rw [List.getElem?_map, List.getElem?_map]
    cases hb : p.bits[i]? with
    | none =>
      rw [List.getElem?_eq_none (hlen ▸ List.getElem?_eq_none_iff.1 hb)]
      rfl
    | some b =>
      obtain ⟨hi, -⟩ := List.getElem?_eq_some_iff.1 hb
      have hlt : i < p.records.length := hlen ▸ hi
      have hr : p.records[i]? = some p.records[i] := List.getElem?_eq_getElem hlt
      have hiff := hbits i b _ hb hr
      rw [hr, map_some, map_some]
      cases hcost : p.records[i].extendedCost with
      | none | some cost =>
        rw [hcost] at hiff
        simpa using hiff
  · intro h
    have hlen := congrArg List.length h
    rw [length_map, length_map] at hlen
    refine ⟨hlen, fun i b r hb hr => ?_⟩
    have hi := congrArg (fun l => l[i]?) h
    simp only [List.getElem?_map, hb, hr, map_some, some_inj] at hi
    rw [hi]
    cases r.extendedCost <;> simp

end ListInventory

/-! ## What the loop leaves -/

section

variable {reader : ListReader}

/-- Only its number depends on the place of a row. -/
theorem listRecord_eq_map (slot : ℕ) (vendorItem : VendorItem) :
    listRecord reader slot vendorItem =
      (listRecord reader 0 vendorItem).map fun r => { r with slot := slot + 1 } := by
  unfold listRecord
  cases reader.itemTemplate vendorItem.item <;> dsimp only <;> split_ifs <;> rfl

theorem listRecord_isSome (slot : ℕ) (vendorItem : VendorItem) :
    (listRecord reader slot vendorItem).isSome = isShown reader vendorItem := by
  rw [listRecord_eq_map, isSome_map, isShown]

theorem listRecord_eq_none_iff (slot : ℕ) (vendorItem : VendorItem) :
    listRecord reader slot vendorItem = none ↔ isShown reader vendorItem = false := by
  rw [← listRecord_isSome slot, isSome_eq_false_iff, isNone_iff_eq_none]

/-- The records of the rows from a place on. -/
def recordsFrom (reader : ListReader) (slot : ℕ) (rows : List VendorItem) : List ListRecord :=
  (rows.zipIdx slot).filterMap fun x => listRecord reader x.2 x.1

/-- What the array holds at a place after the rows from a place on. -/
def flagFrom (reader : ListReader) (slot : ℕ) (rows : List VendorItem) (memory : ℕ → Bool)
    (i : ℕ) : Bool :=
  if slot ≤ i then
    match rows[i - slot]?.bind (listRecord reader i) with
    | some r => r.extendedCost.isSome
    | none => memory i
  else memory i

theorem recordsFrom_cons (slot : ℕ) (vendorItem : VendorItem) (rows : List VendorItem) :
    recordsFrom reader slot (vendorItem :: rows) =
      (listRecord reader slot vendorItem).toList ++ recordsFrom reader (slot + 1) rows := by
  unfold recordsFrom
  rw [zipIdx_cons, filterMap_cons]
  cases listRecord reader slot vendorItem <;> rfl

theorem flagFrom_cons (slot : ℕ) (vendorItem : VendorItem) (rows : List VendorItem)
    (memory : ℕ → Bool) (i : ℕ) :
    flagFrom reader slot (vendorItem :: rows) memory i =
      flagFrom reader (slot + 1) rows
        (match listRecord reader slot vendorItem with
        | some r => update memory slot r.extendedCost.isSome
        | none => memory) i := by
  unfold flagFrom
  rcases lt_trichotomy i slot with hlt | rfl | hgt
  · rw [if_neg (not_le.2 hlt), if_neg (by omega)]
    cases listRecord reader slot vendorItem with
    | none => rfl
    | some r => exact (update_of_ne hlt.ne r.extendedCost.isSome memory).symm
  · rw [if_pos (le_refl _), if_neg (by omega), Nat.sub_self, List.getElem?_cons_zero,
      bind_some]
    cases listRecord reader i vendorItem with
    | none => rfl
    | some r => exact (update_self i r.extendedCost.isSome memory).symm
  · obtain ⟨k, rfl⟩ : ∃ k, i = slot + 1 + k := ⟨i - (slot + 1), by omega⟩
    rw [if_pos (by omega), if_pos (by omega), show slot + 1 + k - slot = k + 1 by omega,
      List.getElem?_cons_succ, Nat.add_sub_cancel_left]
    cases rows[k]?.bind (listRecord reader (slot + 1 + k)) with
    | some r => rfl
    | none =>
      cases listRecord reader slot vendorItem with
      | none => rfl
      | some r =>
        have hne : slot + 1 + k ≠ slot := by omega
        exact (update_of_ne hne r.extendedCost.isSome memory).symm

/-- Up to `MAX_VENDOR_ITEMS` rows, the loop goes through all of them. -/
theorem listRows_eq (reader : ListReader) (rows : List VendorItem) (slot : ℕ) (s : ListState)
    (h : s.records.length + rows.length ≤ maxVendorItems) :
    (listRows reader slot rows s).records = s.records ++ recordsFrom reader slot rows ∧
      ∀ i, (listRows reader slot rows s).hasExtendedCost i =
        flagFrom reader slot rows s.hasExtendedCost i := by
  induction rows generalizing slot s with
  | nil =>
    refine ⟨(append_nil _).symm, fun i => ?_⟩
    unfold flagFrom
    split_ifs <;> rfl
  | cons vendorItem rows ih =>
    rw [length_cons] at h
    rw [listRows, recordsFrom_cons]
    simp only [flagFrom_cons]
    cases hr : listRecord reader slot vendorItem with
    | none => exact ih (slot + 1) s (by omega)
    | some r =>
      dsimp only
      have hlen : (s.records ++ [r]).length = s.records.length + 1 := length_append
      split_ifs with hend
      · -- the last place of the packet is filled by the last row
        have hrows : rows = [] := eq_nil_of_length_eq_zero (by omega)
        subst hrows
        refine ⟨rfl, fun i => ?_⟩
        unfold flagFrom
        split_ifs <;> rfl
      · obtain ⟨hrecords, hflags⟩ := ih (slot + 1)
          { hasExtendedCost := update s.hasExtendedCost slot r.extendedCost.isSome
            records := s.records ++ [r] } (by dsimp only; omega)
        refine ⟨?_, hflags⟩
        rw [hrecords, append_assoc]
        rfl

theorem length_recordsFrom_le (reader : ListReader) (slot : ℕ) (rows : List VendorItem) :
    (recordsFrom reader slot rows).length ≤ rows.length := by
  have h := length_filterMap_le (fun x => listRecord reader x.2 x.1) (rows.zipIdx slot)
  rwa [length_zipIdx] at h

/-- The packet of a list of at most `MAX_VENDOR_ITEMS` rows. -/
theorem sendListInventory_eq (reader : ListReader) (guid : ℕ) (isArmorer : Bool)
    {rows : List VendorItem} (hrows : rows.length ≤ maxVendorItems) (memory : ℕ → Bool) :
    (sendListInventory reader guid isArmorer rows memory).records = recordsFrom reader 0 rows ∧
      (sendListInventory reader guid isArmorer rows memory).bits =
        (List.range (recordsFrom reader 0 rows).length).map fun i =>
          { noExtendedCost := !flagFrom reader 0 rows memory i } := by
  obtain ⟨hrecords, hflags⟩ := listRows_eq reader rows 0 { hasExtendedCost := memory }
    (by rwa [length_nil, zero_add])
  rw [nil_append] at hrecords
  have hcount : toU8 (recordsFrom reader 0 rows).length = (recordsFrom reader 0 rows).length := by
    refine toU8_of_lt ?_
    have := length_recordsFrom_le reader 0 rows
    unfold maxVendorItems at hrows
    omega
  refine ⟨hrecords, ?_⟩
  unfold sendListInventory
  simp only [hrecords, hflags, hcount]

/-- The bits fit exactly when each place of a record holds whether the record has the field. -/
theorem bitsFit_iff (guid : ℕ) (isArmorer : Bool) {rows : List VendorItem}
    (hrows : rows.length ≤ maxVendorItems) (memory : ℕ → Bool) :
    (sendListInventory reader guid isArmorer rows memory).BitsFit ↔
      ∀ i r, (recordsFrom reader 0 rows)[i]? = some r →
        flagFrom reader 0 rows memory i = r.extendedCost.isSome := by
  obtain ⟨hrecords, hbits⟩ := sendListInventory_eq reader guid isArmorer hrows memory
  rw [ListInventory.BitsFit, hrecords, hbits]
  simp only [length_map, length_range, true_and]
  constructor
  · intro h i r hr
    obtain ⟨hi, -⟩ := List.getElem?_eq_some_iff.1 hr
    have hbit : ((List.range (recordsFrom reader 0 rows).length).map fun i =>
        ({ noExtendedCost := !flagFrom reader 0 rows memory i } : RecordBits))[i]? =
        some { noExtendedCost := !flagFrom reader 0 rows memory i } := by
      rw [List.getElem?_map, List.getElem?_range hi, map_some]
    have hiff := h i _ r hbit hr
    rw [Bool.not_eq_false'] at hiff
    exact Bool.eq_iff_iff.2 hiff
  · intro h i b r hb hr
    obtain ⟨hi, -⟩ := List.getElem?_eq_some_iff.1 hr
    rw [List.getElem?_map, List.getElem?_range hi, map_some] at hb
    cases hb
    rw [Bool.not_eq_false', h i r hr]

/-! ## Hidden rows -/

/-- No hidden row stands before a row that is shown. -/
def HiddenLast (reader : ListReader) (rows : List VendorItem) : Prop :=
  rows.Pairwise fun row later => isShown reader later = true → isShown reader row = true

theorem recordsFrom_eq_nil_iff {slot : ℕ} {rows : List VendorItem} :
    recordsFrom reader slot rows = [] ↔ ∀ row ∈ rows, isShown reader row = false := by
  induction rows generalizing slot with
  | nil => exact iff_of_true rfl fun row hmem => absurd hmem not_mem_nil
  | cons row rows ih =>
    rw [recordsFrom_cons, append_eq_nil_iff, toList_eq_nil_iff,
      listRecord_eq_none_iff, ih, forall_mem_cons]

/-- With the hidden rows last, the records are those of the first rows. -/
theorem HiddenLast.getElem? {rows : List VendorItem} (h : HiddenLast reader rows) (slot i : ℕ) :
    (recordsFrom reader slot rows)[i]? = rows[i]?.bind (listRecord reader (slot + i)) := by
  induction rows generalizing slot i with
  | nil => rfl
  | cons row rows ih =>
    obtain ⟨hrow, hrows⟩ := pairwise_cons.1 h
    rw [recordsFrom_cons]
    cases hr : listRecord reader slot row with
    | none =>
      have hhidden := (listRecord_eq_none_iff slot row).1 hr
      have hall : ∀ later ∈ rows, isShown reader later = false := fun later hmem => by
        cases hlater : isShown reader later with
        | false => rfl
        | true => exact absurd (hrow later hmem hlater) (by rw [hhidden]; exact Bool.false_ne_true)
      rw [recordsFrom_eq_nil_iff.2 hall]
      symm
      refine bind_eq_none_iff.2 fun later hget => ?_
      rw [listRecord_eq_none_iff]
      rcases mem_cons.1 (mem_of_getElem? hget) with rfl | hmem
      · exact hhidden
      · exact hall later hmem
    | some r =>
      cases i with
      | zero => simp [hr]
      | succ i =>
        have hi := ih hrows (slot + 1) i
        rw [show slot + 1 + i = slot + (i + 1) by omega] at hi
        simpa using hi

/-- If the rows at the places of the records are all shown, the hidden rows are last. -/
theorem hiddenLast_of_shown {slot : ℕ} {rows : List VendorItem}
    (h : ∀ i < (recordsFrom reader slot rows).length, ∀ row, rows[i]? = some row →
      isShown reader row = true) : HiddenLast reader rows := by
  induction rows generalizing slot with
  | nil => exact List.Pairwise.nil
  | cons row rows ih =>
    rw [recordsFrom_cons] at h
    cases hr : listRecord reader slot row with
    | some r =>
      have hshown : isShown reader row = true := by
        rw [← listRecord_isSome slot, hr]
        rfl
      refine pairwise_cons.2 ⟨fun _ _ _ => hshown, ?_⟩
      refine @ih (slot + 1) fun i hi later hlater => ?_
      refine h (i + 1) ?_ later hlater
      rw [hr, length_append]
      exact add_comm i 1 ▸ Nat.add_lt_add_left hi 1
    | none =>
      have hhidden := (listRecord_eq_none_iff slot row).1 hr
      rw [hr] at h
      have hnil : recordsFrom reader (slot + 1) rows = [] := by
        by_contra hne
        have hshown := h 0 (length_pos_iff.2 hne) row rfl
        exact Bool.false_ne_true (hhidden ▸ hshown)
      have hall := recordsFrom_eq_nil_iff.1 hnil
      refine pairwise_iff_getElem.2 fun i j hi hj hij hshown => ?_
      obtain ⟨k, rfl⟩ : ∃ k, j = k + 1 := ⟨j - 1, by omega⟩
      rw [getElem_cons_succ] at hshown
      rw [hall _ (getElem_mem _)] at hshown
      exact absurd hshown Bool.false_ne_true

/-- Up to `MAX_VENDOR_ITEMS` rows, the bits fit the records exactly when each place of a record
holds whether the record has the field. They fit, and a reader that follows them reads the records,
for every content of the array exactly when no hidden row stands before one that is shown. -/
theorem listInventory_iff (guid : ℕ) (isArmorer : Bool) {rows : List VendorItem}
    (hrows : rows.length ≤ maxVendorItems) :
    (∀ memory, (sendListInventory reader guid isArmorer rows memory).BitsFit ↔
        ∀ i r, (recordsFrom reader 0 rows)[i]? = some r →
          flagFrom reader 0 rows memory i = r.extendedCost.isSome) ∧
      ((∀ memory, (sendListInventory reader guid isArmorer rows memory).BitsFit ∧
          (sendListInventory reader guid isArmorer rows memory).ReadsBack) ↔
        HiddenLast reader rows) := by
  refine ⟨fun memory => bitsFit_iff guid isArmorer hrows memory, ?_, ?_⟩
  · intro h
    refine @hiddenLast_of_shown reader 0 rows fun i hi row hrow => ?_
    by_contra hhidden
    rw [Bool.not_eq_true, ← listRecord_eq_none_iff i] at hhidden
    have hr : (recordsFrom reader 0 rows)[i]? = some (recordsFrom reader 0 rows)[i] :=
      List.getElem?_eq_getElem hi
    -- the place of the hidden row may hold the wrong answer
    have hflag := (bitsFit_iff guid isArmorer hrows
      fun _ => !(recordsFrom reader 0 rows)[i].extendedCost.isSome).1 (h _).1 i _ hr
    unfold flagFrom at hflag
    rw [if_pos (Nat.zero_le i), Nat.sub_zero, hrow, bind_some, hhidden] at hflag
    exact Bool.not_ne_self _ hflag
  · intro hlast memory
    have hfit := (bitsFit_iff guid isArmorer hrows memory).2 fun i r hr => by
      rw [hlast.getElem? 0 i, Nat.zero_add] at hr
      unfold flagFrom
      rw [if_pos (Nat.zero_le i), Nat.sub_zero, hr]
    exact ⟨hfit, ListInventory.bitsFit_iff_readsBack.1 hfit⟩

end

/-! ## A list with a hidden row -/

/-- A reader who sees the items 1 and 2. -/
def pairReader : ListReader where
  classMask := 1
  horde := false
  itemTemplate i := if i = 1 ∨ i = 2 then some { allowableClass := 1 } else none

/-- A row that is shown with and one that is shown without an extended cost, and a hidden one. -/
def pairRows : List VendorItem :=
  [⟨1, 0, 7, 1⟩, ⟨2, 0, 0, 1⟩, ⟨3, 0, 0, 1⟩]

theorem listInventory_iff_pairRows :
    pairRows.length ≤ maxVendorItems ∧
      ((∀ memory, (sendListInventory pairReader 1 false pairRows memory).BitsFit ∧
          (sendListInventory pairReader 1 false pairRows memory).ReadsBack) ↔
        HiddenLast pairReader pairRows) :=
  ⟨by decide, (listInventory_iff 1 false (by decide)).2⟩

/-- With the hidden row first, the second record is read with the bit of the first one, whatever the
array held. -/
theorem listInventory_hidden_first :
    ¬∃ memory, (sendListInventory pairReader 1 false [⟨3, 0, 0, 1⟩, ⟨1, 0, 7, 1⟩, ⟨2, 0, 0, 1⟩]
      memory).BitsFit := by
  rintro ⟨memory, h⟩
  have hflag := (bitsFit_iff 1 false (by decide) memory).1 h 1 _ rfl
  exact Bool.false_ne_true hflag.symm

end MistyWorld
