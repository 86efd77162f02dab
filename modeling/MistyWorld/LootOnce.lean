import MistyWorld.LootRoom
import MistyWorld.LootFill
import MistyWorld.Run

/-!
# Loot is handed out once

`HandedOnce` says that an item goes to at most one player and in at most the count it dropped
with, and a free for all item at most once to each player. Whether an item is still there is kept
in the flags of the item and in the lists of the players, and each way to hand out reads other
ones. `HandleLootMasterGiveOpcode` gives an item that is looted already, `LootItemInSlot` reads
the own entry of a player for a conditional item and not the item, and it lets a player without an
entry loot a free for all item, which marks nothing. `GroupLoot` opens rolls for looted items. A
step is `Fresh` when it does none of this, and `loot_handed_once` is about runs of such steps.
-/

open List Word Machine

namespace MistyWorld

/-! ## Handouts -/

/-- How often an item was handed out. -/
def handouts (handed : List Handout) (k : ℕ) : ℕ :=
  handed.countP fun o => o.piece = .item k

/-- How often an item was handed out to a player. -/
def handoutsTo (handed : List Handout) (k guid : ℕ) : ℕ :=
  handed.countP fun o => o.piece = .item k ∧ o.player = guid

/-- The handouts of a loot that dropped `items`. -/
structure HandedOnce (items : List LootItem) (handed : List Handout) : Prop where
  single : ∀ {k : ℕ} {item : LootItem}, items[k]? = some item → item.freeforall = false → handouts handed k ≤ 1
  each : ∀ {k : ℕ} {item : LootItem}, items[k]? = some item → item.freeforall = true →
    ∀ guid, handoutsTo handed k guid ≤ 1
  units : ∀ {k : ℕ} {item : LootItem}, items[k]? = some item →
    ∀ o ∈ handed, o.piece = .item k → o.units ≤ item.count

/-- Record units that were put into an inventory. -/
def record (handed : List Handout) (piece : Loot.Piece) (guid units : ℕ) : List Handout :=
  if units = 0 then handed else ⟨piece, guid, units⟩ :: handed

section Record

variable {handed : List Handout} {piece : Loot.Piece} {guid units k g : ℕ}

theorem record_zero (handed : List Handout) (piece : Loot.Piece) (guid : ℕ) :
    record handed piece guid 0 = handed :=
  rfl

theorem mem_record {o : Handout} (h : o ∈ record handed piece guid units) :
    o = ⟨piece, guid, units⟩ ∨ o ∈ handed := by
  unfold record at h
  split_ifs at h
  · exact .inr h
  · exact mem_cons.1 h

theorem handouts_record_of_ne (h : piece ≠ .item k) :
    handouts (record handed piece guid units) k = handouts handed k := by
  unfold record
  split_ifs
  · rfl
  · simp [handouts, h]

theorem handouts_record_le :
    handouts (record handed piece guid units) k ≤ handouts handed k + 1 := by
  unfold record handouts
  split_ifs
  · exact Nat.le_succ _
  · rw [countP_cons]
    split_ifs <;> omega

theorem handoutsTo_record_of_ne (h : piece ≠ .item k ∨ guid ≠ g) :
    handoutsTo (record handed piece guid units) k g = handoutsTo handed k g := by
  unfold record
  split_ifs
  · rfl
  · rcases h with h | h <;> simp [handoutsTo, h]

theorem handoutsTo_record_le :
    handoutsTo (record handed piece guid units) k g ≤ handoutsTo handed k g + 1 := by
  unfold record handoutsTo
  split_ifs
  · exact Nat.le_succ _
  · rw [countP_cons]
    split_ifs <;> omega

end Record

/-! ## The invariant -/

/-- What the marks of a loot say about the handouts. -/
structure Handing (items : List LootItem) (loot : Loot) (handed : List Handout) : Prop
    extends HandedOnce items handed where
  small : ∀ item ∈ items, item.count < 2 ^ 8
  kin : ∀ {k : ℕ} {item : LootItem}, loot.items[k]? = some item → ∃ item₀ : LootItem, items[k]? = some item₀ ∧
    item.freeforall = item₀.freeforall ∧ item.count ≤ item₀.count
  free : ∀ {k : ℕ} {item : LootItem}, loot.items[k]? = some item → item.freeforall = false →
    item.isLooted = false → handouts handed k = 0
  entry : ∀ {k : ℕ} {item : LootItem}, loot.items[k]? = some item → item.freeforall = true → item.count ≠ 0 →
    ∀ guid, handoutsTo handed k guid ≠ 0 →
      ∃ q, Loot.listed loot.playerFFAItems guid k = some q ∧ q.isLooted = true

/-- The fields of an item that the invariant reads. -/
def LootItem.mark (item : LootItem) : Bool × ℕ × Bool :=
  (item.freeforall, item.count, item.isLooted)

namespace Handing

variable {items : List LootItem} {loot loot' : Loot} {handed : List Handout} {k guid : ℕ}
  {item item' : LootItem}

theorem item_ne {j : ℕ} (hj : k ≠ j) : Loot.Piece.item k ≠ .item j :=
  fun hc => hj (Loot.Piece.item.inj hc)

/-- What is read where an item was overwritten. -/
theorem eq_of_set {item1 : LootItem} (hitem : loot.items[k]? = some item)
    (hitems : loot'.items = loot.items.set k item') (hitem1 : loot'.items[k]? = some item1) :
    item1 = item' := by
  rw [hitems, List.getElem?_set_self (List.getElem?_eq_some_iff.1 hitem).1] at hitem1
  exact (Option.some.inj hitem1).symm

section

variable (h : Handing items loot handed)
include h

/-- Changes that the invariant does not read, and new lists of players that had none. -/
theorem congr (hmark : loot'.items.map LootItem.mark = loot.items.map LootItem.mark)
    (hlist : ∀ guid k q, Loot.listed loot.playerFFAItems guid k = some q →
      Loot.listed loot'.playerFFAItems guid k = some q) : Handing items loot' handed := by
  refine ⟨h.toHandedOnce, h.small, fun hitem => ?_, fun hitem hffa hlooted => ?_,
    fun hitem hffa hcount guid hpos => ?_⟩
  all_goals
    obtain ⟨item1, hitem1, hmark1⟩ := exists_getElem?_of_map_eq hmark hitem
    simp only [LootItem.mark, Prod.mk.injEq] at hmark1
    obtain ⟨hffa1, hcount1, hlooted1⟩ := hmark1
  · obtain ⟨item0, hitem0, hffa, hcount⟩ := h.kin hitem1
    exact ⟨item0, hitem0, hffa1 ▸ hffa, hcount1 ▸ hcount⟩
  · exact h.free hitem1 (hffa1.trans hffa) (hlooted1.trans hlooted)
  · obtain ⟨q, hq, hqlooted⟩ := h.entry hitem1 (hffa1.trans hffa) (hcount1 ▸ hcount) guid hpos
    exact ⟨q, hlist _ _ q hq, hqlooted⟩

theorem count_lt (hitem : loot.items[k]? = some item) : item.count < 2 ^ 32 := by
  obtain ⟨item0, hitem0, -, hle⟩ := h.kin hitem
  have hsmall := h.small item0 (mem_of_getElem? hitem0)
  omega

/-- A quest item is handed out. -/
theorem recordQuest (i guid units : ℕ) :
    Handing items loot (record handed (.quest i) guid units) := by
  have hne : ∀ k, Loot.Piece.quest i ≠ .item k := fun k hc => Loot.Piece.noConfusion hc
  refine ⟨⟨fun hitem hffa => ?_, fun hitem hffa g => ?_, fun hitem o ho hk => ?_⟩, h.small, h.kin,
    fun hitem hffa hlooted => ?_, fun hitem hffa hcount g hpos => ?_⟩
  · rw [handouts_record_of_ne (hne _)]
    exact h.single hitem hffa
  · rw [handoutsTo_record_of_ne (.inl (hne _))]
    exact h.each hitem hffa g
  · rcases mem_record ho with rfl | ho
    · exact absurd hk (hne _)
    · exact h.units hitem o ho hk
  · rw [handouts_record_of_ne (hne _)]
    exact h.free hitem hffa hlooted
  · rw [handoutsTo_record_of_ne (.inl (hne _))] at hpos
    exact h.entry hitem hffa hcount g hpos

/-- The units of a new record of an item are within its count. -/
theorem units_record (hitem : loot.items[k]? = some item) {units : ℕ} (hunits : units ≤ item.count)
    {j : ℕ} {item0 : LootItem} (hitem0 : items[j]? = some item0) (o : Handout)
    (ho : o ∈ record handed (.item k) guid units) (hj : o.piece = .item j) :
    o.units ≤ item0.count := by
  rcases mem_record ho with rfl | ho
  · obtain rfl : k = j := Loot.Piece.item.inj hj
    obtain ⟨item1, hitem1, -, hle⟩ := h.kin hitem
    obtain rfl := Option.some.inj (hitem0.symm.trans hitem1)
    exact hunits.trans hle
  · exact h.units hitem0 o ho hj

/-- An item is overwritten by one that has the same kind and no larger count. -/
theorem kin_set (hitem : loot.items[k]? = some item) (hffa : item'.freeforall = item.freeforall)
    (hcount : item'.count ≤ item.count) (hitems : loot'.items = loot.items.set k item') {j : ℕ}
    {item1 : LootItem} (hitem1 : loot'.items[j]? = some item1) :
    ∃ item0 : LootItem, items[j]? = some item0 ∧ item1.freeforall = item0.freeforall ∧
      item1.count ≤ item0.count := by
  by_cases hj : k = j
  · subst hj
    obtain rfl := eq_of_set hitem hitems hitem1
    obtain ⟨item0, hitem0, hffa0, hcount0⟩ := h.kin hitem
    exact ⟨item0, hitem0, hffa.trans hffa0, hcount.trans hcount0⟩
  · rw [hitems, List.getElem?_set_ne hj] at hitem1
    exact h.kin hitem1

/-- An item that is not free for all is handed out and marked. -/
theorem lootItem (item' : LootItem) (hitem : loot.items[k]? = some item)
    (hffa : item.freeforall = false) {units : ℕ} (hunits : units ≤ item.count)
    (hfresh : item.isLooted = false ∨ units = 0) (hffa' : item'.freeforall = false)
    (hcount : item'.count ≤ item.count) (hlooted : item'.isLooted = true)
    (hitems : loot'.items = loot.items.set k item')
    (hlist : loot'.playerFFAItems = loot.playerFFAItems) (guid : ℕ) :
    Handing items loot' (record handed (.item k) guid units) := by
  obtain ⟨item0, hitem0, hffa0, -⟩ := h.kin hitem
  have hother : ∀ {j item1}, loot'.items[j]? = some item1 → k ≠ j →
      loot.items[j]? = some item1 := fun hitem1 hj => by
    rwa [hitems, List.getElem?_set_ne hj] at hitem1
  refine ⟨⟨@fun j item1 hitem1 hffa1 => ?_, @fun j item1 hitem1 hffa1 g => ?_,
    fun hitem1 => h.units_record hitem hunits hitem1⟩, h.small,
    h.kin_set hitem (hffa'.trans hffa.symm) hcount hitems,
    @fun j item1 hitem1 hffa1 hlooted1 => ?_,
    @fun j item1 hitem1 hffa1 hcount1 g hpos => ?_⟩
  · by_cases hj : k = j
    · subst hj
      rcases hfresh with hfresh | hfresh
      · have hzero := h.free hitem hffa hfresh
        have hle := @handouts_record_le handed (.item k) guid units k
        omega
      · rw [hfresh, record_zero]
        exact h.single hitem1 hffa1
    · rw [handouts_record_of_ne (item_ne hj)]
      exact h.single hitem1 hffa1
  · have hj : k ≠ j := by
      rintro rfl
      obtain rfl := Option.some.inj (hitem0.symm.trans hitem1)
      rw [← hffa0, hffa] at hffa1
      cases hffa1
    rw [handoutsTo_record_of_ne (.inl (item_ne hj))]
    exact h.each hitem1 hffa1 g
  · by_cases hj : k = j
    · subst hj
      rw [eq_of_set hitem hitems hitem1, hlooted] at hlooted1
      cases hlooted1
    · rw [handouts_record_of_ne (item_ne hj)]
      exact h.free (hother hitem1 hj) hffa1 hlooted1
  · have hj : k ≠ j := by
      rintro rfl
      rw [eq_of_set hitem hitems hitem1, hffa'] at hffa1
      cases hffa1
    rw [handoutsTo_record_of_ne (.inl (item_ne hj))] at hpos
    rw [hlist]
    exact h.entry (hother hitem1 hj) hffa1 hcount1 g hpos

/-- A free for all item is handed out to a player who did not get it yet, and marked for him or
used up. -/
theorem lootFree (item' : LootItem) (hitem : loot.items[k]? = some item)
    (hffa : item.freeforall = true)
    (hfresh : item.count ≠ 0 → ∀ q, Loot.listed loot.playerFFAItems guid k = some q →
      q.isLooted = false) (hffa' : item'.freeforall = true) (hcount : item'.count ≤ item.count)
    (hitems : loot'.items = loot.items.set k item') (hlist : ∀ g j, g ≠ guid ∨ j ≠ k →
      Loot.listed loot'.playerFFAItems g j = Loot.listed loot.playerFFAItems g j)
    (hmarked : item'.count = 0 ∨ ∃ q, Loot.listed loot'.playerFFAItems guid k = some q ∧
      q.isLooted = true) : Handing items loot' (record handed (.item k) guid item.count) := by
  obtain ⟨item0, hitem0, hffa0, -⟩ := h.kin hitem
  refine ⟨⟨@fun j item1 hitem1 hffa1 => ?_, @fun j item1 hitem1 hffa1 g => ?_,
    fun hitem1 => h.units_record hitem le_rfl hitem1⟩, h.small,
    h.kin_set hitem (hffa'.trans hffa.symm) hcount hitems,
    @fun j item1 hitem1 hffa1 hlooted1 => ?_,
    @fun j item1 hitem1 hffa1 hcount1 g hpos => ?_⟩
  · have hj : k ≠ j := by
      rintro rfl
      obtain rfl := Option.some.inj (hitem0.symm.trans hitem1)
      rw [← hffa0, hffa] at hffa1
      cases hffa1
    rw [handouts_record_of_ne (item_ne hj)]
    exact h.single hitem1 hffa1
  · by_cases hj : k = j ∧ guid = g
    · obtain ⟨rfl, rfl⟩ := hj
      by_cases hzero : item.count = 0
      · rw [hzero, record_zero]
        exact h.each hitem1 hffa1 guid
      · have hnone : handoutsTo handed k guid = 0 := by
          by_contra hpos
          obtain ⟨q, hq, hqlooted⟩ := h.entry hitem hffa hzero guid hpos
          rw [hfresh hzero q hq] at hqlooted
          cases hqlooted
        have hle := @handoutsTo_record_le handed (.item k) guid item.count k guid
        omega
    · rw [handoutsTo_record_of_ne (by
        rcases not_and_or.1 hj with hj | hj
        · exact .inl (item_ne hj)
        · exact .inr hj)]
      exact h.each hitem1 hffa1 g
  · have hj : k ≠ j := by
      rintro rfl
      rw [eq_of_set hitem hitems hitem1, hffa'] at hffa1
      cases hffa1
    rw [handouts_record_of_ne (item_ne hj)]
    rw [hitems, List.getElem?_set_ne hj] at hitem1
    exact h.free hitem1 hffa1 hlooted1
  · by_cases hj : k = j
    · subst hj
      obtain rfl := eq_of_set hitem hitems hitem1
      by_cases hg : guid = g
      · subst hg
        exact hmarked.resolve_left hcount1
      · rw [handoutsTo_record_of_ne (.inr hg)] at hpos
        rw [hlist g k (.inl (Ne.symm hg))]
        exact h.entry hitem hffa (fun hzero => hcount1 (by omega)) g hpos
    · rw [handoutsTo_record_of_ne (.inl (item_ne hj))] at hpos
      rw [hitems, List.getElem?_set_ne hj] at hitem1
      rw [hlist g j (.inr (Ne.symm hj))]
      exact h.entry hitem1 hffa1 hcount1 g hpos

end

/-- `StoreLootItem` for a free for all item. -/
theorem storeFree {f : Loot.Found} {lootSlot : ℕ} (hh : Handing items loot handed) (hitem : loot.items[lootSlot]? = some f.item)
    (hffa : f.item.freeforall = true)
    (hfresh : f.item.count ≠ 0 → (Loot.listed loot.playerFFAItems guid lootSlot).isSome)
    (hentry : (match Loot.listed loot.playerFFAItems guid lootSlot with
      | some q => (Loot.Entry.ffa, q.isLooted)
      | none => (.none, f.item.isLooted)) = (f.entry, false)) :
    Handing items (loot.markLooted guid lootSlot f)
      (record handed (.item lootSlot) guid f.item.count) := by
  cases hlisted : Loot.listed loot.playerFFAItems guid lootSlot with
  | none =>
    rw [hlisted] at hentry hfresh
    have hzero : f.item.count = 0 := by
      by_contra hcount
      exact absurd (hfresh hcount) (by simp)
    have hnone : f.entry = .none := (congrArg Prod.fst hentry).symm
    rw [hzero, record_zero]
    have heq : loot.markLooted guid lootSlot f = loot.uncount := by
      simp [Loot.markLooted, Loot.lootEntry, hnone, hffa]
    rw [heq]
    exact hh.congr rfl fun _ _ _ hq => hq
  | some q =>
    rw [hlisted] at hentry
    have hnot : q.isLooted = false := congrArg Prod.snd hentry
    have hent : f.entry = .ffa := (congrArg Prod.fst hentry).symm
    have heq : loot.markLooted guid lootSlot f = ({ loot with
        playerFFAItems := loot.playerFFAItems.modify guid (lootIndex lootSlot) } : Loot).uncount := by
      simp [Loot.markLooted, Loot.lootEntry, hent, hffa]
    rw [heq]
    refine hh.lootFree f.item hitem hffa (fun _ q' hq' => ?_) hffa le_rfl ?_
      (fun g j hne => Loot.listed_lootIndex_of_ne hne _) (.inr ?_)
    · rw [hlisted] at hq'
      exact Option.some.inj hq' ▸ hnot
    · exact (set_of_getElem? hitem).symm
    · refine ⟨{ q with isLooted := true }, ?_, rfl⟩
      exact (Loot.listed_lootIndex_self _ _ _).trans (by rw [hlisted]; rfl)

end Handing

/-! ## Handing out -/

variable {r : Roll}

namespace Haul

variable {env : LootEnv} {items : List LootItem} {h h' : Haul} {guid lootSlot : ℕ} {item : LootItem}

/-- The invariant of a haul. -/
def Once (items : List LootItem) (h : Haul) : Prop :=
  Handing items h.loot h.handed

/-- `giveItem` records what it puts into the inventory, all units of the item. -/
theorem giveItem_eq {piece : Loot.Piece} {itemid count : ℕ}
    (hgive : h.giveItem env piece guid itemid count = some h') :
    h'.loot = h.loot ∧ ∃ units, h'.handed = record h.handed piece guid units ∧
      (count < 2 ^ 32 → units = count) := by
  unfold giveItem at hgive
  simp only at hgive
  split at hgive
  · rename_i hok
    cases hgive
    exact ⟨rfl, _, rfl, fun hlt => Inventory.canStoreItem_sum hlt hok⟩
  · cases hgive

/-- What `giveItem` records is what the inventory of the player gains. -/
theorem giveItem_total {piece : Loot.Piece} {itemid count : ℕ} (hw : (h.invs guid).WF env.items)
    (hlt : count < 2 ^ 32) (hgive : h.giveItem env piece guid itemid count = some h') :
    (∀ g, g ≠ guid → h'.invs g = h.invs g) ∧ (h'.invs guid).WF env.items ∧
      ∀ entry, total entry ((h'.invs guid).getItemByPos env.items) =
        total entry ((h.invs guid).getItemByPos env.items) +
          if entry = itemid then count else 0 := by
  unfold giveItem at hgive
  simp only at hgive
  split at hgive
  · rename_i hok
    cases hgive
    refine ⟨fun g hg => Function.update_of_ne hg _ _, ?_⟩
    simp only [Function.update_self]
    rcases Nat.eq_zero_or_pos count with rfl | hpos
    · -- no item is created
      have hnone : (h.invs guid).createItem env.items itemid 0 = none := by
        simp [Inventory.createItem]
      rw [Inventory.storeNewItem, Inventory.canStoreItem_zero hok, hnone]
      exact ⟨hw, fun entry => by rw [ite_self, add_zero]⟩
    · obtain ⟨proto, hproto, hplan⟩ := Inventory.canStoreItem_placed hpos hlt hok
      obtain ⟨it, hit, -, hempty, hland⟩ := Inventory.storeSource_landed hw .new
        (by rintro s ⟨⟩) hproto hpos hplan (by rintro s ⟨⟩)
        (fun w hww => by simp at hww)
        (by rintro ⟨⟩)
      refine ⟨hland.wf, fun entry => ?_⟩
      have htotal := hland.total entry
      rw [Inventory.brought_of_empty (hempty rfl), add_zero, hit] at htotal
      exact htotal
  · cases hgive

/-- The item of the slot is given to a player who has an entry for it if it is free for all, and
otherwise it is not looted, or `StoreLootItem` refuses it. -/
def FreshStore (loot : Loot) (guid lootSlot : ℕ) : Prop :=
  ∀ item, loot.items[lootSlot]? = some item → item.count ≠ 0 →
    (loot.lootItemInSlot lootSlot guid).isSome →
      if item.freeforall then (Loot.listed loot.playerFFAItems guid lootSlot).isSome
      else item.isLooted = true → item.isBlocked = true

theorem Once.storeLootItem (hh : h.Once items) (hfresh : FreshStore h.loot guid lootSlot) :
    (h.storeLootItem env guid lootSlot).Once items := by
  unfold Haul.storeLootItem
  cases hfound : h.loot.lootItemInSlot lootSlot guid with
  | none => exact hh
  | some f =>
    simp only
    split_ifs with hblocked
    · exact hh
    cases hgive : h.giveItem env f.piece guid f.item.itemid f.item.count with
    | none => exact hh
    | some h' =>
      obtain ⟨-, units, hhanded, hunits⟩ := giveItem_eq hgive
      rcases Loot.lootItemInSlot_cases hfound with
        ⟨ql, q, j, -, -, -, -, hpiece, hentry, -⟩ | ⟨hitem, hpiece, hentry⟩
      · -- a quest item : neither the items nor the free for all lists change
        change Handing items (h.loot.markLooted guid lootSlot f) h'.handed
        rw [hhanded, hpiece]
        refine Handing.congr (hh.recordQuest _ _ _) ?_ fun g k q' hq' => ?_
        · simp only [Loot.markLooted, Loot.lootEntry, hentry, Loot.setPiece, hpiece]
          split_ifs <;> rfl
        · simp only [Loot.markLooted, Loot.lootEntry, hentry, Loot.setPiece, hpiece]
          split_ifs <;> exact hq'
      · obtain rfl := hunits (hh.count_lt hitem)
        have hfresh' := hfresh f.item hitem
        rw [hfound] at hfresh'
        change Handing items (h.loot.markLooted guid lootSlot f) h'.handed
        rw [hhanded, hpiece]
        cases hffa : f.item.freeforall with
        | true =>
          rw [hffa, if_pos rfl] at hfresh'
          rw [Loot.itemEntry_of_freeforall hffa] at hentry
          exact hh.storeFree hitem hffa (fun hcount => hfresh' hcount rfl) hentry
        | false =>
          rw [hffa, if_neg Bool.false_ne_true] at hfresh'
          have hother : f.entry = .none ∨ f.entry = .cond := by
            rcases Loot.itemEntry_cases hffa with heq | ⟨q, -, -, heq⟩
            · exact .inl (congrArg Prod.fst (hentry.symm.trans heq))
            · exact .inr (congrArg Prod.fst (hentry.symm.trans heq))
          have hfresh'' : f.item.isLooted = false ∨ f.item.count = 0 := by
            by_contra hnot
            rw [not_or, Bool.not_eq_false] at hnot
            have hb := hfresh' hnot.2 rfl hnot.1
            rcases hother with heq | heq <;> simp [heq, hb] at hblocked
          refine hh.lootItem { f.item with isLooted := true } hitem hffa le_rfl hfresh'' hffa
            le_rfl rfl ?_ ?_ guid
          all_goals
            rcases hother with heq | heq <;>
              simp [Loot.markLooted, Loot.lootEntry, heq, hffa, hpiece, Loot.setPiece, Loot.uncount]

/-- The item of the slot is given to a target who has not looted it if it is free for all, and
otherwise it is not looted. -/
def FreshGive (loot : Loot) (r : MasterGive) : Prop :=
  ∀ item target, loot.items[r.slotid]? = some item → r.target = some target → item.count ≠ 0 →
    if item.freeforall then
      ∀ q, Loot.listed loot.playerFFAItems target.guid r.slotid = some q → q.isLooted = false
    else item.isLooted = false

theorem pieceOfSlot_cases (h : Haul) (slot : ℕ) :
    (h.loot.items[slot]? = none ∧ ∃ i, h.pieceOfSlot slot = .quest i) ∨
      ∃ item, h.loot.items[slot]? = some item ∧ h.pieceOfSlot slot = .item slot ∧
        h.loot.pieceItem (h.pieceOfSlot slot) = some item := by
  unfold pieceOfSlot
  split_ifs with hslot
  · exact .inl ⟨List.getElem?_eq_none hslot, _, rfl⟩
  · exact .inr ⟨_, List.getElem?_eq_getElem (not_le.1 hslot), rfl,
      List.getElem?_eq_getElem (not_le.1 hslot)⟩

theorem Once.quest (hh : h.Once items) {loot : Loot} {i units : ℕ} (guid : ℕ)
    (hitems : loot.items = h.loot.items) (hlist : loot.playerFFAItems = h.loot.playerFFAItems) :
    Handing items loot (record h.handed (.quest i) guid units) :=
  (hh.recordQuest i guid units).congr (by rw [hitems]) fun _ _ _ hq => by rw [hlist]; exact hq

theorem Once.masterGive {r : MasterGive} (hh : h.Once items) (hfresh : FreshGive h.loot r) :
    (h.masterGive env r).Once items := by
  unfold Haul.masterGive
  split
  · rename_i method looterGuid target _ htarget
    split_ifs
    · exact hh
    split
    · exact hh
    rename_i item hitem
    split_ifs
    · exact hh
    cases hgive : h.giveItem env (h.pieceOfSlot r.slotid) target.guid item.itemid item.count with
    | none => exact hh
    | some h' =>
      obtain ⟨-, units, hhanded, hunits⟩ := giveItem_eq hgive
      change Handing items (h.loot.setPiece { item with count := 0, isLooted := true }
        (h.pieceOfSlot r.slotid)).uncount h'.handed
      rcases h.pieceOfSlot_cases r.slotid with ⟨-, i, hpiece⟩ | ⟨item1, hitem1, hpiece, hpieceItem⟩
      · rw [hhanded, hpiece]
        exact hh.quest _ rfl rfl
      · obtain rfl := Option.some.inj (hitem.symm.trans hpieceItem)
        obtain rfl := hunits (hh.count_lt hitem1)
        have hfresh' := hfresh item target hitem1 htarget
        rw [hhanded, hpiece]
        rcases Bool.eq_false_or_eq_true item.freeforall with hffa | hffa
        · rw [hffa, if_pos rfl] at hfresh'
          exact hh.lootFree { item with count := 0, isLooted := true } hitem1 hffa hfresh' hffa
            (Nat.zero_le _) rfl (fun _ _ _ => rfl) (.inl rfl)
        · rw [hffa, if_neg Bool.false_ne_true] at hfresh'
          have hfresh'' : item.isLooted = false ∨ item.count = 0 := by
            by_cases hzero : item.count = 0
            · exact .inr hzero
            · exact .inl (hfresh' hzero)
          refine hh.lootItem { item with count := 0, isLooted := true } hitem1 hffa le_rfl hfresh''
            hffa (Nat.zero_le _) rfl ?_ ?_ _ <;> rfl
  · exact hh

/-- The item of a roll, if it is one of `items`, is not free for all and not handed out yet. -/
def FreshRoll (loot : Loot) (r : Roll) : Prop :=
  ∀ item, loot.items[r.itemSlot]? = some item →
    item.freeforall = false ∧ (item.isLooted = false ∨ item.count = 0)

theorem Once.unblock (hh : h.Once items) {slot : ℕ}
    (hitem : h.loot.pieceItem (h.pieceOfSlot slot) = some item) :
    Handing items (h.loot.setPiece { item with isBlocked := false } (h.pieceOfSlot slot))
      h.handed := by
  rcases h.pieceOfSlot_cases slot with ⟨-, i, hpiece⟩ | ⟨item1, hitem1, hpiece, hpieceItem⟩
  · rw [hpiece]
    exact hh.congr rfl fun _ _ _ hq => hq
  · obtain rfl := Option.some.inj (hitem.symm.trans hpieceItem)
    rw [hpiece]
    exact hh.congr (map_set_of_eq hitem1 rfl) fun _ _ _ hq => hq

/-- The item of a roll is marked, with `units` of it handed out. -/
theorem Once.markRolled (hh : h.Once items) (hfresh : FreshRoll h.loot r)
    (hitem : h.loot.pieceItem (h.pieceOfSlot r.itemSlot) = some item) (guid : ℕ) {units : ℕ}
    (hunits : units = 0 ∨ (item.count < 2 ^ 32 → units = item.count)) :
    Handing items (h.loot.setPiece { item with isLooted := true } (h.pieceOfSlot r.itemSlot)).uncount
      (record h.handed (h.pieceOfSlot r.itemSlot) guid units) := by
  rcases h.pieceOfSlot_cases r.itemSlot with ⟨-, i, hpiece⟩ | ⟨item1, hitem1, hpiece, hpieceItem⟩
  · rw [hpiece]
    exact hh.quest guid rfl rfl
  · obtain rfl := Option.some.inj (hitem.symm.trans hpieceItem)
    obtain ⟨hffa, hnew⟩ := hfresh item hitem1
    have hunits' : units = 0 ∨ units = item.count :=
      hunits.imp_right fun heq => heq (hh.count_lt hitem1)
    rw [hpiece]
    refine hh.lootItem { item with isLooted := true } hitem1 hffa (by omega) ?_ hffa le_rfl rfl ?_ ?_
      guid
    · rcases hunits' with hunits' | hunits'
      · exact .inr hunits'
      · exact hnew.imp_right hunits'.trans
    · rfl
    · rfl

theorem Once.awardItem (hh : h.Once items) (hfresh : FreshRoll h.loot r)
    (hitem : h.loot.pieceItem (h.pieceOfSlot r.itemSlot) = some item) :
    (h.awardItem env r.itemid (h.pieceOfSlot r.itemSlot) item guid).Once items := by
  unfold Haul.awardItem
  cases hgive : h.giveItem env (h.pieceOfSlot r.itemSlot) guid r.itemid item.count with
  | none => exact hh.unblock hitem
  | some h' =>
    obtain ⟨-, units, hhanded, hunits⟩ := giveItem_eq hgive
    change Handing items _ h'.handed
    rw [hhanded]
    exact hh.markRolled hfresh hitem guid (.inr hunits)

/-- Handing out what was rolled for keeps the invariant. -/
theorem Once.award (hh : h.Once items) (hfresh : FreshRoll h.loot r) (d : Draw) :
    (h.award env r d).Once items := by
  unfold Haul.award
  simp only
  cases hitem : h.loot.pieceItem (h.pieceOfSlot r.itemSlot) with
  | none => exact hh
  | some item =>
    cases r.outcome d.dice with
    | need won =>
      simp only
      split_ifs
      · exact hh.awardItem hfresh hitem
      · exact hh
    | greed won =>
      simp only
      split
      · exact hh.awardItem hfresh hitem
      · have hmark := hh.markRolled hfresh hitem won.guid (.inl rfl)
        rwa [record_zero] at hmark
      · exact hh
    | allPassed => exact hh.unblock hitem
    | nobody => exact hh

/-! ## Items under a roll -/

/-- The items of the loot are the same, but for one that is overwritten. -/
def ItemsSet (k : ℕ) (P : LootItem → LootItem → Prop) (h h' : Haul) : Prop :=
  h'.loot.items = h.loot.items ∨ ∃ item item', h.loot.items[k]? = some item ∧
    h'.loot.items = h.loot.items.set k item' ∧ P item item'

theorem storeLootItem_itemsSet (h : Haul) (guid lootSlot : ℕ) :
    ItemsSet lootSlot
      (fun item item' => item.isBlocked = false ∧ item' = { item with isLooted := true }) h
      (h.storeLootItem env guid lootSlot) := by
  unfold storeLootItem
  cases hfound : h.loot.lootItemInSlot lootSlot guid with
  | none => exact .inl rfl
  | some f =>
    simp only
    split_ifs with hblocked
    · exact .inl rfl
    cases hgive : h.giveItem env f.piece guid f.item.itemid f.item.count with
    | none => exact .inl rfl
    | some h' =>
      change (h.loot.markLooted guid lootSlot f).items = _ ∨ ∃ item item', _ ∧
        (h.loot.markLooted guid lootSlot f).items = _ ∧ _
      have hentry : ∀ e, (h.loot.lootEntry guid lootSlot e).items = h.loot.items := by
        intro e
        cases e <;> rfl
      rcases Loot.lootItemInSlot_cases hfound with
        ⟨ql, q, j, -, -, -, -, hpiece, -⟩ | ⟨hitem, hpiece, hent⟩
      · left
        simp only [Loot.markLooted, hpiece, Loot.setPiece]
        split_ifs <;> exact hentry _
      · cases hffa : f.item.freeforall with
        | true =>
          left
          simp only [Loot.markLooted, hffa, if_true]
          exact hentry _
        | false =>
          refine .inr ⟨f.item, { f.item with isLooted := true }, hitem, ?_, ?_, rfl⟩
          · simp only [Loot.markLooted, hffa, Bool.false_eq_true, if_false, hpiece, Loot.setPiece,
              Loot.uncount, hentry]
          · rcases Loot.itemEntry_cases hffa with heq | ⟨q, -, -, heq⟩
            · have hnone : f.entry = .none := congrArg Prod.fst (hent.symm.trans heq)
              simpa [hnone] using hblocked
            · have hcond : f.entry = .cond := congrArg Prod.fst (hent.symm.trans heq)
              simpa [hcond] using hblocked

/-- Write the piece of a slot. -/
theorem itemsSet_setPiece (h h' : Haul) (slot : ℕ) {item' : LootItem}
    (hitem : h.loot.pieceItem (h.pieceOfSlot slot) = some item) {P : LootItem → LootItem → Prop}
    (hP : P item item') (heq : h'.loot.items = (h.loot.setPiece item' (h.pieceOfSlot slot)).items) :
    ItemsSet slot P h h' := by
  rcases h.pieceOfSlot_cases slot with ⟨-, i, hpiece⟩ | ⟨item1, hitem1, hpiece, hpieceItem⟩
  · left
    rw [heq, hpiece]
    rfl
  · obtain rfl := Option.some.inj (hitem.symm.trans hpieceItem)
    refine .inr ⟨item, item', hitem1, ?_, hP⟩
    rw [heq, hpiece]
    rfl

theorem masterGive_itemsSet (h : Haul) (r : MasterGive) :
    ItemsSet r.slotid (fun item item' => item' = { item with count := 0, isLooted := true }) h
      (h.masterGive env r) := by
  unfold masterGive
  split
  · rename_i method looterGuid target _ htarget
    split_ifs
    · exact .inl rfl
    split
    · exact .inl rfl
    rename_i item hitem
    split_ifs
    · exact .inl rfl
    cases hgive : h.giveItem env (h.pieceOfSlot r.slotid) target.guid item.itemid item.count with
    | none => exact .inl rfl
    | some h' => exact itemsSet_setPiece h _ r.slotid hitem rfl rfl
  · exact .inl rfl

theorem awardItem_itemsSet (h : Haul)
    (hitem : h.loot.pieceItem (h.pieceOfSlot r.itemSlot) = some item) (guid : ℕ) :
    ItemsSet r.itemSlot (fun _ _ => True) h
      (h.awardItem env r.itemid (h.pieceOfSlot r.itemSlot) item guid) := by
  unfold awardItem
  cases hgive : h.giveItem env (h.pieceOfSlot r.itemSlot) guid r.itemid item.count with
  | none | some h' => exact itemsSet_setPiece h _ r.itemSlot hitem trivial rfl

theorem award_itemsSet (h : Haul) (r : Roll) (d : Draw) :
    ItemsSet r.itemSlot (fun _ _ => True) h (h.award env r d) := by
  unfold award
  simp only
  cases hitem : h.loot.pieceItem (h.pieceOfSlot r.itemSlot) with
  | none => exact .inl rfl
  | some item =>
    cases r.outcome d.dice with
    | need won =>
      simp only
      split_ifs
      · exact h.awardItem_itemsSet hitem won.guid
      · exact .inl rfl
    | greed won =>
      simp only
      split
      · exact h.awardItem_itemsSet hitem won.guid
      · exact itemsSet_setPiece h _ r.itemSlot hitem trivial rfl
      · exact .inl rfl
    | allPassed => exact itemsSet_setPiece h _ r.itemSlot hitem trivial rfl
    | nobody => exact .inl rfl

end Haul

/-- The item of a roll is blocked, not free for all and not handed out yet. -/
def Rolled (items : List LootItem) (slot : ℕ) : Prop :=
  ∀ item, items[slot]? = some item → item.isBlocked = true ∧ item.freeforall = false ∧
    (item.isLooted = false ∨ item.count = 0)

theorem Rolled.of_itemsSet {h h' : Haul} {k slot : ℕ} {P : LootItem → LootItem → Prop}
    (hr : Rolled h.loot.items slot) (hset : Haul.ItemsSet k P h h')
    (hP : ∀ {item item'}, h.loot.items[slot]? = some item → k = slot → P item item' →
      item'.isBlocked = true ∧ item'.freeforall = false ∧
        (item'.isLooted = false ∨ item'.count = 0)) :
    Rolled h'.loot.items slot := by
  intro item hitem
  rcases hset with heq | ⟨item1, item2, hitem1, heq, hp⟩
  · exact hr item (heq ▸ hitem)
  · rw [heq] at hitem
    by_cases hk : k = slot
    · subst hk
      rw [List.getElem?_set_self (List.getElem?_eq_some_iff.1 hitem1).1] at hitem
      exact Option.some.inj hitem ▸ hP hitem1 rfl hp
    · exact hr item (by rwa [List.getElem?_set_ne hk] at hitem)

/-! ## Opening the rolls -/

theorem addPlayer_itemSlot (m : RollMember) (canPass : Bool) (r : Roll) :
    (r.addPlayer m canPass).itemSlot = r.itemSlot := by
  unfold Roll.addPlayer
  split_ifs <;> rfl

theorem openRoll_itemSlot (env : LootEnv) (g : RollGroup) (newGuid lootId itemSlot : ℕ)
    (quest : Bool) (item : LootItem) (mask : ℕ) :
    (openRoll env g newGuid lootId itemSlot quest item mask).itemSlot = itemSlot := by
  have hfold : ∀ (l : List RollMember) (r : Roll),
      (l.foldl (fun r m => r.addPlayer m !quest) r).itemSlot = r.itemSlot := by
    intro l
    induction l with
    | nil => exact fun r => rfl
    | cons m l ih => exact fun r => (ih _).trans (addPlayer_itemSlot m _ r)
  exact hfold _ _

theorem castVote_itemSlot (r : Roll) (guid : ℕ) (vote : RollVote) :
    (r.castVote guid vote).itemSlot = r.itemSlot := by
  cases vote <;> rfl

theorem dropPlayer_itemSlot (r : Roll) (guid : ℕ) : (r.dropPlayer guid).itemSlot = r.itemSlot := by
  unfold Roll.dropPlayer
  split <;> rfl

/-- The items over the threshold are not handed out yet. -/
def FreshOpen (env : LootEnv) (g : RollGroup) (loot : Loot) : Prop :=
  ∀ (k : ℕ) (item : LootItem), loot.items[k]? = some item → item.freeforall = false →
    g.lootThreshold ≤ (env.proto item.itemid).quality → item.isLooted = true → item.count = 0

/-- Rolls were opened for slots below `n`. -/
structure OpenedBelow (loot : Loot) (n : ℕ) (o : Opened) : Prop where
  same : o.loot.items.map (fun item => (item.itemid, item.mark)) =
    loot.items.map fun item => (item.itemid, item.mark)
  lists : o.loot.playerFFAItems = loot.playerFFAItems
  rolled : ∀ r ∈ o.rolls, Rolled o.loot.items r.itemSlot
  below : ∀ r ∈ o.rolls, r.itemSlot < n
  nodup : (o.rolls.map Roll.itemSlot).Nodup

namespace OpenedBelow

variable {env : LootEnv} {g : RollGroup} {loot : Loot} {n : ℕ} {o : Opened}

section

variable (h : OpenedBelow loot n o)
include h

theorem mono : OpenedBelow loot (n + 1) o :=
  { h with below := fun r hr => (h.below r hr).trans (Nat.lt_succ_self n) }

theorem length_eq : o.loot.items.length = loot.items.length := by
  simpa using congrArg List.length h.same

/-- One more roll, for the slot `n`. -/
theorem push (hr : r.itemSlot = n) (loot' : Loot)
    (hsame : loot'.items.map (fun item => (item.itemid, item.mark)) =
      o.loot.items.map fun item => (item.itemid, item.mark))
    (hlists : loot'.playerFFAItems = o.loot.playerFFAItems)
    (hother : ∀ j, j < n → loot'.items[j]? = o.loot.items[j]?) (hrolled : Rolled loot'.items n)
    (nextGuid : ℕ) :
    OpenedBelow loot (n + 1) ⟨loot', o.rolls ++ [r], nextGuid⟩ where
  same := hsame.trans h.same
  lists := hlists.trans h.lists
  rolled r' hr' := by
    rcases mem_append.1 hr' with hr' | hr'
    · intro item hitem
      exact h.rolled r' hr' item (by rwa [hother _ (h.below r' hr')] at hitem)
    · obtain rfl := mem_singleton.1 hr'
      exact hr ▸ hrolled
  below r' hr' := by
    rcases mem_append.1 hr' with hr' | hr'
    · exact (h.below r' hr').trans (Nat.lt_succ_self n)
    · obtain rfl := mem_singleton.1 hr'
      exact hr ▸ Nat.lt_succ_self n
  nodup := by
    rw [map_append, nodup_append]
    refine ⟨h.nodup, nodup_singleton _, ?_⟩
    intro a ha b hb hab
    obtain ⟨r', hr', rfl⟩ := mem_map.1 ha
    have hlt := h.below r' hr'
    simp only [map_cons, map_nil, mem_singleton] at hb
    omega

theorem openItem (hfresh : FreshOpen env g loot) (lootId : ℕ) (needBeforeGreed : Bool) :
    OpenedBelow loot (n + 1) (openItem env g lootId needBeforeGreed o n) := by
  unfold MistyWorld.openItem
  cases hitem : o.loot.items[n]? with
  | none => exact h.mono
  | some item =>
    have hlt := (List.getElem?_eq_some_iff.1 hitem).1
    have hother : ∀ (item' : LootItem) j, j < n →
        (o.loot.setPiece item' (.item n)).items[j]? = o.loot.items[j]? :=
      fun item' j hj => List.getElem?_set_ne (by omega)
    simp only
    split_ifs with hskip hquality hplayers
    · exact h.mono
    · refine h.push (openRoll_itemSlot _ _ _ _ _ _ _ _)
        (o.loot.setPiece { item with isBlocked := true } (.item n)) (map_set_of_eq hitem rfl) rfl
        (hother _) (fun item' hitem' => ?_) _
      rw [Loot.setPiece, List.getElem?_set_self hlt] at hitem'
      obtain rfl := Option.some.inj hitem'
      have hffa : item.freeforall = false := by
        by_contra hffa
        simp [hffa] at hskip
      refine ⟨rfl, hffa, ?_⟩
      obtain ⟨item0, hitem0, hmark⟩ := exists_getElem?_of_map_eq h.same hitem
      simp only [LootItem.mark, Prod.mk.injEq] at hmark
      obtain ⟨hid, hffa0, hcount0, hlooted0⟩ := hmark
      rcases Bool.eq_false_or_eq_true item.isLooted with hlooted | hlooted
      · exact .inr (hcount0 ▸ hfresh n item0 hitem0 (hffa0.trans hffa) (hid ▸ hquality)
          (hlooted0.trans hlooted))
      · exact .inl hlooted
    · exact { h.mono with }
    · have hsame : (o.loot.setPiece { item with isUnderthreshold := true } (.item n)).items.map
          (fun item => (item.itemid, item.mark)) =
          o.loot.items.map fun item => (item.itemid, item.mark) := map_set_of_eq hitem rfl
      exact { h.mono with
        same := hsame.trans h.same
        rolled := fun r hr item' hitem' => h.rolled r hr item' (by
          rwa [hother _ _ (h.below r hr)] at hitem') }

end

theorem openQuestItem (i : ℕ) (h : OpenedBelow loot (loot.items.length + i) o) (lootId : ℕ) :
    OpenedBelow loot (loot.items.length + (i + 1)) (openQuestItem env g lootId o i) := by
  unfold MistyWorld.openQuestItem
  cases hitem : o.loot.questItems[i]? with
  | none => exact h.mono
  | some item =>
    simp only
    split_ifs with hskip hplayers
    · exact h.mono
    · refine h.push ?_ (o.loot.setPiece { item with isBlocked := true } (.quest i)) rfl rfl
        (fun _ _ => rfl) (fun item' hitem' => ?_) _
      · rw [openRoll_itemSlot, h.length_eq]
      · have hlt := (List.getElem?_eq_some_iff.1 hitem').1
        have hlen := h.length_eq
        simp only [Loot.setPiece] at hlt
        omega
    · exact { h.mono with }

theorem openRolls (hfresh : FreshOpen env g loot) (lootId nextGuid : ℕ) (needBeforeGreed : Bool) :
    ∃ n, OpenedBelow loot n (openRolls env g lootId needBeforeGreed ⟨loot, [], nextGuid⟩) := by
  have hitems : ∀ n, OpenedBelow loot n ((List.range n).foldl
      (MistyWorld.openItem env g lootId needBeforeGreed) ⟨loot, [], nextGuid⟩) := by
    intro n
    induction n with
    | zero => exact ⟨rfl, rfl, by simp, by simp, by simp⟩
    | succ n ih =>
      rw [range_succ, foldl_append]
      exact ih.openItem hfresh lootId needBeforeGreed
  have hquests : ∀ n, OpenedBelow loot (loot.items.length + n) ((List.range n).foldl
      (MistyWorld.openQuestItem env g lootId) ((List.range loot.items.length).foldl
        (MistyWorld.openItem env g lootId needBeforeGreed) ⟨loot, [], nextGuid⟩)) := by
    intro n
    induction n with
    | zero => exact hitems _
    | succ n ih =>
      rw [range_succ, foldl_append]
      exact ih.openQuestItem n lootId
  exact ⟨_, hquests _⟩

end OpenedBelow

/-! ## Filling -/

namespace Haul

variable {env : LootEnv} {items : List LootItem} {h : Haul} {player : Looter} {waiting : List ℕ}

theorem storeLootItem_ffaItems (h : Haul) (guid lootSlot : ℕ) :
    (h.storeLootItem env guid lootSlot).loot.playerFFAItems = h.loot.playerFFAItems ∨
      (h.storeLootItem env guid lootSlot).loot.playerFFAItems =
        h.loot.playerFFAItems.modify guid (lootIndex lootSlot) := by
  unfold storeLootItem
  split
  · exact .inl rfl
  · rename_i f hfound
    split_ifs
    · exact .inl rfl
    split
    · exact .inl rfl
    · have hset : ∀ (loot : Loot) (item : LootItem) (piece : Loot.Piece),
          (loot.setPiece item piece).playerFFAItems = loot.playerFFAItems := by
        rintro loot item (i | i) <;> rfl
      simp only [withLoot, Loot.markLooted, Loot.uncount]
      split_ifs <;> cases f.entry <;> simp [hset, Loot.lootEntry]

/-- The player has an entry for each free for all currency that is for him. -/
def FreeListed (env : LootEnv) (player : Looter) (loot : Loot) : Prop :=
  ∀ (k : ℕ) (item : LootItem), loot.items[k]? = some item → item.isLooted = false →
    item.freeforall = true → item.allowedForPlayer env player = true →
      (env.proto item.itemid).currencyToken = true →
        (Loot.listed loot.playerFFAItems player.guid k).isSome

theorem FreeListed.storeLootItem (hlisted : FreeListed env player h.loot) (i : ℕ) :
    FreeListed env player (h.storeLootItem env player.guid i).loot := by
  intro k item hitem hlooted hffa hallowed hcurrency
  have hold : h.loot.items[k]? = some item := by
    rcases h.storeLootItem_itemsSet player.guid i with heq | ⟨item1, item2, hitem1, heq, -, rfl⟩
    · exact heq ▸ hitem
    · rw [heq] at hitem
      by_cases hk : i = k
      · subst hk
        rw [List.getElem?_set_self (List.getElem?_eq_some_iff.1 hitem1).1] at hitem
        rw [← Option.some.inj hitem] at hlooted
        cases hlooted
      · rwa [List.getElem?_set_ne hk] at hitem
  have hsome := hlisted k item hold hlooted hffa hallowed hcurrency
  rcases h.storeLootItem_ffaItems player.guid i with heq | heq
  · exact heq ▸ hsome
  · rw [heq]
    by_cases hk : k = i
    · subst hk
      rw [Loot.listed_lootIndex_self, Option.isSome_map]
      exact hsome
    · rw [Loot.listed_lootIndex_of_ne (.inr hk)]
      exact hsome

/-- A haul that is filled for the players one after the other : the lists of those in `waiting`
are not filled yet. -/
structure Filling (items : List LootItem) (waiting : List ℕ) (h : Haul) : Prop where
  once : h.Once items
  size : h.loot.items.length ≤ maxNrLootItems
  waiting : ∀ guid ∈ waiting, h.loot.playerFFAItems.find guid = none

theorem Filling.storeLootItem (hh : Filling items waiting h) {guid lootSlot : ℕ}
    (hnot : guid ∉ waiting) (hfresh : FreshStore h.loot guid lootSlot) :
    Filling items waiting (h.storeLootItem env guid lootSlot) := by
  refine ⟨hh.once.storeLootItem hfresh, ?_, fun g hg => ?_⟩
  · rcases h.storeLootItem_itemsSet guid lootSlot with heq | ⟨item1, item2, -, heq, -⟩
    · exact heq ▸ hh.size
    · rw [heq, length_set]
      exact hh.size
  · rcases h.storeLootItem_ffaItems guid lootSlot with heq | heq
    · exact heq ▸ hh.waiting g hg
    · have hne : g ≠ guid := fun hc => hnot (hc ▸ hg)
      rw [heq, QuestItemMap.find_modify_of_ne hne]
      exact hh.waiting g hg

/-- What holds of a haul while the currency is stored : each call is for a quest item, or for a
free for all item that the player has an entry for. -/
theorem storeCurrency_induction {P : Haul → Prop}
    (hstep : ∀ (h : Haul) (i : ℕ), P h → (∀ item, h.loot.items[i]? = some item →
      item.freeforall = true ∧ (Loot.listed h.loot.playerFFAItems player.guid i).isSome) →
      P (h.storeLootItem env player.guid i))
    (is : List ℕ) {h : Haul} (hh : P h) (hlisted : FreeListed env player h.loot) :
    P (storeCurrency env player is h) := by
  induction is generalizing h with
  | nil => exact hh
  | cons i is ih =>
    rw [Haul.storeCurrency]
    split_ifs with hcurrency
    · refine ih (hstep h i hh fun item hitem => ?_) (hlisted.storeLootItem i)
      have hpiece : h.loot.pieceItem (h.pieceOfSlot i) = some item := by
        rcases h.pieceOfSlot_cases i with ⟨hnone, -⟩ | ⟨item1, hitem1, -, hpiece⟩
        · rw [hnone] at hitem
          cases hitem
        · rw [hpiece, ← hitem1, hitem]
      rw [hpiece] at hcurrency
      simp only [Option.any_some, Bool.and_eq_true, Bool.not_eq_true'] at hcurrency
      obtain ⟨⟨⟨hlooted, hffa⟩, hallowed⟩, hcurrency⟩ := hcurrency
      exact ⟨hffa, hlisted i item hitem hlooted hffa hallowed hcurrency⟩
    · exact ih hh hlisted

theorem Filling.storeCurrency (hnot : player.guid ∉ waiting) (is : List ℕ)
    (hh : Filling items waiting h) (hlisted : FreeListed env player h.loot) :
    Filling items waiting (storeCurrency env player is h) := by
  refine storeCurrency_induction (fun h i hh hfree => ?_) is hh hlisted
  refine hh.storeLootItem hnot fun item hitem _ _ => ?_
  rw [if_pos (hfree item hitem).1]
  exact (hfree item hitem).2

theorem listed_add_entries {m : QuestItemMap} {guid k : ℕ} (hnone : m.find guid = none)
    {is : List ℕ} (hk : k ∈ is) : (Loot.listed (m.add guid (Loot.entries is)) guid k).isSome := by
  have hne : Loot.entries is ≠ [] := fun hc => by
    rw [Loot.entries, map_eq_nil_iff] at hc
    exact absurd hk (by simp [hc])
  rw [Loot.listed, QuestItemMap.find_add_self hnone hne, Option.bind_some, entryAt,
    List.find?_isSome]
  exact ⟨⟨k, false⟩, mem_map.2 ⟨k, hk, rfl⟩, by simp⟩

theorem freeListed_fillLists {loot : Loot} (hsize : loot.items.length ≤ maxNrLootItems)
    (hnone : loot.playerFFAItems.find player.guid = none) (present : Bool) :
    FreeListed env player (loot.fillLists env player present) := by
  obtain ⟨hcore, hlists⟩ := Loot.fillLists_frame env player hsize present
  rw [hnone, Option.isNone_none, if_pos rfl] at hlists
  intro k item hitem hlooted hffa hallowed _
  obtain ⟨item0, hitem0, hcore0⟩ := exists_getElem?_of_map_eq hcore hitem
  rw [hlists]
  refine listed_add_entries hnone (mem_filter.2 ⟨?_, ?_⟩)
  · exact mem_range.2 (List.getElem?_eq_some_iff.1 hitem0).1
  · have hlooted0 : item0.isLooted = false := (congrArg LootItem.isLooted hcore0).trans hlooted
    have hffa0 : item0.freeforall = true := (congrArg LootItem.freeforall hcore0).trans hffa
    have hallowed0 : item0.allowedForPlayer env player = true :=
      (congrArg (LootItem.allowedForPlayer env player) hcore0).trans hallowed
    simp [Loot.ffaShown, hitem0, hlooted0, hffa0, hallowed0]

theorem Filling.fillNotNormalLootFor (hnot : player.guid ∉ waiting)
    (hh : Filling items (player.guid :: waiting) h) (present : Bool) :
    Filling items waiting (h.fillNotNormalLootFor env player present) := by
  have hnone := hh.waiting _ mem_cons_self
  obtain ⟨hcore, hlists⟩ := Loot.fillLists_frame env player hh.size present
  rw [hnone, Option.isNone_none, if_pos rfl] at hlists
  have hfilled : Filling items waiting (h.withLoot (h.loot.fillLists env player present)) := by
    refine ⟨Handing.congr hh.once ?_ fun g k q hq => ?_, ?_, fun g hg => ?_⟩
    · have hmark : LootItem.mark = LootItem.mark ∘ LootItem.core := rfl
      rw [hmark, ← map_map, ← map_map]
      exact congrArg (List.map LootItem.mark) hcore
    · have hne : g ≠ player.guid := by
        rintro rfl
        rw [Loot.listed, hnone] at hq
        cases hq
      change Loot.listed (h.loot.fillLists env player present).playerFFAItems g k = some q
      rw [hlists, Loot.listed, QuestItemMap.find_add_of_ne hne]
      exact hq
    · have hlen := congrArg List.length hcore
      rw [length_map, length_map] at hlen
      exact hlen.trans_le hh.size
    · have hne : g ≠ player.guid := fun hc => hnot (hc ▸ hg)
      change (h.loot.fillLists env player present).playerFFAItems.find g = none
      rw [hlists, QuestItemMap.find_add_of_ne hne]
      exact hh.waiting g (mem_cons_of_mem _ hg)
  unfold Haul.fillNotNormalLootFor
  split_ifs
  · exact hfilled.storeCurrency hnot _ (freeListed_fillLists hh.size hnone present)
  · exact hfilled

theorem Filling.players : ∀ (players : List (Looter × Bool)) {h : Haul},
    (players.map fun p => p.1.guid).Nodup → Filling items (players.map fun p => p.1.guid) h →
    Filling items [] (players.foldl (fun h p => h.fillNotNormalLootFor env p.1 p.2) h)
  | [], _, _, hh => hh
  | p :: players, h, hnodup, hh => by
    obtain ⟨hnot, hnodup⟩ := nodup_cons.1 hnodup
    exact Filling.players players hnodup (hh.fillNotNormalLootFor hnot p.2)

end Haul

/-- The members of a group for whom a loot is filled, and whether each is present : different
players. -/
structure LootParty where
  players : List (Looter × Bool)
  lootThreshold : ℕ := 2
  nodup : (players.map fun p => p.1.guid).Nodup

/-- The items that drop. -/
def droppedItems (env : LootEnv) (gold : ℕ) (drops : List (Loot.StoreItem × Fin 256)) :
    List LootItem :=
  (drops.foldl (fun loot d => loot.addItem env d.1 d.2) ({ gold } : Loot)).items

namespace LootRoom

variable {env : LootEnv} {items : List LootItem} {room : LootRoom}

/-- A loot that was filled for a group. -/
def filled (env : LootEnv) (invs : ℕ → Inventory) (gold : ℕ)
    (drops : List (Loot.StoreItem × Fin 256)) (owner : Looter) (party : LootParty) : LootRoom where
  haul := Haul.fillLoot env { loot := { gold }, invs } drops owner
    (some (party.players, party.lootThreshold))

/-- The invariant of a room. -/
structure Once (items : List LootItem) (room : LootRoom) : Prop where
  haul : room.haul.Once items
  rolled : ∀ r ∈ room.rolls, Rolled room.haul.loot.items r.itemSlot
  nodup : (room.rolls.map Roll.itemSlot).Nodup
  closed : room.lootForBody = false → room.rolls = []

theorem once_filled (invs : ℕ → Inventory) (gold : ℕ) (drops : List (Loot.StoreItem × Fin 256))
    (owner : Looter) (party : LootParty) :
    (filled env invs gold drops owner party).Once (droppedItems env gold drops) := by
  have hdropped := (Loot.dropped_empty gold).drops env drops
  have hstart : Haul.Filling (droppedItems env gold drops) (party.players.map fun p => p.1.guid)
      { loot := { drops.foldl (fun loot d => loot.addItem env d.1 d.2) ({ gold } : Loot) with
          roundRobinPlayer := owner.guid }, invs } := by
    refine ⟨⟨⟨?_, ?_, ?_⟩, ?_, ?_, ?_, ?_⟩, hdropped.size, ?_⟩
    · exact fun _ _ => Nat.zero_le 1
    · exact fun _ _ _ => Nat.zero_le 1
    · exact fun _ o ho => absurd ho not_mem_nil
    · exact fun item hitem => (hdropped.items item hitem).count
    · exact fun hitem => ⟨_, hitem, rfl, le_rfl⟩
    · exact fun _ _ _ => rfl
    · exact fun _ _ _ guid hpos => absurd rfl hpos
    · intro guid hguid
      rw [hdropped.ffaList]
      rfl
  have hfilled := @Haul.Filling.players env _ party.players _ party.nodup hstart
  refine ⟨hfilled.once.congr ?_ fun _ _ _ hq => hq, by simp [filled], by simp [filled],
    fun _ => rfl⟩
  simp only [filled, Haul.fillLoot, Haul.markThreshold, Haul.withLoot, map_map]
  refine map_congr_left fun item _ => ?_
  simp only [Function.comp_apply]
  split_ifs <;> rfl

/-- The step hands out nothing that was handed out. -/
def Fresh (env : LootEnv) (room : LootRoom) : LootEvent → Prop
  | .storeLootItem guid lootSlot => Haul.FreshStore room.haul.loot guid lootSlot
  | .masterGive r => Haul.FreshGive room.haul.loot r
  | .sendLoot g method _ _ => room.lootForBody = false →
      method = .groupLoot ∨ method = .needBeforeGreed → FreshOpen env g room.haul.loot
  | _ => True

section

variable (hroom : room.Once items)
include hroom

theorem Once.openRolls (hclosed : room.lootForBody = false) {g : RollGroup}
    (hfresh : FreshOpen env g room.haul.loot) (lootId nextGuid : ℕ) (needBeforeGreed : Bool) :
    (room.openRolls env g lootId nextGuid needBeforeGreed).Once items := by
  obtain ⟨n, hopened⟩ := OpenedBelow.openRolls hfresh lootId nextGuid needBeforeGreed
  have hrolls := hroom.closed hclosed
  have hmark : LootItem.mark = Prod.snd ∘ fun item : LootItem => (item.itemid, item.mark) := rfl
  simp only [LootRoom.openRolls, hrolls, nil_append]
  refine ⟨Handing.congr hroom.haul ?_ fun g k q hq => ?_, hopened.rolled, hopened.nodup,
    fun hc => nomatch hc⟩
  · rw [hmark, ← map_map, ← map_map]
    exact congrArg (List.map Prod.snd) hopened.same
  · change Loot.listed (MistyWorld.openRolls env _ _ _ _).loot.playerFFAItems g k = some q
    rw [hopened.lists]
    exact hq

theorem Once.of_slots {rolls : List Roll}
    (hslots : rolls.map Roll.itemSlot = room.rolls.map Roll.itemSlot)
    (hclosed : room.lootForBody = false → rolls = []) :
    ({ room with rolls } : LootRoom).Once items := by
  refine ⟨hroom.haul, fun r hr => ?_, hslots ▸ hroom.nodup, hclosed⟩
  have hmem : r.itemSlot ∈ room.rolls.map Roll.itemSlot := hslots ▸ mem_map_of_mem hr
  obtain ⟨r', hr', heq⟩ := mem_map.1 hmem
  exact heq ▸ hroom.rolled r' hr'

/-- So does counting the votes of a roll. -/
theorem Once.countTheRoll (i : ℕ) (d : Haul.Draw) : (room.countTheRoll env i d).Once items := by
  unfold LootRoom.countTheRoll
  cases hr : room.rolls[i]? with
  | none => exact hroom
  | some r =>
    have hmem := mem_of_getElem? hr
    have hlt := (List.getElem?_eq_some_iff.1 hr).1
    have hnodup : ((room.rolls.eraseIdx i).map Roll.itemSlot).Nodup :=
      hroom.nodup.sublist ((eraseIdx_sublist _ _).map _)
    -- the other rolls are for other slots
    have hother : ∀ r' ∈ room.rolls.eraseIdx i, r'.itemSlot ≠ r.itemSlot := by
      have hperm := (getElem_cons_eraseIdx_perm hlt).map Roll.itemSlot
      have hcons := hperm.nodup_iff.2 hroom.nodup
      rw [map_cons, nodup_cons, (List.getElem?_eq_some_iff.1 hr).2] at hcons
      exact fun r' hr' heq => hcons.1 (heq ▸ mem_map_of_mem hr')
    have hfresh : Haul.FreshRoll room.haul.loot r := fun item hitem =>
      (hroom.rolled r hmem item hitem).2
    refine ⟨?_, fun r' hr' => ?_, hnodup, fun hc => ?_⟩
    · simp only
      split_ifs
      · exact hroom.haul.award hfresh d
      · exact hroom.haul
    · have hrolled := hroom.rolled r' (mem_of_mem_eraseIdx hr')
      simp only
      split_ifs
      · exact hrolled.of_itemsSet (room.haul.award_itemsSet r d) fun _ hk _ =>
          absurd hk.symm (hother r' hr')
      · exact hrolled
    · rw [hroom.closed hc] at hlt
      cases hlt

theorem Once.step {e : LootEvent} (hfresh : room.Fresh env e) : (room.step env e).Once items := by
  cases e with
  | storeLootItem guid lootSlot =>
    refine ⟨hroom.haul.storeLootItem hfresh, fun r hr => ?_, hroom.nodup, hroom.closed⟩
    have hrolled := hroom.rolled r hr
    refine hrolled.of_itemsSet (room.haul.storeLootItem_itemsSet guid lootSlot) ?_
    rintro item item' hitem rfl ⟨hblocked, -⟩
    rw [(hrolled item hitem).1] at hblocked
    cases hblocked
  | masterGive r =>
    refine ⟨hroom.haul.masterGive hfresh, fun r' hr' => ?_, hroom.nodup, hroom.closed⟩
    have hrolled := hroom.rolled r' hr'
    refine hrolled.of_itemsSet (room.haul.masterGive_itemsSet r) ?_
    rintro item item' hitem - rfl
    obtain ⟨hblocked, hffa, -⟩ := hrolled item hitem
    exact ⟨hblocked, hffa, .inr rfl⟩
  | sendLoot g method lootId nextGuid =>
    simp only [LootRoom.step, sendLoot]
    split_ifs with hopened
    · exact hroom
    · have hclosed : room.lootForBody = false := by simpa using hopened
      cases method with
      | groupLoot => exact hroom.openRolls hclosed (hfresh hclosed (.inl rfl)) _ _ _
      | needBeforeGreed => exact hroom.openRolls hclosed (hfresh hclosed (.inr rfl)) _ _ _
      | freeForAll | roundRobin | masterLoot => exact { hroom with closed := fun hc => nomatch hc }
  | rollVote i guid vote =>
    refine hroom.of_slots (ext_getElem? fun j => ?_) fun hc => ?_
    · rw [List.getElem?_map, List.getElem?_map, List.getElem?_modify]
      cases room.rolls[j]? with
      | none => rfl
      | some r =>
        simp only [Option.map_eq_map, Option.map_some]
        split_ifs
        · rw [castVote_itemSlot]
        · rfl
    · rw [hroom.closed hc]
      cases i <;> rfl
  | removeMember guid =>
    refine hroom.of_slots ?_ fun hc => by rw [hroom.closed hc]; rfl
    rw [map_map]
    exact map_congr_left fun r _ => dropPlayer_itemSlot r guid
  | countTheRoll i d => exact hroom.countTheRoll i d

end

/-- Loot is handed out once. For a loot that was filled for a group, after every run of fresh
steps an item that is not free for all was put into at most one inventory, in at most the count it
dropped with, and a free for all item at most once into that of each player. -/
theorem loot_handed_once (env : LootEnv) (invs : ℕ → Inventory) (gold : ℕ)
    (drops : List (Loot.StoreItem × Fin 256)) (owner : Looter) (party : LootParty)
    (events : List LootEvent)
    (hfresh : Along (step env) (Fresh env) (filled env invs gold drops owner party) events) :
    HandedOnce (droppedItems env gold drops)
      (run (step env) (filled env invs gold drops owner party) events).haul.handed := by
  have hstep : ∀ (room : LootRoom) (e : LootEvent), room.Once (droppedItems env gold drops) →
      room.Fresh env e → (room.step env e).Once (droppedItems env gold drops) :=
    fun _ _ hroom hfresh => hroom.step hfresh
  exact (invariant_run hstep (once_filled invs gold drops owner party) hfresh).haul.toHandedOnce

/-- Two players, both present. -/
def twoLooters : LootParty where
  players := [({ guid := 1 }, true), ({ guid := 2 }, true)]
  nodup := by decide

/-- Five units of entry 117 drop, and an item of entry 25. -/
def twoDrops : List (Loot.StoreItem × Fin 256) :=
  [({ itemid := 117 }, ⟨5, Loot.fiveDrops_lt⟩), ({ itemid := 25 }, ⟨1, Loot.oneDrop_lt⟩)]

/-- The loot of the two players. -/
def twoLootersRoom : LootRoom :=
  filled { items := smallEnv } (fun _ => smallInventory) 0 twoDrops { guid := 1 } twoLooters

/-- The first player gives the item of a slot to the second one. -/
def giveToSecond (slotid : ℕ) : LootEvent :=
  .masterGive
    { sender := 1, group := some (.freeForAll, 1), slotid, target := some { guid := 2 } }

theorem loot_handed_once_twoLooters :
    (run (step { items := smallEnv }) twoLootersRoom
        [.storeLootItem 1 0, giveToSecond 1]).haul.handed =
        [⟨.item 1, 2, 1⟩, ⟨.item 0, 1, 5⟩] ∧
      HandedOnce (droppedItems { items := smallEnv } 0 twoDrops)
        (run (step { items := smallEnv }) twoLootersRoom
          [.storeLootItem 1 0, giveToSecond 1]).haul.handed := by
  refine ⟨by decide +kernel, loot_handed_once _ _ _ _ _ _ _ ⟨?_, ?_, trivial⟩⟩
  · intro item hitem _ _
    have hfirst : twoLootersRoom.haul.loot.items[0]? =
        some { itemid := 117, count := 5, allowedGUIDs := [2, 1], isUnderthreshold := true } := by
      decide +kernel
    obtain rfl := Option.some.inj (hfirst.symm.trans hitem)
    exact fun hc => nomatch hc
  · intro item target hitem _ _
    have hsecond : (twoLootersRoom.step { items := smallEnv }
        (.storeLootItem 1 0)).haul.loot.items[1]? =
        some { itemid := 25, count := 1, allowedGUIDs := [2, 1], isUnderthreshold := true } := by
      decide +kernel
    obtain rfl := Option.some.inj (hsecond.symm.trans hitem)
    rfl

/-- The first player loots the five units, and gives the same slot to the second one. -/
theorem masterGive_looted :
    (run (step { items := smallEnv }) twoLootersRoom
        [.storeLootItem 1 0, giveToSecond 0]).haul.handed =
        [⟨.item 0, 2, 5⟩, ⟨.item 0, 1, 5⟩] ∧
      ¬ HandedOnce (droppedItems { items := smallEnv } 0 twoDrops)
        (run (step { items := smallEnv }) twoLootersRoom
          [.storeLootItem 1 0, giveToSecond 0]).haul.handed := by
  have hhanded : (run (step { items := smallEnv }) twoLootersRoom
      [.storeLootItem 1 0, giveToSecond 0]).haul.handed =
      [⟨.item 0, 2, 5⟩, ⟨.item 0, 1, 5⟩] := by decide +kernel
  refine ⟨hhanded, fun h => ?_⟩
  have hitem : (droppedItems { items := smallEnv } 0 twoDrops)[0]? =
      some { itemid := 117, count := 5 } := by decide +kernel
  have hle := h.single hitem rfl
  exact absurd hle (by decide)

end LootRoom

end MistyWorld
