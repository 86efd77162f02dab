import MistyWorld.AutoStore
import MistyWorld.LootRollFair

/-!
# What a roll leaves behind

While a roll is open its item is blocked. `Group::CountTheRoll` ends the roll in one of two ways for
the item : the winner gets it, or what it is disenchanted to, and then it is looted, or it is not
blocked any more and can be looted as usual (`Settled`). There are ways to end in neither. The
winner may be offline, a roll with votes may have no voter left, and what an item is disenchanted
to may find no room (`countTheRoll_settled_iff`).

`Group::RemoveMember` takes the vote of a member who leaves out of the open rolls. It calls
`CountRollVote` to close the rolls that only waited for him, but that call looks for his vote, which
is gone (`leaveRolls_eq`).
-/

open Option List Word

namespace MistyWorld

/-! ## The store of a disenchanted item -/

namespace Inventory

variable {env : LootEnv} {player : Looter} {drops : List (Loot.StoreItem × Fin 256)}
  {inv inv' : Inventory}

/-- Each item of the loot arrives with exactly its units, and `inv'` is the inventory then. -/
def StoresLootFully (env : LootEnv) (player : Looter) (drops : List (Loot.StoreItem × Fin 256))
    (inv inv' : Inventory) : Prop :=
  let h := autoFilled env player drops inv
  inv.autoStoreLoot env player drops nullBag nullSlot = some inv' ∧
    ∀ k < h.loot.getMaxSlotInLootFor player.guid, ∃ inv₁ f,
      (h.invs player.guid).autoStoreSlots env player nullBag nullSlot h.loot (List.range k) =
        some inv₁ ∧
      h.loot.lootItemInSlot k player.guid = some f ∧
      StoredFully env.items inv₁ f.item.itemid f.item.count
        (inv₁.autoStoreItem env.items nullBag nullSlot f.item)

/-- None of the loot is currency that the filling stores, and each item fits at its turn. -/
structure LootFits (env : LootEnv) (player : Looter) (drops : List (Loot.StoreItem × Fin 256))
    (inv : Inventory) : Prop where
  currency : ∀ i < (generated env player drops inv).loot.getMaxSlotInLootFor player.guid,
    ¬Haul.StoresCurrency env player (generated env player drops inv) i
  fits : ∀ k < (generated env player drops inv).loot.getMaxSlotInLootFor player.guid, ∀ inv₁ f,
    inv.autoStoreSlots env player nullBag nullSlot (generated env player drops inv).loot
      (List.range k) = some inv₁ →
    (generated env player drops inv).loot.lootItemInSlot k player.guid = some f →
      (inv₁.canStoreNewItem env.items nullBag nullSlot f.item.itemid f.item.count).res = .ok

theorem thirdCall_null {env : ItemEnv} {inv : Inventory} (entry count : ℕ) :
    inv.thirdCall env nullBag nullSlot entry count =
      inv.canStoreNewItem env nullBag nullSlot entry count := by
  simp [thirdCall, secondCall, retry, firstCall, canStoreNewItemOnto_nil]

/-- With no slot and no bag requested, an item arrives if `CanStoreNewItem` allows it. -/
theorem storedFully_iff {env : ItemEnv} {inv : Inventory} (hw : inv.WF env) (item : LootItem)
    (hpos : 1 ≤ item.count) (hlt : item.count < 2 ^ 32) :
    StoredFully env inv item.itemid item.count (inv.autoStoreItem env nullBag nullSlot item) ↔
      (inv.canStoreNewItem env nullBag nullSlot item.itemid item.count).res = .ok := by
  rw [← thirdCall_null]
  constructor
  · intro hfull
    by_contra hok
    have hself := hfull item.itemid
    rw [autoStoreItem_of_not_ok hok, if_pos rfl] at hself
    omega
  · intro hok
    obtain ⟨-, n, -, hiff, htotal⟩ := autoStoreItem_of_ok hw item hpos hlt hok
    rw [hiff.2 (foundEmpty_null _ _)] at htotal
    exact htotal

/-- All of the loot arrives if and only if it fits. -/
theorem storesLootFully_iff (hw : inv.WF env.items) :
    (∃ inv', StoresLootFully env player drops inv inv') ↔ LootFits env player drops inv := by
  have hloot := untouched_generated env player drops inv
  have hslots := forall_slots_iff player nullBag nullSlot hloot hw fun inv1 item hw1 hwhole =>
    storedFully_iff hw1 item hwhole.one_le (hwhole.lt.trans (by norm_num))
  unfold StoresLootFully autoStoreLoot
  rcases autoFilled_cases env player drops inv with
    ⟨hnone, heq⟩ | ⟨⟨i, hi, hstores⟩, j, hj, hmissing⟩
  · rw [heq]
    obtain ⟨inv', hinv', -⟩ := exists_autoStoreSlots player nullBag nullSlot hloot hw le_rfl
    exact ⟨fun ⟨_, _, hfull⟩ => ⟨hnone, hslots.1 hfull⟩,
      fun hfits => ⟨inv', hinv', hslots.2 hfits.fits⟩⟩
  · refine iff_of_false (fun ⟨_, _, hfull⟩ => ?_) fun hfits => hfits.currency i hi hstores
    obtain ⟨-, f, -, hfound, -⟩ := hfull j hj
    rw [hmissing] at hfound
    cases hfound

end Inventory

namespace Haul

variable {env : LootEnv} {player : Looter} {drops : List (Loot.StoreItem × Fin 256)} {h : Haul}
  {invs : ℕ → Inventory} {inv' : Inventory}

theorem giveItem_getD (env : LootEnv) (h : Haul) (piece : Loot.Piece) (guid : ℕ) (item : LootItem) :
    ((h.giveItem env piece guid item.itemid item.count).getD h).loot = h.loot ∧
      ((h.giveItem env piece guid item.itemid item.count).getD h).invs guid =
        (h.invs guid).autoStoreItem env.items nullBag nullSlot item := by
  unfold giveItem Inventory.autoStoreItem
  rw [Inventory.thirdCall_null, Inventory.canStoreNewItem]
  by_cases hok : ((h.invs guid).canStoreItem env.items nullBag nullSlot item.itemid item.count none
      false).res = .ok
  · rw [if_pos hok, if_pos hok]
    exact ⟨rfl, Function.update_self _ _ _⟩
  · rw [if_neg hok, if_neg hok]
    exact ⟨rfl, rfl⟩

/-- The loop over the slots, as long as each slot has an item. -/
theorem autoStore_eq (is : List ℕ) (hslots : (h.invs player.guid).autoStoreSlots env player nullBag
    nullSlot h.loot is = some inv') : (autoStore env player.guid is h).invs player.guid = inv' := by
  induction is generalizing h with
  | nil => exact some.inj hslots
  | cons i is ih =>
    rw [Inventory.autoStoreSlots, foldlM_cons] at hslots
    obtain ⟨inv1, hinv1, hrest⟩ := bind_eq_some_iff.1 hslots
    obtain ⟨f, hfound, rfl⟩ := map_eq_some_iff.1 hinv1
    obtain ⟨hloot, hinv⟩ := giveItem_getD env h f.piece player.guid f.item
    simp only [autoStore, hfound]
    refine ih ?_
    rw [hloot, hinv]
    exact hrest

/-- `Player::AutoStoreLoot` for one of the players, where the filling stores no currency. -/
theorem autoStoreLoot_eq
    (hcurrency : ∀ i < (Inventory.generated env player drops
        (invs player.guid)).loot.getMaxSlotInLootFor player.guid,
      ¬StoresCurrency env player (Inventory.generated env player drops (invs player.guid)) i)
    (hstored : (invs player.guid).autoStoreLoot env player drops nullBag nullSlot = some inv') :
    autoStoreLoot env player drops invs player.guid = inv' := by
  have hdropped := Loot.dropped_generate env drops
  have hlisted : FreeListed env player ((Loot.generate env drops).fillLists env player true) :=
    freeListed_fillLists hdropped.size (by rw [hdropped.ffaList]; rfl) true
  have hfilled : Inventory.autoFilled env player drops (invs player.guid) =
      Inventory.generated env player drops (invs player.guid) := by
    rcases Inventory.autoFilled_cases env player drops (invs player.guid) with
      ⟨-, heq⟩ | ⟨⟨i, hi, hc⟩, -⟩
    · exact heq
    · exact absurd hc (hcurrency i hi)
  rw [Inventory.autoStoreLoot, hfilled] at hstored
  -- what the filling stores depends on the inventory of the player only
  have hfill : fillLoot env { loot := {}, invs } drops player none =
      ⟨(Loot.generate env drops).fillLists env player true, invs, []⟩ := by
    rcases storeCurrency_cases (h := ⟨_, invs, []⟩) hlisted
        (List.range (((Loot.generate env drops).fillLists env player true).getMaxSlotInLootFor
          player.guid)) with ⟨-, heq⟩ | ⟨⟨i, hi, hc⟩, -⟩
    · exact heq
    · exact absurd hc (hcurrency i (mem_range.1 hi))
  rw [autoStoreLoot, hfill]
  exact autoStore_eq _ hstored

/-! ## The item of a counted roll -/

/-- The roll gives the item to its winner, or what it is disenchanted to. -/
def Gives (env : LootEnv) (h h' : Haul) (r : Roll) (item : LootItem) (d : Draw) : Prop :=
  match r.outcome d.dice with
  | .need won => Inventory.StoredFully env.items (h.invs won.guid) r.itemid item.count
      (h'.invs won.guid)
  | .greed won =>
    if won.vote = .disenchant then
      ∃ player, d.online won.guid = some player ∧
        Inventory.StoresLootFully env { player with guid := won.guid } d.disenchanted
          (h.invs won.guid) (h'.invs won.guid)
    else Inventory.StoredFully env.items (h.invs won.guid) r.itemid item.count (h'.invs won.guid)
  | _ => False

/-- The item of a roll is not blocked any more, or it is looted, counted off, and given away. -/
def Settled (env : LootEnv) (h h' : Haul) (r : Roll) (item : LootItem) (d : Draw) : Prop :=
  ∃ item', h'.loot.pieceItem (h.pieceOfSlot r.itemSlot) = some item' ∧
    (item'.isBlocked = false ∨
      item'.isLooted = true ∧ toU8 (h'.loot.unlootedCount + 1 : ℕ) = h.loot.unlootedCount ∧
        Gives env h h' r item d)

/-- The roll ends well : all have passed, or the winner is online, and where he disenchants all that
comes of it fits into his inventory. -/
def EndsWell (env : LootEnv) (h : Haul) (r : Roll) (d : Draw) : Prop :=
  match r.outcome d.dice with
  | .need won => (d.online won.guid).isSome
  | .greed won => ∃ player, d.online won.guid = some player ∧
      (won.vote = .greed ∨ won.vote = .disenchant ∧ Inventory.LootFits env
        { player with guid := won.guid } d.disenchanted (h.invs won.guid))
  | .allPassed => True
  | .nobody => False

variable {r : Roll} {item item' : LootItem} {d : Draw} {piece : Loot.Piece}

theorem pieceItem_setPiece {loot : Loot} (h : loot.pieceItem piece = some item)
    (item' : LootItem) : (loot.setPiece item' piece).pieceItem piece = some item' := by
  cases piece with
  | item i | quest i => exact List.getElem?_set_self (List.getElem?_eq_some_iff.1 h).1

theorem toU8_uncount {n : ℕ} (h : n < 2 ^ 8) : toU8 (toU8 (n + 255 : ℕ) + 1 : ℕ) = n := by
  unfold toU8
  omega

/-- An item that is given to the winner, or not blocked any more. -/
theorem awardItem_settled (hw : ∀ guid, (h.invs guid).WF env.items)
    (hitem : h.loot.pieceItem piece = some item) (hcount : item.count < 2 ^ 8)
    (hunlooted : h.loot.unlootedCount < 2 ^ 8) (itemid guid : ℕ) :
    ∃ item', (h.awardItem env itemid piece item guid).loot.pieceItem piece = some item' ∧
      (item'.isBlocked = false ∨ item'.isLooted = true ∧
        toU8 ((h.awardItem env itemid piece item guid).loot.unlootedCount + 1 : ℕ) =
          h.loot.unlootedCount ∧
        Inventory.StoredFully env.items (h.invs guid) itemid item.count
          ((h.awardItem env itemid piece item guid).invs guid)) := by
  unfold awardItem
  cases hgive : h.giveItem env piece guid itemid item.count with
  | none => exact ⟨_, pieceItem_setPiece hitem _, .inl rfl⟩
  | some h' =>
    obtain ⟨-, -, htotal⟩ := giveItem_total (hw guid) (hcount.trans (by norm_num)) hgive
    have hset : ∀ item', (h.loot.setPiece item' piece).unlootedCount = h.loot.unlootedCount := by
      intro item'
      cases piece <;> rfl
    refine ⟨_, pieceItem_setPiece hitem { item with isLooted := true }, .inr ⟨rfl, ?_, htotal⟩⟩
    simp only [withLoot, Loot.uncount, hset]
    exact toU8_uncount hunlooted

/-- Nothing happens to the item. -/
theorem settled_self_iff (hitem : h.loot.pieceItem (h.pieceOfSlot r.itemSlot) = some item) :
    Settled env h h r item d ↔ item.isBlocked = false := by
  constructor
  · rintro ⟨item', hitem', hblocked | ⟨-, hcounted, -⟩⟩
    · rw [hitem] at hitem'
      rw [some.inj hitem', hblocked]
    · have hne : toU8 (h.loot.unlootedCount + 1 : ℕ) ≠ h.loot.unlootedCount := by
        unfold toU8
        omega
      exact absurd hcounted hne
  · exact fun hblocked => ⟨item, hitem, .inl hblocked⟩

theorem awardMaterials_invs (h : Haul) (piece : Loot.Piece) (item : LootItem) (player : Looter)
    (drops : List (Loot.StoreItem × Fin 256)) :
    (h.awardMaterials env piece item player drops).invs =
      autoStoreLoot env player drops h.invs := by
  simp only [awardMaterials]

/-- The item is disenchanted for the winner. -/
theorem awardMaterials_settled_iff {won : Roll.Best} {player : Looter}
    (hout : r.outcome d.dice = .greed won) (hvote : won.vote = .disenchant)
    (honline : d.online won.guid = some player) (hw : (h.invs won.guid).WF env.items)
    (hitem : h.loot.pieceItem (h.pieceOfSlot r.itemSlot) = some item)
    (hunlooted : h.loot.unlootedCount < 2 ^ 8) :
    Settled env h (h.awardMaterials env (h.pieceOfSlot r.itemSlot) item
        { player with guid := won.guid } d.disenchanted) r item d ↔
      item.isBlocked = false ∨ Inventory.LootFits env { player with guid := won.guid }
        d.disenchanted (h.invs won.guid) := by
  have hset : ∀ piece item', (h.loot.setPiece item' piece).unlootedCount =
      h.loot.unlootedCount := by
    rintro (i | i) item' <;> rfl
  have hnew := pieceItem_setPiece hitem { item with isLooted := true }
  have hgives : Gives env h (h.awardMaterials env (h.pieceOfSlot r.itemSlot) item
      { player with guid := won.guid } d.disenchanted) r item d ↔
      Inventory.StoresLootFully env { player with guid := won.guid } d.disenchanted
        (h.invs won.guid) (autoStoreLoot env { player with guid := won.guid } d.disenchanted h.invs
          won.guid) := by
    simp only [Gives, hout, hvote, if_true, honline, some.injEq, exists_eq_left',
      awardMaterials_invs]
  constructor
  · rintro ⟨item', hitem', hblocked | ⟨-, -, hfull⟩⟩
    · obtain rfl := some.inj (hnew.symm.trans hitem')
      exact .inl hblocked
    · exact .inr ((Inventory.storesLootFully_iff hw).1 ⟨_, hgives.1 hfull⟩)
  · rintro (hblocked | hfits)
    · exact ⟨_, hnew, .inl hblocked⟩
    · refine ⟨_, hnew, .inr ⟨rfl, ?_, hgives.2 ?_⟩⟩
      · simp only [awardMaterials, Loot.uncount, hset]
        exact toU8_uncount hunlooted
      · obtain ⟨inv', hfull⟩ := (Inventory.storesLootFully_iff hw).2 hfits
        have heq : autoStoreLoot env { player with guid := won.guid } d.disenchanted h.invs
            won.guid = inv' := autoStoreLoot_eq hfits.currency hfull.1
        rw [heq]
        exact hfull

/-- Counting a roll settles its item if and only if the item was not blocked, or the roll ends
well. -/
theorem award_settled_iff (hw : ∀ guid, (h.invs guid).WF env.items)
    (hitem : h.loot.pieceItem (h.pieceOfSlot r.itemSlot) = some item) (hcount : item.count < 2 ^ 8)
    (hunlooted : h.loot.unlootedCount < 2 ^ 8) :
    Settled env h (h.award env r d) r item d ↔ item.isBlocked = false ∨ EndsWell env h r d := by
  have hself : Settled env h h r item d ↔ item.isBlocked = false :=
    settled_self_iff hitem
  have haward := fun guid => awardItem_settled hw hitem hcount hunlooted r.itemid guid
  unfold award
  simp only [hitem]
  cases hout : r.outcome d.dice with
  | need won =>
    simp only [EndsWell, hout]
    split_ifs with honline
    · refine iff_of_true ?_ (.inr honline)
      obtain ⟨item', hitem', hend⟩ := haward won.guid
      refine ⟨item', hitem', hend.imp_right fun ⟨hlooted, hcounted, hstored⟩ =>
        ⟨hlooted, hcounted, ?_⟩⟩
      simp only [Gives, hout]
      exact hstored
    · rw [hself]
      simp [honline]
  | greed won =>
    simp only [EndsWell, hout]
    cases honline : d.online won.guid with
    | none =>
      have hnot : ¬∃ player : Looter, none = some player ∧ (won.vote = .greed ∨
          won.vote = .disenchant ∧ Inventory.LootFits env { player with guid := won.guid } d.disenchanted
            (h.invs won.guid)) := fun ⟨_, hc, _⟩ => nomatch hc
      rw [or_iff_left hnot]
      exact hself
    | some player =>
      simp only [some.injEq, exists_eq_left']
      cases hvote : won.vote with
      | greed =>
        refine iff_of_true ?_ (.inr (.inl rfl))
        obtain ⟨item', hitem', hend⟩ := haward won.guid
        refine ⟨item', hitem', hend.imp_right fun ⟨hlooted, hcounted, hstored⟩ =>
          ⟨hlooted, hcounted, ?_⟩⟩
        simp only [Gives, hout, hvote, reduceCtorEq, if_false]
        exact hstored
      | disenchant =>
        simp only [reduceCtorEq, false_or, true_and]
        exact awardMaterials_settled_iff hout hvote honline (hw won.guid) hitem hunlooted
      | pass | need | notEmitedYet | notValid => simpa using hself
  | allPassed =>
    refine iff_of_true ⟨_, pieceItem_setPiece hitem { item with isBlocked := false }, .inl rfl⟩
      (.inr ?_)
    simp only [EndsWell, hout]
  | nobody =>
    simp only [EndsWell, hout, or_false]
    exact hself

end Haul

/-! ## A member leaves -/

/-- `MAX_ROLL_TYPE`. -/
def maxRollType : ℕ := 4

namespace RollRoom

variable (guid : ℕ) (itemsEmpty : ℕ → Bool) (dice : ℕ → Roll.Dice) (room : RollRoom)

/-- The loop of `Group::RemoveMember` over the rolls, for the roll at a place. -/
def leaveRoll (i : ℕ) : RollRoom :=
  match room.rolls[i]? with
  | none => room
  | some r =>
    if (r.voteOf guid).isNone then room
    else
      { room with rolls := room.rolls.set i (r.dropPlayer guid) }.countRollVote guid r.itemGUID
        maxRollType itemsEmpty (dice i)

/-- The rolls in `Group::RemoveMember`. -/
def leaveRolls : RollRoom :=
  (List.range room.rolls.length).foldl (leaveRoll guid itemsEmpty dice) room

/-- Each roll of the member who leaves, in which all others have voted, is closed. -/
def ClosesDecided (room' : RollRoom) : Prop :=
  ∀ r ∈ room.rolls, (r.voteOf guid).isSome →
    (∀ v ∈ r.playerVote, v.1 ≠ guid → v.2 ≠ .notEmitedYet) →
      ∀ r' ∈ room'.rolls, r'.itemGUID ≠ r.itemGUID

variable {guid itemsEmpty dice room}

theorem dropPlayer_itemGUID (r : Roll) (guid : ℕ) : (r.dropPlayer guid).itemGUID = r.itemGUID := by
  unfold Roll.dropPlayer
  split <;> rfl

theorem dropPlayer_of_voteOf_none {r : Roll} (h : r.voteOf guid = none) :
    r.dropPlayer guid = r := by
  rw [Roll.dropPlayer, h]

theorem voteOf_dropPlayer (r : Roll) (guid : ℕ) : (r.dropPlayer guid).voteOf guid = none := by
  cases hvote : r.voteOf guid with
  | none => rw [dropPlayer_of_voteOf_none hvote, hvote]
  | some vote =>
    rw [Roll.dropPlayer, hvote, Roll.voteOf]
    simp only [Keyed.find_remove_self, map_none]

theorem getElem?_of_getRoll {itemGUID i : ℕ} {r : Roll} (h : room.getRoll itemGUID = some (i, r)) :
    room.rolls[i]? = some r ∧ r.itemGUID = itemGUID := by
  obtain ⟨j, hj, hget⟩ := bind_eq_some_iff.1 h
  obtain ⟨r', hr', heq⟩ := map_eq_some_iff.1 hget
  cases heq
  obtain ⟨hlt, hp, -⟩ := List.findIdx?_eq_some_iff_getElem.1 hj
  rw [List.getElem?_eq_getElem hlt] at hr'
  rw [some.inj hr', Bool.and_eq_true, decide_eq_true_eq] at hp
  exact ⟨(List.getElem?_eq_getElem hlt).trans hr', hp.1⟩

/-- The call of `CountRollVote` for the member who leaves finds no vote of his. -/
theorem leaveRoll_eq (hnodup : (room.rolls.map Roll.itemGUID).Nodup) (i : ℕ) :
    room.leaveRoll guid itemsEmpty dice i =
      { room with rolls := room.rolls.modify i fun r => r.dropPlayer guid } := by
  unfold leaveRoll
  cases hr : room.rolls[i]? with
  | none =>
    rw [modify_eq_self (List.getElem?_eq_none_iff.1 hr)]
  | some r =>
    have hmodify : room.rolls.modify i (fun r => r.dropPlayer guid) =
        room.rolls.set i (r.dropPlayer guid) := by
      rw [modify_eq_set_getElem?, hr]
      rfl
    simp only
    rw [hmodify]
    split_ifs with hvote
    · rw [dropPlayer_of_voteOf_none (isNone_iff_eq_none.1 hvote), set_of_getElem? hr]
    · refine countRollVote_of_voteOf_none fun j r' hget => ?_
      obtain ⟨hr', hguid⟩ := getElem?_of_getRoll hget
      by_cases hij : i = j
      · subst hij
        rw [List.getElem?_set_self (List.getElem?_eq_some_iff.1 hr).1] at hr'
        rw [← some.inj hr', voteOf_dropPlayer]
      · rw [List.getElem?_set_ne hij] at hr'
        -- the guids of the rolls are different
        have hlt := (List.getElem?_eq_some_iff.1 hr).1
        have hsame : (room.rolls.map Roll.itemGUID)[i]? = (room.rolls.map Roll.itemGUID)[j]? := by
          rw [List.getElem?_map, List.getElem?_map, hr, hr', map_some, map_some,
            hguid]
        exact absurd ((List.getElem?_inj (by rwa [length_map]) hnodup).1 hsame) hij

theorem modify_map_take {α : Type*} (l : List α) (f : α → α) (k : ℕ) :
    ((l.take k).map f ++ l.drop k).modify k f = (l.take (k + 1)).map f ++ l.drop (k + 1) := by
  induction l generalizing k with
  | nil => simp
  | cons a l ih =>
    cases k with
    | zero => simp
    | succ k => simpa using ih k

section

variable (hnodup : (room.rolls.map Roll.itemGUID).Nodup)
include hnodup

theorem leaveRolls_range (k : ℕ) :
    (List.range k).foldl (leaveRoll guid itemsEmpty dice) room =
      { room with
        rolls := (room.rolls.take k).map (fun r => r.dropPlayer guid) ++ room.rolls.drop k } := by
  induction k with
  | zero => simp
  | succ k ih =>
    rw [range_succ, foldl_append, ih, foldl_cons, foldl_nil, leaveRoll_eq]
    · simp only
      congr 1
      exact modify_map_take room.rolls (fun r => r.dropPlayer guid) k
    · have hguids : ∀ l : List Roll, (l.map fun r => r.dropPlayer guid).map Roll.itemGUID =
          l.map Roll.itemGUID := fun l => by simp [Function.comp_def, dropPlayer_itemGUID]
      rw [map_append, hguids, ← map_append, take_append_drop]
      exact hnodup

/-- The loop closes no roll. -/
theorem leaveRolls_eq : room.leaveRolls guid itemsEmpty dice = room.removeMember guid := by
  rw [leaveRolls, leaveRolls_range hnodup]
  simp [removeMember]

theorem closesDecided_leaveRolls_iff :
    room.ClosesDecided guid (room.leaveRolls guid itemsEmpty dice) ↔
      ∀ r ∈ room.rolls, (r.voteOf guid).isSome →
        ∃ v ∈ r.playerVote, v.1 ≠ guid ∧ v.2 = .notEmitedYet := by
  rw [leaveRolls_eq hnodup]
  refine forall₂_congr fun r hr => imp_congr_right fun _ => ?_
  constructor
  · intro hclosed
    by_contra hnone
    push Not at hnone
    exact hclosed hnone _ (mem_map.2 ⟨r, hr, rfl⟩) (dropPlayer_itemGUID r guid)
  · rintro ⟨v, hv, hne, hwaits⟩ hall
    exact absurd hwaits (hall v hv hne)

end

end RollRoom

/-! ## Both ends of a roll -/

/-- A rare item with a roll that the first of two players has won. -/
def rareRoom : LootRoom where
  haul :=
    { loot := { items := [{ itemid := 25, count := 1, isBlocked := true }], unlootedCount := 1 }
      invs := fun _ => smallInventory }
  rolls := [RollRoom.rareRoll [(1, .need), (2, .pass)] 1]

/-- The first player is online, or nobody is. -/
def rareDraw (online : Bool) : Haul.Draw where
  dice := fun _ => ⟨0, by decide⟩
  online := fun guid => if online && guid = 1 then some { guid := 1 } else none

end MistyWorld
