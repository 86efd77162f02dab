import MistyWorld.LootRoll

/-!
# The loot of a group

A `LootRoom` is a haul with the rolls for its items. `Player::SendLoot` opens the loot once, and
under group loot or need before greed that opens the rolls. Until a roll is counted the item is
blocked, so that `StoreLootItem` refuses it. `HandleLootMasterGiveOpcode` reads neither this flag
nor the one for looted items.

`CountTheRoll` may come at any time for any open roll : it follows a vote (`CountRollVote`) that
completes the roll, or the end of the timer (`EndRoll`).
-/

open Word

namespace MistyWorld

/-! ## Counting a roll -/

namespace Haul

variable (env : LootEnv) (h : Haul)

/-- The loop of `Player::AutoStoreLoot`. -/
def autoStore (guid : ℕ) : List ℕ → Haul → Haul
  | [], h => h
  | i :: is, h =>
    match h.loot.lootItemInSlot i guid with
    | none => autoStore guid is h
    | some f => autoStore guid is ((h.giveItem env f.piece guid f.item.itemid f.item.count).getD h)

/-- `Player::AutoStoreLoot` : a loot of its own is filled for the player and put into his
inventory. -/
def autoStoreLoot (player : Looter) (drops : List (Loot.StoreItem × Fin 256))
    (invs : ℕ → Inventory) : ℕ → Inventory :=
  let h : Haul := fillLoot env { loot := {}, invs } drops player none
  (autoStore env player.guid (List.range (h.loot.getMaxSlotInLootFor player.guid)) h).invs

/-- What decides how a roll ends : the dice, the players who are online, and what the item drops
when it is disenchanted. -/
structure Draw where
  dice : Roll.Dice
  online : ℕ → Option Looter
  disenchanted : List (Loot.StoreItem × Fin 256) := []

/-- The winner of a roll gets the item. When he has no room for it, it is not blocked any more. -/
def awardItem (itemid : ℕ) (piece : Loot.Piece) (item : LootItem) (guid : ℕ) : Haul :=
  match h.giveItem env piece guid itemid item.count with
  | none => h.withLoot (h.loot.setPiece { item with isBlocked := false } piece)
  | some h' => h'.withLoot (h.loot.setPiece { item with isLooted := true } piece).uncount

/-- The winner of a roll gets what the item is disenchanted to. -/
def awardMaterials (piece : Loot.Piece) (item : LootItem) (player : Looter)
    (drops : List (Loot.StoreItem × Fin 256)) : Haul :=
  { h with
    loot := (h.loot.setPiece { item with isLooted := true } piece).uncount
    invs := autoStoreLoot env player drops h.invs }

/-- `Group::CountTheRoll`, without the roll itself. -/
def award (r : Roll) (d : Draw) : Haul :=
  let piece := h.pieceOfSlot r.itemSlot
  match h.loot.pieceItem piece with
  | none => h
  | some item =>
    match r.outcome d.dice with
    | .need won =>
      if (d.online won.guid).isSome then h.awardItem env r.itemid piece item won.guid else h
    | .greed won =>
      match d.online won.guid, won.vote with
      | some _, .greed => h.awardItem env r.itemid piece item won.guid
      | some player, .disenchant =>
        h.awardMaterials env piece item { player with guid := won.guid } d.disenchanted
      | _, _ => h
    | .allPassed => h.withLoot (h.loot.setPiece { item with isBlocked := false } piece)
    | .nobody => h

end Haul

/-! ## Rooms -/

/-- A haul with the rolls for its items. `lootForBody` says that the loot was opened. -/
structure LootRoom where
  haul : Haul
  rolls : List Roll := []
  lootForBody : Bool := false

/-- What happens to the loot of a group. -/
inductive LootEvent
  | storeLootItem (guid lootSlot : ℕ)
  | masterGive (r : Haul.MasterGive)
  /-- `Player::SendLoot`, with the group of the players who may loot. -/
  | sendLoot (g : RollGroup) (method : LootMethod) (lootId nextGuid : ℕ)
  /-- A vote of `CountRollVote`. -/
  | rollVote (i guid : ℕ) (vote : RollVote)
  /-- The rolls in `Group::RemoveMember`. -/
  | removeMember (guid : ℕ)
  | countTheRoll (i : ℕ) (d : Haul.Draw)

namespace LootRoom

variable (env : LootEnv) (room : LootRoom)

/-- Open the rolls for the loot. -/
def openRolls (g : RollGroup) (lootId nextGuid : ℕ) (needBeforeGreed : Bool) : LootRoom :=
  let o := MistyWorld.openRolls env g lootId needBeforeGreed ⟨room.haul.loot, [], nextGuid⟩
  { haul := room.haul.withLoot o.loot, rolls := room.rolls ++ o.rolls, lootForBody := true }

/-- `Player::SendLoot`, as far as it changes the loot. `Group::MasterLoot` only sends the list of
the members. -/
def sendLoot (g : RollGroup) (method : LootMethod) (lootId nextGuid : ℕ) : LootRoom :=
  if room.lootForBody then room
  else
    match method with
    | .groupLoot => room.openRolls env g lootId nextGuid false
    | .needBeforeGreed => room.openRolls env g lootId nextGuid true
    | _ => { room with lootForBody := true }

/-- `Group::CountTheRoll`. A roll whose loot is gone is only erased. -/
def countTheRoll (i : ℕ) (d : Haul.Draw) : LootRoom :=
  match room.rolls[i]? with
  | none => room
  | some r =>
    { room with
      haul := if r.loot.isSome then room.haul.award env r d else room.haul
      rolls := room.rolls.eraseIdx i }

/-- Serve an event. -/
def step : LootEvent → LootRoom
  | .storeLootItem guid lootSlot =>
    { room with haul := room.haul.storeLootItem env guid lootSlot }
  | .masterGive r => { room with haul := room.haul.masterGive env r }
  | .sendLoot g method lootId nextGuid => room.sendLoot env g method lootId nextGuid
  | .rollVote i guid vote => { room with rolls := room.rolls.modify i fun r => r.castVote guid vote }
  | .removeMember guid => { room with rolls := room.rolls.map fun r => r.dropPlayer guid }
  | .countTheRoll i d => room.countTheRoll env i d

end LootRoom

end MistyWorld
