import MistyWorld.Loot

/-!
# Loot rolls

`GroupLoot` and `NeedBeforeGreed` open a roll for each item over the threshold of the group. A
roll keeps the votes of the players (`playerVote`) and, beside them, four totals in 8 bits. A vote
(`CountRollVote`) adds to a total and overwrites the vote of the player, whatever it was. When the
totals reach the number of players the roll is counted (`CountTheRoll`), and the timer counts all
rolls of a loot (`EndRoll`).
-/

open Word

namespace MistyWorld

/-- `MAXRAIDSIZE`. -/
def maxRaidSize : ℕ := 40

/-- `RollVote`. -/
inductive RollVote
  | pass
  | need
  | greed
  | disenchant
  | notEmitedYet
  | notValid
  deriving DecidableEq, Repr

/-- `ROLL_FLAG_TYPE_NEED`. -/
def rollFlagTypeNeed : ℕ := 2

/-- `ROLL_FLAG_TYPE_DISENCHANT`. -/
def rollFlagTypeDisenchant : ℕ := 8

/-- `ROLL_ALL_TYPE_NO_DISENCHANT`. -/
def rollAllTypeNoDisenchant : ℕ := 7

/-- The flag of a vote in `rollVoteMask`. -/
def RollVote.flag : RollVote → ℕ
  | .pass => 1
  | .need => 2
  | .greed => 4
  | .disenchant => 8
  | _ => 0

/-- The vote that a `rollType` of `HandleLootRoll` stands for. -/
def rollVoteOf : ℕ → Option RollVote
  | 0 => some .pass
  | 1 => some .need
  | 2 => some .greed
  | 3 => some .disenchant
  | _ => none

/-- `Roll`. `loot` is the loot it is linked to, while that is valid. -/
structure Roll where
  itemGUID : ℕ
  itemid : ℕ
  loot : Option ℕ
  itemSlot : ℕ := 0
  playerVote : List (ℕ × RollVote) := []
  totalPlayersRolling : ℕ := 0
  totalNeed : ℕ := 0
  totalGreed : ℕ := 0
  totalPass : ℕ := 0
  rollVoteMask : ℕ := rollAllTypeNoDisenchant
  deriving DecidableEq, Repr

/-- `playerVote[guid] = vote`, in the order of the guids. -/
def setVote (guid : ℕ) (vote : RollVote) : List (ℕ × RollVote) → List (ℕ × RollVote)
  | [] => [(guid, vote)]
  | v :: vs =>
    if guid < v.1 then (guid, vote) :: v :: vs
    else if v.1 = guid then (guid, vote) :: vs
    else v :: setVote guid vote vs

namespace Roll

variable (r : Roll)

/-- The vote of a player. -/
def voteOf (guid : ℕ) : Option RollVote :=
  (Keyed.find Prod.fst r.playerVote guid).map Prod.snd

/-- `++total` for a vote, and the vote itself. -/
def castVote (guid : ℕ) (vote : RollVote) : Roll :=
  let votes := r.playerVote.map fun v => if v.1 = guid then (v.1, vote) else v
  match vote with
  | .pass => { r with playerVote := votes, totalPass := toU8 (r.totalPass + 1 : ℕ) }
  | .need => { r with playerVote := votes, totalNeed := toU8 (r.totalNeed + 1 : ℕ) }
  | .greed => { r with playerVote := votes, totalGreed := toU8 (r.totalGreed + 1 : ℕ) }
  | .disenchant => { r with playerVote := votes, totalGreed := toU8 (r.totalGreed + 1 : ℕ) }
  | _ => r

/-- The totals have reached the number of players. -/
def complete : Bool :=
  r.totalPass + r.totalNeed + r.totalGreed ≥ r.totalPlayersRolling

/-- A member leaves : `Group::RemoveMember` for one roll. -/
def dropPlayer (guid : ℕ) : Roll :=
  match r.voteOf guid with
  | none => r
  | some vote =>
    { r with
      totalGreed := if vote = .greed ∨ vote = .disenchant then toU8 (r.totalGreed + 255 : ℕ)
        else r.totalGreed
      totalNeed := if vote = .need then toU8 (r.totalNeed + 255 : ℕ) else r.totalNeed
      totalPass := if vote = .pass then toU8 (r.totalPass + 255 : ℕ) else r.totalPass
      totalPlayersRolling := if vote = .notValid then r.totalPlayersRolling
        else toU8 (r.totalPlayersRolling + 255 : ℕ)
      playerVote := Keyed.remove Prod.fst r.playerVote guid }

/-! ## Counting the roll -/

/-- The numbers that `urand(1, 100)` draws. -/
abbrev Dice := ℕ → Fin 100

/-- The best roll so far : the player, his number and his vote. -/
structure Best where
  guid : ℕ
  number : ℕ
  vote : RollVote
  deriving DecidableEq, Repr

/-- The loop of `CountTheRoll` over the votes that take part. -/
def best (takesPart : RollVote → Bool) (dice : Dice) : ℕ → Best → List (ℕ × RollVote) → Best
  | _, b, [] => b
  | k, b, v :: vs =>
    if takesPart v.2 then
      if b.number < dice k + 1 then best takesPart dice (k + 1) ⟨v.1, dice k + 1, v.2⟩ vs
      else best takesPart dice (k + 1) b vs
    else best takesPart dice k b vs

/-- How a roll ends : a need roll or a greed roll is won, all have passed, or there is no player. -/
inductive Outcome
  | need (won : Best)
  | greed (won : Best)
  | allPassed
  | nobody
  deriving DecidableEq, Repr

/-- The selection of `CountTheRoll`. The first player wins where no vote takes part. -/
def outcome (dice : Dice) : Outcome :=
  if r.totalNeed > 0 then
    match r.playerVote with
    | [] => .nobody
    | v :: _ => .need (best (fun vote => vote = .need) dice 0 ⟨v.1, 0, .need⟩ r.playerVote)
  else if r.totalGreed > 0 then
    match r.playerVote with
    | [] => .nobody
    | v :: _ => .greed (best (fun vote => vote = .greed || vote = .disenchant) dice 0
        ⟨v.1, 0, .notValid⟩ r.playerVote)
  else .allPassed

/-- The player who wins. -/
def Outcome.winner : Outcome → Option ℕ
  | .need won => some won.guid
  | .greed won => some won.guid
  | _ => none

end Roll

/-! ## The rolls of a group -/

/-- A member of the group when rolls are opened. -/
structure RollMember where
  looter : Looter
  /-- The player is online and near the looted object. -/
  near : Bool := true
  passOnGroupLoot : Bool := false

/-- A group that rolls : its members are different players, at most a full raid. -/
structure RollGroup where
  members : List RollMember
  lootThreshold : ℕ := 2
  maxEnchantingLevel : ℕ := 0
  nodup : (members.map fun m => m.looter.guid).Nodup
  size : members.length ≤ maxRaidSize

/-- A player takes part in the roll. -/
def Roll.addPlayer (m : RollMember) (canPass : Bool) (r : Roll) : Roll :=
  let r₁ := { r with totalPlayersRolling := toU8 (r.totalPlayersRolling + 1 : ℕ) }
  if canPass && m.passOnGroupLoot then
    { r₁ with
      playerVote := setVote m.looter.guid .pass r₁.playerVote
      totalPass := toU8 (r₁.totalPass + 1 : ℕ) }
  else { r₁ with playerVote := setVote m.looter.guid .notEmitedYet r₁.playerVote }

/-- The roll for an item, with the members who may have it. A quest item has no automatic pass. -/
def openRoll (env : LootEnv) (g : RollGroup) (newGuid lootId itemSlot : ℕ) (quest : Bool)
    (item : LootItem) (mask : ℕ) : Roll :=
  (g.members.filter fun m => m.near && item.allowedForPlayer env m.looter).foldl
    (fun r m => r.addPlayer m !quest)
    { itemGUID := newGuid, itemid := item.itemid, loot := some lootId, itemSlot,
      rollVoteMask := mask }

/-- The votes that a roll allows. With need before greed an item may have its need roll disabled. -/
def voteMask (env : LootEnv) (g : RollGroup) (needBeforeGreed : Bool) (item : LootItem) : ℕ :=
  let proto := env.proto item.itemid
  let mask := if proto.disenchantId ≠ 0 ∧ proto.requiredDisenchantSkill ≤ g.maxEnchantingLevel then
    rollAllTypeNoDisenchant ||| rollFlagTypeDisenchant else rollAllTypeNoDisenchant
  if needBeforeGreed && proto.needRollDisabled then mask &&& (15 - rollFlagTypeNeed) else mask

/-- What opening rolls has done : the loot, the rolls, and the next guid. -/
structure Opened where
  loot : Loot
  rolls : List Roll
  nextGuid : ℕ

/-- `GroupLoot` and `NeedBeforeGreed` for one item. -/
def openItem (env : LootEnv) (g : RollGroup) (lootId : ℕ) (needBeforeGreed : Bool) (o : Opened)
    (i : ℕ) : Opened :=
  match o.loot.items[i]? with
  | none => o
  | some item =>
    if item.freeforall || (env.items.template item.itemid).isNone then o
    else if (env.proto item.itemid).quality ≥ g.lootThreshold then
      let r := openRoll env g o.nextGuid lootId i false item (voteMask env g needBeforeGreed item)
      if r.totalPlayersRolling > 0 then
        { loot := o.loot.setPiece { item with isBlocked := true } (.item i)
          rolls := o.rolls ++ [r]
          nextGuid := o.nextGuid + 1 }
      else { o with nextGuid := o.nextGuid + 1 }
    else { o with loot := o.loot.setPiece { item with isUnderthreshold := true } (.item i) }

/-- `GroupLoot` and `NeedBeforeGreed` for one quest item. -/
def openQuestItem (env : LootEnv) (g : RollGroup) (lootId : ℕ) (o : Opened) (i : ℕ) : Opened :=
  match o.loot.questItems[i]? with
  | none => o
  | some item =>
    if !item.followLootRules || (env.items.template item.itemid).isNone then o
    else
      let r := openRoll env g o.nextGuid lootId (o.loot.items.length + i) true item
        rollAllTypeNoDisenchant
      if r.totalPlayersRolling > 0 then
        { loot := o.loot.setPiece { item with isBlocked := true } (.quest i)
          rolls := o.rolls ++ [r]
          nextGuid := o.nextGuid + 1 }
      else { o with nextGuid := o.nextGuid + 1 }

/-- `Group::GroupLoot`, and `Group::NeedBeforeGreed` which differs in the votes it allows. -/
def openRolls (env : LootEnv) (g : RollGroup) (lootId : ℕ) (needBeforeGreed : Bool) (o : Opened) :
    Opened :=
  (List.range o.loot.questItems.length).foldl (openQuestItem env g lootId)
    ((List.range o.loot.items.length).foldl (openItem env g lootId needBeforeGreed) o)

/-- A roll that was counted. -/
structure Closed where
  roll : Roll
  outcome : Roll.Outcome
  /-- `EndRoll`, and no vote. -/
  timer : Bool

/-- The rolls of a group, and those that were counted, newest first. -/
structure RollRoom where
  rolls : List Roll := []
  closed : List Closed := []

/-- What happens to the rolls of a group. -/
inductive RollEvent
  | openRolls (env : LootEnv) (g : RollGroup) (lootId : ℕ) (needBeforeGreed : Bool) (loot : Loot)
      (nextGuid : ℕ)
  /-- `HandleLootRoll`, with the loots that have no items. -/
  | lootRoll (player guid rollType : ℕ) (itemsEmpty : ℕ → Bool) (dice : Roll.Dice)
  | removeMember (guid : ℕ)
  | endRoll (lootId : ℕ) (dice : ℕ → Roll.Dice)
  /-- `Loot::clear`. -/
  | clearLoot (lootId : ℕ)

namespace RollRoom

variable (room : RollRoom)

/-- `Group::GetRoll`. -/
def getRoll (guid : ℕ) : Option (ℕ × Roll) :=
  (room.rolls.findIdx? fun r => r.itemGUID = guid && r.loot.isSome).bind fun i =>
    room.rolls[i]?.map fun r => (i, r)

/-- The roll that a vote goes to : the player takes part, and the loot has items. -/
def votedRoll (player guid : ℕ) (itemsEmpty : ℕ → Bool) : Option (ℕ × Roll) :=
  (room.getRoll guid).filter fun ir =>
    (ir.2.voteOf player).isSome && !ir.2.loot.any itemsEmpty

/-- `Group::CountRollVote`. -/
def countRollVote (player guid choice : ℕ) (itemsEmpty : ℕ → Bool) (dice : Roll.Dice) :
    RollRoom :=
  match room.votedRoll player guid itemsEmpty with
  | none => room
  | some (i, r) =>
    let r' := match rollVoteOf choice with
      | some vote => r.castVote player vote
      | none => r
    if r'.complete then
      { rolls := room.rolls.eraseIdx i, closed := ⟨r', r'.outcome dice, false⟩ :: room.closed }
    else { room with rolls := room.rolls.set i r' }

/-- `Group::EndRoll`. -/
def endRoll (lootId : ℕ) (dice : ℕ → Roll.Dice) : RollRoom where
  rolls := room.rolls.filter fun r => r.loot ≠ some lootId
  closed := (room.rolls.filter fun r => r.loot = some lootId).map
    (fun r => ⟨r, r.outcome (dice r.itemGUID), true⟩) ++ room.closed

/-- The rolls in `Group::RemoveMember`. The `CountRollVote` that follows finds no vote of the player
(`countRollVote_of_voteOf_none`). -/
def removeMember (guid : ℕ) : RollRoom :=
  { room with rolls := room.rolls.map fun r => r.dropPlayer guid }

/-- Serve an event. -/
def step : RollEvent → RollRoom
  | .openRolls env g lootId needBeforeGreed loot nextGuid =>
    { room with
      rolls := room.rolls ++ (MistyWorld.openRolls env g lootId needBeforeGreed
        ⟨loot, [], nextGuid⟩).rolls }
  | .lootRoll player guid rollType itemsEmpty dice =>
    room.countRollVote player guid rollType itemsEmpty dice
  | .removeMember guid => room.removeMember guid
  | .endRoll lootId dice => room.endRoll lootId dice
  | .clearLoot lootId =>
    { room with
      rolls := room.rolls.map fun r => if r.loot = some lootId then { r with loot := none } else r }

end RollRoom

end MistyWorld
