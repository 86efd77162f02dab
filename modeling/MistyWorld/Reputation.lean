import MistyWorld.Keyed
import MistyWorld.Rounding
import MistyWorld.Word
import Mathlib.Data.BitVec

/-!
# Reputation

A player has a standing and a byte of flags with every faction of the reputation list : visible,
at war, inactive, and flags of the faction itself. `ReputationMgr` holds them by the list id of the
faction. They start from defaults that depend on the race and the class of the player, and are
stored in rows by faction.

Loading does not copy the stored flags, it replays them through the setters on top of the defaults.
Saving writes the factions that are marked as changed.

An amount is multiplied with the rate of the server as `float` and rounded (`Rules.gain`). The rates
of the spillover are of any type; in the source they are `float`. The counters of visible and
honored factions and what is sent to the client are left out.
-/

open Word Rounding

namespace MistyWorld

namespace Reputation

/-! ## Flags and ranks -/

abbrev Flags := BitVec 8

def factionFlagVisible : Flags := 0x01
def factionFlagAtWar : Flags := 0x02
def factionFlagHidden : Flags := 0x04
def factionFlagInvisibleForced : Flags := 0x08
def factionFlagPeaceForced : Flags := 0x10
def factionFlagInactive : Flags := 0x20
def factionFlagSpecial : Flags := 0x80

/-- `flags & mask`, as a condition. -/
def hasFlag (flags mask : Flags) : Bool :=
  flags &&& mask != 0

def reputationCap : ℤ := 42999
def reputationBottom : ℤ := -42000

def pointsInRank : List ℤ := [36000, 3000, 3000, 3000, 6000, 12000, 21000, 1000]

/-- `REP_HOSTILE`. -/
def repHostile : ℕ := 1

/-- The loop of `ReputationToRank` over the ranks below `n`. -/
def rankBelow (standing : ℤ) : ℕ → ℤ → ℕ
  | 0, _ => 0
  | i + 1, limit =>
    let limit := limit - pointsInRank.getD i 0
    if limit ≤ standing then i else rankBelow standing i limit

/-- `ReputationMgr::ReputationToRank`. -/
def reputationToRank (standing : ℤ) : ℕ :=
  rankBelow standing pointsInRank.length (reputationCap + 1)

/-! ## Factions -/

structure FactionEntry (F : Type*) where
  ID : ℕ
  reputationListID : ℤ
  baseRepRaceMask : Fin 4 → ℕ
  baseRepClassMask : Fin 4 → ℕ
  baseRepValue : Fin 4 → ℤ
  reputationFlags : Fin 4 → ℕ
  team : ℕ
  spilloverRateIn : F
  spilloverRateOut : F
  spilloverMaxRankIn : ℕ

/-- `sFactionStore`. The factions of the reputation list have list ids of their own. -/
structure FactionStore (F : Type*) where
  entries : List (FactionEntry F)
  ids_nodup : (entries.map FactionEntry.ID).Nodup
  eq_of_listID : ∀ e ∈ entries, ∀ e' ∈ entries, 0 ≤ e.reputationListID →
    e.reputationListID = e'.reputationListID → e = e'

/-- The slots of a spillover definition. -/
structure RepSpilloverTemplate (F : Type*) where
  faction : Fin 5 → ℕ
  factionRate : Fin 5 → F
  factionRank : Fin 5 → ℕ

/-- The tables, the race and the class of the player, and what the amounts are computed with. -/
structure Rules (F : Type*) where
  store : FactionStore F
  repSpillover : ℕ → Option (RepSpilloverTemplate F) := fun _ => none
  factionTeamList : ℕ → Option (List ℕ) := fun _ => none
  raceMask : ℕ
  classMask : ℕ
  toFloat : ℤ → F
  mul : F → F → F
  isZero : F → Bool
  toInt32 : F → ℤ
  rateReputationGain : ℚ := 1
  onReputationChange : ℕ → ℤ → Bool → ℤ := fun _ standing _ => standing

structure FactionState where
  ID : ℕ := 0
  reputationListID : ℕ := 0
  standing : ℤ := 0
  flags : Flags := 0
  needSave : Bool := false
  deriving DecidableEq

/-- A row of `character_reputation` of the player. -/
structure Row where
  faction : ℕ
  standing : ℤ
  flags : ℕ
  deriving DecidableEq, Repr

/-- `_factions`, by list id. -/
structure ReputationMgr where
  factions : ℕ → Option FactionState := fun _ => none

variable {F : Type*}

/-- `sFactionStore.LookupEntry`. -/
def FactionStore.lookupEntry (store : FactionStore F) (id : ℕ) : Option (FactionEntry F) :=
  Keyed.find FactionEntry.ID store.entries id

namespace Rules

variable (t : Rules F)

/-- The first of the four base entries of a faction that is for the race and the class. -/
def baseIndex (e : FactionEntry F) : Option (Fin 4) :=
  (List.finRange 4).find? fun i =>
    (e.baseRepRaceMask i &&& t.raceMask != 0 ||
      (e.baseRepRaceMask i == 0 && e.baseRepClassMask i != 0)) &&
    (e.baseRepClassMask i &&& t.classMask != 0 || e.baseRepClassMask i == 0)

/-- `GetBaseReputation`. -/
def getBaseReputation (e : FactionEntry F) : ℤ :=
  match t.baseIndex e with
  | some i => e.baseRepValue i
  | none => 0

/-- `GetDefaultStateFlags`, in the byte of the state. -/
def getDefaultStateFlags (e : FactionEntry F) : Flags :=
  match t.baseIndex e with
  | some i => BitVec.ofNat 8 (e.reputationFlags i)
  | none => 0

/-- `floor((float)standing * getRate(RATE_REPUTATION_GAIN) + 0.5f)`. -/
def rounded (standing : ℤ) : ℤ :=
  ⌊binary32 (binary32 (binary32 standing * t.rateReputationGain) + 1 / 2)⌋

/-- The same as `int32` : the least number where it does not fit. -/
def gain (standing : ℤ) : ℤ :=
  if -2 ^ 31 ≤ t.rounded standing ∧ t.rounded standing < 2 ^ 31 then t.rounded standing else -2 ^ 31

end Rules

/-! ## The setters of a state -/

namespace FactionState

/-- `SetVisible`. -/
def setVisible (f : FactionState) : FactionState :=
  if hasFlag f.flags (factionFlagInvisibleForced ||| factionFlagHidden) &&
      !hasFlag f.flags factionFlagSpecial then f
  else if hasFlag f.flags factionFlagVisible then f
  else { f with flags := f.flags ||| factionFlagVisible, needSave := true }

/-- `SetAtWar`. -/
def setAtWar (f : FactionState) (atWar : Bool) : FactionState :=
  if atWar && hasFlag f.flags factionFlagPeaceForced then f
  else if hasFlag f.flags factionFlagAtWar = atWar then f
  else
    { f with
      flags := if atWar then f.flags ||| factionFlagAtWar else f.flags &&& ~~~factionFlagAtWar
      needSave := true }

/-- `SetInactive`. -/
def setInactive (f : FactionState) (inactive : Bool) : FactionState :=
  if inactive && (hasFlag f.flags (factionFlagInvisibleForced ||| factionFlagHidden) ||
      !hasFlag f.flags factionFlagVisible) then f
  else if hasFlag f.flags factionFlagInactive = inactive then f
  else
    { f with
      flags :=
        if inactive then f.flags ||| factionFlagInactive else f.flags &&& ~~~factionFlagInactive
      needSave := true }

end FactionState

/-! ## Changes -/

namespace ReputationMgr

/-- `GetState`. -/
def getState (m : ReputationMgr) (e : FactionEntry F) : Option FactionState :=
  if 0 ≤ e.reputationListID then m.factions e.reputationListID.toNat else none

def setState (m : ReputationMgr) (id : ℕ) (f : FactionState) : ReputationMgr where
  factions := Function.update m.factions id (some f)

variable (t : Rules F)

/-- `GetReputation`. -/
def getReputation (m : ReputationMgr) (e : FactionEntry F) : ℤ :=
  match m.getState e with
  | some f => toI32 (t.getBaseReputation e + f.standing)
  | none => 0

/-- `GetRank`. -/
def getRank (m : ReputationMgr) (e : FactionEntry F) : ℕ :=
  reputationToRank (m.getReputation t e)

/-- `Player::GetReputationRank`. -/
def getReputationRank (m : ReputationMgr) (faction : ℕ) : ℕ :=
  match t.store.lookupEntry faction with
  | some e => m.getRank t e
  | none => reputationToRank 0

/-- What `SetOneFactionReputation` makes of the state of the faction. -/
def changedState (e : FactionEntry F) (f : FactionState) (standing : ℤ) (incremental : Bool) :
    FactionState :=
  let baseRep := t.getBaseReputation e
  let standing :=
    if incremental then toI32 (t.gain standing + toI32 (f.standing + baseRep)) else standing
  let standing :=
    if reputationCap < standing then reputationCap
    else if standing < reputationBottom then reputationBottom
    else standing
  let newRank := reputationToRank standing
  let f := { f with standing := toI32 (standing - baseRep), needSave := true }.setVisible
  if newRank ≤ repHostile then f.setAtWar true else f

/-- `SetOneFactionReputation`. -/
def setOneFactionReputation (m : ReputationMgr) (e : FactionEntry F) (standing : ℤ)
    (incremental : Bool) : ReputationMgr × Bool :=
  match m.getState e with
  | none => (m, false)
  | some f =>
    (m.setState e.reputationListID.toNat (changedState t e f standing incremental), true)

/-- The body of the loop over the slots of a spillover definition. -/
def spillSlot (template : RepSpilloverTemplate F) (standing : ℤ) (incremental : Bool)
    (m : ReputationMgr) (i : Fin 5) : ReputationMgr :=
  if template.faction i ≠ 0 ∧
      m.getReputationRank t (template.faction i) ≤ template.factionRank i then
    match t.store.lookupEntry (template.faction i) with
    | none => m
    | some e =>
      (m.setOneFactionReputation t e
        (t.toInt32 (t.mul (t.toFloat standing) (template.factionRate i))) incremental).1
  else m

/-- The body of the loop over the factions of a team. -/
def spillTeam (e : FactionEntry F) (out : F) (incremental : Bool) (s : ReputationMgr × Bool)
    (faction : ℕ) : ReputationMgr × Bool :=
  match t.store.lookupEntry faction with
  | none => s
  | some other =>
    if other.ID = e.ID ∨ other.spilloverMaxRankIn < s.1.getRank t other then s
    else
      let spilloverRep := t.toInt32 (t.mul out other.spilloverRateIn)
      if spilloverRep ≠ 0 ∨ !incremental then
        s.1.setOneFactionReputation t other spilloverRep incremental
      else s

/-- The spillover of a faction without definition : to the list of its team, or to the parent, or
to the list of the parent. -/
def spillDefault (m : ReputationMgr) (e : FactionEntry F) (standing : ℤ) (incremental : Bool) :
    ReputationMgr × Bool :=
  match t.factionTeamList e.ID with
  | some list => list.foldl (spillTeam t e (t.toFloat standing) incremental) (m, false)
  | none =>
    if e.team ≠ 0 ∧ !t.isZero e.spilloverRateOut then
      let out := t.mul (t.toFloat standing) e.spilloverRateOut
      match t.store.lookupEntry e.team with
      | none => (m, false)
      | some parent =>
        if (m.getState parent).any fun f => hasFlag f.flags factionFlagSpecial then
          ((m.setOneFactionReputation t parent (t.toInt32 out) incremental).1, false)
        else
          match t.factionTeamList e.team with
          | some list => list.foldl (spillTeam t e out incremental) (m, false)
          | none => (m, false)
    else (m, false)

/-- `SetReputation`. -/
def setReputation (m : ReputationMgr) (e : FactionEntry F) (standing : ℤ) (incremental : Bool) :
    ReputationMgr × Bool :=
  let standing := t.onReputationChange e.ID standing incremental
  let s :=
    match t.repSpillover e.ID with
    | some template =>
      ((List.finRange 5).foldl (spillSlot t template standing incremental) m, false)
    | none => m.spillDefault t e standing incremental
  match s.1.getState e with
  | some _ => s.1.setOneFactionReputation t e standing incremental
  | none => s

/-- `SetVisible` of a faction. -/
def setVisible (m : ReputationMgr) (e : FactionEntry F) : ReputationMgr :=
  match m.getState e with
  | none => m
  | some f => m.setState e.reputationListID.toNat f.setVisible

/-- Factions of the opposing team are never shown. -/
abbrev ofOpposingTeam (e : FactionEntry F) : Prop :=
  e.baseRepRaceMask 1 &&& t.raceMask ≠ 0 ∧ e.baseRepValue 1 = reputationBottom

/-- `SetVisible` of the faction of a faction template. -/
def setVisibleTemplate (m : ReputationMgr) (faction : ℕ) : ReputationMgr :=
  if faction = 0 then m
  else
    match t.store.lookupEntry faction with
    | none => m
    | some e =>
      if ofOpposingTeam t e then m
      else m.setVisible e

/-- `SetAtWar`. -/
def setAtWar (m : ReputationMgr) (repListID : ℕ) (on : Bool) : ReputationMgr :=
  match m.factions repListID with
  | none => m
  | some f =>
    if hasFlag f.flags (factionFlagInvisibleForced ||| factionFlagHidden) then m
    else m.setState repListID (f.setAtWar on)

/-- `SetInactive`. -/
def setInactive (m : ReputationMgr) (repListID : ℕ) (on : Bool) : ReputationMgr :=
  match m.factions repListID with
  | none => m
  | some f => m.setState repListID (f.setInactive on)

/-! ## Loading and saving -/

/-- The state of a faction that `Initialize` puts in. -/
def newFaction (e : FactionEntry F) : FactionState where
  ID := e.ID
  reputationListID := e.reputationListID.toNat
  flags := t.getDefaultStateFlags e
  needSave := true

/-- `Initialize`. -/
def initFactions : ReputationMgr :=
  t.store.entries.foldl
    (fun m e => if 0 ≤ e.reputationListID then
      m.setState e.reputationListID.toNat (newFaction t e) else m)
    {}

/-- What `LoadFromDB` makes of the state of a faction with a row. -/
def loadedState (e : FactionEntry F) (f : FactionState) (row : Row) : FactionState :=
  let dbFactionFlags := BitVec.ofNat 8 row.flags
  let f := { f with standing := row.standing }
  let f := if hasFlag dbFactionFlags factionFlagVisible then f.setVisible else f
  let f := if hasFlag dbFactionFlags factionFlagInactive then f.setInactive true else f
  let f :=
    if hasFlag dbFactionFlags factionFlagAtWar then f.setAtWar true
    else if hasFlag f.flags factionFlagVisible then f.setAtWar false
    else f
  let f :=
    if reputationToRank (toI32 (t.getBaseReputation e + f.standing)) ≤ repHostile then
      f.setAtWar true
    else f
  if f.flags.toNat = row.flags then { f with needSave := false } else f

/-- The body of the loop of `LoadFromDB`. -/
def loadRow (m : ReputationMgr) (row : Row) : ReputationMgr :=
  match t.store.lookupEntry row.faction with
  | none => m
  | some e =>
    if 0 ≤ e.reputationListID then
      m.setState e.reputationListID.toNat (loadedState t e ((m.getState e).getD {}) row)
    else m

/-- `LoadFromDB`. -/
def loadFromDB (rows : List Row) : ReputationMgr :=
  rows.foldl (loadRow t) (initFactions t)

/-- The list ids in their order, in which `SaveToDB` goes over the factions. -/
def listIDs : List ℕ :=
  ((t.store.entries.filter fun e => 0 ≤ e.reputationListID).map
    fun e => e.reputationListID.toNat).mergeSort

/-- The body of the loop of `SaveToDB` : the row of a faction is replaced. -/
def saveRow (m : ReputationMgr) (rows : List Row) (repListID : ℕ) : List Row :=
  match m.factions repListID with
  | none => rows
  | some f =>
    if f.needSave then
      Keyed.remove Row.faction rows (toU16 f.ID) ++ [⟨toU16 f.ID, f.standing, f.flags.toNat⟩]
    else rows

/-- `SaveToDB` : the state afterwards and the rows. -/
def saveToDB (m : ReputationMgr) (rows : List Row) : ReputationMgr × List Row :=
  ({ factions := fun id => (m.factions id).map fun f => { f with needSave := false } },
    (listIDs t).foldl (saveRow m) rows)

end ReputationMgr

end Reputation

end MistyWorld
