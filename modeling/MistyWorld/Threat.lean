import Mathlib.Algebra.Ring.Nat
import Mathlib.Data.List.Sort
import Mathlib.Logic.Function.Basic

/-!
# Threat

A creature hates units through hostile references. Its threat manager keeps the references in two
lists, those of the units it can get at and the offline ones, and the current victim, which is one
of the first. A reference has the guid of its unit, the link to it, the threat, and the flags of
its status.

The lists follow the flags by events that the references fire from inside their own methods : adding
threat may bring a reference online, changes of the status move it between the lists, and threat on
a pet makes a reference for its owner, and for his, up the chain.

The references are pointers into a heap. The threat is of any type with the operations of
`ThreatOps`, which in the source is `float`. Where the units are and what they are is asked of a
`ThreatWorld`, which may be another one at every request. Packets are left out.
-/

namespace MistyWorld

/-! ## The world -/

/-- What the manager asks of a unit, against the creature. -/
structure UnitView where
  isPlayer : Bool := false
  isGameMaster : Bool := false
  isAlive : Bool := true
  isInFlight : Bool := false
  isInMap : Bool := true
  inSamePhase : Bool := true
  isInAccessiblePlace : Bool := true
  isWithinCombatRange : Bool := false

/-- The creature itself, the units that `GetUnit` finds, and the owners or charmers of a unit : the
nearest one first, each followed by his own. -/
structure ThreatWorld where
  self : ℕ
  selfAlive : Bool := true
  getUnit : ℕ → Bool := fun _ => true
  view : ℕ → UnitView := fun _ => {}
  owners : ℕ → List ℕ := fun _ => []
  owners_tail : ∀ {u o os}, owners u = o :: os → owners o = os

/-- The arithmetic of the threat. -/
structure ThreatOps (F : Type*) where
  zero : F
  add : F → F → F
  sub : F → F → F
  neg : F → F
  isZero : F → Bool
  lt : F → F → Bool
  le : F → F → Bool
  /-- `AddPct`. -/
  addPct : F → ℤ → F
  /-- `1.1f * threat`. -/
  times11 : F → F
  /-- `1.3f * threat`. -/
  times13 : F → F

structure HostileReference (F : Type*) where
  unitGuid : ℕ
  /-- `iRefTo`. -/
  target : Option ℕ
  threat : F
  tempThreatModifier : F
  online : Bool := true
  accessible : Bool := true

/-- `refs` is the heap of the references of the manager, `nextRef` the next free address. The first
list is `iThreatContainer`, the second one `iThreatOfflineContainer`. -/
structure ThreatManager (F : Type*) where
  refs : ℕ → Option (HostileReference F) := fun _ => none
  nextRef : ℕ := 0
  threatList : List ℕ := []
  dirty : Bool := false
  offlineList : List ℕ := []
  currentVictim : Option ℕ := none

variable {F : Type*}

namespace ThreatWorld

variable (w : ThreatWorld)

def isGM (u : ℕ) : Bool :=
  (w.view u).isPlayer && (w.view u).isGameMaster

/-- `ThreatCalcHelper::isValidProcess`, without a spell. -/
def isValidProcess (hated : ℕ) : Bool :=
  hated != w.self && !w.isGM hated && (w.view hated).isAlive && w.selfAlive &&
    (w.view hated).isInMap && (w.view hated).inSamePhase

/-- The creature may attack the unit at all. -/
def canBeOnline (u : ℕ) : Bool :=
  !w.isGM u && !(w.view u).isInFlight && (w.view u).isInMap && (w.view u).inSamePhase

end ThreatWorld

/-! ## Events -/

inductive ThreatEvent (F : Type*)
  | threatChange (value : F)
  | onlineStatus
  | removeFromList
  | accessibleStatus

namespace ThreatManager

def setRef (m : ThreatManager F) (p : ℕ) (r : HostileReference F) : ThreatManager F :=
  { m with refs := Function.update m.refs p (some r) }

/-- `getReferenceByTarget` of the container with this list. -/
def getReferenceByTarget (m : ThreatManager F) (list : List ℕ) (victim : ℕ) : Option ℕ :=
  list.find? fun p => (m.refs p).any fun r => r.unitGuid == victim

/-- `processThreatEvent`. -/
def processThreatEvent (o : ThreatOps F) (m : ThreatManager F) (p : ℕ) :
    ThreatEvent F → ThreatManager F
  | .threatChange value =>
    if (m.currentVictim = some p ∧ o.lt value o.zero) ∨
        (m.currentVictim ≠ some p ∧ o.lt o.zero value) then
      { m with dirty := true }
    else m
  | .onlineStatus =>
    match m.refs p with
    | none => m
    | some r =>
      if !r.online then
        { m with
          currentVictim := if m.currentVictim = some p then none else m.currentVictim
          dirty := m.dirty || m.currentVictim = some p
          threatList := m.threatList.filter (· ≠ p)
          offlineList := m.offlineList ++ [p] }
      else
        { m with
          dirty := m.dirty || (m.currentVictim.bind m.refs).any fun v =>
            o.lt (o.times11 v.threat) r.threat
          threatList := m.threatList ++ [p]
          offlineList := m.offlineList.filter (· ≠ p) }
  | .removeFromList =>
    match m.refs p with
    | none => m
    | some r =>
      { m with
        currentVictim := if m.currentVictim = some p then none else m.currentVictim
        dirty := m.dirty || m.currentVictim = some p
        threatList := if r.online then m.threatList.filter (· ≠ p) else m.threatList
        offlineList := if r.online then m.offlineList else m.offlineList.filter (· ≠ p) }
  | .accessibleStatus => m

/-! ## The status of a reference -/

/-- `setAccessibleState`. -/
def setAccessibleState (o : ThreatOps F) (m : ThreatManager F) (p : ℕ) (isAccessible : Bool) :
    ThreatManager F :=
  match m.refs p with
  | none => m
  | some r =>
    if r.accessible = isAccessible then m
    else
      (m.setRef p { r with accessible := isAccessible }).processThreatEvent o p .accessibleStatus

/-- `setOnlineOfflineState`. -/
def setOnlineOfflineState (o : ThreatOps F) (m : ThreatManager F) (p : ℕ) (isOnline : Bool) :
    ThreatManager F :=
  match m.refs p with
  | none => m
  | some r =>
    if r.online = isOnline then m
    else
      let m := m.setRef p { r with online := isOnline }
      -- if not online then not accessible as well
      let m := if isOnline then m else m.setAccessibleState o p false
      m.processThreatEvent o p .onlineStatus

/-- The reference is linked again, if its unit is found. -/
def relink (w : ThreatWorld) (m : ThreatManager F) (p : ℕ) : ThreatManager F :=
  match m.refs p with
  | none => m
  | some r =>
    if r.target = none ∧ w.getUnit r.unitGuid then m.setRef p { r with target := some r.unitGuid }
    else m

/-- What `updateOnlineStatus` finds for a reference : whether it is online and accessible. -/
def onlineStatus (w : ThreatWorld) (r : HostileReference F) : Bool × Bool :=
  match r.target with
  | none => (false, false)
  | some u =>
    if w.canBeOnline u then
      if (w.view u).isInAccessiblePlace then (true, true)
      -- not accessible but stays online
      else ((w.view u).isWithinCombatRange, false)
    else (false, false)

/-- `updateOnlineStatus`. -/
def updateOnlineStatus (o : ThreatOps F) (w : ThreatWorld) (m : ThreatManager F) (p : ℕ) :
    ThreatManager F :=
  let m := m.relink w p
  match m.refs p with
  | none => m
  | some r =>
    (m.setAccessibleState o p (onlineStatus w r).2).setOnlineOfflineState o p (onlineStatus w r).1

/-! ## Threat -/

/-- `HostileReference::addThreat`, with what is done for the owner of the unit. -/
def refAddThreat (o : ThreatOps F) (w : ThreatWorld)
    (toOwner : ThreatManager F → ThreatManager F) (m : ThreatManager F) (p : ℕ) (modThreat : F) :
    ThreatManager F :=
  match m.refs p with
  | none => m
  | some r =>
    let m := m.setRef p { r with threat := o.add r.threat modThreat }
    let m := if r.online then m else m.updateOnlineStatus o w p
    let m := if o.isZero modThreat then m else m.processThreatEvent o p (.threatChange modThreat)
    if (m.refs p).any (fun r => r.target.isSome) ∧ o.le o.zero modThreat then toOwner m else m

/-- A new reference, in the list of the online ones. -/
def newReference (o : ThreatOps F) (m : ThreatManager F) (victim : ℕ) : ThreatManager F :=
  { m.setRef m.nextRef
      { unitGuid := victim, target := some victim, threat := o.zero, tempThreatModifier := o.zero }
    with
    nextRef := m.nextRef + 1
    threatList := m.threatList ++ [m.nextRef] }

/-- The body of `_addThreat`, with what is done for the owner of the unit. -/
def addThreatTo (o : ThreatOps F) (w : ThreatWorld) (toOwner : ThreatManager F → ThreatManager F)
    (m : ThreatManager F) (victim : ℕ) (threat : F) : ThreatManager F :=
  match m.getReferenceByTarget m.threatList victim with
  | some p => m.refAddThreat o w toOwner p threat
  | none =>
    match m.getReferenceByTarget m.offlineList victim with
    | some p => m.refAddThreat o w toOwner p threat
    | none =>
      let m' := (m.newReference o victim).refAddThreat o w toOwner m.nextRef threat
      -- a game master is always offline
      if w.isGM victim then m'.setOnlineOfflineState o m.nextRef false else m'

/-- The owners up the chain get a reference, as far as they are alive and may be hated :
`GetSource()->addThreat(victimOwner, 0.0f)`. -/
def addOwners (o : ThreatOps F) (w : ThreatWorld) : List ℕ → ThreatManager F → ThreatManager F
  | [], m => m
  | owner :: owners, m =>
    if (w.view owner).isAlive ∧ w.isValidProcess owner then
      m.addThreatTo o w (addOwners o w owners) owner o.zero
    else m

/-- `_addThreat`. -/
def addThreat (o : ThreatOps F) (w : ThreatWorld) (m : ThreatManager F) (victim : ℕ) (threat : F) :
    ThreatManager F :=
  m.addThreatTo o w (addOwners o w (w.owners victim)) victim threat

/-- `addThreat` of a reference. -/
def changeThreat (o : ThreatOps F) (w : ThreatWorld) (m : ThreatManager F) (p : ℕ) (modThreat : F) :
    ThreatManager F :=
  match m.refs p with
  | none => m
  | some r => m.refAddThreat o w (addOwners o w (w.owners r.unitGuid)) p modThreat

/-- `setThreat`. -/
def setThreat (o : ThreatOps F) (w : ThreatWorld) (m : ThreatManager F) (p : ℕ) (threat : F) :
    ThreatManager F :=
  match m.refs p with
  | none => m
  | some r => m.changeThreat o w p (o.sub threat r.threat)

/-- `modifyThreatPercent`. -/
def modifyThreatPercent (o : ThreatOps F) (w : ThreatWorld) (m : ThreatManager F) (victim : ℕ)
    (percent : ℤ) : ThreatManager F :=
  match m.getReferenceByTarget m.threatList victim with
  | none => m
  | some p =>
    match m.refs p with
    | none => m
    | some r => m.changeThreat o w p (o.sub (o.addPct r.threat percent) r.threat)

/-- The loop of `resetAllAggro` from the `i`-th reference on. References that come to the list
meanwhile are at its end, and are reached as well. -/
def resetLoop (o : ThreatOps F) (w : ThreatWorld) : ℕ → ℕ → ThreatManager F → ThreatManager F
  | 0, _, m => m
  | n + 1, i, m =>
    match m.threatList[i]? with
    | none => m
    | some p => resetLoop o w n (i + 1) (m.setThreat o w p o.zero)

/-- How many steps a reference of the list may lead to : it makes others only for the owners of its
unit. -/
def weightOf (w : ThreatWorld) (m : ThreatManager F) (p : ℕ) : ℕ :=
  match m.refs p with
  | none => 1
  | some r => 2 ^ (w.owners r.unitGuid).length

def weight (w : ThreatWorld) (m : ThreatManager F) (l : List ℕ) : ℕ :=
  (l.map (m.weightOf w)).sum

/-- As many steps as the loop over the list can take (`resetLoop_end`). -/
def resetFuel (w : ThreatWorld) (m : ThreatManager F) : ℕ :=
  m.weight w m.threatList

/-- `resetAllAggro`. -/
def resetAllAggro (o : ThreatOps F) (w : ThreatWorld) (m : ThreatManager F) : ThreatManager F :=
  if m.threatList = [] then m else { resetLoop o w (m.resetFuel w) 0 m with dirty := true }

/-! ## Taunts -/

/-- `addTempThreat` of a reference. -/
def addTempThreat (o : ThreatOps F) (w : ThreatWorld) (m : ThreatManager F) (p : ℕ) (threat : F) :
    ThreatManager F :=
  match m.refs p with
  | none => m
  | some r =>
    let m := m.setRef p { r with tempThreatModifier := threat }
    if o.isZero threat then m else m.changeThreat o w p threat

/-- `resetTempThreat`. -/
def resetTempThreat (o : ThreatOps F) (w : ThreatWorld) (m : ThreatManager F) (p : ℕ) :
    ThreatManager F :=
  match m.refs p with
  | none => m
  | some r =>
    if o.isZero r.tempThreatModifier then m
    else
      let m := m.changeThreat o w p (o.neg r.tempThreatModifier)
      match m.refs p with
      | none => m
      | some r => m.setRef p { r with tempThreatModifier := o.zero }

/-- `tauntApply`. -/
def tauntApply (o : ThreatOps F) (w : ThreatWorld) (m : ThreatManager F) (taunter : ℕ) :
    ThreatManager F :=
  match m.getReferenceByTarget m.threatList taunter with
  | none => m
  | some p =>
    match m.refs p, m.currentVictim.bind m.refs with
    | some r, some v =>
      if o.lt r.threat v.threat ∧ o.isZero r.tempThreatModifier then
        m.addTempThreat o w p (o.sub v.threat r.threat)
      else m
    | _, _ => m

/-- `tauntFadeOut`. -/
def tauntFadeOut (o : ThreatOps F) (w : ThreatWorld) (m : ThreatManager F) (taunter : ℕ) :
    ThreatManager F :=
  match m.getReferenceByTarget m.threatList taunter with
  | none => m
  | some p => m.resetTempThreat o w p

/-- The victim that a taunt forces, if he is online. -/
def forceVictim (m : ThreatManager F) (taunter : ℕ) : ThreatManager F :=
  match m.getReferenceByTarget m.threatList taunter with
  | none => m
  | some p => { m with currentVictim := some p }

/-! ## Removal -/

/-- `removeReference`, after which the reference is deleted. -/
def removeReference (o : ThreatOps F) (m : ThreatManager F) (p : ℕ) : ThreatManager F :=
  match m.refs p with
  | none => m
  | some _ =>
    -- `invalidate` : the source is told that the link is cut
    let m := m.setOnlineOfflineState o p false
    let m :=
      match m.refs p with
      | none => m
      | some r => m.setRef p { r with target := none }
    let m := m.processThreatEvent o p .removeFromList
    { m with refs := Function.update m.refs p none }

/-- The references that are linked to a unit. -/
def hatedBy (m : ThreatManager F) (u : ℕ) : List ℕ :=
  (m.threatList ++ m.offlineList).filter fun p => (m.refs p).any fun r => r.target == some u

/-- A unit is destroyed : `HostileRefManager::deleteReferences`. -/
def targetDestroyed (o : ThreatOps F) (m : ThreatManager F) (u : ℕ) : ThreatManager F :=
  (m.hatedBy u).foldl (fun m p => m.removeReference o p) m

/-- `clearReferences`. -/
def clearReferences (m : ThreatManager F) : ThreatManager F :=
  { m with
    refs := fun p => if p ∈ m.threatList ∨ p ∈ m.offlineList then none else m.refs p
    threatList := []
    offlineList := []
    currentVictim := none }

/-! ## The next victim -/

def getThreat (o : ThreatOps F) (m : ThreatManager F) (p : ℕ) : F :=
  match m.refs p with
  | none => o.zero
  | some r => r.threat

/-- `ThreatContainer::update`. -/
def update (o : ThreatOps F) (m : ThreatManager F) : ThreatManager F :=
  { m with
    threatList :=
      if m.dirty ∧ 1 < m.threatList.length then
        m.threatList.insertionSort fun p q => !o.lt (m.getThreat o p) (m.getThreat o q)
      else m.threatList
    dirty := false }

end ThreatManager

/-- What the creature sees of a unit : whether it is immune or crowd-controlled, may be attacked,
and is in melee range. -/
structure VictimView where
  secondChoice : Bool := false
  canAttack : Bool := true
  inMeleeRange : Bool := true

/-- How far a scan of the list comes. It starts again when all were second choices. -/
inductive Scan
  | found (p : ℕ)
  | notFound
  | again (currentVictim : Option ℕ)
  | assertionFailed
  deriving DecidableEq

namespace ThreatManager

/-- The loop of `selectNextVictim`. -/
def scan (o : ThreatOps F) (m : ThreatManager F) (look : ℕ → VictimView)
    (noPriorityTargetFound : Bool) (currentVictim : Option ℕ) : List ℕ → Scan
  | [] => .notFound
  | p :: rest =>
    match m.refs p with
    | none => .assertionFailed
    | some r =>
      match r.target with
      | none => .assertionFailed
      | some target =>
        if !noPriorityTargetFound && (look target).secondChoice then
          if rest = [] then .again currentVictim
          else
            m.scan o look noPriorityTargetFound
              (if currentVictim = some p then none else currentVictim) rest
        else if (look target).canAttack then
          match currentVictim with
          | none => .found p
          | some v =>
            match m.refs v with
            | none => .assertionFailed
            | some victim =>
              if v = p ∨ o.le r.threat (o.times11 victim.threat) then
                if v ≠ p ∧ victim.target.any (fun u => (look u).canAttack) then .found v
                else .found p
              else if o.lt (o.times13 victim.threat) r.threat ∨
                  (o.lt (o.times11 victim.threat) r.threat ∧ (look target).inMeleeRange) then
                .found p
              else m.scan o look noPriorityTargetFound currentVictim rest
        else m.scan o look noPriorityTargetFound currentVictim rest

/-- `selectNextVictim`, which fails at a reference without target. -/
def selectNextVictim (o : ThreatOps F) (m : ThreatManager F) (look : ℕ → VictimView) :
    Option (Option ℕ) :=
  match m.scan o look false m.currentVictim m.threatList with
  | .found p => some (some p)
  | .notFound => some none
  | .assertionFailed => none
  | .again currentVictim =>
    match m.scan o look true currentVictim m.threatList with
    | .found p => some (some p)
    | .assertionFailed => none
    | _ => some none

/-- `getHostilTarget`. -/
def getHostilTarget (o : ThreatOps F) (m : ThreatManager F) (look : ℕ → VictimView) :
    Option (Option ℕ × ThreatManager F) :=
  (selectNextVictim o (m.update o) look).map fun nextVictim =>
    ((nextVictim.bind m.refs).bind HostileReference.target,
      { m.update o with currentVictim := nextVictim })

/-! ## Requests -/

inductive Request (F : Type*)
  | addThreat (w : ThreatWorld) (victim : ℕ) (threat : F)
  | changeThreat (w : ThreatWorld) (p : ℕ) (threat : F)
  | addTempThreat (w : ThreatWorld) (p : ℕ) (threat : F)
  | resetTempThreat (w : ThreatWorld) (p : ℕ)
  | modifyThreatPercent (w : ThreatWorld) (victim : ℕ) (percent : ℤ)
  | resetAllAggro (w : ThreatWorld)
  | updateOnlineStatus (w : ThreatWorld) (p : ℕ)
  | setOnlineOfflineState (p : ℕ) (isOnline : Bool)
  | removeReference (p : ℕ)
  | targetDestroyed (u : ℕ)
  | tauntApply (w : ThreatWorld) (taunter : ℕ)
  | tauntFadeOut (w : ThreatWorld) (taunter : ℕ)
  | forceVictim (taunter : ℕ)
  | getHostilTarget (look : ℕ → VictimView)
  | clearReferences

/-- A failed assertion leaves the state as it is. -/
def serve (o : ThreatOps F) (m : ThreatManager F) : Request F → ThreatManager F
  | .addThreat w victim threat => m.addThreat o w victim threat
  | .changeThreat w p threat => m.changeThreat o w p threat
  | .addTempThreat w p threat => m.addTempThreat o w p threat
  | .resetTempThreat w p => m.resetTempThreat o w p
  | .modifyThreatPercent w victim percent => m.modifyThreatPercent o w victim percent
  | .resetAllAggro w => m.resetAllAggro o w
  | .updateOnlineStatus w p => m.updateOnlineStatus o w p
  | .setOnlineOfflineState p isOnline => m.setOnlineOfflineState o p isOnline
  | .removeReference p => m.removeReference o p
  | .targetDestroyed u => m.targetDestroyed o u
  | .tauntApply w taunter => m.tauntApply o w taunter
  | .tauntFadeOut w taunter => m.tauntFadeOut o w taunter
  | .forceVictim taunter => m.forceVictim taunter
  | .getHostilTarget look => ((m.getHostilTarget o look).map Prod.snd).getD m
  | .clearReferences => m.clearReferences

end ThreatManager

end MistyWorld
