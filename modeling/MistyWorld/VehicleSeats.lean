import MistyWorld.Keyed
import MistyWorld.Run

/-!
# Vehicle seats and pending joins

A unit boards a vehicle in two steps. `Vehicle::AddPassenger` chooses a seat and queues a
`VehicleJoinEvent` with the passenger, and the next update of the passenger executes or aborts it.
Until then the event is known in three places : the queue of the passenger, the list
`_pendingJoinEvents` of the vehicle, and its own flag `to_Abort`.

A vehicle and its base are one number here, and so is a unit. An operation is `none` where an
assertion of the code fails, or where a vehicle is used that was destroyed. What the auras, the
spells and the scripts do besides is left out, but for `SPELL_AURA_CONTROL_VEHICLE` : its removal
is what makes a passenger leave.
-/

open Keyed Function Machine

namespace MistyWorld

/-- A `VehicleSeat` with its key in the `SeatMap` and what is read of its `SeatInfo`. The passenger
is `none` where its guid is zero. -/
structure VehicleSeat where
  id : ℤ
  canEnterOrExit : Bool
  isUsableByOverride : Bool
  passenger : Option ℕ := none
deriving DecidableEq

/-- `IsEmpty` -/
def VehicleSeat.isEmpty (seat : VehicleSeat) : Bool :=
  seat.passenger.isNone

/-- `Vehicle::Status` -/
inductive VehicleStatus
  | none
  | installed
  | uninstalling
deriving DecidableEq

/-- A `Vehicle`. Its pending events are known by their number, and `minion` is
`HasUnitTypeMask(UNIT_MASK_MINION)` of its base. -/
structure Vehicle where
  seats : List VehicleSeat
  usableSeatNum : ℕ
  status : VehicleStatus
  minion : Bool
  pendingJoinEvents : List ℕ
deriving DecidableEq

/-- A `VehicleJoinEvent`. The number `id` stands for its address, `target` is `none` for a null
pointer, and `seat` is the key of the seat it points to. -/
structure VehicleJoinEvent where
  id : ℕ
  passenger : ℕ
  target : Option ℕ
  seat : Option ℤ
  toAbort : Bool
deriving DecidableEq

namespace Vehicle

/-- The constructor, where all seats are empty, and `Install`. -/
def install (seats : List VehicleSeat) (minion : Bool) : Vehicle where
  seats := seats
  usableSeatNum := seats.countP fun seat => seat.canEnterOrExit
  status := .installed
  minion := minion
  pendingJoinEvents := []

variable (vehicle : Vehicle)

/-- The seat that `AddPassenger` takes : the first empty one that can be used where no seat is
asked for. -/
def seatFor (seatId : ℤ) : Option VehicleSeat :=
  if seatId < 0 then
    vehicle.seats.find? fun seat =>
      seat.isEmpty && (seat.canEnterOrExit || seat.isUsableByOverride)
  else
    find VehicleSeat.id vehicle.seats seatId

/-- `GetSeatIteratorForPassenger` -/
def seatOf (u : ℕ) : Option VehicleSeat :=
  vehicle.seats.find? fun seat => seat.passenger = some u

/-- The seat with the key of the given one is overwritten. -/
def setSeat (seat : VehicleSeat) (usableSeatNum : ℕ) : Vehicle :=
  { vehicle with
    seats := replace VehicleSeat.id vehicle.seats seat
    usableSeatNum := usableSeatNum }

/-- The passenger leaves the seat. -/
def vacate (seat : VehicleSeat) : Vehicle :=
  vehicle.setSeat { seat with passenger := none }
    (if seat.canEnterOrExit then vehicle.usableSeatNum + 1 else vehicle.usableSeatNum)

/-- The unit takes the seat. -/
def occupy (seat : VehicleSeat) (u : ℕ) : Vehicle :=
  vehicle.setSeat { seat with passenger := some u }
    (if seat.canEnterOrExit then vehicle.usableSeatNum - 1 else vehicle.usableSeatNum)

end Vehicle

/-- The units and vehicles : `vehicle` is `m_vehicle` of a unit, and `auras` are the casters of the
`SPELL_AURA_CONTROL_VEHICLE` auras on a base. The events are all that are queued, in the order in
which they were made, so the queue of a unit are those with this passenger. -/
structure Boarding where
  vehicles : ℕ → Option Vehicle
  vehicle : ℕ → Option ℕ := fun _ => none
  auras : ℕ → List ℕ := fun _ => []
  events : List VehicleJoinEvent := []
  nextEvent : ℕ := 0

namespace Boarding

variable (b : Boarding)

/-- The vehicle is overwritten. -/
def setVehicle (v : ℕ) (vehicle : Option Vehicle) : Boarding :=
  { b with vehicles := update b.vehicles v vehicle }

/-- The casters of the auras on a base are overwritten. -/
def setAuras (v : ℕ) (casters : List ℕ) : Boarding :=
  { b with auras := update b.auras v casters }

/-- The pending events of a vehicle that meet a condition. -/
def pendingWhere (vehicle : Vehicle) (p : VehicleJoinEvent → Bool) : List ℕ :=
  vehicle.pendingJoinEvents.filter fun i => b.events.any fun e => e.id = i && p e

/-- The loop of `RemovePendingEventsForSeat` and `RemovePendingEventsForPassenger` : the events are
to be aborted, and are no longer pending, but keep their target. -/
def dropPending (v : ℕ) (vehicle : Vehicle) (p : VehicleJoinEvent → Bool) : Boarding :=
  { b with
    vehicles := update b.vehicles v (some
      { vehicle with
        pendingJoinEvents :=
          vehicle.pendingJoinEvents.filter fun i => i ∉ b.pendingWhere vehicle p })
    events := b.events.map fun e =>
      if e.id ∈ b.pendingWhere vehicle p then { e with toAbort := true } else e }

/-- `RemovePendingEventsForSeat` -/
def removePendingEventsForSeat (v : ℕ) (seatId : ℤ) : Option Boarding := do
  let vehicle ← b.vehicles v
  some (b.dropPending v vehicle fun e => e.seat = some seatId)

/-- `RemovePendingEventsForPassenger` -/
def removePendingEventsForPassenger (v u : ℕ) : Option Boarding := do
  let vehicle ← b.vehicles v
  some (b.dropPending v vehicle fun e => e.passenger = u)

/-- `RemovePassenger` -/
def removePassenger (v u : ℕ) : Option Boarding :=
  if b.vehicle u ≠ some v then
    some b
  else do
    let vehicle ← b.vehicles v
    let seat ← vehicle.seatOf u
    some { b with
      vehicles := update b.vehicles v (some (vehicle.vacate seat))
      vehicle := update b.vehicle u none }

/-- `_ExitVehicle` -/
def leaveVehicle (u : ℕ) : Option Boarding :=
  match b.vehicle u with
  | none => some b
  | some v => b.removePassenger v u

/-- `HandleAuraControlVehicle`, when the aura of a caster is removed. -/
def handleAuraControlVehicle (v u : ℕ) : Option Boarding :=
  match b.vehicles v with
  | none => some b
  | some _ =>
    if u = v then
      some b
    else do
      let b ← b.removePendingEventsForPassenger v u
      b.leaveVehicle u

/-- `RemoveAurasByType(SPELL_AURA_CONTROL_VEHICLE)` on a base, for the casters that meet a
condition. -/
def removeAurasByType (v : ℕ) (p : ℕ → Bool) : Option Boarding :=
  ((b.auras v).filter p).foldlM (fun b u => b.handleAuraControlVehicle v u)
    (b.setAuras v ((b.auras v).filter fun u => !p u))

/-- `ExitVehicle` -/
def exitVehicle (u : ℕ) : Option Boarding :=
  match b.vehicle u with
  | none => some b
  | some v => do
    let _ ← b.vehicles v
    b.removeAurasByType v fun caster => caster = u

/-- `AddEvent` -/
def addEvent (e : VehicleJoinEvent) : Boarding :=
  { b with
    events := b.events ++ [e]
    nextEvent := b.nextEvent + 1 }

/-- `ASSERT(seat->second.IsEmpty())` -/
def assertEmpty (v : ℕ) (seatId : ℤ) : Option Boarding := do
  let vehicle ← b.vehicles v
  let seat ← find VehicleSeat.id vehicle.seats seatId
  if seat.isEmpty then some b else none

/-- `AddPassenger`. A seat that is found for no specific requirement is empty, so only the other
branch throws a passenger out. -/
def addPassenger (v u : ℕ) (seatId : ℤ) : Option Boarding := do
  let vehicle ← b.vehicles v
  if vehicle.status = .uninstalling then
    some b
  else
    match vehicle.seatFor seatId with
    | none => some (b.addEvent ⟨b.nextEvent, u, some v, none, true⟩)
    | some seat =>
      let joined := (b.addEvent ⟨b.nextEvent, u, some v, some seat.id, false⟩).setVehicle v (some
        { vehicle with pendingJoinEvents := vehicle.pendingJoinEvents ++ [b.nextEvent] })
      match seat.passenger with
      | none => some joined
      | some passenger => do
        let b ← joined.exitVehicle passenger
        b.assertEmpty v seat.id

/-- `VehicleJoinEvent::Execute` -/
def execute (e : VehicleJoinEvent) : Option Boarding := do
  let v ← e.target
  let _ ← b.vehicles v
  if e.passenger ∉ b.auras v then
    none
  else
    let seatId ← e.seat
    let b ← b.removePendingEventsForSeat v seatId
    let b ← b.removePendingEventsForPassenger v e.passenger
    let vehicle ← b.vehicles v
    let seat ← find VehicleSeat.id vehicle.seats seatId
    if seat.canEnterOrExit ∧ vehicle.usableSeatNum = 0 then
      none
    else
      some { b with
        vehicles := update b.vehicles v (some (vehicle.occupy seat e.passenger))
        vehicle := update b.vehicle e.passenger (some v) }

/-- `VehicleJoinEvent::Abort` -/
def abort (e : VehicleJoinEvent) : Option Boarding :=
  match e.target with
  | none => some b
  | some v => do
    let _ ← b.vehicles v
    b.removeAurasByType v fun caster => caster = e.passenger

/-- `RemovePendingEvent` -/
def removePendingEvent (v i : ℕ) : Option Boarding := do
  let vehicle ← b.vehicles v
  some (b.setVehicle v (some
    { vehicle with pendingJoinEvents := vehicle.pendingJoinEvents.erase i }))

/-- `VehicleJoinEvent::~VehicleJoinEvent` -/
def releaseEvent (e : VehicleJoinEvent) : Option Boarding :=
  match e.target with
  | none => some b
  | some v => b.removePendingEvent v e.id

/-- `delete Event` -/
def deleteEvent (i : ℕ) : Option Boarding := do
  let e ← find VehicleJoinEvent.id b.events i
  let b ← b.releaseEvent e
  some { b with events := remove VehicleJoinEvent.id b.events i }

/-- The first event in the queue of a unit. -/
def nextOf (u : ℕ) : Option VehicleJoinEvent :=
  b.events.find? fun e => e.passenger = u

/-- The event is executed or aborted. -/
def serveEvent (e : VehicleJoinEvent) : Option Boarding :=
  if e.toAbort then b.abort e else b.execute e

/-- One pass of the loop of `EventProcessor::Update`. -/
def updateEvents (u : ℕ) : Option Boarding :=
  match b.nextOf u with
  | none => some b
  | some e => do
    let b ← b.serveEvent e
    b.deleteEvent e.id

/-- One pass of the loop of `EventProcessor::KillAllEvents`. -/
def killEvent (i : ℕ) : Option Boarding := do
  let e ← find VehicleJoinEvent.id b.events i
  let killed :=
    { b with events := replace VehicleJoinEvent.id b.events { e with toAbort := true } }
  let b ← killed.abort e
  b.deleteEvent i

/-- `EventProcessor::KillAllEvents` -/
def killAllEvents (u : ℕ) : Option Boarding :=
  ((b.events.filter fun e => e.passenger = u).map VehicleJoinEvent.id).foldlM
    (fun b i => b.killEvent i) b

/-- The first loop of `RemoveAllPassengers` : the pending events are to be aborted, with a new
target. -/
def abortPending (v : ℕ) (vehicle : Vehicle) (target : Option ℕ) : Boarding :=
  { b with
    vehicles := update b.vehicles v (some { vehicle with pendingJoinEvents := [] })
    events := b.events.map fun e =>
      if e.id ∈ vehicle.pendingJoinEvents then { e with toAbort := true, target := target }
      else e }

/-- `RemoveAllPassengers` -/
def removeAllPassengers (v : ℕ) : Option Boarding := do
  let vehicle ← b.vehicles v
  let eventVehicle := if vehicle.status ≠ .uninstalling then some v else none
  (b.abortPending v vehicle eventVehicle).removeAurasByType v fun _ => true

/-- `Uninstall` -/
def uninstall (v : ℕ) : Option Boarding := do
  let vehicle ← b.vehicles v
  if vehicle.status = .uninstalling ∧ !vehicle.minion then
    some b
  else
    (b.setVehicle v (some { vehicle with status := .uninstalling })).removeAllPassengers v

/-- `Vehicle::~Vehicle` -/
def deleteVehicle (v : ℕ) : Option Boarding := do
  let vehicle ← b.vehicles v
  if vehicle.status = .uninstalling ∧ vehicle.seats.all fun seat => seat.isEmpty then
    some (b.setVehicle v none)
  else
    none

/-- `Unit::RemoveVehicleKit`, the one caller of `Uninstall`. -/
def removeVehicleKit (v : ℕ) : Option Boarding :=
  match b.vehicles v with
  | none => some b
  | some _ => do
    let b ← b.uninstall v
    b.deleteVehicle v

/-- What happens to the units and vehicles. -/
inductive Request
  | applyAura (v u : ℕ)
  | removeAura (v u : ℕ)
  | addPassenger (v u : ℕ) (seatId : ℤ)
  | updateEvents (u : ℕ)
  | killAllEvents (u : ℕ)
  | removePassenger (v u : ℕ)
  | removePendingEventsForPassenger (v u : ℕ)
  | removeAllPassengers (v : ℕ)
  | removeVehicleKit (v : ℕ)

/-- Serve a request. -/
def serve : Request → Option Boarding
  | .applyAura v u => some (b.setAuras v (b.auras v ++ [u]))
  | .removeAura v u => b.removeAurasByType v fun caster => caster = u
  | .addPassenger v u seatId => b.addPassenger v u seatId
  | .updateEvents u => b.updateEvents u
  | .killAllEvents u => b.killAllEvents u
  | .removePassenger v u => b.removePassenger v u
  | .removePendingEventsForPassenger v u => b.removePendingEventsForPassenger v u
  | .removeAllPassengers v => b.removeAllPassengers v
  | .removeVehicleKit v => b.removeVehicleKit v

/-- The machine stops where a request fails. -/
def step (state : Option Boarding) (r : Request) : Option Boarding :=
  state.bind fun b => b.serve r

end Boarding

end MistyWorld
