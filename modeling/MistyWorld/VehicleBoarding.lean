import MistyWorld.VehicleSeats

/-!
# Who sits where

`Boarding.Sound` says what is expected of the seats and the pending joins : the count of usable
seats is right, a unit is on a vehicle when exactly one seat holds it, an event that is to be
executed finds its seat empty, and no event points to a vehicle that was destroyed.

It holds in every state of a run exactly when a join is executed for a unit that is on no vehicle,
and a vehicle kit is removed while each event with this target is still pending
(`boarding_run_iff`). An event that was dropped from the pending list, or was never put there,
keeps its target when the vehicle goes.
-/

open Keyed Function List Machine

namespace MistyWorld

/-! ## Seats -/

namespace Vehicle

variable {vehicle : Vehicle} {seat : VehicleSeat}

/-- The number of empty seats with `CanEnterOrExit`. -/
def usableSeats (vehicle : Vehicle) : ℕ :=
  vehicle.seats.countP fun seat => seat.isEmpty && seat.canEnterOrExit

/-- The number of seats with the guid of a unit. -/
def seatsHolding (vehicle : Vehicle) (u : ℕ) : ℕ :=
  vehicle.seats.countP fun seat => seat.passenger = some u

/-- The seats have different keys, and the counter is right. -/
structure WF (vehicle : Vehicle) : Prop where
  nodup : (vehicle.seats.map VehicleSeat.id).Nodup
  usable : vehicle.usableSeatNum = vehicle.usableSeats

theorem seatOf_spec (h : vehicle.WF) {u : ℕ} (hseat : vehicle.seatOf u = some seat) :
    find VehicleSeat.id vehicle.seats seat.id = some seat ∧ seat.passenger = some u :=
  ⟨find_of_mem h.nodup (mem_of_find?_eq_some hseat),
    by simpa using List.find?_some hseat⟩

theorem seatFor_find (h : vehicle.WF) {seatId : ℤ} (hseat : vehicle.seatFor seatId = some seat) :
    find VehicleSeat.id vehicle.seats seat.id = some seat := by
  unfold seatFor at hseat
  split at hseat
  · exact find_of_mem h.nodup (mem_of_find?_eq_some hseat)
  · exact find_of_mem h.nodup (mem_of_find hseat).1

variable (hfind : find VehicleSeat.id vehicle.seats seat.id = some seat)

include hfind

theorem find_vacate_self : find VehicleSeat.id (vehicle.vacate seat).seats seat.id =
    some { seat with passenger := none } :=
  find_replace_self (x := { seat with passenger := none }) hfind

omit hfind in
theorem find_vacate_of_ne {i : ℤ} (h : i ≠ seat.id) :
    find VehicleSeat.id (vehicle.vacate seat).seats i =
      find VehicleSeat.id vehicle.seats i :=
  find_replace_of_ne h

omit hfind in
theorem find_occupy_of_ne {i : ℤ} (h : i ≠ seat.id) (u : ℕ) :
    find VehicleSeat.id (vehicle.occupy seat u).seats i =
      find VehicleSeat.id vehicle.seats i :=
  find_replace_of_ne h

theorem WF.vacate (h : vehicle.WF) {u : ℕ} (hseat : seat.passenger = some u) :
    (vehicle.vacate seat).WF := by
  refine ⟨(congrArg List.Nodup (map_key_replace _ _)).mpr h.nodup, ?_⟩
  have hcount := countP_replace (fun seat => seat.isEmpty && seat.canEnterOrExit) h.nodup
    (x := { seat with passenger := none }) hfind
  have husable := h.usable
  simp only [VehicleSeat.isEmpty, hseat, Option.isNone_some, Bool.false_and, Option.isNone_none,
    Bool.true_and, Bool.false_eq_true, if_false] at hcount
  simp only [usableSeats, VehicleSeat.isEmpty, Vehicle.vacate, setSeat] at husable ⊢
  split at hcount <;> simp_all

theorem seatsHolding_vacate (h : vehicle.WF) {u : ℕ} (hseat : seat.passenger = some u) (u' : ℕ) :
    (vehicle.vacate seat).seatsHolding u' + (if u = u' then 1 else 0) =
      vehicle.seatsHolding u' := by
  have hcount := countP_replace (fun seat => decide (seat.passenger = some u')) h.nodup
    (x := { seat with passenger := none }) hfind
  simpa [hseat, seatsHolding, Vehicle.vacate, setSeat] using hcount

theorem WF.occupy (h : vehicle.WF) (hseat : seat.passenger = none) (u : ℕ) :
    (vehicle.occupy seat u).WF := by
  refine ⟨(congrArg List.Nodup (map_key_replace _ _)).mpr h.nodup, ?_⟩
  have hcount := countP_replace (fun seat => seat.isEmpty && seat.canEnterOrExit) h.nodup
    (x := { seat with passenger := some u }) hfind
  have husable := h.usable
  simp only [VehicleSeat.isEmpty, hseat, Option.isNone_some, Bool.false_and, Option.isNone_none,
    Bool.true_and, Bool.false_eq_true, if_false] at hcount
  simp only [usableSeats, VehicleSeat.isEmpty, Vehicle.occupy, setSeat] at husable ⊢
  split at hcount <;> simp_all; omega

theorem seatsHolding_occupy (h : vehicle.WF) (hseat : seat.passenger = none) (u u' : ℕ) :
    (vehicle.occupy seat u).seatsHolding u' =
      vehicle.seatsHolding u' + (if u = u' then 1 else 0) := by
  have hcount := countP_replace (fun seat => decide (seat.passenger = some u')) h.nodup
    (x := { seat with passenger := some u }) hfind
  simpa [hseat, seatsHolding, Vehicle.occupy, setSeat] using hcount

end Vehicle

namespace Boarding

/-! ## The invariant -/

/-- The vehicles agree with what the units are on. Only the vehicle `c` may be uninstalling. -/
structure Seated (c : Option ℕ) (vehicles : ℕ → Option Vehicle) (vehicle : ℕ → Option ℕ) :
    Prop where
  wf : ∀ {v kit}, vehicles v = some kit → kit.WF
  installed : ∀ {v kit}, vehicles v = some kit → some v ≠ c → kit.status ≠ .uninstalling
  riders : ∀ {v kit}, vehicles v = some kit → ∀ u,
    kit.seatsHolding u = if vehicle u = some v then 1 else 0
  ridden : ∀ {u v}, vehicle u = some v → vehicles v ≠ none

/-- The event is pending at its target, for a seat that is empty. The seat of the event `x` may
still be taken. -/
def Waits (x : Option ℕ) (vehicles : ℕ → Option Vehicle) (e : VehicleJoinEvent) : Prop :=
  ∃ v kit seat, e.target = some v ∧ vehicles v = some kit ∧ e.id ∈ kit.pendingJoinEvents ∧
    e.seat = some seat.id ∧ find VehicleSeat.id kit.seats seat.id = some seat ∧
    (some e.id ≠ x → seat.passenger = none)

/-- The queued events are distinct, their targets are there, and those that are to be executed
wait. -/
structure Queued (x : Option ℕ) (vehicles : ℕ → Option Vehicle) (events : List VehicleJoinEvent)
    (nextEvent : ℕ) : Prop where
  nodup : (events.map VehicleJoinEvent.id).Nodup
  fresh : ∀ e ∈ events, e.id < nextEvent
  targets : ∀ e ∈ events, ∀ v, e.target = some v → vehicles v ≠ none
  waiting : ∀ e ∈ events, e.toAbort = false → Waits x vehicles e

/-- The invariant of the units and vehicles. -/
structure Inv (x c : Option ℕ) (b : Boarding) : Prop where
  seated : Seated c b.vehicles b.vehicle
  queued : Queued x b.vehicles b.events b.nextEvent

variable {x c : Option ℕ} {b b' : Boarding} {v u n i : ℕ} {kit : Vehicle}
  {vehicles : ℕ → Option Vehicle} {events : List VehicleJoinEvent} {e : VehicleJoinEvent}
  {m : ℕ → Option ℕ} {seat : VehicleSeat}

/-- One vehicle is overwritten, and only units on this one enter or leave. -/
theorem Seated.set {m' : ℕ → Option ℕ} (h : Seated c vehicles m)
    (hm : ∀ u v', v' ≠ v → (m' u = some v' ↔ m u = some v')) (hwf : kit.WF)
    (hinstalled : some v ≠ c → kit.status ≠ .uninstalling)
    (hriders : ∀ u, kit.seatsHolding u = if m' u = some v then 1 else 0) :
    Seated c (update vehicles v (some kit)) m' := by
  refine ⟨fun {v' kit'} hkit => ?_, fun {v' kit'} hkit => ?_, fun {v' kit'} hkit => ?_,
    fun {u v'} hu => ?_⟩
  all_goals rcases eq_or_ne v' v with rfl | hne
  · rw [update_self, Option.some.injEq] at hkit
    exact hkit ▸ hwf
  · rw [update_of_ne hne] at hkit
    exact h.wf hkit
  · rw [update_self, Option.some.injEq] at hkit
    exact hkit ▸ hinstalled
  · rw [update_of_ne hne] at hkit
    exact h.installed hkit
  · rw [update_self, Option.some.injEq] at hkit
    exact hkit ▸ hriders
  · rw [update_of_ne hne] at hkit
    intro u
    simp only [hm u v' hne]
    exact h.riders hkit u
  · rw [update_self]
    exact Option.some_ne_none _
  · rw [update_of_ne hne]
    exact h.ridden ((hm u v' hne).mp hu)

/-- The pending list of a vehicle does not matter to its seats. -/
theorem Seated.pending (h : Seated c vehicles m) (hv : vehicles v = some kit) (l : List ℕ) :
    Seated c (update vehicles v (some { kit with pendingJoinEvents := l })) m := by
  have hinstalled := h.installed hv
  have hriders := h.riders hv
  exact h.set (fun _ _ _ => Iff.rfl) ⟨(h.wf hv).nodup, (h.wf hv).usable⟩ hinstalled hriders

theorem update_ne_none {v' : ℕ} (h : vehicles v' ≠ none) (v : ℕ) (kit : Vehicle) :
    update vehicles v (some kit) v' ≠ none := by
  rcases eq_or_ne v' v with rfl | hne
  · rw [update_self]
    exact Option.some_ne_none _
  · rwa [update_of_ne hne]

/-- An event waits on when its vehicle keeps it pending, and keeps its seat. -/
theorem Waits.update {kit' : Vehicle} (h : Waits x vehicles e) (hv : vehicles v = some kit)
    (hpending : e.target = some v → e.id ∈ kit.pendingJoinEvents →
      e.id ∈ kit'.pendingJoinEvents)
    (hseat : ∀ seat : VehicleSeat, e.target = some v → e.seat = some seat.id →
      find VehicleSeat.id kit.seats seat.id = some seat →
      (some e.id ≠ x → seat.passenger = none) →
      ∃ seat' : VehicleSeat, seat'.id = seat.id ∧
        find VehicleSeat.id kit'.seats seat.id = some seat' ∧
        (some e.id ≠ x → seat'.passenger = none)) :
    Waits x (update vehicles v (some kit')) e := by
  obtain ⟨v', kit0, seat, htarget, hkit, hmem, hid, hfind, hempty⟩ := h
  rcases eq_or_ne v' v with rfl | hne
  · obtain rfl : kit0 = kit := Option.some.inj (hkit.symm.trans hv)
    obtain ⟨seat', hid', hfind', hempty'⟩ := hseat seat htarget hid hfind hempty
    exact ⟨v', kit', seat', htarget, update_self _ _ _, hpending htarget hmem,
      hid'.symm ▸ hid, hid'.symm ▸ hfind', hempty'⟩
  · exact ⟨v', kit0, seat, htarget, (update_of_ne hne _ _).trans hkit, hmem, hid, hfind,
      hempty⟩

/-- Aborting events, and changing the pending list of a vehicle, keeps the order of the queue when
what is not aborted stays pending. -/
theorem Queued.mapAbort (h : Queued x vehicles events n) (hv : vehicles v = some kit)
    {l aborted : List ℕ} (retarget : Option ℕ → Option ℕ)
    (hretarget : ∀ t v', retarget t = some v' → t = some v' ∨ v' = v)
    (hl : ∀ e ∈ events, e.target = some v → e.id ∈ kit.pendingJoinEvents → e.id ∉ aborted →
      e.id ∈ l) :
    Queued x (update vehicles v (some { kit with pendingJoinEvents := l }))
      (events.map fun e =>
        if e.id ∈ aborted then { e with toAbort := true, target := retarget e.target } else e)
      n := by
  have hid : ∀ e : VehicleJoinEvent, (if e.id ∈ aborted then
      { e with toAbort := true, target := retarget e.target } else e).id = e.id := fun e => by
    split <;> rfl
  refine ⟨?_, fun e he => ?_, fun e he v' htarget => ?_, fun e he hto => ?_⟩
  · have hmap : ((events.map fun e => if e.id ∈ aborted then
        { e with toAbort := true, target := retarget e.target } else e).map
        VehicleJoinEvent.id) = events.map VehicleJoinEvent.id := by
      rw [map_map]
      exact map_congr_left fun e _ => hid e
    rw [hmap]
    exact h.nodup
  · obtain ⟨e0, he0, rfl⟩ := mem_map.mp he
    rw [hid]
    exact h.fresh e0 he0
  · obtain ⟨e0, he0, rfl⟩ := mem_map.mp he
    split at htarget
    · rcases hretarget _ _ htarget with hold | rfl
      · exact update_ne_none (h.targets e0 he0 v' hold) _ _
      · rw [update_self]
        exact Option.some_ne_none _
    · exact update_ne_none (h.targets e0 he0 v' htarget) _ _
  · obtain ⟨e0, he0, rfl⟩ := mem_map.mp he
    split at hto
    · exact absurd hto (by simp)
    · next hnot =>
      rw [if_neg hnot]
      exact (h.waiting e0 he0 hto).update hv (fun ht hp => hl e0 he0 ht hp hnot)
        fun seat _ _ hfind hempty => ⟨seat, rfl, hfind, hempty⟩

/-! ## Leaving a vehicle -/

theorem Inv.dropPending (h : Inv x c b) (hv : b.vehicles v = some kit)
    (p : VehicleJoinEvent → Bool) : Inv x c (b.dropPending v kit p) := by
  refine ⟨h.seated.pending hv _, ?_⟩
  refine h.queued.mapAbort hv (fun t => t) (fun t v' => .inl) fun e he _ hpending hnot => ?_
  rw [mem_filter]
  exact ⟨hpending, by simpa using hnot⟩

/-- A unit that leaves empties its seat. -/
theorem Seated.vacate (h : Seated c vehicles m) (hv : vehicles v = some kit)
    (hseat : kit.seatOf u = some seat) (hon : m u = some v) :
    Seated c (update vehicles v (some (kit.vacate seat))) (update m u none) := by
  have hwf := h.wf hv
  have hinstalled := h.installed hv
  obtain ⟨hfind, hpassenger⟩ := Vehicle.seatOf_spec hwf hseat
  refine h.set (fun u' v' hne => ?_) (hwf.vacate hfind hpassenger) hinstalled fun u' => ?_
  · rcases eq_or_ne u' u with rfl | hu
    · rw [update_self, hon]
      simp [hne.symm]
    · rw [update_of_ne hu]
  · have hcount := Vehicle.seatsHolding_vacate hfind hwf hpassenger u'
    have hold := h.riders hv u'
    rcases eq_or_ne u' u with rfl | hu
    · rw [if_pos rfl, hold, if_pos hon] at hcount
      simpa using hcount
    · rw [if_neg hu.symm, hold] at hcount
      rwa [update_of_ne hu]

theorem Inv.removePassenger (h : Inv x c b) (hb : b.removePassenger v u = some b') :
    Inv x c b' := by
  unfold Boarding.removePassenger at hb
  split at hb
  · cases hb
    exact h
  · next hon =>
    obtain ⟨kit, hv, hb⟩ := Option.bind_eq_some_iff.mp hb
    obtain ⟨seat, hseat, hb⟩ := Option.bind_eq_some_iff.mp hb
    cases hb
    obtain ⟨hfind, -⟩ := Vehicle.seatOf_spec (h.seated.wf hv) hseat
    refine ⟨h.seated.vacate hv hseat (not_not.mp hon), h.queued.nodup, h.queued.fresh,
      fun e he v' ht => update_ne_none (h.queued.targets e he v' ht) _ _, fun e he hto => ?_⟩
    refine (h.queued.waiting e he hto).update hv (fun _ hp => hp) fun s _ _ hs hempty => ?_
    rcases eq_or_ne s.id seat.id with heq | hne
    · exact ⟨{ seat with passenger := none }, heq.symm,
        heq ▸ Vehicle.find_vacate_self hfind, fun _ => rfl⟩
    · exact ⟨s, rfl, (Vehicle.find_vacate_of_ne hne).trans hs, hempty⟩

/-- What dropping pending events and taking a passenger out of a seat both keep. -/
structure Kept (P : Boarding → Prop) : Prop where
  setAuras : ∀ {b : Boarding} {v : ℕ} {casters : List ℕ}, P b → P (b.setAuras v casters)
  dropPending : ∀ {b : Boarding} {v : ℕ} {kit : Vehicle} (p : VehicleJoinEvent → Bool),
    P b → b.vehicles v = some kit → P (b.dropPending v kit p)
  removePassenger : ∀ {b b' : Boarding} {v u : ℕ},
    P b → b.removePassenger v u = some b' → P b'

namespace Kept

variable {P : Boarding → Prop} (hP : Kept P)

include hP

theorem removePendingEventsForPassenger (hb : P b)
    (h : b.removePendingEventsForPassenger v u = some b') : P b' := by
  obtain ⟨kit, hv, h⟩ := Option.bind_eq_some_iff.mp h
  cases h
  exact hP.dropPending _ hb hv

theorem leaveVehicle (hb : P b) (h : b.leaveVehicle u = some b') : P b' := by
  unfold Boarding.leaveVehicle at h
  split at h
  · cases h
    exact hb
  · exact hP.removePassenger hb h

theorem handleAuraControlVehicle (hb : P b) (h : b.handleAuraControlVehicle v u = some b') :
    P b' := by
  unfold Boarding.handleAuraControlVehicle at h
  split at h
  · cases h
    exact hb
  · split at h
    · cases h
      exact hb
    · obtain ⟨b1, hdrop, h⟩ := Option.bind_eq_some_iff.mp h
      exact hP.leaveVehicle (hP.removePendingEventsForPassenger hb hdrop) h

theorem foldlM_handle (casters : List ℕ) : ∀ {b : Boarding}, P b →
    casters.foldlM (fun b u => b.handleAuraControlVehicle v u) b = some b' → P b' := by
  induction casters with
  | nil =>
    intro b hb h
    cases h
    exact hb
  | cons u casters ih =>
    intro b hb h
    obtain ⟨b1, hhandle, h⟩ := Option.bind_eq_some_iff.mp h
    exact ih (hP.handleAuraControlVehicle hb hhandle) h

theorem removeAurasByType (hb : P b) {p : ℕ → Bool} (h : b.removeAurasByType v p = some b') :
    P b' :=
  hP.foldlM_handle _ (hP.setAuras hb) h

theorem exitVehicle (hb : P b) (h : b.exitVehicle u = some b') : P b' := by
  unfold Boarding.exitVehicle at h
  split at h
  · cases h
    exact hb
  · obtain ⟨-, -, h⟩ := Option.bind_eq_some_iff.mp h
    exact hP.removeAurasByType hb h

end Kept

theorem kept_inv (x c : Option ℕ) : Kept (Inv x c) where
  setAuras h := ⟨h.seated, h.queued⟩
  dropPending p h hv := h.dropPending hv p
  removePassenger h hb := h.removePassenger hb

/-- What an event says about where it goes. -/
def aim (e : VehicleJoinEvent) : ℕ × Option ℕ × Option ℤ :=
  (e.id, e.target, e.seat)

/-- The events aim where they did. -/
theorem kept_aims (aims : List (ℕ × Option ℕ × Option ℤ)) :
    Kept fun b => b.events.map aim = aims where
  setAuras h := h
  dropPending {b v kit} p h hv := by
    refine Eq.trans ?_ h
    simp only [Boarding.dropPending, map_map]
    refine map_congr_left fun e _ => ?_
    simp only [Function.comp_apply]
    split <;> rfl
  removePassenger {b b' v u} h hb := by
    unfold Boarding.removePassenger at hb
    split at hb
    · cases hb
      exact h
    · obtain ⟨kit, -, hb⟩ := Option.bind_eq_some_iff.mp hb
      obtain ⟨seat, -, hb⟩ := Option.bind_eq_some_iff.mp hb
      cases hb
      exact h

/-! ## Taking a seat -/

/-- A unit that is on no vehicle takes an empty seat. -/
theorem Seated.occupy (h : Seated c vehicles m) (hv : vehicles v = some kit)
    (hfind : find VehicleSeat.id kit.seats seat.id = some seat)
    (hempty : seat.passenger = none) (hoff : m u = none) :
    Seated c (update vehicles v (some (kit.occupy seat u)))
      (update m u (some v)) := by
  have hwf := h.wf hv
  have hinstalled := h.installed hv
  refine h.set (fun u' v' hne => ?_) (hwf.occupy hfind hempty u) hinstalled fun u' => ?_
  · rcases eq_or_ne u' u with rfl | hu
    · rw [update_self, hoff]
      simp [hne.symm]
    · rw [update_of_ne hu]
  · rw [Vehicle.seatsHolding_occupy hfind hwf hempty, h.riders hv u']
    rcases eq_or_ne u' u with rfl | hu
    · simp [hoff]
    · rw [update_of_ne hu, if_neg hu.symm, Nat.add_zero]

theorem mem_dropPending {p : VehicleJoinEvent → Bool} (he : e ∈ (b.dropPending v kit p).events)
    (hto : e.toAbort = false) : e ∈ b.events ∧ e.id ∉ b.pendingWhere kit p := by
  obtain ⟨e0, he0, rfl⟩ := mem_map.mp he
  split at hto
  · exact absurd hto (by simp)
  · next hnot =>
    rw [if_neg hnot]
    exact ⟨he0, hnot⟩

/-- No event that meets the condition is left to be executed at the vehicle. -/
theorem Inv.not_of_dropPending (h : Inv x c b) (hv : b.vehicles v = some kit)
    {p : VehicleJoinEvent → Bool} (he : e ∈ (b.dropPending v kit p).events)
    (hto : e.toAbort = false) (htarget : e.target = some v) : p e = false := by
  obtain ⟨hmem, hnot⟩ := mem_dropPending he hto
  obtain ⟨v', kit', -, htarget', hkit', hpending, -⟩ := h.queued.waiting e hmem hto
  obtain rfl : v' = v := Option.some.inj (htarget'.symm.trans htarget)
  obtain rfl : kit' = kit := Option.some.inj (hkit'.symm.trans hv)
  by_contra hp
  refine hnot (mem_filter.mpr ⟨hpending, any_eq_true.mpr ⟨e, hmem, ?_⟩⟩)
  simpa using hp

/-- What `Execute` comes to : a state where the vehicle is the same but for its pending list, where
no other event is left for the seat, and in which the seat is taken. -/
theorem execute_spec (hb : b.execute e = some b') :
    ∃ v kit0 b2 kit seat, e.target = some v ∧ b.vehicles v = some kit0 ∧ e.seat = some seat.id ∧
      b2.vehicles v = some kit ∧ kit.seats = kit0.seats ∧
      find VehicleSeat.id kit.seats seat.id = some seat ∧
      (∀ {x c}, Inv x c b → Inv x c b2 ∧ ∀ e' ∈ b2.events, e'.toAbort = false →
        e'.target = some v → e'.seat ≠ some seat.id) ∧
      (∀ v', v' ≠ v → b2.vehicles v' = b.vehicles v') ∧ b2.vehicle = b.vehicle ∧
      b' = { b2 with
        vehicles := update b2.vehicles v (some (kit.occupy seat e.passenger))
        vehicle := update b2.vehicle e.passenger (some v) } := by
  obtain ⟨v, htarget, hb⟩ := Option.bind_eq_some_iff.mp hb
  obtain ⟨kit0, hv, hb⟩ := Option.bind_eq_some_iff.mp hb
  split at hb
  · cases hb
  obtain ⟨seatId, hseatId, hb⟩ := Option.bind_eq_some_iff.mp hb
  obtain ⟨b1, hb1, hb⟩ := Option.bind_eq_some_iff.mp hb
  obtain ⟨kit', hv', hb1⟩ := Option.bind_eq_some_iff.mp hb1
  obtain rfl : kit' = kit0 := Option.some.inj (hv'.symm.trans hv)
  cases hb1
  obtain ⟨b2, hb2, hb⟩ := Option.bind_eq_some_iff.mp hb
  obtain ⟨kit1, hv1, hb2⟩ := Option.bind_eq_some_iff.mp hb2
  cases hb2
  obtain ⟨kit, hkit, hb⟩ := Option.bind_eq_some_iff.mp hb
  obtain ⟨seat, hfind, hb⟩ := Option.bind_eq_some_iff.mp hb
  split at hb
  · cases hb
  cases hb
  obtain rfl : seat.id = seatId := (mem_of_find hfind).2
  have hseats1 : kit1.seats = kit'.seats := by
    simp only [dropPending, update_self, Option.some.injEq] at hv1
    rw [← hv1]
  have hseats : kit.seats = kit1.seats := by
    simp only [dropPending, update_self, Option.some.injEq] at hkit
    rw [← hkit]
  refine ⟨v, kit', _, kit, seat, htarget, hv, hseatId, hkit, hseats.trans hseats1, hfind,
    fun h => ?_, fun v' hne => ?_, rfl, rfl⟩
  · have hinv := h.dropPending hv fun e => e.seat = some seat.id
    refine ⟨hinv.dropPending hv1 _, fun e' he' hto ht => ?_⟩
    have hnot := h.not_of_dropPending hv (mem_dropPending he' hto).1 hto ht
    simpa using hnot
  · exact (update_of_ne hne _ _).trans (update_of_ne hne _ _)

/-- An event that is to be executed has an empty seat. -/
theorem Queued.seat_empty (h : Queued none vehicles events n) (he : e ∈ events)
    (hto : e.toAbort = false) (htarget : e.target = some v) (hv : vehicles v = some kit)
    (hseat : e.seat = some seat.id)
    (hfind : find VehicleSeat.id kit.seats seat.id = some seat) : seat.passenger = none := by
  obtain ⟨v', kit', seat', htarget', hkit', -, hid, hfind', hempty⟩ := h.waiting e he hto
  obtain rfl : v' = v := Option.some.inj (htarget'.symm.trans htarget)
  obtain rfl : kit' = kit := Option.some.inj (hkit'.symm.trans hv)
  have hids : seat'.id = seat.id := Option.some.inj (hid.symm.trans hseat)
  rw [hids, hfind, Option.some.injEq] at hfind'
  exact hfind' ▸ hempty (Option.some_ne_none _)

/-- A join is executed for a unit that is on no vehicle. -/
theorem Inv.execute (h : Inv none c b) (he : e ∈ b.events) (hto : e.toAbort = false)
    (hoff : b.vehicle e.passenger = none) (hb : b.execute e = some b') : Inv none c b' := by
  obtain ⟨v, kit0, b2, kit, seat, htarget, hv0, hseatId, hkit, hseats, hfind, hkeep, -, hvehicle,
    rfl⟩ := execute_spec hb
  obtain ⟨hinv, hother⟩ := hkeep h
  have hempty := h.queued.seat_empty he hto htarget hv0 hseatId (hseats ▸ hfind)
  refine ⟨hinv.seated.occupy hkit hfind hempty (hvehicle ▸ hoff), hinv.queued.nodup,
    hinv.queued.fresh, fun e' he' v' ht => update_ne_none (hinv.queued.targets e' he' v' ht) _ _,
    fun e' he' hto' => ?_⟩
  refine (hinv.queued.waiting e' he' hto').update hkit (fun _ hp => hp)
    fun s ht hs hfind' hempty' => ⟨s, rfl, ?_, hempty'⟩
  have hne : s.id ≠ seat.id := fun heq => hother e' he' hto' ht (heq ▸ hs)
  rw [Vehicle.find_occupy_of_ne hne]
  exact hfind'

/-! ## Events -/

theorem Queued.remove (h : Queued x vehicles events n) (i : ℕ) :
    Queued x vehicles (remove VehicleJoinEvent.id events i) n :=
  ⟨nodup_remove h.nodup i, fun e he => h.fresh e (mem_remove.mp he).1,
    fun e he => h.targets e (mem_remove.mp he).1,
    fun e he => h.waiting e (mem_remove.mp he).1⟩

/-- What an event leaves behind when it is deleted. -/
theorem deleteEvent_spec (hb : b.deleteEvent i = some b') :
    b'.vehicle = b.vehicle ∧ b'.events = remove VehicleJoinEvent.id b.events i ∧
      b'.nextEvent = b.nextEvent ∧ (b'.vehicles = b.vehicles ∨ ∃ v kit, b.vehicles v = some kit ∧
        b'.vehicles = update b.vehicles v (some
          { kit with pendingJoinEvents := kit.pendingJoinEvents.erase i })) := by
  obtain ⟨e, he, hb⟩ := Option.bind_eq_some_iff.mp hb
  obtain ⟨b1, hb1, hb⟩ := Option.bind_eq_some_iff.mp hb
  cases hb
  obtain rfl : e.id = i := (mem_of_find he).2
  unfold releaseEvent at hb1
  split at hb1
  · cases hb1
    exact ⟨rfl, rfl, rfl, .inl rfl⟩
  · obtain ⟨kit, hv, hb1⟩ := Option.bind_eq_some_iff.mp hb1
    cases hb1
    exact ⟨rfl, rfl, rfl, .inr ⟨_, kit, hv, rfl⟩⟩

theorem Inv.deleteEvent (h : Inv x c b) (hb : b.deleteEvent i = some b') : Inv x c b' := by
  obtain ⟨hvehicle, hevents, hnext, hvehicles | ⟨v, kit, hv, hvehicles⟩⟩ := deleteEvent_spec hb
  · have hqueued := h.queued.remove i
    refine ⟨?_, ?_⟩
    · rw [hvehicles, hvehicle]
      exact h.seated
    · rw [hvehicles, hevents, hnext]
      exact hqueued
  · have hqueued := h.queued.remove i
    refine ⟨?_, ?_⟩
    · rw [hvehicles, hvehicle]
      exact h.seated.pending hv _
    · rw [hvehicles, hevents, hnext]
      refine ⟨hqueued.nodup, hqueued.fresh, fun e he v' ht =>
        update_ne_none (hqueued.targets e he v' ht) _ _, fun e he hto => ?_⟩
      have hne := (mem_remove.mp he).2
      exact (hqueued.waiting e he hto).update hv
        (fun _ hp => (mem_erase_of_ne hne).mpr hp)
        fun seat _ _ hfind hempty => ⟨seat, rfl, hfind, hempty⟩

theorem Kept.abort {P : Boarding → Prop} (hP : Kept P) (h : P b) (hb : b.abort e = some b') :
    P b' := by
  unfold Boarding.abort at hb
  split at hb
  · cases hb
    exact h
  · obtain ⟨-, -, hb⟩ := Option.bind_eq_some_iff.mp hb
    exact hP.removeAurasByType h hb

theorem Inv.updateEvents (h : Inv none c b)
    (hoff : ∀ e, b.nextOf u = some e → e.toAbort = false → b.vehicle e.passenger = none)
    (hb : b.updateEvents u = some b') : Inv none c b' := by
  unfold Boarding.updateEvents at hb
  split at hb
  · cases hb
    exact h
  · next e hnext =>
    obtain ⟨b1, hb1, hb⟩ := Option.bind_eq_some_iff.mp hb
    unfold serveEvent at hb1
    split at hb1
    · exact ((kept_inv none c).abort h hb1).deleteEvent hb
    · next hto =>
      rw [Bool.not_eq_true] at hto
      have he := mem_of_find?_eq_some hnext
      exact (h.execute he hto (hoff e hnext hto) hb1).deleteEvent hb

theorem Inv.killEvent (h : Inv x c b) (hb : b.killEvent i = some b') : Inv x c b' := by
  obtain ⟨e, he, hb⟩ := Option.bind_eq_some_iff.mp hb
  obtain ⟨b1, hb1, hb⟩ := Option.bind_eq_some_iff.mp hb
  have hkilled : Inv x c { b with
      events := replace VehicleJoinEvent.id b.events { e with toAbort := true } } := by
    have hmem := (mem_of_find he).1
    refine ⟨h.seated, ?_, fun e' he' => ?_, fun e' he' => ?_, fun e' he' hto => ?_⟩
    · exact (congrArg List.Nodup (map_key_replace _ _)).mpr h.queued.nodup
    · rcases mem_replace he' with rfl | he'
      · exact h.queued.fresh e hmem
      · exact h.queued.fresh e' he'
    · rcases mem_replace he' with rfl | he'
      · exact h.queued.targets e hmem
      · exact h.queued.targets e' he'
    · rcases mem_replace he' with rfl | he'
      · exact absurd hto (by simp)
      · exact h.queued.waiting e' he' hto
  exact ((kept_inv x c).abort hkilled hb1).deleteEvent hb

theorem Inv.killAllEvents (h : Inv x c b) (hb : b.killAllEvents u = some b') : Inv x c b' := by
  unfold Boarding.killAllEvents at hb
  generalize (b.events.filter fun e => e.passenger = u).map VehicleJoinEvent.id = ids at hb
  induction ids generalizing b with
  | nil =>
    cases hb
    exact h
  | cons i ids ih =>
    obtain ⟨b1, hb1, hb⟩ := Option.bind_eq_some_iff.mp hb
    exact ih (h.killEvent hb1) hb

/-! ## Joining -/

theorem Queued.mono (h : Queued none vehicles events n) (x : Option ℕ) :
    Queued x vehicles events n := by
  refine ⟨h.nodup, h.fresh, h.targets, fun e he hto => ?_⟩
  obtain ⟨v, kit, seat, htarget, hkit, hpending, hid, hfind, hempty⟩ := h.waiting e he hto
  exact ⟨v, kit, seat, htarget, hkit, hpending, hid, hfind, fun _ => hempty (by simp)⟩

theorem Queued.pending (h : Queued x vehicles events n) (hv : vehicles v = some kit) {l : List ℕ}
    (hl : kit.pendingJoinEvents ⊆ l) :
    Queued x (update vehicles v (some { kit with pendingJoinEvents := l })) events n :=
  ⟨h.nodup, h.fresh, fun e he v' ht => update_ne_none (h.targets e he v' ht) _ _, fun e he hto =>
    (h.waiting e he hto).update hv (fun _ hp => hl hp)
      fun seat _ _ hfind hempty => ⟨seat, rfl, hfind, hempty⟩⟩

/-- An event with a fresh number is queued. -/
theorem Queued.add (h : Queued x vehicles events n) (hid : e.id = n)
    (htarget : ∀ v, e.target = some v → vehicles v ≠ none)
    (hwaits : e.toAbort = false → Waits x vehicles e) :
    Queued x vehicles (events ++ [e]) (n + 1) := by
  refine ⟨?_, fun e' he' => ?_, fun e' he' => ?_, fun e' he' => ?_⟩
  · rw [map_append, map_singleton, nodup_append_comm, singleton_append,
      nodup_cons]
    refine ⟨fun hmem => ?_, h.nodup⟩
    obtain ⟨e', he', heq⟩ := mem_map.mp hmem
    exact absurd (h.fresh e' he') (by omega)
  all_goals rcases mem_append.mp he' with he' | he'
  · exact Nat.lt_succ_of_lt (h.fresh e' he')
  · rw [mem_singleton.mp he', hid]
    exact Nat.lt_succ_self n
  · exact h.targets e' he'
  · rw [mem_singleton.mp he']
    exact htarget
  · exact h.waiting e' he'
  · rw [mem_singleton.mp he']
    exact hwaits

/-- The new event waits for its seat, which may be taken where the event is `x`. -/
theorem Inv.join (h : Inv none c b) (hv : b.vehicles v = some kit) (u : ℕ)
    (hfind : find VehicleSeat.id kit.seats seat.id = some seat)
    (hempty : some b.nextEvent ≠ x → seat.passenger = none) :
    Inv x c ((b.addEvent ⟨b.nextEvent, u, some v, some seat.id, false⟩).setVehicle v (some
      { kit with pendingJoinEvents := kit.pendingJoinEvents ++ [b.nextEvent] })) := by
  refine ⟨h.seated.pending hv _, ?_⟩
  have hqueued := (h.queued.mono x).pending hv
    (subset_append_left kit.pendingJoinEvents [b.nextEvent])
  refine hqueued.add rfl (fun v' hv' => ?_) fun _ => ?_
  · obtain rfl : v = v' := Option.some.inj hv'
    rw [update_self]
    exact Option.some_ne_none _
  · exact ⟨v, _, seat, rfl, update_self _ _ _, by simp, rfl, hfind, hempty⟩

theorem mem_of_aims {events' : List VehicleJoinEvent} (h : events'.map aim = events.map aim)
    (he : e ∈ events') : ∃ e0 ∈ events, aim e0 = aim e :=
  mem_map.mp (h ▸ mem_map_of_mem he)

/-- Once the seat is empty, nothing is left of the exemption. -/
theorem Inv.of_assertEmpty {seatId : ℤ} (h : Inv (some i) c b)
    (haim : ∀ e ∈ b.events, e.id = i → e.target = some v ∧ e.seat = some seatId)
    (hb : b.assertEmpty v seatId = some b') : Inv none c b' := by
  obtain ⟨kit, hv, hb⟩ := Option.bind_eq_some_iff.mp hb
  obtain ⟨seat, hfind, hb⟩ := Option.bind_eq_some_iff.mp hb
  split at hb
  · next hseat =>
    cases hb
    refine ⟨h.seated, h.queued.nodup, h.queued.fresh, h.queued.targets, fun e he hto => ?_⟩
    obtain ⟨v', kit', seat', htarget, hkit, hpending, hid, hfind', hempty⟩ :=
      h.queued.waiting e he hto
    refine ⟨v', kit', seat', htarget, hkit, hpending, hid, hfind', fun _ => ?_⟩
    by_cases hi : e.id = i
    · obtain ⟨ht, hs⟩ := haim e he hi
      obtain rfl : v' = v := Option.some.inj (htarget.symm.trans ht)
      obtain rfl : kit' = kit := Option.some.inj (hkit.symm.trans hv)
      obtain heq : seat'.id = seatId := Option.some.inj (hid.symm.trans hs)
      obtain rfl : seat' = seat := Option.some.inj (hfind'.symm.trans (heq ▸ hfind))
      exact Option.isNone_iff_eq_none.mp hseat
    · exact hempty fun heq => hi (Option.some.inj heq)
  · exact nomatch hb

theorem Inv.addPassenger {seatId : ℤ} (h : Inv none c b)
    (hb : b.addPassenger v u seatId = some b') : Inv none c b' := by
  obtain ⟨kit, hv, hb⟩ := Option.bind_eq_some_iff.mp hb
  split at hb
  · cases hb
    exact h
  split at hb
  · cases hb
    refine ⟨h.seated, h.queued.add rfl (fun v' hv' => ?_) (fun hto => nomatch hto)⟩
    obtain rfl : v = v' := Option.some.inj hv'
    exact hv ▸ Option.some_ne_none kit
  · next seat hseat =>
    have hfind := Vehicle.seatFor_find (h.seated.wf hv) hseat
    split at hb
    · next hempty =>
      cases hb
      exact h.join hv u hfind fun _ => hempty
    · next p hp =>
      obtain ⟨b1, hexit, hb⟩ := Option.bind_eq_some_iff.mp hb
      have hjoined := h.join (x := some b.nextEvent) hv u hfind fun hne => absurd rfl hne
      have haims := (kept_aims _).exitVehicle rfl hexit
      refine ((kept_inv _ c).exitVehicle hjoined hexit).of_assertEmpty (fun e he hid => ?_) hb
      obtain ⟨e0, he0, haim⟩ := mem_of_aims haims he
      obtain ⟨hi, ht, hs⟩ : e0.id = e.id ∧ e0.target = e.target ∧ e0.seat = e.seat := by
        simpa [aim] using haim
      rcases mem_append.mp he0 with hold | hnew
      · exact absurd (h.queued.fresh e0 hold) (by omega)
      · obtain rfl := mem_singleton.mp hnew
        exact ⟨ht.symm, hs.symm⟩

/-! ## Emptying a vehicle -/

/-- All pending events are to be aborted. -/
theorem Inv.abortPending {target : Option ℕ} (h : Inv x c b) (hv : b.vehicles v = some kit)
    (htarget : ∀ v', target = some v' → v' = v) : Inv x c (b.abortPending v kit target) :=
  ⟨h.seated.pending hv [], h.queued.mapAbort hv (fun _ => target)
    (fun _ v' ht => .inr (htarget v' ht)) fun _ _ _ hpending hnot => absurd hpending hnot⟩

theorem Inv.removeAllPassengers (h : Inv x c b) (hb : b.removeAllPassengers v = some b') :
    Inv x c b' := by
  obtain ⟨kit, hv, hb⟩ := Option.bind_eq_some_iff.mp hb
  refine (kept_inv x c).removeAurasByType (h.abortPending hv fun v' ht => ?_) hb
  split at ht
  · exact (Option.some.inj ht).symm
  · exact nomatch ht

/-- A vehicle that begins to uninstall. -/
theorem Inv.uninstalling (h : Inv x none b) (hv : b.vehicles v = some kit) :
    Inv x (some v) (b.setVehicle v (some { kit with status := .uninstalling })) := by
  have hriders := h.seated.riders hv
  have hseated : Seated (some v) b.vehicles b.vehicle :=
    ⟨h.seated.wf, fun hkit _ => h.seated.installed hkit (by simp), h.seated.riders,
      h.seated.ridden⟩
  refine ⟨hseated.set (fun _ _ _ => Iff.rfl) ⟨(h.seated.wf hv).nodup, (h.seated.wf hv).usable⟩
    (fun hne => absurd rfl hne) hriders, h.queued.nodup, h.queued.fresh,
    fun e he v' ht => update_ne_none (h.queued.targets e he v' ht) _ _, fun e he hto => ?_⟩
  exact (h.queued.waiting e he hto).update hv (fun _ hp => hp)
    fun seat _ _ hfind hempty => ⟨seat, rfl, hfind, hempty⟩

/-- After `Uninstall`, an event aims at the vehicle when it did and was not pending. -/
theorem uninstall_spec (h : Inv x none b) (hv : b.vehicles v = some kit)
    (hb : b.uninstall v = some b') :
    Inv x (some v) b' ∧ ((∃ e ∈ b'.events, e.target = some v) ↔
      ∃ e ∈ b.events, e.target = some v ∧ e.id ∉ kit.pendingJoinEvents) := by
  obtain ⟨kit', hv', hb⟩ := Option.bind_eq_some_iff.mp hb
  obtain rfl : kit' = kit := Option.some.inj (hv'.symm.trans hv)
  have hstatus := h.seated.installed hv (by simp)
  rw [if_neg fun hguard => hstatus hguard.1] at hb
  have hinv := (h.uninstalling hv).removeAllPassengers hb
  refine ⟨hinv, ?_⟩
  obtain ⟨kit1, hv1, hb⟩ := Option.bind_eq_some_iff.mp hb
  simp only [setVehicle, update_self, Option.some.injEq] at hv1
  subst hv1
  have haims := (kept_aims _).removeAurasByType rfl hb
  constructor
  · rintro ⟨e, he, ht⟩
    obtain ⟨e1, he1, haim⟩ := mem_of_aims haims he
    obtain ⟨e0, he0, rfl⟩ := mem_map.mp he1
    split at haim
    · simp [aim, ht] at haim
    · next hnot =>
      simp only [aim, Prod.mk.injEq] at haim
      exact ⟨e0, he0, haim.2.1.trans ht, hnot⟩
  · rintro ⟨e, he, ht, hnot⟩
    have hmem := mem_map_of_mem (f := fun e => if e.id ∈ kit'.pendingJoinEvents then
      { e with toAbort := true, target := none } else e) he
    obtain ⟨e', he', haim⟩ := mem_of_aims haims.symm hmem
    rw [if_neg hnot] at haim
    simp only [aim, Prod.mk.injEq] at haim
    exact ⟨e', he', haim.2.1.trans ht⟩

/-- A vehicle that no event aims at is destroyed. -/
theorem Inv.deleteVehicle (h : Inv x (some v) b) (haim : ¬∃ e ∈ b.events, e.target = some v)
    (hb : b.deleteVehicle v = some b') : Inv x none b' := by
  obtain ⟨kit, hv, hb⟩ := Option.bind_eq_some_iff.mp hb
  split at hb
  · next hempty =>
    cases hb
    have hoff : ∀ u, b.vehicle u ≠ some v := fun u hu => by
      have hriders := h.seated.riders hv u
      rw [if_pos hu] at hriders
      obtain ⟨seat, hseat, hp⟩ := countP_pos_iff.mp (hriders ▸ Nat.one_pos)
      have hseat := all_eq_true.mp hempty.2 seat hseat
      simp [VehicleSeat.isEmpty, of_decide_eq_true hp] at hseat
    have hother : ∀ {v' kit'}, update b.vehicles v none v' = some kit' →
        v' ≠ v ∧ b.vehicles v' = some kit' := fun {v' kit'} hkit => by
      rcases eq_or_ne v' v with rfl | hne
      · rw [update_self] at hkit
        exact nomatch hkit
      · exact ⟨hne, (update_of_ne hne _ _).symm.trans hkit⟩
    have hne : ∀ {v'}, v' ≠ v → update b.vehicles v none v' = b.vehicles v' :=
      fun hne => update_of_ne hne _ _
    refine ⟨⟨fun hkit => h.seated.wf (hother hkit).2,
      fun hkit _ => h.seated.installed (hother hkit).2 fun heq => (hother hkit).1
        (Option.some.inj heq), fun hkit => h.seated.riders (hother hkit).2, fun {u v'} hu => ?_⟩,
      h.queued.nodup, h.queued.fresh, fun e he v' ht => ?_, fun e he hto => ?_⟩
    · have hv' : v' ≠ v := fun heq => hoff u (heq ▸ hu)
      exact fun hnone => h.seated.ridden hu ((hne hv').symm.trans hnone)
    · have hv' : v' ≠ v := fun heq => haim ⟨e, he, heq ▸ ht⟩
      exact fun hnone => h.queued.targets e he v' ht ((hne hv').symm.trans hnone)
    · obtain ⟨v', kit', seat, ht, hkit, hrest⟩ := h.queued.waiting e he hto
      have hv' : v' ≠ v := fun heq => haim ⟨e, he, heq ▸ ht⟩
      exact ⟨v', kit', seat, ht, (hne hv').trans hkit, hrest⟩
  · exact nomatch hb

/-! ## Runs -/

/-- The counters are right, a unit is on a vehicle when exactly one seat of it holds the unit, the
seat of an event that is to be executed is empty, and a target is there. -/
structure Sound (b : Boarding) : Prop where
  usable : ∀ v kit, b.vehicles v = some kit → kit.usableSeatNum = kit.usableSeats
  aboard : ∀ u v, b.vehicle u = some v ↔
    ∃ kit, b.vehicles v = some kit ∧ kit.seatsHolding u = 1
  joining : ∀ e ∈ b.events, e.toAbort = false → ∃ v kit seat, e.target = some v ∧
    b.vehicles v = some kit ∧ e.seat = some seat.id ∧
    find VehicleSeat.id kit.seats seat.id = some seat ∧ seat.isEmpty
  targets : ∀ e ∈ b.events, ∀ v, e.target = some v → b.vehicles v ≠ none

/-- A join that is executed finds its passenger on no vehicle, and a vehicle kit is removed while
all events that aim at it are pending. -/
def Meets (b : Boarding) : Request → Prop
  | .updateEvents u =>
    ∀ e, b.nextOf u = some e → e.toAbort = false → b.vehicle e.passenger = none
  | .removeVehicleKit v =>
    ∀ kit, b.vehicles v = some kit → ∀ e ∈ b.events, e.target = some v →
      e.id ∈ kit.pendingJoinEvents
  | _ => True

theorem Inv.sound (h : Inv none none b) : b.Sound where
  usable _ _ hkit := (h.seated.wf hkit).usable
  aboard u v := by
    constructor
    · intro hu
      obtain ⟨kit, hkit⟩ := Option.ne_none_iff_exists'.mp (h.seated.ridden hu)
      exact ⟨kit, hkit, (h.seated.riders hkit u).trans (if_pos hu)⟩
    · rintro ⟨kit, hkit, hone⟩
      by_contra hu
      have hriders := h.seated.riders hkit u
      rw [if_neg hu, hone] at hriders
      exact nomatch hriders
  joining e he hto := by
    obtain ⟨v, kit, seat, htarget, hkit, -, hid, hfind, hempty⟩ := h.queued.waiting e he hto
    exact ⟨v, kit, seat, htarget, hkit, hid, hfind,
      Option.isNone_iff_eq_none.mpr (hempty (Option.some_ne_none _))⟩
  targets := h.queued.targets

theorem Inv.removeVehicleKit (h : Inv none none b) (hmeets : b.Meets (.removeVehicleKit v))
    (hb : b.removeVehicleKit v = some b') : Inv none none b' := by
  unfold Boarding.removeVehicleKit at hb
  split at hb
  · cases hb
    exact h
  · next kit hv =>
    obtain ⟨b1, huninstall, hb⟩ := Option.bind_eq_some_iff.mp hb
    obtain ⟨hinv, haim⟩ := uninstall_spec h hv huninstall
    refine hinv.deleteVehicle (fun hleft => ?_) hb
    obtain ⟨e, he, ht, hnot⟩ := haim.mp hleft
    exact hnot (hmeets kit hv e he ht)

/-- An event that is not pending points to the vehicle when it is gone. -/
theorem not_sound_removeVehicleKit (h : Inv none none b)
    (hmeets : ¬b.Meets (.removeVehicleKit v)) (hb : b.removeVehicleKit v = some b') :
    ¬b'.Sound := by
  simp only [Meets, not_forall] at hmeets
  obtain ⟨kit, hv, e, he, ht, hnot⟩ := hmeets
  unfold Boarding.removeVehicleKit at hb
  rw [hv] at hb
  obtain ⟨b1, huninstall, hb⟩ := Option.bind_eq_some_iff.mp hb
  obtain ⟨e', he', ht'⟩ := (uninstall_spec h hv huninstall).2.mpr ⟨e, he, ht, hnot⟩
  obtain ⟨kit1, -, hb⟩ := Option.bind_eq_some_iff.mp hb
  split at hb
  · cases hb
    exact fun hsound => hsound.targets e' he' v ht' (update_self _ _ _)
  · exact nomatch hb

/-- Deleting an event changes no seat. -/
theorem seats_deleteEvent (hb : b.deleteEvent i = some b') (hkit : b.vehicles v = some kit) :
    ∃ kit', b'.vehicles v = some kit' ∧ kit'.seats = kit.seats := by
  obtain ⟨-, -, -, hvehicles | ⟨v', kit0, hv', hvehicles⟩⟩ := deleteEvent_spec hb
  · exact ⟨kit, hvehicles ▸ hkit, rfl⟩
  · rw [hvehicles]
    rcases eq_or_ne v v' with rfl | hne
    · obtain rfl : kit0 = kit := Option.some.inj (hv'.symm.trans hkit)
      exact ⟨_, update_self _ _ _, rfl⟩
    · exact ⟨kit, (update_of_ne hne _ _).trans hkit, rfl⟩

/-- A unit that joins while it is on a vehicle is held by two seats. -/
theorem not_sound_updateEvents (h : Inv none none b) (hmeets : ¬b.Meets (.updateEvents u))
    (hb : b.updateEvents u = some b') : ¬b'.Sound := by
  simp only [Meets, not_forall] at hmeets
  obtain ⟨e, hnext, hto, hon⟩ := hmeets
  obtain ⟨w, hw⟩ := Option.ne_none_iff_exists'.mp hon
  have he := mem_of_find?_eq_some hnext
  unfold Boarding.updateEvents at hb
  rw [hnext] at hb
  obtain ⟨b1, hb1, hb⟩ := Option.bind_eq_some_iff.mp hb
  rw [serveEvent, if_neg (by simp [hto])] at hb1
  obtain ⟨v, kit0, b2, kit, seat, htarget, hv0, hseatId, hkit, hseats, hfind, hkeep, hothers,
    hvehicle, rfl⟩ := execute_spec hb1
  have hempty := h.queued.seat_empty he hto htarget hv0 hseatId (hseats ▸ hfind)
  have hinv := (hkeep h).1
  have hvehicle' := (deleteEvent_spec hb).1
  intro hsound
  rcases eq_or_ne w v with rfl | hne
  · have hone := hsound.aboard e.passenger w
    rw [hvehicle'] at hone
    obtain ⟨kit', hkit', hone⟩ := hone.mp (update_self _ _ _)
    obtain ⟨kit'', hkit'', hsame⟩ := seats_deleteEvent hb (update_self _ _ _)
    obtain rfl : kit' = kit'' := Option.some.inj (hkit'.symm.trans hkit'')
    have htwo := Vehicle.seatsHolding_occupy hfind (hinv.seated.wf hkit) hempty e.passenger
      e.passenger
    rw [hinv.seated.riders hkit, hvehicle, if_pos hw, if_pos rfl] at htwo
    rw [Vehicle.seatsHolding, hsame] at hone
    exact absurd (hone.symm.trans htwo) (by decide)
  · obtain ⟨kitw, hkitw⟩ := Option.ne_none_iff_exists'.mp (h.seated.ridden hw)
    have hstill := (update_of_ne hne (some (kit.occupy seat e.passenger)) _).trans
      ((hothers w hne).trans hkitw)
    obtain ⟨kit', hkit', hsame⟩ := seats_deleteEvent hb hstill
    have hold := h.seated.riders hkitw e.passenger
    rw [if_pos hw] at hold
    have hon' := (hsound.aboard e.passenger w).mpr ⟨kit', hkit', by
      rw [Vehicle.seatsHolding, hsame]
      exact hold⟩
    simp only [hvehicle', update_self, Option.some.injEq] at hon'
    exact hne hon'.symm

/-- Every request that meets its conditions keeps the invariant. -/
theorem Inv.serve {r : Request} (h : Inv none none b) (hmeets : b.Meets r)
    (hb : b.serve r = some b') : Inv none none b' := by
  cases r with
  | applyAura v u =>
    cases hb
    exact ⟨h.seated, h.queued⟩
  | removeAura v u => exact (kept_inv none none).removeAurasByType h hb
  | addPassenger v u seatId => exact h.addPassenger hb
  | updateEvents u => exact h.updateEvents hmeets hb
  | killAllEvents u => exact h.killAllEvents hb
  | removePassenger v u => exact h.removePassenger hb
  | removePendingEventsForPassenger v u =>
    exact (kept_inv none none).removePendingEventsForPassenger h hb
  | removeAllPassengers v => exact h.removeAllPassengers hb
  | removeVehicleKit v => exact h.removeVehicleKit hmeets hb

theorem not_sound_serve {r : Request} (h : Inv none none b) (hmeets : ¬b.Meets r)
    (hb : b.serve r = some b') : ¬b'.Sound := by
  cases r with
  | updateEvents u => exact not_sound_updateEvents h hmeets hb
  | removeVehicleKit v => exact not_sound_removeVehicleKit h hmeets hb
  | _ => exact absurd trivial hmeets

/-- The vehicles are new, nobody is on them, and nothing is queued. -/
structure Start (b : Boarding) : Prop where
  vehicles : ∀ v kit, b.vehicles v = some kit → ∃ seats minion, (seats.map VehicleSeat.id).Nodup ∧
    (∀ seat ∈ seats, seat.passenger = none) ∧ kit = Vehicle.install seats minion
  vehicle : ∀ u, b.vehicle u = none
  events : b.events = []

/-- The invariant holds where a run starts. -/
theorem Start.inv (h : b.Start) : Inv none none b := by
  refine ⟨⟨fun hkit => ?_, fun hkit _ => ?_, fun hkit u => ?_, fun {u v} hu => ?_⟩, ?_⟩
  · obtain ⟨seats, minion, hnodup, hempty, rfl⟩ := h.vehicles _ _ hkit
    refine ⟨hnodup, countP_congr fun seat hseat => ?_⟩
    simp [VehicleSeat.isEmpty, hempty seat hseat]
  · obtain ⟨seats, minion, -, -, rfl⟩ := h.vehicles _ _ hkit
    exact VehicleStatus.noConfusion
  · obtain ⟨seats, minion, -, hempty, rfl⟩ := h.vehicles _ _ hkit
    rw [h.vehicle u, if_neg (Option.some_ne_none _).symm]
    refine countP_eq_zero.mpr fun seat hseat => ?_
    simp [hempty seat hseat]
  · exact absurd (h.vehicle u ▸ hu) (Option.some_ne_none v).symm
  · rw [h.events]
    refine ⟨nodup_nil, ?_, ?_, ?_⟩
    all_goals exact fun e he => absurd he not_mem_nil

theorem run_none : ∀ rs : List Request, run step none rs = none
  | [] => rfl
  | _ :: rs => run_none rs

/-- Where a run ends in a state, every step of it goes through. -/
theorem along_of_run : ∀ {state : Option Boarding} {rs : List Request},
    run step state rs ≠ none → Along step (fun state r => step state r ≠ none) state rs
  | _, [], _ => trivial
  | state, r :: rs, h => by
    exact ⟨fun hnone => h (hnone ▸ run_none rs), along_of_run h⟩

end Boarding

/-- In a run whose assertions hold, every state is sound exactly when each join is executed for a
unit on no vehicle, and each vehicle kit is removed while all events that aim at it are pending. -/
theorem boarding_run_iff {b : Boarding} (hstart : b.Start) {rs : List Boarding.Request}
    (hrun : run Boarding.step (some b) rs ≠ none) :
    (∀ pre, pre <+: rs → ∀ b', run Boarding.step (some b) pre = some b' → b'.Sound) ↔
      Along Boarding.step (fun state r => ∀ b', state = some b' → b'.Meets r) (some b) rs := by
  have hsound : ∀ s : Option Boarding, (∀ b', s = some b' → b'.Inv none none) →
      ∀ b', s = some b' → b'.Sound := fun s hs b' hb' => (hs b' hb').sound
  refine forall_prefix_iff_along hsound (fun s r hs hr => ?_)
    (fun b' hb' => Option.some.inj hb' ▸ hstart.inv) (Boarding.along_of_run hrun)
  cases s with
  | none => exact absurd rfl hr
  | some b₀ =>
    have hinv := hs b₀ rfl
    by_cases hmeets : b₀.Meets r
    · refine .inl ⟨fun b' hb' => Option.some.inj hb' ▸ hmeets, fun b' hb' => ?_⟩
      exact hinv.serve hmeets hb'
    · refine .inr ⟨fun h => hmeets (h b₀ rfl), fun h => ?_⟩
      obtain ⟨b₁, hb₁⟩ := Option.ne_none_iff_exists'.mp hr
      exact Boarding.not_sound_serve hinv hmeets hb₁ (h b₁ hb₁)

/-- A vehicle with one seat. -/
def coach : Boarding where
  vehicles v := if v = 1 then some (Vehicle.install [⟨0, true, false, none⟩] false) else none

theorem coach_start : coach.Start where
  vehicles v kit hkit := by
    simp only [coach] at hkit
    split at hkit
    · cases hkit
      exact ⟨[⟨0, true, false, none⟩], false, by decide, by decide, rfl⟩
    · exact nomatch hkit
  vehicle _ := rfl
  events := rfl

/-- One unit takes the seat, and another one finds none. -/
def fullCoach : List Boarding.Request :=
  [.applyAura 1 2, .addPassenger 1 2 (-1), .updateEvents 2, .addPassenger 1 3 (-1)]

theorem boarding_run_iff_fullCoach :
    (∀ pre, pre <+: fullCoach → ∀ b', run Boarding.step (some coach) pre = some b' → b'.Sound) ↔
      Along Boarding.step (fun state r => ∀ b', state = some b' → b'.Meets r) (some coach)
        fullCoach :=
  boarding_run_iff coach_start (Option.some_ne_none _)

/-- The unit without a seat is still to be told when the vehicle is gone. -/
theorem not_sound_fullCoach : ∃ b',
    run Boarding.step (some coach) (fullCoach ++ [.removeVehicleKit 1]) = some b' ∧ ¬b'.Sound :=
  ⟨_, rfl, fun h => h.targets ⟨1, 3, some 1, none, true⟩ (mem_singleton.mpr rfl) 1 rfl rfl⟩

end MistyWorld
