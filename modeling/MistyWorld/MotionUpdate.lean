import Mathlib.Algebra.Order.BigOperators.Group.Finset
import Mathlib.Data.Fintype.BigOperators
import MistyWorld.Keyed
import MistyWorld.MotionMaster

/-!
# Movements that are deleted during an update

While a generator updates, it and the scripts it notifies may call the motion master. `Clear` and
`MovementExpired` then only put a generator that goes into `_expList`, and `UpdateMotion` deletes it
at the end. `Mutate` does so for the generator in its slot if the slot is `_top`, and deletes the
generator at once otherwise. But `_top` may have risen above the generator that is updating, by an
earlier `Mutate` of the same update.

`DirectDelete` calls the finalizer of the generator, and this may call the motion master as well,
while `Mutate` has emptied the slot and not yet filled it. So such a `Mutate` is two events, its
begin and the return of the finalizer. When the slot has been filled in between, that generator is
overwritten and never deleted.

So an update deletes every generator that goes once, and the one that is updating not before it
returns, exactly when no `Mutate` hits its slot below the top, no generator is overwritten, and the
stack is not searched below its lowest slot (`update_safe_iff`).
-/

open Option Function List Machine

namespace MistyWorld

namespace MotionMaster

/-! ## An update -/

/-- `Mutate` up to the deletion of the generator in the slot. -/
def mutateBegin (m : MotionMaster) (slot : MovementSlot) : MotionMaster :=
  match m.impl slot with
  | some curr =>
    let m := { m with impl := update m.impl slot none }
    if m.top = (slot.val : ℤ) ∧ m.updating then m.delayedDelete curr else m.directDelete curr
  | none => if m.top < slot.val then { m with top := slot.val } else m

/-- `Mutate` after the deletion of the generator in the slot. -/
def mutateEnd (m : MotionMaster) (mv : Movement) (slot : MovementSlot) : MotionMaster :=
  let m := { m with impl := update m.impl slot (some mv) }
  if (slot.val : ℤ) < m.top then
    { m with needInit := update m.needInit slot true }
  else
    { m with needInit := update m.needInit slot false }

theorem mutate_eq (m : MotionMaster) (mv : Movement) (slot : MovementSlot) :
    m.mutate mv slot = (m.mutateBegin slot).mutateEnd mv slot :=
  rfl

/-- `Mutate` calls the finalizer of the generator in the slot. -/
def Finalizes (m : MotionMaster) (slot : MovementSlot) : Prop :=
  ∃ curr, m.impl slot = some curr ∧ ¬isStatic curr ∧ ¬(m.top = slot.val ∧ m.updating = true)

instance (m : MotionMaster) (slot : MovementSlot) : Decidable (m.Finalizes slot) :=
  match h : m.impl slot with
  | none => isFalse fun ⟨_, hcurr, _⟩ => nomatch h.symm.trans hcurr
  | some curr => decidable_of_iff (¬isStatic curr ∧ ¬(m.top = slot.val ∧ m.updating = true))
      ⟨fun hd => ⟨curr, h, hd⟩, fun ⟨_, hcurr, hd⟩ => some.inj (h.symm.trans hcurr) ▸ hd⟩

/-- The calls during an update, with the returns of the finalizers. -/
inductive UpdateCall
  | mutate (mv : Movement) (slot : MovementSlot)
  | finalized
  | clear (reset : Bool)
  | movementExpired (reset : Bool)

/-- A motion master that updates, with the calls of `Mutate` that wait for a finalizer, and the
generators that were overwritten. -/
structure Updating where
  motion : MotionMaster
  pending : List (Movement × MovementSlot) := []
  overwritten : List Movement := []

namespace Updating

variable (selectMovementGenerator : MotionMaster → Movement)

/-- A call during the update. -/
def serve (u : Updating) : UpdateCall → Except Fault Updating
  | .mutate mv slot =>
    if u.motion.Finalizes slot then
      .ok { u with
        motion := u.motion.mutateBegin slot
        pending := (mv, slot) :: u.pending }
    else .ok { u with motion := u.motion.mutate mv slot }
  | .finalized =>
    match u.pending with
    | [] => .ok u
    | (mv, slot) :: pending =>
      .ok {
        motion := u.motion.mutateEnd mv slot
        pending := pending
        overwritten := (u.motion.impl slot).toList ++ u.overwritten }
  | .clear reset => (u.motion.clear reset).map fun m => { u with motion := m }
  | .movementExpired reset =>
    (u.motion.movementExpired selectMovementGenerator reset).map fun m => { u with motion := m }

/-- Nothing more is called after a fault. -/
def step (r : Except Fault Updating) (call : UpdateCall) : Except Fault Updating :=
  r.bind (serve selectMovementGenerator · call)

end Updating

/-- The begin of `UpdateMotion`. -/
def startUpdate (m : MotionMaster) : Except Fault Updating :=
  (m.beginUpdate false).map fun m => { motion := m }

/-- `UpdateMotion` with the calls during the update of the generator and its answer : the state
before the end, and after it. -/
def updateMotion (selectMovementGenerator : MotionMaster → Movement) (m : MotionMaster)
    (calls : List UpdateCall) (answer : Bool) : Except Fault (Updating × MotionMaster) := do
  let u ← run (Updating.step selectMovementGenerator) m.startUpdate calls
  let m ← u.motion.endUpdate selectMovementGenerator answer
  return (u, m)

/-! ## Where a generator is -/

/-- How many slots a generator is in. -/
def places (m : MotionMaster) (g : Movement) : ℕ :=
  ∑ slot, if m.impl slot = some g then 1 else 0

/-- How often a generator is in `_expList`. -/
def expired (m : MotionMaster) (g : Movement) : ℕ :=
  (m.expList.getD []).count g

/-- How often a generator is in a slot, in `_expList`, or deleted. -/
def held (m : MotionMaster) (g : Movement) : ℕ :=
  m.places g + m.expired g + m.deleted.count g

variable {m m' : MotionMaster} {g : Movement}

theorem places_pos_iff : 0 < m.places g ↔ ∃ slot, m.impl slot = some g := by
  rw [places, Finset.sum_pos_iff]
  exact exists_congr fun slot => by split <;> simp [*]

/-- A slot is filled or emptied. -/
theorem places_update (m : MotionMaster) (slot : MovementSlot) (v : Option Movement) (g : Movement)
    (impl : MovementSlot → Option Movement) (himpl : m.impl = update impl slot v) :
    m.places g + (if impl slot = some g then 1 else 0) =
      (∑ slot, if impl slot = some g then 1 else 0) + if v = some g then 1 else 0 := by
  rw [places, himpl]
  exact Finset.sum_update_add (Finset.mem_univ slot) (fun _ v => if v = some g then 1 else 0) impl v

theorem held_delayedDelete (hg : ¬isStatic g) (m : MotionMaster) (curr : Movement) :
    (m.delayedDelete curr).held g = m.held g + if curr = g then 1 else 0 := by
  rw [delayedDelete]
  by_cases hstatic : isStatic curr
  · have hne : curr ≠ g := fun h => hg (h ▸ hstatic)
    rw [if_pos hstatic, if_neg hne, add_zero]
  · rw [if_neg hstatic]
    have hcount : (m.expList.getD [] ++ [curr]).count g =
        (m.expList.getD []).count g + if curr = g then 1 else 0 := by
      rw [count_append, count_singleton]
      simp [beq_iff_eq]
    have hplaces : places { m with expList := some (m.expList.getD [] ++ [curr]) } g = m.places g :=
      rfl
    simp only [held, expired, getD_some, hplaces, hcount]
    omega

theorem held_directDelete (hg : ¬isStatic g) (m : MotionMaster) (curr : Movement) :
    (m.directDelete curr).held g = m.held g + if curr = g then 1 else 0 := by
  rw [directDelete]
  by_cases hstatic : isStatic curr
  · have hne : curr ≠ g := fun h => hg (h ▸ hstatic)
    rw [if_pos hstatic, if_neg hne, add_zero]
  · rw [if_neg hstatic]
    have hplaces : places { m with deleted := curr :: m.deleted } g = m.places g := rfl
    simp only [held, expired, hplaces, count_cons, beq_iff_eq]
    omega

/-! ## Generators that go from the top -/

/-- A way to delete a generator, at once or at the end, which the account keeps. -/
structure Deletes (direct : Bool) (delete : MotionMaster → Movement → MotionMaster) : Prop where
  same : ∀ m curr, SameStack m (delete m curr)
  deleted : direct = false → ∀ m curr, (delete m curr).deleted = m.deleted
  held : ∀ {g}, ¬isStatic g → ∀ m curr,
    (delete m curr).held g = m.held g + if curr = g then 1 else 0

theorem deleted_delayedDelete (m : MotionMaster) (curr : Movement) :
    (m.delayedDelete curr).deleted = m.deleted := by
  rw [delayedDelete]
  split <;> rfl

theorem deletes_delayedDelete : Deletes false delayedDelete :=
  ⟨sameStack_delayedDelete, fun _ => deleted_delayedDelete, held_delayedDelete⟩

theorem deletes_directDelete : Deletes true directDelete :=
  ⟨sameStack_directDelete, fun h => absurd h (by decide), held_directDelete⟩

/-- Generators go from the top, and each is still accounted for. -/
structure Shifts (direct : Bool) (m m' : MotionMaster) : Prop where
  topped : m'.Topped
  flags : SameFlags m m'
  deleted : direct = false → m'.deleted = m.deleted
  held : ∀ {g}, ¬isStatic g → m'.held g = m.held g

variable {direct : Bool}

theorem Shifts.refl (h : m.Topped) : Shifts direct m m :=
  ⟨h, ⟨rfl, rfl⟩, fun _ => rfl, fun _ => rfl⟩

theorem Shifts.trans {m'' : MotionMaster} (h : Shifts direct m m') (h' : Shifts direct m' m'') :
    Shifts direct m m'' :=
  ⟨h'.topped, ⟨h'.flags.updating.trans h.flags.updating, h'.flags.updates.trans h.flags.updates⟩,
    fun hd => (h'.deleted hd).trans (h.deleted hd), fun hg => (h'.held hg).trans (h.held hg)⟩

variable {delete : MotionMaster → Movement → MotionMaster}

/-- The generator on top goes, and is deleted in one of the two ways. -/
theorem Deletes.pop (hd : Deletes direct delete) {slot : MovementSlot}
    (hslot : m.top = (slot.val : ℤ)) {curr : Movement} (hcurr : m.impl slot = some curr) :
    (m.FilledBelow ∧ ∃ m', m.pop = .ok m' ∧ Shifts direct m (delete m' curr) ∧
      (delete m' curr).top < m.top ∧
      ∀ slot' : MovementSlot, slot'.val < slot.val →
        (delete m' curr).impl slot' = m.impl slot') ∨
    (¬m.FilledBelow ∧ m.pop = .error .outside) := by
  rcases pop_cases hslot with ⟨low, hlow, hfilled, -, hpop⟩ | houtside
  · have hother : ∀ slot' : MovementSlot, slot'.val < slot.val →
        update m.impl slot none slot' = m.impl slot' := fun slot' hlt =>
      update_of_ne (fun heq => Nat.ne_of_lt hlt (congrArg Fin.val heq)) _ _
    obtain ⟨m', hm'⟩ : ∃ m' : MotionMaster,
        { m with impl := update m.impl slot none, top := (low.val : ℤ) } = m' := ⟨_, rfl⟩
    rw [hm'] at hpop
    obtain ⟨himpl, htop, hupdating, hupdates⟩ := hd.same m' curr
    refine .inl ⟨⟨low, by omega, hfilled⟩, m', hpop,
      ⟨⟨?_, ?_, ?_⟩, ⟨?_, ?_⟩, fun hdirect => ?_, @fun g hg => ?_⟩,
      ?_, fun slot' hlt => ?_⟩
    · rw [htop, ← hm']
      exact Int.natCast_nonneg _
    · rw [htop, ← hm']
      exact Int.ofNat_lt.2 low.2
    · intro slot' heq
      rw [htop, ← hm'] at heq
      obtain rfl : low = slot' := Fin.ext (Int.ofNat.inj heq)
      rw [himpl, ← hm']
      exact fun hnone => hfilled ((hother low hlow).symm.trans hnone)
    · rw [hupdating, ← hm']
    · rw [hupdates, ← hm']
    · rw [hd.deleted hdirect, ← hm']
    · have hplaces := places_update m' slot none g m.impl (by rw [← hm'])
      have hexpired : m'.expired g = m.expired g := by rw [← hm']; rfl
      have hdeleted : m'.deleted = m.deleted := by rw [← hm']
      have hsum : m.places g = ∑ slot, if m.impl slot = some g then 1 else 0 := rfl
      rw [hcurr, ← hsum] at hplaces
      simp only [some.injEq, reduceCtorEq, if_false, add_zero] at hplaces
      rw [hd.held hg, MotionMaster.held, MotionMaster.held, hexpired, hdeleted]
      omega
    · rw [htop, ← hm', hslot]
      exact Int.ofNat_lt.2 hlow
    · rw [himpl, ← hm']
      exact hother slot' hlt
  · exact .inr houtside

/-- Cleaning the stack but for its idle movement needs one. -/
theorem Deletes.clean_one (hd : Deletes direct delete) {turns : ℕ} : ∀ {m : MotionMaster},
    m.Topped → m.size ≤ turns →
      (m.impl motionSlotIdle ≠ none ∧ ∃ m', clean delete 1 turns m = .ok m' ∧
        Shifts direct m m') ∨
      (m.impl motionSlotIdle = none ∧ clean delete 1 turns m = .error .outside) := by
  induction turns with
  | zero =>
    intro m h hturns
    have hge := h.top_nonneg
    unfold size at hturns
    omega
  | succ turns ih =>
    intro m h hturns
    obtain ⟨slot, hslot, hat⟩ := h.slotAt_top
    obtain ⟨curr, hcurr⟩ := ne_none_iff_exists'.1 (h.top_filled slot hslot)
    rw [clean]
    by_cases hsize : m.size > 1
    · rw [if_pos hsize, hat]
      simp only [bind, Except.bind, hcurr]
      unfold size at hsize hturns
      have hidle : motionSlotIdle.val < slot.val := by
        change 0 < slot.val
        omega
      rcases hd.pop hslot hcurr with ⟨-, m', hpop, hshifts, hlt, himpl⟩ | ⟨hbelow, hpop⟩
      · rw [hpop, ← himpl motionSlotIdle hidle]
        rcases ih hshifts.topped (by unfold size; omega) with ⟨hfilled, m'', heq, hm⟩ | hnone
        · exact .inl ⟨hfilled, m'', heq, hshifts.trans hm⟩
        · exact .inr hnone
      · refine .inr ⟨?_, by rw [hpop]⟩
        by_contra hfilled
        exact hbelow ⟨motionSlotIdle, by omega, hfilled⟩
    · rw [if_neg hsize]
      unfold size at hsize
      have hidle : m.top = (motionSlotIdle.val : ℤ) := by
        change m.top = (0 : ℤ)
        omega
      exact .inl ⟨h.top_filled motionSlotIdle hidle, m, rfl, .refl h⟩

theorem Deletes.expire (hd : Deletes direct delete) (h : m.Topped) :
    (m.CanExpire ∧ ∃ m', m.expire delete = .ok m' ∧ Shifts direct m m') ∨
    (¬m.CanExpire ∧ m.expire delete = .error .outside) := by
  have hge := h.top_nonneg
  have hidle : ((motionSlotIdle.val : ℕ) : ℤ) = 0 := rfl
  by_cases hsize : m.size > 1
  · obtain ⟨slot, hslot, hat⟩ := h.slotAt_top
    obtain ⟨curr, hcurr⟩ := ne_none_iff_exists'.1 (h.top_filled slot hslot)
    have htop : m.topGenerator = .ok curr := by
      rw [MotionMaster.topGenerator, hat]
      simp only [bind, Except.bind, hcurr]
    have hexpire : m.expire delete = m.pop >>= fun m => (delete m curr).skipEmpty := by
      rw [MotionMaster.expire, if_pos hsize, htop]
      rfl
    rw [hexpire]
    unfold size at hsize
    rcases hd.pop hslot hcurr with ⟨hbelow, m', hpop, hshifts, -⟩ | ⟨hbelow, hpop⟩
    · refine .inl ⟨.inr ⟨by omega, hbelow⟩, delete m' curr, ?_, hshifts⟩
      rw [hpop]
      exact hshifts.topped.skipEmpty
    · refine .inr ⟨?_, by rw [hpop]; rfl⟩
      rintro (htop | ⟨-, hfilled⟩)
      · omega
      · exact hbelow hfilled
  · have hexpire : m.expire delete = m.skipEmpty := by
      rw [MotionMaster.expire, if_neg hsize]
    rw [hexpire]
    unfold size at hsize
    exact .inl ⟨.inl (by omega), m, h.skipEmpty, .refl h⟩

/-! ## The calls during an update -/

variable {selectMovementGenerator : MotionMaster → Movement}

theorem Topped.clear (h : m.Topped) (hupdating : m.updating = true) (reset : Bool) :
    (m.impl motionSlotIdle ≠ none ∧ ∃ m', m.clear reset = .ok m' ∧ Shifts false m m') ∨
    (m.impl motionSlotIdle = none ∧ m.clear reset = .error .outside) := by
  have hclear : m.clear reset = { m with resetting := reset }.delayedClean := by
    rw [MotionMaster.clear, if_pos hupdating]
  have hsame : Topped { m with resetting := reset } := ⟨h.1, h.2, h.3⟩
  rw [hclear, delayedClean]
  rcases deletes_delayedDelete.clean_one hsame (Int.self_le_toNat _) with
    ⟨hidle, m', heq, hm⟩ | hnone
  · exact .inl ⟨hidle, m', heq, hm.topped, ⟨hm.flags.updating, hm.flags.updates⟩,
      hm.deleted, hm.held⟩
  · exact .inr hnone

theorem Topped.movementExpired (h : m.Topped) (hupdating : m.updating = true) (reset : Bool) :
    (m.CanExpire ∧ ∃ m', m.movementExpired selectMovementGenerator reset = .ok m' ∧
      Shifts false m m') ∨
    (¬m.CanExpire ∧ m.movementExpired selectMovementGenerator reset = .error .outside) := by
  have hexpired : m.movementExpired selectMovementGenerator reset =
      { m with resetting := reset }.expire delayedDelete := by
    rw [MotionMaster.movementExpired, if_pos hupdating, delayedExpire]
  have hsame : Topped { m with resetting := reset } := ⟨h.1, h.2, h.3⟩
  rw [hexpired]
  rcases deletes_delayedDelete.expire hsame with ⟨hcan, m', heq, hm⟩ | hnone
  · exact .inl ⟨hcan, m', heq, hm.topped, ⟨hm.flags.updating, hm.flags.updates⟩,
      hm.deleted, hm.held⟩
  · exact .inr hnone

/-- What `Mutate` does before it fills the slot. -/
structure Emptied (m : MotionMaster) (slot : MovementSlot) (m' : MotionMaster) : Prop where
  slot_none : m'.impl slot = none
  others : ∀ slot' ≠ slot, m'.impl slot' = m.impl slot'
  top : m'.top = m.top ∨ m'.top = (slot.val : ℤ)
  flags : SameFlags m m'
  held : ∀ {g}, ¬isStatic g → m'.held g = m.held g

theorem emptied_delete {direct : Bool} (hd : Deletes direct delete) {slot : MovementSlot}
    {curr : Movement} (hslot : m.impl slot = some curr) :
    Emptied m slot (delete { m with impl := update m.impl slot none } curr) := by
  obtain ⟨himpl, htop, hupdating, hupdates⟩ :=
    hd.same { m with impl := update m.impl slot none } curr
  refine ⟨?_, fun slot' hne => ?_, .inl htop, ⟨hupdating, hupdates⟩, @fun g hg => ?_⟩
  · rw [himpl]
    exact update_self _ _ _
  · rw [himpl]
    exact update_of_ne hne _ _
  · have hplaces := places_update { m with impl := update m.impl slot none } slot none g
      m.impl rfl
    have hsum : m.places g = ∑ slot, if m.impl slot = some g then 1 else 0 := rfl
    rw [hslot, ← hsum] at hplaces
    simp only [some.injEq, reduceCtorEq, if_false, add_zero] at hplaces
    rw [hd.held hg, MotionMaster.held, MotionMaster.held]
    change _ + m.expired g + m.deleted.count g + _ = _
    omega

theorem emptied_mutateBegin (m : MotionMaster) (slot : MovementSlot) :
    Emptied m slot (m.mutateBegin slot) := by
  cases hslot : m.impl slot with
  | none =>
    simp only [mutateBegin, hslot]
    split
    · exact ⟨hslot, fun _ _ => rfl, .inr rfl, ⟨rfl, rfl⟩, fun _ => rfl⟩
    · exact ⟨hslot, fun _ _ => rfl, .inl rfl, ⟨rfl, rfl⟩, fun _ => rfl⟩
  | some curr =>
    simp only [mutateBegin, hslot]
    split
    · exact emptied_delete deletes_delayedDelete hslot
    · exact emptied_delete deletes_directDelete hslot

/-- Only a finalizer deletes at once. -/
theorem deleted_mutateBegin (m : MotionMaster) (slot : MovementSlot) :
    (¬m.Finalizes slot ∧ (m.mutateBegin slot).deleted = m.deleted) ∨
      ∃ curr, m.impl slot = some curr ∧ ¬isStatic curr ∧
        ¬(m.top = (slot.val : ℤ) ∧ m.updating = true) ∧
        (m.mutateBegin slot).deleted = curr :: m.deleted := by
  cases hslot : m.impl slot with
  | none =>
    refine .inl ⟨?_, ?_⟩
    · rintro ⟨curr, hcurr, -⟩
      cases hslot.symm.trans hcurr
    · simp only [mutateBegin, hslot]
      split <;> rfl
  | some curr =>
    simp only [mutateBegin, hslot]
    by_cases htop : m.top = (slot.val : ℤ) ∧ m.updating = true
    · rw [if_pos htop]
      exact .inl ⟨fun ⟨_, _, _, hnot⟩ => hnot htop, deleted_delayedDelete _ _⟩
    · rw [if_neg htop, directDelete]
      by_cases hstatic : isStatic curr
      · rw [if_pos hstatic]
        refine .inl ⟨fun ⟨other, hother, hnot, _⟩ => hnot ?_, rfl⟩
        exact some.inj (hslot.symm.trans hother) ▸ hstatic
      · rw [if_neg hstatic]
        exact .inr ⟨curr, rfl, hstatic, htop, rfl⟩

theorem mutateEnd_eq (m : MotionMaster) (mv : Movement) (slot : MovementSlot) :
    ∃ needInit, m.mutateEnd mv slot =
      { m with impl := update m.impl slot (some mv), needInit := needInit } := by
  simp only [mutateEnd]
  split <;> exact ⟨_, rfl⟩

/-- The slot is filled, and what was in it is overwritten. -/
theorem held_mutateEnd (m : MotionMaster) (mv : Movement) (slot : MovementSlot) (g : Movement) :
    (m.mutateEnd mv slot).held g + (if m.impl slot = some g then 1 else 0) =
      m.held g + if mv = g then 1 else 0 := by
  obtain ⟨needInit, heq⟩ := mutateEnd_eq m mv slot
  have hplaces := places_update (m.mutateEnd mv slot) slot (some mv) g m.impl (by rw [heq])
  have hsum : m.places g = ∑ slot, if m.impl slot = some g then 1 else 0 := rfl
  have hexpired : (m.mutateEnd mv slot).expired g = m.expired g := by rw [heq]; rfl
  have hdeleted : (m.mutateEnd mv slot).deleted = m.deleted := by rw [heq]
  simp only [some.injEq] at hplaces
  rw [held, held, hexpired, hdeleted]
  omega

theorem topped_mutateEnd {slot : MovementSlot} (hge : 0 ≤ m.top) (hlt : m.top < maxMotionSlot)
    (hfilled : ∀ slot' ≠ slot, m.top = (slot'.val : ℤ) → m.impl slot' ≠ none) (mv : Movement) :
    (m.mutateEnd mv slot).Topped ∧ SameFlags m (m.mutateEnd mv slot) ∧
      (m.mutateEnd mv slot).deleted = m.deleted := by
  obtain ⟨needInit, heq⟩ := mutateEnd_eq m mv slot
  rw [heq]
  refine ⟨⟨hge, hlt, fun slot' htop => ?_⟩, ⟨rfl, rfl⟩, rfl⟩
  by_cases hne : slot' = slot
  · subst hne
    change update m.impl slot' (some mv) slot' ≠ none
    rw [update_self]
    exact some_ne_none mv
  · change update m.impl slot (some mv) slot' ≠ none
    rw [update_of_ne hne]
    exact hfilled slot' hne htop

namespace Updating

variable {u u' : Updating} {running g : Movement}

/-- A generator on top is updating. -/
structure Running (u : Updating) : Prop where
  topped : u.motion.Topped
  updating : u.motion.updating = true
  updates : 0 < u.motion.updates

/-- How often a generator is held, waits to be put into a slot, or was overwritten. -/
def total (u : Updating) (g : Movement) : ℕ :=
  u.motion.held g + (u.pending.map Prod.fst).count g + u.overwritten.count g

/-- The generators that a call brings. -/
def brought : UpdateCall → List Movement
  | .mutate mv _ => [mv]
  | .finalized | .clear _ | .movementExpired _ => []

/-- The call neither deletes the generator that is updating, nor overwrites another one, nor
searches the stack below its lowest slot. -/
def Careful (running : Movement) (u : Updating) : UpdateCall → Prop
  | .mutate _ slot => u.motion.impl slot = some running →
      isStatic running ∨ u.motion.top = (slot.val : ℤ)
  | .finalized => ∀ mv slot pending, u.pending = (mv, slot) :: pending →
      ∀ curr, u.motion.impl slot = some curr → isStatic curr
  | .clear _ => u.motion.impl motionSlotIdle ≠ none
  | .movementExpired _ => u.motion.CanExpire

/-- The generator that is updating was not deleted, and no generator was overwritten. -/
structure Unharmed (running : Movement) (u : Updating) : Prop where
  kept : ¬isStatic running → running ∉ u.motion.deleted
  overwritten : ∀ g ∈ u.overwritten, isStatic g

/-- What happens from `u` to `u'`, where the generators `brought` came, and the calls were careful
or not. Harm is never undone. -/
structure Passes (running : Movement) (u u' : Updating) (brought : List Movement)
    (careful : Prop) : Prop where
  runs : Running u'
  total : ∀ {g}, ¬isStatic g → u'.total g = u.total g + brought.count g
  deleted : u.motion.deleted <:+ u'.motion.deleted
  overwritten : u.overwritten <:+ u'.overwritten
  unharmed : careful → Unharmed running u → Unharmed running u'
  harmed : ¬careful → ¬Unharmed running u'

theorem Unharmed.of_suffix (h : Unharmed running u')
    (hdeleted : u.motion.deleted <:+ u'.motion.deleted)
    (hoverwritten : u.overwritten <:+ u'.overwritten) : Unharmed running u :=
  ⟨fun hs hmem => h.kept hs (hdeleted.subset hmem),
    fun g hmem => h.overwritten g (hoverwritten.subset hmem)⟩

theorem Passes.refl (h : Running u) : Passes running u u [] True :=
  ⟨h, fun _ => rfl, suffix_rfl, suffix_rfl, fun _ hu => hu, fun hc => absurd trivial hc⟩

theorem Passes.trans {u'' : Updating} {brought brought' : List Movement} {careful careful' : Prop}
    (h : Passes running u u' brought careful) (h' : Passes running u' u'' brought' careful') :
    Passes running u u'' (brought ++ brought') (careful ∧ careful') := by
  refine ⟨h'.runs, @fun g hg => ?_, h.deleted.trans h'.deleted,
    h.overwritten.trans h'.overwritten, fun hc hu => h'.unharmed hc.2 (h.unharmed hc.1 hu),
    fun hc hu => ?_⟩
  · rw [h'.total hg, h.total hg, count_append, add_assoc]
  · have hu' : Unharmed running u' := hu.of_suffix h'.deleted h'.overwritten
    by_cases hcareful : careful
    · exact h'.harmed (fun hcareful' => hc ⟨hcareful, hcareful'⟩) hu
    · exact h.harmed hcareful hu'

variable (selectMovementGenerator : MotionMaster → Movement)

theorem serve_mutate (h : Running u) (mv : Movement) (slot : MovementSlot) :
    ∃ u', u.serve selectMovementGenerator (.mutate mv slot) = .ok u' ∧
      Passes running u u' [mv] (Careful running u (.mutate mv slot)) := by
  have hempty := emptied_mutateBegin u.motion slot
  have hge := h.topped.top_nonneg
  have hlt := h.topped.top_lt
  have hslot : (slot.val : ℤ) < maxMotionSlot := Int.ofNat_lt.2 slot.2
  rcases deleted_mutateBegin u.motion slot with
    ⟨hnot, hdeleted⟩ | ⟨curr, hcurr, hstatic, htop, hdeleted⟩
  · -- no finalizer is called
    have hfilled : ∀ slot' ≠ slot, (u.motion.mutateBegin slot).top = (slot'.val : ℤ) →
        (u.motion.mutateBegin slot).impl slot' ≠ none := by
      intro slot' hne htop
      rw [hempty.others slot' hne]
      rcases hempty.top with hsame | hraised
      · exact h.topped.top_filled slot' (hsame.symm.trans htop)
      · exact absurd (Fin.ext (Int.ofNat.inj (htop.symm.trans hraised))) hne
    obtain ⟨htopped, hflags, hkept⟩ := topped_mutateEnd (by rcases hempty.top with h | h <;> omega)
      (by rcases hempty.top with h | h <;> omega) hfilled mv
    rw [serve, if_neg hnot, mutate_eq]
    refine ⟨_, rfl, ⟨htopped, ?_, ?_⟩, @fun g hg => ?_, ?_, suffix_rfl, fun _ hu => ?_,
      fun hcareless => ?_⟩
    · exact (hflags.updating.trans hempty.flags.updating).trans h.updating
    · exact ((hflags.updates.trans hempty.flags.updates).symm ▸ h.updates :)
    · have hheld := held_mutateEnd (u.motion.mutateBegin slot) mv slot g
      rw [hempty.slot_none, hempty.held hg] at hheld
      simp only [reduceCtorEq, if_false, add_zero] at hheld
      simp only [total, count_cons, count_nil, beq_iff_eq, hheld]
      omega
    · rw [hkept, hdeleted]
    · refine ⟨fun hs => ?_, hu.overwritten⟩
      rw [hkept, hdeleted]
      exact hu.kept hs
    · refine absurd (fun himpl => ?_) hcareless
      by_contra hneither
      rw [not_or] at hneither
      exact hnot ⟨running, himpl, hneither.1, fun h => hneither.2 h.1⟩
  · have hbelow : u.motion.top ≠ (slot.val : ℤ) := fun heq => htop ⟨heq, h.updating⟩
    have hsame : (u.motion.mutateBegin slot).top = u.motion.top := by
      simp only [mutateBegin, hcurr, if_neg htop]
      exact (sameStack_directDelete _ curr).top
    rw [serve, if_pos ⟨curr, hcurr, hstatic, htop⟩]
    refine ⟨_, rfl, ⟨⟨?_, ?_, fun slot' heq => ?_⟩, ?_, ?_⟩, @fun g hg => ?_, ?_, suffix_rfl,
      fun hcareful hu => ?_, fun hcareless hu => ?_⟩
    · rwa [hsame]
    · rwa [hsame]
    · rw [hsame] at heq
      rw [hempty.others slot' fun h => hbelow (h ▸ heq)]
      exact h.topped.top_filled slot' heq
    · exact hempty.flags.updating.trans h.updating
    · exact (hempty.flags.updates.symm ▸ h.updates :)
    · simp only [total, hempty.held hg, map_cons, count_cons, count_nil]
      omega
    · rw [hdeleted]
      exact suffix_cons _ _
    · refine ⟨fun hs => ?_, hu.overwritten⟩
      rw [hdeleted, mem_cons, not_or]
      refine ⟨?_, hu.kept hs⟩
      rintro rfl
      exact (hcareful hcurr).elim hs hbelow
    · have hrunning : curr = running := by
        by_contra hne
        exact hcareless fun himpl => absurd (some.inj (hcurr.symm.trans himpl)) hne
      subst hrunning
      refine hu.kept hstatic ?_
      rw [hdeleted]
      exact mem_cons_self

theorem serve_finalized (h : Running u) :
    ∃ u', u.serve selectMovementGenerator .finalized = .ok u' ∧
      Passes running u u' [] (Careful running u .finalized) := by
  rw [serve]
  cases hpending : u.pending with
  | nil =>
    refine ⟨u, rfl, h, fun _ => rfl, suffix_rfl, suffix_rfl, fun _ hu => hu,
      fun hcareless => absurd (fun mv slot pending heq => ?_) hcareless⟩
    cases hpending.symm.trans heq
  | cons waiting pending =>
    obtain ⟨mv, slot⟩ := waiting
    have hcareful : Careful running u .finalized ↔
        ∀ curr, u.motion.impl slot = some curr → isStatic curr := by
      refine ⟨fun hc => hc mv slot pending hpending, fun hc mv' slot' pending' heq => ?_⟩
      obtain ⟨⟨rfl, rfl⟩, rfl⟩ := hpending.symm.trans heq
      exact hc
    obtain ⟨htopped, hflags, hkept⟩ := @topped_mutateEnd _ slot h.topped.top_nonneg
      h.topped.top_lt (fun slot' _ => h.topped.top_filled slot') mv
    refine ⟨_, rfl, ⟨htopped, ?_, ?_⟩, @fun g hg => ?_, ?_, suffix_append _ _,
      fun hc hu => ?_, fun hcareless hu => ?_⟩
    · exact hflags.updating.trans h.updating
    · exact (hflags.updates.symm ▸ h.updates :)
    · have hheld := held_mutateEnd u.motion mv slot g
      have hslot : (u.motion.impl slot).toList.count g =
          if u.motion.impl slot = some g then 1 else 0 := by
        cases u.motion.impl slot <;> simp [count_singleton]
      simp only [total, hpending, map_cons, count_cons, count_append, hslot,
        count_nil, beq_iff_eq]
      omega
    · rw [hkept]
    · refine ⟨fun hs => ?_, fun g hmem => ?_⟩
      · rw [hkept]
        exact hu.kept hs
      · rcases mem_append.1 hmem with hslot | hold
        · exact hcareful.1 hc g (mem_toList.1 hslot)
        · exact hu.overwritten g hold
    · refine hcareless (hcareful.2 fun curr hcurr => hu.overwritten curr ?_)
      exact mem_append_left _ (mem_toList.2 hcurr)

/-- Generators only go from the top to `_expList`. -/
theorem Passes.of_shifts {m : MotionMaster} (h : Running u) (hs : Shifts false u.motion m)
    {careful : Prop} (hcareful : careful) : Passes running u { u with motion := m } [] careful := by
  refine ⟨⟨hs.topped, hs.flags.updating.trans h.updating, (hs.flags.updates.symm ▸ h.updates :)⟩,
    @fun g hg => ?_, ?_, suffix_rfl, fun _ hu => ⟨fun hstatic => ?_, hu.overwritten⟩,
    fun hcareless => absurd hcareful hcareless⟩
  · simp only [Updating.total, hs.held hg, count_nil, add_zero]
  · rw [hs.deleted rfl]
  · rw [hs.deleted rfl]
    exact hu.kept hstatic

/-- A call passes, or it searches the stack below its lowest slot. -/
theorem Running.serve (h : Running u) (call : UpdateCall) :
    (∃ u', u.serve selectMovementGenerator call = .ok u' ∧
      Passes running u u' (brought call) (Careful running u call)) ∨
    (¬Careful running u call ∧ u.serve selectMovementGenerator call = .error .outside) := by
  cases call with
  | mutate mv slot => exact .inl (serve_mutate selectMovementGenerator h mv slot)
  | finalized => exact .inl (serve_finalized selectMovementGenerator h)
  | clear reset =>
    rcases h.topped.clear h.updating reset with ⟨hidle, m, heq, hs⟩ | ⟨hidle, heq⟩
    · exact .inl ⟨_, by rw [Updating.serve, heq]; rfl, .of_shifts h hs hidle⟩
    · exact .inr ⟨not_not_intro hidle, by rw [Updating.serve, heq]; rfl⟩
  | movementExpired reset =>
    rcases h.topped.movementExpired h.updating reset with ⟨hcan, m, heq, hs⟩ | ⟨hcan, heq⟩
    · exact .inl ⟨_, by rw [Updating.serve, heq]; rfl, .of_shifts h hs hcan⟩
    · exact .inr ⟨hcan, by rw [Updating.serve, heq]; rfl⟩

/-- The call is careful when it is made. -/
def CarefulAt (running : Movement) (r : Except Fault Updating) (call : UpdateCall) : Prop :=
  ∀ u, r = .ok u → Careful running u call

theorem run_error (fault : Fault) (calls : List UpdateCall) :
    run (step selectMovementGenerator) (.error fault) calls = .error fault := by
  induction calls with
  | nil => rfl
  | cons call calls ih => exact ih

/-- The calls pass, or one of them searches the stack below its lowest slot. -/
theorem Running.run (calls : List UpdateCall) : ∀ {u : Updating}, Running u →
    (∃ u', Machine.run (step selectMovementGenerator) (.ok u) calls = .ok u' ∧
      Passes running u u' (calls.flatMap brought)
        (Along (step selectMovementGenerator) (CarefulAt running) (.ok u) calls)) ∨
    (¬Along (step selectMovementGenerator) (CarefulAt running) (.ok u) calls ∧
      Machine.run (step selectMovementGenerator) (.ok u) calls = .error .outside) := by
  induction calls with
  | nil => exact fun h => .inl ⟨_, rfl, .refl h⟩
  | cons call calls ih =>
    intro u h
    have hcareful : CarefulAt running (.ok u) call ↔ Careful running u call :=
      ⟨fun hall => hall u rfl, fun hc _ heq => Except.ok.inj heq ▸ hc⟩
    rw [run_cons, Along, hcareful]
    change (∃ u', Machine.run _ (u.serve selectMovementGenerator call) calls = .ok u' ∧
      Passes running u u' _ (_ ∧ Along _ _ (u.serve selectMovementGenerator call) calls)) ∨
      (¬(_ ∧ Along _ _ (u.serve selectMovementGenerator call) calls) ∧
        Machine.run _ (u.serve selectMovementGenerator call) calls = .error .outside)
    rcases h.serve selectMovementGenerator call with ⟨u', heq, hpasses⟩ | ⟨hcareless, heq⟩
    · rw [heq]
      rcases ih hpasses.runs with ⟨u'', hrun, hrest⟩ | ⟨hcareless, hrun⟩
      · exact .inl ⟨u'', hrun, hpasses.trans hrest⟩
      · exact .inr ⟨fun hc => hcareless hc.2, hrun⟩
    · rw [heq, run_error]
      exact .inr ⟨fun hc => hcareless hc.1, rfl⟩

end Updating

/-! ## The end of an update -/

theorem Topped.resumeTop (h : m.Topped) (reset : Bool) :
    ∃ needInit, m.resumeTop reset = .ok { m with needInit := needInit } := by
  obtain ⟨slot, -, hat⟩ := h.slotAt_top
  obtain ⟨mv, hmv⟩ := h.topGenerator
  simp only [MotionMaster.resumeTop, needInitTop, initTop, hat, hmv, bind, Except.bind, pure,
    Except.pure]
  split
  · exact ⟨_, rfl⟩
  · split
    · exact ⟨m.needInit, rfl⟩
    · exact ⟨m.needInit, rfl⟩

variable (selectMovementGenerator) in
theorem Topped.directExpire (h : m.Topped) (reset : Bool) :
    (m.CanExpire ∧ ∃ m', m.directExpire selectMovementGenerator reset = .ok m' ∧
      Shifts true m m') ∨
    (¬m.CanExpire ∧ m.directExpire selectMovementGenerator reset = .error .outside) := by
  rw [MotionMaster.directExpire]
  rcases deletes_directDelete.expire h with ⟨hcan, m', heq, hm⟩ | ⟨hcan, heq⟩
  · obtain ⟨needInit, hresume⟩ := hm.topped.resumeTop reset
    refine .inl ⟨hcan, { m' with needInit := needInit }, ?_,
      hm.trans ⟨⟨hm.topped.1, hm.topped.2, hm.topped.3⟩, ⟨rfl, rfl⟩, fun _ => rfl, fun _ => rfl⟩⟩
    rw [heq]
    simp only [bind, Except.bind]
    rw [if_neg (show ¬m'.empty from Int.not_lt.2 hm.topped.top_nonneg)]
    exact hresume
  · exact .inr ⟨hcan, by rw [heq]; rfl⟩

theorem expList_directDelete (m : MotionMaster) (curr : Movement) :
    (m.directDelete curr).expList = m.expList := by
  rw [directDelete]
  split <;> rfl

theorem held_foldl_directDelete (hg : ¬isStatic g) (expired : List Movement) :
    ∀ m : MotionMaster, (expired.foldl directDelete m).held g = m.held g + expired.count g ∧
      (expired.foldl directDelete m).expList = m.expList := by
  induction expired with
  | nil => exact fun m => ⟨rfl, rfl⟩
  | cons curr expired ih =>
    intro m
    obtain ⟨hheld, hlist⟩ := ih (m.directDelete curr)
    have hfirst := held_directDelete hg m curr
    have hcount : (curr :: expired).count g = expired.count g + if curr = g then 1 else 0 := by
      simp only [count_cons, beq_iff_eq]
    exact ⟨by rw [foldl_cons]; omega, hlist.trans (expList_directDelete m curr)⟩

variable (selectMovementGenerator) in
/-- The expired generators are deleted, each as often as it expired. -/
theorem Topped.deleteExpired (h : m.Topped) :
    ∃ m', m.deleteExpired selectMovementGenerator = .ok m' ∧ m'.expList = none ∧
      ∀ {g}, ¬isStatic g → m'.held g = m.held g := by
  rw [MotionMaster.deleteExpired]
  cases hlist : m.expList with
  | none => exact ⟨m, rfl, hlist, fun _ => rfl⟩
  | some expired =>
    obtain ⟨himpl, htop, -, -⟩ := sameStack_foldl_directDelete expired m
    have htopped : Topped { expired.foldl directDelete m with expList := none } :=
      ⟨htop ▸ h.top_nonneg, htop ▸ h.top_lt, fun slot heq =>
        himpl ▸ h.top_filled slot (htop ▸ heq)⟩
    obtain ⟨needInit, hresume⟩ := htopped.resumeTop (expired.foldl directDelete m).resetting
    simp only [bind, Except.bind]
    rw [if_neg (show ¬MotionMaster.empty _ from Int.not_lt.2 htopped.top_nonneg), hresume]
    refine ⟨_, rfl, rfl, @fun g hg => ?_⟩
    obtain ⟨hheld, hkept⟩ := held_foldl_directDelete hg expired m
    have hexpired : (expired.foldl directDelete m).expired g = expired.count g := by
      rw [MotionMaster.expired, hkept, hlist]
      rfl
    change (expired.foldl directDelete m).places g + 0 +
      (expired.foldl directDelete m).deleted.count g = m.held g
    unfold held at hheld ⊢
    omega

variable (selectMovementGenerator) in
theorem Topped.endUpdate (h : m.Topped) (hupdates : 0 < m.updates) (answer : Bool) :
    ((answer = true ∨ m.CanExpire) ∧ ∃ m', m.endUpdate selectMovementGenerator answer = .ok m' ∧
      m'.expList = none ∧ ∀ {g}, ¬isStatic g → m'.held g = m.held g) ∨
    (¬(answer = true ∨ m.CanExpire) ∧
      m.endUpdate selectMovementGenerator answer = .error .outside) := by
  rw [MotionMaster.endUpdate, if_neg hupdates.ne']
  have hended : Topped { m with updating := false, updates := m.updates - 1 } := ⟨h.1, h.2, h.3⟩
  cases answer with
  | true =>
    obtain ⟨m', heq, hlist, hheld⟩ := hended.deleteExpired selectMovementGenerator
    exact .inl ⟨.inl rfl, m', heq, hlist, hheld⟩
  | false =>
    simp only [Bool.false_eq_true, false_or, if_false]
    have hexpired : MotionMaster.movementExpired selectMovementGenerator
          { m with updating := false, updates := m.updates - 1 } true =
        MotionMaster.directExpire selectMovementGenerator
          { m with updating := false, updates := m.updates - 1 } true := rfl
    rw [hexpired]
    rcases hended.directExpire selectMovementGenerator true with
      ⟨hcan, m', heq, hm⟩ | ⟨hcan, heq⟩
    · obtain ⟨m'', hdeleted, hlist, hheld⟩ := hm.topped.deleteExpired selectMovementGenerator
      exact .inl ⟨hcan, m'', by rw [heq]; exact hdeleted, hlist,
        fun hg => (hheld hg).trans (hm.held hg)⟩
    · exact .inr ⟨hcan, by rw [heq]; rfl⟩

/-! ## Whole updates -/

/-- A stack with a movement, between two updates. -/
structure Resting (m : MotionMaster) : Prop where
  topped : m.Topped
  updating : m.updating = false
  updates : m.updates = 0
  expList : m.expList = none
  deleted : m.deleted = []

/-- The generator is in a slot when the update begins, or comes during it. -/
def Known (m : MotionMaster) (calls : List UpdateCall) (g : Movement) : Prop :=
  (∃ slot, m.impl slot = some g) ∨ g ∈ calls.flatMap Updating.brought

/-- Each generator that comes is a new one. -/
def Fresh (m : MotionMaster) (calls : List UpdateCall) : Prop :=
  ∀ g, ¬isStatic g → m.places g + (calls.flatMap Updating.brought).count g ≤ 1

/-- The update of `running` ends, it is not deleted before it has returned, and every generator that
is gone at the end was deleted once. -/
def UpdateSafe (selectMovementGenerator : MotionMaster → Movement) (m : MotionMaster)
    (running : Movement) (calls : List UpdateCall) (answer : Bool) : Prop :=
  m.topGenerator = .ok running ∧ ∃ u m',
    updateMotion selectMovementGenerator m calls answer = .ok (u, m') ∧
    (isStatic running ∨ running ∉ u.motion.deleted) ∧
    ∀ g, ¬isStatic g → Known m calls g → (∀ slot, m'.impl slot ≠ some g) → m'.deleted.count g = 1

theorem Resting.startUpdate (h : m.Resting) :
    ∃ u, m.startUpdate = .ok u ∧ Updating.Running u ∧ (∀ running, Updating.Unharmed running u) ∧
      ∀ g, u.total g = m.places g := by
  obtain ⟨mv, hmv⟩ := h.topped.topGenerator
  refine ⟨{ motion := { m with updating := true, updates := m.updates + 1 } }, ?_,
    ⟨⟨h.topped.1, h.topped.2, h.topped.3⟩, rfl, Nat.succ_pos _⟩, fun running => ⟨fun _ => ?_, ?_⟩,
    fun g => ?_⟩
  · have hne : ¬m.empty := Int.not_lt.2 h.topped.top_nonneg
    have hgenerator : { m with updating := true }.topGenerator = .ok mv := hmv
    simp only [MotionMaster.startUpdate, MotionMaster.beginUpdate, Bool.false_eq_true, if_false,
      if_neg hne, hgenerator, bind, Except.bind, pure, Except.pure, Except.map]
  · rw [h.deleted]
    exact not_mem_nil
  · exact fun _ hmem => absurd hmem not_mem_nil
  · simp only [Updating.total, held, expired, h.expList, h.deleted, map_nil, count_nil,
      getD_none, add_zero]
    rfl

end MotionMaster

open MotionMaster

/-- An update ends, deletes the generator that updates only after it has returned, and deletes every
generator that goes once, exactly when each call is careful when it is made, and the movement can
expire if the generator says so. -/
theorem update_safe_iff (selectMovementGenerator : MotionMaster → Movement) {m : MotionMaster}
    (hm : m.Resting) {running : Movement} (hrunning : m.topGenerator = .ok running)
    {calls : List UpdateCall} (hfresh : Fresh m calls)
    (hreturned : ∀ u, run (Updating.step selectMovementGenerator) m.startUpdate calls = .ok u →
      u.pending = []) (answer : Bool) :
    UpdateSafe selectMovementGenerator m running calls answer ↔
      Along (Updating.step selectMovementGenerator) (Updating.CarefulAt running) m.startUpdate
        calls ∧
      ∀ u, run (Updating.step selectMovementGenerator) m.startUpdate calls = .ok u →
        answer = true ∨ u.motion.CanExpire := by
  obtain ⟨u, hstart, hu, hunharmed, htotal⟩ := hm.startUpdate
  rw [hstart] at hreturned ⊢
  rcases @Updating.Running.run running selectMovementGenerator calls u hu with
    ⟨u', hrun, hpasses⟩ | ⟨hcareless, hrun⟩
  · have hupdate : updateMotion selectMovementGenerator m calls answer =
        (u'.motion.endUpdate selectMovementGenerator answer).map fun m => (u', m) := by
      rw [updateMotion, hstart, hrun]
      rfl
    -- where each generator is when the update ends
    have haccount : ∀ {g}, ¬isStatic g →
        u'.motion.held g + u'.overwritten.count g =
          m.places g + (calls.flatMap Updating.brought).count g := fun {g} hg => by
      have h := hpasses.total hg
      rw [Updating.total, hreturned u' hrun, htotal] at h
      simpa only [map_nil, count_nil, add_zero] using h
    have hlast : (∀ u, run (Updating.step selectMovementGenerator) (.ok u') [] = .ok u →
        answer = true ∨ u.motion.CanExpire) ↔ answer = true ∨ u'.motion.CanExpire :=
      ⟨fun hall => hall u' rfl, fun h _ heq => Except.ok.inj heq ▸ h⟩
    rw [run_nil] at hlast
    rw [hrun, hlast]
    rcases hpasses.runs.topped.endUpdate selectMovementGenerator hpasses.runs.updates answer with
      ⟨hcan, m', hend, hlist, hheld⟩ | ⟨hcan, hend⟩
    · have hknown : ∀ {g}, ¬isStatic g → Known m calls g →
          m'.places g + m'.deleted.count g + u'.overwritten.count g = 1 := fun {g} hg hk => by
        have hle := hfresh g hg
        have hpos : 0 < m.places g + (calls.flatMap Updating.brought).count g := by
          rcases hk with hslot | hbrought
          · have := places_pos_iff.2 hslot
            omega
          · have := count_pos_iff.2 hbrought
            omega
        have h := haccount hg
        rw [← hheld hg, held, expired, hlist] at h
        simp only [getD_none, count_nil, add_zero] at h
        omega
      constructor
      · rintro ⟨-, _, _, heq, hkept, honce⟩
        rw [hupdate, hend] at heq
        obtain ⟨rfl, rfl⟩ := Prod.mk.inj (Except.ok.inj heq)
        refine ⟨?_, hcan⟩
        by_contra hcareless
        refine hpasses.harmed hcareless ⟨fun hs => hkept.resolve_left hs, fun g hg => ?_⟩
        by_contra hstatic
        have hcount := count_pos_iff.2 hg
        have hk : Known m calls g := by
          have h := haccount hstatic
          rcases eq_zero_or_pos (m.places g) with hzero | hpos
          · exact .inr (count_pos_iff.1 (by omega))
          · exact .inl (places_pos_iff.1 hpos)
        have h := hknown hstatic hk
        have hdeleted : m'.deleted.count g = 1 := honce g hstatic hk fun slot hslot => by
          have := places_pos_iff.2 ⟨slot, hslot⟩
          omega
        omega
      · rintro ⟨hcareful, -⟩
        have hharm := hpasses.unharmed hcareful (hunharmed running)
        refine ⟨hrunning, u', m', by rw [hupdate, hend]; rfl, or_iff_not_imp_left.2 hharm.kept,
          fun g hg hk hgone => ?_⟩
        have hzero : u'.overwritten.count g = 0 :=
          count_eq_zero.2 fun hmem => hg (hharm.overwritten g hmem)
        have hplaces : ¬0 < m'.places g := fun hpos => by
          obtain ⟨slot, hslot⟩ := places_pos_iff.1 hpos
          exact hgone slot hslot
        have := hknown hg hk
        omega
    · refine iff_of_false ?_ fun h => hcan h.2
      rintro ⟨-, _, _, heq, -⟩
      rw [hupdate, hend] at heq
      cases heq
  · refine iff_of_false ?_ fun h => hcareless h.1
    rintro ⟨-, _, _, heq, -⟩
    rw [updateMotion, hstart, hrun] at heq
    cases heq

/-- A generator in a slot, with nothing above it. -/
def alone (slot : MovementSlot) : MotionMaster where
  impl := update (fun _ => none) slot (some (.generator 0))
  needInit := fun _ => false
  top := slot.val

theorem resting_alone (slot : MovementSlot) : (alone slot).Resting := by
  refine ⟨⟨Int.natCast_nonneg _, Int.ofNat_lt.2 slot.2, fun slot' htop => ?_⟩, rfl, rfl, rfl, rfl⟩
  obtain rfl : slot = slot' := Fin.ext (Int.ofNat.inj htop)
  change update (fun _ => none) slot (some (Movement.generator 0)) slot ≠ none
  rw [update_self]
  exact some_ne_none _

theorem topGenerator_alone (slot : MovementSlot) :
    (alone slot).topGenerator = .ok (.generator 0) := by
  simp only [topGenerator, alone, slotAt_val, bind, Except.bind, update_self]

theorem places_alone (slot : MovementSlot) (g : Movement) :
    (alone slot).places g = if Movement.generator 0 = g then 1 else 0 := by
  have h := places_update (alone slot) slot (some (.generator 0)) g (fun _ => none) rfl
  simpa using h

/-- Another generator above the one that updates, and then a third one in the slot of the first. -/
def twoMutations (slot slot' : MovementSlot) : List UpdateCall :=
  [.mutate (.generator 1) slot, .mutate (.generator 2) slot', .finalized]

theorem fresh_twoMutations (start slot slot' : MovementSlot) :
    Fresh (alone start) (twoMutations slot slot') := by
  intro g _
  rw [places_alone]
  have hbrought : (twoMutations slot slot').flatMap Updating.brought =
      [.generator 1, .generator 2] := rfl
  rw [hbrought]
  have hnodup : [Movement.generator 0, .generator 1, .generator 2].Nodup := by decide
  have hle := nodup_iff_count_le_one.1 hnodup g
  simp only [count_cons, beq_iff_eq] at hle ⊢
  omega

/-- The generator in the active slot is replaced, and another one comes into the idle slot. -/
theorem update_safe_active :
    UpdateSafe (fun _ => .idleMovement) (alone ⟨1, by decide⟩) (.generator 0)
      (twoMutations ⟨1, by decide⟩ motionSlotIdle) true := by
  refine (update_safe_iff (fun _ => .idleMovement) (resting_alone _) (topGenerator_alone _)
    (fresh_twoMutations _ _ _) (fun u hu => ?_) true).2 ⟨?_, fun _ _ => .inl rfl⟩
  · cases hu
    rfl
  · refine ⟨fun u hu => ?_, fun u hu => ?_, fun u hu => ?_, trivial⟩
    · cases hu
      exact fun _ => .inr rfl
    · cases hu
      exact fun h => absurd h (by decide)
    · cases hu
      exact fun _ _ _ h => (nomatch h)

/-- The generator in the idle slot starts a movement above itself, and then another one in its own
slot : it is deleted at once. -/
theorem not_update_safe_idle :
    (alone motionSlotIdle).Resting ∧ (alone motionSlotIdle).topGenerator = .ok (.generator 0) ∧
      Fresh (alone motionSlotIdle) (twoMutations ⟨1, by decide⟩ motionSlotIdle) ∧
      ¬UpdateSafe (fun _ => .idleMovement) (alone motionSlotIdle) (.generator 0)
        (twoMutations ⟨1, by decide⟩ motionSlotIdle) true := by
  refine ⟨resting_alone _, topGenerator_alone _, fresh_twoMutations _ _ _, ?_⟩
  rintro ⟨-, u, m', heq, hkept, -⟩
  have hdeleted : (updateMotion (fun _ => .idleMovement) (alone motionSlotIdle)
      (twoMutations ⟨1, by decide⟩ motionSlotIdle) true).map (fun r => r.1.motion.deleted) =
      .ok [.generator 0] := by
    decide
  rw [heq] at hdeleted
  refine hkept.elim (by decide) fun hnot => hnot ?_
  rw [show u.motion.deleted = [.generator 0] from Except.ok.inj hdeleted]
  exact mem_cons_self

end MistyWorld
