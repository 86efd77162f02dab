import Mathlib.Data.Int.Notation
import Mathlib.Logic.Function.Basic
import MistyWorld.Run

/-!
# The movement stack

A `MotionMaster` has a slot for the idle, the active and the controlled movement of its owner, and
`_top` is the slot of the movement that counts. `pop` and the expiry of a movement go down from
`_top` past empty slots, and do not stop at the lowest one.

The generator on top may call the motion master from inside its `Update`, so an update is two
events, its begin and its end, with the calls in between. Reading a slot that there is not is a
fault (`Fault.outside`). A run has none, and keeps the stack in shape, exactly when a stack that is
initialized is empty, one that is cleared has an idle movement, and one whose movement expires has
another one below (`motion_run_iff`).

The generators are known by a number, and what they do to the owner is left out.
-/

open Function Machine

namespace MistyWorld

/-- `MAX_MOTION_SLOT` -/
def maxMotionSlot : ℕ :=
  3

/-- `MovementSlot` -/
abbrev MovementSlot :=
  Fin maxMotionSlot

/-- `MOTION_SLOT_IDLE` -/
def motionSlotIdle : MovementSlot :=
  ⟨0, by decide⟩

/-- A movement generator : `si_idleMovement`, or another one. -/
inductive Movement
  | idleMovement
  | generator (id : ℕ)
deriving DecidableEq

/-- `isStatic` -/
def isStatic (mv : Movement) : Prop :=
  mv = .idleMovement

instance (mv : Movement) : Decidable (isStatic mv) :=
  inferInstanceAs (Decidable (mv = .idleMovement))

/-- How a call goes wrong : it reads outside of the slots, it calls a generator that is not there,
or an assertion fails. -/
inductive Fault
  | outside
  | null
  | assertion
deriving DecidableEq

/-- `updating` and `resetting` are the flags `MMCF_UPDATE` and `MMCF_RESET`. `updates` counts the
calls of `UpdateMotion` under way, and `deleted` are the generators deleted. -/
structure MotionMaster where
  impl : MovementSlot → Option Movement := fun _ => none
  needInit : MovementSlot → Bool := fun _ => true
  top : ℤ := -1
  updating : Bool := false
  resetting : Bool := false
  expList : Option (List Movement) := none
  updates : ℕ := 0
  deleted : List Movement := []

/-- The slot with an index. -/
def slotAt : ℤ → Except Fault MovementSlot
  | .ofNat n => if h : n < maxMotionSlot then .ok ⟨n, h⟩ else .error .outside
  | .negSucc _ => .error .outside

namespace MotionMaster

variable (selectMovementGenerator : MotionMaster → Movement) (m : MotionMaster)

/-- `empty` -/
def empty : Prop :=
  m.top < 0

instance : Decidable m.empty :=
  inferInstanceAs (Decidable (m.top < 0))

/-- `size` -/
def size : ℤ :=
  m.top + 1

/-- `top`, where the generator is called. -/
def topGenerator : Except Fault Movement := do
  let slot ← slotAt m.top
  match m.impl slot with
  | none => .error .null
  | some mv => .ok mv

/-- `while (!top()) --_top;`, from the slot of an index on. -/
def skipFrom (m : MotionMaster) (n : ℕ) : Except Fault MotionMaster :=
  if h : n < maxMotionSlot then
    match m.impl ⟨n, h⟩, n with
    | some _, n => .ok { m with top := n }
    | none, 0 => .error .outside
    | none, n + 1 => m.skipFrom n
  else
    .error .outside

/-- `while (!top()) --_top;` -/
def skipEmpty : Except Fault MotionMaster :=
  match m.top with
  | .ofNat n => m.skipFrom n
  | .negSucc _ => .error .outside

/-- `pop` -/
def pop : Except Fault MotionMaster := do
  let slot ← slotAt m.top
  { m with impl := update m.impl slot none }.skipEmpty

/-- `needInitTop` -/
def needInitTop : Except Fault Bool := do
  let slot ← slotAt m.top
  return m.needInit slot

/-- `InitTop` -/
def initTop : Except Fault MotionMaster := do
  let _ ← m.topGenerator
  let slot ← slotAt m.top
  return { m with needInit := update m.needInit slot false }

/-- `DirectDelete` -/
def directDelete (curr : Movement) : MotionMaster :=
  if isStatic curr then m else { m with deleted := curr :: m.deleted }

/-- `DelayedDelete` -/
def delayedDelete (curr : Movement) : MotionMaster :=
  if isStatic curr then
    m
  else
    { m with expList := some (m.expList.getD [] ++ [curr]) }

/-- `Mutate` -/
def mutate (mv : Movement) (slot : MovementSlot) : MotionMaster :=
  let m := match m.impl slot with
    | some curr =>
      let m := { m with impl := update m.impl slot none }
      if m.top = slot.val ∧ m.updating then m.delayedDelete curr else m.directDelete curr
    | none => if m.top < slot.val then { m with top := slot.val } else m
  let m := { m with impl := update m.impl slot (some mv) }
  if (slot.val : ℤ) < m.top then
    { m with needInit := update m.needInit slot true }
  else
    { m with needInit := update m.needInit slot false }

/-- `while (size() > rest)` the movement on top is popped, and deleted by `delete`. -/
def clean (delete : MotionMaster → Movement → MotionMaster) (rest : ℤ) :
    ℕ → MotionMaster → Except Fault MotionMaster
  | 0, m => .ok m
  | turns + 1, m =>
    if m.size > rest then do
      let slot ← slotAt m.top
      let curr := m.impl slot
      let m ← m.pop
      clean delete rest turns (match curr with
        | some curr => delete m curr
        | none => m)
    else
      .ok m

/-- `Initialize` -/
def initializeStack : Except Fault MotionMaster := do
  let m ← clean directDelete 0 m.size.toNat m
  -- `InitDefault`
  return m.mutate (selectMovementGenerator m) motionSlotIdle

/-- What follows when the movement on top may be another one. -/
def resumeTop (reset : Bool) : Except Fault MotionMaster := do
  if ← m.needInitTop then
    m.initTop
  else if reset then do
    let _ ← m.topGenerator
    return m
  else
    return m

/-- `DirectClean` -/
def directClean (reset : Bool) : Except Fault MotionMaster := do
  let m ← clean directDelete 1 m.size.toNat m
  m.resumeTop reset

/-- `DelayedClean` -/
def delayedClean : Except Fault MotionMaster :=
  clean delayedDelete 1 m.size.toNat m

/-- The movement on top is popped when it is not the last one, and deleted by `delete`, and empty
slots are skipped. -/
def expire (delete : MotionMaster → Movement → MotionMaster) : Except Fault MotionMaster := do
  if m.size > 1 then
    let curr ← m.topGenerator
    let m ← m.pop
    (delete m curr).skipEmpty
  else
    m.skipEmpty

/-- `DirectExpire` -/
def directExpire (reset : Bool) : Except Fault MotionMaster := do
  let m ← m.expire directDelete
  if m.empty then
    m.initializeStack selectMovementGenerator
  else
    m.resumeTop reset

/-- `DelayedExpire` -/
def delayedExpire : Except Fault MotionMaster :=
  m.expire delayedDelete

/-- `Clear` -/
def clear (reset : Bool) : Except Fault MotionMaster :=
  if m.updating then
    { m with resetting := reset }.delayedClean
  else
    m.directClean reset

/-- `MovementExpired` -/
def movementExpired (reset : Bool) : Except Fault MotionMaster :=
  if m.updating then
    { m with resetting := reset }.delayedExpire
  else
    m.directExpire selectMovementGenerator reset

/-- `MoveIdle` -/
def moveIdle : Except Fault MotionMaster := do
  if m.empty then
    return m.mutate .idleMovement motionSlotIdle
  else
    let slot ← slotAt m.top
    if m.impl slot = some .idleMovement then
      return m
    else
      return m.mutate .idleMovement motionSlotIdle

/-- `UpdateMotion` up to the call of `Update` of the generator on top. An owner held by a root or a
stun is not updated. -/
def beginUpdate (held : Bool) : Except Fault MotionMaster := do
  if held then
    return m
  else if m.empty then
    .error .assertion
  else
    let m := { m with updating := true }
    let _ ← m.topGenerator
    return { m with updates := m.updates + 1 }

/-- The generators that expired during the update. -/
def deleteExpired : Except Fault MotionMaster := do
  match m.expList with
  | none => return m
  | some expired =>
    let m := { expired.foldl directDelete m with expList := none }
    let m ← if m.empty then m.initializeStack selectMovementGenerator else
      m.resumeTop m.resetting
    return { m with resetting := false }

/-- `UpdateMotion` from the answer of the generator on. -/
def endUpdate (answer : Bool) : Except Fault MotionMaster := do
  if m.updates = 0 then
    return m
  else
    let m := { m with updating := false, updates := m.updates - 1 }
    let m ← if answer then .ok m else m.movementExpired selectMovementGenerator true
    m.deleteExpired selectMovementGenerator

/-- The calls of a motion master, from outside or from inside an update. -/
inductive Call
  | initializeStack
  | mutate (mv : Movement) (slot : MovementSlot)
  | clear (reset : Bool)
  | movementExpired (reset : Bool)
  | moveIdle
  | beginUpdate (held : Bool)
  | endUpdate (answer : Bool)

/-- The motion master after a call. -/
def serve (m : MotionMaster) : Call → Except Fault MotionMaster
  | .initializeStack => m.initializeStack selectMovementGenerator
  | .mutate mv slot => .ok (m.mutate mv slot)
  | .clear reset => m.clear reset
  | .movementExpired reset => m.movementExpired selectMovementGenerator reset
  | .moveIdle => m.moveIdle
  | .beginUpdate held => m.beginUpdate held
  | .endUpdate answer => m.endUpdate selectMovementGenerator answer

/-- Nothing more is called after a fault. -/
def step (r : Except Fault MotionMaster) (call : Call) : Except Fault MotionMaster :=
  r.bind (serve selectMovementGenerator · call)

/-! ## The shape of the stack -/

variable {selectMovementGenerator : MotionMaster → Movement} {m m' : MotionMaster}
  {delete : MotionMaster → Movement → MotionMaster} {slot : MovementSlot}

/-- The shape that the calls rely on. An update begins with a generator on top, and the calls from
inside keep one. -/
structure Valid (m : MotionMaster) : Prop where
  top_ge : -1 ≤ m.top
  top_lt : m.top < maxMotionSlot
  above : ∀ slot : MovementSlot, m.top < slot.val → m.impl slot = none
  top_filled : ∀ slot : MovementSlot, m.top = slot.val → m.impl slot ≠ none
  updating : m.updating → 0 ≤ m.top
  updates : 0 < m.updates → 0 ≤ m.top

/-- There is a movement on top. -/
structure Topped (m : MotionMaster) : Prop where
  top_nonneg : 0 ≤ m.top
  top_lt : m.top < maxMotionSlot
  top_filled : ∀ slot : MovementSlot, m.top = slot.val → m.impl slot ≠ none

theorem Valid.topped (h : Valid m) (hne : 0 ≤ m.top) : Topped m :=
  ⟨hne, h.top_lt, h.top_filled⟩

/-- A slot below the top has a movement. -/
def FilledBelow (m : MotionMaster) : Prop :=
  ∃ slot : MovementSlot, (slot.val : ℤ) < m.top ∧ m.impl slot ≠ none

/-- A call changes only the slots and what is deleted. -/
structure SameFlags (m m' : MotionMaster) : Prop where
  updating : m'.updating = m.updating
  updates : m'.updates = m.updates

theorem slotAt_val (slot : MovementSlot) : slotAt slot.val = .ok slot :=
  dif_pos slot.2

theorem Topped.slotAt_top (h : Topped m) :
    ∃ slot : MovementSlot, m.top = slot.val ∧ slotAt m.top = .ok slot := by
  obtain ⟨n, hn⟩ := Int.eq_ofNat_of_zero_le h.top_nonneg
  have hlt : n < maxMotionSlot := by
    have := h.top_lt
    omega
  exact ⟨⟨n, hlt⟩, hn, hn ▸ slotAt_val ⟨n, hlt⟩⟩

theorem Topped.topGenerator (h : Topped m) : ∃ mv, m.topGenerator = .ok mv := by
  obtain ⟨slot, hslot, hat⟩ := h.slotAt_top
  obtain ⟨mv, hmv⟩ := Option.ne_none_iff_exists'.1 (h.top_filled slot hslot)
  refine ⟨mv, ?_⟩
  rw [MotionMaster.topGenerator, hat]
  simp only [bind, Except.bind, hmv]

theorem Valid.slotAt_top (h : Valid m) (hne : 0 ≤ m.top) :
    ∃ slot : MovementSlot, m.top = slot.val ∧ slotAt m.top = .ok slot :=
  (h.topped hne).slotAt_top

theorem Valid.topGenerator (h : Valid m) (hne : 0 ≤ m.top) : ∃ mv, m.topGenerator = .ok mv :=
  (h.topped hne).topGenerator

/-- Skipping ends at the highest movement, or goes on below the lowest slot. -/
theorem skipFrom_cases (m : MotionMaster) {n : ℕ} (hn : n < maxMotionSlot) :
    (∃ slot : MovementSlot, slot.val ≤ n ∧ m.impl slot ≠ none ∧
      (∀ slot' : MovementSlot, slot.val < slot'.val → slot'.val ≤ n → m.impl slot' = none) ∧
      m.skipFrom n = .ok { m with top := slot.val }) ∨
    ((∀ slot : MovementSlot, slot.val ≤ n → m.impl slot = none) ∧
      m.skipFrom n = .error .outside) := by
  rw [skipFrom.eq_def, dif_pos hn]
  cases hslot : m.impl ⟨n, hn⟩ with
  | some mv =>
    refine .inl ⟨⟨n, hn⟩, Nat.le.refl, by rw [hslot]; exact Option.some_ne_none mv, ?_, rfl⟩
    intro slot' hlt hle
    exact absurd hlt (Nat.not_lt.2 hle)
  | none =>
    have hat : ∀ slot : MovementSlot, slot.val = n → m.impl slot = none := by
      rintro ⟨k, hk⟩ rfl
      exact hslot
    cases n with
    | zero => exact .inr ⟨fun slot hle => hat slot (Nat.le_zero.1 hle), rfl⟩
    | succ n =>
      rcases skipFrom_cases m (n := n) (by omega) with ⟨slot, hle, hne, habove, heq⟩ | ⟨hnone, heq⟩
      · refine .inl ⟨slot, by omega, hne, fun slot' hlt hle' => ?_, heq⟩
        rcases Nat.lt_or_ge n slot'.val with h | h
        · exact hat slot' (by omega)
        · exact habove slot' hlt h
      · refine .inr ⟨fun slot hle => ?_, heq⟩
        rcases Nat.lt_or_ge n slot.val with h | h
        · exact hat slot (by omega)
        · exact hnone slot h

/-- Where there is a movement on top nothing is skipped. -/
theorem Topped.skipEmpty (h : Topped m) : m.skipEmpty = .ok m := by
  obtain ⟨slot, hslot, -⟩ := h.slotAt_top
  have hfilled := h.top_filled slot hslot
  have heq : m.skipEmpty = m.skipFrom slot.val := by
    rw [MotionMaster.skipEmpty, hslot]
  rcases skipFrom_cases m slot.2 with ⟨slot', hle, -, habove, hskip⟩ | ⟨hnone, -⟩
  · rcases Nat.lt_or_ge slot'.val slot.val with hlt | hge
    · exact absurd (habove slot hlt Nat.le.refl) hfilled
    · have htop : m.top = slot'.val := by omega
      rw [heq, hskip, ← htop]
  · exact absurd (hnone slot Nat.le.refl) hfilled

/-- The movement on top goes, and the highest one below it comes. -/
theorem pop_cases (hslot : m.top = slot.val) :
    (∃ low : MovementSlot, low.val < slot.val ∧ m.impl low ≠ none ∧
      (∀ slot' : MovementSlot, low.val < slot'.val → slot'.val ≤ slot.val →
        update m.impl slot none slot' = none) ∧
      m.pop = .ok { m with impl := update m.impl slot none, top := low.val }) ∨
    (¬m.FilledBelow ∧ m.pop = .error .outside) := by
  have hpop : m.pop = { m with impl := update m.impl slot none }.skipFrom slot.val := by
    rw [MotionMaster.pop, hslot, slotAt_val]
    simp only [bind, Except.bind, MotionMaster.skipEmpty]
  have hother : ∀ slot' : MovementSlot, slot'.val ≠ slot.val →
      update m.impl slot none slot' = m.impl slot' := fun slot' hne' =>
    update_of_ne (fun heq => hne' (congrArg Fin.val heq)) _ _
  rcases skipFrom_cases { m with impl := update m.impl slot none } slot.2 with
    ⟨low, hle, hfilled, habove, heq⟩ | ⟨hnone, heq⟩
  · have hlow : low.val ≠ slot.val := by
      rintro hval
      obtain rfl : low = slot := Fin.ext hval
      exact hfilled (update_self _ _ _)
    simp only at hfilled habove
    rw [hother low hlow] at hfilled
    exact .inl ⟨low, by omega, hfilled, habove, hpop.trans heq⟩
  · refine .inr ⟨?_, hpop.trans heq⟩
    rintro ⟨low, hlt, hfilled⟩
    refine hfilled ?_
    have hlow := hnone low (by omega)
    simp only at hlow
    rwa [hother low (by omega)] at hlow

/-- On a stack in shape nothing is skipped. -/
theorem Valid.skipEmpty (h : Valid m) (hne : 0 ≤ m.top) : m.skipEmpty = .ok m :=
  (h.topped hne).skipEmpty

/-- The movement on top goes, and the one below it comes. Without one the slots are left. -/
theorem Valid.pop (h : Valid m) (hne : 0 ≤ m.top) :
    (m.FilledBelow ∧ ∃ m', m.pop = .ok m' ∧ m'.Valid ∧ 0 ≤ m'.top ∧ m'.top < m.top ∧
      SameFlags m m' ∧ m'.needInit = m.needInit ∧ m'.expList = m.expList ∧
      ∀ slot : MovementSlot, (slot.val : ℤ) < m.top → m'.impl slot = m.impl slot) ∨
    (¬m.FilledBelow ∧ m.pop = .error .outside) := by
  obtain ⟨slot, hslot, -⟩ := h.slotAt_top hne
  have hother : ∀ slot' : MovementSlot, slot'.val ≠ slot.val →
      update m.impl slot none slot' = m.impl slot' := fun slot' hne' =>
    update_of_ne (fun heq => hne' (congrArg Fin.val heq)) _ _
  rcases pop_cases hslot with ⟨low, hlt, hfilled, habove, hpop⟩ | houtside
  · refine .inl ⟨⟨low, by omega, hfilled⟩, _, hpop, ?_, by simp only; omega,
      by simp only; omega, ⟨rfl, rfl⟩, rfl, rfl, fun slot' hlt => hother slot' (by omega)⟩
    refine ⟨by simp only; omega, by simp only; omega, ?_, ?_, fun _ => by simp only; omega,
      fun _ => by simp only; omega⟩
    · intro slot' hlt
      simp only at hlt ⊢
      rcases Nat.lt_or_ge slot.val slot'.val with hgt | hge
      · rw [hother slot' (by omega)]
        exact h.above slot' (by omega)
      · exact habove slot' (by omega) hge
    · intro slot' htop
      simp only at htop ⊢
      obtain rfl : low = slot' := Fin.ext (by omega)
      rwa [hother low (by omega)]
  · exact .inr houtside

/-- What the shape depends on is the same. -/
structure SameStack (m m' : MotionMaster) : Prop where
  impl : m'.impl = m.impl
  top : m'.top = m.top
  updating : m'.updating = m.updating
  updates : m'.updates = m.updates

theorem Valid.of_sameStack (h : Valid m) (hs : SameStack m m') : Valid m' := by
  obtain ⟨himpl, htop, hupdating, hupdates⟩ := hs
  constructor
  · rw [htop]
    exact h.top_ge
  · rw [htop]
    exact h.top_lt
  · rw [htop, himpl]
    exact h.above
  · rw [htop, himpl]
    exact h.top_filled
  · rw [hupdating, htop]
    exact h.updating
  · rw [hupdates, htop]
    exact h.updates

theorem sameStack_directDelete (m : MotionMaster) (curr : Movement) :
    SameStack m (m.directDelete curr) := by
  unfold directDelete
  split <;> exact ⟨rfl, rfl, rfl, rfl⟩

theorem sameStack_delayedDelete (m : MotionMaster) (curr : Movement) :
    SameStack m (m.delayedDelete curr) := by
  unfold delayedDelete
  split <;> exact ⟨rfl, rfl, rfl, rfl⟩

/-- A call that leaves the stack in shape, with a movement on top. -/
structure Keeps (m m' : MotionMaster) : Prop where
  valid : m'.Valid
  top_nonneg : 0 ≤ m'.top
  flags : SameFlags m m'

theorem Keeps.refl (h : Valid m) (hne : 0 ≤ m.top) : Keeps m m :=
  ⟨h, hne, rfl, rfl⟩

theorem Keeps.trans {m'' : MotionMaster} (h : Keeps m m') (h' : Keeps m' m'') : Keeps m m'' :=
  ⟨h'.valid, h'.top_nonneg, h'.flags.updating.trans h.flags.updating,
    h'.flags.updates.trans h.flags.updates⟩

theorem Keeps.of_sameStack (h : Valid m) (hne : 0 ≤ m.top) (hs : SameStack m m') : Keeps m m' :=
  ⟨h.of_sameStack hs, by rw [hs.top]; exact hne, hs.updating, hs.updates⟩

/-! ## The calls -/

/-- A slot is filled, and the top is not below it. -/
theorem Valid.put (h : Valid m) {mv : Movement}
    (himpl : m'.impl = update m.impl slot (some mv)) (htop : m'.top = max m.top slot.val)
    (hs : SameFlags m m') : Keeps m m' := by
  have hslot := slot.2
  have hlt := h.top_lt
  have hge : 0 ≤ m'.top := by omega
  refine ⟨⟨by omega, by omega, ?_, ?_, fun _ => hge, fun _ => hge⟩, hge, hs⟩
  · intro slot' habove
    have hne : slot' ≠ slot := by
      rintro rfl
      omega
    rw [himpl, update_of_ne hne]
    exact h.above slot' (by omega)
  · intro slot' heq
    rw [himpl]
    by_cases hne : slot' = slot
    · rw [hne, update_self]
      exact Option.some_ne_none mv
    · rw [update_of_ne hne]
      refine h.top_filled slot' ?_
      have hval : slot'.val ≠ slot.val := fun hval => hne (Fin.ext hval)
      omega

/-- The end of `Mutate`. -/
theorem Valid.put_of_sameStack (h : Valid m) (mv : Movement) {m0 m1 : MotionMaster}
    (hs : SameStack m0 m1) (hflags : SameFlags m m0)
    (himpl : ∀ v, update m0.impl slot v = update m.impl slot v)
    (htop : m0.top = max m.top slot.val) (needInit : MovementSlot → Bool) :
    Keeps m { m1 with
      impl := update m1.impl slot (some mv)
      needInit := needInit } := by
  refine h.put (congrArg (update · slot (some mv)) hs.impl |>.trans (himpl _)) ?_ ⟨?_, ?_⟩
  · exact hs.top.trans htop
  · exact hs.updating.trans hflags.updating
  · exact hs.updates.trans hflags.updates

theorem Valid.mutate (h : Valid m) (mv : Movement) (slot : MovementSlot) :
    Keeps m (m.mutate mv slot) := by
  cases hslot : m.impl slot with
  | none =>
    obtain ⟨m1, hm1, hs⟩ : ∃ m1,
        (if m.top < slot.val then { m with top := slot.val } else m) = m1 ∧
          SameStack { m with top := max m.top slot.val } m1 := by
      refine ⟨_, rfl, ?_⟩
      split
      · next hlt => exact ⟨rfl, (Int.max_eq_right (Int.le_of_lt hlt)).symm, rfl, rfl⟩
      · next hlt => exact ⟨rfl, (Int.max_eq_left (Int.not_lt.1 hlt)).symm, rfl, rfl⟩
    simp only [MotionMaster.mutate, hslot, hm1]
    split <;> exact h.put_of_sameStack mv hs ⟨rfl, rfl⟩ (fun _ => rfl) rfl _
  | some curr =>
    have hle : (slot.val : ℤ) ≤ m.top := by
      by_contra hgt
      exact Option.some_ne_none curr (hslot.symm.trans (h.above slot (by omega)))
    obtain ⟨m1, hm1, hs⟩ : ∃ m1,
        (if m.top = slot.val ∧ m.updating then
          { m with impl := update m.impl slot none }.delayedDelete curr
        else { m with impl := update m.impl slot none }.directDelete curr) = m1 ∧
          SameStack { m with impl := update m.impl slot none } m1 := by
      refine ⟨_, rfl, ?_⟩
      split
      · exact sameStack_delayedDelete _ curr
      · exact sameStack_directDelete _ curr
    simp only [MotionMaster.mutate, hslot, hm1]
    split <;> exact h.put_of_sameStack mv hs ⟨rfl, rfl⟩
      (fun _ => update_idem _ _ _) (Int.max_eq_left hle).symm _

/-- Cleaning the whole stack goes below the lowest slot. -/
theorem Valid.clean_zero (hdelete : ∀ m curr, SameStack m (delete m curr)) {turns : ℕ} :
    ∀ {m : MotionMaster},
    m.Valid → 0 ≤ m.top → m.size ≤ turns → clean delete 0 turns m = .error .outside := by
  induction turns with
  | zero =>
    intro m h hne hturns
    unfold size at hturns
    omega
  | succ turns ih =>
    intro m h hne hturns
    obtain ⟨slot, hslot, hat⟩ := h.slotAt_top hne
    have hsize : m.size > 0 := by
      unfold size
      omega
    rw [clean, if_pos hsize, hat]
    simp only [bind, Except.bind]
    rcases h.pop hne with ⟨-, m', hpop, hvalid, hge, hlt, -⟩ | ⟨-, hpop⟩
    · rw [hpop]
      unfold size at hturns
      cases m.impl slot with
      | none => exact ih (m := m') hvalid hge (by unfold size; omega)
      | some curr =>
        have hs := hdelete m' curr
        exact ih (hvalid.of_sameStack hs) (by rw [hs.top]; exact hge)
          (by unfold size; rw [hs.top]; omega)
    · rw [hpop]

/-- Cleaning the stack but for its idle movement needs one. -/
theorem Valid.clean_one (hdelete : ∀ m curr, SameStack m (delete m curr)) {turns : ℕ} :
    ∀ {m : MotionMaster},
    m.Valid → 0 ≤ m.top → m.size ≤ turns →
      (m.impl motionSlotIdle ≠ none ∧ ∃ m', clean delete 1 turns m = .ok m' ∧ Keeps m m') ∨
      (m.impl motionSlotIdle = none ∧ clean delete 1 turns m = .error .outside) := by
  induction turns with
  | zero =>
    intro m h hne hturns
    unfold size at hturns
    omega
  | succ turns ih =>
    intro m h hne hturns
    obtain ⟨slot, hslot, hat⟩ := h.slotAt_top hne
    rw [clean]
    by_cases hsize : m.size > 1
    · rw [if_pos hsize, hat]
      simp only [bind, Except.bind]
      unfold size at hsize hturns
      have hidle : (motionSlotIdle.val : ℤ) < m.top := by
        change (0 : ℤ) < m.top
        omega
      rcases h.pop hne with ⟨-, m', hpop, hvalid, hge, hlt, hflags, -, -, himpl⟩ | ⟨hbelow, hpop⟩
      · rw [hpop, ← himpl motionSlotIdle hidle]
        have hkeeps : Keeps m m' := ⟨hvalid, hge, hflags⟩
        cases m.impl slot with
        | none =>
          rcases ih (m := m') hvalid hge (by unfold size; omega) with
            ⟨hfilled, m'', heq, hm⟩ | hnone
          · exact .inl ⟨hfilled, m'', heq, hkeeps.trans hm⟩
          · exact .inr hnone
        | some curr =>
          have hs := hdelete m' curr
          have hdeleted := Keeps.of_sameStack hvalid hge hs
          rw [← hs.impl]
          rcases ih hdeleted.valid hdeleted.top_nonneg (by unfold size; rw [hs.top]; omega) with
            ⟨hfilled, m'', heq, hm⟩ | hnone
          · exact .inl ⟨hfilled, m'', heq, (hkeeps.trans hdeleted).trans hm⟩
          · exact .inr hnone
      · refine .inr ⟨?_, by rw [hpop]⟩
        by_contra hfilled
        exact hbelow ⟨motionSlotIdle, hidle, hfilled⟩
    · rw [if_neg hsize]
      unfold size at hsize
      have hidle : m.top = motionSlotIdle.val := by
        change m.top = (0 : ℤ)
        omega
      exact .inl ⟨h.top_filled motionSlotIdle hidle, m, rfl, .refl h hne⟩

theorem Valid.resumeTop (h : Valid m) (hne : 0 ≤ m.top) (reset : Bool) :
    ∃ m', m.resumeTop reset = .ok m' ∧ Keeps m m' := by
  obtain ⟨slot, -, hat⟩ := h.slotAt_top hne
  obtain ⟨mv, hmv⟩ := h.topGenerator hne
  simp only [MotionMaster.resumeTop, needInitTop, initTop, hat, hmv, bind, Except.bind, pure,
    Except.pure]
  split
  · exact ⟨_, rfl, .of_sameStack h hne ⟨rfl, rfl, rfl, rfl⟩⟩
  · split
    · exact ⟨m, rfl, .refl h hne⟩
    · exact ⟨m, rfl, .refl h hne⟩

variable (selectMovementGenerator) in
/-- A stack is initialized when it is empty. -/
theorem Valid.initializeStack (h : Valid m) :
    (m.empty ∧ ∃ m', m.initializeStack selectMovementGenerator = .ok m' ∧ Keeps m m') ∨
    (¬m.empty ∧ m.initializeStack selectMovementGenerator = .error .outside) := by
  have hge := h.top_ge
  by_cases hempty : m.empty
  · have htop : m.top < 0 := hempty
    have hclean : clean directDelete 0 m.size.toNat m = .ok m := by
      rw [show m.size = 0 by unfold size; omega]
      rfl
    refine .inl ⟨hempty, _, ?_, h.mutate (selectMovementGenerator m) motionSlotIdle⟩
    rw [MotionMaster.initializeStack, hclean]
    rfl
  · have hne : 0 ≤ m.top := Int.not_lt.1 hempty
    refine .inr ⟨hempty, ?_⟩
    rw [MotionMaster.initializeStack, h.clean_zero sameStack_directDelete hne (Int.self_le_toNat _)]
    rfl

theorem Valid.clear (h : Valid m) (reset : Bool) :
    (m.impl motionSlotIdle ≠ none ∧ ∃ m', m.clear reset = .ok m' ∧ m'.Valid) ∨
    (m.impl motionSlotIdle = none ∧ m.clear reset = .error .outside) := by
  have hge := h.top_ge
  by_cases hempty : m.top < 0
  · -- `_needInit` is read below its first entry
    have hidle : m.impl motionSlotIdle = none := h.above _ (by omega)
    have hupdating : m.updating = false := by
      by_contra hupdating
      have := h.updating (by simpa using hupdating)
      omega
    have hsize : m.size.toNat = 0 := by
      unfold size
      omega
    have hat : slotAt m.top = .error .outside := by
      rw [show m.top = .negSucc 0 by omega]
      rfl
    refine .inr ⟨hidle, ?_⟩
    simp only [MotionMaster.clear, hupdating, Bool.false_eq_true, if_false, directClean, hsize,
      clean, MotionMaster.resumeTop, needInitTop, hat, bind, Except.bind]
  · have hne : 0 ≤ m.top := Int.not_lt.1 hempty
    cases hupdating : m.updating with
    | true =>
      have hs : SameStack m { m with resetting := reset } := ⟨rfl, rfl, rfl, rfl⟩
      have hclear : m.clear reset = { m with resetting := reset }.delayedClean := by
        simp only [MotionMaster.clear, hupdating, if_true]
      rw [hclear]
      rcases (h.of_sameStack hs).clean_one sameStack_delayedDelete hne (Int.self_le_toNat _) with
        ⟨hidle, m', heq, hm⟩ | ⟨hidle, heq⟩
      · exact .inl ⟨hidle, m', heq, hm.valid⟩
      · exact .inr ⟨hidle, heq⟩
    | false =>
      simp only [MotionMaster.clear, hupdating, Bool.false_eq_true, if_false, directClean]
      rcases h.clean_one sameStack_directDelete hne (Int.self_le_toNat _) with
        ⟨hidle, m', heq, hm⟩ | ⟨hidle, heq⟩
      · obtain ⟨m'', hresume, hm'⟩ := hm.valid.resumeTop hm.top_nonneg reset
        exact .inl ⟨hidle, m'', by rw [heq]; exact hresume, hm'.valid⟩
      · exact .inr ⟨hidle, by rw [heq]; rfl⟩

/-- A movement expires when there is another one below it, or it is the idle one. -/
def CanExpire (m : MotionMaster) : Prop :=
  m.top = motionSlotIdle.val ∨ 0 < m.top ∧ m.FilledBelow

theorem Valid.expire (hdelete : ∀ m curr, SameStack m (delete m curr)) (h : Valid m) :
    (m.CanExpire ∧ ∃ m', m.expire delete = .ok m' ∧ Keeps m m') ∨
    (¬m.CanExpire ∧ m.expire delete = .error .outside) := by
  have hge := h.top_ge
  have hidle : ((motionSlotIdle.val : ℕ) : ℤ) = 0 := rfl
  by_cases hsize : m.size > 1
  · unfold size at hsize
    have hne : 0 ≤ m.top := by omega
    obtain ⟨mv, hmv⟩ := h.topGenerator hne
    have hexpire : m.expire delete = m.pop >>= fun m => (delete m mv).skipEmpty := by
      rw [MotionMaster.expire, if_pos (show m.size > 1 from hsize), hmv]
      rfl
    rw [hexpire]
    rcases h.pop hne with ⟨hbelow, m', hpop, hvalid, hge', -, hflags, -⟩ | ⟨hbelow, hpop⟩
    · have hs := hdelete m' mv
      have hkeeps := Keeps.of_sameStack hvalid hge' hs
      refine .inl ⟨.inr ⟨by omega, hbelow⟩, delete m' mv, ?_,
        (Keeps.mk hvalid hge' hflags).trans hkeeps⟩
      rw [hpop]
      exact hkeeps.valid.skipEmpty hkeeps.top_nonneg
    · refine .inr ⟨?_, by rw [hpop]; rfl⟩
      rintro (htop | ⟨-, hfilled⟩)
      · omega
      · exact hbelow hfilled
  · have hexpire : m.expire delete = m.skipEmpty := by
      rw [MotionMaster.expire, if_neg hsize]
    rw [hexpire]
    unfold size at hsize
    by_cases hempty : m.top < 0
    · refine .inr ⟨?_, ?_⟩
      · rintro (htop | ⟨hpos, -⟩)
        · omega
        · omega
      · rw [MotionMaster.skipEmpty, show m.top = .negSucc 0 by omega]
    · have hne : 0 ≤ m.top := Int.not_lt.1 hempty
      exact .inl ⟨.inl (by omega), m, h.skipEmpty hne, .refl h hne⟩

variable (selectMovementGenerator) in
theorem Valid.movementExpired (h : Valid m) (reset : Bool) :
    (m.CanExpire ∧ ∃ m', m.movementExpired selectMovementGenerator reset = .ok m' ∧
      Keeps m m') ∨
    (¬m.CanExpire ∧ m.movementExpired selectMovementGenerator reset = .error .outside) := by
  cases hupdating : m.updating with
  | true =>
    have hs : SameStack m { m with resetting := reset } := ⟨rfl, rfl, rfl, rfl⟩
    have hexpired : m.movementExpired selectMovementGenerator reset =
        { m with resetting := reset }.expire delayedDelete := by
      rw [MotionMaster.movementExpired, hupdating]
      rfl
    rw [hexpired]
    rcases (h.of_sameStack hs).expire sameStack_delayedDelete with ⟨hcan, m', heq, hm⟩ | hcan
    · exact .inl ⟨hcan, m', heq, hm.valid, hm.top_nonneg, hm.flags.updating, hm.flags.updates⟩
    · exact .inr hcan
  | false =>
    have hexpired : m.movementExpired selectMovementGenerator reset =
        m.directExpire selectMovementGenerator reset := by
      rw [MotionMaster.movementExpired, hupdating]
      rfl
    rw [hexpired, directExpire]
    rcases h.expire sameStack_directDelete with ⟨hcan, m', heq, hm⟩ | ⟨hcan, heq⟩
    · obtain ⟨m'', hresume, hm'⟩ := hm.valid.resumeTop hm.top_nonneg reset
      refine .inl ⟨hcan, m'', ?_, hm.trans hm'⟩
      rw [heq]
      simp only [bind, Except.bind]
      rw [if_neg (show ¬m'.empty from Int.not_lt.2 hm.top_nonneg)]
      exact hresume
    · exact .inr ⟨hcan, by rw [heq]; rfl⟩

theorem Valid.moveIdle (h : Valid m) : ∃ m', m.moveIdle = .ok m' ∧ m'.Valid := by
  rw [MotionMaster.moveIdle]
  split
  · exact ⟨_, rfl, (h.mutate _ _).valid⟩
  · next hempty =>
    obtain ⟨slot, -, hat⟩ := h.slotAt_top (Int.not_lt.1 hempty)
    rw [hat]
    simp only [bind, Except.bind]
    split
    · exact ⟨m, rfl, h⟩
    · exact ⟨_, rfl, (h.mutate _ _).valid⟩

theorem Valid.beginUpdate (h : Valid m) (held : Bool) :
    (∃ m', m.beginUpdate held = .ok m' ∧ m'.Valid) ∨ m.beginUpdate held = .error .assertion := by
  rw [MotionMaster.beginUpdate]
  split
  · exact .inl ⟨m, rfl, h⟩
  · split
    · exact .inr rfl
    · next hempty =>
      have hne : 0 ≤ m.top := Int.not_lt.1 hempty
      obtain ⟨mv, hmv⟩ := h.topGenerator hne
      have hgenerator : { m with updating := true }.topGenerator = .ok mv := hmv
      simp only [hgenerator, bind, Except.bind]
      exact .inl ⟨_, rfl, h.top_ge, h.top_lt, h.above, h.top_filled, fun _ => hne, fun _ => hne⟩

theorem sameStack_foldl_directDelete (expired : List Movement) (m : MotionMaster) :
    SameStack m (expired.foldl directDelete m) := by
  induction expired generalizing m with
  | nil => exact ⟨rfl, rfl, rfl, rfl⟩
  | cons curr expired ih =>
    have hfirst := sameStack_directDelete m curr
    have hrest := ih (m.directDelete curr)
    exact ⟨hrest.impl.trans hfirst.impl, hrest.top.trans hfirst.top,
      hrest.updating.trans hfirst.updating, hrest.updates.trans hfirst.updates⟩

variable (selectMovementGenerator) in
theorem Valid.deleteExpired (h : Valid m) (hne : 0 ≤ m.top) :
    ∃ m', m.deleteExpired selectMovementGenerator = .ok m' ∧ m'.Valid := by
  rw [MotionMaster.deleteExpired]
  cases m.expList with
  | none => exact ⟨m, rfl, h⟩
  | some expired =>
    have hs : SameStack m { expired.foldl directDelete m with expList := none } := by
      obtain ⟨himpl, htop, hupdating, hupdates⟩ := sameStack_foldl_directDelete expired m
      exact ⟨himpl, htop, hupdating, hupdates⟩
    have hkeeps := Keeps.of_sameStack h hne hs
    obtain ⟨m', hresume, hm⟩ := hkeeps.valid.resumeTop hkeeps.top_nonneg
      (expired.foldl directDelete m).resetting
    simp only [bind, Except.bind]
    rw [if_neg (show ¬MotionMaster.empty _ from Int.not_lt.2 hkeeps.top_nonneg), hresume]
    exact ⟨_, rfl, hm.valid.of_sameStack ⟨rfl, rfl, rfl, rfl⟩⟩

variable (selectMovementGenerator) in
theorem Valid.endUpdate (h : Valid m) (answer : Bool) :
    ((m.updates = 0 ∨ answer = true ∨ m.CanExpire) ∧
      ∃ m', m.endUpdate selectMovementGenerator answer = .ok m' ∧ m'.Valid) ∨
    (¬(m.updates = 0 ∨ answer = true ∨ m.CanExpire) ∧
      m.endUpdate selectMovementGenerator answer = .error .outside) := by
  rw [MotionMaster.endUpdate]
  by_cases hupdates : m.updates = 0
  · rw [if_pos hupdates]
    exact .inl ⟨.inl hupdates, m, rfl, h⟩
  rw [if_neg hupdates]
  have hne : 0 ≤ m.top := h.updates (Nat.pos_of_ne_zero hupdates)
  have hended : Valid { m with updating := false, updates := m.updates - 1 } :=
    ⟨h.top_ge, h.top_lt, h.above, h.top_filled, fun _ => hne, fun _ => hne⟩
  cases answer with
  | true =>
    obtain ⟨m', heq, hm⟩ := hended.deleteExpired selectMovementGenerator hne
    exact .inl ⟨.inr (.inl rfl), m', heq, hm⟩
  | false =>
    simp only [hupdates, Bool.false_eq_true, false_or, if_false]
    rcases hended.movementExpired selectMovementGenerator true with
      ⟨hcan, m', heq, hm⟩ | ⟨hcan, heq⟩
    · obtain ⟨m'', hdeleted, hm'⟩ := hm.valid.deleteExpired selectMovementGenerator
        hm.top_nonneg
      exact .inl ⟨hcan, m'', by rw [heq]; exact hdeleted, hm'⟩
    · exact .inr ⟨hcan, by rw [heq]; rfl⟩

/-! ## Runs -/

/-- When a call keeps to the slots. -/
def Meets (m : MotionMaster) : Call → Prop
  | .initializeStack => m.empty
  | .clear _ => m.impl motionSlotIdle ≠ none
  | .movementExpired _ => m.CanExpire
  | .endUpdate answer => m.updates = 0 ∨ answer = true ∨ m.CanExpire
  | .mutate _ _ | .moveIdle | .beginUpdate _ => True

variable (selectMovementGenerator) in
/-- A call that keeps to the slots leaves the stack in shape, unless an assertion ends the run, and
any other one reads outside of them. -/
theorem Valid.serve (h : Valid m) (call : Call) :
    (m.Meets call ∧ ((∃ m', m.serve selectMovementGenerator call = .ok m' ∧ m'.Valid) ∨
      m.serve selectMovementGenerator call = .error .assertion)) ∨
    (¬m.Meets call ∧ m.serve selectMovementGenerator call = .error .outside) := by
  cases call with
  | initializeStack =>
    rcases h.initializeStack selectMovementGenerator with
      ⟨hempty, m', heq, hm⟩ | houtside
    · exact .inl ⟨hempty, .inl ⟨m', heq, hm.valid⟩⟩
    · exact .inr houtside
  | mutate mv slot => exact .inl ⟨trivial, .inl ⟨_, rfl, (h.mutate mv slot).valid⟩⟩
  | clear reset =>
    rcases h.clear reset with ⟨hidle, hm⟩ | ⟨hidle, heq⟩
    · exact .inl ⟨hidle, .inl hm⟩
    · exact .inr ⟨not_not_intro hidle, heq⟩
  | movementExpired reset =>
    rcases h.movementExpired selectMovementGenerator reset with
      ⟨hcan, m', heq, hm⟩ | houtside
    · exact .inl ⟨hcan, .inl ⟨m', heq, hm.valid⟩⟩
    · exact .inr houtside
  | moveIdle => exact .inl ⟨trivial, .inl h.moveIdle⟩
  | beginUpdate held => exact .inl ⟨trivial, h.beginUpdate held⟩
  | endUpdate answer =>
    rcases h.endUpdate selectMovementGenerator answer with
      ⟨hcan, hm⟩ | houtside
    · exact .inl ⟨hcan, .inl hm⟩
    · exact .inr houtside

/-- The stack is in shape after a run, or an assertion has ended it. -/
def InShape : Except Fault MotionMaster → Prop
  | .ok m => (-1 ≤ m.top ∧ m.top < maxMotionSlot) ∧
      (∀ slot : MovementSlot, m.top < slot.val → m.impl slot = none) ∧
      (0 ≤ m.top → ∃ slot : MovementSlot, m.top = slot.val ∧ m.impl slot ≠ none)
  | .error fault => fault = .assertion

/-- `InShape`, with what is needed to go on. -/
def Sound : Except Fault MotionMaster → Prop
  | .ok m => m.Valid
  | .error fault => fault = .assertion

theorem Sound.inShape {r : Except Fault MotionMaster} (h : Sound r) : InShape r := by
  cases r with
  | error fault => exact h
  | ok m =>
    have hvalid : m.Valid := h
    refine ⟨⟨hvalid.top_ge, hvalid.top_lt⟩, hvalid.above, fun hne => ?_⟩
    obtain ⟨slot, hslot, -⟩ := hvalid.slotAt_top hne
    exact ⟨slot, hslot, hvalid.top_filled slot hslot⟩

/-- The call keeps to the slots when it is made. -/
def MeetsAt (r : Except Fault MotionMaster) (call : Call) : Prop :=
  ∀ m, r = .ok m → m.Meets call

variable (selectMovementGenerator) in
theorem Sound.step {r : Except Fault MotionMaster} (h : Sound r) (call : Call) :
    (MeetsAt r call ∧ Sound (step selectMovementGenerator r call)) ∨
    (¬MeetsAt r call ∧ ¬InShape (step selectMovementGenerator r call)) := by
  cases r with
  | error fault => exact .inl ⟨fun _ hm => (nomatch hm), h⟩
  | ok m =>
    have hstep : MotionMaster.step selectMovementGenerator (.ok m) call =
        m.serve selectMovementGenerator call := rfl
    have hmeets : MeetsAt (.ok m) call ↔ m.Meets call :=
      ⟨fun hall => hall m rfl, fun hm _ heq => Except.ok.inj heq ▸ hm⟩
    rw [hstep, hmeets]
    rcases Valid.serve selectMovementGenerator h call with ⟨hm, ⟨m', heq, hvalid⟩ | heq⟩ | ⟨hm, heq⟩
    · exact .inl ⟨hm, by rw [heq]; exact hvalid⟩
    · exact .inl ⟨hm, by rw [heq]; rfl⟩
    · refine .inr ⟨hm, ?_⟩
      rw [heq]
      exact fun houtside => Fault.noConfusion houtside

end MotionMaster

open MotionMaster

end MistyWorld
