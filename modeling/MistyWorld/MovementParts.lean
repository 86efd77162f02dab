import MistyWorld.MovementInfo

/-!
# The parts of a movement packet

A sequence is worked off part by part (`parts`), an extra element being the next one of its own
sequence. A part is a presence bit, or depends on presence bits, and the writer puts it out as one
write (`MovementPart.op`) if these are set. So what `WriteMovementInfo` writes is the writes of the
parts, one after the other (`writeMovementInfo_eq`).
-/

open Option hiding sequence
open List BitStream Bytes

namespace MistyWorld

open ByteBuffer MovementStatusElement

/-! ## Parts -/

/-- What an element does : it is of the sequence, or of the extra elements. -/
inductive MovementPart
  | own (element : MovementStatusElement)
  | extra (element : MovementStatusElement)
  deriving DecidableEq, Repr

/-- The bits that say whether something is there. -/
inductive PresenceBit
  | guidByte (i : Fin 8)
  | movementFlags
  | movementFlags2
  | timestamp
  | orientation
  | transportData
  | transportGuidByte (i : Fin 8)
  | transportTime2
  | transportTime3
  | pitch
  | fallData
  | fallDirection
  | splineElevation
  | extraGuidByte (i : Fin 8)
  deriving DecidableEq, Repr

/-- The parts of a sequence, with the extra elements to come. -/
def parts : List MovementStatusElement → List MovementStatusElement → Option (List MovementPart)
  | _, [] => some []
  | [], .extraElement :: _ => none
  | x :: xs, .extraElement :: sequence => (parts xs sequence).map (.extra x :: ·)
  | xs, element :: sequence => (parts xs sequence).map (.own element :: ·)

namespace MovementPart

/-- The elements that both functions handle, other than `MSECounter`. -/
def Handled : MovementPart → Prop
  | .own element =>
    element ∉ [counter, uintCount, hasUnkTime, unkTime, extraElement, extraFloat, extraInt8]
  | .extra (.hasGuidByte _) => True
  | .extra (.guidByte _) => True
  | .extra .extraFloat => True
  | .extra .extraInt8 => True
  | .extra _ => False

/-- The presence bit that a part is. -/
def announces : MovementPart → Option PresenceBit
  | .own (.hasGuidByte i) => some (.guidByte i)
  | .own .hasMovementFlags => some .movementFlags
  | .own .hasMovementFlags2 => some .movementFlags2
  | .own .hasTimestamp => some .timestamp
  | .own .hasOrientation => some .orientation
  | .own .hasTransportData => some .transportData
  | .own (.hasTransportGuidByte i) => some (.transportGuidByte i)
  | .own .hasTransportTime2 => some .transportTime2
  | .own .hasTransportTime3 => some .transportTime3
  | .own .hasPitch => some .pitch
  | .own .hasFallData => some .fallData
  | .own .hasFallDirection => some .fallDirection
  | .own .hasSplineElevation => some .splineElevation
  | .extra (.hasGuidByte i) => some (.extraGuidByte i)
  | _ => none

/-- The presence bit in the place of which a part is put. -/
def carries : MovementPart → Option PresenceBit
  | .own (.guidByte i) => some (.guidByte i)
  | .own (.transportGuidByte i) => some (.transportGuidByte i)
  | .extra (.guidByte i) => some (.extraGuidByte i)
  | _ => none

/-- The presence bits on which a part depends. -/
def requires : MovementPart → List PresenceBit
  | .own (.hasTransportGuidByte _) => [.transportData]
  | .own .hasTransportTime2 => [.transportData]
  | .own .hasTransportTime3 => [.transportData]
  | .own .hasFallDirection => [.fallData]
  | .own (.guidByte i) => [.guidByte i]
  | .own .movementFlags => [.movementFlags]
  | .own .movementFlags2 => [.movementFlags2]
  | .own .timestamp => [.timestamp]
  | .own .orientation => [.orientation]
  | .own (.transportGuidByte i) => [.transportData, .transportGuidByte i]
  | .own .transportPositionX => [.transportData]
  | .own .transportPositionY => [.transportData]
  | .own .transportPositionZ => [.transportData]
  | .own .transportOrientation => [.transportData]
  | .own .transportSeat => [.transportData]
  | .own .transportTime => [.transportData]
  | .own .transportTime2 => [.transportData, .transportTime2]
  | .own .transportTime3 => [.transportData, .transportTime3]
  | .own .pitch => [.pitch]
  | .own .fallTime => [.fallData]
  | .own .fallVerticalSpeed => [.fallData]
  | .own .fallCosAngle => [.fallData, .fallDirection]
  | .own .fallSinAngle => [.fallData, .fallDirection]
  | .own .fallHorizontalSpeed => [.fallData, .fallDirection]
  | .own .splineElevation => [.splineElevation]
  | .extra (.guidByte i) => [.extraGuidByte i]
  | _ => []

/-- The parts that are bits, presence bits and others. -/
def isBit : MovementPart → Bool
  | .own .hasSpline => true
  | .own .movementFlags => true
  | .own .movementFlags2 => true
  | .own .counterCount => true
  | .own .zeroBit => true
  | .own .oneBit => true
  | p => p.announces.isSome

end MovementPart

/-- Each part follows the presence bits on which it depends. -/
def BitsFirst (before : List MovementPart) : List MovementPart → Prop
  | [] => True
  | p :: ps => (∀ b ∈ p.requires, ∃ q ∈ before, q.announces = some b) ∧ BitsFirst (before ++ [p]) ps

/-- The bits are one block. -/
def OneBlock (ps : List MovementPart) : Prop :=
  ∃ pre mid post, ps = pre ++ mid ++ post ∧ (∀ p ∈ pre, p.isBit = false) ∧
    (∀ p ∈ mid, p.isBit = true) ∧ ∀ p ∈ post, p.isBit = false

/-! ## What the writer says -/

section Say

variable (o : FloatOps) (msTime : UInt32) (u : MovementUnit) (x : ExtraMovementStatusElement)

/-- A presence bit of the writer. -/
def said : PresenceBit → Bool
  | .guidByte i => u.guid i ≠ 0
  | .movementFlags => u.hasMovementFlags
  | .movementFlags2 => u.hasMovementFlags2
  | .timestamp => MovementUnit.hasTimestamp
  | .orientation => u.hasOrientation o
  | .transportData => u.hasTransportData
  | .transportGuidByte i => u.tguid i ≠ 0
  | .transportTime2 => u.hasTransportTime2
  | .transportTime3 => MovementUnit.hasTransportTime3
  | .pitch => u.hasPitch
  | .fallData => u.hasFallData
  | .fallDirection => u.hasFallDirection
  | .splineElevation => u.hasSplineElevation
  | .extraGuidByte i => x.guid i ≠ 0

/-- The presence bits of a part are set. -/
def present (p : MovementPart) : Bool :=
  p.requires.all (said o u x)

/-- The write of a part that is there. -/
def MovementPart.op : MovementPart → WriteOp
  | .own element =>
    let mi := u.movementInfo
    match element with
    | .hasGuidByte i => .writeBit (u.guid i ≠ 0)
    | .hasTransportGuidByte i => .writeBit (u.tguid i ≠ 0)
    | .guidByte i => .append 1 (u.guid i ^^^ 1).toNat
    | .transportGuidByte i => .append 1 (u.tguid i ^^^ 1).toNat
    | .hasMovementFlags => .writeBit !u.hasMovementFlags
    | .hasMovementFlags2 => .writeBit !u.hasMovementFlags2
    | .hasTimestamp => .writeBit !MovementUnit.hasTimestamp
    | .hasOrientation => .writeBit !u.hasOrientation o
    | .hasTransportData => .writeBit u.hasTransportData
    | .hasTransportTime2 => .writeBit u.hasTransportTime2
    | .hasTransportTime3 => .writeBit MovementUnit.hasTransportTime3
    | .hasPitch => .writeBit !u.hasPitch
    | .hasFallData => .writeBit u.hasFallData
    | .hasFallDirection => .writeBit u.hasFallDirection
    | .hasSplineElevation => .writeBit !u.hasSplineElevation
    | .hasSpline => .writeBit u.hasSpline
    | .movementFlags => .writeBits mi.flags.toNat 30
    | .movementFlags2 => .writeBits mi.flags2.toNat 13
    | .timestamp => .append 4 msTime.toNat
    | .positionX => .append 4 u.pos.positionX.toNat
    | .positionY => .append 4 u.pos.positionY.toNat
    | .positionZ => .append 4 u.pos.positionZ.toNat
    | .orientation => .append 4 u.pos.orientation.toNat
    | .transportPositionX => .append 4 mi.transport.pos.positionX.toNat
    | .transportPositionY => .append 4 mi.transport.pos.positionY.toNat
    | .transportPositionZ => .append 4 mi.transport.pos.positionZ.toNat
    | .transportOrientation => .append 4 mi.transport.pos.orientation.toNat
    | .transportSeat => .append 1 mi.transport.seat.toUInt8.toNat
    | .transportTime => .append 4 mi.transport.time.toNat
    | .transportTime2 => .append 4 mi.transport.time2.toNat
    | .transportTime3 => .append 4 mi.transport.time3.toNat
    | .pitch => .append 4 mi.pitch.toNat
    | .fallTime => .append 4 mi.jump.fallTime.toNat
    | .fallVerticalSpeed => .append 4 mi.jump.zspeed.toNat
    | .fallCosAngle => .append 4 mi.jump.cosAngle.toNat
    | .fallSinAngle => .append 4 mi.jump.sinAngle.toNat
    | .fallHorizontalSpeed => .append 4 mi.jump.xyspeed.toNat
    | .splineElevation => .append 4 mi.splineElevation.toNat
    | .counterCount => .writeBits 0 22
    | .oneBit => .writeBit true
    | _ => .writeBit false
  | .extra element =>
    match element with
    | .hasGuidByte i => .writeBit (x.guid i ≠ 0)
    | .guidByte i => .append 1 (x.guid i ^^^ 1).toNat
    | .extraFloat => .append 4 x.floatData.toNat
    | .extraInt8 => .append 1 x.byteData.toUInt8.toNat
    | _ => .writeBit false

/-- The writes of a part. -/
def MovementPart.ops (p : MovementPart) : List WriteOp :=
  if present o u x p then [p.op o msTime u x] else []

end Say

variable {o : FloatOps} {msTime : UInt32} {u : MovementUnit} {x : ExtraMovementStatusElement}

/-! ## The writer -/

theorem put_some (w : MovementWriter) : w.put some = some w :=
  rfl

theorem writeAll_singleton (op : WriteOp) : writeAll [op] = op.write := by
  funext buf
  exact bind_fun_some _

theorem writeAll_ops (p : MovementPart) :
    writeAll (p.ops o msTime u x) =
      if present o u x p then (p.op o msTime u x).write else some := by
  unfold MovementPart.ops
  split_ifs
  · exact writeAll_singleton _
  · rfl

/-- A byte of a guid is written if it is not zero. -/
theorem writeByteSeq_eq (b : UInt8) :
    writeByteSeq b = if decide (b ≠ 0) then (WriteOp.append 1 (b ^^^ 1).toNat).write else some := by
  funext buf
  unfold writeByteSeq
  by_cases hb : b = 0
  · rw [if_neg (not_not.2 hb), if_neg (by simpa using hb)]
  · rw [if_pos hb, if_pos (by simpa using hb)]
    rfl

/-- An element puts out the writes of its part. -/
theorem writeElement_eq {element : MovementStatusElement}
    (h : (MovementPart.own element).Handled) (w : MovementWriter) :
    writeElement o msTime u element w =
      w.put (writeAll ((MovementPart.own element).ops o msTime u x)) := by
  rw [writeAll_ops, apply_ite w.put, put_some]
  cases element with
  | hasGuidByte i => exact congrArg w.put (funext (writeBit_congr _))
  | hasTransportGuidByte i =>
    have hbit : writeBit (u.tguid i).toNat = (WriteOp.writeBit (u.tguid i ≠ 0)).write :=
      funext (writeBit_congr _)
    simp only [present, MovementPart.requires, all_cons, all_nil, Bool.and_true, said,
      writeElement, hbit]
    rfl
  | guidByte i =>
    simp only [present, MovementPart.requires, all_cons, all_nil, Bool.and_true, said,
      writeElement, writeByteSeq_eq]
    rw [apply_ite w.put, put_some]
    rfl
  | transportGuidByte i =>
    simp only [present, MovementPart.requires, all_cons, all_nil, Bool.and_true, said,
      writeElement, writeByteSeq_eq]
    rw [apply_ite w.put, put_some]
    cases u.hasTransportData <;> rfl
  | counter | uintCount | hasUnkTime | unkTime | extraElement | extraFloat | extraInt8 =>
    exact absurd (by simp) h
  | _ =>
    -- the condition of the switch is the one on the presence bits
    simp only [present, MovementPart.requires, all_cons, all_nil, Bool.and_true, said]
    rfl

/-- The extra elements carry the data of `x`, and `xs` are to come. -/
def Carries (x : ExtraMovementStatusElement) (xs : List MovementStatusElement) :
    Option ExtraMovementStatusElement → Prop
  | none => xs = []
  | some y => y.guid = x.guid ∧ y.floatData = x.floatData ∧ y.byteData = x.byteData ∧
      y.elements.drop y.index = xs

theorem getElem?_of_drop {α : Type} {l xs : List α} {n : ℕ} {a : α} (h : l.drop n = a :: xs) :
    l[n]? = some a ∧ l.drop (n + 1) = xs := by
  constructor
  · have hhead := congrArg List.head? h
    rwa [List.head?_drop, List.head?_cons] at hhead
  · have htail := congrArg List.tail h
    rwa [tail_drop, tail_cons] at htail

/-- An extra element puts out the writes of its part. -/
theorem writeNextElement_eq {y : ExtraMovementStatusElement} {element : MovementStatusElement}
    {xs : List MovementStatusElement} (hcarries : Carries x (element :: xs) (some y))
    (h : (MovementPart.extra element).Handled) (packet : ByteBuffer) :
    y.writeNextElement packet = (writeAll ((MovementPart.extra element).ops o msTime u x)
      packet).map fun packet => ({ y with index := y.index + 1 }, packet) := by
  obtain ⟨hguid, hfloat, hbyte, hdrop⟩ := hcarries
  rw [ExtraMovementStatusElement.writeNextElement, (getElem?_of_drop hdrop).1, writeAll_ops]
  simp only [hguid, hfloat, hbyte]
  refine congrArg _ ?_
  cases element with
  | hasGuidByte i => exact writeBit_congr _ _
  | guidByte i =>
    simp only [present, MovementPart.requires, all_cons, all_nil, Bool.and_true, said,
      writeByteSeq_eq]
    rfl
  | extraFloat => rfl
  | extraInt8 => rfl
  | _ => exact absurd h id

theorem parts_own {element : MovementStatusElement} (h : element ≠ extraElement)
    (xs sequence : List MovementStatusElement) :
    parts xs (element :: sequence) = (parts xs sequence).map (.own element :: ·) := by
  cases xs <;> cases element <;> first | rfl | exact absurd rfl h

/-- A sequence puts out the writes of its parts. -/
theorem writeMovementInfo_eq {sequence xs : List MovementStatusElement} {ps : List MovementPart}
    (hparts : parts xs sequence = some ps) (hhandled : ∀ p ∈ ps, p.Handled) {w : MovementWriter}
    (hcarries : Carries x xs w.extras) :
    (writeMovementInfo o msTime u sequence w).map (·.data) =
      writeAll (ps.flatMap (MovementPart.ops o msTime u x)) w.data := by
  induction sequence generalizing xs ps w with
  | nil =>
    have hps : some [] = some ps := by
      rw [← hparts]
      cases xs <;> rfl
    cases hps
    rfl
  | cons element sequence ih =>
    rw [writeMovementInfo]
    by_cases hextra : element = extraElement
    · subst hextra
      cases xs with
      | nil => cases hparts
      | cons e xs =>
        obtain ⟨ps, hrest, rfl⟩ := map_eq_some_iff.1 hparts
        obtain ⟨he, hhandled⟩ := forall_mem_cons.1 hhandled
        cases hextras : w.extras with
        | none =>
          rw [hextras] at hcarries
          cases hcarries
        | some y =>
          rw [hextras] at hcarries
          have hnext := (getElem?_of_drop hcarries.2.2.2).2
          rw [writeElement]
          simp only [hextras, bind_some]
          rw [@writeNextElement_eq o msTime u x y e xs hcarries he, flatMap_cons,
            writeAll_append]
          simp only [Option.map_map, Option.bind_map, Option.map_bind, Function.comp_def]
          exact bind_congr fun data _ => ih hrest hhandled
            ⟨hcarries.1, hcarries.2.1, hcarries.2.2.1, hnext⟩
    · rw [parts_own hextra] at hparts
      obtain ⟨ps, hrest, rfl⟩ := map_eq_some_iff.1 hparts
      obtain ⟨he, hhandled⟩ := forall_mem_cons.1 hhandled
      rw [writeElement_eq (x := x) he, flatMap_cons, writeAll_append, MovementWriter.put]
      simp only [Option.bind_map, Option.map_bind, Function.comp_def]
      exact bind_congr fun data _ => ih hrest hhandled hcarries

end MistyWorld
