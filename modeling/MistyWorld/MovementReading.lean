import MistyWorld.MovementParts

/-!
# Movement packets are read part by part

The reader takes a part as the writer put it out, provided that it has heard the presence bits on
which the part depends (`reads_own`, `reads_extra`). A presence bit of a guid is kept in the place
of its byte, and the byte is put over it (`place`). Where each part follows its presence bits, the
reader hears of each presence bit what the writer said (`Agrees`), and so it reads the whole
sequence (`reads_sequence`).
-/

open Option Function List BitStream Bytes

namespace MistyWorld

open ByteBuffer MovementStatusElement

variable {o : FloatOps} {msTime : UInt32} {u : MovementUnit} {x : ExtraMovementStatusElement}
  {r : MovementReader} {p : MovementPart} {b : PresenceBit} {element : MovementStatusElement}
  {data : ByteBuffer} {rest : Reader}

/-! ## What the reader has -/

/-- A presence bit of the reader. -/
def heard (r : MovementReader) : PresenceBit → Bool
  | .guidByte i => r.guid i ≠ 0
  | .movementFlags => r.hasMovementFlags
  | .movementFlags2 => r.hasMovementFlags2
  | .timestamp => r.hasTimestamp
  | .orientation => r.hasOrientation
  | .transportData => r.hasTransportData
  | .transportGuidByte i => r.tguid i ≠ 0
  | .transportTime2 => r.hasTransportTime2
  | .transportTime3 => r.hasTransportTime3
  | .pitch => r.hasPitch
  | .fallData => r.hasFallData
  | .fallDirection => r.hasFallDirection
  | .splineElevation => r.hasSplineElevation
  | .extraGuidByte i => r.extras.any fun y => y.guid i ≠ 0

section Take

variable (o : FloatOps) (msTime : UInt32) (u : MovementUnit) (x : ExtraMovementStatusElement)

/-- The reader after a part of the sequence that is there. -/
def takeOwn (element : MovementStatusElement) (r : MovementReader) : MovementReader :=
  let mi := u.movementInfo
  match element with
  | .hasGuidByte i => { r with guid := update r.guid i (if u.guid i ≠ 0 then 1 else 0) }
  | .hasTransportGuidByte i =>
    { r with tguid := update r.tguid i (if u.tguid i ≠ 0 then 1 else 0) }
  | .guidByte i => { r with guid := update r.guid i (r.guid i ^^^ (u.guid i ^^^ 1)) }
  | .transportGuidByte i =>
    { r with tguid := update r.tguid i (r.tguid i ^^^ (u.tguid i ^^^ 1)) }
  | .hasMovementFlags => { r with hasMovementFlags := u.hasMovementFlags }
  | .hasMovementFlags2 => { r with hasMovementFlags2 := u.hasMovementFlags2 }
  | .hasTimestamp => { r with hasTimestamp := MovementUnit.hasTimestamp }
  | .hasOrientation => { r with hasOrientation := u.hasOrientation o }
  | .hasTransportData => { r with hasTransportData := u.hasTransportData }
  | .hasTransportTime2 => { r with hasTransportTime2 := u.hasTransportTime2 }
  | .hasTransportTime3 => { r with hasTransportTime3 := MovementUnit.hasTransportTime3 }
  | .hasPitch => { r with hasPitch := u.hasPitch }
  | .hasFallData => { r with hasFallData := u.hasFallData }
  | .hasFallDirection => { r with hasFallDirection := u.hasFallDirection }
  | .hasSplineElevation => { r with hasSplineElevation := u.hasSplineElevation }
  | .movementFlags => { r with mi := { r.mi with flags := mi.flags } }
  | .movementFlags2 => { r with mi := { r.mi with flags2 := mi.flags2 } }
  | .timestamp => { r with mi := { r.mi with time := msTime } }
  | .positionX => r.setPos fun p => { p with positionX := u.pos.positionX }
  | .positionY => r.setPos fun p => { p with positionY := u.pos.positionY }
  | .positionZ => r.setPos fun p => { p with positionZ := u.pos.positionZ }
  | .orientation =>
    r.setPos fun p => { p with orientation := o.normalizeOrientation u.pos.orientation }
  | .transportPositionX =>
    r.setTransportPos fun p => { p with positionX := mi.transport.pos.positionX }
  | .transportPositionY =>
    r.setTransportPos fun p => { p with positionY := mi.transport.pos.positionY }
  | .transportPositionZ =>
    r.setTransportPos fun p => { p with positionZ := mi.transport.pos.positionZ }
  | .transportOrientation =>
    r.setTransportPos fun p =>
      { p with orientation := o.normalizeOrientation mi.transport.pos.orientation }
  | .transportSeat => r.setTransport fun t => { t with seat := mi.transport.seat }
  | .transportTime => r.setTransport fun t => { t with time := mi.transport.time }
  | .transportTime2 => r.setTransport fun t => { t with time2 := mi.transport.time2 }
  | .transportTime3 => r.setTransport fun t => { t with time3 := mi.transport.time3 }
  | .pitch => { r with mi := { r.mi with pitch := o.wrap mi.pitch } }
  | .fallTime => r.setJump fun j => { j with fallTime := mi.jump.fallTime }
  | .fallVerticalSpeed => r.setJump fun j => { j with zspeed := mi.jump.zspeed }
  | .fallCosAngle => r.setJump fun j => { j with cosAngle := mi.jump.cosAngle }
  | .fallSinAngle => r.setJump fun j => { j with sinAngle := mi.jump.sinAngle }
  | .fallHorizontalSpeed => r.setJump fun j => { j with xyspeed := mi.jump.xyspeed }
  | .splineElevation => { r with mi := { r.mi with splineElevation := mi.splineElevation } }
  | .counterCount => { r with counterCount := 0 }
  | _ => r

/-- The extra elements after a part of theirs. -/
def takeExtra (element : MovementStatusElement) (y : ExtraMovementStatusElement) :
    ExtraMovementStatusElement :=
  match element with
  | .hasGuidByte i => { y with guid := update y.guid i (if x.guid i ≠ 0 then 1 else 0) }
  | .guidByte i =>
    if x.guid i ≠ 0 then
      { y with guid := update y.guid i (y.guid i ^^^ (x.guid i ^^^ 1)) }
    else y
  | .extraFloat => { y with floatData := x.floatData }
  | .extraInt8 => { y with byteData := x.byteData }
  | _ => y

/-- The reader after a part. -/
def receive (r : MovementReader) (p : MovementPart) : MovementReader :=
  match p with
  | .own element => if present o u x p then takeOwn o msTime u element r else r
  | .extra element =>
    { r with extras := r.extras.map fun y => { takeExtra x element y with index := y.index + 1 } }

end Take

/-! ## Reading a part -/

/-- What was written is read, and leaves the reader so. -/
def ReadsAs (ops : List WriteOp) (read : ByteBuffer → Option (MovementReader × ByteBuffer))
    (r : MovementReader) : Prop :=
  ∀ (data : ByteBuffer) (rest : Reader), data.Ok →
    matchAll data.view (ops.flatMap WriteOp.pieces) = some rest →
      ∃ data', read data = some (r, data') ∧ data'.Ok ∧ data'.view = rest

theorem reads_nil (r : MovementReader) : ReadsAs [] (fun data => some (r, data)) r := by
  rintro data rest hok ⟨⟩
  exact ⟨data, rfl, hok, rfl⟩

/-- The read that mirrors a write. -/
theorem readBack_of_match {op : WriteOp} (hop : op.Allowed) (hok : data.Ok)
    (h : matchAll data.view ([op].flatMap WriteOp.pieces) = some rest) :
    ∃ data', op.readBack data = some (op.value, data') ∧ data'.Ok ∧ data'.view = rest := by
  rw [flatMap_singleton] at h
  exact (readBack_iff hop hok).1 h

theorem readBit_of_match {b : Bool} (hok : data.Ok)
    (h : matchAll data.view ([WriteOp.writeBit b].flatMap WriteOp.pieces) = some rest) :
    ∃ data', data.readBit = some (b, data') ∧ data'.Ok ∧ data'.view = rest := by
  have hop : (WriteOp.writeBit b).Allowed := trivial
  obtain ⟨data', hread, hok', hview⟩ := readBack_of_match hop hok h
  obtain ⟨⟨bit, data1⟩, hbit, heq⟩ := map_eq_some_iff.1 hread
  cases heq
  exact ⟨_, hbit, hok', hview⟩

theorem read_of_match {width value : ℕ} (hwidth : width ∈ [1, 2, 4, 8])
    (hvalue : value < 256 ^ width) (hok : data.Ok)
    (h : matchAll data.view ([WriteOp.append width value].flatMap WriteOp.pieces) = some rest) :
    ∃ data', data.read width = some (value, data') ∧ data'.Ok ∧ data'.view = rest := by
  have hop : (WriteOp.append width value).Allowed := ⟨hwidth, hvalue⟩
  obtain ⟨data', hread, hok', hview⟩ := readBack_of_match hop hok h
  obtain ⟨⟨value, data1⟩, hnumber, heq⟩ := map_eq_some_iff.1 hread
  cases heq
  exact ⟨_, hnumber, hok', hview⟩

theorem readByteSeq_of_match {b c : UInt8} (hc : c ≠ 0) (hok : data.Ok)
    (h : matchAll data.view ([WriteOp.append 1 (b ^^^ 1).toNat].flatMap WriteOp.pieces) =
      some rest) :
    ∃ data', data.readByteSeq c = some (c ^^^ (b ^^^ 1), data') ∧ data'.Ok ∧
      data'.view = rest := by
  obtain ⟨data', hread, hok', hview⟩ := read_of_match (by decide) (b ^^^ 1).toNat_lt hok h
  refine ⟨data', ?_, hok', hview⟩
  simp only [readByteSeq, if_pos hc, hread, map_some, UInt8.ofNat_toNat]

theorem reads_bit (b : Bool) (set : Bool → MovementReader) :
    ReadsAs [.writeBit b] (fun data => MovementReader.bit data set) (set b) := by
  intro data rest hok h
  obtain ⟨data', hread, hok', hview⟩ := readBit_of_match hok h
  exact ⟨data', by simp only [MovementReader.bit, hread, map_some], hok', hview⟩

/-- An inverted bit. -/
theorem reads_not_bit (b : Bool) (set : Bool → MovementReader) :
    ReadsAs [.writeBit !b] (fun data => MovementReader.bit data fun b => set !b) (set b) := by
  have h := reads_bit (!b) fun b => set !b
  rwa [Bool.not_not] at h

theorem reads_bits {n value : ℕ} (hn : 1 ≤ n ∧ n ≤ 32) (hvalue : value < 2 ^ n)
    (set : ℕ → MovementReader) :
    ReadsAs [.writeBits value n] (fun data => MovementReader.bits n data set) (set value) := by
  intro data rest hok h
  have hop : (WriteOp.writeBits value n).Allowed := ⟨hn.1, hn.2, hvalue⟩
  obtain ⟨data', hread, hok', hview⟩ := readBack_of_match hop hok h
  obtain ⟨⟨value, data1⟩, hbits, heq⟩ := map_eq_some_iff.1 hread
  cases heq
  exact ⟨_, by simp only [MovementReader.bits, hbits, map_some], hok', hview⟩

theorem reads_number (v : UInt32) (set : UInt32 → MovementReader) :
    ReadsAs [.append 4 v.toNat] (fun data => MovementReader.number data set) (set v) := by
  intro data rest hok h
  obtain ⟨data', hread, hok', hview⟩ := read_of_match (by decide) v.toNat_lt hok h
  refine ⟨data', ?_, hok', hview⟩
  simp only [MovementReader.number, hread, map_some, UInt32.ofNat_toNat]

theorem reads_byteSeq {b c : UInt8} (hc : c ≠ 0) (set : UInt8 → MovementReader) :
    ReadsAs [.append 1 (b ^^^ 1).toNat] (fun data => MovementReader.byteSeq c data set)
      (set (c ^^^ (b ^^^ 1))) := by
  intro data rest hok h
  obtain ⟨data', hread, hok', hview⟩ := readByteSeq_of_match hc hok h
  exact ⟨data', by simp only [MovementReader.byteSeq, hread, map_some], hok', hview⟩

/-- A byte of a guid that is there if its presence bit says so. -/
theorem reads_byteSeq_if {b c : UInt8} (hc : decide (c ≠ 0) = present o u x p)
    (hop : p.op o msTime u x = .append 1 (b ^^^ 1).toNat) {set : UInt8 → MovementReader}
    (hset : set c = r) :
    ReadsAs (p.ops o msTime u x) (fun data => MovementReader.byteSeq c data set)
      (if present o u x p then set (c ^^^ (b ^^^ 1)) else r) := by
  rw [MovementPart.ops, ← hc, hop]
  by_cases hzero : c = 0
  · rw [if_neg (by simpa using hzero), if_neg (by simpa using hzero)]
    rintro data rest hok ⟨⟩
    refine ⟨data, ?_, hok, rfl⟩
    simp only [MovementReader.byteSeq, readByteSeq, if_neg (not_not.2 hzero), map_some,
      hset]
  · rw [if_pos (by simpa using hzero), if_pos (by simpa using hzero)]
    exact reads_byteSeq hzero set

/-- A part that is there if its presence bits say so. -/
theorem reads_if {c : Bool} (hc : c = present o u x p)
    {read : ByteBuffer → Option (MovementReader × ByteBuffer)} {r' : MovementReader}
    (h : present o u x p = true → ReadsAs [p.op o msTime u x] read r') :
    ReadsAs (p.ops o msTime u x) (fun data => if c then read data else some (r, data))
      (if present o u x p then r' else r) := by
  unfold MovementPart.ops
  rw [hc]
  split_ifs with hp
  · exact h hp
  · exact reads_nil r

/-- An element is read as its part was written. -/
theorem reads_own (hhandled : (MovementPart.own element).Handled)
    (hflags : u.movementInfo.flags.toNat < 2 ^ 30) (hflags2 : u.movementInfo.flags2.toNat < 2 ^ 13)
    (hheard : ∀ b ∈ (MovementPart.own element).requires, heard r b = said o u x b) :
    ReadsAs ((MovementPart.own element).ops o msTime u x) (readElement o element r)
      (receive o msTime u x r (.own element)) := by
  have hone : ∀ b, (MovementPart.own element).requires = [b] →
      heard r b = present o u x (.own element) := by
    intro b hb
    rw [present, hb, all_cons, all_nil, Bool.and_true,
      hheard b (hb ▸ mem_singleton.2 rfl)]
  have htwo : ∀ b c, (MovementPart.own element).requires = [b, c] →
      (heard r b && heard r c) = present o u x (.own element) := by
    intro b c hb
    rw [present, hb, all_cons, all_cons, all_nil, Bool.and_true,
      hheard b (hb ▸ mem_cons_self),
      hheard c (hb ▸ mem_cons_of_mem b (mem_singleton.2 rfl))]
  cases element with
  | hasGuidByte i =>
    have h := reads_bit (u.guid i ≠ 0) fun b =>
      { r with guid := update r.guid i (if b then 1 else 0) }
    simp only [decide_eq_true_eq] at h
    exact h
  | hasTransportGuidByte i =>
    refine reads_if (hone _ rfl) fun _ => ?_
    have h := reads_bit (u.tguid i ≠ 0) fun b =>
      { r with tguid := update r.tguid i (if b then 1 else 0) }
    simp only [decide_eq_true_eq] at h
    exact h
  | guidByte i =>
    let set := fun b => { r with guid := update r.guid i b }
    have hset : set (r.guid i) = r := by simp only [set, update_eq_self]
    exact reads_byteSeq_if (hone _ rfl) rfl hset
  | transportGuidByte i =>
    let set := fun b => { r with tguid := update r.tguid i b }
    have hset : set (r.tguid i) = r := by simp only [set, update_eq_self]
    have hboth := htwo _ _ rfl
    cases htransport : r.hasTransportData with
    | false =>
      have habsent : present o u x (.own (.transportGuidByte i)) = false := by
        rw [← hboth, heard, htransport, Bool.false_and]
      rw [MovementPart.ops, receive, habsent]
      have hread : readElement o (.transportGuidByte i) r = fun data => some (r, data) :=
        funext fun data => if_neg (by rw [htransport]; exact Bool.false_ne_true)
      rw [hread]
      exact reads_nil r
    | true =>
      have hbyte : decide (r.tguid i ≠ 0) = present o u x (.own (.transportGuidByte i)) := by
        rw [← hboth, heard, htransport, Bool.true_and, heard]
      have hread : readElement o (.transportGuidByte i) r =
          fun data => MovementReader.byteSeq (r.tguid i) data set :=
        funext fun data => if_pos htransport
      rw [hread]
      exact reads_byteSeq_if hbyte rfl hset
  | hasMovementFlags => exact reads_not_bit _ fun b => { r with hasMovementFlags := b }
  | hasMovementFlags2 => exact reads_not_bit _ fun b => { r with hasMovementFlags2 := b }
  | hasTimestamp => exact reads_not_bit _ fun b => { r with hasTimestamp := b }
  | hasOrientation => exact reads_not_bit _ fun b => { r with hasOrientation := b }
  | hasTransportData => exact reads_bit _ fun b => { r with hasTransportData := b }
  | hasTransportTime2 | hasTransportTime3 | hasFallDirection =>
    exact reads_if (hone _ rfl) fun _ => reads_bit _ _
  | hasPitch => exact reads_not_bit _ fun b => { r with hasPitch := b }
  | hasFallData => exact reads_bit _ fun b => { r with hasFallData := b }
  | hasSplineElevation => exact reads_not_bit _ fun b => { r with hasSplineElevation := b }
  | hasSpline => exact reads_bit _ fun _ => r
  | movementFlags =>
    refine reads_if (hone _ rfl) fun _ => ?_
    have h := reads_bits (by decide) hflags fun v =>
      { r with mi := { r.mi with flags := UInt32.ofNat v } }
    rwa [UInt32.ofNat_toNat] at h
  | movementFlags2 =>
    refine reads_if (hone _ rfl) fun _ => ?_
    have h := reads_bits (by decide) hflags2 fun v =>
      { r with mi := { r.mi with flags2 := UInt16.ofNat v } }
    rwa [UInt16.ofNat_toNat] at h
  | timestamp | orientation | transportPositionX | transportPositionY | transportPositionZ
  | transportOrientation | transportTime | pitch | fallTime | fallVerticalSpeed
  | splineElevation => exact reads_if (hone _ rfl) fun _ => reads_number _ _
  | positionX => exact reads_number _ fun v => r.setPos fun p => { p with positionX := v }
  | positionY => exact reads_number _ fun v => r.setPos fun p => { p with positionY := v }
  | positionZ => exact reads_number _ fun v => r.setPos fun p => { p with positionZ := v }
  | transportSeat =>
    refine reads_if (hone _ rfl) fun _ => ?_
    intro data rest hok h
    obtain ⟨data', hread, hok', hview⟩ :=
      read_of_match (by decide) (u.movementInfo.transport.seat.toUInt8.toNat_lt) hok h
    refine ⟨data', ?_, hok', hview⟩
    simp only [hread, map_some, UInt8.ofNat_toNat, Int8.toInt8_toUInt8]
    rfl
  | transportTime2 | transportTime3 | fallCosAngle | fallSinAngle | fallHorizontalSpeed =>
    exact reads_if (htwo _ _ rfl) fun _ => reads_number _ _
  | counterCount => exact reads_bits (by decide) (by decide) fun v => { r with counterCount := v }
  | zeroBit | oneBit => exact reads_bit _ fun _ => r
  | counter | uintCount | hasUnkTime | unkTime | extraElement | extraFloat | extraInt8 =>
    exact absurd (by simp) hhandled

/-- An extra element is read as its part was written. -/
theorem reads_extra {y : ExtraMovementStatusElement} (hextras : r.extras = some y)
    (hnext : y.elements[y.index]? = some element) (hhandled : (MovementPart.extra element).Handled)
    (hheard : ∀ b ∈ (MovementPart.extra element).requires, heard r b = said o u x b) :
    ReadsAs ((MovementPart.extra element).ops o msTime u x) (readElement o extraElement r)
      (receive o msTime u x r (.extra element)) := by
  intro data rest hok h
  simp only [readElement, ExtraMovementStatusElement.readNextElement, receive, hextras, hnext,
    bind_some, map_some]
  cases element with
  | hasGuidByte i =>
    obtain ⟨data', hread, hok', hview⟩ := readBit_of_match hok h
    refine ⟨data', ?_, hok', hview⟩
    simp only [hread, map_some, takeExtra, decide_eq_true_eq]
  | guidByte i =>
    have hbyte := hheard (.extraGuidByte i) (mem_singleton.2 rfl)
    simp only [heard, said, hextras, any_some, decide_eq_decide] at hbyte
    by_cases hzero : x.guid i = 0
    · have hyzero : y.guid i = 0 := not_not.1 fun hne => hbyte.1 hne hzero
      have habsent : present o u x (.extra (.guidByte i)) = false := by
        simp only [present, MovementPart.requires, said, hzero, ne_eq, not_true_eq_false,
          decide_false, all_cons, Bool.false_and]
      rw [MovementPart.ops, habsent] at h
      obtain ⟨data', hread, hok', hview⟩ := reads_nil r data rest hok h
      cases hread
      refine ⟨data, ?_, hok', hview⟩
      simp only [readByteSeq, takeExtra, hyzero, hzero, ne_eq, not_true_eq_false, if_false,
        map_some]
      rw [← hyzero, update_eq_self]
    · have hpresent : present o u x (.extra (.guidByte i)) = true := by
        simp only [present, MovementPart.requires, said, hzero, ne_eq, not_false_eq_true,
          decide_true, all_cons, all_nil, Bool.and_true]
      rw [MovementPart.ops, hpresent] at h
      obtain ⟨data', hread, hok', hview⟩ := readByteSeq_of_match (hbyte.2 hzero) hok h
      refine ⟨data', ?_, hok', hview⟩
      simp only [hread, map_some, takeExtra, ne_eq, hzero, not_false_eq_true, if_true]
  | extraFloat =>
    obtain ⟨data', hread, hok', hview⟩ :=
      read_of_match (by decide) x.floatData.toNat_lt hok h
    refine ⟨data', ?_, hok', hview⟩
    simp only [hread, map_some, UInt32.ofNat_toNat, takeExtra]
  | extraInt8 =>
    obtain ⟨data', hread, hok', hview⟩ :=
      read_of_match (by decide) x.byteData.toUInt8.toNat_lt hok h
    refine ⟨data', ?_, hok', hview⟩
    simp only [hread, map_some, UInt8.ofNat_toNat, Int8.toInt8_toUInt8, takeExtra]
  | _ => exact absurd hhandled id

/-! ## What a part tells the reader -/

/-- What the reader has in the place of a presence bit. -/
def place (r : MovementReader) : PresenceBit → UInt8
  | .guidByte i => r.guid i
  | .transportGuidByte i => r.tguid i
  | .extraGuidByte i => r.extras.elim 0 fun y => y.guid i
  | b => if heard r b then 1 else 0

section Place

variable (o : FloatOps) (u : MovementUnit) (x : ExtraMovementStatusElement)

/-- What belongs there. -/
def original : PresenceBit → UInt8
  | .guidByte i => u.guid i
  | .transportGuidByte i => u.tguid i
  | .extraGuidByte i => x.guid i
  | b => if said o u x b then 1 else 0

/-- The place of a presence bit after a part. -/
def placeAfter (p : MovementPart) (b : PresenceBit) (c : UInt8) : UInt8 :=
  if p.announces = some b ∧ present o u x p then if said o u x b then 1 else 0
  else if p.carries = some b ∧ present o u x p then c ^^^ (original o u x b ^^^ 1)
  else c

end Place

theorem flag_iff (c : Bool) : c ↔ (if c then 1 else 0 : UInt8) ≠ 0 := by
  cases c <;> decide

theorem heard_iff (r : MovementReader) (b : PresenceBit) : heard r b ↔ place r b ≠ 0 := by
  cases b with
  | guidByte i | transportGuidByte i => exact decide_eq_true_iff
  | extraGuidByte i =>
    rw [heard, place]
    cases r.extras with
    | none => simp
    | some y => exact decide_eq_true_iff
  | _ => exact flag_iff _

theorem said_iff (b : PresenceBit) : said o u x b ↔ original o u x b ≠ 0 := by
  cases b with
  | guidByte i | transportGuidByte i | extraGuidByte i => exact decide_eq_true_iff
  | _ => exact flag_iff _

/-- Other parts leave the places of the presence bits alone. -/
theorem takeOwn_of_silent (hannounces : (MovementPart.own element).announces = none)
    (hcarries : (MovementPart.own element).carries = none) (r : MovementReader) :
    ∃ mi counterCount, takeOwn o msTime u element r = { r with mi, counterCount } := by
  cases element <;> first
    | exact ⟨_, _, rfl⟩
    | exact absurd hannounces (some_ne_none _)
    | exact absurd hcarries (some_ne_none _)

theorem place_of_silent (r : MovementReader) (mi : MovementInfo) (counterCount : ℕ)
    (b : PresenceBit) : place { r with mi, counterCount } b = place r b := by
  cases b <;> rfl

/-- An element that is there puts its bit or byte in place. -/
theorem place_takeOwn (element : MovementStatusElement) (r : MovementReader) (b : PresenceBit) :
    place (takeOwn o msTime u element r) b =
      if (MovementPart.own element).announces = some b then if said o u x b then 1 else 0
      else if (MovementPart.own element).carries = some b then
        place r b ^^^ (original o u x b ^^^ 1)
      else place r b := by
  by_cases hsilent : (MovementPart.own element).announces = none ∧
      (MovementPart.own element).carries = none
  · obtain ⟨mi, counterCount, heq⟩ := takeOwn_of_silent hsilent.1 hsilent.2 r
    rw [heq, place_of_silent, hsilent.1, hsilent.2, if_neg (by simp), if_neg (by simp)]
  · cases element with
    | hasGuidByte i =>
      cases b with
      | guidByte j =>
        by_cases hij : i = j
        · subst hij
          simp [place, takeOwn, said, MovementPart.announces]
        · simp [place, takeOwn, MovementPart.announces, MovementPart.carries, hij, Ne.symm hij]
      | _ => rfl
    | hasTransportGuidByte i =>
      cases b with
      | transportGuidByte j =>
        by_cases hij : i = j
        · subst hij
          simp [place, takeOwn, said, MovementPart.announces]
        · simp [place, takeOwn, MovementPart.announces, MovementPart.carries, hij, Ne.symm hij]
      | _ => rfl
    | guidByte i =>
      cases b with
      | guidByte j =>
        by_cases hij : i = j
        · subst hij
          simp [place, takeOwn, original, MovementPart.announces, MovementPart.carries]
        · simp [place, takeOwn, MovementPart.announces, MovementPart.carries, hij, Ne.symm hij]
      | _ => rfl
    | transportGuidByte i =>
      cases b with
      | transportGuidByte j =>
        by_cases hij : i = j
        · subst hij
          simp [place, takeOwn, original, MovementPart.announces, MovementPart.carries]
        · simp [place, takeOwn, MovementPart.announces, MovementPart.carries, hij, Ne.symm hij]
      | _ => rfl
    | _ => first
      | exact absurd ⟨rfl, rfl⟩ hsilent
      | cases b <;> rfl

/-- An extra element that is there puts its bit or byte in place. -/
theorem place_takeExtra {y : ExtraMovementStatusElement} (hextras : r.extras = some y) (i : Fin 8) :
    place (receive o msTime u x r (.extra element)) (.extraGuidByte i) =
      placeAfter o u x (.extra element) (.extraGuidByte i) (y.guid i) := by
  rw [receive, hextras, place, placeAfter]
  cases element with
  | hasGuidByte j =>
    by_cases hij : j = i
    · subst hij
      simp [takeExtra, said, present, MovementPart.announces, MovementPart.requires]
    · simp [takeExtra, MovementPart.announces, MovementPart.carries, hij, Ne.symm hij]
  | guidByte j =>
    by_cases hij : j = i
    · subst hij
      by_cases hzero : x.guid j = 0 <;> simp [takeExtra, said, original, present, hzero,
        MovementPart.announces, MovementPart.carries, MovementPart.requires]
    · by_cases hzero : x.guid j = 0 <;>
        simp [takeExtra, MovementPart.announces, MovementPart.carries, hij, Ne.symm hij, hzero]
  | _ => simp [takeExtra, MovementPart.announces, MovementPart.carries]

/-- A part that is there puts its bit or byte in place. -/
theorem place_receive
    (hextras : ∀ element i, p = .extra element → b = .extraGuidByte i → r.extras ≠ none) :
    place (receive o msTime u x r p) b = placeAfter o u x p b (place r b) := by
  cases p with
  | own element =>
    rw [receive, placeAfter]
    by_cases hp : present o u x (.own element) = true
    · rw [if_pos hp, place_takeOwn (x := x)]
      simp only [hp, and_true]
    · rw [if_neg hp, if_neg (fun h => hp h.2), if_neg (fun h => hp h.2)]
  | extra element =>
    cases b with
    | extraGuidByte i =>
      obtain ⟨y, hy⟩ := ne_none_iff_exists'.1 (hextras element i rfl rfl)
      rw [place_takeExtra hy, place, hy]
      rfl
    | _ =>
      rw [placeAfter, if_neg, if_neg]
      · rfl
      · cases element <;> simp [MovementPart.carries]
      · cases element <;> simp [MovementPart.announces]

theorem said_of_present (hp : present o u x p) (hb : b ∈ p.requires) : said o u x b :=
  all_eq_true.1 hp b hb

theorem mem_requires (h : p.carries = some b) : b ∈ p.requires := by
  cases p with
  | own element =>
    cases element with
    | guidByte i =>
      cases h
      exact mem_singleton.2 rfl
    | transportGuidByte i =>
      cases h
      exact mem_cons_of_mem _ (mem_singleton.2 rfl)
    | _ => exact absurd h.symm (some_ne_none b)
  | extra element =>
    cases element with
    | guidByte i =>
      cases h
      exact mem_singleton.2 rfl
    | _ => exact absurd h.symm (some_ne_none b)

/-- A byte of the guid of a transport that is not zero is of a transport. -/
theorem hasTransportData_of_tguid {i : Fin 8} (h : u.tguid i ≠ 0) : u.hasTransportData = true := by
  rw [MovementUnit.tguid] at h
  split_ifs at h with htransport
  · exact htransport
  · exact absurd rfl h

/-- A presence bit that is set has its part. -/
theorem present_of_announces (h : p.announces = some b) (hb : said o u x b) : present o u x p := by
  have hone : ∀ c, p.requires = [c] → said o u x c → present o u x p := by
    intro c hc hsaid
    rw [present, hc, all_cons, all_nil, Bool.and_true]
    exact hsaid
  cases p with
  | own element =>
    cases element with
    | hasTransportGuidByte i =>
      cases h
      exact hone _ rfl (hasTransportData_of_tguid (of_decide_eq_true hb))
    | hasTransportTime2 =>
      cases h
      exact hone _ rfl (Bool.and_eq_true_iff.1 hb).1
    | hasTransportTime3 =>
      cases h
      exact absurd hb Bool.false_ne_true
    | hasFallDirection =>
      cases h
      exact hone _ rfl (Bool.or_eq_true_iff.2 (.inl hb))
    | _ => first
      | rfl
      | exact absurd h.symm (some_ne_none b)
  | extra element =>
    cases element with
    | hasGuidByte i => rfl
    | _ => exact absurd h.symm (some_ne_none b)

/-- A presence bit of the extra elements is always there. -/
theorem present_of_extra {i : Fin 8} (h : p.announces = some (.extraGuidByte i)) :
    present o u x p := by
  cases p with
  | own element => cases element <;> simp [MovementPart.announces] at h
  | extra element =>
    cases element with
    | hasGuidByte i => rfl
    | _ => exact absurd h.symm (some_ne_none _)

/-- A byte has its part if its presence bit is set. -/
theorem present_of_carries (h : p.carries = some b) (hb : said o u x b) : present o u x p := by
  cases p with
  | own element =>
    cases element with
    | guidByte i =>
      cases h
      exact Bool.and_eq_true_iff.2 ⟨hb, rfl⟩
    | transportGuidByte i =>
      cases h
      have htransport : said o u x .transportData = true :=
        hasTransportData_of_tguid (of_decide_eq_true hb)
      exact Bool.and_eq_true_iff.2 ⟨htransport, Bool.and_eq_true_iff.2 ⟨hb, rfl⟩⟩
    | _ => exact absurd h.symm (some_ne_none b)
  | extra element =>
    cases element with
    | guidByte i =>
      cases h
      exact Bool.and_eq_true_iff.2 ⟨hb, rfl⟩
    | _ => exact absurd h.symm (some_ne_none b)

/-- A part that is a bit is no byte. -/
theorem announces_of_carries (h : p.carries = some b) : p.announces = none ∧ p.isBit = false := by
  cases p with
  | own element =>
    cases element with
    | guidByte i | transportGuidByte i => exact ⟨rfl, rfl⟩
    | _ => exact absurd h.symm (some_ne_none b)
  | extra element =>
    cases element with
    | guidByte i => exact ⟨rfl, rfl⟩
    | _ => exact absurd h.symm (some_ne_none b)

theorem placeAfter_of_said (hb : said o u x b) (p : MovementPart) (c : UInt8) :
    placeAfter o u x p b c = if p.announces = some b then 1
      else if p.carries = some b then c ^^^ (original o u x b ^^^ 1) else c := by
  unfold placeAfter
  by_cases hannounces : p.announces = some b
  · rw [if_pos ⟨hannounces, present_of_announces hannounces hb⟩, if_pos hb, if_pos hannounces]
  · rw [if_neg fun h => hannounces h.1, if_neg hannounces]
    by_cases hcarries : p.carries = some b
    · rw [if_pos ⟨hcarries, present_of_carries hcarries hb⟩, if_pos hcarries]
    · rw [if_neg fun h => hcarries h.1, if_neg hcarries]

theorem placeAfter_of_not_said (hb : ¬said o u x b) (p : MovementPart) (c : UInt8) :
    placeAfter o u x p b c = if p.announces = some b ∧ present o u x p then 0 else c := by
  unfold placeAfter
  rw [if_neg hb, if_neg fun h : p.carries = some b ∧ _ =>
    hb (said_of_present h.2 (mem_requires h.1))]

/-! ## What the reader has heard -/

section Agree

variable (o : FloatOps) (u : MovementUnit) (x : ExtraMovementStatusElement)

/-- The place of a presence bit that was announced. -/
def InPlace (b : PresenceBit) (c : UInt8) : Prop :=
  if said o u x b then c = 1 ∨ c = original o u x b else c = 0

/-- The reader has heard the presence bits of some parts, and no others. -/
structure Agrees (before : List MovementPart) (r : MovementReader) : Prop where
  settled : ∀ b, (∃ q ∈ before, q.announces = some b) → InPlace o u x b (place r b)
  silent : ∀ b, (∀ i, b ≠ .extraGuidByte i) → (∀ q ∈ before, q.announces ≠ some b) →
    place r b = 0

end Agree

theorem InPlace.heard_eq (h : InPlace o u x b (place r b)) : heard r b = said o u x b := by
  refine Bool.eq_iff_iff.2 ?_
  rw [heard_iff]
  unfold InPlace at h
  by_cases hb : said o u x b = true
  · rw [if_pos hb] at h
    refine iff_of_true ?_ hb
    rcases h with h | h
    · rw [h]
      decide
    · rw [h]
      exact (said_iff b).1 hb
  · rw [if_neg hb] at h
    exact iff_of_false (not_not.2 h) hb

/-- A reader that starts has heard nothing. -/
theorem agrees_nil (mi : MovementInfo) (extras : Option ExtraMovementStatusElement) :
    Agrees o u x [] { mi, extras } where
  settled := by
    rintro b ⟨q, hq, -⟩
    exact absurd hq not_mem_nil
  silent := by
    intro b hb _
    cases b with
    | extraGuidByte i => exact absurd rfl (hb i)
    | _ => rfl

/-- A part that follows its presence bits. -/
theorem Agrees.receive {before : List MovementPart} (h : Agrees o u x before r)
    (hp : ∀ b ∈ p.requires, ∃ q ∈ before, q.announces = some b)
    (hextras : ∀ element, p = .extra element → r.extras ≠ none) :
    Agrees o u x (before ++ [p]) (receive o msTime u x r p) where
  settled := by
    rintro b ⟨q, hq, hannounces⟩
    rw [place_receive fun element i he _ => hextras element he, InPlace]
    by_cases hb : said o u x b = true
    · rw [if_pos hb, placeAfter_of_said hb]
      by_cases hself : p.announces = some b
      · exact .inl (if_pos hself)
      · have hbefore : q ∈ before := (mem_append.1 hq).resolve_right fun hq =>
          hself (mem_singleton.1 hq ▸ hannounces)
        have hsettled := h.settled b ⟨q, hbefore, hannounces⟩
        rw [InPlace, if_pos hb] at hsettled
        split_ifs
        · rcases hsettled with hplace | hplace
          · exact .inr (by rw [hplace, (xor_xor_one _).1])
          · exact .inl (by rw [hplace, (xor_xor_one _).2])
        · exact hsettled
    · rw [if_neg hb, placeAfter_of_not_said hb]
      split_ifs with hself
      · rfl
      · by_cases hbefore : ∃ q ∈ before, q.announces = some b
        · have hsettled := h.settled b hbefore
          rwa [InPlace, if_neg hb] at hsettled
        · -- the part announces the bit, but is not there
          obtain rfl : q = p := mem_singleton.1
            ((mem_append.1 hq).resolve_left fun hq => hbefore ⟨q, hq, hannounces⟩)
          refine h.silent b ?_ fun q' hq' hq'' => hbefore ⟨q', hq', hq''⟩
          rintro i rfl
          exact hself ⟨hannounces, present_of_extra hannounces⟩
  silent := by
    intro b hb hnone
    rw [place_receive fun element i he _ => hextras element he]
    have hself : p.announces ≠ some b :=
      hnone p (mem_append.2 (.inr (mem_singleton.2 rfl)))
    have hbefore : ∀ q ∈ before, q.announces ≠ some b := fun q hq =>
      hnone q (mem_append.2 (.inl hq))
    have hcarries : p.carries ≠ some b := by
      intro hcarries
      obtain ⟨q, hq, hq'⟩ := hp b (mem_requires hcarries)
      exact hbefore q hq hq'
    rw [placeAfter, if_neg fun h => hself h.1, if_neg fun h => hcarries h.1]
    exact h.silent b hb hbefore

/-! ## The run of the reader -/

/-- The extra elements to come. -/
def toCome : Option ExtraMovementStatusElement → List MovementStatusElement
  | none => []
  | some y => y.elements.drop y.index

theorem ReadsAs.bind {ops ops' : List WriteOp} {r' : MovementReader}
    {read : ByteBuffer → Option (MovementReader × ByteBuffer)}
    {read' : MovementReader → ByteBuffer → Option (MovementReader × ByteBuffer)}
    (h : ReadsAs ops read r) (h' : ReadsAs ops' (read' r) r') :
    ReadsAs (ops ++ ops') (fun data => (read data).bind fun p => read' p.1 p.2) r' := by
  intro data rest hok hmatch
  rw [flatMap_append, matchAll_append, bind_eq_some_iff] at hmatch
  obtain ⟨r1, hfirst, hmatch⟩ := hmatch
  obtain ⟨data1, hread, hok1, rfl⟩ := h data r1 hok hfirst
  obtain ⟨data2, hread', hok2, hview⟩ := h' data1 rest hok1 hmatch
  exact ⟨data2, by simp only [hread, bind_some, hread'], hok2, hview⟩

theorem extras_takeOwn (element : MovementStatusElement) (r : MovementReader) :
    (takeOwn o msTime u element r).extras = r.extras := by
  cases element <;> rfl

theorem elements_takeExtra (element : MovementStatusElement) (y : ExtraMovementStatusElement) :
    (takeExtra x element y).elements = y.elements := by
  cases element with
  | guidByte i =>
    rw [takeExtra]
    split_ifs <;> rfl
  | _ => rfl

theorem extras_receive_own (element : MovementStatusElement) (r : MovementReader) :
    (receive o msTime u x r (.own element)).extras = r.extras := by
  rw [receive]
  split_ifs
  · exact extras_takeOwn element r
  · rfl

/-- The parts of a sequence are read as they were written. -/
theorem reads_sequence {sequence xs : List MovementStatusElement} {ps before : List MovementPart}
    (hflags : u.movementInfo.flags.toNat < 2 ^ 30) (hflags2 : u.movementInfo.flags2.toNat < 2 ^ 13)
    (hparts : parts xs sequence = some ps) (hhandled : ∀ p ∈ ps, p.Handled)
    (hordered : BitsFirst before ps) (hagrees : Agrees o u x before r)
    (hcome : toCome r.extras = xs) :
    ReadsAs (ps.flatMap (MovementPart.ops o msTime u x)) (readElements o sequence r)
      (ps.foldl (receive o msTime u x) r) := by
  induction sequence generalizing xs ps before r with
  | nil =>
    have hps : some [] = some ps := by
      rw [← hparts]
      cases xs <;> rfl
    cases hps
    exact reads_nil r
  | cons element sequence ih =>
    have hheard : ∀ p : MovementPart, (∀ b ∈ p.requires, ∃ q ∈ before, q.announces = some b) →
        ∀ b ∈ p.requires, heard r b = said o u x b := fun p hp b hb =>
      (hagrees.settled b (hp b hb)).heard_eq
    by_cases hextra : element = extraElement
    · subst hextra
      cases xs with
      | nil => cases hparts
      | cons e xs =>
        obtain ⟨ps, hrest, rfl⟩ := map_eq_some_iff.1 hparts
        obtain ⟨he, hhandled⟩ := forall_mem_cons.1 hhandled
        cases hextras : r.extras with
        | none =>
          rw [hextras] at hcome
          cases hcome
        | some y =>
          rw [hextras] at hcome
          obtain ⟨hnext, hdrop⟩ := getElem?_of_drop hcome
          have hsome : r.extras ≠ none := by
            rw [hextras]
            exact some_ne_none y
          have hcome' : toCome (receive o msTime u x r (.extra e)).extras = xs := by
            rw [receive, hextras, ← hdrop, ← elements_takeExtra (x := x) e y]
            rfl
          exact (reads_extra hextras hnext he (hheard _ hordered.1)).bind (ih hrest hhandled
            hordered.2 (hagrees.receive hordered.1 fun _ _ => hsome) hcome')
    · rw [parts_own hextra] at hparts
      obtain ⟨ps, hrest, rfl⟩ := map_eq_some_iff.1 hparts
      obtain ⟨he, hhandled⟩ := forall_mem_cons.1 hhandled
      refine (reads_own he hflags hflags2 (hheard _ hordered.1)).bind (ih hrest hhandled
        hordered.2 (hagrees.receive hordered.1 fun _ h => nomatch h) ?_)
      rw [extras_receive_own]
      exact hcome

end MistyWorld
