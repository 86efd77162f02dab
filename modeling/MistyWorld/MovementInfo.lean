import MistyWorld.PackedGuid

/-!
# Movement packets

`Unit::WriteMovementInfo` and `Player::ReadMovementInfo` work off the same kind of element sequence.
An element says that a part has a bit for its presence, or is the part itself, and each kind of
packet has its own order of them. The writer computes beforehand which parts there are. The reader
learns it from the bits, some of which are written inverted, and some of which are there only if
another part is.

Floats are taken as their four bytes (`FloatBits`), and what is computed of them is given
(`FloatOps`). `getMSTime` answers the same during a packet. The look-up of the sequence by the
opcode is left out.
-/

open Function Bytes

namespace MistyWorld

/-- `ObjectGuid`, by its bytes. -/
abbrev ObjectGuid := Fin 8 → UInt8

/-- The bytes of a float. -/
abbrev FloatBits := UInt32

/-- What is computed of floats : `Position::NormalizeOrientation`, `G3D::wrap` to the interval from
`-M_PI` to `M_PI`, and whether `G3D::fuzzyEq` finds a float to be zero. -/
structure FloatOps where
  normalizeOrientation : FloatBits → FloatBits
  wrap : FloatBits → FloatBits
  fuzzyEqZero : FloatBits → Bool

/-- `Position` -/
structure Position where
  positionX : FloatBits
  positionY : FloatBits
  positionZ : FloatBits
  orientation : FloatBits
  deriving DecidableEq, Repr

/-- `MovementInfo::TransportInfo` -/
structure TransportInfo where
  guid : ObjectGuid
  pos : Position
  seat : Int8
  time : UInt32
  time2 : UInt32
  time3 : UInt32

/-- `MovementInfo::JumpInfo` -/
structure JumpInfo where
  fallTime : UInt32
  zspeed : FloatBits
  sinAngle : FloatBits
  cosAngle : FloatBits
  xyspeed : FloatBits
  deriving DecidableEq, Repr

/-- `MovementInfo` -/
structure MovementInfo where
  guid : ObjectGuid
  flags : UInt32
  flags2 : UInt16
  pos : Position
  time : UInt32
  transport : TransportInfo
  pitch : FloatBits
  jump : JumpInfo
  splineElevation : FloatBits

/-- `MovementStatusElements`, without `MSEEnd`, which ends a sequence. -/
inductive MovementStatusElement
  | hasGuidByte (i : Fin 8)
  | hasMovementFlags
  | hasMovementFlags2
  | hasTimestamp
  | hasOrientation
  | hasTransportData
  | hasTransportGuidByte (i : Fin 8)
  | hasTransportTime2
  | hasTransportTime3
  | hasPitch
  | hasFallData
  | hasFallDirection
  | hasSplineElevation
  | hasSpline
  | guidByte (i : Fin 8)
  | movementFlags
  | movementFlags2
  | timestamp
  | positionX
  | positionY
  | positionZ
  | orientation
  | transportGuidByte (i : Fin 8)
  | transportPositionX
  | transportPositionY
  | transportPositionZ
  | transportOrientation
  | transportSeat
  | transportTime
  | transportTime2
  | transportTime3
  | pitch
  | fallTime
  | fallVerticalSpeed
  | fallCosAngle
  | fallSinAngle
  | fallHorizontalSpeed
  | splineElevation
  | counter
  | counterCount
  | uintCount
  | hasUnkTime
  | unkTime
  | zeroBit
  | oneBit
  | extraElement
  | extraFloat
  | extraInt8
  deriving DecidableEq, Repr

/-- `ExtraMovementStatusElement` -/
structure ExtraMovementStatusElement where
  elements : List MovementStatusElement
  index : ℕ := 0
  guid : ObjectGuid
  floatData : FloatBits
  byteData : Int8

/-! ## Writing -/

/-- What `WriteMovementInfo` uses of a unit. `transGuid` is the answer of `GetTransGUID`. -/
structure MovementUnit where
  guid : ObjectGuid
  transGuid : ObjectGuid
  pos : Position
  splineEnabled : Bool
  movementInfo : MovementInfo

namespace MovementUnit

variable (o : FloatOps) (u : MovementUnit)

/-- `HasUnitMovementFlag` -/
def hasUnitMovementFlag (flag : UInt32) : Bool :=
  u.movementInfo.flags &&& flag ≠ 0

/-- `HasExtraUnitMovementFlag` -/
def hasExtraUnitMovementFlag (flag : UInt16) : Bool :=
  u.movementInfo.flags2 &&& flag ≠ 0

/-! The locals of `WriteMovementInfo`. -/

def hasMovementFlags : Bool :=
  u.movementInfo.flags ≠ 0

def hasMovementFlags2 : Bool :=
  u.movementInfo.flags2 ≠ 0

def hasTimestamp : Bool :=
  true

def hasOrientation : Bool :=
  !o.fuzzyEqZero u.pos.orientation

def hasTransportData : Bool :=
  ∃ i, u.transGuid i ≠ 0

def hasSpline : Bool :=
  u.splineEnabled

def hasTransportTime2 : Bool :=
  u.hasTransportData && u.movementInfo.transport.time2 ≠ 0

def hasTransportTime3 : Bool :=
  false

def hasPitch : Bool :=
  -- `MOVEMENTFLAG_SWIMMING | MOVEMENTFLAG_FLYING`, `MOVEMENTFLAG2_ALWAYS_ALLOW_PITCHING`
  u.hasUnitMovementFlag (0x00100000 ||| 0x01000000) || u.hasExtraUnitMovementFlag 0x00000010

def hasFallDirection : Bool :=
  -- `MOVEMENTFLAG_FALLING`
  u.hasUnitMovementFlag 0x00000800

def hasFallData : Bool :=
  u.hasFallDirection || u.movementInfo.jump.fallTime ≠ 0

def hasSplineElevation : Bool :=
  -- `MOVEMENTFLAG_SPLINE_ELEVATION`
  u.hasUnitMovementFlag 0x02000000

def tguid : ObjectGuid :=
  if u.hasTransportData then u.transGuid else fun _ => 0

end MovementUnit

/-- `ExtraMovementStatusElement::WriteNextElement`. Beyond the end of the elements the code reads
what is not theirs. -/
def ExtraMovementStatusElement.writeNextElement (x : ExtraMovementStatusElement)
    (packet : ByteBuffer) : Option (ExtraMovementStatusElement × ByteBuffer) :=
  match x.elements[x.index]? with
  | none => none
  | some element =>
    (match element with
    | .hasGuidByte i => packet.writeBit (x.guid i).toNat
    | .guidByte i => packet.writeByteSeq (x.guid i)
    | .extraFloat => packet.appendValue 4 x.floatData.toNat
    | .extraInt8 => packet.appendValue 1 x.byteData.toUInt8.toNat
    | _ => none).map fun packet => ({ x with index := x.index + 1 }, packet)

/-- What changes while a packet is written. -/
structure MovementWriter where
  movementCounter : UInt32
  extras : Option ExtraMovementStatusElement
  data : ByteBuffer

/-- A write to the packet. -/
def MovementWriter.put (w : MovementWriter) (write : ByteBuffer → Option ByteBuffer) :
    Option MovementWriter :=
  (write w.data).map fun data => { w with data }

section Write

open ByteBuffer

variable (o : FloatOps) (msTime : UInt32) (u : MovementUnit)

/-- An element in `WriteMovementInfo`. -/
def writeElement (element : MovementStatusElement) (w : MovementWriter) : Option MovementWriter :=
  let mi := u.movementInfo
  match element with
  | .hasGuidByte i => w.put (writeBit (u.guid i).toNat)
  | .hasTransportGuidByte i =>
    if u.hasTransportData then w.put (writeBit (u.tguid i).toNat) else some w
  | .guidByte i => w.put (writeByteSeq (u.guid i))
  | .transportGuidByte i =>
    if u.hasTransportData then w.put (writeByteSeq (u.tguid i)) else some w
  | .hasMovementFlags => w.put (writeBit (!u.hasMovementFlags).toNat)
  | .hasMovementFlags2 => w.put (writeBit (!u.hasMovementFlags2).toNat)
  | .hasTimestamp => w.put (writeBit (!MovementUnit.hasTimestamp).toNat)
  | .hasOrientation => w.put (writeBit (!u.hasOrientation o).toNat)
  | .hasTransportData => w.put (writeBit u.hasTransportData.toNat)
  | .hasTransportTime2 =>
    if u.hasTransportData then w.put (writeBit u.hasTransportTime2.toNat) else some w
  | .hasTransportTime3 =>
    if u.hasTransportData then w.put (writeBit MovementUnit.hasTransportTime3.toNat) else some w
  | .hasPitch => w.put (writeBit (!u.hasPitch).toNat)
  | .hasFallData => w.put (writeBit u.hasFallData.toNat)
  | .hasFallDirection =>
    if u.hasFallData then w.put (writeBit u.hasFallDirection.toNat) else some w
  | .hasSplineElevation => w.put (writeBit (!u.hasSplineElevation).toNat)
  | .hasSpline => w.put (writeBit u.hasSpline.toNat)
  | .movementFlags =>
    if u.hasMovementFlags then w.put (writeBits mi.flags.toNat 30) else some w
  | .movementFlags2 =>
    if u.hasMovementFlags2 then w.put (writeBits mi.flags2.toNat 13) else some w
  | .timestamp =>
    if MovementUnit.hasTimestamp then w.put (appendValue 4 msTime.toNat) else some w
  | .positionX => w.put (appendValue 4 u.pos.positionX.toNat)
  | .positionY => w.put (appendValue 4 u.pos.positionY.toNat)
  | .positionZ => w.put (appendValue 4 u.pos.positionZ.toNat)
  | .orientation =>
    if u.hasOrientation o then w.put (appendValue 4 u.pos.orientation.toNat) else some w
  | .transportPositionX =>
    if u.hasTransportData then w.put (appendValue 4 mi.transport.pos.positionX.toNat) else some w
  | .transportPositionY =>
    if u.hasTransportData then w.put (appendValue 4 mi.transport.pos.positionY.toNat) else some w
  | .transportPositionZ =>
    if u.hasTransportData then w.put (appendValue 4 mi.transport.pos.positionZ.toNat) else some w
  | .transportOrientation =>
    if u.hasTransportData then w.put (appendValue 4 mi.transport.pos.orientation.toNat) else some w
  | .transportSeat =>
    if u.hasTransportData then w.put (appendValue 1 mi.transport.seat.toUInt8.toNat) else some w
  | .transportTime =>
    if u.hasTransportData then w.put (appendValue 4 mi.transport.time.toNat) else some w
  | .transportTime2 =>
    if u.hasTransportData && u.hasTransportTime2 then
      w.put (appendValue 4 mi.transport.time2.toNat)
    else some w
  | .transportTime3 =>
    if u.hasTransportData && MovementUnit.hasTransportTime3 then
      w.put (appendValue 4 mi.transport.time3.toNat)
    else some w
  | .pitch => if u.hasPitch then w.put (appendValue 4 mi.pitch.toNat) else some w
  | .fallTime => if u.hasFallData then w.put (appendValue 4 mi.jump.fallTime.toNat) else some w
  | .fallVerticalSpeed =>
    if u.hasFallData then w.put (appendValue 4 mi.jump.zspeed.toNat) else some w
  | .fallCosAngle =>
    if u.hasFallData && u.hasFallDirection then w.put (appendValue 4 mi.jump.cosAngle.toNat)
    else some w
  | .fallSinAngle =>
    if u.hasFallData && u.hasFallDirection then w.put (appendValue 4 mi.jump.sinAngle.toNat)
    else some w
  | .fallHorizontalSpeed =>
    if u.hasFallData && u.hasFallDirection then w.put (appendValue 4 mi.jump.xyspeed.toNat)
    else some w
  | .splineElevation =>
    if u.hasSplineElevation then w.put (appendValue 4 mi.splineElevation.toNat) else some w
  | .counterCount => w.put (writeBits 0 22)
  | .counter =>
    { w with movementCounter := w.movementCounter + 1 }.put
      (appendValue 4 w.movementCounter.toNat)
  | .zeroBit => w.put (writeBit 0)
  | .oneBit => w.put (writeBit 1)
  | .extraElement =>
    w.extras.bind fun extras =>
      (extras.writeNextElement w.data).map fun (extras, data) =>
        { w with extras := some extras, data }
  | .uintCount => w.put (appendValue 4 0)
  -- the assertion fails
  | .hasUnkTime | .unkTime | .extraFloat | .extraInt8 => none

/-- `Unit::WriteMovementInfo` -/
def writeMovementInfo : List MovementStatusElement → MovementWriter → Option MovementWriter
  | [], w => some w
  | element :: sequence, w => (writeElement o msTime u element w).bind (writeMovementInfo sequence)

end Write

/-! ## Reading -/

namespace ByteBuffer

/-- `ByteBuffer::read_skip` -/
def readSkip (skip : ℕ) (buf : ByteBuffer) : Option ByteBuffer :=
  if buf.storage.length < buf.rpos + skip then none
  else some { buf with rpos := buf.rpos + skip }

/-- The loop that skips as many numbers as there are counters. -/
def readSkips : ℕ → ByteBuffer → Option ByteBuffer
  | 0, buf => some buf
  | n + 1, buf => (buf.readSkip 4).bind (readSkips n)

end ByteBuffer

/-- `ExtraMovementStatusElement::ReadNextElement` -/
def ExtraMovementStatusElement.readNextElement (x : ExtraMovementStatusElement)
    (packet : ByteBuffer) : Option (ExtraMovementStatusElement × ByteBuffer) :=
  match x.elements[x.index]? with
  | none => none
  | some element =>
    let x := { x with index := x.index + 1 }
    match element with
    | .hasGuidByte i =>
      packet.readBit.map fun (bit, packet) =>
        ({ x with guid := update x.guid i (if bit then 1 else 0) }, packet)
    | .guidByte i =>
      (packet.readByteSeq (x.guid i)).map fun (b, packet) =>
        ({ x with guid := update x.guid i b }, packet)
    | .extraFloat =>
      (packet.read 4).map fun (value, packet) =>
        ({ x with floatData := UInt32.ofNat value }, packet)
    | .extraInt8 =>
      (packet.read 1).map fun (value, packet) =>
        ({ x with byteData := (UInt8.ofNat value).toInt8 }, packet)
    | _ => none

/-- The locals of `ReadMovementInfo`, with the target and the extra elements. -/
structure MovementReader where
  hasMovementFlags : Bool := false
  hasMovementFlags2 : Bool := false
  hasTimestamp : Bool := false
  hasOrientation : Bool := false
  hasTransportData : Bool := false
  hasTransportTime2 : Bool := false
  hasTransportTime3 : Bool := false
  hasPitch : Bool := false
  hasFallData : Bool := false
  hasFallDirection : Bool := false
  hasSplineElevation : Bool := false
  hasUnkTime : Bool := false
  counterCount : ℕ := 0
  guid : ObjectGuid := fun _ => 0
  tguid : ObjectGuid := fun _ => 0
  mi : MovementInfo
  extras : Option ExtraMovementStatusElement

namespace MovementReader

/-- A read of a bit. -/
def bit (data : ByteBuffer) (set : Bool → MovementReader) :
    Option (MovementReader × ByteBuffer) :=
  data.readBit.map fun (bit, data) => (set bit, data)

/-- A read of bits. -/
def bits (n : ℕ) (data : ByteBuffer) (set : ℕ → MovementReader) :
    Option (MovementReader × ByteBuffer) :=
  (data.readBits n 0).map fun (value, data) => (set value, data)

/-- A read of four bytes. -/
def number (data : ByteBuffer) (set : UInt32 → MovementReader) :
    Option (MovementReader × ByteBuffer) :=
  (data.read 4).map fun (value, data) => (set (UInt32.ofNat value), data)

/-- A read of a byte that is there if its bit was set. -/
def byteSeq (b : UInt8) (data : ByteBuffer) (set : UInt8 → MovementReader) :
    Option (MovementReader × ByteBuffer) :=
  (data.readByteSeq b).map fun (b, data) => (set b, data)

/-- A change of the transport in the target. -/
def setTransport (r : MovementReader) (f : TransportInfo → TransportInfo) : MovementReader :=
  { r with mi := { r.mi with transport := f r.mi.transport } }

/-- A change of the fall in the target. -/
def setJump (r : MovementReader) (f : JumpInfo → JumpInfo) : MovementReader :=
  { r with mi := { r.mi with jump := f r.mi.jump } }

/-- A change of the position in the target. -/
def setPos (r : MovementReader) (f : Position → Position) : MovementReader :=
  { r with mi := { r.mi with pos := f r.mi.pos } }

/-- A change of the position on the transport in the target. -/
def setTransportPos (r : MovementReader) (f : Position → Position) : MovementReader :=
  r.setTransport fun t => { t with pos := f t.pos }

end MovementReader

section Read

open MovementReader

variable (o : FloatOps)

/-- An element in `ReadMovementInfo`. -/
def readElement (element : MovementStatusElement) (r : MovementReader) (data : ByteBuffer) :
    Option (MovementReader × ByteBuffer) :=
  match element with
  | .hasGuidByte i =>
    bit data fun b => { r with guid := update r.guid i (if b then 1 else 0) }
  | .hasTransportGuidByte i =>
    if r.hasTransportData then
      bit data fun b => { r with tguid := update r.tguid i (if b then 1 else 0) }
    else some (r, data)
  | .guidByte i =>
    byteSeq (r.guid i) data fun b => { r with guid := update r.guid i b }
  | .transportGuidByte i =>
    if r.hasTransportData then
      byteSeq (r.tguid i) data fun b => { r with tguid := update r.tguid i b }
    else some (r, data)
  | .hasMovementFlags => bit data fun b => { r with hasMovementFlags := !b }
  | .hasMovementFlags2 => bit data fun b => { r with hasMovementFlags2 := !b }
  | .hasTimestamp => bit data fun b => { r with hasTimestamp := !b }
  | .hasOrientation => bit data fun b => { r with hasOrientation := !b }
  | .hasTransportData => bit data fun b => { r with hasTransportData := b }
  | .hasTransportTime2 =>
    if r.hasTransportData then bit data fun b => { r with hasTransportTime2 := b }
    else some (r, data)
  | .hasTransportTime3 =>
    if r.hasTransportData then bit data fun b => { r with hasTransportTime3 := b }
    else some (r, data)
  | .hasPitch => bit data fun b => { r with hasPitch := !b }
  | .hasFallData => bit data fun b => { r with hasFallData := b }
  | .hasFallDirection =>
    if r.hasFallData then bit data fun b => { r with hasFallDirection := b } else some (r, data)
  | .hasSplineElevation => bit data fun b => { r with hasSplineElevation := !b }
  | .hasSpline => bit data fun _ => r
  | .movementFlags =>
    if r.hasMovementFlags then
      bits 30 data fun v => { r with mi := { r.mi with flags := UInt32.ofNat v } }
    else some (r, data)
  | .movementFlags2 =>
    if r.hasMovementFlags2 then
      bits 13 data fun v => { r with mi := { r.mi with flags2 := UInt16.ofNat v } }
    else some (r, data)
  | .timestamp =>
    if r.hasTimestamp then number data fun v => { r with mi := { r.mi with time := v } }
    else some (r, data)
  | .positionX => number data fun v => r.setPos fun p => { p with positionX := v }
  | .positionY => number data fun v => r.setPos fun p => { p with positionY := v }
  | .positionZ => number data fun v => r.setPos fun p => { p with positionZ := v }
  | .orientation =>
    if r.hasOrientation then
      number data fun v => r.setPos fun p => { p with orientation := o.normalizeOrientation v }
    else some (r, data)
  | .transportPositionX =>
    if r.hasTransportData then
      number data fun v => r.setTransportPos fun p => { p with positionX := v }
    else some (r, data)
  | .transportPositionY =>
    if r.hasTransportData then
      number data fun v => r.setTransportPos fun p => { p with positionY := v }
    else some (r, data)
  | .transportPositionZ =>
    if r.hasTransportData then
      number data fun v => r.setTransportPos fun p => { p with positionZ := v }
    else some (r, data)
  | .transportOrientation =>
    if r.hasTransportData then
      number data fun v =>
        r.setTransportPos fun p => { p with orientation := o.normalizeOrientation v }
    else some (r, data)
  | .transportSeat =>
    if r.hasTransportData then
      (data.read 1).map fun (v, data) =>
        (r.setTransport fun t => { t with seat := (UInt8.ofNat v).toInt8 }, data)
    else some (r, data)
  | .transportTime =>
    if r.hasTransportData then number data fun v => r.setTransport fun t => { t with time := v }
    else some (r, data)
  | .transportTime2 =>
    if r.hasTransportData && r.hasTransportTime2 then
      number data fun v => r.setTransport fun t => { t with time2 := v }
    else some (r, data)
  | .transportTime3 =>
    if r.hasTransportData && r.hasTransportTime3 then
      number data fun v => r.setTransport fun t => { t with time3 := v }
    else some (r, data)
  | .pitch =>
    if r.hasPitch then number data fun v => { r with mi := { r.mi with pitch := o.wrap v } }
    else some (r, data)
  | .fallTime =>
    if r.hasFallData then number data fun v => r.setJump fun j => { j with fallTime := v }
    else some (r, data)
  | .fallVerticalSpeed =>
    if r.hasFallData then number data fun v => r.setJump fun j => { j with zspeed := v }
    else some (r, data)
  | .fallCosAngle =>
    if r.hasFallData && r.hasFallDirection then
      number data fun v => r.setJump fun j => { j with cosAngle := v }
    else some (r, data)
  | .fallSinAngle =>
    if r.hasFallData && r.hasFallDirection then
      number data fun v => r.setJump fun j => { j with sinAngle := v }
    else some (r, data)
  | .fallHorizontalSpeed =>
    if r.hasFallData && r.hasFallDirection then
      number data fun v => r.setJump fun j => { j with xyspeed := v }
    else some (r, data)
  | .splineElevation =>
    if r.hasSplineElevation then
      number data fun v => { r with mi := { r.mi with splineElevation := v } }
    else some (r, data)
  | .counterCount => bits 22 data fun v => { r with counterCount := v }
  | .counter => (data.readSkips r.counterCount).map fun data => (r, data)
  | .hasUnkTime => bit data fun b => { r with hasUnkTime := !b }
  | .unkTime =>
    if r.hasUnkTime then (data.readSkip 4).map fun data => (r, data) else some (r, data)
  | .zeroBit | .oneBit => bit data fun _ => r
  | .extraElement =>
    r.extras.bind fun extras =>
      (extras.readNextElement data).map fun (extras, data) =>
        ({ r with extras := some extras }, data)
  -- the assertion fails
  | .uintCount | .extraFloat | .extraInt8 => none

/-- The loop of `ReadMovementInfo`. -/
def readElements : List MovementStatusElement → MovementReader → ByteBuffer →
    Option (MovementReader × ByteBuffer)
  | [], r, data => some (r, data)
  | element :: sequence, r, data =>
    (readElement o element r data).bind fun (r, data) => readElements sequence r data

end Read

/-- The target as the loop leaves it. -/
def MovementReader.target (r : MovementReader) : MovementInfo :=
  { r.mi with guid := r.guid, transport := { r.mi.transport with guid := r.tguid } }

/-! ## The flags that are removed -/

/-- What the anti-cheat checks ask of the player and of what it moves. -/
structure MovementAuras where
  hover : Bool
  waterWalk : Bool
  featherFall : Bool
  secPlayer : Bool
  moverFly : Bool
  moverIncreaseMountedFlightSpeed : Bool

/-- `MovementInfo::HasMovementFlag` -/
def MovementInfo.hasMovementFlag (mi : MovementInfo) (flag : UInt32) : Bool :=
  mi.flags &&& flag ≠ 0

/-- `REMOVE_VIOLATING_FLAGS` -/
def removeViolatingFlags (check : MovementInfo → Bool) (maskToRemove : UInt32)
    (mi : MovementInfo) : MovementInfo :=
  if check mi then { mi with flags := mi.flags &&& ~~~maskToRemove } else mi

/-- The checks of `ReadMovementInfo`, in order. -/
def MovementReader.removeFlags (o : FloatOps) (a : MovementAuras) (r : MovementReader)
    (mi : MovementInfo) : MovementInfo :=
  -- `MOVEMENTFLAG_ROOT`
  let mi := removeViolatingFlags (·.hasMovementFlag 0x00000400) 0x00000400 mi
  -- `MOVEMENTFLAG_HOVER`
  let mi := removeViolatingFlags (·.hasMovementFlag 0x10000000 && !a.hover) 0x10000000 mi
  -- `MOVEMENTFLAG_ASCENDING`, `MOVEMENTFLAG_DESCENDING`
  let mi := removeViolatingFlags
    (fun mi => mi.hasMovementFlag 0x00200000 && mi.hasMovementFlag 0x00400000)
    (0x00200000 ||| 0x00400000) mi
  -- `MOVEMENTFLAG_LEFT`, `MOVEMENTFLAG_RIGHT`
  let mi := removeViolatingFlags
    (fun mi => mi.hasMovementFlag 0x00000010 && mi.hasMovementFlag 0x00000020)
    (0x00000010 ||| 0x00000020) mi
  -- `MOVEMENTFLAG_STRAFE_LEFT`, `MOVEMENTFLAG_STRAFE_RIGHT`
  let mi := removeViolatingFlags
    (fun mi => mi.hasMovementFlag 0x00000004 && mi.hasMovementFlag 0x00000008)
    (0x00000004 ||| 0x00000008) mi
  -- `MOVEMENTFLAG_PITCH_UP`, `MOVEMENTFLAG_PITCH_DOWN`
  let mi := removeViolatingFlags
    (fun mi => mi.hasMovementFlag 0x00000040 && mi.hasMovementFlag 0x00000080)
    (0x00000040 ||| 0x00000080) mi
  -- `MOVEMENTFLAG_FORWARD`, `MOVEMENTFLAG_BACKWARD`
  let mi := removeViolatingFlags
    (fun mi => mi.hasMovementFlag 0x00000001 && mi.hasMovementFlag 0x00000002)
    (0x00000001 ||| 0x00000002) mi
  -- `MOVEMENTFLAG_WATERWALKING`
  let mi := removeViolatingFlags (·.hasMovementFlag 0x04000000 && !a.waterWalk) 0x04000000 mi
  -- `MOVEMENTFLAG_FALLING_SLOW`
  let mi := removeViolatingFlags (·.hasMovementFlag 0x08000000 && !a.featherFall) 0x08000000 mi
  -- `MOVEMENTFLAG_FLYING`, `MOVEMENTFLAG_CAN_FLY`
  let mi := removeViolatingFlags
    (·.hasMovementFlag (0x01000000 ||| 0x00800000) && a.secPlayer && !a.moverFly &&
      !a.moverIncreaseMountedFlightSpeed)
    (0x01000000 ||| 0x00800000) mi
  -- `MOVEMENTFLAG_DISABLE_GRAVITY`, `MOVEMENTFLAG_CAN_FLY`, `MOVEMENTFLAG_FALLING`
  let mi := removeViolatingFlags
    (fun mi => mi.hasMovementFlag (0x00000200 ||| 0x00800000) && mi.hasMovementFlag 0x00000800)
    0x00000800 mi
  let mi := removeViolatingFlags
    (·.hasMovementFlag 0x00000800 && (!r.hasFallData || !r.hasFallDirection)) 0x00000800 mi
  -- `MOVEMENTFLAG_SPLINE_ELEVATION`
  let mi := removeViolatingFlags
    (fun mi => mi.hasMovementFlag 0x02000000 &&
      (!r.hasSplineElevation || o.fuzzyEqZero mi.splineElevation)) 0x02000000 mi
  if r.hasSplineElevation then { mi with flags := mi.flags ||| 0x02000000 } else mi

/-- `Player::ReadMovementInfo` -/
def readMovementInfo (o : FloatOps) (a : MovementAuras) (sequence : List MovementStatusElement)
    (mi : MovementInfo) (extras : Option ExtraMovementStatusElement) (data : ByteBuffer) :
    Option (MovementInfo × Option ExtraMovementStatusElement × ByteBuffer) :=
  (readElements o sequence { mi, extras } data).map fun (r, data) =>
    (r.removeFlags o a r.target, r.extras, data)

end MistyWorld
