import MistyWorld.MovementReading
import Mathlib.Algebra.Group.Nat.Even

/-!
# Movement packets are read as they were written

If the bits of a packet are one block, the reader finds all its pieces, and no bytes are left. The
target then has each part of the unit that is in the sequence and whose presence bits are set
(`imprint`). Orientations are normalised by the reader, and the pitch is wrapped. A byte of a guid
is the unit's if its part is there an odd number of times. Otherwise its presence bit is left in its
place (`receivedByte`).
-/

open List BitStream Bytes

namespace MistyWorld

open ByteBuffer MovementStatusElement

/-! ## The target -/

section Target

variable (o : FloatOps) (msTime : UInt32) (u : MovementUnit) (x : ExtraMovementStatusElement)

/-- The target with some elements of the unit. -/
def imprint (taken : MovementStatusElement → Bool) (mi : MovementInfo) : MovementInfo :=
  let own := u.movementInfo
  { guid := mi.guid
    flags := if taken .movementFlags then own.flags else mi.flags
    flags2 := if taken .movementFlags2 then own.flags2 else mi.flags2
    pos :=
      { positionX := if taken .positionX then u.pos.positionX else mi.pos.positionX
        positionY := if taken .positionY then u.pos.positionY else mi.pos.positionY
        positionZ := if taken .positionZ then u.pos.positionZ else mi.pos.positionZ
        orientation :=
          if taken .orientation then o.normalizeOrientation u.pos.orientation
          else mi.pos.orientation }
    time := if taken .timestamp then msTime else mi.time
    transport :=
      { guid := mi.transport.guid
        pos :=
          { positionX :=
              if taken .transportPositionX then own.transport.pos.positionX
              else mi.transport.pos.positionX
            positionY :=
              if taken .transportPositionY then own.transport.pos.positionY
              else mi.transport.pos.positionY
            positionZ :=
              if taken .transportPositionZ then own.transport.pos.positionZ
              else mi.transport.pos.positionZ
            orientation :=
              if taken .transportOrientation then
                o.normalizeOrientation own.transport.pos.orientation
              else mi.transport.pos.orientation }
        seat := if taken .transportSeat then own.transport.seat else mi.transport.seat
        time := if taken .transportTime then own.transport.time else mi.transport.time
        time2 := if taken .transportTime2 then own.transport.time2 else mi.transport.time2
        time3 := if taken .transportTime3 then own.transport.time3 else mi.transport.time3 }
    pitch := if taken .pitch then o.wrap own.pitch else mi.pitch
    jump :=
      { fallTime := if taken .fallTime then own.jump.fallTime else mi.jump.fallTime
        zspeed := if taken .fallVerticalSpeed then own.jump.zspeed else mi.jump.zspeed
        sinAngle := if taken .fallSinAngle then own.jump.sinAngle else mi.jump.sinAngle
        cosAngle := if taken .fallCosAngle then own.jump.cosAngle else mi.jump.cosAngle
        xyspeed := if taken .fallHorizontalSpeed then own.jump.xyspeed else mi.jump.xyspeed }
    splineElevation :=
      if taken .splineElevation then own.splineElevation else mi.splineElevation }

/-- An element is in the packet. -/
def inPacket (ps : List MovementPart) (element : MovementStatusElement) : Bool :=
  .own element ∈ ps ∧ present o u x (.own element)

/-- A byte of a guid, as it is read. -/
def receivedByte (ps : List MovementPart) (b : PresenceBit) : UInt8 :=
  if said o u x b ∧ ∃ p ∈ ps, p.announces = some b then
    if Odd (ps.countP fun p => p.carries = some b) then original o u x b else 1
  else 0

/-- The target after a packet. -/
def received (ps : List MovementPart) (mi : MovementInfo) : MovementInfo :=
  let target := imprint o msTime u (inPacket o u x ps) mi
  { target with
    guid := fun i => receivedByte o u x ps (.guidByte i)
    transport :=
      { target.transport with guid := fun i => receivedByte o u x ps (.transportGuidByte i) } }

end Target

variable {o : FloatOps} {msTime : UInt32} {u : MovementUnit} {x : ExtraMovementStatusElement}
  {p : MovementPart} {b : PresenceBit} {r : MovementReader}

theorem imprint_none (mi : MovementInfo) : imprint o msTime u (fun _ => false) mi = mi :=
  rfl

theorem imprint_imprint (s t : MovementStatusElement → Bool) (mi : MovementInfo) :
    imprint o msTime u s (imprint o msTime u t mi) =
      imprint o msTime u (fun element => s element || t element) mi := by
  simp only [imprint, Bool.or_eq_true, ite_or]

theorem mi_takeOwn (element : MovementStatusElement) (r : MovementReader) :
    (takeOwn o msTime u element r).mi =
      imprint o msTime u (fun element' => element' = element) r.mi := by
  cases element <;> rfl

/-- The target has the elements that are in the packet. -/
theorem mi_foldl (ps : List MovementPart) (r : MovementReader) :
    (ps.foldl (receive o msTime u x) r).mi = imprint o msTime u (inPacket o u x ps) r.mi := by
  induction ps generalizing r with
  | nil =>
    have hnone : inPacket o u x [] = fun _ => false := by
      funext element
      exact decide_eq_false fun h => not_mem_nil h.1
    rfl
  | cons p ps ih =>
    rw [foldl_cons, ih]
    have hskip : (∀ element, p = .own element → ¬present o u x p) →
        inPacket o u x (p :: ps) = inPacket o u x ps := by
      intro hp
      funext element
      refine decide_eq_decide.2 (and_congr_left fun hpresent => ?_)
      rw [mem_cons]
      exact or_iff_right fun h => hp element h.symm (h ▸ hpresent)
    cases p with
    | extra element =>
      rw [hskip fun _ h => nomatch h]
      rfl
    | own element =>
      rw [receive]
      by_cases hp : present o u x (.own element) = true
      · rw [if_pos hp, mi_takeOwn, imprint_imprint]
        congr 1
        funext element'
        simp only [inPacket, mem_cons, MovementPart.own.injEq]
        by_cases heq : element' = element
        · subst heq
          simp [hp]
        · simp [heq]
      · rw [if_neg hp, hskip fun _ _ => hp]

/-! ## The bytes of a guid -/

section

variable (hextra : ∀ i, b ≠ .extraGuidByte i)
include hextra

theorem place_foldl_of_not_said (hb : ¬said o u x b) (ps : List MovementPart) (h : place r b = 0) :
    place (ps.foldl (receive o msTime u x) r) b = 0 := by
  induction ps generalizing r with
  | nil => exact h
  | cons p ps ih =>
    refine ih ?_
    rw [place_receive fun _ i _ he => absurd he (hextra i), placeAfter_of_not_said hb, h, ite_self]

/-- The place of a presence bit after parts that are no bytes. -/
theorem place_foldl_of_announced (hb : said o u x b) {ps : List MovementPart}
    (hps : ∀ p ∈ ps, p.carries ≠ some b) (r : MovementReader) :
    place (ps.foldl (receive o msTime u x) r) b =
      if ∃ p ∈ ps, p.announces = some b then 1 else place r b := by
  induction ps generalizing r with
  | nil => rfl
  | cons p ps ih =>
    obtain ⟨hp, hps⟩ := forall_mem_cons.1 hps
    rw [foldl_cons, ih hps, place_receive fun _ i _ he => absurd he (hextra i),
      placeAfter_of_said hb, if_neg hp, ← ite_or]
    exact if_congr (or_comm.trans
      (exists_mem_cons_iff (fun q => q.announces = some b) p ps).symm) rfl rfl

/-- The place of a presence bit after parts that do not announce it. -/
theorem place_foldl_of_carried (hb : said o u x b) {ps : List MovementPart}
    (hps : ∀ p ∈ ps, p.announces ≠ some b) {k : ℕ}
    (h : place r b = if Odd k then original o u x b else 1) :
    place (ps.foldl (receive o msTime u x) r) b =
      if Odd (k + ps.countP fun p => p.carries = some b) then original o u x b else 1 := by
  induction ps generalizing r k with
  | nil => exact h
  | cons p ps ih =>
    obtain ⟨hp, hps⟩ := forall_mem_cons.1 hps
    have hstep : place (receive o msTime u x r p) b =
        if p.carries = some b then place r b ^^^ (original o u x b ^^^ 1) else place r b := by
      rw [place_receive fun _ i _ he => absurd he (hextra i), placeAfter_of_said hb, if_neg hp]
    rw [foldl_cons]
    by_cases hcarries : p.carries = some b
    · have hnext : place (receive o msTime u x r p) b =
          if Odd (k + 1) then original o u x b else 1 := by
        rw [hstep, if_pos hcarries, h]
        by_cases hodd : Odd k
        · rw [if_pos hodd, if_neg fun h' => (Nat.odd_add_one.1 h') hodd, (xor_xor_one _).2]
        · rw [if_neg hodd, if_pos (Nat.odd_add_one.2 hodd), (xor_xor_one _).1]
      rw [ih hps hnext, countP_cons_of_pos (by simpa using hcarries), Nat.add_right_comm,
        Nat.add_assoc]
    · have hnext : place (receive o msTime u x r p) b =
          if Odd k then original o u x b else 1 := by
        rw [hstep, if_neg hcarries, h]
      rw [ih hps hnext, countP_cons_of_neg (by simpa using hcarries)]

end

theorem BitsFirst.of_append {before ps qs : List MovementPart} (h : BitsFirst before (ps ++ qs)) :
    BitsFirst before ps := by
  induction ps generalizing before with
  | nil => trivial
  | cons p ps ih => exact ⟨h.1, ih h.2⟩

/-- Where there is a part, there are the presence bits on which it depends. -/
theorem BitsFirst.exists_announces {before ps : List MovementPart} (h : BitsFirst before ps)
    (hp : p ∈ ps) (hb : b ∈ p.requires) : ∃ q ∈ before ++ ps, q.announces = some b := by
  induction ps generalizing before with
  | nil => exact absurd hp not_mem_nil
  | cons p' ps ih =>
    rcases mem_cons.1 hp with rfl | hp
    · obtain ⟨q, hq, hannounces⟩ := h.1 b hb
      exact ⟨q, mem_append.2 (Or.inl hq), hannounces⟩
    · rw [append_cons]
      exact ih h.2 hp

theorem isBit_of_announces (h : p.announces = some b) : p.isBit = true := by
  have hsome : p.announces.isSome = true := by rw [h, Option.isSome_some]
  unfold MovementPart.isBit
  split <;> first | rfl | exact hsome

/-- A byte is there if it is carried an odd number of times. -/
theorem place_foldl (hextra : ∀ i, b ≠ .extraGuidByte i) {ps : List MovementPart}
    (hordered : BitsFirst [] ps) (hblock : OneBlock ps) (h : place r b = 0) :
    place (ps.foldl (receive o msTime u x) r) b = receivedByte o u x ps b := by
  rw [receivedByte]
  by_cases hb : said o u x b = true
  · obtain ⟨pre, mid, post, rfl, hpre, hmid, hpost⟩ := hblock
    have hnot : ∀ p : MovementPart, p.isBit = false → p.announces ≠ some b := fun p hp h =>
      Bool.false_ne_true (hp.symm.trans (isBit_of_announces h))
    have hcarries : ∀ p ∈ pre ++ mid, p.carries ≠ some b := by
      intro p hp hcarries
      rcases mem_append.1 hp with hp | hp
      · obtain ⟨q, hq, hannounces⟩ :=
          hordered.of_append.of_append.exists_announces hp (mem_requires hcarries)
        exact hnot q (hpre q hq) hannounces
      · exact Bool.false_ne_true ((announces_of_carries hcarries).2.symm.trans (hmid p hp))
    have hcount : (pre ++ mid).countP (fun p => p.carries = some b) = 0 :=
      countP_eq_zero.2 fun p hp => by simpa using hcarries p hp
    have hfirst := @place_foldl_of_announced o msTime u x b hextra hb _ hcarries r
    rw [foldl_append, countP_append, hcount]
    by_cases hsome : ∃ p ∈ pre ++ mid, p.announces = some b
    · rw [if_pos hsome] at hfirst
      obtain ⟨p, hp, hannounces⟩ := hsome
      rw [if_pos ⟨hb, p, mem_append.2 (Or.inl hp), hannounces⟩]
      exact place_foldl_of_carried hextra hb (fun p hp => hnot p (hpost p hp)) hfirst
    · rw [if_neg hsome, h] at hfirst
      have hnone : ¬∃ p ∈ pre ++ mid ++ post, p.announces = some b := by
        rintro ⟨p, hp, hannounces⟩
        rcases mem_append.1 hp with hp | hp
        · exact hsome ⟨p, hp, hannounces⟩
        · exact hnot p (hpost p hp) hannounces
      have hpostCarries : ∀ p ∈ post, p.carries ≠ some b := fun p hp hcarries =>
        hnone (hordered.exists_announces (mem_append.2 (Or.inr hp)) (mem_requires hcarries))
      rw [if_neg fun h => hnone h.2, place_foldl_of_announced hextra hb hpostCarries, hfirst,
        if_neg]
      rintro ⟨p, hp, hannounces⟩
      exact hnot p (hpost p hp) hannounces
  · rw [if_neg fun h => hb h.1]
    exact place_foldl_of_not_said hextra hb ps h

/-! ## The pieces of a packet -/

theorem op_allowed (h : p.Handled) (hflags : u.movementInfo.flags.toNat < 2 ^ 30)
    (hflags2 : u.movementInfo.flags2.toNat < 2 ^ 13) : (p.op o msTime u x).Allowed := by
  cases p with
  | own element =>
    cases element with
    | guidByte i => exact ⟨by decide, (u.guid i ^^^ 1).toNat_lt⟩
    | transportGuidByte i => exact ⟨by decide, (u.tguid i ^^^ 1).toNat_lt⟩
    | transportSeat => exact ⟨by decide, u.movementInfo.transport.seat.toUInt8.toNat_lt⟩
    | movementFlags => exact ⟨by decide, by decide, hflags⟩
    | movementFlags2 => exact ⟨by decide, by decide, hflags2⟩
    | counterCount => exact ⟨by decide, by decide, by decide⟩
    | _ => first
      | trivial
      | exact ⟨by decide, UInt32.toNat_lt _⟩
  | extra element =>
    cases element with
    | guidByte i => exact ⟨by decide, (x.guid i ^^^ 1).toNat_lt⟩
    | extraFloat => exact ⟨by decide, x.floatData.toNat_lt⟩
    | extraInt8 => exact ⟨by decide, x.byteData.toUInt8.toNat_lt⟩
    | _ => trivial

/-- A part that is a bit is put out as bits. -/
theorem pieces_of_isBit (hp : p.isBit = true) {q : Piece} (hq : q ∈ (p.op o msTime u x).pieces) :
    ∃ b, q = .bit b := by
  have hbits : ∀ {n value}, q ∈ (WriteOp.writeBits value n).pieces → ∃ b, q = .bit b := by
    intro n value hq
    obtain ⟨b, -, rfl⟩ := mem_map.1 hq
    exact ⟨b, rfl⟩
  cases p with
  | own element =>
    cases element <;> first
      | exact absurd hp Bool.false_ne_true
      | exact ⟨_, mem_singleton.1 hq⟩
      | exact hbits hq
  | extra element =>
    cases element <;> first
      | exact absurd hp Bool.false_ne_true
      | exact ⟨_, mem_singleton.1 hq⟩

/-- Another part is put out as bytes. -/
theorem pieces_of_not_isBit (h : p.Handled) (hp : p.isBit = false) {q : Piece}
    (hq : q ∈ (p.op o msTime u x).pieces) : ∃ l, q = .bytes l := by
  cases p with
  | own element =>
    cases element <;> first
      | exact absurd hp.symm Bool.false_ne_true
      | exact ⟨_, mem_singleton.1 hq⟩
      | exact absurd (by simp) h
  | extra element =>
    cases element <;> first
      | exact absurd hp.symm Bool.false_ne_true
      | exact ⟨_, mem_singleton.1 hq⟩
      | exact absurd h id

/-- What is written for a part is what is written for a part that is there. -/
theorem mem_ops {op : WriteOp} (h : op ∈ p.ops o msTime u x) : op = p.op o msTime u x := by
  unfold MovementPart.ops at h
  split_ifs at h
  · exact mem_singleton.1 h
  · exact absurd h not_mem_nil

/-- Bits between bytes suit a reader that has nothing left. -/
theorem recovers_between {as bs cs : List Piece} (has : ∀ p ∈ as, ∃ l, p = .bytes l)
    (hbs : ∀ p ∈ bs, ∃ b, p = .bit b) (hcs : ∀ p ∈ cs, ∃ l, p = .bytes l) :
    Recovers 0 [] (as ++ (bs ++ cs)) := by
  induction as with
  | nil =>
    rw [nil_append]
    exact recovers_bits hbs hcs
  | cons p as ih =>
    obtain ⟨l, rfl⟩ := has p mem_cons_self
    exact ⟨Or.inl rfl, ih fun p hp => has p (mem_cons_of_mem _ hp)⟩

/-- A packet whose bits are one block suits a reader. -/
theorem recovers_block {ps : List MovementPart} (hhandled : ∀ p ∈ ps, p.Handled)
    (hblock : OneBlock ps) :
    Recovers 0 [] ((ps.flatMap (MovementPart.ops o msTime u x)).flatMap WriteOp.pieces) := by
  obtain ⟨pre, mid, post, rfl, hpre, hmid, hpost⟩ := hblock
  have hbytes : ∀ qs : List MovementPart, (∀ p ∈ qs, p.Handled ∧ p.isBit = false) →
      ∀ q ∈ (qs.flatMap (MovementPart.ops o msTime u x)).flatMap WriteOp.pieces,
        ∃ l, q = .bytes l := by
    intro qs hqs q hq
    obtain ⟨op, hop, hq⟩ := mem_flatMap.1 hq
    obtain ⟨p, hp, hop⟩ := mem_flatMap.1 hop
    rw [mem_ops hop] at hq
    exact pieces_of_not_isBit (hqs p hp).1 (hqs p hp).2 hq
  have hbits : ∀ q ∈ (mid.flatMap (MovementPart.ops o msTime u x)).flatMap WriteOp.pieces,
      ∃ b, q = .bit b := by
    intro q hq
    obtain ⟨op, hop, hq⟩ := mem_flatMap.1 hq
    obtain ⟨p, hp, hop⟩ := mem_flatMap.1 hop
    rw [mem_ops hop] at hq
    exact pieces_of_isBit (hmid p hp) hq
  have hfirst := hbytes pre fun p hp => ⟨hhandled p (by simp [hp]), hpre p hp⟩
  have hlast := hbytes post fun p hp => ⟨hhandled p (by simp [hp]), hpost p hp⟩
  rw [append_assoc, flatMap_append, flatMap_append, flatMap_append,
    flatMap_append]
  exact recovers_between hfirst hbits hlast

/-! ## Round trips -/

/-- A packet that the buffer takes is written and read to its end, and the target has the parts of
the unit that are in it. -/
theorem readMovementInfo_of_writeMovementInfo {sequence xs : List MovementStatusElement}
    {ps : List MovementPart} (hparts : parts xs sequence = some ps)
    (hhandled : ∀ p ∈ ps, p.Handled) (hordered : BitsFirst [] ps) (hblock : OneBlock ps)
    (hflags : u.movementInfo.flags.toNat < 2 ^ 30)
    (hflags2 : u.movementInfo.flags2.toNat < 2 ^ 13) {movementCounter : UInt32}
    {extras extras' : Option ExtraMovementStatusElement} (hcarries : Carries x xs extras)
    (hcome : toCome extras' = xs)
    (hfit : Within 0 (chunks [] ((ps.flatMap (MovementPart.ops o msTime u x)).flatMap
      WriteOp.pieces))) (mi : MovementInfo) (a : MovementAuras) :
    ∃ w packet, writeMovementInfo o msTime u sequence { movementCounter, extras, data := {} } =
        some w ∧ w.data.flushBits = some packet ∧
      ∀ data : ByteBuffer, data.storage = packet.storage → data.rpos = 0 → data.bitpos = 8 →
        ∃ r data', readElements o sequence { mi, extras := extras' } data = some (r, data') ∧
          r.target = received o msTime u x ps mi ∧ data'.rpos = data'.storage.length ∧
          readMovementInfo o a sequence mi extras' data =
            some (r.removeFlags o a (received o msTime u x ps mi), r.extras, data') := by
  set ops := ps.flatMap (MovementPart.ops o msTime u x) with hops
  have hallowed : ∀ op ∈ ops, op.Allowed := by
    intro op hop
    obtain ⟨p, hp, hop⟩ := mem_flatMap.1 hop
    rw [mem_ops hop]
    exact op_allowed (hhandled p hp) hflags hflags2
  -- the bytes of the packet
  have hnil : ([] : List Bool).length ≤ 7 := Nat.zero_le _
  have hwritten := @writeMovementInfo_eq o msTime u x sequence xs ps hparts hhandled
    { movementCounter, extras, data := {} } hcarries
  have hput := writeAll_writing hallowed hnil []
  have hfresh : writing [] [] = ({} : ByteBuffer) := rfl
  have hfits : put (chunks [] (ops.flatMap WriteOp.pieces)) [] =
      some (out [] (ops.flatMap WriteOp.pieces)) := put_eq_some_iff.2 ⟨hfit, rfl⟩
  rw [hfits, hfresh, ← hwritten, Option.map_some] at hput
  obtain ⟨sent, hsent, hflush⟩ := Option.bind_eq_some_iff.1 hput
  obtain ⟨w, hwrite, rfl⟩ := Option.map_eq_some_iff.1 hsent
  refine ⟨w, _, hwrite, hflush, fun data hstorage hrpos hbitpos => ?_⟩
  have hok : data.Ok := by
    rw [Ok, hrpos]
    exact Nat.zero_le _
  have hview : data.view = ⟨List.replicate 0 false, out [] (ops.flatMap WriteOp.pieces)⟩ := by
    have hleft : (bits data.curbitval).drop (data.bitpos + 1) = [] :=
      drop_eq_nil_of_le (by rw [length_bits, hbitpos]; decide)
    rw [view, hleft, hrpos, drop_zero, hstorage]
    rfl
  -- the reader finds all pieces
  obtain ⟨l, hmatch⟩ := (matchAll_iff (Nat.zero_le _) hnil fun s hs => str_pieces hallowed hs).2
    (recovers_block hhandled hblock)
  rw [map_nil, nil_append, ← hview] at hmatch
  obtain ⟨data', hread, hok', hview'⟩ := reads_sequence hflags hflags2 hparts hhandled hordered
    (agrees_nil mi extras') hcome data _ hok hmatch
  have hend : data'.storage.drop data'.rpos = [] := congrArg Reader.input hview'
  have htarget : (ps.foldl (receive o msTime u x) { mi, extras := extras' }).target =
      received o msTime u x ps mi := by
    have hmi := @mi_foldl o msTime u x ps { mi, extras := extras' }
    have hguid : (ps.foldl (receive o msTime u x) { mi, extras := extras' }).guid =
        fun i => receivedByte o u x ps (.guidByte i) := by
      funext i
      exact place_foldl (b := .guidByte i) (by rintro _ ⟨⟩) hordered hblock rfl
    have htguid : (ps.foldl (receive o msTime u x) { mi, extras := extras' }).tguid =
        fun i => receivedByte o u x ps (.transportGuidByte i) := by
      funext i
      exact place_foldl (b := .transportGuidByte i) (by rintro _ ⟨⟩) hordered hblock rfl
    rw [MovementReader.target, hmi, hguid, htguid]
    rfl
  refine ⟨_, data', hread, htarget, Nat.le_antisymm hok' (drop_eq_nil_iff.1 hend), ?_⟩
  rw [readMovementInfo, hread, ← htarget]
  rfl

/-- Floats that are in range, apart from a pitch of `4.0`. -/
def sampleFloats : FloatOps where
  normalizeOrientation := id
  wrap value := if value = 0x40800000 then 0xC0121FB6 else value
  fuzzyEqZero value := value = 0

/-- A position without orientation. -/
def samplePosition : Position where
  positionX := 0x40000000
  positionY := 0
  positionZ := 0
  orientation := 0

/-- A guid with one byte that is not zero. -/
def flyerGuid : ObjectGuid :=
  fun i => if i.val = 0 then 5 else 0

/-- A unit that flies with a pitch of `4.0`. -/
def flyer : MovementUnit where
  guid := flyerGuid
  transGuid _ := 0
  pos := samplePosition
  splineEnabled := false
  movementInfo :=
    { guid := flyerGuid
      flags := 0x01000000
      flags2 := 0
      pos := samplePosition
      time := 0
      transport := ⟨fun _ => 0, samplePosition, 0, 0, 0, 0⟩
      pitch := 0x40800000
      jump := ⟨0, 0, 0, 0, 0⟩
      splineElevation := 0 }

/-- An extra byte. -/
def flyerExtras (index : ℕ) : ExtraMovementStatusElement where
  elements := [extraInt8]
  index := index
  guid _ := 0
  floatData := 0
  byteData := 9

/-- The packet of the unit that flies is read to its end. -/
theorem readMovementInfo_of_writeMovementInfo_flyer :
    let sequence : List MovementStatusElement := [positionX, hasGuidByte 0, hasTransportData,
      hasPitch, guidByte 0, pitch, extraElement]
    let ps : List MovementPart := [.own positionX, .own (hasGuidByte 0), .own hasTransportData,
      .own hasPitch, .own (guidByte 0), .own pitch, .extra extraInt8]
    let mi := flyer.movementInfo
    let a : MovementAuras := ⟨false, false, false, false, false, false⟩
    ∃ w packet, writeMovementInfo sampleFloats 0 flyer sequence
        { movementCounter := 0, extras := some (flyerExtras 0), data := {} } = some w ∧
      w.data.flushBits = some packet ∧
      ∀ data : ByteBuffer, data.storage = packet.storage → data.rpos = 0 → data.bitpos = 8 →
        ∃ r data', readElements sampleFloats sequence { mi, extras := some (flyerExtras 0) } data =
            some (r, data') ∧
          r.target = received sampleFloats 0 flyer (flyerExtras 0) ps mi ∧
          data'.rpos = data'.storage.length ∧
          readMovementInfo sampleFloats a sequence mi (some (flyerExtras 0)) data =
            some (r.removeFlags sampleFloats a
              (received sampleFloats 0 flyer (flyerExtras 0) ps mi), r.extras, data') := by
  intro sequence ps mi a
  have hparts : parts [extraInt8] sequence = some ps := rfl
  have hhandled : ∀ p ∈ ps, p.Handled := by
    simp [ps, MovementPart.Handled]
  have hordered : BitsFirst [] ps :=
    ⟨by decide, by decide, by decide, by decide, by decide, by decide, by decide, trivial⟩
  have hblock : OneBlock ps :=
    ⟨[.own positionX], [.own (hasGuidByte 0), .own hasTransportData, .own hasPitch],
      [.own (guidByte 0), .own pitch, .extra extraInt8], rfl, by decide, by decide, by decide⟩
  have hcarries : Carries (flyerExtras 0) [extraInt8] (some (flyerExtras 0)) :=
    ⟨rfl, rfl, rfl, rfl⟩
  have hcome : toCome (some (flyerExtras 0)) = [extraInt8] := rfl
  have hchunks : chunks [] ((ps.flatMap (MovementPart.ops sampleFloats 0 flyer
      (flyerExtras 0))).flatMap WriteOp.pieces) =
        [[0, 0, 0, 64], [128], [4], [0, 0, 128, 64], [9]] := rfl
  exact readMovementInfo_of_writeMovementInfo hparts hhandled hordered hblock (by decide)
    (by decide) hcarries hcome (by rw [hchunks]; simp [Within]) mi a

/-- A presence bit without its byte leaves `1` in the guid, and a pitch of `4.0` is wrapped. -/
theorem not_read_as_written :
    let sequence : List MovementStatusElement := [hasGuidByte 0, hasPitch, pitch]
    let ps : List MovementPart := [.own (hasGuidByte 0), .own hasPitch, .own pitch]
    let packet := writing [] [128, 0, 0, 128, 64]
    parts [] sequence = some ps ∧ (∀ p ∈ ps, p.Handled) ∧ BitsFirst [] ps ∧ OneBlock ps ∧
      (∀ p ∈ ps, present sampleFloats flyer (flyerExtras 0) p = true) ∧
      flyer.movementInfo.flags.toNat < 2 ^ 30 ∧ flyer.movementInfo.flags2.toNat < 2 ^ 13 ∧
      (writeMovementInfo sampleFloats 0 flyer sequence
        { movementCounter := 0, extras := none, data := {} }).bind (·.data.flushBits) =
          some packet ∧
      (readElements sampleFloats sequence { mi := flyer.movementInfo, extras := none }
        { storage := packet.storage }).map (fun (r, _) => (r.target.guid 0, r.target.pitch)) =
          some (1, 0xC0121FB6) ∧
      flyer.guid 0 = 5 ∧ flyer.movementInfo.pitch = 0x40800000 := by
  refine ⟨rfl, by simp [MovementPart.Handled], ⟨by decide, by decide, by decide, trivial⟩,
    ⟨[], [.own (hasGuidByte 0), .own hasPitch], [.own pitch], rfl, by decide, by decide,
      by decide⟩, by decide, by decide, by decide, by decide, by decide, rfl, rfl⟩

end MistyWorld
