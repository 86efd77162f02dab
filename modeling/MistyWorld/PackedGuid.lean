import MistyWorld.BufferReuse
import Mathlib.Data.List.FinRange
import Mathlib.Data.List.Nodup
import Mathlib.Data.Nat.Bitwise
import Mathlib.Logic.Equiv.Fin.Basic
import Mathlib.Tactic.Ring

/-!
# Guids in packets

A guid is put into a packet in two ways. `appendPackGUID` writes a byte that says which bytes of the
guid are not zero, and then these bytes. Elsewhere the packet has a bit for each byte of the guid in
some order, and then, in another order, the bytes that are not zero, with the lowest bit
complemented. The reader of the second form keeps the bits in the places of the bytes, and
`ReadByteSeq` turns the bit that it finds there into the byte.
-/

open Function List BitStream Bytes

namespace MistyWorld

namespace ByteBuffer

/-! ## Packed guids -/

/-- The loop of `appendPackGUID`, which ends when the rest of the guid is zero. There are no more
turns than bytes. -/
def packLoop : ℕ → ℕ → ℕ → UInt8 × List UInt8 → UInt8 × List UInt8
  | 0, _, _, pack => pack
  | turns + 1, i, guid, pack =>
    if guid = 0 then pack
    else packLoop turns (i + 1) (guid >>> 8)
      (if guid &&& 255 ≠ 0 then
        (pack.1 ||| (1 <<< UInt8.ofNat i), pack.2 ++ [UInt8.ofNat (guid &&& 255)])
      else pack)

/-- `ByteBuffer::appendPackGUID` -/
def appendPackGUID (guid : UInt64) (buf : ByteBuffer) : Option ByteBuffer :=
  let pack := packLoop 8 0 guid.toNat (0, [])
  buf.append (pack.1 :: pack.2)

/-- The loop of `readPackGUID` over the bits of the mark. -/
def readPackLoop (guidmark : ℕ) : ℕ → ℕ → ℕ → ByteBuffer → Option (ℕ × ByteBuffer)
  | 0, _, guid, buf => some (guid, buf)
  | turns + 1, i, guid, buf =>
    if guidmark &&& (1 <<< i) ≠ 0 then
      (buf.read 1).bind fun (bit, buf) =>
        readPackLoop guidmark turns (i + 1) (guid ||| (bit <<< (i * 8))) buf
    else readPackLoop guidmark turns (i + 1) guid buf

/-- `ByteBuffer::readPackGUID` -/
def readPackGUID (buf : ByteBuffer) : Option (ℕ × ByteBuffer) :=
  (buf.read 1).bind fun (guidmark, buf) => readPackLoop guidmark 8 0 0 buf

/-! ## Bits and byte sequences -/

/-- `ByteBuffer::WriteByteSeq` -/
def writeByteSeq (b : UInt8) (buf : ByteBuffer) : Option ByteBuffer :=
  if b ≠ 0 then buf.appendValue 1 (b ^^^ 1).toNat else some buf

/-- `ByteBuffer::ReadByteSeq`, in place. -/
def readByteSeq (b : UInt8) (buf : ByteBuffer) : Option (UInt8 × ByteBuffer) :=
  if b ≠ 0 then (buf.read 1).map fun (value, buf) => (b ^^^ UInt8.ofNat value, buf)
  else some (b, buf)

/-- The mask of a guid, in an order. -/
def writeMask (guid : Fin 8 → UInt8) : List (Fin 8) → ByteBuffer → Option ByteBuffer
  | [], buf => some buf
  | i :: is, buf => (buf.writeBit (guid i).toNat).bind (writeMask guid is)

/-- The bytes of a guid, in an order. -/
def writeSeq (guid : Fin 8 → UInt8) : List (Fin 8) → ByteBuffer → Option ByteBuffer
  | [], buf => some buf
  | i :: is, buf => (buf.writeByteSeq (guid i)).bind (writeSeq guid is)

/-- The mask is read into the places of the bytes. -/
def readMask : List (Fin 8) → (Fin 8 → UInt8) → ByteBuffer →
    Option ((Fin 8 → UInt8) × ByteBuffer)
  | [], guid, buf => some (guid, buf)
  | i :: is, guid, buf =>
    buf.readBit.bind fun (bit, buf) =>
      readMask is (update guid i (if bit then 1 else 0)) buf

/-- The bytes are read where the mask has them. -/
def readSeq : List (Fin 8) → (Fin 8 → UInt8) → ByteBuffer → Option ((Fin 8 → UInt8) × ByteBuffer)
  | [], guid, buf => some (guid, buf)
  | i :: is, guid, buf =>
    (buf.readByteSeq (guid i)).bind fun (b, buf) => readSeq is (update guid i b) buf

/-! ## What a packed guid is -/

/-- The bits of the mark for some bytes, from a place on. -/
def marks : ℕ → List UInt8 → UInt8 → UInt8
  | _, [], mark => mark
  | i, b :: bs, mark => marks (i + 1) bs (if b ≠ 0 then mark ||| (1 <<< UInt8.ofNat i) else mark)

theorem toBytes_zero (n : ℕ) : toBytes n 0 = List.replicate n 0 := by
  induction n with
  | zero => rfl
  | succ n ih => rw [toBytes, Nat.zero_div, ih, replicate_succ]; rfl

theorem marks_replicate (i n : ℕ) (mark : UInt8) : marks i (List.replicate n 0) mark = mark := by
  induction n generalizing i with
  | zero => rfl
  | succ n ih => rw [replicate_succ, marks, if_neg (by decide), ih]

/-- A guid is packed into the mark and the bytes that are not zero. -/
theorem packLoop_eq (turns i guid : ℕ) (mark : UInt8) (l : List UInt8) :
    packLoop turns i guid (mark, l) =
      (marks i (toBytes turns guid) mark, l ++ (toBytes turns guid).filter (· ≠ 0)) := by
  induction turns generalizing i guid mark l with
  | zero => rw [packLoop, toBytes, marks, filter_nil, append_nil]
  | succ turns ih =>
    rw [packLoop]
    split_ifs with hzero hbyte
    · rw [hzero, toBytes_zero, marks_replicate, filter_eq_nil_iff.2 fun b hb => ?_,
        append_nil]
      rw [eq_of_mem_replicate hb]
      decide
    · have hand : guid &&& 255 = guid % 256 := Nat.and_two_pow_sub_one_eq_mod guid 8
      have hlow : UInt8.ofNat (guid &&& 255) = UInt8.ofNat guid := by
        rw [hand]
        exact UInt8.toNat_inj.1 (by simp)
      have hne : UInt8.ofNat guid ≠ 0 := by
        intro h
        have hmod := congrArg UInt8.toNat h
        exact hbyte (hand.trans hmod)
      rw [ih, toBytes, marks, if_pos hne, filter_cons_of_pos (by simpa using hne), hlow,
        append_assoc, Nat.shiftRight_eq_div_pow]
      rfl
    · have hand : guid &&& 255 = guid % 256 := Nat.and_two_pow_sub_one_eq_mod guid 8
      have hnot : UInt8.ofNat guid = 0 := by
        refine UInt8.toNat_inj.1 ?_
        exact hand.symm.trans (not_not.1 hbyte)
      rw [ih, toBytes, hnot, marks, if_neg (by decide), filter_cons_of_neg (by decide),
        Nat.shiftRight_eq_div_pow]

/-- The mark has the bit of each byte that is not zero. -/
theorem testBit_marks {i : ℕ} {bs : List UInt8} (h : i + bs.length ≤ 8) (mark : UInt8) (j : ℕ) :
    (marks i bs mark).toNat.testBit j =
      (mark.toNat.testBit j || (decide (i ≤ j) && (bs[j - i]?.any (· ≠ 0)))) := by
  induction bs generalizing i mark with
  | nil => simp [marks]
  | cons b bs ih =>
    rw [length_cons] at h
    have hone : (1 <<< UInt8.ofNat i : UInt8).toNat = 2 ^ i := by
      have hall : ∀ i < 8, (1 <<< UInt8.ofNat i : UInt8).toNat = 2 ^ i := by decide
      exact hall i (by omega)
    have hset : (if b ≠ 0 then mark ||| (1 <<< UInt8.ofNat i) else mark).toNat.testBit j =
        (mark.toNat.testBit j || (decide (i = j) && decide (b ≠ 0))) := by
      split_ifs with hb
      · rw [UInt8.toNat_or, hone, Nat.testBit_or, Nat.testBit_two_pow, decide_eq_true hb,
          Bool.and_true]
      · rw [decide_eq_false hb, Bool.and_false, Bool.or_false]
    rw [marks, ih (by omega), hset, Bool.or_assoc]
    congr 1
    rcases lt_trichotomy i j with hlt | rfl | hgt
    · obtain ⟨k, rfl⟩ : ∃ k, j = i + 1 + k := ⟨j - (i + 1), by omega⟩
      have h1 : i + 1 + k - (i + 1) = k := by omega
      have h2 : i + 1 + k - i = k + 1 := by omega
      rw [h1, h2, List.getElem?_cons_succ]
      simp [hlt.ne, hlt.le]
    · simp
    · have h1 : ¬ i = j := by omega
      have h2 : ¬ i + 1 ≤ j := by omega
      have h3 : ¬ i ≤ j := by omega
      simp [h1, h2, h3]

variable {r : ByteBuffer}

/-- A byte is read. -/
theorem read_one {b : UInt8} {rest : List UInt8} (h : r.storage.drop r.rpos = b :: rest) :
    r.read 1 = some (b.toNat, { r with rpos := r.rpos + 1 }) := by
  have hlen := congrArg List.length h
  rw [length_drop, length_cons] at hlen
  have hbyte : ofBytes [b] = b.toNat := add_zero _
  rw [read, if_neg (by omega), h, take_succ_cons, take_zero, hbyte]

/-- The bytes that the mark names are put to their places. -/
theorem readPackLoop_eq {mark i guid : ℕ} {bs rest : List UInt8}
    (hmark : ∀ k < bs.length, mark.testBit (i + k) = bs[k]?.any (· ≠ 0)) (hguid : guid < 256 ^ i)
    (hinput : r.storage.drop r.rpos = bs.filter (· ≠ 0) ++ rest) :
    readPackLoop mark bs.length i guid r = some (guid + 256 ^ i * ofBytes bs,
      { r with rpos := r.rpos + (bs.filter (· ≠ 0)).length }) := by
  induction bs generalizing i guid r with
  | nil => simp [readPackLoop, ofBytes]
  | cons b bs ih =>
    have hfirst : mark.testBit i = decide (b ≠ 0) := by simpa using hmark 0 (by simp)
    have hrest : ∀ k < bs.length, mark.testBit (i + 1 + k) = bs[k]?.any (· ≠ 0) := by
      intro k hk
      have h := hmark (k + 1) (by simpa using hk)
      rwa [List.getElem?_cons_succ, add_comm k 1, ← add_assoc] at h
    have hpow : 256 ^ (i + 1) = 256 ^ i * 256 := Nat.pow_succ 256 i
    have hbit : mark &&& (1 <<< i) ≠ 0 ↔ b ≠ 0 := by
      rw [Nat.one_shiftLeft, Nat.and_two_pow, hfirst]
      by_cases hb : b = 0 <;> simp [hb]
    rw [length_cons, readPackLoop]
    by_cases hb : b = 0
    · rw [if_neg (fun h => hbit.1 h hb)]
      have hfilter : (b :: bs).filter (· ≠ 0) = bs.filter (· ≠ 0) :=
        filter_cons_of_neg (by simpa using hb)
      rw [hfilter] at hinput ⊢
      rw [ih hrest (by omega) hinput, ofBytes, hb, hpow]
      have hzero : (0 : UInt8).toNat = 0 := rfl
      rw [hzero, zero_add, Nat.mul_assoc]
    · have hfilter : (b :: bs).filter (· ≠ 0) = b :: bs.filter (· ≠ 0) :=
        filter_cons_of_pos (by simpa using hb)
      rw [hfilter, cons_append] at hinput
      have hshift : guid ||| (b.toNat <<< (i * 8)) = guid + 256 ^ i * b.toNat := by
        have hlt : guid < 2 ^ (i * 8) := by
          rw [mul_comm, Nat.pow_mul]
          exact hguid
        rw [or_shiftLeft _ hlt, mul_comm i 8, Nat.pow_mul]
      have hbyte := b.toNat_lt
      have hguid' : guid + 256 ^ i * b.toNat < 256 ^ (i + 1) := by
        have hle : 256 ^ i * b.toNat ≤ 256 ^ i * 255 := Nat.mul_le_mul_left _ (by omega)
        omega
      have hinput' : ({ r with rpos := r.rpos + 1 } : ByteBuffer).storage.drop
          ({ r with rpos := r.rpos + 1 } : ByteBuffer).rpos = bs.filter (· ≠ 0) ++ rest := by
        have h := congrArg (List.drop 1) hinput
        rwa [drop_drop, drop_succ_cons, drop_zero] at h
      rw [if_pos (hbit.2 hb), read_one hinput, Option.bind_some]
      dsimp only
      rw [hshift, ih hrest hguid' hinput', hfilter, length_cons, ofBytes, hpow]
      simp only [Option.some.injEq, Prod.mk.injEq, ByteBuffer.mk.injEq, and_true]
      constructor
      · ring
      · omega

variable {buf : ByteBuffer}

/-- The bytes that are appended stand at the write position. -/
theorem drop_append {src : List UInt8} {buf' : ByteBuffer} (h : buf.append src = some buf')
    (hw : buf.wpos ≤ buf.storage.length) :
    ∃ rest, buf'.storage.drop buf.wpos = src ++ rest ∧ buf'.wpos = buf.wpos + src.length := by
  rw [append] at h
  split_ifs at h
  cases h
  have htake : ((resized buf.storage (buf.wpos + src.length)).take buf.wpos).length = buf.wpos := by
    rw [length_take, resized, length_append]
    omega
  refine ⟨(resized buf.storage (buf.wpos + src.length)).drop (buf.wpos + src.length), ?_, rfl⟩
  rw [append_assoc]
  exact drop_left' htake

/-- The mark and the bytes are appended to a buffer that is not too large. -/
theorem exists_appendPackGUID (guid : UInt64) (h : buf.storage.length < 10000000) :
    ∃ buf', buf.appendPackGUID guid = some buf' := by
  rw [appendPackGUID, append, if_neg (cons_ne_nil _ _), if_pos h]
  exact ⟨_, rfl⟩

/-- What `appendPackGUID` writes is read as the guid, and no more bytes are taken. -/
theorem readPackGUID_of_append {guid : UInt64} {buf' : ByteBuffer}
    (h : buf.appendPackGUID guid = some buf') (hw : buf.wpos ≤ buf.storage.length)
    (hstorage : r.storage = buf'.storage) (hr : r.rpos = buf.wpos) :
    r.readPackGUID = some (guid.toNat, { r with rpos := buf'.wpos }) := by
  rw [appendPackGUID, packLoop_eq, nil_append] at h
  obtain ⟨rest, hdrop, hlen⟩ := drop_append h hw
  set bs := toBytes 8 guid.toNat with hbs
  have hlength : bs.length = 8 := length_toBytes 8 guid.toNat
  have hfirst : r.storage.drop r.rpos = marks 0 bs 0 :: (bs.filter (· ≠ 0) ++ rest) := by
    rw [hstorage, hr, hdrop]
    rfl
  have hmark : ∀ k < bs.length, (marks 0 bs 0).toNat.testBit (0 + k) = bs[k]?.any (· ≠ 0) := by
    intro k _
    have hzero : (0 : UInt8).toNat = 0 := rfl
    rw [testBit_marks (by omega), hzero, Nat.zero_testBit, Nat.zero_add, Bool.false_or,
      decide_eq_true (Nat.zero_le k), Bool.true_and, Nat.sub_zero]
  have hinput : ({ r with rpos := r.rpos + 1 } : ByteBuffer).storage.drop
      ({ r with rpos := r.rpos + 1 } : ByteBuffer).rpos = bs.filter (· ≠ 0) ++ rest := by
    have hd := congrArg (List.drop 1) hfirst
    rwa [drop_drop, drop_succ_cons, drop_zero] at hd
  have hloop := readPackLoop_eq hmark Nat.one_pos hinput
  have hguid : ofBytes bs = guid.toNat := ofBytes_toBytes 8 guid.toNat_lt
  rw [hlength, hguid, Nat.pow_zero, Nat.one_mul, zero_add] at hloop
  rw [readPackGUID, read_one hfirst, Option.bind_some]
  simp only
  rw [hloop, hlen, length_cons, hr]
  simp only [Option.some.injEq, Prod.mk.injEq, ByteBuffer.mk.injEq, and_true, true_and]
  omega

/-! ## What a mask and its bytes are -/

/-- The writes of the bytes of a guid, in an order. -/
def seqOps (guid : Fin 8 → UInt8) (is : List (Fin 8)) : List WriteOp :=
  (is.filter (guid · ≠ 0)).map fun i => .append 1 (guid i ^^^ 1).toNat

theorem writeBit_congr (b : UInt8) (buf : ByteBuffer) :
    buf.writeBit b.toNat = buf.writeBit (decide (b ≠ 0)).toNat := by
  have hne : b.toNat ≠ 0 ↔ (decide (b ≠ 0)).toNat ≠ 0 := by
    by_cases hb : b = 0
    · subst hb
      decide
    · rw [decide_eq_true hb]
      exact iff_of_true (fun h => hb (UInt8.toNat_inj.1 h)) Nat.one_ne_zero
  unfold writeBit
  simp only [hne]

theorem writeMask_eq (guid : Fin 8 → UInt8) (is : List (Fin 8)) (buf : ByteBuffer) :
    writeMask guid is buf = writeAll (is.map fun i => .writeBit (decide (guid i ≠ 0))) buf := by
  induction is generalizing buf with
  | nil => rfl
  | cons i is ih =>
    rw [writeMask, map_cons, writeAll, writeBit_congr]
    exact Option.bind_congr fun buf' _ => ih buf'

theorem writeSeq_eq (guid : Fin 8 → UInt8) (is : List (Fin 8)) (buf : ByteBuffer) :
    writeSeq guid is buf = writeAll (seqOps guid is) buf := by
  induction is generalizing buf with
  | nil => rfl
  | cons i is ih =>
    rw [writeSeq, writeByteSeq]
    by_cases hi : guid i = 0
    · have hskip : seqOps guid (i :: is) = seqOps guid is := by
        rw [seqOps, filter_cons_of_neg (by simpa using hi)]
        rfl
      rw [if_neg (not_not.2 hi), hskip, Option.bind_some]
      exact ih buf
    · have hcons : seqOps guid (i :: is) =
          .append 1 (guid i ^^^ 1).toNat :: seqOps guid is := by
        rw [seqOps, filter_cons_of_pos (by simpa using hi)]
        rfl
      rw [if_pos hi, hcons, writeAll]
      exact Option.bind_congr fun buf' _ => ih buf'

theorem writeAll_append (ops ops' : List WriteOp) (buf : ByteBuffer) :
    writeAll (ops ++ ops') buf = (writeAll ops buf).bind (writeAll ops') := by
  induction ops generalizing buf with
  | nil => rfl
  | cons op ops ih =>
    rw [cons_append, writeAll, writeAll, Option.bind_assoc]
    exact Option.bind_congr fun buf' _ => ih buf'

variable {guid : Fin 8 → UInt8} {before : List Bool} {is : List (Fin 8)}

/-- Bits that are found are read into the places of the bytes. -/
theorem readMask_of_match (his : is.Nodup) (hok : buf.Ok) {r' : Reader}
    (h : matchBits buf.view (is.map fun i => decide (guid i ≠ 0)) = some r') (g : Fin 8 → UInt8) :
    ∃ buf', readMask is g buf =
        some (fun i => if i ∈ is then (if guid i ≠ 0 then 1 else 0) else g i, buf') ∧
      buf'.Ok ∧ buf'.view = r' := by
  induction is generalizing buf g with
  | nil =>
    cases h
    exact ⟨buf, by simp [readMask], hok, rfl⟩
  | cons i is ih =>
    obtain ⟨hi, his⟩ := nodup_cons.1 his
    rw [map_cons, matchBits] at h
    rcases readBit_eq hok with ⟨htake, -⟩ | ⟨bit, buf1, htake, hread, hok1⟩
    · rw [htake] at h
      cases h
    · rw [htake] at h
      simp only at h
      split_ifs at h with hbit
      subst hbit
      obtain ⟨buf', hmask, hok', hview⟩ :=
        ih his hok1 h (update g i (if decide (guid i ≠ 0) then 1 else 0))
      refine ⟨buf', ?_, hok', hview⟩
      rw [readMask, hread, Option.bind_some]
      simp only
      rw [hmask]
      congr 2
      funext j
      by_cases hj : j = i
      · subst hj
        simp [hi]
      · simp [hj]

/-- A byte and its complement are turned into each other. -/
theorem xor_xor_one (c : UInt8) : (1 : UInt8) ^^^ (c ^^^ 1) = c ∧ c ^^^ (c ^^^ 1) = 1 := by
  constructor
  · rw [UInt8.xor_comm c 1, ← UInt8.xor_assoc, UInt8.xor_self, UInt8.zero_xor]
  · rw [← UInt8.xor_assoc, UInt8.xor_self, UInt8.zero_xor]

/-- Bytes that are found are read where the mask has them. -/
theorem readSeq_of_match (his : is.Nodup) (hok : buf.Ok) {r' : Reader}
    (h : matchAll buf.view ((seqOps guid is).flatMap WriteOp.pieces) = some r') {g : Fin 8 → UInt8}
    (hg : ∀ i ∈ is, g i = if guid i ≠ 0 then 1 else 0) :
    ∃ buf', readSeq is g buf = some (fun i => if i ∈ is then guid i else g i, buf') ∧
      buf'.Ok ∧ buf'.view = r' := by
  induction is generalizing buf g with
  | nil =>
    cases h
    exact ⟨buf, by simp [readSeq], hok, rfl⟩
  | cons i is ih =>
    obtain ⟨hi, his⟩ := nodup_cons.1 his
    have hgi := hg i mem_cons_self
    have hrest : ∀ b, ∀ j ∈ is, update g i b j = if guid j ≠ 0 then 1 else 0 := by
      intro b j hj
      have hne : j ≠ i := fun h => hi (h ▸ hj)
      rw [update_of_ne hne, hg j (mem_cons_of_mem _ hj)]
    have hend : (fun j => if j ∈ is then guid j else update g i (guid i) j) =
        fun j => if j ∈ i :: is then guid j else g j := by
      funext j
      by_cases hj : j = i
      · subst hj
        simp
      · simp [hj]
    by_cases hzero : guid i = 0
    · rw [if_neg (not_not.2 hzero)] at hgi
      have hskip : seqOps guid (i :: is) = seqOps guid is := by
        rw [seqOps, filter_cons_of_neg (by simpa using hzero)]
        rfl
      rw [hskip] at h
      obtain ⟨buf', hseq, hok', hview⟩ := ih his hok h (hrest (guid i))
      refine ⟨buf', ?_, hok', hview⟩
      rw [readSeq, readByteSeq, hgi, if_neg (by decide), Option.bind_some]
      rw [← hend, ← hseq, hzero]
    · rw [if_pos hzero] at hgi
      have hcons : seqOps guid (i :: is) =
          .append 1 (guid i ^^^ 1).toNat :: seqOps guid is := by
        rw [seqOps, filter_cons_of_pos (by simpa using hzero)]
        rfl
      rw [hcons, flatMap_cons, matchAll_append, Option.bind_eq_some_iff] at h
      obtain ⟨r1, hfirst, h⟩ := h
      have hop : (WriteOp.append 1 (guid i ^^^ 1).toNat).Allowed :=
        ⟨by decide, (guid i ^^^ 1).toNat_lt⟩
      obtain ⟨buf1, hread, hok1, rfl⟩ := (readBack_iff hop hok).1 hfirst
      obtain ⟨⟨value, buf2⟩, hread, heq⟩ := Option.map_eq_some_iff.1 hread
      cases heq
      obtain ⟨buf', hseq, hok', hview⟩ := ih his hok1 h (hrest (guid i))
      refine ⟨buf', ?_, hok', hview⟩
      rw [readSeq, readByteSeq, hgi, if_pos (by decide), hread]
      simp only [Option.map_some, Option.bind_some]
      rw [UInt8.ofNat_toNat, (xor_xor_one _).1, ← hend, ← hseq]

/-- Bytes suit every reader. -/
theorem recovers_bytes {ps : List Piece} (hps : ∀ p ∈ ps, ∃ l, p = .bytes l) (q : ℕ) :
    Recovers q [] ps := by
  induction ps generalizing q with
  | nil => exact .inl rfl
  | cons p ps ih =>
    obtain ⟨l, rfl⟩ := hps p mem_cons_self
    exact ⟨.inl rfl, ih (fun p hp => hps p (mem_cons_of_mem _ hp)) _⟩

/-- Bits and then bytes suit a reader that has nothing left. -/
theorem recovers_bits {pend : List Bool} {bs ps : List Piece} (hbs : ∀ p ∈ bs, ∃ b, p = .bit b)
    (hps : ∀ p ∈ ps, ∃ l, p = .bytes l) : Recovers 0 pend (bs ++ ps) := by
  induction bs generalizing pend with
  | nil =>
    cases ps with
    | nil => exact .inr (.inl rfl)
    | cons p ps =>
      obtain ⟨l, rfl⟩ := hps p mem_cons_self
      exact ⟨.inr (.inl rfl),
        recovers_bytes (fun p hp => hps p (mem_cons_of_mem _ hp)) _⟩
  | cons p bs ih =>
    obtain ⟨b, rfl⟩ := hbs p mem_cons_self
    have hrest : ∀ p ∈ bs, ∃ b, p = .bit b := fun p hp => hbs p (mem_cons_of_mem _ hp)
    rw [cons_append, Recovers]
    split_ifs
    · exact ⟨.inr (.inl rfl), ih hrest⟩
    · exact ih hrest

theorem pieces_bits (x : List Bool) : (x.map .writeBit).flatMap WriteOp.pieces = x.map .bit := by
  induction x with
  | nil => rfl
  | cons b x ih => rw [map_cons, flatMap_cons, ih, map_cons]; rfl

theorem seqOps_pieces {p : Piece} (hp : p ∈ (seqOps guid is).flatMap WriteOp.pieces) :
    ∃ l, p = .bytes l := by
  obtain ⟨op, hop, hp⟩ := mem_flatMap.1 hp
  obtain ⟨i, -, rfl⟩ := mem_map.1 hop
  exact ⟨_, mem_singleton.1 hp⟩

theorem foldl_bitsSince_seqOps (guid : Fin 8 → UInt8) (is : List (Fin 8)) :
    (seqOps guid is).foldl WriteOp.bitsSince 0 = 0 := by
  rw [seqOps]
  induction is.filter (guid · ≠ 0) with
  | nil => rfl
  | cons i l ih => exact ih

/-- The writes of a packet : bits, the mask of a guid, and its bytes. -/
def guidOps (before : List Bool) (guid : Fin 8 → UInt8) (mask seq : List (Fin 8)) :
    List WriteOp :=
  (before ++ mask.map fun i => decide (guid i ≠ 0)).map .writeBit ++
    .flushBits :: seqOps guid seq

theorem writeAll_guidOps (before : List Bool) (guid : Fin 8 → UInt8) (mask seq : List (Fin 8))
    (buf : ByteBuffer) :
    ((writeAll (before.map .writeBit) buf).bind (writeMask guid mask)).bind
        (fun buf => buf.flushBits.bind (writeSeq guid seq)) =
      writeAll (guidOps before guid mask seq) buf := by
  have hmask : writeMask guid mask =
      writeAll ((mask.map fun i => decide (guid i ≠ 0)).map .writeBit) := by
    funext buf
    rw [writeMask_eq, map_map]
    rfl
  have hseq : writeSeq guid seq = writeAll (seqOps guid seq) := funext (writeSeq_eq guid seq)
  rw [guidOps, writeAll_append, map_append, writeAll_append, hmask, hseq]
  rfl

theorem guidOps_allowed {mask seq : List (Fin 8)} {op : WriteOp}
    (hop : op ∈ guidOps before guid mask seq) : op.Allowed := by
  rw [guidOps, mem_append, mem_cons] at hop
  rcases hop with hop | rfl | hop
  · obtain ⟨b, -, rfl⟩ := mem_map.1 hop
    trivial
  · trivial
  · obtain ⟨i, -, rfl⟩ := mem_map.1 hop
    exact ⟨by decide, (guid i ^^^ 1).toNat_lt⟩

theorem guidOps_typed {mask seq : List (Fin 8)} {op : WriteOp}
    (hop : op ∈ guidOps before guid mask seq) : op.Typed := by
  have h := guidOps_allowed hop
  cases op with
  | append width value => exact h.1
  | writeBit bit | writeBits value n | string s | flushBits => trivial

/-- The writes go through when the assertion holds at each append. -/
theorem exists_writeAll_guidOps {mask seq : List (Fin 8)} {storage : List UInt8}
    (h : Within storage.length (chunks [] ((guidOps before guid mask seq).flatMap
      WriteOp.pieces))) :
    ∃ buf, writeAll (guidOps before guid mask seq) (writing [] storage) = some buf := by
  have hallowed : ∀ op ∈ guidOps before guid mask seq, op.Allowed := fun op hop =>
    guidOps_allowed hop
  have hnil : ([] : List Bool).length ≤ 7 := Nat.zero_le _
  have hwrite := writeAll_writing hallowed hnil storage
  rw [put_eq_some_iff.2 ⟨h, rfl⟩, Option.map_some] at hwrite
  obtain ⟨buf, hbuf, -⟩ := Option.bind_eq_some_iff.1 hwrite
  exact ⟨buf, hbuf⟩

/-- The bits of a mask and the bytes behind it are read as they were written. -/
theorem readSeq_of_write {mask seq : List (Fin 8)} (hmask : mask.Nodup) (hseq : seq.Nodup)
    (hall : ∀ i, i ∈ mask ∧ i ∈ seq) {storage : List UInt8}
    (h : writeAll (guidOps before guid mask seq) (writing [] storage) = some buf)
    (g : Fin 8 → UInt8) :
    ∃ buf1 buf2 g1 buf3,
      readAll (before.map .writeBit) { buf with rpos := storage.length } =
          some (before.map .bit, buf1) ∧
        readMask mask g buf1 = some (g1, buf2) ∧ readSeq seq g1 buf2 = some (guid, buf3) ∧
        buf3.rpos = buf3.storage.length := by
  set x := before ++ mask.map fun i => decide (guid i ≠ 0) with hx
  have hallowed : ∀ op ∈ guidOps before guid mask seq, op.Allowed := fun op hop =>
    guidOps_allowed hop
  have hpieces : (guidOps before guid mask seq).flatMap WriteOp.pieces =
      x.map .bit ++ .bytes [] :: (seqOps guid seq).flatMap WriteOp.pieces := by
    rw [guidOps, flatMap_append, pieces_bits, flatMap_cons]
    rfl
  -- nothing is pending at the end
  have hstart : Pending 0 (writing [] storage) := ⟨[], storage, rfl, Nat.zero_le _, rfl⟩
  have hpending := pending_writeAll (fun op hop => guidOps_typed hop) hstart h
  have hflushed : ∀ k, WriteOp.flushBits.bitsSince k = 0 := fun _ => rfl
  rw [guidOps, foldl_append, foldl_cons, hflushed, foldl_bitsSince_seqOps] at hpending
  obtain ⟨pend, st, rfl, -, hlen⟩ := hpending
  obtain rfl : pend = [] := eq_nil_of_length_eq_zero hlen
  have hnil : ([] : List Bool).length ≤ 7 := Nat.zero_le _
  have hwrite := writeAll_writing hallowed hnil storage
  rw [h, Option.bind_some, hpieces] at hwrite
  have hflush : (writing [] st).flushBits = some (writing [] st) := rfl
  obtain ⟨st', hput, hst'⟩ := Option.map_eq_some_iff.1 hwrite.symm
  obtain rfl : st' = st := congrArg ByteBuffer.storage hst'
  obtain ⟨-, hst⟩ := put_eq_some_iff.1 hput
  -- the reader
  have hok : ({ writing [] st' with rpos := storage.length } : ByteBuffer).Ok := by
    unfold Ok
    simp only [writing]
    rw [hst, length_append]
    omega
  have hview : ({ writing [] st' with rpos := storage.length } : ByteBuffer).view =
      ⟨List.replicate 0 false, out []
        (x.map .bit ++ .bytes [] :: (seqOps guid seq).flatMap WriteOp.pieces)⟩ := by
    simp only [view, writing]
    rw [hst, drop_left]
    rfl
  have hstr : ∀ s, .str s ∈
      x.map Piece.bit ++ .bytes [] :: (seqOps guid seq).flatMap WriteOp.pieces →
        (0 : UInt8) ∉ s := by
    intro s hs
    rw [← hpieces] at hs
    exact str_pieces hallowed hs
  have hbits : ∀ p ∈ x.map Piece.bit, ∃ b, p = .bit b := by
    intro p hp
    obtain ⟨b, -, rfl⟩ := mem_map.1 hp
    exact ⟨b, rfl⟩
  have hbytes : ∀ p ∈ .bytes [] :: (seqOps guid seq).flatMap WriteOp.pieces, ∃ l, p = .bytes l :=
    forall_mem_cons.2 ⟨⟨[], rfl⟩, fun p hp => seqOps_pieces hp⟩
  obtain ⟨l, hmatch⟩ := (matchAll_iff (Nat.zero_le _) hnil hstr).2
    (recovers_bits hbits hbytes)
  rw [map_nil, nil_append, ← hview, hx, map_append, append_assoc,
    matchAll_append, Option.bind_eq_some_iff] at hmatch
  obtain ⟨r1, hbefore, hmatch⟩ := hmatch
  rw [matchAll_run, Option.bind_eq_some_iff] at hmatch
  obtain ⟨r2, hbits, hmatch⟩ := hmatch
  rw [matchAll, matchPiece, matchBytes, length_nil, take_zero, if_pos rfl,
    Option.bind_some, drop_zero] at hmatch
  have hbeforeOps : ∀ op ∈ before.map WriteOp.writeBit, op.Allowed := by
    intro op hop
    obtain ⟨b, -, rfl⟩ := mem_map.1 hop
    trivial
  rw [← pieces_bits] at hbefore
  obtain ⟨buf1, hread1, hok1, rfl⟩ := (readAll_iff hbeforeOps hok).1 hbefore
  obtain ⟨buf2, hread2, hok2, rfl⟩ := readMask_of_match hmask hok1 hbits g
  obtain ⟨buf3, hread3, hok3, hview3⟩ := readSeq_of_match hseq hok2 hmatch
    (g := fun i => if i ∈ mask then (if guid i ≠ 0 then 1 else 0) else g i)
    fun i _ => if_pos (hall i).1
  have hend : buf3.storage.drop buf3.rpos = [] := congrArg Reader.input hview3
  refine ⟨buf1, buf2, _, buf3, ?_, hread2, ?_,
    Nat.le_antisymm hok3 (drop_eq_nil_iff.1 hend)⟩
  · rw [hread1, map_map]
    rfl
  · rw [hread3]
    congr 2
    funext i
    exact if_pos (hall i).2

end ByteBuffer

/-! ## Round trips -/

open ByteBuffer

/-- An order of the eight bytes of a guid. -/
def orderOf (σ : Equiv.Perm (Fin 8)) : List (Fin 8) :=
  (List.finRange 8).map σ

theorem orderOf_nodup (σ : Equiv.Perm (Fin 8)) : (orderOf σ).Nodup :=
  List.Nodup.map σ.injective (nodup_finRange 8)

theorem mem_orderOf (σ : Equiv.Perm (Fin 8)) (i : Fin 8) : i ∈ orderOf σ :=
  mem_map.2 ⟨σ.symm i, mem_finRange _, σ.apply_symm_apply i⟩

/-- A guid is packed into every buffer that `append` takes, and is read back from exactly its bytes.
The mask and the bytes of a guid are written, whatever bits come before the mask, as long as the
assertion of `append` holds, and are read back in any orders of the bits and of the bytes. -/
theorem guid_roundTrip :
    (∀ (guid : UInt64) (buf : ByteBuffer), buf.wpos ≤ buf.storage.length →
      buf.storage.length < 10000000 → ∃ buf', buf.appendPackGUID guid = some buf' ∧
        ∀ r : ByteBuffer, r.storage = buf'.storage → r.rpos = buf.wpos →
          r.readPackGUID = some (guid.toNat, { r with rpos := buf'.wpos })) ∧
    ∀ (σ τ : Equiv.Perm (Fin 8)) (guid g : Fin 8 → UInt8) (before : List Bool)
      (storage : List UInt8),
      Within storage.length (chunks [] ((guidOps before guid (orderOf σ) (orderOf τ)).flatMap
        WriteOp.pieces)) →
      ∃ buf, ((writeAll (before.map .writeBit) (writing [] storage)).bind
            (writeMask guid (orderOf σ))).bind
          (fun buf => buf.flushBits.bind (writeSeq guid (orderOf τ))) = some buf ∧
        ∃ buf₁ buf₂ g₁ buf₃,
          readAll (before.map .writeBit) { buf with rpos := storage.length } =
              some (before.map .bit, buf₁) ∧
            readMask (orderOf σ) g buf₁ = some (g₁, buf₂) ∧
            readSeq (orderOf τ) g₁ buf₂ = some (guid, buf₃) ∧
            buf₃.rpos = buf₃.storage.length := by
  refine ⟨fun guid buf hw hsize => ?_, fun σ τ guid g before storage hfit => ?_⟩
  · obtain ⟨buf', h⟩ := exists_appendPackGUID guid hsize
    exact ⟨buf', h, fun r hstorage hr => readPackGUID_of_append h hw hstorage hr⟩
  · obtain ⟨buf, h⟩ := exists_writeAll_guidOps hfit
    exact ⟨buf, (writeAll_guidOps before guid _ _ _).trans h,
      readSeq_of_write (orderOf_nodup σ) (orderOf_nodup τ)
        (fun i => ⟨mem_orderOf σ i, mem_orderOf τ i⟩) h g⟩

/-- A guid with two bytes that are not zero. -/
def sampleGuid : Fin 8 → UInt8 :=
  fun i => if i.val = 0 then 7 else if i.val = 2 then 9 else 0

/-- The sample guid, packed, and with its mask behind a bit. -/
theorem guid_roundTrip_two :
    (∃ buf', ({} : ByteBuffer).appendPackGUID 589831 = some buf' ∧
      ∀ r : ByteBuffer, r.storage = buf'.storage → r.rpos = 0 →
        r.readPackGUID = some (589831, { r with rpos := buf'.wpos })) ∧
    ∃ buf, ((writeAll [.writeBit true] (writing [] [])).bind
          (writeMask sampleGuid (orderOf (Equiv.refl _)))).bind
        (fun buf => buf.flushBits.bind (writeSeq sampleGuid (orderOf (Equiv.swap 0 2)))) =
          some buf ∧
      ∃ buf₁ buf₂ g₁ buf₃,
        readAll [.writeBit true] { buf with rpos := 0 } = some ([.bit true], buf₁) ∧
          readMask (orderOf (Equiv.refl _)) (fun _ => 0) buf₁ = some (g₁, buf₂) ∧
          readSeq (orderOf (Equiv.swap 0 2)) g₁ buf₂ = some (sampleGuid, buf₃) ∧
          buf₃.rpos = buf₃.storage.length := by
  have hparts : chunks [] ((guidOps [true] sampleGuid (orderOf (Equiv.refl _))
      (orderOf (Equiv.swap 0 2))).flatMap WriteOp.pieces) = [[208], [0], [8], [6]] := by decide
  exact ⟨guid_roundTrip.1 589831 {} (by decide) (by decide),
    guid_roundTrip.2 (Equiv.refl _) (Equiv.swap 0 2) sampleGuid (fun _ => 0) [true] []
      (by rw [hparts]; exact ⟨by decide, by decide, by decide, by decide, trivial⟩)⟩

end MistyWorld
