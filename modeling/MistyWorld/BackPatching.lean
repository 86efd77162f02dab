import MistyWorld.BufferReuse
import Mathlib.Data.List.Flatten

/-!
# Bits that are written later

A packet may be written before one of its fields is known. The writer then notes the position of the
field in bits, writes the field with any value, and puts the value there with `PutBits` when the
rest has been written. This comes to the same as writing the value at once unless bytes are appended
as they are, without a flush, while the last byte of the field is not complete
(`putBits_iff`) : those bytes come before the pending bits, and the noted position is inside
them.
-/

open Option BitStream Bytes

namespace BitStream

/-! ## The bits of bytes -/

/-- The bits of bytes, one after the other. -/
def bitsAll (l : List UInt8) : List Bool :=
  l.flatMap bits

@[simp] theorem bitsAll_nil : bitsAll [] = [] :=
  rfl

@[simp] theorem bitsAll_cons (b : UInt8) (l : List UInt8) :
    bitsAll (b :: l) = bits b ++ bitsAll l :=
  rfl

@[simp] theorem bitsAll_append (l l' : List UInt8) : bitsAll (l ++ l') = bitsAll l ++ bitsAll l' :=
  List.flatMap_append

@[simp] theorem length_bitsAll (l : List UInt8) : (bitsAll l).length = 8 * l.length := by
  induction l with
  | nil => rfl
  | cons b l ih =>
    rw [bitsAll_cons, List.length_append, ih, length_bits, List.length_cons]
    omega

theorem bits_injective {a b : UInt8} (h : bits a = bits b) : a = b := by
  rw [← byte_bits a, h, byte_bits]

theorem bitsAll_injective {l l' : List UInt8} (h : bitsAll l = bitsAll l') : l = l' := by
  induction l generalizing l' with
  | nil =>
    have hlen := congrArg List.length h
    rw [length_bitsAll, length_bitsAll, List.length_nil] at hlen
    exact (List.eq_nil_of_length_eq_zero (by omega)).symm
  | cons b l ih =>
    obtain _ | ⟨b', l'⟩ := l'
    · have hlen := congrArg List.length h
      rw [length_bitsAll, length_bitsAll, List.length_cons, List.length_nil] at hlen
      omega
    · rw [bitsAll_cons, bitsAll_cons] at h
      obtain ⟨hfirst, hrest⟩ := List.append_inj h (by rw [length_bits, length_bits])
      rw [bits_injective hfirst, ih hrest]

theorem getElem?_bitsOf {n m : ℕ} (v : ℕ) (h : m < n) :
    (bitsOf n v)[m]? = some (v.testBit (n - m - 1)) := by
  induction n generalizing m with
  | zero => exact absurd h (Nat.not_lt_zero m)
  | succ n ih =>
    cases m with
    | zero => rfl
    | succ m =>
      rw [bitsOf, List.getElem?_cons_succ, ih (by omega)]
      congr 2
      omega

/-- A byte with one of its bits set or cleared, the highest being the first. -/
def setBit (b : UInt8) (j : ℕ) (bit : Bool) : UInt8 :=
  if bit then b ||| (1 <<< UInt8.ofNat (7 - j)) else b &&& ~~~(1 <<< UInt8.ofNat (7 - j))

theorem getElem?_bits (b : UInt8) {i : ℕ} (hi : i < 8) :
    (bits b)[i]? = some (b.toNat.testBit (8 - i - 1)) :=
  getElem?_bitsOf b.toNat hi

theorem testBit_setBit (b : UInt8) {i j : ℕ} (hi : i < 8) (hj : j < 8) (bit : Bool) :
    (setBit b j bit).toNat.testBit (8 - i - 1) =
      if j = i then bit else b.toNat.testBit (8 - i - 1) := by
  have hmask : ∀ j < 8, ((1 : UInt8) <<< UInt8.ofNat (7 - j)).toNat = 2 ^ (7 - j) := by decide
  have hpow : 2 ^ (7 - j) < 2 ^ 8 := Nat.pow_lt_pow_right (by decide) (by omega)
  have hclear : (~~~((1 : UInt8) <<< UInt8.ofNat (7 - j))).toNat = 2 ^ 8 - (2 ^ (7 - j) + 1) := by
    have hsize : UInt8.size = 2 ^ 8 := rfl
    rw [UInt8.toNat_not, hmask j hj, hsize]
    omega
  have hplace : decide (7 - j = 8 - i - 1) = decide (j = i) := by
    rw [decide_eq_decide]
    omega
  have hin : 8 - i - 1 < 8 := by omega
  cases bit with
  | false =>
    rw [setBit, if_neg Bool.false_ne_true, UInt8.toNat_and, Nat.testBit_and, hclear,
      Nat.testBit_two_pow_sub_succ hpow, Nat.testBit_two_pow, hplace]
    by_cases hji : j = i <;> simp [hji, hin]
  | true =>
    rw [setBit, if_pos rfl, UInt8.toNat_or, Nat.testBit_or, hmask j hj, Nat.testBit_two_pow, hplace]
    by_cases hji : j = i <;> simp [hji]

theorem bits_setBit (b : UInt8) {j : ℕ} (hj : j < 8) (bit : Bool) :
    bits (setBit b j bit) = (bits b).set j bit := by
  refine List.ext_getElem? fun i => ?_
  rcases Nat.lt_or_ge i 8 with hi | hi
  · rw [getElem?_bits _ hi, List.getElem?_set, getElem?_bits _ hi, length_bits, if_pos hj,
      testBit_setBit b hi hj]
    split_ifs <;> rfl
  · rw [List.getElem?_eq_none (by rw [length_bits]; exact hi),
      List.getElem?_eq_none (by rw [List.length_set, length_bits]; exact hi)]

theorem bitsAll_modify {l : List UInt8} {p : ℕ} (hp : p < 8 * l.length) (bit : Bool) :
    bitsAll (l.modify (p / 8) fun b => setBit b (p % 8) bit) = (bitsAll l).set p bit := by
  induction l generalizing p with
  | nil => exact absurd hp (Nat.not_lt_zero p)
  | cons b l ih =>
    rw [List.length_cons] at hp
    rcases Nat.lt_or_ge p 8 with hlt | hge
    · have hdiv : p / 8 = 0 := Nat.div_eq_of_lt hlt
      rw [hdiv, Nat.mod_eq_of_lt hlt, List.modify_zero_cons, bitsAll_cons, bitsAll_cons,
        bits_setBit b hlt, List.set_append_left _ _ (by rwa [length_bits])]
    · obtain ⟨k, rfl⟩ : ∃ k, p = k + 8 := ⟨p - 8, by omega⟩
      rw [Nat.add_div_right k (by decide), Nat.add_mod_right, List.modify_succ_cons, bitsAll_cons,
        ih (by omega), bitsAll_cons, List.set_append_right _ _ (by rw [length_bits]; omega),
        length_bits, Nat.add_sub_cancel]

/-- The bits of a value, put over the bits from a position on. -/
theorem foldl_set_bitsOf (x y z : List Bool) (v : ℕ) :
    (List.range y.length).foldl
        (fun l i => l.set (x.length + i) (v.testBit (y.length - i - 1))) (x ++ y ++ z) =
      x ++ bitsOf y.length v ++ z := by
  -- the first `m` bits are put
  have hstep : ∀ m ≤ y.length, (List.range m).foldl
        (fun l i => l.set (x.length + i) (v.testBit (y.length - i - 1))) (x ++ y ++ z) =
      x ++ ((bitsOf y.length v).take m ++ y.drop m) ++ z := by
    intro m
    induction m with
    | zero => exact fun _ => rfl
    | succ m ih =>
      intro hm
      rw [List.range_succ, List.foldl_append, ih (by omega), List.foldl_cons, List.foldl_nil]
      have htake : ((bitsOf y.length v).take m).length = m := by
        rw [List.length_take, length_bitsOf]
        omega
      have hlong : x.length + m < (x ++ ((bitsOf y.length v).take m ++ y.drop m)).length := by
        rw [List.length_append, List.length_append, htake, List.length_drop]
        omega
      have hle : x.length ≤ x.length + m := Nat.le_add_right _ _
      obtain ⟨b, d, hd⟩ : ∃ b d, y.drop m = b :: d := by
        refine List.exists_cons_of_ne_nil fun h => ?_
        have hlen := List.drop_eq_nil_iff.1 h
        omega
      have hd' : y.drop (m + 1) = d := by
        rw [← List.drop_drop, hd]
        rfl
      rw [List.set_append_left _ _ hlong, List.set_append_right _ _ hle, Nat.add_sub_cancel_left,
        List.set_append_right _ _ (Nat.le_of_eq htake), htake, Nat.sub_self, hd,
        List.set_cons_zero, hd', List.take_add_one, getElem?_bitsOf v hm, toList_some,
        List.append_assoc (List.take m _), List.singleton_append]
  have hall := hstep y.length (Nat.le_refl _)
  have hlen : (bitsOf y.length v).length ≤ y.length := Nat.le_of_eq (length_bitsOf _ _)
  rwa [List.drop_length, List.append_nil, List.take_of_length_le hlen] at hall

end BitStream

namespace MistyWorld

/-! ## Patching -/

namespace ByteBuffer

/-- `ByteBuffer::bitwpos` -/
def bitwpos (buf : ByteBuffer) : ℕ :=
  buf.wpos * 8 + 8 - buf.bitpos

/-- The loop of `PutBits`. -/
def putLoop (pos value bitCount : ℕ) (storage : List UInt8) : List UInt8 :=
  (List.range bitCount).foldl (fun storage i =>
    storage.modify ((pos + i) / 8) fun b =>
      setBit b ((pos + i) % 8) (value.testBit (bitCount - i - 1))) storage

/-- `ByteBuffer::PutBits` -/
def putBits (pos value bitCount : ℕ) (buf : ByteBuffer) : Option ByteBuffer :=
  if bitCount = 0 then none
  else if buf.storage.length * 8 < pos + bitCount then none
  else some { buf with storage := putLoop pos value bitCount buf.storage }

end ByteBuffer

/-- What is written to a packet : a write, or bytes as they are. -/
inductive PacketWrite
  | op (w : WriteOp)
  | bytes (src : List UInt8)
  deriving DecidableEq, Repr

namespace PacketWrite

/-- The write on a buffer. -/
def write : PacketWrite → ByteBuffer → Option ByteBuffer
  | .op w => w.write
  | .bytes src => ByteBuffer.append src

/-- The writes, one after the other. -/
def writeAll : List PacketWrite → ByteBuffer → Option ByteBuffer
  | [], buf => some buf
  | w :: ws, buf => (w.write buf).bind (writeAll ws)

end PacketWrite

/-- The storage, where the field is written with its value. -/
def direct (before after : List PacketWrite) (n v : ℕ) (buf : ByteBuffer) : Option (List UInt8) :=
  (PacketWrite.writeAll before buf).bind fun buf =>
    (buf.writeBits v n).bind fun buf =>
      (PacketWrite.writeAll after buf).bind fun buf => buf.flushBits.map ByteBuffer.storage

/-- The storage, where the field is written with a first value and patched after the flush. -/
def patched (before after : List PacketWrite) (n v₀ v : ℕ) (buf : ByteBuffer) :
    Option (List UInt8) :=
  (PacketWrite.writeAll before buf).bind fun buf =>
    let pos := buf.bitwpos
    (buf.writeBits v₀ n).bind fun buf =>
      (PacketWrite.writeAll after buf).bind fun buf =>
        buf.flushBits.bind fun buf => (buf.putBits pos v n).map ByteBuffer.storage

/-! ## Single steps of a writer -/

/-- A bit, a flush or bytes that are appended as they are. -/
inductive WriteStep
  | bit (b : Bool)
  | flush
  | bytes (src : List UInt8)
  deriving DecidableEq, Repr

namespace WriteStep

def run : WriteStep → ByteBuffer → Option ByteBuffer
  | .bit b => ByteBuffer.writeBit b.toNat
  | .flush => ByteBuffer.flushBits
  | .bytes src => ByteBuffer.append src

def runAll : List WriteStep → ByteBuffer → Option ByteBuffer
  | [], buf => some buf
  | s :: ss, buf => (s.run buf).bind (runAll ss)

/-- The bits written since the last flush, after one more step. -/
def bitsSince (k : ℕ) : WriteStep → ℕ
  | .bit _ => k + 1
  | .flush => 0
  | .bytes _ => k

/-- No bytes are appended as they are while the byte that has `k` pending bits is not complete. -/
def Undisturbed : ℕ → List WriteStep → Prop
  | _, [] => True
  | k, .bit _ :: ss => k = 0 ∨ Undisturbed ((k + 1) % 8) ss
  | _, .flush :: _ => True
  | k, .bytes _ :: _ => k = 0

theorem runAll_append (ss ss' : List WriteStep) (buf : ByteBuffer) :
    runAll (ss ++ ss') buf = (runAll ss buf).bind (runAll ss') := by
  induction ss generalizing buf with
  | nil => rfl
  | cons s ss ih =>
    rw [List.cons_append, runAll, runAll, bind_assoc]
    exact bind_congr fun buf' _ => ih buf'

end WriteStep

open WriteStep

/-- The steps of a write. -/
def PacketWrite.steps : PacketWrite → List WriteStep
  | .op (.writeBit b) => [.bit b]
  | .op (.writeBits value n) => (bitsOf n value).map .bit
  | .op (.append width value) => [.flush, .bytes (toBytes width value)]
  | .op (.string s) => (if s = [] then [] else [.bytes s]) ++ [.flush, .bytes [0]]
  | .op .flushBits => [.flush]
  | .bytes src => [.bytes src]

theorem writeBits_eq (value n : ℕ) (buf : ByteBuffer) :
    buf.writeBits value n = runAll ((bitsOf n value).map .bit) buf := by
  induction n generalizing buf with
  | zero => rfl
  | succ n ih =>
    rw [ByteBuffer.writeBits, ByteBuffer.one_and_shiftRight, bitsOf, List.map_cons, runAll]
    exact bind_congr fun buf' _ => ih buf'

theorem PacketWrite.write_eq (w : PacketWrite) (buf : ByteBuffer) :
    w.write buf = runAll w.steps buf := by
  have hlast : ∀ (src : List UInt8) (buf : ByteBuffer),
      buf.append src = runAll [.bytes src] buf := fun src buf =>
    (bind_fun_some (buf.append src)).symm
  have hvalue : ∀ (width value : ℕ) (buf : ByteBuffer),
      buf.appendValue width value = runAll [.flush, .bytes (toBytes width value)] buf :=
    fun width value buf => bind_congr fun buf' _ => hlast _ buf'
  cases w with
  | bytes src => exact hlast src buf
  | op w =>
    cases w with
    | writeBit b | flushBits => exact (bind_fun_some _).symm
    | writeBits value n => exact writeBits_eq value n buf
    | append width value => exact hvalue width value buf
    | string s =>
      have hstring : (PacketWrite.op (.string s)).write buf =
          (if s = [] then some buf else buf.append s).bind (ByteBuffer.appendValue 1 0) := rfl
      rw [PacketWrite.steps, hstring]
      split_ifs with hs
      · exact hvalue 1 0 buf
      · exact bind_congr fun buf' _ => hvalue 1 0 buf'

theorem writeAll_eq (ws : List PacketWrite) (buf : ByteBuffer) :
    PacketWrite.writeAll ws buf = runAll (ws.flatMap PacketWrite.steps) buf := by
  induction ws generalizing buf with
  | nil => rfl
  | cons w ws ih =>
    rw [PacketWrite.writeAll, List.flatMap_cons, runAll_append, w.write_eq]
    exact bind_congr fun buf' _ => ih buf'

/-! ## What a buffer has written -/

namespace ByteBuffer

/-- `whole` stands before the write position, and `rest` behind it. -/
structure Placed (whole rest : List UInt8) (buf : ByteBuffer) : Prop where
  wpos : buf.wpos = whole.length
  storage : resized buf.storage whole.length = whole ++ rest

/-- The writer has put out `whole`, and has pending bits. -/
structure Shows (whole : List UInt8) (pend : List Bool) (rest : List UInt8) (buf : ByteBuffer) :
    Prop extends Placed whole rest buf where
  pend_le : pend.length ≤ 7
  bitpos : buf.bitpos = 8 - pend.length
  cur : buf.curbitval = byte pend

variable {whole : List UInt8} {pend : List Bool} {rest : List UInt8} {buf : ByteBuffer}

theorem resized_resized (storage : List UInt8) (n m : ℕ) :
    resized (resized storage n) (n + m) = resized storage (n + m) := by
  unfold resized
  rw [List.append_assoc, List.replicate_append_replicate, List.length_append,
    List.length_replicate]
  congr 2
  omega

theorem Shows.bitwpos (h : Shows whole pend rest buf) :
    buf.bitwpos = (bitsAll whole ++ pend).length := by
  have hp := h.pend_le
  rw [ByteBuffer.bitwpos, h.wpos, h.bitpos, List.length_append, length_bitsAll]
  omega

/-- The buffer after bytes were put behind `whole`. -/
def appended (whole rest src : List UInt8) (buf : ByteBuffer) : ByteBuffer :=
  { buf with
    storage := whole ++ src ++ rest.drop src.length
    wpos := (whole ++ src).length }

theorem Placed.append (h : Placed whole rest buf) (src : List UInt8) :
    buf.append src =
      if src ≠ [] ∧ buf.storage.length < 10000000 then some (appended whole rest src buf)
      else none := by
  have hresized : resized buf.storage (whole.length + src.length) =
      whole ++ resized rest src.length := by
    rw [← resized_resized, h.storage]
    unfold resized
    rw [List.append_assoc, List.length_append]
    congr 3
    omega
  have htake : (resized buf.storage (whole.length + src.length)).take whole.length = whole := by
    rw [hresized, List.take_left]
  have hdrop : (resized buf.storage (whole.length + src.length)).drop (whole.length + src.length) =
      rest.drop src.length := by
    have hzeros : (List.replicate (src.length - rest.length) (0 : UInt8)).drop
        (src.length - rest.length) = [] :=
      List.drop_eq_nil_of_le (Nat.le_of_eq List.length_replicate)
    rw [hresized, ← List.drop_drop, List.drop_left, resized, List.drop_append, hzeros,
      List.append_nil]
  have hwpos : (whole ++ src).length = whole.length + src.length := List.length_append
  rw [ByteBuffer.append, appended, hwpos]
  simp only [h.wpos, htake, hdrop]
  by_cases hnil : src = []
  · rw [if_pos hnil, if_neg fun hgo => hgo.1 hnil]
  · rw [if_neg hnil]
    by_cases hsize : buf.storage.length < 10000000
    · rw [if_pos hsize, if_pos ⟨hnil, hsize⟩]
    · rw [if_neg hsize, if_neg fun hgo => hsize hgo.2]

theorem placed_appended (whole rest src : List UInt8) (buf : ByteBuffer) :
    Placed (whole ++ src) (rest.drop src.length) (appended whole rest src buf) := by
  refine ⟨rfl, ?_⟩
  simp only [appended, resized]
  rw [Nat.sub_eq_zero_of_le (by rw [@List.length_append _ (whole ++ src)]; omega),
    List.replicate_zero, List.append_nil]

end ByteBuffer

namespace WriteStep

/-- The bytes that a step puts out after pending bits. -/
def chunk (pend : List Bool) : WriteStep → Option (List UInt8)
  | .bit b => if pend.length = 7 then some [byte (pend ++ [b])] else none
  | .flush => if pend = [] then none else some [byte pend]
  | .bytes src => some src

/-- The pending bits after a step. -/
def pending (pend : List Bool) : WriteStep → List Bool
  | .bit b => if pend.length = 7 then [] else pend ++ [b]
  | .flush => []
  | .bytes _ => pend

end WriteStep

namespace ByteBuffer

variable {whole : List UInt8} {pend : List Bool} {rest : List UInt8} {buf : ByteBuffer}

/-- A step without bytes only changes what is pending. -/
theorem Shows.run_none (h : Shows whole pend rest buf) {s : WriteStep}
    (hchunk : s.chunk pend = none) :
    ∃ buf', s.run buf = some buf' ∧ Shows whole (s.pending pend) rest buf' ∧
      buf'.storage = buf.storage := by
  have hp := h.pend_le
  cases s with
  | bytes src => cases hchunk
  | flush =>
    rw [chunk] at hchunk
    split_ifs at hchunk with hnil
    have hbitpos : buf.bitpos = 8 := by rw [h.bitpos, hnil, List.length_nil]
    exact ⟨buf, if_pos hbitpos, hnil ▸ h, rfl⟩
  | bit b =>
    rw [chunk] at hchunk
    split_ifs at hchunk with hlen
    have hbitpos : buf.bitpos - 1 = 7 - pend.length := by
      rw [h.bitpos]
      omega
    have hlast : ¬7 - pend.length = 0 := by omega
    have hcur : (if b.toNat ≠ 0 then byte pend ||| (1 <<< UInt8.ofNat (7 - pend.length))
        else byte pend) = byte (pend ++ [b]) := by
      rw [byte_append]
      cases b <;> rfl
    refine ⟨{ buf with bitpos := 7 - pend.length, curbitval := byte (pend ++ [b]) }, ?_,
      ⟨⟨h.wpos, h.storage⟩, ?_, ?_, ?_⟩, rfl⟩
    · simp only [WriteStep.run, writeBit, hbitpos, h.cur, hcur, if_neg hlast]
    · rw [pending, if_neg hlen, List.length_append, List.length_singleton]
      omega
    · rw [pending, if_neg hlen, List.length_append, List.length_singleton]
      simp only
      omega
    · rw [pending, if_neg hlen]

/-- A step with bytes puts them out, as long as there are any and the assertion holds. -/
theorem Shows.run_some (h : Shows whole pend rest buf) {s : WriteStep} {c : List UInt8}
    (hchunk : s.chunk pend = some c) :
    if c ≠ [] ∧ buf.storage.length < 10000000 then
      ∃ buf', s.run buf = some buf' ∧
        Shows (whole ++ c) (s.pending pend) (rest.drop c.length) buf' ∧
        buf'.storage = whole ++ c ++ rest.drop c.length
    else s.run buf = none := by
  have hp := h.pend_le
  cases s with
  | bytes src =>
    cases hchunk
    rw [WriteStep.run, h.append]
    split_ifs with hgo
    · exact ⟨_, rfl, ⟨placed_appended _ _ _ _, hp, h.bitpos, h.cur⟩, rfl⟩
    · rfl
  | flush =>
    rw [chunk] at hchunk
    split_ifs at hchunk with hnil
    cases hchunk
    have hpos : 0 < pend.length := List.length_pos_iff.2 hnil
    have hbitpos : buf.bitpos ≠ 8 := by
      rw [h.bitpos]
      omega
    rw [WriteStep.run, flushBits, if_neg hbitpos, h.cur, h.append]
    split_ifs with hgo
    · have hplaced := placed_appended whole rest [byte pend] buf
      exact ⟨_, rfl, ⟨⟨hplaced.wpos, hplaced.storage⟩, Nat.zero_le _, rfl, rfl⟩, rfl⟩
    · rfl
  | bit b =>
    rw [chunk] at hchunk
    split_ifs at hchunk with hlen
    cases hchunk
    have hbitpos : buf.bitpos - 1 = 0 := by
      rw [h.bitpos]
      omega
    have hcur : (if b.toNat ≠ 0 then byte pend ||| (1 <<< UInt8.ofNat 0) else byte pend) =
        byte (pend ++ [b]) := by
      rw [byte_append, hlen]
      cases b <;> rfl
    have hplaced : Placed whole rest { buf with bitpos := 8, curbitval := byte (pend ++ [b]) } :=
      ⟨h.wpos, h.storage⟩
    have hrun : WriteStep.run (.bit b) buf =
        (append [byte (pend ++ [b])]
          { buf with bitpos := 8, curbitval := byte (pend ++ [b]) }).map fun buf =>
            { buf with curbitval := 0 } := by
      simp only [WriteStep.run, writeBit, hbitpos, h.cur, hcur, if_true]
    rw [hrun, hplaced.append]
    split_ifs with hgo
    · have hplaced' := placed_appended whole rest [byte (pend ++ [b])] buf
      rw [pending, if_pos hlen]
      exact ⟨_, rfl, ⟨⟨hplaced'.wpos, hplaced'.storage⟩, Nat.zero_le _, rfl, rfl⟩, rfl⟩
    · rfl

end ByteBuffer

/-! ## Two runs -/

namespace WriteStep

/-- The bits behind a field, after a step where `k` bits are pending. -/
def after (k : ℕ) (R : List Bool) : WriteStep → List Bool
  | .bit b => R ++ [b]
  | .flush => R ++ List.replicate ((8 - k) % 8) false
  | .bytes src => R.take (R.length - k) ++ bitsAll src ++ R.drop (R.length - k)

/-- The step does not append bytes as they are, or the first bits are put out. -/
def Calm (n m : ℕ) : WriteStep → Prop
  | .bytes _ => n ≤ 8 * m
  | _ => True

variable {whole : List UInt8} {pend F R : List Bool}

theorem bits_after (s : WriteStep) (hpend : pend.length ≤ 7) (h : bitsAll whole ++ pend = F ++ R)
    (hcalm : s.Calm F.length whole.length) :
    bitsAll (whole ++ (s.chunk pend).getD []) ++ s.pending pend = F ++ s.after pend.length R := by
  cases s with
  | bit b =>
    rw [chunk, pending, after, ← List.append_assoc, ← h]
    split_ifs with hlen
    · have hbits : bits (byte (pend ++ [b])) = pend ++ [b] := by
        have hfull : (pend ++ [b]).length = 8 := by
          rw [List.length_append, List.length_singleton, hlen]
        rw [bits_byte (Nat.le_of_eq hfull), hfull, Nat.sub_self, List.replicate_zero,
          List.append_nil]
      rw [getD_some, bitsAll_append, bitsAll_cons, bitsAll_nil, hbits, List.append_nil,
        List.append_nil, List.append_assoc]
    · rw [getD_none, List.append_nil, List.append_assoc]
  | flush =>
    rw [chunk, pending, after, ← List.append_assoc, ← h]
    split_ifs with hnil
    · simp [hnil]
    · have hpos : 0 < pend.length := List.length_pos_iff.2 hnil
      have hzeros : (8 - pend.length) % 8 = 8 - pend.length := Nat.mod_eq_of_lt (by omega)
      rw [getD_some, bitsAll_append, bitsAll_cons, bitsAll_nil,
        bits_byte (Nat.le_succ_of_le hpend), hzeros, List.append_nil, List.append_nil,
        List.append_assoc]
  | bytes src =>
    have hle : F.length ≤ (bitsAll whole).length := by
      rw [length_bitsAll]
      exact hcalm
    rcases List.append_eq_append_iff.1 h with ⟨a, hF, hpend'⟩ | ⟨a, hwhole, hR⟩
    · have ha : a = [] := by
        have hlen := congrArg List.length hF
        rw [List.length_append] at hlen
        exact List.eq_nil_of_length_eq_zero (by omega)
      subst ha
      rw [List.append_nil] at hF
      rw [List.nil_append] at hpend'
      rw [chunk, pending, after, getD_some, bitsAll_append, hpend', hF, Nat.sub_self,
        List.take_zero, List.drop_zero, List.nil_append, List.append_assoc]
    · have hlen : R.length - pend.length = a.length := by
        rw [hR, List.length_append, Nat.add_sub_cancel]
      rw [chunk, pending, after, getD_some, bitsAll_append, hlen, hwhole, hR, List.take_left,
        List.drop_left, List.append_assoc, List.append_assoc, List.append_assoc]

/-- What a step puts out has the same length after other bits. -/
theorem length_chunk (s : WriteStep) {pend₀ pend₁ : List Bool} (h : pend₀.length = pend₁.length) :
    (s.chunk pend₀).map List.length = (s.chunk pend₁).map List.length := by
  cases s with
  | bit b =>
    rw [chunk, chunk, h]
    split_ifs <;> rfl
  | flush =>
    have hnil : pend₀ = [] ↔ pend₁ = [] := by
      rw [← List.length_eq_zero_iff, h, List.length_eq_zero_iff]
    rw [chunk, chunk]
    simp only [hnil]
    split_ifs <;> rfl
  | bytes src => rfl

theorem length_pending (s : WriteStep) {pend₀ pend₁ : List Bool} (h : pend₀.length = pend₁.length) :
    (s.pending pend₀).length = (s.pending pend₁).length := by
  cases s with
  | bit b =>
    rw [pending, pending, h]
    split_ifs
    · rfl
    · rw [List.length_append, List.length_append, h]
  | flush => rfl
  | bytes src => exact h

end WriteStep

open ByteBuffer

/-- Two writers whose bits differ only in a field. -/
structure Twins (P x y R : List Bool) (whole₀ whole₁ : List UInt8) (pend₀ pend₁ : List Bool)
    (rest : List UInt8) (buf₀ buf₁ : ByteBuffer) : Prop where
  left : Shows whole₀ pend₀ rest buf₀
  right : Shows whole₁ pend₁ rest buf₁
  bits_left : bitsAll whole₀ ++ pend₀ = (P ++ x) ++ R
  bits_right : bitsAll whole₁ ++ pend₁ = (P ++ y) ++ R
  length_eq : x.length = y.length
  size : buf₀.storage.length = buf₁.storage.length

variable {ss : List WriteStep}

namespace Twins

variable {P x y R : List Bool} {whole₀ whole₁ rest : List UInt8} {pend₀ pend₁ : List Bool}
  {buf₀ buf₁ : ByteBuffer}

section

variable (h : Twins P x y R whole₀ whole₁ pend₀ pend₁ rest buf₀ buf₁)
include h

theorem lengths : whole₀.length = whole₁.length ∧ pend₀.length = pend₁.length := by
  have hleft := congrArg List.length h.bits_left
  have hright := congrArg List.length h.bits_right
  have hp0 := h.left.pend_le
  have hp1 := h.right.pend_le
  have hxy := h.length_eq
  simp only [List.length_append, length_bitsAll] at hleft hright
  omega

/-- Steps that put out as many bytes both go through or both fail. -/
theorem step {s0 s1 : WriteStep}
    (hchunk : (s0.chunk pend₀).map List.length = (s1.chunk pend₁).map List.length)
    {P' x' y' R' : List Bool}
    (hbits0 : bitsAll (whole₀ ++ (s0.chunk pend₀).getD []) ++ s0.pending pend₀ = (P' ++ x') ++ R')
    (hbits1 : bitsAll (whole₁ ++ (s1.chunk pend₁).getD []) ++ s1.pending pend₁ = (P' ++ y') ++ R')
    (hxy : x'.length = y'.length) :
    (s0.run buf₀ = none ∧ s1.run buf₁ = none) ∨
      ∃ whole0' whole1' rest' buf0' buf1', s0.run buf₀ = some buf0' ∧ s1.run buf₁ = some buf1' ∧
        Twins P' x' y' R' whole0' whole1' (s0.pending pend₀) (s1.pending pend₁)
          rest' buf0' buf1' ∧ whole₀.length ≤ whole0'.length := by
  obtain ⟨hwhole, -⟩ := h.lengths
  cases h0 : s0.chunk pend₀ with
  | none =>
    rw [h0] at hchunk hbits0
    have h1 : s1.chunk pend₁ = none := map_eq_none_iff.1 hchunk.symm
    rw [h1] at hbits1
    rw [getD_none, List.append_nil] at hbits0 hbits1
    obtain ⟨buf0', hrun0, hshows0, hst0⟩ := h.left.run_none h0
    obtain ⟨buf1', hrun1, hshows1, hst1⟩ := h.right.run_none h1
    refine .inr ⟨whole₀, whole₁, rest, buf0', buf1', hrun0, hrun1,
      ⟨hshows0, hshows1, hbits0, hbits1, hxy, ?_⟩, Nat.le_refl _⟩
    rw [hst0, hst1, h.size]
  | some c0 =>
    rw [h0] at hchunk hbits0
    obtain ⟨c1, h1, hc⟩ := map_eq_some_iff.1 hchunk.symm
    rw [h1] at hbits1
    have hrun0 := h.left.run_some h0
    have hrun1 := h.right.run_some h1
    have hgo : (c1 ≠ [] ∧ buf₁.storage.length < 10000000) ↔
        (c0 ≠ [] ∧ buf₀.storage.length < 10000000) := by
      rw [h.size, ne_eq, ne_eq, ← List.length_eq_zero_iff, hc, List.length_eq_zero_iff]
    simp only [hgo] at hrun1
    rw [hc] at hrun1
    split_ifs at hrun0 hrun1 with hcond
    · obtain ⟨buf0', hrun0, hshows0, hst0⟩ := hrun0
      obtain ⟨buf1', hrun1, hshows1, hst1⟩ := hrun1
      refine .inr ⟨_, _, _, buf0', buf1', hrun0, hrun1,
        ⟨hshows0, hshows1, hbits0, hbits1, hxy, ?_⟩, ?_⟩
      · rw [hst0, hst1]
        simp only [List.length_append, hwhole, hc]
      · rw [List.length_append]
        omega
    · exact .inl ⟨hrun0, hrun1⟩

/-- A step keeps two writers alike. -/
theorem run (s : WriteStep) (hcalm : s.Calm (P.length + x.length) whole₀.length) :
    (s.run buf₀ = none ∧ s.run buf₁ = none) ∨
      ∃ whole0' whole1' rest' buf0' buf1', s.run buf₀ = some buf0' ∧ s.run buf₁ = some buf1' ∧
        Twins P x y (s.after pend₀.length R) whole0' whole1' (s.pending pend₀) (s.pending pend₁)
          rest' buf0' buf1' ∧ whole₀.length ≤ whole0'.length := by
  obtain ⟨hwhole, hpend⟩ := h.lengths
  have hbits1 := s.bits_after h.right.pend_le h.bits_right
    (by rwa [List.length_append, ← hwhole, ← h.length_eq])
  rw [← hpend] at hbits1
  exact h.step (s.length_chunk hpend)
    (s.bits_after h.left.pend_le h.bits_left (by rwa [List.length_append])) hbits1 h.length_eq

end

/-- The bits of a field may differ. -/
theorem runAll_bits {b0 b1 : List Bool} (hb : b0.length = b1.length)
    (h : Twins P x y [] whole₀ whole₁ pend₀ pend₁ rest buf₀ buf₁) :
    (runAll (b0.map .bit) buf₀ = none ∧ runAll (b1.map .bit) buf₁ = none) ∨
      ∃ whole0' whole1' pend0' pend1' rest' buf0' buf1',
        runAll (b0.map .bit) buf₀ = some buf0' ∧ runAll (b1.map .bit) buf₁ = some buf1' ∧
        Twins P (x ++ b0) (y ++ b1) [] whole0' whole1' pend0' pend1' rest' buf0' buf1' := by
  induction b0 generalizing b1 x y whole₀ whole₁ pend₀ pend₁ rest buf₀ buf₁ with
  | nil =>
    obtain rfl : b1 = [] := List.eq_nil_of_length_eq_zero hb.symm
    rw [← List.append_nil x, ← List.append_nil y] at h
    exact .inr ⟨_, _, _, _, _, _, _, rfl, rfl, h⟩
  | cons c0 b0 ih =>
    obtain _ | ⟨c1, b1⟩ := b1
    · cases hb
    obtain ⟨-, hpend⟩ := h.lengths
    have hchunk : ((WriteStep.bit c0).chunk pend₀).map List.length =
        ((WriteStep.bit c1).chunk pend₁).map List.length := by
      rw [chunk, chunk, hpend]
      split_ifs <;> rfl
    have hbits0 := (WriteStep.bit c0).bits_after h.left.pend_le h.bits_left trivial
    have hbits1 := (WriteStep.bit c1).bits_after h.right.pend_le h.bits_right trivial
    have hassoc : ∀ (P x : List Bool) (c : Bool), P ++ x ++ ([] ++ [c]) = P ++ (x ++ [c]) ++ [] :=
      fun P x c => by simp
    rw [after, hassoc] at hbits0 hbits1
    have hxy : (x ++ [c0]).length = (y ++ [c1]).length := by
      rw [List.length_append, List.length_append, h.length_eq]
      rfl
    rcases h.step hchunk hbits0 hbits1 hxy with ⟨hnone0, hnone1⟩ |
      ⟨whole0', whole1', rest', buf0', buf1', hrun0, hrun1, h', -⟩
    · refine .inl ⟨?_, ?_⟩
      · rw [List.map_cons, WriteStep.runAll, hnone0, bind_none]
      · rw [List.map_cons, WriteStep.runAll, hnone1, bind_none]
    · simp only [List.map_cons, WriteStep.runAll, hrun0, hrun1, bind_some]
      have hrest := ih (Nat.succ.inj hb) h'
      rwa [List.append_assoc, List.append_assoc, List.singleton_append,
        List.singleton_append] at hrest

/-- The length of the bits decides whether steps go through. -/
theorem isSome_runAll (h : Twins [] x y [] whole₀ whole₁ pend₀ pend₁ rest buf₀ buf₁) :
    (runAll ss buf₀).isSome = (runAll ss buf₁).isSome := by
  induction ss generalizing x y whole₀ whole₁ pend₀ pend₁ rest buf₀ buf₁ with
  | nil => rfl
  | cons s ss ih =>
    obtain ⟨hwhole, hpend⟩ := h.lengths
    have hchunk := s.length_chunk hpend
    have hlen : ((s.chunk pend₀).getD []).length = ((s.chunk pend₁).getD []).length := by
      cases h0 : s.chunk pend₀ <;> cases h1 : s.chunk pend₁ <;> simp_all
    have hall : (bitsAll (whole₀ ++ (s.chunk pend₀).getD []) ++ s.pending pend₀).length =
        (bitsAll (whole₁ ++ (s.chunk pend₁).getD []) ++ s.pending pend₁).length := by
      simp only [List.length_append, length_bitsAll, s.length_pending hpend, hwhole, hlen]
    have hbits : ∀ l : List Bool, l = ([] ++ l) ++ [] := fun l => (List.append_nil l).symm
    rcases h.step hchunk (hbits _) (hbits _) hall with ⟨hnone0, hnone1⟩ |
      ⟨whole0', whole1', rest', buf0', buf1', hrun0, hrun1, h', -⟩
    · rw [WriteStep.runAll, WriteStep.runAll, hnone0, hnone1]
    · rw [WriteStep.runAll, WriteStep.runAll, hrun0, hrun1]
      exact ih h'

/-- Steps that do not append bytes as they are inside the field keep two writers alike. -/
theorem runAll (h : Twins P x y R whole₀ whole₁ pend₀ pend₁ rest buf₀ buf₁)
    (hcalm : P.length + x.length ≤ 8 * whole₀.length ∨ Undisturbed pend₀.length ss) :
    (runAll ss buf₀ = none ∧ runAll ss buf₁ = none) ∨
      ∃ R' whole0' whole1' pend0' pend1' rest' buf0' buf1', runAll ss buf₀ = some buf0' ∧
        runAll ss buf₁ = some buf1' ∧
        Twins P x y R' whole0' whole1' pend0' pend1' rest' buf0' buf1' := by
  induction ss generalizing R whole₀ whole₁ pend₀ pend₁ rest buf₀ buf₁ with
  | nil => exact .inr ⟨_, _, _, _, _, _, _, _, rfl, rfl, h⟩
  | cons s ss ih =>
    have hp := h.left.pend_le
    have htotal := congrArg List.length h.bits_left
    simp only [List.length_append, length_bitsAll] at htotal
    have hstep : s.Calm (P.length + x.length) whole₀.length := by
      cases s with
      | bytes src =>
        rcases hcalm with hclosed | hpending
        · exact hclosed
        · have hzero : pend₀.length = 0 := hpending
          simp only [Calm]
          omega
      | bit b => trivial
      | flush => trivial
    rcases h.run s hstep with ⟨hnone0, hnone1⟩ |
      ⟨whole0', whole1', rest', buf0', buf1', hrun0, hrun1, h', hle⟩
    · refine .inl ⟨?_, ?_⟩
      · rw [WriteStep.runAll, hnone0, bind_none]
      · rw [WriteStep.runAll, hnone1, bind_none]
    · simp only [WriteStep.runAll, hrun0, hrun1, bind_some]
      refine ih h' ?_
      have htotal' := congrArg List.length h'.bits_left
      simp only [List.length_append, length_bitsAll] at htotal'
      rcases hcalm with hclosed | hpending
      · exact .inl (by omega)
      · cases s with
        | bytes src =>
          have hzero : pend₀.length = 0 := hpending
          exact .inl (by omega)
        | flush =>
          have hnil : (pending pend₀ .flush).length = 0 := rfl
          exact .inl (by omega)
        | bit b =>
          rcases hpending with hzero | hrest
          · exact .inl (by omega)
          · simp only [after, List.length_append, List.length_singleton] at htotal'
            by_cases hlen : pend₀.length = 7
            · have hnil : (pending pend₀ (.bit b)).length = 0 := by rw [pending, if_pos hlen]; rfl
              exact .inl (by omega)
            · right
              rw [pending, if_neg hlen, List.length_append, List.length_singleton]
              rwa [Nat.mod_eq_of_lt (by omega)] at hrest

end Twins

/-! ## One run -/

namespace ByteBuffer

variable {whole : List UInt8} {pend : List Bool} {rest : List UInt8} {buf : ByteBuffer}

/-- What was put out stays, and what is pending are the bits since the last flush. Once something is
put out, the write position is inside the storage. -/
theorem Shows.runAll {k : ℕ} (h : Shows whole pend rest buf) (hk : pend.length = k % 8)
    {buf' : ByteBuffer} (hrun : WriteStep.runAll ss buf = some buf') :
    ∃ whole' pend' rest', Shows whole' pend' rest' buf' ∧ whole <+: whole' ∧
      pend'.length = ss.foldl WriteStep.bitsSince k % 8 ∧
      (whole' = whole ∧ buf'.storage = buf.storage ∨ whole'.length ≤ buf'.storage.length) := by
  induction ss generalizing whole pend rest buf k with
  | nil =>
    cases hrun
    exact ⟨whole, pend, rest, h, List.prefix_refl _, hk, .inl ⟨rfl, rfl⟩⟩
  | cons s ss ih =>
    obtain ⟨buf₁, hfirst, hrest⟩ := bind_eq_some_iff.1 hrun
    have hpending : (s.pending pend).length = s.bitsSince k % 8 := by
      cases s with
      | bit b =>
        rw [pending, bitsSince]
        split_ifs with hlen
        · rw [List.length_nil]
          omega
        · rw [List.length_append, List.length_singleton]
          omega
      | flush => rfl
      | bytes src => exact hk
    cases hchunk : s.chunk pend with
    | none =>
      obtain ⟨buf2, hrun2, hshows, hst⟩ := h.run_none hchunk
      cases hfirst.symm.trans hrun2
      rw [← hst]
      exact ih hshows hpending hrest
    | some c =>
      have hsome := h.run_some hchunk
      split_ifs at hsome
      · obtain ⟨buf2, hrun2, hshows, hst⟩ := hsome
        cases hfirst.symm.trans hrun2
        obtain ⟨whole', pend', rest', h', hprefix, hlen, hin⟩ := ih hshows hpending hrest
        refine ⟨whole', pend', rest', h', (List.prefix_append _ _).trans hprefix, hlen, .inr ?_⟩
        rcases hin with ⟨rfl, hsame⟩ | hin
        · rw [hsame, hst, @List.length_append _ (whole ++ c)]
          omega
        · exact hin
      · rw [hfirst] at hsome
        cases hsome

end ByteBuffer

theorem undisturbed_zero (ss : List WriteStep) : Undisturbed 0 ss := by
  obtain _ | ⟨s, ss⟩ := ss
  · trivial
  · cases s with
    | bit b => exact .inl rfl
    | flush => trivial
    | bytes src => exact rfl

/-- Bytes that are appended as they are inside a byte come before it, whatever the byte is. -/
theorem disturbed {k : ℕ} (h : ¬Undisturbed k ss) :
    ∃ c, ∀ {whole pend rest buf buf'}, Shows whole pend rest buf → pend.length = k →
      runAll ss buf = some buf' →
        ∃ whole' pend' rest', Shows whole' pend' rest' buf' ∧ whole ++ [c] <+: whole' ∧
          whole'.length ≤ buf'.storage.length := by
  induction ss generalizing k with
  | nil => exact absurd trivial h
  | cons s ss ih =>
    cases s with
    | flush => exact absurd trivial h
    | bit b =>
      obtain ⟨c, hc⟩ := ih fun hrest => h (.inr hrest)
      refine ⟨c, fun {whole pend rest buf buf'} hshows hk hrun => ?_⟩
      have hp := hshows.pend_le
      have hlen : pend.length ≠ 7 := by
        intro hlen
        refine h (.inr ?_)
        have hnext : (k + 1) % 8 = 0 := by omega
        rw [hnext]
        exact undisturbed_zero ss
      have hchunk : (WriteStep.bit b).chunk pend = none := if_neg hlen
      obtain ⟨buf₁, hfirst, hrest⟩ := bind_eq_some_iff.1 hrun
      obtain ⟨buf2, hrun2, hshows2, -⟩ := hshows.run_none hchunk
      cases hfirst.symm.trans hrun2
      refine hc hshows2 ?_ hrest
      rw [pending, if_neg hlen, List.length_append, List.length_singleton, hk,
        Nat.mod_eq_of_lt (by omega)]
    | bytes src =>
      obtain _ | ⟨c, src⟩ := src
      · refine ⟨0, fun {whole pend rest buf buf'} hshows hk hrun => ?_⟩
        obtain ⟨buf₁, hfirst, -⟩ := bind_eq_some_iff.1 hrun
        cases hfirst
      · refine ⟨c, fun {whole pend rest buf buf'} hshows hk hrun => ?_⟩
        obtain ⟨buf₁, hfirst, hrest⟩ := bind_eq_some_iff.1 hrun
        have hsome := hshows.run_some (s := .bytes (c :: src)) rfl
        split_ifs at hsome
        · obtain ⟨buf2, hrun2, hshows2, hst⟩ := hsome
          cases hfirst.symm.trans hrun2
          have hp := hshows2.pend_le
          obtain ⟨whole', pend', rest', h', hprefix, -, hin⟩ :=
            hshows2.runAll (Nat.mod_eq_of_lt (by omega)).symm hrest
          refine ⟨whole', pend', rest', h', List.IsPrefix.trans ⟨src, ?_⟩ hprefix, ?_⟩
          · rw [List.append_assoc]
            rfl
          · rcases hin with ⟨rfl, hsame⟩ | hin
            · rw [hsame, hst, @List.length_append _ (whole ++ c :: src)]
              omega
            · exact hin
        · rw [hfirst] at hsome
          cases hsome

/-! ## Patching is writing -/

/-- What `PutBits` does to the bits of the storage. -/
theorem putLoop_eq {P x R : List Bool} {storage : List UInt8} (v : ℕ)
    (h : bitsAll storage = P ++ x ++ R) :
    bitsAll (putLoop P.length v x.length storage) = P ++ bitsOf x.length v ++ R := by
  rw [← foldl_set_bitsOf, ← h, putLoop]
  -- each turn sets a bit inside the storage
  have hlen := congrArg List.length h
  simp only [List.length_append, length_bitsAll] at hlen
  have hturns : ∀ l : List ℕ, (∀ i ∈ l, i < x.length) → ∀ st : List UInt8,
      st.length = storage.length →
      bitsAll (l.foldl (fun st i => st.modify ((P.length + i) / 8) fun b =>
          setBit b ((P.length + i) % 8) (v.testBit (x.length - i - 1))) st) =
        l.foldl (fun l i => l.set (P.length + i) (v.testBit (x.length - i - 1))) (bitsAll st) := by
    intro l
    induction l with
    | nil => exact fun _ _ _ => rfl
    | cons i l ih =>
      intro hl st hst
      have hi := hl i List.mem_cons_self
      rw [List.foldl_cons, List.foldl_cons, ← bitsAll_modify (by omega)]
      exact ih (fun j hj => hl j (List.mem_cons_of_mem _ hj)) _ (by rwa [List.length_modify])
  exact hturns _ (fun i hi => List.mem_range.1 hi) storage rfl

/-- The run after the field, with the final flush. -/
def fieldSteps (after : List PacketWrite) (n v : ℕ) : List WriteStep :=
  (bitsOf n v).map .bit ++ (after.flatMap PacketWrite.steps ++ [.flush])

theorem direct_eq (before after : List PacketWrite) (n v : ℕ) (buf : ByteBuffer) :
    direct before after n v buf =
      (runAll (before.flatMap PacketWrite.steps) buf).bind fun buf =>
        (runAll (fieldSteps after n v) buf).map ByteBuffer.storage := by
  have hflush : ∀ buf : ByteBuffer, runAll [.flush] buf = buf.flushBits := fun buf =>
    bind_fun_some _
  rw [direct, writeAll_eq]
  refine bind_congr fun buf' _ => ?_
  rw [fieldSteps, runAll_append, map_bind, writeBits_eq]
  refine bind_congr fun buf₁ _ => ?_
  simp only [Function.comp_apply]
  rw [runAll_append, map_bind, writeAll_eq]
  refine bind_congr fun buf2 _ => ?_
  rw [Function.comp_apply, hflush]

theorem patched_eq (before after : List PacketWrite) (n v0 v : ℕ) (buf : ByteBuffer) :
    patched before after n v0 v buf =
      (runAll (before.flatMap PacketWrite.steps) buf).bind fun buf =>
        (runAll (fieldSteps after n v0) buf).bind fun buf' =>
          (buf'.putBits buf.bitwpos v n).map ByteBuffer.storage := by
  have hflush : ∀ buf : ByteBuffer, runAll [.flush] buf = buf.flushBits := fun buf =>
    bind_fun_some _
  rw [patched, writeAll_eq]
  refine bind_congr fun buf' _ => ?_
  rw [fieldSteps, runAll_append, bind_assoc, writeBits_eq]
  refine bind_congr fun buf₁ _ => ?_
  rw [runAll_append, bind_assoc, writeAll_eq]
  refine bind_congr fun buf2 _ => ?_
  rw [hflush]

namespace ByteBuffer

variable {whole : List UInt8} {pend : List Bool} {rest : List UInt8} {buf : ByteBuffer}

/-- A buffer whose bit cursor is as it was constructed. -/
theorem shows_start (hbitpos : buf.bitpos = 8) (hcur : buf.curbitval = 0) :
    ∃ whole rest, Shows whole [] rest buf := by
  have hlen : ((resized buf.storage buf.wpos).take buf.wpos).length = buf.wpos := by
    rw [List.length_take, resized, List.length_append, List.length_replicate]
    omega
  refine ⟨(resized buf.storage buf.wpos).take buf.wpos,
    (resized buf.storage buf.wpos).drop buf.wpos, ⟨hlen.symm, ?_⟩, Nat.zero_le _, hbitpos, hcur⟩
  rw [hlen, List.take_append_drop]

section

variable (h : Shows whole pend rest buf)
include h

theorem Shows.storage_eq (hlen : whole.length ≤ buf.storage.length) :
    buf.storage = whole ++ rest := by
  rw [← h.storage, resized, Nat.sub_eq_zero_of_le hlen, List.replicate_zero, List.append_nil]

/-- A writer is its own twin. -/
theorem Shows.twins : Twins (bitsAll whole ++ pend) [] [] [] whole whole pend pend rest buf buf :=
  ⟨h, h, by rw [List.append_nil, List.append_nil], by rw [List.append_nil, List.append_nil], rfl,
    rfl⟩

/-- The bits of a field behind what was written. -/
theorem Shows.runAll_field (n v0 v : ℕ) :
    (WriteStep.runAll ((bitsOf n v0).map .bit) buf = none ∧
        WriteStep.runAll ((bitsOf n v).map .bit) buf = none) ∨
      ∃ whole₀ whole₁ pend₀ pend₁ rest' buf₀ buf₁,
        WriteStep.runAll ((bitsOf n v0).map .bit) buf = some buf₀ ∧
          WriteStep.runAll ((bitsOf n v).map .bit) buf = some buf₁ ∧
          Twins (bitsAll whole ++ pend) (bitsOf n v0) (bitsOf n v) [] whole₀ whole₁ pend₀ pend₁
            rest' buf₀ buf₁ ∧
          8 * whole₀.length + pend₀.length = 8 * whole.length + pend.length + n := by
  have hb : (bitsOf n v0).length = (bitsOf n v).length := by rw [length_bitsOf, length_bitsOf]
  rcases h.twins.runAll_bits hb with hnone |
    ⟨whole₀, whole₁, pend₀, pend₁, rest', buf₀, buf₁, hrun0, hrun1, htwins⟩
  · exact .inl hnone
  · have hlen := congrArg List.length htwins.bits_left
    simp only [List.length_append, length_bitsAll, List.length_nil, length_bitsOf] at hlen
    exact .inr ⟨whole₀, whole₁, pend₀, pend₁, rest', buf₀, buf₁, hrun0, hrun1, htwins, by omega⟩

end

end ByteBuffer

/-- An undisturbed field is patched as it is written. -/
theorem patch_of_undisturbed {whole : List UInt8} {pend : List Bool} {rest : List UInt8}
    {buf : ByteBuffer} (h : Shows whole pend rest buf) {after : List PacketWrite} {n : ℕ}
    (hn : 1 ≤ n)
    (hcalm : Undisturbed ((pend.length + n) % 8) (after.flatMap PacketWrite.steps)) (v0 v : ℕ) :
    ((runAll (fieldSteps after n v0) buf).bind fun buf' =>
        (buf'.putBits buf.bitwpos v n).map ByteBuffer.storage) =
      (runAll (fieldSteps after n v) buf).map ByteBuffer.storage := by
  have hfield : ∀ v, runAll (fieldSteps after n v) buf =
      ((runAll ((bitsOf n v).map .bit) buf).bind
        (runAll (after.flatMap PacketWrite.steps))).bind (runAll [.flush]) := by
    intro v
    rw [fieldSteps, runAll_append, bind_assoc]
    exact bind_congr fun buf' _ => runAll_append _ _ buf'
  have hlast : ∀ buf : ByteBuffer, runAll [.flush] buf = WriteStep.run .flush buf := fun buf =>
    bind_fun_some _
  rcases h.runAll_field n v0 v with ⟨hnone0, hnone1⟩ |
    ⟨whole₀, whole₁, pend₀, pend₁, rest1, buf₀, buf₁, hrun0, hrun1, htwins, hlen⟩
  · rw [hfield, hfield, hnone0, hnone1]
    rfl
  have hp0 := htwins.left.pend_le
  have hk : pend₀.length = (pend.length + n) % 8 := by omega
  rw [← hk] at hcalm
  rcases htwins.runAll (.inr hcalm) with ⟨hnone0, hnone1⟩ |
    ⟨R, whole2, whole3, pend2, pend3, rest2, buf2, buf3, hrun2, hrun3, htwins2⟩
  · rw [hfield, hfield, hrun0, hrun1, bind_some, bind_some, hnone0, hnone1]
    rfl
  rcases htwins2.run .flush trivial with ⟨hnone0, hnone1⟩ |
    ⟨whole4, whole5, rest3, buf4, buf5, hrun4, hrun5, htwins3, -⟩
  · rw [hfield, hfield, hrun0, hrun1, bind_some, bind_some, hrun2, hrun3,
      bind_some, bind_some, hlast, hlast, hnone0, hnone1]
    rfl
  have hend0 : runAll (fieldSteps after n v0) buf = some buf4 := by
    rw [hfield, hrun0, bind_some, hrun2, bind_some, hlast, hrun4]
  have hend1 : runAll (fieldSteps after n v) buf = some buf5 := by
    rw [hfield, hrun1, bind_some, hrun3, bind_some, hlast, hrun5]
  -- all that was written is on the storage
  have hleft := htwins3.left
  have hright := htwins3.right
  have hbits0 := htwins3.bits_left
  have hbits1 := htwins3.bits_right
  rw [pending, List.append_nil] at hbits0 hbits1
  have htotal := congrArg List.length hbits0
  simp only [List.length_append, length_bitsAll, length_bitsOf] at htotal
  have hin : whole4.length ≤ buf4.storage.length := by
    have hp := h.pend_le
    obtain ⟨whole', pend', rest', h', -, -, hin⟩ :=
      h.runAll (Nat.mod_eq_of_lt (by omega)).symm hend0
    have hwpos : whole'.length = whole4.length := h'.wpos.symm.trans hleft.wpos
    rcases hin with ⟨rfl, -⟩ | hin
    · omega
    · omega
  have hin' : whole5.length ≤ buf5.storage.length := by
    rw [← htwins3.lengths.1, ← htwins3.size]
    exact hin
  have hst0 := hleft.storage_eq hin
  have hst1 := hright.storage_eq hin'
  have hput : bitsAll (putLoop buf.bitwpos v n buf4.storage) = bitsAll buf5.storage := by
    have hall : bitsAll buf4.storage =
        (bitsAll whole ++ pend) ++ bitsOf n v0 ++ (WriteStep.flush.after pend2.length R ++
          bitsAll rest3) := by
      rw [hst0, bitsAll_append, hbits0, List.append_assoc]
    have hloop := putLoop_eq v hall
    rw [length_bitsOf, ← h.bitwpos] at hloop
    rw [hloop, hst1, bitsAll_append, hbits1]
    simp only [List.append_assoc]
  have hsize : ¬buf4.storage.length * 8 < buf.bitwpos + n := by
    rw [h.bitwpos, List.length_append, length_bitsAll]
    omega
  rw [hend0, hend1, bind_some, putBits, if_neg (by omega), if_neg hsize, map_some,
    map_some]
  exact congrArg some (bitsAll_injective hput)

/-- Whether a field goes through does not depend on its value. -/
theorem isSome_fieldSteps {whole : List UInt8} {pend : List Bool} {rest : List UInt8}
    {buf : ByteBuffer} (h : Shows whole pend rest buf) (after : List PacketWrite) (n v0 v : ℕ) :
    (runAll (fieldSteps after n v0) buf).isSome = (runAll (fieldSteps after n v) buf).isSome := by
  rw [fieldSteps, fieldSteps, runAll_append, runAll_append]
  rcases h.runAll_field n v0 v with ⟨hnone0, hnone1⟩ |
    ⟨whole₀, whole₁, pend₀, pend₁, rest1, buf₀, buf₁, hrun0, hrun1, htwins, -⟩
  · rw [hnone0, hnone1]
  · rw [hrun0, hrun1, bind_some, bind_some]
    have halike : Twins [] (bitsAll whole ++ pend ++ bitsOf n v0)
        (bitsAll whole ++ pend ++ bitsOf n v) [] whole₀ whole₁ pend₀ pend₁ rest1 buf₀ buf₁ := by
      refine ⟨htwins.left, htwins.right, htwins.bits_left, htwins.bits_right, ?_, htwins.size⟩
      rw [List.length_append, htwins.length_eq, ← List.length_append]
    exact halike.isSome_runAll

/-- The last bit of a field is at the place where bytes that disturb it begin, so that there is a
value whose patch changes them. -/
theorem patch_of_disturbed {whole : List UInt8} {pend : List Bool} {rest : List UInt8}
    {buf : ByteBuffer} (h : Shows whole pend rest buf) {after : List PacketWrite} {n : ℕ}
    (hn : 1 ≤ n)
    (hcalm : ¬Undisturbed ((pend.length + n) % 8) (after.flatMap PacketWrite.steps)) {v1 : ℕ}
    (hgo : (runAll (fieldSteps after n v1) buf).isSome) :
    ∃ v < 2 ^ n, ((runAll (fieldSteps after n v) buf).bind fun buf' =>
        (buf'.putBits buf.bitwpos v n).map ByteBuffer.storage) ≠
      (runAll (fieldSteps after n v) buf).map ByteBuffer.storage := by
  obtain ⟨c, hc⟩ := disturbed hcalm
  set k := (pend.length + n) % 8 with hk
  -- the lowest bit of the value is not the one of the byte
  obtain ⟨v, hv, hbit⟩ : ∃ v < 2 ^ n, some (v.testBit 0) ≠ (bits c)[k - 1]? := by
    have hpow : 2 ≤ 2 ^ n := Nat.pow_le_pow_right (n := 2) (by decide) hn
    by_cases hset : (bits c)[k - 1]? = some false
    · refine ⟨1, by omega, ?_⟩
      rw [hset]
      decide
    · refine ⟨0, by omega, ?_⟩
      exact fun heq => hset heq.symm
  refine ⟨v, hv, fun hsame => ?_⟩
  rw [isSome_fieldSteps h after n v1 v, isSome_iff_exists] at hgo
  obtain ⟨buf', hrun⟩ := hgo
  rw [hrun, bind_some, map_some] at hsame
  rw [fieldSteps, runAll_append, bind_eq_some_iff] at hrun
  obtain ⟨buf₀, hrun0, hrun⟩ := hrun
  rw [runAll_append, bind_eq_some_iff] at hrun
  obtain ⟨buf₁, hrun1, hrun2⟩ := hrun
  rcases h.runAll_field n v v with ⟨hnone, -⟩ |
    ⟨whole₀, whole', pend₀, pend', rest0, buf2, buf3, hrun3, -, htwins, hlen⟩
  · rw [hrun0] at hnone
    cases hnone
  cases hrun0.symm.trans hrun3
  have hp0 := htwins.left.pend_le
  have hpend0 : pend₀.length = k := by omega
  obtain ⟨whole₁, pend₁, rest1, hshows1, hprefix1, hin1⟩ := hc htwins.left hpend0 hrun1
  have hp1 := hshows1.pend_le
  obtain ⟨whole2, pend2, rest2, hshows2, hprefix2, -, hin2⟩ :=
    hshows1.runAll (Nat.mod_eq_of_lt (by omega)).symm hrun2
  have hpos : k ≠ 0 := fun hzero => hcalm (by rw [hzero]; exact undisturbed_zero _)
  -- the bytes are on the storage behind those that were put out before
  obtain ⟨t, ht⟩ : ∃ t, buf'.storage = whole₀ ++ c :: t := by
    have hin : whole2.length ≤ buf'.storage.length := by
      rcases hin2 with ⟨rfl, hst⟩ | hin2
      · rw [hst]
        exact hin1
      · exact hin2
    obtain ⟨t, ht⟩ := hprefix1.trans hprefix2
    refine ⟨t ++ rest2, ?_⟩
    rw [hshows2.storage_eq hin, ← ht, List.append_assoc, List.append_assoc]
    rfl
  have hplace : (bitsAll buf'.storage)[buf.bitwpos + (n - 1)]? = (bits c)[k - 1]? := by
    have hindex : buf.bitwpos + (n - 1) = (bitsAll whole₀).length + (k - 1) := by
      rw [h.bitwpos, List.length_append, length_bitsAll, length_bitsAll]
      omega
    rw [hindex, ht, bitsAll_append, List.getElem?_append_right (Nat.le_add_right _ _),
      Nat.add_sub_cancel_left, bitsAll_cons, List.getElem?_append_left]
    rw [length_bits]
    omega
  rw [putBits, if_neg (by omega)] at hsame
  split_ifs at hsame with hsize
  · cases hsame
  rw [map_some, some.injEq] at hsame
  simp only at hsame
  -- the patch has put the lowest bit there
  have hput : (bitsAll buf'.storage)[buf.bitwpos + (n - 1)]? = some (v.testBit 0) := by
    have hsplit : bitsAll buf'.storage = (bitsAll buf'.storage).take buf.bitwpos ++
        ((bitsAll buf'.storage).drop buf.bitwpos).take n ++
          (bitsAll buf'.storage).drop (buf.bitwpos + n) := by
      rw [List.append_assoc, ← List.drop_drop, List.take_append_drop, List.take_append_drop]
    have hP : ((bitsAll buf'.storage).take buf.bitwpos).length = buf.bitwpos := by
      rw [List.length_take, length_bitsAll]
      omega
    have hx : (((bitsAll buf'.storage).drop buf.bitwpos).take n).length = n := by
      rw [List.length_take, List.length_drop, length_bitsAll]
      omega
    have hloop := putLoop_eq v hsplit
    rw [hP, hx, hsame] at hloop
    rw [hloop, List.append_assoc, List.getElem?_append_right (by omega), hP,
      Nat.add_sub_cancel_left, List.getElem?_append_left (by rw [length_bitsOf]; omega),
      getElem?_bitsOf v (by omega)]
    congr 2
    omega
  exact hbit (hput.symm.trans hplace)

/-- Patching a field is writing it, whatever the values are, if and only if no bytes are appended as
they are while the last byte of the field is not complete. -/
theorem putBits_iff {buf : ByteBuffer} (hbitpos : buf.bitpos = 8) (hcur : buf.curbitval = 0)
    (before after : List PacketWrite) {n : ℕ} (hn : 1 ≤ n) (v₁ : ℕ)
    (hgo : (direct before after n v₁ buf).isSome) :
    (∀ v₀ v, v₀ < 2 ^ n → v < 2 ^ n →
        patched before after n v₀ v buf = direct before after n v buf) ↔
      Undisturbed (((before.flatMap PacketWrite.steps).foldl WriteStep.bitsSince 0 + n) % 8)
        (after.flatMap PacketWrite.steps) := by
  simp only [direct_eq, patched_eq] at hgo ⊢
  obtain ⟨whole, rest, hstart⟩ := shows_start hbitpos hcur
  cases hrun : runAll (before.flatMap PacketWrite.steps) buf with
  | none =>
    rw [hrun] at hgo
    cases hgo
  | some buf₁ =>
    rw [hrun, bind_some, isSome_map] at hgo
    have hnone : ([] : List Bool).length = 0 % 8 := rfl
    obtain ⟨whole', pend, rest', h, -, hpend, -⟩ := hstart.runAll hnone hrun
    have hk : (pend.length + n) % 8 =
        ((before.flatMap PacketWrite.steps).foldl WriteStep.bitsSince 0 + n) % 8 := by
      rw [hpend, Nat.mod_add_mod]
    rw [← hk]
    constructor
    · intro hall
      by_contra hcalm
      obtain ⟨v, hv, hne⟩ := patch_of_disturbed h hn hcalm hgo
      exact hne (hall v v hv hv)
    · exact fun hcalm v₀ v _ _ => patch_of_undisturbed h hn hcalm v₀ v

/-- Three bits, a field of seven bits that goes over the end of the first byte, and a number. -/
theorem putBits_iff_seven :
    (∀ v₀ v, v₀ < 2 ^ 7 → v < 2 ^ 7 →
        patched [.op (.writeBits 5 3)] [.op (.writeBit true), .op (.append 2 513)] 7 v₀ v {} =
          direct [.op (.writeBits 5 3)] [.op (.writeBit true), .op (.append 2 513)] 7 v {}) ↔
      Undisturbed
        ((([PacketWrite.op (.writeBits 5 3)].flatMap PacketWrite.steps).foldl
          WriteStep.bitsSince 0 + 7) % 8)
        ([PacketWrite.op (.writeBit true), .op (.append 2 513)].flatMap PacketWrite.steps) :=
  putBits_iff rfl rfl [.op (.writeBits 5 3)] [.op (.writeBit true), .op (.append 2 513)] (by decide)
    0 (by decide)

/-- The patch of one bit changes the character that a string has put before it. -/
theorem patched_ne_direct :
    patched [] [.op (.string [65])] 1 0 1 {} = some [193, 0, 0] ∧
      direct [] [.op (.string [65])] 1 1 {} = some [65, 128, 0] := by
  decide

end MistyWorld
