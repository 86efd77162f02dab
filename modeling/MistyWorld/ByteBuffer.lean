import MistyWorld.BitStream
import MistyWorld.Bytes

/-!
# Byte buffers

The writing and reading of a `ByteBuffer`. Bits are gathered in `_curbitval`, from the highest place
down, and `append` of a number flushes them. The characters of a string are appended without a
flush ; the zero that ends it is appended as a number and flushes what is pending, behind the
characters. A reader takes a byte into `_curbitval` when `_bitpos` has gone through the last one,
and keeps both across the reading of numbers and strings.

So what is written is read back only if no bits are read after a flush has filled their byte up, and
no string is written while bits are pending, up to coincidences of the bits (`roundTrip_iff`). The
writer puts out the `BitStream.chunks` of the pieces (`writeAll_eq`), and the reader is
`BitStream.matchAll` (`readAll_iff`).
-/

open Option List BitStream Bytes

namespace MistyWorld

/-! ## The buffer -/

/-- `ByteBuffer`. -/
structure ByteBuffer where
  rpos : ℕ := 0
  wpos : ℕ := 0
  bitpos : ℕ := 8
  curbitval : UInt8 := 0
  storage : List UInt8 := []
  deriving DecidableEq, Repr

namespace ByteBuffer

/-- `_storage.resize`, to at least `n` bytes. -/
def resized (storage : List UInt8) (n : ℕ) : List UInt8 :=
  storage ++ List.replicate (n - storage.length) 0

/-- `ByteBuffer::append(src, cnt)`. No bytes are an exception, and a large buffer fails the
assertion. -/
def append (src : List UInt8) (buf : ByteBuffer) : Option ByteBuffer :=
  if src = [] then none
  else if buf.storage.length < 10000000 then
    let storage := resized buf.storage (buf.wpos + src.length)
    some { buf with
      storage := storage.take buf.wpos ++ src ++ storage.drop (buf.wpos + src.length)
      wpos := buf.wpos + src.length }
  else none

/-- `ByteBuffer::FlushBits`. -/
def flushBits (buf : ByteBuffer) : Option ByteBuffer :=
  if buf.bitpos = 8 then some buf
  else (buf.append [buf.curbitval]).map fun buf => { buf with curbitval := 0, bitpos := 8 }

/-- `ByteBuffer::append(value)` for a number of `width` bytes. -/
def appendValue (width value : ℕ) (buf : ByteBuffer) : Option ByteBuffer :=
  buf.flushBits.bind fun buf => buf.append (toBytes width value)

/-- `ByteBuffer::WriteBit`. -/
def writeBit (bit : ℕ) (buf : ByteBuffer) : Option ByteBuffer :=
  let bitpos := buf.bitpos - 1
  let curbitval :=
    if bit ≠ 0 then buf.curbitval ||| (1 <<< UInt8.ofNat bitpos) else buf.curbitval
  if bitpos = 0 then
    (append [curbitval] { buf with bitpos := 8, curbitval }).map fun buf =>
      { buf with curbitval := 0 }
  else some { buf with bitpos, curbitval }

/-- `ByteBuffer::WriteBits`. -/
def writeBits (value : ℕ) : ℕ → ByteBuffer → Option ByteBuffer
  | 0, buf => some buf
  | i + 1, buf => (buf.writeBit (1 &&& (value >>> i))).bind (writeBits value i)

/-- `ByteBuffer::operator<<(std::string)`. -/
def writeString (value : List UInt8) (buf : ByteBuffer) : Option ByteBuffer :=
  (if value = [] then some buf else buf.append value).bind (appendValue 1 0)

/-- `ByteBuffer::read<T>` for a number of `width` bytes. -/
def read (width : ℕ) (buf : ByteBuffer) : Option (ℕ × ByteBuffer) :=
  if buf.storage.length < buf.rpos + width then none
  else some (ofBytes ((buf.storage.drop buf.rpos).take width),
    { buf with rpos := buf.rpos + width })

/-- `ByteBuffer::ReadBit`. -/
def readBit (buf : ByteBuffer) : Option (Bool × ByteBuffer) :=
  let buf := { buf with bitpos := buf.bitpos + 1 }
  (if 7 < buf.bitpos then
    (read 1 { buf with bitpos := 0 }).map fun (value, buf) =>
      { buf with curbitval := UInt8.ofNat value }
  else some buf).map fun buf => (1 &&& (buf.curbitval.toNat >>> (7 - buf.bitpos)) != 0, buf)

/-- The loop of `ByteBuffer::ReadBits`. -/
def readBits : ℕ → ℕ → ByteBuffer → Option (ℕ × ByteBuffer)
  | 0, value, buf => some (value, buf)
  | i + 1, value, buf =>
    buf.readBit.bind fun (bit, buf) =>
      readBits i (if bit then value ||| (1 <<< i) else value) buf

/-- The loop of `ByteBuffer::operator>>(std::string)`. -/
def readChars : ℕ → List UInt8 → ByteBuffer → Option (List UInt8 × ByteBuffer)
  | 0, value, buf => some (value, buf)
  | turns + 1, value, buf =>
    if buf.rpos < buf.storage.length then
      (buf.read 1).bind fun (c, buf) =>
        if c = 0 then some (value, buf) else readChars turns (value ++ [UInt8.ofNat c]) buf
    else some (value, buf)

/-- `ByteBuffer::operator>>(std::string)`. Each turn takes a byte, so that there are no more turns
than bytes. -/
def readString (buf : ByteBuffer) : Option (List UInt8 × ByteBuffer) :=
  readChars (buf.storage.length - buf.rpos) [] buf

end ByteBuffer

/-! ## Writes and their reads -/

/-- A write. -/
inductive WriteOp
  | writeBit (bit : Bool)
  | writeBits (value n : ℕ)
  | append (width value : ℕ)
  | string (s : List UInt8)
  | flushBits
  deriving DecidableEq, Repr

/-- What a read returns. -/
inductive ReadValue
  | bit (bit : Bool)
  | number (value : ℕ)
  | string (s : List UInt8)
  | nothing
  deriving DecidableEq, Repr

namespace WriteOp

/-- A value fits its bits or its type, and a string has no zero. -/
def Allowed : WriteOp → Prop
  | .writeBits value n => 1 ≤ n ∧ n ≤ 32 ∧ value < 2 ^ n
  | .append width value => width ∈ [1, 2, 4, 8] ∧ value < 256 ^ width
  | .string s => 0 ∉ s
  | _ => True

instance : DecidablePred Allowed
  | .writeBit _ => inferInstanceAs (Decidable True)
  | .writeBits value n => inferInstanceAs (Decidable (1 ≤ n ∧ n ≤ 32 ∧ value < 2 ^ n))
  | .append width value =>
    inferInstanceAs (Decidable (width ∈ [1, 2, 4, 8] ∧ value < 256 ^ width))
  | .string s => inferInstanceAs (Decidable (0 ∉ s))
  | .flushBits => inferInstanceAs (Decidable True)

/-- The write on a buffer. -/
def write : WriteOp → ByteBuffer → Option ByteBuffer
  | .writeBit bit => ByteBuffer.writeBit bit.toNat
  | .writeBits value n => ByteBuffer.writeBits value n
  | .append width value => ByteBuffer.appendValue width value
  | .string s => ByteBuffer.writeString s
  | .flushBits => ByteBuffer.flushBits

/-- The mirrored read. -/
def readBack : WriteOp → ByteBuffer → Option (ReadValue × ByteBuffer)
  | .writeBit _, buf => buf.readBit.map fun (bit, buf) => (.bit bit, buf)
  | .writeBits _ n, buf => (buf.readBits n 0).map fun (value, buf) => (.number value, buf)
  | .append width _, buf => (buf.read width).map fun (value, buf) => (.number value, buf)
  | .string _, buf => buf.readString.map fun (s, buf) => (.string s, buf)
  | .flushBits, buf => some (.nothing, buf)

/-- What was written. -/
def value : WriteOp → ReadValue
  | .writeBit bit => .bit bit
  | .writeBits value _ => .number value
  | .append _ value => .number value
  | .string s => .string s
  | .flushBits => .nothing

/-- The pieces that a write puts on the stream. -/
def pieces : WriteOp → List Piece
  | .writeBit bit => [.bit bit]
  | .writeBits value n => (bitsOf n value).map .bit
  | .append width value => [.bytes (toBytes width value)]
  | .string s => [.str s]
  | .flushBits => [.bytes []]

end WriteOp

/-- The writes, one after the other. -/
def writeAll : List WriteOp → ByteBuffer → Option ByteBuffer
  | [], buf => some buf
  | op :: ops, buf => (op.write buf).bind (writeAll ops)

/-- The mirrored reads, one after the other. -/
def readAll : List WriteOp → ByteBuffer → Option (List ReadValue × ByteBuffer)
  | [], buf => some ([], buf)
  | op :: ops, buf =>
    (op.readBack buf).bind fun (v, buf) => (readAll ops buf).map fun (vs, buf) => (v :: vs, buf)

/-- The writes on a fresh buffer and a final flush go through, and the mirrored reads return what
was written and take every byte. -/
def RoundTrip (ops : List WriteOp) : Prop :=
  ∃ buf buf', ((writeAll ops {}).bind ByteBuffer.flushBits) = some buf ∧
    readAll ops buf = some (ops.map WriteOp.value, buf') ∧ buf'.rpos = buf'.storage.length

/-! ## The writer -/

variable {buf : ByteBuffer} {pend : List Bool} {r' : Reader} {ops : List WriteOp}

namespace ByteBuffer

/-- The buffer of a writer with pending bits and the bytes it has put out. -/
def writing (pend : List Bool) (storage : List UInt8) : ByteBuffer where
  wpos := storage.length
  bitpos := 8 - pend.length
  curbitval := byte pend
  storage := storage

/-- Appended to the end, as long as the assertion holds. -/
theorem append_eq (hw : buf.wpos = buf.storage.length) {src : List UInt8} (hsrc : src ≠ []) :
    buf.append src = if buf.storage.length < 10000000 then
      some { buf with storage := buf.storage ++ src, wpos := (buf.storage ++ src).length }
    else none := by
  have htake : (resized buf.storage (buf.wpos + src.length)).take buf.wpos = buf.storage := by
    rw [resized, hw, take_left]
  have hdrop : (resized buf.storage (buf.wpos + src.length)).drop (buf.wpos + src.length) = [] := by
    refine drop_eq_nil_of_le ?_
    rw [resized, length_append, length_replicate]
    omega
  rw [append, if_neg hsrc]
  simp only [htake, hdrop, append_nil, length_append]
  rw [hw]

/-- The parts, appended one after the other as long as the assertion holds. -/
def put : List (List UInt8) → List UInt8 → Option (List UInt8)
  | [], storage => some storage
  | c :: cs, storage => if storage.length < 10000000 then put cs (storage ++ c) else none

theorem put_append (cs ds : List (List UInt8)) (storage : List UInt8) :
    put (cs ++ ds) storage = (put cs storage).bind (put ds) := by
  induction cs generalizing storage with
  | nil => rfl
  | cons c cs ih =>
    rw [cons_append, put, put]
    split_ifs
    · exact ih _
    · rfl

theorem append_writing (pend : List Bool) (storage : List UInt8) {src : List UInt8}
    (hsrc : src ≠ []) :
    (writing pend storage).append src = (put [src] storage).map (writing pend) := by
  rw [append_eq rfl hsrc, put, put, show (writing pend storage).storage = storage from rfl]
  split_ifs <;> rfl

theorem flushBits_writing (hpend : pend.length ≤ 7) (storage : List UInt8) :
    (writing pend storage).flushBits = (put (flushed pend) storage).map (writing []) := by
  unfold flushBits flushed
  by_cases hnil : pend = []
  · subst hnil
    rfl
  · have hpos : 0 < pend.length := length_pos_iff.2 hnil
    rw [if_neg (by simp only [writing]; omega), if_neg hnil]
    have hcur : (writing pend storage).curbitval = byte pend := rfl
    rw [hcur, append_writing _ _ (cons_ne_nil _ _), Option.map_map]
    rfl

theorem writeBit_writing (hpend : pend.length ≤ 7) (storage : List UInt8) (bit : Bool) :
    (writing pend storage).writeBit bit.toNat =
      if pend.length = 7 then (put [[byte (pend ++ [bit])]] storage).map (writing [])
      else some (writing (pend ++ [bit]) storage) := by
  have hcur : (if bit.toNat ≠ 0 then byte pend ||| (1 <<< UInt8.ofNat (7 - pend.length))
      else byte pend) = byte (pend ++ [bit]) := by
    rw [byte_append]
    cases bit <;> rfl
  have hbitpos : (writing pend storage).bitpos - 1 = 7 - pend.length := by
    simp only [writing]
    omega
  have hval : (writing pend storage).curbitval = byte pend := rfl
  unfold writeBit
  rw [hbitpos, hval]
  simp only [hcur]
  by_cases hlen : pend.length = 7
  · have hlast : 7 - pend.length = 0 := by omega
    rw [if_pos hlast, if_pos hlen, append_eq rfl (cons_ne_nil _ _), put, put,
      show (writing pend storage).storage = storage from rfl]
    split_ifs <;> rfl
  · have hlast : ¬7 - pend.length = 0 := by omega
    have hplace : 8 - (pend ++ [bit]).length = 7 - pend.length := by
      rw [length_append, length_singleton]
      omega
    rw [if_neg hlast, if_neg hlen, writing, writing, hplace]

/-- The bit of a value that `WriteBits` writes. -/
theorem one_and_shiftRight (value i : ℕ) : 1 &&& (value >>> i) = (value.testBit i).toNat := by
  rw [Nat.one_and_eq_mod_two, Nat.testBit_eq_decide_div_mod_eq, Nat.shiftRight_eq_div_pow]
  rcases Nat.mod_two_eq_zero_or_one (value / 2 ^ i) with h | h <;> simp [h]

theorem appendValue_writing (hpend : pend.length ≤ 7) (storage : List UInt8) {width : ℕ}
    (hwidth : 0 < width) (value : ℕ) :
    (writing pend storage).appendValue width value =
      (put (flushed pend ++ [toBytes width value]) storage).map (writing []) := by
  have hne : toBytes width value ≠ [] := by
    intro h
    have hlen := length_toBytes width value
    rw [h, length_nil] at hlen
    omega
  rw [appendValue, flushBits_writing hpend, put_append, bind_map, map_bind]
  exact bind_congr fun st _ => append_writing [] st hne

theorem writeString_writing (hpend : pend.length ≤ 7) (storage s : List UInt8) :
    (writing pend storage).writeString s =
      (put (part s ++ flushed pend ++ [[0]]) storage).map (writing []) := by
  have hzero : ∀ st, (writing pend st).appendValue 1 0 =
      (put (flushed pend ++ [[0]]) st).map (writing []) := fun st =>
    appendValue_writing hpend st Nat.one_pos 0
  unfold writeString part
  split_ifs with h
  · exact hzero storage
  · rw [append_writing _ _ h, append_assoc, put_append, bind_map, map_bind]
    exact bind_congr fun st _ => hzero st

end ByteBuffer

open ByteBuffer

section Continued

/-! What follows a write puts out the parts of the pieces that follow. -/

variable {k : ByteBuffer → Option ByteBuffer} {ps : List Piece}
  (hk : ∀ {pend : List Bool}, pend.length ≤ 7 → ∀ storage,
    k (writing pend storage) = (put (chunks pend ps) storage).map (writing []))
include hk

theorem put_bind (cs : List (List UInt8)) (storage : List UInt8) :
    ((put cs storage).map (writing [])).bind k =
      (put (cs ++ chunks [] ps) storage).map (writing []) := by
  rw [put_append, bind_map, map_bind]
  exact bind_congr fun st _ => hk (Nat.zero_le _) st

theorem writeBit_bind (hpend : pend.length ≤ 7) (storage : List UInt8) (bit : Bool) :
    ((writing pend storage).writeBit bit.toNat).bind k =
      (put (chunks pend (.bit bit :: ps)) storage).map (writing []) := by
  rw [writeBit_writing hpend, chunks]
  split_ifs with hlen
  · exact put_bind hk [[byte (pend ++ [bit])]] storage
  · rw [bind_some]
    refine hk ?_ storage
    rw [length_append, length_singleton]
    omega

theorem writeBits_bind (hpend : pend.length ≤ 7) (storage : List UInt8) (value n : ℕ) :
    (writeBits value n (writing pend storage)).bind k =
      (put (chunks pend ((bitsOf n value).map .bit ++ ps)) storage).map (writing []) := by
  induction n generalizing pend storage with
  | zero => exact hk hpend storage
  | succ n ih =>
    rw [writeBits, bind_assoc, one_and_shiftRight, bitsOf, map_cons, cons_append]
    have hk' : ∀ {pend : List Bool}, pend.length ≤ 7 → ∀ storage,
        (fun buf => (writeBits value n buf).bind k) (writing pend storage) =
          (put (chunks pend ((bitsOf n value).map .bit ++ ps)) storage).map (writing []) :=
      fun hpend st => ih hpend st
    exact writeBit_bind hk' hpend storage _

end Continued

/-- The writes from pending bits on, and a final flush, put out the parts of the pieces. -/
theorem writeAll_writing (hops : ∀ op ∈ ops, op.Allowed) (hpend : pend.length ≤ 7)
    (storage : List UInt8) :
    (writeAll ops (writing pend storage)).bind flushBits =
      (put (chunks pend (ops.flatMap WriteOp.pieces)) storage).map (writing []) := by
  induction ops generalizing pend storage with
  | nil => exact flushBits_writing hpend storage
  | cons op ops ih =>
    have hop := hops op mem_cons_self
    have hk : ∀ {pend : List Bool}, pend.length ≤ 7 → ∀ storage,
        (writeAll ops (writing pend storage)).bind flushBits =
          (put (chunks pend (ops.flatMap WriteOp.pieces)) storage).map (writing []) :=
      ih fun op h => hops op (mem_cons_of_mem _ h)
    rw [writeAll, flatMap_cons, bind_assoc]
    cases op with
    | writeBit bit => exact writeBit_bind hk hpend storage bit
    | writeBits value n => exact writeBits_bind hk hpend storage value n
    | append width value =>
      obtain ⟨hwidth, -⟩ := hop
      have hpos : 0 < width := by
        simp only [mem_cons, not_mem_nil, or_false] at hwidth
        omega
      have hne : toBytes width value ≠ [] := by
        intro h
        have hlen := length_toBytes width value
        rw [h, length_nil] at hlen
        omega
      rw [WriteOp.write, WriteOp.pieces, singleton_append, appendValue_writing hpend _ hpos,
        put_bind hk, chunks, part, if_neg hne]
    | string s =>
      rw [WriteOp.write, WriteOp.pieces, singleton_append, writeString_writing hpend,
        put_bind hk, chunks]
    | flushBits =>
      rw [WriteOp.write, WriteOp.pieces, singleton_append, flushBits_writing hpend,
        put_bind hk, chunks, part, if_pos rfl, append_nil]

/-- The assertion holds at each append of the parts. -/
def Within : ℕ → List (List UInt8) → Prop
  | _, [] => True
  | size, c :: cs => size < 10000000 ∧ Within (size + c.length) cs

theorem put_eq_some_iff {cs : List (List UInt8)} {storage st : List UInt8} :
    put cs storage = some st ↔ Within storage.length cs ∧ st = storage ++ cs.flatten := by
  induction cs generalizing storage with
  | nil =>
    rw [put, Within, true_and, flatten_nil, append_nil, some.injEq]
    exact eq_comm
  | cons c cs ih =>
    rw [put, Within, flatten_cons, ← append_assoc, and_assoc]
    split_ifs with h
    · rw [and_iff_right h, ih, length_append]
    · simp [h]

/-! ## The reader -/

namespace ByteBuffer

/-- The reader of a buffer. -/
def view (buf : ByteBuffer) : Reader where
  left := (bits buf.curbitval).drop (buf.bitpos + 1)
  input := buf.storage.drop buf.rpos

/-- The reader has not gone beyond the bytes. -/
def Ok (buf : ByteBuffer) : Prop :=
  buf.rpos ≤ buf.storage.length

theorem read_eq (width : ℕ) (hok : buf.Ok) :
    buf.read width = if buf.view.input.length < width then none
      else some (ofBytes (buf.view.input.take width), { buf with rpos := buf.rpos + width }) := by
  have hlen : buf.storage.length < buf.rpos + width ↔ buf.view.input.length < width := by
    simp only [view, length_drop]
    unfold Ok at hok
    omega
  simp only [read, hlen]
  rfl

theorem view_read (width : ℕ) (buf : ByteBuffer) :
    view { buf with rpos := buf.rpos + width } = ⟨buf.view.left, buf.view.input.drop width⟩ := by
  rw [view, view, drop_drop]

section

variable (hok : buf.Ok)
include hok

theorem ok_read {width : ℕ} (h : ¬buf.view.input.length < width) :
    Ok { buf with rpos := buf.rpos + width } := by
  simp only [view, length_drop] at h
  unfold Ok at hok ⊢
  simp only
  omega

/-- A bit of the byte that was taken. -/
theorem readBit_left (h : buf.bitpos ≤ 6) :
    ∃ bit buf', buf.view.takeBit = some (bit, buf'.view) ∧ buf.readBit = some (bit, buf') ∧
      buf'.Ok := by
  obtain ⟨rpos, wpos, bitpos, cur, storage⟩ := buf
  match bitpos, h with
  | 0, _ => exact ⟨_, ⟨rpos, wpos, 1, cur, storage⟩, rfl, rfl, hok⟩
  | 1, _ => exact ⟨_, ⟨rpos, wpos, 2, cur, storage⟩, rfl, rfl, hok⟩
  | 2, _ => exact ⟨_, ⟨rpos, wpos, 3, cur, storage⟩, rfl, rfl, hok⟩
  | 3, _ => exact ⟨_, ⟨rpos, wpos, 4, cur, storage⟩, rfl, rfl, hok⟩
  | 4, _ => exact ⟨_, ⟨rpos, wpos, 5, cur, storage⟩, rfl, rfl, hok⟩
  | 5, _ => exact ⟨_, ⟨rpos, wpos, 6, cur, storage⟩, rfl, rfl, hok⟩
  | 6, _ => exact ⟨_, ⟨rpos, wpos, 7, cur, storage⟩, rfl, rfl, hok⟩

/-- The first bit of the next byte. -/
theorem readBit_next (h : 7 ≤ buf.bitpos) :
    (buf.view.takeBit = none ∧ buf.readBit = none) ∨
      ∃ bit buf', buf.view.takeBit = some (bit, buf'.view) ∧ buf.readBit = some (bit, buf') ∧
        buf'.Ok := by
  have hleft : buf.view.left = [] := drop_eq_nil_of_le (by rw [length_bits]; omega)
  have hok0 : Ok { buf with bitpos := 0 } := hok
  have hread := read_eq 1 hok0
  have hbit : buf.readBit = ((read 1 { buf with bitpos := 0 }).map fun (value, buf) =>
      { buf with curbitval := UInt8.ofNat value }).map fun buf =>
        (buf.curbitval.toNat.testBit (7 - buf.bitpos), buf) := by
    unfold readBit
    simp only
    rw [if_pos (Nat.lt_succ_of_le h)]
    rfl
  have hview : buf.view = ⟨[], buf.view.input⟩ := by rw [← hleft]
  have hinput : (view { buf with bitpos := 0 }).input = buf.view.input := rfl
  rw [hinput] at hread
  obtain hnil | ⟨c, input, hcons⟩ :
      buf.view.input = [] ∨ ∃ c input, buf.view.input = c :: input := by
    cases buf.view.input with
    | nil => exact Or.inl rfl
    | cons c input => exact Or.inr ⟨c, input, rfl⟩
  · left
    rw [hview, hnil, hbit, hread, hnil]
    exact ⟨rfl, rfl⟩
  · right
    have hlt : ¬buf.view.input.length < 1 := by
      rw [hcons, length_cons]
      omega
    have hbyte : UInt8.ofNat (ofBytes [c]) = c := UInt8.ofNat_toNat
    have hrest : buf.storage.drop (buf.rpos + 1) = input := by
      have h := congrArg List.tail hcons
      rw [← drop_one, view, drop_drop] at h
      exact h
    have hok' : Ok { buf with rpos := buf.rpos + 1 } := ok_read hok hlt
    refine ⟨c.toNat.testBit 7, { buf with bitpos := 0, rpos := buf.rpos + 1, curbitval := c },
      ?_, ?_, hok'⟩
    · rw [hview, hcons, Reader.takeBit, view]
      simp only [hrest]
      rfl
    · rw [hbit, hread, if_neg hlt, hcons]
      simp only [map_some, take_succ_cons, take_zero, hbyte]

/-- A bit is taken as `BitStream.takeBit` takes it. -/
theorem readBit_eq :
    (buf.view.takeBit = none ∧ buf.readBit = none) ∨
      ∃ bit buf', buf.view.takeBit = some (bit, buf'.view) ∧ buf.readBit = some (bit, buf') ∧
        buf'.Ok := by
  rcases Nat.lt_or_ge 6 buf.bitpos with h | h
  · exact readBit_next hok h
  · exact Or.inr (readBit_left hok h)

/-- Bits that are found are the number that `ReadBits` returns. -/
theorem readBits_of_match {x : List Bool} (h : matchBits buf.view x = some r') (value : ℕ) :
    ∃ buf', buf.readBits x.length value = some (value ||| ofBits x, buf') ∧ buf'.Ok ∧
      buf'.view = r' := by
  induction x generalizing buf value with
  | nil =>
    cases h
    exact ⟨buf, by rw [length_nil, readBits, ofBits, Nat.or_zero], hok, rfl⟩
  | cons b x ih =>
    rw [matchBits] at h
    rcases readBit_eq hok with ⟨htake, -⟩ | ⟨bit, buf1, htake, hread, hok1⟩
    · rw [htake] at h
      cases h
    · rw [htake] at h
      simp only at h
      split_ifs at h with hbit
      subst hbit
      obtain ⟨buf', hbits, hok', hview⟩ :=
        ih hok1 h (if bit then value ||| (1 <<< x.length) else value)
      refine ⟨buf', ?_, hok', hview⟩
      rw [length_cons, readBits, hread, bind_some]
      simp only
      rw [hbits, ofBits]
      cases bit with
      | false => rw [if_neg Bool.false_ne_true, if_neg Bool.false_ne_true, Nat.zero_or]
      | true => rw [if_pos rfl, if_pos rfl, Nat.or_assoc]

/-- The number that `ReadBits` returns is made of bits that are found. -/
theorem match_of_readBits {buf' : ByteBuffer} {n value w : ℕ}
    (h : buf.readBits n value = some (w, buf')) :
    ∃ x : List Bool, x.length = n ∧ w = value ||| ofBits x ∧
      matchBits buf.view x = some buf'.view ∧ buf'.Ok := by
  induction n generalizing buf value with
  | zero =>
    cases h
    exact ⟨[], rfl, by rw [ofBits, Nat.or_zero], rfl, hok⟩
  | succ n ih =>
    rw [readBits] at h
    rcases readBit_eq hok with ⟨-, hread⟩ | ⟨bit, buf1, htake, hread, hok1⟩
    · rw [hread] at h
      cases h
    · rw [hread, bind_some] at h
      obtain ⟨x, hlen, hw, hmatch, hok'⟩ := ih hok1 h
      refine ⟨bit :: x, by rw [length_cons, hlen], ?_, ?_, hok'⟩
      · rw [hw, ofBits, hlen]
        cases bit with
        | false => rw [if_neg Bool.false_ne_true, if_neg Bool.false_ne_true, Nat.zero_or]
        | true => rw [if_pos rfl, if_pos rfl, Nat.or_assoc]
      · rw [matchBits, htake]
        simp only [if_true]
        exact hmatch

/-- The bytes of a number are found if and only if `read` returns the number. -/
theorem matchBytes_iff {width value : ℕ} (hvalue : value < 256 ^ width) :
    matchBytes buf.view (toBytes width value) = some r' ↔
      ∃ buf', buf.read width = some (value, buf') ∧ buf'.Ok ∧ buf'.view = r' := by
  have hnumber : ∀ l : List UInt8, l.length = width → (l = toBytes width value ↔
      ofBytes l = value) := by
    rintro l rfl
    constructor
    · intro h
      rw [h]
      exact ofBytes_toBytes _ hvalue
    · rintro rfl
      exact (toBytes_ofBytes l).symm
  rw [matchBytes, length_toBytes, read_eq width hok]
  by_cases hshort : buf.view.input.length < width
  · rw [if_pos hshort, if_neg]
    · constructor
      · intro h
        cases h
      · rintro ⟨buf', h, -⟩
        cases h
    · intro h
      have hlen := congrArg List.length h
      rw [length_take, length_toBytes] at hlen
      omega
  · have hlen : (buf.view.input.take width).length = width := by
      rw [length_take]
      omega
    rw [if_neg hshort]
    by_cases hval : ofBytes (buf.view.input.take width) = value
    · rw [if_pos ((hnumber _ hlen).2 hval)]
      constructor
      · intro h
        cases h
        exact ⟨_, by rw [hval], ok_read hok hshort, view_read width buf⟩
      · rintro ⟨buf', h, -, rfl⟩
        cases h
        rw [view_read]
    · rw [if_neg (mt (hnumber _ hlen).1 hval)]
      constructor
      · intro h
        cases h
      · rintro ⟨buf', h, -⟩
        cases h
        exact absurd rfl hval

/-- The characters up to a zero, or all that are left. -/
theorem readChars_eq {turns : ℕ} (hturns : turns = buf.view.input.length) (value : List UInt8) :
    ∃ buf', readChars turns value buf =
        some (value ++ buf.view.input.takeWhile (· ≠ 0), buf') ∧ buf'.Ok ∧
      buf'.view = ⟨buf.view.left,
        buf.view.input.drop ((buf.view.input.takeWhile (· ≠ 0)).length + 1)⟩ := by
  induction turns generalizing buf value with
  | zero =>
    have hnil : buf.view.input = [] := eq_nil_of_length_eq_zero hturns.symm
    refine ⟨buf, ?_, hok, ?_⟩
    · rw [readChars, hnil, takeWhile_nil, append_nil]
    · rw [hnil, drop_nil, ← hnil]
  | succ turns ih =>
    have hlt : buf.rpos < buf.storage.length := by
      simp only [view, length_drop] at hturns
      omega
    have hshort : ¬buf.view.input.length < 1 := by omega
    have hok' := ok_read hok hshort
    have hview := view_read 1 buf
    obtain ⟨c, input, hcons⟩ : ∃ c input, buf.view.input = c :: input := by
      cases hin : buf.view.input with
      | nil =>
        rw [hin] at hturns
        cases hturns
      | cons c input => exact ⟨c, input, rfl⟩
    have hbyte : ofBytes [c] = c.toNat := Nat.add_zero _
    rw [readChars, if_pos hlt, read_eq 1 hok, if_neg hshort, bind_some]
    rw [hcons] at hturns hview ⊢
    simp only [take_succ_cons, take_zero, hbyte]
    by_cases hc : c = 0
    · subst hc
      have hzero : (0 : UInt8).toNat = 0 := rfl
      refine ⟨_, ?_, hok', hview⟩
      simp
    · have hne : c.toNat ≠ 0 := fun h => hc (UInt8.toNat_inj.1 h)
      have hinput : (view { buf with rpos := buf.rpos + 1 }).input = input := by rw [hview]; rfl
      obtain ⟨buf', hchars, hok'', hview'⟩ := ih hok' (by
        rw [hinput]
        exact Nat.succ.inj hturns) (value ++ [c])
      rw [if_neg hne, UInt8.ofNat_toNat, hchars]
      refine ⟨buf', ?_, hok'', ?_⟩
      · rw [hinput, takeWhile_cons_of_pos (by simpa using hc), append_assoc]
        rfl
      · rw [hview', hinput, hview, takeWhile_cons_of_pos (by simpa using hc)]
        rfl

/-- The string is found if and only if `operator>>` returns it. -/
theorem matchStr_iff {s : List UInt8} :
    matchStr buf.view s = some r' ↔
      ∃ buf', buf.readString = some (s, buf') ∧ buf'.Ok ∧ buf'.view = r' := by
  have hturns : buf.storage.length - buf.rpos = buf.view.input.length := length_drop.symm
  obtain ⟨buf', hchars, hok', hview⟩ := readChars_eq hok hturns []
  rw [nil_append] at hchars
  rw [readString, hchars, matchStr]
  constructor
  · intro h
    split_ifs at h with hs
    cases h
    exact ⟨buf', by rw [hs], hok', by rw [hview, hs]⟩
  · rintro ⟨buf'', h, -, rfl⟩
    cases h
    rw [if_pos rfl, hview]

end

end ByteBuffer

open ByteBuffer

/-- A read returns what was written if and only if the reader finds the pieces. -/
theorem readBack_iff {op : WriteOp} (hop : op.Allowed) (hok : buf.Ok) :
    matchAll buf.view op.pieces = some r' ↔
      ∃ buf', op.readBack buf = some (op.value, buf') ∧ buf'.Ok ∧ buf'.view = r' := by
  have hone : ∀ p, matchAll buf.view [p] = matchPiece buf.view p := fun p => by
    exact bind_fun_some _
  -- a read whose value is the one written
  have hmap : ∀ {α : Type} {f : α → ReadValue} {v : α} (o : Option (α × ByteBuffer)),
      Function.Injective f →
      ((∃ buf', o = some (v, buf') ∧ buf'.Ok ∧ buf'.view = r') ↔
        ∃ buf', o.map (fun p => (f p.1, p.2)) = some (f v, buf') ∧ buf'.Ok ∧ buf'.view = r') := by
    intro α f v o hf
    refine exists_congr fun buf' => and_congr_left fun _ => ?_
    cases o with
    | none => simp
    | some p => simp [Prod.ext_iff, hf.eq_iff]
  cases op with
  | writeBit bit =>
    rw [WriteOp.pieces, hone, matchPiece, WriteOp.readBack, WriteOp.value]
    refine Iff.trans ?_ (hmap buf.readBit fun _ _ h => ReadValue.bit.inj h)
    rw [matchBits]
    rcases readBit_eq hok with ⟨htake, hread⟩ | ⟨bit', buf1, htake, hread, hok1⟩
    · rw [htake, hread]
      simp
    · rw [htake, hread]
      simp only [matchBits, some.injEq, Prod.mk.injEq]
      constructor
      · intro h
        split_ifs at h with hbit
        cases h
        exact ⟨buf1, ⟨hbit, rfl⟩, hok1, rfl⟩
      · rintro ⟨buf', ⟨hbit, rfl⟩, -, rfl⟩
        rw [if_pos hbit]
  | writeBits value n =>
    obtain ⟨-, -, hlt⟩ := hop
    rw [WriteOp.pieces, matchAll_bits, WriteOp.readBack, WriteOp.value]
    refine Iff.trans ?_ (hmap (buf.readBits n 0) fun _ _ h => ReadValue.number.inj h)
    constructor
    · intro h
      obtain ⟨buf', hbits, hok', hview⟩ := readBits_of_match hok h 0
      rw [length_bitsOf, ofBits_bitsOf hlt, Nat.zero_or] at hbits
      exact ⟨buf', hbits, hok', hview⟩
    · rintro ⟨buf', hbits, -, rfl⟩
      obtain ⟨x, rfl, hvalue, hmatch, -⟩ := match_of_readBits hok hbits
      rw [Nat.zero_or] at hvalue
      rw [hvalue, bitsOf_ofBits]
      exact hmatch
  | append width value =>
    rw [WriteOp.pieces, hone, matchPiece, matchBytes_iff hok hop.2]
    exact hmap (buf.read width) fun _ _ h => ReadValue.number.inj h
  | string s =>
    rw [WriteOp.pieces, hone, matchPiece, matchStr_iff hok]
    exact hmap buf.readString fun _ _ h => ReadValue.string.inj h
  | flushBits =>
    constructor
    · intro h
      cases h
      exact ⟨buf, rfl, hok, rfl⟩
    · rintro ⟨buf', h, -, rfl⟩
      cases h
      rfl

/-- No read goes beyond the bytes. -/
theorem readBack_ok {op : WriteOp} {buf' : ByteBuffer} (hok : buf.Ok) {v : ReadValue}
    (h : op.readBack buf = some (v, buf')) : buf'.Ok := by
  cases op with
  | writeBit bit =>
    obtain ⟨⟨b, buf1⟩, hread, heq⟩ := map_eq_some_iff.1 h
    cases heq
    rcases readBit_eq hok with ⟨-, hnone⟩ | ⟨_, _, -, hsome, hok1⟩
    · rw [hnone] at hread
      cases hread
    · rw [hsome] at hread
      cases hread
      exact hok1
  | writeBits value n =>
    obtain ⟨⟨w, buf1⟩, hread, heq⟩ := map_eq_some_iff.1 h
    cases heq
    obtain ⟨-, -, -, -, hok1⟩ := match_of_readBits hok hread
    exact hok1
  | append width value =>
    obtain ⟨⟨w, buf1⟩, hread, heq⟩ := map_eq_some_iff.1 h
    cases heq
    rw [read_eq width hok] at hread
    split_ifs at hread with hshort
    cases hread
    exact ok_read hok hshort
  | string s =>
    obtain ⟨⟨w, buf1⟩, hread, heq⟩ := map_eq_some_iff.1 h
    cases heq
    obtain ⟨buf2, hchars, hok2, -⟩ := readChars_eq hok length_drop.symm []
    rw [readString, hchars] at hread
    cases hread
    exact hok2
  | flushBits =>
    cases h
    exact hok

/-- The mirrored reads return what was written if and only if the reader finds all pieces. -/
theorem readAll_iff (hops : ∀ op ∈ ops, op.Allowed) (hok : buf.Ok) :
    matchAll buf.view (ops.flatMap WriteOp.pieces) = some r' ↔
      ∃ buf', readAll ops buf = some (ops.map WriteOp.value, buf') ∧ buf'.Ok ∧ buf'.view = r' := by
  induction ops generalizing buf with
  | nil =>
    constructor
    · intro h
      cases h
      exact ⟨buf, rfl, hok, rfl⟩
    · rintro ⟨buf', h, -, rfl⟩
      cases h
      rfl
  | cons op ops ih =>
    have hop := hops op mem_cons_self
    have hops' : ∀ op ∈ ops, op.Allowed := fun op h => hops op (mem_cons_of_mem _ h)
    rw [flatMap_cons, matchAll_append, bind_eq_some_iff, readAll, map_cons]
    constructor
    · rintro ⟨r1, hread, hrest⟩
      obtain ⟨buf1, hback, hok1, rfl⟩ := (readBack_iff hop hok).1 hread
      obtain ⟨buf', hall, hok', hview⟩ := (ih hops' hok1).1 hrest
      refine ⟨buf', ?_, hok', hview⟩
      rw [hback, bind_some]
      simp only [hall, map_some]
    · rintro ⟨buf', h, hok', hview⟩
      obtain ⟨⟨v, buf1⟩, hback, hrest⟩ := bind_eq_some_iff.1 h
      obtain ⟨⟨vs, buf2⟩, hall, heq⟩ := map_eq_some_iff.1 hrest
      simp only [Prod.mk.injEq, List.cons.injEq] at heq
      obtain ⟨⟨rfl, rfl⟩, rfl⟩ := heq
      have hok1 := readBack_ok hok hback
      exact ⟨buf1.view, (readBack_iff hop hok).2 ⟨buf1, hback, hok1, rfl⟩,
        (ih hops' hok1).2 ⟨buf2, hall, hok', hview⟩⟩

/-- Strings without zeros are pieces without zeros. -/
theorem str_pieces (hops : ∀ op ∈ ops, op.Allowed) {s : List UInt8}
    (hs : .str s ∈ ops.flatMap WriteOp.pieces) : (0 : UInt8) ∉ s := by
  obtain ⟨op, hop, hmem⟩ := mem_flatMap.1 hs
  have hallowed := hops op hop
  cases op with
  | writeBit bit | writeBits value n | append width value | flushBits =>
    simp [WriteOp.pieces] at hmem
  | string s' =>
    simp only [WriteOp.pieces, mem_singleton, Piece.str.injEq] at hmem
    rw [hmem]
    exact hallowed

/-- What is written is read back if and only if the pieces suit a reader with nothing left, and the
assertion holds at each append. -/
theorem roundTrip_iff {ops : List WriteOp} (hops : ∀ op ∈ ops, op.Allowed) :
    RoundTrip ops ↔ Recovers 0 [] (ops.flatMap WriteOp.pieces) ∧
      Within 0 (chunks [] (ops.flatMap WriteOp.pieces)) := by
  have hwrite : (writeAll ops {}).bind flushBits =
      (put (chunks [] (ops.flatMap WriteOp.pieces)) []).map (writing []) := by
    have hfresh : ({} : ByteBuffer) = writing [] [] := rfl
    rw [hfresh]
    exact writeAll_writing hops (Nat.zero_le _) []
  have hput : ∀ st, put (chunks [] (ops.flatMap WriteOp.pieces)) [] = some st ↔
      Within 0 (chunks [] (ops.flatMap WriteOp.pieces)) ∧
        st = out [] (ops.flatMap WriteOp.pieces) := fun st => put_eq_some_iff
  have hok : ∀ st, (writing [] st).Ok := fun st => Nat.zero_le _
  have hview : ∀ st, (writing [] st).view = ⟨List.replicate 0 false, st⟩ := fun _ => rfl
  -- the reads of the bytes that were put out
  have hreads : (∃ buf', readAll ops (writing [] (out [] (ops.flatMap WriteOp.pieces))) =
        some (ops.map WriteOp.value, buf') ∧ buf'.rpos = buf'.storage.length) ↔
      Recovers 0 [] (ops.flatMap WriteOp.pieces) := by
    rw [← matchAll_iff (Nat.zero_le _) (Nat.zero_le _) fun s => str_pieces hops, map_nil,
      nil_append, ← hview]
    simp only [readAll_iff hops (hok _)]
    constructor
    · rintro ⟨buf', hall, hend⟩
      have hinput : buf'.view.input = [] := drop_eq_nil_of_le (Nat.le_of_eq hend.symm)
      exact ⟨buf'.view.left, buf', hall, Nat.le_of_eq hend, by rw [← hinput]⟩
    · rintro ⟨l, buf', hall, hok', hview'⟩
      have hinput : buf'.storage.drop buf'.rpos = [] := congrArg Reader.input hview'
      exact ⟨buf', hall, Nat.le_antisymm hok' (drop_eq_nil_iff.1 hinput)⟩
  rw [RoundTrip, hwrite, ← hreads]
  constructor
  · rintro ⟨buf, buf', hbuf, hread⟩
    obtain ⟨st, hst, rfl⟩ := map_eq_some_iff.1 hbuf
    obtain ⟨hwithin, rfl⟩ := (hput st).1 hst
    exact ⟨⟨buf', hread⟩, hwithin⟩
  · rintro ⟨⟨buf', hread⟩, hwithin⟩
    exact ⟨_, buf', by rw [(hput _).2 ⟨hwithin, rfl⟩, map_some], hread⟩

/-- Bits, a number and a string. -/
def sampleOps : List WriteOp :=
  [.writeBits 5 3, .append 2 513, .string [72, 105]]

theorem roundTrip_iff_sampleOps :
    RoundTrip sampleOps ↔ Recovers 0 [] (sampleOps.flatMap WriteOp.pieces) ∧
      Within 0 (chunks [] (sampleOps.flatMap WriteOp.pieces)) :=
  roundTrip_iff (by decide)

/-- The character is put out before the bit, and the bit that is read is its first one. -/
theorem not_roundTrip_string : ¬RoundTrip [.writeBit true, .string [65]] := by
  rintro ⟨buf, buf', hwrite, hread, -⟩
  have hbytes : (writeAll [.writeBit true, .string [65]] {}).bind flushBits =
      some (writing [] [65, 128, 0]) := by decide
  rw [hbytes] at hwrite
  cases hwrite
  have hvalues : (readAll [.writeBit true, .string [65]] (writing [] [65, 128, 0])).map Prod.fst =
      some [.bit false, .string [128]] := by decide
  rw [hread] at hvalues
  cases hvalues

end MistyWorld
