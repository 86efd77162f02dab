import MistyWorld.ByteBuffer

/-!
# Byte buffers that are used again

`ByteBuffer::clear` empties the storage and takes both positions back. The bits that are pending and
their number stay. So a buffer that was cleared is as good as a new one exactly when the writes
before have left no bits pending (`clear_fresh_iff`).
-/

open List BitStream Bytes

namespace MistyWorld

/-- `ByteBuffer::clear` -/
def ByteBuffer.clear (buf : ByteBuffer) : ByteBuffer :=
  { buf with storage := [], rpos := 0, wpos := 0 }

/-- The number has one of the types that are appended. -/
def WriteOp.Typed : WriteOp → Prop
  | .append width _ => width ∈ [1, 2, 4, 8]
  | _ => True

instance : DecidablePred WriteOp.Typed
  | .append width _ => inferInstanceAs (Decidable (width ∈ [1, 2, 4, 8]))
  | .writeBit _ => inferInstanceAs (Decidable True)
  | .writeBits _ _ => inferInstanceAs (Decidable True)
  | .string _ => inferInstanceAs (Decidable True)
  | .flushBits => inferInstanceAs (Decidable True)

/-- The bits written since the last flush, after one more write. -/
def WriteOp.bitsSince (k : ℕ) : WriteOp → ℕ
  | .writeBit _ => k + 1
  | .writeBits _ n => k + n
  | _ => 0

/-- The storage and the write position that the writes leave. -/
def written (result : Option ByteBuffer) : Option (List UInt8 × ℕ) :=
  result.map fun buf => (buf.storage, buf.wpos)

/-! ## The bits that are pending -/

variable {k : ℕ}

namespace ByteBuffer

/-- A writer, at the end of its storage, with a number of pending bits. -/
def Pending (k : ℕ) (buf : ByteBuffer) : Prop :=
  ∃ pend storage, buf = writing pend storage ∧ pend.length ≤ 7 ∧ pend.length = k % 8

theorem pending_of_map_put {cs : List (List UInt8)} {storage : List UInt8} {buf : ByteBuffer}
    (h : (put cs storage).map (writing []) = some buf) : Pending 0 buf := by
  obtain ⟨st, -, rfl⟩ := Option.map_eq_some_iff.1 h
  exact ⟨[], st, rfl, Nat.zero_le _, rfl⟩

theorem Pending.writeBit {buf buf' : ByteBuffer} (h : Pending k buf) {bit : Bool}
    (hwrite : buf.writeBit bit.toNat = some buf') : Pending (k + 1) buf' := by
  obtain ⟨pend, storage, rfl, hpend, hk⟩ := h
  rw [writeBit_writing hpend] at hwrite
  split_ifs at hwrite with hlast
  · obtain ⟨pend', st, rfl, hpend', hlen⟩ := pending_of_map_put hwrite
    exact ⟨pend', st, rfl, hpend', by omega⟩
  · cases hwrite
    refine ⟨pend ++ [bit], storage, rfl, ?_, ?_⟩
    · rw [length_append, length_singleton]
      omega
    · rw [length_append, length_singleton]
      omega

theorem Pending.writeBits {n value : ℕ} {buf buf' : ByteBuffer} (h : Pending k buf)
    (hwrite : buf.writeBits value n = some buf') : Pending (k + n) buf' := by
  induction n generalizing k buf with
  | zero =>
    cases hwrite
    exact h
  | succ n ih =>
    rw [ByteBuffer.writeBits, one_and_shiftRight] at hwrite
    obtain ⟨buf1, hfirst, hrest⟩ := Option.bind_eq_some_iff.1 hwrite
    have hend := ih (h.writeBit hfirst) hrest
    rwa [Nat.add_right_comm, Nat.add_assoc] at hend

end ByteBuffer

open ByteBuffer

/-- A write leaves the bits since the last flush pending, but for whole bytes. -/
theorem WriteOp.pending_write {op : WriteOp} (hop : op.Typed) {buf buf' : ByteBuffer}
    (h : Pending k buf) (hwrite : op.write buf = some buf') : Pending (op.bitsSince k) buf' := by
  cases op with
  | writeBit bit => exact h.writeBit hwrite
  | writeBits value n => exact h.writeBits hwrite
  | append width value =>
    obtain ⟨pend, storage, rfl, hpend, -⟩ := h
    have hpos : 0 < width := by
      simp only [WriteOp.Typed, mem_cons, not_mem_nil, or_false] at hop
      omega
    exact pending_of_map_put ((appendValue_writing hpend storage hpos value).symm.trans hwrite)
  | string s =>
    obtain ⟨pend, storage, rfl, hpend, -⟩ := h
    exact pending_of_map_put ((writeString_writing hpend storage s).symm.trans hwrite)
  | flushBits =>
    obtain ⟨pend, storage, rfl, hpend, -⟩ := h
    exact pending_of_map_put ((flushBits_writing hpend storage).symm.trans hwrite)

/-- A list of writes leaves the bits since the last whole byte pending. -/
theorem pending_writeAll {ops : List WriteOp} (hops : ∀ op ∈ ops, op.Typed) {buf buf' : ByteBuffer}
    (h : Pending k buf) (hwrite : writeAll ops buf = some buf') :
    Pending (ops.foldl WriteOp.bitsSince k) buf' := by
  induction ops generalizing k buf with
  | nil =>
    cases hwrite
    exact h
  | cons op ops ih =>
    obtain ⟨buf1, hfirst, hrest⟩ := Option.bind_eq_some_iff.1 hwrite
    exact ih (fun op hop => hops op (mem_cons_of_mem _ hop))
      (op.pending_write (hops op mem_cons_self) h hfirst) hrest

/-- A fresh buffer has no bits pending. -/
theorem pending_fresh : Pending 0 {} :=
  ⟨[], [], rfl, Nat.zero_le _, rfl⟩

/-! ## Clearing -/

/-- After any writes that go through and a `clear`, all further writes do what they do on a fresh
buffer if and only if the bits written since the last flush have filled whole bytes. -/
theorem clear_fresh_iff {ops : List WriteOp} (hops : ∀ op ∈ ops, op.Typed) {buf : ByteBuffer}
    (hwrite : writeAll ops {} = some buf) :
    (∀ ops', (∀ op ∈ ops', op.Typed) →
        written (writeAll ops' buf.clear) = written (writeAll ops' {})) ↔
      8 ∣ ops.foldl WriteOp.bitsSince 0 := by
  obtain ⟨pend, storage, rfl, hpend, hlen⟩ := pending_writeAll hops pending_fresh hwrite
  have hclear : (writing pend storage).clear = writing pend [] := rfl
  rw [hclear]
  constructor
  · intro hsame
    have hflush := hsame [.flushBits] (by decide)
    have hrun : writeAll [.flushBits] (writing pend []) =
        (put (flushed pend) []).map (writing []) :=
      (Option.bind_fun_some _).trans (flushBits_writing hpend [])
    have hfresh : written (writeAll [.flushBits] {}) = some ([], 0) := rfl
    rw [hrun, hfresh] at hflush
    by_cases hnil : pend = []
    · rw [hnil, length_nil] at hlen
      omega
    · rw [flushed, if_neg hnil] at hflush
      cases hflush
  · intro hdvd ops' _
    have hnil : pend = [] := eq_nil_of_length_eq_zero (by omega)
    rw [hnil]
    rfl

/-- Two bytes of bits. -/
theorem clear_fresh_iff_bytes :
    (∀ ops', (∀ op ∈ ops', op.Typed) →
        written (writeAll ops' (writing [] [171, 205]).clear) = written (writeAll ops' {})) ↔
      8 ∣ [WriteOp.writeBits 43981 16].foldl WriteOp.bitsSince 0 :=
  clear_fresh_iff (by decide) (by decide)

/-- One bit that is pending at the `clear` is put out by the next flush. -/
theorem not_fresh_bit :
    ∃ buf, writeAll [.writeBit true] {} = some buf ∧
      written (writeAll [.append 1 7] buf.clear) = some ([128, 7], 2) ∧
      written (writeAll [.append 1 7] {}) = some ([7], 1) :=
  ⟨writing [true] [], by decide, by decide, by decide⟩

end MistyWorld
