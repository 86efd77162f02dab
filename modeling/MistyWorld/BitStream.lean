import Mathlib.Algebra.Ring.Nat
import Mathlib.Data.List.Basic
import Mathlib.Data.List.Induction
import Mathlib.Data.Nat.Bits

/-!
# Bits and bytes in one stream

A writer packs bits into bytes, the highest first, and puts whole bytes and strings between them.
The bits that do not fill a byte are pending until something flushes them. A reader takes a byte
when it needs a bit and keeps what is left of it. `chunks` is what the writer puts out from pending
bits on, `matchAll` is a reader that expects given pieces.

The reader is never told of a flush, so after one it still has the bits that filled the byte up. A
string is put out before the pending bits. `Recovers` is the exact condition under which the reader
finds the pieces that were written, and nothing is left (`matchAll_iff`).
-/

open Option List

namespace BitStream

/-! ## Bytes and their bits -/

/-- The bits of a byte, the highest first. -/
def bits (b : UInt8) : List Bool :=
  [b.toNat.testBit 7, b.toNat.testBit 6, b.toNat.testBit 5, b.toNat.testBit 4,
    b.toNat.testBit 3, b.toNat.testBit 2, b.toNat.testBit 1, b.toNat.testBit 0]

/-- The byte that begins with the given bits. -/
def byte (l : List Bool) : UInt8 :=
  l.zipIdx.foldl (fun b x => if x.1 then b ||| (1 <<< UInt8.ofNat (7 - x.2)) else b) 0

@[simp] theorem length_bits (b : UInt8) : (bits b).length = 8 :=
  rfl

theorem bits_byte {l : List Bool} (h : l.length ≤ 8) :
    bits (byte l) = l ++ List.replicate (8 - l.length) false := by
  match l, h with
  | [], _ => decide
  | [a], _ => revert a; decide +kernel
  | [a, b], _ => revert a b; decide +kernel
  | [a, b, c], _ => revert a b c; decide +kernel
  | [a, b, c, d], _ => revert a b c d; decide +kernel
  | [a, b, c, d, e], _ => revert a b c d e; decide +kernel
  | [a, b, c, d, e, f], _ => revert a b c d e f; decide +kernel
  | [a, b, c, d, e, f, g], _ => revert a b c d e f g; decide +kernel
  | [a, b, c, d, e, f, g, i], _ => revert a b c d e f g i; decide +kernel

theorem byte_bits (b : UInt8) : byte (bits b) = b := by
  have hall : ∀ n < 256, byte (bits (UInt8.ofNat n)) = UInt8.ofNat n := by decide +kernel
  have h := hall b.toNat b.toNat_lt
  rwa [UInt8.ofNat_toNat] at h

/-- The next bit goes to the place below those that are there. -/
theorem byte_append (l : List Bool) (b : Bool) :
    byte (l ++ [b]) =
      if b then byte l ||| (1 <<< UInt8.ofNat (7 - l.length)) else byte l := by
  rw [byte, zipIdx_append, foldl_append, zero_add]
  rfl

theorem byte_eq_zero {l : List Bool} (h : ∀ b ∈ l, b = false) : byte l = 0 := by
  induction l using List.reverseRecOn with
  | nil => rfl
  | append_singleton l b ih =>
    have hb : b = false := h b (mem_append_right _ (mem_singleton.2 rfl))
    rw [byte_append, hb]
    exact ih fun c hc => h c (mem_append_left _ hc)

/-! ## Numbers and their bits -/

/-- The lowest `n` bits of a number, the highest first. -/
def bitsOf : ℕ → ℕ → List Bool
  | 0, _ => []
  | n + 1, v => v.testBit n :: bitsOf n v

/-- The number with the given bits, the highest first. -/
def ofBits : List Bool → ℕ
  | [] => 0
  | b :: x => (if b then 1 <<< x.length else 0) ||| ofBits x

@[simp] theorem length_bitsOf (n v : ℕ) : (bitsOf n v).length = n := by
  induction n with
  | zero => rfl
  | succ n ih => rw [bitsOf, length_cons, ih]

theorem ofBits_lt (x : List Bool) : ofBits x < 2 ^ x.length := by
  induction x with
  | nil => exact Nat.one_pos
  | cons b x ih =>
    rw [ofBits, length_cons]
    refine Nat.or_lt_two_pow ?_
      (lt_of_lt_of_le ih (Nat.pow_le_pow_right (by decide) (by omega)))
    have hpos : 0 < 2 ^ x.length := Nat.two_pow_pos _
    split_ifs
    · rw [Nat.one_shiftLeft, Nat.pow_succ]
      omega
    · exact Nat.two_pow_pos _

theorem testBit_ofBits_cons (b : Bool) (x : List Bool) (j : ℕ) :
    (ofBits (b :: x)).testBit j = if j = x.length then b else (ofBits x).testBit j := by
  have hhigh : (ofBits x).testBit x.length = false := Nat.testBit_lt_two_pow (ofBits_lt x)
  rw [ofBits, Nat.testBit_or]
  split_ifs with hb hj hj
  · rw [hj, Nat.one_shiftLeft, Nat.testBit_two_pow_self, hb]
    rfl
  · rw [Nat.one_shiftLeft, Nat.testBit_two_pow_of_ne (Ne.symm hj), Bool.false_or]
  · rw [hj, hhigh, Nat.zero_testBit]
    exact (Bool.not_eq_true _ ▸ hb).symm
  · rw [Nat.zero_testBit, Bool.false_or]

theorem testBit_ofBits_bitsOf (n v j : ℕ) :
    (ofBits (bitsOf n v)).testBit j = (decide (j < n) && v.testBit j) := by
  induction n with
  | zero =>
    rw [bitsOf, ofBits, Nat.zero_testBit, decide_eq_false (Nat.not_lt_zero j), Bool.false_and]
  | succ n ih =>
    rw [bitsOf, testBit_ofBits_cons, length_bitsOf, ih]
    split_ifs with hj
    · rw [hj, decide_eq_true (Nat.lt_succ_self n), Bool.true_and]
    · have hlt : j < n + 1 ↔ j < n := by omega
      rw [decide_eq_decide.2 hlt]

theorem ofBits_bitsOf {n v : ℕ} (h : v < 2 ^ n) : ofBits (bitsOf n v) = v := by
  refine Nat.eq_of_testBit_eq fun j => ?_
  rw [testBit_ofBits_bitsOf]
  by_cases hj : j < n
  · rw [decide_eq_true hj, Bool.true_and]
  · rw [decide_eq_false hj, Bool.false_and]
    refine (Nat.testBit_lt_two_pow (lt_of_lt_of_le h ?_)).symm
    exact Nat.pow_le_pow_right (by decide) (by omega)

theorem bitsOf_congr {n v w : ℕ} (h : ∀ j < n, v.testBit j = w.testBit j) :
    bitsOf n v = bitsOf n w := by
  induction n with
  | zero => rfl
  | succ n ih =>
    rw [bitsOf, bitsOf, h n (Nat.lt_succ_self n), ih fun j hj => h j (Nat.lt_succ_of_lt hj)]

theorem bitsOf_ofBits (x : List Bool) : bitsOf x.length (ofBits x) = x := by
  induction x with
  | nil => rfl
  | cons b x ih =>
    rw [length_cons, bitsOf, testBit_ofBits_cons, if_pos rfl, List.cons.injEq]
    refine ⟨rfl, (bitsOf_congr fun j hj => ?_).trans ih⟩
    rw [testBit_ofBits_cons, if_neg (Nat.ne_of_lt hj)]

/-! ## Pieces -/

/-- What is put on a stream. A flush is a part without bytes. -/
inductive Piece
  | bit (b : Bool)
  | bytes (l : List UInt8)
  /-- The characters of a string, before the zero that ends it. -/
  | str (s : List UInt8)
  deriving DecidableEq, Repr

/-- The byte of the pending bits. -/
def flushed (pend : List Bool) : List (List UInt8) :=
  if pend = [] then [] else [[byte pend]]

/-- A part that is put out when it has bytes. -/
def part (l : List UInt8) : List (List UInt8) :=
  if l = [] then [] else [l]

/-- The parts that the writer puts out, from pending bits on. The characters of a string come before
the pending bits. -/
def chunks : List Bool → List Piece → List (List UInt8)
  | pend, [] => flushed pend
  | pend, .bit b :: ps =>
    if pend.length = 7 then [byte (pend ++ [b])] :: chunks [] ps else chunks (pend ++ [b]) ps
  | pend, .bytes l :: ps => flushed pend ++ part l ++ chunks [] ps
  | pend, .str s :: ps => part s ++ flushed pend ++ [[0]] ++ chunks [] ps

/-- The stream. -/
def out (pend : List Bool) (ps : List Piece) : List UInt8 :=
  (chunks pend ps).flatten

/-- The byte of the pending bits, on the stream. -/
def tail (pend : List Bool) : List UInt8 :=
  (flushed pend).flatten

theorem tail_nil : tail [] = [] :=
  rfl

variable {pend x : List Bool} {ps : List Piece} {s : List UInt8} {q : ℕ} {b : Bool}

theorem tail_of_ne (h : pend ≠ []) : tail pend = [byte pend] := by
  rw [tail, flushed, if_neg h]
  rfl

theorem flatten_part (l : List UInt8) : (part l).flatten = l := by
  unfold part
  split_ifs with h
  · exact h.symm
  · exact append_nil l

theorem out_nil (pend : List Bool) : out pend [] = tail pend :=
  rfl

theorem out_bit_of_lt (h : pend.length < 7) : out pend (.bit b :: ps) = out (pend ++ [b]) ps := by
  rw [out, chunks, if_neg (Nat.ne_of_lt h)]
  rfl

theorem out_bit_of_eq (h : pend.length = 7) :
    out pend (.bit b :: ps) = byte (pend ++ [b]) :: out [] ps := by
  rw [out, chunks, if_pos h]
  rfl

theorem out_bytes {l : List UInt8} : out pend (.bytes l :: ps) = tail pend ++ (l ++ out [] ps) := by
  rw [out, chunks, flatten_append, flatten_append, flatten_part, append_assoc]
  rfl

theorem out_str : out pend (.str s :: ps) = s ++ (tail pend ++ 0 :: out [] ps) := by
  rw [out, chunks, flatten_append, flatten_append, flatten_append, flatten_part,
    append_assoc, append_assoc]
  rfl

/-! ## The reader -/

/-- A reader with the bits it has left and the bytes to come. -/
structure Reader where
  left : List Bool
  input : List UInt8
  deriving DecidableEq, Repr

/-- Take a bit, of the next byte if none is left. -/
def Reader.takeBit : Reader → Option (Bool × Reader)
  | ⟨b :: l, input⟩ => some (b, ⟨l, input⟩)
  | ⟨[], c :: input⟩ => some (c.toNat.testBit 7, ⟨(bits c).tail, input⟩)
  | ⟨[], []⟩ => none

/-- Take bits that should be the given ones. -/
def matchBits : Reader → List Bool → Option Reader
  | r, [] => some r
  | r, b :: x =>
    match r.takeBit with
    | none => none
    | some (b', r') => if b' = b then matchBits r' x else none

/-- Take bytes that should be the given ones. -/
def matchBytes (r : Reader) (l : List UInt8) : Option Reader :=
  if r.input.take l.length = l then some ⟨r.left, r.input.drop l.length⟩ else none

/-- Take a string, up to a zero or to the end, that should be the given one. -/
def matchStr (r : Reader) (s : List UInt8) : Option Reader :=
  if r.input.takeWhile (· ≠ 0) = s then some ⟨r.left, r.input.drop (s.length + 1)⟩ else none

/-- Take a piece. -/
def matchPiece (r : Reader) : Piece → Option Reader
  | .bit b => matchBits r [b]
  | .bytes l => matchBytes r l
  | .str s => matchStr r s

/-- Take pieces one after the other. -/
def matchAll : Reader → List Piece → Option Reader
  | r, [] => some r
  | r, p :: ps => (matchPiece r p).bind fun r => matchAll r ps

theorem matchBits_append (r : Reader) (x y : List Bool) :
    matchBits r (x ++ y) = (matchBits r x).bind fun r => matchBits r y := by
  induction x generalizing r with
  | nil => rfl
  | cons b x ih =>
    rw [cons_append, matchBits, matchBits]
    cases r.takeBit with
    | none => rfl
    | some p =>
      obtain ⟨b', r'⟩ := p
      simp only
      split_ifs
      · exact ih r'
      · rfl

theorem matchAll_append (r : Reader) (ps qs : List Piece) :
    matchAll r (ps ++ qs) = (matchAll r ps).bind fun r => matchAll r qs := by
  induction ps generalizing r with
  | nil => rfl
  | cons p ps ih =>
    rw [cons_append, matchAll, matchAll, bind_assoc]
    exact bind_congr fun r' _ => ih r'

/-- A run of bits is a run of pieces. -/
theorem matchAll_bits (r : Reader) (x : List Bool) : matchAll r (x.map .bit) = matchBits r x := by
  induction x generalizing r with
  | nil => rfl
  | cons b x ih =>
    have hcons : b :: x = [b] ++ x := rfl
    rw [map_cons, matchAll, hcons, matchBits_append]
    exact bind_congr fun r' _ => ih r'

/-- The bits that are left are taken first. -/
theorem matchBits_left (l x : List Bool) (input : List UInt8) (h : x.length ≤ l.length) :
    matchBits ⟨l, input⟩ x =
      if l.take x.length = x then some ⟨l.drop x.length, input⟩ else none := by
  induction x generalizing l with
  | nil => rfl
  | cons b x ih =>
    obtain _ | ⟨c, l⟩ := l
    · cases h
    rw [matchBits, Reader.takeBit]
    simp only [length_cons, take_succ_cons, drop_succ_cons, List.cons.injEq]
    split_ifs <;> simp_all

/-- Without bits left, up to eight are taken from the next byte. -/
theorem matchBits_byte (c : UInt8) (input : List UInt8) (hx : x ≠ []) (h : x.length ≤ 8) :
    matchBits ⟨[], c :: input⟩ x =
      if (bits c).take x.length = x then some ⟨(bits c).drop x.length, input⟩ else none := by
  have hsame : matchBits ⟨[], c :: input⟩ x = matchBits ⟨bits c, input⟩ x := by
    obtain _ | ⟨b, x⟩ := x
    · exact absurd rfl hx
    · rfl
  rw [hsame]
  exact matchBits_left _ x input h

/-! ## What is taken of the stream -/

theorem takeBit_taken {r r' : Reader} (h : r.takeBit = some (b, r')) (hleft : r.left.length ≤ 7) :
    8 * r.input.length + r.left.length = 8 * r'.input.length + r'.left.length + 1 ∧
      r'.left.length ≤ 7 := by
  obtain ⟨_ | ⟨c, l⟩, input⟩ := r
  · obtain _ | ⟨c, input⟩ := input
    · cases h
    · cases h
      simp only [length_cons, length_nil, length_tail, length_bits]
      omega
  · cases h
    simp only [length_cons] at hleft ⊢
    omega

theorem matchBits_taken {r r' : Reader} (h : matchBits r x = some r') (hleft : r.left.length ≤ 7) :
    8 * r.input.length + r.left.length = 8 * r'.input.length + r'.left.length + x.length ∧
      r'.left.length ≤ 7 := by
  induction x generalizing r with
  | nil =>
    cases h
    exact ⟨rfl, hleft⟩
  | cons b x ih =>
    rw [matchBits] at h
    cases htake : r.takeBit with
    | none =>
      rw [htake] at h
      cases h
    | some p =>
      obtain ⟨b', r1⟩ := p
      rw [htake] at h
      simp only at h
      split_ifs at h
      obtain ⟨htaken, hleft1⟩ := takeBit_taken htake hleft
      obtain ⟨hrest, hleft'⟩ := ih h hleft1
      rw [length_cons]
      exact ⟨by omega, hleft'⟩

/-- Up to eight bits take at most one byte. -/
theorem run_taken {r r' : Reader} (h : matchBits r x = some r') (hleft : r.left.length ≤ 7)
    (hx : x.length ≤ 8) :
    r.input.length ≤ r'.input.length + (tail x).length ∧ r'.left.length ≤ 7 := by
  obtain ⟨htaken, hleft'⟩ := matchBits_taken h hleft
  refine ⟨?_, hleft'⟩
  by_cases hnil : x = []
  · subst hnil
    cases h
    exact Nat.le_add_right _ _
  · rw [tail_of_ne hnil, length_singleton]
    omega

theorem matchBytes_taken {r r' : Reader} {l : List UInt8} (h : matchBytes r l = some r') :
    r.input.length ≤ r'.input.length + l.length ∧ r'.left = r.left := by
  unfold matchBytes at h
  split_ifs at h
  cases h
  refine ⟨?_, rfl⟩
  simp only [length_drop]
  omega

theorem matchStr_taken {r r' : Reader} (h : matchStr r s = some r') :
    r.input.length ≤ r'.input.length + (s.length + 1) ∧ r'.left = r.left := by
  unfold matchStr at h
  split_ifs at h
  cases h
  refine ⟨?_, rfl⟩
  simp only [length_drop]
  omega

theorem map_bit_append (pend : List Bool) (b : Bool) (ps : List Piece) :
    pend.map .bit ++ Piece.bit b :: ps = (pend ++ [b]).map .bit ++ ps := by
  rw [map_append, append_assoc]
  rfl

theorem matchAll_run (r : Reader) (x : List Bool) (ps : List Piece) :
    matchAll r (x.map .bit ++ ps) = (matchBits r x).bind fun r => matchAll r ps := by
  rw [matchAll_append, matchAll_bits]

/-- The reader takes no more bytes than the writer puts out. -/
theorem matchAll_taken {r r' : Reader} (h : matchAll r (pend.map .bit ++ ps) = some r')
    (hpend : pend.length ≤ 7) (hleft : r.left.length ≤ 7) :
    r.input.length ≤ r'.input.length + (out pend ps).length := by
  induction ps generalizing pend r with
  | nil =>
    rw [append_nil, matchAll_bits] at h
    exact (run_taken h hleft (Nat.le_succ_of_le hpend)).1
  | cons p ps ih =>
    cases p with
    | bit b =>
      rw [map_bit_append] at h
      by_cases hlen : pend.length = 7
      · rw [matchAll_run] at h
        obtain ⟨r1, hrun, hrest⟩ := bind_eq_some_iff.1 h
        have hlen8 : (pend ++ [b]).length ≤ 8 := by simp [hlen]
        obtain ⟨htaken, hleft1⟩ := run_taken hrun hleft hlen8
        have hih : r1.input.length ≤ r'.input.length + (out [] ps).length :=
          ih hrest (Nat.zero_le _) hleft1
        rw [tail_of_ne (concat_ne_nil _ _), length_singleton] at htaken
        rw [out_bit_of_eq hlen, length_cons]
        omega
      · have hlt : pend.length < 7 := by omega
        rw [out_bit_of_lt hlt]
        refine ih h ?_ hleft
        rw [length_append, length_singleton]
        exact hlt
    | bytes l =>
      rw [matchAll_run] at h
      obtain ⟨r1, hrun, hrest⟩ := bind_eq_some_iff.1 h
      obtain ⟨htaken, hleft1⟩ := run_taken hrun hleft (Nat.le_succ_of_le hpend)
      obtain ⟨r2, hbytes, hrest⟩ := bind_eq_some_iff.1 hrest
      obtain ⟨htaken2, hleft2⟩ := matchBytes_taken hbytes
      have hih : r2.input.length ≤ r'.input.length + (out [] ps).length :=
        ih hrest (Nat.zero_le _) (by rw [hleft2]; exact hleft1)
      rw [out_bytes, length_append, length_append]
      omega
    | str s =>
      rw [matchAll_run] at h
      obtain ⟨r1, hrun, hrest⟩ := bind_eq_some_iff.1 h
      obtain ⟨htaken, hleft1⟩ := run_taken hrun hleft (Nat.le_succ_of_le hpend)
      obtain ⟨r2, hstr, hrest⟩ := bind_eq_some_iff.1 hrest
      obtain ⟨htaken2, hleft2⟩ := matchStr_taken hstr
      have hih : r2.input.length ≤ r'.input.length + (out [] ps).length :=
        ih hrest (Nat.zero_le _) (by rw [hleft2]; exact hleft1)
      rw [out_str, length_append, length_append, length_cons]
      omega

/-! ## Runs of bits -/

/-- A run of pending bits fits a reader that has `q` zeros left : it has none, or the run reaches
beyond them and is all zeros. -/
def Fits (q : ℕ) (x : List Bool) : Prop :=
  x = [] ∨ q = 0 ∨ q < x.length ∧ ∀ b ∈ x, b = false

instance (q : ℕ) (x : List Bool) : Decidable (Fits q x) :=
  inferInstanceAs (Decidable (_ ∨ _ ∨ _))

/-- The zeros that are left after a run of `p` bits that fits. -/
def leftAfter (q p : ℕ) : ℕ :=
  if p = 0 then q else (q + 8 - p) % 8

theorem leftAfter_le {p : ℕ} (hq : q ≤ 7) : leftAfter q p ≤ 7 := by
  unfold leftAfter
  split_ifs <;> omega

/-- A list that begins with zeros and is its own shift by them is all zeros. -/
theorem eq_false_of_shift (hq : 0 < q) (hhead : x.take q = List.replicate q false)
    (hshift : x.take (x.length - q) = x.drop q) : ∀ b ∈ x, b = false := by
  have hget : ∀ i (hi : i < x.length), x[i] = false := by
    intro i
    induction i using Nat.strongRecOn with
    | ind i ih =>
      intro hi
      by_cases hiq : i < q
      · have h : (x.take q)[i]? = (List.replicate q false)[i]? := by rw [hhead]
        rw [List.getElem?_take, if_pos hiq, List.getElem?_replicate, if_pos hiq,
          List.getElem?_eq_getElem hi] at h
        exact some.inj h
      · have h : (x.take (x.length - q))[i - q]? = (x.drop q)[i - q]? := by rw [hshift]
        have hsum : q + (i - q) = i := by omega
        rw [List.getElem?_take, if_pos (by omega), List.getElem?_drop, hsum,
          List.getElem?_eq_getElem hi, List.getElem?_eq_getElem (by omega : i - q < x.length)] at h
        rw [← some.inj h]
        exact ih (i - q) (by omega) (by omega)
  intro b hb
  obtain ⟨i, hi, rfl⟩ := mem_iff_getElem.1 hb
  exact hget i hi

theorem eq_replicate_false (h : ∀ b ∈ x, b = false) : x = List.replicate x.length false :=
  eq_replicate_iff.2 ⟨rfl, h⟩

/-- A reader with zeros left takes bits that go beyond them from the next byte. -/
theorem matchBits_beyond (c : UInt8) (rest : List UInt8) (hlt : q < x.length) (hx : x.length ≤ 8) :
    matchBits ⟨List.replicate q false, c :: rest⟩ x =
      if x.take q = List.replicate q false ∧ (bits c).take (x.length - q) = x.drop q then
        some ⟨(bits c).drop (x.length - q), rest⟩
      else none := by
  have htake : (x.take q).length = q := by
    rw [length_take]
    omega
  have hdrop : (x.drop q).length = x.length - q := length_drop
  have hne : x.drop q ≠ [] := by
    intro h
    rw [h, length_nil] at hdrop
    omega
  have hfirst : matchBits ⟨List.replicate q false, c :: rest⟩ (x.take q) =
      if List.replicate q false = x.take q then some ⟨[], c :: rest⟩ else none := by
    rw [matchBits_left _ _ _ (Nat.le_of_eq (by rw [htake, length_replicate])), htake,
      take_replicate, Nat.min_self, drop_replicate, Nat.sub_self]
    rfl
  have hsecond : matchBits ⟨[], c :: rest⟩ (x.drop q) =
      if (bits c).take (x.length - q) = x.drop q then
        some ⟨(bits c).drop (x.length - q), rest⟩ else none := by
    rw [matchBits_byte _ _ hne (by omega), hdrop]
  conv_lhs => rw [← take_append_drop q x, matchBits_append, hfirst]
  by_cases hhead : x.take q = List.replicate q false
  · rw [if_pos hhead.symm, bind_some, hsecond]
    simp only [hhead, true_and]
  · rw [if_neg (Ne.symm hhead), if_neg fun h => hhead h.1]
    rfl

/-- A run of bits with its own byte is taken beyond zeros if and only if it is all zeros. -/
theorem matchBits_zeros (rest : List UInt8) (hq : 0 < q) (hlt : q < x.length) (hx : x.length ≤ 8) :
    matchBits ⟨List.replicate q false, byte x :: rest⟩ x =
      if ∀ b ∈ x, b = false then some ⟨List.replicate (leftAfter q x.length) false, rest⟩
      else none := by
  have hbits : (bits (byte x)).take (x.length - q) = x.take (x.length - q) := by
    rw [bits_byte hx, take_append_of_le_length (by omega)]
  rw [matchBits_beyond _ _ hlt hx, hbits]
  by_cases hzero : ∀ b ∈ x, b = false
  · have hall := eq_replicate_false hzero
    rw [if_pos hzero, if_pos, bits_byte hx]
    · rw [hall]
      simp only [length_replicate, replicate_append_replicate, drop_replicate]
      congr 3
      unfold leftAfter
      rw [if_neg (by omega)]
      omega
    · rw [hall]
      simp only [length_replicate, take_replicate, drop_replicate]
      refine ⟨?_, ?_⟩ <;> congr 1 <;> omega
  · rw [if_neg hzero, if_neg]
    exact fun h => hzero (eq_false_of_shift hq h.1 h.2)

/-- A run of pending bits that fits is taken with its byte. The reader does not take another one, or
leaves the byte. -/
theorem matchBits_run (rest : List UInt8) (hq : q ≤ 7) (hx : x.length ≤ 8) :
    (Fits q x → matchBits ⟨List.replicate q false, tail x ++ rest⟩ x =
        some ⟨List.replicate (leftAfter q x.length) false, rest⟩) ∧
      (¬Fits q x → ∀ r', matchBits ⟨List.replicate q false, tail x ++ rest⟩ x = some r' →
        r'.input.length = rest.length + 1 ∧ r'.left.length ≤ 7) := by
  by_cases hnil : x = []
  · subst hnil
    exact ⟨fun _ => rfl, fun h => absurd (.inl rfl) h⟩
  have hpos : 0 < x.length := length_pos_iff.2 hnil
  rw [tail_of_ne hnil, singleton_append]
  rcases Nat.eq_zero_or_pos q with rfl | hqpos
  · refine ⟨fun _ => ?_, fun h => absurd (.inr (.inl rfl)) h⟩
    rw [replicate_zero, matchBits_byte _ _ hnil hx, bits_byte hx, take_left,
      if_pos rfl, drop_left, leftAfter, if_neg (Nat.ne_of_gt hpos)]
    congr 3
    omega
  rcases Nat.lt_or_ge q x.length with hlt | hge
  · rw [matchBits_zeros rest hqpos hlt hx]
    constructor
    · rintro (h | h | ⟨-, h⟩)
      · exact absurd h hnil
      · omega
      · rw [if_pos h]
    · intro h r' hr'
      rw [if_neg fun hzero => h (.inr (.inr ⟨hlt, hzero⟩))] at hr'
      cases hr'
  · constructor
    · rintro (h | h | ⟨h, -⟩)
      · exact absurd h hnil
      · omega
      · omega
    · intro _ r' hr'
      rw [matchBits_left _ _ _ (by rw [length_replicate]; exact hge)] at hr'
      split_ifs at hr'
      cases hr'
      refine ⟨rfl, ?_⟩
      simp only [drop_replicate, length_replicate]
      omega

/-- Pieces after a run of bits : the reader finds them and nothing more if and only if the run
fits. -/
theorem matchAll_run_iff (ps : List Piece) (hq : q ≤ 7) (hx : x.length ≤ 8) :
    (∃ l, matchAll ⟨List.replicate q false, tail x ++ out [] ps⟩ (x.map .bit ++ ps) =
        some ⟨l, []⟩) ↔
      Fits q x ∧ ∃ l, matchAll ⟨List.replicate (leftAfter q x.length) false, out [] ps⟩ ps =
        some ⟨l, []⟩ := by
  obtain ⟨hfits, hnot⟩ := matchBits_run (out [] ps) hq hx
  rw [matchAll_run]
  by_cases h : Fits q x
  · rw [hfits h, bind_some]
    exact (and_iff_right h).symm
  · refine ⟨?_, fun h' => absurd h'.1 h⟩
    rintro ⟨l, hl⟩
    obtain ⟨r', hrun, hrest⟩ := bind_eq_some_iff.1 hl
    obtain ⟨hinput, hleft⟩ := hnot h r' hrun
    have hnone : matchAll r' (([] : List Bool).map .bit ++ ps) = some ⟨l, []⟩ := hrest
    have htaken := matchAll_taken hnone (Nat.zero_le _) hleft
    rw [length_nil] at htaken
    omega

/-! ## Reading what was written -/

/-- The pieces, after pending bits, suit a reader that has `q` zeros left : each run of bits fits,
and a string that is put out before pending bits is made of their byte. -/
def Recovers : ℕ → List Bool → List Piece → Prop
  | q, pend, [] => Fits q pend
  | q, pend, .bit b :: ps =>
    if pend.length = 7 then Fits q (pend ++ [b]) ∧ Recovers q [] ps else Recovers q (pend ++ [b]) ps
  | q, pend, .bytes _ :: ps => Fits q pend ∧ Recovers (leftAfter q pend.length) [] ps
  | q, pend, .str s :: ps =>
    (if s = [] ∨ pend = [] then Fits q pend else q = 0 ∧ ∀ c ∈ s, c = byte pend) ∧
      Recovers (leftAfter q pend.length) [] ps

/-- Bytes without pending bits before them are found. -/
theorem matchAll_bytes (left : List Bool) (l : List UInt8) (ps : List Piece) :
    matchAll ⟨left, out [] (.bytes l :: ps)⟩ (.bytes l :: ps) = matchAll ⟨left, out [] ps⟩ ps := by
  rw [out_bytes, tail_nil, nil_append, matchAll, matchPiece, matchBytes, take_left,
    if_pos rfl, drop_left, bind_some]

/-- What a reader finds up to a zero. -/
theorem takeWhile_str (hs : (0 : UInt8) ∉ s) (rest : List UInt8) :
    (s ++ 0 :: rest).takeWhile (· ≠ 0) = s := by
  rw [takeWhile_append_of_pos]
  · simp
  · intro c hc
    simpa using fun h : c = 0 => hs (h ▸ hc)

/-- A string without pending bits before it is found. -/
theorem matchAll_str (left : List Bool) (hs : (0 : UInt8) ∉ s) (ps : List Piece) :
    matchAll ⟨left, out [] (.str s :: ps)⟩ (.str s :: ps) = matchAll ⟨left, out [] ps⟩ ps := by
  have hdrop : (s ++ 0 :: out [] ps).drop (s.length + 1) = out [] ps := by
    rw [← drop_drop, drop_left]
    rfl
  rw [out_str, tail_nil, nil_append, matchAll, matchPiece, matchStr]
  rw [takeWhile_str hs, if_pos rfl, hdrop, bind_some]

theorem append_singleton_eq_cons_iff {c b : UInt8} : s ++ [b] = c :: s ↔ ∀ d ∈ c :: s, d = b := by
  induction s generalizing c with
  | nil =>
    rw [nil_append, forall_mem_singleton, List.cons.injEq, and_iff_left rfl]
    exact eq_comm
  | cons d s ih =>
    rw [cons_append, List.cons.injEq, ih]
    constructor
    · rintro ⟨rfl, h⟩
      exact forall_mem_cons.2 ⟨h d mem_cons_self, h⟩
    · intro h
      obtain ⟨hc, hrest⟩ := forall_mem_cons.1 h
      exact ⟨(hrest d mem_cons_self).trans hc.symm, hrest⟩

/-- The characters that the reader finds when it has taken the first one for the pending bits. -/
theorem takeWhile_rotated {c b : UInt8} {rest : List UInt8} (hs : (0 : UInt8) ∉ c :: s) :
    (s ++ b :: 0 :: rest).takeWhile (· ≠ 0) = c :: s ↔ b ≠ 0 ∧ ∀ d ∈ c :: s, d = b := by
  have hs' : (0 : UInt8) ∉ s := fun h => hs (mem_cons_of_mem _ h)
  by_cases hb : b = 0
  · subst hb
    rw [takeWhile_str hs']
    constructor
    · intro h
      have hlen := congrArg List.length h
      rw [length_cons] at hlen
      omega
    · exact fun h => absurd rfl h.1
  · have hsnoc : (0 : UInt8) ∉ s ++ [b] := by
      rw [mem_append, mem_singleton]
      rintro (h | h)
      · exact hs' h
      · exact hb h.symm
    have hsplit : s ++ b :: 0 :: rest = (s ++ [b]) ++ 0 :: rest := by
      rw [append_assoc]
      rfl
    rw [hsplit, takeWhile_str hsnoc, and_iff_right hb]
    exact append_singleton_eq_cons_iff

/-- A string that is put out before pending bits is found if and only if the reader has nothing left
and the string is made of their byte. -/
theorem matchAll_pending_str_iff (hq : q ≤ 7) (hlen : pend.length ≤ 7) (hpend : pend ≠ [])
    (hne : s ≠ []) (hs : (0 : UInt8) ∉ s) :
    (∃ l, matchAll ⟨List.replicate q false, out pend (.str s :: ps)⟩
        (pend.map .bit ++ .str s :: ps) = some ⟨l, []⟩) ↔
      (q = 0 ∧ ∀ c ∈ s, c = byte pend) ∧
        ∃ l, matchAll ⟨List.replicate (leftAfter q pend.length) false, out [] ps⟩ ps =
          some ⟨l, []⟩ := by
  obtain _ | ⟨c, s⟩ := s
  · exact absurd rfl hne
  have hpos : 0 < pend.length := length_pos_iff.2 hpend
  have hdrop : (s ++ byte pend :: 0 :: out [] ps).drop ((c :: s).length + 1) = out [] ps := by
    rw [length_cons, add_assoc, ← drop_drop, drop_left]
    rfl
  -- the string after the bits that were taken from its first character
  have hstr : ∀ left, matchAll ⟨left, s ++ byte pend :: 0 :: out [] ps⟩ (.str (c :: s) :: ps) =
      if byte pend ≠ 0 ∧ ∀ d ∈ c :: s, d = byte pend then matchAll ⟨left, out [] ps⟩ ps
      else none := by
    intro left
    rw [matchAll, matchPiece, matchStr]
    simp only [takeWhile_rotated hs, hdrop]
    split_ifs
    · rfl
    · rfl
  have hzero : (∀ d ∈ c :: s, d = byte pend) → byte pend ≠ 0 := fun h h0 =>
    hs ((h c mem_cons_self).trans h0 ▸ mem_cons_self)
  rw [out_str, tail_of_ne hpend, matchAll_run, cons_append, singleton_append]
  rcases Nat.eq_zero_or_pos q with rfl | hqpos
  · rw [replicate_zero, matchBits_byte _ _ hpend (Nat.le_succ_of_le hlen)]
    by_cases hsame : ∀ d ∈ c :: s, d = byte pend
    · have hc : c = byte pend := hsame c mem_cons_self
      have hbits : bits c = pend ++ List.replicate (8 - pend.length) false := by
        rw [hc, bits_byte (Nat.le_succ_of_le hlen)]
      have hleft : leftAfter 0 pend.length = 8 - pend.length := by
        unfold leftAfter
        rw [if_neg (Nat.ne_of_gt hpos)]
        omega
      rw [hbits, take_left, if_pos rfl, drop_left, bind_some, hstr,
        if_pos ⟨hzero hsame, hsame⟩, hleft, and_iff_right ⟨rfl, hsame⟩]
    · refine ⟨?_, fun h => absurd h.1.2 hsame⟩
      rintro ⟨l, hl⟩
      obtain ⟨r', hrun, hrest⟩ := bind_eq_some_iff.1 hl
      split_ifs at hrun
      cases hrun
      rw [hstr, if_neg fun h => hsame h.2] at hrest
      cases hrest
  · refine ⟨?_, fun h => absurd h.1.1 (Nat.ne_of_gt hqpos)⟩
    rintro ⟨l, hl⟩
    obtain ⟨r', hrun, hrest⟩ := bind_eq_some_iff.1 hl
    exfalso
    rcases Nat.lt_or_ge q pend.length with hlt | hge
    · -- the bits of the first character are those of the pending byte, which is zero then
      rw [matchBits_beyond _ _ hlt (Nat.le_succ_of_le hlen)] at hrun
      split_ifs at hrun with hbits
      cases hrun
      rw [hstr] at hrest
      split_ifs at hrest with hsame
      refine hsame.1 (byte_eq_zero (eq_false_of_shift hqpos hbits.1 ?_))
      rw [← hbits.2, hsame.2 c mem_cons_self, bits_byte (Nat.le_succ_of_le hlen),
        take_append_of_le_length (by omega)]
    · -- the bits are taken from what is left, and a byte remains
      rw [matchBits_left _ _ _ (by rw [length_replicate]; exact hge)] at hrun
      split_ifs at hrun
      cases hrun
      have hleft : ((List.replicate q false).drop pend.length).length ≤ 7 := by
        simp only [drop_replicate, length_replicate]
        omega
      have hnone : matchAll _ (([] : List Bool).map .bit ++ .str (c :: s) :: ps) = _ := hrest
      have htaken := matchAll_taken hnone (Nat.zero_le _) hleft
      rw [out_str, tail_nil] at htaken
      simp only [length_cons, length_append, length_nil] at htaken
      omega

/-- A reader with `q` zeros left finds the pieces that were written after pending bits, and nothing
is left on the stream, if and only if they suit it. -/
theorem matchAll_iff (hq : q ≤ 7) (hpend : pend.length ≤ 7)
    (hstr : ∀ s, .str s ∈ ps → (0 : UInt8) ∉ s) :
    (∃ l, matchAll ⟨List.replicate q false, out pend ps⟩ (pend.map .bit ++ ps) = some ⟨l, []⟩) ↔
      Recovers q pend ps := by
  induction ps generalizing q pend with
  | nil =>
    have h := matchAll_run_iff [] hq (Nat.le_succ_of_le hpend)
    rw [out_nil, tail_nil, append_nil] at h
    rw [out_nil, h, Recovers, and_iff_left ⟨_, rfl⟩]
  | cons p ps ih =>
    have hstr' : ∀ s, .str s ∈ ps → (0 : UInt8) ∉ s := fun s hs =>
      hstr s (mem_cons_of_mem _ hs)
    have hih : ∀ {q}, q ≤ 7 → ((∃ l, matchAll ⟨List.replicate q false, out [] ps⟩ ps =
        some ⟨l, []⟩) ↔ Recovers q [] ps) := fun hq => ih hq (Nat.zero_le _) hstr'
    cases p with
    | bit b =>
      rw [map_bit_append, Recovers]
      by_cases hlen : pend.length = 7
      · have hlen8 : (pend ++ [b]).length = 8 := by simp [hlen]
        have h := matchAll_run_iff ps hq (Nat.le_of_eq hlen8)
        have hleft : leftAfter q (pend ++ [b]).length = q := by
          rw [hlen8, leftAfter, if_neg (by decide)]
          omega
        rw [tail_of_ne (concat_ne_nil _ _), singleton_append, hleft] at h
        rw [out_bit_of_eq hlen, h, if_pos hlen]
        exact and_congr_right fun _ => hih hq
      · rw [out_bit_of_lt (by omega), if_neg hlen]
        refine ih hq ?_ hstr'
        rw [length_append, length_singleton]
        omega
    | bytes l =>
      have h := matchAll_run_iff (.bytes l :: ps) hq (Nat.le_succ_of_le hpend)
      have hout : out pend (.bytes l :: ps) = tail pend ++ out [] (.bytes l :: ps) := by
        rw [out_bytes, out_bytes, tail_nil, nil_append]
      simp only [matchAll_bytes] at h
      rw [hout, h, Recovers]
      exact and_congr_right fun _ => hih (leftAfter_le hq)
    | str s =>
      have hs := hstr s mem_cons_self
      rw [Recovers]
      split_ifs with hplain
      · have h := matchAll_run_iff (.str s :: ps) hq (Nat.le_succ_of_le hpend)
        have hout : out pend (.str s :: ps) = tail pend ++ out [] (.str s :: ps) := by
          rcases hplain with rfl | rfl
          · rw [out_str, out_str, tail_nil]
            rfl
          · rw [tail_nil, nil_append]
        simp only [matchAll_str _ hs] at h
        rw [hout, h]
        exact and_congr_right fun _ => hih (leftAfter_le hq)
      · rw [not_or] at hplain
        rw [matchAll_pending_str_iff hq hpend hplain.2 hplain.1 hs]
        exact and_congr_right fun _ => hih (leftAfter_le hq)

end BitStream
