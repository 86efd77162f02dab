import Mathlib.Algebra.Ring.Nat
import Mathlib.Data.List.Basic
import Mathlib.Data.Nat.Bits

/-!
# Bytes on a stream

`ofBytes` reads a number from its bytes, the lowest first, and `toBytes` writes it with a given
width. A `StreamCipher` takes each byte of a stream to another one, in a way that depends on the
place of the byte, and back. `transform` applies one direction to a part of the stream that begins
at a given place.
-/

namespace Bytes

/-- The number with the given bytes, the lowest first. -/
def ofBytes : List UInt8 → ℕ
  | [] => 0
  | b :: l => b.toNat + 256 * ofBytes l

/-- The lowest bytes of a number, the lowest first. -/
def toBytes : ℕ → ℕ → List UInt8
  | 0, _ => []
  | width + 1, n => UInt8.ofNat n :: toBytes width (n / 256)

@[simp] theorem length_toBytes (width n : ℕ) : (toBytes width n).length = width := by
  induction width generalizing n with
  | zero => rfl
  | succ width ih => rw [toBytes, List.length_cons, ih]

theorem ofBytes_toBytes (width : ℕ) {n : ℕ} (h : n < 256 ^ width) :
    ofBytes (toBytes width n) = n := by
  induction width generalizing n with
  | zero =>
    rw [Nat.pow_zero, Nat.lt_one_iff] at h
    rw [h, toBytes, ofBytes]
  | succ width ih =>
    have hdiv : n / 256 < 256 ^ width := by
      exact Nat.div_lt_of_lt_mul (by rwa [mul_comm])
    rw [toBytes, ofBytes, ih hdiv, UInt8.toNat_ofNat']
    omega

theorem toBytes_ofBytes (l : List UInt8) : toBytes l.length (ofBytes l) = l := by
  induction l with
  | nil => rfl
  | cons b l ih =>
    have hb := b.toNat_lt
    have hbyte : UInt8.ofNat (ofBytes (b :: l)) = b := by
      refine UInt8.toNat_inj.1 ?_
      rw [UInt8.toNat_ofNat', ofBytes]
      omega
    have hdiv : ofBytes (b :: l) / 256 = ofBytes l := by
      rw [ofBytes]
      omega
    rw [List.length_cons, toBytes, hbyte, hdiv, ih]

theorem ofBytes_lt (l : List UInt8) : ofBytes l < 256 ^ l.length := by
  induction l with
  | nil => exact Nat.one_pos
  | cons b l ih =>
    have hb := b.toNat_lt
    rw [ofBytes, List.length_cons, Nat.pow_succ]
    omega

/-- Bits above a number are put beside it. -/
theorem or_shiftLeft {a k : ℕ} (b : ℕ) (h : a < 2 ^ k) : a ||| b <<< k = a + 2 ^ k * b := by
  rw [Nat.or_comm, ← Nat.shiftLeft_add_eq_or_of_lt h, Nat.shiftLeft_eq, mul_comm, add_comm]

/-- Apply `f` to each byte, at its place in the stream. -/
def transform (f : ℕ → UInt8 → UInt8) : ℕ → List UInt8 → List UInt8
  | _, [] => []
  | place, b :: l => f place b :: transform f (place + 1) l

@[simp] theorem length_transform (f : ℕ → UInt8 → UInt8) (place : ℕ) (l : List UInt8) :
    (transform f place l).length = l.length := by
  induction l generalizing place with
  | nil => rfl
  | cons b l ih => rw [transform, List.length_cons, ih, List.length_cons]

/-- A cipher that takes the bytes of a stream one by one. -/
structure StreamCipher where
  encrypt : ℕ → UInt8 → UInt8
  decrypt : ℕ → UInt8 → UInt8
  decrypt_encrypt : ∀ place b, decrypt place (encrypt place b) = b

theorem transform_decrypt_encrypt (c : StreamCipher) (place : ℕ) (l : List UInt8) :
    transform c.decrypt place (transform c.encrypt place l) = l := by
  induction l generalizing place with
  | nil => rfl
  | cons b l ih => rw [transform, transform, c.decrypt_encrypt, ih]

end Bytes
