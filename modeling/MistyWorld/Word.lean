import Mathlib.Data.Int.Basic
import Mathlib.Tactic.Linarith

/-!
# Machine words

Unsigned words are naturals and signed words are integers. `toU8`, `toU16`, `toU32`,
`toU64`, `toI32` and `toI64` are the conversions of C++ on a two's complement machine : reduction modulo
`2 ^ w` into the range of the target type. Each is the identity on its own range
(`toU32_of_lt`, `toI32_of_range`), which is the only fact the proofs about programs
that stay in range need.
-/

namespace Word

/-- Conversion to an 8-bit unsigned word. -/
def toU8 (z : ℤ) : ℕ :=
  (z % 2 ^ 8).toNat

/-- Conversion to a 16-bit unsigned word. -/
def toU16 (z : ℤ) : ℕ :=
  (z % 2 ^ 16).toNat

/-- Conversion to a 32-bit unsigned word. -/
def toU32 (z : ℤ) : ℕ :=
  (z % 2 ^ 32).toNat

/-- Conversion to a 64-bit unsigned word. -/
def toU64 (z : ℤ) : ℕ :=
  (z % 2 ^ 64).toNat

/-- Conversion to a 32-bit signed word. -/
def toI32 (z : ℤ) : ℤ :=
  (z + 2 ^ 31) % 2 ^ 32 - 2 ^ 31

/-- Conversion to a 64-bit signed word. -/
def toI64 (z : ℤ) : ℤ :=
  (z + 2 ^ 63) % 2 ^ 64 - 2 ^ 63

theorem toU8_lt (z : ℤ) : toU8 z < 2 ^ 8 := by
  unfold toU8
  omega

theorem toU8_of_lt {n : ℕ} (h : n < 2 ^ 8) : toU8 (n : ℤ) = n := by
  unfold toU8
  omega

/-- `--n` for a byte that is not zero. -/
theorem toU8_pred {n : ℕ} (h : 1 ≤ n) (hlt : n < 2 ^ 8) : toU8 ((n + 255 : ℕ) : ℤ) = n - 1 := by
  unfold toU8
  omega

theorem toU32_lt (z : ℤ) : toU32 z < 2 ^ 32 := by
  unfold toU32
  omega

theorem toU64_lt (z : ℤ) : toU64 z < 2 ^ 64 := by
  unfold toU64
  omega

theorem toU32_of_range {z : ℤ} (h0 : 0 ≤ z) (h : z < 2 ^ 32) : (toU32 z : ℤ) = z := by
  unfold toU32
  omega

theorem toU64_of_range {z : ℤ} (h0 : 0 ≤ z) (h : z < 2 ^ 64) : (toU64 z : ℤ) = z := by
  unfold toU64
  omega

theorem toU32_of_lt {n : ℕ} (h : n < 2 ^ 32) : toU32 n = n := by
  unfold toU32
  omega

theorem toU64_of_lt {n : ℕ} (h : n < 2 ^ 64) : toU64 n = n := by
  unfold toU64
  omega

theorem toI32_of_range {z : ℤ} (h0 : -2 ^ 31 ≤ z) (h : z < 2 ^ 31) : toI32 z = z := by
  unfold toI32
  omega

theorem toI64_of_range {z : ℤ} (h0 : -2 ^ 63 ≤ z) (h : z < 2 ^ 63) : toI64 z = z := by
  unfold toI64
  omega

end Word
