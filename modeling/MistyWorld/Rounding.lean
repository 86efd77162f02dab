import Mathlib.Data.Int.Log
import Mathlib.Data.Rat.Floor

/-!
# Rounding to a binary format

A rational number is rounded to the nearest multiple of a power of two, to the even one of two that are as
near. The power is the last place of the number in a format with so many binary digits, but not below
the least exponent of the format. There is no largest exponent : numbers do not become infinite.

A bound that the format has passes to the rounded number (`le_round`, `round_le`), which is so exact
where the format has the number itself (`round_eq`).
-/

namespace Rounding

/-! ## The nearest integer -/

/-- The nearest integer, or the even one of two. -/
def nearestEven (x : ℚ) : ℤ :=
  if Int.fract x < 1 / 2 ∨ (Int.fract x = 1 / 2 ∧ ⌊x⌋ % 2 = 0) then ⌊x⌋ else ⌊x⌋ + 1

variable {x : ℚ} {n : ℤ}

theorem le_nearestEven (h : (n : ℚ) ≤ x) : n ≤ nearestEven x := by
  have hfloor := Int.le_floor.2 h
  unfold nearestEven
  split_ifs <;> omega

/-- Up to the middle above an integer, the number is rounded to no more. -/
theorem nearestEven_le_of_lt (h : x < n + 1 / 2) : nearestEven x ≤ n := by
  have hfloor : ⌊x⌋ ≤ n := by
    have hlt : ⌊x⌋ < n + 1 := by
      rw [Int.floor_lt]
      push_cast
      linarith
    omega
  unfold nearestEven
  split_ifs with hdown
  · exact hfloor
  · rw [not_or, not_lt] at hdown
    refine Int.add_one_le_of_lt (lt_of_le_of_ne hfloor fun heq => ?_)
    have hfract : Int.fract x = x - n := by rw [Int.fract, heq]
    linarith [hdown.1]

theorem nearestEven_le (h : x ≤ n) : nearestEven x ≤ n :=
  nearestEven_le_of_lt (by linarith)

/-! ## Formats -/

/-- The number of binary digits and the exponent of the last place of the smallest numbers. -/
structure BinaryFormat where
  precision : ℕ
  minExponent : ℤ
  precision_pos : 0 < precision

namespace BinaryFormat

variable (f : BinaryFormat)

/-- The exponent of the last place of a number. -/
def exponent (x : ℚ) : ℤ :=
  max (Int.log 2 |x| + 1 - f.precision) f.minExponent

/-- The nearest number of the format, with an even last digit of two. -/
def round (x : ℚ) : ℚ :=
  nearestEven (x / 2 ^ f.exponent x) * 2 ^ f.exponent x

/-- The format has the number. -/
def Has (x : ℚ) : Prop :=
  ∃ n e : ℤ, |n| ≤ 2 ^ f.precision ∧ f.minExponent ≤ e ∧ x = n * 2 ^ e

variable {f} {y : ℚ}

theorem exponent_neg (x : ℚ) : f.exponent (-x) = f.exponent x := by
  rw [exponent, exponent, abs_neg]

/-- The exponent of a number in a binade of the format. -/
theorem exponent_eq {k : ℤ} (hle : 2 ^ k ≤ x) (hlt : x < 2 ^ (k + 1))
    (hmin : f.minExponent ≤ k + 1 - f.precision) : f.exponent x = k + 1 - f.precision := by
  have hx : 0 < x := (zpow_pos two_pos k).trans_le hle
  have hlog : Int.log 2 |x| = k := by
    rw [abs_of_pos hx]
    refine le_antisymm (Int.lt_add_one_iff.1 ?_) ?_
    · exact (Int.lt_zpow_iff_log_lt one_lt_two hx).1 (by exact_mod_cast hlt)
    · exact (Int.zpow_le_iff_le_log one_lt_two hx).1 (by exact_mod_cast hle)
  rw [exponent, hlog, max_eq_left hmin]

/-- Between a number of the format and a larger one is a multiple of the last place of that. -/
theorem Has.exists_between (hy : f.Has y) (h : y ≤ x) :
    ∃ n : ℤ, y ≤ n * 2 ^ f.exponent x ∧ n * 2 ^ f.exponent x ≤ x := by
  obtain ⟨n, e, hn, he, rfl⟩ := hy
  rcases le_or_gt (f.exponent x) e with hle | hlt
  · obtain ⟨k, hk⟩ := Int.le.dest hle
    have heq : (n : ℚ) * 2 ^ e = (n * 2 ^ k : ℤ) * 2 ^ f.exponent x := by
      rw [← hk, zpow_add₀ two_ne_zero, zpow_natCast]
      push_cast
      ring
    exact ⟨n * 2 ^ k, heq.le, heq ▸ h⟩
  rcases eq_or_ne x 0 with rfl | hx
  · exact ⟨0, by simpa using h, by simp⟩
  -- otherwise the number is not above the leading digit of `x`, which is such a multiple
  have hexp : f.exponent x = Int.log 2 |x| + 1 - f.precision := by
    unfold exponent at hlt ⊢
    omega
  have hprec := f.precision_pos
  have hlead : (2 : ℚ) ^ Int.log 2 |x| = (2 ^ (f.precision - 1) : ℤ) * 2 ^ f.exponent x := by
    push_cast
    rw [← zpow_natCast, ← zpow_add₀ two_ne_zero]
    congr 1
    omega
  have hbelow : |(n : ℚ) * 2 ^ e| ≤ 2 ^ Int.log 2 |x| := by
    have hn' : |(n : ℚ)| ≤ 2 ^ f.precision := by exact_mod_cast hn
    have hpow : |(2 : ℚ) ^ e| = 2 ^ e := abs_of_pos (zpow_pos two_pos e)
    rw [abs_mul, hpow]
    calc |(n : ℚ)| * 2 ^ e ≤ 2 ^ f.precision * 2 ^ e :=
          mul_le_mul_of_nonneg_right hn' (zpow_pos two_pos e).le
      _ = 2 ^ ((f.precision : ℤ) + e) := by rw [zpow_add₀ two_ne_zero, zpow_natCast]
      _ ≤ 2 ^ Int.log 2 |x| := zpow_le_zpow_right₀ one_le_two (by omega)
  have habs : (2 : ℚ) ^ Int.log 2 |x| ≤ |x| := by
    exact_mod_cast Int.zpow_log_le_self one_lt_two (abs_pos.2 hx)
  rw [hlead] at hbelow habs
  rcases lt_or_gt_of_ne hx with hneg | hpos
  · rw [abs_of_neg hneg] at habs
    rw [abs_of_neg (h.trans_lt hneg)] at hbelow
    refine ⟨-2 ^ (f.precision - 1), ?_⟩
    rw [Int.cast_neg, neg_mul]
    exact ⟨by linarith, by linarith⟩
  · rw [abs_of_pos hpos] at habs
    exact ⟨2 ^ (f.precision - 1), (le_abs_self _).trans hbelow, habs⟩

theorem Has.neg (hy : f.Has y) : f.Has (-y) := by
  obtain ⟨n, e, hn, he, rfl⟩ := hy
  exact ⟨-n, e, by rwa [abs_neg], he, by push_cast; ring⟩

theorem le_round (hy : f.Has y) (h : y ≤ x) : y ≤ f.round x := by
  obtain ⟨n, hyn, hnx⟩ := hy.exists_between h
  have hpos : (0 : ℚ) < 2 ^ f.exponent x := zpow_pos two_pos _
  have hn : n ≤ nearestEven (x / 2 ^ f.exponent x) := le_nearestEven ((le_div_iff₀ hpos).2 hnx)
  exact hyn.trans (mul_le_mul_of_nonneg_right (Int.cast_le.2 hn) hpos.le)

theorem round_le (hy : f.Has y) (h : x ≤ y) : f.round x ≤ y := by
  obtain ⟨n, hyn, hnx⟩ := hy.neg.exists_between (neg_le_neg h)
  rw [exponent_neg] at hyn hnx
  have hpos : (0 : ℚ) < 2 ^ f.exponent x := zpow_pos two_pos _
  have hn : nearestEven (x / 2 ^ f.exponent x) ≤ -n := by
    refine nearestEven_le ((div_le_iff₀ hpos).2 ?_)
    rw [Int.cast_neg, neg_mul]
    linarith
  have hround : f.round x ≤ (-n : ℤ) * 2 ^ f.exponent x :=
    mul_le_mul_of_nonneg_right (Int.cast_le.2 hn) hpos.le
  rw [Int.cast_neg, neg_mul] at hround
  linarith

@[simp] theorem round_zero (f : BinaryFormat) : f.round 0 = 0 := by
  simp [round, nearestEven]

end BinaryFormat

/-- The format of a `float`. -/
def binary32Format : BinaryFormat :=
  ⟨24, -149, by decide⟩

/-- The format of a `double`. -/
def binary64Format : BinaryFormat :=
  ⟨53, -1074, by decide⟩

def binary32 (x : ℚ) : ℚ :=
  binary32Format.round x

def binary64 (x : ℚ) : ℚ :=
  binary64Format.round x

theorem binary64_nonneg (h : 0 ≤ x) : 0 ≤ binary64 x :=
  BinaryFormat.le_round ⟨0, 0, by decide, by decide, by simp⟩ h

end Rounding
