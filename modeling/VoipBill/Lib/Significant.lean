import Mathlib.Algebra.Order.Round
import Mathlib.Data.Int.Log
import Mathlib.Data.Rat.Floor
import Mathlib.Tactic

/-!
# Decimal numbers with few digits

`toSignificant p x` is the decimal number with `p` significant digits that is nearest
to `x`, halves to the even digit: what `printf` writes with a precision of `p` digits.

* `HasDigits p x`: the number `x` has at most `p` significant digits;
* `hasDigits_toSignificant`: rounding leaves no more than that;
* `toSignificant_eq_self_iff`: exactly these numbers are written without loss.
-/

namespace VoipBill
namespace Lib

/-- To the nearest integer, halves to the even one. -/
def roundHalfEven (x : ℚ) : Int :=
  if Int.fract x < 1 / 2 then ⌊x⌋
  else if 1 / 2 < Int.fract x then ⌊x⌋ + 1
  else if ⌊x⌋ % 2 = 0 then ⌊x⌋
  else ⌊x⌋ + 1

@[simp] theorem roundHalfEven_intCast (n : Int) : roundHalfEven (n : ℚ) = n := by
  simp [roundHalfEven]

/-- The place value of the last of `p` significant digits of `x`. -/
def lastPlace (p : Nat) (x : ℚ) : ℚ := 10 ^ (Int.log 10 |x| + 1 - p)

/-- The number with `p` significant digits nearest to `x`. -/
def toSignificant (p : Nat) (x : ℚ) : ℚ := roundHalfEven (x / lastPlace p x) * lastPlace p x

/-- At most `p` significant digits. -/
def HasDigits (p : Nat) (x : ℚ) : Prop := ∃ n k : Int, |n| < 10 ^ p ∧ x = n * 10 ^ k

theorem lastPlace_pos (p : Nat) (x : ℚ) : 0 < lastPlace p x := by
  unfold lastPlace
  positivity

/-- The place above the first digit. -/
theorem pow_mul_lastPlace (p : Nat) (x : ℚ) :
    (10 : ℚ) ^ p * lastPlace p x = 10 ^ (Int.log 10 |x| + 1) := by
  rw [lastPlace, ← zpow_natCast (10 : ℚ) p, ← zpow_add₀ (by norm_num : (10 : ℚ) ≠ 0)]
  congr 1
  omega

/-- A number is a multiple of its last place, less than `10 ^ p` times. -/
theorem abs_lt_lastPlace (p : Nat) (x : ℚ) : |x| < 10 ^ p * lastPlace p x := by
  have hlt : |x| < ((10 : Nat) : ℚ) ^ (Int.log 10 |x| + 1) :=
    Int.lt_zpow_succ_log_self (by norm_num) |x|
  rw [pow_mul_lastPlace]
  exact_mod_cast hlt

/-- The digits of a number with at most `p` of them end at its last place. -/
theorem HasDigits.eq_mul_lastPlace {p : Nat} {x : ℚ} (h : HasDigits p x) :
    ∃ m : Int, x = m * lastPlace p x := by
  obtain ⟨n, k, hn, hx⟩ := h
  by_cases hzero : x = 0
  · exact ⟨0, by rw [hzero]; simp⟩
  · have hpos : 0 < |x| := abs_pos.mpr hzero
    have hlog : ((10 : Nat) : ℚ) ^ Int.log 10 |x| ≤ |x| :=
      Int.zpow_log_le_self (by norm_num) hpos
    -- fewer than `p` digits above place `k`, so the last place is not above `k`
    have hplace : Int.log 10 |x| + 1 - p ≤ k := by
      have habs : |x| < 10 ^ ((p : Int) + k) := by
        calc |x| = (|n| : Int) * 10 ^ k := by
              rw [hx, abs_mul, abs_of_pos (by positivity : (0 : ℚ) < 10 ^ k), Int.cast_abs]
          _ < 10 ^ p * 10 ^ k := by
              have hcast : ((|n| : Int) : ℚ) < 10 ^ p := by exact_mod_cast hn
              gcongr
          _ = 10 ^ ((p : Int) + k) := by
              rw [zpow_add₀ (by norm_num : (10 : ℚ) ≠ 0), zpow_natCast]
      have hlt : (10 : ℚ) ^ Int.log 10 |x| < 10 ^ ((p : Int) + k) :=
        lt_of_le_of_lt (by exact_mod_cast hlog) habs
      have hexp := (zpow_lt_zpow_iff_right₀ (by norm_num : (1 : ℚ) < 10)).mp hlt
      omega
    obtain ⟨j, hj⟩ := Int.eq_ofNat_of_zero_le (Int.sub_nonneg_of_le hplace)
    refine ⟨n * 10 ^ j, ?_⟩
    have hsplit : (10 : ℚ) ^ k = 10 ^ j * lastPlace p x := by
      rw [lastPlace, ← zpow_natCast (10 : ℚ) j, ← zpow_add₀ (by norm_num : (10 : ℚ) ≠ 0)]
      congr 1
      omega
    calc x = n * (10 ^ j * lastPlace p x) := by rw [← hsplit]; exact hx
      _ = ((n * 10 ^ j : Int) : ℚ) * lastPlace p x := by push_cast; ring

/-- **Written without loss.**  Rounding to `p` significant digits changes exactly the
numbers with more digits. -/
theorem toSignificant_eq_self_iff (p : Nat) (x : ℚ) : toSignificant p x = x ↔ HasDigits p x := by
  have hpos := lastPlace_pos p x
  constructor
  · intro h
    refine ⟨roundHalfEven (x / lastPlace p x), Int.log 10 |x| + 1 - p, ?_, h.symm⟩
    have hlt := abs_lt_lastPlace p x
    have habs : |x| = (|roundHalfEven (x / lastPlace p x)| : Int) * lastPlace p x := by
      conv_lhs => rw [← h, toSignificant, abs_mul, abs_of_pos hpos]
      rw [Int.cast_abs]
    rw [habs] at hlt
    exact_mod_cast lt_of_mul_lt_mul_right hlt hpos.le
  · intro h
    obtain ⟨m, hm⟩ := h.eq_mul_lastPlace
    have hdiv : x / lastPlace p x = m := by
      rw [div_eq_iff hpos.ne']
      exact hm
    rw [toSignificant, hdiv, roundHalfEven_intCast]
    exact hm.symm

theorem roundHalfEven_bounds (x : ℚ) : ⌊x⌋ ≤ roundHalfEven x ∧ roundHalfEven x ≤ ⌈x⌉ := by
  have hfloor : ⌊x⌋ ≤ ⌈x⌉ := Int.floor_le_ceil x
  by_cases hint : Int.fract x = 0
  · have heq : roundHalfEven x = ⌊x⌋ := by
      rw [roundHalfEven, if_pos (by rw [hint]; norm_num)]
    omega
  · -- between two integers, both of them are next to `x`
    have hceil : ⌈x⌉ = ⌊x⌋ + 1 := (Int.ceil_eq_floor_add_one_iff_notMem x).mpr fun hmem =>
      hint (Int.fract_eq_zero_iff.mpr hmem)
    unfold roundHalfEven
    split_ifs <;> omega

/-- A number of a bounded size is rounded within the bound. -/
theorem abs_roundHalfEven_le {x : ℚ} {n : Int} (h : |x| ≤ n) : |roundHalfEven x| ≤ n := by
  obtain ⟨hlo, hhi⟩ := roundHalfEven_bounds x
  obtain ⟨hneg, hpos⟩ := abs_le.mp h
  have hfloor : -n ≤ ⌊x⌋ := Int.le_floor.mpr (by exact_mod_cast hneg)
  have hceil : ⌈x⌉ ≤ n := Int.ceil_le.mpr hpos
  exact abs_le.mpr ⟨by omega, by omega⟩

/-- **A rounded number has few digits.**  If the rounding carries into a new digit, only
that digit is left. -/
theorem hasDigits_toSignificant {p : Nat} (hp : 0 < p) (x : ℚ) :
    HasDigits p (toSignificant p x) := by
  have hpos := lastPlace_pos p x
  have hsize : |x / lastPlace p x| ≤ ((10 ^ p : Int) : ℚ) := by
    rw [abs_div, abs_of_pos hpos, div_le_iff₀ hpos]
    exact_mod_cast (abs_lt_lastPlace p x).le
  have hle := abs_roundHalfEven_le hsize
  rcases hle.lt_or_eq with hlt | heq
  · exact ⟨roundHalfEven (x / lastPlace p x), Int.log 10 |x| + 1 - p, hlt, rfl⟩
  · -- a power of ten is a one at the next place
    have hone : (1 : Int) < 10 ^ p := one_lt_pow₀ (by norm_num) hp.ne'
    rcases abs_eq_abs.mp (heq.trans (abs_of_pos (by positivity : (0 : Int) < 10 ^ p)).symm) with
      heq | heq
    · refine ⟨1, Int.log 10 |x| + 1, by simpa using hone, ?_⟩
      rw [toSignificant, heq, ← pow_mul_lastPlace p x]
      push_cast
      ring
    · refine ⟨-1, Int.log 10 |x| + 1, by simpa using hone, ?_⟩
      rw [toSignificant, heq, ← pow_mul_lastPlace p x]
      push_cast
      ring

end Lib
end VoipBill
