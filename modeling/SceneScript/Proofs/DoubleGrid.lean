/-
  SceneScript.Proofs.DoubleGrid — a double is the double nearest to itself.

  Rounding looks for the leading bit of a rational, takes the grid that goes with it, and
  rounds to a whole number of its steps. The value of a double is a whole number of steps
  of its own grid, and its mantissa tells where the leading bit is, so nothing moves
  (`nearest_magnitude`).
-/
import Mathlib.Algebra.Order.Field.Power
import Mathlib.Data.Rat.Cast.Order
import Mathlib.Tactic.FieldSimp
import Mathlib.Tactic.Linarith
import Mathlib.Tactic.Positivity
import SceneScript.Number.Double

namespace SceneScript.Double

/-! ## Leading bits -/

theorem two_zpow_pos (k : ℤ) : (0 : ℚ) < 2 ^ k := zpow_pos two_pos k

/-- A positive natural number lies between the powers of its leading bit. -/
theorem log2_bounds {n : ℕ} (h : n ≠ 0) : (2 : ℚ) ^ (n.log2 : ℤ) ≤ n ∧ (n : ℚ) < 2 ^ ((n.log2 : ℤ) + 1) := by
  constructor
  · rw [zpow_natCast]
    exact_mod_cast Nat.log2_self_le h
  · rw [← Nat.cast_succ, zpow_natCast]
    exact_mod_cast Nat.lt_log2_self

/-- The lengths of numerator and denominator give the leading bit of a fraction up to one. -/
theorem quotient_bounds {n d : ℕ} (hn : n ≠ 0) (hd : d ≠ 0) :
    (2 : ℚ) ^ ((n.log2 : ℤ) - d.log2 - 1) < n / d ∧ (n : ℚ) / d < 2 ^ ((n.log2 : ℤ) - d.log2 + 1) := by
  obtain ⟨hnlow, hnhigh⟩ := log2_bounds hn
  obtain ⟨hdlow, hdhigh⟩ := log2_bounds hd
  have hdpos : (0 : ℚ) < d := by exact_mod_cast Nat.pos_of_ne_zero hd
  constructor
  · rw [lt_div_iff₀ hdpos]
    calc (2 : ℚ) ^ ((n.log2 : ℤ) - d.log2 - 1) * d
        < 2 ^ ((n.log2 : ℤ) - d.log2 - 1) * 2 ^ ((d.log2 : ℤ) + 1) :=
          mul_lt_mul_of_pos_left hdhigh (two_zpow_pos _)
      _ = 2 ^ (n.log2 : ℤ) := by rw [← zpow_add₀ two_ne_zero]; congr 1; omega
      _ ≤ n := hnlow
  · rw [div_lt_iff₀ hdpos]
    calc (n : ℚ) < 2 ^ ((n.log2 : ℤ) + 1) := hnhigh
      _ = 2 ^ ((n.log2 : ℤ) - d.log2 + 1) * 2 ^ (d.log2 : ℤ) := by rw [← zpow_add₀ two_ne_zero]; congr 1; omega
      _ ≤ 2 ^ ((n.log2 : ℤ) - d.log2 + 1) * d := mul_le_mul_of_nonneg_left hdlow (two_zpow_pos _).le

theorem exponent_lt {a b : ℤ} {q : ℚ} (ha : (2 : ℚ) ^ a ≤ q) (hb : q < 2 ^ b) : a < b :=
  (zpow_lt_zpow_iff_right₀ one_lt_two).mp (ha.trans_lt hb)

theorem leadingBit_eq {q : ℚ} {k : ℤ} (hlow : (2 : ℚ) ^ k ≤ q) (hhigh : q < 2 ^ (k + 1)) : leadingBit q = k := by
  have hpos : 0 < q := (two_zpow_pos k).trans_le hlow
  have hnum : q.num.natAbs ≠ 0 := Int.natAbs_ne_zero.mpr (Rat.num_ne_zero.mpr hpos.ne')
  have hq : (q.num.natAbs : ℚ) / q.den = q := by
    have habs : ((q.num.natAbs : ℤ) : ℚ) = q.num := by rw [Int.natAbs_of_nonneg (Rat.num_nonneg.mpr hpos.le)]
    rw [← Int.cast_natCast, habs, Rat.num_div_den]
  obtain ⟨hbelow, habove⟩ := quotient_bounds hnum q.den_nz
  rw [hq] at hbelow habove
  simp only [leadingBit]
  split
  · rename_i hguess
    have := exponent_lt hguess hhigh
    have := exponent_lt hlow habove
    omega
  · rename_i hguess
    have := exponent_lt hlow (not_le.mp hguess)
    have := exponent_lt hbelow.le hhigh
    omega

/-! ## Rounding -/

theorem roundHalfEven_natCast (n : ℕ) : roundHalfEven n = n := by
  have hfloor : ((n : ℚ)).floor.toNat = n := by
    rw [← Int.cast_natCast, Rat.floor_intCast, Int.toNat_natCast]
  simp [roundHalfEven, hfloor]

/-! ## The value of a double -/

section Magnitude

variable {d : Double} (h : d.mantissa ≠ 0)
include h

theorem magnitude_pos : 0 < d.magnitude :=
  mul_pos (by exact_mod_cast Nat.pos_of_ne_zero h) (two_zpow_pos d.exponent)

/-- No double is below the least step, nor has it more than 1024 bits before the point. -/
theorem magnitude_bounds : (2 : ℚ) ^ (-1074 : ℤ) ≤ d.magnitude ∧ d.magnitude < 2 ^ (1024 : ℤ) := by
  obtain ⟨hmantissa, hleast, hgreatest, -⟩ := d.canonical
  have hone : (1 : ℚ) ≤ d.mantissa := by exact_mod_cast Nat.one_le_iff_ne_zero.mpr h
  have hbits : (d.mantissa : ℚ) < 2 ^ (53 : ℤ) := by exact_mod_cast hmantissa
  constructor
  · calc (2 : ℚ) ^ (-1074 : ℤ) ≤ 2 ^ d.exponent := zpow_le_zpow_right₀ one_le_two hleast
      _ = 1 * 2 ^ d.exponent := (one_mul _).symm
      _ ≤ d.magnitude := mul_le_mul_of_nonneg_right hone (two_zpow_pos _).le
  · calc d.magnitude < 2 ^ (53 : ℤ) * 2 ^ d.exponent := mul_lt_mul_of_pos_right hbits (two_zpow_pos _)
      _ ≤ 2 ^ (53 : ℤ) * 2 ^ (971 : ℤ) :=
        mul_le_mul_of_nonneg_left (zpow_le_zpow_right₀ one_le_two hgreatest) (two_zpow_pos _).le
      _ = 2 ^ (1024 : ℤ) := by rw [← zpow_add₀ two_ne_zero]; rfl

theorem leadingBit_magnitude : leadingBit d.magnitude = d.mantissa.log2 + d.exponent := by
  obtain ⟨hlow, hhigh⟩ := log2_bounds h
  have hstep := two_zpow_pos d.exponent
  apply leadingBit_eq
  · rw [zpow_add₀ two_ne_zero]
    exact mul_le_mul_of_nonneg_right hlow hstep.le
  · rw [add_right_comm, zpow_add₀ two_ne_zero]
    exact mul_lt_mul_of_pos_right hhigh hstep

/-- The grid around a double is its own. -/
theorem spacing_magnitude : spacing d.magnitude = d.exponent := by
  obtain ⟨hmantissa, hleast, -, hnormal⟩ := d.canonical
  have hbits : d.mantissa.log2 < 53 := (Nat.log2_lt h).mpr hmantissa
  have hfull : 2 ^ 52 ≤ d.mantissa → 52 ≤ d.mantissa.log2 := (Nat.le_log2 h).mpr
  simp only [spacing, leadingBit_magnitude h]
  rcases hnormal with hnormal | hsubnormal
  · have := hfull hnormal
    split <;> omega
  · split <;> omega

end Magnitude

/-- Zero has no other mantissa. -/
theorem eq_zero {d : Double} (h : d.mantissa = 0) : d = zero d.negative := by
  obtain ⟨negative, mantissa, exponent, hcanonical⟩ := d
  obtain rfl : mantissa = 0 := h
  obtain rfl : exponent = -1074 := hcanonical.2.2.2.resolve_left (by decide)
  rfl

/-- Nothing moves. -/
theorem nearest_magnitude (d : Double) : nearest d.negative d.magnitude = some d := by
  by_cases h : d.mantissa = 0
  · rw [nearest, if_pos (by simp [magnitude, h]), ← eq_zero h]
  · have hsteps : d.magnitude * (2 : ℚ) ^ (-d.exponent) = d.mantissa := by
      rw [magnitude, mul_assoc, ← zpow_add₀ two_ne_zero, add_neg_cancel, zpow_zero, mul_one]
    have hcarry : d.mantissa ≠ 0x20000000000000 := ne_of_lt d.canonical.1
    rw [nearest, if_neg (not_le.mpr (magnitude_pos h))]
    simp only [spacing_magnitude h, hsteps, roundHalfEven_natCast, ofPair?, if_neg hcarry, dif_pos d.canonical]

end SceneScript.Double
