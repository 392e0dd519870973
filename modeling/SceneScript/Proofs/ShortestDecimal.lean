/-
  SceneScript.Proofs.ShortestDecimal — the decimal written for a double reads as it.

  Reading a decimal looks at its digits and its exponent, but only the value counts
  (`ofDecimal?_of_toRat_eq`): the place of the leading digit is fixed by the value. So
  zeros may be moved between digits and exponent. A candidate for the shortest decimal is
  taken only if it reads as the double; where none is found all digits of the double are
  written, and these denote the double itself (`ofDecimal?_shortest`).
-/
import SceneScript.Number.Decimal
import SceneScript.Proofs.DoubleGrid
import SceneScript.Proofs.Digits

namespace SceneScript

namespace Decimal

/-! ## Leading digits -/

theorem ten_zpow_pos (k : ℤ) : (0 : ℚ) < 10 ^ k := zpow_pos (by norm_num) k

theorem toRat_pos {c : Decimal} (h : c.digits ≠ 0) : 0 < c.toRat :=
  mul_pos (by exact_mod_cast Nat.pos_of_ne_zero h) (ten_zpow_pos c.exponent)

theorem digits_eq_zero_iff {c : Decimal} : c.digits = 0 ↔ c.toRat = 0 := by
  refine ⟨fun h => by simp [toRat, h], fun h => ?_⟩
  by_contra hne
  exact (toRat_pos hne).ne' h

/-- A positive number lies between the powers of ten that its length tells. -/
theorem digitChars_bounds {n : ℕ} (h : n ≠ 0) :
    (10 : ℚ) ^ ((digitChars n).length - 1 : ℤ) ≤ n ∧ (n : ℚ) < 10 ^ ((digitChars n).length : ℤ) := by
  obtain ⟨places, hlength⟩ := Nat.exists_eq_add_of_le' (List.length_pos_of_ne_nil (digitChars_ne_nil n))
  have hhigh : n < 10 ^ (digitChars n).length :=
    (Nat.length_toDigits_le_iff (by decide) (List.length_pos_of_ne_nil (digitChars_ne_nil n))).mp (Nat.le_refl _)
  have hlow : 10 ^ places ≤ n := by
    rcases Nat.eq_zero_or_pos places with rfl | hplaces
    · exact Nat.one_le_iff_ne_zero.mpr h
    · by_contra hlt
      have hshort : (digitChars n).length ≤ places :=
        (Nat.length_toDigits_le_iff (by decide) hplaces).mpr (not_le.mp hlt)
      omega
  constructor
  · rw [hlength, Nat.cast_succ, add_sub_cancel_right, zpow_natCast]
    exact_mod_cast hlow
  · rw [zpow_natCast]
    exact_mod_cast hhigh

/-- The leading digit stands where the value says. -/
theorem leading_bounds {c : Decimal} (h : c.digits ≠ 0) :
    (10 : ℚ) ^ c.leading ≤ c.toRat ∧ c.toRat < 10 ^ (c.leading + 1) := by
  obtain ⟨hlow, hhigh⟩ := digitChars_bounds h
  have hstep := ten_zpow_pos c.exponent
  have hten : (10 : ℚ) ≠ 0 := by norm_num
  constructor
  · rw [leading, zpow_add₀ hten]
    exact mul_le_mul_of_nonneg_right hlow hstep.le
  · rw [leading, add_right_comm, sub_add_cancel, zpow_add₀ hten]
    exact mul_lt_mul_of_pos_right hhigh hstep

theorem exponent_lt {a b : ℤ} {q : ℚ} (ha : (10 : ℚ) ^ a ≤ q) (hb : q < 10 ^ b) : a < b :=
  (zpow_lt_zpow_iff_right₀ (by norm_num)).mp (ha.trans_lt hb)

theorem leading_of_toRat_eq {a b : Decimal} (h : a.toRat = b.toRat) (ha : a.digits ≠ 0) : a.leading = b.leading := by
  have hb : b.digits ≠ 0 := fun hb => ha (digits_eq_zero_iff.mpr (h.trans (digits_eq_zero_iff.mp hb)))
  obtain ⟨halow, hahigh⟩ := leading_bounds ha
  obtain ⟨hblow, hbhigh⟩ := leading_bounds hb
  rw [← h] at hblow hbhigh
  have := exponent_lt halow hbhigh
  have := exponent_lt hblow hahigh
  omega

/-! ## Zeros at the end -/

/-- Each zero after the digits multiplies by ten. -/
theorem ofDigitChars_append_zeros (cs : List Char) (k : ℕ) :
    ofDigitChars (cs ++ List.replicate k '0') = ofDigitChars cs * 10 ^ k := by
  rw [ofDigitChars_eq, Nat.ofDigitChars_append, Nat.ofDigitChars_replicate_zero, Nat.mul_comm]
  rfl

/-- Zeros after the digits may stand in the exponent instead. -/
theorem toRat_zeros (n k : ℕ) (e : ℤ) : toRat ⟨n * 10 ^ k, e⟩ = toRat ⟨n, e + k⟩ := by
  have hten : (10 : ℚ) ≠ 0 := by norm_num
  simp only [toRat]
  rw [zpow_add₀ hten, zpow_natCast]
  push_cast
  rw [mul_assoc, mul_comm ((10 : ℚ) ^ k)]

theorem toRat_trimZeros (fuel : ℕ) (c : Decimal) : (trimZeros fuel c).toRat = c.toRat := by
  induction fuel generalizing c with
  | zero => rfl
  | succ fuel ih =>
    rw [trimZeros]
    split
    · rename_i h
      have hdigits : c.digits / 10 * 10 ^ 1 = c.digits := by omega
      rw [ih, ← Nat.cast_one, ← toRat_zeros, hdigits]
    · rfl

theorem toRat_trimmed (c : Decimal) : c.trimmed.toRat = c.toRat := toRat_trimZeros _ c

end Decimal

namespace Double

/-! ## Reading -/

/-- Only the value of a decimal counts. -/
theorem ofDecimal?_of_toRat_eq {a b : Decimal} (h : a.toRat = b.toRat) (negative : Bool) :
    ofDecimal? negative a = ofDecimal? negative b := by
  have hzero : a.digits = 0 ↔ b.digits = 0 := by rw [Decimal.digits_eq_zero_iff, Decimal.digits_eq_zero_iff, h]
  unfold ofDecimal?
  by_cases ha : a.digits = 0
  · rw [if_pos ha, if_pos (hzero.mp ha)]
  · rw [if_neg ha, if_neg (mt hzero.mpr ha), Decimal.leading_of_toRat_eq h ha, h]

/-- The value of a double other than zero has neither too many nor too few digits before the point. -/
theorem leading_of_toRat_magnitude {d : Double} {c : Decimal} (h : c.toRat = d.magnitude) (hc : c.digits ≠ 0)
    (hd : d.mantissa ≠ 0) : c.leading ≤ 310 ∧ -330 ≤ c.leading := by
  obtain ⟨hlow, hhigh⟩ := Decimal.leading_bounds hc
  obtain ⟨hleast, hgreatest⟩ := magnitude_bounds hd
  rw [h] at hlow hhigh
  have hbig : (2 : ℚ) ^ (1024 : ℤ) ≤ 10 ^ (310 : ℤ) := by
    have : (2 : ℕ) ^ 1024 ≤ 10 ^ 310 := by decide +kernel
    exact_mod_cast this
  have hsmall : (10 : ℚ) ^ (-330 : ℤ) ≤ 2 ^ (-1074 : ℤ) := by
    have : (2 : ℕ) ^ 1074 ≤ 10 ^ 330 := by decide +kernel
    rw [zpow_neg, zpow_neg]
    exact inv_anti₀ (two_zpow_pos 1074) (by exact_mod_cast this)
  have := Decimal.exponent_lt hlow (hgreatest.trans_le hbig)
  have := Decimal.exponent_lt (hsmall.trans hleast) hhigh
  omega

/-- A decimal that denotes the magnitude of a double reads as the double. -/
theorem ofDecimal?_of_toRat_magnitude {d : Double} {c : Decimal} (h : c.toRat = d.magnitude) :
    ofDecimal? d.negative c = some d := by
  unfold ofDecimal?
  by_cases hd : d.mantissa = 0
  · have hc : c.digits = 0 := Decimal.digits_eq_zero_iff.mpr (by simp [h, magnitude, hd])
    rw [if_pos hc, ← eq_zero hd]
  · have hc : c.digits ≠ 0 := fun hc => (magnitude_pos hd).ne' (h ▸ Decimal.digits_eq_zero_iff.mp hc)
    obtain ⟨hhigh, hlow⟩ := leading_of_toRat_magnitude h hc hd
    rw [if_neg hc, if_neg (by omega), if_neg (by omega), h, nearest_magnitude]

/-! ## Writing -/

/-- All digits of a double denote it. -/
theorem toRat_exact (d : Double) : d.exact.toRat = d.magnitude := by
  have hten : (10 : ℚ) ^ d.exponent = 5 ^ d.exponent * 2 ^ d.exponent := by
    rw [← mul_zpow]
    norm_num
  unfold exact magnitude
  split
  · rename_i h
    have hpow : ((Nat.pow 2 d.exponent.toNat : ℕ) : ℚ) = 2 ^ d.exponent := by
      rw [show Nat.pow 2 d.exponent.toNat = 2 ^ d.exponent.toNat from rfl, Nat.cast_pow, ← zpow_natCast,
        Int.toNat_of_nonneg h]
      rfl
    rw [Decimal.toRat, Nat.cast_mul, hpow, zpow_zero, mul_one]
  · rename_i h
    have hpow : ((Nat.pow 5 (-d.exponent).toNat : ℕ) : ℚ) = 5 ^ (-d.exponent) := by
      rw [show Nat.pow 5 (-d.exponent).toNat = 5 ^ (-d.exponent).toNat from rfl, Nat.cast_pow, ← zpow_natCast,
        Int.toNat_of_nonneg (by omega)]
      rfl
    rw [Decimal.toRat, Nat.cast_mul, hpow, hten, mul_assoc, ← mul_assoc ((5 : ℚ) ^ (-d.exponent)),
      ← zpow_add₀ (by norm_num), neg_add_cancel, zpow_zero, one_mul]

/-- A candidate is taken only if it reads as the double. -/
theorem readsFrom_of_onGrid? {tie : Tie} {d : Double} {exponent : ℤ} {c : Decimal}
    (h : onGrid? tie d exponent = some c) : ofDecimal? d.negative c = some d := by
  simp only [onGrid?] at h
  split at h
  · cases h
  · rename_i hlow _
    cases h
    exact of_decide_eq_true hlow
  · rename_i _ hhigh
    cases h
    exact of_decide_eq_true hhigh
  · -- both neighbours read as the double, so it does not matter which is closer
    rename_i hlow hhigh
    replace hlow := of_decide_eq_true hlow
    replace hhigh := of_decide_eq_true hhigh
    split at h
    · cases h
      exact hlow
    · split at h
      · cases h
        exact hhigh
      · cases tie with
        | up =>
          cases h
          exact hhigh
        | toEven =>
          obtain rfl := Option.some.inj h
          split
          · exact hlow
          · exact hhigh

/-- What is written for a double reads as it. -/
theorem ofDecimal?_shortest (tie : Tie) (d : Double) : ofDecimal? d.negative (d.shortest tie) = some d := by
  unfold shortest
  split
  · rename_i hzero
    refine ofDecimal?_of_toRat_magnitude ?_
    rw [magnitude, beq_iff_eq.mp hzero]
    simp [Decimal.toRat]
  · simp only
    rw [ofDecimal?_of_toRat_eq (Decimal.toRat_trimmed _)]
    cases hfound : (List.range 17).findSome? fun (more : Nat) => onGrid? tie d (leadingDigit d.magnitude - (more : Int)) with
    | none => exact ofDecimal?_of_toRat_magnitude (toRat_exact d)
    | some c =>
      obtain ⟨more, -, hc⟩ := List.exists_of_findSome?_eq_some hfound
      exact readsFrom_of_onGrid? hc

/-- Only zero is written with the digit zero, and then without an exponent. -/
theorem shortest_digits (tie : Tie) (d : Double) : (d.shortest tie).digits ≠ 0 ∨ (d.shortest tie).exponent = 0 := by
  by_cases hd : d.isZero = true
  · exact .inr (by rw [shortest, if_pos hd])
  · refine .inl fun hdigits => hd ?_
    have hread := ofDecimal?_shortest tie d
    rw [ofDecimal?, if_pos hdigits] at hread
    rw [← Option.some.inj hread]
    rfl

end Double

end SceneScript
