/-
  SceneScript.Proofs.WholePixels — which whole number a coordinate is written as.

  A coordinate goes to the nearest whole number, a half upward: to the floor of its sum with
  one half. The sum is formed on the grid of doubles, so it may move before the floor is
  taken. Binade by binade:
  - below one half the sum lies between 0 and 1, and stays below the double before 1;
  - with a fraction it has at most one bit too many, and then it lies between a power of two
    and the half after it, both of them doubles;
  - a whole number of 54 bits or more is less than half a step away from its sum;
  - a whole number of 53 bits is exactly half a step away, and an odd one moves up to the
    even number after it.
  So the floor is the right one but in two cases (`Double.Slips`): the odd whole numbers of
  53 bits, and the double before one half, whose sum moves up to 1 (`toRat_toWhole`). They
  are written as the whole number after the right one (`pixels_of_slips`).

  The whole number is written with all of its digits if it has at most 53 bits; a greater
  one is written as the shortest decimal that reads as it (`pixels_round_half_up`).
-/
import SceneScript.Proofs.DoubleRounding
import SceneScript.Proofs.EngineDefaults
import SceneScript.Proofs.PrintedNumbers

namespace SceneScript

namespace Double

/-- The greatest double below one half. -/
def belowHalf : Double := ⟨false, 0x1FFFFFFFFFFFFF, -54, by decide⟩

/-- The sum with one half lies halfway between two doubles, and the even one of them is past the next whole number. -/
def Slips (v : Double) : Prop := v = belowHalf ∨ v.exponent = 0 ∧ v.mantissa % 2 = 1

instance : DecidablePred Slips := fun v =>
  inferInstanceAs (Decidable (v = belowHalf ∨ v.exponent = 0 ∧ v.mantissa % 2 = 1))

variable {v : Double}

/-! ## The sum with one half -/

theorem floor_eq {x : ℚ} {n : ℤ} (hlow : n ≤ x) (hhigh : x < n + 1) : x.floor = n :=
  (Int.floor_eq_iff (a := x)).mpr ⟨hlow, hhigh⟩

theorem toRat_toWhole_of_sum {r : Double} (h : ofRat? (v.toRat + 1 / 2) = some r) : v.toWhole.toRat = r.toRat.floor := by
  rw [toWhole, h, Option.getD_some, toRat_floor]

/-- Nothing moves if the sum is a double. -/
theorem toRat_toWhole_of_exact {b : Double} (h : b.toRat = v.toRat + 1 / 2) :
    v.toWhole.toRat = (v.toRat + 1 / 2).floor := by
  obtain ⟨r, hr, hvalue⟩ := ofRat?_toRat b
  rw [h] at hr hvalue
  rw [toRat_toWhole_of_sum hr, hvalue]

/-- The floor stays if a double parts the sum from the next whole number. -/
theorem toRat_toWhole_of_between {b : Double} {n : ℤ} (hn : |n| ≤ 2 ^ 53) (hlow : n ≤ v.toRat + 1 / 2)
    (hhigh : v.toRat + 1 / 2 ≤ b.toRat) (hb : b.toRat < n + 1) : v.toWhole.toRat = (v.toRat + 1 / 2).floor := by
  obtain ⟨a, ha⟩ := exists_toRat_int hn
  obtain ⟨r, hr, har, hrb⟩ := ofRat?_between (ha.trans_le hlow) hhigh
  rw [toRat_toWhole_of_sum hr, floor_eq hlow (hhigh.trans_lt hb), floor_eq (ha ▸ har) (hrb.trans_lt hb)]

/-! ## Below one half -/

theorem abs_toRat_le {e : ℤ} (h : v.exponent ≤ e) : |v.toRat| ≤ 2 ^ (53 + e) := by
  have hsteps : |(v.steps : ℚ)| ≤ 2 ^ (53 : ℤ) := by exact_mod_cast v.abs_steps_lt.le
  rw [toRat_eq_steps, abs_mul, abs_of_pos (two_zpow_pos _), zpow_add₀ two_ne_zero]
  exact mul_le_mul hsteps (zpow_le_zpow_right₀ one_le_two h) (two_zpow_pos _).le (two_zpow_pos _).le

/-- Another double below one half is below the one before it. -/
theorem toRat_le_of_small (h : v.exponent ≤ -54) (hv : v ≠ belowHalf) : v.toRat ≤ 1 / 2 - 2 ^ (-53 : ℤ) := by
  rcases h.lt_or_eq with h | h
  · have hquarter : v.toRat ≤ 2 ^ (53 + -55 : ℤ) := (le_abs_self _).trans (abs_toRat_le (by omega))
    refine hquarter.trans ?_
    norm_num
  · have hsteps : v.steps ≤ 2 ^ 53 - 2 := by
      obtain ⟨-, hlt⟩ := abs_lt.mp v.abs_steps_lt
      by_contra hlast
      obtain ⟨negative, mantissa, exponent, hcanonical⟩ := v
      obtain rfl : exponent = -54 := h
      cases negative with
      | true =>
        simp only [steps, if_true] at hlast
        omega
      | false =>
        simp only [steps, Bool.false_eq_true, if_false] at hlast hlt
        obtain rfl : mantissa = 0x1FFFFFFFFFFFFF := by omega
        exact hv rfl
    have hcast : (v.steps : ℚ) ≤ 2 ^ 53 - 2 := by exact_mod_cast hsteps
    rw [toRat_eq_steps, h]
    calc (v.steps : ℚ) * 2 ^ (-54 : ℤ) ≤ (2 ^ 53 - 2) * 2 ^ (-54 : ℤ) :=
          mul_le_mul_of_nonneg_right hcast (two_zpow_pos _).le
      _ = 1 / 2 - 2 ^ (-53 : ℤ) := by norm_num

theorem toRat_toWhole_of_small (h : v.exponent ≤ -54) (hv : v ≠ belowHalf) :
    v.toWhole.toRat = (v.toRat + 1 / 2).floor := by
  obtain ⟨b, hb⟩ := exists_toRat (n := 2 ^ 53 - 1) (e := -53) (by decide) (by decide) (by decide)
  have hvalue : b.toRat = 1 - 2 ^ (-53 : ℤ) := by
    rw [hb]
    norm_num
  have hhigh := toRat_le_of_small h hv
  obtain ⟨hlow, -⟩ := abs_le.mp (abs_toRat_le h)
  have hhalf : (2 : ℚ) ^ (53 + -54 : ℤ) = 1 / 2 := by norm_num
  rw [hhalf] at hlow
  have hstep := two_zpow_pos (-53)
  refine toRat_toWhole_of_between (n := 0) (b := b) (by decide) ?_ ?_ ?_
  · push_cast
    linarith
  · rw [hvalue]
    linarith
  · rw [hvalue]
    push_cast
    linarith

/-! ## With a fraction -/

section Fraction

variable {j : ℕ} (h : v.exponent = -1 - j)
include h

/-- One half is a whole number of steps. -/
theorem steps_of_half : (2 : ℚ) ^ j * 2 ^ v.exponent = 1 / 2 := by
  have hexponent : (j : ℤ) + v.exponent = -1 := by omega
  rw [← zpow_natCast, ← zpow_add₀ two_ne_zero, hexponent]
  norm_num

theorem toRat_add_half : v.toRat + 1 / 2 = ((v.steps + 2 ^ j : ℤ) : ℚ) * 2 ^ v.exponent := by
  rw [toRat_eq_steps, ← steps_of_half h]
  push_cast
  ring

/-- A sum of 54 bits has passed the power of two that ends the binade, by less than one half. -/
theorem toRat_toWhole_of_carry (hj : j ≤ 52) (hbits : 2 ^ 53 < v.steps + 2 ^ j) :
    v.toWhole.toRat = (v.toRat + 1 / 2).floor := by
  obtain ⟨-, hsteps⟩ := abs_lt.mp v.abs_steps_lt
  have hstep := two_zpow_pos v.exponent
  have hj0 : j ≠ 0 := by
    rintro rfl
    rw [pow_zero] at hbits
    omega
  obtain ⟨k, hk⟩ : ∃ k : ℕ, k + 1 + j = 53 := ⟨52 - j, by omega⟩
  have hend : (2 : ℚ) ^ 53 * 2 ^ v.exponent = 2 ^ k := by
    rw [← hk, pow_add, mul_assoc, steps_of_half h, pow_succ]
    ring
  have hk51 : (2 : ℤ) ^ k ≤ 2 ^ 51 := pow_le_pow_right₀ (by decide) (by omega)
  have hkpos : (0 : ℤ) < 2 ^ k := by positivity
  obtain ⟨b, hb⟩ := exists_toRat (n := 2 * 2 ^ k + 1) (e := -1) (by rw [abs_le]; omega) (by decide) (by decide)
  have hvalue : b.toRat = 2 ^ k + 1 / 2 := by
    rw [hb, zpow_neg_one]
    push_cast
    ring
  have hpassed : (2 : ℚ) ^ k ≤ v.toRat + 1 / 2 := by
    have hcast : (2 : ℚ) ^ 53 ≤ ((v.steps + 2 ^ j : ℤ) : ℚ) := by exact_mod_cast hbits.le
    rw [toRat_add_half h, ← hend]
    exact mul_le_mul_of_nonneg_right hcast hstep.le
  have hbefore : v.toRat ≤ 2 ^ k := by
    have hcast : (v.steps : ℚ) ≤ 2 ^ 53 := by exact_mod_cast hsteps.le
    rw [toRat_eq_steps, ← hend]
    exact mul_le_mul_of_nonneg_right hcast hstep.le
  refine toRat_toWhole_of_between (n := 2 ^ k) (b := b) (by rw [abs_le]; omega) ?_ ?_ ?_
  · exact_mod_cast hpassed
  · rw [hvalue]
    linarith
  · rw [hvalue]
    push_cast
    linarith

theorem toRat_toWhole_of_fraction (hj : j ≤ 52) : v.toWhole.toRat = (v.toRat + 1 / 2).floor := by
  rcases le_or_gt (v.steps + 2 ^ j) (2 ^ 53) with hbits | hbits
  · have habs : |v.steps + 2 ^ j| ≤ 2 ^ 53 := by
      obtain ⟨hlow, -⟩ := abs_lt.mp v.abs_steps_lt
      have : (0 : ℤ) < 2 ^ j := by positivity
      rw [abs_le]
      omega
    obtain ⟨b, hb⟩ := exists_toRat habs v.canonical.2.1 (by omega)
    exact toRat_toWhole_of_exact (hb.trans (toRat_add_half h).symm)
  · exact toRat_toWhole_of_carry h hj hbits

end Fraction

/-! ## Whole numbers -/

theorem floor_add_half (h : v.toRat = v.toRat.floor) : ((v.toRat + 1 / 2).floor : ℚ) = v.toRat := by
  have hfloor : (v.toRat + 1 / 2).floor = v.toRat.floor := floor_eq (by linarith) (by linarith)
  rw [hfloor, ← h]

/-- One step after a double its binade may end. -/
theorem magnitude_add_step_le (v : Double) : v.magnitude + 2 ^ v.exponent ≤ 2 ^ (v.exponent + 53) := by
  have hbits : (v.mantissa : ℚ) + 1 ≤ 2 ^ (53 : ℤ) := by exact_mod_cast v.canonical.1
  rw [add_comm v.exponent, zpow_add₀ two_ne_zero, magnitude, ← add_one_mul]
  exact mul_le_mul_of_nonneg_right hbits (two_zpow_pos _).le

theorem mantissa_ge (h : 0 ≤ v.exponent) : 2 ^ 52 ≤ v.mantissa := v.canonical.2.2.2.resolve_right (by omega)

/-- Steps of two or more put one half less than half a step away. -/
theorem nearest_of_half_away (h : 1 ≤ v.exponent) {q : ℚ} (hlow : 2 ^ 53 ≤ q) (hhigh : q < 2 ^ (v.exponent + 53))
    (hdown : v.magnitude - 1 / 2 ≤ q) (hup : q ≤ v.magnitude + 1 / 2) (negative : Bool) :
    ∃ r, nearest negative q = some r ∧ r.negative = negative ∧ r.magnitude = v.magnitude := by
  have hq : 0 < q := by linarith
  have hspacing : 1 ≤ spacing q := le_spacing (by exact_mod_cast hlow)
  have hstep : (2 : ℚ) ^ (1 : ℤ) ≤ 2 ^ spacing q := zpow_le_zpow_right₀ one_le_two hspacing
  rw [zpow_one] at hstep
  exact nearest_of_near hq (spacing_le hq (by omega) hhigh) (by linarith) (by linarith) negative

theorem magnitude_ge (h : 1 ≤ v.exponent) : (2 : ℚ) ^ 53 ≤ v.magnitude := by
  have hmantissa : (2 : ℚ) ^ 52 ≤ v.mantissa := by exact_mod_cast mantissa_ge (v := v) (by omega)
  have hstep : (2 : ℚ) ^ (1 : ℤ) ≤ 2 ^ v.exponent := zpow_le_zpow_right₀ one_le_two h
  rw [zpow_one] at hstep
  calc (2 : ℚ) ^ 53 = 2 ^ 52 * 2 := by norm_num
    _ ≤ v.magnitude := mul_le_mul hmantissa hstep (by norm_num) (by positivity)

/-- All whole numbers of 54 bits or more but the first stay in their binade if one half is taken away. -/
theorem magnitude_ge_next (h : 1 ≤ v.exponent) (hfirst : ¬ (v.exponent = 1 ∧ v.mantissa = 2 ^ 52)) :
    (2 : ℚ) ^ 53 + 1 ≤ v.magnitude := by
  have hmantissa := mantissa_ge (v := v) (by omega)
  rcases h.lt_or_eq with h | h
  · have hstep : (2 : ℚ) ^ (2 : ℤ) ≤ 2 ^ v.exponent := zpow_le_zpow_right₀ one_le_two h
    have hcast : (2 : ℚ) ^ 52 ≤ v.mantissa := by exact_mod_cast hmantissa
    calc (2 : ℚ) ^ 53 + 1 ≤ 2 ^ 52 * 2 ^ (2 : ℤ) := by norm_num
      _ ≤ v.magnitude := mul_le_mul hcast hstep (two_zpow_pos _).le (by positivity)
  · have hnext : 2 ^ 53 + 1 ≤ v.mantissa * 2 := by omega
    rw [magnitude, ← h, zpow_one]
    exact_mod_cast hnext

/-- The sum goes back to a whole number of 54 bits or more. -/
theorem toRat_toWhole_of_great (h : 1 ≤ v.exponent) : v.toWhole.toRat = v.toRat := by
  have hwhole : v.toRat = v.toRat.floor := toRat_eq_floor (by omega)
  have hlow := magnitude_ge h
  have hhigh := v.magnitude_add_step_le
  have hstep : (1 : ℚ) ≤ 2 ^ v.exponent := one_le_zpow₀ one_le_two (by omega)
  -- the value enters only through the sum
  have hsuffices : (∃ r, ofRat? (v.toRat + 1 / 2) = some r ∧ r.toRat = v.toRat) → v.toWhole.toRat = v.toRat := by
    rintro ⟨r, hr, hvalue⟩
    rw [toRat_toWhole_of_sum hr, hvalue, ← hwhole]
  cases hsign : v.negative with
  | false =>
    obtain ⟨r, hr, hrsign, hrmagnitude⟩ :=
      nearest_of_half_away (q := v.magnitude + 1 / 2) h (by linarith) (by linarith) (by linarith) (by linarith) false
    refine hsuffices ⟨r, ?_, ?_⟩
    · rw [toRat_of_positive hsign, ofRat?, if_neg (not_lt.mpr (by linarith)), hr]
    · rw [toRat_of_positive hsign, toRat_of_positive hrsign, hrmagnitude]
  | true =>
    by_cases hfirst : v.exponent = 1 ∧ v.mantissa = 2 ^ 52
    · -- the sum is in the binade before, halfway between its last double and the even one that begins the next
      obtain ⟨negative, mantissa, exponent, hcanonical⟩ := v
      obtain ⟨rfl, rfl⟩ : exponent = 1 ∧ mantissa = 2 ^ 52 := hfirst
      obtain rfl : negative = true := hsign
      decide +kernel +revert
    · have hnext := magnitude_ge_next h hfirst
      obtain ⟨r, hr, hrsign, hrmagnitude⟩ :=
        nearest_of_half_away (q := v.magnitude - 1 / 2) h (by linarith) (by linarith) (by linarith) (by linarith) true
      refine hsuffices ⟨r, ?_, ?_⟩
      · rw [toRat_of_negative hsign, ofRat?, if_pos (by linarith), ← hr]
        congr 1
        ring
      · rw [toRat_of_negative hsign, toRat_of_negative hrsign, hrmagnitude]

/-- A whole number of 53 bits and a half is halfway between two doubles. -/
theorem nearest_add_half {m : ℕ} (hlow : 2 ^ 52 ≤ m) (hhigh : m < 2 ^ 53) (negative : Bool) :
    ∃ r, nearest negative (m + 1 / 2) = some r ∧ r.negative = negative ∧
      r.magnitude = ((if m % 2 = 0 then m else m + 1 : ℕ) : ℚ) := by
  have hlowq : (2 : ℚ) ^ 52 ≤ m := by exact_mod_cast hlow
  have hhighq : (m : ℚ) + 1 ≤ 2 ^ 53 := by exact_mod_cast hhigh
  have hpos : (0 : ℚ) < m + 1 / 2 := by positivity
  have hspacing : spacing (m + 1 / 2) = 0 := by
    have hle : spacing (m + 1 / 2) ≤ 0 := spacing_le hpos (by decide) (by
      rw [zero_add]
      exact_mod_cast (show (m : ℚ) + 1 / 2 < 2 ^ 53 by linarith))
    have hge : 0 ≤ spacing (m + 1 / 2) := le_spacing (by
      rw [zero_add]
      exact_mod_cast (show (2 : ℚ) ^ 52 ≤ m + 1 / 2 by linarith))
    omega
  have hround : roundHalfEven ((m + 1 / 2) * 2 ^ (-spacing (m + 1 / 2))) = if m % 2 = 0 then m else m + 1 := by
    rw [hspacing, neg_zero, zpow_zero, mul_one, roundHalfEven_half]
  have hbits : (if m % 2 = 0 then m else m + 1) ≤ 2 ^ 53 := by split <;> omega
  have hbound : ((if m % 2 = 0 then m else m + 1 : ℕ) : ℚ) * 2 ^ spacing (m + 1 / 2) < 2 ^ (1024 : ℤ) := by
    rw [hspacing, zpow_zero, mul_one]
    calc ((if m % 2 = 0 then m else m + 1 : ℕ) : ℚ) ≤ 2 ^ (53 : ℤ) := by exact_mod_cast hbits
      _ < 2 ^ (1024 : ℤ) := zpow_lt_zpow_right₀ one_lt_two (by decide)
  obtain ⟨r, hr, hsign, hmagnitude⟩ := nearest_of_steps negative hpos hround hbound
  rw [hspacing, zpow_zero, mul_one] at hmagnitude
  exact ⟨r, hr, hsign, hmagnitude⟩

/-- An odd whole number of 53 bits moves up. -/
theorem toRat_toWhole_of_53_bits (h : v.exponent = 0) :
    v.toWhole.toRat = v.toRat + if v.mantissa % 2 = 1 then 1 else 0 := by
  have hlow : 2 ^ 52 ≤ v.mantissa := mantissa_ge h.ge
  have hhigh : v.mantissa < 2 ^ 53 := v.canonical.1
  have hmagnitude : v.magnitude = v.mantissa := by rw [magnitude, h, zpow_zero, mul_one]
  cases hsign : v.negative with
  | false =>
    obtain ⟨r, hr, hrsign, hrmagnitude⟩ := nearest_add_half hlow hhigh false
    have hsum : ofRat? (v.toRat + 1 / 2) = some r := by
      rw [toRat_of_positive hsign, hmagnitude, ofRat?, if_neg (not_lt.mpr (by positivity)), hr]
    have hvalue : r.toRat = ((if v.mantissa % 2 = 0 then v.mantissa else v.mantissa + 1 : ℕ) : ℤ) := by
      rw [toRat_of_positive hrsign, hrmagnitude, Int.cast_natCast]
    rw [toRat_toWhole_of_sum hsum, hvalue, Rat.floor_intCast, toRat_of_positive hsign, hmagnitude]
    rcases Nat.mod_two_eq_zero_or_one v.mantissa with hm | hm <;> simp [hm]
  | true =>
    rcases hlow.lt_or_eq with hlow | hfirst
    · -- the sum is a half above the whole number before
      obtain ⟨k, hk⟩ : ∃ k, v.mantissa = k + 1 := ⟨v.mantissa - 1, by omega⟩
      obtain ⟨r, hr, hrsign, hrmagnitude⟩ := nearest_add_half (m := k) (by omega) (by omega) true
      have hsum : ofRat? (v.toRat + 1 / 2) = some r := by
        have hnegative : -((k + 1 : ℕ) : ℚ) + 1 / 2 < 0 := by
          push_cast
          linarith [(Nat.cast_nonneg k : (0 : ℚ) ≤ k)]
        rw [toRat_of_negative hsign, hmagnitude, hk, ofRat?, if_pos hnegative, ← hr]
        congr 1
        push_cast
        ring
      have hvalue : r.toRat = ((-((if k % 2 = 0 then k else k + 1 : ℕ) : ℤ) : ℤ) : ℚ) := by
        rw [toRat_of_negative hrsign, hrmagnitude, Int.cast_neg, Int.cast_natCast]
      rw [toRat_toWhole_of_sum hsum, hvalue, Rat.floor_intCast, toRat_of_negative hsign, hmagnitude, hk]
      rcases Nat.mod_two_eq_zero_or_one k with hm | hm
      · have hodd : (k + 1) % 2 = 1 := by omega
        simp [hm, hodd]
      · have heven : (k + 1) % 2 ≠ 1 := by omega
        simp [hm, heven]
    · obtain ⟨negative, mantissa, exponent, hcanonical⟩ := v
      obtain rfl : exponent = 0 := h
      obtain rfl : negative = true := hsign
      obtain rfl : 2 ^ 52 = mantissa := hfirst
      decide +kernel +revert

theorem abs_toRat (d : Double) : |d.toRat| = d.magnitude := by
  unfold toRat
  split
  · rw [abs_neg, abs_of_nonneg d.magnitude_nonneg]
  · exact abs_of_nonneg d.magnitude_nonneg

/-- Below 54 bits the floor of the sum is too. -/
theorem abs_floor_add_half_lt (h : |v.toRat| < 2 ^ 53) : |(v.toRat + 1 / 2).floor| < 2 ^ 53 := by
  rcases lt_or_ge v.exponent 0 with hexponent | hexponent
  · obtain ⟨hlow, hhigh⟩ := abs_lt.mp (abs_toRat_lt hexponent)
    have hle : (-2 ^ 52 : ℤ) ≤ (v.toRat + 1 / 2).floor := Rat.le_floor_iff.mpr (by push_cast; linarith)
    have hge : (v.toRat + 1 / 2).floor < (2 ^ 52 + 1 : ℤ) := by
      have hsum : v.toRat + 1 / 2 < 2 ^ 52 + 1 := by linarith
      exact_mod_cast (Rat.floor_le _).trans_lt hsum
    rw [abs_lt]
    omega
  · have hcast : |((v.toRat + 1 / 2).floor : ℚ)| < 2 ^ 53 := by
      rwa [floor_add_half (toRat_eq_floor hexponent)]
    exact_mod_cast hcast

/-! ## The whole number -/

/-- The sum moves to the next whole number in two cases, and in no other. -/
theorem toRat_toWhole (v : Double) : v.toWhole.toRat = (v.toRat + 1 / 2).floor + if v.Slips then 1 else 0 := by
  by_cases hbelow : v = belowHalf
  · subst hbelow
    decide +kernel
  have hslips : v.Slips ↔ v.exponent = 0 ∧ v.mantissa % 2 = 1 := or_iff_right hbelow
  rcases lt_trichotomy v.exponent 0 with hexponent | hexponent | hexponent
  · rw [if_neg fun h => hexponent.ne (hslips.mp h).1, add_zero]
    rcases le_or_gt v.exponent (-54) with hsmall | hfraction
    · exact toRat_toWhole_of_small hsmall hbelow
    · exact toRat_toWhole_of_fraction (j := (-1 - v.exponent).toNat) (by omega) (by omega)
  · rw [toRat_toWhole_of_53_bits hexponent, floor_add_half (toRat_eq_floor hexponent.ge)]
    simp only [hslips, hexponent, true_and]
  · rw [if_neg fun h => hexponent.ne' (hslips.mp h).1, add_zero, toRat_toWhole_of_great hexponent,
      floor_add_half (toRat_eq_floor hexponent.le)]

end Double

/-! ## Its digits -/

namespace Decimal

theorem digitChars_mul_ten {n : ℕ} (h : n ≠ 0) : digitChars (n * 10) = digitChars n ++ ['0'] := by
  have hten : ¬ n * 10 < 10 := by omega
  rw [digitChars, Nat.toDigits_eq_if (by decide), if_neg hten, Nat.mul_div_cancel n (by decide), Nat.mul_mod_left]
  rfl

/-- Zeros at the end are digits of the number. -/
theorem digitChars_mul_pow {n : ℕ} (h : n ≠ 0) (k : ℕ) :
    digitChars (n * 10 ^ k) = digitChars n ++ List.replicate k '0' := by
  induction k with
  | zero => simp
  | succ k ih =>
    have hpos : n * 10 ^ k ≠ 0 := Nat.mul_ne_zero h (by positivity)
    rw [pow_succ, ← Nat.mul_assoc, digitChars_mul_ten hpos, ih, List.append_assoc, ← List.replicate_succ']

/-- No zero is left at the end. -/
theorem trimZeros_digits {fuel : ℕ} {c : Decimal} (h : c.digits ≠ 0) (hfuel : c.digits < 10 ^ fuel) :
    (trimZeros fuel c).digits % 10 ≠ 0 := by
  induction fuel generalizing c with
  | zero =>
    rw [pow_zero] at hfuel
    omega
  | succ fuel ih =>
    rw [trimZeros]
    split
    · rw [pow_succ] at hfuel
      exact ih (by simp only; omega) (by simp only; omega)
    · rename_i hzero
      exact fun hmod => hzero ⟨h, hmod⟩

theorem trimmed_digits {c : Decimal} (h : c.digits ≠ 0) : c.trimmed.digits % 10 ≠ 0 := by
  refine trimZeros_digits h ?_
  have := (digitChars_bounds h).2
  rw [zpow_natCast] at this
  exact_mod_cast this

/-- A whole number has no digit after the point but zeros. -/
theorem exponent_nonneg {c : Decimal} {n : ℕ} (h : c.toRat = n) (hdigits : c.digits % 10 ≠ 0) : 0 ≤ c.exponent := by
  by_contra hneg
  obtain ⟨k, hk⟩ : ∃ k : ℕ, c.exponent = -((k + 1 : ℕ) : ℤ) := ⟨(-c.exponent - 1).toNat, by omega⟩
  have hten : (10 : ℚ) ^ (k + 1) ≠ 0 := by positivity
  rw [toRat, hk, zpow_neg, zpow_natCast, ← div_eq_mul_inv, div_eq_iff hten] at h
  have hwhole : c.digits = n * 10 ^ k * 10 := by
    rw [pow_succ] at h
    rw [Nat.mul_assoc]
    exact_mod_cast h
  omega

/-- The layout of a decimal without zeros at its end is a run of digits only if it is the number that they denote. -/
theorem plain_eq_digitChars_iff {c : Decimal} {n : ℕ} (hdigits : c.digits % 10 ≠ 0) :
    c.plain = digitChars n ↔ c.toRat = n := by
  constructor
  · intro h
    have hvalue := toRat_ofPlain c
    rw [h, ofPlain_whole fun d => isDigit_of_mem_digitChars, ofDigitChars_digitChars] at hvalue
    rw [← hvalue, toRat, zpow_zero, mul_one]
  · intro h
    have hexponent := exponent_nonneg h hdigits
    have hvalue : c.digits * 10 ^ c.exponent.toNat = n := by
      have hpow : (10 : ℚ) ^ c.exponent = 10 ^ c.exponent.toNat := by
        rw [← zpow_natCast, Int.toNat_of_nonneg hexponent]
      rw [toRat, hpow] at h
      exact_mod_cast h
    have hpos : c.digits ≠ 0 := by omega
    rw [plain, if_pos hexponent, ← digitChars_mul_pow hpos, hvalue]

end Decimal

namespace Double

variable {d : Double} {n : ℕ}

theorem exponent_of_onGrid? {tie : Tie} {e : ℤ} {c : Decimal} (h : onGrid? tie d e = some c) : c.exponent = e := by
  simp only [onGrid?] at h
  split at h
  · cases h
  · cases h
    rfl
  · cases h
    rfl
  · split at h
    · cases h
      rfl
    · split at h
      · cases h
        rfl
      · cases tie with
        | up =>
          cases h
          rfl
        | toEven =>
          obtain rfl := Option.some.inj h
          split <;> rfl

/-- A whole number is on the grid of whole numbers. -/
theorem isSome_onGrid? (tie : Tie) (h : d.magnitude = n) : (onGrid? tie d 0).isSome = true := by
  have hread : d.readsFrom ⟨n, 0⟩ = true := by
    refine decide_eq_true (ofDecimal?_of_toRat_magnitude ?_)
    rw [h, Decimal.toRat, zpow_zero, mul_one]
  have hbelow : ((n : ℚ)).floor.toNat = n := by
    rw [← Int.cast_natCast, Rat.floor_intCast, Int.toNat_natCast]
  have hpart : ((n : ℚ) - n < 1 / 2) := by norm_num
  simp only [onGrid?, h, neg_zero, zpow_zero, mul_one, hbelow, hread]
  cases d.readsFrom ⟨n + 1, 0⟩ with
  | false => rfl
  | true => simp only [if_pos hpart, Option.isSome_some]

/-- Whole numbers of at most 53 bits are doubles, so no other whole number reads as one of them. -/
theorem toRat_eq_of_readsFrom {c : Decimal} (h : d.magnitude = n) (hn : n < 2 ^ 53) (hexponent : 0 ≤ c.exponent)
    (hread : ofDecimal? d.negative c = some d) : c.toRat = d.magnitude := by
  obtain ⟨j, hj⟩ : ∃ j : ℕ, c.toRat = j := by
    refine ⟨c.digits * 10 ^ c.exponent.toNat, ?_⟩
    push_cast
    rw [Decimal.toRat, ← zpow_natCast, Int.toNat_of_nonneg hexponent]
  by_cases hdigits : c.digits = 0
  · rw [ofDecimal?, if_pos hdigits] at hread
    rw [Decimal.digits_eq_zero_iff.mp hdigits, ← Option.some.inj hread]
    simp [magnitude, zero]
  · have hpos := Decimal.toRat_pos hdigits
    have hleading : 0 ≤ c.leading := by
      have := List.length_pos_of_ne_nil (Decimal.digitChars_ne_nil c.digits)
      rw [Decimal.leading]
      omega
    have hnearest : nearest d.negative c.toRat = some d := by
      rw [ofDecimal?, if_neg hdigits] at hread
      split at hread
      · cases hread
      · rwa [if_neg (by omega)] at hread
    rcases le_or_gt j (2 ^ 53) with hbits | hbits
    · obtain ⟨w, hsign, hw⟩ := exists_magnitude d.negative hbits (e := 0) (by decide) (by decide)
      rw [zpow_zero, mul_one, ← hj] at hw
      have hself := nearest_magnitude w
      rw [hsign, hw, hnearest] at hself
      rw [Option.some.inj hself, hw]
    · obtain ⟨w, -, hw⟩ := exists_magnitude d.negative (le_refl (2 ^ 53)) (e := 0) (by decide) (by decide)
      rw [zpow_zero, mul_one] at hw
      have hle : w.magnitude ≤ c.toRat := by
        rw [hw, hj]
        exact_mod_cast hbits.le
      have habove := le_nearest hpos hnearest hle
      rw [hw, h] at habove
      have : 2 ^ 53 ≤ n := by exact_mod_cast habove
      omega

theorem leadingDigit_natCast (hn : n ≠ 0) : leadingDigit (n : ℚ) = ((Decimal.digitChars n).length : ℤ) - 1 := by
  have hguess := (Decimal.digitChars_bounds hn).1
  have hone : (Decimal.digitChars 1).length = 1 := rfl
  simp only [leadingDigit, Rat.num_natCast, Int.natAbs_natCast, Rat.den_natCast, hone, Nat.cast_one]
  exact if_pos hguess

/-- A whole number of at most 53 bits is written with all of its digits. -/
theorem toRat_shortest_of_whole (tie : Tie) (h : d.magnitude = n) (hn : n < 2 ^ 53) :
    (d.shortest tie).toRat = d.magnitude := by
  unfold shortest
  split
  · rename_i hzero
    simp [Decimal.toRat, magnitude, beq_iff_eq.mp hzero]
  · rename_i hzero
    have hn0 : n ≠ 0 := by
      rintro rfl
      have hpos := magnitude_pos (d := d) (by simpa [isZero] using hzero)
      exact hpos.ne' (h.trans Nat.cast_zero)
    obtain ⟨k, hk⟩ := Nat.exists_eq_add_of_le' (List.length_pos_of_ne_nil (Decimal.digitChars_ne_nil n))
    have hlead : leadingDigit d.magnitude = k := by
      rw [h, leadingDigit_natCast hn0, hk]
      simp
    have hk17 : k < 17 := by
      have hlow := (Decimal.digitChars_bounds hn0).1
      have hhigh : (n : ℚ) < 10 ^ (17 : ℤ) := by
        have : n < 10 ^ 17 := by omega
        exact_mod_cast this
      have := Decimal.exponent_lt hlow hhigh
      omega
    -- the search is over when it comes to the grid of whole numbers, and before that it has met nothing but whole numbers
    have hrange : List.range 17 = List.range (k + 1) ++ (List.range (16 - k)).map (k + 1 + ·) := by
      rw [← List.range_add, show k + 1 + (16 - k) = 17 by omega]
    have hfound : ((List.range (k + 1)).findSome? fun (more : Nat) => onGrid? tie d (k - (more : Int))).isSome := by
      rw [List.findSome?_isSome_iff]
      refine ⟨k, List.mem_range.mpr (Nat.lt_succ_self k), ?_⟩
      rw [sub_self]
      exact isSome_onGrid? tie h
    obtain ⟨c, hc⟩ := Option.isSome_iff_exists.mp hfound
    obtain ⟨more, hmore, hgrid⟩ := List.exists_of_findSome?_eq_some hc
    have hexponent : 0 ≤ c.exponent := by
      have := List.mem_range.mp hmore
      rw [exponent_of_onGrid? hgrid]
      omega
    simp only [hlead, hrange, List.findSome?_append, hc, Option.some_or, Option.getD_some]
    rw [Decimal.toRat_trimmed, toRat_eq_of_readsFrom h hn hexponent (readsFrom_of_onGrid? hgrid)]

/-- What is written ends in no zero, if it is not zero itself. -/
theorem shortest_digits_mod (tie : Tie) (hd : d.isZero = false) : (d.shortest tie).digits % 10 ≠ 0 := by
  have hpos : (d.shortest tie).digits ≠ 0 := fun hdigits => by
    have hread := ofDecimal?_shortest tie d
    rw [ofDecimal?, if_pos hdigits] at hread
    rw [← Option.some.inj hread] at hd
    exact absurd hd (by simp [isZero, zero])
  rw [shortest, if_neg (by simp [hd])] at hpos ⊢
  refine Decimal.trimmed_digits fun hdigits => hpos ?_
  rw [Decimal.digits_eq_zero_iff, Decimal.toRat_trimmed]
  exact Decimal.digits_eq_zero_iff.mp hdigits

end Double

/-- A whole number is written as its decimal text exactly if its shortest decimal is itself. -/
theorem Literal.number_eq_intChars_iff {d : Double} {n : ℤ} (h : d.toRat = n) :
    number d = String.ofList (Decimal.intChars n) ↔ (d.shortest .up).toRat = d.magnitude := by
  cases hzero : d.isZero with
  | true =>
    have hn : n = 0 := by
      rw [Double.toRat_eq_zero_iff.mpr hzero] at h
      exact_mod_cast h.symm
    subst hn
    have hmagnitude : d.magnitude = 0 := by simp [Double.magnitude, beq_iff_eq.mp hzero]
    refine iff_of_true ?_ ?_
    · rw [number, if_pos hzero]
      decide
    · rw [Double.shortest, if_pos hzero, hmagnitude]
      simp [Decimal.toRat]
  | false =>
    have hpos : 0 < d.magnitude := Double.magnitude_pos (by simpa [Double.isZero] using hzero)
    have hmagnitude : d.magnitude = n.natAbs := by rw [← d.abs_toRat, h, Nat.cast_natAbs, Int.cast_abs]
    have hsign : d.negative = true ↔ n < 0 := by
      have hcast : n < 0 ↔ d.toRat < 0 := by
        rw [h]
        exact_mod_cast Iff.rfl
      rw [hcast]
      refine ⟨fun hnegative => ?_, Double.negative_of_toRat_neg⟩
      rw [Double.toRat_of_negative hnegative]
      linarith
    rw [hmagnitude, ← Decimal.plain_eq_digitChars_iff (Double.shortest_digits_mod .up hzero), number,
      if_neg (by simp [hzero]), Decimal.intChars]
    by_cases hnegative : n < 0
    · rw [if_pos (hsign.mpr hnegative), if_pos hnegative, ← String.toList_inj]
      simp
    · rw [if_neg (mt hsign.mp hnegative), if_neg hnegative, String.ofList_inj]

/-- A whole number of at most 53 bits is written with all of its digits. -/
theorem Literal.pixels_eq_intChars {v : Double} {n : ℤ} (h : v.toWhole.toRat = n) (hn : |n| < 2 ^ 53) :
    pixels v = String.ofList (Decimal.intChars n) := by
  refine (number_eq_intChars_iff h).mpr (Double.toRat_shortest_of_whole (n := n.natAbs) .up ?_ ?_)
  · rw [← Double.abs_toRat, h, Nat.cast_natAbs, Int.cast_abs]
  · rw [Int.abs_eq_natAbs] at hn
    exact_mod_cast hn

/-! ## Coordinates -/

/-- A coordinate that slips is written as the whole number after its own. -/
theorem pixels_of_slips {v : Double} (h : v.Slips) :
    Literal.pixels v = String.ofList (Decimal.intChars ((v.toRat + 1 / 2).floor + 1)) := by
  have hvalue : v.toWhole.toRat = ((v.toRat + 1 / 2).floor + 1 : ℤ) := by
    rw [Double.toRat_toWhole, if_pos h, Int.cast_add, Int.cast_one]
  rcases h with rfl | ⟨hexponent, -⟩
  · decide +kernel
  · have hfloor : (v.toRat + 1 / 2).floor = v.steps := by
      have hwhole : v.toRat = v.steps := by rw [Double.toRat_eq_steps, hexponent, zpow_zero, mul_one]
      exact_mod_cast (Double.floor_add_half (Double.toRat_eq_floor hexponent.ge)).trans hwhole
    have hsteps := abs_lt.mp v.abs_steps_lt
    by_cases hlast : v.steps = 2 ^ 53 - 1
    · -- only the whole number after the last of 53 bits has more
      obtain ⟨negative, mantissa, exponent, hcanonical⟩ := v
      obtain rfl : exponent = 0 := hexponent
      cases negative with
      | true =>
        simp only [Double.steps, if_true] at hlast
        omega
      | false =>
        simp only [Double.steps, Bool.false_eq_true, if_false] at hlast
        obtain rfl : mantissa = 0x1FFFFFFFFFFFFF := by omega
        decide +kernel +revert
    · refine Literal.pixels_eq_intChars hvalue ?_
      rw [hfloor, abs_lt]
      omega

/-- A coordinate is written as the nearest whole number, a half upward; a great one as the shortest decimal that reads
    as it, which need not have its digits. -/
theorem pixels_round_half_up {v : Double} (h : ¬ v.Slips) :
    v.toWhole.toRat = (v.toRat + 1 / 2).floor ∧
    (v.toRat = v.toRat.floor → Literal.pixels v = Literal.number v) ∧
    (2 ^ 53 ≤ |v.toRat| → v.toRat = v.toRat.floor) ∧
    (Literal.pixels v = String.ofList (Decimal.intChars (v.toRat + 1 / 2).floor) ↔
      |v.toRat| < 2 ^ 53 ∨ (v.shortest .up).toRat = v.magnitude) := by
  have hvalue : v.toWhole.toRat = (v.toRat + 1 / 2).floor := by rw [Double.toRat_toWhole, if_neg h, add_zero]
  have hwhole : v.toRat = v.toRat.floor → v.toWhole.toRat = v.toRat := fun hw => by
    rw [hvalue, Double.floor_add_half hw]
  have hgreat : 2 ^ 53 ≤ |v.toRat| → v.toRat = v.toRat.floor := fun hgreat => by
    refine Double.toRat_eq_floor (le_of_not_gt fun hneg => ?_)
    linarith [Double.abs_toRat_lt hneg]
  refine ⟨hvalue, fun hw => Double.number_congr (hwhole hw), hgreat, ?_⟩
  by_cases hbits : |v.toRat| < 2 ^ 53
  · exact iff_of_true (Literal.pixels_eq_intChars hvalue (Double.abs_floor_add_half_lt hbits)) (.inl hbits)
  · have hzero : ¬ v.isZero = true := fun hzero => hbits (by
      rw [Double.toRat_eq_zero_iff.mpr hzero]
      norm_num)
    have hsame : v.toWhole = v := by
      have := Double.same_iff.mpr (hwhole (hgreat (not_lt.mp hbits)))
      simpa [Double.same, hzero] using this
    rw [Literal.pixels, Literal.number_eq_intChars_iff hvalue, hsame, or_iff_right hbits]

/-- Minus two and a half goes up. -/
theorem pixels_of_minus_two_and_a_half : Literal.pixels ⟨true, 0x14000000000000, -51, by decide⟩ = "-2" := by
  have hsmall : |Double.toRat ⟨true, 0x14000000000000, -51, by decide⟩| < 2 ^ 53 := by decide +kernel
  have hfloor : (Double.toRat ⟨true, 0x14000000000000, -51, by decide⟩ + 1 / 2).floor = -2 := by decide +kernel
  rw [(pixels_round_half_up (v := ⟨true, 0x14000000000000, -51, by decide⟩) (by decide)).2.2.2.mpr (.inl hsmall),
    hfloor]
  rfl

/-- Two to the power 60 ends in 6976, and is written as 1152921504606847000. Beside it stands the slip of the sum: the
    double before one half is written as 1, and an odd whole number of 53 bits as the even number after it. -/
theorem a_great_coordinate_loses_digits :
    (¬ ∀ v : Double, Literal.pixels v = String.ofList (Decimal.intChars (v.toRat + 1 / 2).floor)) ∧
      (Double.belowHalf.toRat = 1 / 2 - 2 ^ (-54 : ℤ) ∧ Literal.pixels Double.belowHalf = "1") ∧
      ∀ v : Double, v.exponent = 0 → v.mantissa % 2 = 1 →
        v.toRat = v.toRat.floor ∧ Literal.pixels v = String.ofList (Decimal.intChars (v.toRat.floor + 1)) := by
  refine ⟨fun h => ?_, ⟨by decide +kernel, by decide +kernel⟩, fun v hexponent hodd => ?_⟩
  · exact absurd (h ⟨false, 0x10000000000000, 8, by decide⟩) (by decide +kernel)
  · have hwhole := Double.toRat_eq_floor hexponent.ge
    have hfloor : (v.toRat + 1 / 2).floor = v.toRat.floor := by
      have := (Double.floor_add_half hwhole).trans hwhole
      exact_mod_cast this
    refine ⟨hwhole, ?_⟩
    rw [pixels_of_slips (.inr ⟨hexponent, hodd⟩), hfloor]

end SceneScript
