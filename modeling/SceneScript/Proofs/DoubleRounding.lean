/-
  SceneScript.Proofs.DoubleRounding — rounding keeps the order.

  A rational is rounded to a whole number of the steps of the grid around it. A double that
  is not below the rational is a whole number of these steps as well, and one that is not
  above it is too, unless it comes before all that the rational can be rounded to. So no
  double is stepped over (`ofRat?_between`): what lies between two doubles stays between
  them, and a rational that is a double is rounded to itself. A rational less than half a
  step away from a double goes there (`nearest_of_near`).

  The doubles hold each multiple of a power of two by a number of at most 53 bits
  (`exists_toRat`), and with a double its floor (`toRat_floor`).
-/
import Mathlib.Algebra.Order.Archimedean.Basic
import Mathlib.Data.Rat.Floor
import SceneScript.Proofs.DoubleGrid

namespace SceneScript.Double

/-! ## Whole numbers of steps -/

theorem floor_nat_add {n : ℕ} {t : ℚ} (h0 : 0 ≤ t) (h1 : t < 1) : ((n : ℚ) + t).floor = n := by
  refine (Int.floor_eq_iff (a := (n : ℚ) + t)).mpr ⟨?_, ?_⟩
  · push_cast
    linarith
  · push_cast
    linarith

theorem roundHalfEven_add {n : ℕ} {t : ℚ} (h0 : 0 ≤ t) (h1 : t < 1) :
    roundHalfEven (n + t) = if t < 1 / 2 then n else if 1 / 2 < t then n + 1 else if n % 2 = 0 then n else n + 1 := by
  simp only [roundHalfEven, floor_nat_add h0 h1, Int.toNat_natCast, add_sub_cancel_left]

/-- A rational that is not negative is a natural number and a part of one. -/
theorem exists_nat_add {q : ℚ} (h : 0 ≤ q) : ∃ (n : ℕ) (t : ℚ), q = n + t ∧ 0 ≤ t ∧ t < 1 := by
  refine ⟨⌊q⌋₊, q - ⌊q⌋₊, by ring, ?_, ?_⟩
  · linarith [Nat.floor_le h]
  · linarith [Nat.lt_floor_add_one q]

theorem roundHalfEven_le {n : ℕ} {q : ℚ} (h0 : 0 ≤ q) (h : q ≤ n) : roundHalfEven q ≤ n := by
  obtain ⟨k, t, rfl, ht0, ht1⟩ := exists_nat_add h0
  rw [roundHalfEven_add ht0 ht1]
  have hk : k ≤ n := by
    have : (k : ℚ) ≤ n := by linarith
    exact_mod_cast this
  -- with a part of one left, the next number is not too great either
  have hnext : 0 < t → k + 1 ≤ n := fun ht => by
    have : (k : ℚ) < n := by linarith
    exact_mod_cast this
  split
  · exact hk
  · have := hnext (by linarith)
    split
    · exact this
    · split
      · exact hk
      · exact this

theorem le_roundHalfEven {n : ℕ} {q : ℚ} (h : n ≤ q) : n ≤ roundHalfEven q := by
  obtain ⟨k, t, rfl, ht0, ht1⟩ := exists_nat_add ((Nat.cast_nonneg n).trans h)
  rw [roundHalfEven_add ht0 ht1]
  have hk : n ≤ k := by
    have : (n : ℚ) < k + 1 := by linarith
    have : n < k + 1 := by exact_mod_cast this
    omega
  split_ifs <;> omega

theorem roundHalfEven_of_near {n : ℕ} {q : ℚ} (h0 : 0 ≤ q) (hlow : n - 1 / 2 < q) (hhigh : q < n + 1 / 2) :
    roundHalfEven q = n := by
  obtain ⟨k, t, rfl, ht0, ht1⟩ := exists_nat_add h0
  rw [roundHalfEven_add ht0 ht1]
  have hk : (k : ℚ) < n + 1 := by linarith
  have hn : (n : ℚ) < k + 2 := by linarith
  norm_cast at hk hn
  obtain rfl | rfl : n = k ∨ n = k + 1 := by omega
  · rw [if_pos (by linarith)]
  · push_cast at hlow
    rw [if_neg (by linarith), if_pos (by linarith)]

/-- Halves go to the even neighbour. -/
theorem roundHalfEven_half (n : ℕ) : roundHalfEven (n + 1 / 2) = if n % 2 = 0 then n else n + 1 := by
  rw [roundHalfEven_add (by norm_num) (by norm_num), if_neg (by norm_num), if_neg (by norm_num)]

/-! ## The grid around a rational -/

theorem spacing_bounds {q : ℚ} (hq : 0 < q) :
    -1074 ≤ spacing q ∧ q < 2 ^ (spacing q + 53) ∧ (spacing q = -1074 ∨ (2 : ℚ) ^ (spacing q + 52) ≤ q) := by
  obtain ⟨k, hlow, hhigh⟩ := exists_mem_Ico_zpow hq one_lt_two
  have hspacing : spacing q = if k - 52 < -1074 then -1074 else k - 52 := by
    rw [spacing, leadingBit_eq hlow hhigh]
  rw [hspacing]
  split
  · refine ⟨le_refl _, hhigh.trans_le (zpow_le_zpow_right₀ one_le_two (by omega)), .inl rfl⟩
  · refine ⟨by omega, hhigh.trans_le (zpow_le_zpow_right₀ one_le_two (by omega)), .inr ?_⟩
    rwa [sub_add_cancel]

theorem spacing_le {q : ℚ} {e : ℤ} (hq : 0 < q) (he : -1074 ≤ e) (h : q < 2 ^ (e + 53)) : spacing q ≤ e := by
  obtain ⟨-, -, hleast | hlow⟩ := spacing_bounds hq
  · omega
  · have := exponent_lt hlow h
    omega

theorem le_spacing {q : ℚ} {e : ℤ} (h : (2 : ℚ) ^ (e + 52) ≤ q) : e ≤ spacing q := by
  obtain ⟨-, hhigh, -⟩ := spacing_bounds ((two_zpow_pos _).trans_le h)
  have := exponent_lt h hhigh
  omega

theorem magnitude_nonneg (d : Double) : 0 ≤ d.magnitude := mul_nonneg (Nat.cast_nonneg _) (two_zpow_pos _).le

theorem magnitude_lt (d : Double) : d.magnitude < 2 ^ (d.exponent + 53) := by
  have hbits : (d.mantissa : ℚ) < 2 ^ (53 : ℤ) := by exact_mod_cast d.canonical.1
  rw [add_comm, zpow_add₀ two_ne_zero]
  exact mul_lt_mul_of_pos_right hbits (two_zpow_pos _)

theorem magnitude_lt_greatest (d : Double) : d.magnitude < 2 ^ (1024 : ℤ) := by
  have hexponent : d.exponent + 53 ≤ 1024 := by
    have := d.canonical.2.2.1
    omega
  exact d.magnitude_lt.trans_le (zpow_le_zpow_right₀ one_le_two hexponent)

/-- A double is a whole number of smaller steps. -/
theorem magnitude_eq_steps {d : Double} {e : ℤ} (h : e ≤ d.exponent) : ∃ k : ℕ, d.magnitude = k * 2 ^ e := by
  refine ⟨d.mantissa * 2 ^ (d.exponent - e).toNat, ?_⟩
  have hsteps : (2 : ℚ) ^ (d.exponent - e).toNat * 2 ^ e = 2 ^ d.exponent := by
    rw [← zpow_natCast, Int.toNat_of_nonneg (by omega), ← zpow_add₀ two_ne_zero, sub_add_cancel]
  push_cast
  rw [mul_assoc, hsteps]
  rfl

/-- A double is a whole number of the steps around what is not above it. -/
theorem spacing_le_exponent {q : ℚ} {d : Double} (hq : 0 < q) (h : q ≤ d.magnitude) : spacing q ≤ d.exponent :=
  spacing_le hq d.canonical.2.1 (h.trans_lt d.magnitude_lt)

/-! ## Rounding -/

theorem scaled_eq {q : ℚ} (e : ℤ) : q * 2 ^ (-e) * 2 ^ e = q := by
  rw [mul_assoc, ← zpow_add₀ two_ne_zero, neg_add_cancel, zpow_zero, mul_one]

theorem le_scaled {q : ℚ} {e : ℤ} {n : ℕ} (h : n * 2 ^ e ≤ q) : n ≤ q * 2 ^ (-e) := by
  rw [← scaled_eq (q := q) e] at h
  exact le_of_mul_le_mul_right h (two_zpow_pos e)

theorem scaled_le {q : ℚ} {e : ℤ} {n : ℕ} (h : q ≤ n * 2 ^ e) : q * 2 ^ (-e) ≤ n := by
  rw [← scaled_eq (q := q) e] at h
  exact le_of_mul_le_mul_right h (two_zpow_pos e)

theorem magnitude_of_ofPair? {negative : Bool} {m : ℕ} {e : ℤ} {r : Double} (h : ofPair? negative m e = some r) :
    r.magnitude = m * 2 ^ e := by
  simp only [ofPair?, Option.dite_none_right_eq_some, Option.some.injEq] at h
  obtain ⟨-, rfl⟩ := h
  by_cases hcarry : m = 0x20000000000000
  · simp only [magnitude, if_pos hcarry]
    rw [hcarry, zpow_add_one₀ two_ne_zero]
    push_cast
    ring
  · simp only [magnitude, if_neg hcarry]

/-- 53 bits are a mantissa, or carry into the next binade. -/
theorem ofPair?_eq_some {m : ℕ} {e : ℤ} (negative : Bool) (hm : m ≤ 2 ^ 53) (he : -1074 ≤ e)
    (hfull : e = -1074 ∨ 2 ^ 52 ≤ m) (hbound : (m : ℚ) * 2 ^ e < 2 ^ (1024 : ℤ)) :
    ∃ r, ofPair? negative m e = some r ∧ r.negative = negative ∧ r.magnitude = m * 2 ^ e := by
  have hgreatest : 2 ^ 52 ≤ m → e ≤ 971 := fun h => by
    have hlow : (2 : ℚ) ^ (52 + e) ≤ m * 2 ^ e := by
      rw [zpow_add₀ two_ne_zero]
      exact mul_le_mul_of_nonneg_right (by exact_mod_cast h) (two_zpow_pos e).le
    have := exponent_lt hlow hbound
    omega
  have hsome : ∃ r, ofPair? negative m e = some r ∧ r.negative = negative := by
    rcases hm.lt_or_eq with hlt | rfl
    · have hcanonical : Canonical m e := by
        refine ⟨hlt, he, ?_, hfull.symm⟩
        rcases hfull with rfl | h
        · decide
        · exact hgreatest h
      have hcarry : m ≠ 0x20000000000000 := ne_of_lt hlt
      exact ⟨⟨negative, m, e, hcanonical⟩, by simp only [ofPair?, if_neg hcarry, dif_pos hcanonical], rfl⟩
    · have hnext : e + 1 ≤ 971 := by
        have hlow : (2 : ℚ) ^ (53 + e) ≤ ((2 ^ 53 : ℕ) : ℚ) * 2 ^ e := by
          rw [zpow_add₀ two_ne_zero]
          exact mul_le_mul_of_nonneg_right (by norm_num) (two_zpow_pos e).le
        have := exponent_lt hlow hbound
        omega
      have hcanonical : Canonical 0x10000000000000 (e + 1) := ⟨by decide, by omega, hnext, .inl (Nat.le_refl _)⟩
      have hcarry : 2 ^ 53 = 0x20000000000000 := rfl
      exact ⟨⟨negative, 0x10000000000000, e + 1, hcanonical⟩,
        by simp only [ofPair?, hcarry, if_true, dif_pos hcanonical], rfl⟩
  obtain ⟨r, hr, hsign⟩ := hsome
  exact ⟨r, hr, hsign, magnitude_of_ofPair? hr⟩

theorem nearest_of_steps {q : ℚ} {n : ℕ} (negative : Bool) (hq : 0 < q)
    (hn : roundHalfEven (q * 2 ^ (-spacing q)) = n) (hbound : (n : ℚ) * 2 ^ spacing q < 2 ^ (1024 : ℤ)) :
    ∃ r, nearest negative q = some r ∧ r.negative = negative ∧ r.magnitude = n * 2 ^ spacing q := by
  obtain ⟨hleast, hhigh, hlow⟩ := spacing_bounds hq
  have hscaled : 0 ≤ q * 2 ^ (-spacing q) := mul_nonneg hq.le (two_zpow_pos _).le
  have hm : n ≤ 2 ^ 53 := by
    rw [← hn]
    refine roundHalfEven_le hscaled (scaled_le ?_)
    rw [add_comm, zpow_add₀ two_ne_zero] at hhigh
    exact_mod_cast hhigh.le
  have hfull : spacing q = -1074 ∨ 2 ^ 52 ≤ n := by
    refine hlow.imp_right fun h => ?_
    rw [← hn]
    refine le_roundHalfEven (le_scaled ?_)
    rw [add_comm, zpow_add₀ two_ne_zero] at h
    exact_mod_cast h
  rw [nearest, if_neg (not_le.mpr hq)]
  simp only [hn]
  exact ofPair?_eq_some negative hm hleast hfull hbound

/-- Less than half a step from a double, a rational is rounded to it. -/
theorem nearest_of_near {q : ℚ} {d : Double} (hq : 0 < q) (hsteps : spacing q ≤ d.exponent)
    (hlow : d.magnitude - 2 ^ spacing q / 2 < q) (hhigh : q < d.magnitude + 2 ^ spacing q / 2) (negative : Bool) :
    ∃ r, nearest negative q = some r ∧ r.negative = negative ∧ r.magnitude = d.magnitude := by
  obtain ⟨k, hk⟩ := magnitude_eq_steps hsteps
  have hstep := two_zpow_pos (spacing q)
  have hbound : (k : ℚ) * 2 ^ spacing q < 2 ^ (1024 : ℤ) := hk ▸ d.magnitude_lt_greatest
  have hround : roundHalfEven (q * 2 ^ (-spacing q)) = k := by
    refine roundHalfEven_of_near (mul_nonneg hq.le (two_zpow_pos _).le) ?_ ?_
    · refine lt_of_mul_lt_mul_right ?_ hstep.le
      rw [scaled_eq]
      linarith
    · refine lt_of_mul_lt_mul_right ?_ hstep.le
      rw [scaled_eq]
      linarith
  obtain ⟨r, hr, hsign, hmagnitude⟩ := nearest_of_steps negative hq hround hbound
  exact ⟨r, hr, hsign, hmagnitude.trans hk.symm⟩

theorem magnitude_of_nearest {negative : Bool} {q : ℚ} {r : Double} (hq : 0 < q) (h : nearest negative q = some r) :
    r.magnitude = roundHalfEven (q * 2 ^ (-spacing q)) * 2 ^ spacing q := by
  rw [nearest, if_neg (not_le.mpr hq)] at h
  exact magnitude_of_ofPair? h

/-- No double is stepped over: one that is not above a rational is not above what it is rounded to. -/
theorem le_nearest {negative : Bool} {q : ℚ} {a r : Double} (hq : 0 < q) (h : nearest negative q = some r)
    (ha : a.magnitude ≤ q) : a.magnitude ≤ r.magnitude := by
  have hstep := two_zpow_pos (spacing q)
  rw [magnitude_of_nearest hq h]
  rcases le_or_gt (spacing q) a.exponent with hsteps | hsteps
  · obtain ⟨j, hj⟩ := magnitude_eq_steps hsteps
    rw [hj]
    exact mul_le_mul_of_nonneg_right (by exact_mod_cast le_roundHalfEven (le_scaled (hj ▸ ha))) hstep.le
  · -- the steps around `a` are smaller, so it comes before the binade of `q`
    obtain ⟨-, -, hleast | hlow⟩ := spacing_bounds hq
    · have := a.canonical.2.1
      omega
    · rw [add_comm, zpow_add₀ two_ne_zero] at hlow
      have hfull : 2 ^ 52 ≤ roundHalfEven (q * 2 ^ (-spacing q)) :=
        le_roundHalfEven (le_scaled (by exact_mod_cast hlow))
      calc a.magnitude ≤ 2 ^ (a.exponent + 53) := a.magnitude_lt.le
        _ ≤ 2 ^ (52 + spacing q) := zpow_le_zpow_right₀ one_le_two (by omega)
        _ = 2 ^ (52 : ℤ) * 2 ^ spacing q := zpow_add₀ two_ne_zero _ _
        _ ≤ roundHalfEven (q * 2 ^ (-spacing q)) * 2 ^ spacing q :=
          mul_le_mul_of_nonneg_right (by exact_mod_cast hfull) hstep.le

/-- Below a double a rational is rounded to a double, and not to one above it. -/
theorem nearest_le {q : ℚ} {b : Double} (hq : 0 < q) (hb : q ≤ b.magnitude) (negative : Bool) :
    ∃ r, nearest negative q = some r ∧ r.negative = negative ∧ r.magnitude ≤ b.magnitude := by
  obtain ⟨k, hk⟩ := magnitude_eq_steps (spacing_le_exponent hq hb)
  have hround : roundHalfEven (q * 2 ^ (-spacing q)) ≤ k :=
    roundHalfEven_le (mul_nonneg hq.le (two_zpow_pos _).le) (scaled_le (hb.trans_eq hk))
  have hle : (roundHalfEven (q * 2 ^ (-spacing q)) : ℚ) * 2 ^ spacing q ≤ b.magnitude := by
    rw [hk]
    exact mul_le_mul_of_nonneg_right (by exact_mod_cast hround) (two_zpow_pos _).le
  obtain ⟨r, hr, hsign, hmagnitude⟩ := nearest_of_steps negative hq rfl (hle.trans_lt b.magnitude_lt_greatest)
  exact ⟨r, hr, hsign, hmagnitude.trans_le hle⟩

theorem toRat_of_negative {d : Double} (h : d.negative = true) : d.toRat = -d.magnitude := if_pos h

theorem toRat_of_positive {d : Double} (h : d.negative = false) : d.toRat = d.magnitude := by
  rw [toRat, h]
  exact if_neg Bool.false_ne_true

theorem negative_of_toRat_neg {d : Double} (h : d.toRat < 0) : d.negative = true := by
  by_contra hsign
  rw [toRat_of_positive (by simpa using hsign)] at h
  exact absurd h (not_lt.mpr d.magnitude_nonneg)

theorem positive_of_toRat_pos {d : Double} (h : 0 < d.toRat) : d.negative = false := by
  by_contra hsign
  rw [toRat_of_negative (by simpa using hsign)] at h
  linarith [d.magnitude_nonneg]

/-- What lies between two doubles stays between them. -/
theorem ofRat?_between {x : ℚ} {a b : Double} (ha : a.toRat ≤ x) (hb : x ≤ b.toRat) :
    ∃ r, ofRat? x = some r ∧ a.toRat ≤ r.toRat ∧ r.toRat ≤ b.toRat := by
  rcases lt_trichotomy x 0 with hx | rfl | hx
  · have hsign := negative_of_toRat_neg (ha.trans_lt hx)
    rw [toRat_of_negative hsign] at ha ⊢
    obtain ⟨r, hr, hrsign, hle⟩ := nearest_le (q := -x) (b := a) (by linarith) (by linarith) true
    refine ⟨r, by rw [ofRat?, if_pos hx, hr], ?_⟩
    rw [toRat_of_negative hrsign]
    refine ⟨by linarith, ?_⟩
    cases hbsign : b.negative with
    | true =>
      rw [toRat_of_negative hbsign] at hb ⊢
      linarith [le_nearest (a := b) (by linarith) hr (by linarith)]
    | false =>
      rw [toRat_of_positive hbsign]
      linarith [r.magnitude_nonneg, b.magnitude_nonneg]
  · have hzero : (zero false).toRat = 0 := by simp [toRat, magnitude, zero]
    exact ⟨zero false, rfl, hzero ▸ ha, hzero ▸ hb⟩
  · have hsign := positive_of_toRat_pos (hx.trans_le hb)
    rw [toRat_of_positive hsign] at hb ⊢
    obtain ⟨r, hr, hrsign, hle⟩ := nearest_le hx hb false
    refine ⟨r, by rw [ofRat?, if_neg (not_lt.mpr hx.le), hr], ?_⟩
    rw [toRat_of_positive hrsign]
    refine ⟨?_, hle⟩
    cases hasign : a.negative with
    | false =>
      rw [toRat_of_positive hasign] at ha ⊢
      exact le_nearest hx hr ha
    | true =>
      rw [toRat_of_negative hasign]
      linarith [r.magnitude_nonneg, a.magnitude_nonneg]

/-- A double is rounded to itself, up to the sign of a zero. -/
theorem ofRat?_toRat (d : Double) : ∃ r, ofRat? d.toRat = some r ∧ r.toRat = d.toRat := by
  obtain ⟨r, hr, hlow, hhigh⟩ := ofRat?_between (le_refl d.toRat) (le_refl d.toRat)
  exact ⟨r, hr, le_antisymm hhigh hlow⟩

/-! ## What is a double -/

/-- A mantissa that is too short for its exponent can be shifted. -/
theorem exists_magnitude (negative : Bool) {m : ℕ} {e : ℤ} (hm : m ≤ 2 ^ 53) (hleast : -1074 ≤ e) (hgreatest : e ≤ 970) :
    ∃ d : Double, d.negative = negative ∧ d.magnitude = m * 2 ^ e := by
  obtain ⟨places, hplaces⟩ : ∃ places : ℕ, e = places - 1074 := ⟨(e + 1074).toNat, by omega⟩
  have hbound : (m : ℚ) * 2 ^ e < 2 ^ (1024 : ℤ) := by
    calc (m : ℚ) * 2 ^ e ≤ 2 ^ (53 : ℤ) * 2 ^ (970 : ℤ) :=
          mul_le_mul (by exact_mod_cast hm) (zpow_le_zpow_right₀ one_le_two hgreatest) (two_zpow_pos _).le
            (two_zpow_pos _).le
      _ = 2 ^ (1023 : ℤ) := by rw [← zpow_add₀ two_ne_zero]; rfl
      _ < 2 ^ (1024 : ℤ) := zpow_lt_zpow_right₀ one_lt_two (by decide)
  induction places generalizing m e with
  | zero =>
    obtain ⟨r, -, hr⟩ := ofPair?_eq_some negative hm hleast (.inl (by simpa using hplaces)) hbound
    exact ⟨r, hr⟩
  | succ places ih =>
    rcases le_or_gt (2 ^ 52) m with hfull | hshort
    · obtain ⟨r, -, hr⟩ := ofPair?_eq_some negative hm hleast (.inr hfull) hbound
      exact ⟨r, hr⟩
    · have hshift : ((2 * m : ℕ) : ℚ) * 2 ^ (e - 1) = m * 2 ^ e := by
        rw [zpow_sub_one₀ two_ne_zero]
        push_cast
        ring
      rw [← hshift] at hbound ⊢
      exact ih (by omega) (by omega) (by omega) (by push_cast at hplaces; omega) hbound

/-- A whole number of at most 53 bits times a power of two. -/
theorem exists_toRat {n e : ℤ} (hn : |n| ≤ 2 ^ 53) (hleast : -1074 ≤ e) (hgreatest : e ≤ 970) :
    ∃ d : Double, d.toRat = n * 2 ^ e := by
  have habs : n.natAbs ≤ 2 ^ 53 := by
    rw [Int.abs_eq_natAbs] at hn
    exact_mod_cast hn
  rcases le_or_gt 0 n with hsign | hsign
  · obtain ⟨d, hd, hmagnitude⟩ := exists_magnitude false habs hleast hgreatest
    have hcast : ((n.natAbs : ℕ) : ℚ) = n := by
      rw [Nat.cast_natAbs, abs_of_nonneg hsign]
    exact ⟨d, by rw [toRat_of_positive hd, hmagnitude, hcast]⟩
  · obtain ⟨d, hd, hmagnitude⟩ := exists_magnitude true habs hleast hgreatest
    have hcast : ((n.natAbs : ℕ) : ℚ) = -n := by
      rw [Nat.cast_natAbs, abs_of_neg hsign, Int.cast_neg]
    exact ⟨d, by rw [toRat_of_negative hd, hmagnitude, hcast, neg_mul, neg_neg]⟩

theorem exists_toRat_int {n : ℤ} (hn : |n| ≤ 2 ^ 53) : ∃ d : Double, d.toRat = n := by
  obtain ⟨d, hd⟩ := exists_toRat (e := 0) hn (by decide) (by decide)
  exact ⟨d, by rw [hd, zpow_zero, mul_one]⟩

/-- The mantissa with its sign. -/
def steps (d : Double) : ℤ := if d.negative then -d.mantissa else d.mantissa

theorem toRat_eq_steps (d : Double) : d.toRat = d.steps * 2 ^ d.exponent := by
  unfold toRat steps magnitude
  split
  · push_cast
    rw [neg_mul]
  · push_cast
    rfl

theorem abs_steps_lt (d : Double) : |d.steps| < 2 ^ 53 := by
  have := d.canonical.1
  unfold steps
  split <;> simp only [abs_neg, Nat.abs_cast] <;> omega

/-- Without a negative exponent a double is a whole number. -/
theorem toRat_eq_floor {d : Double} (h : 0 ≤ d.exponent) : d.toRat = d.toRat.floor := by
  have hwhole : d.toRat = ((d.steps * 2 ^ d.exponent.toNat : ℤ) : ℚ) := by
    rw [toRat_eq_steps]
    push_cast
    rw [← zpow_natCast, Int.toNat_of_nonneg h]
  rw [hwhole, Rat.floor_intCast]

/-- With one it is not great. -/
theorem abs_toRat_lt {d : Double} (h : d.exponent < 0) : |d.toRat| < 2 ^ 52 := by
  have hsteps : |(d.steps : ℚ)| < 2 ^ 53 := by exact_mod_cast d.abs_steps_lt
  have hhalf : (2 : ℚ) ^ d.exponent ≤ 2 ^ (-1 : ℤ) := zpow_le_zpow_right₀ one_le_two (by omega)
  rw [toRat_eq_steps, abs_mul, abs_of_pos (two_zpow_pos _)]
  calc |(d.steps : ℚ)| * 2 ^ d.exponent ≤ |(d.steps : ℚ)| * 2 ^ (-1 : ℤ) :=
        mul_le_mul_of_nonneg_left hhalf (abs_nonneg _)
    _ < 2 ^ 53 * 2 ^ (-1 : ℤ) := mul_lt_mul_of_pos_right hsteps (two_zpow_pos _)
    _ = 2 ^ 52 := by norm_num

/-- The floor of a double is a double. -/
theorem toRat_floor (d : Double) : d.floor.toRat = d.toRat.floor := by
  unfold floor
  split
  · assumption
  · rename_i hpart
    have hexponent : d.exponent < 0 := not_le.mp fun h => hpart (toRat_eq_floor h)
    obtain ⟨hlow, hhigh⟩ := abs_lt.mp (abs_toRat_lt hexponent)
    have hfloor : |d.toRat.floor| ≤ 2 ^ 53 := by
      have hle : (-2 ^ 52 : ℤ) ≤ d.toRat.floor := Rat.le_floor_iff.mpr (by push_cast; linarith)
      have hge : d.toRat.floor < (2 ^ 52 : ℤ) := by
        have := (Rat.floor_le d.toRat).trans_lt hhigh
        exact_mod_cast this
      rw [abs_le]
      omega
    obtain ⟨w, hw⟩ := exists_toRat_int hfloor
    obtain ⟨r, hr, hvalue⟩ := ofRat?_toRat w
    rw [hw] at hr hvalue
    rw [hr, Option.getD_some, hvalue]

end SceneScript.Double
