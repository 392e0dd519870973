/-
  SceneScript.Proofs.PrintedNumbers — a number of a script names one double.

  A number is printed as digits, perhaps with a point among them, after a sign if it is
  negative. Read back it gives the double that it was printed for, except that a zero has
  lost its sign (`Literal.read?_number`). So two doubles are printed alike exactly if they
  are equal in value (`Literal.number_eq_iff`).
-/
import Mathlib.Data.List.TakeWhile
import SceneScript.Proofs.ShortestDecimal

namespace SceneScript

/-! ## Digits with a point among them -/

namespace Decimal

/-- The decimal that digits denote, with a point among them or none. -/
def ofPlain (cs : List Char) : Decimal :=
  let whole := cs.takeWhile (· != '.')
  let fraction := (cs.dropWhile (· != '.')).drop 1
  ⟨ofDigitChars (whole ++ fraction), -fraction.length⟩

theorem point_not_mem {cs : List Char} (h : ∀ c ∈ cs, c.isDigit = true) : ∀ c ∈ cs, (c != '.') = true := by
  intro c hc
  rw [bne_iff_ne]
  rintro rfl
  exact absurd (h _ hc) (by decide)

theorem ofPlain_whole {ds : List Char} (h : ∀ c ∈ ds, c.isDigit = true) : ofPlain ds = ⟨ofDigitChars ds, 0⟩ := by
  have hwhole : ds.takeWhile (· != '.') = ds := List.takeWhile_eq_self_iff.mpr (point_not_mem h)
  have hrest : ds.dropWhile (· != '.') = [] := List.dropWhile_eq_nil_iff.mpr (point_not_mem h)
  simp [ofPlain, hwhole, hrest]

theorem ofPlain_point {whole : List Char} (h : ∀ c ∈ whole, c.isDigit = true) (fraction : List Char) :
    ofPlain (whole ++ '.' :: fraction) = ⟨ofDigitChars (whole ++ fraction), -fraction.length⟩ := by
  have hwhole : (whole ++ '.' :: fraction).takeWhile (· != '.') = whole := by
    rw [List.takeWhile_append_of_pos (point_not_mem h)]
    simp
  have hrest : (whole ++ '.' :: fraction).dropWhile (· != '.') = '.' :: fraction := by
    rw [List.dropWhile_append_of_pos (point_not_mem h)]
    simp
  simp [ofPlain, hwhole, hrest]

/-- Positional digits denote the decimal that they are the layout of. -/
theorem toRat_ofPlain (c : Decimal) : (ofPlain c.plain).toRat = c.toRat := by
  have hdigit : ∀ d ∈ digitChars c.digits, d.isDigit = true := fun d => isDigit_of_mem_digitChars
  simp only [plain]
  split
  · rename_i he
    have hall : ∀ d ∈ digitChars c.digits ++ List.replicate c.exponent.toNat '0', d.isDigit = true := by
      intro d hd
      rcases List.mem_append.mp hd with hd | hd
      · exact hdigit d hd
      · exact isDigit_of_mem_zeros hd
    rw [ofPlain_whole hall, ofDigitChars_append_zeros, ofDigitChars_digitChars, toRat_zeros, zero_add,
      Int.toNat_of_nonneg he]
  · rename_i he
    have hplaces : -((-c.exponent).toNat : ℤ) = c.exponent := by omega
    split
    · rename_i hlt
      have hfront : ∀ d ∈ (digitChars c.digits).take ((digitChars c.digits).length - (-c.exponent).toNat),
          d.isDigit = true := fun d hd => hdigit d (List.mem_of_mem_take hd)
      have hlength : ((digitChars c.digits).drop ((digitChars c.digits).length - (-c.exponent).toNat)).length
          = (-c.exponent).toNat := by
        rw [List.length_drop]
        omega
      rw [ofPlain_point hfront, List.take_append_drop, ofDigitChars_digitChars, hlength, hplaces]
    · rename_i hge
      have hzero : ∀ d ∈ ['0'], d.isDigit = true := List.forall_mem_singleton.mpr rfl
      have hlength : (List.replicate ((-c.exponent).toNat - (digitChars c.digits).length) '0'
          ++ digitChars c.digits).length = (-c.exponent).toNat := by
        rw [List.length_append, List.length_replicate]
        omega
      have hvalue : ofDigitChars (['0'] ++ (List.replicate ((-c.exponent).toNat - (digitChars c.digits).length) '0'
          ++ digitChars c.digits)) = c.digits := by
        rw [← List.append_assoc, List.singleton_append, ← List.replicate_succ, ofDigitChars_zeros_append,
          ofDigitChars_digitChars]
      have hpoint := ofPlain_point hzero
        (List.replicate ((-c.exponent).toNat - (digitChars c.digits).length) '0' ++ digitChars c.digits)
      rw [List.singleton_append] at hpoint
      rw [hpoint, hvalue, hlength, hplaces]

end Decimal

/-! ## Printed numbers -/

/-- The number with no sign on a zero. -/
def Double.unsigned (d : Double) : Double := if d.isZero then .zero false else d

theorem Double.unsigned_eq_iff {a b : Double} : a.unsigned = b.unsigned ↔ a.same b = true := by
  have hzero : (Double.zero false).isZero = true := rfl
  rw [same, Bool.or_eq_true, Bool.and_eq_true, decide_eq_true_eq]
  unfold unsigned
  split
  · rename_i ha
    split
    · rename_i hb
      simp [ha, hb]
    · rename_i hb
      refine iff_of_false (fun h => hb (h ▸ hzero)) (not_or.mpr ⟨?_, fun h => hb h.2⟩)
      rintro rfl
      exact hb ha
  · rename_i ha
    split
    · rename_i hb
      refine iff_of_false (fun h => ha (h ▸ hzero)) (not_or.mpr ⟨?_, fun h => ha h.1⟩)
      rintro rfl
      exact ha hb
    · simp [ha]

namespace Literal

/-- The double that a printed number names. -/
def read? : List Char → Option Double
  | '-' :: digits => Double.ofDecimal? true (Decimal.ofPlain digits)
  | digits => Double.ofDecimal? false (Decimal.ofPlain digits)

theorem ofDecimal?_ofPlain (d : Double) :
    Double.ofDecimal? d.negative (Decimal.ofPlain (d.shortest .up).plain) = some d := by
  rw [Double.ofDecimal?_of_toRat_eq (Decimal.toRat_ofPlain _), Double.ofDecimal?_shortest]

/-- Reading undoes printing, but for the sign of a zero. -/
theorem read?_number (d : Double) : read? (number d).toList = some d.unsigned := by
  unfold number Double.unsigned
  split
  · decide +kernel
  · have hread := ofDecimal?_ofPlain d
    cases hsign : d.negative with
    | true =>
      rw [hsign] at hread
      simpa [read?] using hread
    | false =>
      rw [hsign] at hread
      simp only [Bool.false_eq_true, if_false, String.toList_ofList]
      unfold read?
      split
      · rename_i digits hplain
        have hminus : '-' ∈ (d.shortest .up).plain := by rw [hplain]; exact List.mem_cons_self
        rcases Decimal.mem_plain hminus with h | h
        · exact absurd h (by decide)
        · exact absurd h (by decide)
      · exact hread

theorem number_unsigned (d : Double) : number d.unsigned = number d := by
  unfold Double.unsigned
  split
  · rename_i hzero
    have hnone : (Double.zero false).isZero = true := rfl
    rw [number, number, if_pos hzero, if_pos hnone]
  · rfl

/-- Two numbers are printed alike only if they are one, but for the sign of a zero. -/
theorem number_eq_iff {a b : Double} : number a = number b ↔ a.unsigned = b.unsigned := by
  constructor
  · intro h
    have hread := read?_number a
    rw [h, read?_number] at hread
    exact (Option.some.inj hread).symm
  · intro h
    rw [← number_unsigned a, h, number_unsigned]

end Literal

end SceneScript
