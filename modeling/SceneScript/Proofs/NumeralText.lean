/-
  SceneScript.Proofs.NumeralText — a number in a text is read as it was written.

  A number ends where its text ends or at a comma or a closing bracket (`Stops`). What
  stands before is a run of digits without a spare zero in front, perhaps a fraction,
  perhaps an exponent. The reader takes each run as a whole (`numeral_digits`,
  `numeral_fraction`, `exponentPart_signed`), so each layout of a decimal is read as a
  decimal of the same value (`numeral_jsonChars`), and that names the double it was
  written for (`Numeral.reads`).
-/
import SceneScript.Json.Printer
import SceneScript.Json.Reader
import SceneScript.Proofs.ShortestDecimal
import SceneScript.Proofs.SoundValue

namespace SceneScript

namespace Json

/-! ## Runs of digits -/

/-- No digit comes first. -/
def NoDigitFirst (cs : List Char) : Prop := ∀ c rest, cs = c :: rest → c.isDigit = false

theorem NoDigitFirst.cons {c : Char} (h : c.isDigit = false) (rest : List Char) : NoDigitFirst (c :: rest) := by
  rintro d ds hds
  rwa [← (List.cons.inj hds).1]

/-- What may follow a value: nothing, a comma or a closing bracket. -/
def Stops (rest : List Char) : Prop := ∀ c cs, rest = c :: cs → c = ',' ∨ c = ']' ∨ c = '\x7d'

theorem Stops.nil : Stops [] := nofun

theorem Stops.cons {c : Char} (h : c = ',' ∨ c = ']' ∨ c = '\x7d') (rest : List Char) : Stops (c :: rest) := by
  rintro d ds hds
  rwa [← (List.cons.inj hds).1]

theorem Stops.noDigitFirst {rest : List Char} (h : Stops rest) : NoDigitFirst rest := by
  intro c cs hcs
  rcases h c cs hcs with rfl | rfl | rfl <;> rfl

theorem takeWhile_digits {ds rest : List Char} (hds : ∀ c ∈ ds, c.isDigit = true) (hrest : NoDigitFirst rest) :
    (ds ++ rest).takeWhile Char.isDigit = ds := by
  rw [List.takeWhile_append_of_pos hds]
  cases rest with
  | nil => simp
  | cons c rest => simp [hrest c rest rfl]

theorem dropWhile_digits {ds rest : List Char} (hds : ∀ c ∈ ds, c.isDigit = true) (hrest : NoDigitFirst rest) :
    (ds ++ rest).dropWhile Char.isDigit = rest := by
  rw [List.dropWhile_append_of_pos hds]
  cases rest with
  | nil => rfl
  | cons c rest => simp [hrest c rest rfl]

/-- Digits of an integer part: there are some, and a zero in front stands alone. -/
structure Whole (ds : List Char) : Prop where
  digits : ∀ c ∈ ds, c.isDigit = true
  first : ∃ d ds', ds = d :: ds' ∧ (d = '0' → ds' = [])

theorem Whole.single {d : Char} (h : d.isDigit = true) : Whole [d] where
  digits := by simpa using h
  first := ⟨d, [], rfl, fun _ => rfl⟩

/-- A number in digits, with whatever digits follow it. -/
theorem Whole.append {n : Nat} (hn : n ≠ 0) {ds : List Char} (hds : ∀ c ∈ ds, c.isDigit = true) :
    Whole (Decimal.digitChars n ++ ds) where
  digits c hc := (List.mem_append.mp hc).elim Decimal.isDigit_of_mem_digitChars (hds c)
  first := by
    obtain ⟨d, ds', hn, hd⟩ := Decimal.head_digitChars hn
    exact ⟨d, ds' ++ ds, by rw [hn, List.cons_append], fun h => absurd h hd⟩

theorem Whole.digitChars (n : Nat) : Whole (Decimal.digitChars n) := by
  by_cases hn : n = 0
  · subst hn
    exact .single rfl
  · have h : Whole (Decimal.digitChars n ++ []) := .append hn fun _ hc => absurd hc List.not_mem_nil
    rwa [List.append_nil] at h

/-! ## The parts of a number -/

variable {negative : Bool} {rest : List Char}

theorem numeral_whole {ds : List Char} (hds : Whole ds) (hrest : NoDigitFirst rest) :
    numeral negative (ds ++ rest) = afterInteger negative ds rest := by
  obtain ⟨d, ds', rfl, hzero⟩ := hds.first
  simp only [numeral, takeWhile_digits hds.digits hrest, dropWhile_digits hds.digits hrest]
  split
  · rename_i h
    cases h
  · rename_i h
    cases hzero (List.cons.inj h).1
    cases h
  · rfl

theorem afterDigits_stops {ds : List Char} {places : Nat} (hrest : Stops rest) :
    afterDigits negative ds places rest = none := by
  cases rest with
  | nil => rfl
  | cons c rest => rcases hrest c rest rfl with rfl | rfl | rfl <;> rfl

/-- Digits with nothing after them are a whole number. -/
theorem numeral_digits {ds : List Char} (hds : Whole ds) (hrest : Stops rest) :
    numeral negative (ds ++ rest) = wholeNumber negative (Decimal.ofDigitChars ds) rest := by
  rw [numeral_whole hds hrest.noDigitFirst, afterInteger]
  · rw [afterDigits_stops hrest, Option.getD_none]
  · rintro cs rfl
    rcases hrest _ _ rfl with h | h | h <;> cases h

/-- Digits after a point belong to the number, up to what is no digit. -/
theorem afterInteger_point {ds fraction : List Char} (hfraction : ∀ c ∈ fraction, c.isDigit = true)
    (hne : fraction ≠ []) (hrest : NoDigitFirst rest) :
    afterInteger negative ds ('.' :: (fraction ++ rest))
      = (afterDigits negative (ds ++ fraction) fraction.length rest).getD
          (realNumber negative ⟨Decimal.ofDigitChars (ds ++ fraction), -(fraction.length : Int)⟩ rest) := by
  simp only [afterInteger, takeWhile_digits hfraction hrest, dropWhile_digits hfraction hrest,
    List.isEmpty_eq_false_iff.mpr hne, Bool.false_eq_true, if_false]

theorem numeral_fraction {ds fraction : List Char} (hds : Whole ds) (hfraction : ∀ c ∈ fraction, c.isDigit = true)
    (hne : fraction ≠ []) (hrest : Stops rest) :
    numeral negative (ds ++ '.' :: fraction ++ rest)
      = realNumber negative ⟨Decimal.ofDigitChars (ds ++ fraction), -(fraction.length : Int)⟩ rest := by
  rw [List.append_assoc, List.cons_append, numeral_whole hds (.cons rfl _),
    afterInteger_point hfraction hne hrest.noDigitFirst, afterDigits_stops hrest, Option.getD_none]

/-- An exponent is written with its sign. -/
theorem exponentPart_signed {ds : List Char} {places : Nat} (exponent : Int) (hrest : Stops rest) :
    exponentPart negative ds places
        ((if exponent < 0 then '-' else '+') :: Decimal.digitChars exponent.natAbs ++ rest)
      = realNumber negative ⟨Decimal.ofDigitChars ds, exponent - (places : Int)⟩ rest := by
  have hdigits := (Whole.digitChars exponent.natAbs).digits
  have hne : (Decimal.digitChars exponent.natAbs).isEmpty = false :=
    List.isEmpty_eq_false_iff.mpr (Decimal.digitChars_ne_nil _)
  by_cases h : exponent < 0
  · have habs : -(exponent.natAbs : Int) = exponent := by omega
    rw [if_pos h, List.cons_append]
    simp only [exponentPart, exponentSign, takeWhile_digits hdigits hrest.noDigitFirst,
      dropWhile_digits hdigits hrest.noDigitFirst, hne, Bool.false_eq_true, if_false, if_true,
      Decimal.ofDigitChars_digitChars, habs]
  · have habs : (exponent.natAbs : Int) = exponent := by omega
    rw [if_neg h, List.cons_append]
    simp only [exponentPart, exponentSign, takeWhile_digits hdigits hrest.noDigitFirst,
      dropWhile_digits hdigits hrest.noDigitFirst, hne, Bool.false_eq_true, if_false,
      Decimal.ofDigitChars_digitChars, habs]

/-! ## Decimals -/

/-- Positional digits without a fraction get one that says nothing. -/
theorem numeral_plain_point {c : Decimal} (hc : c.digits ≠ 0 ∨ c.exponent = 0) (he : 0 ≤ c.exponent)
    (hrest : Stops rest) :
    ∃ c' : Decimal, c'.toRat = c.toRat ∧ numeral negative (c.plain ++ ['.', '0'] ++ rest) = realNumber negative c' rest := by
  obtain ⟨n, exponent⟩ := c
  obtain ⟨k, rfl⟩ := Int.eq_ofNat_of_zero_le he
  have hplain : Decimal.plain ⟨n, k⟩ = Decimal.digitChars n ++ List.replicate k '0' := by
    simp only [Decimal.plain, he, if_true, Int.toNat_natCast]
  have hwhole : Whole (Decimal.digitChars n ++ List.replicate k '0') := by
    rcases hc with hn | hk
    · exact .append hn fun c hc => Decimal.isDigit_of_mem_zeros hc
    · obtain rfl : k = 0 := Int.ofNat_eq_zero.mp hk
      rw [List.replicate_zero, List.append_nil]
      exact .digitChars n
  refine ⟨⟨n * 10 ^ (k + 1), -1⟩, ?_, ?_⟩
  · rw [Decimal.toRat_zeros, Nat.cast_succ, neg_add_cancel_comm_assoc]
  · have hpoint : List.replicate 1 '0' ≠ [] := List.cons_ne_nil _ _
    have hvalue : Decimal.ofDigitChars (Decimal.digitChars n ++ List.replicate k '0' ++ List.replicate 1 '0')
        = n * 10 ^ (k + 1) := by
      rw [List.append_assoc, ← List.replicate_add, Decimal.ofDigitChars_append_zeros, Decimal.ofDigitChars_digitChars]
    have hread : numeral negative _ = _ := numeral_fraction hwhole (fun c hc => Decimal.isDigit_of_mem_zeros hc) hpoint hrest
    rw [hvalue] at hread
    rw [hplain, List.append_assoc _ _ ['.', '0'], ← List.append_assoc _ (List.replicate k '0')]
    exact hread

/-- Positional digits with a fraction. -/
theorem numeral_plain {n : Nat} (hn : n ≠ 0) {places : Nat} (hplaces : 0 < places) (hrest : Stops rest) :
    numeral negative (Decimal.plain ⟨n, -(places : Int)⟩ ++ rest) = realNumber negative ⟨n, -(places : Int)⟩ rest := by
  have hfraction : ¬0 ≤ -(places : Int) := by omega
  have hdigits := (Whole.digitChars n).digits
  simp only [Decimal.plain, hfraction, if_false, neg_neg, Int.toNat_natCast]
  split
  · rename_i hshort
    obtain ⟨d, ds, hds, hd⟩ := Decimal.head_digitChars hn
    have hwhole : Whole ((Decimal.digitChars n).take ((Decimal.digitChars n).length - places)) := by
      refine ⟨fun c hc => hdigits c (List.mem_of_mem_take hc), ?_⟩
      obtain ⟨k, hk⟩ := Nat.exists_eq_add_of_lt (Nat.sub_pos_of_lt hshort)
      rw [hk, hds]
      exact ⟨d, _, rfl, fun h => absurd h hd⟩
    have hlength : ((Decimal.digitChars n).drop ((Decimal.digitChars n).length - places)).length = places := by
      rw [List.length_drop]
      omega
    rw [numeral_fraction hwhole (fun c hc => hdigits c (List.mem_of_mem_drop hc))
      (List.ne_nil_of_length_pos (by omega)) hrest, List.take_append_drop, hlength, Decimal.ofDigitChars_digitChars]
  · rename_i hlong
    have hfraction : ∀ c ∈ List.replicate (places - (Decimal.digitChars n).length) '0' ++ Decimal.digitChars n,
        c.isDigit = true :=
      fun c hc => (List.mem_append.mp hc).elim Decimal.isDigit_of_mem_zeros (hdigits c)
    have hlength : (List.replicate (places - (Decimal.digitChars n).length) '0' ++ Decimal.digitChars n).length
        = places := by
      rw [List.length_append, List.length_replicate]
      omega
    have hread : numeral negative _ = _ := numeral_fraction (.single rfl : Whole ['0']) hfraction
      (List.ne_nil_of_length_pos (by omega)) hrest
    have hvalue : Decimal.ofDigitChars (['0'] ++ (List.replicate (places - (Decimal.digitChars n).length) '0'
        ++ Decimal.digitChars n)) = n := by
      rw [← List.append_assoc]
      exact (Decimal.ofDigitChars_zeros_append (_ + 1) _).trans (Decimal.ofDigitChars_digitChars n)
    rw [hlength, hvalue] at hread
    exact hread

/-- One digit before the point and an exponent. -/
theorem numeral_scientific (c : Decimal) (hrest : Stops rest) :
    numeral negative (c.scientific ++ rest) = realNumber negative c rest := by
  have hdigits := (Whole.digitChars c.digits).digits
  simp only [Decimal.scientific]
  cases h : Decimal.digitChars c.digits with
  | nil => exact absurd h (Decimal.digitChars_ne_nil _)
  | cons d ds =>
    have hd : Whole [d] := .single (hdigits d (h ▸ List.mem_cons_self))
    have hds : ∀ c ∈ ds, c.isDigit = true := fun c hc => hdigits c (h ▸ List.mem_cons_of_mem d hc)
    have hvalue : Decimal.ofDigitChars (d :: ds) = c.digits := by rw [← h, Decimal.ofDigitChars_digitChars]
    -- the digits after the point are taken off the exponent again
    have hexponent : c.leading - (ds.length : Int) = c.exponent := by
      simp only [Decimal.leading, h, List.length_cons]
      omega
    have hread : exponentPart negative (d :: ds) ds.length _ = _ := exponentPart_signed c.leading hrest
    rw [hvalue, hexponent] at hread
    cases ds with
    | nil =>
      refine (numeral_whole hd (.cons rfl _)).trans ?_
      exact hread
    | cons e ds =>
      simp only [List.cons_append, List.append_assoc]
      refine (numeral_whole hd (.cons rfl _)).trans ?_
      refine (afterInteger_point hds (List.cons_ne_nil _ _) (.cons rfl _)).trans ?_
      exact hread

/-- A decimal is read as one of the same value. -/
theorem numeral_jsonChars {c : Decimal} (hc : c.digits ≠ 0 ∨ c.exponent = 0) (hrest : Stops rest) :
    ∃ c' : Decimal, c'.toRat = c.toRat ∧ numeral negative (c.jsonChars ++ rest) = realNumber negative c' rest := by
  simp only [Decimal.jsonChars]
  split
  · split
    · rename_i he
      exact numeral_plain_point hc he hrest
    · rename_i he
      obtain ⟨n, exponent⟩ := c
      obtain ⟨places, rfl⟩ : ∃ places : Nat, exponent = -(places : Int) := ⟨exponent.natAbs, by simp only at he; omega⟩
      have hplaces : 0 < places := by simp only at he; omega
      exact ⟨_, rfl, numeral_plain (hc.resolve_right (by simp only; omega)) hplaces hrest⟩
  · exact ⟨_, rfl, numeral_scientific c hrest⟩

/-! ## Numbers -/

/-- The digits of a double are read as the double. -/
theorem numeral_double (d : Double) (hrest : Stops rest) :
    numeral d.negative ((d.shortest .toEven).jsonChars ++ rest) = (.number (.real d), some rest) := by
  obtain ⟨c, hvalue, hread⟩ := numeral_jsonChars (d.shortest_digits .toEven) hrest
  rw [hread, realNumber, Double.ofDecimal?_of_toRat_eq hvalue, Double.ofDecimal?_shortest]

/-- The digits of an integer are read as the integer. -/
theorem numeral_natAbs {n : Int} (hn : (Numeral.integer n).Sound) (hrest : Stops rest) :
    numeral (decide (n < 0)) (Decimal.digitChars n.natAbs ++ rest) = (.number (.integer n), some rest) := by
  rw [numeral_digits (.digitChars _) hrest, Decimal.ofDigitChars_digitChars, wholeNumber]
  obtain ⟨hlow, hhigh⟩ := hn
  by_cases h : n < 0
  · have habs : -(n.natAbs : Int) = n := by omega
    rw [decide_eq_true h, if_pos rfl, if_pos (by omega), habs]
  · have habs : (n.natAbs : Int) = n := by omega
    rw [decide_eq_false h, if_neg Bool.false_ne_true, if_pos (by omega), habs]

/-- A number is a sign and digits, and what is read after the sign is the number. -/
theorem reads_number {n : Numeral} (hn : n.Sound) :
    ∃ negative digits, Numeral.chars n = (if negative then '-' :: digits else digits) ∧
      ∀ {rest : List Char}, Stops rest → numeral negative (digits ++ rest) = (.number n, some rest) := by
  cases n with
  | integer n => exact ⟨decide (n < 0), _, by simp [Numeral.chars, Decimal.intChars], numeral_natAbs hn⟩
  | real d => exact ⟨d.negative, _, rfl, numeral_double d⟩

/-- Where a number is read a digit comes first. -/
theorem digit_first {cs : List Char} {j : Json} (h : numeral negative cs = (j, some rest)) :
    ∃ d ds, cs = d :: ds ∧ d.isDigit = true := by
  cases cs with
  | nil => cases h
  | cons d ds =>
    by_cases hd : d.isDigit = true
    · exact ⟨d, ds, rfl, hd⟩
    · simp only [numeral, List.takeWhile_cons_of_neg hd] at h
      cases h

end Json

end SceneScript
