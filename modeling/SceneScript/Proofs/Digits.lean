/-
  SceneScript.Proofs.Digits — runs of digits, written and read.

  A number is written as digits, perhaps with a point among them. Here is what such a
  text can hold (`mem_plain`, `Literal.mem_number`), and what a run of digits denotes:
  reading undoes writing (`ofDigitChars_digitChars`), and zeros in front count for nothing.
  No number but zero begins with a zero (`head_digitChars`).
-/
import Mathlib.Data.List.Basic
import SceneScript.Script.Literal

namespace SceneScript

namespace Decimal

/-! ## What digits are -/

theorem isDigit_of_mem_digitChars {n : Nat} {c : Char} (h : c ∈ digitChars n) : c.isDigit = true :=
  Nat.isDigit_of_mem_toDigits (by decide) (by decide) h

theorem digitChars_ne_nil (n : Nat) : digitChars n ≠ [] := Nat.toDigits_ne_nil

theorem isDigit_of_mem_zeros {k : Nat} {c : Char} (h : c ∈ List.replicate k '0') : c.isDigit = true := by
  rw [List.eq_of_mem_replicate h]
  rfl

/-- Positional digits are digits with a point among them. -/
theorem mem_plain {d : Decimal} {c : Char} (h : c ∈ d.plain) : c.isDigit = true ∨ c = '.' := by
  simp only [plain] at h
  split at h
  · rcases List.mem_append.mp h with h | h
    · exact .inl (isDigit_of_mem_digitChars h)
    · exact .inl (isDigit_of_mem_zeros h)
  · split at h
    · rcases List.mem_append.mp h with h | h
      · exact .inl (isDigit_of_mem_digitChars (List.mem_of_mem_take h))
      · rcases List.mem_cons.mp h with rfl | h
        · exact .inr rfl
        · exact .inl (isDigit_of_mem_digitChars (List.mem_of_mem_drop h))
    · rcases List.mem_cons.mp h with rfl | h
      · exact .inl rfl
      · rcases List.mem_cons.mp h with rfl | h
        · exact .inr rfl
        · rcases List.mem_append.mp h with h | h
          · exact .inl (isDigit_of_mem_zeros h)
          · exact .inl (isDigit_of_mem_digitChars h)

theorem plain_ne_nil (d : Decimal) : d.plain ≠ [] := by
  simp only [plain]
  split
  · exact List.append_ne_nil_of_left_ne_nil (digitChars_ne_nil _) _
  · split <;> simp

/-! ## What digits denote -/

theorem ofDigitChars_eq (cs : List Char) : ofDigitChars cs = Nat.ofDigitChars 10 cs 0 := rfl

@[simp] theorem ofDigitChars_digitChars (n : Nat) : ofDigitChars (digitChars n) = n := Nat.ofDigitChars_ten_toDigits

theorem ofDigitChars_zeros_append (k : Nat) (cs : List Char) :
    ofDigitChars (List.replicate k '0' ++ cs) = ofDigitChars cs := by
  rw [ofDigitChars_eq, Nat.ofDigitChars_append, Nat.ofDigitChars_replicate_zero, Nat.mul_zero]
  rfl

/-- A number other than zero does not begin with a zero. -/
theorem head_digitChars {n : Nat} (h : n ≠ 0) : ∃ d ds, digitChars n = d :: ds ∧ d ≠ '0' := by
  induction n using Nat.strongRecOn with
  | ind n ih =>
    rw [digitChars, Nat.toDigits_eq_if (by decide)]
    by_cases hn : n < 10
    · have hdigit : ∀ k < 10, k ≠ 0 → Nat.digitChar k ≠ '0' := by decide
      rw [if_pos hn]
      exact ⟨_, [], rfl, hdigit n hn h⟩
    · obtain ⟨d, ds, hds, hd⟩ := ih (n / 10) (by omega) (by omega)
      rw [if_neg hn, ← digitChars, hds]
      exact ⟨d, _, rfl, hd⟩

end Decimal

/-- A number of the script has no other character than digits, a point and a sign. -/
theorem Literal.mem_number {d : Double} {c : Char} (h : c ∈ (Literal.number d).toList) :
    c.isDigit = true ∨ c = '.' ∨ c = '-' := by
  simp only [number] at h
  split at h
  · obtain rfl : c = '0' := by simpa using h
    exact .inl rfl
  · split at h
    · simp only [String.toList_append, String.toList_ofList] at h
      rcases List.mem_append.mp h with h | h
      · exact .inr (.inr (by simpa using h))
      · exact (Decimal.mem_plain h).imp_right .inl
    · simp only [String.toList_ofList] at h
      exact (Decimal.mem_plain h).imp_right .inl

theorem Literal.number_ne_empty (d : Double) : Literal.number d ≠ "" := by
  have hdigits : String.ofList (d.shortest .up).plain ≠ "" := by
    simpa using Decimal.plain_ne_nil _
  simp only [number]
  split
  · decide
  · split
    · simp
    · exact hdigits

end SceneScript
