/-
  SceneScript.Proofs.ByteOffsets — places in a text, counted in bytes.

  A text is kept as its UTF-8 bytes, and a place in it is a byte offset. Not every offset
  is a place: it may lie beyond the end or within a character, and a slice between such
  offsets cannot be taken (`slice`). `byteIndex?` looks for a mark byte by byte and knows
  nothing of characters.

  Proved: this does no harm. No character of UTF-8 begins within another, so where the
  bytes of a mark stand the mark stands itself (`bytes_eq_iff`). The first place by bytes
  is therefore the first place by characters (`byteIndex?_of_onlyAtEnd`,
  `byteIndex?_eq_none`), and a slice can be taken exactly where a part of the text stands
  (`slice_eq_ok_iff`).
-/
import SceneScript.Proofs.Occurrence

namespace SceneScript.Text

/-! ## Slices -/

/-- The offsets of a slice that cannot be taken. -/
structure SliceFault where
  first : Nat
  last : Nat
  deriving DecidableEq

/-- The text between two byte offsets, each of which must be the place of a character or the end of the text. -/
def slice (s : String) (i j : Nat) : Except SliceFault String :=
  if h : String.Pos.Raw.IsValid s ⟨i⟩ ∧ String.Pos.Raw.IsValid s ⟨j⟩ ∧ i ≤ j then
    .ok (s.extract (s.pos ⟨i⟩ h.1) (s.pos ⟨j⟩ h.2.1))
  else .error ⟨i, j⟩

/-- The bytes of a part of a text stand where it does. -/
theorem extract_append (a u c : String) :
    (a ++ u ++ c).toByteArray.extract a.utf8ByteSize (a ++ u).utf8ByteSize = u.toByteArray := by
  simp only [String.toByteArray_append, ← String.size_toByteArray, ByteArray.size_append, ByteArray.append_assoc]
  have h := ByteArray.extract_append_size_add (a := a.toByteArray) (b := u.toByteArray ++ c.toByteArray)
    (i := 0) (j := u.toByteArray.size)
  rw [Nat.add_zero] at h
  rw [h, ByteArray.extract_append_eq_left rfl]

theorem isValid_append (x y : String) : String.Pos.Raw.IsValid (x ++ y) ⟨x.utf8ByteSize⟩ :=
  String.Pos.Raw.isValid_iff_exists_append.mpr ⟨x, y, rfl, rfl⟩

/-- Two places of a text part it into three. -/
theorem exists_of_isValid {s : String} {i j : Nat} (hi : String.Pos.Raw.IsValid s ⟨i⟩)
    (hj : String.Pos.Raw.IsValid s ⟨j⟩) (hle : i ≤ j) :
    ∃ a u c, s = a ++ u ++ c ∧ a.utf8ByteSize = i ∧ (a ++ u).utf8ByteSize = j := by
  obtain ⟨a, t, rfl, ha⟩ := String.Pos.Raw.isValid_iff_exists_append.mp hi
  obtain ⟨b, c, hb, hj⟩ := String.Pos.Raw.isValid_iff_exists_append.mp hj
  obtain rfl : i = a.utf8ByteSize := congrArg String.Pos.Raw.byteIdx ha
  obtain rfl : j = b.utf8ByteSize := congrArg String.Pos.Raw.byteIdx hj
  rcases Nat.le_total a.length b.length with hl | hl
  · obtain ⟨u, rfl, -⟩ := exists_of_append_eq_append hb.symm hl
    exact ⟨a, u, c, hb, rfl, rfl⟩
  · -- then the two places are one
    obtain ⟨u, rfl, -⟩ := exists_of_append_eq_append hb hl
    obtain rfl : u = "" := by
      rw [String.utf8ByteSize_append] at hle
      exact String.utf8ByteSize_eq_zero_iff.mp (by omega)
    rw [String.append_empty] at *
    exact ⟨b, "", t, by simp, rfl, by simp⟩

theorem slice_append (a u c : String) : slice (a ++ u ++ c) a.utf8ByteSize (a ++ u).utf8ByteSize = .ok u := by
  have hfirst : String.Pos.Raw.IsValid (a ++ u ++ c) ⟨a.utf8ByteSize⟩ := by
    rw [String.append_assoc]
    exact isValid_append a (u ++ c)
  have hle : a.utf8ByteSize ≤ (a ++ u).utf8ByteSize := by
    rw [String.utf8ByteSize_append]
    omega
  rw [slice, dif_pos ⟨hfirst, isValid_append (a ++ u) c, hle⟩]
  exact congrArg Except.ok (String.toByteArray_inj.mp (extract_append a u c))

theorem slice_end (a c : String) : slice (a ++ c) a.utf8ByteSize (a ++ c).utf8ByteSize = .ok c := by
  simpa using slice_append a c ""

/-- A slice is a part of the text, and its offsets are the places where that part begins and ends. -/
theorem slice_eq_ok_iff {s u : String} {i j : Nat} :
    slice s i j = .ok u ↔ ∃ a c, s = a ++ u ++ c ∧ a.utf8ByteSize = i ∧ (a ++ u).utf8ByteSize = j := by
  constructor
  · intro h
    by_cases hv : String.Pos.Raw.IsValid s ⟨i⟩ ∧ String.Pos.Raw.IsValid s ⟨j⟩ ∧ i ≤ j
    · obtain ⟨a, v, c, rfl, rfl, rfl⟩ := exists_of_isValid hv.1 hv.2.1 hv.2.2
      rw [slice_append, Except.ok.injEq] at h
      exact ⟨a, c, by rw [h], rfl, by rw [h]⟩
    · rw [slice, dif_neg hv] at h
      cases h
  · rintro ⟨a, c, rfl, rfl, rfl⟩
    exact slice_append a u c

/-- The first letter has two bytes. -/
example : slice "ä-" 1 2 = .error ⟨1, 2⟩ := by decide +kernel

/-! ## Searching -/

/-- The offset of the first place where the bytes of `mark` stand. -/
def byteIndex? (mark s : String) : Option Nat :=
  (List.range (s.utf8ByteSize + 1)).find? fun i =>
    (s.toByteArray.extract i (i + mark.utf8ByteSize)).data = mark.toByteArray.data

/-- Where the bytes of a mark stand the mark stands: they do not begin or end within a character. -/
theorem bytes_eq_iff {mark s : String} (hm : mark ≠ "") {i : Nat} :
    s.toByteArray.extract i (i + mark.utf8ByteSize) = mark.toByteArray ↔
      ∃ a c, s = a ++ mark ++ c ∧ a.utf8ByteSize = i := by
  constructor
  · intro h
    have hpos : mark.utf8ByteSize ≠ 0 := fun h0 => hm (String.utf8ByteSize_eq_zero_iff.mp h0)
    have hend : i + mark.utf8ByteSize ≤ s.utf8ByteSize := by
      have hsize := congrArg ByteArray.size h
      simp only [ByteArray.size_extract, String.size_toByteArray] at hsize
      omega
    have hvalid := String.Pos.Raw.isValidUTF8_extract_iff (s := s) ⟨i⟩ ⟨i + mark.utf8ByteSize⟩
      (Nat.le_add_right _ _) hend
    obtain hone | ⟨hi, hj⟩ := hvalid.mp (h ▸ mark.isValidUTF8)
    · exact absurd (congrArg String.Pos.Raw.byteIdx hone) (by simp [hpos])
    · obtain ⟨a, u, c, rfl, rfl, hu⟩ := exists_of_isValid hi hj (Nat.le_add_right _ _)
      rw [← hu, extract_append] at h
      exact ⟨a, c, by rw [String.toByteArray_inj.mp h], rfl⟩
  · rintro ⟨a, c, rfl, rfl⟩
    rw [← String.utf8ByteSize_append]
    exact extract_append a mark c

/-- No occurrence of a mark begins before the first. -/
theorem OnlyAtEnd.utf8ByteSize_le {mark a a' c c' : String} (h : OnlyAtEnd mark a)
    (he : a ++ mark ++ c = a' ++ mark ++ c') : a.utf8ByteSize ≤ a'.utf8ByteSize := by
  have hsize : ∀ b, a ++ mark ++ b = a' ++ mark → a.utf8ByteSize ≤ a'.utf8ByteSize := fun b hb => by
    have := congrArg String.utf8ByteSize hb
    simp only [String.utf8ByteSize_append] at this
    omega
  rcases Nat.le_total (a ++ mark).length (a' ++ mark).length with hl | hl
  · obtain ⟨b, hb, -⟩ := exists_of_append_eq_append he.symm hl
    exact hsize b hb.symm
  · -- an earlier one would leave something after it
    obtain ⟨b, hb, -⟩ := exists_of_append_eq_append he hl
    obtain rfl : b = "" := h a' b hb
    exact hsize "" (by simpa using hb)

/-- What stands before the first occurrence of a mark is as long as its offset says. -/
theorem byteIndex?_of_onlyAtEnd {mark a : String} (h : OnlyAtEnd mark a) (c : String) :
    byteIndex? mark (a ++ mark ++ c) = some a.utf8ByteSize := by
  rw [byteIndex?, List.find?_range_eq_some]
  refine ⟨?_, ?_, fun j hj => ?_⟩
  · rw [← String.utf8ByteSize_append]
    exact decide_eq_true (congrArg ByteArray.data (extract_append a mark c))
  · simp only [List.mem_range, String.utf8ByteSize_append]
    omega
  · simp only [Bool.not_eq_true', decide_eq_false_iff_not]
    intro hbytes
    by_cases hm : mark = ""
    · -- the empty mark stands at the start
      subst hm
      obtain rfl : a = "" := h "" a (by simp)
      simp at hj
    · obtain ⟨a', c', he, rfl⟩ := (bytes_eq_iff hm).mp (ByteArray.ext hbytes)
      exact absurd hj (Nat.not_lt.mpr (h.utf8ByteSize_le he))

theorem byteIndex?_eq_none {mark s : String} (h : ¬ Occurs mark s) : byteIndex? mark s = none := by
  have hm : mark ≠ "" := by
    rintro rfl
    exact h List.nil_infix
  rw [byteIndex?, List.find?_eq_none]
  intro i _ hi
  obtain ⟨a, c, rfl, -⟩ := (bytes_eq_iff hm).mp (ByteArray.ext (of_decide_eq_true hi))
  exact h (((occurs_self mark).append_left a).append_right c)

end SceneScript.Text
