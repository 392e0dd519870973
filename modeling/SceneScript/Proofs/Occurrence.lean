/-
  SceneScript.Proofs.Occurrence — where one text stands inside another.

  `Text.cut?` splits a text at the first occurrence of a mark. Its two answers are said
  here without the search:
  - `cut?_eq_some_iff`: the text is `before ++ mark ++ rest`, and in `before ++ mark` the
    mark stands only at the end (`OnlyAtEnd`). So the split is unique.
  - `cut?_eq_none_iff`: the mark occurs nowhere (`Occurs`).
  A mark occurs in a joined text only inside one of the parts or across the seam
  (`Straddles`), which is how longer texts are searched part by part.
-/
import Mathlib.Data.List.Infix
import SceneScript.Text.Search

namespace SceneScript.Text

/-- `mark` stands somewhere in `s`. -/
def Occurs (mark s : String) : Prop := mark.toList <:+: s.toList

/-- `mark` stands in `s ++ mark` at the end and nowhere else. -/
def OnlyAtEnd (mark s : String) : Prop := ∀ a b, s ++ mark = a ++ mark ++ b → b = ""

/-- `mark` begins at the end of `x` and ends at the start of `y`. -/
def Straddles (mark x y : String) : Prop :=
  ∃ l₁ l₂, l₁ ≠ [] ∧ l₂ ≠ [] ∧ mark.toList = l₁ ++ l₂ ∧ l₁ <:+ x.toList ∧ l₂ <+: y.toList

instance (mark s : String) : Decidable (Occurs mark s) := inferInstanceAs (Decidable (_ <:+: _))

/-! ## Cutting characters -/

theorem cutChars?_eq_some_iff {mark cs before rest : List Char} :
    cutChars? mark cs = some (before, rest) ↔
      cs = before ++ mark ++ rest ∧ ∀ a b, before ++ mark = a ++ mark ++ b → b = [] := by
  induction cs generalizing before with
  | nil =>
    simp only [cutChars?, Option.map_eq_some_iff, afterMark?_eq_some_iff, Prod.mk.injEq]
    constructor
    · rintro ⟨r, hr, rfl, rfl⟩
      have hm : mark = [] := (List.append_eq_nil_iff.mp hr.symm).1
      subst hm
      exact ⟨by simpa using hr, fun a b h => by simp at h; exact h.2⟩
    · rintro ⟨h, -⟩
      obtain ⟨h1, rfl⟩ := List.append_eq_nil_iff.mp h.symm
      obtain ⟨rfl, rfl⟩ := List.append_eq_nil_iff.mp h1
      exact ⟨[], rfl, rfl, rfl⟩
  | cons c cs ih =>
    simp only [cutChars?]
    split
    · rename_i r hr
      rw [afterMark?_eq_some_iff] at hr
      simp only [Option.some.injEq, Prod.mk.injEq]
      constructor
      · rintro ⟨rfl, rfl⟩
        refine ⟨by simpa using hr, fun a b h => ?_⟩
        have := congrArg List.length h
        simp only [List.nil_append, List.length_append] at this
        exact List.eq_nil_of_length_eq_zero (by omega)
      · rintro ⟨h, hend⟩
        -- the mark begins the text, so it begins `before ++ mark` as well
        have hb : before = [] := by
          have hp : mark <+: before ++ mark :=
            List.prefix_of_prefix_length_le (show mark <+: c :: cs from ⟨r, hr.symm⟩) ⟨rest, h.symm⟩ (by simp)
          obtain ⟨b, hb⟩ := hp
          have hnil : b = [] := hend [] b (by simpa using hb.symm)
          subst hnil
          have := congrArg List.length hb
          simp only [List.append_nil, List.length_append] at this
          exact List.eq_nil_of_length_eq_zero (by omega)
        subst hb
        rw [hr, List.nil_append, List.append_cancel_left_eq] at h
        exact ⟨rfl, h⟩
    · rename_i hnone
      have hno : ∀ r, c :: cs ≠ mark ++ r := fun r hr => by
        rw [afterMark?_eq_some_iff.mpr hr] at hnone; cases hnone
      simp only [Option.map_eq_some_iff, Prod.exists, Prod.mk.injEq]
      constructor
      · rintro ⟨before', r, hcut, rfl, rfl⟩
        obtain ⟨rfl, hend⟩ := ih.mp hcut
        refine ⟨rfl, fun a b h => ?_⟩
        cases a with
        | nil => exact absurd (by simpa using congrArg (· ++ r) h) (hno (b ++ r))
        | cons x a => exact hend a b (by simpa using (List.cons.inj h).2)
      · rintro ⟨h, hend⟩
        cases before with
        | nil => exact absurd (by simpa using h) (hno rest)
        | cons x before' =>
          simp only [List.cons_append, List.cons.injEq] at h
          obtain ⟨rfl, h⟩ := h
          exact ⟨before', rest, ih.mpr ⟨h, fun a b hab => hend (c :: a) b (by simp [hab])⟩, rfl, rfl⟩

theorem cutChars?_eq_none_iff {mark cs : List Char} : cutChars? mark cs = none ↔ ¬ mark <:+: cs := by
  induction cs with
  | nil =>
    have : afterMark? mark [] = none ↔ mark ≠ [] := by cases mark <;> simp [afterMark?]
    simp [cutChars?, this]
  | cons c cs ih =>
    simp only [cutChars?]
    split
    · rename_i r hr
      rw [afterMark?_eq_some_iff] at hr
      simp only [reduceCtorEq, false_iff, not_not]
      exact ⟨[], r, by simpa using hr.symm⟩
    · rename_i hnone
      have hno : ¬ mark <+: c :: cs := by
        rintro ⟨r, hr⟩
        rw [afterMark?_eq_some_iff.mpr hr.symm] at hnone
        cases hnone
      rw [Option.map_eq_none_iff, ih, List.infix_cons_iff]
      simp [hno]

/-! ## Cutting texts -/

/-- The cut is at the first occurrence. -/
theorem cut?_eq_some_iff {mark s before rest : String} :
    cut? mark s = some (before, rest) ↔ s = before ++ mark ++ rest ∧ OnlyAtEnd mark before := by
  have hcut : cut? mark s = some (before, rest) ↔
      cutChars? mark.toList s.toList = some (before.toList, rest.toList) := by
    simp only [cut?, Option.map_eq_some_iff, Prod.exists, Prod.mk.injEq]
    constructor
    · rintro ⟨b, r, h, rfl, rfl⟩
      simpa using h
    · intro h
      exact ⟨_, _, h, String.ofList_toList, String.ofList_toList⟩
  rw [hcut, cutChars?_eq_some_iff]
  refine and_congr (by rw [← String.toList_inj]; simp) ⟨fun h a b hab => ?_, fun h a b hab => ?_⟩
  · exact String.toList_injective (h a.toList b.toList (by simpa using congrArg String.toList hab))
  · simpa using congrArg String.toList
      (h (String.ofList a) (String.ofList b) (String.toList_injective (by simpa using hab)))

theorem cut?_eq_none_iff {mark s : String} : cut? mark s = none ↔ ¬ Occurs mark s := by
  rw [cut?, Option.map_eq_none_iff, cutChars?_eq_none_iff, Occurs]

theorem cut?_isSome_iff {mark s : String} : (cut? mark s).isSome ↔ Occurs mark s := by
  rw [Option.isSome_iff_ne_none, ne_eq, cut?_eq_none_iff, not_not]

theorem OnlyAtEnd.cut {mark before : String} (h : OnlyAtEnd mark before) (rest : String) :
    cut? mark (before ++ mark ++ rest) = some (before, rest) :=
  cut?_eq_some_iff.mpr ⟨rfl, h⟩

/-- A first occurrence splits a text in one way. -/
theorem OnlyAtEnd.append_inj {mark x x' y y' : String} (h : OnlyAtEnd mark x) (h' : OnlyAtEnd mark x')
    (he : x ++ mark ++ y = x' ++ mark ++ y') : x = x' ∧ y = y' := by
  have hcut := h.cut y
  rw [he, h'.cut y', Option.some.injEq, Prod.mk.injEq] at hcut
  exact ⟨hcut.1.symm, hcut.2.symm⟩

theorem onlyAtEnd_empty (mark : String) : OnlyAtEnd mark "" := by
  intro a b h
  have := congrArg String.length h
  simp only [String.length_append, String.length_empty] at this
  exact String.length_eq_zero_iff.mp (by omega)

theorem cut?_mark (mark rest : String) : cut? mark (mark ++ rest) = some ("", rest) := by
  simpa using (onlyAtEnd_empty mark).cut rest

/-- What follows the text does not change where it is cut. -/
theorem cut?_append_right {mark s before rest : String} (h : cut? mark s = some (before, rest)) (t : String) :
    cut? mark (s ++ t) = some (before, rest ++ t) := by
  obtain ⟨rfl, hend⟩ := cut?_eq_some_iff.mp h
  simpa [String.append_assoc] using hend.cut (rest ++ t)

instance (mark s : String) : Decidable (OnlyAtEnd mark s) :=
  decidable_of_iff (cut? mark (s ++ mark) = some (s, "")) (by rw [cut?_eq_some_iff]; simp)

/-! ## Joined texts -/

theorem occurs_append_iff {mark x y : String} :
    Occurs mark (x ++ y) ↔ Occurs mark x ∨ Occurs mark y ∨ Straddles mark x y := by
  rw [Occurs, String.toList_append, List.infix_append_iff_ne_nil]
  rfl

/-- Of two splits of a text the one further on begins with the other. -/
theorem exists_of_append_eq_append {x x' y y' : String} (h : x ++ y = x' ++ y') (hl : x'.length ≤ x.length) :
    ∃ b, x = x' ++ b ∧ y' = b ++ y := by
  have hlist : x.toList ++ y.toList = x'.toList ++ y'.toList := by simpa using congrArg String.toList h
  rcases List.append_eq_append_iff.mp hlist with ⟨l, hx, hy⟩ | ⟨l, hx, hy⟩
  · -- then the two splits are at one place
    have hlength := congrArg List.length hx
    simp only [List.length_append, String.length_toList] at hlength
    obtain rfl : l = [] := List.eq_nil_of_length_eq_zero (by omega)
    refine ⟨"", String.toList_injective ?_, String.toList_injective ?_⟩
    · simpa using hx.symm
    · simpa using hy.symm
  · refine ⟨String.ofList l, String.toList_injective ?_, String.toList_injective ?_⟩
    · simpa using hx
    · simpa using hy

theorem Occurs.append_left {mark y : String} (h : Occurs mark y) (x : String) : Occurs mark (x ++ y) :=
  occurs_append_iff.mpr (.inr (.inl h))

theorem Occurs.append_right {mark x : String} (h : Occurs mark x) (y : String) : Occurs mark (x ++ y) :=
  occurs_append_iff.mpr (.inl h)

theorem occurs_self (mark : String) : Occurs mark mark := List.infix_rfl

theorem Straddles.append_right {mark x y : String} (h : Straddles mark x y) (z : String) :
    Straddles mark x (y ++ z) := by
  obtain ⟨l₁, l₂, h₁, h₂, hm, hx, hy⟩ := h
  exact ⟨l₁, l₂, h₁, h₂, hm, hx, by simpa using hy.trans (List.prefix_append _ _)⟩

/-- A text without the mark in front moves the cut, unless it makes a mark with what follows. -/
theorem cut?_append_left {mark x s before rest : String} (hx : ¬ Occurs mark x) (hs : ¬ Straddles mark x s)
    (h : cut? mark s = some (before, rest)) : cut? mark (x ++ s) = some (x ++ before, rest) := by
  obtain ⟨rfl, hend⟩ := cut?_eq_some_iff.mp h
  refine cut?_eq_some_iff.mpr ⟨by simp [String.append_assoc], fun a b hab => ?_⟩
  have hl : x.toList ++ (before ++ mark).toList = a.toList ++ (mark ++ b).toList := by
    simpa using congrArg String.toList hab
  rcases List.append_eq_append_iff.mp hl with ⟨a', ha, hr⟩ | ⟨x', hx', hr⟩
  · -- the occurrence begins after `x`
    exact hend (String.ofList a') b (String.toList_injective (by simpa using hr))
  · rw [String.toList_append] at hr
    rcases List.append_eq_append_iff.mp hr with ⟨l, hxl, -⟩ | ⟨l₂, hm, hl₂⟩
    · exact absurd ⟨a.toList, l, by rw [hx', hxl, List.append_assoc]⟩ hx
    · by_cases h₁ : x' = []
      · -- it begins just there
        subst h₁
        refine hend "" b (String.toList_injective ?_)
        simp only [List.nil_append] at hm hr
        simpa using hr.symm
      · by_cases h₂ : l₂ = []
        · subst h₂
          exact absurd ⟨a.toList, [], by rw [hm, hx']; simp⟩ hx
        · refine absurd (Straddles.append_right ⟨x', l₂, h₁, h₂, hm, ⟨_, hx'.symm⟩, ?_⟩ rest) hs
          exact ⟨b.toList, hl₂.symm⟩

/-- A text without the mark may be put in front, unless it makes a mark with what follows. -/
theorem OnlyAtEnd.append_left {mark x y : String} (hx : ¬ Occurs mark x) (hs : ¬ Straddles mark x (y ++ mark))
    (h : OnlyAtEnd mark y) : OnlyAtEnd mark (x ++ y) := by
  have hcut : cut? mark (y ++ mark) = some (y, "") := by simpa using h.cut ""
  exact (cut?_eq_some_iff.mp (cut?_append_left hx hs hcut)).2

theorem OnlyAtEnd.of_not_occurs {mark s : String} (h : ¬ Occurs mark s) (hs : ¬ Straddles mark s mark) :
    OnlyAtEnd mark s := by
  simpa using append_left h (by simpa using hs) (onlyAtEnd_empty mark)

theorem OnlyAtEnd.not_occurs_left {mark x y : String} (h : OnlyAtEnd mark (x ++ y)) (hm : mark ≠ "") :
    ¬ Occurs mark x := by
  intro ho
  obtain ⟨⟨a, b⟩, hcut⟩ := Option.isSome_iff_exists.mp (cut?_isSome_iff.mpr ho)
  obtain ⟨rfl, -⟩ := cut?_eq_some_iff.mp hcut
  have hrest := h a (b ++ y ++ mark) (by simp only [String.append_assoc])
  exact hm (String.append_eq_empty_iff.mp hrest).2

/-- No mark crosses a seam after which comes a character that it does not have. -/
theorem not_straddles_of_head {mark x y : String} {c : Char} {cs : List Char} (hy : y.toList = c :: cs)
    (hc : c ∉ mark.toList) : ¬ Straddles mark x y := by
  rintro ⟨l₁, l₂, -, h₂, hm, -, hp⟩
  obtain ⟨d, l, rfl⟩ := List.exists_cons_of_ne_nil h₂
  rw [hy, List.cons_prefix_cons] at hp
  exact hc (by rw [hm, hp.1.symm]; simp)

end SceneScript.Text
