/-
  SceneScript.Proofs.TextPieces — a text in pieces, none of which makes a mark with the next.

  Where no mark crosses from a piece into what follows it (`Separate`), a mark occurs in the
  joined text only inside a piece (`exists_of_occurs_join`). If one piece is the mark itself
  and no other holds it, the text is cut at that piece (`Separate.cut?_join`), and taking the
  mark out takes that piece out (`Separate.replaceAll_join`).
-/
import SceneScript.Proofs.Occurrence

namespace SceneScript.Text

/-! ## Replacing -/

theorem replaceFrom_eq_drop (mark new : List Char) (skip : Nat) (cs : List Char) :
    replaceFrom mark new skip cs = replaceFrom mark new 0 (cs.drop skip) := by
  induction skip generalizing cs with
  | zero => rfl
  | succ skip ih =>
    cases cs with
    | nil => rfl
    | cons c cs => rw [replaceFrom, ih, List.drop_succ_cons]

section Characters

variable {mark new cs : List Char}

theorem replaceFrom_of_not_infix (h : ¬ mark <:+: cs) : replaceFrom mark new 0 cs = cs := by
  induction cs with
  | nil => rfl
  | cons c cs ih =>
    rw [List.infix_cons_iff, not_or] at h
    have hnone : afterMark? mark (c :: cs) = none :=
      Option.eq_none_iff_forall_not_mem.mpr fun r hr => h.1 ⟨r, (afterMark?_eq_some_iff.mp hr).symm⟩
    simp only [replaceFrom, hnone, ih h.2]

/-- The first occurrence is replaced, and what comes after it is treated in the same way. -/
theorem replaceFrom_of_cut (hm : mark ≠ []) {before rest : List Char} (h : cutChars? mark cs = some (before, rest)) :
    replaceFrom mark new 0 cs = before ++ new ++ replaceFrom mark new 0 rest := by
  induction cs generalizing before with
  | nil =>
    obtain ⟨hsplit, -⟩ := cutChars?_eq_some_iff.mp h
    exact absurd hsplit.symm (by simp [hm])
  | cons c cs ih =>
    rw [cutChars?] at h
    split at h
    · rename_i rest' hrest
      obtain ⟨rfl, rfl⟩ : [] = before ∧ rest' = rest := by simpa using h
      obtain ⟨d, ds, rfl⟩ := List.exists_cons_of_ne_nil hm
      have hcs : cs = ds ++ rest' := (List.cons.inj (afterMark?_eq_some_iff.mp hrest)).2
      simp only [replaceFrom, hrest, List.nil_append]
      rw [replaceFrom_eq_drop, hcs]
      simp
    · rename_i hnone
      obtain ⟨⟨before', rest'⟩, hcut, hpair⟩ := Option.map_eq_some_iff.mp h
      obtain ⟨rfl, rfl⟩ : c :: before' = before ∧ rest' = rest := by simpa using hpair
      simp only [replaceFrom, hnone, ih hcut, List.cons_append]

end Characters

section Texts

variable {mark new s : String} (hm : mark ≠ "")
include hm

theorem replaceAll_eq_replaceFrom (s : String) :
    replaceAll mark new s = String.ofList (replaceFrom mark.toList new.toList 0 s.toList) := by
  have hne : mark.toList.isEmpty = false := by simpa using hm
  simp [replaceAll, replaceChars, hne]

theorem replaceAll_of_not_occurs (h : ¬ Occurs mark s) : replaceAll mark new s = s := by
  rw [replaceAll_eq_replaceFrom hm, replaceFrom_of_not_infix h, String.ofList_toList]

theorem replaceAll_of_cut {before rest : String} (h : cut? mark s = some (before, rest)) :
    replaceAll mark new s = before ++ new ++ replaceAll mark new rest := by
  obtain ⟨⟨b, r⟩, hcut, hpair⟩ := Option.map_eq_some_iff.mp h
  obtain ⟨rfl, rfl⟩ : String.ofList b = before ∧ String.ofList r = rest := by simpa using hpair
  have hne : mark.toList ≠ [] := by simpa using hm
  rw [replaceAll_eq_replaceFrom hm, replaceAll_eq_replaceFrom hm, replaceFrom_of_cut hne hcut]
  apply String.toList_injective
  simp

end Texts

/-! ## Pieces -/

theorem not_straddles_empty_left (mark y : String) : ¬ Straddles mark "" y := by
  rintro ⟨l₁, l₂, h₁, -, -, hx, -⟩
  exact h₁ (by simpa using hx)

theorem not_straddles_empty_right (mark x : String) : ¬ Straddles mark x "" := by
  rintro ⟨l₁, l₂, -, h₂, -, -, hy⟩
  exact h₂ (by simpa using hy)

/-- No mark crosses from a piece into what follows it. -/
def Separate (mark : String) : List String → Prop
  | [] => True
  | x :: rest => ¬ Straddles mark x (String.join rest) ∧ Separate mark rest

/-- A mark is found inside a piece. -/
theorem exists_of_occurs_join {mark : String} (hm : mark ≠ "") {pieces : List String} (hs : Separate mark pieces)
    (h : Occurs mark (String.join pieces)) : ∃ p ∈ pieces, Occurs mark p := by
  induction pieces with
  | nil => exact absurd (List.eq_nil_of_infix_nil h) (by simpa using hm)
  | cons x rest ih =>
    rw [String.join_cons, occurs_append_iff] at h
    rcases h with h | h | h
    · exact ⟨x, List.mem_cons_self, h⟩
    · obtain ⟨p, hp, ho⟩ := ih hs.2 h
      exact ⟨p, List.mem_cons_of_mem _ hp, ho⟩
    · exact absurd h hs.1

namespace Separate

variable {mark : String} {front back : List String}

theorem of_append (h : Separate mark (front ++ back)) : Separate mark back := by
  induction front with
  | nil => exact h
  | cons x front ih => exact ih h.2

/-- The text is cut at the piece that is the mark. -/
theorem cut?_join (hs : Separate mark (front ++ mark :: back)) (hf : ∀ p ∈ front, ¬ Occurs mark p) :
    cut? mark (String.join (front ++ mark :: back)) = some (String.join front, String.join back) := by
  induction front with
  | nil => simpa using cut?_mark mark (String.join back)
  | cons x front ih =>
    obtain ⟨hx, hfront⟩ := List.forall_mem_cons.mp hf
    rw [List.cons_append, String.join_cons, String.join_cons]
    exact cut?_append_left hx hs.1 (ih hs.2 hfront)

/-- A mark that is one of the pieces and stands in no other is taken out as a whole. -/
theorem replaceAll_join (hm : mark ≠ "") (hs : Separate mark (front ++ mark :: back))
    (hf : ∀ p ∈ front, ¬ Occurs mark p) (hb : ∀ p ∈ back, ¬ Occurs mark p) :
    replaceAll mark "" (String.join (front ++ mark :: back)) = String.join (front ++ back) := by
  have hback : ¬ Occurs mark (String.join back) := fun h => by
    obtain ⟨p, hp, ho⟩ := exists_of_occurs_join hm hs.of_append.2 h
    exact hb p hp ho
  rw [replaceAll_of_cut hm (hs.cut?_join hf), replaceAll_of_not_occurs hm hback]
  simp [String.join_append]

end Separate

end SceneScript.Text
