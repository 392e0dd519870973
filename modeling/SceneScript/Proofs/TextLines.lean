/-
  SceneScript.Proofs.TextLines — a text and its lines.

  The lines of a text are free of line feeds, and joined by line feeds they give the text
  again; any list of such lines is the lines of the text that it is joined to
  (`lines_intercalate`). So what is put before or after a text stands in its first or its
  last line (`lines_append_left`, `lines_append_right`), and a mark without a line feed is
  replaced line by line (`lines_replaceAll`).
-/
import SceneScript.Proofs.BlankExpressions
import SceneScript.Proofs.StarFree

namespace SceneScript.Text

/-! ## Characters -/

theorem lineChars_eq_splitOn (cs : List Char) : lineChars cs = cs.splitOn '\n' := by
  induction cs with
  | nil => rfl
  | cons c cs ih =>
    rw [lineChars, ih, List.splitOn_cons_eq_if_modifyHead]
    by_cases hc : c = '\n'
    · simp [hc]
    · obtain ⟨line, more, hlines⟩ := List.exists_cons_of_ne_nil (List.splitOn_ne_nil '\n' cs)
      simp [hc, hlines]

theorem newline_not_mem_lineChars {cs line : List Char} (h : line ∈ lineChars cs) : '\n' ∉ line := by
  induction cs generalizing line with
  | nil =>
    obtain rfl := List.mem_singleton.mp h
    exact List.not_mem_nil
  | cons c cs ih =>
    rw [lineChars] at h
    split at h
    · rcases List.mem_cons.mp h with rfl | h
      · exact List.not_mem_nil
      · exact ih h
    · rename_i hc
      split at h
      · obtain rfl := List.mem_singleton.mp h
        simpa using Ne.symm hc
      · rename_i first more hlines
        rw [hlines] at ih
        rcases List.mem_cons.mp h with rfl | h
        · simpa [Ne.symm hc] using ih List.mem_cons_self
        · exact ih (List.mem_cons_of_mem _ h)

/-! ## Lines -/

theorem newline_not_mem_lines {s line : String} (h : line ∈ lines s) : '\n' ∉ line.toList := by
  obtain ⟨cs, hcs, rfl⟩ := List.mem_map.mp h
  rw [String.toList_ofList]
  exact newline_not_mem_lineChars hcs

theorem lines_ne_nil (s : String) : lines s ≠ [] := by
  simpa [lines] using lineChars_ne_nil s.toList

/-- Lines without line feeds are the lines of the text that they are joined to. -/
theorem lines_intercalate {ls : List String} (hne : ls ≠ []) (hls : ∀ l ∈ ls, '\n' ∉ l.toList) :
    lines ("\n".intercalate ls) = ls := by
  have hsplit : (['\n'].intercalate (ls.map String.toList)).splitOn '\n' = ls.map String.toList :=
    List.splitOn_intercalate '\n' (by simpa using hls) (by simpa using hne)
  have hnewline : "\n".toList = ['\n'] := rfl
  rw [lines, lineChars_eq_splitOn, String.toList_intercalate, hnewline, hsplit, List.map_map]
  simp [Function.comp_def]

section Append

variable {p : String} (hp : '\n' ∉ p.toList)
include hp

/-- What comes before a text stands in its first line. -/
theorem lines_append_left (s : String) : ∃ first rest, lines s = first :: rest ∧ lines (p ++ s) = (p ++ first) :: rest := by
  obtain ⟨first, rest, hs⟩ := List.exists_cons_of_ne_nil (lines_ne_nil s)
  refine ⟨first, rest, hs, ?_⟩
  have hjoined : p ++ s = "\n".intercalate ((p ++ first) :: rest) := by
    rw [← intercalate_lines s, hs]
    cases rest with
    | nil => rfl
    | cons next rest => simp [String.intercalate_cons_cons, String.append_assoc]
  rw [hjoined]
  refine lines_intercalate (List.cons_ne_nil _ _) (List.forall_mem_cons.mpr ⟨?_, fun l hl => ?_⟩)
  · have hfirst : '\n' ∉ first.toList := newline_not_mem_lines (s := s) (by simp [hs])
    simp [hp, hfirst]
  · exact newline_not_mem_lines (s := s) (by simp [hs, hl])

/-- What comes after a text stands in its last line. -/
theorem lines_append_right (s : String) : ∃ front last, lines s = front ++ [last] ∧ lines (s ++ p) = front ++ [last ++ p] := by
  obtain ⟨front, last, hs⟩ := List.eq_nil_or_concat' (lines s) |>.resolve_left (lines_ne_nil s)
  refine ⟨front, last, hs, ?_⟩
  have hjoined : s ++ p = "\n".intercalate (front ++ [last ++ p]) := by
    rw [← intercalate_lines s, hs]
    clear hs
    induction front with
    | nil => rfl
    | cons l front ih =>
      cases front with
      | nil => simp [String.intercalate_cons_cons, String.append_assoc]
      | cons l' front => simpa [String.intercalate_cons_cons, String.append_assoc] using ih
  rw [hjoined]
  refine lines_intercalate (by simp) (List.forall_mem_append.mpr ⟨fun l hl => ?_, List.forall_mem_singleton.mpr ?_⟩)
  · exact newline_not_mem_lines (s := s) (by simp [hs, hl])
  · have hlast : '\n' ∉ last.toList := newline_not_mem_lines (s := s) (by simp [hs])
    simp [hp, hlast]

end Append

/-! ## Replacing -/

section Characters

variable {mark new : List Char} {c : Char} (hc : c ∉ mark)
include hc

/-- A mark does not reach past a character that it does not have. -/
theorem afterMark?_append_cons (cs rest : List Char) :
    afterMark? mark (cs ++ c :: rest) = (afterMark? mark cs).map (· ++ c :: rest) := by
  induction mark generalizing cs with
  | nil => rfl
  | cons m ms ih =>
    obtain ⟨hm, hms⟩ := not_or.mp (mt List.mem_cons.mpr hc)
    cases cs with
    | nil => simp [afterMark?, Ne.symm hm]
    | cons d cs =>
      by_cases hd : m = d
      · simp [afterMark?, hd, ih hms]
      · simp [afterMark?, hd]

theorem replaceFrom_append_cons (hne : mark ≠ []) {skip : Nat} {cs : List Char} (hskip : skip ≤ cs.length)
    (rest : List Char) :
    replaceFrom mark new skip (cs ++ c :: rest) = replaceFrom mark new skip cs ++ c :: replaceFrom mark new 0 rest := by
  induction cs generalizing skip with
  | nil =>
    obtain rfl := Nat.le_zero.mp hskip
    have hnone : afterMark? mark (c :: rest) = none := by
      obtain ⟨m, ms, rfl⟩ := List.exists_cons_of_ne_nil hne
      exact if_neg (Ne.symm (not_or.mp (mt List.mem_cons.mpr hc)).1)
    simp [replaceFrom, hnone]
  | cons d cs ih =>
    cases skip with
    | succ skip => exact ih (Nat.le_of_succ_le_succ hskip)
    | zero =>
      have hafter : afterMark? mark (d :: (cs ++ c :: rest)) = (afterMark? mark (d :: cs)).map (· ++ c :: rest) :=
        afterMark?_append_cons hc (d :: cs) rest
      cases hmark : afterMark? mark (d :: cs) with
      | none =>
        rw [hmark] at hafter
        simp only [List.cons_append, replaceFrom, hafter, hmark, Option.map_none, ih (Nat.zero_le _)]
      | some after =>
        -- the occurrence ends before the character
        have hlength := congrArg List.length (afterMark?_eq_some_iff.mp hmark)
        rw [List.length_append, List.length_cons] at hlength
        rw [hmark] at hafter
        simp only [List.cons_append, replaceFrom, hafter, hmark, Option.map_some, ih (show mark.length - 1 ≤ _ by omega),
          List.append_assoc]

end Characters

/-- Only the empty text becomes empty, if what is put in is not. -/
theorem eq_empty_of_replaceAll {mark new s : String} (hne : mark ≠ "") (hn : new ≠ "") (h : replaceAll mark new s = "") :
    s = "" := by
  cases hcut : cut? mark s with
  | none => rwa [replaceAll_of_not_occurs hne (cut?_eq_none_iff.mp hcut)] at h
  | some cut =>
    rw [replaceAll_of_cut hne hcut, String.append_eq_empty_iff, String.append_eq_empty_iff] at h
    exact absurd h.1.2 hn

section Texts

variable {mark new : String} (hne : mark ≠ "") (hm : '\n' ∉ mark.toList)
include hne hm

theorem replaceAll_line (line s : String) :
    replaceAll mark new (line ++ "\n" ++ s) = replaceAll mark new line ++ "\n" ++ replaceAll mark new s := by
  have hchars : replaceFrom mark.toList new.toList 0 (line.toList ++ '\n' :: s.toList) = _ :=
    replaceFrom_append_cons hm (by simpa using hne) (Nat.zero_le _) s.toList
  simp only [replaceAll_eq_replaceFrom hne]
  apply String.toList_injective
  simpa using hchars

/-- A mark without a line feed is replaced line by line. -/
theorem lines_replaceAll (hn : '\n' ∉ new.toList) (s : String) :
    lines (replaceAll mark new s) = (lines s).map (replaceAll mark new) := by
  have hjoined : ∀ ls : List String, ls ≠ [] →
      replaceAll mark new ("\n".intercalate ls) = "\n".intercalate (ls.map (replaceAll mark new)) := by
    intro ls hls
    induction ls with
    | nil => exact absurd rfl hls
    | cons l ls ih =>
      cases ls with
      | nil => rfl
      | cons l' ls =>
        rw [String.intercalate_cons_cons, replaceAll_line hne hm, ih (List.cons_ne_nil _ _), List.map_cons, List.map_cons,
          List.map_cons, String.intercalate_cons_cons]
  have hfree : ∀ l ∈ (lines s).map (replaceAll mark new), '\n' ∉ l.toList := by
    rw [List.forall_mem_map]
    exact fun l hl => not_mem_replaceAll hn (newline_not_mem_lines hl)
  calc lines (replaceAll mark new s)
      = lines (replaceAll mark new ("\n".intercalate (lines s))) := by rw [intercalate_lines]
    _ = lines ("\n".intercalate ((lines s).map (replaceAll mark new))) := by rw [hjoined _ (lines_ne_nil s)]
    _ = (lines s).map (replaceAll mark new) := lines_intercalate (by simpa using lines_ne_nil s) hfree

end Texts

end SceneScript.Text
