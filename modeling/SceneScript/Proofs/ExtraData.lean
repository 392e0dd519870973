/-
  SceneScript.Proofs.ExtraData — extra data reaches the script as it was written.

  Extra data is the one text of a scene that may run over several lines of its script. It
  is split at its line feeds, and each line is then indented with the block that it stands
  in; an empty line stays empty.

  Proved (`extra_data_reads_back`): dropping the indents again gives the assignment with
  the data in it, character for character, in which only `$$` has become the variable
  (`BindsVariable`). And no two lists of lines make the same block, whatever the indent: one
  with line feeds of its own could be taken for empty lines, but these are counted by the
  line feeds in front of the first other character (`feeds_writeBlock`).
-/
import Mathlib.Data.List.TakeWhile
import SceneScript.Proofs.BodyLines
import SceneScript.Proofs.TextLines

namespace SceneScript

/-! ## Binding the variable -/

/-- `bound` is `data` with the variable in place of each `$$`, where these are found one after another from the left. -/
inductive BindsVariable (var : String) : String → String → Prop
  | last {data : String} : ¬ Text.Occurs "$$" data → BindsVariable var data data
  | next {before rest bound : String} : Text.OnlyAtEnd "$$" before → BindsVariable var rest bound →
      BindsVariable var (before ++ "$$" ++ rest) (before ++ var ++ bound)

theorem bindsVariable_replaceAll (var : String) (data : String) :
    BindsVariable var data (Text.replaceAll "$$" var data) := by
  cases hcut : Text.cut? "$$" data with
  | none =>
    have hnone := Text.cut?_eq_none_iff.mp hcut
    rw [Text.replaceAll_of_not_occurs (by decide) hnone]
    exact .last hnone
  | some cut =>
    obtain ⟨before, rest⟩ := cut
    obtain ⟨hdata, hfirst⟩ := Text.cut?_eq_some_iff.mp hcut
    have hshorter : rest.length < data.length := by
      rw [hdata, String.length_append, String.length_append]
      have : "$$".length = 2 := rfl
      omega
    rw [Text.replaceAll_of_cut (by decide) hcut, hdata]
    exact .next hfirst (bindsVariable_replaceAll var rest)
termination_by data.length

theorem bindsVariable_iff {var data bound : String} :
    BindsVariable var data bound ↔ bound = Text.replaceAll "$$" var data := by
  constructor
  · intro h
    induction h with
    | last hnone => rw [Text.replaceAll_of_not_occurs (by decide) hnone]
    | next hfirst _ ih => rw [Text.replaceAll_of_cut (by decide) (hfirst.cut _), ih]
  · rintro rfl
    exact bindsVariable_replaceAll var data

/-! ## Reading a block -/

/-- A line of a block without its indent, which every line but an empty one must have. -/
def unindent? (indent line : String) : Option String :=
  if line.isEmpty then some line else (Text.afterMark? indent.toList line.toList).map String.ofList

/-- What a block of lines holds: its lines without their indents, joined again. -/
def readBlock? (indent block : String) : Option String :=
  ((Text.lines block).mapM (unindent? indent)).map ("\n".intercalate ·)

/-- A line as it stands in a block. -/
def indented (indent line : String) : String := if line.isEmpty then "" else indent ++ line

theorem unindent?_indented (indent line : String) : unindent? indent (indented indent line) = some line := by
  by_cases hline : line = ""
  · subst hline
    rfl
  · have hafter : Text.afterMark? indent.toList (indent ++ line).toList = some line.toList := by
      rw [Text.afterMark?_eq_some_iff, String.toList_append]
    have hfull : indented indent line = indent ++ line := by simp [indented, hline]
    have hne : (indent ++ line).isEmpty = false := by simp [hline]
    rw [hfull, unindent?, hne, hafter, Option.map_some, String.ofList_toList]
    rfl

variable {indent : String} {ls : List String}

theorem newline_not_mem_indented (hi : '\n' ∉ indent.toList) {line : String} (hl : '\n' ∉ line.toList) :
    '\n' ∉ (indented indent line).toList := by
  unfold indented
  split
  · exact List.not_mem_nil
  · simp [hi, hl]

theorem writeBlock_nil (indent : String) : writeBlock indent [] = "" := rfl

theorem writeBlock_cons (indent line : String) (ls : List String) :
    writeBlock indent (line :: ls) = indented indent line ++ "\n" ++ writeBlock indent ls := by
  by_cases hline : line = "" <;> simp [writeBlock, indented, hline]

theorem writeBlock_cons_ne_nil (indent line : String) (ls : List String) :
    writeBlock indent (line :: ls) ≠ writeBlock indent [] := by
  rw [writeBlock_cons, writeBlock_nil]
  simp

/-- A block is its indented lines, each closed by a line feed. -/
theorem writeBlock_eq_intercalate (hne : ls ≠ []) :
    writeBlock indent ls = "\n".intercalate (ls.map (indented indent)) ++ "\n" := by
  induction ls with
  | nil => exact absurd rfl hne
  | cons l ls ih =>
    cases ls with
    | nil => simp [writeBlock_cons, writeBlock_nil]
    | cons l' ls =>
      rw [writeBlock_cons, ih (List.cons_ne_nil _ _), List.map_cons, List.map_cons, List.map_cons,
        String.intercalate_cons_cons]
      simp only [String.append_assoc]

/-- Reading a block gives its lines, joined. -/
theorem readBlock?_writeBlock (hi : '\n' ∉ indent.toList) (hne : ls ≠ []) (hls : ∀ l ∈ ls, '\n' ∉ l.toList) :
    readBlock? indent ("\n".intercalate (ls.map (indented indent))) = some ("\n".intercalate ls) := by
  have hlines : Text.lines ("\n".intercalate (ls.map (indented indent))) = ls.map (indented indent) := by
    refine Text.lines_intercalate (by simpa using hne) ?_
    rw [List.forall_mem_map]
    exact fun l hl => newline_not_mem_indented hi (hls l hl)
  have hread : (ls.map (indented indent)).mapM (unindent? indent) = some ls := by
    clear hlines hne hls
    induction ls with
    | nil => rfl
    | cons l ls ih =>
      rw [List.map_cons, List.mapM_cons, unindent?_indented, ih]
      rfl
  rw [readBlock?, hlines, hread, Option.map_some]

/-! ## Blocks tell their lines -/

/-- How many line feeds stand in front. -/
def feeds (s : String) : Nat := (s.toList.takeWhile (· == '\n')).length

/-- Some other character stands in the text. -/
def HasInk (s : String) : Prop := ∃ c ∈ s.toList, c ≠ '\n'

theorem feeds_le_append (s t : String) : feeds s ≤ feeds (s ++ t) := by
  rw [feeds, feeds, String.toList_append, List.takeWhile_append]
  split
  · rename_i hall
    rw [hall, List.length_append]
    exact Nat.le_add_right _ _
  · exact Nat.le_refl _

theorem feeds_newline (s : String) : feeds ("\n" ++ s) = feeds s + 1 := by
  simp [feeds]

/-- A line that is not empty ends the line feeds in front. -/
theorem feeds_indent_line (indent : String) {line : String} (hne : line ≠ "") (hl : '\n' ∉ line.toList) (rest : String) :
    feeds (indent ++ (line ++ rest)) = feeds indent := by
  obtain ⟨c, cs, hline⟩ := List.exists_cons_of_ne_nil (show line.toList ≠ [] by simpa using hne)
  have hc : c ≠ '\n' := by
    rintro rfl
    exact hl (by simp [hline])
  have hstop : (line ++ rest).toList.takeWhile (· == '\n') = [] := by
    rw [String.toList_append, hline]
    simp [hc]
  rw [feeds, String.toList_append, List.takeWhile_append, hstop]
  split
  · rename_i hall
    rw [feeds, hall, List.append_nil]
  · rfl

/-- A block that is more than empty lines begins with the line feeds of the indent at least. -/
theorem feeds_writeBlock (indent : String) (ls : List String) (hink : HasInk (writeBlock indent ls)) :
    feeds indent ≤ feeds (writeBlock indent ls) := by
  induction ls with
  | nil =>
    obtain ⟨c, hc, -⟩ := hink
    cases hc
  | cons l ls ih =>
    rw [writeBlock_cons] at hink ⊢
    by_cases hl : l = ""
    · subst hl
      have hfeed : indented indent "" ++ "\n" ++ writeBlock indent ls = "\n" ++ writeBlock indent ls := rfl
      rw [hfeed] at hink ⊢
      have hrest : HasInk (writeBlock indent ls) := by
        obtain ⟨c, hc, hne⟩ := hink
        exact ⟨c, by simpa [hne] using hc, hne⟩
      rw [feeds_newline]
      exact Nat.le_succ_of_le (ih hrest)
    · have hfull : indented indent l = indent ++ l := by simp [indented, hl]
      rw [hfull, String.append_assoc, String.append_assoc]
      exact feeds_le_append _ _

/-- An empty line is not taken for one with an indent. -/
theorem empty_line_ne_indented {line : String} (hne : line ≠ "") (hl : '\n' ∉ line.toList) (ls ls' : List String) :
    writeBlock indent ("" :: ls) ≠ writeBlock indent (line :: ls') := by
  intro h
  have hfull : indented indent line = indent ++ line := by simp [indented, hne]
  have hempty : indented indent "" = "" := rfl
  rw [writeBlock_cons, writeBlock_cons, hfull, hempty, String.empty_append] at h
  have hassoc : indent ++ line ++ "\n" ++ writeBlock indent ls' = indent ++ (line ++ ("\n" ++ writeBlock indent ls')) := by
    simp only [String.append_assoc]
  rw [hassoc] at h
  -- the second block has ink, so the first has some after its empty line
  have hink : HasInk (writeBlock indent ls) := by
    obtain ⟨c, cs, hline⟩ := List.exists_cons_of_ne_nil (show line.toList ≠ [] by simpa using hne)
    have hc : c ≠ '\n' := by
      rintro rfl
      exact hl (by simp [hline])
    have hmem : c ∈ ("\n" ++ writeBlock indent ls).toList := by
      rw [h]
      simp [hline]
    exact ⟨c, by simpa [hc] using hmem, hc⟩
  have hfeeds := congrArg feeds h
  rw [feeds_newline, feeds_indent_line indent hne hl] at hfeeds
  have hle := feeds_writeBlock indent ls hink
  omega

theorem writeBlock_injective {ls' : List String} (hls : ∀ l ∈ ls, '\n' ∉ l.toList) (hls' : ∀ l ∈ ls', '\n' ∉ l.toList)
    (h : writeBlock indent ls = writeBlock indent ls') : ls = ls' := by
  induction ls generalizing ls' with
  | nil =>
    cases ls' with
    | nil => rfl
    | cons l' ls' => exact absurd h.symm (writeBlock_cons_ne_nil _ _ _)
  | cons l ls ih =>
    cases ls' with
    | nil => exact absurd h (writeBlock_cons_ne_nil _ _ _)
    | cons l' ls' =>
      obtain ⟨hl, hmore⟩ := List.forall_mem_cons.mp hls
      obtain ⟨hl', hmore'⟩ := List.forall_mem_cons.mp hls'
      by_cases hempty : l = "" <;> by_cases hempty' : l' = ""
      · subst hempty hempty'
        rw [writeBlock_cons, writeBlock_cons, String.append_right_inj] at h
        rw [ih hmore hmore' h]
      · subst hempty
        exact absurd h (empty_line_ne_indented hempty' hl' _ _)
      · subst hempty'
        exact absurd h.symm (empty_line_ne_indented hempty hl _ _)
      · rw [writeBlock_cons, writeBlock_cons] at h
        have hchars : l.toList ++ '\n' :: (writeBlock indent ls).toList
            = l'.toList ++ '\n' :: (writeBlock indent ls').toList := by
          simpa [indented, hempty, hempty'] using congrArg String.toList h
        obtain ⟨hline, hrest⟩ := Text.append_cons_inj hl hl' hchars
        rw [String.toList_injective hline, ih hmore hmore' (String.toList_injective hrest)]

/-! ## Extra data -/

/-- The lines that attach extra data, if there is any, to a variable. -/
def dataLines (var : String) (data? : Option String) : List String := Statement.linesOfAll (dataStatements var data?)

theorem dataLines_eq {var data : String} (h : Text.isBlank data = false) :
    dataLines var (some data) = Text.lines (Statement.dataText var data) := by
  simp [dataLines, dataStatements, h, Statement.linesOfAll, Statement.lines]

/-- Extra data that is not blank is an assignment of one or more lines, in which each `$$` stands for the variable. Its
    block without the indents gives the assignment back. Blocks of lines are told apart by their text. -/
theorem extra_data_reads_back :
    (∀ var data indent : String, '\n' ∉ var.toList → Text.isBlank data = false → '\n' ∉ indent.toList →
      (∀ l ∈ dataLines var (some data), '\n' ∉ l.toList) ∧
      (∃ first rest, dataLines var (some data) = (var ++ ".data = " ++ first) :: rest) ∧
      (∃ front last, dataLines var (some data) = front ++ [last ++ ";"]) ∧
      ∃ bound, (∀ text, BindsVariable var data text ↔ text = bound) ∧
        ∃ block, writeBlock indent (dataLines var (some data)) = block ++ "\n" ∧
          readBlock? indent block = some (var ++ ".data = " ++ bound ++ ";")) ∧
    ∀ (indent : String) (ls ls' : List String), (∀ l ∈ ls, '\n' ∉ l.toList) → (∀ l ∈ ls', '\n' ∉ l.toList) →
      writeBlock indent ls = writeBlock indent ls' → ls = ls' := by
  refine ⟨fun var data indent hvar hdata hi => ?_, fun _ _ _ => writeBlock_injective⟩
  have hfree : ∀ l ∈ Text.lines (Statement.dataText var data), '\n' ∉ l.toList :=
    fun _ => Text.newline_not_mem_lines
  have hfront : '\n' ∉ (var ++ ".data = ").toList := by simp [hvar]
  obtain ⟨first, rest, -, hfirst⟩ := Text.lines_append_left hfront (Text.replaceAll "$$" var data ++ ";")
  obtain ⟨front, last, -, hlast⟩ :=
    Text.lines_append_right (p := ";") (by decide) (var ++ ".data = " ++ Text.replaceAll "$$" var data)
  have hread := readBlock?_writeBlock hi (Text.lines_ne_nil (Statement.dataText var data)) hfree
  rw [dataLines_eq hdata]
  refine ⟨hfree, ⟨first, rest, ?_⟩, ⟨front, last, hlast⟩, Text.replaceAll "$$" var data, fun _ => bindsVariable_iff, _,
    writeBlock_eq_intercalate (Text.lines_ne_nil _), ?_⟩
  · have htext : Statement.dataText var data = var ++ ".data = " ++ (Text.replaceAll "$$" var data ++ ";") :=
      String.append_assoc
    rw [htext, hfirst]
  · rw [hread, Text.intercalate_lines, Statement.dataText]

/-- Data with an empty line, a carriage return, three dollars in a row and a line that begins with the indent, in a block
    whose indent is a tab. An indent that begins with a line feed does not hide an empty line. -/
theorem torch_data_reads_back :
    dataLines "torch" (some "[\r\n\n\t$$$, $$]\n")
        = ["torch.data = [\r", "", "\ttorch$, torch]", ";"] ∧
      (∃ bound, BindsVariable "torch" "[\r\n\n\t$$$, $$]\n" bound ∧ ∃ block,
        writeBlock "\t" (dataLines "torch" (some "[\r\n\n\t$$$, $$]\n")) = block ++ "\n" ∧
          readBlock? "\t" block = some ("torch" ++ ".data = " ++ bound ++ ";")) ∧
      writeBlock "\nx" ["", "y"] ≠ writeBlock "\nx" ["y", ""] := by
  obtain ⟨hread, hinj⟩ := extra_data_reads_back
  obtain ⟨-, -, -, bound, hbound, hblock⟩ :=
    hread "torch" "[\r\n\n\t$$$, $$]\n" "\t" (by decide) (by decide +kernel) (by decide)
  refine ⟨by decide +kernel, ⟨bound, (hbound bound).mpr rfl, hblock⟩, fun heq => ?_⟩
  exact absurd (hinj "\nx" _ _ (by decide) (by decide) heq) (by decide)

end SceneScript
