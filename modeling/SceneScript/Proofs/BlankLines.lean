/-
  SceneScript.Proofs.BlankLines — one empty line between objects, and no other.

  The lines of a list of objects are those of the objects that are switched on, with one
  empty line between two of them (`linesAmong_eq_intercalate`); so lists of objects may be
  written apart and put together again. In a whole scene the children of a group are set
  off from it in the same way, so its objects, from the outside in, are blocks with one
  empty line between two (`objectLines_eq_intercalate`). A block has no empty line of its
  own unless its extra data has one, so the empty lines count the objects
  (`empty_lines_separate_objects`).

  Extra data is taken as it is written, with the name of the object for `$$`: an object
  without a name makes an empty line of a line that holds nothing else
  (`a_nameless_object_empties_a_line`).
-/
import SceneScript.Proofs.ExtraData
import SceneScript.Proofs.Nesting
import SceneScript.Proofs.PublicVariables
import SceneScript.Proofs.Reparenting

namespace SceneScript

/-! ## Blocks with a separator -/

section Separated

variable {α : Type} {sep : α} {blocks : List (List α)}

theorem count_intercalate [DecidableEq α] (h : ∀ b ∈ blocks, sep ∉ b) : ([sep].intercalate blocks).count sep = blocks.length - 1 := by
  induction blocks with
  | nil => rfl
  | cons b blocks ih =>
    obtain ⟨hb, hblocks⟩ := List.forall_mem_cons.mp h
    cases blocks with
    | nil => simpa using List.count_eq_zero_of_not_mem hb
    | cons b' blocks =>
      rw [List.intercalate_cons_cons, List.count_append, List.count_append, ih hblocks, List.count_eq_zero_of_not_mem hb,
        List.count_singleton_self]
      simp only [List.length_cons]
      omega

/-- Between two lists of blocks, if there are blocks in both. -/
theorem intercalate_append (sep : α) (front back : List (List α)) :
    [sep].intercalate (front ++ back)
      = [sep].intercalate front ++ (if front ≠ [] ∧ back ≠ [] then [sep] else []) ++ [sep].intercalate back := by
  induction front with
  | nil => simp
  | cons b front ih =>
    cases front with
    | nil => cases back <;> simp [List.intercalate_cons_cons]
    | cons b' front =>
      rw [List.cons_append, List.cons_append, List.intercalate_cons_cons, ← List.cons_append, ih, List.intercalate_cons_cons]
      simp only [ne_eq, reduceCtorEq, not_false_eq_true, true_and, List.append_assoc]

variable (hne : ∀ b ∈ blocks, b ≠ [])
include hne

theorem intercalate_eq_nil_iff : [sep].intercalate blocks = [] ↔ blocks = [] := by
  cases blocks with
  | nil => simp
  | cons b blocks =>
    have hb := hne b List.mem_cons_self
    cases blocks <;> simp [List.intercalate_cons_cons, hb]

theorem head?_intercalate (h : ∀ b ∈ blocks, sep ∉ b) : ([sep].intercalate blocks).head? ≠ some sep := by
  cases blocks with
  | nil => simp
  | cons b blocks =>
    obtain ⟨a, rest, rfl⟩ := List.exists_cons_of_ne_nil (hne b List.mem_cons_self)
    have ha : a ≠ sep := fun heq => h _ List.mem_cons_self (heq ▸ List.mem_cons_self)
    cases blocks with
    | nil => simpa using ha
    | cons b' blocks => simpa [List.intercalate_cons_cons] using ha

theorem getLast?_intercalate (h : ∀ b ∈ blocks, sep ∉ b) : ([sep].intercalate blocks).getLast? ≠ some sep := by
  induction blocks with
  | nil => simp
  | cons b blocks ih =>
    obtain ⟨hb, hblocks⟩ := List.forall_mem_cons.mp h
    cases blocks with
    | nil =>
      rw [List.intercalate_singleton]
      exact fun hlast => hb (List.mem_of_getLast? hlast)
    | cons b' blocks =>
      have hmore : [sep].intercalate (b' :: blocks) ≠ [] :=
        mt (intercalate_eq_nil_iff (List.forall_mem_cons.mp hne).2).mp (List.cons_ne_nil _ _)
      rw [List.intercalate_cons_cons, List.getLast?_append_of_ne_nil _ hmore]
      exact ih (List.forall_mem_cons.mp hne).2 hblocks

theorem isChain_intercalate (h : ∀ b ∈ blocks, sep ∉ b) :
    ([sep].intercalate blocks).IsChain fun x y => x ≠ sep ∨ y ≠ sep := by
  induction blocks with
  | nil => exact .nil
  | cons b blocks ih =>
    obtain ⟨hb, hblocks⟩ := List.forall_mem_cons.mp h
    have hfree : ∀ x ∈ b, x ≠ sep := fun x hx heq => hb (heq ▸ hx)
    have hchain : b.IsChain fun x y => x ≠ sep ∨ y ≠ sep :=
      (List.pairwise_of_forall_mem_list fun x hx y _ => .inl (hfree x hx)).isChain
    cases blocks with
    | nil => rwa [List.intercalate_singleton]
    | cons b' blocks =>
      have hhead := head?_intercalate (List.forall_mem_cons.mp hne).2 hblocks
      rw [List.intercalate_cons_cons, List.isChain_append, List.isChain_append]
      refine ⟨⟨hchain, .singleton _, fun x hx y _ => .inl (hfree x (List.mem_of_getLast? hx))⟩,
        ih (List.forall_mem_cons.mp hne).2 hblocks, fun x _ y hy => .inr ?_⟩
      rintro rfl
      exact hhead hy

end Separated

/-! ## Lines of objects -/

theorem linesOfAll_eq_nil_iff {ss : List Statement} : Statement.linesOfAll ss = [] ↔ ss = [] := by
  cases ss with
  | nil => exact iff_of_true rfl rfl
  | cons s ss => simp [Statement.linesOfAll, lines_ne_nil]

namespace SceneObject

/-- The lines of several objects of one place. -/
def linesAmong (cx : Context) (os : List SceneObject) : List String := Statement.linesOfAll (statementsOfAll cx os)

/-- The lines of each object that is switched on. -/
def enabledLines (cx : Context) (os : List SceneObject) : List (List String) :=
  (os.filter (·.info.enabled)).map (linesIn cx)

theorem linesIn_ne_nil (cx : Context) {o : SceneObject} (he : o.info.enabled = true) : o.linesIn cx ≠ [] := by
  cases hs : o.spriteInfo? with
  | none =>
    rw [linesIn_group hs he]
    exact List.cons_ne_nil _ _
  | some sprite =>
    rw [linesIn_leaf hs he]
    exact List.cons_ne_nil _ _

theorem enabledLines_ne_nil {cx : Context} {os : List SceneObject} : ∀ ls ∈ enabledLines cx os, ls ≠ [] := by
  intro ls hls
  obtain ⟨o, ho, rfl⟩ := List.mem_map.mp hls
  exact linesIn_ne_nil cx (List.mem_filter.mp ho).2

end SceneObject

theorem linesOfAll_afterBlank {ss : List Statement} {blocks : List (List String)} (hne : ∀ b ∈ blocks, b ≠ [])
    (h : Statement.linesOfAll ss = [""].intercalate blocks) (block : List String) :
    block ++ Statement.linesOfAll (afterBlank ss) = [""].intercalate (block :: blocks) := by
  cases ss with
  | nil =>
    obtain rfl : blocks = [] := (intercalate_eq_nil_iff hne).mp h.symm
    simp [afterBlank, Statement.linesOfAll]
  | cons s ss =>
    have hblocks : blocks ≠ [] := by
      rintro rfl
      exact absurd (linesOfAll_eq_nil_iff.mp h) (List.cons_ne_nil _ _)
    rw [List.intercalate_cons_of_ne_nil hblocks, ← h, List.append_assoc]
    rfl

/-- Objects that are switched on are separated by an empty line. -/
theorem linesAmong_eq_intercalate (cx : Context) (os : List SceneObject) :
    SceneObject.linesAmong cx os = [""].intercalate (SceneObject.enabledLines cx os) := by
  induction os with
  | nil => rfl
  | cons o os ih =>
    cases he : o.info.enabled with
    | false =>
      have hnone : o.statements cx = [] := SceneObject.statements_of_disabled he
      have hrest : SceneObject.enabledLines cx (o :: os) = SceneObject.enabledLines cx os := by
        simp [SceneObject.enabledLines, he]
      rw [SceneObject.linesAmong, SceneObject.statementsOfAll, hnone, hrest]
      exact ih
    | true =>
      have hsome : o.statements cx ≠ [] := mt linesOfAll_eq_nil_iff.mpr (SceneObject.linesIn_ne_nil cx he)
      have hmore : SceneObject.enabledLines cx (o :: os) = o.linesIn cx :: SceneObject.enabledLines cx os := by
        simp [SceneObject.enabledLines, he]
      rw [hmore, ← linesOfAll_afterBlank SceneObject.enabledLines_ne_nil ih, SceneObject.linesIn, SceneObject.linesAmong,
        SceneObject.statementsOfAll]
      split
      · exact absurd ‹_› hsome
      · simp [Statement.linesOfAll]

theorem linesAmong_append (cx : Context) (xs ys : List SceneObject) :
    SceneObject.linesAmong cx (xs ++ ys)
      = SceneObject.linesAmong cx xs
        ++ (if SceneObject.linesAmong cx xs ≠ [] ∧ SceneObject.linesAmong cx ys ≠ [] then [""] else [])
        ++ SceneObject.linesAmong cx ys := by
  have happend : SceneObject.enabledLines cx (xs ++ ys)
      = SceneObject.enabledLines cx xs ++ SceneObject.enabledLines cx ys := by
    simp [SceneObject.enabledLines]
  simp only [linesAmong_eq_intercalate, happend, intercalate_append, ne_eq,
    intercalate_eq_nil_iff SceneObject.enabledLines_ne_nil]

/-! ## The blocks of a scene -/

theorem Placed.lines_blocks (ps : List Placed) :
    Statement.linesOfAll (blocks ps) = [""].intercalate (ps.map fun p => Statement.linesOfAll p.statements) := by
  induction ps with
  | nil => rfl
  | cons p ps ih =>
    cases ps with
    | nil => simp [blocks, Statement.linesOfAll]
    | cons q ps =>
      rw [List.map_cons] at ih
      rw [List.map_cons, List.map_cons, List.intercalate_cons_cons, ← ih]
      simp [blocks, Statement.linesOfAll, Statement.lines]

/-- The objects of a scene are blocks with one empty line between two of them. -/
theorem objectLines_eq_intercalate (m : Model) :
    m.objectLines = [""].intercalate (m.placed.map fun p => Statement.linesOfAll p.statements) := by
  rw [← Placed.lines_blocks, ← objectStatements_eq_blocks]
  rfl

namespace SceneObject

/-- Only the extra data of an object attaches data to it. -/
theorem mem_dataStatements_of_mem_setup {cx : Context} {o : SceneObject} {target data : String}
    (h : .attachData target data ∈ o.setup cx) : .attachData target data ∈ dataStatements o.info.name o.data? := by
  have hown : Statement.attachData target data ∉ o.ownProperties := by
    cases o <;> simp [ownProperties, PairProperty.settings, Property.assignments]
  -- what else sets an object up could set up a group of its name, which has no extra data
  have hgroup : ¬ (SceneObject.group o.info [] {}).Sets (.attachData target data) := by
    intro hsets
    cases hsets with
    | attachData hdata => cases hdata
  have htransform : ∀ b, Statement.attachData target data ∉ o.info.transform.statements o.info.name b :=
    fun b hmem => hgroup (sets_transform (o := .group o.info [] {}) b _ hmem)
  cases hs : o.spriteInfo? with
  | none =>
    rw [setup_group hs, List.mem_append] at h
    exact absurd h (not_or.mpr ⟨htransform true, hown⟩)
  | some sprite =>
    have hdisplay : Statement.attachData target data ∉ sprite.displayStatements o.info.name :=
      fun hmem => hgroup (sets_display (o := .group o.info [] {}) sprite _ hmem)
    have hbody : Statement.attachData target data ∉ sprite.body.statements o.info.name cx.inArcadeGroup :=
      fun hmem => hgroup (sets_body (o := .group o.info [] {}) sprite.body _ _ hmem)
    have hanimations : Statement.attachData target data ∉ sprite.animations.flatMap (Animation.statements o.info.name) := by
      simp [Animation.statements]
    rw [setup_leaf hs, leafProperties] at h
    rw [data?_leaf hs]
    simpa only [List.mem_append, htransform, hdisplay, hown, hanimations, hbody, false_or] using h

/-- A block without its extra data has no empty line. -/
theorem empty_not_mem_statements {o : SceneObject} {cx : Context} (hd : "" ∉ dataLines o.info.name o.data?) {s : Statement}
    (hs : s ∈ o.setup cx) : "" ∉ s.lines := by
  rcases mem_setup hs with hsets | ⟨a, -, rfl⟩ | ⟨a, -, -, rfl⟩
  · cases hsets with
    | assign => simp [Statement.lines]
    | setTo => simp [Statement.lines]
    | enableBody => simp [Statement.lines]
    | shapeBody => simp [Statement.lines]
    | attachData _ =>
      exact fun hempty => hd (List.mem_flatMap.mpr ⟨_, mem_dataStatements_of_mem_setup hs, hempty⟩)
  · simp [Statement.lines]
  · simp [Statement.lines]

/-- Nor has the whole block. -/
theorem empty_not_mem_block {o : SceneObject} {cx : Context} (he : o.info.enabled = true) (hd : "" ∉ dataLines o.info.name o.data?) :
    "" ∉ Statement.linesOfAll (o.alone.statements cx) := by
  rw [alone_statements he, Statement.linesOfAll, List.flatMap_cons, List.mem_append, not_or]
  refine ⟨by simp [Statement.lines], fun hempty => ?_⟩
  obtain ⟨s, hs, hempty⟩ := List.mem_flatMap.mp hempty
  exact empty_not_mem_statements hd hs hempty

/-- Extra data without an empty line has none in the script, under a name of one line. -/
theorem empty_not_mem_dataLines {o : SceneObject} (hne : o.info.name ≠ "") (hname : '\n' ∉ o.info.name.toList)
    (hd : ∀ data, o.data? = some data → "" ∉ Text.lines data) : "" ∉ dataLines o.info.name o.data? := by
  unfold dataLines
  cases hdata : o.data? with
  | none => exact List.not_mem_nil
  | some data =>
    cases hblank : Text.isBlank data with
    | true => simp [dataStatements, hblank, Statement.linesOfAll]
    | false =>
      have hbound : "" ∉ Text.lines (Text.replaceAll "$$" o.info.name data) := by
        rw [Text.lines_replaceAll (by decide) (by decide) hname]
        intro hempty
        obtain ⟨line, hline, hnone⟩ := List.mem_map.mp hempty
        obtain rfl := Text.eq_empty_of_replaceAll (by decide) hne hnone
        exact hd data hdata hline
      have hfront : '\n' ∉ (o.info.name ++ ".data = ").toList := by simp [hname]
      obtain ⟨first, rest, hlines, hall⟩ := Text.lines_append_left hfront (Text.replaceAll "$$" o.info.name data)
      obtain ⟨front, last, hassigned, htext⟩ := Text.lines_append_right (p := ";") (by decide)
        (o.info.name ++ ".data = " ++ Text.replaceAll "$$" o.info.name data)
      have hrest : "" ∉ Text.lines (o.info.name ++ ".data = " ++ Text.replaceAll "$$" o.info.name data) := by
        rw [hlines, List.mem_cons, not_or] at hbound
        simp [hall, hbound.2]
      rw [hassigned, List.mem_append, not_or] at hrest
      have hlast : "" ∉ Text.lines (Statement.dataText o.info.name data) := by
        rw [Statement.dataText, htext]
        simp [hrest.1]
      simpa [dataStatements, hblank, Statement.linesOfAll, Statement.lines] using hlast

end SceneObject

/-! ## Empty lines -/

/-- Between any two objects that are switched on, at every place, there is one empty line; so lists of objects can be put
    together from their lines. In a scene, unless a line of extra data is empty, there is one empty line fewer than live
    objects, none of them first, last or next to another. Under a name of one line, a line of extra data is empty only if
    it was written so. -/
theorem empty_lines_separate_objects :
    (∀ cx os, SceneObject.linesAmong cx os
      = [""].intercalate ((os.filter (·.info.enabled)).map (SceneObject.linesIn cx))) ∧
    (∀ cx xs ys, SceneObject.linesAmong cx (xs ++ ys)
      = SceneObject.linesAmong cx xs
        ++ (if SceneObject.linesAmong cx xs ≠ [] ∧ SceneObject.linesAmong cx ys ≠ [] then [""] else [])
        ++ SceneObject.linesAmong cx ys) ∧
    (∀ m : Model, (∀ n ∈ m.live, "" ∉ dataLines n.object.info.name n.object.data?) →
      m.objectLines.count "" = m.live.length - 1 ∧ m.objectLines.head? ≠ some "" ∧
        m.objectLines.getLast? ≠ some "" ∧ m.objectLines.IsChain fun l l' => l ≠ "" ∨ l' ≠ "") ∧
    ∀ o : SceneObject, o.info.name ≠ "" → '\n' ∉ o.info.name.toList →
      (∀ data, o.data? = some data → "" ∉ Text.lines data) → "" ∉ dataLines o.info.name o.data? := by
  refine ⟨linesAmong_eq_intercalate, linesAmong_append, fun m hdata => ?_, fun o => SceneObject.empty_not_mem_dataLines⟩
  have hplaced : ∀ p ∈ m.placed, p.object.info.enabled = true ∧ "" ∉ dataLines p.object.info.name p.object.data? := by
    intro p hp
    obtain ⟨earlier, later, hsplit⟩ := List.append_of_mem hp
    rw [placed_eq_live] at hp
    obtain ⟨n, hn, rfl⟩ := List.mem_map.mp hp
    exact ⟨(parents_first hsplit).1, hdata n hn⟩
  have hfree : ∀ b ∈ m.placed.map fun p => Statement.linesOfAll p.statements, "" ∉ b := by
    rw [List.forall_mem_map]
    exact fun p hp => SceneObject.empty_not_mem_block (hplaced p hp).1 (hplaced p hp).2
  have hne : ∀ b ∈ m.placed.map fun p => Statement.linesOfAll p.statements, b ≠ [] := by
    rw [List.forall_mem_map]
    exact fun p hp => mt linesOfAll_eq_nil_iff.mp (SceneObject.wellPlaced_placedAmong _ _ |>.statements_ne_nil p hp)
  rw [objectLines_eq_intercalate]
  refine ⟨?_, head?_intercalate hne hfree, getLast?_intercalate hne hfree, isChain_intercalate hne hfree⟩
  rw [count_intercalate hfree, List.length_map, placed_eq_live, List.length_map]
  rfl

/-- Two lanterns in a row, one with data of two lines and one switched off, and a bat in no group. -/
def lanternRow : Model where
  settings := { className := "Row" }
  world := [
    .group (.named "row")
      [.sprite .image
        { info := .named "lit", texture := .image "lantern", sprite := { data := some "[1,\n$$]" } },
      .sprite .image { info := { name := "out", enabled := false }, texture := .image "lantern" }] {},
    .sprite .image { info := .named "bat", texture := .image "bat" }]

theorem lanternRow_has_two_empty_lines :
    (∀ n ∈ lanternRow.live, "" ∉ dataLines n.object.info.name n.object.data?) ∧
      "lit" ≠ "" ∧ lanternRow.objectLines.count "" = 2 ∧ lanternRow.objectLines.head? ≠ some "" ∧
      "" ∉ dataLines "lit" (some "[1,\n$$]") := by
  obtain ⟨-, -, hscene, hname⟩ := empty_lines_separate_objects
  have hdata : ∀ n ∈ lanternRow.live, "" ∉ dataLines n.object.info.name n.object.data? := by decide +kernel
  obtain ⟨hcount, hhead, -, -⟩ := hscene lanternRow hdata
  refine ⟨hdata, by decide, hcount, hhead, ?_⟩
  refine hname (.sprite .image
    { info := .named "lit", texture := .image "lantern", sprite := { data := some "[1,\n$$]" } }) (by decide) (by decide) ?_
  rintro data ⟨⟩
  decide +kernel

/-- A picture without a name, whose data names it on a line of its own. -/
def namelessScene : Model where
  settings := { className := "Cave" }
  world := [.sprite .image
    { info := .named "", texture := .image "hero", sprite := { data := some "a\n$$\nb" } }]

/-- The data of a scene may be free of empty lines, and yet there are more of them than between its objects. -/
theorem a_nameless_object_empties_a_line :
    ¬ ∀ m : Model, (∀ n ∈ m.live, ∀ data, n.object.data? = some data → "" ∉ Text.lines data) → m.live ≠ [] →
      m.objectLines.count "" = m.live.length - 1 := by
  intro h
  have hdata : ∀ n ∈ namelessScene.live, ∀ data, n.object.data? = some data → "" ∉ Text.lines data := by
    intro n hn data hd
    obtain rfl := List.mem_singleton.mp hn
    obtain rfl := Option.some.inj hd
    decide +kernel
  have hcount : namelessScene.objectLines.count "" = 1 := by decide +kernel
  have hone : namelessScene.live.length = 1 := rfl
  have hsame := h namelessScene hdata (List.ne_nil_of_length_pos (by rw [hone]; exact Nat.one_pos))
  rw [hcount, hone] at hsame
  cases hsame

end SceneScript
