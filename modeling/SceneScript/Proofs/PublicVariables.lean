/-
  SceneScript.Proofs.PublicVariables — public fields and the variables they take.

  The statements that make the objects and the assignments to the public fields come from
  two walks over the scene, each with rules of its own for what is skipped and what is
  named. They stay in step:
  - The right-hand variables of the fields are those of the public live objects, each
    followed by its public animations, from the outside in.
  - The lines that declare these variables stand among the lines of the objects in the
    same order (`publicNames_sublist_declared`, `lines_of_declared_sublist`).

  A line `v.killOnComplete = true;` stands right after the line that declares `v`
  (`declared_before_killLine`), unless it belongs to an expression that people wrote and the script
  repeats as it stands. Extra data may run over several lines, so one of them can have
  this form anywhere (`a_data_line_kills_without_declaring`). A leaf that nothing refers
  to declares nothing.

  Together: `public_fields_follow_declarations`.
-/
import Mathlib.Data.List.Flatten
import Mathlib.Data.List.NodupEquivFin
import SceneScript.Proofs.Digits
import SceneScript.Proofs.Nesting
import SceneScript.Proofs.ObjectBlock

namespace SceneScript

/-! ## The names of public fields -/

/-- The variables of an object that are public: its own, and those of its animations. -/
def SceneObject.publicNames (o : SceneObject) : List String :=
  (if o.info.isPublic then [o.info.name] else [])
    ++ (o.animations.filter (·.isPublic)).map fun a => o.info.name ++ "_" ++ a.name

/-- The public variables of a scene: those of its live objects, from the outside in. -/
def Model.publicNames (m : Model) : List String :=
  (m.everything.filter Nested.isLive).flatMap fun n => n.object.publicNames

theorem SceneObject.map_publicFields (o : SceneObject) : o.publicFields.map (·.variableName) = o.publicNames := by
  unfold publicFields publicNames animations
  cases o.spriteInfo? with
  | none => split <;> rfl
  | some sprite =>
    simp only [List.map_append, List.map_map]
    split <;> rfl

/-- The right-hand variables of the public fields are the public variables of the live objects. -/
theorem map_publicFields (m : Model) : m.publicFields.map (·.variableName) = m.publicNames := by
  rw [Model.publicFields, enabledAmong_eq_live, List.flatMap_map, List.map_flatMap]
  simp only [SceneObject.map_publicFields]
  rfl

theorem fieldLines_eq (m : Model) :
    m.fieldLines = m.publicNames.map fun v => "this." ++ Naming.fieldName v ++ " = " ++ v ++ ";" := by
  rw [Model.fieldLines, ← map_publicFields, List.map_map]
  rfl

/-! ## Declarations of public variables -/

namespace SceneObject

theorem publicNames_sublist_declaredNames (cx : Context) (o : SceneObject) :
    o.publicNames.Sublist (o.declaredNames cx) := by
  refine List.Sublist.append ?_ (List.Sublist.map _ (List.monotone_filter_right _ fun a ha => ?_))
  · by_cases hp : o.info.isPublic = true
    · rw [if_pos hp, if_pos (declares_of_public hp cx)]
    · rw [if_neg hp]
      exact List.nil_sublist _
  · simp only [Animation.hasVariable, ha, Bool.true_or]

end SceneObject

theorem filterMap_declared_objectStatements (m : Model) :
    m.objectStatements.filterMap Statement.declared? = m.placed.flatMap fun p => p.object.declaredNames p.cx := by
  rw [objectStatements_eq_blocks, List.filterMap_eq_flatMap_toList, Placed.flatMap_blocks rfl]
  refine List.flatMap_congr fun p hp => ?_
  obtain ⟨earlier, later, h⟩ := List.append_of_mem hp
  rw [← List.filterMap_eq_flatMap_toList]
  exact SceneObject.filterMap_declared_alone (parents_first h).1 p.cx

/-- The public variables are among the declared ones, in the same order. -/
theorem publicNames_sublist_declared (m : Model) :
    m.publicNames.Sublist (m.objectStatements.filterMap Statement.declared?) := by
  rw [filterMap_declared_objectStatements, Model.publicNames, placed_eq_live, List.flatMap_map]
  exact List.Sublist.flatMap_right _ fun n _ => n.object.publicNames_sublist_declaredNames _

/-- Each of them has its line, in the same order. -/
theorem lines_of_declared_sublist {names : List String} {statements : List Statement}
    (h : names.Sublist (statements.filterMap Statement.declared?)) :
    ∃ lines, lines.Sublist (Statement.linesOfAll statements) ∧ List.Forall₂ Declares names lines := by
  induction statements generalizing names with
  | nil =>
    obtain rfl := List.sublist_nil.mp h
    exact ⟨[], List.nil_sublist _, .nil⟩
  | cons s rest ih =>
    -- a line of a later statement also stands after this one
    have hskip : names.Sublist (rest.filterMap Statement.declared?) →
        ∃ lines, lines.Sublist (Statement.linesOfAll (s :: rest)) ∧ List.Forall₂ Declares names lines := by
      intro hrest
      obtain ⟨lines, hsub, hdecl⟩ := ih hrest
      exact ⟨lines, hsub.trans (List.sublist_append_right _ _), hdecl⟩
    cases hv : s.declared? with
    | none =>
      rw [List.filterMap_cons_none hv] at h
      exact hskip h
    | some v =>
      rw [List.filterMap_cons_some hv] at h
      cases h with
      | cons _ hrest => exact hskip hrest
      | cons_cons _ hrest =>
        obtain ⟨lines, hsub, hdecl⟩ := ih hrest
        obtain ⟨line, hline, hdeclares⟩ := Statement.lines_of_declared hv
        refine ⟨line :: lines, ?_, .cons hdeclares hdecl⟩
        rw [Statement.linesOfAll, List.flatMap_cons, hline]
        exact hsub.cons_cons line

/-- Where the public variables are declared: at places that only go forward. -/
theorem exists_declaration_index (m : Model) :
    ∃ index : ℕ → ℕ, StrictMono index ∧
      ∀ k v, m.publicNames[k]? = some v → ∃ line, m.objectLines[index k]? = some line ∧ Declares v line := by
  obtain ⟨lines, hsub, hdecl⟩ := lines_of_declared_sublist (publicNames_sublist_declared m)
  obtain ⟨index, hindex⟩ := List.sublist_iff_exists_orderEmbedding_getElem?_eq.mp hsub
  refine ⟨index, index.strictMono, fun k v hk => ?_⟩
  obtain ⟨hlt, rfl⟩ := List.getElem?_eq_some_iff.mp hk
  have hlt' : k < lines.length := hdecl.length_eq ▸ hlt
  refine ⟨lines[k], ?_, List.Forall₂.get hdecl hlt hlt'⟩
  rw [← List.getElem?_eq_getElem hlt', hindex k]
  rfl

/-! ## Animations that kill their object -/

/-- Each statement that lets an animation kill its object stands right after the one that adds the animation. -/
def KillsInPlace (statements : List Statement) : Prop :=
  ∀ earlier target name later, statements = earlier ++ .killOnComplete target name :: later →
    ∃ front a, earlier = front ++ [.addAnimation target a] ∧ a.name = name ∧ a.killOnComplete = true

namespace KillsInPlace

theorem of_not_mem {statements : List Statement} (h : ∀ target name, .killOnComplete target name ∉ statements) :
    KillsInPlace statements := by
  rintro earlier target name later rfl
  exact absurd (List.mem_append_right _ List.mem_cons_self) (h target name)

theorem append {xs ys : List Statement} (hx : KillsInPlace xs) (hy : KillsInPlace ys) : KillsInPlace (xs ++ ys) := by
  intro earlier target name later h
  -- in the second list, the statement before it is in the second list too
  have hsecond : ∀ l, earlier = xs ++ l → ys = l ++ .killOnComplete target name :: later →
      ∃ front a, earlier = front ++ [.addAnimation target a] ∧ a.name = name ∧ a.killOnComplete = true := by
    rintro l rfl hl
    obtain ⟨front, a, rfl, ha⟩ := hy l target name later hl
    exact ⟨xs ++ front, a, (List.append_assoc _ _ _).symm, ha⟩
  rcases List.append_eq_append_iff.mp h with ⟨l, hl, hr⟩ | ⟨l, hl, hr⟩
  · exact hsecond l hl hr
  · cases l with
    | nil => exact hsecond [] (by simpa using hl.symm) (by simpa using hr.symm)
    | cons s l =>
      obtain ⟨rfl, -⟩ := List.cons.inj hr
      exact hx earlier target name l hl

theorem flatMap {α : Type} {f : α → List Statement} {xs : List α} (h : ∀ x ∈ xs, KillsInPlace (f x)) :
    KillsInPlace (xs.flatMap f) := by
  induction xs with
  | nil => exact of_not_mem (by simp)
  | cons x xs ih =>
    obtain ⟨hx, hxs⟩ := List.forall_mem_cons.mp h
    exact hx.append (ih hxs)

theorem animation (var : String) (a : Animation) : KillsInPlace (a.statements var) := by
  unfold Animation.statements
  by_cases hk : a.killOnComplete = true
  · rw [if_pos hk]
    intro earlier target name later h
    match earlier, h with
    | [], h => cases h
    | [s], h =>
      obtain ⟨rfl, hrest⟩ := List.cons.inj h
      obtain ⟨hkill, -⟩ := List.cons.inj hrest
      cases hkill
      exact ⟨[], a, rfl, rfl, hk⟩
    | _ :: _ :: _, h => simp at h
  · rw [if_neg hk]
    exact of_not_mem (by simp)

theorem setup (cx : Context) (o : SceneObject) : KillsInPlace (o.setup cx) := by
  obtain ⟨before, after, hsplit, hbefore, hafter⟩ := o.setup_split cx
  have hsets : ∀ ss : List Statement, (∀ s ∈ ss, o.Sets s) → KillsInPlace ss := fun ss h =>
    of_not_mem fun target name hmem => nomatch h _ hmem
  rw [hsplit]
  exact ((hsets before hbefore).append (flatMap fun a _ => animation _ a)).append (hsets after hafter)

/-- They do so in a whole scene. -/
theorem objectStatements (m : Model) : KillsInPlace m.objectStatements := by
  have hone : ∀ {s : Statement}, (∀ target name, s ≠ .killOnComplete target name) → KillsInPlace [s] := fun h =>
    of_not_mem fun target name hmem => h target name (List.mem_singleton.mp hmem).symm
  have hblock : ∀ p ∈ m.placed, KillsInPlace p.statements := fun p hp => by
    rw [Placed.statements_eq hp]
    exact (hone (by simp)).append (setup p.cx p.object)
  rw [objectStatements_eq_blocks]
  cases hps : m.placed with
  | nil => exact of_not_mem (by simp [Placed.blocks])
  | cons p rest =>
    rw [hps] at hblock
    obtain ⟨hp, hrest⟩ := List.forall_mem_cons.mp hblock
    exact hp.append (flatMap fun q hq => (hone (by simp)).append (hrest q hq))

end KillsInPlace

/-! ## Lines that read like such statements -/

/-- Does the statement end in an expression that people wrote? The script repeats these as they stand. -/
def Statement.endsInExpression : Statement → Bool
  | .assign _ path _ => path == tintProperty.path
  | .attachData _ _ => true
  | _ => false

/-- The line by which an animation kills its object. -/
def killLine (v : String) : String := v ++ ".killOnComplete = true;"

section KillLine

variable {v x : String}

theorem not_killLine_of_call : x ++ ");" ≠ killLine v := fun h => by
  have := congrArg (fun s => s.toList.reverse) h
  simp [killLine] at this

theorem getLast_of_killLine (h : x ++ ";" = killLine v) : x.toList.getLast? = some 'e' := by
  have hchars : x.toList ++ [';'] = v.toList ++ ".killOnComplete = true".toList ++ [';'] := by
    simpa [killLine] using congrArg String.toList h
  simp [List.append_cancel_right hchars]

/-- Of all values only a flag or a raw expression ends in this letter. -/
theorem Expr.ends_in_e {value : Expr} (h : value.render.toList.getLast? = some 'e') :
    (∃ b, value = .flag b) ∨ ∃ source, value = .raw source := by
  have hdigit : ∀ {c : Char}, c.isDigit = true ∨ c = '.' ∨ c = '-' → c ≠ 'e' := by
    rintro c h rfl
    simp [Char.isDigit] at h
  have hmem : 'e' ∈ value.render.toList := List.mem_of_getLast? h
  cases value with
  | number d => exact absurd rfl (hdigit (Literal.mem_number hmem))
  | pixels d => exact absurd rfl (hdigit (Literal.mem_number hmem))
  | word n =>
    refine absurd rfl (hdigit (.inl (Decimal.isDigit_of_mem_digitChars (n := n.toNat) ?_)))
    simpa [Expr.render, Literal.word, Decimal.natText] using hmem
  | flag b => exact .inl ⟨b, rfl⟩
  | text s =>
    have hquoted : (Expr.text s).render.toList = '\'' :: s.toList.flatMap Literal.escapeChar ++ ['\''] := by
      simp [Expr.render, Literal.text, Literal.textChars]
    rw [hquoted, List.getLast?_concat] at h
    simp at h
  | raw source => exact .inr ⟨source, rfl⟩

/-- No property that is assigned is called like the one that lets an animation kill its object. -/
theorem killOnComplete_not_assigned :
    ∀ path ∈ assignedPaths, ¬path.toList <:+ ".killOnComplete".toList ∧ ¬".killOnComplete".toList <:+ path.toList := by
  decide +kernel

theorem assignment_ne_killLine {target path : String} {value : Expr} (hpath : path ∈ assignedPaths)
    (hraw : ∀ source, value = .raw source → ∃ d : SortDirection, source = d.constant) :
    target ++ "." ++ path ++ " = " ++ value.render ++ ";" ≠ killLine v := by
  intro h
  have hlast := getLast_of_killLine h
  have hvalue : value.render.toList.getLast? = some 'e' := by
    have hspace : (target ++ "." ++ path ++ " = ").toList.getLast? = some ' ' := by
      rw [String.toList_append, List.getLast?_append]
      rfl
    rw [String.toList_append, List.getLast?_append, hspace] at hlast
    cases hr : value.render.toList.getLast? with
    | none => simp [hr] at hlast
    | some c => simpa [hr] using hlast
  rcases Expr.ends_in_e hvalue with ⟨b, rfl⟩ | ⟨source, hsource⟩
  · cases b with
    | true =>
      have hpaths : (target ++ "." ++ path).toList = v.toList ++ ".killOnComplete".toList := by
        have hchars : (target ++ "." ++ path).toList ++ " = true;".toList
            = v.toList ++ ".killOnComplete".toList ++ " = true;".toList := by
          simpa [killLine, Expr.render, Literal.flag] using congrArg String.toList h
        exact List.append_cancel_right hchars
      have hsuffix : path.toList <:+ v.toList ++ ".killOnComplete".toList := by
        rw [← hpaths, String.toList_append]
        exact List.suffix_append _ _
      obtain ⟨hleft, hright⟩ := killOnComplete_not_assigned path hpath
      exact (List.suffix_or_suffix_of_suffix hsuffix (List.suffix_append _ _)).elim hleft hright
    | false =>
      have := congrArg (fun s => s.toList.reverse) h
      simp [killLine, Expr.render, Literal.flag] at this
  · obtain ⟨d, rfl⟩ := hraw source hsource
    rw [hsource] at hvalue
    revert hvalue
    cases d <;> decide

end KillLine

/-- Among the statements of a scene, unless they end in an expression, only those that let an animation kill its object
    have such a line. -/
theorem kill_of_mem_lines {m : Model} {s : Statement} (hs : s ∈ m.objectStatements)
    (he : s.endsInExpression = false) {v : String} (h : killLine v ∈ s.lines) :
    ∃ target name, s = .killOnComplete target name ∧ Naming.animationVariable target name = v := by
  rcases mem_objectStatements hs with rfl | ⟨p, -, rfl | hs⟩
  · have := congrArg String.length (List.mem_singleton.mp h)
    simp [killLine] at this
  · have hcall : ∀ x y : String, x ++ (y ++ ")") ++ ";" = x ++ y ++ ");" := fun x y => by
      rw [← String.append_assoc, String.append_assoc]
      rfl
    refine absurd (List.mem_singleton.mp h).symm ?_
    rw [Call.render, hcall]
    exact not_killLine_of_call
  · rcases SceneObject.mem_setup hs with hsets | ⟨a, -, rfl⟩ | ⟨a, -, -, rfl⟩
    · cases hsets with
      | assign hpath hraw => 
        refine absurd (List.mem_singleton.mp h).symm (assignment_ne_killLine hpath fun source hsource => ?_)
        refine (hraw source hsource).resolve_left fun htint => ?_
        rw [htint] at he
        cases he
      | setTo => exact absurd (List.mem_singleton.mp h).symm not_killLine_of_call
      | enableBody => exact absurd (List.mem_singleton.mp h).symm not_killLine_of_call
      | shapeBody => exact absurd (List.mem_singleton.mp h).symm not_killLine_of_call
      | attachData hdata => cases he
    · exact absurd (List.mem_singleton.mp h).symm not_killLine_of_call
    · refine ⟨_, _, rfl, ?_⟩
      have := congrArg String.toList (List.mem_singleton.mp h)
      exact String.toList_injective (by simpa [killLine] using this.symm)

/-- Such a line stands right after the one that declares its variable. -/
theorem declared_before_killLine {m : Model} {earlier later : List Statement} {s : Statement}
    (hsplit : m.objectStatements = earlier ++ s :: later) (he : s.endsInExpression = false) {v : String}
    (h : killLine v ∈ s.lines) :
    s.lines = [killLine v] ∧ ∃ front line, Statement.linesOfAll earlier = front ++ [line] ∧ Declares v line := by
  have hs : s ∈ m.objectStatements := hsplit ▸ List.mem_append_right _ List.mem_cons_self
  obtain ⟨target, name, rfl, rfl⟩ := kill_of_mem_lines hs he h
  obtain ⟨front, a, rfl, rfl, hk⟩ := KillsInPlace.objectStatements m earlier target name later hsplit
  have hdeclared : (Statement.addAnimation target a).declared? = some (Naming.animationVariable target a.name) := by
    simp [Statement.declared?, Animation.hasVariable, hk]
  obtain ⟨line, hline, hdeclares⟩ := Statement.lines_of_declared hdeclared
  refine ⟨rfl, Statement.linesOfAll front, line, ?_, hdeclares⟩
  simp only [Statement.linesOfAll, List.flatMap_append, List.flatMap_singleton, hline]

/-! ## Leaves that nothing refers to -/

theorem lines_ne_nil (s : Statement) : s.lines ≠ [] := by
  have hlines : ∀ cs : List Char, Text.lineChars cs ≠ [] := fun cs => by
    cases cs with
    | nil => simp [Text.lineChars]
    | cons c cs =>
      rw [Text.lineChars]
      split
      · simp
      · split <;> simp
  cases s with
  | attachData => simpa [Statement.lines, Text.lines] using hlines _
  | _ => exact List.cons_ne_nil _ _

theorem SceneObject.receiver_call (cx : Context) (o : SceneObject) : (o.call cx).receiver = cx.kind.receiver := by
  cases o with
  | group info children physics =>
    simp only [call, groupCall]
    split <;> rfl
  | sprite => rfl
  | button => rfl
  | tileSprite => rfl
  | bitmapText => rfl

/-- A leaf that is not public and has no other line gets no variable. -/
theorem leaf_without_variable {cx : Context} {o : SceneObject} {sprite : SpriteInfo}
    (hs : o.spriteInfo? = some sprite) (hp : o.info.isPublic = false) {line : String}
    (h : Statement.linesOfAll (o.statements cx) = [line]) : ¬"var ".toList <+: line.toList := by
  by_cases he : o.info.enabled = true
  · rw [← SceneObject.alone_of_leaf hs, SceneObject.alone_statements he, Statement.linesOfAll, List.flatMap_cons] at h
    have hsetup : o.setup cx = [] := by
      cases hsetup : o.setup cx with
      | nil => rfl
      | cons s rest =>
        have hrest : ((s :: rest).flatMap Statement.lines) = [] := by
          rw [← hsetup]
          exact (List.cons.inj h).2
        exact absurd (List.append_eq_nil_iff.mp hrest).1 (lines_ne_nil s)
    rw [hsetup, SceneObject.declares_leaf hs, hsetup, hp] at h
    obtain rfl : (o.call cx).render ++ ";" = line := by simpa [Statement.lines, Statement.declaration] using h
    rw [Call.render, SceneObject.receiver_call]
    cases cx.kind <;> simp [SceneKind.receiver]
  · rw [SceneObject.statements_of_disabled (by simpa using he)] at h
    cases h

/-! ## The two walks agree -/

/-- The fields are set after all objects are made. -/
theorem fields_after_objects (config : Config) (m : Model) (previous : Option String) :
    ∃ front rest, generate config m previous
      = front ++ writeBlock config.indent m.objectLines ++ "\n" ++ fieldBlock config.indent m.fieldLines ++ rest :=
  ⟨_, _, rfl⟩

/-- The public fields are set from the public variables, from the outside in. Each of these variables is declared
    before, in the same order, by a line among those of the objects, which are the lines of the scene's statements. A
    line by which an animation kills its object stands right after the one that declares the animation's variable,
    unless it belongs to a tint or to extra data. A leaf that is not public and has no other line declares nothing. -/
theorem public_fields_follow_declarations (m : Model) :
    m.fieldLines = m.publicNames.map (fun v => "this." ++ Naming.fieldName v ++ " = " ++ v ++ ";") ∧
    (∃ index : ℕ → ℕ, StrictMono index ∧
      ∀ k v, m.publicNames[k]? = some v → ∃ line, m.objectLines[index k]? = some line ∧ Declares v line) ∧
    (∀ config previous, ∃ front rest, generate config m previous
      = front ++ writeBlock config.indent m.objectLines ++ "\n" ++ fieldBlock config.indent m.fieldLines ++ rest) ∧
    (m.objectLines = Statement.linesOfAll m.objectStatements ∧
      ∀ earlier s later, m.objectStatements = earlier ++ s :: later → s.endsInExpression = false →
        ∀ v, killLine v ∈ s.lines → s.lines = [killLine v] ∧
          ∃ front line, Statement.linesOfAll earlier = front ++ [line] ∧ Declares v line) ∧
    (∀ cx (o : SceneObject) sprite line, o.spriteInfo? = some sprite → o.info.isPublic = false →
      Statement.linesOfAll (o.statements cx) = [line] → ¬"var ".toList <+: line.toList) :=
  ⟨fieldLines_eq m, exists_declaration_index m, fun config previous => fields_after_objects config m previous,
    ⟨rfl, fun _ _ _ hsplit he _ h => declared_before_killLine hsplit he h⟩,
    fun _ _ _ _ hs hp h => leaf_without_variable hs hp h⟩

/-- A walking hero, with extra data of two lines. -/
def walkingHero : Model where
  settings := { className := "Cave" }
  world := [.sprite .image {
    info := { name := "hero" }
    texture := .image "hero"
    sprite := {
      animations := [{ name := "walk", frames := [], isPublic := true }]
      data := some "\nhero_walk.killOnComplete = true" } }]

/-- The second line of extra data reads like the line of an animation, wherever it stands. -/
theorem a_data_line_kills_without_declaring :
    ¬ ∀ before after, walkingHero.objectLines = before ++ killLine "hero_walk" :: after →
      ∃ front line, before = front ++ [line] ∧ Declares "hero_walk" line := by
  intro h
  have hlines : walkingHero.objectLines = [
      "var hero = this.game.add.sprite(0, 0, 'hero', null, this);",
      "var hero_walk = hero.animations.add('walk', [], 60, false);",
      "hero.data = "] ++ killLine "hero_walk" :: [] := by decide +kernel
  obtain ⟨front, line, hsplit, hdeclares⟩ := h _ _ hlines
  obtain rfl : "hero.data = " = line := by simpa using congrArg List.getLast? hsplit
  exact absurd hdeclares (by decide)

end SceneScript
