/-
  SceneScript.Proofs.SceneOutline — the tree of a scene, read off its script.

  In a group or sprite scene every object is handed to its parent, and the line that
  makes it ends in the parent's variable. The lines stand in the order of the tree, so
  the tree can be put together again from the back: the outlines that follow a line and
  name its variable as their parent go inside (`Outline.attach`). Reading the lines of a
  scene in this way gives the tree of its live objects (`ofLines_objectLines`).

  Animations may be called anything. One with a name like `x = this.game.add.y` has a line
  that reads as if it made an object (`an_animation_reads_like_an_object`).
-/
import SceneScript.Proofs.MakingLines

namespace SceneScript

/-! ## Outlines -/

/-- The lines that make objects, each with those of the objects inside. -/
inductive Outline where
  | node (line : String) (inner : List Outline)

/-- The variable that a line declares, if it begins with a declaration. -/
def declaredName? (line : String) : Option String :=
  (Text.afterMark? "var ".toList line.toList).map fun rest => String.ofList (rest.takeWhile (· ≠ ' '))

namespace Outline

/-- Puts a line before the outlines that follow it, each noted with its parent. Those that come at once and have the
    line's variable for their parent go inside. -/
def attach (line : String) (after : List (String × Outline)) : List (String × Outline) :=
  let isInner := fun entry : String × Outline => declaredName? line == some entry.1
  (lastArgument line, .node line ((after.takeWhile isInner).map (·.2))) :: after.dropWhile isInner

/-- The outlines that the lines of a script describe. -/
def ofLines (lines : List String) : List Outline := ((lines.filter makesObject).foldr attach []).map (·.2)

end Outline

mutual

/-- The outline of an object, unless it is switched off. -/
def SceneObject.outlineIn (cx : Context) : SceneObject → List Outline
  | .group info children physics =>
    if info.enabled then
      [.node (Placed.makingLine ⟨cx, .group info children physics⟩) (outlineAmong (cx.within info physics) children)]
    else []
  | .sprite kind o => if o.info.enabled then [.node (Placed.makingLine ⟨cx, .sprite kind o⟩) []] else []
  | .button o => if o.info.enabled then [.node (Placed.makingLine ⟨cx, .button o⟩) []] else []
  | .tileSprite o => if o.info.enabled then [.node (Placed.makingLine ⟨cx, .tileSprite o⟩) []] else []
  | .bitmapText o => if o.info.enabled then [.node (Placed.makingLine ⟨cx, .bitmapText o⟩) []] else []
termination_by structural o => o

def SceneObject.outlineAmong (cx : Context) : List SceneObject → List Outline
  | [] => []
  | o :: rest => outlineIn cx o ++ outlineAmong cx rest
termination_by structural os => os

end

/-- The tree of the live objects of a scene, each as the line that makes it. -/
def Model.outline (m : Model) : List Outline := SceneObject.outlineAmong { kind := m.settings.kind } m.world

/-! ## Putting an outline together -/

/-- The line that makes an object declares its variable, if it has one. -/
theorem declaredName?_makingLine (cx : Context) {o : SceneObject} (hname : IsWord o.info.name) :
    declaredName? (Placed.makingLine ⟨cx, o⟩) = if o.declares cx then some o.info.name else none := by
  unfold declaredName? Placed.makingLine
  cases o.declares cx with
  | true =>
    have hline : (Statement.declaration o.info.name true ++ (o.call cx).render ++ ";").toList
        = "var ".toList ++ (o.info.name.toList ++ ' ' :: ("= ".toList ++ (o.call cx).render.toList ++ [';'])) := by
      simp [Statement.declaration]
    rw [Text.afterMark?_eq_some_iff.mpr hline, Option.map_some, hname.takeWhile (by simp), String.ofList_toList]
    rfl
  | false =>
    have hreceiver : ∃ more, (Statement.declaration o.info.name false ++ (o.call cx).render ++ ";").toList
        = 't' :: more := by
      rw [Call.render, SceneObject.receiver_call]
      cases cx.kind <;> exact ⟨_, by simp [Statement.declaration, SceneKind.receiver]; rfl⟩
    obtain ⟨more, hline⟩ := hreceiver
    rw [hline]
    rfl

namespace Outline

theorem attach_eq {line : String} {inner after : List (String × Outline)}
    (hinner : ∀ entry ∈ inner, declaredName? line = some entry.1)
    (hafter : ∀ entry ∈ after, declaredName? line ≠ some entry.1) :
    attach line (inner ++ after) = (lastArgument line, .node line (inner.map (·.2))) :: after := by
  have hin : ∀ entry ∈ inner, (declaredName? line == some entry.1) = true := fun entry he => by simp [hinner entry he]
  simp only [attach]
  rw [List.takeWhile_append_of_pos hin, List.dropWhile_append_of_pos hin]
  cases after with
  | nil => simp
  | cons entry after =>
    have hout : (declaredName? line == some entry.1) = false := by simpa using hafter entry List.mem_cons_self
    simp only [List.takeWhile_cons, List.dropWhile_cons, hout, Bool.false_eq_true, if_false, List.append_nil]

/-- Objects whose lines can be read before given outlines: their names are words, and distinct from each other, from
    their parent and from the parents of what follows. -/
structure Readable (cx : Context) (ps : List Placed) (after : List (String × Outline)) : Prop where
  word : ∀ p ∈ ps, IsWord p.object.info.name
  parent_word : IsWord cx.parentName
  distinct : (ps.map (·.object.info.name)).Nodup
  not_parent : ∀ p ∈ ps, p.object.info.name ≠ cx.parentName
  not_after : ∀ p ∈ ps, ∀ entry ∈ after, p.object.info.name ≠ entry.1

namespace Readable

variable {cx : Context} {after : List (String × Outline)}

theorem right {ps qs : List Placed} (h : Readable cx (ps ++ qs) after) : Readable cx qs after where
  word p hp := h.word p (List.mem_append_right _ hp)
  parent_word := h.parent_word
  distinct := (List.nodup_append.mp (List.map_append ▸ h.distinct)).2.1
  not_parent p hp := h.not_parent p (List.mem_append_right _ hp)
  not_after p hp := h.not_after p (List.mem_append_right _ hp)

/-- What follows the first objects are the outlines of their siblings. -/
theorem left {ps qs : List Placed} (h : Readable cx (ps ++ qs) after) (siblings : List Outline) :
    Readable cx ps (siblings.map (cx.parentName, ·) ++ after) where
  word p hp := h.word p (List.mem_append_left _ hp)
  parent_word := h.parent_word
  distinct := (List.nodup_append.mp (List.map_append ▸ h.distinct)).1
  not_parent p hp := h.not_parent p (List.mem_append_left _ hp)
  not_after p hp entry he := by
    rcases List.mem_append.mp he with he | he
    · obtain ⟨outline, -, rfl⟩ := List.mem_map.mp he
      exact h.not_parent p (List.mem_append_left _ hp)
    · exact h.not_after p (List.mem_append_left _ hp) entry he

/-- The objects of a group. -/
theorem inside {info : ObjectInfo} {children : List SceneObject} {physics : GroupPhysics} {ps : List Placed}
    (h : Readable cx (⟨cx, .group info children physics⟩ :: ps) after) : Readable (cx.within info physics) ps after where
  word p hp := h.word p (List.mem_cons_of_mem _ hp)
  parent_word := h.word _ List.mem_cons_self
  distinct := (List.nodup_cons.mp h.distinct).2
  not_parent p hp := fun heq => (List.nodup_cons.mp h.distinct).1 (List.mem_map.mpr ⟨p, hp, heq⟩)
  not_after p hp := h.not_after p (List.mem_cons_of_mem _ hp)

/-- A leaf goes before what follows, with nothing inside. -/
theorem attach_leaf (hkind : cx.kind ≠ .state) {o : SceneObject} (h : Readable cx [⟨cx, o⟩] after) :
    attach (Placed.makingLine ⟨cx, o⟩) after = (cx.parentName, .node (Placed.makingLine ⟨cx, o⟩) []) :: after := by
  have hafter : ∀ entry ∈ after, declaredName? (Placed.makingLine ⟨cx, o⟩) ≠ some entry.1 := by
    intro entry he
    rw [declaredName?_makingLine cx (h.word _ List.mem_cons_self)]
    split
    · exact fun heq => h.not_after _ List.mem_cons_self entry he (Option.some.inj heq)
    · simp
  have hattach : attach (Placed.makingLine ⟨cx, o⟩) ([] ++ after) = _ := attach_eq (by simp) hafter
  rwa [lastArgument_makingLine hkind o h.parent_word] at hattach

/-- A group takes the outlines of its children inside. -/
theorem attach_group (hkind : cx.kind ≠ .state) {info : ObjectInfo} {children : List SceneObject}
    {physics : GroupPhysics} {ps : List Placed} (h : Readable cx (⟨cx, .group info children physics⟩ :: ps) after)
    (inner : List Outline) :
    attach (Placed.makingLine ⟨cx, .group info children physics⟩) (inner.map (info.name, ·) ++ after)
      = (cx.parentName, .node (Placed.makingLine ⟨cx, .group info children physics⟩) inner) :: after := by
  have hdeclared : declaredName? (Placed.makingLine ⟨cx, .group info children physics⟩) = some info.name := by
    rw [declaredName?_makingLine cx (h.word _ List.mem_cons_self), SceneObject.declares_group rfl]
    rfl
  rw [attach_eq, lastArgument_makingLine hkind _ h.parent_word, List.map_map]
  · simp [Function.comp_def]
  · rw [hdeclared]
    simp
  · intro entry he
    rw [hdeclared]
    exact fun heq => h.not_after _ List.mem_cons_self entry he (Option.some.inj heq)

theorem outlineIn_leaf {o : SceneObject} {sprite : SpriteInfo} (hs : o.spriteInfo? = some sprite)
    (he : o.info.enabled = true) : o.outlineIn cx = [.node (Placed.makingLine ⟨cx, o⟩) []] := by
  cases o with
  | group => cases hs
  | sprite => exact if_pos he
  | button => exact if_pos he
  | tileSprite => exact if_pos he
  | bitmapText => exact if_pos he

theorem outlineIn_of_disabled {o : SceneObject} (he : o.info.enabled = false) : o.outlineIn cx = [] := by
  cases o <;> exact if_neg (by simpa [SceneObject.info] using he)

theorem foldr_attach_leaf (hkind : cx.kind ≠ .state) {o : SceneObject} {sprite : SpriteInfo}
    (hs : o.spriteInfo? = some sprite) (h : Readable cx (o.placedIn cx) after) :
    ((o.placedIn cx).map Placed.makingLine).foldr attach after
      = (o.outlineIn cx).map (cx.parentName, ·) ++ after := by
  by_cases he : o.info.enabled = true
  · rw [SceneObject.placedIn_leaf hs he] at h ⊢
    rw [outlineIn_leaf hs he]
    exact h.attach_leaf hkind
  · rw [SceneObject.placedIn_of_disabled (by simpa using he), outlineIn_of_disabled (by simpa using he)]
    rfl

end Readable

open Readable in
mutual

/-- The lines of an object and all inside it put its outline before what follows. -/
theorem foldr_attach_placedIn {cx : Context} (hkind : cx.kind ≠ .state) {after : List (String × Outline)} :
    ∀ o : SceneObject, Readable cx (o.placedIn cx) after →
      ((o.placedIn cx).map Placed.makingLine).foldr attach after
        = (o.outlineIn cx).map (cx.parentName, ·) ++ after
  | .group info children physics => fun h => by
    by_cases he : info.enabled = true
    · rw [SceneObject.placedIn, if_pos he] at h ⊢
      have hchildren := foldr_attach_placedAmong (show (cx.within info physics).kind ≠ .state from hkind) children h.inside
      rw [List.map_cons, List.foldr_cons, hchildren, SceneObject.outlineIn, if_pos he]
      exact h.attach_group hkind _
    · rw [SceneObject.placedIn, if_neg he, SceneObject.outlineIn, if_neg he]
      rfl
  | .sprite _ _ => foldr_attach_leaf hkind rfl
  | .button _ => foldr_attach_leaf hkind rfl
  | .tileSprite _ => foldr_attach_leaf hkind rfl
  | .bitmapText _ => foldr_attach_leaf hkind rfl
termination_by structural o => o

theorem foldr_attach_placedAmong {cx : Context} (hkind : cx.kind ≠ .state) {after : List (String × Outline)} :
    ∀ os : List SceneObject, Readable cx (SceneObject.placedAmong cx os) after →
      ((SceneObject.placedAmong cx os).map Placed.makingLine).foldr attach after
        = (SceneObject.outlineAmong cx os).map (cx.parentName, ·) ++ after
  | [] => fun _ => rfl
  | o :: rest => fun h => by
    rw [SceneObject.placedAmong] at h ⊢
    rw [List.map_append, List.foldr_append, foldr_attach_placedAmong hkind rest h.right,
      foldr_attach_placedIn hkind o (h.left _), SceneObject.outlineAmong, List.map_append, List.append_assoc]
termination_by structural os => os

end

end Outline

/-- The tree of the live objects is read off the lines. -/
theorem ofLines_objectLines {m : Model} (h : m.Plain) : Outline.ofLines m.objectLines = m.outline := by
  have hdistinct := h.distinct
  rw [← map_object_placed, List.map_map] at hdistinct
  have hreadable : Outline.Readable { kind := m.settings.kind } m.placed [] := {
    word := fun p hp => (plain_of_placed h hp).word
    parent_word := isWord_this
    distinct := hdistinct
    not_parent := fun p hp => (plain_of_placed h hp).not_this
    not_after := by simp }
  have hkind : ({ kind := m.settings.kind } : Context).kind ≠ .state := h.not_state
  rw [Outline.ofLines, makingLines_eq h, Model.placed, Outline.foldr_attach_placedAmong hkind m.world hreadable]
  simp [Model.outline, Function.comp_def]

/-! ## Lines and objects -/

/-- The variable of the innermost group around an object, or `this`. -/
def Nested.parentName (n : Nested) : String := (n.around.getLast?.map (·.1.name)).getD "this"

theorem Nested.parentName_place (kind : SceneKind) (n : Nested) : (n.place kind).cx.parentName = n.parentName := by
  unfold place parentOf parentName Context.parentName
  cases n.around.getLast? <;> rfl

/-- In a group or sprite scene whose names can be told apart, the lines that call a factory of the game, perhaps after a
    declaration, are those that make the live objects, one for each, from the outside in. Each ends in the variable of
    the innermost group around its object, or in `this`; an earlier line declares that variable. So the lines describe
    the tree of the live objects. -/
theorem making_lines_rebuild_tree {m : Model} (h : m.Plain) :
    (∀ line, makesObject line = true ↔ factoryCall.toList <+: line.toList ∨
      ∃ name : String, ' ' ∉ name.toList ∧ ("var " ++ name ++ " = " ++ factoryCall).toList <+: line.toList) ∧
    m.objectLines.filter makesObject
      = (m.everything.filter Nested.isLive).map (fun n => (n.place m.settings.kind).makingLine) ∧
    (∀ n ∈ m.everything, n.isLive = true → lastArgument (n.place m.settings.kind).makingLine = n.parentName) ∧
    (∀ before line after, m.objectLines = before ++ line :: after → makesObject line = true →
      lastArgument line = "this" ∨
        ∃ earlier ∈ before, makesObject earlier = true ∧ Declares (lastArgument line) earlier) ∧
    Outline.ofLines m.objectLines = m.outline := by
  refine ⟨fun _ => makesObject_iff, ?_, fun n hn hlive => ?_, fun _ _ _ => parent_declared_before h,
    ofLines_objectLines h⟩
  · rw [makingLines_eq h, placed_eq_live, List.map_map]
    rfl
  · have hplaced : n.place m.settings.kind ∈ m.placed := by
      rw [placed_eq_live]
      exact List.mem_map_of_mem (List.mem_filter.mpr ⟨hn, hlive⟩)
    have hword := word_parentName h hplaced
    rw [← Nested.parentName_place m.settings.kind]
    exact lastArgument_makingLine h.not_state n.object hword

def flyingBat : SceneObject := .sprite .image {
  info := { name := "bat" }
  texture := .image "bat"
  sprite := { animations := [{ name := "fly", frames := [], isPublic := true }], data := some "[1, 2]" } }

/-- A cave in which the bat stands among enemies, between a torch and a switched-off door. -/
def torchCave : Model where
  settings := { className := "Cave" }
  world := [
    .sprite .image { info := { name := "torch" }, texture := .image "torch" },
    .group { name := "enemies" } [flyingBat] {},
    .sprite .image { info := { name := "door", enabled := false }, texture := .image "door" }]

theorem torchCave_lines_rebuild_tree :
    torchCave.Plain ∧ Outline.ofLines torchCave.objectLines = torchCave.outline := by
  have henabled : SceneObject.enabledAmong torchCave.world = torchCave.world.take 2 ++ [flyingBat] := rfl
  have hstill : ∀ o ∈ torchCave.world.take 2, o.Plain := by
    simp only [torchCave, List.take, List.forall_mem_cons]
    refine ⟨⟨?_, ?_, ?_, ?_⟩, ⟨?_, ?_, ?_, ?_⟩, by simp⟩
    all_goals simp [IsWord, SceneObject.info, SceneObject.data?, SceneObject.animations, SceneObject.spriteInfo?]
  have hbat : flyingBat.Plain := {
    word := by simp [IsWord, flyingBat, SceneObject.info]
    not_this := by decide
    data_line := fun data h => by
      obtain rfl : "[1, 2]" = data := Option.some.inj h
      decide
    animation := fun a ha _ => by
      obtain rfl := List.mem_singleton.mp ha
      decide }
  have hplain : torchCave.Plain := {
    not_state := by decide
    object := henabled ▸ List.forall_mem_append.mpr ⟨hstill, List.forall_mem_singleton.mpr hbat⟩
    distinct := by decide }
  exact ⟨hplain, (making_lines_rebuild_tree hplain).2.2.2.2⟩

/-- A hero with an animation of an unusual name. -/
def oddHero : Model where
  settings := { className := "Cave" }
  world := [.sprite .image {
    info := { name := "hero" }
    texture := .image "hero"
    sprite := { animations := [{ name := "x = this.game.add.y", frames := [], isPublic := true }] } }]

/-- The line of its animation reads like that of a second object. -/
theorem an_animation_reads_like_an_object :
    oddHero.settings.kind ≠ .state ∧
    (∀ o ∈ SceneObject.enabledAmong oddHero.world,
      IsWord o.info.name ∧ o.info.name ≠ "this" ∧ o.data? = none) ∧
    ((SceneObject.enabledAmong oddHero.world).map (·.info.name)).Nodup ∧
    (oddHero.objectLines.filter makesObject).length ≠ (SceneObject.enabledAmong oddHero.world).length := by
  have henabled : SceneObject.enabledAmong oddHero.world = oddHero.world := rfl
  refine ⟨by decide, ?_, by decide, by decide +kernel⟩
  rw [henabled]
  simp [oddHero, IsWord, SceneObject.info, SceneObject.data?, SceneObject.spriteInfo?]

end SceneScript
