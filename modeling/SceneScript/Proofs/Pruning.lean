/-
  SceneScript.Proofs.Pruning — what is switched off has no influence.

  Three walks leave out the objects that are switched off, with all that is inside them:
  the one that makes the statements, the one that reports what is emitted, and the one
  that collects the public fields. `Model.prune` takes these objects out of the scene
  itself: what remains is exactly the live part of the scene (`everything_prune`). A walk
  over the pruned scene sees the same (`statementsOfAll_pruneAll`, `enabledAmong_pruneAll`).

  Proved: script, records and public fields of a scene are those of the pruned scene, so
  two scenes that differ only in what is switched off have the same
  (`switched_off_has_no_influence`).
-/
import SceneScript.Proofs.Nesting

namespace SceneScript

/-! ## The live part of a scene -/

mutual

/-- An object without what is switched off inside it. -/
def SceneObject.prune : SceneObject → SceneObject
  | .group info children physics => .group info (pruneAll children) physics
  | .sprite kind o => .sprite kind o
  | .button o => .button o
  | .tileSprite o => .tileSprite o
  | .bitmapText o => .bitmapText o
termination_by structural o => o

def SceneObject.pruneAll : List SceneObject → List SceneObject
  | [] => []
  | o :: rest => if o.info.enabled then prune o :: pruneAll rest else pruneAll rest
termination_by structural os => os

end

/-- A scene without the objects that are switched off and all that is inside them. -/
def Model.prune (m : Model) : Model := { m with world := SceneObject.pruneAll m.world }

def Nested.prune (n : Nested) : Nested := ⟨n.around, n.object.prune⟩

namespace SceneObject

@[simp] theorem info_prune (o : SceneObject) : o.prune.info = o.info := by
  cases o <;> rfl

@[simp] theorem spriteInfo?_prune (o : SceneObject) : o.prune.spriteInfo? = o.spriteInfo? := by
  cases o <;> rfl

@[simp] theorem publicFields_prune (o : SceneObject) : o.prune.publicFields = o.publicFields := by
  simp only [publicFields, info_prune, spriteInfo?_prune]

theorem prune_of_leaf {o : SceneObject} {sprite : SpriteInfo} (hs : o.spriteInfo? = some sprite) : o.prune = o := by
  cases o with
  | group => cases hs
  | sprite => rfl
  | button => rfl
  | tileSprite => rfl
  | bitmapText => rfl

/-! ## What pruning keeps -/

theorem nestedIn_prune_leaf {around : List Enclosure} (h : around.all (·.1.enabled) = true) {o : SceneObject}
    {sprite : SpriteInfo} (hs : o.spriteInfo? = some sprite) (he : o.info.enabled = true) :
    o.prune.nestedIn around = ((o.nestedIn around).filter Nested.isLive).map Nested.prune := by
  rw [prune_of_leaf hs, nestedIn_leaf hs, List.filter_cons_of_pos (by simp [Nested.isLive, h, he])]
  simp [Nested.prune, prune_of_leaf hs]

mutual

theorem nestedIn_prune {around : List Enclosure} (h : around.all (·.1.enabled) = true) :
    ∀ o : SceneObject, o.info.enabled = true →
      o.prune.nestedIn around = ((o.nestedIn around).filter Nested.isLive).map Nested.prune
  | .group info children physics, he => by
    have hself : info.enabled = true := he
    have hinner : (around ++ [(info, physics)]).all (·.1.enabled) = true := by simp [List.all_append, h, hself]
    rw [prune, nestedIn, nestedAmong_pruneAll hinner children, nestedIn,
      List.filter_cons_of_pos (by simp [Nested.isLive, h, he])]
    rfl
  | .sprite _ _, he => nestedIn_prune_leaf h rfl he
  | .button _, he => nestedIn_prune_leaf h rfl he
  | .tileSprite _, he => nestedIn_prune_leaf h rfl he
  | .bitmapText _, he => nestedIn_prune_leaf h rfl he
termination_by structural o => o

theorem nestedAmong_pruneAll {around : List Enclosure} (h : around.all (·.1.enabled) = true) :
    ∀ os : List SceneObject,
      nestedAmong around (pruneAll os) = ((nestedAmong around os).filter Nested.isLive).map Nested.prune
  | [] => rfl
  | o :: rest => by
    have hrest := nestedAmong_pruneAll h rest
    rw [nestedAmong, List.filter_append, List.map_append, ← hrest, pruneAll]
    by_cases he : o.info.enabled = true
    · rw [if_pos he, nestedAmong, nestedIn_prune h o he]
    · -- neither the object nor anything inside it is live
      have hnil := placedIn_eq_live .group h o
      rw [placedIn_of_disabled (by simpa using he)] at hnil
      rw [if_neg he, List.map_eq_nil_iff.mp hnil.symm, List.map_nil, List.nil_append]
termination_by structural os => os

end

/-! ## The walks over a pruned scene -/

mutual

theorem statements_prune (cx : Context) : ∀ o : SceneObject, o.prune.statements cx = o.statements cx
  | .group info children physics => by
    have hchildren := statementsOfAll_pruneAll (cx.within info physics) children
    rw [prune, statements, statements, hchildren]
  | .sprite _ _ => rfl
  | .button _ => rfl
  | .tileSprite _ => rfl
  | .bitmapText _ => rfl
termination_by structural o => o

/-- An object that is switched off leaves no statement and no blank line, so taking it out changes neither. -/
theorem statementsOfAll_pruneAll (cx : Context) :
    ∀ os : List SceneObject, statementsOfAll cx (pruneAll os) = statementsOfAll cx os
  | [] => rfl
  | o :: rest => by
    have hrest := statementsOfAll_pruneAll cx rest
    rw [pruneAll]
    by_cases he : o.info.enabled = true
    · rw [if_pos he, statementsOfAll, statementsOfAll, statements_prune cx o, hrest]
    · rw [if_neg he, hrest, statementsOfAll, statements_of_disabled (by simpa using he)]
termination_by structural os => os

end

end SceneObject

/-- What remains of a scene is its live objects, each within the groups that it was in. -/
theorem everything_prune (m : Model) : m.prune.everything = (m.everything.filter Nested.isLive).map Nested.prune := by
  have hworld : ([] : List Enclosure).all (·.1.enabled) = true := rfl
  exact SceneObject.nestedAmong_pruneAll hworld m.world

@[simp] theorem settings_prune (m : Model) : m.prune.settings = m.settings := rfl

theorem objectLines_prune (m : Model) : m.prune.objectLines = m.objectLines := by
  rw [Model.objectLines, Model.objectLines, Model.prune, SceneObject.statementsOfAll_pruneAll]

theorem Nested.isLive_prune (n : Nested) : n.prune.isLive = n.isLive := by
  rw [Nested.isLive, Nested.isLive, Nested.prune, SceneObject.info_prune]

/-- The objects that a pruned scene reports and collects fields from are the live ones, pruned themselves. -/
theorem enabledAmong_prune (m : Model) :
    SceneObject.enabledAmong m.prune.world = (SceneObject.enabledAmong m.world).map SceneObject.prune := by
  rw [enabledAmong_eq_live, everything_prune, List.filter_map, List.map_map, enabledAmong_eq_live, List.map_map]
  have hlive : Nested.isLive ∘ Nested.prune = Nested.isLive := funext Nested.isLive_prune
  rw [hlive, List.filter_filter]
  simp only [Bool.and_self]
  rfl

theorem publicFields_prune (m : Model) : m.prune.publicFields = m.publicFields := by
  rw [Model.publicFields, enabledAmong_prune, List.flatMap_map, Model.publicFields]
  simp only [SceneObject.publicFields_prune]

theorem scriptText_prune (config : Config) (m : Model) (regions : Regions) :
    scriptText config m.prune regions = scriptText config m regions := by
  have hfields : m.prune.fieldLines = m.fieldLines := by rw [Model.fieldLines, publicFields_prune, Model.fieldLines]
  unfold scriptText
  rw [objectLines_prune, hfields, settings_prune]

theorem generate_prune (config : Config) (m : Model) (previous : Option String) :
    generate config m.prune previous = generate config m previous :=
  scriptText_prune config m _

theorem generationLog_prune (m : Model) (previous : Option String) :
    generationLog m.prune previous = generationLog m previous := by
  simp only [generationLog, enabledAmong_prune, objectLines_prune, publicFields_prune, settings_prune, List.map_map,
    Function.comp_def, SceneObject.info_prune]

/-- What is switched off, and what is inside it, changes neither the script of a scene nor what is reported while it is
    made, nor the public fields. -/
theorem switched_off_has_no_influence (config : Config) (m : Model) (previous : Option String) :
    m.prune.everything = (m.everything.filter Nested.isLive).map Nested.prune ∧
    (∀ n ∈ m.prune.everything, n.isLive = true) ∧
    generate config m.prune previous = generate config m previous ∧
    generationLog m.prune previous = generationLog m previous ∧
    m.prune.publicFields = m.publicFields ∧
    ∀ other : Model, other.prune = m.prune →
      generate config other previous = generate config m previous ∧
        generationLog other previous = generationLog m previous ∧ other.publicFields = m.publicFields := by
  refine ⟨everything_prune m, ?_, generate_prune config m previous, generationLog_prune m previous,
    publicFields_prune m, ?_⟩
  · intro n hn
    rw [everything_prune] at hn
    obtain ⟨l, hl, rfl⟩ := List.mem_map.mp hn
    rw [Nested.isLive_prune]
    exact (List.mem_filter.mp hl).2
  · intro other h
    rw [← generate_prune config other, ← generationLog_prune other, ← publicFields_prune other, h]
    exact ⟨generate_prune config m previous, generationLog_prune m previous, publicFields_prune m⟩

/-- A cave of enemies, all switched off. -/
def mutedCave : Model where
  settings := { className := "Cave" }
  world := [.group { name := "enemies", enabled := false }
    [.sprite .image { info := { name := "bat", isPublic := true }, texture := .image "bat" }] {}]

theorem mutedCave_reads_empty :
    generate {} mutedCave none = generate {} { mutedCave with world := [] } none ∧
      generationLog mutedCave none = generationLog { mutedCave with world := [] } none ∧
      mutedCave.publicFields = [] :=
  (switched_off_has_no_influence {} { mutedCave with world := [] } none).2.2.2.2.2 mutedCave rfl

end SceneScript
