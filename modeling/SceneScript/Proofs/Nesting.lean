/-
  SceneScript.Proofs.Nesting — every object of a scene, with the groups around it.

  `Model.everything` lists all objects of a scene, switched off or not, from the outside
  in, and notes for each the groups that it stands in. An object is live when neither it
  nor one of these groups is switched off. What the script is made from is a selection of
  this list:
  - `placed_eq_live`: the walk that makes the statements visits the live objects, each in
    the context of the innermost group around it.
  - `enabledAmong_eq_live`: so does the walk that collects the public fields.
-/
import SceneScript.Proofs.Placement

namespace SceneScript

/-- A group without its children. -/
abbrev Enclosure := ObjectInfo × GroupPhysics

/-- An object and the groups it stands in, from the outside in. -/
structure Nested where
  around : List Enclosure
  object : SceneObject

namespace Nested

/-- Neither the object nor a group around it is switched off. -/
def isLive (n : Nested) : Bool := n.around.all (·.1.enabled) && n.object.info.enabled

/-- What something inside these groups is put into: the innermost of them. -/
def parentOf (around : List Enclosure) : Parent :=
  match around.getLast? with
  | none => .world
  | some (info, physics) => .group info physics

/-- The place where an object is made. -/
def place (kind : SceneKind) (n : Nested) : Placed := ⟨⟨kind, parentOf n.around⟩, n.object⟩

theorem parentOf_concat (around : List Enclosure) (info : ObjectInfo) (physics : GroupPhysics) :
    parentOf (around ++ [(info, physics)]) = .group info physics := by
  simp [parentOf]

end Nested

mutual

/-- An object and all inside it, from the outside in. -/
def SceneObject.nestedIn (around : List Enclosure) : SceneObject → List Nested
  | .group info children physics =>
    ⟨around, .group info children physics⟩ :: nestedAmong (around ++ [(info, physics)]) children
  | .sprite kind o => [⟨around, .sprite kind o⟩]
  | .button o => [⟨around, .button o⟩]
  | .tileSprite o => [⟨around, .tileSprite o⟩]
  | .bitmapText o => [⟨around, .bitmapText o⟩]
termination_by structural o => o

def SceneObject.nestedAmong (around : List Enclosure) : List SceneObject → List Nested
  | [] => []
  | o :: rest => nestedIn around o ++ nestedAmong around rest
termination_by structural os => os

end

/-- Every object of a scene. -/
def Model.everything (m : Model) : List Nested := SceneObject.nestedAmong [] m.world

/-! ## Live objects -/

/-- The live objects of a scene. -/
def Model.live (m : Model) : List Nested := m.everything.filter Nested.isLive

namespace SceneObject

theorem nestedIn_leaf {o : SceneObject} {sprite : SpriteInfo} (hs : o.spriteInfo? = some sprite)
    (around : List Enclosure) : o.nestedIn around = [⟨around, o⟩] := by
  cases o with
  | group => cases hs
  | sprite => rfl
  | button => rfl
  | tileSprite => rfl
  | bitmapText => rfl

/-- What stands in a switched-off group is not live. -/
theorem filter_cons_dead {around : List Enclosure} (h : around.all (·.1.enabled) = false) (o : SceneObject)
    (rest : List Nested) : (⟨around, o⟩ :: rest).filter Nested.isLive = rest.filter Nested.isLive :=
  List.filter_cons_of_neg (by rw [Nested.isLive, h, Bool.false_and]; exact Bool.false_ne_true)

mutual

/-- However deep it stands. -/
theorem filter_nestedIn_dead {around : List Enclosure} (h : around.all (·.1.enabled) = false) :
    ∀ o : SceneObject, (o.nestedIn around).filter Nested.isLive = []
  | .group info children physics => by
    have hinner : (around ++ [(info, physics)]).all (·.1.enabled) = false := by
      rw [List.all_append, h, Bool.false_and]
    rw [nestedIn, filter_cons_dead h, filter_nestedAmong_dead hinner children]
  | .sprite _ _ => filter_cons_dead h _ []
  | .button _ => filter_cons_dead h _ []
  | .tileSprite _ => filter_cons_dead h _ []
  | .bitmapText _ => filter_cons_dead h _ []
termination_by structural o => o

theorem filter_nestedAmong_dead {around : List Enclosure} (h : around.all (·.1.enabled) = false) :
    ∀ os : List SceneObject, (nestedAmong around os).filter Nested.isLive = []
  | [] => rfl
  | o :: rest => by
    rw [nestedAmong, List.filter_append, filter_nestedIn_dead h o, filter_nestedAmong_dead h rest, List.append_nil]
termination_by structural os => os

end

theorem placedIn_leaf_eq_live {kind : SceneKind} {around : List Enclosure} {o : SceneObject} {sprite : SpriteInfo}
    (hs : o.spriteInfo? = some sprite) (h : around.all (·.1.enabled) = true) :
    o.placedIn ⟨kind, Nested.parentOf around⟩ = ((o.nestedIn around).filter Nested.isLive).map (Nested.place kind) := by
  rw [nestedIn_leaf hs]
  by_cases he : o.info.enabled = true
  · rw [placedIn_leaf hs he, List.filter_cons_of_pos (by simp [Nested.isLive, h, he])]
    rfl
  · rw [placedIn_of_disabled (by simpa using he), List.filter_cons_of_neg (by simp [Nested.isLive, he])]
    rfl

mutual

theorem placedIn_eq_live (kind : SceneKind) {around : List Enclosure} (h : around.all (·.1.enabled) = true) :
    ∀ o : SceneObject, o.placedIn ⟨kind, Nested.parentOf around⟩
      = ((o.nestedIn around).filter Nested.isLive).map (Nested.place kind)
  | .group info children physics => by
    have hparent : Context.within ⟨kind, Nested.parentOf around⟩ info physics
        = ⟨kind, Nested.parentOf (around ++ [(info, physics)])⟩ := by
      rw [Nested.parentOf_concat]
      rfl
    by_cases he : info.enabled = true
    · have hinner : (around ++ [(info, physics)]).all (·.1.enabled) = true := by simp [List.all_append, h, he]
      rw [placedIn, if_pos he, hparent, placedAmong_eq_live kind hinner children, nestedIn,
        List.filter_cons_of_pos (by simp [Nested.isLive, h, SceneObject.info, he])]
      rfl
    · -- a group that is switched off hides all that it holds
      have hinner : (around ++ [(info, physics)]).all (·.1.enabled) = false := by simp [List.all_append, he]
      rw [placedIn, if_neg he, nestedIn, List.filter_cons_of_neg (by simp [Nested.isLive, SceneObject.info, he]),
        filter_nestedAmong_dead hinner]
      rfl
  | .sprite _ _ => placedIn_leaf_eq_live rfl h
  | .button _ => placedIn_leaf_eq_live rfl h
  | .tileSprite _ => placedIn_leaf_eq_live rfl h
  | .bitmapText _ => placedIn_leaf_eq_live rfl h
termination_by structural o => o

theorem placedAmong_eq_live (kind : SceneKind) {around : List Enclosure} (h : around.all (·.1.enabled) = true) :
    ∀ os : List SceneObject, placedAmong ⟨kind, Nested.parentOf around⟩ os
      = ((nestedAmong around os).filter Nested.isLive).map (Nested.place kind)
  | [] => rfl
  | o :: rest => by
    rw [placedAmong, nestedAmong, List.filter_append, List.map_append, placedIn_eq_live kind h o,
      placedAmong_eq_live kind h rest]
termination_by structural os => os

end

end SceneObject

/-- Statements are made for the live objects of a scene, from the outside in. -/
theorem placed_eq_live (m : Model) :
    m.placed = (m.everything.filter Nested.isLive).map (Nested.place m.settings.kind) := by
  have hworld : ([] : List Enclosure).all (·.1.enabled) = true := rfl
  exact SceneObject.placedAmong_eq_live m.settings.kind hworld m.world

theorem enabledAmong_eq_live (m : Model) :
    SceneObject.enabledAmong m.world = (m.everything.filter Nested.isLive).map (·.object) := by
  rw [← map_object_placed, placed_eq_live, List.map_map]
  rfl

end SceneScript
