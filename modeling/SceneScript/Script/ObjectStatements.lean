/-
  SceneScript.Script.ObjectStatements — the statements that rebuild the objects of a scene.

  A group is made and set up, and then its children are made within it. A blank line
  stands between objects, and between a group and its children. An object that is
  switched off leaves no trace, and neither does anything inside it: no statement, no
  blank line, no public field.
-/
import SceneScript.Scene.Model
import SceneScript.Script.Construction

namespace SceneScript

/-- Puts a blank line before statements, if there are any. -/
def afterBlank : List Statement → List Statement
  | [] => []
  | statements => .blank :: statements

mutual

/-- The statements of an object; none if it is switched off. -/
def SceneObject.statements (cx : Context) : SceneObject → List Statement
  | .group info children physics =>
    if info.enabled then
      groupStatements cx info physics ++ afterBlank (statementsOfAll (cx.within info physics) children)
    else []
  | .sprite _ o => if o.info.enabled then leafStatements cx o.info o.sprite [] (o.call cx) else []
  | .button o => if o.info.enabled then leafStatements cx o.info o.sprite [] (o.call cx) else []
  | .tileSprite o =>
    if o.info.enabled then
      leafStatements cx o.info o.sprite (PairProperty.settings o.info.name o tilePairs) (o.call cx)
    else []
  | .bitmapText o =>
    if o.info.enabled then
      leafStatements cx o.info o.sprite (Property.assignments o.info.name "" o bitmapTextProperties) (o.call cx)
    else []
termination_by structural o => o

/-- The statements of several objects, with a blank line between those that have any. -/
def SceneObject.statementsOfAll (cx : Context) : List SceneObject → List Statement
  | [] => []
  | o :: rest =>
    match statements cx o with
    | [] => statementsOfAll cx rest
    | statements => statements ++ afterBlank (statementsOfAll cx rest)
termination_by structural os => os

end

/-! ## Walks over the objects that are switched on -/

mutual

/-- An object and all inside it, from the outside in, unless switched off. -/
def SceneObject.enabledObjects : SceneObject → List SceneObject
  | .group info children physics =>
    if info.enabled then .group info children physics :: enabledAmong children else []
  | .sprite kind o => if o.info.enabled then [.sprite kind o] else []
  | .button o => if o.info.enabled then [.button o] else []
  | .tileSprite o => if o.info.enabled then [.tileSprite o] else []
  | .bitmapText o => if o.info.enabled then [.bitmapText o] else []
termination_by structural o => o

def SceneObject.enabledAmong : List SceneObject → List SceneObject
  | [] => []
  | o :: rest => o.enabledObjects ++ enabledAmong rest
termination_by structural os => os

end

/-! ## Public fields -/

/-- A public variable and the field of `this` that holds it. -/
structure PublicField where
  variableName : String
  deriving DecidableEq

def PublicField.line (f : PublicField) : String :=
  "this." ++ Naming.fieldName f.variableName ++ " = " ++ f.variableName ++ ";"

/-- The public variables of one object: its own, and those of its public animations. -/
def SceneObject.publicFields (o : SceneObject) : List PublicField :=
  (if o.info.isPublic then [⟨o.info.name⟩] else [])
    ++ match o.spriteInfo? with
      | none => []
      | some s =>
        (s.animations.filter (·.isPublic)).map fun a => ⟨Naming.animationVariable o.info.name a.name⟩

/-- The public variables of a scene, in the order in which they are made. -/
def Model.publicFields (m : Model) : List PublicField :=
  (SceneObject.enabledAmong m.world).flatMap SceneObject.publicFields

end SceneScript
