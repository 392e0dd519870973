/-
  SceneScript.Script.ObjectProperties — the statements that set up one object.

  Each function takes one concern of an object and gives its statements in the order in
  which they must stand. A property at its default has no statement.
-/
import SceneScript.Script.Context
import SceneScript.Script.Property

namespace SceneScript

/-- Position (of groups only), angle, scale and pivot. -/
def Transform.statements (var : String) (t : Transform) (withPosition : Bool) : List Statement :=
  (if withPosition then PairProperty.settings var t [groupPosition] else [])
    ++ Property.assignments var "" t [angleProperty]
    ++ PairProperty.settings var t transformPairs

/-- Anchor and tint. -/
def SpriteInfo.displayStatements (var : String) (s : SpriteInfo) : List Statement :=
  PairProperty.settings var s [anchorProperty] ++ Property.assignments var "" s [tintProperty]

/-- Adds an animation and says whether the object dies with it. -/
def Animation.statements (var : String) (a : Animation) : List Statement :=
  .addAnimation var a :: (if a.killOnComplete then [.killOnComplete var a.name] else [])

/-- The offset of a shape, which is written only if it is not zero. -/
def ArcadeBody.offsetArguments (b : ArcadeBody) : List Expr :=
  if b.offsetX.isZero && b.offsetY.isZero then [] else [.number b.offsetX, .number b.offsetY]

/-- The shape of a body. A rectangle with an unset side takes its size from the texture. -/
def Body.shapeStatements (var : String) : Body → List Statement
  | .absent => []
  | .circle radius arcade => [.shapeBody var "setCircle" (.number radius :: arcade.offsetArguments)]
  | .rect width height arcade =>
    if width.same unsetSize || height.same unsetSize then []
    else [.shapeBody var "setSize" (.number width :: .number height :: arcade.offsetArguments)]

/-- Gives an object its body. A member of a group that gives bodies has one already. -/
def Body.statements (var : String) (body : Body) (inArcadeGroup : Bool) : List Statement :=
  match body.arcade? with
  | none => []
  | some arcade =>
    (if inArcadeGroup then [] else [.enableBody var])
      ++ body.shapeStatements var
      ++ Property.assignments var "body." arcade bodyProperties

/-- Attaches extra data, unless it is blank. -/
def dataStatements (var : String) (data : Option String) : List Statement :=
  match data with
  | none => []
  | some d => if Text.isBlank d then [] else [.attachData var d]

end SceneScript
