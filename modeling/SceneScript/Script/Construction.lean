/-
  SceneScript.Script.Construction — the factory calls that make objects.

  The arguments of a call stand at fixed places, so an argument that a scene does not
  give is written as `null`; only at the end are arguments left out. A leaf gets a
  variable only if something refers to it, a group always.
-/
import SceneScript.Script.ObjectProperties

namespace SceneScript

/-! ## Calls -/

/-- The last arguments of a picture: its frame and its parent. Without a parent, the frame of an image is left out. -/
def frameArguments (cx : Context) (texture : Texture) : List Expr :=
  match cx.parentArgument? with
  | some parent => [texture.frameExpr, .raw parent]
  | none => if texture.isImage then [] else [texture.frameExpr]

/-- The parent as the last argument. -/
def parentArguments (cx : Context) : List Expr :=
  match cx.parentArgument? with
  | some parent => [.raw parent]
  | none => []

def placeArguments (info : ObjectInfo) : List Expr := [.pixels info.transform.x, .pixels info.transform.y]

def frameOrNull : Option Frame → Expr
  | none => .null
  | some frame => frame.expr

def Sprite.call (cx : Context) (o : Sprite) : Call :=
  cx.call "sprite" (placeArguments o.info ++ [.text o.texture.assetKey] ++ frameArguments cx o.texture)

def TileSprite.call (cx : Context) (o : TileSprite) : Call :=
  cx.call "tileSprite"
    (placeArguments o.info ++ [.pixels o.width, .pixels o.height, .text o.texture.assetKey]
      ++ frameArguments cx o.texture)

/-- The frames of a button stand in the order over, out, down, up; out is the frame of its texture. -/
def Button.call (cx : Context) (o : Button) : Call :=
  cx.call "button"
    (placeArguments o.info
      ++ [.text o.texture.assetKey, .raw (Literal.orNull o.callback), .raw (Literal.orNull o.callbackContext),
        frameOrNull o.overFrame, o.texture.frameExpr, frameOrNull o.downFrame, frameOrNull o.upFrame]
      ++ parentArguments cx)

def BitmapText.call (cx : Context) (o : BitmapText) : Call :=
  cx.call "bitmapText" (placeArguments o.info ++ [.text o.font, .text o.text, .number o.size] ++ parentArguments cx)

/-- A group always names its parent. -/
def groupCall (cx : Context) (physics : GroupPhysics) : Call :=
  if physics.physicsGroup then
    cx.call "physicsGroup" [.raw physics.bodyType.constant, .raw cx.parentName]
  else cx.call "group" [.raw cx.parentName]

/-! ## Making an object -/

/-- What follows the making of a leaf; `own` are the properties of its own kind. -/
def leafProperties (cx : Context) (info : ObjectInfo) (sprite : SpriteInfo) (own : List Statement) : List Statement :=
  info.transform.statements info.name false
    ++ sprite.displayStatements info.name
    ++ own
    ++ sprite.animations.flatMap (Animation.statements info.name)
    ++ sprite.body.statements info.name cx.inArcadeGroup
    ++ dataStatements info.name sprite.data

/-- Makes a leaf. It gets a variable if it is public or has properties. -/
def leafStatements (cx : Context) (info : ObjectInfo) (sprite : SpriteInfo) (own : List Statement) (call : Call) :
    List Statement :=
  let properties := leafProperties cx info sprite own
  .create info.name (!properties.isEmpty || info.isPublic) call :: properties

/-- Makes a group and sets its properties. -/
def groupStatements (cx : Context) (info : ObjectInfo) (physics : GroupPhysics) : List Statement :=
  .create info.name true (groupCall cx physics)
    :: (info.transform.statements info.name true ++ Property.assignments info.name "" physics groupProperties)

end SceneScript
