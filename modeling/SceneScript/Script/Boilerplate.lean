/-
  SceneScript.Script.Boilerplate — the class around the statements.

  The header runs from the comment of the class to the end of the pre-init region, the
  footer from the post-init region to the end of the file. A group and a sprite are
  constructors that call the engine's; a state is a class whose `create` method makes
  the objects, with `init` and `preload` methods where the settings ask for them.
-/
import SceneScript.Scene.Model
import SceneScript.Script.Regions
import SceneScript.Script.Statement

namespace SceneScript.Boilerplate

/-- Ends a line. -/
def line (s : String) : String := s ++ "\n"

/-- Lines one after another. -/
def paragraph (ls : List String) : String := String.join (ls.map line)

/-! ## Parts -/

/-- Makes the class inherit from a class of the engine. -/
def prototypeLines (className base : String) : List String := [
  "/** @type Phaser." ++ base ++ " */",
  "var " ++ className ++ "_proto = Object.create(Phaser." ++ base ++ ".prototype);",
  className ++ ".prototype = " ++ className ++ "_proto;",
  className ++ ".prototype.constructor = " ++ className ++ ";",
  ""]

/-- A method of the class. -/
def methodLines (className method indent : String) (body : List String) : List String :=
  [className ++ ".prototype." ++ method ++ " = function () \x7b", ""]
    ++ body.map (indent ++ ·)
    ++ ["", "\x7d;", ""]

/-- What a state sets up before anything is loaded. -/
def initBody (s : Settings) : List String :=
  (match s.stageBackgroundColor with
    | some color => ["this.stage.backgroundColor = " ++ Literal.text color ++ ";"]
    | none => [])
    ++ match s.physicsSystem with
      | some physics => ["this.physics.startSystem(" ++ physics.constant ++ ");"]
      | none => []

/-- The asset packs that a state loads. -/
def preloadBody (s : Settings) : List String :=
  s.preloadSections.map fun name =>
    "this.load.pack(" ++ Literal.text name ++ ", " ++ Literal.text s.packUrl ++ ");"

/-- A method, unless it has nothing to do. -/
def methodUnlessEmpty (className method indent : String) (body : List String) : List String :=
  if body.isEmpty then [] else methodLines className method indent body

/-- The key of a sprite's texture, unless the caller gives one. -/
def keyArgument (texture : Option Texture) : String :=
  match texture with
  | some t => "aKey || " ++ Literal.text t.assetKey
  | none => "aKey"

/-- The frame of a sprite's texture, unless the caller gives one. -/
def frameArgument (texture : Option Texture) : String :=
  match texture with
  | some t =>
    if t.isImage then "aFrame"
    else "aFrame === undefined || aFrame === null ? " ++ t.frameExpr.render ++ " : aFrame"
  | none => "aFrame"

/-! ## Headers -/

def groupHeader (className indent : String) : List String := [
  "/**",
  " * " ++ className ++ ".",
  " * @param \x7bPhaser.Game\x7d aGame A reference to the currently running game.",
  " * @param \x7bPhaser.Group\x7d aParent The parent Group (or other \x7b@link DisplayObject\x7d) that this group will "
    ++ "be added to.",
  " * @param \x7bstring\x7d aName A name for this group. Not used internally but useful for debugging.",
  " * @param \x7bboolean\x7d aAddToStage If true this group will be added directly to the Game.Stage instead of "
    ++ "Game.World.",
  " * @param \x7bboolean\x7d aEnableBody If true all Sprites created with \x7b@link #create\x7d will have a physics "
    ++ "body created on them.",
  " * @param \x7bnumber\x7d aPhysicsBodyType The physics body type to use when physics bodies are automatically added.",
  " */",
  "function " ++ className ++ "(aGame, aParent, aName, aAddToStage, aEnableBody, aPhysicsBodyType) \x7b",
  "",
  indent ++ "Phaser.Group.call(this, aGame, aParent, aName, aAddToStage, aEnableBody, aPhysicsBodyType);"]

def spriteHeader (className indent : String) (texture : Option Texture) : List String := [
  "/**",
  " * " ++ className ++ ".",
  " * @param \x7bPhaser.Game\x7d aGame A reference to the currently running game.",
  " * @param \x7bNumber\x7d aX The x coordinate (in world space) to position the Sprite at.",
  " * @param \x7bNumber\x7d aY The y coordinate (in world space) to position the Sprite at.",
  " * @param \x7bany\x7d aKey The image or texture used by the Sprite during rendering.",
  " * @param \x7bany\x7d aFrame The sprite sheet or texture atlas frame to use.",
  " */",
  "function " ++ className ++ "(aGame, aX, aY, aKey, aFrame) \x7b",
  "",
  indent ++ "Phaser.Sprite.call(this, aGame, aX, aY, " ++ keyArgument texture ++ ", " ++ frameArgument texture ++ ");"]

def stateHeader (s : Settings) (indent : String) : List String :=
  ["/**", " * " ++ s.className ++ ".", " */", "function " ++ s.className ++ "() \x7b", "",
    indent ++ "Phaser.State.call(this);", "", "\x7d", ""]
    ++ prototypeLines s.className "State"
    ++ methodUnlessEmpty s.className "init" indent (initBody s)
    ++ methodUnlessEmpty s.className "preload" indent (preloadBody s)
    ++ [s.className ++ ".prototype.create = function () \x7b"]

/-- What stands before the pre-init region. -/
def opening (s : Settings) (indent : String) : List String :=
  match s.kind with
  | .group => groupHeader s.className indent
  | .sprite => spriteHeader s.className indent s.spriteTexture
  | .state => stateHeader s indent

/-- The text before the statements. -/
def header (s : Settings) (indent preInit : String) : String :=
  paragraph (opening s indent) ++ indent ++ Marker.preInitBegin ++ preInit ++ Marker.preInitEnd ++ "\n\n"

/-! ## Footers -/

/-- What stands after the post-init region. -/
def closing (s : Settings) : List String :=
  match s.kind with
  | .group => ["\x7d", ""] ++ prototypeLines s.className "Group"
  | .sprite => ["\x7d", ""] ++ prototypeLines s.className "Sprite"
  | .state => ["\x7d;", ""]

/-- The text after the statements. -/
def footer (s : Settings) (indent postInit trailing : String) : String :=
  indent ++ Marker.postInitBegin ++ postInit ++ line Marker.postInitEnd
    ++ paragraph (closing s) ++ Marker.endGenerated ++ trailing

end SceneScript.Boilerplate
