/-
  SceneScript.Script.Statement — statements of the script, before they are text.

  Objects are turned into statements first and into lines afterwards, so what a script
  does can be said without looking at its text. A statement is one line; only extra
  data, which people write themselves, may run over several.
-/
import SceneScript.Scene.Object
import SceneScript.Script.Literal
import SceneScript.Script.Naming
import SceneScript.Text.Search

namespace SceneScript

/-! ## Expressions -/

/-- An expression that a statement holds. A `raw` one is written as it is. -/
inductive Expr where
  | number (d : Double)
  | pixels (d : Double)
  | word (n : UInt32)
  | flag (b : Bool)
  | text (s : String)
  | raw (source : String)
  deriving DecidableEq

namespace Expr

def null : Expr := .raw "null"

def render : Expr → String
  | .number d => Literal.number d
  | .pixels d => Literal.pixels d
  | .word n => Literal.word n
  | .flag b => Literal.flag b
  | .text s => Literal.text s
  | .raw source => source

/-- Equality of value, by which the sign of a zero does not count. -/
def same : Expr → Expr → Bool
  | .number a, .number b => a.same b
  | a, b => decide (a = b)

/-- Arguments with commas between them. -/
def renderAll (args : List Expr) : String := String.intercalate ", " (args.map render)

end Expr

/-- The frame that a texture picks; an image has only one. -/
def Texture.frameExpr : Texture → Expr
  | .image _ => .null
  | .spritesheetFrame _ index => .word index
  | .atlasFrame _ frame => .text frame

def Frame.expr : Frame → Expr
  | .index n => .word n
  | .name s => .text s

/-! ## Statements -/

/-- A factory call, `this.game.add.sprite(…)`. -/
structure Call where
  receiver : String
  factory : String
  args : List Expr
  deriving DecidableEq

def Call.render (c : Call) : String := c.receiver ++ ".add." ++ c.factory ++ "(" ++ Expr.renderAll c.args ++ ")"

inductive Statement where
  /-- Makes an object, and a variable for it where one is needed. -/
  | create (name : String) (declares : Bool) (call : Call)
  /-- `target.path = value;` -/
  | assign (target path : String) (value : Expr)
  /-- `target.path.setTo(a, b);` -/
  | setTo (target path : String) (a b : Expr)
  /-- Adds an animation, and a variable for it where one is needed. -/
  | addAnimation (target : String) (animation : Animation)
  | killOnComplete (target animation : String)
  /-- Gives an object a body of the arcade system. -/
  | enableBody (target : String)
  /-- `target.body.method(…);` -/
  | shapeBody (target method : String) (args : List Expr)
  /-- Attaches data, in which `$$` stands for the object's variable. -/
  | attachData (target data : String)
  | blank
  deriving DecidableEq

/-- Others refer to the animation by a variable. -/
def Animation.hasVariable (a : Animation) : Bool := a.isPublic || a.killOnComplete

namespace Statement

/-- `var name = `, where a variable is needed. -/
def declaration (name : String) (declares : Bool) : String := if declares then "var " ++ name ++ " = " else ""

/-- The text that extra data becomes, before it is split into lines. -/
def dataText (target data : String) : String := target ++ ".data = " ++ Text.replaceAll "$$" target data ++ ";"

/-- The lines of a statement, without indentation. -/
def lines : Statement → List String
  | .create name declares call => [declaration name declares ++ call.render ++ ";"]
  | .assign target path value => [target ++ "." ++ path ++ " = " ++ value.render ++ ";"]
  | .setTo target path a b => [target ++ "." ++ path ++ ".setTo(" ++ a.render ++ ", " ++ b.render ++ ");"]
  | .addAnimation target a =>
    [declaration (Naming.animationVariable target a.name) a.hasVariable ++ target ++ ".animations.add("
      ++ Literal.text a.name ++ ", [" ++ Expr.renderAll (a.frames.map Frame.expr) ++ "], "
      ++ Literal.word a.frameRate ++ ", " ++ Literal.flag a.looping ++ ");"]
  | .killOnComplete target animation => [Naming.animationVariable target animation ++ ".killOnComplete = true;"]
  | .enableBody target => ["this.game.physics.arcade.enable(" ++ target ++ ");"]
  | .shapeBody target method args => [target ++ ".body." ++ method ++ "(" ++ Expr.renderAll args ++ ");"]
  | .attachData target data => Text.lines (dataText target data)
  | .blank => [""]

/-- The lines of statements in order. -/
def linesOfAll (statements : List Statement) : List String := statements.flatMap lines

end Statement

end SceneScript
