/-
  SceneScript.Script.Property — properties and the values that the engine gives them.

  A script only says what differs from the engine's defaults. Each table lists, in the
  order of writing, the path of a property after the object's variable, where its value
  stands in the scene, and the default. `Property.isDefault` compares values, so a
  negative zero is no different from zero.
-/
import SceneScript.Script.Statement

namespace SceneScript

/-- A property that is assigned: `var.path = value;`. -/
structure Property (τ : Type) where
  path : String
  get : τ → Expr
  default : Expr

/-- A property of two components: `var.path.setTo(a, b);`. Whole pixels are written for distances on the screen. -/
structure PairProperty (τ : Type) where
  path : String
  get : τ → Double × Double
  default : Double × Double
  inPixels : Bool

namespace Property

variable {τ : Type}

def isDefault (p : Property τ) (target : τ) : Bool := (p.get target).same p.default

/-- Assigns the properties of a table that differ from the default. Paths are taken under `scope`. -/
def assignments (var scope : String) (target : τ) (table : List (Property τ)) : List Statement :=
  (table.filter fun p => !p.isDefault target).map fun p => .assign var (scope ++ p.path) (p.get target)

end Property

namespace PairProperty

variable {τ : Type}

def isDefault (p : PairProperty τ) (target : τ) : Bool :=
  (p.get target).1.same p.default.1 && (p.get target).2.same p.default.2

/-- One component as it is written. -/
def component (p : PairProperty τ) (d : Double) : Expr := if p.inPixels then .pixels d else .number d

/-- Sets the properties of a table that differ from the default. -/
def settings (var : String) (target : τ) (table : List (PairProperty τ)) : List Statement :=
  (table.filter fun p => !p.isDefault target).map fun p =>
    .setTo var p.path (p.component (p.get target).1) (p.component (p.get target).2)

end PairProperty

/-! ## Display objects -/

/-- A group has no place in its constructor call. -/
def groupPosition : PairProperty Transform := ⟨"position", fun t => (t.x, t.y), (0, 0), true⟩

def angleProperty : Property Transform := ⟨"angle", fun t => .number t.angle, .number 0⟩

def transformPairs : List (PairProperty Transform) := [
  ⟨"scale", fun t => (t.scaleX, t.scaleY), (1, 1), false⟩,
  ⟨"pivot", fun t => (t.pivotX, t.pivotY), (0, 0), false⟩]

def anchorProperty : PairProperty SpriteInfo := ⟨"anchor", fun s => (s.anchorX, s.anchorY), (0, 0), false⟩

/-- The tint of an object that has none. -/
def noTint : String := "0xffffff"

/-- The tint is an expression, compared by its text without the white space around it. -/
def tintProperty : Property SpriteInfo :=
  ⟨"tint", fun s => .raw ((s.tint.map Text.trim).getD noTint), .raw noTint⟩

def tilePairs : List (PairProperty TileSprite) := [
  ⟨"tilePosition", fun t => (t.tilePositionX, t.tilePositionY), (0, 0), true⟩,
  ⟨"tileScale", fun t => (t.tileScaleX, t.tileScaleY), (1, 1), false⟩]

def bitmapTextProperties : List (Property BitmapText) := [
  ⟨"align", fun t => .text t.align, .text "left"⟩,
  ⟨"maxWidth", fun t => .number t.maxWidth, .number 0⟩]

def groupProperties : List (Property GroupPhysics) := [
  ⟨"physicsSortDirection", fun g => .raw g.sortDirection.constant, .raw "null"⟩]

/-! ## Bodies -/

/-- The tunables of a body, in the order in which they are written. -/
def bodyProperties : List (Property ArcadeBody) := [
  ⟨"mass", fun b => .number b.mass, .number 1⟩,
  ⟨"moves", fun b => .flag b.moves, .flag true⟩,
  ⟨"immovable", fun b => .flag b.immovable, .flag false⟩,
  ⟨"collideWorldBounds", fun b => .flag b.collideWorldBounds, .flag false⟩,
  ⟨"allowRotation", fun b => .flag b.allowRotation, .flag true⟩,
  ⟨"allowGravity", fun b => .flag b.allowGravity, .flag true⟩,
  ⟨"bounce.x", fun b => .number b.bounceX, .number 0⟩,
  ⟨"bounce.y", fun b => .number b.bounceY, .number 0⟩,
  ⟨"velocity.x", fun b => .number b.velocityX, .number 0⟩,
  ⟨"velocity.y", fun b => .number b.velocityY, .number 0⟩,
  ⟨"maxVelocity.x", fun b => .number b.maxVelocityX, .number 10000⟩,
  ⟨"maxVelocity.y", fun b => .number b.maxVelocityY, .number 10000⟩,
  ⟨"acceleration.x", fun b => .number b.accelerationX, .number 0⟩,
  ⟨"acceleration.y", fun b => .number b.accelerationY, .number 0⟩,
  ⟨"drag.x", fun b => .number b.dragX, .number 0⟩,
  ⟨"drag.y", fun b => .number b.dragY, .number 0⟩,
  ⟨"gravity.x", fun b => .number b.gravityX, .number 0⟩,
  ⟨"gravity.y", fun b => .number b.gravityY, .number 0⟩,
  ⟨"friction.x", fun b => .number b.frictionX, .number 1⟩,
  ⟨"friction.y", fun b => .number b.frictionY, .number 0⟩,
  ⟨"angularVelocity", fun b => .number b.angularVelocity, .number 0⟩,
  ⟨"maxAngular", fun b => .number b.maxAngular, .number 1000⟩,
  ⟨"angularAcceleration", fun b => .number b.angularAcceleration, .number 0⟩,
  ⟨"angularDrag", fun b => .number b.angularDrag, .number 0⟩,
  ⟨"checkCollision.none", fun b => .flag b.checkCollisionNone, .flag false⟩,
  ⟨"checkCollision.up", fun b => .flag b.checkCollisionUp, .flag true⟩,
  ⟨"checkCollision.down", fun b => .flag b.checkCollisionDown, .flag true⟩,
  ⟨"checkCollision.left", fun b => .flag b.checkCollisionLeft, .flag true⟩,
  ⟨"checkCollision.right", fun b => .flag b.checkCollisionRight, .flag true⟩,
  ⟨"skipQuadTree", fun b => .flag b.skipQuadTree, .flag false⟩]

end SceneScript
