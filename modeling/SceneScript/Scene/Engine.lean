/-
  SceneScript.Scene.Engine — the choices that the game engine offers.

  Kinds of scene, physics systems and sort directions. Each is written in a scene by a
  lower-case name and in a script by a constant of the engine.
-/
import SceneScript.Json.Codec

namespace SceneScript

/-! ## Kinds of scene -/

/-- What a scene describes: a game state, a group or a sprite to be reused. -/
inductive SceneKind where
  | state
  | group
  | sprite
  deriving DecidableEq

namespace SceneKind

instance : Inhabited SceneKind := ⟨.group⟩

def name : SceneKind → String
  | .state => "state"
  | .group => "group"
  | .sprite => "sprite"

def codec : Codec SceneKind :=
  .names [("state", .state), ("group", .group), ("sprite", .sprite)] name

/-- What the factory calls are made on. -/
def receiver : SceneKind → String
  | .state => "this"
  | .group => "this.game"
  | .sprite => "this.game"

end SceneKind

/-! ## Physics systems -/

inductive PhysicsSystem where
  | arcade
  | p2
  | ninja
  | box2d
  deriving DecidableEq

namespace PhysicsSystem

instance : Inhabited PhysicsSystem := ⟨.arcade⟩

def name : PhysicsSystem → String
  | .arcade => "arcade"
  | .p2 => "p2"
  | .ninja => "ninja"
  | .box2d => "box2d"

def codec : Codec PhysicsSystem :=
  .names [("arcade", .arcade), ("p2", .p2), ("ninja", .ninja), ("box2d", .box2d)] name

/-- The engine's constant. -/
def constant : PhysicsSystem → String
  | .arcade => "Phaser.Physics.ARCADE"
  | .p2 => "Phaser.Physics.P2JS"
  | .ninja => "Phaser.Physics.NINJA"
  | .box2d => "Phaser.Physics.BOX2D"

end PhysicsSystem

/-! ## Sort directions -/

/-- In which direction a group sorts its members for collision; the engine's default is none. -/
inductive SortDirection where
  | unsorted
  | leftRight
  | rightLeft
  | topBottom
  | bottomTop
  deriving DecidableEq

namespace SortDirection

instance : Inhabited SortDirection := ⟨.unsorted⟩

def name : SortDirection → String
  | .unsorted => "null"
  | .leftRight => "left_right"
  | .rightLeft => "right_left"
  | .topBottom => "top_bottom"
  | .bottomTop => "bottom_top"

def codec : Codec SortDirection :=
  .names
    [("null", .unsorted), ("left_right", .leftRight), ("right_left", .rightLeft), ("top_bottom", .topBottom),
      ("bottom_top", .bottomTop)]
    name

/-- The engine's constant. -/
def constant : SortDirection → String
  | .unsorted => "null"
  | .leftRight => "Phaser.Physics.Arcade.LEFT_RIGHT"
  | .rightLeft => "Phaser.Physics.Arcade.RIGHT_LEFT"
  | .topBottom => "Phaser.Physics.Arcade.TOP_BOTTOM"
  | .bottomTop => "Phaser.Physics.Arcade.BOTTOM_TOP"

end SortDirection

end SceneScript
