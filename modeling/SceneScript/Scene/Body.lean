/-
  SceneScript.Scene.Body — the physics body of an object.

  A body is a circle or a rectangle, with the tunables of the arcade system. A tunable
  that a scene does not mention has the value that the engine gives a fresh body.
-/
import SceneScript.Json.Tagged

namespace SceneScript

/-! ## Tunables -/

/-- The tunables of a body in the arcade system; the defaults are the engine's. -/
structure ArcadeBody where
  offsetX : Double := 0
  offsetY : Double := 0
  mass : Double := 1
  moves : Bool := true
  immovable : Bool := false
  collideWorldBounds : Bool := false
  allowRotation : Bool := true
  allowGravity : Bool := true
  bounceX : Double := 0
  bounceY : Double := 0
  velocityX : Double := 0
  velocityY : Double := 0
  maxVelocityX : Double := 10000
  maxVelocityY : Double := 10000
  accelerationX : Double := 0
  accelerationY : Double := 0
  dragX : Double := 0
  dragY : Double := 0
  gravityX : Double := 0
  gravityY : Double := 0
  frictionX : Double := 1
  frictionY : Double := 0
  angularVelocity : Double := 0
  maxAngular : Double := 1000
  angularAcceleration : Double := 0
  angularDrag : Double := 0
  checkCollisionNone : Bool := false
  checkCollisionUp : Bool := true
  checkCollisionDown : Bool := true
  checkCollisionLeft : Bool := true
  checkCollisionRight : Bool := true
  skipQuadTree : Bool := false
  deriving DecidableEq

instance : Inhabited ArcadeBody := ⟨{}⟩

def ArcadeBody.record : Record ArcadeBody where
  title := "struct ArcadeBody"
  blank := {}
  fields := [
    .written "offset_x" .double (·.offsetX) fun b v => { b with offsetX := v },
    .written "offset_y" .double (·.offsetY) fun b v => { b with offsetY := v },
    .written "mass" .double (·.mass) fun b v => { b with mass := v },
    .written "moves" .flag (·.moves) fun b v => { b with moves := v },
    .written "immovable" .flag (·.immovable) fun b v => { b with immovable := v },
    .written "collide_world_bounds" .flag (·.collideWorldBounds) fun b v => { b with collideWorldBounds := v },
    .written "allow_rotation" .flag (·.allowRotation) fun b v => { b with allowRotation := v },
    .written "allow_gravity" .flag (·.allowGravity) fun b v => { b with allowGravity := v },
    .written "bounce_x" .double (·.bounceX) fun b v => { b with bounceX := v },
    .written "bounce_y" .double (·.bounceY) fun b v => { b with bounceY := v },
    .written "velocity_x" .double (·.velocityX) fun b v => { b with velocityX := v },
    .written "velocity_y" .double (·.velocityY) fun b v => { b with velocityY := v },
    .written "max_velocity_x" .double (·.maxVelocityX) fun b v => { b with maxVelocityX := v },
    .written "max_velocity_y" .double (·.maxVelocityY) fun b v => { b with maxVelocityY := v },
    .written "acceleration_x" .double (·.accelerationX) fun b v => { b with accelerationX := v },
    .written "acceleration_y" .double (·.accelerationY) fun b v => { b with accelerationY := v },
    .written "drag_x" .double (·.dragX) fun b v => { b with dragX := v },
    .written "drag_y" .double (·.dragY) fun b v => { b with dragY := v },
    .written "gravity_x" .double (·.gravityX) fun b v => { b with gravityX := v },
    .written "gravity_y" .double (·.gravityY) fun b v => { b with gravityY := v },
    .written "friction_x" .double (·.frictionX) fun b v => { b with frictionX := v },
    .written "friction_y" .double (·.frictionY) fun b v => { b with frictionY := v },
    .written "angular_velocity" .double (·.angularVelocity) fun b v => { b with angularVelocity := v },
    .written "max_angular" .double (·.maxAngular) fun b v => { b with maxAngular := v },
    .written "angular_acceleration" .double (·.angularAcceleration) fun b v => { b with angularAcceleration := v },
    .written "angular_drag" .double (·.angularDrag) fun b v => { b with angularDrag := v },
    .written "check_collision_none" .flag (·.checkCollisionNone) fun b v => { b with checkCollisionNone := v },
    .written "check_collision_up" .flag (·.checkCollisionUp) fun b v => { b with checkCollisionUp := v },
    .written "check_collision_down" .flag (·.checkCollisionDown) fun b v => { b with checkCollisionDown := v },
    .written "check_collision_left" .flag (·.checkCollisionLeft) fun b v => { b with checkCollisionLeft := v },
    .written "check_collision_right" .flag (·.checkCollisionRight) fun b v => { b with checkCollisionRight := v },
    .written "skip_quad_tree" .flag (·.skipQuadTree) fun b v => { b with skipQuadTree := v }]

def ArcadeBody.codec : Codec ArcadeBody := record.codec

/-! ## Shapes -/

/-- The width or height of a rectangle that takes it from the texture. -/
def unsetSize : Double := -1

inductive Body where
  | absent
  | circle (radius : Double) (arcade : ArcadeBody)
  | rect (width height : Double) (arcade : ArcadeBody)
  deriving DecidableEq

namespace Body

instance : Inhabited Body := ⟨.absent⟩

/-- The tunables, where there is a body. -/
def arcade? : Body → Option ArcadeBody
  | .absent => none
  | .circle _ arcade => some arcade
  | .rect _ _ arcade => some arcade

def circleRecord : Record (Double × ArcadeBody) where
  title := "struct variant Body::ArcadeCircle"
  blank := (0, {})
  fields := [
    .required "radius" .double (·.1) fun b radius => (radius, b.2),
    .written "arcade" ArcadeBody.codec (·.2) fun b arcade => (b.1, arcade)]

def rectRecord : Record (Double × Double × ArcadeBody) where
  title := "struct variant Body::ArcadeRect"
  blank := (unsetSize, unsetSize, {})
  fields := [
    .written "width" .double (·.1) fun b width => (width, b.2),
    .written "height" .double (·.2.1) fun b height => (b.1, height, b.2.2),
    .written "arcade" ArcadeBody.codec (·.2.2) fun b arcade => (b.1, b.2.1, arcade)]

def tagged : Tagged Body where
  title := "Body"
  variants := [
    .plain "none" .absent,
    .ofRecord "arcade_circle" circleRecord fun (radius, arcade) => .circle radius arcade,
    .ofRecord "arcade_rect" rectRecord fun (width, height, arcade) => .rect width height arcade]
  encode
    | .absent => ("none", [])
    | .circle radius arcade => ("arcade_circle", circleRecord.members (radius, arcade))
    | .rect width height arcade => ("arcade_rect", rectRecord.members (width, height, arcade))

def codec : Codec Body := tagged.codec

end Body

end SceneScript
