/-
  SceneScript.Scene.Object — the objects of a scene.

  Sprites, buttons, tiled sprites and bitmap texts are leaves; a group holds objects.
  Every object has a name, which becomes a variable of the script, and a place
  (`ObjectInfo`); every leaf has what sprites have in common (`SpriteInfo`).

  `SceneObject.codec` reads objects to the depth that the nesting limit of a text allows.
  It is built level by level: `codecTo n` knows objects nested at most `n` deep.
-/
import SceneScript.Scene.Body
import SceneScript.Scene.Engine
import SceneScript.Scene.Texture

namespace SceneScript

/-! ## What objects have in common -/

/-- Where an object stands, how it is turned and scaled, and about which point. -/
structure Transform where
  x : Double := 0
  y : Double := 0
  angle : Double := 0
  scaleX : Double := 1
  scaleY : Double := 1
  pivotX : Double := 0
  pivotY : Double := 0
  deriving DecidableEq

def Transform.record : Record Transform where
  title := "struct Transform"
  blank := {}
  fields := [
    .written "x" .double (·.x) fun t v => { t with x := v },
    .written "y" .double (·.y) fun t v => { t with y := v },
    .written "angle" .double (·.angle) fun t v => { t with angle := v },
    .written "scale_x" .double (·.scaleX) fun t v => { t with scaleX := v },
    .written "scale_y" .double (·.scaleY) fun t v => { t with scaleY := v },
    .written "pivot_x" .double (·.pivotX) fun t v => { t with pivotX := v },
    .written "pivot_y" .double (·.pivotY) fun t v => { t with pivotY := v }]

def Transform.codec : Codec Transform := record.codec

/-- The name of an object, whether it is written to the script, whether it becomes a field there, and its place. -/
structure ObjectInfo where
  name : String
  enabled : Bool := true
  isPublic : Bool := false
  transform : Transform := {}
  deriving DecidableEq

/-- An object of this name at the origin. -/
def ObjectInfo.named (name : String) : ObjectInfo := { name }

def ObjectInfo.record : Record ObjectInfo where
  title := "struct ObjectInfo"
  blank := .named ""
  fields := [
    .required "name" .text (·.name) fun i v => { i with name := v },
    .omitted "generate_code" .flag (·.enabled) (fun i v => { i with enabled := v }) id,
    .omitted "public" .flag (·.isPublic) (fun i v => { i with isPublic := v }) not,
    .written "transform" Transform.codec (·.transform) fun i v => { i with transform := v }]

def ObjectInfo.codec : Codec ObjectInfo := record.codec

/-- A named run of frames. -/
structure Animation where
  name : String
  frames : List Frame
  frameRate : UInt32 := 60
  looping : Bool := false
  isPublic : Bool := false
  killOnComplete : Bool := false
  deriving DecidableEq

def Animation.record : Record Animation where
  title := "struct Animation"
  blank := { name := "", frames := [] }
  fields := [
    .required "name" .text (·.name) fun a v => { a with name := v },
    .required "frames" (.list Frame.codec) (·.frames) fun a v => { a with frames := v },
    .written "frame_rate" .word (·.frameRate) fun a v => { a with frameRate := v },
    .written "looping" .flag (·.looping) fun a v => { a with looping := v },
    .omitted "public" .flag (·.isPublic) (fun a v => { a with isPublic := v }) not,
    .omitted "kill_on_complete" .flag (·.killOnComplete) (fun a v => { a with killOnComplete := v }) not]

def Animation.codec : Codec Animation := record.codec

/-- What every leaf has. The tint and the extra data are expressions of the script. -/
structure SpriteInfo where
  anchorX : Double := 0
  anchorY : Double := 0
  tint : Option String := none
  animations : List Animation := []
  body : Body := .absent
  data : Option String := none
  deriving DecidableEq

def SpriteInfo.record : Record SpriteInfo where
  title := "struct SpriteInfo"
  blank := {}
  fields := [
    .written "anchor_x" .double (·.anchorX) fun s v => { s with anchorX := v },
    .written "anchor_y" .double (·.anchorY) fun s v => { s with anchorY := v },
    .maybe "tint" .text (·.tint) fun s v => { s with tint := v },
    .omitted "animations" (.list Animation.codec) (·.animations) (fun s v => { s with animations := v }) List.isEmpty,
    .written "body" Body.codec (·.body) fun s v => { s with body := v },
    .maybe "data" .text (·.data) fun s v => { s with data := v }]

def SpriteInfo.codec : Codec SpriteInfo := record.codec

/-! ## Leaves -/

/-- A picture. -/
structure Sprite where
  info : ObjectInfo
  texture : Texture
  sprite : SpriteInfo := {}
  deriving DecidableEq

def Sprite.record : Record Sprite where
  title := "struct Sprite"
  blank := { info := .named "", texture := default }
  fields := [
    .required "info" ObjectInfo.codec (·.info) fun o v => { o with info := v },
    .required "texture" Texture.codec (·.texture) fun o v => { o with texture := v },
    .written "sprite" SpriteInfo.codec (·.sprite) fun o v => { o with sprite := v }]

/-- A picture that reacts to the pointer. The callback and its context are expressions of the script. -/
structure Button where
  info : ObjectInfo
  texture : Texture
  callback : Option String := none
  callbackContext : Option String := none
  overFrame : Option Frame := none
  downFrame : Option Frame := none
  upFrame : Option Frame := none
  sprite : SpriteInfo := {}
  deriving DecidableEq

def Button.record : Record Button where
  title := "struct Button"
  blank := { info := .named "", texture := default }
  fields := [
    .required "info" ObjectInfo.codec (·.info) fun o v => { o with info := v },
    .required "texture" Texture.codec (·.texture) fun o v => { o with texture := v },
    .maybe "callback" .text (·.callback) fun o v => { o with callback := v },
    .maybe "callback_context" .text (·.callbackContext) fun o v => { o with callbackContext := v },
    .maybe "over_frame" Frame.codec (·.overFrame) fun o v => { o with overFrame := v },
    .maybe "down_frame" Frame.codec (·.downFrame) fun o v => { o with downFrame := v },
    .maybe "up_frame" Frame.codec (·.upFrame) fun o v => { o with upFrame := v },
    .written "sprite" SpriteInfo.codec (·.sprite) fun o v => { o with sprite := v }]

/-- A rectangle filled with a repeated picture. -/
structure TileSprite where
  info : ObjectInfo
  texture : Texture
  width : Double
  height : Double
  tilePositionX : Double := 0
  tilePositionY : Double := 0
  tileScaleX : Double := 1
  tileScaleY : Double := 1
  sprite : SpriteInfo := {}
  deriving DecidableEq

def TileSprite.record : Record TileSprite where
  title := "struct TileSprite"
  blank := { info := .named "", texture := default, width := 0, height := 0 }
  fields := [
    .required "info" ObjectInfo.codec (·.info) fun o v => { o with info := v },
    .required "texture" Texture.codec (·.texture) fun o v => { o with texture := v },
    .required "width" .double (·.width) fun o v => { o with width := v },
    .required "height" .double (·.height) fun o v => { o with height := v },
    .written "tile_position_x" .double (·.tilePositionX) fun o v => { o with tilePositionX := v },
    .written "tile_position_y" .double (·.tilePositionY) fun o v => { o with tilePositionY := v },
    .written "tile_scale_x" .double (·.tileScaleX) fun o v => { o with tileScaleX := v },
    .written "tile_scale_y" .double (·.tileScaleY) fun o v => { o with tileScaleY := v },
    .written "sprite" SpriteInfo.codec (·.sprite) fun o v => { o with sprite := v }]

/-- Text drawn with a bitmap font. -/
structure BitmapText where
  info : ObjectInfo
  font : String
  text : String := ""
  size : Double := 32
  align : String := "left"
  maxWidth : Double := 0
  sprite : SpriteInfo := {}
  deriving DecidableEq

def BitmapText.record : Record BitmapText where
  title := "struct BitmapText"
  blank := { info := .named "", font := "" }
  fields := [
    .required "info" ObjectInfo.codec (·.info) fun o v => { o with info := v },
    .required "font" .text (·.font) fun o v => { o with font := v },
    .written "text" .text (·.text) fun o v => { o with text := v },
    .written "size" .double (·.size) fun o v => { o with size := v },
    .written "align" .text (·.align) fun o v => { o with align := v },
    .written "max_width" .double (·.maxWidth) fun o v => { o with maxWidth := v },
    .written "sprite" SpriteInfo.codec (·.sprite) fun o v => { o with sprite := v }]

/-! ## Groups -/

/-- The physics of a group: whether its members get bodies from it, and of which system. -/
structure GroupPhysics where
  physicsGroup : Bool := false
  bodyType : PhysicsSystem := .arcade
  sortDirection : SortDirection := .unsorted
  deriving DecidableEq

def GroupPhysics.record : Record GroupPhysics where
  title := "struct GroupPhysics"
  blank := {}
  fields := [
    .written "physics_group" .flag (·.physicsGroup) fun g v => { g with physicsGroup := v },
    .written "body_type" PhysicsSystem.codec (·.bodyType) fun g v => { g with bodyType := v },
    .written "sort_direction" SortDirection.codec (·.sortDirection) fun g v => { g with sortDirection := v }]

/-- Gives its members bodies of the arcade system. -/
def GroupPhysics.givesArcadeBodies (g : GroupPhysics) : Bool := g.physicsGroup && decide (g.bodyType = .arcade)

/-- The asset that a sprite is taken from. Scripts do not tell them apart. -/
inductive SpriteKind where
  | image
  | spritesheet
  | atlas
  deriving DecidableEq

inductive SceneObject where
  | group (info : ObjectInfo) (children : List SceneObject) (physics : GroupPhysics)
  | sprite (kind : SpriteKind) (sprite : Sprite)
  | button (button : Button)
  | tileSprite (tile : TileSprite)
  | bitmapText (text : BitmapText)

instance : Inhabited SceneObject := ⟨.group (.named "") [] {}⟩

/-- A group by itself. -/
structure Group where
  info : ObjectInfo
  children : List SceneObject := []
  physics : GroupPhysics := {}

namespace SceneObject

def ofGroup (g : Group) : SceneObject := .group g.info g.children g.physics

def info : SceneObject → ObjectInfo
  | .group info _ _ => info
  | .sprite _ o => o.info
  | .button o => o.info
  | .tileSprite o => o.info
  | .bitmapText o => o.info

/-- The sprite data of a leaf. -/
def spriteInfo? : SceneObject → Option SpriteInfo
  | .group _ _ _ => none
  | .sprite _ o => some o.sprite
  | .button o => some o.sprite
  | .tileSprite o => some o.sprite
  | .bitmapText o => some o.sprite

mutual

/-- How deep objects are nested, a leaf being one deep. -/
def depth : SceneObject → Nat
  | .group _ children _ => depthOfAll children + 1
  | .sprite _ _ => 1
  | .button _ => 1
  | .tileSprite _ => 1
  | .bitmapText _ => 1
termination_by structural o => o

/-- The depth of the deepest. -/
def depthOfAll : List SceneObject → Nat
  | [] => 0
  | o :: rest => Nat.max (depth o) (depthOfAll rest)
termination_by structural os => os

end

end SceneObject

/-! ## Objects in a text -/

/-- Groups whose children are read with a given codec. -/
def Group.recordWith (children : Codec SceneObject) : Record Group where
  title := "struct Group"
  blank := { info := .named "" }
  fields := [
    .required "info" ObjectInfo.codec (·.info) fun g v => { g with info := v },
    .written "children" children.list (·.children) fun g v => { g with children := v },
    .written "physics" GroupPhysics.record.codec (·.physics) fun g v => { g with physics := v }]

namespace SceneObject

/-- Objects whose children, if they are groups, are read with a given codec. -/
def taggedWith (children : Codec SceneObject) : Tagged SceneObject where
  title := "SceneObject"
  variants := [
    .ofRecord "group" (Group.recordWith children) ofGroup,
    .ofRecord "image" Sprite.record (.sprite .image),
    .ofRecord "spritesheet" Sprite.record (.sprite .spritesheet),
    .ofRecord "atlas" Sprite.record (.sprite .atlas),
    .ofRecord "button" Button.record .button,
    .ofRecord "tile_sprite" TileSprite.record .tileSprite,
    .ofRecord "bitmap_text" BitmapText.record .bitmapText]
  encode
    | .group info inner physics => ("group", (Group.recordWith children).members ⟨info, inner, physics⟩)
    | .sprite .image o => ("image", Sprite.record.members o)
    | .sprite .spritesheet o => ("spritesheet", Sprite.record.members o)
    | .sprite .atlas o => ("atlas", Sprite.record.members o)
    | .button o => ("button", Button.record.members o)
    | .tileSprite o => ("tile_sprite", TileSprite.record.members o)
    | .bitmapText o => ("bitmap_text", BitmapText.record.members o)

/-- Objects nested at most `n` deep. -/
def codecTo : Nat → Codec SceneObject
  | 0 => ⟨fun _ _ => .error (.form .malformed), fun _ => .null⟩
  | n + 1 => (taggedWith (codecTo n)).codec

/-- The levels below the nesting limit, which is never reached since each level opens a container of its own. -/
def levels : Codec SceneObject := codecTo Json.nestingLimit

/-- Objects of any depth that a text can hold. -/
def codec : Codec SceneObject where
  decode := levels.decode
  encode o := (codecTo o.depth).encode o

end SceneObject

def Group.record : Record Group := recordWith SceneObject.codec

end SceneScript
