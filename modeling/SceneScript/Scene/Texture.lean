/-
  SceneScript.Scene.Texture — which picture an object shows.

  A `Texture` names an asset and, where the asset holds several frames, the frame. A
  `Frame` alone is used where the asset is known, in animations and button states; it is
  written as a bare number or a bare text.
-/
import SceneScript.Json.Tagged

namespace SceneScript

/-! ## Textures -/

inductive Texture where
  | image (key : String)
  | spritesheetFrame (key : String) (index : UInt32)
  | atlasFrame (key frame : String)
  deriving DecidableEq

namespace Texture

instance : Inhabited Texture := ⟨.image ""⟩

/-- The key of the asset. -/
def assetKey : Texture → String
  | .image key => key
  | .spritesheetFrame key _ => key
  | .atlasFrame key _ => key

/-- Has a single frame. -/
def isImage : Texture → Bool
  | .image _ => true
  | _ => false

def imageRecord : Record String where
  title := "struct variant TextureRef::Image"
  blank := ""
  fields := [.required "key" .text id fun _ key => key]

def spritesheetFrameRecord : Record (String × UInt32) where
  title := "struct variant TextureRef::SpritesheetFrame"
  blank := ("", 0)
  fields := [
    .required "key" .text (·.1) fun t key => (key, t.2),
    .required "index" .word (·.2) fun t index => (t.1, index)]

def atlasFrameRecord : Record (String × String) where
  title := "struct variant TextureRef::AtlasFrame"
  blank := ("", "")
  fields := [
    .required "key" .text (·.1) fun t key => (key, t.2),
    .required "frame" .text (·.2) fun t frame => (t.1, frame)]

def tagged : Tagged Texture where
  title := "TextureRef"
  variants := [
    .ofRecord "image" imageRecord .image,
    .ofRecord "spritesheet_frame" spritesheetFrameRecord fun (key, index) => .spritesheetFrame key index,
    .ofRecord "atlas_frame" atlasFrameRecord fun (key, frame) => .atlasFrame key frame]
  encode
    | .image key => ("image", imageRecord.members key)
    | .spritesheetFrame key index => ("spritesheet_frame", spritesheetFrameRecord.members (key, index))
    | .atlasFrame key frame => ("atlas_frame", atlasFrameRecord.members (key, frame))

def codec : Codec Texture := tagged.codec

end Texture

/-! ## Frames -/

inductive Frame where
  | index (n : UInt32)
  | name (s : String)
  deriving DecidableEq

namespace Frame

instance : Inhabited Frame := ⟨.index 0⟩

/-- The value is read whole before it is looked at. -/
def codec : Codec Frame where
  decode p j := do
    p.hold j
    match j with
    | .number (.integer n) =>
      if 0 ≤ n ∧ n < 0x100000000 then .ok (.index (UInt32.ofNat n.toNat)) else refuse (.noVariant "FrameRef")
    | .text s => .ok (.name s)
    | _ => refuse (.noVariant "FrameRef")
  encode
    | .index n => Codec.word.encode n
    | .name s => .text s

end Frame

end SceneScript
