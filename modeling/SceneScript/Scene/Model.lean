/-
  SceneScript.Scene.Model — a whole scene.

  Settings of the class that the script defines, and the objects of its world.
-/
import SceneScript.Scene.Object

namespace SceneScript

/-- The class that a scene becomes. The texture belongs to sprite scenes; colour, physics and packs to states. -/
structure Settings where
  className : String
  kind : SceneKind := .group
  spriteTexture : Option Texture := none
  stageBackgroundColor : Option String := none
  physicsSystem : Option PhysicsSystem := none
  preloadSections : List String := []
  packUrl : String := "assets/pack.json"
  deriving DecidableEq

def Settings.record : Record Settings where
  title := "struct SceneSettings"
  blank := { className := "" }
  fields := [
    .required "class_name" .text (·.className) fun s v => { s with className := v },
    .written "kind" SceneKind.codec (·.kind) fun s v => { s with kind := v },
    .maybe "sprite_texture" Texture.codec (·.spriteTexture) fun s v => { s with spriteTexture := v },
    .maybe "stage_background_color" .text (·.stageBackgroundColor) fun s v => { s with stageBackgroundColor := v },
    .maybe "physics_system" PhysicsSystem.codec (·.physicsSystem) fun s v => { s with physicsSystem := v },
    .omitted "preload_sections" (.list .text) (·.preloadSections) (fun s v => { s with preloadSections := v })
      List.isEmpty,
    .written "pack_url" .text (·.packUrl) fun s v => { s with packUrl := v }]

def Settings.codec : Codec Settings := record.codec

/-- A scene. -/
structure Model where
  settings : Settings
  world : List SceneObject := []

def Model.record : Record Model where
  title := "struct SceneModel"
  blank := { settings := { className := "" } }
  fields := [
    .required "settings" Settings.codec (·.settings) fun m v => { m with settings := v },
    .written "world" SceneObject.codec.list (·.world) fun m v => { m with world := v }]

def Model.codec : Codec Model := record.codec

end SceneScript
