/-
  SceneScript.Script.Naming — variables and fields named after objects.

  An object is the variable of its name, an animation the variable `object_animation`.
  A public one is also a field of `this`, named with a leading `f` and a capital.
  Names are taken as they are: keeping them apart is the editor's business.
-/
import SceneScript.Text.UpperCase

namespace SceneScript.Naming

/-- `hero` becomes `fHero`. -/
def fieldName (name : String) : String :=
  match name.toList with
  | [] => "f"
  | c :: rest => String.ofList ('f' :: (Text.upperCase c ++ rest))

/-- `hero` and `walk` become `hero_walk`. -/
def animationVariable (object animation : String) : String := object ++ "_" ++ animation

end SceneScript.Naming
