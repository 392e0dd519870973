/-
  SceneScript.Script.Context — where an object of the scene is made.

  The kind of scene decides what the factory calls are made on and whether a leaf names
  its parent; the parent decides which name that is and whether a member has a body
  already.
-/
import SceneScript.Script.Statement

namespace SceneScript

/-- What an object is put into. -/
inductive Parent where
  | world
  | group (info : ObjectInfo) (physics : GroupPhysics)
  deriving DecidableEq

/-- Where objects are emitted. -/
structure Context where
  kind : SceneKind
  parent : Parent := .world
  deriving DecidableEq

namespace Context

/-- The context of a group's children. -/
def within (cx : Context) (info : ObjectInfo) (physics : GroupPhysics) : Context :=
  { cx with parent := .group info physics }

/-- The expression for the parent. -/
def parentName (cx : Context) : String :=
  match cx.parent with
  | .world => "this"
  | .group info _ => info.name

/-- The parent argument of a leaf. The factories of a state take none. -/
def parentArgument? (cx : Context) : Option String :=
  match cx.kind with
  | .state => none
  | .group => some cx.parentName
  | .sprite => some cx.parentName

/-- The parent gives its members bodies of the arcade system. -/
def inArcadeGroup (cx : Context) : Bool :=
  match cx.parent with
  | .world => false
  | .group _ physics => physics.givesArcadeBodies

def call (cx : Context) (factory : String) (args : List Expr) : Call := ⟨cx.kind.receiver, factory, args⟩

end Context

end SceneScript
