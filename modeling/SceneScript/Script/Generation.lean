/-
  SceneScript.Script.Generation — the script of a scene.

  `generate` is a pure function of the configuration, the scene and the earlier text of
  the script. The script is the boilerplate around two indented blocks, the statements
  that make the objects and those that set the public fields. What happened on the way
  is returned as a list of records, not printed.
-/
import SceneScript.Config
import SceneScript.Script.Boilerplate
import SceneScript.Script.ObjectStatements

namespace SceneScript

/-! ## Records of what happened -/

/-- A record: a region was lost, an object is written, a script is made. -/
inductive LogRecord where
  | lost (region : Region)
  | emitting (name : String)
  | generating (className : String) (statements fields : Nat)
  deriving DecidableEq

inductive LogLevel where
  | debug
  | info
  | warn
  deriving DecidableEq

namespace LogRecord

def level : LogRecord → LogLevel
  | .lost _ => .warn
  | .emitting _ => .debug
  | .generating _ _ _ => .info

def message : LogRecord → String
  | .lost .preInit => "pre-init markers not found, restoring placeholder"
  | .lost .postInit => "post-init markers not found, restoring placeholder"
  | .lost .trailing => "end-of-generated-code marker not found, restoring placeholder"
  | .emitting name => "emitting " ++ name
  | .generating className statements fields =>
    "generating " ++ className ++ " (" ++ Decimal.natText statements ++ " statements, "
      ++ Decimal.natText fields ++ " public fields)"

end LogRecord

/-! ## The script -/

/-- Indents each line, but leaves an empty one empty. -/
def writeBlock (indent : String) (lines : List String) : String :=
  String.join (lines.map fun line => if line.isEmpty then "\n" else indent ++ line ++ "\n")

/-- The lines that make the objects of a scene. -/
def Model.objectLines (m : Model) : List String :=
  Statement.linesOfAll (SceneObject.statementsOfAll { kind := m.settings.kind } m.world)

/-- The lines that set its public fields. -/
def Model.fieldLines (m : Model) : List String := m.publicFields.map PublicField.line

/-- The block of public fields, if there are any. -/
def fieldBlock (indent : String) (lines : List String) : String :=
  if lines.isEmpty then "" else indent ++ "// public fields\n\n" ++ writeBlock indent lines ++ "\n"

/-- The script of a scene with given regions. -/
def scriptText (config : Config) (m : Model) (regions : Regions) : String :=
  "// Generated by " ++ config.productName ++ "\n\n"
    ++ Boilerplate.header m.settings config.indent regions.preInit
    ++ writeBlock config.indent m.objectLines ++ "\n"
    ++ fieldBlock config.indent m.fieldLines
    ++ Boilerplate.footer m.settings config.indent regions.postInit regions.trailing

/-- The script of a scene, with the regions of its earlier text. -/
def generate (config : Config) (m : Model) (previous : Option String) : String :=
  scriptText config m (Regions.recover previous config.bodyPlaceholder config.trailingPlaceholder)

/-- What happens while a script is made: regions are lost, then objects are written, then the script is made. -/
def generationLog (m : Model) (previous : Option String) : List LogRecord :=
  (Regions.lost previous).map .lost
    ++ (SceneObject.enabledAmong m.world).map (fun o => .emitting o.info.name)
    ++ [.generating m.settings.className (m.objectLines.filter fun line => !line.isEmpty).length m.publicFields.length]

end SceneScript
