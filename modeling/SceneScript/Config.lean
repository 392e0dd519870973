/-
  SceneScript.Config — what the owner of a project may choose.

  The product named in the first line of a script, one level of indentation, and the
  message of the placeholders. A configuration that cannot be read never stops the
  generator: the defaults stand in for it, and only a text that is there but does not
  hold a configuration is worth a warning.
-/
import SceneScript.Json.Record
import SceneScript.Script.Regions

namespace SceneScript

structure Config where
  productName : String := "canvas-codegen 0.1.0"
  indent : String := "\t"
  placeholderMessage : String := "user code here"
  deriving DecidableEq

namespace Config

def record : Record Config where
  title := "struct GeneratorConfig"
  blank := {}
  fields := [
    .written "product_name" .text (·.productName) fun c v => { c with productName := v },
    .written "indent" .text (·.indent) fun c v => { c with indent := v },
    .written "placeholder_message" .text (·.placeholderMessage) fun c v => { c with placeholderMessage := v }]

def codec : Codec Config := record.codec

/-- A configuration, and why it is not the one in the text. -/
structure Loaded where
  config : Config
  problem : Option ReadError

/-- The configuration in a text, if there is a text. -/
def load (text : Option String) : Loaded :=
  match text with
  | none => ⟨{}, none⟩
  | some s =>
    match codec.ofText s with
    | .ok config => ⟨config, none⟩
    | .error e => ⟨{}, some e⟩

/-- The placeholder of the regions inside the code. -/
def bodyPlaceholder (c : Config) : String := placeholder c.indent c.placeholderMessage

/-- The placeholder of the region at the end. -/
def trailingPlaceholder (c : Config) : String := placeholder "" c.placeholderMessage

end Config

end SceneScript
