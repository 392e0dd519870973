/-
  SceneScript.Script.OutputFile — a script as a file that is written again and again.

  `OutputFile.regenerate` makes the script anew from the text that the file holds now
  and says whether the file was created, changed or left alone. Between two runs people
  edit the file as they like. A file that is not text cannot be regenerated.
-/
import SceneScript.Script.Generation

namespace SceneScript

/-- What stands at the place of a script: nothing, a text, or bytes that are no text. -/
inductive OutputFile where
  | absent
  | text (s : String)
  | binary
  deriving DecidableEq

/-- What a run did to the file. -/
inductive Outcome where
  | created
  | updated
  | unchanged
  deriving DecidableEq

namespace Outcome

def name : Outcome → String
  | .created => "Created"
  | .updated => "Updated"
  | .unchanged => "Unchanged"

/-- How a run ends that replaces one text by another. -/
def compare (previous : Option String) (text : String) : Outcome :=
  match previous with
  | none => .created
  | some old => if old = text then .unchanged else .updated

end Outcome

namespace OutputFile

/-- The text of the file, if it has one. -/
def text? : OutputFile → Option String
  | .text s => some s
  | .absent => none
  | .binary => none

/-- The file with these bytes. -/
def ofBytes (bytes : ByteArray) : OutputFile :=
  match String.fromUTF8? bytes with
  | some s => .text s
  | none => .binary

/-! ## Edits -/

/-- The text that an edit starts from; a file without text counts as empty. -/
def editable (f : OutputFile) : String := f.text?.getD ""

def append (f : OutputFile) (s : String) : OutputFile := .text (f.editable ++ s)

/-- Replaces every occurrence of a text. -/
def replace (f : OutputFile) (mark new : String) : OutputFile := .text (Text.replaceAll mark new f.editable)

/-! ## Runs -/

/-- Why a run leaves the file alone. -/
inductive Failure where
  | read
  | write
  deriving DecidableEq

/-- A run that came to its end. -/
structure Run where
  outcome : Outcome
  lost : List Region
  file : OutputFile
  deriving DecidableEq

/-- Makes the script anew. The file is only written when its text changes. -/
def regenerate (config : Config) (m : Model) (f : OutputFile) : Except Failure Run :=
  match f with
  | .binary => .error .read
  | f =>
    let text := generate config m f.text?
    .ok ⟨Outcome.compare f.text? text, Regions.lost f.text?, .text text⟩

end OutputFile

end SceneScript
