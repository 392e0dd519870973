/-
  SceneScript.Json.Error — why a text is not the value that was asked for.

  Either its form is at fault (`Fault`, which has no further text), or it is sound up
  to there and holds something else (`DataError`). Each cause has one wording, given by
  `DataError.message`.
-/
import SceneScript.Json.Printer
import SceneScript.Text.Visible

namespace SceneScript

/-- What a text holds where something else is wanted. -/
inductive Found where
  | null
  | flag (value : Bool)
  | integer (n : Int)
  | real (d : Double)
  | text (s : String)
  | sequence
  | map
  deriving DecidableEq

/-- What is wanted. The title of a record is how messages call it. -/
inductive Wanted where
  | number
  | word
  | flag
  | text
  | sequence
  | record (title : String)
  | elementsOf (title : String) (count : Nat)
  | elements (count : Nat)
  | tagged (title : String)
  | variantName
  | variantIndex (count : Nat)
  | textOrMap
  | singleKey
  | unit
  deriving DecidableEq

/-- Why a sound text is not the value that was asked for. -/
inductive DataError where
  | wrongType (found : Found) (wanted : Wanted)
  | wrongValue (found : Found) (wanted : Wanted)
  | wrongLength (count : Nat) (wanted : Wanted)
  | missingField (name : String)
  | duplicateField (name : String)
  | unknownVariant (name : String) (known : List String)
  | noVariant (title : String)
  deriving DecidableEq

/-- Why a value could not be read. -/
inductive ReadError where
  | form (fault : Fault)
  | data (error : DataError)
  deriving DecidableEq

/-! ## Wordings -/

def Found.message : Found → String
  | .null => "null"
  | .flag b => "boolean `" ++ (if b then "true" else "false") ++ "`"
  | .integer n => "integer `" ++ String.ofList (Decimal.intChars n) ++ "`"
  | .real d => "floating point `" ++ String.ofList d.jsonChars ++ "`"
  | .text s => "string " ++ Text.quoted s
  | .sequence => "sequence"
  | .map => "map"

/-- A count of elements in words. -/
def elementCount (n : Nat) : String :=
  Decimal.natText n ++ (if n = 1 then " element" else " elements")

def Wanted.message : Wanted → String
  | .number => "f64"
  | .word => "u32"
  | .flag => "a boolean"
  | .text => "a string"
  | .sequence => "a sequence"
  | .record title => title
  | .elementsOf title count => title ++ " with " ++ elementCount count
  | .elements count => elementCount count ++ " in sequence"
  | .tagged title => "internally tagged enum " ++ title
  | .variantName => "variant identifier"
  | .variantIndex count => "variant index 0 <= i < " ++ Decimal.natText count
  | .textOrMap => "string or map"
  | .singleKey => "map with a single key"
  | .unit => "unit"

def DataError.message : DataError → String
  | .wrongType found wanted => "invalid type: " ++ found.message ++ ", expected " ++ wanted.message
  | .wrongValue found wanted => "invalid value: " ++ found.message ++ ", expected " ++ wanted.message
  | .wrongLength count wanted =>
    "invalid length " ++ Decimal.natText count ++ ", expected " ++ wanted.message
  | .missingField name => "missing field `" ++ name ++ "`"
  | .duplicateField name => "duplicate field `" ++ name ++ "`"
  | .unknownVariant name known =>
    "unknown variant `" ++ name ++ "`, expected one of " ++ String.intercalate ", " (known.map fun k => "`" ++ k ++ "`")
  | .noVariant title => "data did not match any variant of untagged enum " ++ title

end SceneScript
