/-
  SceneScript.Script.Literal — the values of a scene as literals of the script.

  Numbers are written at full precision and never with an exponent; a coordinate is
  first rounded to a whole pixel. A zero is written without its sign. Texts are quoted
  with single quotes, and no literal ever spans two lines.
-/
import SceneScript.Number.Decimal
import SceneScript.Text.Blank

namespace SceneScript.Literal

/-! ## Numbers -/

/-- A double at full precision. Of two shortest decimals equally close the greater is written. -/
def number (d : Double) : String :=
  if d.isZero then "0"
  else
    let digits := String.ofList (d.shortest .up).plain
    if d.negative then "-" ++ digits else digits

/-- Any number; what is not finite is written by name. -/
def ofNumber : Number → String
  | .finite d => number d
  | .infinite true => "-inf"
  | .infinite false => "inf"
  | .nan => "NaN"

/-- A coordinate, to the nearest whole pixel; halves go up. -/
def pixels (d : Double) : String := number d.toWhole

def flag (b : Bool) : String := if b then "true" else "false"

/-- A number of 32 bits. -/
def word (n : UInt32) : String := Decimal.natText n.toNat

/-! ## Texts -/

/-- One character between single quotes. -/
def escapeChar (c : Char) : List Char :=
  if c = '\'' then ['\\', '\'']
  else if c = '\\' then ['\\', '\\']
  else if c = '\n' then ['\\', 'n']
  else if c = '\r' then ['\\', 'r']
  else if c = '\t' then ['\\', 't']
  else [c]

/-- A text between single quotes. -/
def textChars (cs : List Char) : List Char := '\'' :: (cs.flatMap escapeChar ++ ['\''])

def text (s : String) : String := String.ofList (textChars s.toList)

/-- An expression without the white space around it; `null` where nothing is left. -/
def orNull (expression : Option String) : String :=
  match expression with
  | none => "null"
  | some e => if Text.isBlank e then "null" else Text.trim e

/-- Halves go up, on either side of zero, and a zero has no sign. -/
example :
    [⟨25, -1⟩, ⟨104, -1⟩].map (fun c => (Double.ofDecimal? false c).map pixels) = [some "3", some "10"]
      ∧ [⟨35, -1⟩, ⟨4, -1⟩].map (fun c => (Double.ofDecimal? true c).map pixels) = [some "-3", some "0"] := by
  decide +kernel

end SceneScript.Literal
