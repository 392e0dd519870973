/-
  SceneScript.Json.Printer — the compact text of a value.

  No blanks, members in the order they stand, and one spelling for each character and
  number. A quote, a backslash and the controls are escaped, everything else is
  written as it is. A double always shows that it is one: `1.0` is not `1`. It is
  positional while its leading digit stands between the fifth place after the point and
  the sixteenth before it, and has an exponent outside; of two shortest decimals
  equally close the one with the even last digit is written.
-/
import SceneScript.Json.Basic
import SceneScript.Number.Decimal

namespace SceneScript

/-- The digits of a double in a JSON text, without its sign. -/
def Decimal.jsonChars (c : Decimal) : List Char :=
  let lead := c.leading
  if -5 ≤ lead ∧ lead ≤ 15 then
    if 0 ≤ c.exponent then c.plain ++ ['.', '0'] else c.plain
  else c.scientific

/-- A double in a JSON text. -/
def Double.jsonChars (d : Double) : List Char :=
  let digits := (d.shortest .toEven).jsonChars
  if d.negative then '-' :: digits else digits

namespace Json

def Numeral.chars : Numeral → List Char
  | .integer n => Decimal.intChars n
  | .real d => d.jsonChars

/-- One character of a quoted text. -/
def escapeChar (c : Char) : List Char :=
  if c = '"' then ['\\', '"']
  else if c = '\\' then ['\\', '\\']
  else if c = '\n' then ['\\', 'n']
  else if c = '\r' then ['\\', 'r']
  else if c = '\t' then ['\\', 't']
  else if c.toNat = 8 then ['\\', 'b']
  else if c.toNat = 12 then ['\\', 'f']
  else if c.toNat < 0x20 then ['\\', 'u', '0', '0', Nat.digitChar (c.toNat / 16), Nat.digitChar (c.toNat % 16)]
  else [c]

/-- A quoted text. -/
def textChars (s : String) : List Char := '"' :: (s.toList.flatMap escapeChar ++ ['"'])

mutual

/-- The text of a sound value; a broken one has none. -/
def chars : Json → List Char
  | .null => ['n', 'u', 'l', 'l']
  | .flag true => ['t', 'r', 'u', 'e']
  | .flag false => ['f', 'a', 'l', 's', 'e']
  | .number n => Numeral.chars n
  | .text s => textChars s
  | .array items _ => '[' :: (itemChars items ++ [']'])
  | .object members _ => '\x7b' :: (memberChars members ++ ['\x7d'])
  | .broken _ => []
termination_by structural j => j

/-- Elements with commas between them. -/
def itemChars : List Json → List Char
  | [] => []
  | [j] => chars j
  | j :: js => chars j ++ ',' :: itemChars js
termination_by structural js => js

/-- Members with commas between them. -/
def memberChars : List (Json × Json) → List Char
  | [] => []
  | [(k, v)] => chars k ++ ':' :: chars v
  | (k, v) :: rest => chars k ++ ':' :: (chars v ++ ',' :: memberChars rest)
termination_by structural ms => ms

end

/-- The compact text of a value. -/
def print (j : Json) : String := String.ofList (chars j)

end Json

/-- Where positional digits end on either side. -/
example :
    [⟨1, 15⟩, ⟨1, 16⟩, ⟨1, -5⟩, ⟨1, -6⟩, ⟨15, -1⟩].map Decimal.jsonChars
      = ["1000000000000000.0", "1e+16", "0.00001", "1e-6", "1.5"].map String.toList := by
  decide +kernel

end SceneScript
