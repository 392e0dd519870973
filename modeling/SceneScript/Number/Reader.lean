/-
  SceneScript.Number.Reader — numbers as people write them.

  A sign, digits with an optional point among them, and an optional exponent; or the
  name of an infinity or of no number, in any case of letters. A number too large for
  a double is read as an infinity.
-/
import SceneScript.Number.Decimal

namespace SceneScript

namespace Number

/-- A double with a sign, or the infinity past it. -/
def ofDecimal (negative : Bool) (c : Decimal) : Number :=
  match Double.ofDecimal? negative c with
  | some d => .finite d
  | none => .infinite negative

/-- Splits off a sign. -/
def splitSign : List Char → Bool × List Char
  | '-' :: cs => (true, cs)
  | '+' :: cs => (false, cs)
  | cs => (false, cs)

/-- The exponent after the digits of a number; none if it is not well formed. -/
def exponent? : List Char → Option Int
  | [] => some 0
  | c :: cs =>
    if c = 'e' ∨ c = 'E' then
      let (negative, ds) := splitSign cs
      if ds.isEmpty || !ds.all Char.isDigit then none
      else some (if negative then -(Decimal.ofDigitChars ds : Int) else (Decimal.ofDigitChars ds : Int))
    else none

/-- The digits after a point, and what follows them. -/
def splitFraction : List Char → List Char × List Char
  | '.' :: cs => (cs.takeWhile Char.isDigit, cs.dropWhile Char.isDigit)
  | cs => ([], cs)

/-- The decimal that a text without sign denotes. -/
def decimal? (cs : List Char) : Option Decimal :=
  let whole := cs.takeWhile Char.isDigit
  let (fraction, rest) := splitFraction (cs.dropWhile Char.isDigit)
  if whole.isEmpty && fraction.isEmpty then none
  else (exponent? rest).map fun e => ⟨Decimal.ofDigitChars (whole ++ fraction), e - (fraction.length : Int)⟩

/-- The number that a text denotes. -/
def ofText? (s : String) : Option Number :=
  let (negative, cs) := splitSign s.toList
  let word := String.ofList (cs.map Char.toLower)
  if word = "inf" ∨ word = "infinity" then some (.infinite negative)
  else if word = "nan" then some .nan
  else (decimal? cs).map (ofDecimal negative)

end Number

end SceneScript
