/-
  SceneScript.Number.Decimal — decimal numerals and the doubles they name.

  A decimal is `digits * 10 ^ exponent`. Reading one gives the double closest to it
  (`Double.ofDecimal?`); writing a double gives the decimal with the fewest digits that
  reads back as that double, and among those the closest (`Double.shortest`). The search
  tries the two neighbours of the value on the grid of 1, 2, … 17 digits and asks the
  reader itself whether a candidate comes back, so what is written always reads back.
  Two neighbours equally close are told apart by the `Tie` of the text being written.

  `Decimal.plain` and `Decimal.scientific` are the two layouts of the digits.
-/
import SceneScript.Number.Double

namespace SceneScript

/-- `digits * 10 ^ exponent`. -/
structure Decimal where
  digits : Nat
  exponent : Int
  deriving DecidableEq

/-- Which of two equally close decimals is written. -/
inductive Tie where
  | up
  | toEven
  deriving DecidableEq

namespace Decimal

def toRat (c : Decimal) : Rat := (c.digits : Rat) * (10 : Rat) ^ c.exponent

/-- The digits of a natural number, most significant first. -/
def digitChars (n : Nat) : List Char := Nat.toDigits 10 n

/-- A natural number as a text. -/
def natText (n : Nat) : String := String.ofList (digitChars n)

/-- The digits of an integer, with a sign if it is negative. -/
def intChars (n : Int) : List Char := if n < 0 then '-' :: digitChars n.natAbs else digitChars n.natAbs

/-- The natural number that a run of digits denotes. -/
def ofDigitChars (cs : List Char) : Nat := cs.foldl (fun n c => 10 * n + (c.toNat - '0'.toNat)) 0

/-- Moves trailing zeros of the digits into the exponent. -/
def trimZeros : Nat → Decimal → Decimal
  | 0, c => c
  | fuel + 1, c =>
    if c.digits ≠ 0 ∧ c.digits % 10 = 0 then trimZeros fuel ⟨c.digits / 10, c.exponent + 1⟩ else c

/-- The same value with no trailing zero among the digits. -/
def trimmed (c : Decimal) : Decimal := trimZeros (digitChars c.digits).length c

/-- The exponent of the leading digit. -/
def leading (c : Decimal) : Int := ((digitChars c.digits).length : Int) - 1 + c.exponent

/-! ## Layouts -/

/-- Positional digits, with a point only where there is a fraction. -/
def plain (c : Decimal) : List Char :=
  let ds := digitChars c.digits
  if 0 ≤ c.exponent then ds ++ List.replicate c.exponent.toNat '0'
  else
    let places := (-c.exponent).toNat
    if places < ds.length then ds.take (ds.length - places) ++ '.' :: ds.drop (ds.length - places)
    else '0' :: '.' :: (List.replicate (places - ds.length) '0' ++ ds)

/-- One digit before the point and a signed exponent: `1.5e+300`, `5e-324`. -/
def scientific (c : Decimal) : List Char :=
  let lead := c.leading
  let exponent := (if lead < 0 then '-' else '+') :: digitChars lead.natAbs
  match digitChars c.digits with
  | [] => []
  | [d] => d :: 'e' :: exponent
  | d :: ds => d :: '.' :: (ds ++ 'e' :: exponent)

end Decimal

namespace Double

/-- The double closest to a decimal; none past the largest double. Decimals far outside the range of doubles are
    settled by the place of their leading digit. -/
def ofDecimal? (negative : Bool) (c : Decimal) : Option Double :=
  if c.digits = 0 then some (zero negative)
  else if 310 < c.leading then none
  else if c.leading < -330 then some (zero negative)
  else nearest negative c.toRat

/-- The exponent of the leading decimal digit of a positive rational. -/
def leadingDigit (q : Rat) : Int :=
  let guess : Int := ((Decimal.digitChars q.num.natAbs).length : Int) - ((Decimal.digitChars q.den).length : Int)
  if (10 : Rat) ^ guess ≤ q then guess else guess - 1

/-- Does the decimal, with the sign of `d`, read as `d`? -/
def readsFrom (d : Double) (c : Decimal) : Bool := decide (ofDecimal? d.negative c = some d)

/-- The neighbours of `d` on the decimal grid of exponent `exponent`, if one reads as `d`: the closer one that does. -/
def onGrid? (tie : Tie) (d : Double) (exponent : Int) : Option Decimal :=
  let scaled := d.magnitude * (10 : Rat) ^ (-exponent)
  let below := scaled.floor.toNat
  let part := scaled - (below : Rat)
  let low : Decimal := ⟨below, exponent⟩
  let high : Decimal := ⟨below + 1, exponent⟩
  match d.readsFrom low, d.readsFrom high with
  | false, false => none
  | true, false => some low
  | false, true => some high
  | true, true =>
    if part < 1 / 2 then some low
    else if 1 / 2 < part then some high
    else match tie with
      | .up => some high
      | .toEven => some (if below % 2 = 0 then low else high)

/-- All digits of `d`. -/
def exact (d : Double) : Decimal :=
  if 0 ≤ d.exponent then ⟨d.mantissa * Nat.pow 2 d.exponent.toNat, 0⟩
  else ⟨d.mantissa * Nat.pow 5 (-d.exponent).toNat, d.exponent⟩

/-- The decimal of fewest digits that reads as `d`, the closest of those; a zero is `0`. -/
def shortest (tie : Tie) (d : Double) : Decimal :=
  if d.isZero then ⟨0, 0⟩
  else
    let lead := leadingDigit d.magnitude
    let found := (List.range 17).findSome? fun (more : Nat) => onGrid? tie d (lead - (more : Int))
    (found.getD d.exact).trimmed

end Double

/-- The least double has one digit, although its value has hundreds. -/
example : ((Double.ofDecimal? false ⟨49406564584124654, -340⟩).map (Double.shortest .up)) = some ⟨5, -324⟩ := by
  decide +kernel

/-- A tie: 2 to the power -25 lies halfway between the two shortest decimals that read as it. -/
example :
    (Double.ofDecimal? false ⟨298023223876953125, -25⟩).map (fun d => (d.shortest .up, d.shortest .toEven))
      = some (⟨29802322387695313, -24⟩, ⟨29802322387695312, -24⟩) := by
  decide +kernel

end SceneScript
