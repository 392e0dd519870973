/-
  SceneScript.Number.Double — the numbers of a scene, held exactly.

  A coordinate, a scale or a speed is a double: a sign and a magnitude
  `mantissa * 2 ^ exponent` on the finite binary64 grid. Each magnitude has one
  canonical pair, so two doubles are equal exactly when sign, mantissa and exponent
  are, and the only two that denote the same rational are the two zeros.

  `Double.nearest` puts any rational on the grid: to the closest point, a tie to the
  even mantissa, nothing when the point lies past the largest double. It depends on
  the rational alone, not on how it was written. Sums are formed exactly and put back
  on the grid the same way, so `Double.toWhole` rounds twice, once when it adds one
  half and once (exactly) when it takes the floor.
-/

namespace SceneScript

/-! ## The grid -/

/-- A normal mantissa has 53 bits; a shorter one stands only at the least exponent. -/
def Double.Canonical (mantissa : Nat) (exponent : Int) : Prop :=
  mantissa < 0x20000000000000 ∧ -1074 ≤ exponent ∧ exponent ≤ 971 ∧
    (0x10000000000000 ≤ mantissa ∨ exponent = -1074)

instance (mantissa : Nat) (exponent : Int) : Decidable (Double.Canonical mantissa exponent) := by
  unfold Double.Canonical
  infer_instance

/-- A finite double, `± mantissa * 2 ^ exponent`. -/
structure Double where
  negative : Bool
  mantissa : Nat
  exponent : Int
  canonical : Double.Canonical mantissa exponent
  deriving DecidableEq

namespace Double

/-- Zero with a sign. -/
def zero (negative : Bool) : Double := ⟨negative, 0, -1074, by decide⟩

instance : Inhabited Double := ⟨zero false⟩

/-- The magnitude as a rational. -/
def magnitude (d : Double) : Rat := (d.mantissa : Rat) * (2 : Rat) ^ d.exponent

/-- The rational that a double denotes; both zeros denote 0. -/
def toRat (d : Double) : Rat := if d.negative then -d.magnitude else d.magnitude

def isZero (d : Double) : Bool := d.mantissa == 0

/-- Equality of value: the sign of a zero does not count. -/
def same (a b : Double) : Bool := decide (a = b) || a.isZero && b.isZero

/-! ## Rounding onto the grid -/

/-- The exponent of the leading binary digit of a positive rational. -/
def leadingBit (q : Rat) : Int :=
  let guess : Int := (Nat.log2 q.num.natAbs : Int) - (Nat.log2 q.den : Int)
  if (2 : Rat) ^ guess ≤ q then guess else guess - 1

/-- The closest natural number to a non-negative rational, a tie going to the even one. -/
def roundHalfEven (q : Rat) : Nat :=
  let below := q.floor.toNat
  let part := q - (below : Rat)
  if part < 1 / 2 then below
  else if 1 / 2 < part then below + 1
  else if below % 2 = 0 then below
  else below + 1

/-- The grid spacing around a positive rational is `2 ^ spacing q`. -/
def spacing (q : Rat) : Int :=
  let normal := leadingBit q - 52
  if normal < -1074 then -1074 else normal

/-- A pair that may have rounded up to 54 bits, brought back to 53, if it is on the grid. -/
def ofPair? (negative : Bool) (mantissa : Nat) (exponent : Int) : Option Double :=
  let carried := mantissa = 0x20000000000000
  let m := if carried then 0x10000000000000 else mantissa
  let e := if carried then exponent + 1 else exponent
  if h : Canonical m e then some ⟨negative, m, e, h⟩ else none

/-- The double closest to a magnitude, with a given sign; none past the largest double. -/
def nearest (negative : Bool) (q : Rat) : Option Double :=
  if q ≤ 0 then some (zero negative)
  else
    let e := spacing q
    ofPair? negative (roundHalfEven (q * (2 : Rat) ^ (-e))) e

/-- The double closest to a signed rational; an exact zero is positive. -/
def ofRat? (q : Rat) : Option Double := if q < 0 then nearest true (-q) else nearest false q

/-- A whole number as a double, rounded where it has more than 53 significant bits. -/
def ofNat (n : Nat) : Double := (nearest false (n : Rat)).getD (zero false)

instance (n : Nat) : OfNat Double n := ⟨ofNat n⟩

instance : Neg Double := ⟨fun d => { d with negative := !d.negative }⟩

/-! ## Whole numbers -/

/-- The greatest whole number that is not above `d`. It stays on the grid. -/
def floor (d : Double) : Double :=
  if d.toRat = (d.toRat.floor : Rat) then d else (ofRat? (d.toRat.floor : Rat)).getD d

/-- `d + 1/2`, rounded onto the grid, then the floor. -/
def toWhole (d : Double) : Double := (((ofRat? (d.toRat + 1 / 2)).getD d)).floor

end Double

/-! ## Numbers outside the grid -/

/-- A number as a script prints it: a double, an infinity or no number. -/
inductive Number where
  | finite (value : Double)
  | infinite (negative : Bool)
  | nan
  deriving DecidableEq

/-- Rounds a finite number to a whole one; the others stay. -/
def Number.toWhole : Number → Number
  | .finite d => .finite d.toWhole
  | n => n

end SceneScript
