import CustomerDedupe.Text.Numeral

/-!
# Binary floating point

Numbers of the 64-bit binary format, held exactly as rationals. `nearest` rounds an exact
number to the format, ties going to the even significand, so that every rounded operation is
an exact operation followed by `nearest`. `shortest` finds the fewest decimal digits that
round back to a number, and among those the nearest.
-/

namespace CustomerDedupe.Number

/-- A power of a natural base. -/
def power (base exponent : Nat) : Nat :=
  Nat.pow base exponent

/-- A power of a natural base with an exponent of either sign. -/
def ratPower (base : Nat) (exponent : Int) : Rat :=
  if 0 ≤ exponent then (power base exponent.toNat : Nat) else mkRat 1 (power base (-exponent).toNat)

/-- The nearest integer, a half going to the even neighbour. -/
def roundHalfEven (x : Rat) : Int :=
  let below := x.floor
  let rest := x - (below : Rat)
  if rest < mkRat 1 2 then below
  else if mkRat 1 2 < rest then below + 1
  else if below % 2 = 0 then below
  else below + 1

namespace Binary64

/-- The exponent of the greatest power of two that is at most a positive number. -/
def binaryExponent (x : Rat) : Int :=
  let guess : Int := (Nat.log2 x.num.toNat : Int) - (Nat.log2 x.den : Int)
  if ratPower 2 guess ≤ x then guess else guess - 1

/-- The exponent of the last place of the numbers around a positive number: there are 53
significant bits, and the smallest positive number is the power −1074. -/
def lastPlace (x : Rat) : Int :=
  max (binaryExponent x - 52) (-1074)

/-- The number of the format nearest to a number that is not negative. The range is not
limited above; `isFinite` tells which results the format has. -/
def nearest (x : Rat) : Rat :=
  if x ≤ 0 then 0
  else
    let place := ratPower 2 (lastPlace x)
    (roundHalfEven (x / place) : Rat) * place

/-- Whether a rounded number lies below the format's upper end. -/
def isFinite (x : Rat) : Bool :=
  x < ratPower 2 1024

/-- A decimal number `digits · 10 ^ exponent`. -/
structure Digits where
  digits : Nat
  exponent : Int
  deriving Repr, DecidableEq

/-- The exponent of the greatest power of ten that is at most a positive number. -/
def decimalExponent (x : Rat) : Int :=
  if 1 ≤ x then ((Text.writeNat x.floor.toNat).length : Int) - 1
  else
    let reciprocal := (1 / x).ceil.toNat
    let guess : Int := -((Text.writeNat reciprocal).length : Int)
    if ratPower 10 (guess + 1) ≤ x then guess + 1 else guess

/-- Whether a decimal number rounds to a positive number of the format: it lies between the
middles to the two neighbours, which count themselves if the significand is even. -/
def roundsTo (x : Rat) (candidate : Rat) : Bool :=
  let place := ratPower 2 (lastPlace x)
  let significand := (x / place).floor
  let gapBelow :=
    if significand = power 2 52 && lastPlace x > -1074 then place / 4 else place / 2
  let low := x - gapBelow
  let high := x + place / 2
  if significand % 2 = 0 then low ≤ candidate && candidate ≤ high
  else low < candidate && candidate < high

/-- Among the two decimal neighbours of a positive number with `count` digits, the one that
rounds back to it and is nearest. -/
def shortestWith? (x : Rat) (top : Int) (count : Nat) : Option Digits :=
  let exponent := top - (count : Int) + 1
  let place := ratPower 10 exponent
  let below := (x / place).floor
  let lower := (below : Rat) * place
  let upper := ((below + 1 : Int) : Rat) * place
  let lowerFits := below > 0 && roundsTo x lower
  let upperFits := roundsTo x upper
  let takeLower := lowerFits && (!upperFits || x - lower < upper - x
    || (x - lower == upper - x && below % 2 == 0))
  if takeLower then some ⟨below.toNat, exponent⟩
  else if upperFits then some ⟨(below + 1).toNat, exponent⟩
  else none

/-- Drops the zeros at the end of a decimal number. -/
def Digits.trim (d : Digits) : Digits :=
  let zeros := ((Text.writeNat d.digits).reverse.takeWhile (· == '0')).length
  if d.digits = 0 then ⟨0, 0⟩ else ⟨d.digits / power 10 zeros, d.exponent + zeros⟩

/-- The shortest decimal number that rounds to a number of the format. -/
def shortest (x : Rat) : Digits :=
  if x ≤ 0 then ⟨0, 0⟩
  else
    let top := decimalExponent x
    match (List.range' 1 17).findSome? (shortestWith? x top) with
    | some d => d.trim
    | none => ⟨0, 0⟩

/-- Decimal digits in positional notation, with `.0` after a whole number if `point` asks for
a decimal point in any case. -/
def Digits.positional (d : Digits) (point : Bool) : List Char :=
  let ds := Text.writeNat d.digits
  if 0 ≤ d.exponent then
    (if d.digits = 0 then ds else ds ++ List.replicate d.exponent.toNat '0')
      ++ (if point then ['.', '0'] else [])
  else
    let places := (-d.exponent).toNat
    let padded := List.replicate (places + 1 - ds.length) '0' ++ ds
    padded.take (padded.length - places) ++ '.' :: padded.drop (padded.length - places)

/-- Decimal digits in the notation of data documents: positional with a decimal point for
leading places from 10⁻⁵ to 10¹⁵, and scientific with a signed exponent otherwise. -/
def Digits.scientific (d : Digits) : List Char :=
  let ds := Text.writeNat d.digits
  let lead : Int := d.exponent + (ds.length : Int) - 1
  if -5 ≤ lead && lead ≤ 15 then d.positional true
  else
    let head := ds.take 1
    let tail := ds.drop 1
    head ++ (if tail.isEmpty then [] else '.' :: tail) ++
      'e' :: (if 0 ≤ lead then '+' :: Text.writeInt lead else Text.writeInt lead)

end Binary64

/-- A finite number of the format with its sign, which zero has as well. -/
structure Binary64 where
  negative : Bool
  size : Rat
  deriving Repr, DecidableEq

namespace Binary64

/-- The text of a number in a data document. -/
def text (x : Binary64) : String :=
  String.ofList ((if x.negative then ['-'] else []) ++ (shortest x.size).scientific)

/-- The text of a number in positional notation, whole numbers without a decimal point. -/
def positionalText (x : Binary64) : String :=
  String.ofList ((if x.negative then ['-'] else []) ++ (shortest x.size).positional false)

/-- Scales a significand by a power of ten the way data documents are read: the significand is
rounded, then multiplied or divided by rounded powers of ten. Nothing if the result is too
large. -/
def scaled (significand : Nat) (exponent : Int) : Option Rat :=
  go 4 (nearest significand) exponent
where
  /-- Powers beyond 10³⁰⁸ have no rounded form, so smaller numbers are divided in steps. -/
  go : Nat → Rat → Int → Option Rat
    | 0, x, _ => some x
    | fuel + 1, x, e =>
      if e.natAbs ≤ 308 then
        let pow := nearest (power 10 e.natAbs : Nat)
        let y := if 0 ≤ e then nearest (x * pow) else nearest (x / pow)
        if isFinite y then some y else none
      else if x = 0 then some 0
      else if 0 ≤ e then none
      else go fuel (nearest (x / nearest (power 10 308 : Nat))) (e + 308)

end Binary64

end CustomerDedupe.Number
