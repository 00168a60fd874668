import CustomerDedupe.Number.Binary64

/-!
# Fixed-point decimals

Amounts with up to 28 places whose digits fit into 96 bits. A decimal is written with all of
its places, so `1500.50` and `1500.5` are written differently although they are equal amounts.
Reading takes plain numerals and scientific notation, and rounds places that do not fit.
-/

namespace CustomerDedupe.Number

/-- The number `± coefficient / 10 ^ scale`. -/
structure Decimal where
  negative : Bool
  coefficient : Nat
  scale : Nat
  deriving Repr, DecidableEq, Inhabited

namespace Decimal

/-- The greatest coefficient. -/
def maxCoefficient : Nat :=
  power 2 96 - 1

/-- The greatest scale. -/
def maxScale : Nat :=
  28

/-- A decimal from its parts, in which zero has no sign. -/
def ofParts (negative : Bool) (coefficient scale : Nat) : Decimal :=
  ⟨negative && coefficient ≠ 0, coefficient, scale⟩

/-- The whole number as a decimal. -/
def ofInt (n : Int) : Decimal :=
  ofParts (n < 0) n.natAbs 0

/-- The exact value. -/
def value (d : Decimal) : Rat :=
  mkRat (if d.negative then -(d.coefficient : Int) else d.coefficient) (power 10 d.scale)

/-- Whether two decimals are the same amount, however many places each is written with. -/
def sameValue (a b : Decimal) : Bool :=
  a.value == b.value

/-- The numeral with all places written out. -/
def text (d : Decimal) : String :=
  let sign := if d.negative then ['-'] else []
  let ds := Text.padNat (d.scale + 1) d.coefficient
  let whole := ds.take (ds.length - d.scale)
  let places := ds.drop (ds.length - d.scale)
  String.ofList (sign ++ whole ++ (if d.scale = 0 then [] else '.' :: places))

/-- What has been read of a numeral: the digits as a number, the places after the point, and
whether the point and any digit have been seen. -/
structure Progress where
  coefficient : Nat
  scale : Nat
  pointSeen : Bool
  digitSeen : Bool

/-- Ends a numeral at its last place by rounding on the next character, a half going up. What
follows that character does not count. -/
def Progress.round? (p : Progress) (next : Char) : Option (Nat × Nat) :=
  let digit? : Option Nat :=
    if next.isDigit then some (next.toNat - '0'.toNat)
    else if next = '_' || next = '.' then some 0
    else none
  match digit? with
  | none => none
  | some digit =>
    if digit < 5 then some (p.coefficient, p.scale)
    else if p.coefficient + 1 ≤ maxCoefficient then some (p.coefficient + 1, p.scale)
    else if p.scale = 0 then none
    else some ((p.coefficient + 5) / 10, p.scale - 1)

/-- Reads an unsigned numeral: digits with at most one point, and underscores between them. -/
def Progress.read? (p : Progress) : List Char → Option (Nat × Nat)
  | [] => if p.digitSeen then some (p.coefficient, p.scale) else none
  | c :: rest =>
    if p.pointSeen && maxScale ≤ p.scale then p.round? c
    else if c.isDigit then
      let longer := p.coefficient * 10 + (c.toNat - '0'.toNat)
      if longer ≤ maxCoefficient then
        Progress.read?
          ⟨longer, if p.pointSeen then p.scale + 1 else 0, p.pointSeen, true⟩ rest
      else if p.pointSeen then p.round? c
      else none
    else if c = '.' && !p.pointSeen then
      Progress.read? { p with pointSeen := true } rest
    else if c = '_' && p.digitSeen then Progress.read? p rest
    else none

/-- Reads a plain numeral with an optional sign. -/
def readPlain? (s : List Char) : Option Decimal :=
  let signed (negative : Bool) (rest : List Char) : Option Decimal :=
    (Progress.read? ⟨0, 0, false, false⟩ rest).map fun (c, k) => ofParts negative c k
  match s with
  | '-' :: rest => signed true rest
  | '+' :: rest => signed false rest
  | _ => signed false s

/-- Reads an exponent, which fits into 32 bits. -/
def readExponent? (s : List Char) : Option Nat :=
  let digits := match s with
    | '+' :: rest => rest
    | _ => s
  (Text.readNat? digits).filter (· < power 2 32)

/-- Moves the point of a decimal: `exponent` places to the left, or to the right if it is not
`negative`. -/
def shift? (d : Decimal) (negative : Bool) (exponent : Nat) : Option Decimal :=
  if negative then
    if d.scale + exponent ≤ maxScale then some { d with scale := d.scale + exponent } else none
  else if exponent ≤ d.scale then some { d with scale := d.scale - exponent }
  else if d.coefficient = 0 then some { d with scale := 0 }
  else if maxScale < exponent - d.scale then none
  else
    let longer := d.coefficient * power 10 (exponent - d.scale)
    if longer ≤ maxCoefficient then some ⟨d.negative, longer, 0⟩ else none

/-- Reads scientific notation. -/
def readScientific? (s : List Char) : Option Decimal :=
  let isMark (c : Char) : Bool := c == 'e' || c == 'E'
  match s.span fun c => !isMark c with
  | (_, []) => none
  | (base, _ :: exponent) => do
    let d ← readPlain? base
    match exponent with
    | '-' :: rest => d.shift? true (← readExponent? rest)
    | _ => d.shift? false (← readExponent? exponent)

/-- Reads a decimal in either notation. -/
def read? (s : String) : Option Decimal :=
  (readPlain? s.toList).orElse fun _ => readScientific? s.toList

/-- The decimal nearest to a binary number's shortest text, if it fits. -/
def ofBinary64? (x : Binary64) : Option Decimal :=
  read? x.positionalText

end Decimal

end CustomerDedupe.Number
