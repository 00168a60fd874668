/-!
# Decimal and hexadecimal numerals

Numbers as texts: plain and zero-padded decimal numerals, signed integers, and two-digit
hexadecimal bytes, each with the reading that undoes it. `read_nat_write_nat` states that a
numeral reads back as its number.
-/

namespace CustomerDedupe.Text

/-- The decimal numeral of a natural number. -/
def writeNat (n : Nat) : List Char :=
  Nat.toDigits 10 n

/-- The decimal numeral of an integer. -/
def writeInt (n : Int) : List Char :=
  if n < 0 then '-' :: writeNat n.natAbs else writeNat n.natAbs

/-- The text of an integer. -/
def showInt (n : Int) : String :=
  String.ofList (writeInt n)

/-- The text of a natural number. -/
def showNat (n : Nat) : String :=
  String.ofList (writeNat n)

/-- The decimal numeral of a natural number with zeros in front up to a width. -/
def padNat (width n : Nat) : List Char :=
  let ds := writeNat n
  List.replicate (width - ds.length) '0' ++ ds

/-- The number that a list of decimal digits stands for. -/
def digitsValue (ds : List Char) : Nat :=
  Nat.ofDigitChars 10 ds 0

/-- Reads a numeral of one or more decimal digits. -/
def readNat? (s : List Char) : Option Nat :=
  if !s.isEmpty && s.all Char.isDigit then some (digitsValue s) else none

/-- Reads a decimal integer with an optional sign. -/
def readInt? : List Char → Option Int
  | '-' :: s => (readNat? s).map fun n => -(n : Int)
  | '+' :: s => (readNat? s).map fun n => (n : Int)
  | s => (readNat? s).map fun n => (n : Int)

/-- Reads a decimal integer that must lie between two bounds. -/
def readIntIn? (lo hi : Int) (s : List Char) : Option Int :=
  (readInt? s).filter fun n => lo ≤ n && n ≤ hi

/-- The value of a hexadecimal digit of either case. -/
def hexValue? (c : Char) : Option Nat :=
  if c.isDigit then some (c.toNat - '0'.toNat)
  else if 'a' ≤ c && c ≤ 'f' then some (c.toNat - 'a'.toNat + 10)
  else if 'A' ≤ c && c ≤ 'F' then some (c.toNat - 'A'.toNat + 10)
  else none

/-- The hexadecimal digit of a number below sixteen, in lower case. -/
def hexDigit (n : Nat) : Char :=
  Nat.digitChar (n % 16)

/-- The hexadecimal digit of a number below sixteen, in upper case. -/
def upperHexDigit (n : Nat) : Char :=
  (hexDigit n).toUpper

/-- Reads a text of hexadecimal digit pairs as bytes. -/
def readHexBytes? : List Char → Option (List UInt8)
  | [] => some []
  | a :: b :: rest => do
    let x ← hexValue? a
    let y ← hexValue? b
    let more ← readHexBytes? rest
    pure (UInt8.ofNat (16 * x + y) :: more)
  | [_] => none

theorem is_digit_of_mem_write_nat {n : Nat} {c : Char} (h : c ∈ writeNat n) : c.isDigit = true :=
  Nat.isDigit_of_mem_toDigits (by decide) (by decide) h

theorem write_nat_ne_nil (n : Nat) : writeNat n ≠ [] :=
  Nat.toDigits_ne_nil

/-- A numeral reads back as its number. -/
theorem read_nat_write_nat (n : Nat) : readNat? (writeNat n) = some n := by
  have hall : (writeNat n).all Char.isDigit = true :=
    List.all_eq_true.2 fun c h => is_digit_of_mem_write_nat h
  have hne : (writeNat n).isEmpty = false := by
    cases h : writeNat n with
    | nil => exact absurd h (write_nat_ne_nil n)
    | cons => rfl
  simp only [readNat?, hall, hne, Bool.not_false, Bool.and_self, if_true, digitsValue]
  exact congrArg some Nat.ofDigitChars_ten_toDigits

end CustomerDedupe.Text
