/-!
# Numbers in 32 bits

Sums of which 32 bits are kept. What becomes of a number that does not fit depends on how the
program is built: it stops the program, or its carry is lost.
-/

namespace CustomerDedupe.Number

/-- How a program is built to treat a number that does not fit. -/
inductive Build where
  /-- The number stops the program. -/
  | checked
  /-- Its carry is lost. -/
  | wrapping
  deriving DecidableEq, Repr

/-- What a number that stops the program has come from. -/
inductive Overflow where
  | adding
  | multiplying
  deriving DecidableEq, Repr

/-- The words with which the program stops. -/
def Overflow.message : Overflow → String
  | .adding => "attempt to add with overflow"
  | .multiplying => "attempt to multiply with overflow"

/-- What is kept of a number in 32 bits. -/
def keep32 (build : Build) (overflow : Overflow) (n : Nat) : Except Overflow Nat :=
  if n < Nat.pow 2 32 then .ok n
  else
    match build with
    | .checked => .error overflow
    | .wrapping => .ok (n % Nat.pow 2 32)

/-- Adds numbers one after the other to a first one. -/
def add32 (build : Build) (start : Nat) (ns : List Nat) : Except Overflow Nat :=
  ns.foldlM (fun sum n => keep32 build .adding (sum + n)) start

end CustomerDedupe.Number
