import CustomerDedupe.Text.Numeral
import CustomerDedupe.Text.Split

/-!
# Universally unique identifiers

Identifiers of 128 bits. They are written in five groups of lower-case hexadecimal digits, and
read from 32 digits, from the five groups, and from the groups in braces or after `urn:uuid:`.
A text that is none of these is refused with the first thing found wrong with it.
-/

namespace CustomerDedupe

/-- An identifier of 128 bits. -/
structure Uuid where
  value : Nat
  value_lt : value < Nat.pow 2 128
  deriving DecidableEq, Repr

namespace Uuid

/-- The identifier of all zeros, which stands for no identifier. -/
def null : Uuid :=
  ⟨0, by decide⟩

instance : Inhabited Uuid :=
  ⟨null⟩

/-- The identifier with these low 128 bits. -/
def ofNat (n : Nat) : Uuid :=
  ⟨n % Nat.pow 2 128, Nat.mod_lt _ (by decide)⟩

/-- The identifier that is marked as random, with bits of a number everywhere else. -/
def random (n : Nat) : Uuid :=
  let high := n / Nat.pow 2 80 % Nat.pow 2 48
  let middle := n / Nat.pow 2 64 % Nat.pow 2 12
  let low := n % Nat.pow 2 62
  ofNat (high * Nat.pow 2 80 + 4 * Nat.pow 2 76 + middle * Nat.pow 2 64 + 2 * Nat.pow 2 62 + low)

/-- The hexadecimal digits of a number's low `count` digits, most significant first. -/
def hexDigits (n : Nat) : Nat → List Char
  | 0 => []
  | count + 1 => hexDigits (n / 16) count ++ [Text.hexDigit (n % 16)]

/-- The lengths of the groups. -/
def groupLengths : List Nat :=
  [8, 4, 4, 4, 12]

/-- Cuts digits into groups of given lengths. -/
def groups : List Nat → List Char → List (List Char)
  | [], _ => []
  | n :: lengths, ds => ds.take n :: groups lengths (ds.drop n)

/-- The written form. -/
def chars (u : Uuid) : List Char :=
  List.intercalate ['-'] (groups groupLengths (hexDigits u.value 32))

/-- The written form. -/
def text (u : Uuid) : String :=
  String.ofList u.chars

/-- What is wrong with a text that is no identifier. -/
inductive ReadProblem where
  | character (c : Char) (index : Nat)
  | length (found : Nat)
  | groupCount (found : Nat)
  | groupLength (group expected found : Nat)
  deriving DecidableEq, Repr

/-- The wording of a problem. -/
def ReadProblem.message : ReadProblem → String
  | .character c i =>
    "invalid character: found `" ++ c.toString ++ "` at " ++ Text.showNat i
  | .length n => "invalid length: found " ++ Text.showNat n
  | .groupCount n => "invalid group count: expected 5, found " ++ Text.showNat n
  | .groupLength g e n =>
    "invalid group length in group " ++ Text.showNat g ++ ": expected " ++ Text.showNat e ++
      ", found " ++ Text.showNat n

/-- The characters `urn:uuid:`. -/
def urnMark : List Char :=
  ['u', 'r', 'n', ':', 'u', 'u', 'i', 'd', ':']

/-- What is left of a text within braces. -/
def unbraced? : List Char → Option (List Char)
  | '\x7b' :: rest => if rest.getLast? = some '\x7d' then some rest.dropLast else none
  | _ => none

/-- What follows `urn:uuid:`, in which case does not matter. -/
def afterUrn? (s : List Char) : Option (List Char) :=
  if (s.take urnMark.length).map Char.toLower = urnMark then some (s.drop urnMark.length)
  else none

/-- The first character that is neither a digit nor a hyphen, with its place in bytes. -/
def strayCharacter? (start : Nat) : List Char → Option ReadProblem
  | [] => none
  | c :: rest =>
    if c = '-' ∨ (Text.hexValue? c).isSome then strayCharacter? (start + c.utf8Size) rest
    else some (.character c start)

/-- The first group of a wrong length. -/
def wrongGroup? (index : Nat) : List Nat → List (List Char) → Option ReadProblem
  | n :: lengths, g :: gs =>
    if g.length = n then wrongGroup? (index + 1) lengths gs
    else some (.groupLength index n g.length)
  | _, _ => none

/-- The number that hexadecimal digits stand for. -/
def hexNumber (ds : List Char) : Nat :=
  ds.foldl (fun n c => n * 16 + (Text.hexValue? c).getD 0) 0

/-- Reads the five groups. -/
def readGroups? (s : List Char) : Option Uuid :=
  let gs := Text.splitAt '-' s
  if gs.map List.length = groupLengths ∧ gs.flatten.all (fun c => (Text.hexValue? c).isSome) then
    some (ofNat (hexNumber gs.flatten))
  else none

/-- Reads an identifier in any of its forms. -/
def readForm? (s : List Char) : Option Uuid :=
  if s.length = 32 ∧ s.all (fun c => (Text.hexValue? c).isSome) then some (ofNat (hexNumber s))
  else
    match readGroups? s, unbraced? s, afterUrn? s with
    | some u, _, _ => some u
    | none, some inner, _ => readGroups? inner
    | none, none, some inner => readGroups? inner
    | none, none, none => none

/-- What is wrong with a text in none of the forms. -/
def diagnose (s : List Char) : ReadProblem :=
  let (inner, start, bare) : List Char × Nat × Bool :=
    match unbraced? s, afterUrn? s with
    | some inner, _ => (inner, 1, false)
    | none, some inner => (inner, urnMark.length, false)
    | none, none => (s, 0, true)
  let gs := Text.splitAt '-' inner
  match strayCharacter? start inner with
  | some problem => problem
  | none =>
    if gs.length = 1 ∧ bare ∧ s.length ≠ 36 then .length s.length
    else if gs.length ≠ 5 then .groupCount gs.length
    else (wrongGroup? 0 groupLengths gs).getD (.groupCount gs.length)

/-- Reads an identifier. -/
def read (s : List Char) : Except ReadProblem Uuid :=
  match readForm? s with
  | some u => .ok u
  | none => .error (diagnose s)

end Uuid

end CustomerDedupe
