/-!
# Names beyond ASCII in ASCII

The encoding by which a label of a domain name with characters beyond ASCII is written in ASCII:
its ASCII characters, and behind a hyphen where and which others are to be put in. Positions
and characters are counted together as differences, which are written in a positional system
whose digits' weights adapt to the differences seen.
-/

namespace CustomerDedupe.Url.Punycode

/-- The digit of a number below 36. -/
def digitChar (d : Nat) : Char :=
  if d < 26 then Char.ofNat (0x61 + d) else Char.ofNat (0x30 + (d - 26))

/-- The number of a digit of either case. -/
def digitValue? (c : Char) : Option Nat :=
  if 'a' ≤ c ∧ c ≤ 'z' then some (c.toNat - 0x61)
  else if 'A' ≤ c ∧ c ≤ 'Z' then some (c.toNat - 0x41)
  else if c.isDigit then some (c.toNat - 0x30 + 26)
  else none

/-- The least value of a digit that is not the last, for the digit with weight `k`. -/
def threshold (k bias : Nat) : Nat :=
  if k ≤ bias then 1 else if bias + 26 ≤ k then 26 else k - bias

/-- Divides a difference until it is small, counting the weights passed. -/
def adaptSteps : Nat → Nat → Nat → Nat × Nat
  | 0, delta, k => (delta, k)
  | fuel + 1, delta, k =>
    if 455 < delta then adaptSteps fuel (delta / 35) (k + 36) else (delta, k)

/-- The bias after a difference, when `count` characters have been placed. -/
def adapt (delta count : Nat) (first : Bool) : Nat :=
  let scaled := if first then delta / 700 else delta / 2
  let (rest, k) := adaptSteps 32 (scaled + scaled / count) 0
  k + 36 * rest / (rest + 38)

/-- The digits of a difference. -/
def writeDelta (bias : Nat) : Nat → Nat → Nat → List Char
  | 0, _, q => [digitChar (q % 36)]
  | fuel + 1, k, q =>
    let t := threshold k bias
    if q < t then [digitChar q]
    else digitChar (t + (q - t) % (36 - t)) :: writeDelta bias fuel (k + 36) ((q - t) / (36 - t))

/-- What has been written: the digits, the difference since, the bias and the number of
characters placed. -/
structure Writing where
  out : List Char
  delta : Nat
  bias : Nat
  placed : Nat

/-- Passes a character while those of number `n` are placed. -/
def Writing.pass (basic n : Nat) (w : Writing) (c : Char) : Writing :=
  if c.toNat < n then { w with delta := w.delta + 1 }
  else if c.toNat = n then
    { out := w.out ++ writeDelta w.bias 32 36 w.delta
      delta := 0
      bias := adapt w.delta (w.placed + 1) (w.placed = basic)
      placed := w.placed + 1 }
  else w

/-- Places the characters of each number in ascending order. -/
def place (basic : Nat) (s : List Char) (from' : Nat) (w : Writing) : List Nat → Writing
  | [] => w
  | n :: more =>
    let w := { w with delta := w.delta + (n - from') * (w.placed + 1) }
    let w := s.foldl (Writing.pass basic n) w
    place basic s (n + 1) { w with delta := w.delta + 1 } more

/-- Puts a number among others in ascending order unless it is there. -/
def insertNumber (n : Nat) : List Nat → List Nat
  | [] => [n]
  | m :: rest => if n < m then n :: m :: rest else if n = m then m :: rest
    else m :: insertNumber n rest

/-- Writes a label in ASCII. -/
def encode (s : List Char) : List Char :=
  let basic := s.filter fun c => c.toNat < 0x80
  let others := (s.filter fun c => 0x80 ≤ c.toNat).foldl (fun ns c => insertNumber c.toNat ns) []
  let start := if basic.isEmpty then [] else basic ++ ['-']
  (place basic.length s 0x80 ⟨start, 0, 72, basic.length⟩ others).out

/-- Reads the digits of a difference: the difference and what follows. -/
def readDelta (bias : Nat) : Nat → Nat → Nat → List Char → Option (Nat × List Char)
  | _, _, _, [] => none
  | sum, weight, k, c :: rest => do
    let d ← digitValue? c
    let sum := sum + d * weight
    let t := threshold k bias
    if d < t then some (sum, rest)
    else if 0xFFFFFFFF < sum then none
    else readDelta bias sum (weight * (36 - t)) (k + 36) rest

/-- Puts characters into a label as the differences say. -/
def fill : Nat → List Char → Nat → Nat → Nat → List Char → Option (List Char)
  | _, out, _, _, _, [] => some out
  | 0, _, _, _, _, _ => none
  | fuel + 1, out, n, i, bias, digits => do
    let (delta, rest) ← readDelta bias 0 1 36 digits
    let total := i + delta
    let size := out.length + 1
    let n := n + total / size
    let i := total % size
    if 0x10FFFF < n ∨ (0xD800 ≤ n ∧ n < 0xE000) then none
    else
      let out := out.take i ++ Char.ofNat n :: out.drop i
      fill fuel out n (i + 1) (adapt delta size false) rest

/-- Reads a label written in ASCII. -/
def decode? (s : List Char) : Option (List Char) :=
  let tail := (s.reverse.takeWhile (· != '-')).reverse
  let basic := s.take (s.length - tail.length - 1)
  fillFrom basic tail
where
  /-- Fills the ASCII characters of a label; the first difference is scaled differently. -/
  fillFrom (basic tail : List Char) : Option (List Char) :=
    match tail with
    | [] => some basic
    | _ => do
      let (delta, rest) ← readDelta 72 0 1 36 tail
      let size := basic.length + 1
      let n := 0x80 + delta / size
      let i := delta % size
      if 0x10FFFF < n ∨ (0xD800 ≤ n ∧ n < 0xE000) then none
      else
        let out := basic.take i ++ Char.ofNat n :: basic.drop i
        fill tail.length out n (i + 1) (adapt delta size true) rest

end CustomerDedupe.Url.Punycode
