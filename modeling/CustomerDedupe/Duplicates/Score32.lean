import CustomerDedupe.Duplicates.Score
import CustomerDedupe.Number.Overflow

/-!
# Scores in 32 bits

The score of a group as it comes out if the weights, and what is counted of them, are kept in 32
bits. Weights that the settings' check accepts are far too small for this to matter.
-/

namespace CustomerDedupe.Duplicates

open Number

/-- What is counted for a score: the weight of the active fields, the weight of those in which
members agree with the reference, the greatest possible agreement, and whether a name is
similar. -/
structure Agreement where
  weight : Nat
  matched : Nat
  possible : Nat
  similar : Bool
  deriving DecidableEq, Repr

/-- Compares some members with one. Their number is cut to 32 bits however the program is
built. -/
def agreement32 (build : Build) (fields : List (CompareField × Nat)) (reference : Customer)
    (others : List Customer) : Except Overflow Agreement := do
  let weight ← add32 build 0 (fields.map Prod.snd)
  let matched ← others.foldlM (fun found other =>
    add32 build found ((fields.filter fun f => agreeOn reference other f.1).map Prod.snd)) 0
  let possible ← keep32 build .multiplying (weight * (others.length % Nat.pow 2 32))
  return ⟨weight, matched, possible,
    others.any fun c => namesSimilar reference.customerName c.customerName⟩

/-- Compares the members of a group with the one assigned last. -/
def groupAgreement32 (build : Build) (fields : List (CompareField × Nat)) :
    List Customer → Except Overflow Agreement
  | [] => .ok ⟨0, 0, 0, false⟩
  | first :: rest =>
    agreement32 build fields (splitReference first rest).1 (splitReference first rest).2

/-- The score, in tenths. In proportion to nothing, agreement is capped as if it were too
large. -/
def Agreement.score (a : Agreement) : Nat :=
  if a.weight = 0 then 0
  else if a.possible = 0 then 1000
  else scoreOf a.matched a.possible a.similar

/-- The score of a group, in tenths. -/
def score32 (build : Build) (s : Settings) (group : List Customer) : Except Overflow Nat :=
  if group.length ≤ 1 then .ok 0
  else (groupAgreement32 build s.activeFields group).map Agreement.score

end CustomerDedupe.Duplicates
