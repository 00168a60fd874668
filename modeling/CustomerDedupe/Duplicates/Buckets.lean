/-!
# Buckets

Items gathered by key. The buckets stand in ascending order of their keys, and a bucket holds
its items in the order in which they were put there.
-/

namespace CustomerDedupe.Duplicates

/-- Items by key. -/
abbrev Buckets (κ α : Type) :=
  List (κ × List α)

namespace Buckets

variable {κ α : Type} [DecidableEq κ]

/-- Puts an item at the end of the bucket of a key, which is made in its place if there is none. -/
def put (before : κ → κ → Bool) (k : κ) (a : α) : Buckets κ α → Buckets κ α
  | [] => [(k, [a])]
  | (j, items) :: rest =>
    if k = j then (j, items ++ [a]) :: rest
    else if before k j then (k, [a]) :: (j, items) :: rest
    else (j, items) :: put before k a rest

/-- The buckets of some items, put in one after another. -/
def gather (before : κ → κ → Bool) (key : α → κ) (items : List α) : Buckets κ α :=
  items.foldl (fun buckets a => put before (key a) a buckets) []

end Buckets

end CustomerDedupe.Duplicates
