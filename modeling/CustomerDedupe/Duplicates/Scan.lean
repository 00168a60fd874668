import CustomerDedupe.Duplicates.Buckets
import CustomerDedupe.Duplicates.Group

/-!
# Searching a table for duplicates

A scan looks at the customers that are not archived and were assigned within the window. It
groups them by phone number and, if asked to, by the last four digits and the beginning of the
name; a fuzzy group whose members are all in one group found before it is left out. Groups
below the threshold are dropped and the rest ranked.
-/

namespace CustomerDedupe.Duplicates

open Calendar (Date)

/-- The shortest and the longest window, in days. -/
def minWindow : Int :=
  1

/-- The longest window, in days. -/
def maxWindow : Int :=
  365

/-- A number moved between two bounds. -/
def clamp (low high n : Int) : Int :=
  if n < low then low else if high < n then high else n

/-- The length of the window that is searched for a number of days. -/
def window (days : Int) : Nat :=
  (clamp minWindow maxWindow days).toNat

/-- The first day of a window that ends today. -/
def cutoff (today : Date) (days : Int) : Date :=
  today.daysBefore (window days)

/-- Whether a customer takes part in a scan of the window that begins on a day. -/
def isRecent (first : Date) (c : Customer) : Bool :=
  !c.isArchived && first ≤ c.assignedDate.date

/-- Whether a text comes before another. -/
def charsBefore (a b : List Char) : Bool :=
  a < b

/-- The key of a fuzzy group: last four digits and beginning of the name. -/
abbrev FuzzyKey :=
  List Char × List Char

/-- Whether a fuzzy key comes before another: by digits, then by name. -/
def fuzzyBefore (a b : FuzzyKey) : Bool :=
  a.1 < b.1 || (a.1 == b.1 && a.2 < b.2)

/-- The exact key of a customer. -/
def exactKey (c : Customer) : List Char :=
  normalizeDigits c.contactNumber

/-- The fuzzy key of a customer. -/
def fuzzyKey (c : Customer) : FuzzyKey :=
  (lastFour c.contactNumber, namePrefix c.customerName)

/-- The text of a fuzzy group's key. -/
def fuzzyKeyText (k : FuzzyKey) : String :=
  String.ofList ("FUZZY:".toList ++ k.1 ++ ':' :: k.2)

/-- The text that shows a fuzzy group. -/
def fuzzyDisplay (k : FuzzyKey) : String :=
  String.ofList ("유사(".toList ++ k.1 ++ '/' :: k.2 ++ [')'])

/-- The exact group of a bucket, if it has a number and at least two members. -/
def exactGroup? (s : Settings) (bucket : List Char × List Customer) : Option Group :=
  let (key, members) := bucket
  if key.isEmpty ∨ members.length < 2 then none
  else Group.build? s (String.ofList key) (String.ofList key) .exact members

/-- The exact groups among some customers, by key. -/
def exactGroups (s : Settings) (recent : List Customer) : List Group :=
  (Buckets.gather charsBefore exactKey recent).filterMap (exactGroup? s)

/-- Whether all of some contacts are in one of the groups. -/
def covered (groups : List Group) (ids : List Int) : Bool :=
  groups.any fun g => ids.all fun id => g.contactIds.contains id

/-- Adds the fuzzy group of a bucket to the groups found so far, if it has digits, at least two
members, and is not covered. -/
def addFuzzy (s : Settings) (found : List Group) (bucket : FuzzyKey × List Customer) :
    List Group :=
  let (key, members) := bucket
  if key.1.isEmpty ∨ members.length < 2 ∨ covered found (members.map Customer.contactId) then
    found
  else
    match Group.build? s (fuzzyKeyText key) (fuzzyDisplay key) .fuzzy members with
    | some g => found ++ [g]
    | none => found

/-- All groups among some customers, before ranking. -/
def allGroups (s : Settings) (recent : List Customer) (includeFuzzy : Bool) : List Group :=
  let exact := exactGroups s recent
  if includeFuzzy then
    (Buckets.gather fuzzyBefore fuzzyKey recent).foldl (addFuzzy s) exact
  else exact

/-- The threshold in tenths. -/
def thresholdTenths (s : Settings) : Nat :=
  10 * (clamp 0 100 s.scoreThreshold).toNat

/-- Whether a group ranks at least as high as another: by score, then by size, then by the
latest assignment. -/
def ranksBefore (a b : Group) : Bool :=
  if a.score ≠ b.score then b.score < a.score
  else if a.count ≠ b.count then b.count < a.count
  else b.latestAssigned ≤ a.latestAssigned

/-- The groups that reach the threshold, the highest first. -/
def rank (threshold : Nat) (groups : List Group) : List Group :=
  (groups.filter fun g => threshold ≤ g.score).mergeSort ranksBefore

/-- The customers that a scan looks at. -/
def recentCustomers (today : Date) (days : Int) (table : List Customer) : List Customer :=
  table.filter (isRecent (cutoff today days))

/-- The groups that a scan of a table finds. -/
def scan (s : Settings) (today : Date) (days : Int) (includeFuzzy : Bool)
    (table : List Customer) : List Group :=
  rank (thresholdTenths s) (allGroups s (recentCustomers today days table) includeFuzzy)

end CustomerDedupe.Duplicates
