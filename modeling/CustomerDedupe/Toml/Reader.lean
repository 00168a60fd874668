import CustomerDedupe.Toml.Lexical

/-!
# Reading configuration texts

A configuration text is a list of keys with their values under headers that name tables. Tables
grow while the text is read: `Growth` says how a table came about, which decides whether it may
still be named by a header or extended by a dotted key. `Toml.read?` gives the finished table.
-/

namespace CustomerDedupe.Toml

/-- How a table came about. -/
inductive Growth where
  /-- Named by a header, or the whole text. -/
  | named
  /-- On the way to a table that a header names. -/
  | passed
  /-- By a dotted key. -/
  | dotted
  deriving DecidableEq, Repr

/-- A place in a table under construction. -/
inductive Node where
  | value (v : Value)
  | table (growth : Growth) (members : List (String × Node))
  | tables (all : List (List (String × Node)))

/-- The members of a table under construction. -/
abbrev Members :=
  List (String × Node)

mutual

/-- The finished value of a place. -/
def Node.finish : Node → Value
  | .value v => v
  | .table _ members => .table (finishMembers members)
  | .tables all => .arr (finishTables all)

/-- The finished members of a table. -/
def finishMembers : List (String × Node) → List (String × Value)
  | [] => []
  | (k, n) :: rest => (k, n.finish) :: finishMembers rest

/-- The finished tables of an array of tables. -/
def finishTables : List (List (String × Node)) → List Value
  | [] => []
  | members :: rest => .table (finishMembers members) :: finishTables rest

end

namespace Members

/-- The members with another node under a name, which keeps its place. -/
def put (name : String) (node : Node) : Members → Members
  | [] => [(name, node)]
  | (k, n) :: rest => if k = name then (k, node) :: rest else (k, n) :: put name node rest

/-- Gives a value to a dotted key. Tables on the way are extended only if a dotted key made
them; `growth` tells how this table came about and `deep` whether the key led into it. -/
def insert (v : Value) : List String → Growth → Bool → Members → Option Members
  | [], _, _, _ => none
  | [name], growth, deep, ms =>
    if (ms.lookup name).isSome then none
    else if (growth == .dotted) != deep then none
    else some (put name (.value v) ms)
  | name :: path, _, _, ms =>
    match ms.lookup name with
    | none => (insert v path .dotted true []).map fun inner => put name (.table .dotted inner) ms
    | some (.table growth inner) =>
      if growth = .named then none
      else (insert v path growth true inner).map fun inner => put name (.table growth inner) ms
    | some _ => none

/-- Changes the table that a header names: `enter` gives the node under the last part of the
name from the one that was there. -/
def atHeader (enter : Option Node → Option Node) : List String → Members → Option Members
  | [], _ => none
  | [name], ms => do
    let node ← enter (ms.lookup name)
    some (put name node ms)
  | name :: path, ms =>
    match ms.lookup name with
    | none => (atHeader enter path []).map fun inner => put name (.table .passed inner) ms
    | some (.table growth inner) =>
      (atHeader enter path inner).map fun inner => put name (.table growth inner) ms
    | some (.tables all) =>
      match all.getLast? with
      | none => none
      | some last =>
        (atHeader enter path last).map fun last => put name (.tables (all.dropLast ++ [last])) ms
    | some (.value _) => none

end Members

/-- What a header makes of the table that it names: it may have been passed before, but not
named. -/
def enterTable : Option Node → Option Node
  | none => some (.table .named [])
  | some (.table .passed members) => some (.table .named members)
  | some _ => none

/-- What a header for one of several tables makes of what it names. -/
def enterTables : Option Node → Option Node
  | none => some (.tables [[]])
  | some (.tables all) => some (.tables (all ++ [[]]))
  | some _ => none

/-- How deep arrays and inline tables may stand inside one another. -/
def maxDepth : Nat :=
  80

namespace Reader

mutual

/-- Reads a value. -/
def value : Nat → Nat → Reader Value
  | 0, _ => failure
  | fuel + 1, depth => do
    match ← get with
    | '"' :: _ | '\'' :: _ => return .str (← string)
    | '[' :: rest =>
      if depth = 0 then failure
      set rest
      return .arr (← items fuel (depth - 1))
    | '\x7b' :: rest =>
      if depth = 0 then failure
      set rest
      return .table (finishMembers (← members fuel (depth - 1) []))
    | _ => word

/-- Reads the items of an array and its closing bracket. -/
def items : Nat → Nat → Reader (List Value)
  | 0, _ => failure
  | fuel + 1, depth => do
    gap (← get).length
    if ← atChar ']' then
      char ']'
      return []
    let v ← value fuel depth
    gap (← get).length
    if ← atChar ',' then
      char ','
      return v :: (← items fuel depth)
    char ']'
    return [v]

/-- Reads the members of an inline table and its closing brace. -/
def members : Nat → Nat → Members → Reader Members
  | 0, _, _ => failure
  | fuel + 1, depth, ms => do
    gap (← get).length
    if ← atChar '\x7d' then
      char '\x7d'
      return ms
    let path ← key (← get).length
    char '='
    blanks
    let v ← value fuel depth
    let ms ← Members.insert v path .named false ms
    gap (← get).length
    if ← atChar ',' then
      char ','
      members fuel depth ms
    else
      char '\x7d'
      return ms

end

/-- A header: the name of a table, or of one of several tables. -/
structure Header where
  path : List String
  several : Bool

/-- Reads a header after its first bracket. -/
def header : Reader Header := do
  if ← atChar '[' then
    char '['
    let path ← key (← get).length
    chars [']', ']']
    return ⟨path, true⟩
  else
    let path ← key (← get).length
    char ']'
    return ⟨path, false⟩

/-- Reads a key and its value. -/
def assignment : Reader (List String × Value) := do
  let path ← key (← get).length
  char '='
  blanks
  let v ← value ((← get).length + 1) maxDepth
  return (path, v)

end Reader

/-- Gives a value to a key under the header in force. -/
def assign (current : Option Reader.Header) (path : List String) (v : Value) (ms : Members) :
    Option Members :=
  match current with
  | none => Members.insert v path .named false ms
  | some h =>
    Members.atHeader (fun node =>
      match node with
      | some (.table growth inner) =>
        (Members.insert v path growth false inner).map (Node.table growth)
      | some (.tables all) => do
        let last ← all.getLast?
        let last ← Members.insert v path .named false last
        some (.tables (all.dropLast ++ [last]))
      | _ => none) h.path ms

/-- Reads the lines of a configuration text. -/
def readLines : Nat → Option Reader.Header → Members → Reader Members
  | 0, _, _ => failure
  | fuel + 1, current, ms => do
    Reader.gap (← get).length
    match ← get with
    | [] => return ms
    | '[' :: rest =>
      set rest
      let h ← Reader.header
      Reader.lineEnd
      let ms ← Members.atHeader (if h.several then enterTables else enterTable) h.path ms
      readLines fuel (some h) ms
    | _ =>
      let (path, v) ← Reader.assignment
      Reader.lineEnd
      let ms ← assign current path v ms
      readLines fuel current ms

/-- The text without a byte order mark. -/
def withoutMark : List Char → List Char
  | '\uFEFF' :: rest => rest
  | s => s

/-- The table that a configuration text describes. -/
def read? (s : String) : Option Value := do
  let text := withoutMark s.toList
  let (ms, _) ← (readLines (text.length + 1) none []).run text
  some (.table (finishMembers ms))

end CustomerDedupe.Toml
