import CustomerDedupe.Json.Decode

/-!
# Values of configuration texts

The values that a configuration text gives to its keys, and their outlines, by which they are
decoded. Numbers that are no integers and points in time are told apart from everything else;
no setting holds one.
-/

namespace CustomerDedupe.Toml

/-- A value of a configuration text. -/
inductive Value where
  | str (s : String)
  | int (n : Int)
  | float (numeral : String)
  | bool (b : Bool)
  | time (text : String)
  | arr (items : List Value)
  | table (members : List (String × Value))

namespace Value

instance : Inhabited Value :=
  ⟨.table []⟩

/-- The name of the only member of a point in time, seen as a table. -/
def timeMember : String :=
  "point in time"

mutual

/-- The outline of a value. A number that is no integer is refused wherever it is used, and a
point in time is a table with a member that no setting has. -/
def outline : Value → Json.Outline
  | .str s => .str 0 0 (.ok s)
  | .int n => .num 0 0 (.ok (.int n))
  | .float _ => .num 0 0 (.error ⟨.invalidNumber, 0⟩)
  | .bool b => .bool 0 0 b
  | .time text => .obj 0 [(⟨.ok timeMember, 0⟩, .str 0 0 (.ok text), 0)] (.closed 0)
  | .arr items => .arr 0 (outlineItems items) (.closed 0)
  | .table members => .obj 0 (outlineMembers members) (.closed 0)

/-- The outlines of the items of an array. -/
def outlineItems : List Value → List (Json.Outline × Json.After)
  | [] => []
  | v :: rest => (outline v, ⟨0, 0⟩) :: outlineItems rest

/-- The outlines of the members of a table. -/
def outlineMembers : List (String × Value) → List (Json.Name × Json.Outline × Nat)
  | [] => []
  | (k, v) :: rest => (⟨.ok k, 0⟩, outline v, 0) :: outlineMembers rest

end

end Value

end CustomerDedupe.Toml
