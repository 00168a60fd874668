import CustomerDedupe.Number.Binary64
import CustomerDedupe.Text.Utf8

/-!
# Data documents

The values of a JSON document, with integers kept apart from other numbers and the members of
an object in ascending order of their names, and the compact text of a value.
-/

namespace CustomerDedupe

/-- A number as a document writes it. -/
inductive Numeral where
  | int (n : Int)
  | real (x : Number.Binary64)
  deriving DecidableEq, Repr

/-- A value of a document. -/
inductive Json where
  | null
  | bool (b : Bool)
  | num (n : Numeral)
  | str (s : String)
  | arr (items : List Json)
  | obj (members : List (String × Json))

namespace Json

instance : Inhabited Json :=
  ⟨.null⟩

/-- The value of an integer. -/
def int (n : Int) : Json :=
  .num (.int n)

/-- The value of a natural number. -/
def nat (n : Nat) : Json :=
  .num (.int n)

/-- The value of an optional text. -/
def optStr : Option String → Json
  | none => .null
  | some s => .str s

/-- Puts a member into an ordered list of members, in place of one of the same name. -/
def putMember {α : Type} (name : String) (value : α) : List (String × α) → List (String × α)
  | [] => [(name, value)]
  | (k, v) :: rest =>
    if name < k then (name, value) :: (k, v) :: rest
    else if name = k then (name, value) :: rest
    else (k, v) :: putMember name value rest

/-- The object with these members, of which the last of a name counts. -/
def ofMembers (members : List (String × Json)) : Json :=
  .obj (members.foldl (fun ms m => putMember m.1 m.2 ms) [])

/-- The member of an object. -/
def member? (j : Json) (name : String) : Option Json :=
  match j with
  | .obj members => members.lookup name
  | _ => none

/-- The text of a string value. -/
def asStr? : Json → Option String
  | .str s => some s
  | _ => none

/-- How a character is written inside a string. -/
def escapedChar (c : Char) : List Char :=
  if c = '"' ∨ c = '\\' then ['\\', c]
  else if c = '\n' then ['\\', 'n']
  else if c = '\r' then ['\\', 'r']
  else if c = '\t' then ['\\', 't']
  else if c.toNat = 8 then ['\\', 'b']
  else if c.toNat = 12 then ['\\', 'f']
  else if c.toNat < 0x20 then
    ['\\', 'u', '0', '0', Text.hexDigit (c.toNat / 16), Text.hexDigit (c.toNat % 16)]
  else [c]

/-- A string as it is written. -/
def stringText (s : String) : String :=
  String.ofList ('"' :: s.toList.flatMap escapedChar ++ ['"'])

/-- The text of a number. -/
def numeralText : Numeral → String
  | .int n => Text.showInt n
  | .real x => x.text

mutual

/-- The compact text of a value. -/
def text : Json → String
  | .null => "null"
  | .bool b => if b then "true" else "false"
  | .num n => numeralText n
  | .str s => stringText s
  | .arr items => "[" ++ ",".intercalate (textItems items) ++ "]"
  | .obj members => "\x7b" ++ ",".intercalate (textMembers members) ++ "\x7d"

/-- The texts of the items of an array. -/
def textItems : List Json → List String
  | [] => []
  | j :: rest => text j :: textItems rest

/-- The texts of the members of an object. -/
def textMembers : List (String × Json) → List String
  | [] => []
  | (k, v) :: rest => (stringText k ++ ":" ++ text v) :: textMembers rest

end

end Json

end CustomerDedupe
