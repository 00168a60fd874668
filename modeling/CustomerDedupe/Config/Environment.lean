/-!
# The environment in texts

A text may refer to a variable of the environment as `$`, an opening brace, the variable's
name and a closing brace. `substitute` puts the values of the known variables in place of the
references, in one pass from left to right: what it puts in is not looked at again, and a
reference to an unknown variable stays as it is.
-/

namespace CustomerDedupe

/-- The values of the variables that are set. -/
abbrev Environment :=
  String → Option String

namespace Environment

/-- What follows a beginning of a text. -/
def after? : List Char → List Char → Option (List Char)
  | [], s => some s
  | c :: start, d :: s => if c = d then after? start s else none
  | _ :: _, [] => none

/-- The environment of some names with values. The value of a variable is what follows its name
and an equals sign in the first entry that begins with them. -/
def ofEntries (entries : List (String × String)) : Environment := fun name =>
  (entries.findSome? fun e =>
    after? (name.toList ++ ['=']) (e.1.toList ++ '=' :: e.2.toList)).map String.ofList

/-- The name of a variable that a text refers to at its beginning, after the dollar sign and the
brace. The name is everything before the first closing brace, of which there has to be one, and
is not empty. -/
def reference? : List Char → Option (List Char)
  | '$' :: '\x7b' :: rest =>
    let name := rest.takeWhile (· != '\x7d')
    if name.isEmpty || (rest.drop name.length).isEmpty then none else some name
  | _ => none

/-- A reference to a variable. -/
def reference (name : List Char) : List Char :=
  '$' :: '\x7b' :: name ++ ['\x7d']

/-- What stands for a reference: the variable's value, or the reference itself if there is no
such variable. -/
def resolve (env : Environment) (name : List Char) : List Char :=
  match env (String.ofList name) with
  | some value => value.toList
  | none => reference name

/-- Replaces the references in a text after passing over a number of characters. -/
def substituteFrom (env : Environment) : Nat → List Char → List Char
  | _, [] => []
  | skip + 1, _ :: rest => substituteFrom env skip rest
  | 0, c :: rest =>
    match reference? (c :: rest) with
    | some name => env.resolve name ++ substituteFrom env (name.length + 2) rest
    | none => c :: substituteFrom env 0 rest

/-- Replaces the references in a text by the values of the variables. -/
def substitute (env : Environment) (text : String) : String :=
  String.ofList (env.substituteFrom 0 text.toList)

end Environment

end CustomerDedupe
