import CustomerDedupe.Url.Host

/-!
# Addresses

Addresses of the web and other schemes. Reading passes over white space at the ends and over
tabs and line ends anywhere, resolves dots in paths, encodes what an address cannot hold, and
drops the scheme's usual port. `Url.text` writes an address in this canonical form.
-/

namespace CustomerDedupe

/-- The path of an address: segments after slashes, or any text in addresses without a host
that do not begin with a slash. -/
inductive UrlPath where
  | segments (parts : List (List Char))
  | rootless (s : List Char)
  deriving DecidableEq, Repr

/-- An address. -/
structure Url where
  scheme : List Char
  user : Option (List Char × Option (List Char))
  host : Option Url.Host
  port : Option Nat
  path : UrlPath
  query : Option (List Char)
  fragment : Option (List Char)
  deriving DecidableEq, Repr

namespace Url

/-- Schemes whose addresses have the form of web addresses, with their usual ports. -/
def webSchemes : List (List Char × Nat) :=
  [("http".toList, 80), ("https".toList, 443), ("ws".toList, 80), ("wss".toList, 443),
    ("ftp".toList, 21)]

/-- Whether a scheme's addresses have the form of web addresses. -/
def isWebScheme (scheme : List Char) : Bool :=
  webSchemes.any fun s => s.1 == scheme

/-- The usual port of a scheme. -/
def usualPort? (scheme : List Char) : Option Nat :=
  webSchemes.lookup scheme

/-- The text of a path. -/
def pathChars : UrlPath → List Char
  | .rootless s => s
  | .segments parts => parts.flatMap fun p => '/' :: p

/-- The text of user information. -/
def userChars : Option (List Char × Option (List Char)) → List Char
  | none => []
  | some (name, none) => name ++ ['@']
  | some (name, some password) => name ++ ':' :: password ++ ['@']

/-- The text of the part between scheme and path. -/
def authorityChars (u : Url) : List Char :=
  match u.host with
  | none => []
  | some h =>
    ['/', '/'] ++ userChars u.user ++ h.chars ++
      (match u.port with
        | none => []
        | some n => ':' :: Text.writeNat n)

/-- The text of what follows the path up to the fragment. -/
def queryChars (u : Url) : List Char :=
  match u.query with
  | none => []
  | some q => '?' :: q

/-- The path and query, as a request names them. -/
def target (u : Url) : String :=
  String.ofList (pathChars u.path ++ u.queryChars)

/-- The canonical text of an address. -/
def text (u : Url) : String :=
  String.ofList (u.scheme ++ ':' :: u.authorityChars ++ pathChars u.path ++ u.queryChars ++
    (match u.fragment with
      | none => []
      | some f => '#' :: f))

/-- The characters of a text that count in an address. -/
def significant (s : List Char) : List Char :=
  let isEdge (c : Char) : Bool := c.toNat ≤ 0x20
  let trimmed := ((s.dropWhile isEdge).reverse.dropWhile isEdge).reverse
  trimmed.filter fun c => c != '\t' && c != '\n' && c != '\r'

/-- Whether a character may stand in a scheme after its first letter. -/
def isSchemeChar (c : Char) : Bool :=
  c.isAlphanum || c == '+' || c == '-' || c == '.'

/-- Cuts the scheme, in lower case, off a text. -/
def splitScheme? (s : List Char) : Option (List Char × List Char) :=
  let scheme := s.takeWhile isSchemeChar
  match scheme, s.drop scheme.length with
  | c :: _, ':' :: rest => if c.isAlpha then some (scheme.map Char.toLower, rest) else none
  | _, _ => none

/-- Whether a segment means the directory itself. -/
def isDot (segment : List Char) : Bool :=
  [".".toList, "%2e".toList].contains (segment.map Char.toLower)

/-- Whether a segment means the directory above. -/
def isDotDot (segment : List Char) : Bool :=
  ["..".toList, ".%2e".toList, "%2e.".toList, "%2e%2e".toList].contains
    (segment.map Char.toLower)

/-- Resolves dots in the segments of a path; `done` are the segments before, last first. A dot
in the last place leaves an empty segment. -/
def resolveDots (done : List (List Char)) : List (List Char) → List (List Char)
  | [] => done.reverse
  | segment :: rest =>
    let last := rest.isEmpty
    if isDotDot segment then
      resolveDots (if last then [] :: done.drop 1 else done.drop 1) rest
    else if isDot segment then
      resolveDots (if last then [] :: done else done) rest
    else resolveDots (segment :: done) rest

/-- The segments of a text between slashes, and in web addresses also backslashes. -/
def splitSegments (web : Bool) (s : List Char) : List (List Char) :=
  Text.splitAt '/' (s.map fun c => if web && c == '\\' then '/' else c)

/-- Reads a path that follows a host or begins with a slash. -/
def readPath (web : Bool) (s : List Char) : UrlPath :=
  match s with
  | [] => .segments (if web then [[]] else [])
  | c :: rest =>
    let body := if c == '/' || (web && c == '\\') then rest else s
    .segments (resolveDots [] ((splitSegments web body).map (percentEncode pathSet)))

/-- Cuts a text at the first character that passes a test. -/
def cutAt (stop : Char → Bool) (s : List Char) : List Char × List Char :=
  (s.takeWhile fun c => !stop c, s.dropWhile fun c => !stop c)

/-- Whether a character ends the part of an address before the path. -/
def endsAuthority (web : Bool) (c : Char) : Bool :=
  c == '/' || c == '?' || c == '#' || (web && c == '\\')

/-- Cuts user information off the part of an address before the path, at its last `@`. -/
def splitUser (s : List Char) : Option (List Char) × List Char :=
  match (Text.splitAt '@' s).reverse with
  | [] => (none, s)
  | [_] => (none, s)
  | host :: user => (some (List.intercalate ['@'] user.reverse), host)

/-- User information in its canonical form. -/
def readUser (s : List Char) : Option (List Char × Option (List Char)) :=
  let (name, rest) := cutAt (· == ':') s
  let name := percentEncode userSet name
  match rest with
  | _ :: password =>
    if password.isEmpty then (if name.isEmpty then none else some (name, none))
    else some (name, some (percentEncode userSet password))
  | [] => if name.isEmpty then none else some (name, none)

/-- Cuts the port off a host: at the first colon outside brackets. -/
def splitPort : Bool → List Char → List Char × Option (List Char)
  | _, [] => ([], none)
  | inside, c :: rest =>
    if c == ':' && !inside then ([], some rest)
    else
      let (host, port) := splitPort (if c == '[' then true else if c == ']' then false else inside)
        rest
      (c :: host, port)

/-- Reads a port: digits up to 65535. The scheme's usual port counts as none. -/
def readPort (scheme : List Char) (s : List Char) : Except Problem (Option Nat) :=
  if s.isEmpty then .ok none
  else if s.all Char.isDigit then
    let n := Text.digitsValue s
    if 65535 < n then .error .port
    else .ok (if usualPort? scheme = some n then none else some n)
  else .error .port

/-- Reads what follows the slashes of an address with a host. -/
def readAuthority [DomainNames] (scheme : List Char) (s : List Char) : Except Problem Url := do
  let web := isWebScheme scheme
  let (authority, rest) := cutAt (endsAuthority web) s
  let (user, hostPort) := splitUser authority
  let (hostText, portText) := splitPort false hostPort
  if user.isSome ∧ hostPort.isEmpty ∧ (web ∨ user ≠ some []) then throw .emptyHost
  if web ∧ hostText.isEmpty then throw .emptyHost
  let host ← if web then Host.readWeb hostText else Host.readName hostText
  if hostText.isEmpty ∧ portText.isSome then throw .emptyHost
  let port ← readPort scheme (portText.getD [])
  pure {
    scheme
    user := user.bind readUser
    host := some host
    port
    path := readPath web rest
    query := none
    fragment := none }

/-- Reads an address of a file. -/
def readFile [DomainNames] (scheme : List Char) (s : List Char) : Except Problem Url :=
  match s.map (fun c => if c == '\\' then '/' else c) with
  | '/' :: '/' :: rest => do
    let (hostText, path) := cutAt (· == '/') rest
    let host ←
      if hostText.isEmpty then pure (.name [])
      else do
        let h ← Host.readWeb hostText
        pure (if h = .domain "localhost".toList then .name [] else h)
    pure ⟨scheme, none, some host, none, readPath true path, none, none⟩
  | path => .ok ⟨scheme, none, some (.name []), none, readPath true path, none, none⟩

/-- Whether an address has a host that is not empty. -/
def hasHost (u : Url) : Bool :=
  match u.host with
  | none => false
  | some h => !(u.scheme == "file".toList && h == .name [])

/-- Whether percent encoding stands for a text. -/
def isReadable (s : List Char) : Bool :=
  (Text.Utf8.decode? (percentDecode (Text.Utf8.encode (String.ofList s)))).isSome

/-- An address without user information, which messages carry elsewhere if it can be read. -/
def withoutUser (u : Url) : Url :=
  match u.user with
  | none => u
  | some (name, password) =>
    if isReadable name && (!name.isEmpty || password.any isReadable) then { u with user := none }
    else u

/-- Reads an address. -/
def read [DomainNames] (s : String) : Except Problem Url := do
  let s := significant s.toList
  match splitScheme? s with
  | none => throw .relative
  | some (scheme, rest) =>
    let (beforeFragment, fragment) := cutAt (· == '#') rest
    let (body, query) := cutAt (· == '?') beforeFragment
    let web := isWebScheme scheme
    let u ←
      if web then readAuthority scheme (body.dropWhile fun c => c == '/' || c == '\\')
      else if scheme = "file".toList then readFile scheme body
      else
        match body with
        | '/' :: '/' :: more => readAuthority scheme more
        | '/' :: _ => pure ⟨scheme, none, none, none, readPath false body, none, none⟩
        | _ =>
          pure ⟨scheme, none, none, none, .rootless (percentEncode controlSet body), none, none⟩
    pure { u with
      query := if query.isEmpty then none
        else some (percentEncode (if web then webQuerySet else querySet) (query.drop 1))
      fragment := if fragment.isEmpty then none
        else some (percentEncode fragmentSet (fragment.drop 1)) }

/-- Adds names and values to the query of an address. An empty query is none. -/
def addQuery (u : Url) (pairs : List (String × String)) : Url :=
  let more := formPairs pairs
  let all :=
    match u.query with
    | none => more
    | some q => if q.isEmpty ∨ more.isEmpty then q ++ more else q ++ '&' :: more
  { u with query := if all.isEmpty then none else some all }

end Url

end CustomerDedupe
