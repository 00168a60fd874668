import CustomerDedupe.Customer.Remote
import CustomerDedupe.Notification.Feed
import CustomerDedupe.Proofs.Url.Form
import CustomerDedupe.Proofs.Url.LongerPath
import CustomerDedupe.Rest.Client
import CustomerDedupe.Validation

/-!
# Requests and the address of the server

A client puts the path of a table behind the text of the server's address. If the settings' check
accepts the address, the text can be extended so and requests may name its host, every request to a
table of the program whose address is short enough can be built, its path ends in the table's, and
its query holds the parameters of the request and nothing else (`Client.requests_reach_table`),
however domain names are written in ASCII. Where the text has a query or a fragment, or a blank
right behind the host, where the host holds a brace, a key cannot stand in a header or a parameter
is too long, the request goes elsewhere or cannot be built (`Client.requests_astray`).
-/

namespace CustomerDedupe.Rest

/-- The tables that the program keeps its rows in. -/
def tables : List String :=
  [CustomerTable.name, Feed.tableName]

/-- The segments behind the server's address that lead to a table. -/
def tableSegments (table : String) : List (List Char) :=
  ["rest".toList, "v1".toList, table.toList]

theorem table_segments_text (table : String) :
    Url.segmentsText (tableSegments table) = ("/rest/v1/" ++ table).toList := by
  have hslashes : "/rest/v1/".toList = '/' :: "rest".toList ++ '/' :: "v1".toList ++ ['/'] := by
    decide
  rw [tableSegments, Url.segments_text_cons, Url.segments_text_cons, Url.segments_text_cons,
    show Url.segmentsText [] = [] from rfl, String.toList_append, hslashes]
  simp

theorem plain_table_segments {table : String} (h : table ∈ tables) :
    ∀ p ∈ tableSegments table, Url.Plain p := by
  have hall : ∀ table ∈ tables, ∀ p ∈ tableSegments table, Url.Plain p := by decide +kernel
  exact hall table h

namespace Client

theorem table_url_eq (c : Client) {u key : String} (h : c.baseUrl = (Client.new u key).baseUrl)
    (table : String) :
    c.tableUrl table =
      String.ofList (Url.withoutSlashes u.toList ++ Url.segmentsText (tableSegments table)) := by
  rw [table_segments_text, tableUrl, h, String.append_assoc, String.ofList_append,
    String.ofList_toList]
  rfl

theorem query_of_added {u : Url} (h : u.query = none) (params : List (String × String)) :
    (u.addQuery params).query =
      if params.isEmpty then none else some (Url.formPairs params) := by
  rw [Url.addQuery, h]
  rcases params with _ | ⟨p, params⟩
  · rfl
  · have hne : (Url.formPairs (p :: params)).isEmpty = false := by
      rw [Url.formPairs, List.map_cons]
      cases params <;> simp
    simp only [hne, Bool.false_eq_true, if_false, List.isEmpty_cons]

theorem is_web_scheme_of_http {scheme : List Char}
    (h : scheme = "http".toList ∨ scheme = "https".toList) : Url.isWebScheme scheme = true := by
  rcases h with rfl | rfl <;> decide

section Reading

variable [Url.DomainNames]

/-- A request can be built and is short enough to be sent, its path ends in that of its table, and
its query holds the request's own parameters. -/
def Reaches (c : Client) (r : Request) : Prop :=
  ∃ m, c.message r = .ok m ∧ isShortUrl m.url = true ∧
    ("/rest/v1/" ++ r.table).toList <:+ Url.pathChars m.url.path ∧
    m.url.query = (if r.params.isEmpty then none else some (Url.formPairs r.params)) ∧
    Url.readPairs (m.url.query.getD []) =
      r.params.map fun p => (Text.Utf8.encode p.1, Text.Utf8.encode p.2)

instance (c : Client) (r : Request) : Decidable (c.Reaches r) :=
  match h : c.message r with
  | .error _ => isFalse fun ⟨m, hm, _⟩ => by rw [h] at hm; cases hm
  | .ok m =>
    decidable_of_iff
      (isShortUrl m.url = true ∧ ("/rest/v1/" ++ r.table).toList <:+ Url.pathChars m.url.path ∧
        m.url.query = (if r.params.isEmpty then none else some (Url.formPairs r.params)) ∧
        Url.readPairs (m.url.query.getD []) =
          r.params.map fun p => (Text.Utf8.encode p.1, Text.Utf8.encode p.2))
      ⟨fun hreaches => ⟨m, h, hreaches⟩, fun ⟨n, hn, hreaches⟩ => by
        obtain rfl := Except.ok.inj (h.symm.trans hn)
        exact hreaches⟩

theorem read_of_accepted {field u : String} (h : Validation.url field u = .ok ()) :
    ∃ a, Url.read u = .ok a ∧ (a.scheme = "http".toList ∨ a.scheme = "https".toList) := by
  unfold Validation.url at h
  split at h
  · cases h
  · split at h
    · cases h
    · rename_i a hread
      split at h
      · rename_i hscheme
        exact ⟨a, hread, hscheme⟩
      · cases h

/-- A request with an address of the web, a host that it may name and keys for headers can be
built. -/
theorem message_of_address {c : Client} {r : Request} {u : Url} (haddress : c.address r = .ok u)
    (hscheme : u.scheme = "http".toList ∨ u.scheme = "https".toList)
    (hhost : u.host.all Url.Host.isUri = true) (hkey : isHeaderText c.anonKey = true)
    (htoken : isHeaderText (c.accessToken.getD c.anonKey) = true) :
    ∃ m, c.message r = .ok m ∧ m.url = u := by
  have hweb : ¬(u.scheme ≠ "http".toList ∧ u.scheme ≠ "https".toList) := fun h =>
    hscheme.elim h.1 h.2
  unfold message
  rw [haddress]
  simp only [hkey, htoken, hhost, bind, Except.bind, Bool.not_true, Bool.or_self,
    Bool.false_eq_true, if_false, if_neg hweb]
  exact ⟨_, rfl, rfl⟩

/-- No request is short enough with a value of more bytes than an address may have. -/
theorem not_reaches_of_long {c : Client} {r : Request} {p : String × String} (hp : p ∈ r.params)
    (hlong : maxUrlBytes < p.2.utf8ByteSize) : ¬c.Reaches r := by
  rintro ⟨m, -, hshort, -, hquery, -⟩
  have hsome : m.url.withoutUser.query = some (Url.formPairs r.params) := by
    rw [Url.without_user_query, hquery, if_neg (by simpa using List.ne_nil_of_mem hp)]
  have hvalue := Url.size_le_form_pairs hp
  have htext := Url.query_length_le_size hsome
  have hlimit : (urlText m.url).utf8ByteSize ≤ maxUrlBytes := of_decide_eq_true hshort
  rw [urlText] at hlimit
  omega

/-- Behind an address that can be extended, a request goes to its table with its parameters, and
all else of the address is as before. -/
theorem address_of_extensible {c : Client} {u key : String} {a : Url}
    (hbase : c.baseUrl = (Client.new u key).baseUrl) (hu : Url.Extensible u.toList)
    (hread : Url.read u = .ok a) (hscheme : a.scheme = "http".toList ∨ a.scheme = "https".toList)
    {r : Request} (htable : r.table ∈ tables) :
    ∃ front, c.address r =
      .ok (({ a with path := .segments (front ++ tableSegments r.table) } : Url).addQuery
        r.params) := by
  have hweb := is_web_scheme_of_http hscheme
  obtain ⟨hhost, -, -⟩ := hu.bare hread hweb
  have hsegments : tableSegments r.table ≠ [] := by simp [tableSegments]
  obtain ⟨front, hlonger⟩ := hu.read_longer hread hweb hsegments (plain_table_segments htable)
  refine ⟨front, ?_⟩
  have hhas : Url.hasHost { a with path := .segments (front ++ tableSegments r.table) } = true := by
    obtain ⟨host, hsome⟩ := Option.isSome_iff_exists.1 hhost
    rw [Url.hasHost, hsome]
    rcases hscheme with h | h <;> rw [h] <;> rfl
  rw [address, table_url_eq c hbase, hlonger]
  simp only [hhas, if_true]

/-- Every request to a table of the program leads there if the settings' check accepts the
address of the server, a path can be put behind it, requests may name its host, the keys can stand
in headers, and the address of the request is short enough. -/
theorem requests_reach_table {field u key : String} (token : Option String) (seconds : Nat)
    (haccepted : Validation.url field u = .ok ()) (hu : Url.Extensible u.toList)
    (huri : ∀ a, Url.read u = .ok a → a.host.all Url.Host.isUri = true)
    (hkey : isHeaderText key = true) (htoken : isHeaderText (token.getD key) = true)
    {r : Request} (htable : r.table ∈ tables)
    (hshort : ∀ a,
      address { Client.new u key with accessToken := token, timeoutSeconds := seconds } r = .ok a →
        isShortUrl a = true) :
    Reaches { Client.new u key with accessToken := token, timeoutSeconds := seconds } r := by
  obtain ⟨a, hread, hscheme⟩ := read_of_accepted haccepted
  obtain ⟨-, hquery, -⟩ := hu.bare hread (is_web_scheme_of_http hscheme)
  have hbase : { Client.new u key with accessToken := token, timeoutSeconds := seconds }.baseUrl =
      (Client.new u key).baseUrl := rfl
  obtain ⟨front, haddress⟩ := address_of_extensible hbase hu hread hscheme htable
  obtain ⟨m, hm, hurl⟩ := message_of_address haddress hscheme (huri a hread) hkey htoken
  have hqueryOf : m.url.query =
      if r.params.isEmpty then none else some (Url.formPairs r.params) := by
    rw [hurl]
    exact query_of_added hquery r.params
  refine ⟨m, hm, by rw [hurl]; exact hshort _ haddress, ?_, hqueryOf, ?_⟩
  · rw [hurl, ← table_segments_text]
    exact ⟨Url.segmentsText front, (Url.segments_text_append _ _).symm⟩
  · rw [hqueryOf, ← Url.read_form_pairs]
    rcases hparams : r.params with _ | ⟨p, params⟩ <;> rfl

end Reading

/-- A request for all customers. -/
def allCustomers : Request :=
  ⟨.select, CustomerTable.name, [], none⟩

/-- Blanks around an address, a path and slashes at its end do no harm. -/
theorem padded_address_reaches_table :
    Validation.url "supabase.url" " http://localhost/crm/// " = .ok () ∧
      Url.Extensible " http://localhost/crm/// ".toList ∧
      (∀ a, Url.read " http://localhost/crm/// " = .ok a → a.host.all Url.Host.isUri = true) ∧
      isHeaderText "anon" = true ∧ allCustomers.table ∈ tables ∧
      Reaches { Client.new " http://localhost/crm/// " "anon" with
        accessToken := none, timeoutSeconds := 30 } allCustomers := by
  have haccepted : Validation.url "supabase.url" " http://localhost/crm/// " = .ok () := by
    decide +kernel
  have hextensible : Url.Extensible " http://localhost/crm/// ".toList := by decide +kernel
  have huri : ∀ a ∈ (Url.read " http://localhost/crm/// ").toOption,
      a.host.all Url.Host.isUri = true := by decide +kernel
  have hkey : isHeaderText "anon" = true := by decide
  have htable : allCustomers.table ∈ tables := List.mem_cons_self
  have hshort : ∀ a ∈ (address { Client.new " http://localhost/crm/// " "anon" with
      accessToken := none, timeoutSeconds := 30 } allCustomers).toOption,
      isShortUrl a = true := by decide +kernel
  have hsome : ∀ a, Url.read " http://localhost/crm/// " = .ok a →
      a.host.all Url.Host.isUri = true := fun a ha => huri a (by rw [ha]; rfl)
  exact ⟨haccepted, hextensible, hsome, hkey, htable,
    requests_reach_table none 30 haccepted hextensible hsome hkey hkey htable
      fun a ha => hshort a (by rw [ha]; rfl)⟩

/-- A request for the customers of a name that is as long as an address may be. -/
def longName : Request :=
  ⟨.select, CustomerTable.name,
    [.eq "customer_name" (String.ofList (List.replicate maxUrlBytes 'a'))], none⟩

theorem not_reaches_long_name (c : Client) : ¬c.Reaches longName := by
  refine not_reaches_of_long
    (p := ("customer_name", "eq." ++ String.ofList (List.replicate maxUrlBytes 'a'))) ?_ ?_
  · exact List.mem_cons_of_mem _ List.mem_cons_self
  · have hname := Url.length_le_size (String.ofList (List.replicate maxUrlBytes 'a'))
    have heq : "eq.".utf8ByteSize = 3 := rfl
    rw [String.length_ofList, List.length_replicate] at hname
    rw [String.utf8ByteSize_append, heq]
    omega

/-- An address with a query or a fragment and one with a blank behind its host are accepted, and
the requests go elsewhere. With a brace in the host, with a key that holds a line end or with a
parameter that is too long, no request can be built. -/
theorem requests_astray :
    (Validation.url "supabase.url" "http://localhost/?tenant=a" = .ok () ∧
      ¬Reaches (Client.new "http://localhost/?tenant=a" "anon") allCustomers) ∧
    (Validation.url "supabase.url" "http://localhost/#crm" = .ok () ∧
      ¬Reaches (Client.new "http://localhost/#crm" "anon") allCustomers) ∧
    (Validation.url "supabase.url" "http://localhost " = .ok () ∧
      ¬Reaches (Client.new "http://localhost " "anon") allCustomers) ∧
    (Validation.url "supabase.url" "https://$\x7bPROJECT\x7d.supabase.co" = .ok () ∧
      ¬Reaches (Client.new "https://$\x7bPROJECT\x7d.supabase.co" "anon") allCustomers) ∧
    (Validation.url "supabase.url" "http://localhost" = .ok () ∧
      ¬Reaches (Client.new "http://localhost" "anon\n") allCustomers ∧
      ¬Reaches (Client.new "http://localhost" "anon") longName) := by
  refine ⟨⟨?_, ?_⟩, ⟨?_, ?_⟩, ⟨?_, ?_⟩, ⟨?_, ?_⟩, ?_, ?_, not_reaches_long_name _⟩ <;>
    decide +kernel

end Client

end CustomerDedupe.Rest
