import CustomerDedupe.Config.Basic
import CustomerDedupe.Proofs.Config.Substitution
import CustomerDedupe.Proofs.Json.Fields
import CustomerDedupe.Proofs.Toml.Place

/-!
# Secrets from the environment

The references in a configuration text are replaced before the text is read, so what a variable
holds is read as a part of the text. A value whose characters stand for themselves within double
quotes arrives as it is, and the rest of the configuration is what the text says without it
(`Config.verbatim_secret_arrives`). Other values do not arrive, or arrive as something else
(`Config.secrets_altered`).
-/

namespace CustomerDedupe

/-! ## Decoding tables that differ -/

namespace Json

variable {α β : Type}

/-- A field that does not look at what a change changes, nor changes it back. -/
def Field.Keeps (g : α → α) (f : Field α) : Prop :=
  ∀ a o, f.put (g a) o = (f.put a o).map g

theorem keeps_field {g : α → α} {name : String} {presence : Presence} {d : Decoder β}
    {set : α → β → α} (h : ∀ a b, set (g a) b = g (set a b)) :
    (field name presence d set).Keeps g := by
  intro a o
  simp only [field]
  cases d o with
  | error r => rfl
  | ok b => exact congrArg Except.ok (h a b)

namespace Schema

variable {s : Schema α} {g : α → α} {k : String}

/-- Behind the field that a change concerns, members are decoded as without the change. -/
theorem decode_members_keeps (hkeeps : ∀ f ∈ s.fields, f.name ≠ k → f.Keeps g)
    (ms : List (Name × Outline × Nat)) {given : List String} (hgiven : k ∈ given) (a : α) :
    s.decodeMembers given (g a) ms =
      (s.decodeMembers given a ms).map fun r => (g r.1, r.2) := by
  induction ms generalizing given a with
  | nil => rfl
  | cons m ms ih =>
      obtain ⟨name, o, settled⟩ := m
      rw [decodeMembers, decodeMembers]
      cases orFault name.text with
      | error r => rfl
      | ok key =>
          simp only [bind, Except.bind]
          cases hfind : s.fields.find? fun f => f.name == key with
          | none =>
              dsimp only
              cases orFault o.pass with
              | error r => rfl
              | ok u => exact ih hgiven a
          | some f =>
              dsimp only
              split
              · rfl
              rename_i hnew
              have hname : f.name = key := name_of_find hfind
              have hother : f.name ≠ k := by
                rw [hname]
                rintro rfl
                exact hnew (List.contains_iff_mem.2 hgiven)
              rw [hkeeps f (List.mem_of_find?_eq_some hfind) hother a o]
              cases f.put a o with
              | error r => rfl
              | ok b => exact ih (List.mem_cons_of_mem _ hgiven) b

/-- Members that differ at a key are decoded into records that differ in its field. -/
theorem decode_members_differing {R : Toml.Value → Toml.Value → Prop} {f : Field α}
    (hfind : s.fields.find? (fun f => f.name == k) = some f)
    (hput : ∀ v w, R v w → ∀ a b, f.put a v.outline = .ok b → f.put a w.outline = .ok (g b))
    (hkeeps : ∀ f ∈ s.fields, f.name ≠ k → f.Keeps g) {ms ms' : List (String × Toml.Value)}
    (h : Toml.AtKey R k ms ms') {given : List String} {a : α} {r : α × List String}
    (hr : s.decodeMembers given a (Toml.Value.outlineMembers ms) = .ok r) :
    s.decodeMembers given a (Toml.Value.outlineMembers ms') = .ok (g r.1, r.2) := by
  induction h generalizing given a with
  | @here v w rest hvw =>
      rw [Toml.Value.outlineMembers, decodeMembers] at hr ⊢
      simp only [orFault, bind, Except.bind, hfind] at hr ⊢
      split at hr
      · cases hr
      rename_i hnew
      rw [if_neg hnew]
      cases hv : f.put a v.outline with
      | error r => rw [hv] at hr; cases hr
      | ok b =>
          rw [hv] at hr
          dsimp only at hr
          rw [hput v w hvw a b hv]
          dsimp only
          rw [decode_members_keeps hkeeps _ List.mem_cons_self, hr]
          rfl
  | @later name v ms ms' hname _ ih =>
      rw [Toml.Value.outlineMembers, decodeMembers] at hr ⊢
      simp only [orFault, bind, Except.bind] at hr ⊢
      cases hother : s.fields.find? fun f => f.name == name with
      | none =>
          rw [hother] at hr
          dsimp only at hr ⊢
          split at hr
          · cases hr
          · exact ih hr
      | some f' =>
          rw [hother] at hr
          dsimp only at hr ⊢
          split at hr
          · cases hr
          rename_i hnew
          rw [if_neg hnew]
          split at hr
          · cases hr
          · exact ih hr

/-- Tables that differ at a key are decoded into records that differ in its field. -/
theorem decode_differing {R : Toml.Value → Toml.Value → Prop} {f : Field α}
    (hfind : s.fields.find? (fun f => f.name == k) = some f)
    (hput : ∀ v w, R v w → ∀ a b, f.put a v.outline = .ok b → f.put a w.outline = .ok (g b))
    (hkeeps : ∀ f ∈ s.fields, f.name ≠ k → f.Keeps g) {ms ms' : List (String × Toml.Value)}
    (h : Toml.AtKey R k ms ms') {origin : Origin} {a : α}
    (ha : s.decode origin (Toml.Value.table ms).outline = .ok a) :
    s.decode origin (Toml.Value.table ms').outline = .ok (g a) := by
  rw [Toml.Value.outline, decode] at ha ⊢
  cases hmembers : s.decodeMembers [] s.blank (Toml.Value.outlineMembers ms) with
  | error r => rw [hmembers] at ha; cases ha
  | ok r =>
      rw [hmembers] at ha
      rw [decode_members_differing hfind hput hkeeps h hmembers]
      simp only [bind, Except.bind] at ha ⊢
      cases hmissing : s.missing? r.2 with
      | some name => rw [hmissing] at ha; cases ha
      | none =>
          rw [hmissing] at ha
          obtain rfl := Except.ok.inj ha
          rfl

end Schema

end Json

open Toml (Verbatim WrittenAt quoted)
open Environment (Piece Scan reference)

/-! ## The secret -/

/-- The connection with another key. -/
def Connection.withKey (key : String) (c : Connection) : Connection :=
  { c with anonKey := key }

/-- The configuration with another key. -/
def Config.withKey (key : String) (c : Config) : Config :=
  { c with connection := c.connection.withKey key }

theorem Connection.decode_differing {x y : String} {v w : Toml.Value}
    (h : Toml.Value.Differ (.str x) (.str y) ["anon_key"] v w) {c : Connection}
    (hc : (Connection.schema .config).decode .config v.outline = .ok c) :
    (Connection.schema .config).decode .config w.outline = .ok (c.withKey y) := by
  cases h with
  | table h =>
      refine Json.Schema.decode_differing rfl ?_ ?_ h hc
      · rintro v w ⟨rfl, rfl⟩ a b hput
        obtain rfl := Except.ok.inj hput
        rfl
      · intro f hf hname
        simp only [Connection.schema, List.mem_cons, List.not_mem_nil, or_false] at hf
        rcases hf with rfl | rfl | rfl | rfl | rfl
        · exact Json.keeps_field fun _ _ => rfl
        · exact absurd rfl hname
        · exact Json.keeps_field fun _ _ => rfl
        · exact Json.keeps_field fun _ _ => rfl
        · exact Json.keeps_field fun _ _ => rfl
  | arr h =>
      -- the first item of a list of tables is no address
      cases h <;> cases hc

theorem Config.decode_differing {x y : String} {ms : List (String × Toml.Value)} {w : Toml.Value}
    (h : Toml.Value.Differ (.str x) (.str y) ["supabase", "anon_key"] (.table ms) w) {c : Config}
    (hc : (Config.schema .config).decode .config (Toml.Value.table ms).outline = .ok c) :
    (Config.schema .config).decode .config w.outline = .ok (c.withKey y) := by
  cases h with
  | table h =>
      refine Json.Schema.decode_differing rfl ?_ ?_ h hc
      · intro v w hvw a b hput
        simp only [Json.field] at hput ⊢
        cases hv : (Connection.schema .config).decode .config v.outline with
        | error r => rw [hv] at hput; cases hput
        | ok connection =>
            rw [hv] at hput
            obtain rfl := Except.ok.inj hput
            rw [Connection.decode_differing hvw hv]
            rfl
      · intro f hf hname
        simp only [Config.schema, List.mem_cons, List.not_mem_nil, or_false] at hf
        rcases hf with rfl | rfl | rfl
        · exact absurd rfl hname
        · exact Json.keeps_field fun _ _ => rfl
        · exact Json.keeps_field fun _ _ => rfl

/-- Exchanging the string that is written as the key exchanges the key and nothing else. -/
theorem Config.of_text_exchanged {x y before rest : List Char} (hx : Verbatim x) (hne : x ≠ [])
    (hy : Verbatim y) (hplace : WrittenAt ["supabase", "anon_key"] before (quoted x rest))
    {c : Config} (hread : ofText (String.ofList (before ++ quoted x rest)) = .ok c) :
    ofText (String.ofList (before ++ quoted y rest)) = .ok (c.withKey (String.ofList y)) := by
  rw [ofText] at hread ⊢
  cases hv : Toml.read? (String.ofList (before ++ quoted x rest)) with
  | none => rw [hv] at hread; cases hread
  | some v =>
      rw [hv] at hread
      obtain ⟨w, hw, hdiffer⟩ := Toml.read_exchanged hx hne hy hplace hv
      obtain ⟨ms, rfl⟩ : ∃ ms, v = .table ms := by
        obtain ⟨_, -, hv⟩ := Option.bind_eq_some_iff.1 hv
        exact ⟨_, (Option.some.inj hv).symm⟩
      rw [hw]
      dsimp only at hread ⊢
      cases hdecode : (Config.schema .config).decode .config (Toml.Value.table ms).outline with
      | error r => rw [hdecode] at hread; cases hread
      | ok d =>
          rw [hdecode] at hread
          obtain rfl := Except.ok.inj hread
          rw [Config.decode_differing hdiffer hdecode]

/-- A secret arrives as it is if its characters stand for themselves within double quotes. If the
key is written in a text as a string that holds only a reference to a variable, then reading the
text with the variable set gives the key the variable's value, and everything else what the text
says with a word in the place of the reference. The reference is such a word itself, unless the
variable's name has characters that do not stand for themselves. -/
theorem Config.verbatim_secret_arrives {env : Environment} {text : String}
    {before after : List Piece} {name word : List Char} {secret : String} {c : Config}
    (hscan : Scan text.toList (before ++ .plain '"' :: .reference name :: .plain '"' :: after))
    (hset : env (String.ofList name) = some secret) (hsecret : Verbatim secret.toList)
    (hword : Verbatim word) (hne : word ≠ [])
    (hplace : WrittenAt ["supabase", "anon_key"] (before.flatMap (Piece.value env))
      (quoted word (after.flatMap (Piece.value env))))
    (hread : ofText (String.ofList (before.flatMap (Piece.value env) ++
      quoted word (after.flatMap (Piece.value env)))) = .ok c) :
    Config.read env text = .ok (c.withKey secret) := by
  have hreplaced : env.substitute text = String.ofList (before.flatMap (Piece.value env) ++
      quoted secret.toList (after.flatMap (Piece.value env))) := by
    rw [Environment.substitute, hscan.substitute env, List.flatMap_append, List.flatMap_cons,
      List.flatMap_cons, List.flatMap_cons]
    simp only [Piece.value, hset, quoted, List.singleton_append]
  rw [Config.read, hreplaced, Config.of_text_exchanged hword hne hsecret hplace hread,
    String.ofList_toList]

namespace Config

/-- A short text up to its key. -/
def shortStart : List Char :=
  "[supabase]\nurl = \"http://x\"\nanon_key = ".toList

/-- A short text whose key is a reference. -/
def shortText : String :=
  String.ofList (shortStart ++ quoted (reference ['V']) ['\n'])

/-- What the short text says. -/
def shortConfig : Config :=
  ⟨⟨"http://x", "$\x7bV\x7d", none, none, none⟩, .default, none⟩

theorem short_written :
    WrittenAt ["supabase", "anon_key"] shortStart (quoted (reference ['V']) ['\n']) := by
  have htable : Toml.Reader.tableLine.run (shortStart ++ quoted (reference ['V']) ['\n']) =
      some (⟨["supabase"], false⟩,
        "url = \"http://x\"\nanon_key = ".toList ++ quoted (reference ['V']) ['\n']) := by
    decide +kernel
  have hentry : (Toml.Reader.entryLine.run ("url = \"http://x\"\nanon_key = ".toList ++
      quoted (reference ['V']) ['\n'])).map Prod.snd =
        some ("anon_key = ".toList ++ quoted (reference ['V']) ['\n']) := by
    decide +kernel
  have hkey : Toml.Reader.memberStart.run ("anon_key = ".toList ++
      quoted (reference ['V']) ['\n']) =
        some (["anon_key"], [] ++ quoted (reference ['V']) ['\n']) := by
    decide +kernel
  obtain ⟨⟨e, _⟩, hentry, rfl⟩ := Option.map_eq_some_iff.1 hentry
  exact .nextTable htable (.nextEntry hentry (.entry hkey .here))

theorem short_read : ofText shortText = .ok shortConfig := by
  decide +kernel

theorem short_scan :
    Scan shortText.toList (shortStart.map .plain ++ .plain '"' :: .reference ['V'] :: .plain '"' ::
      ['\n'].map .plain) := by
  have hname : Environment.IsName ['V'] := ⟨by decide, by decide⟩
  have hend : Scan (['"', '\n'] ++ []) (['"', '\n'].map .plain ++ []) :=
    .copies (by decide) .done
  have hquote : Scan (['"'] ++ (reference ['V'] ++ ['"', '\n']))
      (['"'].map .plain ++ (.reference ['V'] :: ['"', '\n'].map .plain)) :=
    .copies (by decide) (.refer hname hend)
  rw [shortText, String.toList_ofList]
  exact .copies (by decide +kernel) hquote

/-- Marks of the language are characters like others in a secret. -/
theorem marked_secret_arrives :
    Config.read (.ofEntries [("V", "a#[b]=")]) shortText = .ok (shortConfig.withKey "a#[b]=") := by
  have hset : Environment.ofEntries [("V", "a#[b]=")] (String.ofList ['V']) = some "a#[b]=" := by
    decide +kernel
  have hword : Verbatim (reference ['V']) := by decide
  have hne : reference ['V'] ≠ [] := List.cons_ne_nil _ _
  refine verbatim_secret_arrives short_scan hset (by decide) hword hne ?_ ?_
  · rw [Environment.flat_map_plain, Environment.flat_map_plain]
    exact short_written
  · rw [Environment.flat_map_plain, Environment.flat_map_plain]
    exact short_read

/-- Other secrets do not arrive as they are. A backslash begins an escape, a double quote or a line
end breaks the text, and behind an opening brace that nothing closes, the reference is part of
another one and stays where it is. -/
theorem secrets_altered :
    WrittenAt ["supabase", "anon_key"] shortStart (quoted (reference ['V']) ['\n']) ∧
      ofText shortText = .ok shortConfig ∧
      (¬∀ secret, Config.read (.ofEntries [("V", secret)]) shortText =
        .ok (shortConfig.withKey secret)) ∧
      Config.read (.ofEntries [("V", "a\\\\b")]) shortText = .ok (shortConfig.withKey "a\\b") ∧
      Config.read (.ofEntries [("V", "a\"b")]) shortText =
        .error (unreadable "the text is malformed") ∧
      Config.read (.ofEntries [("V", "a\nb")]) shortText =
        .error (unreadable "the text is malformed") ∧
      Config.read (.ofEntries [("V", "a")]) ("# $\x7b\n" ++ shortText) = .ok shortConfig := by
  have hslash : Config.read (.ofEntries [("V", "a\\\\b")]) shortText =
      .ok (shortConfig.withKey "a\\b") := by
    decide +kernel
  refine ⟨short_written, short_read, fun h => ?_, hslash, ?_, ?_, ?_⟩
  · rw [h "a\\\\b"] at hslash
    have hkey := congrArg (fun c => c.connection.anonKey) (Except.ok.inj hslash)
    exact absurd hkey (by decide)
  all_goals decide +kernel

end Config

end CustomerDedupe
