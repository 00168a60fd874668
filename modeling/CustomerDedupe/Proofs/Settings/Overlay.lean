import CustomerDedupe.Proofs.Json.Fields
import CustomerDedupe.Settings.Basic

/-!
# Settings from documents that leave some out

A document may leave out any settings, and any fields of the two tables in them. `GivenSettings` are
those that it gives. They are laid over the default settings (`Settings.decode_given`), and a value
that is no truth value or number of its setting makes the document refused
(`Settings.decode_misfit`). A document that gives all settings is decoded to them, as is that which
they are written to (`Settings.partial_documents_overlay`).
-/

namespace CustomerDedupe

open Json (Outline Outlines Origin)

/-- The values of a table of which some may be missing, and those of another for these. -/
def FieldTable.laidOver {α : Type} (t : FieldTable (Option α)) (base : FieldTable α) :
    FieldTable α where
  gender := t.gender.getD base.gender
  address := t.address.getD base.address
  jobTitle := t.jobTitle.getD base.jobTitle
  maritalStatus := t.maritalStatus.getD base.maritalStatus
  proofNumber := t.proofNumber.getD base.proofNumber
  dbPrice := t.dbPrice.getD base.dbPrice
  headquarters := t.headquarters.getD base.headquarters
  insuranceName := t.insuranceName.getD base.insuranceName
  carJoinDate := t.carJoinDate.getD base.carJoinDate
  notes := t.notes.getD base.notes

@[simp] theorem FieldTable.get_laid_over {α : Type} (t : FieldTable (Option α))
    (base : FieldTable α) (f : CompareField) :
    (t.laidOver base).get f = (t.get f).getD (base.get f) := by
  cases f <;> rfl

/-- A complete table is what it is, over any other. -/
theorem FieldTable.map_some_laid_over {α : Type} (t base : FieldTable α) :
    (t.map some).laidOver base = t :=
  ext_get fun f => by rw [get_laid_over, get_map, Option.getD_some]

/-- The settings that a document gives. -/
structure GivenSettings where
  enabled : Option Bool
  days : Option Int
  includeFuzzy : Option Bool
  scoreThreshold : Option Int
  monitorIntervalMinutes : Option Int
  notifyOnSameCount : Option Bool
  toggles : Option (FieldTable (Option Bool))
  weights : Option (FieldTable (Option Nat))

namespace GivenSettings

/-- The settings given, and those of others for the rest. -/
def laidOver (g : GivenSettings) (base : Settings) : Settings where
  enabled := g.enabled.getD base.enabled
  days := g.days.getD base.days
  includeFuzzy := g.includeFuzzy.getD base.includeFuzzy
  scoreThreshold := g.scoreThreshold.getD base.scoreThreshold
  monitorIntervalMinutes := g.monitorIntervalMinutes.getD base.monitorIntervalMinutes
  notifyOnSameCount := g.notifyOnSameCount.getD base.notifyOnSameCount
  toggles := (g.toggles.map fun t => t.laidOver base.toggles).getD base.toggles
  weights := (g.weights.map fun t => t.laidOver base.weights).getD base.weights

/-- All settings. -/
def all (s : Settings) : GivenSettings where
  enabled := some s.enabled
  days := some s.days
  includeFuzzy := some s.includeFuzzy
  scoreThreshold := some s.scoreThreshold
  monitorIntervalMinutes := some s.monitorIntervalMinutes
  notifyOnSameCount := some s.notifyOnSameCount
  toggles := some (s.toggles.map some)
  weights := some (s.weights.map some)

/-- All settings are what they are, over any others. -/
theorem all_laid_over (s base : Settings) : (all s).laidOver base = s := by
  simp only [laidOver, all, Option.map_some, Option.getD_some, FieldTable.map_some_laid_over]

/-- The document gives a table, or leaves it out. -/
inductive TableWritten {α : Type} (write : α → Json) :
    Option Json → Option (FieldTable (Option α)) → Prop where
  | absent : TableWritten write none none
  | present {members : List (String × Json)} {t : FieldTable (Option α)}
      (hnames : (members.map Prod.fst).Nodup)
      (hfields : ∀ f : CompareField, members.lookup f.name = (t.get f).map write) :
      TableWritten write (some (.obj members)) (some t)

/-- An object gives just these settings, possibly among other members. -/
structure WrittenIn (g : GivenSettings) (members : List (String × Json)) : Prop where
  names_nodup : (members.map Prod.fst).Nodup
  enabled : members.lookup "enabled" = g.enabled.map Json.bool
  days : members.lookup "days" = g.days.map Json.int
  includeFuzzy : members.lookup "include_fuzzy" = g.includeFuzzy.map Json.bool
  scoreThreshold : members.lookup "score_threshold" = g.scoreThreshold.map Json.int
  monitorIntervalMinutes :
    members.lookup "monitor_interval_minutes" = g.monitorIntervalMinutes.map Json.int
  notifyOnSameCount : members.lookup "notify_on_same_count" = g.notifyOnSameCount.map Json.bool
  toggles : TableWritten Json.bool (members.lookup "use") g.toggles
  weights : TableWritten Json.nat (members.lookup "weights") g.weights

end GivenSettings

/-- A number of 32 bits with a sign. -/
def IsInt32 (n : Int) : Prop :=
  -2147483648 ≤ n ∧ n ≤ 2147483647

/-- The numbers given fit their types. -/
structure GivenSettings.Fits (g : GivenSettings) : Prop where
  days : ∀ n, g.days = some n → IsInt32 n
  scoreThreshold : ∀ n, g.scoreThreshold = some n → IsInt32 n
  monitorIntervalMinutes : ∀ n, g.monitorIntervalMinutes = some n → IsInt32 n
  weights : ∀ t, g.weights = some t → ∀ f w, t.get f = some w → w ≤ 4294967295

attribute [ext] Settings

namespace Settings

/-! ## Tables -/

section Table

variable {α : Type} {d : Json.Decoder α} {write : α → Json}

theorem table_fields_optional (d : Json.Decoder α) (name : String) (blank : FieldTable α) :
    (Json.Schema.mk name (tableFields d) blank).AllOptional := by
  intro f hf
  obtain ⟨g, -, rfl⟩ := List.mem_map.mp hf
  rfl

/-- The field of a table that has the name of a compared field. -/
theorem find_table_field (d : Json.Decoder α) (f : CompareField) :
    (tableFields d).find? (fun g => g.name == f.name) =
      some (Json.field f.name .optional d fun t a => t.set f a) := by
  have hfind : CompareField.all.find? (fun g => g.name == f.name) = some f := by
    cases f <;> decide
  rw [tableFields, List.find?_map]
  exact congrArg (Option.map _) hfind

theorem table_field_leaves (d : Json.Decoder α) (f : CompareField) :
    ∀ g ∈ tableFields d, g.name ≠ f.name → g.Leaves fun t => t.get f := by
  intro g hg hname
  obtain ⟨other, -, rfl⟩ := List.mem_map.mp hg
  have hother : f ≠ other := fun heq => hname (heq ▸ rfl)
  exact Json.field_leaves fun t a => t.get_set_of_ne a hother

/-- A table whose values can be decoded is laid over the blank one. -/
theorem table_gives {written : Option Json} {given : Option (FieldTable (Option α))}
    (h : GivenSettings.TableWritten write written given)
    (hvalues : ∀ t, given = some t → ∀ f v, t.get f = some v →
      ∀ o, Outlines o (write v) → d o = .ok v)
    (name : String) (blank : FieldTable α) (origin : Origin) :
    Json.Gives ((Json.Schema.mk name (tableFields d) blank).decode origin) written
      (given.map fun t => t.laidOver blank) := by
  cases h with
  | absent => exact .absent
  | @present members t hnames hfields =>
      refine .present fun o ho => ?_
      have hgives (f : CompareField) : Json.Gives d (members.lookup f.name) (t.get f) := by
        rw [hfields f]
        exact Json.gives_written fun v hv => hvalues t rfl f v hv
      have hoptional := table_fields_optional d name blank
      have haccept : ∀ g ∈ tableFields d, ∀ j, (g.name, j) ∈ members → g.Accepts j := by
        intro g hg j hj
        obtain ⟨f, -, rfl⟩ := List.mem_map.mp hg
        exact Json.field_accepts hnames (hgives f) hj
      obtain ⟨decoded, hdecoded⟩ :
          ∃ a, (Json.Schema.mk name (tableFields d) blank).decode origin o = .ok a :=
        Json.Schema.exists_decoded hoptional ho hnames haccept
      rw [hdecoded]
      refine congrArg Except.ok (FieldTable.ext_get fun f => ?_)
      rw [FieldTable.get_laid_over]
      exact Json.Schema.part_eq hoptional ho hnames hdecoded (hgives f) (find_table_field d f)
        (Json.field_sets fun t a => t.get_set f a) (table_field_leaves d f)

end Table

/-! ## Settings -/

theorem schema_optional (origin : Origin) : (schema origin).AllOptional := by
  simp [Json.Schema.AllOptional, schema]

theorem nat32_outlined {o : Outline} {n : Nat} (h : Outlines o (Json.nat n))
    (hn : n ≤ 4294967295) : Json.nat32 o = .ok n := by
  have hint : Outlines o (Json.int n) := h
  rw [Json.nat32, Json.integer_outlined hint (by omega) (by omega)]
  rfl

section Given

variable {g : GivenSettings} {members : List (String × Json)} {o : Outline} {origin : Origin}

theorem flag_gives {name : String} {given : Option Bool}
    (h : members.lookup name = given.map Json.bool) :
    Json.Gives Json.flag (members.lookup name) given := by
  rw [h]
  exact Json.gives_written fun v _ o ho => Json.flag_outlined ho

theorem int32_gives {name : String} {given : Option Int}
    (h : members.lookup name = given.map Json.int) (hfits : ∀ n, given = some n → IsInt32 n) :
    Json.Gives Json.int32 (members.lookup name) given := by
  rw [h]
  exact Json.gives_written fun n hn o ho =>
    Json.integer_outlined ho (hfits n hn).1 (hfits n hn).2 "i32"

/-- The settings given are laid over the default ones. -/
theorem decode_given (hwritten : g.WrittenIn members) (hfits : g.Fits)
    (ho : Outlines o (.obj members)) :
    (schema origin).decode origin o = .ok (g.laidOver default) := by
  have hnames := hwritten.names_nodup
  have henabled := flag_gives hwritten.enabled
  have hdays := int32_gives hwritten.days hfits.days
  have hfuzzy := flag_gives hwritten.includeFuzzy
  have hthreshold := int32_gives hwritten.scoreThreshold hfits.scoreThreshold
  have hinterval := int32_gives hwritten.monitorIntervalMinutes hfits.monitorIntervalMinutes
  have hsame := flag_gives hwritten.notifyOnSameCount
  have htoggles := table_gives hwritten.toggles (fun _ _ _ _ _ _ h => Json.flag_outlined h)
    togglesSchema.name togglesSchema.blank origin
  have hweights := table_gives hwritten.weights
    (fun t ht f w hw _ h => nat32_outlined h (hfits.weights t ht f w hw)) weightsSchema.name
    weightsSchema.blank origin
  obtain ⟨s, hs⟩ : ∃ s, (schema origin).decode origin o = .ok s := by
    refine Json.Schema.exists_decoded (schema_optional origin) ho hnames ?_
    simp only [schema, List.forall_mem_cons]
    exact ⟨fun _ => Json.field_accepts hnames henabled, fun _ => Json.field_accepts hnames hdays,
      fun _ => Json.field_accepts hnames hfuzzy, fun _ => Json.field_accepts hnames hthreshold,
      fun _ => Json.field_accepts hnames hinterval, fun _ => Json.field_accepts hnames hsame,
      fun _ => Json.field_accepts hnames htoggles, fun _ => Json.field_accepts hnames hweights,
      List.forall_mem_nil _⟩
  have hpart {β : Type} {k : String} {get : Settings → β} {d : Json.Decoder β} {given : Option β}
      {f : Json.Field Settings} (hgives : Json.Gives d (members.lookup k) given)
      (hfind : (schema origin).fields.find? (fun f => f.name == k) = some f) (hsets : f.Sets d get)
      (hothers : ∀ f ∈ (schema origin).fields, f.name ≠ k → f.Leaves get) :
      get s = given.getD (get default) :=
    Json.Schema.part_eq (schema_optional origin) ho hnames hs hgives hfind hsets hothers
  rw [hs]
  refine congrArg Except.ok ?_
  apply Settings.ext
  · exact hpart henabled rfl (Json.field_sets fun _ _ => rfl) (by simp [schema, Json.field_leaves])
  · exact hpart hdays rfl (Json.field_sets fun _ _ => rfl) (by simp [schema, Json.field_leaves])
  · exact hpart hfuzzy rfl (Json.field_sets fun _ _ => rfl) (by simp [schema, Json.field_leaves])
  · exact hpart hthreshold rfl (Json.field_sets fun _ _ => rfl)
      (by simp [schema, Json.field_leaves])
  · exact hpart hinterval rfl (Json.field_sets fun _ _ => rfl)
      (by simp [schema, Json.field_leaves])
  · exact hpart hsame rfl (Json.field_sets fun _ _ => rfl) (by simp [schema, Json.field_leaves])
  · exact hpart htoggles rfl (Json.field_sets fun _ _ => rfl)
      (by simp [schema, Json.field_leaves])
  · exact hpart hweights rfl (Json.field_sets fun _ _ => rfl)
      (by simp [schema, Json.field_leaves])

end Given

/-! ## Values that do not fit -/

/-- The names of the settings that are truth values. -/
def flagNames : List String :=
  ["enabled", "include_fuzzy", "notify_on_same_count"]

/-- The names of the settings that are numbers. -/
def numberNames : List String :=
  ["days", "score_threshold", "monitor_interval_minutes"]

/-- One of the members, or of the members of the tables in them, is no truth value or no number of
its type although it should be. -/
inductive Misfit (members : List (String × Json)) : Prop where
  | flag {name : String} {j : Json} (hname : name ∈ flagNames) (hj : (name, j) ∈ members)
      (hne : ∀ b, j ≠ .bool b)
  | number {name : String} {j : Json} (hname : name ∈ numberNames) (hj : (name, j) ∈ members)
      (hne : ∀ n, IsInt32 n → j ≠ Json.int n)
  | toggle {inner : List (String × Json)} {f : CompareField} {j : Json}
      (huse : ("use", Json.obj inner) ∈ members) (hj : (f.name, j) ∈ inner)
      (hne : ∀ b, j ≠ .bool b)
  | weight {inner : List (String × Json)} {f : CompareField} {j : Json}
      (hweights : ("weights", Json.obj inner) ∈ members) (hj : (f.name, j) ∈ inner)
      (hne : ∀ n, n ≤ 4294967295 → j ≠ Json.nat n)

section Misfit

variable {members : List (String × Json)} {o : Outline} {origin : Origin}

theorem find_flag {name : String} (hname : name ∈ flagNames) :
    ∃ set, (schema origin).fields.find? (fun f => f.name == name) =
      some (Json.field name .optional Json.flag set) := by
  simp only [flagNames, List.mem_cons, List.not_mem_nil, or_false] at hname
  rcases hname with rfl | rfl | rfl <;> exact ⟨_, rfl⟩

theorem find_number {name : String} (hname : name ∈ numberNames) :
    ∃ set, (schema origin).fields.find? (fun f => f.name == name) =
      some (Json.field name .optional Json.int32 set) := by
  simp only [numberNames, List.mem_cons, List.not_mem_nil, or_false] at hname
  rcases hname with rfl | rfl | rfl <;> exact ⟨_, rfl⟩

/-- A table is refused with any of its values. -/
theorem table_refused {α : Type} {d : Json.Decoder α} {name : String} {blank : FieldTable α}
    {inner : List (String × Json)} (ho : Outlines o (.obj inner)) {f : CompareField} {j : Json}
    (hj : (f.name, j) ∈ inner) (hrefuses : ∀ o', Outlines o' j → ∀ v, d o' ≠ .ok v) :
    ∃ r, (Json.Schema.mk name (tableFields d) blank).decode origin o = .error r := by
  refine Json.Schema.refused_of_member ho hj (find_table_field d f) fun o' ho' b b' hput => ?_
  obtain ⟨v, hv, -⟩ := Json.field_put_ok hput
  exact hrefuses o' ho' v hv

/-- A number of 32 bits without a sign is all that is decoded to one. -/
theorem eq_nat_of_nat32 {j : Json} (h : Outlines o j) {n : Nat} (hn : Json.nat32 o = .ok n) :
    n ≤ 4294967295 ∧ j = Json.nat n := by
  rw [Json.nat32] at hn
  cases hinteger : Json.integer 0 4294967295 "u32" o with
  | error r =>
      rw [hinteger] at hn
      cases hn
  | ok m =>
      rw [hinteger] at hn
      obtain rfl := Except.ok.inj hn
      obtain ⟨rfl, hlow, hhigh⟩ := Json.eq_int_of_integer h hinteger
      refine ⟨by omega, ?_⟩
      rw [Json.nat, Int.toNat_of_nonneg hlow]
      rfl

/-- A document with a value that does not fit is refused. -/
theorem decode_misfit (h : Misfit members) (ho : Outlines o (.obj members)) :
    ∃ r, (schema origin).decode origin o = .error r := by
  cases h with
  | flag hname hj hne =>
      obtain ⟨set, hfind⟩ := find_flag hname
      refine Json.Schema.refused_of_member ho hj hfind fun o' ho' b b' hput => ?_
      obtain ⟨v, hv, -⟩ := Json.field_put_ok hput
      exact hne v (Json.eq_bool_of_flag ho' hv)
  | number hname hj hne =>
      obtain ⟨set, hfind⟩ := find_number hname
      refine Json.Schema.refused_of_member ho hj hfind fun o' ho' b b' hput => ?_
      obtain ⟨n, hn, -⟩ := Json.field_put_ok hput
      obtain ⟨heq, hbounds⟩ := Json.eq_int_of_integer ho' hn
      exact hne n hbounds heq
  | toggle huse hj hne =>
      refine Json.Schema.refused_of_member ho huse rfl fun o' ho' b b' hput => ?_
      obtain ⟨t, ht, -⟩ := Json.field_put_ok hput
      obtain ⟨r, hr⟩ := table_refused ho' hj fun o'' ho'' v hv =>
        hne v (Json.eq_bool_of_flag ho'' hv)
      cases ht.symm.trans hr
  | weight hweights hj hne =>
      refine Json.Schema.refused_of_member ho hweights rfl fun o' ho' b b' hput => ?_
      obtain ⟨t, ht, -⟩ := Json.field_put_ok hput
      obtain ⟨r, hr⟩ := table_refused ho' hj fun o'' ho'' n hn =>
        hne n (eq_nat_of_nat32 ho'' hn).1 (eq_nat_of_nat32 ho'' hn).2
      cases ht.symm.trans hr

end Misfit

/-! ## Settings as they are written -/

/-- The numbers fit their types. -/
structure Fits (s : Settings) : Prop where
  days : IsInt32 s.days
  scoreThreshold : IsInt32 s.scoreThreshold
  monitorIntervalMinutes : IsInt32 s.monitorIntervalMinutes
  weights : ∀ f, s.weights.get f ≤ 4294967295

/-- A table that is written gives all its values. -/
theorem table_json_written {α : Type} (write : α → Json) (t : FieldTable α) :
    GivenSettings.TableWritten write (some (tableJson write t)) (some (t.map some)) := by
  refine .present (by simp) fun f => ?_
  cases f <;> rfl

/-- Settings are written with all of them given. -/
theorem to_json_written (s : Settings) :
    ∃ members, s.toJson = .obj members ∧ (GivenSettings.all s).WrittenIn members :=
  ⟨_, rfl, {
    names_nodup := by simp
    enabled := rfl
    days := rfl
    includeFuzzy := rfl
    scoreThreshold := rfl
    monitorIntervalMinutes := rfl
    notifyOnSameCount := rfl
    toggles := table_json_written Json.bool s.toggles
    weights := table_json_written Json.nat s.weights }⟩

/-- All settings that fit are given fitting. -/
theorem Fits.all {s : Settings} (h : s.Fits) : (GivenSettings.all s).Fits where
  days _ hn := Option.some.inj hn ▸ h.days
  scoreThreshold _ hn := Option.some.inj hn ▸ h.scoreThreshold
  monitorIntervalMinutes _ hn := Option.some.inj hn ▸ h.monitorIntervalMinutes
  weights t ht f w hw := by
    obtain rfl := Option.some.inj ht
    rw [FieldTable.get_map] at hw
    exact Option.some.inj hw ▸ h.weights f

/-- Settings that fit are decoded as they are written. -/
theorem decode_to_json {s : Settings} (hfits : s.Fits) {o : Outline} (ho : Outlines o s.toJson)
    (origin : Origin) : (schema origin).decode origin o = .ok s := by
  obtain ⟨members, hjson, hwritten⟩ := s.to_json_written
  rw [hjson] at ho
  rw [decode_given hwritten hfits.all ho, GivenSettings.all_laid_over]

/-- A document that gives any of the settings, and any fields of the tables in them, is decoded to
these and the default ones for the rest, whatever else is in it. A document in which a truth value
or a number does not fit is refused. Settings are decoded as they are written. -/
theorem partial_documents_overlay (origin : Origin) (o : Outline) :
    (∀ members (g : GivenSettings), Outlines o (.obj members) → g.WrittenIn members → g.Fits →
      (schema origin).decode origin o = .ok (g.laidOver default)) ∧
    (∀ members, Outlines o (.obj members) → Misfit members →
      ∃ r, (schema origin).decode origin o = .error r) ∧
    ∀ s : Settings, s.Fits → Outlines o s.toJson → (schema origin).decode origin o = .ok s :=
  ⟨fun _ _ ho hwritten hfits => decode_given hwritten hfits ho,
    fun _ ho hmisfit => decode_misfit hmisfit ho,
    fun _ hfits ho => decode_to_json hfits ho origin⟩

/-- Only the threshold and the weight of one field are given, and something unknown. -/
def sparseMembers : List (String × Json) :=
  [("score_threshold", Json.int 70), ("theme", .str "dark"),
    ("weights", .obj [("gender", Json.nat 5), ("shoe_size", Json.nat 1)])]

/-- The settings that these members give. -/
def sparseGiven : GivenSettings where
  enabled := none
  days := none
  includeFuzzy := none
  scoreThreshold := some 70
  monitorIntervalMinutes := none
  notifyOnSameCount := none
  toggles := none
  weights := some { FieldTable.uniform none with gender := some 5 }

theorem sparse_documents :
    (schema .memory).ofJson (.obj sparseMembers) =
        .ok { default with
          scoreThreshold := 70, weights := { defaultWeights with gender := 5 } } ∧
      (∃ r, (schema .memory).ofJson (.obj [("days", .str "30")]) = .error r) ∧
      (∃ r, (schema .memory).ofJson
        (.obj [("weights", .obj [("notes", Json.int (-1))])]) = .error r) ∧
      (schema .memory).ofJson default.toJson = .ok default := by
  have hoverlay (j : Json) := partial_documents_overlay .memory (.ofJson j)
  have hwritten : sparseGiven.WrittenIn sparseMembers := {
    names_nodup := by decide
    enabled := rfl
    days := rfl
    includeFuzzy := rfl
    scoreThreshold := rfl
    monitorIntervalMinutes := rfl
    notifyOnSameCount := rfl
    toggles := .absent
    weights := .present (by decide) fun f => by cases f <;> rfl }
  have hfits : sparseGiven.Fits := {
    days := nofun
    scoreThreshold := fun n hn => by
      obtain rfl := Option.some.inj hn
      exact ⟨by decide, by decide⟩
    monitorIntervalMinutes := nofun
    weights := fun t ht f w hw => by
      obtain rfl := Option.some.inj ht
      cases f
      case gender =>
        obtain rfl := Option.some.inj hw
        decide
      all_goals cases hw }
  have hdefault : default.Fits :=
    ⟨⟨by decide, by decide⟩, ⟨by decide, by decide⟩, ⟨by decide, by decide⟩, fun f => by
      cases f <;> decide⟩
  refine ⟨?_, ?_, ?_, ?_⟩
  · exact (hoverlay _).1 sparseMembers sparseGiven (Json.outlines_of_json _) hwritten hfits
  · exact (hoverlay _).2.1 _ (Json.outlines_of_json _)
      (.number (by decide : "days" ∈ numberNames) List.mem_cons_self fun n _ => nofun)
  · refine (hoverlay _).2.1 _ (Json.outlines_of_json _)
      (.weight (f := .notes) List.mem_cons_self List.mem_cons_self fun n _ hn => ?_)
    have hsame : (-1 : Int) = n := Numeral.int.inj (Json.num.inj hn)
    omega
  · exact (hoverlay _).2.2 default hdefault (Json.outlines_of_json _)

end Settings

end CustomerDedupe
