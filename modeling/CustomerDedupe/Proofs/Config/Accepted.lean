import CustomerDedupe.CommandLine.Basic
import CustomerDedupe.Monitor.Loop
import CustomerDedupe.Proofs.Duplicates.ExactGroups
import CustomerDedupe.Proofs.Number.Total
import CustomerDedupe.Proofs.Settings.Accepted

/-!
# Configurations that are accepted

What is asked of a configuration, in the order in which it is checked (`Config.requirements`). A
configuration is accepted exactly if it meets every requirement; otherwise the first one that it
does not meet is named. Nothing in an accepted configuration is understood differently where it
is used: `accepted_config_taken_as_given` says so of the user, of the window and the threshold of
a scan, of the monitor's rhythm and of the weights.
-/

namespace CustomerDedupe

/-- What is asked of a setting. -/
structure Requirement where
  setting : String
  holds : Prop

namespace Requirement

/-- A check lets a setting pass that meets a requirement, and names one that does not. -/
def TestedBy (r : Requirement) (check : Except Failure Unit) : Prop :=
  (r.holds → check = .ok ()) ∧
    (¬r.holds → ∃ value reason, check = .error (.invalidSetting r.setting value reason))

/-- A check passes if all requirements are met, and otherwise names the first that is not. -/
def TestedInOrder (rs : List Requirement) (check : Except Failure Unit) : Prop :=
  ((∀ r ∈ rs, r.holds) → check = .ok ()) ∧
    ∀ before r after, rs = before ++ r :: after → (∀ q ∈ before, q.holds) → ¬r.holds →
      ∃ value reason, check = .error (.invalidSetting r.setting value reason)

theorem tested_nil : TestedInOrder [] (.ok ()) := by
  refine ⟨fun _ => rfl, fun before r after h => ?_⟩
  simp at h

/-- One more requirement is tested before the others. -/
theorem TestedBy.then {r : Requirement} {rs : List Requirement} {check : Except Failure Unit}
    {next : Unit → Except Failure Unit} (h : r.TestedBy check)
    (hnext : TestedInOrder rs (next ())) : TestedInOrder (r :: rs) (check >>= next) := by
  constructor
  · intro hall
    rw [h.1 (hall r List.mem_cons_self)]
    exact hnext.1 fun q hq => hall q (List.mem_cons_of_mem r hq)
  · intro before q after heq hbefore hq
    cases before with
    | nil =>
        obtain ⟨rfl, rfl⟩ := List.cons.inj heq
        obtain ⟨value, reason, herror⟩ := h.2 hq
        rw [herror]
        exact ⟨value, reason, rfl⟩
    | cons first before =>
        obtain ⟨rfl, rfl⟩ := List.cons.inj heq
        rw [h.1 (hbefore r List.mem_cons_self)]
        exact hnext.2 before q after rfl (fun p hp => hbefore p (List.mem_cons_of_mem r hp)) hq

/-- The requirements of a family are tested one after another. -/
theorem tested_family {α : Type} {r : α → Requirement} {check : α → Except Failure Unit}
    (h : ∀ a, (r a).TestedBy (check a)) (items : List α) :
    TestedInOrder (items.map r) (items.forM check) := by
  induction items with
  | nil => exact tested_nil
  | cons a items ih => exact (h a).then ih

/-- A check that tests requirements in order passes exactly if all are met. -/
theorem TestedInOrder.passes_iff {rs : List Requirement} {check : Except Failure Unit}
    (h : TestedInOrder rs check) : check = .ok () ↔ ∀ r ∈ rs, r.holds := by
  refine ⟨fun hok => ?_, h.1⟩
  induction rs generalizing check with
  | nil => exact nofun
  | cons r rs ih =>
      have hr : r.holds := by
        refine Classical.byContradiction fun hnot => ?_
        obtain ⟨value, reason, herror⟩ := h.2 [] r rs rfl nofun hnot
        rw [hok] at herror
        cases herror
      have htail : TestedInOrder rs check := by
        refine ⟨fun hall => h.1 (List.forall_mem_cons.mpr ⟨hr, hall⟩), ?_⟩
        intro before q after heq hbefore hq
        exact h.2 (r :: before) q after (by rw [heq, List.cons_append])
          (List.forall_mem_cons.mpr ⟨hr, hbefore⟩) hq
      exact List.forall_mem_cons.mpr ⟨hr, ih htail hok⟩

end Requirement

/-! ## The checks -/

/-- Is an address of the web. -/
def IsWebAddress (s : String) : Prop :=
  ∃ u, Url.read s = .ok u ∧ (u.scheme = "http".toList ∨ u.scheme = "https".toList)

/-- Is an identifier, white space around it apart. -/
def IsIdentifier (s : String) : Prop :=
  ∃ u, Uuid.read (Text.trimChars s.toList) = .ok u

namespace Validation

theorem url_tests (setting value : String) :
    Requirement.TestedBy ⟨setting, IsWebAddress value⟩ (url setting value) := by
  unfold url
  by_cases hempty : value.isEmpty = true
  · rw [if_pos hempty]
    refine ⟨?_, fun _ => ⟨_, _, rfl⟩⟩
    rintro ⟨u, hread, -⟩
    rw [String.isEmpty_iff.mp hempty] at hread
    cases hread
  · rw [if_neg hempty]
    cases hread : Url.read value with
    | error p =>
        refine ⟨?_, fun _ => ⟨_, _, rfl⟩⟩
        rintro ⟨u, hread', -⟩
        rw [hread] at hread'
        cases hread'
    | ok u =>
        dsimp only
        by_cases hscheme : u.scheme = "http".toList ∨ u.scheme = "https".toList
        · rw [if_pos hscheme]
          exact ⟨fun _ => rfl, fun hnot => absurd ⟨u, hread, hscheme⟩ hnot⟩
        · rw [if_neg hscheme]
          refine ⟨?_, fun _ => ⟨_, _, rfl⟩⟩
          rintro ⟨u', hread', hscheme'⟩
          rw [hread] at hread'
          cases hread'
          exact absurd hscheme' hscheme

theorem non_empty_tests (setting value : String) :
    Requirement.TestedBy ⟨setting, Text.isBlankText value = false⟩ (nonEmpty setting value) := by
  unfold nonEmpty
  cases Text.isBlankText value with
  | true => exact ⟨nofun, fun _ => ⟨_, _, rfl⟩⟩
  | false => exact ⟨fun _ => rfl, fun hnot => absurd rfl hnot⟩

theorem range_tests (setting : String) (value low high : Int) :
    Requirement.TestedBy ⟨setting, low ≤ value ∧ value ≤ high⟩
      (range setting value low high) := by
  refine ⟨range_eq_ok_iff.mpr, fun hnot => ?_⟩
  have hout : value < low ∨ high < value := by
    dsimp only at hnot
    omega
  rw [range, if_pos hout]
  exact ⟨_, _, rfl⟩

theorem uuid_tests (setting value : String) :
    Requirement.TestedBy ⟨setting, IsIdentifier value⟩ (uuid setting value) := by
  unfold uuid
  cases hread : Uuid.read (Text.trimChars value.toList) with
  | ok u => exact ⟨fun _ => rfl, fun hnot => absurd ⟨u, hread⟩ hnot⟩
  | error p =>
      refine ⟨?_, fun _ => ⟨_, _, rfl⟩⟩
      rintro ⟨u, hread'⟩
      rw [hread] at hread'
      cases hread'

end Validation

namespace Requirement

/-- A check of a setting that may be missing. -/
def ifGiven {α : Type} (check : α → Except Failure Unit) : Option α → Except Failure Unit
  | some a => check a
  | none => .ok ()

/-- A setting that may be missing is tested if it is there. -/
theorem tested_if_given {α : Type} {setting : String} {holds : α → Prop}
    {check : α → Except Failure Unit} (h : ∀ a, TestedBy ⟨setting, holds a⟩ (check a))
    (o : Option α) : TestedBy ⟨setting, ∀ a, o = some a → holds a⟩ (ifGiven check o) := by
  cases o with
  | none => exact ⟨fun _ => rfl, fun hnot => absurd nofun hnot⟩
  | some a =>
      refine ⟨fun hall => (h a).1 (hall a rfl), fun hnot => (h a).2 fun ha => hnot ?_⟩
      rintro _ ⟨⟩
      exact ha

/-- Requirements that say the same are tested alike. -/
theorem TestedBy.congr {setting : String} {p q : Prop} {check : Except Failure Unit} (h : p ↔ q)
    (hp : TestedBy ⟨setting, p⟩ check) : TestedBy ⟨setting, q⟩ check :=
  ⟨fun hq => hp.1 (h.mpr hq), fun hq => hp.2 fun hp' => hq (h.mp hp')⟩

end Requirement

namespace Settings

/-- What is asked of settings, in the order in which it is checked. -/
def requirements (s : Settings) : List Requirement :=
  ⟨"dedupe.days", 1 ≤ s.days ∧ s.days ≤ 365⟩ ::
  ⟨"dedupe.score_threshold", 0 ≤ s.scoreThreshold ∧ s.scoreThreshold ≤ 100⟩ ::
  ⟨"dedupe.monitor_interval_minutes", 1 ≤ s.monitorIntervalMinutes⟩ ::
  CompareField.all.map fun f => ⟨"dedupe.weights." ++ f.name, s.weights.get f ≤ 10⟩

/-- Whether the rhythm of the monitor is a number of 32 bits, as every rhythm that is read. -/
def HasShortInterval (s : Settings) : Prop :=
  s.monitorIntervalMinutes ≤ 2147483647

theorem validate_tests {s : Settings} (h : s.HasShortInterval) :
    Requirement.TestedInOrder s.requirements s.validate := by
  have hinterval := Validation.range_tests "dedupe.monitor_interval_minutes"
    s.monitorIntervalMinutes 1 2147483647
  have hweight (f : CompareField) := Validation.range_tests ("dedupe.weights." ++ f.name)
    (s.weights.get f) 0 10
  refine (Validation.range_tests _ _ _ _).then ?_
  refine (Validation.range_tests _ _ _ _).then ?_
  refine (hinterval.congr ⟨fun hm => hm.1, fun hm => ⟨hm, h⟩⟩).then ?_
  exact Requirement.tested_family (fun f => (hweight f).congr (by omega)) CompareField.all

end Settings

namespace Config

/-- What is asked of a configuration, in the order in which it is checked. -/
def requirements (c : Config) : List Requirement :=
  ⟨"supabase.url", IsWebAddress c.connection.url⟩ ::
  ⟨"supabase.anon_key", Text.isBlankText c.connection.anonKey = false⟩ ::
  ⟨"supabase.user_id", ∀ u, c.connection.userId = some u →
    Text.isBlankText u = true ∨ IsIdentifier u⟩ ::
  ⟨"supabase.timeout_seconds", ∀ t, c.connection.timeoutSeconds = some t → 1 ≤ t ∧ t ≤ 600⟩ ::
  ⟨"logging.format", ∀ f, c.logFormat = some f → f = "compact" ∨ f = "json"⟩ ::
  c.settings.requirements

/-- The check of a user that is given. -/
def checkUser (u : String) : Except Failure Unit :=
  if Text.isBlankText u then .ok () else Validation.uuid "supabase.user_id" u

/-- The check of a log's form that is given. -/
def checkFormat (f : String) : Except Failure Unit :=
  if Logging.formats.contains f then .ok ()
  else .error (.invalidSetting "logging.format" f
    ("Valid formats: " ++ ", ".intercalate Logging.formats))

/-- The checks follow one another. -/
theorem validate_eq (c : Config) :
    c.validate =
      (Validation.url "supabase.url" c.connection.url >>= fun _ =>
        Validation.nonEmpty "supabase.anon_key" c.connection.anonKey >>= fun _ =>
        Requirement.ifGiven checkUser c.connection.userId >>= fun _ =>
        Requirement.ifGiven (fun t : Nat => Validation.range "supabase.timeout_seconds" t 1 600)
          c.connection.timeoutSeconds >>= fun _ =>
        Requirement.ifGiven checkFormat c.logFormat >>= fun _ =>
        c.settings.validate) := by
  have huser (u : String) (next : Except Failure Unit) :
      (if Text.isBlankText u then next
        else Validation.uuid "supabase.user_id" u >>= fun _ => next) =
      (checkUser u >>= fun _ => next) := by
    unfold checkUser
    split <;> rfl
  have hformat (f : String) (next : Except Failure Unit) :
      (if Logging.formats.contains f then next
        else throw (.invalidSetting "logging.format" f
          ("Valid formats: " ++ ", ".intercalate Logging.formats)) >>= fun (_ : Unit) => next) =
      (checkFormat f >>= fun _ => next) := by
    unfold checkFormat
    split <;> rfl
  refine bind_congr fun _ => bind_congr fun _ => ?_
  cases c.connection.userId <;> cases c.connection.timeoutSeconds <;> cases c.logFormat <;>
    simp only [huser, hformat] <;> rfl

theorem user_tests (u : String) :
    Requirement.TestedBy ⟨"supabase.user_id", Text.isBlankText u = true ∨ IsIdentifier u⟩
      (checkUser u) := by
  unfold checkUser
  by_cases hblank : Text.isBlankText u = true
  · rw [if_pos hblank]
    exact ⟨fun _ => rfl, fun hnot => absurd (.inl hblank) hnot⟩
  · rw [if_neg hblank]
    exact (Validation.uuid_tests "supabase.user_id" u).congr
      ⟨.inr, fun h => h.resolve_left hblank⟩

theorem format_tests (f : String) :
    Requirement.TestedBy ⟨"logging.format", f = "compact" ∨ f = "json"⟩ (checkFormat f) := by
  have hcontains : Logging.formats.contains f = true ↔ f = "compact" ∨ f = "json" := by
    simp [Logging.formats]
  unfold checkFormat
  by_cases hformat : Logging.formats.contains f = true
  · rw [if_pos hformat]
    exact ⟨fun _ => rfl, fun hnot => absurd (hcontains.mp hformat) hnot⟩
  · rw [if_neg hformat]
    exact ⟨fun h => absurd (hcontains.mpr h) hformat, fun _ => ⟨_, _, rfl⟩⟩

/-- A configuration is tested in the order of its requirements. -/
theorem validate_tests {c : Config} (h : c.settings.HasShortInterval) :
    Requirement.TestedInOrder c.requirements c.validate := by
  have htimeout (t : Nat) := (Validation.range_tests "supabase.timeout_seconds" t 1 600).congr
    (show (1 : Int) ≤ t ∧ (t : Int) ≤ 600 ↔ 1 ≤ t ∧ t ≤ 600 by omega)
  rw [validate_eq]
  refine (Validation.url_tests _ _).then ?_
  refine (Validation.non_empty_tests _ _).then ?_
  refine (Requirement.tested_if_given user_tests _).then ?_
  refine (Requirement.tested_if_given htimeout _).then ?_
  refine (Requirement.tested_if_given format_tests _).then ?_
  exact Settings.validate_tests h

/-- The settings of an accepted configuration are accepted. -/
theorem settings_accepted {c : Config} (h : c.validate = .ok ()) :
    c.settings.validate = .ok () := by
  rw [validate_eq] at h
  simp only [check_bind_eq_ok_iff] at h
  exact h.2.2.2.2.2

/-! ## Where the settings are used -/

/-- The user of an accepted configuration is known, unless the identifier is blank or missing. -/
theorem user_of_accepted {c : Config} (h : ∀ r ∈ c.requirements, r.holds) :
    ∃ user, c.user = .ok user ∧
      (user.isSome = true ↔ ∃ u, c.connection.userId = some u ∧ Text.isBlankText u = false) := by
  have huser : ∀ u, c.connection.userId = some u → Text.isBlankText u = true ∨ IsIdentifier u :=
    h ⟨"supabase.user_id", _⟩ (by simp [requirements])
  unfold user
  cases hu : c.connection.userId with
  | none => exact ⟨none, rfl, by simp⟩
  | some u =>
      cases hchars : Text.trimChars u.toList with
      | nil =>
          have hblank : Text.isBlankText u = true := Text.trim_chars_eq_nil_iff.mp hchars
          refine ⟨none, by simp only [Option.map_some, hchars], ?_⟩
          simp [hblank]
      | cons first rest =>
          have hnot : Text.isBlankText u = false := by
            rw [← Bool.not_eq_true]
            intro hblank
            rw [Text.trim_chars_eq_nil_iff.mpr hblank] at hchars
            cases hchars
          obtain hblank | ⟨id, hid⟩ := huser u hu
          · rw [hnot] at hblank
            cases hblank
          rw [hchars] at hid
          refine ⟨some id, by simp only [Option.map_some, hchars, hid], ?_⟩
          simp [hnot]

end Config

namespace Settings

/-- A scan of accepted settings looks at as many days as they say, and takes their threshold. -/
theorem scan_takes {s : Settings} (hdays : 1 ≤ s.days ∧ s.days ≤ 365)
    (hthreshold : 0 ≤ s.scoreThreshold ∧ s.scoreThreshold ≤ 100) :
    (Duplicates.window s.days : Int) = s.days ∧
      (Duplicates.thresholdTenths s : Int) = 10 * s.scoreThreshold := by
  have hwindow : Duplicates.clamp Duplicates.minWindow Duplicates.maxWindow s.days = s.days := by
    rw [Duplicates.clamp_eq (by decide)]
    exact (congrArg _ (Int.min_eq_left hdays.2)).trans (Int.max_eq_right hdays.1)
  have hclamp : Duplicates.clamp 0 100 s.scoreThreshold = s.scoreThreshold := by
    rw [Duplicates.clamp_eq (by decide), Int.min_eq_left hthreshold.2,
      Int.max_eq_right hthreshold.1]
  rw [Duplicates.window, Duplicates.thresholdTenths, hwindow, hclamp]
  omega

/-- The monitor of accepted settings waits as many minutes as they say. -/
theorem interval_takes {s : Settings} (h : 1 ≤ s.monitorIntervalMinutes) :
    (Monitor.interval s : Int) = s.monitorIntervalMinutes * 60 := by
  rw [Monitor.interval]
  omega

/-- Ten fields of a weight of at most ten weigh at most a hundred. -/
theorem active_weight_le_hundred {s : Settings} (h : ∀ f, s.weights.get f ≤ 10) :
    Duplicates.totalWeight s.activeFields ≤ 100 := by
  have hweights : ∀ n ∈ s.activeFields.map Prod.snd, n ≤ 10 := by
    intro n hn
    obtain ⟨f, hf, rfl⟩ := List.mem_map.mp hn
    obtain ⟨g, -, rfl⟩ := List.mem_map.mp hf
    exact h g
  have htotal := Number.total_le_mul_length hweights
  have hcount := length_active_fields_le s
  rw [List.length_map] at htotal
  rw [Duplicates.totalWeight]
  omega

end Settings

/-- The command line does not touch the rhythm of the monitor. -/
theorem Invocation.overrides_keep_interval (inv : Invocation) (s : Settings) :
    (inv.applyOverrides s).monitorIntervalMinutes = s.monitorIntervalMinutes := by
  unfold Invocation.applyOverrides
  generalize inv.overrides s = overrides
  induction overrides generalizing s with
  | nil => rfl
  | cons o overrides ih =>
      rw [List.foldl_cons, ih]
      cases o <;> rfl

/-- A configuration, with the overrides of a command line, is accepted exactly if it meets all
requirements, and otherwise the first that it does not meet is named. Of one that is accepted, the
user is known unless the identifier is blank or missing, a scan takes the window and the threshold
and the monitor the rhythm as they are given, and the weights of the active fields add up to at
most a hundred. -/
theorem accepted_config_taken_as_given (inv : Invocation) (c : Config)
    (hinterval : c.settings.HasShortInterval) :
    let d : Config := { c with settings := inv.applyOverrides c.settings }
    (d.validate = .ok () ↔ ∀ r ∈ d.requirements, r.holds) ∧
      (∀ before r after, d.requirements = before ++ r :: after → (∀ q ∈ before, q.holds) →
        ¬r.holds →
        ∃ value reason, d.validate = .error (.invalidSetting r.setting value reason)) ∧
      (d.validate = .ok () →
        (∃ user, d.user = .ok user ∧
          (user.isSome = true ↔
            ∃ u, d.connection.userId = some u ∧ Text.isBlankText u = false)) ∧
        (Duplicates.window d.settings.days : Int) = d.settings.days ∧
        (Duplicates.thresholdTenths d.settings : Int) = 10 * d.settings.scoreThreshold ∧
        (Monitor.interval d.settings : Int) = d.settings.monitorIntervalMinutes * 60 ∧
        Duplicates.totalWeight d.settings.activeFields ≤ 100) := by
  intro d
  have hshort : d.settings.HasShortInterval := by
    rw [Settings.HasShortInterval, inv.overrides_keep_interval]
    exact hinterval
  have htests := Config.validate_tests hshort
  refine ⟨htests.passes_iff, htests.2, fun hok => ?_⟩
  obtain ⟨hdays, hthreshold, hminutes, hweights⟩ := Settings.validate_eq_ok_iff.mp
    (Config.settings_accepted hok)
  obtain ⟨hwindow, htenths⟩ := Settings.scan_takes hdays hthreshold
  exact ⟨Config.user_of_accepted (htests.passes_iff.mp hok), hwindow, htenths,
    Settings.interval_takes hminutes.1, Settings.active_weight_le_hundred hweights⟩

/-- A configuration of a user whose identifier stands between blanks. -/
def localConfig : Config where
  connection := ⟨"http://h", "key", none, some " 6f9619ff-8b86-d011-b42d-00cf4fc964ff ", some 600⟩
  settings := { Settings.default with weights := .uniform 10, toggles := .uniform true }
  logging := some ⟨none, some "json"⟩

/-- A scan of 365 days is accepted and looks at 365 days; one of none at all is refused. -/
theorem local_config_taken_as_given :
    let scan (days : Int) : Invocation := ⟨{ Options.none with days := some days }, .scan⟩
    let for' (days : Int) : Config :=
      { localConfig with settings := (scan days).applyOverrides localConfig.settings }
    localConfig.settings.HasShortInterval ∧
      (for' 365).validate = .ok () ∧ (Duplicates.window (for' 365).settings.days : Int) = 365 ∧
      ∃ value reason,
        (for' 0).validate = .error (.invalidSetting "dedupe.days" value reason) := by
  intro scan for'
  have hinterval : localConfig.settings.HasShortInterval := by
    show (10 : Int) ≤ 2147483647
    decide
  have hok : (for' 365).validate = .ok () := by decide +kernel
  obtain ⟨hiff, -, hused⟩ := accepted_config_taken_as_given (scan 365) localConfig hinterval
  obtain ⟨-, hfirst, -⟩ := accepted_config_taken_as_given (scan 0) localConfig hinterval
  -- before the days, the same is asked of both configurations
  have hbefore : ∀ q ∈ (for' 0).requirements.take 5, q.holds := fun q hq =>
    hiff.mp hok q (List.mem_of_mem_take (i := 5) hq)
  have hdays : ¬(1 ≤ (0 : Int) ∧ (0 : Int) ≤ 365) := by decide
  exact ⟨hinterval, hok, (hused hok).2.1, hfirst _ ⟨"dedupe.days", _⟩ _ rfl hbefore hdays⟩

end CustomerDedupe
