import CustomerDedupe.Proofs.Settings.Subscribers

/-!
# Switches and weights of fields

Every change of a field gives it a switch and a weight. `Shared.give_field` says what one change
does to shared settings. After any number of them every field has what it was last given, and
nobody has been told of anything (`SettingsHub.field_changes_last_wins`).
-/

namespace CustomerDedupe

namespace CompareField

theorem all_nodup : all.Nodup := by
  decide

end CompareField

namespace Settings

/-- The active fields stand in scoring order. -/
theorem active_fields_sublist (s : Settings) :
    (s.activeFields.map Prod.fst).Sublist CompareField.all := by
  have hfields : s.activeFields.map Prod.fst = CompareField.all.filter s.isActive := by
    rw [activeFields, List.map_map]
    exact List.map_id' _
  rw [hfields]
  exact List.filter_sublist

/-- The switch and the weight of a field. -/
def ofField (s : Settings) (f : CompareField) : Bool × Nat :=
  (s.toggles.get f, s.weights.get f)

/-- A field is active with its weight exactly if it is switched on and the weight is positive. -/
theorem mem_active_fields {s : Settings} {f : CompareField} {weight : Nat} :
    (f, weight) ∈ s.activeFields ↔ s.ofField f = (true, weight) ∧ 0 < weight := by
  simp only [activeFields, List.mem_map, List.mem_filter, isActive, Bool.and_eq_true,
    decide_eq_true_eq]
  constructor
  · rintro ⟨g, ⟨-, hon, hpos⟩, heq⟩
    obtain ⟨rfl, rfl⟩ := Prod.mk.inj heq
    exact ⟨Prod.ext hon rfl, hpos⟩
  · rintro ⟨hfield, hpos⟩
    obtain ⟨hon, rfl⟩ := Prod.mk.inj hfield
    exact ⟨f, ⟨f.mem_all, hon, hpos⟩, rfl⟩

/-- A field that is given a switch and a weight has them, and all other fields have theirs. -/
theorem of_field_set_field (s : Settings) (f g : CompareField) (enabled : Bool) (weight : Nat) :
    (s.setField f enabled weight).ofField g =
      if f = g then (enabled, weight) else s.ofField g := by
  unfold ofField setField
  by_cases hf : f = g
  · rw [if_pos hf, ← hf, FieldTable.get_set, FieldTable.get_set]
  · rw [if_neg hf, FieldTable.get_set_of_ne _ _ (Ne.symm hf),
      FieldTable.get_set_of_ne _ _ (Ne.symm hf)]

/-- Giving a field its switch and its weight leaves what the monitor reacts to. -/
theorem monitor_settings_set_field (s : Settings) (f : CompareField) (enabled : Bool)
    (weight : Nat) : (s.setField f enabled weight).monitorSettings = s.monitorSettings :=
  rfl

end Settings

/-- A change of a field: whether it is switched on, and its weight. -/
structure FieldChange where
  field : CompareField
  enabled : Bool
  weight : Nat
  deriving DecidableEq, Repr

namespace FieldChange

/-- What a field was given by the last of its changes, or has had from the beginning. -/
def lastGiven (initial : Settings) (changes : List FieldChange) (f : CompareField) : Bool × Nat :=
  match changes.reverse.find? fun c => c.field = f with
  | some c => (c.enabled, c.weight)
  | none => initial.ofField f

/-- One more change is the last of its field and of no other. -/
theorem last_given_snoc (initial : Settings) (changes : List FieldChange) (c : FieldChange)
    (f : CompareField) :
    lastGiven initial (changes ++ [c]) f =
      if c.field = f then (c.enabled, c.weight) else lastGiven initial changes f := by
  unfold lastGiven
  rw [List.reverse_append, List.reverse_singleton, List.singleton_append]
  by_cases hf : c.field = f
  · rw [List.find?_cons_of_pos (by simpa using hf), if_pos hf]
  · rw [List.find?_cons_of_neg (by simpa using hf), if_neg hf]

end FieldChange

namespace SettingsHub

/-- A field is given its settings in shared settings. -/
def Shared.giveField (shared : Shared) (c : FieldChange) : Shared :=
  shared.after (.setField c.field c.enabled c.weight)

/-- Giving a field its switch and its weight is no news to anybody. -/
theorem update_field_answer (hub : SettingsHub) (c : FieldChange) :
    (hub.update fun s => s.setField c.field c.enabled c.weight).1 = false := by
  rw [Bool.eq_false_iff, ne_eq, update_answer, not_not]
  exact Settings.monitor_settings_set_field _ _ _ _

/-- What one change of a field does: the current settings have it, and nobody is told. -/
theorem Shared.give_field (shared : Shared) (c : FieldChange) :
    shared.giveField c =
      ⟨⟨shared.hub.current.setField c.field c.enabled c.weight, shared.hub.version⟩,
        shared.subscribers⟩ := by
  have hcurrent := update_current shared.hub fun s => s.setField c.field c.enabled c.weight
  have hversion := update_version shared.hub fun s => s.setField c.field c.enabled c.weight
  rw [if_pos (Settings.monitor_settings_set_field _ _ _ _)] at hversion
  rw [← hcurrent, ← hversion]
  rfl

/-- What becomes of shared settings by changes of fields: every field has what it was last given,
the monitor has nothing to react to, and nobody is told of anything. -/
structure FieldsGiven (before : Shared) (changes : List FieldChange) (after : Shared) : Prop where
  fields : ∀ f, after.hub.current.ofField f = FieldChange.lastGiven before.hub.current changes f
  monitor : after.hub.current.monitorSettings = before.hub.current.monitorSettings
  version : after.hub.version = before.hub.version
  subscribers : after.subscribers = before.subscribers

/-- One more change. -/
theorem FieldsGiven.snoc {before after : Shared} {changes : List FieldChange}
    (h : FieldsGiven before changes after) (c : FieldChange) :
    FieldsGiven before (changes ++ [c]) (after.giveField c) := by
  rw [after.give_field]
  refine ⟨fun f => ?_, ?_, h.version, h.subscribers⟩
  · rw [FieldChange.last_given_snoc, ← h.fields f]
    exact Settings.of_field_set_field _ _ _ _ _
  · exact (Settings.monitor_settings_set_field _ _ _ _).trans h.monitor

/-- All changes, one after another. -/
theorem fields_given (before : Shared) (changes : List FieldChange) :
    FieldsGiven before changes (changes.foldl Shared.giveField before) := by
  induction changes using List.reverseRecOn with
  | nil => exact ⟨fun _ => rfl, rfl, rfl, rfl⟩
  | append_singleton changes c ih =>
      rw [List.foldl_concat]
      exact ih.snoc c

/-- Whatever fields are given their switches and weights in whatever order, every field has what it
was last given, or what it had from the beginning. The active fields are those then switched on
with a positive weight, in scoring order, each once and with its weight. What the monitor reacts to
is unchanged, no call tells that subscribers are notified, and none of them has anything new. -/
theorem field_changes_last_wins (before : Shared) (changes : List FieldChange) :
    let after := changes.foldl Shared.giveField before
    let given := FieldChange.lastGiven before.hub.current changes
    (∀ f, after.hub.current.toggles.get f = (given f).1 ∧
      after.hub.current.weights.get f = (given f).2) ∧
    (after.hub.current.activeFields.map Prod.fst).Sublist CompareField.all ∧
    (after.hub.current.activeFields.map Prod.fst).Nodup ∧
    (∀ f weight, (f, weight) ∈ after.hub.current.activeFields ↔
      given f = (true, weight) ∧ 0 < weight) ∧
    after.hub.current.monitorSettings = before.hub.current.monitorSettings ∧
    (∀ c : FieldChange,
      (after.hub.update fun s => s.setField c.field c.enabled c.weight).1 = false) ∧
    after.subscribers = before.subscribers ∧
    ∀ sub : Subscriber, sub.hasChanged after.hub = sub.hasChanged before.hub := by
  intro after given
  have h : FieldsGiven before changes after := fields_given before changes
  have hordered := after.hub.current.active_fields_sublist
  refine ⟨fun f => Prod.mk.inj (h.fields f), hordered, CompareField.all_nodup.sublist hordered,
    fun f weight => ?_, h.monitor, update_field_answer after.hub, h.subscribers, fun sub => ?_⟩
  · rw [Settings.mem_active_fields, h.fields f]
  · rw [Subscriber.hasChanged, h.version, Subscriber.hasChanged]

end SettingsHub

end CustomerDedupe
