import CustomerDedupe.Failure
import CustomerDedupe.Text.Blank
import CustomerDedupe.Url.Basic
import CustomerDedupe.Uuid

/-!
# Checks on settings

The checks that settings undergo, each of which refuses a value with the name of its setting
and the reason.
-/

namespace CustomerDedupe.Validation

/-- Refuses a text that is no address of the web. -/
def url [Url.DomainNames] (field value : String) : Except Failure Unit :=
  if value.isEmpty then .error (.invalidSetting field value "URL cannot be empty")
  else
    match Url.read value with
    | .error p => .error (.invalidSetting field value ("Invalid URL format: " ++ p.message))
    | .ok u =>
      if u.scheme = "http".toList ∨ u.scheme = "https".toList then .ok ()
      else
        .error (.invalidSetting field value
          ("Unsupported URL scheme: " ++ String.ofList u.scheme))

/-- Refuses a text that holds nothing but white space. -/
def nonEmpty (field value : String) : Except Failure Unit :=
  if Text.isBlankText value then
    .error (.invalidSetting field value "Value cannot be empty or whitespace-only")
  else .ok ()

/-- Refuses a number outside its bounds. -/
def range (field : String) (value low high : Int) : Except Failure Unit :=
  if value < low ∨ high < value then
    .error (.invalidSetting field (Text.showInt value)
      ("Value must be between " ++ Text.showInt low ++ " and " ++ Text.showInt high))
  else .ok ()

/-- Refuses a text that is no identifier, white space around it apart. -/
def uuid (field value : String) : Except Failure Unit :=
  match Uuid.read (Text.trimChars value.toList) with
  | .ok _ => .ok ()
  | .error p => .error (.invalidSetting field value ("Not a valid UUID: " ++ p.message))

theorem range_eq_ok_iff {field : String} {value low high : Int} :
    range field value low high = .ok () ↔ low ≤ value ∧ value ≤ high := by
  unfold range
  split
  · simp; omega
  · simp; omega

end CustomerDedupe.Validation
