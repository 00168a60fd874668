import CustomerDedupe.Proofs.Customer.Written
import CustomerDedupe.Proofs.Notification.Follows

/-!
# What is written is read back

A customer and a message are written as rows of their tables. Whoever decodes such a row and takes
the customer or the message from it has what was written, at whatever time and from whatever place
the row is read (`written_read_back`). Customers are compared as amounts are: the price `1500.50`
is the price `1500.5`.
-/

namespace CustomerDedupe

open Calendar (Date Instant FourDigits)
open Number (Decimal)

/-- Two customers agree in everything, and their prices are the same amount. -/
def Customer.Equals (a b : Customer) : Prop :=
  a.dbPrice.map Decimal.value = b.dbPrice.map Decimal.value ∧
    { a with dbPrice := none } = { b with dbPrice := none }

/-- A customer whose price is not a negative zero. -/
def Customer.HasPlainPrice (c : Customer) : Prop :=
  ∀ p, c.dbPrice = some p → p.coefficient = 0 → p.negative = false

/-- The sign of a zero is no part of the amount. -/
theorem Customer.plain_price_equals (c : Customer) : c.plainPrice.Equals c := by
  refine ⟨?_, rfl⟩
  rw [Customer.plainPrice, Option.map_map]
  exact Option.map_congr fun p _ => p.value_unsigned_zero

/-- A price that is not a negative zero has no sign to lose. -/
theorem Customer.plain_price_eq {c : Customer} (h : c.HasPlainPrice) : c.plainPrice = c := by
  have hprice : c.dbPrice.map Decimal.unsignedZero = c.dbPrice := by
    cases hp : c.dbPrice with
    | none => rfl
    | some p => rw [Option.map_some, Decimal.unsigned_zero_eq (h p hp)]
  rw [Customer.plainPrice, hprice]

/-- A customer is read back from its row. -/
theorem CustomerRow.read_back (origin : Json.Origin) {c : Customer} (h : c.Writable) :
    ∃ r, (CustomerRow.schema origin).decode origin (.ofJson c.toJson) = .ok r ∧
      ∀ now, (r.toCustomer now).Equals c ∧ (c.HasPlainPrice → r.toCustomer now = c) := by
  refine ⟨_, CustomerRow.decode_written origin h, fun now => ?_⟩
  rw [CustomerRow.to_customer_of_customer]
  exact ⟨c.plain_price_equals, fun hplain => Customer.plain_price_eq hplain⟩

/-- A message is read back from its row, which is the user's. -/
theorem NotificationRow.read_back (origin : Json.Origin) (moment : Moment) (user : Uuid)
    {i : NotificationItem} {t : Instant} (hid : i.id ≠ .null) (ht : i.timestamp = some t)
    (hyear : FourDigits t.date.year) :
    ∃ r, (NotificationRow.schema origin).decode origin
        (.ofJson (NotificationRow.ofItem moment user i).toJson) = .ok r ∧
      r.userId = user ∧ ∀ now, r.toItem now = i := by
  have hwritable : (NotificationRow.ofItem moment user i).Writable := by
    refine NotificationRow.of_item_writable ?_
    rwa [ht, Option.getD_some]
  have htimed : i.timestamp.isSome = true := by rw [ht, Option.isSome_some]
  exact ⟨_, NotificationRow.decode_to_json origin hwritable, rfl,
    NotificationRow.of_item_shows htimed hid⟩

/-- What is written is read back: a customer in the range of its columns, and a message with an
identifier and a time in a year of four digits. -/
theorem written_read_back (origin : Json.Origin) :
    (∀ c : Customer, c.Writable →
      ∃ r, (CustomerRow.schema origin).decode origin (.ofJson c.toJson) = .ok r ∧
        ∀ now, (r.toCustomer now).Equals c ∧ (c.HasPlainPrice → r.toCustomer now = c)) ∧
    (∀ (moment : Moment) (user : Uuid) (i : NotificationItem) (t : Instant),
      i.id ≠ .null → i.timestamp = some t → FourDigits t.date.year →
      ∃ r, (NotificationRow.schema origin).decode origin
          (.ofJson (NotificationRow.ofItem moment user i).toJson) = .ok r ∧
        r.userId = user ∧ ∀ now, r.toItem now = i) :=
  ⟨fun _ h => CustomerRow.read_back origin h,
    fun moment user _ _ hid ht hyear => NotificationRow.read_back origin moment user hid ht hyear⟩

/-- A customer assigned in a leap second, at a price that is a negative zero. -/
def assignedInLeapSecond : Customer :=
  { Customer.assigned 7
      ⟨Date.newYear 9999, 86399, 1500000000, by decide, by decide, by decide⟩ with
    dbPrice := some ⟨true, 0, 2⟩
    carJoinDate := some (Date.newYear 0)
    notes := some "" }

theorem assigned_in_leap_second_writable : assignedInLeapSecond.Writable where
  id_ge := by decide
  id_le := by decide
  contact_ge := by decide
  contact_le := by decide
  assigned := by decide
  contacted := by decide
  joined := by rintro d ⟨⟩; decide
  price := by rintro p ⟨⟩; decide

/-- A customer assigned in a leap second and a message of the beginning of a year are read back. -/
theorem leap_second_read_back :
    assignedInLeapSecond.Writable ∧ (Uuid.ofNat 1 ≠ .null ∧ FourDigits (Date.newYear 0).year) ∧
      (∃ r, (CustomerRow.schema .text).decode .text (.ofJson assignedInLeapSecond.toJson) =
          .ok r ∧
        ∀ now, (r.toCustomer now).Equals assignedInLeapSecond ∧
          (assignedInLeapSecond.HasPlainPrice → r.toCustomer now = assignedInLeapSecond)) ∧
      ∃ r, (NotificationRow.schema .text).decode .text
          (.ofJson (NotificationRow.ofItem ⟨default, .ofNat 3⟩ (.ofNat 2)
            ⟨.ofNat 1, "Hello", "", some (.midnight (Date.newYear 0)), false, ""⟩).toJson) =
          .ok r ∧
        r.userId = .ofNat 2 ∧
        ∀ now, r.toItem now =
          ⟨.ofNat 1, "Hello", "", some (.midnight (Date.newYear 0)), false, ""⟩ :=
  ⟨assigned_in_leap_second_writable, by decide,
    (written_read_back .text).1 _ assigned_in_leap_second_writable,
    (written_read_back .text).2 _ _ _ _ (by decide) rfl (by decide)⟩

end CustomerDedupe
