/-!
# Compared fields

The ten descriptive fields that may take part in scoring, and a table that gives each of them a
value. `get_set` and `get_set_of_ne` say that setting an entry changes this entry and no other.
-/

namespace CustomerDedupe

/-- A field that may be compared. -/
inductive CompareField where
  | gender
  | address
  | jobTitle
  | maritalStatus
  | proofNumber
  | dbPrice
  | headquarters
  | insuranceName
  | carJoinDate
  | notes
  deriving DecidableEq, Repr

namespace CompareField

/-- The fields in scoring order. -/
def all : List CompareField :=
  [.gender, .address, .jobTitle, .maritalStatus, .proofNumber, .dbPrice, .headquarters,
    .insuranceName, .carJoinDate, .notes]

/-- The name of a field in settings. -/
def name : CompareField → String
  | .gender => "gender"
  | .address => "address"
  | .jobTitle => "job_title"
  | .maritalStatus => "marital_status"
  | .proofNumber => "proof_number"
  | .dbPrice => "db_price"
  | .headquarters => "headquarters"
  | .insuranceName => "insurance_name"
  | .carJoinDate => "car_join_date"
  | .notes => "notes"

/-- The field of a name. -/
def ofName? (s : String) : Option CompareField :=
  all.find? fun f => f.name == s

theorem mem_all (f : CompareField) : f ∈ all := by
  cases f <;> decide

end CompareField

/-- A value for every field. -/
structure FieldTable (α : Type) where
  gender : α
  address : α
  jobTitle : α
  maritalStatus : α
  proofNumber : α
  dbPrice : α
  headquarters : α
  insuranceName : α
  carJoinDate : α
  notes : α
  deriving DecidableEq, Repr

namespace FieldTable

variable {α : Type}

/-- The table with the same value everywhere. -/
def uniform (a : α) : FieldTable α :=
  ⟨a, a, a, a, a, a, a, a, a, a⟩

/-- The value of a field. -/
def get (t : FieldTable α) : CompareField → α
  | .gender => t.gender
  | .address => t.address
  | .jobTitle => t.jobTitle
  | .maritalStatus => t.maritalStatus
  | .proofNumber => t.proofNumber
  | .dbPrice => t.dbPrice
  | .headquarters => t.headquarters
  | .insuranceName => t.insuranceName
  | .carJoinDate => t.carJoinDate
  | .notes => t.notes

/-- The table with another value for a field. -/
def set (t : FieldTable α) (f : CompareField) (a : α) : FieldTable α :=
  match f with
  | .gender => { t with gender := a }
  | .address => { t with address := a }
  | .jobTitle => { t with jobTitle := a }
  | .maritalStatus => { t with maritalStatus := a }
  | .proofNumber => { t with proofNumber := a }
  | .dbPrice => { t with dbPrice := a }
  | .headquarters => { t with headquarters := a }
  | .insuranceName => { t with insuranceName := a }
  | .carJoinDate => { t with carJoinDate := a }
  | .notes => { t with notes := a }

/-- The table with each value changed in the same way. -/
def map {β : Type} (g : α → β) (t : FieldTable α) : FieldTable β where
  gender := g t.gender
  address := g t.address
  jobTitle := g t.jobTitle
  maritalStatus := g t.maritalStatus
  proofNumber := g t.proofNumber
  dbPrice := g t.dbPrice
  headquarters := g t.headquarters
  insuranceName := g t.insuranceName
  carJoinDate := g t.carJoinDate
  notes := g t.notes

@[simp] theorem get_map {β : Type} (g : α → β) (t : FieldTable α) (f : CompareField) :
    (t.map g).get f = g (t.get f) := by
  cases f <;> rfl

@[simp] theorem get_set (t : FieldTable α) (f : CompareField) (a : α) :
    (t.set f a).get f = a := by
  cases f <;> rfl

theorem get_set_of_ne (t : FieldTable α) {f g : CompareField} (a : α) (h : g ≠ f) :
    (t.set f a).get g = t.get g := by
  cases f <;> cases g <;> first | rfl | exact absurd rfl h

@[simp] theorem get_uniform (a : α) (f : CompareField) : (uniform a).get f = a := by
  cases f <;> rfl

/-- Tables that agree on every field are equal. -/
theorem ext_get {t u : FieldTable α} (h : ∀ f, t.get f = u.get f) : t = u := by
  obtain ⟨a1, a2, a3, a4, a5, a6, a7, a8, a9, a10⟩ := t
  obtain ⟨b1, b2, b3, b4, b5, b6, b7, b8, b9, b10⟩ := u
  have h1 : a1 = b1 := h .gender
  have h2 : a2 = b2 := h .address
  have h3 : a3 = b3 := h .jobTitle
  have h4 : a4 = b4 := h .maritalStatus
  have h5 : a5 = b5 := h .proofNumber
  have h6 : a6 = b6 := h .dbPrice
  have h7 : a7 = b7 := h .headquarters
  have h8 : a8 = b8 := h .insuranceName
  have h9 : a9 = b9 := h .carJoinDate
  have h10 : a10 = b10 := h .notes
  subst h1 h2 h3 h4 h5 h6 h7 h8 h9 h10
  rfl

end FieldTable

end CustomerDedupe
