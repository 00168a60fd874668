import CustomerDedupe.Text.Blank
import CustomerDedupe.Text.Lowercase

/-!
# The state of work on a customer

Statuses are written by their names. Reading them ignores case and white space around them,
takes the two-word ones also with an underscore, and takes anything else as new.
-/

namespace CustomerDedupe

/-- How far work on a customer has come. -/
inductive Status where
  | new
  | inProgress
  | noAnswer
  | completed
  | onHold
  deriving DecidableEq, Repr

namespace Status

/-- The written name. -/
def text : Status → String
  | .new => "New"
  | .inProgress => "InProgress"
  | .noAnswer => "NoAnswer"
  | .completed => "Completed"
  | .onHold => "OnHold"

/-- Every status. -/
def all : List Status :=
  [.new, .inProgress, .noAnswer, .completed, .onHold]

/-- The status with exactly this written name. -/
def ofName? (s : String) : Option Status :=
  all.find? fun status => status.text == s

/-- Reads a status; anything unknown is new. -/
def read (s : String) : Status :=
  match Text.asciiLowercase (Text.trim s) with
  | "inprogress" | "in_progress" => .inProgress
  | "noanswer" | "no_answer" => .noAnswer
  | "completed" => .completed
  | "onhold" | "on_hold" => .onHold
  | _ => .new

/-- A status is read back from its written name. -/
theorem read_text (s : Status) : read s.text = s := by
  cases s <;> rfl

end Status

end CustomerDedupe
