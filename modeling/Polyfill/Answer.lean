import Polyfill.Error
import Polyfill.Datum
/-!
# Answers

What a step of a script comes to: a reply, an error of the library, or a complaint about the
script itself.
-/

namespace Polyfill

/-- What is wrong with a script. -/
inductive Complaint where
  | badValue
  /-- No object of the right type under a name. -/
  | badHandle
  | badField
  | unknownFunction
  | unknownStep
  deriving DecidableEq, Repr

/-- The text of a complaint. -/
def Complaint.message : Complaint → String
  | badValue => "bad value"
  | badHandle => "bad handle"
  | badField => "bad field"
  | unknownFunction => "unknown fn"
  | unknownStep => "unknown step"

/-- Why a step has no reply. -/
inductive Failure where
  | error (e : Error)
  | complaint (c : Complaint)
  deriving DecidableEq, Repr

/-- What a step replies. -/
inductive Reply where
  | datum (d : Datum)
  /-- An array was to be filled: the outcome, and the array after it. -/
  | filling (outcome : Except Error (List String)) (array : List String)

/-- What a step comes to. -/
abbrev Answer := Except Failure Reply

namespace Answer

/-- A reply of plain data. -/
def data (d : Datum) : Answer :=
  Except.ok (Reply.datum d)

/-- The empty reply. -/
def done : Answer :=
  data .null

/-- An error of the library. -/
def fault (e : Error) : Answer :=
  Except.error (Failure.error e)

/-- A complaint about the script. -/
def complaint (c : Complaint) : Answer :=
  Except.error (Failure.complaint c)

/-- What an act comes to. -/
def ofOutcome : Except Error Reply → Answer
  | .ok reply => Except.ok reply
  | .error e => fault e

end Answer

end Polyfill
