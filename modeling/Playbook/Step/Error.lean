import Playbook.VariableError
import Playbook.TextCheck
import Playbook.File.Problem
import Playbook.Calendar.Format
import Playbook.Calendar.Parts
import Playbook.Calendar.Shift

/-!
# Errors of steps

What can go wrong in a step besides its variables: a failed assertion, a table of the wrong shape, a
date that does not exist, a file that cannot be read.
-/

namespace Playbook

open VariableError (count)

/-- What a failed assertion was about. -/
inductive FailedAssertion where
  | noValueToCopy (name : String)
  | noTextToCopy (name : String)
  | noTextToSplit (name : String)
  | nullText (name : String) (check : TextCheck) (expected : String)
  | otherText (name actual : String) (check : TextCheck) (expected : String)
  | notNull (name : String)
  | null (name : String)
  | notEmpty (name text : String)
  | empty (name : String)
  | fileMissing (path : String)
  deriving DecidableEq

/-- The message of a failed assertion. -/
def FailedAssertion.message : FailedAssertion → String
  | .noValueToCopy name => s!"variable \"{name}\" has no value to copy"
  | .noTextToCopy name => s!"variable \"{name}\" has no text to copy"
  | .noTextToSplit name => s!"variable \"{name}\" has no text to split"
  | .nullText name check expected =>
    s!"variable \"{name}\" is null, expected it to {check.label} \"{expected}\""
  | .otherText name actual check expected =>
    s!"variable \"{name}\" is \"{actual}\", expected it to {check.label} \"{expected}\""
  | .notNull name => s!"variable \"{name}\" is not null"
  | .null name => s!"variable \"{name}\" is null"
  | .notEmpty name text => s!"variable \"{name}\" is \"{text}\", expected it to be empty"
  | .empty name => s!"variable \"{name}\" is empty"
  | .fileMissing path => s!"file \"{path}\" does not exist"

/-- What is wrong with a table. -/
inductive TableProblem where
  | extraRows (rows : Nat)
  | rowCount (rows : Nat)
  | lengths (keys values : Nat)
  | duplicateKey (key : String)
  deriving DecidableEq

/-- The message about a table. -/
def TableProblem.message : TableProblem → String
  | .extraRows rows => s!"a list table has a single row, found {count rows} extra"
  | .rowCount rows => s!"a dictionary table has one row of values, found {count rows}"
  | .lengths keys values => s!"{count keys} keys but {count values} values"
  | .duplicateKey key => s!"duplicate key \"{key}\""

/-- What is wrong with a date. -/
inductive DateProblem where
  | noDate (parts : DateParts)
  | noTime (parts : TimeParts)
  | shiftedOut (start : Moment) (shift : Shift)
  | badFormat (format : String)
  deriving DecidableEq

/-- The message about a date. -/
def DateProblem.message : DateProblem → String
  | .noDate parts =>
    String.ofList (Number.signedZeroPadded 4 parts.year.toInt ++
      '-' :: Number.zeroPadded 2 parts.month.toNat ++
      '-' :: Number.zeroPadded 2 parts.day.toNat) ++ " is not a calendar date"
  | .noTime parts =>
    String.ofList (Number.zeroPadded 2 parts.hour.toNat ++
      ':' :: Number.zeroPadded 2 parts.minute.toNat ++
      ':' :: Number.zeroPadded 2 parts.second.toNat ++
      '.' :: Number.zeroPadded 3 parts.millisecond.toNat) ++ " is not a time of day"
  | .shiftedOut start shift =>
    "shifting " ++ String.ofList (start.textWith ' ') ++
      s!" by Shift \x7b years: {count shift.years.toNat}, " ++
      s!"months: {count shift.months.toNat}, days: {count shift.days.toNat} \x7d" ++
      " leaves the supported range"
  | .badFormat format => s!"bad date format \"{format}\""

/-- An error of a step. -/
inductive StepError where
  | ofVariable (error : VariableError)
  | assertion (failed : FailedAssertion)
  | table (problem : TableProblem)
  | date (problem : DateProblem)
  | invalidIndex (value : String)
  | file (path : String) (problem : FileProblem)
  /-- A text is no well-formed XML document. -/
  | invalidXml (text : String)
  deriving DecidableEq

namespace StepError

/-- The code of an error. -/
def code : StepError → String
  | .ofVariable error => error.code
  | .assertion _ => "ASSERTION_FAILED"
  | .table _ => "INVALID_TABLE"
  | .date _ => "INVALID_DATE"
  | .invalidIndex _ => "INVALID_INDEX"
  | .file _ _ => "FILE"
  | .invalidXml _ => "INVALID_XML"

/-- The message of an error. -/
def message (error : StepError) (wording : Wording := {}) : String :=
  match error with
  | .ofVariable error => error.message wording
  | .assertion failed => s!"Assertion failed: {failed.message}"
  | .table problem => s!"Invalid step table: {problem.message}"
  | .date problem => s!"Invalid date: {problem.message}"
  | .invalidIndex value => s!"Value \"{value}\" is not a valid index."
  | .file path problem => s!"File \"{path}\": {problem.message}"
  | .invalidXml text => s!"Invalid XML document: {wording.xml text}"

/-- What comes of variables, as it comes of a step. -/
def lift {α : Type} (result : Except VariableError α) : Except StepError α :=
  result.mapError .ofVariable

end StepError
end Playbook
