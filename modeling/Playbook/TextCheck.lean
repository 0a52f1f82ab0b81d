import Playbook.Text.Search

/-!
# Checks on texts

The ways a text is compared with an expected one.
-/

namespace Playbook

/-- A way to compare a text with an expected one. -/
inductive TextCheck where
  | equals
  | notEquals
  | contains
  | notContains
  | startsWith
  | endsWith
  deriving DecidableEq

namespace TextCheck

/-- The checks with their names in documents. -/
def tags : List (String × TextCheck) :=
  [("equals", .equals), ("notEquals", .notEquals), ("contains", .contains),
    ("notContains", .notContains), ("startsWith", .startsWith), ("endsWith", .endsWith)]

/-- The name of a check in documents. -/
def tag : TextCheck → String
  | .equals => "equals"
  | .notEquals => "notEquals"
  | .contains => "contains"
  | .notContains => "notContains"
  | .startsWith => "startsWith"
  | .endsWith => "endsWith"

/-- What a check expects a text to do. -/
def label : TextCheck → String
  | .equals => "equal"
  | .notEquals => "not equal"
  | .contains => "contain"
  | .notContains => "not contain"
  | .startsWith => "start with"
  | .endsWith => "end with"

/-- Whether a text passes a check. -/
def holds (check : TextCheck) (actual expected : List Char) : Bool :=
  match check with
  | .equals => actual = expected
  | .notEquals => actual ≠ expected
  | .contains => Text.occursIn expected actual
  | .notContains => !Text.occursIn expected actual
  | .startsWith => expected.isPrefixOf actual
  | .endsWith => expected.isSuffixOf actual

end TextCheck
end Playbook
