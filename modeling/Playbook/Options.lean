import Playbook.VariableError
import Playbook.Json.Reader
import Playbook.Json.Record

/-!
# Options

The options of a scope: how deep placeholders are followed, what becomes of one that has no variable
and where random values start.
-/

namespace Playbook

/-- What becomes of a placeholder that has no variable. -/
inductive Missing where
  /-- It is an error. -/
  | fail
  /-- It stays as it is. -/
  | keep
  deriving DecidableEq

namespace Missing

/-- The policies with their names. -/
def tags : List (String × Missing) := [("fail", .fail), ("keep", .keep)]

/-- The name of a policy. -/
def tag : Missing → String
  | .fail => "fail"
  | .keep => "keep"

end Missing

/-- The options of a scope. -/
structure Options where
  /-- How deep placeholders in the values of variables are followed. -/
  maxInterpolationDepth : UInt64 := 10
  /-- What becomes of a placeholder that has no variable. -/
  missingPlaceholder : Missing := .fail
  /-- Where random values start; without it they start anywhere. -/
  randomSeed : Option UInt32 := none
  deriving DecidableEq

namespace Options

/-- Options have to let placeholders be followed at all. -/
def validate (options : Options) : Except VariableError Unit :=
  if options.maxInterpolationDepth = 0 then .error (.invalidOptions .zeroDepth) else .ok ()

open Json Json.Written

/-- The names of the options in documents. -/
def fieldNames : List String := ["maxInterpolationDepth", "missingPlaceholder", "randomSeed"]

/-- The JSON form of options. -/
def toJson (options : Options) : Json :=
  .object [("maxInterpolationDepth", .ofUInt64 options.maxInterpolationDepth),
    ("missingPlaceholder", .string options.missingPlaceholder.tag),
    ("randomSeed", .ofOption .ofUInt32 options.randomSeed)]

/-- The options of a document; what is left out has its default. -/
def ofWritten? (document : Written) : Option Options := do
  let fields ← document.fields? fieldNames
  some {
    maxInterpolationDepth := ← defaulted? fields "maxInterpolationDepth" 10 uint64?
    missingPlaceholder :=
      ← defaulted? fields "missingPlaceholder" .fail (choice? false Missing.tags)
    randomSeed := ← defaulted? fields "randomSeed" none (optional? uint32?) }

/-- The valid options of a JSON text. -/
def ofJsonText (text : String) : Except VariableError Options :=
  match (Written.read? text.toList).bind ofWritten? with
  | none => .error (.invalidOptions (.malformed text))
  | some options => do
    options.validate
    return options

end Options
end Playbook
