import Playbook.Scope
import Playbook.Step.Error

/-!
# Tables

A step may come with a table of cells: a header and rows. The cells may have placeholders, and what
is no placeholder of a variable is meant as it stands.
-/

namespace Playbook

/-- A table. -/
structure Table where
  /-- The cells of the header. -/
  header : List String
  /-- The cells of the other rows. -/
  rows : List (List String)
  deriving DecidableEq

namespace Table

/-- The cells of a table that is a single row. -/
def cells (table : Table) (scope : Scope) : Except StepError (List String) :=
  if table.rows.isEmpty then StepError.lift (table.header.mapM scope.resolveOrLiteral)
  else .error (.table (.extraRows table.rows.length))

/-- The resolved pairs of keys and values after those in `done`, whose keys must not come again. -/
def pairsFrom (scope : Scope) (done : Entries String) :
    List (String × String) → Except StepError (Entries String)
  | [] => .ok done
  | (key, value) :: rest => do
    let key ← StepError.lift (scope.resolveOrLiteral key)
    if done.has key then .error (.table (.duplicateKey key))
    else
      let value ← StepError.lift (scope.resolveOrLiteral value)
      pairsFrom scope (done ++ [(key, value)]) rest

/-- The entries of a table with keys in its header and values in its single row. -/
def pairs (table : Table) (scope : Scope) : Except StepError (Entries String) :=
  match table.rows with
  | [values] =>
    if values.length = table.header.length then pairsFrom scope [] (table.header.zip values)
    else .error (.table (.lengths table.header.length values.length))
  | rows => .error (.table (.rowCount rows.length))

end Table
end Playbook
