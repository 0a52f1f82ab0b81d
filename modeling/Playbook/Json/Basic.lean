import Playbook.Entries
import Playbook.Number.Binary

/-!
# JSON values

The values that JSON texts stand for. Integers that fit 64 bits are kept exactly and every other
number is a 64-bit float; a 32-bit float is only ever written. The members of an object are
`Entries`: in order, each name once.
-/

namespace Playbook

namespace Json

/-- The whole numbers kept exactly: all that fit a signed or an unsigned 64-bit integer. -/
def Fits (n : Int) : Prop := Int64.minValue.toInt ≤ n ∧ n < UInt64.size

instance (n : Int) : Decidable (Fits n) := inferInstanceAs (Decidable (_ ∧ _))

/-- The bounds of the numbers kept exactly. -/
theorem fits_iff (n : Int) : Fits n ↔ -9223372036854775808 ≤ n ∧ n < 18446744073709551616 :=
  Iff.rfl

/-- A JSON number. -/
inductive Number where
  | whole (n : Int) (fits : Fits n)
  | double (x : Number.Double)
  | single (x : Number.Single)
  deriving DecidableEq

end Json

/-- A JSON value. -/
inductive Json where
  | null
  | bool (b : Bool)
  | number (n : Json.Number)
  | string (s : String)
  | array (items : List Json)
  | object (members : List (String × Json))
  deriving Inhabited

namespace Json

/-- An unsigned 64-bit integer as a value. -/
def ofUInt64 (n : UInt64) : Json :=
  .number (.whole n.toNat ((fits_iff _).2 ⟨by omega, by have := n.toNat_lt; omega⟩))

/-- An unsigned 32-bit integer as a value. -/
def ofUInt32 (n : UInt32) : Json :=
  .number (.whole n.toNat ((fits_iff _).2 ⟨by omega, by have := n.toNat_lt; omega⟩))

/-- A signed 64-bit integer as a value. -/
def ofInt64 (n : Int64) : Json :=
  .number (.whole n.toInt ((fits_iff _).2 ⟨n.le_toInt, by have := n.toInt_lt; omega⟩))

/-- A signed 32-bit integer as a value. -/
def ofInt32 (n : Int32) : Json :=
  .number (.whole n.toInt
    ((fits_iff _).2 ⟨by have := n.le_toInt; omega, by have := n.toInt_lt; omega⟩))

/-- A value that may be missing: `null` stands for none. -/
def ofOption {α : Type} (write : α → Json) : Option α → Json
  | none => .null
  | some a => write a

/-- A list of texts. -/
def ofTexts (texts : List String) : Json := .array (texts.map .string)

end Json
end Playbook
