import BulkRun.Command.Basic
/-!
# Parameters of a certain type

A parameter is taken as a value of a type only when it is one: an integer has to be in range, and a
double is no integer even when it is whole.
-/

namespace BulkRun

namespace Json

/-- An integer within bounds. -/
def asInt? (low high : Int) : Json → Option Int
  | .number (.int i) => if low ≤ i ∧ i ≤ high then some i else none
  | _ => none

/-- An unsigned integer of so many bits. -/
def asUnsigned? (bits : Nat) : Json → Option Int := asInt? 0 ((twoTo bits : Int) - 1)

/-- A signed integer of so many bits. -/
def asSigned? (bits : Nat) : Json → Option Int :=
  asInt? (-(twoTo (bits - 1) : Int)) ((twoTo (bits - 1) : Int) - 1)

/-- A truth value. -/
def asBool? : Json → Option Bool
  | .bool b => some b
  | _ => none

/-- A text. -/
def asString? : Json → Option String
  | .string s => some s
  | _ => none

/-- Null, or a value of a type. -/
def asNullable? {α : Type} (read : Json → Option α) : Json → Option (Option α)
  | .null => some none
  | j => (read j).map some

/-- A list of values of a type. -/
def asList? {α : Type} (read : Json → Option α) : Json → Option (List α)
  | .array items => items.mapM read
  | _ => none

/-- An object of values of a type. -/
def asMembers? {α : Type} (read : Json → Option α) : Json → Option (List (String × α))
  | .object members => members.mapM fun (k, j) => (read j).map fun a => (k, a)
  | _ => none

end Json

/-- The value of a parameter as a value of a type. -/
def Draft.paramAs? {α : Type} (d : Draft) (read : Json → Option α) (key : String) : Option α :=
  (d.param? key).bind read

end BulkRun
