import BulkRun.Json.Basic
/-!
# Looking into JSON values

Views of a value that do not fail: what is not there, or is something else, reads as null, as
nothing or as a given value.
-/

namespace BulkRun.Json

/-- Whether a value is null. -/
def isNull : Json → Bool
  | .null => true
  | _ => false

/-- The text that a value is. -/
def asText? : Json → Option String
  | .string s => some s
  | _ => none

/-- The integer that a value is. -/
def asInteger? : Json → Option Int
  | .number (.int i) => some i
  | _ => none

/-- The natural number that a value is; a negative integer counts as zero. -/
def asNat? (j : Json) : Option Nat := j.asInteger?.map Int.toNat

/-- The items of an array. -/
def items : Json → List Json
  | .array js => js
  | _ => []

/-- The members of an object. -/
def entries : Json → List (String × Json)
  | .object ms => ms
  | _ => []

/-- A member of an object, or null. -/
def member (j : Json) (key : String) : Json := (j.entries.lookup key).getD .null

/-- The text of a member, or the empty one. -/
def textAt (j : Json) (key : String) : String := (j.member key).asText?.getD ""

/-- The natural number of a member, or a given one. -/
def natAt (j : Json) (key : String) (default : Nat) : Nat := (j.member key).asNat?.getD default

/-- The truth value of a member, or a given one. -/
def flagAt (j : Json) (key : String) (default : Bool) : Bool :=
  match j.member key with
  | .bool b => b
  | _ => default

/-- The items of the array that a member is. -/
def itemsAt (j : Json) (key : String) : List Json := (j.member key).items

/-- The texts in an array. -/
def texts (j : Json) : List String := j.items.filterMap asText?

/-- An object with further members behind its own. -/
def extend (j : Json) (more : List (String × Json)) : Json := .object (j.entries ++ more)

/-- An object without a member. -/
def without (j : Json) (key : String) : Json := .object (j.entries.filter fun m => m.1 != key)

/-- An object with a member set. -/
def put (j : Json) (key : String) (value : Json) : Json := .object (insertEntry j.entries key value)

/-- An object with a member set unless it has a value. -/
def fillIn (j : Json) (key : String) (value : Json) : Json :=
  if (j.member key).isNull then j.put key value else j

end BulkRun.Json
