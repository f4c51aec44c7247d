import BulkRun.Json.Parser
/-!
# Reading records from JSON trees

A record is written as an object of its fields, or as an array of its fields in their declared
order. In an object, members with other names are passed over and a repeated field is refused; in an
array, items beyond the last field are refused.
-/

namespace BulkRun.Json

/-- A reader of values of a type; `none` when a tree is none. -/
abbrev Reader (α : Type) := Tree → Option α

/-- The trees found for the fields of a record, and whether the record was an array. -/
structure Fields where
  positional : Bool
  found : List (String × Tree)

namespace Fields

/-- Collects the members of an object whose names are declared. -/
def ofMembers (names : List String) (found : List (String × Tree)) :
    List (Option String × Tree) → Option (List (String × Tree))
  | [] => some found
  | (none, _) :: _ => none
  | (some key, t) :: rest =>
    if names.contains key then
      if (found.lookup key).isSome then none else ofMembers names ((key, t) :: found) rest
    else ofMembers names found rest

/-- The fields of a record with the given names, in their declared order. -/
def read? (names : List String) : Tree → Option Fields
  | .object members => (ofMembers names [] members).map fun found => ⟨false, found⟩
  | .array items => if items.length ≤ names.length then some ⟨true, names.zip items⟩ else none
  | _ => none

/-- A field that must be there. -/
def required {α : Type} (fs : Fields) (name : String) (read : Reader α) : Option α :=
  (fs.found.lookup name).bind read

/-- A field with a default. -/
def defaulted {α : Type} (fs : Fields) (name : String) (read : Reader α) (default : α) : Option α :=
  match fs.found.lookup name with
  | none => some default
  | some t => read t

end Fields

/-- A text. -/
def text? : Reader String
  | .string s => s
  | _ => none

/-- An unsigned 64-bit word, written as an integer. -/
def word? : Reader Nat
  | .number n =>
    match n.toNumber? with
    | some (.int (.ofNat i)) => if n.negative then none else some i
    | _ => none
  | _ => none

/-- A truth value. -/
def flag? : Reader Bool
  | .bool b => some b
  | _ => none

/-- A value that may be null. -/
def nullable? {α : Type} (read : Reader α) : Reader (Option α)
  | .null => some none
  | t => (read t).map some

/-- Reads every item of a list. -/
def readAll? {α : Type} (read : Reader α) : List Tree → Option (List α)
  | [] => some []
  | t :: rest =>
    match read t with
    | none => none
    | some a => (readAll? read rest).map (a :: ·)

/-- An array of values. -/
def list? {α : Type} (read : Reader α) : Reader (List α)
  | .array items => readAll? read items
  | _ => none

/-- A field that may be null, and in an object may be missing. -/
def Fields.optional {α : Type} (fs : Fields) (name : String) (read : Reader α) :
    Option (Option α) :=
  match fs.found.lookup name with
  | none => if fs.positional then none else some none
  | some t => nullable? read t

/-- One of a list of names, written as a text or as an object whose only member has that name and is
null. -/
def choice? {α : Type} (names : List (String × α)) : Reader α
  | .string (some s) => names.lookup s
  | .object [(some s, .null)] => names.lookup s
  | _ => none

/-- An object of values, found at nesting `depth`. -/
def members? (depth : Nat) : Reader (List (String × Json))
  | .object members => Tree.membersToJson? (depth + 1) [] members
  | _ => none

end BulkRun.Json
