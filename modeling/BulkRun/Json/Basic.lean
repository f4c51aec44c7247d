import BulkRun.Decimal.Numeral
import BulkRun.Entries
/-!
# JSON values

A JSON text is first read into a `Json.Tree`, which keeps numbers as written and marks strings whose
escapes are no text, and a tree is then turned into a `Json` value.  The two steps are apart because
a reader that passes over a part of a tree only asks for its grammar: a number out of range or half
a surrogate pair is a fault only where somebody wants the value.
-/

namespace BulkRun

/-- A JSON number: an integer that fits 64 bits, or a double. -/
inductive JsonNumber where
  | int (i : Int)
  | real (x : Binary64)
deriving DecidableEq, Repr

/-- A JSON value.  The members of an object have distinct keys. -/
inductive Json where
  | null
  | bool (b : Bool)
  | number (n : JsonNumber)
  | string (s : String)
  | array (items : List Json)
  | object (members : List (String × Json))
deriving Repr, Inhabited

namespace Json

/-- A natural number as a value. -/
def nat (n : Nat) : Json := .number (.int n)

/-- A value, or null when there is none. -/
def ofOption {α : Type} (f : α → Json) : Option α → Json
  | none => .null
  | some a => f a

/-- A list of texts as a value. -/
def strings (ss : List String) : Json := .array (ss.map .string)

/-- A JSON text as its grammar gives it. -/
inductive Tree where
  | null
  | bool (b : Bool)
  | number (n : Decimal.Numeral)
  /-- A string; `none` when an escape in it names half a surrogate pair. -/
  | string (s : Option String)
  | array (items : List Tree)
  | object (members : List (Option String × Tree))
deriving Repr, Inhabited

end Json

/-- The nesting of arrays and objects that a reader of values follows. -/
def Json.maxDepth : Nat := 127

/-- The number that a numeral stands for: an integer when it is written as one and fits a signed or
an unsigned 64-bit word, otherwise a double; `none` when it is too large for that.  A negative zero
is a double. -/
def Decimal.Numeral.toNumber? (n : Decimal.Numeral) : Option JsonNumber :=
  let value := Decimal.ofDigits n.whole
  if n.isWhole && !n.negative && value ≤ wordMax then some (.int value)
  else if n.isWhole && n.negative && 0 < value && value ≤ signedCount then
    some (.int (-(value : Int)))
  else n.quick?.map .real

namespace Json.Tree

mutual

/-- The value of a tree found at nesting `depth`; of members with one key the last counts. -/
def toJson? (depth : Nat) : Tree → Option Json
  | .null => some .null
  | .bool b => some (.bool b)
  | .number n => n.toNumber?.map .number
  | .string s => s.map .string
  | .array items =>
    if depth < maxDepth then (itemsToJson? (depth + 1) items).map .array else none
  | .object members =>
    if depth < maxDepth then (membersToJson? (depth + 1) [] members).map .object else none

/-- The values of the items of an array. -/
def itemsToJson? (depth : Nat) : List Tree → Option (List Json)
  | [] => some []
  | t :: rest =>
    match toJson? depth t with
    | none => none
    | some j => (itemsToJson? depth rest).map (j :: ·)

/-- The members of an object, added to those in `done`. -/
def membersToJson? (depth : Nat) (done : List (String × Json)) :
    List (Option String × Tree) → Option (List (String × Json))
  | [] => some done
  | (none, _) :: _ => none
  | (some key, t) :: rest =>
    match toJson? depth t with
    | none => none
    | some j => membersToJson? depth (insertEntry done key j) rest

end

end Json.Tree

end BulkRun
