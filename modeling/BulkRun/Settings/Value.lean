import BulkRun.Entries
import BulkRun.Text.Lower
import BulkRun.Toml.Basic
/-!
# Loosely typed values of settings

Settings come from layers that are laid over one another before anything in them is given a type.  A
table is merged into what is there name by name, and any other value replaces it; names are in lower
case.  Afterwards a value is read as the type that is wanted, where texts, numbers and truth values
stand in for one another.
-/

namespace BulkRun

/-- A value of a setting, or of several. -/
inductive SettingValue where
  /-- Nothing was given. -/
  | nothing
  | flag (b : Bool)
  | integer (i : Int)
  | real (x : Double)
  | text (s : String)
  | list (items : List SettingValue)
  | table (entries : List (String × SettingValue))
deriving Inhabited

namespace SettingValue

/-- The entries of a table; anything else has none. -/
def entries : SettingValue → List (String × SettingValue)
  | .table es => es
  | _ => []

/-- The items of a list; anything else has none. -/
def items : SettingValue → List SettingValue
  | .list vs => vs
  | _ => []

/-! ## From documents -/

mutual

/-- A value of a document; dates are texts. -/
def ofToml : Toml.Value → SettingValue
  | .text s => .text s
  | .integer i => .integer i
  | .real x => .real x
  | .boolean b => .flag b
  | .date s => .text s
  | .list vs => .list (ofTomls vs)
  | .table es => .table (ofTomlEntries es)

/-- The items of a list. -/
def ofTomls : List Toml.Value → List SettingValue
  | [] => []
  | v :: rest => ofToml v :: ofTomls rest

/-- The entries of a table. -/
def ofTomlEntries : List (String × Toml.Place × Toml.Value) → List (String × SettingValue)
  | [] => []
  | (key, _, v) :: rest => (key, ofToml v) :: ofTomlEntries rest

end

/-! ## Layers -/

mutual

/-- What stands under a name after a value was laid over what was there. -/
def overlay (below : SettingValue) : SettingValue → SettingValue
  | .table es => mergeAll below es
  | v => v

/-- A table with entries laid over those of another; no entries change nothing at all. -/
def mergeAll (below : SettingValue) : List (String × SettingValue) → SettingValue
  | [] => below
  | (key, v) :: rest =>
    let name := Text.lower key
    let there := (below.entries.lookup name).getD (.table [])
    mergeAll (.table (insertEntry below.entries name (overlay there v))) rest

end

/-- A table with a value laid over what stands under a name. -/
def merge (below : SettingValue) (key : String) (v : SettingValue) : SettingValue :=
  mergeAll below [(key, v)]

/-- A step from a value into a part of it. -/
inductive Step where
  | name (key : String)
  /-- The item at a position, counted from the end when negative. -/
  | item (index : Int)
deriving DecidableEq, Repr

/-- The position in a list of some length that an index stands for. -/
def position (length : Nat) : Int → Nat
  | .ofNat i => i
  | .negSucc i => length - (i + 1)

/-- A list with an item changed; the list grows to reach the item. -/
def changeItem (vs : List SettingValue) (index : Int) (f : SettingValue → SettingValue) :
    List SettingValue :=
  let i := position vs.length index
  let vs := vs ++ List.replicate (i + 1 - vs.length) .nothing
  vs.set i (f (vs[i]?.getD .nothing))

/-- A value with another laid over the part at a path.  What is in the way gives way to a table or a
list. -/
def putAt (v : SettingValue) : List Step → SettingValue → SettingValue
  | [], below => overlay below v
  | [.name key], below => merge (.table below.entries) key v
  | .name key :: path, below =>
    let name := Text.lower key
    let there := (below.entries.lookup name).getD .nothing
    .table (insertEntry below.entries name (putAt v path there))
  | [.item index], below => .list (changeItem below.items index fun _ => v)
  | .item index :: path, below => .list (changeItem below.items index (putAt v path))

/-! ## Types -/

/-- A value as an unsigned 64-bit word. -/
def asWord? : SettingValue → Option Nat
  | .flag b => some (if b then 1 else 0)
  | .integer i => if 0 ≤ i then some i.toNat else none
  | .real x => some x.toWord
  | .text s =>
    match Text.lower s with
    | "true" | "on" | "yes" => some 1
    | "false" | "off" | "no" => some 0
    | _ => Text.readWord s
  | _ => none

/-- A value as a text. -/
def asText? : SettingValue → Option String
  | .text s => some s
  | .flag b => some (if b then "true" else "false")
  | .integer i => some (Text.ofInt i)
  | .real x => some x.text
  | _ => none

/-- A value that may be missing. -/
def asOptional? {α : Type} (read : SettingValue → Option α) : SettingValue → Option (Option α)
  | .nothing => some none
  | v => (read v).map some

/-- The fields of a section: by name, or in their declared order when it is a list. -/
def fields? (names : List String) : SettingValue → Option (List (String × SettingValue))
  | .table es => some es
  | .list vs => some (names.zip vs)
  | _ => none

end SettingValue

end BulkRun
