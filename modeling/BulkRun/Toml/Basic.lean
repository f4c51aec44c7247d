import BulkRun.Decimal.Numeral
import BulkRun.Entries
import BulkRun.Toml.Fault
import BulkRun.Toml.Key
/-!
# TOML documents

A document is a table of named values.  It is put together from lines that name a value by the path
of tables to it, and from headers that open a table; how a table came to be decides what may still
be added to it.  Main statement: every name is defined once (`define` refuses a name that is there).
-/

namespace BulkRun.Toml

/-- A value of a document. -/
inductive Value where
  | text (s : String)
  | integer (i : Int)
  | real (x : Double)
  | boolean (b : Bool)
  /-- A date, a time or both, in their standard form. -/
  | date (s : String)
  | list (items : List Value)
  /-- Named values, each with the place where it stands, or where its name does if it was put
  together from parts. -/
  | table (entries : List (String × Place × Value))
deriving Inhabited

/-- The name of the kind of a value. -/
def Value.kind : Value → String
  | .text _ => "string"
  | .integer _ => "integer"
  | .real _ => "float"
  | .boolean _ => "boolean"
  | .date _ => "datetime"
  | .list _ => "array"
  | .table _ => "inline table"

/-- Whether a value is a table. -/
def Value.isTable : Value → Bool
  | .table _ => true
  | _ => false

/-- A key with its value. -/
structure Pair where
  /-- The names before the last one. -/
  path : List Key
  key : Key
  /-- Where the value stands. -/
  place : Place
  value : Value

/-- How a table came to be. -/
inductive Origin where
  /-- It has a header of its own. -/
  | header
  /-- It stands on the path of a header. -/
  | implied
  /-- It stands on the path of a dotted key. -/
  | dotted
deriving DecidableEq, Repr

/-- A part of a document that is being put together. -/
inductive Node where
  /-- A value, to which nothing can be added. -/
  | leaf (place : Place) (v : Value)
  | table (origin : Origin) (place : Place) (entries : List (String × Node))
  /-- A list of tables with a header each; additions go to the last one. -/
  | tables (place : Place) (earlier : List (List (String × Node))) (last : List (String × Node))

/-- The entries of a table that is being put together. -/
abbrev Nodes := List (String × Node)

/-- A change of a table, which may be refused. -/
abbrev Nodes.Change := Origin → Place → Nodes → Except Breach (Place × Nodes)

/-- What a path of tables belongs to. -/
inductive Route where
  /-- The path of a header. -/
  | header
  /-- The path of a key on a line. -/
  | line
  /-- The path of a key in an inline table. -/
  | inline
deriving DecidableEq, Repr

namespace Nodes

/-- Makes a change at a path below a table, whose own path so far is `walked`; tables on the path
that are missing are put there.  The path of a key may not pass through a table that has a header,
nor, in an inline table, through one that is written out. -/
def alter (route : Route) (change : Change) (walked : List String) : List Key → Change
  | [], origin, place, nodes => change origin place nodes
  | key :: path, _, place, nodes =>
    let walked := walked ++ [key.name]
    match nodes.lookup key.name with
    | none =>
      let origin := if route == .header then Origin.implied else .dotted
      (alter route change walked path origin key.place []).map fun (there, sub) =>
        (place, insertEntry nodes key.name (.table origin there sub))
    | some (.leaf _ v) =>
      .error (if route == .inline && v.isTable then .taken key.name none
        else .noTable walked v.kind)
    | some (.tables there earlier last) =>
      (alter route change walked path .header there last).map fun (there, sub) =>
        (place, insertEntry nodes key.name (.tables there earlier sub))
    | some (.table origin there entries) =>
      if route != .header && origin == .header then .error (.taken key.name none)
      else
        (alter route change walked path origin there entries).map fun (there, sub) =>
          (place, insertEntry nodes key.name (.table origin there sub))

/-- Defines a value in a table, unless its name is taken; `table` is the path of the table where
that is told. -/
def define (table : Option (List String)) (p : Pair) (nodes : Nodes) : Except Breach Nodes :=
  if (nodes.lookup p.key.name).isSome then .error (.taken p.key.name table)
  else .ok (insertEntry nodes p.key.name (.leaf p.place p.value))

/-- Defines a value at the path of a key.  The table that takes it was made by such paths, or the
path is empty.  A table with a header reaches to the end of the last value on its lines. -/
def assign (route : Route) (table : Option (List String)) (p : Pair) : Change :=
  fun origin place nodes =>
    (alter route
      (fun origin place nodes =>
        if (origin == .dotted) == p.path.isEmpty then .error (.taken p.key.name none)
        else (define table p nodes).map (place, ·))
      [] p.path origin place nodes).map fun (place, nodes) =>
        ({ place with stop := p.place.stop }, nodes)

/-- What a header does to the table on whose entry it is: it opens the entry of a name, in the table
at a path. -/
abbrev Opening := List String → Key → Place → Nodes → Except Breach Nodes

/-- The refusal of a header whose name is taken. -/
def takenHeader (path : List String) (key : Key) : Breach :=
  .taken (writtenName key.name) (some path)

/-- Opens a table by its header.  A table that was implied before counts as defined here, behind all
that stands before the header. -/
def openTable : Opening := fun path key place nodes =>
  match nodes.lookup key.name with
  | none => .ok (insertEntry nodes key.name (.table .header place []))
  | some (.table .implied _ entries) =>
    .ok (insertEntry (nodes.filter (·.1 != key.name)) key.name (.table .header place entries))
  | some _ => .error (takenHeader path key)

/-- Opens the next table of a list of tables by its header. -/
def openItem : Opening := fun path key place nodes =>
  match nodes.lookup key.name with
  | none => .ok (insertEntry nodes key.name (.tables place [] []))
  | some (.tables there earlier last) =>
    .ok (insertEntry nodes key.name
      (.tables { there with stop := place.stop } (earlier ++ [last]) []))
  | some _ => .error (takenHeader path key)

end Nodes

/-- Where a part stands. -/
def Node.place : Node → Place
  | .leaf place _ => place
  | .table _ place _ => place
  | .tables place _ _ => place

mutual

/-- The value that a part has become. -/
def Node.value : Node → Value
  | .leaf _ v => v
  | .table _ _ entries => .table (nodeValues entries)
  | .tables _ earlier last => .list (tableValues earlier ++ [.table (nodeValues last)])

/-- The values of the entries of a table, and where they stand. -/
def nodeValues : List (String × Node) → List (String × Place × Value)
  | [] => []
  | (key, n) :: rest => (key, n.place, n.value) :: nodeValues rest

/-- The tables of a list. -/
def tableValues : List (List (String × Node)) → List Value
  | [] => []
  | t :: rest => .table (nodeValues t) :: tableValues rest

end

end BulkRun.Toml
