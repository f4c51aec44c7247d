import BulkRun.Toml.Fault
/-!
# Readers

A reader takes something off the front of a text and returns it with what follows, or comes to a
fault.  While a fault is not final, something else may be tried in the same place; what is read only
if it is there is then taken to be missing.
-/

namespace BulkRun.Toml

/-- A reader of something in front of a text. -/
abbrev Scan (α : Type) := List Char → Except Fault (α × List Char)

variable {α β : Type}

/-- Nothing can be read here. -/
def fail (rest : List Char) : Except Fault α := .error (.here rest)

/-- What begins here breaks a rule. -/
def refuse (rest : List Char) (b : Breach) : Except Fault α :=
  .error { Fault.here rest with breach := some b }

/-- Tells what was being read, unless it was told more closely. -/
def about (subject : String) (r : Except Fault α) : Except Fault α :=
  r.mapError fun f => { f with subject := f.subject.or (some subject) }

/-- Tells what else could have stood there. -/
def expecting (what : List String) (r : Except Fault α) : Except Fault α :=
  r.mapError fun f => { f with expected := f.expected ++ what }

/-- Nothing else can be meant here. -/
def certainly (r : Except Fault α) : Except Fault α := r.mapError fun f => { f with final := true }

/-- Reads in one way or else in another. -/
def either (first second : Scan α) : Scan α := fun cs =>
  match first cs with
  | .ok r => .ok r
  | .error f => if f.final then .error f else second cs

/-- Reads something that may be missing. -/
def optional (scan : Scan α) : Scan (Option α) := fun cs =>
  match scan cs with
  | .ok (a, rest) => .ok (some a, rest)
  | .error f => if f.final then .error f else .ok (none, cs)

/-- A certain character. -/
def scanChar (c : Char) : Scan Unit
  | [] => fail []
  | d :: rest => if d == c then .ok ((), rest) else fail (d :: rest)

/-- More items after a first one, each behind a separator, at most so many.  They end in front of a
separator that no item follows. -/
def moreItems (item : Scan α) (separator : Char) : Nat → Scan (List α)
  | 0, cs => .ok ([], cs)
  | count + 1, cs =>
    let next : Scan α := fun cs =>
      match scanChar separator cs with
      | .ok (_, cs) => item cs
      | .error f => .error f
    match optional next cs with
    | .error f => .error f
    | .ok (none, cs) => .ok ([], cs)
    | .ok (some a, cs) => (moreItems item separator count cs).map fun (as, r) => (a :: as, r)

/-- Items with a separator between them, at least one. -/
def someItems (item : Scan α) (separator : Char) : Scan (List α) := fun cs =>
  match item cs with
  | .error f => .error f
  | .ok (a, cs) => (moreItems item separator cs.length cs).map fun (as, r) => (a :: as, r)

/-- Items with a separator between them, perhaps none. -/
def manyItems (item : Scan α) (separator : Char) : Scan (List α) := fun cs =>
  (optional (someItems item separator) cs).map fun (items, r) => (items.getD [], r)

end BulkRun.Toml
