import BulkRun.Scroll.Scroller
/-!
# The scroller registry

Scrollers are found by kind and name.  A command may name its scroller; otherwise the name is the
one set as the default of the kind, or `default`.
-/

namespace BulkRun

/-- Something registered, and the number of registrations before it. -/
structure Numbered (α : Type) where
  number : Nat
  item : α

/-- Entries by kind and name, and the default name of each kind. -/
structure ScrollerRegistry (α : Type) where
  entries : List ((ScrollerKind × String) × Numbered α)
  defaults : List (ScrollerKind × String)
  /-- The number of registrations so far. -/
  registered : Nat

namespace ScrollerRegistry

variable {α : Type}

/-- The registry without entries. -/
def empty : ScrollerRegistry α := ⟨[], [], 0⟩

/-- Registers a scroller in the place of one of that kind and name. -/
def register (r : ScrollerRegistry α) (kind : ScrollerKind) (name : String) (item : α) :
    ScrollerRegistry α :=
  { r with
    entries := insertEntry r.entries (kind, name) ⟨r.registered, item⟩
    registered := r.registered + 1 }

/-- Sets the default name of a kind. -/
def defaultFor (r : ScrollerRegistry α) (kind : ScrollerKind) (name : String) :
    ScrollerRegistry α :=
  { r with defaults := insertEntry r.defaults kind name }

/-- The entry of a kind and name. -/
def find? (r : ScrollerRegistry α) (kind : ScrollerKind) (name : String) : Option (Numbered α) :=
  r.entries.lookup (kind, name)

/-- Whether there is an entry of a kind and name. -/
def contains (r : ScrollerRegistry α) (kind : ScrollerKind) (name : String) : Bool :=
  (r.find? kind name).isSome

/-- The number of entries. -/
def size (r : ScrollerRegistry α) : Nat := r.entries.length

/-- Refuses a default name that no entry has. -/
def build (r : ScrollerRegistry α) : Except Error (ScrollerRegistry α) :=
  match r.defaults.find? fun (kind, name) => !r.contains kind name with
  | some (kind, name) =>
    .error (.configuration
      ("Default " ++ kind.name ++ " scroller '" ++ name ++ "' is not registered"))
  | none => .ok r

/-- The name under which the scroller of a draft is looked up. -/
def nameFor (r : ScrollerRegistry α) (d : Draft) : String :=
  (d.scroller.or (r.defaults.lookup d.scrollerKind)).getD "default"

/-- The entry for a draft. -/
def resolve (r : ScrollerRegistry α) (d : Draft) : Except Error (Numbered α) :=
  let name := r.nameFor d
  match r.find? d.scrollerKind name with
  | some a => .ok a
  | none => .error (.unknownScroller (d.scrollerKind.name ++ "/" ++ name))

end ScrollerRegistry

end BulkRun
