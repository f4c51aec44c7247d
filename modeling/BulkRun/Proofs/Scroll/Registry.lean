import BulkRun.Scroll.Registry
/-!
# The registration of scrollers

A registry is put together from registrations and default names, one after the other.  In a registry
that was built a kind and a name find the last registration under them, and the default name of a
kind is the one set last (`resolve_assemble`).
-/

namespace BulkRun

namespace ScrollerRegistry

variable {α : Type}

/-- A step in putting a registry together. -/
inductive Step (α : Type) where
  | register (kind : ScrollerKind) (name : String) (item : α)
  | defaultFor (kind : ScrollerKind) (name : String)

/-- What a step registers under a kind and a name. -/
def Step.item? (kind : ScrollerKind) (name : String) : Step α → Option α
  | .register k n item => if (kind, name) == (k, n) then some item else none
  | .defaultFor _ _ => none

/-- The default name that a step sets for a kind. -/
def Step.default? (kind : ScrollerKind) : Step α → Option String
  | .register _ _ _ => none
  | .defaultFor k name => if kind == k then some name else none

/-- The registry after a step. -/
def take (r : ScrollerRegistry α) : Step α → ScrollerRegistry α
  | .register kind name item => r.register kind name item
  | .defaultFor kind name => r.defaultFor kind name

/-- The registry that some steps make, unless one of its default names is registered for nothing. -/
def assemble (steps : List (Step α)) : Except Error (ScrollerRegistry α) :=
  (steps.foldl take empty).build

/-- What some steps register last under a kind and a name. -/
def lastItem? (steps : List (Step α)) (kind : ScrollerKind) (name : String) : Option α :=
  steps.reverse.findSome? (Step.item? kind name)

/-- The name that the steps make a command go by: its own, the default name of its kind that was set
last, or `default`. -/
def nameIn (steps : List (Step α)) (d : Draft) : String :=
  (d.scroller.or (steps.reverse.findSome? (Step.default? d.scrollerKind))).getD "default"

variable {r r' : ScrollerRegistry α} {steps : List (Step α)}

theorem item_take (step : Step α) (kind : ScrollerKind) (name : String) :
    ((r.take step).find? kind name).map (·.item) =
      (step.item? kind name).or ((r.find? kind name).map (·.item)) := by
  cases step with
  | defaultFor k n => rfl
  | register k n item =>
    rw [take, register, find?, lookup_insertEntry, Step.item?]
    split <;> rfl

theorem default_take (step : Step α) (kind : ScrollerKind) :
    (r.take step).defaults.lookup kind = (step.default? kind).or (r.defaults.lookup kind) := by
  cases step with
  | register k n item => rfl
  | defaultFor k n =>
    rw [take, defaultFor, lookup_insertEntry, Step.default?]
    split <;> rfl

/-- What a registry tells and a step may replace is, after some steps, what the last step put there
that put anything. -/
theorem foldl_take {β : Type} {f : ScrollerRegistry α → Option β} {g : Step α → Option β}
    (hread : ∀ r step, f (take r step) = (g step).or (f r)) :
    f (steps.foldl take r) = (steps.reverse.findSome? g).or (f r) := by
  induction steps generalizing r with
  | nil => rw [List.foldl_nil, List.reverse_nil, List.findSome?_nil, Option.none_or]
  | cons step rest ih =>
    rw [List.foldl_cons, ih, hread, List.reverse_cons, List.findSome?_append, Option.or_assoc,
      List.findSome?_singleton]

theorem build_eq_ok (h : r.build = .ok r') : r' = r := by
  unfold build at h
  split at h
  · exact absurd h (by simp)
  · exact (Except.ok.inj h).symm

theorem item_assemble (h : assemble steps = .ok r) (kind : ScrollerKind) (name : String) :
    (r.find? kind name).map (·.item) = lastItem? steps kind name := by
  rw [build_eq_ok h,
    foldl_take (f := fun r => (r.find? kind name).map (·.item)) fun r step => item_take ..]
  exact Option.or_none

theorem nameFor_assemble (h : assemble steps = .ok r) (d : Draft) :
    r.nameFor d = nameIn steps d := by
  rw [nameFor, nameIn, build_eq_ok h,
    foldl_take (f := fun r => r.defaults.lookup d.scrollerKind) fun r step => default_take ..]
  congr 2
  exact Option.or_none

/-- The scroller of a command is the last one that was registered under its kind and its name. -/
theorem resolve_assemble (h : assemble steps = .ok r) (d : Draft) :
    (r.resolve d).map (·.item) =
      match lastItem? steps d.scrollerKind (nameIn steps d) with
      | some item => .ok item
      | none => .error (.unknownScroller (d.scrollerKind.name ++ "/" ++ nameIn steps d)) := by
  rewrite [← item_assemble h, ← nameFor_assemble h, resolve]
  cases r.find? d.scrollerKind (r.nameFor d) <;> rfl

end ScrollerRegistry

end BulkRun
