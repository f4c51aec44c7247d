import BulkRun.Action.Basic
import BulkRun.Scroll.Scroller
/-!
# Parts of a world

A collaborator that knows a part of the world only, made into one of the whole world.
-/

namespace BulkRun

/-- A part of a world: how to look at it, and how to put a changed one in its place. -/
structure Focus (σ τ : Type) where
  get : σ → τ
  set : τ → σ → σ

namespace Focus

variable {σ τ : Type}

/-- The item of a list at a position; `default` stands for an item that is not there. -/
def item (default : τ) (i : Nat) : Focus (List τ) τ where
  get l := l[i]?.getD default
  set a l := l.set i a

/-- A part of a part. -/
def comp {υ : Type} (f : Focus σ τ) (g : Focus τ υ) : Focus σ υ where
  get s := g.get (f.get s)
  set a s := f.set (g.set a (f.get s)) s

/-- A call on a part as a call on the whole. -/
def within {α : Type} (f : Focus σ τ) (call : τ → α × τ) (s : σ) : α × σ :=
  let (a, t) := call (f.get s)
  (a, f.set t s)

/-- A scroller on a part as one on the whole. -/
def scroller (f : Focus σ τ) (x : Scroller τ) : Scroller σ where
  kind := x.kind
  start c := f.within (x.start c)
  reserved := x.reserved
  next c n s :=
    let (chunk, cursor, t) := x.next c n (f.get s)
    (chunk, cursor, f.set t s)

/-- An action on a part as one on the whole. -/
def action (f : Focus σ τ) (x : Action τ) : Action σ where
  validate := x.validate
  call ctx ids := f.within (x.call ctx ids)
  takesPermit := x.takesPermit
  poll ctx ids n s := (x.poll ctx ids n (f.get s)).map fun (reply, t) => (reply, f.set t s)

end Focus

end BulkRun
