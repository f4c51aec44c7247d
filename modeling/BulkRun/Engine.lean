import BulkRun.Action.Registry
import BulkRun.Channel.Basic
import BulkRun.Scroll.Registry
import BulkRun.Settings.Basic
import BulkRun.Status.Tracker
import BulkRun.Transaction
/-!
# The engine

What the parts of the engine have in common: the collaborators, which stay the same, and the state
that all of them work on.  Scroll loops and executions of buckets take turns on that state.
-/

namespace BulkRun

/-- The collaborators of an engine, and the settings of its dispatcher. -/
structure Setup (σ : Type) where
  actions : ActionRegistry (Action σ)
  scrollers : ScrollerRegistry (Scroller σ)
  transactions : TransactionManager σ
  dispatcher : DispatcherSettings

/-- The state that scroll loops and executions share. -/
structure Engine (σ : Type) where
  now : Timestamp
  tracker : Tracker
  channel : Channel
  /-- What the collaborators remember. -/
  world : σ

namespace Engine

variable {σ : Type}

/-- Cancels a command or drops commands on behalf of an action that works for `id`. -/
def intervene (id : CommandId) (e : Engine σ) : Intervention → Engine σ
  | .abort =>
    match e.tracker.abort e.now id with
    | .ok (_, t) => { e with tracker := t }
    | .error _ => e
  | .purge => { e with tracker := (e.tracker.purgeExpired e.now).2 }

/-- Carries out the interventions of an action, in order. -/
def interveneAll (id : CommandId) (e : Engine σ) (is : List Intervention) : Engine σ :=
  is.foldl (fun e i => e.intervene id i) e

end Engine

end BulkRun
