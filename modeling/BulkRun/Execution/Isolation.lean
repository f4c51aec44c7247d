import BulkRun.Action.Basic
/-!
# Isolating failures within a batch

An action is applied to all records of a batch in one call.  When it stops on a record, that record
counts as failed, and each record after it is applied on its own, so that one bad record never drops
its neighbours.  Only a failure that concerns the whole batch is passed on.
-/

namespace BulkRun

/-- How far a batch has been applied. -/
inductive Isolation where
  /-- All its records are being applied in one call. -/
  | whole (ids : List String)
  /-- One record is being applied; others come after it. -/
  | single (id : String) (later : List String) (errors : Nat)
  /-- All were applied, and so many failed. -/
  | done (errors : Nat)
  | failed (cause : ActionError)
deriving DecidableEq, Repr

/-- The number of failures among `expected` records; a record without an outcome was not worked
on. -/
def failures (outcomes : List RecordOutcome) (expected : Nat) : Nat :=
  (outcomes.filter fun o => !o.isSuccess).length + (expected - outcomes.length)

namespace Isolation

/-- Goes on to the first of some records. -/
def next (later : List String) (errors : Nat) : Isolation :=
  match later with
  | [] => .done errors
  | id :: rest => .single id rest errors

/-- The records that a call is about, while there is one. -/
def calling? : Isolation → Option (List String)
  | .whole ids => some ids
  | .single id _ _ => some [id]
  | _ => none

/-- Takes up the answer to the call. -/
def answer (i : Isolation) (r : Except ActionError (List RecordOutcome)) : Isolation :=
  match i, r with
  | .whole ids, .ok outcomes => .done (failures outcomes ids.length)
  | .whole ids, .error (.recordFailed record _) =>
    match ids.idxOf? record with
    | none => .done ids.length
    | some k => next (ids.drop (k + 1)) 1
  | .single _ later errors, .ok outcomes => next later (errors + failures outcomes 1)
  | .single _ later errors, .error (.recordFailed _ _) => next later (errors + 1)
  | .whole _, .error cause => .failed cause
  | .single _ _ _, .error cause => .failed cause
  | i, _ => i

/-- Applies records in a world where every call is answered at once, with at most `fuel` calls. -/
def run {σ : Type} (apply : List String → σ → Except ActionError (List RecordOutcome) × σ) :
    Nat → Isolation → σ → Isolation × σ
  | 0, i, s => (i, s)
  | fuel + 1, i, s =>
    match i.calling? with
    | none => (i, s)
    | some ids =>
      let (r, s) := apply ids s
      run apply fuel (i.answer r) s

end Isolation

end BulkRun
