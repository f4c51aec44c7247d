import BulkRun.Batch
import BulkRun.Engine
import BulkRun.Execution.Isolation
/-!
# Executing a bucket

A bucket is worked on batch after batch, each within a transaction of its own, and every batch is
reported to the tracker.  Before each batch the command is looked at: an aborted one gets no further
work.  A bucket that was worked through is remembered, so that a second delivery of it is skipped.

An execution advances in steps.  A step ends where the execution has to wait for the answer of a
collaborator; between two steps anything may happen to the commands.
-/

namespace BulkRun

/-- What became of a bucket. -/
inductive BucketOutcome where
  /-- All its batches were worked on. -/
  | processed (processed errors : Nat)
  | skippedTerminal
  /-- It was worked through before. -/
  | skippedDuplicate
  | skippedUnknown
  /-- The command was aborted with batches left. -/
  | interrupted (processed errors : Nat)
  /-- The action could not run, which aborted the command. -/
  | commandAborted
deriving DecidableEq, Repr

namespace BucketOutcome

/-- Whether the bucket was left alone. -/
def isSkipped : BucketOutcome → Bool
  | .skippedTerminal | .skippedDuplicate | .skippedUnknown => true
  | _ => false

/-- The name of an outcome. -/
def name : BucketOutcome → String
  | .processed _ _ => "Processed"
  | .skippedTerminal => "SkippedTerminal"
  | .skippedDuplicate => "SkippedDuplicate"
  | .skippedUnknown => "SkippedUnknown"
  | .interrupted _ _ => "Interrupted"
  | .commandAborted => "CommandAborted"

/-- The numbers of records worked on and failed, where there are any to tell. -/
def counts? : BucketOutcome → Option (Nat × Nat)
  | .processed p e | .interrupted p e => some (p, e)
  | _ => none

end BucketOutcome

/-- A batch that is worked on, and what surrounds it. -/
structure Work (σ : Type) where
  command : Command
  action : Action σ
  bucket : Bucket
  batch : Batch
  /-- The batches after this one. -/
  later : List Batch
  /-- The records of earlier batches. -/
  processed : Nat
  /-- The failures in earlier batches. -/
  errors : Nat

/-- Where the execution of a bucket stands. -/
inductive Execution (σ : Type) where
  /-- A transaction was asked for; the answer is on its way. -/
  | opening (w : Work σ) (answer : Except TransactionError Unit)
  /-- The action was called. -/
  | applying (w : Work σ) (call : Nat) (progress : Isolation)
  /-- The transaction is being committed; so many records of the batch failed. -/
  | committing (w : Work σ) (errors : Nat) (answer : Except TransactionError Unit)
  /-- The transaction is being rolled back. -/
  | rollingBack (w : Work σ) (cause : ActionError)
  | finished (result : Except Error BucketOutcome)

namespace Work

variable {σ : Type}

/-- The transaction scope of the batch. -/
def scope (w : Work σ) : BatchScope := ⟨w.command.id, w.bucket.sequence, w.batch.index⟩

end Work

namespace Execution

variable {σ : Type}

/-- Goes on to the next of some batches, or ends. -/
def nextBatch (setup : Setup σ) (command : Command) (action : Action σ) (bucket : Bucket)
    (left : List Batch) (processed errors : Nat) (e : Engine σ) : Execution σ × Engine σ :=
  match left with
  | [] =>
    match e.tracker.completeBucket e.now command.id bucket.sequence with
    | .error err => (.finished (.error err), e)
    | .ok (_, t) => (.finished (.ok (.processed processed errors)), { e with tracker := t })
  | batch :: later =>
    if e.tracker.isAborted command.id then (.finished (.ok (.interrupted processed errors)), e)
    else
      let w : Work σ := ⟨command, action, bucket, batch, later, processed, errors⟩
      let (answer, world) := setup.transactions.begin w.scope e.world
      (.opening w answer, { e with world := world })

/-- Begins to work on a bucket. -/
def start (setup : Setup σ) (bucket : Bucket) (e : Engine σ) : Execution σ × Engine σ :=
  match e.tracker.find? bucket.commandId with
  | none => (.finished (.ok .skippedUnknown), e)
  | some p =>
    if p.state.isTerminal then (.finished (.ok .skippedTerminal), e)
    else if p.isBucketDone bucket.sequence then (.finished (.ok .skippedDuplicate), e)
    else
      match setup.actions.resolve p.command.action with
      | .error err =>
        match e.tracker.abortWithError e.now bucket.commandId err.message with
        | .error err => (.finished (.error err), e)
        | .ok (_, t) => (.finished (.ok .commandAborted), { e with tracker := t })
      | .ok registered =>
        nextBatch setup p.command registered.action bucket
          (batches bucket.ids p.command.batchSize) 0 0 e

/-- Reports a batch of which so many records failed, and goes on to the next one. -/
def report (setup : Setup σ) (w : Work σ) (errors : Nat) (e : Engine σ) : Execution σ × Engine σ :=
  match e.tracker.recordBatch e.now w.command.id w.batch.ids.length errors with
  | .error err => (.finished (.error err), e)
  | .ok t =>
    nextBatch setup w.command w.action w.bucket w.later (w.processed + w.batch.ids.length)
      (w.errors + errors) { e with tracker := t }

/-- Calls the action for the next records of the batch, or closes the transaction. -/
def proceed (setup : Setup σ) (w : Work σ) (i : Isolation) (e : Engine σ) :
    Execution σ × Engine σ :=
  match i with
  | .done errors =>
    let (answer, world) := setup.transactions.commit w.scope e.world
    (.committing w errors answer, { e with world := world })
  | .failed cause =>
    let (_, world) := setup.transactions.rollback w.scope e.world
    (.rollingBack w cause, { e with world := world })
  | .whole ids =>
    let (call, world) := w.action.call (.of w.command) ids e.world
    (.applying w call i, { e with world := world })
  | .single id _ _ =>
    let (call, world) := w.action.call (.of w.command) [id] e.world
    (.applying w call i, { e with world := world })

/-- What follows a rollback: an action that cannot run ends its command, and otherwise the whole
batch counts as failed. -/
def rolledBack (setup : Setup σ) (w : Work σ) (cause : ActionError) (e : Engine σ) :
    Execution σ × Engine σ :=
  match cause with
  | .configuration _ =>
    match e.tracker.abortWithError e.now w.command.id cause.toError.message with
    | .error err => (.finished (.error err), e)
    | .ok (_, t) => (.finished (.ok .commandAborted), { e with tracker := t })
  | _ => report setup w w.batch.ids.length e

/-- One step; `none` when the execution waits for its action, or is finished. -/
def step? (setup : Setup σ) (x : Execution σ) (e : Engine σ) : Option (Execution σ × Engine σ) :=
  match x with
  | .opening w (.error _) => some (report setup w w.batch.ids.length e)
  | .opening w (.ok ()) => some (proceed setup w (.whole w.batch.ids) e)
  | .applying w call i =>
    match i.calling? with
    | none => some (proceed setup w i e)
    | some ids =>
      (w.action.poll (.of w.command) ids call e.world).map fun (reply, world) =>
        let e := { e with world := world }.interveneAll w.command.id reply.interventions
        proceed setup w (i.answer reply.result) e
  | .committing w errors (.ok ()) => some (report setup w errors e)
  | .committing w _ (.error _) => some (report setup w w.batch.ids.length e)
  | .rollingBack w cause => some (rolledBack setup w cause e)
  | .finished _ => none

/-- Whether the next step takes a permit of the action. -/
def takesPermit : Execution σ → Bool
  | .applying w _ i => w.action.takesPermit && i.calling?.isSome
  | _ => false

/-- Takes steps until the execution is finished or waits, at most so many. -/
def run (setup : Setup σ) : Nat → Execution σ → Engine σ → Execution σ × Engine σ
  | 0, x, e => (x, e)
  | fuel + 1, x, e =>
    match x.step? setup e with
    | none => (x, e)
    | some (x, e) => run setup fuel x e

/-- The result, once there is one. -/
def result? : Execution σ → Option (Except Error BucketOutcome)
  | .finished r => some r
  | _ => none

/-- Works on a bucket with nothing happening between the steps.  Each record takes at most one call,
and each batch, which has a record, two steps more. -/
def execute (setup : Setup σ) (bucket : Bucket) (e : Engine σ) : Execution σ × Engine σ :=
  let (x, e) := start setup bucket e
  x.run setup (3 * bucket.ids.length + 1) e

end Execution

end BulkRun
