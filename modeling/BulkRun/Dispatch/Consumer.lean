import BulkRun.Execution.Basic
/-!
# Consumers

A consumer receives the buckets of one partition, has each executed, acknowledges it whatever came
of it, and keeps count.  It stops when nothing is left in its partition and nobody may publish any
more.
-/

namespace BulkRun

/-- What a consumer did. -/
structure ConsumerSummary where
  partition : Nat
  bucketsExecuted : Nat
  bucketsSkipped : Nat
  /-- Buckets whose command was aborted while they were worked on. -/
  bucketsInterrupted : Nat
  /-- Buckets whose command was gone while they were worked on. -/
  failures : Nat
deriving DecidableEq, Repr

/-- Counts the result of one bucket. -/
def ConsumerSummary.count (s : ConsumerSummary) : Except Error BucketOutcome → ConsumerSummary
  | .error _ => { s with failures := s.failures + 1 }
  | .ok (.processed _ _) => { s with bucketsExecuted := s.bucketsExecuted + 1 }
  | .ok outcome =>
    if outcome.isSkipped then { s with bucketsSkipped := s.bucketsSkipped + 1 }
    else { s with bucketsInterrupted := s.bucketsInterrupted + 1 }

/-- Where a consumer stands. -/
inductive ConsumerPhase (σ : Type) where
  /-- It is about to receive. -/
  | idle
  /-- It found its stash empty and turns to the queue. -/
  | suspended
  | executing (delivery : Delivery) (execution : Execution σ)
  | stopped

/-- The receiver of one partition. -/
structure Consumer (σ : Type) where
  summary : ConsumerSummary
  phase : ConsumerPhase σ

namespace Consumer

variable {σ : Type}

/-- A consumer that has received nothing yet. -/
def new (partition : Nat) : Consumer σ := ⟨⟨partition, 0, 0, 0, 0⟩, .idle⟩

/-- The partition it receives from. -/
def partition (c : Consumer σ) : Nat := c.summary.partition

/-- Acknowledges a bucket once its execution is finished. -/
def settle (c : Consumer σ) (d : Delivery) (x : Execution σ) (e : Engine σ) :
    Consumer σ × Engine σ :=
  match x.result? with
  | none => ({ c with phase := .executing d x }, e)
  | some r => (⟨c.summary.count r, .idle⟩, { e with channel := e.channel.acknowledge })

/-- Begins to work on a delivery. -/
def begin (setup : Setup σ) (c : Consumer σ) (d : Delivery) (e : Engine σ) :
    Consumer σ × Engine σ :=
  let (x, e) := Execution.start setup d.bucket e
  c.settle d x e

/-- Receives from the queue; `none` when the consumer has to wait. -/
def receive? (setup : Setup σ) (c : Consumer σ) (e : Engine σ) : Option (Consumer σ × Engine σ) :=
  match e.channel.dequeue? c.partition with
  | some (d, ch) => some (c.begin setup d { e with channel := ch })
  | none => if e.channel.isFinished then some ({ c with phase := .stopped }, e) else none

/-- One step; `none` when the consumer has to wait, or has stopped. -/
def step? (setup : Setup σ) (c : Consumer σ) (e : Engine σ) : Option (Consumer σ × Engine σ) :=
  match c.phase with
  | .idle =>
    match e.channel.unstash? c.partition with
    | some (d, ch) => some (c.begin setup d { e with channel := ch })
    | none => some ({ c with phase := .suspended }, e)
  | .suspended => c.receive? setup e
  | .executing d x => (x.step? setup e).map fun (x, e) => c.settle d x e
  | .stopped => none

/-- Whether the next step receives from the queue of the partition or takes a permit. -/
def spends (c : Consumer σ) : Bool :=
  match c.phase with
  | .suspended => true
  | .executing _ x => x.takesPermit
  | _ => false

/-- Whether there is anything to put off when the consumer should not go on.  It does not look into
the queue of its partition for that. -/
def canPutOff (setup : Setup σ) (c : Consumer σ) (e : Engine σ) : Bool :=
  match c.phase with
  | .suspended => true
  | _ => (c.step? setup e).isSome

end Consumer

end BulkRun
