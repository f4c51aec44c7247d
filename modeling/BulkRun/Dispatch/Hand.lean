import BulkRun.Dispatch.System
/-!
# Working by hand

Somebody who is none of the tasks may publish, receive and execute buckets as well, and wait for the
end of a command.  What is done by hand is done between two turns of the tasks, and counts as one
turn: when its allowance is spent, or while it waits, the tasks have a round.
-/

namespace BulkRun.System

variable {σ : Type}

/-! ## The channel -/

/-- Publishes a bucket; `none` when one would have to wait. -/
def publish (s : System σ) (b : Bucket) : Except Error (Option (System σ)) :=
  (s.engine.channel.offer b).map fun offered =>
    match offered with
    | none => none
    | some ch =>
      if s.allowance = 0 then none
      else
        some { s with engine := { s.engine with channel := ch }, allowance := s.allowance - 1 }

/-- Receives from a partition; `none` when one would have to wait. -/
def receive? (s : System σ) (i : Nat) : Option (Delivery × System σ) :=
  match s.engine.channel.unstash? i, s.engine.channel.dequeue? i with
  | some (d, ch), _ => some (d, { s with engine := { s.engine with channel := ch } })
  | none, none => none
  | none, some (d, ch) =>
    if s.allowance = 0 then none
    else
      some (d, { s with engine := { s.engine with channel := ch }, allowance := s.allowance - 1 })

/-! ## Buckets -/

/-- Takes steps of an execution until it is finished or waits, at most so many, rounds included. -/
def runExecution (setup : Setup σ) (steps : Nat) :
    Nat → Execution σ → System σ → Execution σ × System σ
  | 0, x, s => (x, s)
  | fuel + 1, x, s =>
    match x.step? setup s.engine with
    | none => (x, s)
    | some (y, e) =>
      if !x.takesPermit then runExecution setup steps fuel y { s with engine := e }
      else if s.allowance = 0 then runExecution setup steps fuel x (s.round setup steps)
      else
        runExecution setup steps fuel y { s with engine := e, allowance := s.allowance - 1 }

/-- Works on a bucket.  Each record takes at most one call, and a round before it; each batch, which
has a record, takes two steps more. -/
def execute (setup : Setup σ) (steps : Nat) (b : Bucket) (s : System σ) :
    Execution σ × System σ :=
  let (x, e) := Execution.start setup b s.engine
  runExecution setup steps (4 * b.ids.length + 1) x { s with engine := e }

/-- Receives, executes and acknowledges buckets of a partition until it is empty, at most so many;
each with its execution. -/
def workOff (setup : Setup σ) (steps : Nat) (i : Nat) :
    Nat → System σ → List (Bucket × Execution σ) × System σ
  | 0, s => ([], s)
  | count + 1, s =>
    match s.engine.channel.take? i with
    | none => ([], s)
    | some (d, ch) =>
      let s := { s with engine := { s.engine with channel := ch } }
      let (x, s) := s.execute setup steps d.bucket
      let s := { s with engine := { s.engine with channel := s.engine.channel.acknowledge } }
      let (more, s) := workOff setup steps i count s
      ((d.bucket, x) :: more, s)

/-! ## Waiting -/

/-- Waits while the tasks have rounds, at most so many; the answer is negative when all of them wait
and the command has not ended. -/
def watch (setup : Setup σ) (steps : Nat) : Nat → Waiter → System σ → Waited × System σ
  | 0, _, s => (.ok false, s)
  | rounds + 1, w, s =>
    let s := s.round setup steps
    match w.run s.engine.tracker s.allowance with
    | .inl answer => (answer, s)
    | .inr w =>
      if s.isIdle && (w.step? s.engine.tracker).isNone then (.ok false, s)
      else watch setup steps rounds w s

/-- Tells somebody who waits that the time is up. -/
def dismiss (s : System σ) (place : Nat) : System σ :=
  { s with watches := s.watches.set place (.answered (.ok false)) }

/-- Waits for the answer to a watch while the tasks have rounds, at most so many; the answer is
negative when all of them wait, and the watch ends with it. -/
def join (setup : Setup σ) (steps : Nat) (place : Nat) : Nat → System σ → Waited × System σ
  | 0, s => (.ok false, s.dismiss place)
  | rounds + 1, s =>
    match s.answer? place with
    | some answer => (answer, s)
    | none =>
      let s := s.round setup steps
      if s.isIdle && (s.answer? place).isNone then (.ok false, s.dismiss place)
      else join setup steps place rounds s

/-- Waits for the end of a command. -/
def awaitCompletion (setup : Setup σ) (steps rounds : Nat) (s : System σ) (id : CommandId) :
    Waited × System σ :=
  match Waiter.start s.engine.tracker id with
  | .inl answer => (answer, s)
  | .inr w => watch setup steps rounds w s

end BulkRun.System
