import BulkRun.Dispatch.Consumer
import BulkRun.Dispatch.ScrollLoop
import BulkRun.Status.Watch
/-!
# The running system

An engine with the scroll loops and the consumers that work on it, and with those who wait for the
end of commands.  They are tasks that take turns: a turn lasts until its task has to wait, and tasks
that can go on are served in the order in which they became able to.

A task may use what it shares with others only so many times in one turn: the channel, the permits
of actions, and the events.  When it wants to use it once more, it gives way until the end of the
round, and so many turns make a round.  Of the tasks that gave way in a round, the last one is
served first.  Between two rounds, whoever works on the system by hand has a look at it.
-/

namespace BulkRun

/-- Something that takes turns. -/
inductive Task where
  | scroll (key : PublisherKey)
  | consume (partition : Nat)
  | watch (place : Nat)
deriving DecidableEq, Repr

/-- An engine and its tasks. -/
structure System (σ : Type) where
  engine : Engine σ
  /-- The scroll loops, in the order of submission. -/
  loops : List (ScrollLoop σ)
  /-- The consumers, by partition. -/
  consumers : List (Consumer σ)
  /-- Those who wait for the end of commands, in the order in which they came. -/
  watches : List Watch
  /-- The tasks that are to take a turn, in order. -/
  queue : List Task
  /-- The tasks that gave way in this round, the last one first. -/
  yielded : List Task
  /-- How many times whoever works by hand may still use what is shared in this turn. -/
  allowance : Nat

namespace System

variable {σ : Type}

/-- How many times one may use what is shared in one turn. -/
def turnAllowance : Nat := 128

/-- An engine without tasks. -/
def ofEngine (e : Engine σ) : System σ := ⟨e, [], [], [], [], [], turnAllowance⟩

/-- The scroll loop of a key. -/
def loop? (s : System σ) (key : PublisherKey) : Option (ScrollLoop σ) :=
  s.loops.find? fun l => l.key == key

/-- Puts a scroll loop in the place of the one of its key. -/
def setLoop (s : System σ) (l : ScrollLoop σ) : System σ :=
  { s with loops := s.loops.map fun m => if m.key == l.key then l else m }

/-- Accepts a command and starts its scroll loop. -/
def submit (setup : Setup σ) (s : System σ) (c : Command) : Except Error (CommandId × System σ) :=
  match setup.prepare c with
  | .error err => .error err
  | .ok (c, scroller) =>
    match s.engine.tracker.register s.engine.now c with
    | .error err => .error err
    | .ok t =>
      let l : ScrollLoop σ :=
        ⟨s.loops.length, c, scroller.item, setup.dispatcher.fetchSize c, .created⟩
      let e := { s.engine with tracker := t, channel := s.engine.channel.addPublisher }
      .ok (c.id, { s with engine := e, loops := s.loops ++ [l] })

/-- Lets somebody wait for the end of a command, who is known by a place from now on. -/
def await (s : System σ) (id : CommandId) : Nat × System σ :=
  (s.watches.length, { s with watches := s.watches ++ [.created id] })

/-- The answer to the one in a place, once there is one. -/
def answer? (s : System σ) (place : Nat) : Option Waited := s.watches[place]?.bind (·.answer?)

/-- The number of scroll loops that have not ended. -/
def activeScrolls (s : System σ) : Nat := (s.loops.filter fun l => !l.isEnded).length

/-! ## Turns -/

/-- Whether a scroll loop can go on. -/
def loopCanRun (s : System σ) (l : ScrollLoop σ) : Bool :=
  !l.isEnded && !l.isBlocked s.engine

/-- Whether a consumer can go on. -/
def consumerCanRun (setup : Setup σ) (s : System σ) (c : Consumer σ) : Bool :=
  (c.step? setup s.engine).isSome

/-- The watches with something to do, by place. -/
def runnableWatches (s : System σ) : List Task :=
  s.watches.zipIdx.filterMap fun (w, place) =>
    (w.step? s.engine.tracker).map fun _ => Task.watch place

/-- The tasks that can go on: scroll loops that were given a place, then other loops, then
consumers, then watches. -/
def runnable (setup : Setup σ) (s : System σ) : List Task :=
  let canRun (key : PublisherKey) : Bool := ((s.loop? key).map s.loopCanRun).getD false
  let granted := (s.engine.channel.partitions.flatMap (·.granted)).filter canRun
  let loops := (s.loops.filter s.loopCanRun).map fun l => Task.scroll l.key
  let consumers := (s.consumers.filter (s.consumerCanRun setup)).map fun c =>
    Task.consume c.partition
  granted.map Task.scroll ++ loops ++ consumers ++ s.runnableWatches

/-- Puts every task that can go on at the end of the queue, unless it is queued or gave way. -/
def wake (setup : Setup σ) (s : System σ) : System σ :=
  { s with
    queue := (s.runnable setup).foldl
      (fun q t => if q.contains t || s.yielded.contains t then q else q ++ [t]) s.queue }

/-- Whether the next step of a task uses the channel, takes a permit or reads an event. -/
def spends (s : System σ) : Task → Bool
  | .scroll key => ((s.loop? key).map (·.spends)).getD false
  | .consume i => (s.consumers[i]?.map (·.spends)).getD false
  | .watch i => (s.watches[i]?.map (·.spends)).getD false

/-- Puts off the next step of a task, if there is anything to put off. -/
def putOff? (setup : Setup σ) (s : System σ) : Task → Option (System σ)
  | .scroll key =>
    ((s.loop? key).bind fun l => l.putOff? s.engine).map fun (l, e) =>
      { s with engine := e }.setLoop l
  | .consume i =>
    if (s.consumers[i]?.map fun c => c.canPutOff setup s.engine).getD false then some s else none
  | .watch _ => some s

/-- One step of a task; `none` when it has to wait or is over. -/
def stepTask? (setup : Setup σ) (s : System σ) : Task → Option (System σ)
  | .scroll key =>
    match s.loop? key with
    | none => none
    | some l =>
      if s.loopCanRun l then
        let (l, e) := l.resume s.engine
        some ({ s with engine := e }.setLoop l)
      else none
  | .consume i =>
    match s.consumers[i]? with
    | none => none
    | some c =>
      (c.step? setup s.engine).map fun (c, e) =>
        { s with engine := e, consumers := s.consumers.set i c }
  | .watch i =>
    (s.watches[i]?.bind (·.step? s.engine.tracker)).map fun w =>
      { s with watches := s.watches.set i w }

/-- The turn of a task: steps until it has to wait or is over, at most so many.  A task whose
allowance is spent puts off the step that needs more, and gives way. -/
def turn (setup : Setup σ) (t : Task) : Nat → Nat → System σ → System σ
  | 0, _, s => s
  | fuel + 1, allowance, s =>
    let spends := s.spends t
    match if spends && allowance == 0 then s.putOff? setup t else none with
    | some s => { s with yielded := t :: s.yielded }
    | none =>
      match s.stepTask? setup t with
      | none => s
      | some s => turn setup t fuel (if spends then allowance - 1 else allowance) s

/-- Lets the tasks in the queue take turns, at most so many. -/
def takeTurns (setup : Setup σ) (steps : Nat) : Nat → System σ → System σ
  | 0, s => s
  | count + 1, s =>
    match s.queue with
    | [] => s
    | t :: rest =>
      takeTurns setup steps count
        ((turn setup t steps turnAllowance { s with queue := rest }).wake setup)

/-- How many turns there are in a round. -/
def turnsPerRound : Nat := 61

/-- A round of turns.  At its end the tasks that gave way are queued again, the last one first, and
whoever works by hand has a new allowance. -/
def round (setup : Setup σ) (steps : Nat) (s : System σ) : System σ :=
  let s := takeTurns setup steps turnsPerRound (s.wake setup)
  { s with queue := s.queue ++ s.yielded, yielded := [], allowance := turnAllowance }

/-- Whether all tasks wait or are over. -/
def isIdle (s : System σ) : Bool := s.queue.isEmpty

/-- Lets the tasks take turns until all of them wait or are over.  There are at most `rounds` rounds
with turns of at most `steps` steps. -/
def settle (setup : Setup σ) (steps : Nat) : Nat → System σ → System σ
  | 0, s => s
  | rounds + 1, s =>
    let s := s.round setup steps
    if s.isIdle then s else settle setup steps rounds s

end System

end BulkRun
