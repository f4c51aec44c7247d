import BulkRun.Engine
import BulkRun.InMemory.Actions
import BulkRun.InMemory.Focus
import BulkRun.InMemory.Sources
import BulkRun.InMemory.Transactions
/-!
# A world in memory

The collaborators of an engine, all in memory, and what they remember as one world.
-/

namespace BulkRun.InMemory

/-- What the collaborators remember, in the order in which they were given. -/
structure World where
  actions : List ActionMemory
  sources : List Source
  transactions : TransactionMemory

namespace World

/-- The memory of an action. -/
def actionAt (default : ActionMemory) (i : Nat) : Focus World ActionMemory :=
  Focus.comp ⟨World.actions, fun l w => { w with actions := l }⟩ (.item default i)

/-- The memory of a source. -/
def sourceAt (default : Source) (i : Nat) : Focus World Source :=
  Focus.comp ⟨World.sources, fun l w => { w with sources := l }⟩ (.item default i)

/-- Lets an action with a gate answer more calls. -/
def addPermits (w : World) (i count : Nat) : World :=
  match w.actions[i]? with
  | some (.recording a) =>
    { w with actions := w.actions.set i (.recording { a with gate := a.gate.map (· + count) }) }
  | _ => w

end World

/-- The action that a memory is for. -/
def ActionMemory.action (i : Nat) (m : ActionMemory) : Action World :=
  let memory := World.actionAt m i
  match m with
  | .recording a =>
    memory.comp
      ⟨fun m => match m with | .recording a => a | .scripted _ => a,
        fun a _ => .recording a⟩
      |>.action a.action
  | .scripted a =>
    memory.comp
      ⟨fun m => match m with | .scripted a => a | .recording _ => a,
        fun a _ => .scripted a⟩
      |>.action a.action

/-- The scroller that draws on a source. -/
def Source.scroller (i : Nat) (s : Source) : Scroller World :=
  let memory := World.sourceAt s i
  match s with
  | .queryLists a =>
    (memory.comp
      ⟨fun m => match m with | .queryLists a => a | _ => a,
        fun a _ => .queryLists a⟩).scroller
      (.query QueryLists.source)
  | .namedLists a =>
    (memory.comp
      ⟨fun m => match m with | .namedLists a => a | _ => a,
        fun a _ => .namedLists a⟩).scroller
      (.generic NamedLists.source)
  | .queryPages a =>
    (memory.comp
      ⟨fun m => match m with | .queryPages a => a | _ => a,
        fun a _ => .queryPages a⟩).scroller
      (.query PageScript.querySource)
  | .recordPages a =>
    (memory.comp
      ⟨fun m => match m with | .recordPages a => a | _ => a,
        fun a _ => .recordPages a⟩).scroller
      (.generic PageScript.recordSource)
  | .chunks kind a =>
    (memory.comp
      ⟨fun m => match m with | .chunks _ a => a | _ => a,
        fun a _ => .chunks kind a⟩).scroller
      (ChunkScript.scroller kind)

/-- A call of the transaction manager that the world holds. -/
def callTransactions (plain : TransactionMemory → Except TransactionError Unit × TransactionMemory)
    (w : World) : Except TransactionError Unit × World :=
  let (r, m) := plain w.transactions
  (r, { w with transactions := m })

/-- The transaction manager of a world. -/
def transactionManager : TransactionManager World :=
  let call (failing : BatchScope → FailingCommits → Except TransactionError Unit × FailingCommits)
      (scripted : BatchScope → TransactionScript → Except TransactionError Unit × TransactionScript)
      (s : BatchScope) : World → Except TransactionError Unit × World :=
    callTransactions fun m =>
      match m with
      | .none => (.ok (), .none)
      | .failing m => let (r, m) := failing s m; (r, .failing m)
      | .scripted m => let (r, m) := scripted s m; (r, .scripted m)
  ⟨call FailingCommits.manager.begin TransactionScript.manager.begin,
   call FailingCommits.manager.commit TransactionScript.manager.commit,
   call FailingCommits.manager.rollback TransactionScript.manager.rollback⟩

end BulkRun.InMemory
