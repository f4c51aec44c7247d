import BulkRun.Action.Basic
/-!
# Actions in memory

An action that remembers the records it was applied to, and one that answers as written down
beforehand.
-/

namespace BulkRun.InMemory

/-- An action that remembers the records it was applied to. -/
structure RecordingAction where
  /-- The records it succeeded on, in order. -/
  applied : List String
  /-- The number of calls so far. -/
  calls : Nat
  /-- Records on which it stops. -/
  failing : List String
  /-- A parameter that it refuses. -/
  rejectedParam : Option String
  /-- What is wrong with it, if it cannot run. -/
  misconfigured : Option String
  /-- The number of calls it may answer, if that is bounded.  Calls are answered in the order in
  which they were made. -/
  gate : Option Nat
deriving DecidableEq, Repr

namespace RecordingAction

/-- Applies records in order until one fails. -/
def applyAll (a : RecordingAction) (done : List RecordOutcome) :
    List String → Except ActionError (List RecordOutcome) × RecordingAction
  | [] => (.ok done.reverse, a)
  | id :: rest =>
    if a.failing.contains id then (.error (.recordFailed id "rejected by action"), a)
    else applyAll { a with applied := a.applied ++ [id] } (⟨id, none⟩ :: done) rest

/-- The answer to a call. -/
def apply (ids : List String) (a : RecordingAction) :
    Except ActionError (List RecordOutcome) × RecordingAction :=
  match a.misconfigured with
  | some m => (.error (.configuration m), a)
  | none => a.applyAll [] ids

/-- Whether the gate lets a call through. -/
def admits (a : RecordingAction) (call : Nat) : Bool :=
  match a.gate with
  | none => true
  | some permits => call < permits

/-- Refuses a command with a certain parameter. -/
def validate (a : RecordingAction) (c : Command) : Except ActionError Unit :=
  match a.rejectedParam with
  | none => .ok ()
  | some key =>
    if (c.param? key).isSome then .error (.configuration ("param '" ++ key ++ "' is not supported"))
    else .ok ()

/-- The action that starts out like this. -/
def action (initial : RecordingAction) : Action RecordingAction where
  validate := initial.validate
  call _ _ a := (a.calls, { a with calls := a.calls + 1 })
  takesPermit := initial.gate.isSome
  poll _ ids n a :=
    if a.admits n then
      let (r, a) := a.apply ids
      some (⟨[], r⟩, a)
    else none

end RecordingAction

/-- What a scripted action answers. -/
inductive ScriptedAnswer where
  | fail (e : ActionError)
  | outcomes (os : List RecordOutcome)
  /-- Success on every record, but for those in `failing` and without the last `drop` ones. -/
  | succeed (failing : List String) (drop : Nat)
deriving DecidableEq, Repr

/-- One call of a scripted action. -/
structure ScriptEntry where
  interventions : List Intervention
  answer : ScriptedAnswer
deriving DecidableEq, Repr

/-- A call that was made. -/
structure ActionCall where
  ids : List String
  context : ActionContext

/-- An action that answers as written down beforehand; later calls succeed. -/
structure ScriptedAction where
  script : List ScriptEntry
  /-- Its answer to every command, if it refuses them. -/
  refusal : Option ActionError
  calls : List ActionCall

namespace ScriptedAction

/-- The entry of a call. -/
def entry (a : ScriptedAction) (call : Nat) : ScriptEntry :=
  a.script[call]?.getD ⟨[], .succeed [] 0⟩

/-- The result that an answer stands for, for some records. -/
def ScriptedAnswer.result (answer : ScriptedAnswer) (ids : List String) :
    Except ActionError (List RecordOutcome) :=
  match answer with
  | .fail e => .error e
  | .outcomes os => .ok os
  | .succeed failing drop =>
    .ok ((ids.take (ids.length - drop)).map fun id =>
      ⟨id, if failing.contains id then some "scripted failure" else none⟩)

/-- The action that starts out like this. -/
def action (initial : ScriptedAction) : Action ScriptedAction where
  validate _ :=
    match initial.refusal with
    | some e => .error e
    | none => .ok ()
  call ctx ids a := (a.calls.length, { a with calls := a.calls ++ [⟨ids, ctx⟩] })
  takesPermit := false
  poll _ ids n a :=
    let entry := a.entry n
    some (⟨entry.interventions, ScriptedAnswer.result entry.answer ids⟩, a)

end ScriptedAction

/-- What an action in memory remembers. -/
inductive ActionMemory where
  | recording (a : RecordingAction)
  | scripted (a : ScriptedAction)

end BulkRun.InMemory
