import BulkRun.Execution.Basic
import BulkRun.Proofs.Run
/-!
# Watching an execution

What passes between an execution and its collaborators is written down by the collaborators
themselves: each notes the calls it gets, with its answers, and answers as it would have done
without.  A stint is an execution at work with the notes that were taken so far.  That the execution
is not disturbed by the notes, and which notes a step leaves, is shown function by function.
-/

namespace BulkRun

variable {σ : Type}

/-- What passes between an execution and its collaborators. -/
inductive Note where
  /-- A transaction was asked for. -/
  | began (scope : BatchScope) (answer : Except TransactionError Unit)
  /-- The action was called for some records. -/
  | called (ids : List String)
  /-- A call of the action was answered. -/
  | answered (ids : List String) (reply : ActionReply)
  | committed (scope : BatchScope) (answer : Except TransactionError Unit)
  | rolledBack (scope : BatchScope) (answer : Except TransactionError Unit)

/-- What has passed so far. -/
abbrev Journal : Type := List Note

/-! ## Collaborators that take notes -/

/-- The same transactions, noted. -/
def TransactionManager.noted (m : TransactionManager σ) : TransactionManager (σ × Journal) where
  begin s w := ((m.begin s w.1).1, (m.begin s w.1).2, w.2 ++ [.began s (m.begin s w.1).1])
  commit s w := ((m.commit s w.1).1, (m.commit s w.1).2, w.2 ++ [.committed s (m.commit s w.1).1])
  rollback s w :=
    ((m.rollback s w.1).1, (m.rollback s w.1).2, w.2 ++ [.rolledBack s (m.rollback s w.1).1])

/-- The same action, which notes its calls and its answers. -/
def Action.noted (a : Action σ) : Action (σ × Journal) where
  validate := a.validate
  call context ids w :=
    ((a.call context ids w.1).1, (a.call context ids w.1).2, w.2 ++ [.called ids])
  takesPermit := a.takesPermit
  poll context ids call w :=
    (a.poll context ids call w.1).map fun r => (r.1, r.2, w.2 ++ [.answered ids r.1])

/-- The same action under the same descriptor. -/
def RegisteredAction.noted (r : RegisteredAction (Action σ)) :
    RegisteredAction (Action (σ × Journal)) :=
  ⟨r.descriptor, r.action.noted⟩

/-- The collaborators of executions, all of which take notes. -/
def Setup.noted (setup : Setup σ) : Setup (σ × Journal) where
  actions := ⟨setup.actions.entries.map fun entry => (entry.1, entry.2.noted)⟩
  scrollers := .empty
  transactions := setup.transactions.noted
  dispatcher := setup.dispatcher

theorem resolve_noted (setup : Setup σ) (name : String) :
    setup.noted.actions.resolve name =
      (setup.actions.resolve name).map RegisteredAction.noted := by
  have hlookup (entries : List (String × RegisteredAction (Action σ))) :
      (entries.map fun entry => (entry.1, entry.2.noted)).lookup name =
        (entries.lookup name).map RegisteredAction.noted := by
    induction entries with
    | nil => rfl
    | cons entry rest ih =>
      rw [List.map_cons, List.lookup_cons, List.lookup_cons]
      cases name == entry.1 with
      | true => rfl
      | false => exact ih
  unfold ActionRegistry.resolve ActionRegistry.find? Setup.noted
  rw [hlookup]
  cases setup.actions.entries.lookup name <;> rfl

/-- An engine of which the collaborators have taken notes. -/
def Engine.noted (e : Engine σ) (j : Journal) : Engine (σ × Journal) :=
  ⟨e.now, e.tracker, e.channel, (e.world, j)⟩

/-- The same work, with an action that takes notes. -/
def Work.noted (w : Work σ) : Work (σ × Journal) :=
  ⟨w.command, w.action.noted, w.bucket, w.batch, w.later, w.processed, w.errors⟩

namespace Execution

/-- The same execution, with an action that takes notes. -/
def noted : Execution σ → Execution (σ × Journal)
  | .opening w answer => .opening w.noted answer
  | .applying w call i => .applying w.noted call i
  | .committing w errors answer => .committing w.noted errors answer
  | .rollingBack w cause => .rollingBack w.noted cause
  | .finished result => .finished result

/-- What the next step reports to the tracker, if it does: a batch and how many of its records
failed. -/
def report? : Execution σ → Option (Work σ × Nat)
  | .opening w (.error _) => some (w, w.batch.ids.length)
  | .committing w errors (.ok ()) => some (w, errors)
  | .committing w _ (.error _) => some (w, w.batch.ids.length)
  | .rollingBack _ (.configuration _) => none
  | .rollingBack w _ => some (w, w.batch.ids.length)
  | _ => none

theorem step?_of_report? {setup : Setup σ} {x : Execution σ} {w : Work σ} {errors : Nat}
    (h : x.report? = some (w, errors)) (e : Engine σ) :
    x.step? setup e = some (report setup w errors e) := by
  cases x with
  | opening v answer =>
    cases answer with
    | error err =>
      obtain ⟨rfl, rfl⟩ := Prod.mk.inj (Option.some.inj h)
      rfl
    | ok => exact absurd h (by simp [report?])
  | committing v n answer =>
    cases answer with
    | error err =>
      obtain ⟨rfl, rfl⟩ := Prod.mk.inj (Option.some.inj h)
      rfl
    | ok =>
      obtain ⟨rfl, rfl⟩ := Prod.mk.inj (Option.some.inj h)
      rfl
  | rollingBack v cause =>
    cases cause with
    | configuration m => exact absurd h (by simp [report?])
    | _ =>
      obtain ⟨rfl, rfl⟩ := Prod.mk.inj (Option.some.inj h)
      rfl
  | _ => exact absurd h (by simp [report?])

theorem noted_report? {x : Execution σ} {w : Work σ} {errors : Nat}
    (h : x.report? = some (w, errors)) : x.noted.report? = some (w.noted, errors) := by
  have hmap : x.noted.report? = x.report?.map fun r => (r.1.noted, r.2) := by
    cases x with
    | opening v answer => cases answer <;> rfl
    | committing v n answer => cases answer <;> rfl
    | rollingBack v cause => cases cause <;> rfl
    | _ => rfl
  rw [hmap, h]
  rfl

/-- What passes at the first step of the work on a bucket. -/
def passedAtStart (setup : Setup σ) (b : Bucket) (e : Engine σ) : Journal :=
  (start setup.noted b (e.noted [])).2.world.2

/-- What passes at a step. -/
def passed (setup : Setup σ) (x : Execution σ) (e : Engine σ) : Journal :=
  match x.noted.step? setup.noted (e.noted []) with
  | some r => r.2.world.2
  | none => []

/-! ## Which notes are taken -/

/-- The note of a transaction that was asked for last. -/
def opens : Execution σ → Journal
  | .opening w answer => [.began w.scope answer]
  | _ => []

/-- The note of what is done for the next records of a batch, or at its end. -/
def proceeds (setup : Setup σ) (w : Work σ) (i : Isolation) (e : Engine σ) : Note :=
  match i with
  | .whole ids => .called ids
  | .single id _ _ => .called [id]
  | .done _ => .committed w.scope (setup.transactions.commit w.scope e.world).1
  | .failed _ => .rolledBack w.scope (setup.transactions.rollback w.scope e.world).1

variable {setup : Setup σ} {w : Work σ} {e : Engine σ}

theorem nextBatch_noted (command : Command) (action : Action σ) (b : Bucket) (left : List Batch)
    (processed errors : Nat) (e : Engine σ) (j : Journal) :
    nextBatch setup.noted command action.noted b left processed errors (e.noted j) =
      ((nextBatch setup command action b left processed errors e).1.noted,
        (nextBatch setup command action b left processed errors e).2.noted
          (j ++ (nextBatch setup command action b left processed errors e).1.opens)) := by
  cases left with
  | nil =>
    simp only [nextBatch, Engine.noted]
    cases e.tracker.completeBucket e.now command.id b.sequence with
    | error err => simp only [noted, opens, List.append_nil]
    | ok t => simp only [noted, opens, List.append_nil]
  | cons batch later =>
    cases haborted : e.tracker.isAborted command.id with
    | true =>
      simp only [nextBatch, Engine.noted, haborted, if_true, noted, opens, List.append_nil]
    | false =>
      simp only [nextBatch, Engine.noted, haborted, Bool.false_eq_true, if_false]
      rfl

theorem report_noted (w : Work σ) (errors : Nat) (e : Engine σ) (j : Journal) :
    report setup.noted w.noted errors (e.noted j) =
      ((report setup w errors e).1.noted,
        (report setup w errors e).2.noted (j ++ (report setup w errors e).1.opens)) := by
  simp only [report, Engine.noted, Work.noted]
  cases e.tracker.recordBatch e.now w.command.id w.batch.ids.length errors with
  | error err => simp only [noted, opens, List.append_nil]
  | ok t => exact nextBatch_noted w.command w.action w.bucket w.later _ _ { e with tracker := t } j

theorem proceed_noted (w : Work σ) (i : Isolation) (e : Engine σ) (j : Journal) :
    proceed setup.noted w.noted i (e.noted j) =
      ((proceed setup w i e).1.noted,
        (proceed setup w i e).2.noted (j ++ [proceeds setup w i e])) := by
  cases i with
  | _ => rfl

theorem interveneAll_noted (id : CommandId) (e : Engine σ) (j : Journal) (is : List Intervention) :
    (e.noted j).interveneAll id is = (e.interveneAll id is).noted j := by
  induction is generalizing e with
  | nil => rfl
  | cons i is ih =>
    have hfirst : (e.noted j).intervene id i = (e.intervene id i).noted j := by
      cases i with
      | abort =>
        simp only [Engine.intervene, Engine.noted]
        split <;> rfl
      | purge => rfl
    show ((e.noted j).intervene id i).interveneAll id is = _
    rw [hfirst, ih]
    rfl

/-- The work on a bucket begins as it does without notes. -/
theorem start_noted (b : Bucket) (e : Engine σ) (j : Journal) :
    start setup.noted b (e.noted j) =
      ((start setup b e).1.noted, (start setup b e).2.noted (j ++ (start setup b e).1.opens)) := by
  simp only [start, Engine.noted]
  cases e.tracker.find? b.commandId with
  | none => simp only [noted, opens, List.append_nil]
  | some p =>
    dsimp only
    split
    · simp only [noted, opens, List.append_nil]
    · split
      · simp only [noted, opens, List.append_nil]
      · rw [resolve_noted]
        cases setup.actions.resolve p.command.action with
        | error err =>
          simp only [Except.map]
          cases e.tracker.abortWithError e.now b.commandId err.message with
          | error err => simp only [noted, opens, List.append_nil]
          | ok r => simp only [noted, opens, List.append_nil]
        | ok registered => exact nextBatch_noted p.command registered.action b _ 0 0 e j

theorem passedAtStart_eq (b : Bucket) (e : Engine σ) :
    passedAtStart setup b e = (start setup b e).1.opens := by
  rw [passedAtStart, start_noted]
  rfl

theorem rolledBack_noted (w : Work σ) (cause : ActionError) (e : Engine σ) (j : Journal) :
    rolledBack setup.noted w.noted cause (e.noted j) =
      ((rolledBack setup w cause e).1.noted,
        (rolledBack setup w cause e).2.noted (j ++ (rolledBack setup w cause e).1.opens)) := by
  cases cause with
  | configuration m =>
    simp only [rolledBack, Engine.noted, Work.noted]
    cases e.tracker.abortWithError e.now w.command.id (ActionError.configuration m).toError.message
    with
    | error err => simp only [noted, opens, List.append_nil]
    | ok r => simp only [noted, opens, List.append_nil]
  | recordFailed record m => exact report_noted w _ e j
  | transaction m => exact report_noted w _ e j

/-! ## Steps -/

theorem passed_of_report? {x : Execution σ} {errors : Nat} (h : x.report? = some (w, errors)) :
    passed setup x e = (report setup w errors e).1.opens := by
  rw [passed, step?_of_report? (noted_report? h)]
  dsimp only
  rw [report_noted]
  rfl

theorem passed_rolledBack (cause : ActionError) :
    passed setup (.rollingBack w cause) e = (rolledBack setup w cause e).1.opens := by
  show (rolledBack setup.noted w.noted cause (e.noted [])).2.world.2 = _
  rw [rolledBack_noted]
  rfl

section Answer

variable {call : Nat} {i : Isolation} {ids : List String} {reply : ActionReply} {world : σ}

/-- An answer that is noted leads where the answer does. -/
theorem step?_noted_answered (hcalling : i.calling? = some ids)
    (hpoll : w.action.poll (.of w.command) ids call e.world = some (reply, world)) (j : Journal) :
    (noted (.applying w call i)).step? setup.noted (e.noted j) =
      some (proceed setup.noted w.noted (i.answer reply.result)
        (({ e with world := world }.interveneAll w.command.id reply.interventions).noted
          (j ++ [Note.answered ids reply]))) := by
  have hnoted : w.noted.action.poll (.of w.noted.command) ids call (e.noted j).world =
      some (reply, world, j ++ [Note.answered ids reply]) := by
    show ((w.action.poll (.of w.command) ids call e.world).map _) = _
    rw [hpoll]
    rfl
  simp only [noted, step?, hcalling, hnoted, Option.map_some]
  rw [← interveneAll_noted]
  rfl

theorem passed_answered (hcalling : i.calling? = some ids)
    (hpoll : w.action.poll (.of w.command) ids call e.world = some (reply, world)) :
    passed setup (.applying w call i) e =
      [.answered ids reply, proceeds setup w (i.answer reply.result)
        ({ e with world := world }.interveneAll w.command.id reply.interventions)] := by
  rw [passed, step?_noted_answered hcalling hpoll]
  dsimp only
  rw [proceed_noted]
  rfl

end Answer

/-- With collaborators that take notes an execution does what it does without, step by step. -/
theorem step?_noted (x : Execution σ) (e : Engine σ) (j : Journal) :
    x.noted.step? setup.noted (e.noted j) =
      (x.step? setup e).map fun r => (r.1.noted, r.2.noted (j ++ x.passed setup e)) := by
  cases x with
  | opening w answer =>
    cases answer with
    | error err =>
      rw [passed_of_report? rfl]
      exact congrArg some (report_noted w w.batch.ids.length e j)
    | ok => exact congrArg some (proceed_noted w (.whole w.batch.ids) e j)
  | applying w call i =>
    cases hcalling : i.calling? with
    | none =>
      have hpassed : passed setup (.applying w call i) e = [proceeds setup w i e] := by
        simp only [passed, noted, step?, hcalling]
        rw [proceed_noted]
        rfl
      simp only [hpassed, noted, step?, hcalling]
      exact congrArg some (proceed_noted w i e j)
    | some ids =>
      cases hpoll : w.action.poll (.of w.command) ids call e.world with
      | none =>
        have hnoted : w.noted.action.poll (.of w.noted.command) ids call (e.noted j).world =
            none := by
          show ((w.action.poll (.of w.command) ids call e.world).map _) = _
          rw [hpoll]
          rfl
        simp only [noted, step?, hcalling, hnoted, hpoll, Option.map_none]
      | some r =>
        rw [step?_noted_answered hcalling hpoll, passed_answered hcalling hpoll, proceed_noted]
        simp only [step?, hcalling, hpoll, Option.map_some, List.append_assoc,
          List.singleton_append]
  | committing w errors answer =>
    cases answer with
    | error err =>
      rw [passed_of_report? rfl]
      exact congrArg some (report_noted w w.batch.ids.length e j)
    | ok =>
      rw [passed_of_report? rfl]
      exact congrArg some (report_noted w errors e j)
  | rollingBack w cause =>
    rw [passed_rolledBack]
    exact congrArg some (rolledBack_noted w cause e j)
  | finished result => rfl

end Execution

/-! ## Stints -/

/-- An execution at work, with the engine around it and what has passed so far. -/
structure Stint (σ : Type) where
  execution : Execution σ
  engine : Engine σ
  journal : Journal

namespace Stint

/-- What happens to an execution at work. -/
inductive Event (σ : Type) where
  /-- It takes a step. -/
  | work
  /-- Others are at work on the engine. -/
  | meanwhile (e : Engine σ)

/-- The beginning of the work on a bucket. -/
def begun (setup : Setup σ) (b : Bucket) (e : Engine σ) : Stint σ :=
  ⟨(Execution.start setup b e).1, (Execution.start setup b e).2,
    Execution.passedAtStart setup b e⟩

/-- The machine of which the runs are all that may happen while a bucket is worked on. -/
def next? (setup : Setup σ) (s : Stint σ) : Event σ → Option (Stint σ)
  | .work => (s.execution.step? setup s.engine).map fun r =>
      ⟨r.1, r.2, s.journal ++ s.execution.passed setup s.engine⟩
  | .meanwhile e => some { s with engine := e }

variable {setup : Setup σ} {s t : Stint σ}

/-- The journal is what the collaborators have noted. -/
theorem noted_of_work (h : s.next? setup .work = some t) :
    s.execution.noted.step? setup.noted (s.engine.noted s.journal) =
      some (t.execution.noted, t.engine.noted t.journal) := by
  obtain ⟨r, hr, rfl⟩ := Option.map_eq_some_iff.1 h
  rw [Execution.step?_noted, hr]
  rfl

theorem noted_begun (b : Bucket) (e : Engine σ) :
    Execution.start setup.noted b (e.noted []) =
      ((begun setup b e).execution.noted, (begun setup b e).engine.noted
        (begun setup b e).journal) := by
  rw [Execution.start_noted]
  simp only [begun, Execution.passedAtStart_eq, List.nil_append]

end Stint

end BulkRun
