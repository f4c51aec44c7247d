import BulkRun.Proofs.Dispatch.Flow
import BulkRun.Proofs.Execution.Ready
/-!
# Executions keep the flow

An execution tries the records of its bucket batch after batch, each record once, and tells the
outcome of a batch when it is through with it.  Every step keeps the flow of its command; what the
action is applied to in a step is what it succeeds on among the records that are settled
(`flows_step?`).
-/

namespace BulkRun

open InMemory (World Wired ActionMemory)
open Tracker (exists_answer)

variable {plan : Plan} {w₀ : World} {setup : Setup World} {supply : Supply}
  {applied : List String} {p : Progress} {b : Bucket} {e : Engine World}

namespace Work

variable {σ : Type}

/-- The records of the batches to come. -/
def upcoming (w : Work σ) : List String := w.later.flatMap (·.ids)

/-- The records whose outcome is still to be told. -/
def untold (w : Work σ) : List String := w.batch.ids ++ w.upcoming

/-- Whether work is done for a plan: with its action, on batches that have records. -/
structure IsOf (plan : Plan) (w : Work World) : Prop where
  command : w.command = plan.command
  action : w.action = (ActionMemory.recording plan.action).action plan.target
  batch : w.batch.ids ≠ []
  later : ∀ batch ∈ w.later, batch.ids ≠ []

end Work

/-- Whether the failures were counted of the records of a batch that were tried. -/
def Isolation.HasCounted (plan : Plan) (ids : List String) (i : Isolation) : Prop :=
  i.hasFailed = false ∧ ∃ settled, ids = settled ++ i.rest ∧ i.errors = plan.failures settled

namespace Execution

/-- What an execution has in hand. -/
def holding (b : Bucket) : Execution World → Holding
  | .opening w _ => ⟨[b], w.untold, w.untold⟩
  | .applying w _ i => ⟨[b], w.untold, i.rest ++ w.upcoming⟩
  | .committing w _ _ => ⟨[b], w.untold, w.upcoming⟩
  | .rollingBack w _ => ⟨[b], w.untold, w.upcoming⟩
  | .finished _ => .none

/-- Whether an execution is where a plan may lead it. -/
def Follows (plan : Plan) : Execution World → Prop
  | .opening w answer => w.IsOf plan ∧ answer = .ok ()
  | .applying w _ i => w.IsOf plan ∧ i.HasCounted plan w.batch.ids
  | .committing w errors answer =>
    w.IsOf plan ∧ answer = .ok () ∧ errors = plan.failures w.batch.ids
  | .rollingBack _ _ => False
  | .finished _ => True

/-- An execution and an engine that keep the flow of a plan, when nothing was applied. -/
structure Flows (plan : Plan) (b : Bucket) (supply : Supply) (applied : List String) (w : World)
    (r : Execution World × Engine World) : Prop where
  follows : r.1.Follows plan
  flow : ∃ p, r.2.tracker.find? plan.id = some p ∧ Flow plan supply (r.1.holding b) applied p
  world : ∀ i, r.2.world.appliedAt i = w.appliedAt i

theorem flows_nextBatch (hwired : Wired setup w₀) (hw : World.Follows w₀ e.world)
    (hfind : e.tracker.find? plan.id = some p) {left : List Batch}
    (hleft : ∀ batch ∈ left, batch.ids ≠ [])
    (h : Flow plan supply ⟨[b], left.flatMap (·.ids), left.flatMap (·.ids)⟩ applied p)
    (processed errors : Nat) :
    Flows plan b supply applied e.world (nextBatch setup plan.command
      ((ActionMemory.recording plan.action).action plan.target) b left processed errors e) := by
  cases left with
  | nil =>
    rw [nextBatch]
    rcases Tracker.completeBucket_cases e.tracker e.now plan.id b.sequence with
      ⟨hgone, -⟩ | ⟨q, t, new, ht, heq⟩
    · rw [hfind] at hgone
      exact absurd hgone (by simp)
    · rw [show e.tracker.completeBucket e.now plan.command.id b.sequence = .ok (new, t) from heq]
      obtain rfl := Option.some.inj (hfind.symm.trans ht.before)
      exact ⟨trivial, ⟨_, ht.find?_self, h.complete⟩, fun _ => rfl⟩
  | cons batch later =>
    rcases List.forall_mem_cons.1 hleft with ⟨hbatch, hlater⟩
    have hgoes : e.tracker.isAborted plan.command.id = false := by
      rw [Tracker.isAborted, show e.tracker.find? plan.command.id = some p from hfind]
      exact beq_eq_false_iff_ne.2 h.state_ne_aborted
    rw [nextBatch, hgoes, if_neg Bool.false_ne_true]
    simp only [begin_eq hwired hw]
    exact ⟨⟨⟨rfl, rfl, hbatch, hlater⟩, rfl⟩, ⟨p, hfind, h⟩, fun _ => rfl⟩

/-- The outcome of a batch is told when all its records were tried. -/
theorem flows_report (hwired : Wired setup w₀) (hplan : plan.IsWired w₀)
    (hw : World.Follows w₀ e.world) (hfind : e.tracker.find? plan.id = some p) {w : Work World}
    (hwork : w.IsOf plan)
    (hbucket : w.bucket = b) (h : Flow plan supply ⟨[b], w.untold, w.upcoming⟩ applied p) :
    Flows plan b supply applied e.world (report setup w (plan.failures w.batch.ids) e) := by
  unfold report
  rw [hwork.command, hwork.action, hbucket]
  rcases exists_answer hfind e.now (.recordBatch w.batch.ids.length (plan.failures w.batch.ids))
    with
    ⟨t, ht, heq⟩
  rw [show e.tracker.recordBatch e.now plan.command.id w.batch.ids.length
    (plan.failures w.batch.ids) = .ok t from heq]
  have htold := h.report hplan.length_lt e.now hwork.batch rfl
  exact flows_nextBatch (e := { e with tracker := t }) hwired hw ht.find?_self hwork.later htold
    _ _

/-- The action is called for the next records, or the transaction is closed when there are none. -/
theorem flows_proceed (hwired : Wired setup w₀) (hplan : plan.IsWired w₀)
    (hw : World.Follows w₀ e.world) (hfind : e.tracker.find? plan.id = some p) {w : Work World}
    (hwork : w.IsOf plan) {i : Isolation} (hcounted : i.HasCounted plan w.batch.ids)
    (h : Flow plan supply ⟨[b], w.untold, i.rest ++ w.upcoming⟩ applied p) :
    Flows plan b supply applied e.world (proceed setup w i e) := by
  have hcall (ids : List String) (j : Nat) :
      (w.action.call (.of w.command) ids e.world).2.appliedAt j = e.world.appliedAt j := by
    rw [hwork.action]
    exact (World.call_recording hw hplan.target _ ids).2 j
  cases i with
  | done errors =>
    rw [proceed, commit_eq hwired hw]
    rcases hcounted with ⟨-, settled, hall, herrors⟩
    -- no record of the batch is left to be tried
    have hsettled : w.batch.ids = settled := hall.trans (List.append_nil settled)
    refine ⟨⟨hwork, rfl, ?_⟩, ⟨p, hfind, h⟩, fun _ => rfl⟩
    rw [hsettled]
    exact herrors
  | failed cause => exact absurd hcounted.1 (by simp [Isolation.hasFailed])
  | whole ids =>
    rw [proceed]
    exact ⟨⟨hwork, hcounted⟩, ⟨p, hfind, h⟩, hcall ids⟩
  | single id later errors =>
    rw [proceed]
    exact ⟨⟨hwork, hcounted⟩, ⟨p, hfind, h⟩, hcall [id]⟩

/-- Every step of an execution keeps the flow; what is applied in it, in the world, is what the flow
says was applied. -/
theorem flows_step? (hwired : Wired setup w₀) (hplan : plan.IsWired w₀)
    (hw : World.Follows w₀ e.world) (hfind : e.tracker.find? plan.id = some p)
    {x : Execution World} (hserves : x.Serves b)
    (hfollows : x.Follows plan) (h : Flow plan supply (x.holding b) applied p)
    {r : Execution World × Engine World} (hstep : x.step? setup e = some r) :
    ∃ more w, (∀ i, w.appliedAt i = e.world.appliedAt i ++ if plan.target = i then more else []) ∧
      Flows plan b supply (applied ++ more) w r := by
  -- only the answer of the action to a call settles records
  have nothing {r : Execution World × Engine World}
      (hr : Flows plan b supply applied e.world r) :
      ∃ more w, (∀ i, w.appliedAt i = e.world.appliedAt i ++ if plan.target = i then more else []) ∧
        Flows plan b supply (applied ++ more) w r := by
    refine ⟨[], e.world, ?_, ?_⟩
    · intro i
      rw [ite_self, List.append_nil]
    · rw [List.append_nil]
      exact hr
  cases x with
  | opening w answer =>
    rcases hfollows with ⟨hwork, rfl⟩
    obtain rfl := Option.some.inj hstep
    refine nothing (flows_proceed hwired hplan hw hfind hwork ?_ h)
    exact ⟨rfl, [], rfl, rfl⟩
  | applying w call i =>
    rcases hfollows with ⟨hwork, hcounted⟩
    rw [step?] at hstep
    cases hcalling : i.calling? with
    | none =>
      rw [hcalling] at hstep
      obtain rfl := Option.some.inj hstep
      exact nothing (flows_proceed hwired hplan hw hfind hwork hcounted h)
    | some ids =>
      rcases World.poll_isolation hw hplan.target hplan.action (.of w.command) call hcalling with
        ⟨result, w', settled, hpoll, hw', hrest, herrors, hfailed, hgrows⟩
      simp only [hcalling, hwork.action, hpoll, Option.map_some] at hstep
      obtain rfl := Option.some.inj hstep
      refine ⟨plan.successes settled, w', hgrows, ?_⟩
      rcases hcounted with ⟨-, earlier, hall, hcount⟩
      -- the records that were settled by the call go behind those settled earlier
      have hcounted' : (i.answer result).HasCounted plan w.batch.ids := by
        refine ⟨hfailed, earlier ++ settled, ?_, ?_⟩
        · rw [hall, hrest, List.append_assoc]
        · rw [herrors, hcount, plan.failures_append]
          rfl
      apply flows_proceed (e := { e with world := w' }) hwired hplan hw' hfind hwork hcounted'
      apply h.attempt
      show i.rest ++ w.upcoming = _
      rw [hrest, List.append_assoc]
  | committing w errors answer =>
    rcases hfollows with ⟨hwork, rfl, rfl⟩
    obtain rfl := Option.some.inj hstep
    exact nothing (flows_report hwired hplan hw hfind hwork (hserves w rfl).1 h)
  | rollingBack w cause => exact hfollows.elim
  | finished result => exact absurd hstep (by simp [step?])

/-- A bucket that is received is put away if nothing is left of its command, and is worked on
otherwise. -/
theorem flows_start (hwired : Wired setup w₀) (hw : World.Follows w₀ e.world)
    (hb : b.commandId = plan.id)
    (hresolve : ∃ r, setup.actions.resolve plan.command.action = .ok r ∧
      r.action = (ActionMemory.recording plan.action).action plan.target)
    (hfind : e.tracker.find? plan.id = some p) (h : Flow plan supply (.received b) applied p) :
    Flows plan b supply applied e.world (start setup b e) := by
  unfold start
  rw [hb, hfind]
  simp only
  split
  · rename_i hended
    -- the command has ended, so this bucket has no records
    have hempty : b.ids = [] := h.nothing_left hended
    refine ⟨trivial, ⟨p, hfind, ?_⟩, fun _ => rfl⟩
    rw [Holding.received, hempty] at h
    exact h.putAway
  · rcases hresolve with ⟨registered, hresolved, haction⟩
    rw [h.isBucketDone_received, if_neg Bool.false_ne_true, h.command_eq, hresolved]
    simp only [haction]
    refine flows_nextBatch hwired hw hfind (fun _ => ids_ne_nil_of_mem_batches) ?_ 0 0
    rw [records_batches]
    exact h

end Execution

end BulkRun
