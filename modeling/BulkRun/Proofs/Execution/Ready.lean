import BulkRun.Proofs.Execution.Books
import BulkRun.Proofs.InMemory.Wiring
/-!
# Executions that never wait

An execution whose action answers every call can go on until it is finished, whatever else happens
in the world, and every step leaves the world wired.
-/

namespace BulkRun

open InMemory (World Wired ActionMemory RecordingAction transactionManager)

namespace Execution

variable {w₀ : World} {setup : Setup World} {e : Engine World}

/-- Whether the work at hand is that of an action that answers every call. -/
def Ready (w₀ : World) (x : Execution World) : Prop :=
  ∀ w, x.work? = some w → w₀.Records w.action

/-- What a step leaves: an execution that can go on, in a world that is wired. -/
structure Remains (w₀ : World) (r : Execution World × Engine World) : Prop where
  ready : r.1.Ready w₀
  world : World.Follows w₀ r.2.world

theorem ready_finished (w₀ : World) (result : Except Error BucketOutcome) :
    Ready w₀ (.finished result) :=
  fun _ h => absurd h (by simp [work?])

theorem begin_eq (hwired : Wired setup w₀) (hw : World.Follows w₀ e.world) (s : BatchScope) :
    setup.transactions.begin s e.world = (.ok (), e.world) := by
  rw [hwired.manager]
  exact (InMemory.call_transactions_none (hw.transactions.trans hwired.transactions) s).1

theorem commit_eq (hwired : Wired setup w₀) (hw : World.Follows w₀ e.world) (s : BatchScope) :
    setup.transactions.commit s e.world = (.ok (), e.world) := by
  rw [hwired.manager]
  exact (InMemory.call_transactions_none (hw.transactions.trans hwired.transactions) s).2

theorem rollback_snd (hwired : Wired setup w₀) (hw : World.Follows w₀ e.world) (s : BatchScope) :
    (setup.transactions.rollback s e.world).2 = e.world := by
  rw [hwired.manager]
  exact InMemory.rollback_transactions_none (hw.transactions.trans hwired.transactions) s

theorem remains_nextBatch (hwired : Wired setup w₀) (hw : World.Follows w₀ e.world)
    (command : Command) {action : Action World} (haction : w₀.Records action) (bucket : Bucket)
    (left : List Batch) (processed errors : Nat) :
    Remains w₀ (nextBatch setup command action bucket left processed errors e) := by
  cases left with
  | nil =>
    rw [nextBatch]
    split
    · exact ⟨ready_finished w₀ _, hw⟩
    · exact ⟨ready_finished w₀ _, hw⟩
  | cons batch later =>
    rw [nextBatch]
    split
    · exact ⟨ready_finished w₀ _, hw⟩
    · simp only [begin_eq hwired hw]
      refine ⟨?_, hw⟩
      intro w h
      rw [← Option.some.inj h]
      exact haction

theorem remains_report (hwired : Wired setup w₀) (hw : World.Follows w₀ e.world) {w : Work World}
    (haction : w₀.Records w.action) (errors : Nat) : Remains w₀ (report setup w errors e) := by
  unfold report
  split
  · exact ⟨ready_finished w₀ _, hw⟩
  · rename_i t ht
    exact remains_nextBatch (e := { e with tracker := t }) hwired hw _ haction _ _ _ _

theorem remains_proceed (hwired : Wired setup w₀) (hw : World.Follows w₀ e.world) {w : Work World}
    (haction : w₀.Records w.action) (i : Isolation) : Remains w₀ (proceed setup w i e) := by
  have hcall (ids : List String) :
      World.Follows w₀ (w.action.call (.of w.command) ids e.world).2 := by
    obtain ⟨k, a, hx, ha, -⟩ := haction
    rw [hx]
    exact (World.call_recording hw ha _ ids).1
  have hready (v : Work World) (h : some w = some v) : w₀.Records v.action := by
    rw [← Option.some.inj h]
    exact haction
  cases i with
  | done errors =>
    rw [proceed, commit_eq hwired hw]
    exact ⟨hready, hw⟩
  | failed cause =>
    rw [proceed]
    refine ⟨hready, ?_⟩
    show World.Follows w₀ (setup.transactions.rollback w.scope e.world).2
    rw [rollback_snd hwired hw]
    exact hw
  | whole ids =>
    rw [proceed]
    exact ⟨hready, hcall ids⟩
  | single id later errors =>
    rw [proceed]
    exact ⟨hready, hcall [id]⟩

theorem remains_rolledBack (hwired : Wired setup w₀) (hw : World.Follows w₀ e.world)
    {w : Work World} (haction : w₀.Records w.action) (cause : ActionError) :
    Remains w₀ (rolledBack setup w cause e) := by
  cases cause with
  | configuration m =>
    rw [rolledBack]
    split
    · exact ⟨ready_finished w₀ _, hw⟩
    · exact ⟨ready_finished w₀ _, hw⟩
  | recordFailed r m => exact remains_report hwired hw haction _
  | transaction m => exact remains_report hwired hw haction _

/-- An execution that is not finished can take a step, and can go on after it. -/
theorem exists_step? (hwired : Wired setup w₀) (hw : World.Follows w₀ e.world)
    {x : Execution World} (hx : x.Ready w₀) (hwork : x.work?.isSome = true) :
    ∃ r, x.step? setup e = some r ∧ Remains w₀ r := by
  obtain ⟨w, hw'⟩ := Option.isSome_iff_exists.1 hwork
  have haction := hx w hw'
  cases x with
  | opening v answer =>
    obtain rfl := Option.some.inj hw'
    cases answer with
    | error err => exact ⟨_, rfl, remains_report hwired hw haction _⟩
    | ok => exact ⟨_, rfl, remains_proceed hwired hw haction _⟩
  | applying v call i =>
    obtain rfl := Option.some.inj hw'
    rw [step?]
    cases i.calling? with
    | none => exact ⟨_, rfl, remains_proceed hwired hw haction _⟩
    | some ids =>
      -- an action in memory that is steady answers when it is asked
      obtain ⟨k, a, hx', ha, hsteady⟩ := id haction
      obtain ⟨result, w', hpoll, hfollows⟩ :=
        World.follows_poll hw ha hsteady (.of v.command) ids call
      simp only [hx', hpoll, Option.map_some]
      exact ⟨_, rfl, remains_proceed (e := { e with world := w' }) hwired hfollows haction _⟩
  | committing v errors answer =>
    obtain rfl := Option.some.inj hw'
    cases answer with
    | error err => exact ⟨_, rfl, remains_report hwired hw haction _⟩
    | ok => exact ⟨_, rfl, remains_report hwired hw haction _⟩
  | rollingBack v cause =>
    obtain rfl := Option.some.inj hw'
    exact ⟨_, rfl, remains_rolledBack hwired hw haction cause⟩
  | finished result => exact absurd hwork (by simp [work?])

theorem remains_start (hwired : Wired setup w₀) (hw : World.Follows w₀ e.world) (b : Bucket) :
    Remains w₀ (start setup b e) := by
  unfold start
  split
  · exact ⟨ready_finished w₀ _, hw⟩
  · split
    · exact ⟨ready_finished w₀ _, hw⟩
    · split
      · exact ⟨ready_finished w₀ _, hw⟩
      · split
        · split
          · exact ⟨ready_finished w₀ _, hw⟩
          · exact ⟨ready_finished w₀ _, hw⟩
        · rename_i registered hresolve
          refine remains_nextBatch hwired hw _ ?_ _ _ _ _
          -- an action that is registered is one of those that were wired
          unfold ActionRegistry.resolve at hresolve
          split at hresolve
          · rename_i found hfound
            rw [← Except.ok.inj hresolve]
            exact hwired.actions _ _ hfound
          · exact absurd hresolve (by simp)

end Execution

end BulkRun
