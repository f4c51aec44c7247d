import BulkRun.Proofs.Bucketing
import BulkRun.Proofs.Execution.Journal
/-!
# How long an execution can take

Each step of an execution leaves less to be done (`Execution.effort_lt`): a call is answered about
at least one record, and a batch that was told of is not begun again.  So the steps that
`Execution.execute` allows for are enough: it comes to the end of the bucket, or the action has not
answered yet (`Execution.execute_rests`).
-/

namespace BulkRun

variable {σ : Type}

/-- The most calls that are left for a batch. -/
def Isolation.callsLeft : Isolation → Nat
  | .whole ids => max ids.length 1
  | .single _ later _ => later.length + 1
  | .done _ | .failed _ => 0

theorem Isolation.callsLeft_next (later : List String) (errors : Nat) :
    (Isolation.next later errors).callsLeft = later.length := by
  cases later <;> rfl

theorem Isolation.callsLeft_pos {i : Isolation} {ids : List String} (h : i.calling? = some ids) :
    0 < i.callsLeft := by
  cases i with
  | whole all => exact Nat.lt_of_lt_of_le Nat.zero_lt_one (Nat.le_max_right all.length 1)
  | single id later errors => exact Nat.succ_pos later.length
  | done errors => exact absurd h (by simp [calling?])
  | failed cause => exact absurd h (by simp [calling?])

/-- Every answer is about at least one record. -/
theorem Isolation.callsLeft_answer_lt {i : Isolation} {ids : List String}
    (h : i.calling? = some ids) (r : Except ActionError (List RecordOutcome)) :
    (i.answer r).callsLeft < i.callsLeft := by
  have hpos := callsLeft_pos h
  cases i with
  | done errors => exact absurd h (by simp [calling?])
  | failed cause => exact absurd h (by simp [calling?])
  | whole all =>
    cases r with
    | ok outcomes => exact hpos
    | error cause =>
      cases cause with
      | configuration m => exact hpos
      | transaction m => exact hpos
      | recordFailed record m =>
        simp only [answer]
        split
        · exact hpos
        · rename_i k hk
          rw [callsLeft_next, List.length_drop]
          simp only [callsLeft] at hpos ⊢
          omega
  | single id later errors =>
    cases r with
    | ok outcomes =>
      rw [answer, callsLeft_next]
      exact Nat.lt_succ_self later.length
    | error cause =>
      cases cause with
      | configuration m => exact hpos
      | transaction m => exact hpos
      | recordFailed record m =>
        rw [answer, callsLeft_next]
        exact Nat.lt_succ_self later.length

/-- The most steps that some batches take: each takes its calls and two steps more. -/
def effortOf (left : List Batch) : Nat := (left.map fun batch => max batch.ids.length 1 + 2).sum

theorem effortOf_cons (batch : Batch) (later : List Batch) :
    effortOf (batch :: later) = max batch.ids.length 1 + 2 + effortOf later := by
  rw [effortOf, List.map_cons, List.sum_cons]
  rfl

/-- Batches that have records take at most three steps for each. -/
theorem effortOf_le {left : List Batch} (h : ∀ batch ∈ left, batch.ids ≠ []) :
    effortOf left ≤ 3 * (left.map (·.ids.length)).sum := by
  induction left with
  | nil => exact Nat.le_refl 0
  | cons batch later ih =>
    have hfirst := List.length_pos_iff.2 (h batch List.mem_cons_self)
    have hrest := ih fun c hc => h c (List.mem_cons_of_mem batch hc)
    rw [effortOf_cons, List.map_cons, List.sum_cons]
    omega

namespace Execution

/-- The most steps that are left. -/
def effort : Execution σ → Nat
  | .opening w _ => effortOf (w.batch :: w.later)
  | .applying w _ i => max i.callsLeft 1 + 1 + effortOf w.later
  | .committing w _ _ | .rollingBack w _ => 1 + effortOf w.later
  | .finished _ => 0

variable {setup : Setup σ} {e : Engine σ} {w : Work σ} {x : Execution σ}
  {r : Execution σ × Engine σ}

theorem effort_nextBatch (setup : Setup σ) (command : Command) (action : Action σ) (b : Bucket)
    (left : List Batch) (processed errors : Nat) (e : Engine σ) :
    (nextBatch setup command action b left processed errors e).1.effort ≤ effortOf left := by
  cases left with
  | nil =>
    rw [nextBatch]
    split <;> exact Nat.le_refl 0
  | cons batch later =>
    rw [nextBatch]
    split
    · exact Nat.zero_le _
    · exact Nat.le_refl _

theorem effort_report (setup : Setup σ) (w : Work σ) (errors : Nat) (e : Engine σ) :
    (report setup w errors e).1.effort ≤ effortOf w.later := by
  unfold report
  split
  · exact Nat.zero_le _
  · exact effort_nextBatch setup _ _ _ _ _ _ _

theorem effort_proceed (setup : Setup σ) (w : Work σ) (i : Isolation) (e : Engine σ) :
    (proceed setup w i e).1.effort ≤ i.callsLeft + 1 + effortOf w.later := by
  have hcalling {ids : List String} (h : i.calling? = some ids) :
      max i.callsLeft 1 + 1 + effortOf w.later ≤ i.callsLeft + 1 + effortOf w.later := by
    have hpos := Isolation.callsLeft_pos h
    omega
  cases i with
  | whole ids => exact hcalling rfl
  | single id later errors => exact hcalling rfl
  | done errors => exact Nat.add_le_add_right (Nat.le_add_left 1 0) _
  | failed cause => exact Nat.add_le_add_right (Nat.le_add_left 1 0) _

theorem effort_rolledBack (setup : Setup σ) (w : Work σ) (cause : ActionError) (e : Engine σ) :
    (rolledBack setup w cause e).1.effort ≤ effortOf w.later := by
  cases cause with
  | configuration m =>
    rw [rolledBack]
    split <;> exact Nat.zero_le _
  | recordFailed record m => exact effort_report setup w _ e
  | transaction m => exact effort_report setup w _ e

/-- Every step leaves less to be done. -/
theorem effort_lt (h : x.step? setup e = some r) : r.1.effort < x.effort := by
  cases x with
  | opening w answer =>
    rw [effort, effortOf_cons]
    cases answer with
    | error err =>
      have hle := effort_report setup w w.batch.ids.length e
      obtain rfl := Option.some.inj h
      omega
    | ok =>
      have hle := effort_proceed setup w (.whole w.batch.ids) e
      obtain rfl := Option.some.inj h
      simp only [Isolation.callsLeft] at hle
      omega
  | applying w call i =>
    rw [step?] at h
    rw [effort]
    cases hcalling : i.calling? with
    | none =>
      rw [hcalling] at h
      have hle := effort_proceed setup w i e
      obtain rfl := Option.some.inj h
      have hnone : i.callsLeft = 0 := by
        cases i with
        | whole ids => exact absurd hcalling (by simp [Isolation.calling?])
        | single id later errors => exact absurd hcalling (by simp [Isolation.calling?])
        | _ => rfl
      omega
    | some ids =>
      rw [hcalling] at h
      rcases Option.map_eq_some_iff.1 h with ⟨⟨reply, world⟩, -, rfl⟩
      have hlt := Isolation.callsLeft_answer_lt hcalling reply.result
      have hle := effort_proceed setup w (i.answer reply.result)
        (({ e with world := world } : Engine σ).interveneAll w.command.id reply.interventions)
      refine Nat.lt_of_le_of_lt hle ?_
      omega
  | committing w errors answer =>
    cases answer with
    | error err =>
      have hle := effort_report setup w w.batch.ids.length e
      obtain rfl := Option.some.inj h
      exact Nat.lt_of_le_of_lt hle (Nat.lt_add_of_pos_left Nat.zero_lt_one)
    | ok =>
      have hle := effort_report setup w errors e
      obtain rfl := Option.some.inj h
      exact Nat.lt_of_le_of_lt hle (Nat.lt_add_of_pos_left Nat.zero_lt_one)
  | rollingBack w cause =>
    have hle := effort_rolledBack setup w cause e
    obtain rfl := Option.some.inj h
    exact Nat.lt_of_le_of_lt hle (Nat.lt_add_of_pos_left Nat.zero_lt_one)
  | finished result => exact absurd h (by simp [step?])

/-- With steps enough an execution comes to rest. -/
theorem run_rests {fuel : Nat} (h : x.effort ≤ fuel) :
    (x.run setup fuel e).1.step? setup (x.run setup fuel e).2 = none := by
  induction fuel generalizing x e with
  | zero =>
    cases hstep : x.step? setup e with
    | none => exact hstep
    | some r =>
      have hlt := effort_lt hstep
      omega
  | succ fuel ih =>
    rw [run]
    cases hstep : x.step? setup e with
    | none => exact hstep
    | some r =>
      have hlt := effort_lt hstep
      exact ih (by omega)

theorem effort_start (setup : Setup σ) (b : Bucket) (e : Engine σ) :
    (start setup b e).1.effort ≤ 3 * b.ids.length := by
  unfold start
  split
  · exact Nat.zero_le _
  · rename_i p _
    split
    · exact Nat.zero_le _
    · split
      · exact Nat.zero_le _
      · split
        · split <;> exact Nat.zero_le _
        · refine Nat.le_trans (effort_nextBatch setup _ _ _ _ _ _ _) ?_
          rw [← length_batches b.ids p.command.batchSize]
          exact effortOf_le fun batch hbatch => ids_ne_nil_of_mem_batches hbatch

/-- Nothing is left to be done but to wait for an answer of the action. -/
theorem execute_rests (setup : Setup σ) (b : Bucket) (e : Engine σ) :
    (execute setup b e).1.step? setup (execute setup b e).2 = none :=
  run_rests (Nat.le_succ_of_le (effort_start setup b e))

end Execution

end BulkRun
