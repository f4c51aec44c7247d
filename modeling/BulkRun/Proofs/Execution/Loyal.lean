import BulkRun.Proofs.Execution.Books
/-!
# Actions that let their commands run

A loyal action never cancels its command, and it never says that it cannot run.  As long as the work
at hand is done by a loyal action, all that the action does to the commands is to have ended ones
dropped (`drops_interveneAll`), and no batch is rolled back for want of a configuration
(`isLoyal_proceed`).
-/

namespace BulkRun

variable {σ : Type}

/-- Whether an action neither cancels its command nor reports that it cannot run. -/
structure Action.IsLoyal (a : Action σ) : Prop where
  stays : ∀ {context : ActionContext} {ids : List String} {call : Nat} {w w' : σ}
      {reply : ActionReply},
    a.poll context ids call w = some (reply, w') → .abort ∉ reply.interventions
  runs : ∀ {context : ActionContext} {ids : List String} {call : Nat} {w w' : σ}
      {reply : ActionReply},
    a.poll context ids call w = some (reply, w') → ∀ m, reply.result ≠ .error (.configuration m)

/-- Without cancellations, interventions only drop commands. -/
theorem Engine.drops_interveneAll {e : Engine σ} (id : CommandId) (hd : e.tracker.Distinct)
    {is : List Intervention} (his : .abort ∉ is) :
    e.tracker.Drops (e.interveneAll id is).tracker := by
  induction is generalizing e with
  | nil => exact .refl _
  | cons i is ih =>
    have hi : .abort ≠ i := List.ne_of_not_mem_cons his
    have hrest : .abort ∉ is := List.not_mem_of_not_mem_cons his
    have hfirst : e.tracker.Drops (e.intervene id i).tracker := by
      cases i with
      | abort => exact absurd rfl hi
      | purge => exact Tracker.drops_purgeExpired hd e.now
    exact hfirst.trans (ih (hfirst.distinct hd) hrest)

/-- The reason why a batch is given up. -/
def Isolation.cause? : Isolation → Option ActionError
  | .failed cause => some cause
  | _ => none

/-- A batch is given up only for a reason that the action gives. -/
theorem Isolation.cause?_answer {i : Isolation} {r : Except ActionError (List RecordOutcome)}
    {cause : ActionError} (h : (i.answer r).cause? = some cause) :
    i.cause? = some cause ∨ r = .error cause := by
  have hnext (later : List String) (errors : Nat) : (next later errors).cause? = none := by
    cases later <;> rfl
  cases i with
  | whole ids =>
    cases r with
    | ok outcomes => exact absurd h (by simp [answer, cause?])
    | error reason =>
      cases reason with
      | recordFailed record m =>
        rw [answer] at h
        cases hfound : ids.idxOf? record with
        | none =>
          rw [hfound] at h
          exact absurd h (by simp [cause?])
        | some k =>
          rw [hfound, hnext] at h
          exact absurd h (by simp)
      | _ =>
        obtain rfl := Option.some.inj h
        exact .inr rfl
  | single id later errors =>
    cases r with
    | ok outcomes =>
      rw [answer, hnext] at h
      exact absurd h (by simp)
    | error reason =>
      cases reason with
      | recordFailed record m =>
        rw [answer, hnext] at h
        exact absurd h (by simp)
      | _ =>
        obtain rfl := Option.some.inj h
        exact .inr rfl
  | done errors => exact absurd h (by simp [answer, cause?])
  | failed reason => exact .inl h

namespace Execution

/-- The reason why the batch at hand is given up. -/
def cause? : Execution σ → Option ActionError
  | .applying _ _ i => i.cause?
  | .rollingBack _ cause => some cause
  | _ => none

/-- Whether the work at hand is done by a loyal action, and not given up because that cannot run. -/
structure IsLoyal (x : Execution σ) : Prop where
  action : ∀ w, x.work? = some w → w.action.IsLoyal
  runs : ∀ m, x.cause? ≠ some (.configuration m)

theorem isLoyal_finished (result : Except Error BucketOutcome) :
    IsLoyal (.finished result : Execution σ) :=
  ⟨fun w hw => absurd hw (by simp [work?]), fun m => by simp [cause?]⟩

variable {w : Work σ}

theorem isLoyal_opening (h : w.action.IsLoyal) (answer : Except TransactionError Unit) :
    IsLoyal (.opening w answer) := by
  refine ⟨fun v hv => ?_, fun m => by simp [cause?]⟩
  obtain rfl := Option.some.inj hv
  exact h

theorem isLoyal_proceed (setup : Setup σ) (h : w.action.IsLoyal) {i : Isolation}
    (hi : ∀ m, i.cause? ≠ some (.configuration m)) (e : Engine σ) :
    (proceed setup w i e).1.IsLoyal := by
  have hwork {x : Execution σ} (hx : x.work? = some w) :
      ∀ v, x.work? = some v → v.action.IsLoyal := by
    intro v hv
    obtain rfl := Option.some.inj (hx.symm.trans hv)
    exact h
  cases i with
  | failed cause => exact ⟨hwork rfl, hi⟩
  | _ => exact ⟨hwork rfl, fun m => by simp [proceed, cause?, Isolation.cause?]⟩

end Execution

end BulkRun
