import BulkRun.Proofs.Run
import BulkRun.Service
/-!
# Runs of the system

What can happen to a running system, one event at a time: commands are submitted, cancelled, looked
up and dropped, time passes, and any task that can go on takes a step.  Which one does is left open,
so a run is any order of steps.  Main statement: whatever the turns and rounds of the system do is
one of these runs (`exists_run_settle`).
-/

namespace BulkRun

variable {σ : Type}

/-- In a service that was just started, there are consumers and nothing for them to do. -/
theorem Service.system_of_start {settings : Settings} {actions : ActionRegistry (Action σ)}
    {scrollers : ScrollerRegistry (Scroller σ)} {transactions : TransactionManager σ}
    {now : Timestamp} {world : σ} {service : Service σ}
    (h : start settings actions scrollers transactions now world = .ok service) :
    service.system = System.withConsumers (.ofEngine ⟨now,
      .new settings.status.eventCapacity settings.status.retentionSeconds,
      .new settings.channel.partitions settings.channel.capacity, world⟩) := by
  unfold start at h
  cases hcheck : settings.check with
  | error f =>
    rw [hcheck] at h
    exact absurd h (by simp [Except.map])
  | ok u =>
    rw [hcheck] at h
    rw [← Except.ok.inj h]

namespace System

/-- What can happen to a running system. -/
inductive Event where
  /-- A command is submitted and accepted. -/
  | submit (c : Command)
  /-- A task takes a step. -/
  | step (t : Task)
  /-- A task puts its step off. -/
  | putOff (t : Task)
  /-- A command is cancelled, perhaps with a message. -/
  | abort (id : CommandId) (message : Option String)
  /-- A command is looked up, which drops it when its retention is over. -/
  | lookUp (id : CommandId)
  /-- Commands whose retention is over are dropped. -/
  | purge
  /-- The clock is set. -/
  | tick (now : Timestamp)
  /-- Somebody begins to wait for the end of a command. -/
  | await (id : CommandId)
  /-- Whoever submits commands will submit no more. -/
  | release
  /-- Tasks are queued, or give way, or an allowance is spent. -/
  | schedule (queue yielded : List Task) (allowance : Nat)

/-- Whether somebody other than the scroll loops may still publish, and thus submit commands. -/
def isHeld (s : System σ) : Bool := s.activeScrolls < s.engine.channel.publishers

/-- The system with another tracker. -/
def withTracker (s : System σ) (t : Tracker) : System σ :=
  { s with engine := { s.engine with tracker := t } }

/-- The system after an event; `none` when the event cannot happen. -/
def next? (setup : Setup σ) (s : System σ) : Event → Option (System σ)
  | .submit c => if s.isHeld then (s.submit setup c).toOption.map Prod.snd else none
  | .step t => s.stepTask? setup t
  | .putOff t => s.putOff? setup t
  | .abort id message =>
    (s.engine.tracker.abortWith s.engine.now id message).toOption.map fun r => s.withTracker r.2
  | .lookUp id => some (s.withTracker (s.engine.tracker.get s.engine.now id).2)
  | .purge => some (s.withTracker (s.engine.tracker.purgeExpired s.engine.now).2)
  | .tick now => some { s with engine := { s.engine with now := now } }
  | .await id => some (s.await id).2
  | .release => if s.isHeld then some s.dropPublisher else none
  | .schedule queue yielded allowance =>
    some { s with queue := queue, yielded := yielded, allowance := allowance }

/-! ## Turns and rounds are runs -/

variable {setup : Setup σ}

section Turns

variable {P : System σ → Prop}
  (hstep : ∀ t s u, P s → s.stepTask? setup t = some u → P u)
  (hputOff : ∀ t s u, P s → s.putOff? setup t = some u → P u)
  (hschedule : ∀ s queue yielded allowance, P s →
    P { s with queue := queue, yielded := yielded, allowance := allowance })

include hstep hputOff hschedule

theorem turn_induction (t : Task) (fuel allowance : Nat) {s : System σ} (h : P s) :
    P (turn setup t fuel allowance s) := by
  induction fuel generalizing allowance s with
  | zero => exact h
  | succ fuel ih =>
    rw [turn]
    split
    · rename_i u hput
      split at hput
      · exact hschedule u _ _ _ (hputOff t s u h hput)
      · exact absurd hput (by simp)
    · split
      · exact h
      · rename_i u hu
        exact ih _ (hstep t s u h hu)

theorem takeTurns_induction (steps count : Nat) {s : System σ} (h : P s) :
    P (takeTurns setup steps count s) := by
  induction count generalizing s with
  | zero => exact h
  | succ count ih =>
    rw [takeTurns]
    split
    · exact h
    · rename_i t rest _
      have hturn := turn_induction hstep hputOff hschedule t steps turnAllowance
        (hschedule s rest s.yielded s.allowance h)
      exact ih (hschedule _ _ _ _ hturn)

/-- What the steps of tasks keep, and what does not depend on whose turn it is, is kept however long
the tasks take turns. -/
theorem settle_induction (steps rounds : Nat) {s : System σ} (h : P s) :
    P (s.settle setup steps rounds) := by
  induction rounds generalizing s with
  | zero => exact h
  | succ rounds ih =>
    have hwake : P (s.wake setup) := hschedule s _ _ _ h
    have hround : P (s.round setup steps) := hschedule _ _ _ _
      (takeTurns_induction hstep hputOff hschedule steps turnsPerRound hwake)
    rw [settle]
    split
    · exact hround
    · exact ih hround

end Turns

/-- However long the tasks take turns, what comes of it is a run. -/
theorem exists_run_settle (steps rounds : Nat) (s : System σ) :
    ∃ moves, Run (next? setup) s moves (s.settle setup steps rounds) := by
  refine settle_induction (P := fun u => ∃ moves, Run (next? setup) s moves u) ?_ ?_ ?_ steps rounds
    ⟨[], .start⟩
  · rintro t u v ⟨moves, hrun⟩ hstep
    have hnext : next? setup u (.step t) = some v := hstep
    exact ⟨_, .move _ hrun hnext⟩
  · rintro t u v ⟨moves, hrun⟩ hput
    have hnext : next? setup u (.putOff t) = some v := hput
    exact ⟨_, .move _ hrun hnext⟩
  · rintro u queue yielded allowance ⟨moves, hrun⟩
    exact ⟨_, .move (.schedule queue yielded allowance) hrun rfl⟩

end System

end BulkRun
