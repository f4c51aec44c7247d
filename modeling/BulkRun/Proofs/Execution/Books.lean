import BulkRun.Execution.Basic
import BulkRun.Proofs.Bucketing
import BulkRun.Proofs.Dispatch.Books
/-!
# Executions keep the books

Every step of an execution keeps the books of the command whose bucket it works on: a batch is owed
until it is reported, with its outcomes or as a whole, and an execution comes to its end only with
its bucket done or its command not live any more.  An action may abort its own command or have
commands dropped while it works; neither disturbs the books of anybody.
-/

namespace BulkRun

open Tracker (Report Heeds answer_cases)

variable {σ : Type} {e : Engine σ}

/-! ## Interventions of actions -/

namespace Engine

/-- What an action does to the commands while it works for one of them. -/
structure Intervenes (id : CommandId) (e f : Engine σ) : Prop where
  channel : f.channel = e.channel
  spares : Tracker.Spares id e.tracker f.tracker
  live : f.tracker.live? id = e.tracker.live? id ∨ f.tracker.live? id = none

theorem intervenes_intervene (id : CommandId) (hd : e.tracker.Distinct) (i : Intervention) :
    Intervenes id e (e.intervene id i) := by
  cases i with
  | abort =>
    obtain ⟨-, err, h⟩ | ⟨p, u, new, hu, h⟩ := Tracker.abort_cases e.tracker e.now id
    · rw [intervene, h]
      exact ⟨rfl, .refl _ _, .inl rfl⟩
    · rw [intervene, h]
      exact ⟨rfl, hu.spares, .inr (hu.live?_abort rfl)⟩
  | purge =>
    have hdrops := Tracker.drops_purgeExpired hd e.now
    exact ⟨rfl, hdrops.spares id, hdrops.live?_eq id⟩

theorem intervenes_interveneAll (id : CommandId) (hd : e.tracker.Distinct)
    (is : List Intervention) : Intervenes id e (e.interveneAll id is) := by
  induction is generalizing e with
  | nil => exact ⟨rfl, .refl _ _, .inl rfl⟩
  | cons i is ih =>
    have hfirst := intervenes_intervene id hd i
    have hrest := ih (hfirst.spares.distinct hd)
    refine ⟨hrest.channel.trans hfirst.channel, hfirst.spares.trans hrest.spares, ?_⟩
    obtain h | h := hrest.live
    · obtain h' | h' := hfirst.live
      · exact .inl (h.trans h')
      · exact .inr (h.trans h')
    · exact .inr h

end Engine

/-! ## What an execution holds -/

/-- The number of records of a bucket whose outcome is still to be reported. -/
def Work.left (w : Work σ) : Nat := w.batch.ids.length + (w.later.map (·.ids.length)).sum

namespace Execution

/-- The work at hand, unless the execution is finished. -/
def work? : Execution σ → Option (Work σ)
  | .opening w _ => some w
  | .applying w _ _ => some w
  | .committing w _ _ => some w
  | .rollingBack w _ => some w
  | .finished _ => none

/-- How far the work on the bucket has come. -/
def standing (x : Execution σ) : Standing :=
  match x.work? with
  | some w => .working w.left
  | none => .ended

/-- Whether an execution works on a bucket, and for the command of that bucket. -/
def Serves (b : Bucket) (x : Execution σ) : Prop :=
  ∀ w, x.work? = some w → w.bucket = b ∧ w.command.id = b.commandId

variable {setup : Setup σ} {b : Bucket} {s : Standing}

/-- What work on a bucket does, of which so much was done before. -/
structure Acts (b : Bucket) (s : Standing) (e : Engine σ) (r : Execution σ × Engine σ) : Prop where
  serves : r.1.Serves b
  channel : r.2.channel = e.channel
  spares : Tracker.Spares b.commandId e.tracker r.2.tracker
  books : ∀ stock lots, Books stock (e.tracker.live? b.commandId) (⟨b, s⟩ :: lots) →
    Books stock (r.2.tracker.live? b.commandId) (⟨b, r.1.standing⟩ :: lots)

theorem acts_finished (result : Except Error BucketOutcome) {t : Tracker}
    (ht : Tracker.Spares b.commandId e.tracker t)
    (hbooks : ∀ stock lots, Books stock (e.tracker.live? b.commandId) (⟨b, s⟩ :: lots) →
      Books stock (t.live? b.commandId) (⟨b, .ended⟩ :: lots)) :
    Acts b s e (.finished result, { e with tracker := t }) :=
  ⟨nofun, rfl, ht, hbooks⟩

/-- Work for a command that is not live may end anyhow. -/
theorem acts_finished_gone (result : Except Error BucketOutcome)
    (hgone : e.tracker.live? b.commandId = none) : Acts b s e (.finished result, e) := by
  apply acts_finished result (.refl _ _)
  intro stock lots hbooks
  rw [hgone] at hbooks ⊢
  exact hbooks.leave

/-- Work that ends its command is over. -/
theorem acts_finished_abort (result : Except Error BucketOutcome) {r : Report} {p : Progress}
    {t : Tracker} (ht : Heeds e.tracker e.now b.commandId r p t) (hr : r.isAbort = true) :
    Acts b s e (.finished result, { e with tracker := t }) := by
  apply acts_finished result ht.spares
  intro stock lots hbooks
  rw [ht.live?_abort hr]
  exact hbooks.gone.leave

/-- Work that follows on other work for the same bucket. -/
theorem Acts.after {s' : Standing} {f : Engine σ} (hchannel : f.channel = e.channel)
    (hspares : Tracker.Spares b.commandId e.tracker f.tracker)
    (hbooks : ∀ stock lots, Books stock (e.tracker.live? b.commandId) (⟨b, s⟩ :: lots) →
      Books stock (f.tracker.live? b.commandId) (⟨b, s'⟩ :: lots))
    {r : Execution σ × Engine σ} (h : Acts b s' f r) : Acts b s e r where
  serves := h.serves
  channel := h.channel.trans hchannel
  spares := hspares.trans h.spares
  books stock lots hb := h.books stock lots (hbooks stock lots hb)

/-- Work that only talks to the world of the collaborators. -/
theorem acts_workOn {x : Execution σ} {w : Work σ} (hx : x.work? = some w) (hbucket : w.bucket = b)
    (hcommand : w.command.id = b.commandId) (world : σ) :
    Acts b (.working w.left) e (x, { e with world := world }) where
  serves v hv := by
    obtain rfl : w = v := Option.some.inj (hx.symm.trans hv)
    exact ⟨hbucket, hcommand⟩
  channel := rfl
  spares := .refl _ _
  books stock lots h := by
    rw [standing, hx]
    exact h

/-! ## The steps -/

theorem acts_nextBatch {command : Command} (action : Action σ) (left : List Batch)
    (processed errors : Nat) (hcommand : command.id = b.commandId) :
    Acts b (.working (left.map (·.ids.length)).sum) e
      (nextBatch setup command action b left processed errors e) := by
  cases left with
  | nil =>
    rw [nextBatch, hcommand]
    -- no batch is left, so nothing of the bucket is owed when it is marked as done
    obtain ⟨hgone, err, h⟩ | ⟨p, t, new, ht, h⟩ :=
      Tracker.completeBucket_cases e.tracker e.now b.commandId b.sequence
    · rw [h]
      exact acts_finished_gone _ (Tracker.live?_of_gone hgone)
    · rw [h]
      apply acts_finished _ ht.spares
      intro stock lots hbooks
      rw [ht.live?]
      exact hbooks.complete e.now
  | cons batch later =>
    rw [nextBatch]
    split
    · rename_i h
      rw [hcommand] at h
      exact acts_finished_gone _ (Tracker.live?_of_isAborted h)
    · exact acts_workOn (w := ⟨command, action, b, batch, later, processed, errors⟩) rfl rfl
        hcommand _

theorem acts_report {w : Work σ} (errors : Nat) (hbucket : w.bucket = b)
    (hcommand : w.command.id = b.commandId) :
    Acts b (.working w.left) e (report setup w errors e) := by
  unfold report
  rw [hcommand]
  obtain ⟨hgone, err, h⟩ | ⟨p, t, ht, h⟩ :=
    answer_cases e.tracker e.now b.commandId (.recordBatch w.batch.ids.length errors)
  · rw [show e.tracker.recordBatch e.now b.commandId w.batch.ids.length errors = .error err from h]
    exact acts_finished_gone _ (Tracker.live?_of_gone hgone)
  · rw [show e.tracker.recordBatch e.now b.commandId w.batch.ids.length errors = .ok t from h,
      hbucket]
    refine .after (e := e) (f := { e with tracker := t }) rfl ht.spares ?_
      (acts_nextBatch w.action w.later _ _ hcommand)
    intro stock lots hbooks
    rw [ht.live?]
    exact hbooks.report e.now

theorem acts_proceed {w : Work σ} (i : Isolation) (hbucket : w.bucket = b)
    (hcommand : w.command.id = b.commandId) :
    Acts b (.working w.left) e (proceed setup w i e) := by
  cases i with
  | _ => exact acts_workOn rfl hbucket hcommand _

theorem acts_rolledBack {w : Work σ} (cause : ActionError) (hbucket : w.bucket = b)
    (hcommand : w.command.id = b.commandId) :
    Acts b (.working w.left) e (rolledBack setup w cause e) := by
  cases cause with
  | configuration m =>
    rw [rolledBack, hcommand]
    obtain ⟨hgone, err, h⟩ | ⟨p, t, new, ht, h⟩ :=
      Tracker.abortWithError_cases e.tracker e.now b.commandId _
    · rw [h]
      exact acts_finished_gone _ (Tracker.live?_of_gone hgone)
    · rw [h]
      exact acts_finished_abort _ ht rfl
  | recordFailed r m => exact acts_report _ hbucket hcommand
  | transaction m => exact acts_report _ hbucket hcommand

/-- Every step of an execution keeps the books of its command. -/
theorem acts_step? {x : Execution σ} {r : Execution σ × Engine σ} (hserves : x.Serves b)
    (hd : e.tracker.Distinct) (h : x.step? setup e = some r) : Acts b x.standing e r := by
  cases x with
  | opening w answer =>
    obtain ⟨hbucket, hcommand⟩ := hserves w rfl
    cases answer with
    | error err =>
      obtain rfl := Option.some.inj h
      exact acts_report _ hbucket hcommand
    | ok =>
      obtain rfl := Option.some.inj h
      exact acts_proceed _ hbucket hcommand
  | applying w call i =>
    obtain ⟨hbucket, hcommand⟩ := hserves w rfl
    rw [step?] at h
    cases hcalling : i.calling? with
    | none =>
      rw [hcalling] at h
      obtain rfl := Option.some.inj h
      exact acts_proceed _ hbucket hcommand
    | some ids =>
      rw [hcalling] at h
      -- while the action is called, it may abort its command and have others dropped
      obtain ⟨⟨reply, world⟩, -, rfl⟩ := Option.map_eq_some_iff.1 h
      rw [hcommand]
      have hint := Engine.intervenes_interveneAll (e := { e with world := world }) b.commandId hd
        reply.interventions
      show Acts b _ e (proceed setup w _ _)
      refine .after (e := e) hint.channel hint.spares ?_
        (acts_proceed _ hbucket hcommand)
      intro stock lots hbooks
      exact hbooks.same_or_gone hint.live
  | committing w errors answer =>
    obtain ⟨hbucket, hcommand⟩ := hserves w rfl
    cases answer with
    | error err =>
      obtain rfl := Option.some.inj h
      exact acts_report _ hbucket hcommand
    | ok =>
      obtain rfl := Option.some.inj h
      exact acts_report _ hbucket hcommand
  | rollingBack w cause =>
    obtain ⟨hbucket, hcommand⟩ := hserves w rfl
    obtain rfl := Option.some.inj h
    exact acts_rolledBack _ hbucket hcommand
  | finished result => exact absurd h (by simp [step?])

/-- The beginning of an execution keeps the books: it owes all records of its bucket, unless there
is nothing to be done. -/
theorem acts_start : Acts b .untouched e (start setup b e) := by
  unfold start
  -- the command is gone, or it has ended, or the bucket was done before
  split
  · rename_i h
    exact acts_finished_gone _ (Tracker.live?_of_gone h)
  · rename_i p hp
    have hlive : e.tracker.live? b.commandId = p.live := Tracker.live?_of_find? hp
    split
    · rename_i hended
      apply acts_finished_gone _
      rw [hlive, Progress.live_eq_none]
      exact hended
    · split
      · rename_i hdone
        apply acts_finished (t := e.tracker) _ (.refl _ _)
        intro stock lots hbooks
        apply hbooks.skip
        intro q hq
        rw [hlive] at hq
        rw [← (Progress.live_eq_some.1 hq).2]
        exact hdone
      · rename_i hdone
        split
        · -- the action of the command is not registered
          obtain ⟨hgone, err, h⟩ | ⟨q, t, new, ht, h⟩ :=
            Tracker.abortWithError_cases e.tracker e.now b.commandId _
          · rw [h]
            exact acts_finished_gone _ (Tracker.live?_of_gone hgone)
          · rw [h]
            exact acts_finished_abort _ ht rfl
        · -- all records of the bucket are owed, and its batches are what reports them
          rename_i registered _
          have hid : p.command.id = b.commandId := Tracker.id_of_find? hp
          refine .after rfl (.refl _ _) ?_
            (acts_nextBatch registered.action (batches b.ids p.command.batchSize) 0 0 hid)
          intro stock lots hbooks
          rw [length_batches]
          apply hbooks.begin
          intro q hq
          rw [hlive] at hq
          rw [← (Progress.live_eq_some.1 hq).2]
          exact Bool.eq_false_iff.2 hdone

end Execution

end BulkRun
