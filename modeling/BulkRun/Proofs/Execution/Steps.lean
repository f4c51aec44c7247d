import BulkRun.Proofs.Execution.Loyal
import BulkRun.Proofs.Status.Advance
/-!
# What a step of an execution can be

Each function of an execution is turned inside out once:  `Begins` lists the ways in which the work
on a bucket may begin, `GoesOn` what may happen between two batches, `Reports` what a report of a
batch leads to, and `Works` all that a step may be.  Whatever is said about the steps of executions
follows by cases from here.
-/

namespace BulkRun

open Tracker (Report Heeds answer_cases)

variable {σ : Type}

/-! ## Interventions -/

namespace Engine

variable {e f g : Engine σ} {id : CommandId}

/-- What interventions on behalf of one command leave: each command is as it was, or gone, or it is
the one command and aborts were all that befell it. -/
structure Meddles (id : CommandId) (e f : Engine σ) : Prop where
  now : f.now = e.now
  channel : f.channel = e.channel
  found : ∀ {k : CommandId} {q : Progress}, f.tracker.find? k = some q →
    ∃ p reports, e.tracker.find? k = some p ∧ q = p.heedAll reports ∧
      ∀ r ∈ reports, r.2 = .abort ∧ k = id
  kept : ∀ {k : CommandId} {p : Progress}, k ≠ id → e.tracker.find? k = some p →
    p.state.isTerminal = false → f.tracker.find? k = some p
  distinct : e.tracker.Distinct → f.tracker.Distinct

namespace Meddles

theorem refl (id : CommandId) (e : Engine σ) : Meddles id e e :=
  ⟨rfl, rfl, fun h => ⟨_, [], h, rfl, by simp⟩, fun _ h _ => h, fun hd => hd⟩

theorem trans (h : Meddles id e f) (h' : Meddles id f g) : Meddles id e g where
  now := h'.now.trans h.now
  channel := h'.channel.trans h.channel
  found hq := by
    obtain ⟨p, later, hp, rfl, hlater⟩ := h'.found hq
    obtain ⟨o, earlier, ho, rfl, hearlier⟩ := h.found hp
    refine ⟨o, earlier ++ later, ho, (o.heedAll_append earlier later).symm, ?_⟩
    intro r hr
    obtain hr | hr := List.mem_append.1 hr
    · exact hearlier r hr
    · exact hlater r hr
  kept hk hp hopen := h'.kept hk (h.kept hk hp hopen) hopen
  distinct hd := h'.distinct (h.distinct hd)

theorem advances (h : Meddles id e f) : e.tracker.Advances f.tracker where
  found hq := by
    obtain ⟨p, reports, hp, heq, -⟩ := h.found hq
    exact ⟨p, reports, hp, heq⟩
  distinct := h.distinct

end Meddles

theorem meddles_of_world (id : CommandId) (e : Engine σ) (world : σ) :
    Meddles id e { e with world := world } :=
  ⟨rfl, rfl, fun h => ⟨_, [], h, rfl, by simp⟩, fun _ h _ => h, fun hd => hd⟩

theorem meddles_intervene (id : CommandId) (hd : e.tracker.Distinct) (i : Intervention) :
    Meddles id e (e.intervene id i) := by
  cases i with
  | abort =>
    obtain ⟨-, err, h⟩ | ⟨p, u, new, hu, h⟩ := Tracker.abort_cases e.tracker e.now id
    · rw [intervene, h]
      exact .refl id e
    · rw [intervene, h]
      refine ⟨rfl, rfl, ?_, fun hk hp _ => (hu.find?_other hk).trans hp, hu.distinct⟩
      intro k q hq
      replace hq : u.find? k = some q := hq
      by_cases hk : k = id
      · subst hk
        rw [hu.find?_self] at hq
        exact ⟨p, [(e.now, .abort)], hu.before, (Option.some.inj hq).symm, by simp⟩
      · rw [hu.find?_other hk] at hq
        exact ⟨q, [], hq, rfl, by simp⟩
  | purge =>
    have hdrops := Tracker.drops_purgeExpired hd e.now
    exact ⟨rfl, rfl, fun hq => ⟨_, [], hdrops.find? hq, rfl, by simp⟩,
      fun _ hp hopen => hdrops.kept hp hopen, hdrops.distinct⟩

theorem meddles_interveneAll (id : CommandId) (hd : e.tracker.Distinct) (is : List Intervention) :
    Meddles id e (e.interveneAll id is) := by
  induction is generalizing e with
  | nil => exact .refl id e
  | cons i is ih =>
    have hfirst := meddles_intervene id hd i
    exact hfirst.trans (ih (hfirst.distinct hd))

end Engine

/-! ## Executions -/

namespace Execution

variable {setup : Setup σ} {e : Engine σ} {b : Bucket} {r : Execution σ × Engine σ}

/-- What may happen to the work on a bucket between two batches, of which some are left. -/
inductive GoesOn (command : Command) (action : Action σ) (b : Bucket) (e : Engine σ) :
    List Batch → Execution σ × Engine σ → Prop
  | gone (err : Error) (hgone : e.tracker.find? command.id = none) :
      GoesOn command action b e [] (.finished (.error err), e)
  | complete {p : Progress} {t : Tracker} (processed errors : Nat)
      (ht : Heeds e.tracker e.now command.id (.completeBucket b.sequence) p t) :
      GoesOn command action b e []
        (.finished (.ok (.processed processed errors)), { e with tracker := t })
  | interrupt (batch : Batch) (later : List Batch) (processed errors : Nat)
      (haborted : e.tracker.isAborted command.id = true) :
      GoesOn command action b e (batch :: later)
        (.finished (.ok (.interrupted processed errors)), e)
  | opens (batch : Batch) (later : List Batch) (processed errors : Nat)
      (answer : Except TransactionError Unit) (world : σ)
      (haborted : e.tracker.isAborted command.id = false) :
      GoesOn command action b e (batch :: later)
        (.opening ⟨command, action, b, batch, later, processed, errors⟩ answer,
          { e with world := world })

theorem goesOn_nextBatch (setup : Setup σ) (command : Command) (action : Action σ) (b : Bucket)
    (left : List Batch) (processed errors : Nat) (e : Engine σ) :
    GoesOn command action b e left
      (nextBatch setup command action b left processed errors e) := by
  cases left with
  | nil =>
    rw [nextBatch]
    obtain ⟨hgone, err, h⟩ | ⟨p, t, new, ht, h⟩ :=
      Tracker.completeBucket_cases e.tracker e.now command.id b.sequence
    · rw [h]
      exact .gone err hgone
    · rw [h]
      exact .complete processed errors ht
  | cons batch later =>
    rw [nextBatch]
    split
    · rename_i haborted
      exact .interrupt batch later processed errors haborted
    · rename_i haborted
      exact .opens batch later processed errors _ _ (Bool.eq_false_iff.2 haborted)

/-- What the report of a batch may lead to. -/
inductive Reports (w : Work σ) (errors : Nat) (e : Engine σ) : Execution σ × Engine σ → Prop
  | gone (err : Error) (hgone : e.tracker.find? w.command.id = none) :
      Reports w errors e (.finished (.error err), e)
  | told {p : Progress} {t : Tracker} {r : Execution σ × Engine σ}
      (ht : Heeds e.tracker e.now w.command.id (.recordBatch w.batch.ids.length errors) p t)
      (h : GoesOn w.command w.action w.bucket { e with tracker := t } w.later r) :
      Reports w errors e r

theorem reports_report (setup : Setup σ) (w : Work σ) (errors : Nat) (e : Engine σ) :
    Reports w errors e (report setup w errors e) := by
  unfold report
  obtain ⟨hgone, err, h⟩ | ⟨p, t, ht, h⟩ :=
    answer_cases e.tracker e.now w.command.id (.recordBatch w.batch.ids.length errors)
  · rw [show e.tracker.recordBatch e.now w.command.id w.batch.ids.length errors = .error err from h]
    exact .gone err hgone
  · rw [show e.tracker.recordBatch e.now w.command.id w.batch.ids.length errors = .ok t from h]
    exact .told ht (goesOn_nextBatch setup w.command w.action w.bucket w.later _ _ _)

/-- The ways in which the work on a bucket may begin. -/
inductive Begins (setup : Setup σ) (b : Bucket) (e : Engine σ) : Execution σ × Engine σ → Prop
  | unknown (hgone : e.tracker.find? b.commandId = none) :
      Begins setup b e (.finished (.ok .skippedUnknown), e)
  | terminal {p : Progress} (hfind : e.tracker.find? b.commandId = some p)
      (hended : p.state.isTerminal = true) :
      Begins setup b e (.finished (.ok .skippedTerminal), e)
  | duplicate {p : Progress} (hfind : e.tracker.find? b.commandId = some p)
      (hopen : p.state.isTerminal = false) (hdone : p.isBucketDone b.sequence = true) :
      Begins setup b e (.finished (.ok .skippedDuplicate), e)
  | abort {p : Progress} {t : Tracker} {err : Error}
      (herr : setup.actions.resolve p.command.action = .error err)
      (ht : Heeds e.tracker e.now b.commandId (.abortWithError err.message) p t) :
      Begins setup b e (.finished (.ok .commandAborted), { e with tracker := t })
  | goesOn {p : Progress} {registered : RegisteredAction (Action σ)} {r : Execution σ × Engine σ}
      (hfind : e.tracker.find? b.commandId = some p) (hopen : p.state.isTerminal = false)
      (hdone : p.isBucketDone b.sequence = false)
      (haction : setup.actions.resolve p.command.action = .ok registered)
      (h : GoesOn p.command registered.action b e (batches b.ids p.command.batchSize) r) :
      Begins setup b e r

theorem begins_start (setup : Setup σ) (b : Bucket) (e : Engine σ) :
    Begins setup b e (start setup b e) := by
  unfold start
  split
  · rename_i hgone
    exact .unknown hgone
  · rename_i p hfind
    split
    · rename_i hended
      exact .terminal hfind hended
    · rename_i hended
      have hopen := Bool.eq_false_iff.2 hended
      split
      · rename_i hdone
        exact .duplicate hfind hopen hdone
      · rename_i hdone
        split
        · rename_i err herr
          obtain ⟨hgone, -⟩ | ⟨q, t, new, ht, h⟩ :=
            Tracker.abortWithError_cases e.tracker e.now b.commandId err.message
          · rw [hfind] at hgone
            exact absurd hgone (by simp)
          · rw [h]
            obtain rfl := Option.some.inj (hfind.symm.trans ht.before)
            exact .abort herr ht
        · rename_i registered haction
          exact .goesOn hfind hopen (Bool.eq_false_iff.2 hdone) haction
            (goesOn_nextBatch setup p.command registered.action b _ 0 0 e)

/-- Whether a transaction was asked for and nothing has happened since. -/
def isOpening : Execution σ → Bool
  | .opening _ _ => true
  | _ => false

/-- All that a step of an execution may be, with this work at hand. -/
inductive Works (x : Execution σ) (w : Work σ) (e : Engine σ) : Execution σ × Engine σ → Prop
  /-- The action is called, or the transaction is closed.  An action that is loyal stays so, and it
has commands dropped at most. -/
  | proceed {y : Execution σ} {f : Engine σ} (hwork : y.work? = some w) (hy : y.isOpening = false)
      (hf : Engine.Meddles w.command.id e f)
      (hloyal : x.IsLoyal → y.IsLoyal ∧ e.tracker.Drops f.tracker) : Works x w e (y, f)
  | report {errors : Nat} {r : Execution σ × Engine σ} (h : Reports w errors e r) : Works x w e r
  /-- The action cannot run, which is told unless the command is gone. -/
  | gone (err : Error) (hgone : e.tracker.find? w.command.id = none) :
      Works x w e (.finished (.error err), e)
  | abort {p : Progress} {t : Tracker} {m message : String}
      (hx : x = .rollingBack w (.configuration m))
      (ht : Heeds e.tracker e.now w.command.id (.abortWithError message) p t) :
      Works x w e (.finished (.ok .commandAborted), { e with tracker := t })

theorem works_proceed (setup : Setup σ) {x : Execution σ} {w : Work σ} (hx : x.work? = some w)
    (i : Isolation) {f : Engine σ} (hf : Engine.Meddles w.command.id e f)
    (hloyal : x.IsLoyal →
      (∀ m, i.cause? ≠ some (.configuration m)) ∧ e.tracker.Drops f.tracker) :
    Works x w e (proceed setup w i f) := by
  have hstays (h : x.IsLoyal) : (proceed setup w i f).1.IsLoyal ∧ e.tracker.Drops f.tracker :=
    ⟨isLoyal_proceed setup (h.action w hx) (hloyal h).1 f, (hloyal h).2⟩
  cases i with
  | _ => exact .proceed rfl rfl (hf.trans (Engine.meddles_of_world _ f _)) hstays

theorem works_rolledBack (setup : Setup σ) (w : Work σ) (cause : ActionError) (e : Engine σ) :
    Works (.rollingBack w cause) w e (rolledBack setup w cause e) := by
  cases cause with
  | configuration m =>
    rw [rolledBack]
    obtain ⟨hgone, err, h⟩ | ⟨p, t, new, ht, h⟩ :=
      Tracker.abortWithError_cases e.tracker e.now w.command.id
        (ActionError.configuration m).toError.message
    · rw [h]
      exact .gone err hgone
    · rw [h]
      exact .abort rfl ht
  | recordFailed record m => exact .report (reports_report setup w _ e)
  | transaction m => exact .report (reports_report setup w _ e)

theorem works_step? {x : Execution σ} (hd : e.tracker.Distinct) (h : x.step? setup e = some r) :
    ∃ w, x.work? = some w ∧ Works x w e r := by
  cases x with
  | opening w answer =>
    refine ⟨w, rfl, ?_⟩
    cases answer with
    | error err =>
      obtain rfl := Option.some.inj h
      exact .report (reports_report setup w _ e)
    | ok =>
      obtain rfl := Option.some.inj h
      exact works_proceed setup rfl _ (.refl _ e) fun _ => ⟨by simp [Isolation.cause?], .refl _⟩
  | applying w call i =>
    refine ⟨w, rfl, ?_⟩
    rw [step?] at h
    cases hcalling : i.calling? with
    | none =>
      rw [hcalling] at h
      obtain rfl := Option.some.inj h
      exact works_proceed setup rfl i (.refl _ e) fun h => ⟨h.runs, .refl _⟩
    | some ids =>
      rw [hcalling] at h
      -- while the action is called, it may abort its command and have others dropped
      obtain ⟨⟨reply, world⟩, hreply, rfl⟩ := Option.map_eq_some_iff.1 h
      have hworld := Engine.meddles_of_world w.command.id e world
      have hrest := Engine.meddles_interveneAll (e := { e with world := world }) w.command.id hd
        reply.interventions
      refine works_proceed setup rfl _ (hworld.trans hrest) fun hloyal => ⟨fun m hcause => ?_, ?_⟩
      · obtain hcause | hcause := Isolation.cause?_answer hcause
        · exact hloyal.runs m hcause
        · exact (hloyal.action w rfl).runs hreply m hcause
      · exact Engine.drops_interveneAll (e := { e with world := world }) w.command.id hd
          ((hloyal.action w rfl).stays hreply)
  | committing w errors answer =>
    refine ⟨w, rfl, ?_⟩
    cases answer with
    | error err =>
      obtain rfl := Option.some.inj h
      exact .report (reports_report setup w _ e)
    | ok =>
      obtain rfl := Option.some.inj h
      exact .report (reports_report setup w errors e)
  | rollingBack w cause =>
    obtain rfl := Option.some.inj h
    exact ⟨w, rfl, works_rolledBack setup w cause e⟩
  | finished result => exact absurd h (by simp [step?])

/-! ## What every step keeps -/

/-- The work at hand for a bucket, on behalf of a command. -/
def IsFor (command : Command) (b : Bucket) (x : Execution σ) : Prop :=
  ∀ w, x.work? = some w → w.command = command ∧ w.bucket = b

theorem isFor_finished (command : Command) (b : Bucket) (result : Except Error BucketOutcome) :
    IsFor command b (.finished result : Execution σ) := by
  intro w hw
  exact absurd hw (by simp [work?])

/-- What all steps have in common: time stands still, the channel is left alone, and no command is
accepted. -/
structure Evolves (e f : Engine σ) : Prop where
  now : f.now = e.now
  channel : f.channel = e.channel
  tracker : e.tracker.Advances f.tracker

theorem Evolves.refl (e : Engine σ) : Evolves e e := ⟨rfl, rfl, .refl _⟩

theorem evolves_of_advances {t : Tracker} (h : e.tracker.Advances t) :
    Evolves e { e with tracker := t } := ⟨rfl, rfl, h⟩

variable {command : Command} {action : Action σ} {left : List Batch} {w : Work σ} {x : Execution σ}
  {errors : Nat}

theorem GoesOn.evolves (h : GoesOn command action b e left r) : Evolves e r.2 := by
  cases h with
  | gone err _ => exact .refl e
  | complete processed errors ht => exact evolves_of_advances ht.advances
  | interrupt => exact .refl e
  | opens => exact ⟨rfl, rfl, .refl _⟩

theorem Reports.evolves (h : Reports w errors e r) : Evolves e r.2 := by
  cases h with
  | gone err _ => exact .refl e
  | told ht h =>
    have hrest := h.evolves
    exact ⟨hrest.now, hrest.channel, ht.advances.trans hrest.tracker⟩

theorem Begins.evolves (h : Begins setup b e r) : Evolves e r.2 := by
  cases h with
  | abort _ ht => exact evolves_of_advances ht.advances
  | goesOn _ _ _ _ h => exact h.evolves
  | _ => exact .refl e

theorem Works.evolves (h : Works x w e r) : Evolves e r.2 := by
  cases h with
  | proceed _ _ hf _ => exact ⟨hf.now, hf.channel, hf.advances⟩
  | report h => exact h.evolves
  | gone => exact .refl e
  | abort _ ht => exact evolves_of_advances ht.advances

theorem GoesOn.isFor (h : GoesOn command action b e left r) : r.1.IsFor command b := by
  cases h with
  | opens batch later processed errors answer world _ =>
    intro v hv
    obtain rfl := Option.some.inj hv
    exact ⟨rfl, rfl⟩
  | _ => exact isFor_finished command b _

theorem Reports.isFor (h : Reports w errors e r) : r.1.IsFor w.command w.bucket := by
  cases h with
  | gone => exact isFor_finished _ _ _
  | told _ h => exact h.isFor

theorem Works.isFor (h : Works x w e r) : r.1.IsFor w.command w.bucket := by
  cases h with
  | proceed hwork _ _ _ =>
    intro v hv
    obtain rfl := Option.some.inj (hwork.symm.trans hv)
    exact ⟨rfl, rfl⟩
  | report h => exact h.isFor
  | gone => exact isFor_finished _ _ _
  | abort => exact isFor_finished _ _ _

/-! ## Work that ends leaves its bucket shut -/

theorem shut_of_heeds_abort {p : Progress} {t : Tracker} {id : CommandId} {report : Report}
    (hreport : report.isAbort = true) (ht : Heeds e.tracker e.now id report p t) (k : Nat) :
    t.Shut id k := by
  intro q hq
  have hlive := ht.live?_abort hreport
  rw [Tracker.live?_of_find? hq, Progress.live_eq_none] at hlive
  exact .inl hlive

theorem GoesOn.shut (h : GoesOn command action b e left r) (hended : r.1.work? = none) :
    r.2.tracker.Shut command.id b.sequence := by
  cases h with
  | gone err hgone => exact Tracker.shut_of_gone hgone
  | complete processed errors ht =>
    intro q hq
    obtain rfl := Option.some.inj (hq.symm.trans ht.find?_self)
    refine .inr ?_
    rw [Progress.heed, Progress.isBucketDone_completeBucket, beq_self_eq_true, Bool.or_true]
  | interrupt batch later processed errors haborted =>
    intro q hq
    obtain ⟨p, hp, hstate⟩ := Tracker.isAborted_iff.1 haborted
    obtain rfl := Option.some.inj (hp.symm.trans hq)
    refine .inl ?_
    rw [hstate]
    rfl
  | opens => exact absurd hended (by simp [work?])

theorem Reports.shut (h : Reports w errors e r) (hended : r.1.work? = none) :
    r.2.tracker.Shut w.command.id w.bucket.sequence := by
  cases h with
  | gone err hgone => exact Tracker.shut_of_gone hgone
  | told _ h => exact h.shut hended

/-- Whatever ends the work on a bucket, the bucket gets no more of it. -/
theorem Works.shut (h : Works x w e r) (hended : r.1.work? = none) :
    r.2.tracker.Shut w.command.id w.bucket.sequence := by
  cases h with
  | proceed hwork _ _ _ =>
    rw [hwork] at hended
    exact absurd hended (by simp)
  | report h => exact h.shut hended
  | gone err hgone => exact Tracker.shut_of_gone hgone
  | abort _ ht => exact shut_of_heeds_abort rfl ht _

/-- A bucket that is found to need no work gets none later on either. -/
theorem Begins.shut (h : Begins setup b e r) (hended : r.1.work? = none) :
    r.2.tracker.Shut b.commandId b.sequence := by
  cases h with
  | unknown hgone => exact Tracker.shut_of_gone hgone
  | terminal hfind hterminal =>
    intro q hq
    obtain rfl := Option.some.inj (hfind.symm.trans hq)
    exact .inl hterminal
  | duplicate hfind _ hdone =>
    intro q hq
    obtain rfl := Option.some.inj (hfind.symm.trans hq)
    exact .inr hdone
  | abort _ ht => exact shut_of_heeds_abort rfl ht _
  | goesOn hfind _ _ _ h =>
    have hid : _ = b.commandId := Tracker.id_of_find? hfind
    rw [← hid]
    exact h.shut hended

/-- Work begins only for a command that is there and has not ended. -/
theorem Begins.found (h : Begins setup b e r) {w : Work σ} (hw : r.1.work? = some w) :
    ∃ p, e.tracker.find? b.commandId = some p ∧ p.state.isTerminal = false := by
  cases h with
  | goesOn hfind hopen _ _ _ => exact ⟨_, hfind, hopen⟩
  | _ => exact absurd hw (by simp [work?])

/-- No work is begun on a bucket that is shut, and nothing changes. -/
theorem start_of_shut (setup : Setup σ) (hshut : e.tracker.Shut b.commandId b.sequence) :
    ∃ outcome, start setup b e = (.finished (.ok outcome), e) := by
  unfold start
  split
  · exact ⟨_, rfl⟩
  · rename_i p hfind
    split
    · exact ⟨_, rfl⟩
    · rename_i hended
      split
      · exact ⟨_, rfl⟩
      · rename_i hdone
        obtain h | h := hshut p hfind
        · exact absurd h hended
        · exact absurd h hdone

/-! ## The channel does not matter to an execution -/

/-- A result with another channel in the engine. -/
def withChannel (r : Execution σ × Engine σ) (c : Channel) : Execution σ × Engine σ :=
  (r.1, { r.2 with channel := c })

variable (c : Channel)

theorem nextBatch_withChannel (processed errors : Nat) :
    nextBatch setup command action b left processed errors { e with channel := c } =
      withChannel (nextBatch setup command action b left processed errors e) c := by
  cases left with
  | nil =>
    simp only [nextBatch]
    split <;> rfl
  | cons batch later =>
    simp only [nextBatch]
    split <;> rfl

theorem report_withChannel :
    report setup w errors { e with channel := c } = withChannel (report setup w errors e) c := by
  simp only [report]
  split
  · rfl
  · rename_i t _
    exact nextBatch_withChannel (e := { e with tracker := t }) c _ _

theorem proceed_withChannel (i : Isolation) :
    proceed setup w i { e with channel := c } = withChannel (proceed setup w i e) c := by
  cases i with
  | _ => rfl

theorem rolledBack_withChannel (cause : ActionError) :
    rolledBack setup w cause { e with channel := c } =
      withChannel (rolledBack setup w cause e) c := by
  cases cause with
  | configuration m =>
    simp only [rolledBack]
    split <;> rfl
  | recordFailed record m => exact report_withChannel c
  | transaction m => exact report_withChannel c

theorem start_withChannel :
    start setup b { e with channel := c } = withChannel (start setup b e) c := by
  simp only [start]
  split
  · rfl
  · rename_i p _
    split
    · rfl
    · split
      · rfl
      · cases setup.actions.resolve p.command.action with
        | error err =>
          simp only
          split <;> rfl
        | ok registered => exact nextBatch_withChannel c 0 0

theorem intervene_withChannel (id : CommandId) (i : Intervention) :
    Engine.intervene id { e with channel := c } i = { e.intervene id i with channel := c } := by
  cases i with
  | abort =>
    simp only [Engine.intervene]
    split <;> rfl
  | purge => rfl

theorem interveneAll_withChannel (id : CommandId) (is : List Intervention) :
    Engine.interveneAll id { e with channel := c } is =
      { e.interveneAll id is with channel := c } := by
  induction is generalizing e with
  | nil => rfl
  | cons i is ih =>
    show Engine.interveneAll id (Engine.intervene id { e with channel := c } i) is = _
    rw [intervene_withChannel, ih]
    rfl

/-- The steps of an execution neither read nor change the channel. -/
theorem step?_withChannel (x : Execution σ) :
    x.step? setup { e with channel := c } = (x.step? setup e).map (withChannel · c) := by
  cases x with
  | opening w answer =>
    cases answer with
    | error err => exact congrArg some (report_withChannel c)
    | ok => exact congrArg some (proceed_withChannel c _)
  | applying w call i =>
    simp only [step?]
    cases i.calling? with
    | none => exact congrArg some (proceed_withChannel c i)
    | some ids =>
      simp only [Option.map_map]
      congr 1
      funext answer
      obtain ⟨reply, world⟩ := answer
      have h := interveneAll_withChannel (e := { e with world := world }) c w.command.id
        reply.interventions
      rw [Function.comp_apply]
      simp only [h]
      exact proceed_withChannel c _
  | committing w errors answer =>
    cases answer with
    | error err => exact congrArg some (report_withChannel c)
    | ok => exact congrArg some (report_withChannel c)
  | rollingBack w cause => exact congrArg some (rolledBack_withChannel c cause)
  | finished result => rfl

theorem channel_step? {x : Execution σ} (h : x.step? setup e = some r) :
    r.2.channel = e.channel := by
  have hsame : x.step? setup e = (x.step? setup e).map (withChannel · e.channel) :=
    step?_withChannel e.channel x
  rw [h, Option.map_some] at hsame
  rw [Option.some.inj hsame]
  rfl

end Execution

end BulkRun
