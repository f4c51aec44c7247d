import BulkRun.Proofs.Execution.Blocks
import BulkRun.Proofs.Execution.Steps
/-!
# Batch after batch

While a bucket is worked on, what has passed is a block for each batch, in order: those the tracker
was told of, and perhaps one more (`Stands`).  A step either adds to the block at hand or, when that
is over, tells the tracker of it and turns to the next batch, to the end of the bucket, or away from
it (`Turn`).  Main statement: every step is such a turn (`turn_work`), and so what has passed so far
can be cut into blocks (`Stint.stands_of_run`).
-/

namespace BulkRun

open Tracker (Heeds)

variable {σ : Type}

/-- The number of records in some blocks. -/
def worked (blocks : List Block) : Nat := (blocks.map (·.batch.ids.length)).sum

/-- The number of failures in some blocks. -/
def failed (blocks : List Block) : Nat := (blocks.map (·.errors)).sum

theorem worked_concat (blocks : List Block) (block : Block) :
    worked (blocks ++ [block]) = worked blocks + block.batch.ids.length := by
  simp [worked]

theorem failed_concat (blocks : List Block) (block : Block) :
    failed (blocks ++ [block]) = failed blocks + block.errors := by
  simp [failed]

/-- Whether a block is in order, and it is over without stopping its bucket. -/
structure Block.IsTold (block : Block) : Prop where
  lawful : block.IsLawful
  ended : block.isOver = true
  runs : block.stopsBucket = false

/-- Whether a bucket's work stands behind some blocks, with these batches left. -/
structure StandsBehind (k : Command) (b : Bucket) (told : List Block) (left : List Batch) :
    Prop where
  batches : batches b.ids k.batchSize = told.map (·.batch) ++ left
  told : ∀ block ∈ told, block.IsTold

/-- Whether work is at hand behind some blocks. -/
structure Work.IsBehind (k : Command) (b : Bucket) (told : List Block) (w : Work σ) : Prop where
  command : w.command = k
  bucket : w.bucket = b
  stands : StandsBehind k b told (w.batch :: w.later)
  processed : w.processed = worked told
  errors : w.errors = failed told

/-- Where the work on a bucket stands: behind which blocks, and which block is at hand. -/
inductive Stands (k : Command) (b : Bucket) (told : List Block) :
    Option Block → Execution σ → Prop
  | opening {w : Work σ} {answer : Except TransactionError Unit}
      (h : w.IsBehind k b told) :
      Stands k b told (some ⟨w.batch, answer, [], none, none⟩) (.opening w answer)
  | applying {w : Work σ} {call : Nat} {i : Isolation} {ids : List String}
      {applied : List Application} (h : w.IsBehind k b told) (htrial : Trial w.batch.ids applied i)
      (hcalling : i.calling? = some ids) :
      Stands k b told (some ⟨w.batch, .ok (), applied, some ids, none⟩) (.applying w call i)
  | committing {w : Work σ} {errors : Nat} {applied : List Application}
      {answer : Except TransactionError Unit} (h : w.IsBehind k b told)
      (htrial : Trial w.batch.ids applied (.done errors)) :
      Stands k b told (some ⟨w.batch, .ok (), applied, none, some (.commit answer)⟩)
        (.committing w errors answer)
  | rollingBack {w : Work σ} {cause : ActionError} {applied : List Application}
      {answer : Except TransactionError Unit} (h : w.IsBehind k b told)
      (htrial : Trial w.batch.ids applied (.failed cause)) :
      Stands k b told (some ⟨w.batch, .ok (), applied, none, some (.rollback answer)⟩)
        (.rollingBack w cause)
  | processed (h : StandsBehind k b told []) :
      Stands k b told none (.finished (.ok (.processed (worked told) (failed told))))
  | interrupted {batch : Batch} {later : List Batch}
      (h : StandsBehind k b told (batch :: later)) :
      Stands k b told none (.finished (.ok (.interrupted (worked told) (failed told))))
  /-- The action cannot run. -/
  | stopped {block : Block} {later : List Batch}
      (h : StandsBehind k b told (block.batch :: later)) (hlawful : block.IsLawful)
      (hover : block.isOver = true) (hstops : block.stopsBucket = true) :
      Stands k b told (some block) (.finished (.ok .commandAborted))
  /-- The tracker cannot be told of the block. -/
  | gone {block : Block} {later : List Batch} {err : Error}
      (h : StandsBehind k b told (block.batch :: later)) (hlawful : block.IsLawful)
      (hover : block.isOver = true) :
      Stands k b told (some block) (.finished (.error err))

/-- Whether what has passed so far is that of some blocks, behind which the work stands. -/
structure Tells (k : Command) (b : Bucket) (told : List Block) (current : Option Block)
    (s : Stint σ) : Prop where
  journal : s.journal = (told ++ current.toList).flatMap (Block.notes k b)
  stands : Stands k b told current s.execution

/-- Whether a bucket was left alone. -/
structure Stint.IsIdle (s : Stint σ) : Prop where
  finished : ∃ outcome, s.execution = .finished (.ok outcome) ∧ outcome.counts? = none
  journal : s.journal = []

/-- What a step does to the block at hand, and what follows a block that is over. -/
inductive Turn (k : Command) (b : Bucket) (s : Stint σ) (told : List Block) (block : Block) :
    List Block → Option Block → Stint σ → Prop
  /-- More passes for the batch.  If a call was answered, the action may have intervened. -/
  | goesOn {block' : Block} {x : Execution σ} {f : Engine σ} {more : Journal}
      (is : List Intervention) (hopen : block.isOver = false) (hworks : x.result? = none)
      (hbatch : block'.batch = block.batch)
      (hnotes : block'.notes k b = block.notes k b ++ more)
      (his : ∀ i ∈ is, ∃ ids reply, .answered ids reply ∈ more ∧ i ∈ reply.interventions)
      (hf : f.tracker = (s.engine.interveneAll k.id is).tracker) :
      Turn k b s told block told (some block') ⟨x, f, s.journal ++ more⟩
  /-- The command is gone. -/
  | gone (err : Error) (hover : block.isOver = true)
      (hgone : s.engine.tracker.find? k.id = none) :
      Turn k b s told block told (some block) ⟨.finished (.error err), s.engine, s.journal⟩
  /-- The action cannot run, and its command is aborted. -/
  | stops {p : Progress} {u : Tracker} (message : String) (hover : block.isOver = true)
      (hstops : block.stopsBucket = true)
      (hu : Heeds s.engine.tracker s.engine.now k.id (.abortWithError message) p u) :
      Turn k b s told block told (some block)
        ⟨.finished (.ok .commandAborted), { s.engine with tracker := u }, s.journal⟩
  /-- The last batch is told of, and the bucket is done. -/
  | last {p q : Progress} {u v : Tracker} (htold : block.IsTold)
      (hu : Heeds s.engine.tracker s.engine.now k.id
        (.recordBatch block.batch.ids.length block.errors) p u)
      (hv : Heeds u s.engine.now k.id (.completeBucket b.sequence) q v) :
      Turn k b s told block (told ++ [block]) none
        ⟨.finished (.ok (.processed (worked (told ++ [block])) (failed (told ++ [block])))),
          { s.engine with tracker := v }, s.journal⟩
  /-- The batch is told of, and the command turns out to be aborted with batches left. -/
  | interrupts {p : Progress} {u : Tracker} (htold : block.IsTold)
      (hu : Heeds s.engine.tracker s.engine.now k.id
        (.recordBatch block.batch.ids.length block.errors) p u)
      (haborted : u.isAborted k.id = true) :
      Turn k b s told block (told ++ [block]) none
        ⟨.finished (.ok (.interrupted (worked (told ++ [block])) (failed (told ++ [block])))),
          { s.engine with tracker := u }, s.journal⟩
  /-- The batch is told of, and a transaction is asked for on behalf of the next one. -/
  | next {p : Progress} {u : Tracker} (w : Work σ) (answer : Except TransactionError Unit)
      (world : σ) (htold : block.IsTold)
      (hu : Heeds s.engine.tracker s.engine.now k.id
        (.recordBatch block.batch.ids.length block.errors) p u)
      (hgoes : u.isAborted k.id = false) :
      Turn k b s told block (told ++ [block]) (some ⟨w.batch, answer, [], none, none⟩)
        ⟨.opening w answer, { s.engine with tracker := u, world := world },
          s.journal ++ [.began ⟨k.id, b.sequence, w.batch.index⟩ answer]⟩

namespace Execution

/-- The outcome of a bucket, if there is one. -/
def outcome? : Execution σ → Option BucketOutcome
  | .finished (.ok outcome) => some outcome
  | _ => none

theorem eq_of_outcome? {x : Execution σ} {outcome : BucketOutcome}
    (h : x.outcome? = some outcome) : x = .finished (.ok outcome) := by
  cases x with
  | finished result =>
    cases result with
    | ok other => rw [Option.some.inj h]
    | error err => exact absurd h (by simp [outcome?])
  | _ => exact absurd h (by simp [outcome?])

/-- The counts of a bucket between two batches, or at its end. -/
def counts? : Execution σ → Option (Nat × Nat)
  | .opening w _ => some (w.processed, w.errors)
  | .finished (.ok outcome) => outcome.counts?
  | _ => none

theorem counts?_nextBatch (setup : Setup σ) (command : Command) (action : Action σ) (b : Bucket)
    (left : List Batch) (processed errors : Nat) (e : Engine σ) {counts : Nat × Nat}
    (h : (nextBatch setup command action b left processed errors e).1.counts? = some counts) :
    counts = (processed, errors) := by
  cases left with
  | nil =>
    rw [nextBatch] at h
    split at h
    · exact absurd h (by simp [counts?])
    · exact (Option.some.inj h).symm
  | cons batch later =>
    rw [nextBatch] at h
    split at h
    · exact (Option.some.inj h).symm
    · exact (Option.some.inj h).symm

theorem counts?_start (setup : Setup σ) (b : Bucket) (e : Engine σ) {counts : Nat × Nat}
    (h : (start setup b e).1.counts? = some counts) : counts = (0, 0) := by
  unfold start at h
  split at h
  · exact absurd h (by simp [counts?, BucketOutcome.counts?])
  · split at h
    · exact absurd h (by simp [counts?, BucketOutcome.counts?])
    · split at h
      · exact absurd h (by simp [counts?, BucketOutcome.counts?])
      · split at h
        · split at h
          · exact absurd h (by simp [counts?])
          · exact absurd h (by simp [counts?, BucketOutcome.counts?])
        · exact counts?_nextBatch setup _ _ _ _ _ _ _ h

theorem counts?_report (setup : Setup σ) (w : Work σ) (errors : Nat) (e : Engine σ)
    {counts : Nat × Nat} (h : (report setup w errors e).1.counts? = some counts) :
    counts = (w.processed + w.batch.ids.length, w.errors + errors) := by
  unfold report at h
  split at h
  · exact absurd h (by simp [counts?])
  · exact counts?_nextBatch setup _ _ _ _ _ _ _ h

end Execution

variable {setup : Setup σ} {k : Command} {b : Bucket} {told : List Block} {block : Block}
  {w : Work σ} {s t : Stint σ}

/-- A block that is told of is one more behind the work. -/
theorem StandsBehind.concat {later : List Batch} (h : StandsBehind k b told (block.batch :: later))
    (hblock : block.IsTold) : StandsBehind k b (told ++ [block]) later where
  batches := by
    rw [h.batches, List.map_append, List.append_assoc]
    rfl
  told := by
    intro c hc
    rcases List.mem_append.1 hc with hc | hc
    · exact h.told c hc
    · rw [List.mem_singleton.1 hc]
      exact hblock

/-- Telling the tracker of a block that is over is a turn. -/
theorem turn_report (setup : Setup σ) (block : Block) (h : w.IsBehind k b told)
    (hbatch : block.batch = w.batch) (hblock : block.IsTold) (s : Stint σ) :
    ∃ told' current', Turn k b s told block told' current'
        ⟨(Execution.report setup w block.errors s.engine).1,
          (Execution.report setup w block.errors s.engine).2,
          s.journal ++ (Execution.report setup w block.errors s.engine).1.opens⟩ ∧
      Stands k b told' current' (Execution.report setup w block.errors s.engine).1 := by
  have hstands : StandsBehind k b told (block.batch :: w.later) := by
    rw [hbatch]
    exact h.stands
  have hnext := hstands.concat hblock
  have hreports := Execution.reports_report setup w block.errors s.engine
  have hcounts {counts : Nat × Nat}
      (hc : (Execution.report setup w block.errors s.engine).1.counts? = some counts) :
      counts = (worked (told ++ [block]), failed (told ++ [block])) := by
    rw [Execution.counts?_report setup w block.errors s.engine hc, worked_concat, failed_concat,
      h.processed, h.errors, hbatch]
  generalize Execution.report setup w block.errors s.engine = r at hreports hcounts
  cases hreports with
  | gone err hgone =>
    rw [h.command] at hgone
    refine ⟨told, some block, ?_, .gone hstands hblock.lawful hblock.ended⟩
    simp only [Execution.opens, List.append_nil]
    exact .gone err hblock.ended hgone
  | @told p u r hu hgoes =>
    rw [h.command, ← hbatch] at hu
    rw [h.command, h.bucket] at hgoes
    generalize hleft : w.later = left at hgoes hnext
    cases hgoes with
    | gone err hgone =>
      rw [show u.find? k.id = some _ from hu.find?_self] at hgone
      exact absurd hgone (by simp)
    | complete processed errors hv =>
      obtain ⟨rfl, rfl⟩ := Prod.mk.inj (hcounts rfl)
      refine ⟨told ++ [block], none, ?_, .processed hnext⟩
      simp only [Execution.opens, List.append_nil]
      exact .last hblock hu hv
    | interrupt batch later processed errors haborted =>
      obtain ⟨rfl, rfl⟩ := Prod.mk.inj (hcounts rfl)
      refine ⟨told ++ [block], none, ?_, .interrupted hnext⟩
      simp only [Execution.opens, List.append_nil]
      exact .interrupts hblock hu haborted
    | opens batch later processed errors answer world hnot =>
      obtain ⟨hprocessed, herrors⟩ := Prod.mk.inj (hcounts rfl)
      exact ⟨told ++ [block], _, .next _ answer world hblock hu hnot,
        .opening ⟨rfl, rfl, hnext, hprocessed, herrors⟩⟩

/-- The block of a batch whose last call was answered. -/
def Block.answered (batch : Batch) (applied : List Application) : Block :=
  ⟨batch, .ok (), applied, none, none⟩

/-- Where the work stands when it has gone on from an answer: one note is added to the block. -/
theorem stands_proceed (setup : Setup σ) (h : w.IsBehind k b told) {applied : List Application}
    {i : Isolation} (htrial : Trial w.batch.ids applied i) (e : Engine σ) :
    ∃ block', block'.batch = w.batch ∧
      block'.notes k b = (Block.answered w.batch applied).notes k b ++
        [Execution.proceeds setup w i e] ∧
      Stands k b told (some block') (Execution.proceed setup w i e).1 ∧
      (Execution.proceed setup w i e).1.result? = none ∧
      (Execution.proceed setup w i e).2.tracker = e.tracker := by
  have hscope : w.scope = (Block.answered w.batch applied).scope k b := by
    rw [Work.scope, h.command, h.bucket]
    rfl
  cases i with
  | whole ids =>
    exact ⟨_, rfl, by simp [Block.notes, Block.answered, Block.scope, Execution.proceeds],
      .applying h htrial rfl, rfl, rfl⟩
  | single id later errors =>
    exact ⟨_, rfl, by simp [Block.notes, Block.answered, Block.scope, Execution.proceeds],
      .applying h htrial rfl, rfl, rfl⟩
  | done errors =>
    refine ⟨_, rfl, ?_, .committing h htrial, rfl, rfl⟩
    simp [Block.notes, Block.answered, Block.scope, Execution.proceeds, Closing.note, hscope]
  | failed cause =>
    refine ⟨⟨w.batch, .ok (), applied, none,
      some (.rollback (setup.transactions.rollback w.scope e.world).1)⟩, rfl, ?_,
      .rollingBack h htrial, rfl, rfl⟩
    simp [Block.notes, Block.answered, Block.scope, Execution.proceeds, Closing.note, hscope]

theorem interveneAll_world (id : CommandId) (e : Engine σ) (world : σ) (is : List Intervention) :
    ({ e with world := world } : Engine σ).interveneAll id is =
      { e.interveneAll id is with world := world } := by
  induction is generalizing e with
  | nil => rfl
  | cons i is ih =>
    have hfirst : ({ e with world := world } : Engine σ).intervene id i =
        { e.intervene id i with world := world } := by
      cases i with
      | abort =>
        simp only [Engine.intervene]
        split <;> rfl
      | purge => rfl
    show (({ e with world := world } : Engine σ).intervene id i).interveneAll id is = _
    rw [hfirst, ih]
    rfl

/-- An action that cannot run ends the work, and its command if that is there. -/
theorem turn_stops (setup : Setup σ) (block : Block) (h : w.IsBehind k b told)
    (hbatch : block.batch = w.batch) (hlawful : block.IsLawful) (hover : block.isOver = true)
    (hstops : block.stopsBucket = true) (s : Stint σ) (m : String) :
    ∃ told' current', Turn k b s told block told' current'
        ⟨(Execution.rolledBack setup w (.configuration m) s.engine).1,
          (Execution.rolledBack setup w (.configuration m) s.engine).2,
          s.journal ++ (Execution.rolledBack setup w (.configuration m) s.engine).1.opens⟩ ∧
      Stands k b told' current' (Execution.rolledBack setup w (.configuration m) s.engine).1 := by
  have hstands : StandsBehind k b told (block.batch :: w.later) := by
    rw [hbatch]
    exact h.stands
  rw [Execution.rolledBack, h.command]
  rcases Tracker.abortWithError_cases s.engine.tracker s.engine.now k.id
    (ActionError.configuration m).toError.message with ⟨hgone, err, htold⟩ | ⟨p, u, new, hu, htold⟩
  · rw [htold]
    refine ⟨told, some block, ?_, .gone hstands hlawful hover⟩
    simp only [Execution.opens, List.append_nil]
    exact .gone err hover hgone
  · rw [htold]
    refine ⟨told, some block, ?_, .stopped hstands hlawful hover hstops⟩
    simp only [Execution.opens, List.append_nil]
    exact .stops _ hover hstops hu

/-- Only a block that is over is reported. -/
theorem Stands.isTold_of_report? {current : Option Block} {x : Execution σ} {errors : Nat}
    (h : Stands k b told current x) (hreport : x.report? = some (w, errors)) :
    ∃ block, current = some block ∧ block.batch = w.batch ∧ block.errors = errors ∧
      block.IsTold ∧ w.IsBehind k b told := by
  cases h with
  | @opening v answer h =>
    cases answer with
    | ok => exact absurd hreport (by simp [Execution.report?])
    | error err =>
      obtain ⟨rfl, rfl⟩ := Prod.mk.inj (Option.some.inj hreport)
      exact ⟨_, rfl, rfl, rfl, ⟨Block.isLawful_opened _ _, rfl, rfl⟩, h⟩
  | applying => exact absurd hreport (by simp [Execution.report?])
  | @committing v n applied answer h htrial =>
    have hruns : ∀ a ∈ applied, ¬a.cannotRun = true := by
      intro a ha hcannot
      obtain ⟨m, hm⟩ := htrial.cannotRun_iff.1 ⟨a, ha, hcannot⟩
      exact absurd hm (by simp)
    have htold : (⟨v.batch, .ok (), applied, none, some (.commit answer)⟩ : Block).IsTold :=
      ⟨Block.isLawful_committed htrial answer, rfl, List.any_eq_false.2 hruns⟩
    cases answer with
    | error err =>
      obtain ⟨rfl, rfl⟩ := Prod.mk.inj (Option.some.inj hreport)
      exact ⟨_, rfl, rfl, rfl, htold, h⟩
    | ok =>
      obtain ⟨rfl, rfl⟩ := Prod.mk.inj (Option.some.inj hreport)
      exact ⟨_, rfl, rfl, htrial.errors_eq, htold, h⟩
  | @rollingBack v cause applied answer h htrial =>
    have hcause (m : String) : cause ≠ .configuration m := by
      rintro rfl
      exact absurd hreport (by simp [Execution.report?])
    have hruns : ∀ a ∈ applied, ¬a.cannotRun = true := by
      intro a ha hcannot
      obtain ⟨m, hm⟩ := htrial.cannotRun_iff.1 ⟨a, ha, hcannot⟩
      exact hcause m (Isolation.failed.inj hm)
    have htold : (⟨v.batch, .ok (), applied, none, some (.rollback answer)⟩ : Block).IsTold :=
      ⟨Block.isLawful_rolledBack htrial answer, rfl, List.any_eq_false.2 hruns⟩
    cases cause with
    | configuration m => exact absurd rfl (hcause m)
    | _ =>
      obtain ⟨rfl, rfl⟩ := Prod.mk.inj (Option.some.inj hreport)
      exact ⟨_, rfl, rfl, rfl, htold, h⟩
  | _ => exact absurd hreport (by simp [Execution.report?])

/-- Every step is a turn. -/
theorem turn_work {current : Option Block} (h : Stands k b told current s.execution)
    (hwork : s.next? setup .work = some t) :
    ∃ block told' current', current = some block ∧ Turn k b s told block told' current' t ∧
      Stands k b told' current' t.execution := by
  obtain ⟨r, hstep, rfl⟩ := Option.map_eq_some_iff.1 hwork
  obtain ⟨x, e, j⟩ := s
  dsimp only at h hstep ⊢
  cases hreport : x.report? with
  | some due =>
    obtain ⟨w, errors⟩ := due
    obtain ⟨block, rfl, hbatch, rfl, htold, hbehind⟩ := h.isTold_of_report? hreport
    obtain rfl := Option.some.inj ((Execution.step?_of_report? hreport e).symm.trans hstep)
    rw [Execution.passed_of_report? hreport]
    obtain ⟨told', current', hturn, hstands⟩ :=
      turn_report setup block hbehind hbatch htold ⟨x, e, j⟩
    exact ⟨block, told', current', rfl, hturn, hstands⟩
  | none =>
    cases h with
    | @opening w answer h =>
      cases answer with
      | error err => exact absurd hreport (by simp [Execution.report?])
      | ok =>
        obtain rfl := Option.some.inj hstep
        obtain ⟨block', hbatch, hnotes, hstands, hworks, htracker⟩ :=
          stands_proceed setup h .unasked e
        refine ⟨_, told, some block', rfl, ?_, hstands⟩
        exact .goesOn [] rfl hworks hbatch hnotes (by simp) htracker
    | @applying w call i ids applied h htrial hcalling =>
      rw [Execution.step?, hcalling] at hstep
      obtain ⟨⟨reply, world⟩, hpoll, rfl⟩ := Option.map_eq_some_iff.1 hstep
      rw [Execution.passed_answered hcalling hpoll]
      obtain ⟨block', hbatch, hnotes, hstands, hworks, htracker⟩ := stands_proceed setup h
        (htrial.answer hcalling reply)
        (({ e with world := world } : Engine σ).interveneAll w.command.id reply.interventions)
      refine ⟨_, told, some block', rfl, ?_, hstands⟩
      refine .goesOn reply.interventions rfl hworks hbatch ?_ ?_ ?_
      · rw [hnotes]
        simp [Block.notes, Block.answered, Block.scope, Application.notes]
      · exact fun i hi => ⟨ids, reply, by simp, hi⟩
      · refine htracker.trans ?_
        rw [interveneAll_world, h.command]
    | @committing w errors applied answer =>
      cases answer <;> exact absurd hreport (by simp [Execution.report?])
    | @rollingBack w cause applied answer h htrial =>
      cases cause with
      | configuration m =>
        obtain rfl := Option.some.inj hstep
        rw [Execution.passed_rolledBack]
        have hstops : applied.any (·.cannotRun) = true :=
          List.any_eq_true.2 (htrial.cannotRun_iff.2 ⟨m, rfl⟩)
        obtain ⟨told', current', hturn, hstands⟩ := turn_stops setup _ h rfl
          (Block.isLawful_rolledBack htrial answer) rfl hstops
          ⟨.rollingBack w (.configuration m), e, j⟩ m
        exact ⟨_, told', current', rfl, hturn, hstands⟩
      | _ => exact absurd hreport (by simp [Execution.report?])
    | _ => exact absurd hstep (by simp [Execution.step?])

/-- With a turn goes what has passed at it. -/
theorem Turn.journal {told' : List Block} {current' : Option Block}
    (h : Turn k b s told block told' current' t)
    (hs : s.journal = (told ++ [block]).flatMap (Block.notes k b)) :
    t.journal = (told' ++ current'.toList).flatMap (Block.notes k b) := by
  cases h with
  | goesOn is _ _ _ hnotes =>
    simp [hs, hnotes]
  | gone => exact hs
  | stops => exact hs
  | last => simpa using hs
  | interrupts => simpa using hs
  | next w answer world =>
    simp [hs, Block.notes, Block.scope]

/-! ## Runs -/

namespace Stint

variable {e : Engine σ} {moves : List (Move (Stint σ) (Event σ))}

/-- A bucket whose command is open, whose work was not done and whose action is registered is worked
on from its first batch on. -/
theorem tells_begun {p : Progress} {registered : RegisteredAction (Action σ)}
    (hfind : e.tracker.find? b.commandId = some p)
    (h : Execution.GoesOn p.command registered.action b e (batches b.ids p.command.batchSize)
      (Execution.start setup b e)) :
    ∃ current, Tells p.command b [] current (begun setup b e) := by
  have hid : p.command.id = b.commandId := Tracker.id_of_find? hfind
  have hstart : StandsBehind p.command b [] (batches b.ids p.command.batchSize) := ⟨rfl, by simp⟩
  have hcounts {counts : Nat × Nat}
      (hc : (Execution.start setup b e).1.counts? = some counts) : counts = (0, 0) :=
    Execution.counts?_start setup b e hc
  unfold begun
  rw [Execution.passedAtStart_eq]
  generalize hleft : batches b.ids p.command.batchSize = left at h hstart
  generalize Execution.start setup b e = r at h hcounts
  cases h with
  | gone err hgone =>
    rw [hid, hfind] at hgone
    exact absurd hgone (by simp)
  | complete processed errors _ =>
    obtain ⟨rfl, rfl⟩ := Prod.mk.inj (hcounts rfl)
    exact ⟨none, rfl, .processed hstart⟩
  | interrupt batch later processed errors _ =>
    obtain ⟨rfl, rfl⟩ := Prod.mk.inj (hcounts rfl)
    exact ⟨none, rfl, .interrupted hstart⟩
  | opens batch later processed errors answer world _ =>
    obtain ⟨rfl, rfl⟩ := Prod.mk.inj (hcounts rfl)
    have hbehind : (⟨p.command, registered.action, b, batch, later, 0, 0⟩ : Work σ).IsBehind
        p.command b [] := ⟨rfl, rfl, hstart, rfl, rfl⟩
    exact ⟨some ⟨batch, answer, [], none, none⟩, rfl, .opening hbehind⟩

/-- A bucket that is left alone stays so. -/
theorem isIdle_next? {event : Event σ} (h : s.IsIdle) (hnext : s.next? setup event = some t) :
    t.IsIdle := by
  cases event with
  | work =>
    obtain ⟨outcome, houtcome, -⟩ := h.finished
    rw [next?, houtcome] at hnext
    exact absurd hnext (by simp [Execution.step?])
  | meanwhile e =>
    obtain rfl := Option.some.inj hnext
    exact ⟨h.finished, h.journal⟩

theorem tells_next? {event : Event σ} (h : ∃ told current, Tells k b told current s)
    (hnext : s.next? setup event = some t) : ∃ told current, Tells k b told current t := by
  obtain ⟨told, current, hjournal, hstands⟩ := h
  cases event with
  | work =>
    obtain ⟨block, told', current', rfl, hturn, hstands'⟩ := turn_work hstands hnext
    exact ⟨told', current', hturn.journal hjournal, hstands'⟩
  | meanwhile e =>
    obtain rfl := Option.some.inj hnext
    exact ⟨told, current, hjournal, hstands⟩

/-- At any time a bucket is left alone, or what has passed is a block for each batch so far. -/
theorem stands_of_run (h : Run (next? setup) (begun setup b e) moves s) :
    s.IsIdle ∨ ∃ p, e.tracker.find? b.commandId = some p ∧
      ∃ told current, Tells p.command b told current s := by
  have hidle (hs : (begun setup b e).IsIdle) : s.IsIdle :=
    h.always hs fun _ _ _ hnext hs => isIdle_next? hs hnext
  have hbegins := Execution.begins_start setup b e
  generalize hr : Execution.start setup b e = r at hbegins
  cases hbegins with
  | @goesOn p registered r hfind _ _ _ hgoes =>
    rw [← hr] at hgoes
    obtain ⟨current, hstart⟩ := tells_begun hfind hgoes
    exact .inr ⟨p, hfind, h.always ⟨[], current, hstart⟩ fun _ _ _ hnext hs => tells_next? hs hnext⟩
  | _ =>
    refine .inl (hidle ⟨⟨_, by rw [begun, hr], rfl⟩, ?_⟩)
    show Execution.passedAtStart setup b e = []
    rw [Execution.passedAtStart_eq, hr]
    rfl

end Stint

/-! ## Answers given in advance -/

/-- An action that has its answers in advance. -/
def scripted : Action (List ActionReply) where
  validate _ := .ok ()
  call _ _ answers := (0, answers)
  takesPermit := false
  poll _ _ _ answers := answers.head?.map fun reply => (reply, answers.tail)

/-- A command for that action, in batches of two records. -/
def markAll : Command := ⟨⟨"mark", "all", none, none, none, 8, 2, none, false, []⟩, ⟨7⟩⟩

/-- Its collaborators. -/
def scriptedSetup (transactions : TransactionManager (List ActionReply)) :
    Setup (List ActionReply) where
  actions := ⟨[("mark", ⟨⟨"mark", none, none, none⟩, scripted⟩)]⟩
  scrollers := .empty
  transactions := transactions
  dispatcher := ⟨8, 2, 1, none⟩

/-- The command is running, and so many records were scrolled. -/
def running (count : Nat) : Progress :=
  { Progress.new markAll ⟨0, 0⟩ with state := .running, scrollCount := count, submitted := true }

/-- An engine for such progress of a command, and with these answers in advance. -/
def scriptedEngine (p : Progress) (answers : List ActionReply) : Engine (List ActionReply) :=
  ⟨⟨1, 0⟩, ⟨[p], .empty 8, 60⟩, .new 1 1, answers⟩

end BulkRun
