import BulkRun.Proofs.Execution.Effort
import BulkRun.Proofs.Execution.Record
/-!
# What executions return

An execution tells what became of its bucket, and the tracker tells what became of the command.
Main statement: when nobody else is at work on the tracker, and the action does no more than cancel
its own command, every outcome of a bucket is what the tracker has recorded, and an execution comes
to one unless its action does not answer (`Stint.returns_the_record`).
-/

namespace BulkRun

open Tracker (Heeds)

variable {σ : Type} {setup : Setup σ} {e : Engine σ} {p q : Progress} {b : Bucket}
  {told : List Block} {current : Option Block} {s t : Stint σ}

/-! ## Buckets that are left alone -/

/-- The outcome of a bucket that is left alone, by what is found of its command. -/
def skipped? (found : Option Progress) (sequence : Nat) : Option BucketOutcome :=
  match found with
  | none => some .skippedUnknown
  | some p =>
    if p.state.isTerminal then some .skippedTerminal
    else if p.isBucketDone sequence then some .skippedDuplicate
    else none

section Skipped

variable {found : Option Progress} {sequence : Nat}

theorem isSkipped_of_skipped? {outcome : BucketOutcome}
    (h : skipped? found sequence = some outcome) : outcome.isSkipped = true := by
  unfold skipped? at h
  grind [BucketOutcome.isSkipped]

theorem skipped?_eq_unknown : skipped? found sequence = some .skippedUnknown ↔ found = none := by
  unfold skipped?
  grind

theorem skipped?_eq_terminal : skipped? found sequence = some .skippedTerminal ↔
    ∃ p, found = some p ∧ p.state.isTerminal = true := by
  unfold skipped?
  grind

theorem skipped?_eq_duplicate : skipped? found sequence = some .skippedDuplicate ↔
    ∃ p, found = some p ∧ p.state.isTerminal = false ∧ p.isBucketDone sequence = true := by
  unfold skipped?
  grind

theorem skipped?_eq_none : skipped? found sequence = none ↔
    ∃ p, found = some p ∧ p.state.isTerminal = false ∧ p.isBucketDone sequence = false := by
  unfold skipped?
  grind

end Skipped

namespace Stint

variable {moves : List (Move (Stint σ) (Event σ))}

/-- Whether a bucket has come to its end as it did before. -/
structure StaysAs (s : Stint σ) (result : Except Error BucketOutcome) (t : Stint σ) : Prop where
  execution : t.execution = .finished result
  journal : t.journal = s.journal
  tracker : t.engine.tracker = s.engine.tracker

/-- A bucket that is at its end stays there. -/
theorem staysAs_of_run (hrun : Run (next? setup) s moves t) (hquiet : ∀ m ∈ moves, IsQuiet m)
    {result : Except Error BucketOutcome} (hend : s.execution = .finished result) :
    s.StaysAs result t := by
  refine hrun.invariant hquiet ⟨hend, rfl, rfl⟩ ?_
  intro u event v hnext hfair h
  cases event with
  | work =>
    rw [next?, h.execution] at hnext
    exact absurd hnext (by simp [Execution.step?])
  | meanwhile f =>
    obtain rfl := Option.some.inj hnext
    exact ⟨h.execution, h.journal, (hfair f rfl).trans h.tracker⟩

/-- The ways in which a bucket may go. -/
inductive Goes (setup : Setup σ) (b : Bucket) (e : Engine σ) (s : Stint σ) : Prop
  /-- It is left alone. -/
  | skips (outcome : BucketOutcome)
      (hskip : skipped? (e.tracker.find? b.commandId) b.sequence = some outcome)
      (hend : s.execution = .finished (.ok outcome)) (hjournal : s.journal = [])
      (htracker : s.engine.tracker = e.tracker)
  /-- The action is not registered. -/
  | unregistered (p : Progress) (err : Error)
      (hskip : skipped? (e.tracker.find? b.commandId) b.sequence = none)
      (hend : s.execution = .finished (.ok .commandAborted)) (hjournal : s.journal = [])
      (herr : setup.actions.resolve p.command.action = .error err)
      (hu : Heeds e.tracker e.now b.commandId (.abortWithError err.message) p s.engine.tracker)
  /-- It is worked on. -/
  | works (p : Progress) (registered : RegisteredAction (Action σ))
      (hskip : skipped? (e.tracker.find? b.commandId) b.sequence = none)
      (hfind : e.tracker.find? b.commandId = some p)
      (haction : setup.actions.resolve p.command.action = .ok registered)
      (h : s.IsRecorded p b)

theorem goes_of_run (hrun : Run (next? setup) (begun setup b e) moves s)
    (hquiet : ∀ m ∈ moves, IsQuiet m)
    (hadmits : ∀ p, e.tracker.find? b.commandId = some p → p.state.isTerminal = false →
      p.isBucketDone b.sequence = false → p.Admits b) : Goes setup b e s := by
  have hjournal : (begun setup b e).journal = (Execution.start setup b e).1.opens :=
    Execution.passedAtStart_eq b e
  have hskips {outcome : BucketOutcome}
      (hstart : Execution.start setup b e = (.finished (.ok outcome), e))
      (hskip : skipped? (e.tracker.find? b.commandId) b.sequence = some outcome) :
      Goes setup b e s := by
    rw [hstart] at hjournal
    have hend : (begun setup b e).execution = .finished (.ok outcome) := congrArg Prod.fst hstart
    have htracker : (begun setup b e).engine = e := congrArg Prod.snd hstart
    have hstays := staysAs_of_run hrun hquiet hend
    exact .skips outcome hskip hstays.execution (hstays.journal.trans hjournal)
      (hstays.tracker.trans (congrArg Engine.tracker htracker))
  have hbegins := Execution.begins_start setup b e
  generalize hr : Execution.start setup b e = r at hbegins
  cases hbegins with
  | unknown hgone => exact hskips hr (skipped?_eq_unknown.2 hgone)
  | terminal hfind hended => exact hskips hr (skipped?_eq_terminal.2 ⟨_, hfind, hended⟩)
  | duplicate hfind hopen hdone =>
    exact hskips hr (skipped?_eq_duplicate.2 ⟨_, hfind, hopen, hdone⟩)
  | @abort p t err herr ht =>
    have hopen : p.state.isTerminal = false := by
      by_contra hended
      rw [Execution.start, ht.before] at hr
      simp [hended] at hr
    have hfresh : p.isBucketDone b.sequence = false := by
      by_contra hdone
      rw [Execution.start, ht.before] at hr
      simp [hopen, hdone] at hr
    rw [hr] at hjournal
    have hend : (begun setup b e).execution = .finished (.ok .commandAborted) :=
      congrArg Prod.fst hr
    have htracker : (begun setup b e).engine.tracker = t :=
      congrArg (fun r => r.2.tracker) hr
    have hstays := staysAs_of_run hrun hquiet hend
    rw [← htracker, ← hstays.tracker] at ht
    exact .unregistered p err (skipped?_eq_none.2 ⟨p, ht.before, hopen, hfresh⟩) hstays.execution
      (hstays.journal.trans hjournal) herr ht
  | @goesOn p registered r hfind hopen hfresh haction hgoes =>
    have hp := hadmits p hfind hopen hfresh
    rw [← hr] at hgoes
    refine .works p registered (skipped?_eq_none.2 ⟨p, hfind, hopen, hfresh⟩) hfind haction ?_
    exact hrun.invariant hquiet (isRecorded_begun hp hfind hgoes)
      fun _ _ _ hnext hfair h => isRecorded_next? hp h hnext hfair

theorem Goes.execution_eq_iff (h : Goes setup b e s) {outcome : BucketOutcome}
    (ho : outcome.isSkipped = true) :
    s.execution = .finished (.ok outcome) ↔
      skipped? (e.tracker.find? b.commandId) b.sequence = some outcome := by
  cases h with
  | skips other hskip hend =>
    rw [hend, hskip]
    simp
  | unregistered p err hskip hend =>
    rw [hend, hskip]
    refine iff_of_false ?_ (by simp)
    intro heq
    rw [← Except.ok.inj (Execution.finished.inj heq)] at ho
    exact absurd ho (by decide)
  | works p registered hskip _ _ h =>
    rw [hskip]
    refine iff_of_false ?_ (by simp)
    intro hend
    rcases h with ⟨told, current, htells, -⟩
    have hstands := htells.stands
    rw [hend] at hstands
    cases hstands <;> exact absurd ho (by simp [BucketOutcome.isSkipped])

end Stint

/-! ## Actions that cannot run -/

/-- At the end of a bucket its command was aborted exactly when some answer said that the action
cannot run. -/
theorem Tells.commandAborted_iff {k : Command} (h : Tells k b told current s)
    {result : Except Error BucketOutcome} (hend : s.execution = .finished result)
    (hok : ∀ err, s.execution ≠ .finished (.error err)) :
    s.execution = .finished (.ok .commandAborted) ↔
      ∃ ids reply m, .answered ids reply ∈ s.journal ∧ reply.result = .error (.configuration m) := by
  have hstands := h.stands
  rw [h.journal]
  constructor
  · intro haborted
    rw [haborted] at hstands
    cases hstands with
    | @stopped block later _ _ _ hstops =>
      rcases List.any_eq_true.1 hstops with ⟨a, ha, hcannot⟩
      rcases a.cannotRun_iff.1 hcannot with ⟨m, hm⟩
      refine ⟨a.ids, a.reply, m, ?_, hm⟩
      exact List.mem_flatMap.2 ⟨block, by simp, Block.answered_mem_notes.2 ha⟩
  · rintro ⟨ids, reply, m, hmem, hm⟩
    rcases List.mem_flatMap.1 hmem with ⟨block, hblock, hnote⟩
    have hstops : block.stopsBucket = true :=
      List.any_eq_true.2 ⟨_, Block.answered_mem_notes.1 hnote, (Application.cannotRun_iff _).2 ⟨m, hm⟩⟩
    rcases List.mem_append.1 hblock with htold | hcurrent
    · -- none of the blocks that were told of stops its bucket
      rcases hstands.standsBehind with ⟨left, hbehind⟩
      rw [(hbehind.told block htold).runs] at hstops
      exact absurd hstops (by simp)
    · obtain rfl := Option.mem_toList.1 hcurrent
      rw [hend] at hstands hok ⊢
      cases hstands with
      | stopped => rfl
      | gone => exact absurd rfl (hok _)

/-! ## Main statement -/

namespace Stint

/-- What the tracker shows of the command of a bucket, before it was worked on and after some
blocks. -/
structure Sums (b : Bucket) (e : Engine σ) (s : Stint σ) (p q : Progress) (told : List Block)
    (current : Option Block) : Prop where
  before : e.tracker.find? b.commandId = some p
  after : s.engine.tracker.find? b.commandId = some q
  journal : s.journal = (told ++ current.toList).flatMap (Block.notes p.command b)
  counted : p.Counted q (worked told) (failed told)

/-- Whether what became of a bucket is what the tracker has recorded. -/
structure Accounts (setup : Setup σ) (b : Bucket) (e : Engine σ) (s : Stint σ) : Prop where
  unknown : s.execution = .finished (.ok .skippedUnknown) ↔ e.tracker.find? b.commandId = none
  terminal : s.execution = .finished (.ok .skippedTerminal) ↔
    ∃ p, e.tracker.find? b.commandId = some p ∧ p.state.isTerminal = true
  duplicate : s.execution = .finished (.ok .skippedDuplicate) ↔
    ∃ p, e.tracker.find? b.commandId = some p ∧ p.state.isTerminal = false ∧
      p.isBucketDone b.sequence = true
  skipped : ∀ outcome, s.execution = .finished (.ok outcome) → outcome.isSkipped = true →
    s.engine.tracker = e.tracker ∧ s.journal = []
  processed : ∀ n m, s.execution = .finished (.ok (.processed n m)) →
    ∃ p q told, s.Sums b e p q told none ∧ n = worked told ∧ m = failed told ∧
      n = b.ids.length ∧ q.completedBuckets = b.sequence :: p.completedBuckets
  interrupted : ∀ n m, s.execution = .finished (.ok (.interrupted n m)) →
    ∃ p q told, s.Sums b e p q told none ∧ n = worked told ∧ m = failed told ∧
      n < b.ids.length ∧ q.state = .aborted ∧ q.completedBuckets = p.completedBuckets ∧
      q.isBucketDone b.sequence = false
  /-- The command is aborted exactly when the bucket is not left alone and the action is not
  registered or cannot run. -/
  aborted : (∃ result, s.execution = .finished result) →
    (s.execution = .finished (.ok .commandAborted) ↔
      ∃ p, e.tracker.find? b.commandId = some p ∧ p.state.isTerminal = false ∧
        p.isBucketDone b.sequence = false ∧
        ((∃ err, setup.actions.resolve p.command.action = .error err) ∨
          ∃ ids reply m, .answered ids reply ∈ s.journal ∧
            reply.result = .error (.configuration m)))
  commandAborted : s.execution = .finished (.ok .commandAborted) →
    ∃ p q told current, s.Sums b e p q told current ∧ q.state = .aborted ∧
      q.completedBuckets = p.completedBuckets ∧ q.isBucketDone b.sequence = false
  succeeds : ∀ err, s.execution ≠ .finished (.error err)

/-- Whether the action has been called and does not answer. -/
def Awaits (s : Stint σ) : Prop :=
  ∃ w call i ids, s.execution = .applying w call i ∧ i.calling? = some ids ∧
    w.action.poll (.of w.command) ids call s.engine.world = none

theorem isBucketDone_of_eq {sequence : Nat} (h : q.completedBuckets = p.completedBuckets)
    (hfresh : p.isBucketDone sequence = false) : q.isBucketDone sequence = false := by
  rw [Progress.isBucketDone, h]
  exact hfresh

/-- The account of a bucket that was left alone. -/
theorem accounts_of_skipped {outcome : BucketOutcome} (h : Goes setup b e s)
    (hskip : skipped? (e.tracker.find? b.commandId) b.sequence = some outcome)
    (hend : s.execution = .finished (.ok outcome)) (hjournal : s.journal = [])
    (htracker : s.engine.tracker = e.tracker) : s.Accounts setup b e := by
  have hnot {other : BucketOutcome} (hother : other.isSkipped = false) :
      s.execution ≠ .finished (.ok other) := by
    intro heq
    rw [hend] at heq
    rw [← Except.ok.inj (Execution.finished.inj heq), isSkipped_of_skipped? hskip] at hother
    exact absurd hother (by simp)
  refine ⟨(h.execution_eq_iff rfl).trans skipped?_eq_unknown,
    (h.execution_eq_iff rfl).trans skipped?_eq_terminal,
    (h.execution_eq_iff rfl).trans skipped?_eq_duplicate, ?_, ?_, ?_, ?_, ?_, ?_⟩
  · exact fun _ _ _ => ⟨htracker, hjournal⟩
  · exact fun n m heq => absurd heq (hnot rfl)
  · exact fun n m heq => absurd heq (hnot rfl)
  · intro _
    refine iff_of_false (hnot rfl) ?_
    rintro ⟨p, hp, hopen, hfresh, -⟩
    rw [skipped?_eq_none.2 ⟨p, hp, hopen, hfresh⟩] at hskip
    exact absurd hskip (by simp)
  · exact fun heq => absurd heq (hnot rfl)
  · intro err heq
    rw [hend] at heq
    exact absurd heq (by simp)

/-- The account of a bucket of which the action is not registered. -/
theorem accounts_of_unregistered {err : Error} (h : Goes setup b e s) (hadmits : p.Admits b)
    (hend : s.execution = .finished (.ok .commandAborted)) (hjournal : s.journal = [])
    (herr : setup.actions.resolve p.command.action = .error err)
    (hu : Heeds e.tracker e.now b.commandId (.abortWithError err.message) p s.engine.tracker) :
    s.Accounts setup b e := by
  have hnot {other : BucketOutcome} (hother : other ≠ .commandAborted) :
      s.execution ≠ .finished (.ok other) := by
    rw [hend]
    intro heq
    exact hother (Except.ok.inj (Execution.finished.inj heq)).symm
  refine ⟨(h.execution_eq_iff rfl).trans skipped?_eq_unknown,
    (h.execution_eq_iff rfl).trans skipped?_eq_terminal,
    (h.execution_eq_iff rfl).trans skipped?_eq_duplicate, ?_, ?_, ?_, ?_, ?_, ?_⟩
  · intro outcome heq hskipped
    refine absurd heq (hnot ?_)
    rintro rfl
    exact absurd hskipped (by decide)
  · exact fun n m heq => absurd heq (hnot (by simp))
  · exact fun n m heq => absurd heq (hnot (by simp))
  · intro _
    exact iff_of_true hend ⟨p, hu.before, hadmits.goesOn, hadmits.fresh, .inl ⟨err, herr⟩⟩
  · intro _
    have hunder : p.Underway p (worked []) (failed []) := .refl hadmits.errorCount
    rcases hunder.abort hadmits.goesOn (r := .abortWithError err.message) rfl e.now with
      ⟨hunder', haborted⟩
    exact ⟨p, _, [], none, ⟨hu.before, hu.find?_self, hjournal, hunder'.toCounted⟩, haborted,
      hunder'.completedBuckets, isBucketDone_of_eq hunder'.completedBuckets hadmits.fresh⟩
  · intro err' heq
    rw [hend] at heq
    exact absurd heq (by simp)

/-- The account of a bucket that was worked on. -/
theorem accounts_of_isRecorded {registered : RegisteredAction (Action σ)} (h : Goes setup b e s)
    (hskip : skipped? (e.tracker.find? b.commandId) b.sequence = none)
    (hfind : e.tracker.find? b.commandId = some p) (hadmits : p.Admits b)
    (haction : setup.actions.resolve p.command.action = .ok registered)
    (hrecorded : s.IsRecorded p b) (hminds : s.journal.Minds) : s.Accounts setup b e := by
  rcases hrecorded with ⟨told, current, htells, hrecords⟩
  rcases hrecords hminds with ⟨q, hq, hshows⟩
  have hstands := htells.stands
  have hok : ∀ err, s.execution ≠ .finished (.error err) := by
    intro err heq
    rw [heq] at hshows
    cases hshows with
    | working hworks => exact absurd hworks (by simp [Execution.result?])
  have hsums : s.Sums b e p q told current := ⟨hfind, hq, htells.journal, hshows.counted⟩
  refine ⟨(h.execution_eq_iff rfl).trans skipped?_eq_unknown,
    (h.execution_eq_iff rfl).trans skipped?_eq_terminal,
    (h.execution_eq_iff rfl).trans skipped?_eq_duplicate, ?_, ?_, ?_, ?_, ?_, hok⟩
  · intro outcome heq hskipped
    rw [h.execution_eq_iff hskipped, hskip] at heq
    exact absurd heq (by simp)
  · intro n m heq
    rw [heq] at hstands hshows
    cases hstands with
    | processed hbehind =>
      cases hshows with
      | working hworks => exact absurd hworks (by simp [Execution.result?])
      | processed _ hdone => exact ⟨p, q, told, hsums, rfl, rfl, hbehind.worked_add, hdone⟩
  · intro n m heq
    rw [heq] at hstands hshows
    cases hstands with
    | interrupted hbehind =>
      cases hshows with
      | working hworks => exact absurd hworks (by simp [Execution.result?])
      | interrupted hunder haborted =>
        exact ⟨p, q, told, hsums, rfl, rfl, hbehind.worked_lt, haborted, hunder.completedBuckets,
          isBucketDone_of_eq hunder.completedBuckets hadmits.fresh⟩
  · rintro ⟨result, hend⟩
    rw [htells.commandAborted_iff hend hok]
    constructor
    · intro hcannot
      exact ⟨p, hfind, hadmits.goesOn, hadmits.fresh, .inr hcannot⟩
    · rintro ⟨p', hp', -, -, ⟨err, herr⟩ | hcannot⟩
      · obtain rfl := Option.some.inj (hfind.symm.trans hp')
        rw [haction] at herr
        exact absurd herr (by simp)
      · exact hcannot
  · intro heq
    rw [heq] at hshows
    cases hshows with
    | working hworks => exact absurd hworks (by simp [Execution.result?])
    | commandAborted hunder haborted =>
      exact ⟨p, q, told, current, hsums, haborted, hunder.completedBuckets,
        isBucketDone_of_eq hunder.completedBuckets hadmits.fresh⟩

/-- Working on a bucket with nothing happening in between is a run, too. -/
theorem exists_moves_of_run (setup : Setup σ) (fuel : Nat) (s : Stint σ) :
    ∃ n moves t, movesOf? (next? setup) s (List.replicate n .work) = some (moves, t) ∧
      (t.execution, t.engine) = s.execution.run setup fuel s.engine := by
  induction fuel generalizing s with
  | zero => exact ⟨0, [], s, rfl, rfl⟩
  | succ fuel ih =>
    rw [Execution.run]
    cases hstep : s.execution.step? setup s.engine with
    | none => exact ⟨0, [], s, rfl, rfl⟩
    | some r =>
      have hnext : s.next? setup .work =
          some ⟨r.1, r.2, s.journal ++ s.execution.passed setup s.engine⟩ := by
        rw [next?, hstep]
        rfl
      generalize hu : (⟨r.1, r.2, s.journal ++ s.execution.passed setup s.engine⟩ : Stint σ) = u
        at hnext
      rcases ih u with ⟨n, moves, t, hmoves, hrest⟩
      refine ⟨n + 1, ⟨s, .work, u⟩ :: moves, t, ?_, ?_⟩
      · rw [List.replicate_succ, movesOf?, hnext, Option.bind_some, hmoves]
        rfl
      · rw [hrest, ← hu]

theorem isQuiet_of_work {n : Nat} {moves : List (Move (Stint σ) (Event σ))}
    (h : movesOf? (next? setup) s (List.replicate n .work) = some (moves, t)) :
    ∀ m ∈ moves, IsQuiet m := by
  intro m hm f hevent
  have hwork : m.event ∈ List.replicate n .work := by
    rw [← events_of_movesOf? h]
    exact List.mem_map.2 ⟨m, hm, rfl⟩
  rw [List.eq_of_mem_replicate hwork] at hevent
  exact absurd hevent (by simp)

theorem awaits_of_rests (h : s.execution.step? setup s.engine = none) :
    (∃ result, s.execution = .finished result) ∨ s.Awaits := by
  unfold Awaits
  generalize s.execution = x at h
  cases x with
  | finished result => exact .inl ⟨result, rfl⟩
  | opening w answer => cases answer <;> exact absurd h (by simp [Execution.step?])
  | committing w errors answer => cases answer <;> exact absurd h (by simp [Execution.step?])
  | rollingBack w cause => exact absurd h (by simp [Execution.step?])
  | applying w call i =>
    rw [Execution.step?] at h
    cases hcalling : i.calling? with
    | none =>
      rw [hcalling] at h
      exact absurd h (by simp)
    | some ids =>
      rw [hcalling] at h
      exact .inr ⟨w, call, i, ids, rfl, hcalling, Option.map_eq_none_iff.1 h⟩

variable {moves : List (Move (Stint σ) (Event σ))}

/-- What an execution returns is what the tracker has recorded.  Let the records of a bucket be among
those that were scrolled and not worked on yet, if it is to be worked on.  Then every run in which
others leave the tracker alone, and the action does no more than cancel its command, accounts for
the bucket; and working on it without interruption is such a run, which comes to an end unless the
action does not answer. -/
theorem returns_the_record (setup : Setup σ) (b : Bucket) (e : Engine σ)
    (hroom : ∀ p, e.tracker.find? b.commandId = some p → p.state.isTerminal = false →
      p.processed + b.ids.length ≤ p.scrollCount)
    (hwords : ∀ p, e.tracker.find? b.commandId = some p →
      p.scrollCount < wordCount ∧ p.errorCount < wordCount) :
    (∀ moves s, Run (next? setup) (begun setup b e) moves s → (∀ m ∈ moves, IsQuiet m) →
      s.journal.Minds → s.Accounts setup b e) ∧
    ∃ moves s, Run (next? setup) (begun setup b e) moves s ∧ (∀ m ∈ moves, IsQuiet m) ∧
      (s.execution, s.engine) = Execution.execute setup b e ∧
      ((∃ result, s.execution = .finished result) ∨ s.Awaits) := by
  have hadmits : ∀ p, e.tracker.find? b.commandId = some p → p.state.isTerminal = false →
      p.isBucketDone b.sequence = false → p.Admits b := by
    intro p hp hopen hfresh
    exact ⟨Tracker.id_of_find? hp, hopen, hfresh, hroom p hp hopen, (hwords p hp).1, (hwords p hp).2⟩
  constructor
  · intro moves s hrun hquiet hminds
    have hgoes := goes_of_run hrun hquiet hadmits
    cases id hgoes with
    | skips outcome hskip hend hjournal htracker =>
      exact accounts_of_skipped hgoes hskip hend hjournal htracker
    | unregistered p err hskip hend hjournal herr hu =>
      rcases skipped?_eq_none.1 hskip with ⟨p', hp', hopen, hfresh⟩
      obtain rfl := Option.some.inj (hp'.symm.trans hu.before)
      exact accounts_of_unregistered hgoes (hadmits _ hp' hopen hfresh) hend hjournal herr hu
    | works p registered hskip hfind haction hrecorded =>
      rcases skipped?_eq_none.1 hskip with ⟨p', hp', hopen, hfresh⟩
      obtain rfl := Option.some.inj (hp'.symm.trans hfind)
      exact accounts_of_isRecorded hgoes hskip hfind (hadmits _ hp' hopen hfresh) haction hrecorded
        hminds
  · rcases exists_moves_of_run setup (3 * b.ids.length + 1) (begun setup b e) with
      ⟨n, moves, s, hmoves, hexecute⟩
    have hrests := Execution.execute_rests setup b e
    rw [show Execution.execute setup b e = (s.execution, s.engine) from hexecute.symm] at hrests
    exact ⟨moves, s, .of_movesOf? hmoves, isQuiet_of_work hmoves, hexecute, awaits_of_rests hrests⟩

/-- The action takes `a`, stops on `b`, and cancels its command when it is called for `c`. -/
def cancelling : List ActionReply :=
  [⟨[], .error (.recordFailed "b" "locked")⟩, ⟨[.abort], .ok [⟨"c", none⟩]⟩]

/-- The command is cancelled during the first of two batches, which is recorded all the same, and
the other one is left. -/
theorem returns_the_record_cancelled :
    ∃ moves s, Run (next? (scriptedSetup .none))
        (begun (scriptedSetup .none) ⟨⟨7⟩, 0, ["a", "b", "c", "d", "e"]⟩
          (scriptedEngine { running 5 with command := { markAll with batchSize := 3 } } cancelling))
        moves s ∧
      s.execution = .finished (.ok (.interrupted 3 1)) ∧
      ∃ q, s.engine.tracker.find? ⟨7⟩ = some q ∧ q.processed = 3 ∧ q.errorCount = 1 ∧
        q.state = .aborted ∧ q.isBucketDone 0 = false := by
  have hcheck : (movesOf? (next? (scriptedSetup .none))
      (begun (scriptedSetup .none) ⟨⟨7⟩, 0, ["a", "b", "c", "d", "e"]⟩
        (scriptedEngine { running 5 with command := { markAll with batchSize := 3 } } cancelling))
      (List.replicate 4 .work)).any (fun r =>
        decide (r.2.execution.outcome? = some (.interrupted 3 1)) &&
          r.2.journal.all (·.minds)) = true := by
    decide +kernel
  rcases (Option.any_eq_true _ _).1 hcheck with ⟨⟨moves, s⟩, hmoves, hs⟩
  rw [Bool.and_eq_true, decide_eq_true_eq, List.all_eq_true] at hs
  have hrun := Run.of_movesOf? hmoves
  have hend := Execution.eq_of_outcome? hs.1
  have haccounts := (returns_the_record (scriptedSetup .none) ⟨⟨7⟩, 0, ["a", "b", "c", "d", "e"]⟩
    (scriptedEngine { running 5 with command := { markAll with batchSize := 3 } } cancelling)
    (fun p hp _ => by obtain rfl := Option.some.inj hp; decide)
    (fun p hp => by obtain rfl := Option.some.inj hp; decide)).1 moves s hrun
    (isQuiet_of_work hmoves) hs.2
  rcases haccounts.interrupted 3 1 hend with
    ⟨p, q, told, hsums, hworked, hfailed, -, haborted, -, hleft⟩
  obtain rfl := Option.some.inj hsums.before
  have hcounted := hsums.counted
  rw [← hworked, ← hfailed] at hcounted
  exact ⟨moves, s, hrun, hend, q, hsums.after, hcounted.processed, hcounted.errorCount, haborted,
    hleft⟩

/-- A record fails when as many failures are counted as a counter can hold: the counter starts
again from zero. -/
theorem failures_wrap_around :
    ∃ moves s q, Run (next? (scriptedSetup .none))
        (begun (scriptedSetup .none) ⟨⟨7⟩, 0, ["a"]⟩
          (scriptedEngine { running 1 with errorCount := wordMax }
            [⟨[], .ok [⟨"a", some "locked"⟩]⟩]))
        moves s ∧
      (∀ m ∈ moves, IsQuiet m) ∧ s.journal.Minds ∧
      s.execution = .finished (.ok (.processed 1 1)) ∧
      s.engine.tracker.find? ⟨7⟩ = some q ∧ q.errorCount = 0 ∧ q.errorCount ≠ wordMax + 1 := by
  have hcheck : (movesOf? (next? (scriptedSetup .none))
      (begun (scriptedSetup .none) ⟨⟨7⟩, 0, ["a"]⟩
        (scriptedEngine { running 1 with errorCount := wordMax }
          [⟨[], .ok [⟨"a", some "locked"⟩]⟩]))
      (List.replicate 3 .work)).any (fun r =>
        decide (r.2.execution.outcome? = some (.processed 1 1)) && r.2.journal.all (·.minds) &&
          (r.2.engine.tracker.find? ⟨7⟩).any fun q => decide (q.errorCount = 0)) = true := by
    decide +kernel
  rcases (Option.any_eq_true _ _).1 hcheck with ⟨⟨moves, s⟩, hmoves, hs⟩
  rw [Bool.and_eq_true, Bool.and_eq_true, decide_eq_true_eq, List.all_eq_true] at hs
  rcases hs with ⟨⟨hend, hminds⟩, hfound⟩
  rcases (Option.any_eq_true _ _).1 hfound with ⟨q, hq, hzero⟩
  rw [decide_eq_true_eq] at hzero
  refine ⟨moves, s, q, .of_movesOf? hmoves, isQuiet_of_work hmoves, hminds,
    Execution.eq_of_outcome? hend, hq, hzero, ?_⟩
  rw [hzero]
  decide

end Stint

end BulkRun
