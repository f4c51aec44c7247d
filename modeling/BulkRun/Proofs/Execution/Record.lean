import BulkRun.Proofs.Execution.Discipline
import BulkRun.Proofs.Status.Underway
/-!
# Blocks on record

While a bucket is worked on, the tracker is told of its blocks.  As long as nobody else is at work on
the tracker, and the action does no more than cancel its own command, the counters of the command are
those from before raised by the blocks that were told of.  Main statement: every step keeps that so
(`Stint.isRecorded_next?`), whatever it does.
-/

namespace BulkRun

open Tracker (Heeds)

variable {σ : Type}

/-- Whether an answer of the action does nothing to the tracker but cancel its command. -/
def Note.minds : Note → Bool
  | .answered _ reply => reply.interventions.all fun i => i == .abort
  | _ => true

/-- Whether all answers of the action so far do no more. -/
def Journal.Minds (j : Journal) : Prop := ∀ note ∈ j, note.minds = true

/-- Whether others leave the tracker alone. -/
def Stint.IsQuiet (m : Move (Stint σ) (Stint.Event σ)) : Prop :=
  ∀ e, m.event = .meanwhile e → e.tracker = m.before.engine.tracker

/-- Whether a bucket is to be worked on, and all its records are among those that were scrolled and
not worked on yet. -/
structure Progress.Admits (p : Progress) (b : Bucket) : Prop where
  id : p.command.id = b.commandId
  goesOn : p.state.isTerminal = false
  fresh : p.isBucketDone b.sequence = false
  room : p.processed + b.ids.length ≤ p.scrollCount
  scrollCount : p.scrollCount < wordCount
  errorCount : p.errorCount < wordCount

/-- What the tracker shows of a command, of which one bucket is worked on behind some blocks. -/
inductive Shows (p q : Progress) (b : Bucket) (told : List Block) : Execution σ → Prop
  | working {x : Execution σ} (hworks : x.result? = none)
      (h : p.Underway q (worked told) (failed told)) : Shows p q b told x
  | processed (h : p.Counted q (worked told) (failed told))
      (hdone : q.completedBuckets = b.sequence :: p.completedBuckets) :
      Shows p q b told (.finished (.ok (.processed (worked told) (failed told))))
  | interrupted (h : p.Underway q (worked told) (failed told)) (haborted : q.state = .aborted) :
      Shows p q b told (.finished (.ok (.interrupted (worked told) (failed told))))
  | commandAborted (h : p.Underway q (worked told) (failed told)) (haborted : q.state = .aborted) :
      Shows p q b told (.finished (.ok .commandAborted))

/-- Whether the tracker shows what it should behind some blocks. -/
def Stint.Records (p : Progress) (b : Bucket) (told : List Block) (s : Stint σ) : Prop :=
  ∃ q, s.engine.tracker.find? b.commandId = some q ∧ Shows p q b told s.execution

/-- Whether what has passed so far was recorded. -/
def Stint.IsRecorded (p : Progress) (b : Bucket) (s : Stint σ) : Prop :=
  ∃ told current, Tells p.command b told current s ∧ (s.journal.Minds → s.Records p b told)

variable {setup : Setup σ} {e : Engine σ} {p q : Progress} {b : Bucket} {told : List Block}
  {block : Block} {s t : Stint σ}

/-! ## Batches are recorded -/

theorem Shows.counted {x : Execution σ} (h : Shows p q b told x) :
    p.Counted q (worked told) (failed told) := by
  cases h with
  | working _ h => exact h.toCounted
  | processed h => exact h
  | interrupted h => exact h.toCounted
  | commandAborted h => exact h.toCounted

/-- The records worked on and those that are left are the records of the bucket. -/
theorem StandsBehind.worked_add {k : Command} {left : List Batch} (h : StandsBehind k b told left) :
    worked told + (left.map (·.ids.length)).sum = b.ids.length := by
  rw [← length_batches b.ids k.batchSize, h.batches, List.map_append, List.map_map,
    List.sum_append]
  rfl

theorem StandsBehind.worked_lt {k : Command} {batch : Batch} {later : List Batch}
    (h : StandsBehind k b told (batch :: later)) : worked told < b.ids.length := by
  have hadd := h.worked_add
  have hmem : batch ∈ BulkRun.batches b.ids k.batchSize := by
    rw [h.batches]
    exact List.mem_append_right _ List.mem_cons_self
  have hpos := List.length_pos_iff.2 (ids_ne_nil_of_mem_batches hmem)
  rw [List.map_cons, List.sum_cons] at hadd
  omega

/-- An action that cancels its command leaves the counters as they are. -/
theorem underway_interveneAll {n m : Nat} (hopen : p.state.isTerminal = false) {id : CommandId}
    {is : List Intervention} (his : ∀ i ∈ is, i = .abort) (hq : e.tracker.find? id = some q)
    (h : p.Underway q n m) :
    ∃ q', (e.interveneAll id is).tracker.find? id = some q' ∧ p.Underway q' n m := by
  induction is generalizing e q with
  | nil => exact ⟨q, hq, h⟩
  | cons i is ih =>
    have hrest : ∀ i ∈ is, i = .abort := fun i hi => his i (List.mem_cons_of_mem _ hi)
    obtain rfl := his i List.mem_cons_self
    show ∃ q', ((e.intervene id .abort).interveneAll id is).tracker.find? id = some q' ∧ _
    rcases Tracker.abort_cases e.tracker e.now id with ⟨hgone, -⟩ | ⟨p', u, new, hu, habort⟩
    · rw [hq] at hgone
      exact absurd hgone (by simp)
    · rw [Engine.intervene, habort]
      obtain rfl := Option.some.inj (hq.symm.trans hu.before)
      exact ih hrest hu.find?_self (h.abort hopen rfl e.now).1

/-- What a turn tells the tracker is recorded. -/
theorem Turn.records {told' : List Block} {current' : Option Block}
    (hturn : Turn p.command b s told block told' current' t) (hadmits : p.Admits b)
    (hstands : Stands p.command b told' current' t.execution) (hminds : t.journal.Minds)
    (hq : s.engine.tracker.find? b.commandId = some q)
    (h : p.Underway q (worked told) (failed told)) : t.Records p b told' := by
  have hsame {p' : Progress} (hp' : s.engine.tracker.find? p.command.id = some p') : p' = q := by
    rw [hadmits.id, hq] at hp'
    exact (Option.some.inj hp').symm
  have hroom := hadmits.room
  -- with batches left, the report of this one ends nothing
  have hleft {left : List Batch} {batch : Batch}
      (hb : StandsBehind p.command b (told ++ [block]) (batch :: left)) :
      p.Underway (q.heed s.engine.now (.recordBatch block.batch.ids.length block.errors))
        (worked (told ++ [block])) (failed (told ++ [block])) := by
    have hlt := hb.worked_lt
    rw [worked_concat] at hlt ⊢
    rw [failed_concat]
    exact h.recordBatch (by omega) hadmits.scrollCount s.engine.now block.errors
  cases hturn with
  | goesOn is _ hworks _ _ his hf =>
    have haborts : ∀ i ∈ is, i = .abort := by
      intro i hi
      rcases his i hi with ⟨ids, reply, hmem, hi⟩
      have hanswer := hminds _ (List.mem_append_right _ hmem)
      exact eq_of_beq (List.all_eq_true.1 hanswer i hi)
    rw [← hadmits.id] at hq
    rcases underway_interveneAll hadmits.goesOn haborts hq h with ⟨q', hq', hunder⟩
    rw [← hf, hadmits.id] at hq'
    exact ⟨q', hq', .working hworks hunder⟩
  | gone err _ hgone =>
    rw [hadmits.id, hq] at hgone
    exact absurd hgone (by simp)
  | stops message _ _ hu =>
    obtain rfl := hsame hu.before
    rw [hadmits.id] at hu
    rcases h.abort hadmits.goesOn (r := .abortWithError message) rfl s.engine.now with
      ⟨hunder, haborted⟩
    exact ⟨_, hu.find?_self, .commandAborted hunder haborted⟩
  | last htold hu hv =>
    obtain rfl := hsame hu.before
    obtain rfl := Option.some.inj (hu.find?_self.symm.trans hv.before)
    rw [hadmits.id] at hv
    cases hstands with
    | processed hbehind =>
      have hadd := hbehind.worked_add
      rw [worked_concat, List.map_nil, List.sum_nil] at hadd
      have hfits : p.processed + (worked told + block.batch.ids.length) ≤ p.scrollCount := by
        omega
      have hcounted := h.toCounted.recordBatch hfits hadmits.scrollCount s.engine.now block.errors
      rw [← worked_concat, ← failed_concat] at hcounted
      refine ⟨_, hv.find?_self, .processed (hcounted.completeBucket s.engine.now b.sequence) ?_⟩
      refine Progress.completedBuckets_completeBucket ?_ hadmits.fresh s.engine.now
      rw [Progress.completedBuckets_recordBatch, h.completedBuckets]
  | interrupts htold hu haborted =>
    obtain rfl := hsame hu.before
    rcases Tracker.isAborted_iff.1 haborted with ⟨q', hq', hstate⟩
    obtain rfl := Option.some.inj (hu.find?_self.symm.trans hq')
    rw [hadmits.id] at hu
    cases hstands with
    | interrupted hbehind => exact ⟨_, hu.find?_self, .interrupted (hleft hbehind) hstate⟩
  | next w answer world htold hu hgoes =>
    obtain rfl := hsame hu.before
    rw [hadmits.id] at hu
    rcases hstands.standsBehind with ⟨left, hbehind⟩
    exact ⟨_, hu.find?_self, .working rfl (hleft hbehind)⟩

/-! ## Runs -/

namespace Stint

/-- Only an execution that is at work takes steps. -/
theorem underway_of_work (h : Shows p q b told s.execution) (hwork : s.next? setup .work = some t) :
    p.Underway q (worked told) (failed told) := by
  rw [next?] at hwork
  generalize s.execution = x at h hwork
  cases h with
  | working _ h => exact h
  | _ => exact absurd hwork (by simp [Execution.step?])

/-- Every step is recorded. -/
theorem isRecorded_next? {event : Event σ} (hadmits : p.Admits b) (h : s.IsRecorded p b)
    (hnext : s.next? setup event = some t) (hquiet : IsQuiet ⟨s, event, t⟩) : t.IsRecorded p b := by
  rcases h with ⟨told, current, htells, hrecords⟩
  cases event with
  | work =>
    rcases turn_work htells.stands hnext with ⟨block, told', current', rfl, hturn, hstands⟩
    refine ⟨told', current', ⟨hturn.journal htells.journal, hstands⟩, ?_⟩
    intro hminds
    have hbefore : s.journal.Minds := by
      intro note hmem
      apply hminds
      obtain ⟨r, -, rfl⟩ := Option.map_eq_some_iff.1 hnext
      exact List.mem_append_left _ hmem
    rcases hrecords hbefore with ⟨q, hq, hshows⟩
    exact hturn.records hadmits hstands hminds hq (underway_of_work hshows hnext)
  | meanwhile e =>
    obtain rfl := Option.some.inj hnext
    refine ⟨told, current, ⟨htells.journal, htells.stands⟩, ?_⟩
    intro hminds
    rcases hrecords hminds with ⟨q, hq, hshows⟩
    refine ⟨q, ?_, hshows⟩
    show e.tracker.find? b.commandId = some q
    rw [hquiet e rfl]
    exact hq

/-- A bucket that is to be worked on is begun. -/
theorem isRecorded_begun {registered : RegisteredAction (Action σ)} (hadmits : p.Admits b)
    (hfind : e.tracker.find? b.commandId = some p)
    (hgoes : Execution.GoesOn p.command registered.action b e (batches b.ids p.command.batchSize)
      (Execution.start setup b e)) : (begun setup b e).IsRecorded p b := by
  rcases tells_begun hfind hgoes with ⟨current, htells⟩
  refine ⟨[], current, htells, ?_⟩
  intro _
  have hunder : p.Underway p (worked []) (failed []) := .refl hadmits.errorCount
  have hcounts {counts : Nat × Nat}
      (hc : (Execution.start setup b e).1.counts? = some counts) : counts = (0, 0) :=
    Execution.counts?_start setup b e hc
  unfold Records begun
  generalize Execution.start setup b e = r at hgoes hcounts
  generalize batches b.ids p.command.batchSize = left at hgoes
  cases hgoes with
  | gone err hgone =>
    rw [hadmits.id, hfind] at hgone
    exact absurd hgone (by simp)
  | complete processed errors hu =>
    obtain ⟨rfl, rfl⟩ := Prod.mk.inj (hcounts rfl)
    rw [hadmits.id] at hu
    obtain rfl := Option.some.inj (hfind.symm.trans hu.before)
    refine ⟨_, hu.find?_self, .processed (hunder.toCounted.completeBucket e.now b.sequence) ?_⟩
    exact Progress.completedBuckets_completeBucket rfl hadmits.fresh e.now
  | interrupt batch later processed errors haborted =>
    -- a command that is open is not aborted
    rcases Tracker.isAborted_iff.1 haborted with ⟨q, hq, hstate⟩
    rw [hadmits.id, hfind] at hq
    have hopen := hadmits.goesOn
    rw [Option.some.inj hq, hstate] at hopen
    exact absurd hopen (by decide)
  | opens => exact ⟨p, hfind, .working rfl hunder⟩

end Stint

end BulkRun
