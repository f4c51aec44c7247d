import BulkRun.Proofs.Execution.Turns
/-!
# The discipline of transactions

Every batch of a bucket is worked on within a transaction of its own, one after the other.  Main
statement: at any time what has passed is a block for each batch so far, of which all but the last
are over, and after a block that is over the bucket goes on with the next batch, unless the action
cannot run, the command is aborted, or it is gone (`Stint.keeps_discipline`).
-/

namespace BulkRun

open Tracker (Heeds)

variable {σ : Type}

/-- Whether all records of a batch count as failed, whatever was done with them. -/
inductive Block.FailsAsWhole (block : Block) : Prop
  | refused (err : TransactionError) (h : block.opening = .error err)
  | notCommitted (err : TransactionError) (h : block.closing = some (.commit (.error err)))
  | rolledBack (answer : Except TransactionError Unit)
      (h : block.closing = some (.rollback answer))

theorem Block.FailsAsWhole.errors_eq {block : Block} (h : block.FailsAsWhole) :
    block.errors = block.batch.ids.length := by
  obtain ⟨batch, opening, applied, pending, closing⟩ := block
  cases h with
  | refused err h =>
    obtain rfl : opening = .error err := h
    rfl
  | notCommitted err h =>
    obtain rfl : closing = some (.commit (.error err)) := h
    cases opening <;> rfl
  | rolledBack answer h =>
    obtain rfl : closing = some (.rollback answer) := h
    cases opening <;> rfl

/-- Whether what has passed is in order, block by block. -/
structure Stint.IsDisciplined (k : Command) (b : Bucket) (blocks : List Block) (s : Stint σ) :
    Prop where
  journal : s.journal = blocks.flatMap (Block.notes k b)
  batches : blocks.map (·.batch) <+: batches b.ids k.batchSize
  indices : blocks.map (·.batch.index) = List.range blocks.length
  lawful : ∀ block ∈ blocks, block.IsLawful
  /-- The next transaction is asked for when the one before is closed. -/
  earlier : ∀ block ∈ blocks.dropLast, block.isOver = true ∧ block.stopsBucket = false
  finished : s.execution.result?.isSome = true → ∀ block ∈ blocks, block.isOver = true

/-- What a step makes of a bucket when the last of some blocks is over. -/
structure Block.Aftermath (k : Command) (b : Bucket) (blocks : List Block) (block : Block)
    (s t : Stint σ) : Prop where
  gone : s.engine.tracker.find? k.id = none →
    t.journal = s.journal ∧ t.engine = s.engine ∧ ∃ err, t.execution = .finished (.error err)
  /-- An action that cannot run stops the bucket and aborts the command. -/
  stops : ∀ p, s.engine.tracker.find? k.id = some p → block.stopsBucket = true →
    t.journal = s.journal ∧ t.execution = .finished (.ok .commandAborted) ∧ ∃ message,
      Heeds s.engine.tracker s.engine.now k.id (.abortWithError message) p t.engine.tracker
  /-- The batch is told of, and the next one is begun unless the command is aborted. -/
  goesOn : ∀ p, s.engine.tracker.find? k.id = some p → block.stopsBucket = false →
    ∃ u, Heeds s.engine.tracker s.engine.now k.id
        (.recordBatch block.batch.ids.length block.errors) p u ∧
      (block.FailsAsWhole → block.errors = block.batch.ids.length) ∧
      match (BulkRun.batches b.ids k.batchSize)[blocks.length]?, u.isAborted k.id with
      | some batch, false => ∃ answer,
          t.journal = s.journal ++ [.began ⟨k.id, b.sequence, batch.index⟩ answer] ∧
          t.execution.result? = none
      | some _, true => t.journal = s.journal ∧
          ∃ processed errors, t.execution = .finished (.ok (.interrupted processed errors))
      | none, _ => t.journal = s.journal ∧
          ∃ processed errors, t.execution = .finished (.ok (.processed processed errors))

variable {setup : Setup σ} {k : Command} {b : Bucket} {told : List Block} {block : Block}
  {current : Option Block} {s t : Stint σ}

/-! ## Blocks in order -/

/-- The batches of a bucket are numbered. -/
theorem index_eq_of_prefix {batches' : List Batch} {ids : List String} {size : Nat}
    (h : batches' <+: batches ids size) :
    batches'.map (·.index) = List.range batches'.length := by
  apply List.ext_getElem
  · rw [List.length_map, List.length_range]
  · intro i hi hi'
    rw [List.length_map] at hi
    have hget := h.getElem hi
    rw [List.getElem_map, List.getElem_range, hget]
    simp [batches]

/-- The block at hand belongs to the first of the batches that are left. -/
theorem Stands.standsBehind {x : Execution σ} (h : Stands k b told current x) :
    ∃ left, StandsBehind k b told (current.toList.map (·.batch) ++ left) := by
  cases h with
  | @opening w _ h => exact ⟨w.later, h.stands⟩
  | @applying w _ _ _ _ h => exact ⟨w.later, h.stands⟩
  | @committing w _ _ _ h => exact ⟨w.later, h.stands⟩
  | @rollingBack w _ _ _ h => exact ⟨w.later, h.stands⟩
  | processed h => exact ⟨[], h⟩
  | @interrupted batch later h => exact ⟨batch :: later, h⟩
  | @stopped _ later h => exact ⟨later, h⟩
  | @gone _ later _ h => exact ⟨later, h⟩

theorem Stands.isLawful {x : Execution σ} (h : Stands k b told (some block) x) :
    block.IsLawful := by
  cases h with
  | opening => exact Block.isLawful_opened _ _
  | applying _ htrial hcalling => exact Block.isLawful_called htrial hcalling
  | committing _ htrial => exact Block.isLawful_committed htrial _
  | rollingBack _ htrial => exact Block.isLawful_rolledBack htrial _
  | stopped _ hlawful => exact hlawful
  | gone _ hlawful => exact hlawful

/-- At the end nothing is left open. -/
theorem Stands.isOver {x : Execution σ} (h : Stands k b told (some block) x)
    (hend : x.result?.isSome = true) : block.isOver = true := by
  cases h with
  | stopped _ _ hover => exact hover
  | gone _ _ hover => exact hover
  | _ => exact absurd hend (by simp [Execution.result?])

theorem Tells.isDisciplined (h : Tells k b told current s) :
    s.IsDisciplined k b (told ++ current.toList) := by
  obtain ⟨left, hstands⟩ := h.stands.standsBehind
  have hbatches : (told ++ current.toList).map (·.batch) <+: batches b.ids k.batchSize := by
    rw [hstands.batches, List.map_append, ← List.append_assoc]
    exact List.prefix_append _ left
  have hindices := index_eq_of_prefix hbatches
  rw [List.map_map, List.length_map] at hindices
  have hall {P : Block → Prop} (htold : ∀ c ∈ told, P c) (hcurrent : ∀ c, current = some c → P c) :
      ∀ c ∈ told ++ current.toList, P c := by
    intro c hc
    rcases List.mem_append.1 hc with hc | hc
    · exact htold c hc
    · exact hcurrent c (Option.mem_toList.1 hc)
  refine ⟨h.journal, hbatches, hindices, hall ?_ ?_, ?_, fun hend => hall ?_ ?_⟩
  · exact fun c hc => (hstands.told c hc).lawful
  · rintro c rfl
    exact h.stands.isLawful
  · intro c hc
    have hmem : c ∈ told := by
      cases current with
      | none =>
        rw [Option.toList_none, List.append_nil] at hc
        exact (List.dropLast_sublist told).mem hc
      | some last =>
        rw [Option.toList_some, List.dropLast_concat] at hc
        exact hc
    exact ⟨(hstands.told c hmem).ended, (hstands.told c hmem).runs⟩
  · exact fun c hc => (hstands.told c hc).ended
  · rintro c rfl
    exact h.stands.isOver hend

/-! ## After a block -/

/-- Without a block at hand the bucket is at its end. -/
theorem Stands.ne_none_of_none {x : Execution σ} (h : Stands k b told none x) :
    x.result? ≠ none := by
  cases h with
  | processed => simp [Execution.result?]
  | interrupted => simp [Execution.result?]

/-- When a block is over, there is something to be done, unless the bucket is at its end. -/
theorem Stands.exists_work (h : Stands k b told (some block) s.execution)
    (hover : block.isOver = true) (hruns : s.execution.result? = none) :
    ∃ t, s.next? setup .work = some t := by
  rw [Stint.next?]
  generalize s.execution = x at h hruns
  cases h with
  | @opening w answer =>
    cases answer with
    | error err => exact ⟨_, rfl⟩
    | ok => exact absurd hover (by simp [Block.isOver])
  | applying => exact absurd hover (by simp [Block.isOver])
  | @committing w errors applied answer =>
    cases answer with
    | error err => exact ⟨_, rfl⟩
    | ok => exact ⟨_, rfl⟩
  | rollingBack => exact ⟨_, rfl⟩
  | stopped => exact absurd hruns (by simp [Execution.result?])
  | gone => exact absurd hruns (by simp [Execution.result?])

/-- Behind some blocks the next batch is the first of those that are left. -/
theorem StandsBehind.getElem?_batches {left : List Batch} (h : StandsBehind k b told left) :
    (BulkRun.batches b.ids k.batchSize)[told.length]? = left.head? := by
  rw [h.batches, List.getElem?_append_right (by simp), List.length_map,
    Nat.sub_self, List.head?_eq_getElem?]

/-- The tracker was told of the last block, and this is what followed. -/
theorem Block.IsTold.aftermath {p : Progress} {u : Tracker} (hblock : block.IsTold)
    (hu : Heeds s.engine.tracker s.engine.now k.id
      (.recordBatch block.batch.ids.length block.errors) p u)
    (hnext : match (batches b.ids k.batchSize)[(told ++ [block]).length]?, u.isAborted k.id with
      | some batch, false => ∃ answer,
          t.journal = s.journal ++ [.began ⟨k.id, b.sequence, batch.index⟩ answer] ∧
          t.execution.result? = none
      | some _, true => t.journal = s.journal ∧
          ∃ processed errors, t.execution = .finished (.ok (.interrupted processed errors))
      | none, _ => t.journal = s.journal ∧
          ∃ processed errors, t.execution = .finished (.ok (.processed processed errors))) :
    block.Aftermath k b (told ++ [block]) s t where
  gone hgone := absurd (hgone.symm.trans hu.before) (by simp)
  stops q _ hstops := by
    rw [hblock.runs] at hstops
    exact absurd hstops (by simp)
  goesOn q hq _ := by
    obtain rfl := Option.some.inj (hq.symm.trans hu.before)
    exact ⟨u, hu, Block.FailsAsWhole.errors_eq, hnext⟩

theorem Turn.aftermath {told' : List Block} {current' : Option Block}
    (h : Turn k b s told block told' current' t) (hover : block.isOver = true)
    (hstands : Stands k b told' current' t.execution) :
    block.Aftermath k b (told ++ [block]) s t := by
  cases h with
  | goesOn _ hopen =>
    rw [hover] at hopen
    exact absurd hopen (by simp)
  | gone err _ hgone =>
    have hnone {p : Progress} (hp : s.engine.tracker.find? k.id = some p) : False := by
      rw [hgone] at hp
      exact absurd hp (by simp)
    exact ⟨fun _ => ⟨rfl, rfl, err, rfl⟩, fun _ hp => (hnone hp).elim, fun _ hp => (hnone hp).elim⟩
  | stops message _ hstops hu =>
    refine ⟨?_, ?_, ?_⟩
    · intro hgone
      exact absurd (hgone.symm.trans hu.before) (by simp)
    · intro p hp _
      obtain rfl := Option.some.inj (hp.symm.trans hu.before)
      exact ⟨rfl, rfl, message, hu⟩
    · intro p _ hruns
      rw [hstops] at hruns
      exact absurd hruns (by simp)
  | last htold hu _ =>
    cases hstands with
    | processed hleft =>
      refine htold.aftermath hu ?_
      rw [hleft.getElem?_batches]
      exact ⟨rfl, _, _, rfl⟩
  | interrupts htold hu haborted =>
    cases hstands with
    | interrupted hleft =>
      refine htold.aftermath hu ?_
      rw [hleft.getElem?_batches, haborted]
      exact ⟨rfl, _, _, rfl⟩
  | next w answer world htold hu hgoes =>
    obtain ⟨left, hleft⟩ := hstands.standsBehind
    refine htold.aftermath hu ?_
    rw [hleft.getElem?_batches, hgoes]
    exact ⟨answer, rfl, rfl⟩

/-! ## Main statement -/

namespace Stint

variable {e : Engine σ} {moves : List (Move (Stint σ) (Event σ))}

/-- The discipline of transactions.  Whatever the collaborators answer, and whatever others do in
the meantime, what has passed while a bucket was worked on is a block for each batch so far, in
order, and nothing if the command was not there.  When the last block is over, there is a step that
ends the bucket or goes on with it. -/
theorem keeps_discipline (hrun : Run (next? setup) (begun setup b e) moves s) :
    (e.tracker.find? b.commandId = none → s.journal = []) ∧
    ∀ p, e.tracker.find? b.commandId = some p →
      ∃ blocks, s.IsDisciplined p.command b blocks ∧
        ∀ block, blocks.getLast? = some block → block.isOver = true →
          s.execution.result? = none →
            ∃ t, s.next? setup .work = some t ∧ block.Aftermath p.command b blocks s t := by
  rcases stands_of_run hrun with hidle | ⟨p, hfind, told, current, htells⟩
  · refine ⟨fun _ => hidle.journal, ?_⟩
    intro p _
    refine ⟨[], ⟨hidle.journal, List.nil_prefix, rfl, by simp, by simp, by simp⟩, ?_⟩
    intro block hblock
    exact absurd hblock (by simp)
  · constructor
    · intro hnone
      rw [hfind] at hnone
      exact absurd hnone (by simp)
    · intro q hq
      obtain rfl := Option.some.inj (hfind.symm.trans hq)
      refine ⟨_, htells.isDisciplined, ?_⟩
      intro block hlast hover hruns
      have hstands := htells.stands
      cases current with
      | none =>
        -- no block is at hand at the end of the bucket only
        exact absurd hruns (hstands.ne_none_of_none)
      | some c =>
        rw [Option.toList_some, List.getLast?_concat] at hlast
        obtain rfl := Option.some.inj hlast
        obtain ⟨t, hwork⟩ := hstands.exists_work hover hruns
        obtain ⟨c, told', current', hc, hturn, hstands'⟩ := turn_work hstands hwork
        obtain rfl := Option.some.inj hc
        exact ⟨t, hwork, hturn.aftermath hover hstands'⟩

/-- Transactions of which the second is refused and the fourth is not committed. -/
def troubled : TransactionManager (List ActionReply) where
  begin s w := (if s.batchIndex = 1 then .error (.begin "no room") else .ok (), w)
  commit s w := (if s.batchIndex = 3 then .error (.commit "lost") else .ok (), w)
  rollback _ w := (.error (.rollback "lost"), w)

/-- The action stops on `a`, takes `b`, loses the third transaction and takes `g`. -/
def troubledAnswers : List ActionReply :=
  [⟨[], .error (.recordFailed "a" "locked")⟩, ⟨[], .ok [⟨"b", none⟩]⟩,
    ⟨[], .error (.transaction "lost")⟩, ⟨[], .ok [⟨"g", none⟩]⟩]

/-- Of four batches one fails in part and three as a whole, and the bucket goes on to its end. -/
theorem keeps_discipline_troubled :
    ∃ moves s, Run (next? (scriptedSetup troubled))
        (begun (scriptedSetup troubled) ⟨⟨7⟩, 0, ["a", "b", "c", "d", "e", "f", "g"]⟩
          (scriptedEngine (running 7) troubledAnswers)) moves s ∧
      s.execution = .finished (.ok (.processed 7 6)) ∧ s.journal.length = 15 ∧
      ∃ blocks, s.IsDisciplined markAll ⟨⟨7⟩, 0, ["a", "b", "c", "d", "e", "f", "g"]⟩ blocks := by
  have hcheck : (movesOf? (next? (scriptedSetup troubled))
      (begun (scriptedSetup troubled) ⟨⟨7⟩, 0, ["a", "b", "c", "d", "e", "f", "g"]⟩
        (scriptedEngine (running 7) troubledAnswers)) (List.replicate 11 .work)).any (fun r =>
      decide (r.2.execution.outcome? = some (.processed 7 6)) && decide (r.2.journal.length = 15)) = true := by
    decide +kernel
  obtain ⟨⟨moves, s⟩, hmoves, hs⟩ := (Option.any_eq_true _ _).1 hcheck
  rw [Bool.and_eq_true, decide_eq_true_eq, decide_eq_true_eq] at hs
  have hrun := Run.of_movesOf? hmoves
  obtain ⟨blocks, hblocks, -⟩ := (keeps_discipline hrun).2 _ rfl
  exact ⟨moves, s, hrun, Execution.eq_of_outcome? hs.1, hs.2, blocks, hblocks⟩

end Stint

end BulkRun
