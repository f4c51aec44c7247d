import BulkRun.Proofs.Execution.Turns
/-!
# More failures than records

An action may tell of more failures than it was asked about, and all of them are counted.  The
surplus is what an answer tells of beyond the records of its call.  Main statement: the failures of
a batch are no more than its records and the surplus of its answers together, and so are those of a
bucket (`Stint.errors_within_surplus`).
-/

namespace BulkRun

variable {σ : Type}

/-- How many failures a note tells of beyond the records that were asked about. -/
def Note.surplus : Note → Nat
  | .answered ids reply => Application.surplus ⟨ids, reply⟩
  | _ => 0

/-- How many failures beyond the records were told of in all that has passed. -/
def Journal.surplus (j : Journal) : Nat := (j.map Note.surplus).sum

theorem Journal.surplus_append (j j' : Journal) :
    Journal.surplus (j ++ j') = j.surplus + j'.surplus := by
  simp [Journal.surplus]

/-- In a block it is the answers of the action that tell of failures. -/
theorem Block.surplus_notes (k : Command) (b : Bucket) (block : Block) :
    (block.notes k b).surplus = block.surplus := by
  have happlied : Journal.surplus (block.applied.flatMap (·.notes)) = block.surplus := by
    unfold Block.surplus
    induction block.applied with
    | nil => rfl
    | cons a rest ih =>
      rw [List.flatMap_cons, Journal.surplus_append, ih, List.map_cons, List.sum_cons]
      simp [Application.notes, Journal.surplus, Note.surplus]
  have hpending : Journal.surplus (block.pending.toList.map .called) = 0 := by
    cases block.pending <;> rfl
  have hclosing :
      Journal.surplus (block.closing.toList.map (Closing.note (block.scope k b))) = 0 := by
    cases block.closing with
    | none => rfl
    | some closing => cases closing <;> rfl
  show 0 + Journal.surplus _ = _
  rw [Journal.surplus_append, Journal.surplus_append, happlied, hpending, hclosing]
  omega

theorem surplus_flatMap_notes (k : Command) (b : Bucket) (blocks : List Block) :
    Journal.surplus (blocks.flatMap (Block.notes k b)) = (blocks.map (·.surplus)).sum := by
  induction blocks with
  | nil => rfl
  | cons block rest ih =>
    rw [List.flatMap_cons, Journal.surplus_append, ih, Block.surplus_notes, List.map_cons,
      List.sum_cons]

/-- Block by block, the failures are no more than the records and the surplus. -/
theorem failed_le {blocks : List Block} (h : ∀ block ∈ blocks, block.IsLawful) :
    failed blocks ≤ worked blocks + (blocks.map (·.surplus)).sum := by
  induction blocks with
  | nil => exact Nat.le_refl 0
  | cons block rest ih =>
    have hfirst := (h block List.mem_cons_self).errors_le
    have hrest := ih fun c hc => h c (List.mem_cons_of_mem block hc)
    simp only [failed, worked, List.map_cons, List.sum_cons] at hrest ⊢
    omega

/-- The counts of a bucket are those of the blocks that were told of. -/
theorem Tells.counts_le {k : Command} {b : Bucket} {told : List Block} {current : Option Block}
    {s : Stint σ} (h : Tells k b told current s) {outcome : BucketOutcome} {processed errors : Nat}
    (hend : s.execution = .finished (.ok outcome))
    (hcounts : outcome.counts? = some (processed, errors)) :
    errors ≤ processed + s.journal.surplus := by
  have hstands := h.stands
  have hjournal := h.journal
  rw [hend] at hstands
  cases hstands with
  | processed hbehind =>
    rcases Prod.mk.inj (Option.some.inj hcounts) with ⟨rfl, rfl⟩
    rw [hjournal, Option.toList_none, List.append_nil, surplus_flatMap_notes]
    exact failed_le fun block hblock => (hbehind.told block hblock).lawful
  | interrupted hbehind =>
    rcases Prod.mk.inj (Option.some.inj hcounts) with ⟨rfl, rfl⟩
    rw [hjournal, Option.toList_none, List.append_nil, surplus_flatMap_notes]
    exact failed_le fun block hblock => (hbehind.told block hblock).lawful
  | stopped => exact absurd hcounts (by simp [BucketOutcome.counts?])

namespace Stint

variable {setup : Setup σ} {b : Bucket} {e : Engine σ} {moves : List (Move (Stint σ) (Event σ))}
  {s : Stint σ}

/-- Whatever the collaborators answer, a batch is reported with as many records as it has, and with
no more failures than its records and the surplus of its answers together.  A bucket comes to no
more failures than records worked on but for the surplus of all its answers, and so to no more
without one. -/
theorem errors_within_surplus (hrun : Run (next? setup) (begun setup b e) moves s) :
    (∀ w errors, s.execution.report? = some (w, errors) →
      s.execution.step? setup s.engine = some (Execution.report setup w errors s.engine) ∧
      ∃ (earlier : Journal) (block : Block),
        s.journal = earlier ++ block.notes w.command b ∧ block.batch = w.batch ∧
        errors = block.errors ∧ errors ≤ w.batch.ids.length + block.surplus) ∧
    ∀ outcome processed errors, s.execution = .finished (.ok outcome) →
      outcome.counts? = some (processed, errors) → errors ≤ processed + s.journal.surplus := by
  rcases stands_of_run hrun with hidle | ⟨p, -, told, current, htells⟩
  · rcases hidle.finished with ⟨outcome, hend, hnone⟩
    rw [hend]
    constructor
    · intro w errors hreport
      exact absurd hreport (by simp [Execution.report?])
    · intro other processed errors hother hcounts
      rw [← Except.ok.inj (Execution.finished.inj hother), hnone] at hcounts
      exact absurd hcounts (by simp)
  · constructor
    · intro w errors hreport
      refine ⟨Execution.step?_of_report? hreport s.engine, ?_⟩
      rcases htells.stands.isTold_of_report? hreport with
        ⟨block, rfl, hbatch, rfl, hblock, hbehind⟩
      refine ⟨told.flatMap (Block.notes p.command b), block, ?_, hbatch, rfl, ?_⟩
      · rw [htells.journal, hbehind.command, Option.toList_some, List.flatMap_append,
          List.flatMap_singleton]
      · rw [← hbatch]
        exact hblock.lawful.errors_le
    · intro outcome processed errors hend hcounts
      exact htells.counts_le hend hcounts

/-- The action is asked about `a` and tells of two failures. -/
def toldTwice : List ActionReply := [⟨[], .ok [⟨"a", some "locked"⟩, ⟨"a", some "still locked"⟩]⟩]

/-- One record was worked on, and two have failed. -/
theorem errors_within_surplus_told_twice :
    ∃ moves s, Run (next? (scriptedSetup .none))
        (begun (scriptedSetup .none) ⟨⟨7⟩, 0, ["a"]⟩ (scriptedEngine (running 1) toldTwice))
        moves s ∧
      s.execution = .finished (.ok (.processed 1 2)) ∧ s.journal.surplus = 1 ∧
      2 ≤ 1 + s.journal.surplus := by
  have hcheck : (movesOf? (next? (scriptedSetup .none))
      (begun (scriptedSetup .none) ⟨⟨7⟩, 0, ["a"]⟩ (scriptedEngine (running 1) toldTwice))
      (List.replicate 3 .work)).any (fun r =>
        decide (r.2.execution.outcome? = some (.processed 1 2)) &&
          decide (r.2.journal.surplus = 1)) = true := by
    decide +kernel
  rcases (Option.any_eq_true _ _).1 hcheck with ⟨⟨moves, s⟩, hmoves, hs⟩
  rw [Bool.and_eq_true, decide_eq_true_eq, decide_eq_true_eq] at hs
  have hend : s.execution = .finished (.ok (.processed 1 2)) := Execution.eq_of_outcome? hs.1
  have hrun := Run.of_movesOf? hmoves
  exact ⟨moves, s, hrun, hend, hs.2, (errors_within_surplus hrun).2 _ 1 2 hend rfl⟩

end Stint

end BulkRun
