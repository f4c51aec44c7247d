import BulkRun.Proofs.Status.Advance
/-!
# Progress while a bucket is worked on

The work on a bucket reports its batches one after the other.  As long as the records of the bucket
are among those that were scrolled and not worked on before, no report is cut off and the command
cannot come to its end before the last batch: its counters are raised by what was reported, the
failures modulo `2 ^ 64`, and all that can happen to it besides is an abort.
-/

namespace BulkRun

open Tracker (Report)

namespace Progress

/-- What so many records worked on, and so many failures among them, make of the counters. -/
structure Counted (p q : Progress) (worked failed : Nat) : Prop where
  command : q.command = p.command
  scrollCount : q.scrollCount = p.scrollCount
  processed : q.processed = p.processed + worked
  errorCount : q.errorCount = (p.errorCount + failed) % wordCount

/-- What they make of a command of which no bucket has come to its end meanwhile. -/
structure Underway (p q : Progress) (worked failed : Nat) : Prop
    extends Counted p q worked failed where
  state : q.state = p.state ∨ q.state = .aborted
  completedBuckets : q.completedBuckets = p.completedBuckets

variable {p q : Progress} {worked failed count sequence : Nat}

theorem Underway.refl (h : p.errorCount < wordCount) : p.Underway p 0 0 where
  command := rfl
  scrollCount := rfl
  processed := rfl
  errorCount := (Nat.mod_eq_of_lt h).symm
  state := .inl rfl
  completedBuckets := rfl

/-- A report for which there is room is counted in full. -/
theorem Counted.recordBatch (h : p.Counted q worked failed)
    (hroom : p.processed + (worked + count) ≤ p.scrollCount) (hword : p.scrollCount < wordCount)
    (now : Timestamp) (errors : Nat) :
    p.Counted (q.heed now (.recordBatch count errors)) (worked + count) (failed + errors) where
  command := by rw [heed_command, h.command]
  scrollCount := by rw [heed, Progress.recordBatch, settle_scrollCount, h.scrollCount]
  processed := by
    rw [heed, Progress.recordBatch, settle_processed]
    show min (min (q.processed + count) wordMax) q.scrollCount = _
    rw [h.processed, h.scrollCount]
    unfold wordMax
    omega
  errorCount := by
    rw [heed, Progress.recordBatch, settle_errorCount]
    show (q.errorCount + errors) % wordCount = _
    rw [h.errorCount, Nat.mod_add_mod, Nat.add_assoc]

theorem completedBuckets_recordBatch (q : Progress) (now : Timestamp) (count errors : Nat) :
    (q.heed now (.recordBatch count errors)).completedBuckets = q.completedBuckets :=
  completedBuckets_heed now (by simp)

/-- A report that leaves records for later ends nothing. -/
theorem Underway.recordBatch (h : p.Underway q worked failed)
    (hroom : p.processed + (worked + count) < p.scrollCount) (hword : p.scrollCount < wordCount)
    (now : Timestamp) (errors : Nat) :
    p.Underway (q.heed now (.recordBatch count errors)) (worked + count) (failed + errors) := by
  have hcounted : p.Counted (q.heed now (.recordBatch count errors)) (worked + count)
      (failed + errors) := h.toCounted.recordBatch (Nat.le_of_lt hroom) hword now errors
  have hstate : (q.heed now (.recordBatch count errors)).state = q.state := by
    have hleft : ¬(q.heed now (.recordBatch count errors)).scrollCount ≤
        (q.heed now (.recordBatch count errors)).processed := by
      rw [hcounted.scrollCount, hcounted.processed]
      omega
    rw [heed, Progress.recordBatch] at hleft ⊢
    rcases settle_state now { q with
      startedAt := q.startedAt.or (some now)
      errorCount := (q.errorCount + errors) % wordCount
      processed := min (min (q.processed + count) wordMax) q.scrollCount } with hkept | ⟨hdrained, -⟩
    · exact hkept
    · rw [settle_scrollCount, settle_processed] at hleft
      exact absurd ((isDrained_iff _).1 hdrained).2 hleft
  refine ⟨hcounted, ?_, ?_⟩
  · rw [hstate]
    exact h.state
  · rw [completedBuckets_recordBatch, h.completedBuckets]

/-- An abort leaves the counters, and ends a command that was open. -/
theorem Underway.abort (h : p.Underway q worked failed) (hopen : p.state.isTerminal = false)
    {r : Report} (hr : r.isAbort = true) (now : Timestamp) :
    p.Underway (q.heed now r) worked failed ∧ (q.heed now r).state = .aborted := by
  have haborts (message : Option String) :
      p.Underway ((q.abort? now message).getD q) worked failed ∧
        ((q.abort? now message).getD q).state = .aborted := by
    rw [abort?_eq]
    rcases h.state with hstate | hstate
    · rw [hstate, hopen, if_neg Bool.false_ne_true]
      exact ⟨⟨⟨h.command, h.scrollCount, h.processed, h.errorCount⟩, .inr rfl,
        h.completedBuckets⟩, rfl⟩
    · rw [hstate]
      exact ⟨h, hstate⟩
  cases r with
  | abort => exact haborts none
  | abortWithError message => exact haborts (some message)
  | _ => exact absurd hr Bool.false_ne_true

theorem Counted.completeBucket (h : p.Counted q worked failed) (now : Timestamp)
    (sequence : Nat) :
    p.Counted (q.heed now (.completeBucket sequence)) worked failed := by
  rcases completeBucket_frame q sequence with ⟨done, hq⟩
  rw [heed, hq]
  exact ⟨h.command, h.scrollCount, h.processed, h.errorCount⟩

/-- A bucket that was not done is remembered, besides those that were. -/
theorem completedBuckets_completeBucket (h : q.completedBuckets = p.completedBuckets)
    (hdone : p.isBucketDone sequence = false) (now : Timestamp) :
    (q.heed now (.completeBucket sequence)).completedBuckets = sequence :: p.completedBuckets := by
  have hnot : q.isBucketDone sequence = false := by
    rw [isBucketDone, h]
    exact hdone
  rw [heed, Progress.completeBucket, if_neg (by rw [hnot]; exact Bool.false_ne_true), h]

end Progress

end BulkRun
