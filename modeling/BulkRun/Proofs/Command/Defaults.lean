import BulkRun.Dispatch.Preparation
/-!
# Commands with their defaults

A command whose unset sizes, limit and repository were filled in is the same command otherwise, and
has a bucket size.
-/

namespace BulkRun

/-- The bucket size that results from set sizes and defaults is set. -/
theorem Draft.resolvedSizes_fst_pos (bucket batch : Nat) {defaultBucket : Nat}
    (h : 0 < defaultBucket) (defaultBatch : Nat) :
    0 < (resolvedSizes bucket batch defaultBucket defaultBatch).1 := by
  cases bucket with
  | zero =>
    cases batch with
    | zero => exact h
    | succ batch => exact Nat.lt_of_lt_of_le h (Nat.le_max_left _ _)
  | succ bucket =>
    cases batch with
    | zero => exact Nat.succ_pos bucket
    | succ batch => exact Nat.succ_pos bucket

theorem Draft.withDefaults_eq_ok {d d' : Draft} {bucket batch : Nat} {limit : Option Nat}
    (h : d.withDefaults bucket batch limit = .ok d') :
    d'.action = d.action ∧ 0 < d'.bucketSize := by
  unfold withDefaults at h
  split at h
  · exact absurd h (by simp)
  · rename_i hzero
    rw [not_or] at hzero
    simp only [checkSizes] at h
    split at h
    · exact absurd h (by simp [Except.map])
    · obtain rfl := Except.ok.inj h
      exact ⟨rfl, Draft.resolvedSizes_fst_pos _ _ (Nat.pos_of_ne_zero hzero.1) _⟩

theorem DispatcherSettings.resolve_eq_ok {s : DispatcherSettings} {d : ActionDescriptor}
    {c c' : Command} (h : s.resolve d c = .ok c') :
    c'.id = c.id ∧ c'.action = c.action ∧ 0 < c'.bucketSize := by
  unfold resolve Command.withDefaults at h
  cases hdefaults : c.toDraft.withDefaults (d.defaultBucketSize.getD s.defaultBucketSize)
      (d.defaultBatchSize.getD s.defaultBatchSize) d.defaultQueryLimit with
  | error f =>
    rw [hdefaults] at h
    exact absurd h (by simp [Except.map])
  | ok d' =>
    rw [hdefaults] at h
    rcases Draft.withDefaults_eq_ok hdefaults with ⟨haction, hbucket⟩
    obtain rfl := Except.ok.inj h
    exact ⟨rfl, haction, hbucket⟩

end BulkRun
