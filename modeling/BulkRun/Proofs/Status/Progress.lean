import BulkRun.Status.Progress
/-!
# What the operations on progress do

Each operation is rewritten into the record it leaves, with the moves of state as plain conditions.
From these equations follow the two facts that everything about completion rests on: no operation
touches the command, and whatever ends a command goes through `settle` or `abort?`.
-/

namespace BulkRun

namespace CommandState

/-- A terminal state may be moved to from every state that is not terminal itself. -/
theorem canMove_of_isTerminal {current target : CommandState} (h : target.isTerminal = true) :
    canMove current target = !current.isTerminal := by
  simp [canMove, h]

/-- The states from which a scroll has yet to end. -/
def isScrolling : CommandState → Bool
  | .scheduled | .scrollingRunning => true
  | _ => false

theorem canMove_scrollingRunning (s : CommandState) :
    canMove s .scrollingRunning = (s == .scheduled) := by
  cases s <;> rfl

theorem canMove_running (s : CommandState) : canMove s .running = s.isScrolling := by
  cases s <;> rfl

theorem not_isTerminal_of_isScrolling {s : CommandState} (h : s.isScrolling = true) :
    s.isTerminal = false := by
  cases s <;> simp_all [isScrolling, isTerminal]

end CommandState

namespace Progress

variable (now : Timestamp) (p : Progress)

theorem finalState_isTerminal : p.finalState.isTerminal = true := by
  unfold finalState
  split
  · rfl
  · split <;> rfl

/-- The scroll is over, one way or the other. -/
def scrollIsOver : Bool := p.submitted || p.scrollFailed

theorem isDrained_iff :
    p.isDrained = true ↔ p.scrollIsOver = true ∧ p.scrollCount ≤ p.processed := by
  simp [isDrained, scrollIsOver]

/-! ## The records that operations leave -/

/-- A command is ended by `settle` exactly when it is drained and has not ended before. -/
theorem settle_fst :
    (p.settle now).1 =
      if p.isDrained && !p.state.isTerminal then
        { p with state := p.finalState, completedAt := some now }
      else p := by
  simp only [settle, moveTo?, CommandState.canMove_of_isTerminal p.finalState_isTerminal]
  cases p.isDrained <;> cases p.state.isTerminal <;> rfl

theorem startScrolling_fst :
    (p.startScrolling now).1 =
      if p.state == .scheduled then
        { p with state := .scrollingRunning, scrollStartedAt := some now }
      else p := by
  simp only [startScrolling, moveTo?, CommandState.canMove_scrollingRunning]
  cases p.state == .scheduled <;> rfl

/-- A scroll that ends leaves the command running, and then it is settled. -/
theorem endScroll_fst :
    (p.endScroll now).1 =
      (settle now (if p.state.isScrolling then { p with state := .running } else p)).1 := by
  simp only [endScroll, moveTo?, CommandState.canMove_running]
  cases p.state.isScrolling <;> rfl

theorem abort?_eq (message : Option String) :
    p.abort? now message =
      if p.state.isTerminal then none
      else some { p with
        state := .aborted
        errorMessage := message.or p.errorMessage
        completedAt := some now } := by
  simp only [abort?, moveTo?, CommandState.canMove_of_isTerminal
    (show CommandState.aborted.isTerminal = true from rfl)]
  cases p.state.isTerminal <;> rfl

/-! ## What stays -/

/-- Everything but the state and the time of the end. -/
theorem settle_frame :
    ∃ s at', (p.settle now).1 = { p with state := s, completedAt := at' } := by
  rw [settle_fst]
  split
  · exact ⟨_, _, rfl⟩
  · exact ⟨p.state, p.completedAt, rfl⟩

theorem endScroll_frame :
    ∃ s at', (p.endScroll now).1 = { p with state := s, completedAt := at' } := by
  rw [endScroll_fst]
  split
  · exact settle_frame now { p with state := .running }
  · exact settle_frame now p

@[simp]
theorem settle_command : (p.settle now).1.command = p.command := by
  obtain ⟨s, at', h⟩ := settle_frame now p
  rw [h]

@[simp]
theorem settle_scrollCount : (p.settle now).1.scrollCount = p.scrollCount := by
  obtain ⟨s, at', h⟩ := settle_frame now p
  rw [h]

@[simp]
theorem settle_processed : (p.settle now).1.processed = p.processed := by
  obtain ⟨s, at', h⟩ := settle_frame now p
  rw [h]

@[simp]
theorem settle_errorCount : (p.settle now).1.errorCount = p.errorCount := by
  obtain ⟨s, at', h⟩ := settle_frame now p
  rw [h]

@[simp]
theorem settle_submitted : (p.settle now).1.submitted = p.submitted := by
  obtain ⟨s, at', h⟩ := settle_frame now p
  rw [h]

@[simp]
theorem settle_scrollFailed : (p.settle now).1.scrollFailed = p.scrollFailed := by
  obtain ⟨s, at', h⟩ := settle_frame now p
  rw [h]

@[simp]
theorem settle_completedBuckets : (p.settle now).1.completedBuckets = p.completedBuckets := by
  obtain ⟨s, at', h⟩ := settle_frame now p
  rw [h]

@[simp]
theorem settle_createdAt : (p.settle now).1.createdAt = p.createdAt := by
  obtain ⟨s, at', h⟩ := settle_frame now p
  rw [h]

@[simp]
theorem settle_errorMessage : (p.settle now).1.errorMessage = p.errorMessage := by
  obtain ⟨s, at', h⟩ := settle_frame now p
  rw [h]

@[simp]
theorem settle_finalState : (p.settle now).1.finalState = p.finalState := by
  simp only [finalState, settle_scrollFailed, settle_errorCount]

@[simp]
theorem endScroll_command : (p.endScroll now).1.command = p.command := by
  obtain ⟨s, at', h⟩ := endScroll_frame now p
  rw [h]

@[simp]
theorem endScroll_scrollCount : (p.endScroll now).1.scrollCount = p.scrollCount := by
  obtain ⟨s, at', h⟩ := endScroll_frame now p
  rw [h]

@[simp]
theorem endScroll_processed : (p.endScroll now).1.processed = p.processed := by
  obtain ⟨s, at', h⟩ := endScroll_frame now p
  rw [h]

@[simp]
theorem endScroll_errorCount : (p.endScroll now).1.errorCount = p.errorCount := by
  obtain ⟨s, at', h⟩ := endScroll_frame now p
  rw [h]

@[simp]
theorem endScroll_submitted : (p.endScroll now).1.submitted = p.submitted := by
  obtain ⟨s, at', h⟩ := endScroll_frame now p
  rw [h]

@[simp]
theorem endScroll_scrollFailed : (p.endScroll now).1.scrollFailed = p.scrollFailed := by
  obtain ⟨s, at', h⟩ := endScroll_frame now p
  rw [h]

@[simp]
theorem endScroll_completedBuckets : (p.endScroll now).1.completedBuckets = p.completedBuckets := by
  obtain ⟨s, at', h⟩ := endScroll_frame now p
  rw [h]

@[simp]
theorem endScroll_createdAt : (p.endScroll now).1.createdAt = p.createdAt := by
  obtain ⟨s, at', h⟩ := endScroll_frame now p
  rw [h]

@[simp]
theorem endScroll_errorMessage : (p.endScroll now).1.errorMessage = p.errorMessage := by
  obtain ⟨s, at', h⟩ := endScroll_frame now p
  rw [h]

@[simp]
theorem endScroll_finalState : (p.endScroll now).1.finalState = p.finalState := by
  simp only [finalState, endScroll_scrollFailed, endScroll_errorCount]

theorem startScrolling_frame :
    ∃ s at', (p.startScrolling now).1 = { p with state := s, scrollStartedAt := at' } := by
  rw [startScrolling_fst]
  split
  · exact ⟨_, _, rfl⟩
  · exact ⟨p.state, p.scrollStartedAt, rfl⟩

theorem startScrolling_command : (p.startScrolling now).1.command = p.command := by
  obtain ⟨s, at', h⟩ := startScrolling_frame now p
  rw [h]

theorem markSubmitted_command : (p.markSubmitted now).1.command = p.command :=
  endScroll_command now _

theorem failScroll_command (message : String) :
    (p.failScroll now message).1.command = p.command :=
  endScroll_command now _

theorem recordBatch_command (processed errors : Nat) :
    (p.recordBatch now processed errors).1.command = p.command :=
  settle_command now _

theorem completeBucket_frame (sequence : Nat) :
    ∃ done, p.completeBucket sequence = { p with completedBuckets := done } := by
  unfold completeBucket
  split
  · exact ⟨p.completedBuckets, rfl⟩
  · exact ⟨_, rfl⟩

theorem completeBucket_command (sequence : Nat) :
    (p.completeBucket sequence).command = p.command := by
  obtain ⟨done, h⟩ := completeBucket_frame p sequence
  rw [h]

/-- Only `completeBucket` changes which buckets are done. -/
theorem isBucketDone_completeBucket (sequence other : Nat) :
    (p.completeBucket sequence).isBucketDone other =
      (p.isBucketDone other || other == sequence) := by
  unfold completeBucket
  split
  · rename_i done
    cases h : other == sequence
    · simp
    · rw [eq_of_beq h, done]
      rfl
  · simp only [isBucketDone, List.contains_cons]
    exact Bool.or_comm _ _

/-! ## How commands end -/

/-- After `settle` a drained command has ended. -/
theorem settle_isTerminal (h : p.isDrained = true) :
    (p.settle now).1.state.isTerminal = true := by
  rw [settle_fst, h]
  cases ht : p.state.isTerminal
  · simpa using p.finalState_isTerminal
  · simpa using ht

/-- What `settle` moves to is decided by how the scroll ended and by the failures. -/
theorem settle_state :
    (p.settle now).1.state = p.state ∨
      p.isDrained = true ∧ p.state.isTerminal = false ∧ (p.settle now).1.state = p.finalState := by
  rw [settle_fst]
  split
  · rename_i h
    rw [Bool.and_eq_true, Bool.not_eq_true'] at h
    exact .inr ⟨h.1, h.2, rfl⟩
  · exact .inl rfl

end Progress

end BulkRun
