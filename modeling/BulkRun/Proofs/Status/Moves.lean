import BulkRun.Proofs.Status.Advance
/-!
# Moves from state to state

A command passes through states by moves that it may make, one after the other (`Leads`).  Such
moves can be put together to one move, so the states on the way have rising numbers and only the
last of them can be terminal.  Main statement: the states that a report makes a command move to are
the way from the state before the report to the state after it (`leads_heed`).
-/

namespace BulkRun

open Tracker (Report)

namespace CommandState

variable {s t e : CommandState} {passed : List CommandState}

theorem number_lt_of_canMove (h : canMove s t = true) : s.number < t.number := by
  revert h
  cases s <;> cases t <;> decide

theorem not_isTerminal_of_canMove (h : canMove s t = true) : s.isTerminal = false := by
  rw [canMove, Bool.and_eq_true, Bool.not_eq_true'] at h
  exact h.1

theorem canMove_trans (h : canMove s t = true) (h' : canMove t e = true) :
    canMove s e = true := by
  revert h h'
  cases s <;> cases t <;> cases e <;> decide

/-- Whether a command comes from one state through some states to the last of them, by moves that it
may make; without a move it stays where it is. -/
inductive Leads : CommandState → List CommandState → CommandState → Prop
  | stay (s : CommandState) : Leads s [] s
  | move {s t e : CommandState} {passed : List CommandState} :
      canMove s t = true → Leads t passed e → Leads s (t :: passed) e

namespace Leads

theorem single (h : canMove s t = true) : Leads s [t] t := .move h (.stay t)

theorem trans {more : List CommandState} (h : Leads s passed t) (h' : Leads t more e) :
    Leads s (passed ++ more) e := by
  induction h with
  | stay => exact h'
  | move hmove _ ih => exact .move hmove (ih h')

/-- Every state on the way could have been moved to from every one before it. -/
theorem pairwise (h : Leads s passed e) : (s :: passed).Pairwise (canMove · · = true) := by
  induction h with
  | stay => exact List.pairwise_singleton _ _
  | @move s t e passed hmove _ ih =>
    refine List.pairwise_cons.2 ⟨fun k hk => ?_, ih⟩
    obtain rfl | hk := List.mem_cons.1 hk
    · exact hmove
    · exact canMove_trans hmove ((List.pairwise_cons.1 ih).1 k hk)

theorem getLast? (h : Leads s passed e) : (s :: passed).getLast? = some e := by
  induction h with
  | stay => rfl
  | move _ _ ih => rwa [List.getLast?_cons_cons]

theorem number_lt (h : Leads s passed e) : (s :: passed).Pairwise (·.number < ·.number) :=
  h.pairwise.imp number_lt_of_canMove

/-- Only the last state on the way can be terminal. -/
theorem not_isTerminal (h : Leads s passed e) :
    ∀ k ∈ (s :: passed).dropLast, k.isTerminal = false := by
  have hpairwise := h.pairwise
  rw [← List.dropLast_concat_getLast (List.cons_ne_nil s passed), List.pairwise_append] at hpairwise
  intro k hk
  exact not_isTerminal_of_canMove (hpairwise.2.2 k hk _ (List.mem_singleton_self _))

theorem number_le (h : Leads s passed e) : s.number ≤ e.number := by
  induction h with
  | stay => exact Nat.le_refl _
  | move hmove _ ih => exact Nat.le_trans (Nat.le_of_lt (number_lt_of_canMove hmove)) ih

/-- A command is where it was exactly when it made no move. -/
theorem eq_iff (h : Leads s passed e) : e = s ↔ passed = [] := by
  cases h with
  | stay => exact ⟨fun _ => rfl, fun _ => rfl⟩
  | move hmove hrest =>
    refine ⟨?_, fun h => absurd h (List.cons_ne_nil _ _)⟩
    rintro rfl
    exact absurd hrest.number_le (Nat.not_le.2 (number_lt_of_canMove hmove))

theorem eq_of_isTerminal (h : Leads s passed e) (hended : s.isTerminal = true) : e = s := by
  cases h with
  | stay => rfl
  | move hmove _ =>
    rw [not_isTerminal_of_canMove hmove] at hended
    exact absurd hended Bool.false_ne_true

end Leads

end CommandState

open CommandState (Leads)

namespace Progress

variable (now : Timestamp) (p : Progress)

theorem moveTo?_eq_some {p q : Progress} {target : CommandState} :
    p.moveTo? target = some q ↔
      p.state.canMove target = true ∧ { p with state := target } = q := by
  rw [moveTo?, Option.ite_none_right_eq_some, Option.some.injEq]

/-! ## The states that an operation announces -/

theorem leads_settle : Leads p.state (p.settle now).2 (p.settle now).1.state := by
  unfold settle
  split
  · split
    · rename_i q hq
      obtain ⟨hmove, rfl⟩ := moveTo?_eq_some.1 hq
      exact .single hmove
    · exact .stay _
  · exact .stay _

theorem leads_startScrolling :
    Leads p.state (p.startScrolling now).2 (p.startScrolling now).1.state := by
  unfold startScrolling
  split
  · rename_i q hq
    obtain ⟨hmove, rfl⟩ := moveTo?_eq_some.1 hq
    exact .single hmove
  · exact .stay _

/-- A scroll that ends may move a command twice: on from scrolling, and then to its end. -/
theorem leads_endScroll : Leads p.state (p.endScroll now).2 (p.endScroll now).1.state := by
  unfold endScroll
  split
  · rename_i q hq
    obtain ⟨hmove, rfl⟩ := moveTo?_eq_some.1 hq
    exact (Leads.single hmove).trans (leads_settle now { p with state := .running })
  · exact leads_settle now p

/-- The states that a report makes a command move to, in order. -/
def announced (p : Progress) (now : Timestamp) : Report → List CommandState
  | .startScrolling => (p.startScrolling now).2
  | .markSubmitted => (p.markSubmitted now).2
  | .failScroll message => (p.failScroll now message).2
  | .recordBatch processed errors => (p.recordBatch now processed errors).2
  | .abort => if (p.abort? now none).isSome then [.aborted] else []
  | .abortWithError message => if (p.abort? now (some message)).isSome then [.aborted] else []
  | .addScrolled _ | .completeBucket _ => []

/-- What a report announces is the way from the state before it to the state after it. -/
theorem leads_heed (r : Report) : Leads p.state (p.announced now r) (p.heed now r).state := by
  have aborted (message : Option String) :
      Leads p.state (if (p.abort? now message).isSome then [.aborted] else [])
        ((p.abort? now message).getD p).state := by
    rw [abort?_eq]
    cases hended : p.state.isTerminal with
    | true => exact .stay _
    | false =>
      refine .single ?_
      rw [CommandState.canMove_of_isTerminal rfl, hended]
      rfl
  cases r with
  | startScrolling => exact leads_startScrolling now p
  | addScrolled n => exact .stay _
  | markSubmitted =>
    exact leads_endScroll now { p with scrollEndedAt := some now, submitted := true }
  | failScroll message =>
    exact leads_endScroll now
      { p with scrollEndedAt := some now, errorMessage := some message, scrollFailed := true }
  | recordBatch n e =>
    exact leads_settle now { p with
      startedAt := p.startedAt.or (some now)
      errorCount := (p.errorCount + e) % wordCount
      processed := min (min (p.processed + n) wordMax) p.scrollCount }
  | completeBucket k =>
    obtain ⟨done, hq⟩ := p.completeBucket_frame k
    rw [heed, hq]
    exact .stay _
  | abort => exact aborted none
  | abortWithError message => exact aborted (some message)

end Progress

end BulkRun
