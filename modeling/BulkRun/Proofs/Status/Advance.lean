import BulkRun.Proofs.Status.Live
/-!
# What becomes of commands as long as none is accepted

Reports about commands and dropping commands only ever move them on: a command that is found
afterwards was there before, and some reports made of it what it is now (`Advances`).  So a state
that a command cannot leave, and a bucket that is done, stay as they are until the command is gone.
-/

namespace BulkRun

open Tracker (Report)

/-- The number of records that a report tells to be worked on. -/
def Tracker.Report.recorded : Report → Nat
  | .recordBatch processed _ => processed
  | _ => 0

namespace Progress

variable {p : Progress}

theorem settle_of_isTerminal (now : Timestamp) (h : p.state.isTerminal = true) :
    (p.settle now).1 = p := by
  rw [settle_fst, h, Bool.not_true, Bool.and_false, if_neg Bool.false_ne_true]

theorem endScroll_of_isTerminal (now : Timestamp) (h : p.state.isTerminal = true) :
    (p.endScroll now).1 = p := by
  have hscrolling : p.state.isScrolling = false := by
    cases hs : p.state.isScrolling with
    | false => rfl
    | true =>
      rw [CommandState.not_isTerminal_of_isScrolling hs] at h
      exact absurd h Bool.false_ne_true
  rw [endScroll_fst, hscrolling, if_neg Bool.false_ne_true, settle_of_isTerminal now h]

/-- No report moves a command that has ended. -/
theorem heed_state_of_isTerminal (h : p.state.isTerminal = true) (now : Timestamp) (r : Report) :
    (p.heed now r).state = p.state := by
  cases r with
  | startScrolling =>
    rw [heed, startScrolling_fst]
    split
    · rename_i hs
      rw [eq_of_beq hs] at h
      exact absurd h (by decide)
    · rfl
  | addScrolled n => rfl
  | markSubmitted => rw [heed, markSubmitted, endScroll_of_isTerminal now (by exact h)]
  | failScroll message => rw [heed, failScroll, endScroll_of_isTerminal now (by exact h)]
  | recordBatch n e => rw [heed, recordBatch, settle_of_isTerminal now (by exact h)]
  | completeBucket k =>
    obtain ⟨done, hq⟩ := p.completeBucket_frame k
    rw [heed, hq]
  | abort => rw [heed, abort?_eq, if_pos h, Option.getD_none]
  | abortWithError message => rw [heed, abort?_eq, if_pos h, Option.getD_none]

/-- An abort leaves everything but the state, the message and the time of the end. -/
theorem heed_abort_frame (now : Timestamp) {r : Report} (hr : r.isAbort = true) :
    ∃ s m at', p.heed now r = { p with state := s, errorMessage := m, completedAt := at' } := by
  have aborted (message : Option String) : ∃ s m at', (p.abort? now message).getD p =
      { p with state := s, errorMessage := m, completedAt := at' } := by
    rw [abort?_eq]
    split
    · exact ⟨p.state, p.errorMessage, p.completedAt, rfl⟩
    · exact ⟨_, _, _, rfl⟩
  cases r with
  | abort => exact aborted none
  | abortWithError message => exact aborted (some message)
  | _ => exact absurd hr Bool.false_ne_true

/-- Nothing is reported that changes a command itself. -/
@[simp]
theorem heed_command (p : Progress) (now : Timestamp) (r : Report) :
    (p.heed now r).command = p.command := by
  have hframe (hr : r.isAbort = true) : (p.heed now r).command = p.command := by
    obtain ⟨s, m, at', hq⟩ := heed_abort_frame (p := p) now hr
    rw [hq]
  cases r with
  | startScrolling => exact startScrolling_command now p
  | addScrolled n => rfl
  | markSubmitted => exact markSubmitted_command now p
  | failScroll message => exact failScroll_command now p message
  | recordBatch n e => exact recordBatch_command now p n e
  | completeBucket k => exact completeBucket_command p k
  | abort => exact hframe rfl
  | abortWithError message => exact hframe rfl

@[simp]
theorem heedAll_command (p : Progress) (reports : List (Timestamp × Report)) :
    (p.heedAll reports).command = p.command := by
  induction reports generalizing p with
  | nil => rfl
  | cons r reports ih => exact (ih _).trans (p.heed_command r.1 r.2)

/-- Which buckets are done after a report. -/
theorem completedBuckets_heed (now : Timestamp) {r : Report} (hr : ∀ k, r ≠ .completeBucket k) :
    (p.heed now r).completedBuckets = p.completedBuckets := by
  cases r with
  | startScrolling =>
    obtain ⟨s, at', hq⟩ := p.startScrolling_frame now
    rw [heed, hq]
  | addScrolled n => rfl
  | markSubmitted => exact endScroll_completedBuckets now _
  | failScroll message => exact endScroll_completedBuckets now _
  | recordBatch n e => exact settle_completedBuckets now _
  | completeBucket k => exact absurd rfl (hr k)
  | abort =>
    obtain ⟨s, m, at', hq⟩ := heed_abort_frame (p := p) now (r := .abort) rfl
    rw [hq]
  | abortWithError message =>
    obtain ⟨s, m, at', hq⟩ := heed_abort_frame (p := p) now (r := .abortWithError message) rfl
    rw [hq]

/-- A bucket that is done stays done. -/
theorem isBucketDone_heed {k : Nat} (h : p.isBucketDone k = true) (now : Timestamp) (r : Report) :
    (p.heed now r).isBucketDone k = true := by
  by_cases hr : ∀ k, r ≠ .completeBucket k
  · rw [isBucketDone, completedBuckets_heed now hr]
    exact h
  · obtain ⟨j, rfl⟩ : ∃ j, r = .completeBucket j := by
      cases r with
      | completeBucket j => exact ⟨j, rfl⟩
      | _ => exact absurd (fun _ => by simp) hr
    rw [heed, isBucketDone_completeBucket, h, Bool.true_or]

/-- A report counts no more records as worked on than it tells of. -/
theorem processed_heed_le (p : Progress) (now : Timestamp) (r : Report) :
    (p.heed now r).processed ≤ p.processed + r.recorded := by
  have hframe (hr : r.isAbort = true) : (p.heed now r).processed = p.processed := by
    obtain ⟨s, m, at', hq⟩ := heed_abort_frame (p := p) now hr
    rw [hq]
  cases r with
  | startScrolling =>
    obtain ⟨s, at', hq⟩ := p.startScrolling_frame now
    rw [heed, hq]
    exact Nat.le_add_right _ _
  | addScrolled n => exact Nat.le_refl _
  | markSubmitted => simp [heed, markSubmitted]
  | failScroll message => simp [heed, failScroll]
  | recordBatch n e =>
    simp only [heed, recordBatch, settle_processed, Report.recorded]
    omega
  | completeBucket k =>
    obtain ⟨done, hq⟩ := p.completeBucket_frame k
    rw [heed, hq]
    exact Nat.le_add_right _ _
  | abort =>
    rw [hframe rfl]
    exact Nat.le_add_right _ _
  | abortWithError message =>
    rw [hframe rfl]
    exact Nat.le_add_right _ _

theorem processed_heedAll_le {reports : List (Timestamp × Report)}
    (h : ∀ r ∈ reports, r.2.recorded = 0) : (p.heedAll reports).processed ≤ p.processed := by
  induction reports generalizing p with
  | nil => exact Nat.le_refl _
  | cons r reports ih =>
    obtain ⟨hr, hrest⟩ := List.forall_mem_cons.1 h
    have hfirst := p.processed_heed_le r.1 r.2
    rw [hr] at hfirst
    exact Nat.le_trans (ih hrest) hfirst

/-- Whether a bucket gets no more work: the command has ended or the bucket is done. -/
def Shuts (p : Progress) (k : Nat) : Prop := p.state.isTerminal = true ∨ p.isBucketDone k = true

theorem Shuts.heedAll {k : Nat} (h : p.Shuts k) (reports : List (Timestamp × Report)) :
    (p.heedAll reports).Shuts k := by
  induction reports generalizing p with
  | nil => exact h
  | cons r reports ih =>
    apply ih
    obtain h | h := h
    · exact .inl (p.heed_isTerminal r.1 h r.2)
    · exact .inr (isBucketDone_heed h r.1 r.2)

/-- A command that has ended keeps the state in which it ended. -/
theorem heedAll_state_of_isTerminal (h : p.state.isTerminal = true)
    (reports : List (Timestamp × Report)) : (p.heedAll reports).state = p.state := by
  induction reports generalizing p with
  | nil => rfl
  | cons r reports ih =>
    have hstate := heed_state_of_isTerminal h r.1 r.2
    refine (ih ?_).trans hstate
    rw [hstate]
    exact h

end Progress

namespace Tracker

variable {t u v : Tracker} {now : Timestamp} {id : CommandId} {k : Nat} {p q : Progress}
  {r : Report}

/-- Whether a tracker may come of another without any command being accepted. -/
structure Advances (t u : Tracker) : Prop where
  found : ∀ {id : CommandId} {q : Progress}, u.find? id = some q →
    ∃ p reports, t.find? id = some p ∧ q = p.heedAll reports
  distinct : t.Distinct → u.Distinct

namespace Advances

theorem refl (t : Tracker) : Advances t t := ⟨fun h => ⟨_, [], h, rfl⟩, fun hd => hd⟩

theorem trans (h : Advances t u) (h' : Advances u v) : Advances t v where
  found hq := by
    obtain ⟨p, later, hp, rfl⟩ := h'.found hq
    obtain ⟨o, earlier, ho, rfl⟩ := h.found hp
    exact ⟨o, earlier ++ later, ho, (o.heedAll_append earlier later).symm⟩
  distinct hd := h'.distinct (h.distinct hd)

/-- A command stays what it was. -/
theorem known {k : Command} (h : Advances t u) (ht : ∀ p, t.find? id = some p → p.command = k)
    {q : Progress} (hq : u.find? id = some q) : q.command = k := by
  obtain ⟨p, reports, hp, rfl⟩ := h.found hq
  rw [p.heedAll_command]
  exact ht p hp

/-- A command that is gone stays gone. -/
theorem find?_none (h : Advances t u) (hgone : t.find? id = none) : u.find? id = none := by
  cases hu : u.find? id with
  | none => rfl
  | some q =>
    obtain ⟨p, -, hp, -⟩ := h.found hu
    rw [hgone] at hp
    exact absurd hp (by simp)

end Advances

theorem Heeds.advances (h : Heeds t now id r p u) : Advances t u where
  found {k q} hq := by
    by_cases hk : k = id
    · subst hk
      refine ⟨p, [(now, r)], h.before, ?_⟩
      exact (Option.some.inj (h.find?_self.symm.trans hq)).symm
    · rw [h.find?_other hk] at hq
      exact ⟨q, [], hq, rfl⟩
  distinct := h.distinct

theorem Drops.advances (h : Drops t u) : Advances t u :=
  ⟨fun hq => ⟨_, [], h.find? hq, rfl⟩, h.distinct⟩

theorem advances_answer (h : t.answer now id r = .ok u) : Advances t u := by
  obtain ⟨-, err, he⟩ | ⟨p, v, hv, hok⟩ := answer_cases t now id r
  · rw [h] at he
    exact absurd he (by simp)
  · obtain rfl := Except.ok.inj (h.symm.trans hok)
    exact hv.advances

/-- Whether at most so many records more of a command count as worked on, and the command is aborted
if it was before. -/
def Raises (id : CommandId) (n : Nat) (t u : Tracker) : Prop :=
  ∀ q, u.find? id = some q → ∃ p, t.find? id = some p ∧ q.processed ≤ p.processed + n ∧
    (p.state = .aborted → q.state = .aborted)

theorem Raises.refl (id : CommandId) (t : Tracker) : Raises id 0 t t :=
  fun q hq => ⟨q, hq, Nat.le_refl _, fun h => h⟩

theorem Raises.trans {n m : Nat} (h : Raises id n t u) (h' : Raises id m u v) :
    Raises id (n + m) t v := by
  intro q hq
  obtain ⟨p, hp, hle, hstate⟩ := h' q hq
  obtain ⟨o, ho, hle', hstate'⟩ := h p hp
  exact ⟨o, ho, by omega, fun haborted => hstate (hstate' haborted)⟩

theorem raises_of_same_or_gone (h : u.find? id = t.find? id ∨ u.find? id = none) :
    Raises id 0 t u := by
  intro q hq
  obtain h | h := h
  · exact ⟨q, h ▸ hq, Nat.le_refl _, fun h => h⟩
  · rw [h] at hq
    exact absurd hq (by simp)

theorem Heeds.raises (h : Heeds t now id r p u) (k : CommandId) :
    Raises k (if k = id then r.recorded else 0) t u := by
  split
  · rename_i hk
    subst hk
    intro q hq
    obtain rfl := Option.some.inj (h.find?_self.symm.trans hq)
    refine ⟨p, h.before, p.processed_heed_le now r, fun haborted => ?_⟩
    rw [Progress.heed_state_of_isTerminal (by rw [haborted]; rfl), haborted]
  · rename_i hk
    exact raises_of_same_or_gone (.inl (h.find?_other hk))

/-- A report that tells of no records raises nothing. -/
theorem Heeds.raises_zero (h : Heeds t now id r p u) (hr : r.recorded = 0) (k : CommandId) :
    Raises k 0 t u := by
  have hraises := h.raises k
  rw [hr, ite_self] at hraises
  exact hraises

/-- Whether a bucket gets no more work, as far as the tracker knows. -/
def Shut (t : Tracker) (id : CommandId) (k : Nat) : Prop := ∀ p, t.find? id = some p → p.Shuts k

theorem shut_of_gone (h : t.find? id = none) : t.Shut id k := by
  intro p hp
  rw [h] at hp
  exact absurd hp (by simp)

/-- A bucket that gets no more work gets none as long as its command is not accepted again. -/
theorem Shut.advance (h : t.Shut id k) (hadvances : Advances t u) : u.Shut id k := by
  intro q hq
  obtain ⟨p, reports, hp, rfl⟩ := hadvances.found hq
  exact (h p hp).heedAll reports

end Tracker

end BulkRun
