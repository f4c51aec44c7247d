import BulkRun.Proofs.Status.Calls
import Mathlib.Data.List.Induction
/-!
# Completion

Whether a command is complete is never told; it is found out after each of three reports, which may
come in any order.  `Consistent` is what holds of the progress of a command after any reports, and
`Follows` is what one report may do.  Main statement: after any history no more records count as
worked on than were scrolled, a command whose scroll is over and whose records were all worked on
has ended, and a command ends in no other way but by an abort.
-/

namespace BulkRun

open Tracker (Report Call reportsOn scrolledIn)

namespace Progress

/-- No more records were worked on than were scrolled, and nothing that is drained goes on. -/
structure Consistent (p : Progress) : Prop where
  processed_le : p.processed ≤ p.scrollCount
  ended : p.scrollIsOver = true → p.processed = p.scrollCount → p.state.isTerminal = true

/-- One move of a command that nobody aborts: it stays where it is, goes on, or is drained and ends
in the state that its failures call for. -/
def MovesBySettling (p q : Progress) : Prop :=
  q.state = p.state ∨ q.state.isTerminal = false ∨ q.isDrained = true ∧ q.state = q.finalState

/-- What a report may do to the progress of a command. -/
structure Follows (p q : Progress) (r : Report) : Prop where
  processed_le : p.processed ≤ q.processed
  scrollCount_eq : q.scrollCount = p.scrollCount + r.scrolled
  moves : r.isAbort = false → p.MovesBySettling q
  aborts : r.isAbort = true → q.state = p.state ∨ q.state = .aborted

theorem consistent_new (c : Command) (now : Timestamp) : (Progress.new c now).Consistent where
  processed_le := Nat.le_refl 0
  ended h := absurd h (by simp [Progress.new, scrollIsOver])

/-! ## One operation -/

section Operation

variable (now : Timestamp) {p : Progress}

/-- Whatever is settled and drained has ended, so only the counts have to be right. -/
theorem consistent_settle (h : p.processed ≤ p.scrollCount) : (p.settle now).1.Consistent := by
  obtain ⟨s, at', hq⟩ := settle_frame now p
  constructor
  · rw [hq]
    exact h
  · intro hover heq
    rw [hq] at hover heq
    refine p.settle_isTerminal now (p.isDrained_iff.2 ⟨hover, ?_⟩)
    exact Nat.le_of_eq heq.symm

theorem movesBySettling_settle : p.MovesBySettling (p.settle now).1 := by
  obtain ⟨s, at', hq⟩ := settle_frame now p
  obtain h | ⟨hd, -, h⟩ := p.settle_state now
  · exact .inl h
  · refine .inr (.inr ⟨?_, ?_⟩)
    · rw [hq]
      exact hd
    · rw [h, hq]
      rfl

theorem consistent_endScroll (h : p.processed ≤ p.scrollCount) :
    (p.endScroll now).1.Consistent := by
  rw [endScroll_fst]
  split
  · exact consistent_settle now h
  · exact consistent_settle now h

/-- The scroll of a command that goes on to run was over no earlier, so only `settle` may end it. -/
theorem movesBySettling_endScroll : p.MovesBySettling (p.endScroll now).1 := by
  rw [endScroll_fst]
  split
  · -- what is settled is the command as it runs, not as it was scrolled
    obtain h | h | h := movesBySettling_settle now (p := { p with state := .running })
    · exact .inr (.inl (by rw [h]; rfl))
    · exact .inr (.inl h)
    · exact .inr (.inr h)
  · exact movesBySettling_settle now

/-- The number of records worked on stays within what was scrolled, and it never falls. -/
theorem processed_bounds (h : p.processed ≤ p.scrollCount) (hfit : p.scrollCount < wordCount)
    (n : Nat) :
    p.processed ≤ min (min (p.processed + n) wordMax) p.scrollCount ∧
      min (min (p.processed + n) wordMax) p.scrollCount ≤ p.scrollCount := by
  have : p.processed ≤ wordMax := by unfold wordMax; omega
  omega

theorem consistent_addScrolled (h : p.Consistent) {n : Nat} (hfit : p.scrollCount + n < wordCount) :
    (p.addScrolled n).Consistent := by
  have hle := h.processed_le
  constructor
  · simp only [addScrolled, Nat.mod_eq_of_lt hfit]
    omega
  · intro hover heq
    simp only [addScrolled, Nat.mod_eq_of_lt hfit] at heq
    exact h.ended hover (by omega)

theorem consistent_of_frame {q : Progress} (h : p.Consistent)
    (hcounts : q.processed = p.processed ∧ q.scrollCount = p.scrollCount)
    (hover : q.scrollIsOver = p.scrollIsOver)
    (hstate : p.state.isTerminal = true → q.state.isTerminal = true) : q.Consistent where
  processed_le := by
    rw [hcounts.1, hcounts.2]
    exact h.processed_le
  ended ho heq := by
    rw [hover] at ho
    rw [hcounts.1, hcounts.2] at heq
    exact hstate (h.ended ho heq)

theorem consistent_abort (h : p.Consistent) (message : Option String) :
    ((p.abort? now message).getD p).Consistent := by
  rw [abort?_eq]
  split
  · exact h
  · exact consistent_of_frame h ⟨rfl, rfl⟩ rfl fun _ => rfl

theorem consistent_startScrolling (h : p.Consistent) : (p.startScrolling now).1.Consistent := by
  rw [startScrolling_fst]
  split
  · rename_i hs
    refine consistent_of_frame h ⟨rfl, rfl⟩ rfl ?_
    intro ht
    rw [eq_of_beq hs] at ht
    exact absurd ht (by decide)
  · exact h

theorem consistent_completeBucket (h : p.Consistent) (k : Nat) :
    (p.completeBucket k).Consistent := by
  unfold completeBucket
  split
  · exact h
  · exact consistent_of_frame h ⟨rfl, rfl⟩ rfl fun ht => ht

theorem follows_abort (p : Progress) {message : Option String} {r : Report}
    (hr : r.isAbort = true) (hs : r.scrolled = 0) :
    p.Follows ((p.abort? now message).getD p) r := by
  rw [abort?_eq]
  split
  · exact ⟨Nat.le_refl _, by rw [hs]; rfl, fun h => by simp [hr] at h, fun _ => .inl rfl⟩
  · exact ⟨Nat.le_refl _, by rw [hs]; rfl, fun h => by simp [hr] at h, fun _ => .inr rfl⟩

end Operation

/-! ## One report -/

/-- A report about a consistent command leaves it consistent and does to it only what it may. -/
theorem Consistent.heed {p : Progress} (h : p.Consistent) (now : Timestamp) (r : Report)
    (hfit : p.scrollCount + r.scrolled < wordCount) :
    (p.heed now r).Consistent ∧ p.Follows (p.heed now r) r := by
  have hle := h.processed_le
  cases r with
  | startScrolling =>
    refine ⟨consistent_startScrolling now h, ?_⟩
    simp only [Progress.heed, startScrolling_fst]
    split
    · exact ⟨Nat.le_refl _, rfl, fun _ => .inr (.inl rfl), nofun⟩
    · exact ⟨Nat.le_refl _, rfl, fun _ => .inl rfl, nofun⟩
  | addScrolled n =>
    refine ⟨consistent_addScrolled h hfit, Nat.le_refl _, ?_, fun _ => .inl rfl, nofun⟩
    exact Nat.mod_eq_of_lt hfit
  | markSubmitted =>
    refine ⟨consistent_endScroll now hle, ?_, ?_, fun _ => movesBySettling_endScroll now, nofun⟩
    · simp [Progress.heed, markSubmitted]
    · simp [Progress.heed, markSubmitted, Report.scrolled]
  | failScroll message =>
    refine ⟨consistent_endScroll now hle, ?_, ?_, fun _ => movesBySettling_endScroll now, nofun⟩
    · simp [Progress.heed, failScroll]
    · simp [Progress.heed, failScroll, Report.scrolled]
  | recordBatch n e =>
    obtain ⟨hmono, hwithin⟩ := processed_bounds hle (by omega) n
    refine ⟨consistent_settle now hwithin, ?_, ?_, fun _ => movesBySettling_settle now, nofun⟩
    · simpa only [Progress.heed, recordBatch, settle_processed] using hmono
    · simp [Progress.heed, recordBatch, Report.scrolled]
  | completeBucket k =>
    refine ⟨consistent_completeBucket h k, ?_⟩
    simp only [Progress.heed, completeBucket]
    split
    · exact ⟨Nat.le_refl _, rfl, fun _ => .inl rfl, nofun⟩
    · exact ⟨Nat.le_refl _, rfl, fun _ => .inl rfl, nofun⟩
  | abort => exact ⟨consistent_abort now h none, follows_abort now p rfl rfl⟩
  | abortWithError message =>
    exact ⟨consistent_abort now h (some message), follows_abort now p rfl rfl⟩

/-- A history that scrolls fewer than `2 ^ 64` records leaves the command consistent, with as many
records counted as were scrolled. -/
theorem consistent_heedAll (c : Command) (now : Timestamp)
    (reports : List (Timestamp × Report)) (hfit : scrolledIn reports < wordCount) :
    ((Progress.new c now).heedAll reports).Consistent ∧
      ((Progress.new c now).heedAll reports).scrollCount = scrolledIn reports := by
  -- the last report comes on top of what the earlier ones left
  induction reports using List.reverseRecOn with
  | nil => exact ⟨consistent_new c now, rfl⟩
  | append_singleton earlier r ih =>
    have hsum : scrolledIn (earlier ++ [r]) = scrolledIn earlier + r.2.scrolled := by
      simp [scrolledIn]
    obtain ⟨hcons, hcount⟩ := ih (by omega)
    obtain ⟨hcons', hfollows⟩ := hcons.heed r.1 r.2 (by omega)
    rw [heedAll_concat]
    refine ⟨hcons', ?_⟩
    rw [hfollows.scrollCount_eq, hcount, hsum]

/-! ## What the end of a command says -/

/-- A command that nobody aborted and that reads as completed has drained a scroll that ended. -/
theorem MovesBySettling.of_completed {p q : Progress} (h : p.MovesBySettling q)
    (hq : q.processed ≤ q.scrollCount) (hmoved : q.state ≠ p.state)
    (hend : q.state = .completed ∨ q.state = .completedWithErrors) :
    q.submitted = true ∧ q.scrollFailed = false ∧ q.processed = q.scrollCount ∧
      (q.state = .completedWithErrors ↔ 0 < q.errorCount) := by
  obtain h | h | ⟨hd, hs⟩ := h
  · exact absurd h hmoved
  · obtain hend | hend := hend <;> exact absurd h (by rw [hend]; decide)
  · obtain ⟨hover, hle⟩ := q.isDrained_iff.1 hd
    have hfailed : q.scrollFailed = false := by
      cases hf : q.scrollFailed
      · rfl
      · rw [hs, finalState, if_pos hf] at hend
        exact absurd hend (by decide)
    have hsubmitted : q.submitted = true := by
      simpa [scrollIsOver, hfailed] using hover
    refine ⟨hsubmitted, hfailed, Nat.le_antisymm hq hle, ?_⟩
    rw [hs, finalState, if_neg (by simp [hfailed])]
    split
    · simp_all
    · simp_all

/-- A command that nobody aborted and that reads as aborted has drained a scroll that broke off. -/
theorem MovesBySettling.of_aborted {p q : Progress} (h : p.MovesBySettling q)
    (hq : q.processed ≤ q.scrollCount) (hmoved : q.state ≠ p.state) (hend : q.state = .aborted) :
    q.scrollFailed = true ∧ q.processed = q.scrollCount := by
  obtain h | h | ⟨hd, hs⟩ := h
  · exact absurd h hmoved
  · exact absurd h (by rw [hend]; decide)
  · obtain ⟨-, hle⟩ := q.isDrained_iff.1 hd
    refine ⟨?_, Nat.le_antisymm hq hle⟩
    rw [hs, finalState] at hend
    split at hend
    · assumption
    · split at hend <;> exact absurd hend (by decide)

end Progress

namespace Tracker

/-- A registered command is found after any history, as the reports about it leave it. -/
theorem find?_run_register {t₀ t : Tracker} {now : Timestamp} {c : Command}
    (hreg : t₀.register now c = .ok t) (calls : List Call) :
    (t.run calls).find? c.id = some ((Progress.new c now).heedAll (reportsOn c.id calls)) := by
  rw [find?_run, (register_eq_ok hreg).2 c.id, if_pos rfl]
  rfl

/-- A command with nothing set. -/
def archiveAll : Command := ⟨⟨"archive", "all", none, none, none, 0, 0, none, false, []⟩, ⟨7⟩⟩

/-- Completion is found out soundly and is never missed, whatever is called, in whatever order.  The
counters never fall, and no more records count as worked on than were scrolled.  A command whose
scroll is over and whose records were all worked on has ended.  A call that completes a command
finds it submitted, not failed and drained; one that aborts it without being an abort finds its
scroll failed and drained. -/
theorem completion_sound {t₀ t : Tracker} {now : Timestamp} {c : Command}
    (hreg : t₀.register now c = .ok t) (earlier : List Call) (last : Call)
    (hfit : scrolledIn (reportsOn c.id (earlier ++ [last])) < wordCount) :
    ∃ p q,
      (t.run earlier).find? c.id = some p ∧
      (t.run (earlier ++ [last])).find? c.id = some q ∧
      (p.processed ≤ p.scrollCount ∧ q.processed ≤ q.scrollCount ∧
        p.processed ≤ q.processed ∧ p.scrollCount ≤ q.scrollCount) ∧
      ((p.submitted || p.scrollFailed) = true → p.processed = p.scrollCount →
        p.state.isTerminal = true) ∧
      ((q.submitted || q.scrollFailed) = true → q.processed = q.scrollCount →
        q.state.isTerminal = true) ∧
      (q.state ≠ p.state → q.state = .completed ∨ q.state = .completedWithErrors →
        q.submitted = true ∧ q.scrollFailed = false ∧ q.processed = q.scrollCount ∧
          (q.state = .completedWithErrors ↔ 0 < q.errorCount)) ∧
      (q.state ≠ p.state → q.state = .aborted → last.report.isAbort = false →
        q.scrollFailed = true ∧ q.processed = q.scrollCount) := by
  have hsplit := hfit
  rw [reportsOn_append, scrolledIn_append] at hsplit
  obtain ⟨hp, hcount⟩ := Progress.consistent_heedAll c now (reportsOn c.id earlier) (by omega)
  refine ⟨_, _, find?_run_register hreg earlier, find?_run_register hreg (earlier ++ [last]), ?_⟩
  by_cases hid : last.id = c.id
  · -- the last call is about this command
    have hlast : reportsOn c.id [last] = [(last.now, last.report)] := by
      rw [← hid]
      exact reportsOn_cons_self last []
    have hsum : scrolledIn [(last.now, last.report)] = last.report.scrolled := by
      simp [scrolledIn]
    rw [hlast, hsum] at hsplit
    obtain ⟨hq, hstep⟩ := hp.heed last.now last.report (by omega)
    rw [reportsOn_append, hlast, Progress.heedAll_concat]
    -- what a call scrolls is added to the count
    have hgrows := Nat.le.intro hstep.scrollCount_eq.symm
    refine ⟨⟨hp.processed_le, hq.processed_le, hstep.processed_le, hgrows⟩, hp.ended, hq.ended,
      ?_, ?_⟩
    · intro hmoved hend
      cases hr : last.report.isAbort with
      | false => exact (hstep.moves hr).of_completed hq.processed_le hmoved hend
      | true =>
        -- an abort completes nothing
        obtain h | h := hstep.aborts hr
        · exact absurd h hmoved
        · rw [h] at hend
          exact absurd hend (by decide)
    · intro hmoved hend hr
      exact (hstep.moves hr).of_aborted hq.processed_le hmoved hend
  · -- a call about another command changes nothing here
    rw [reportsOn_append, reportsOn_cons_other hid, show reportsOn c.id [] = [] from rfl,
      List.append_nil]
    exact ⟨⟨hp.processed_le, hp.processed_le, Nat.le_refl _, Nat.le_refl _⟩, hp.ended, hp.ended,
      fun h => absurd rfl h, fun h => absurd rfl h⟩

/-- Three records, all worked on while they are scrolled. -/
def workedOff : List Call :=
  [⟨⟨1, 0⟩, archiveAll.id, .startScrolling⟩, ⟨⟨2, 0⟩, archiveAll.id, .addScrolled 3⟩,
    ⟨⟨3, 0⟩, archiveAll.id, .recordBatch 2 1⟩, ⟨⟨4, 0⟩, archiveAll.id, .recordBatch 1 0⟩]

/-- The end of the scroll. -/
def scrollEnd : Call := ⟨⟨5, 0⟩, archiveAll.id, .markSubmitted⟩

/-- Three records, all worked on before the scroll ends and one of them in vain: the end of the
scroll completes the command. -/
theorem completion_sound_submitted_last :
    ∃ t, (new 8 60).register ⟨0, 0⟩ archiveAll = .ok t ∧
      scrolledIn (reportsOn archiveAll.id (workedOff ++ [scrollEnd])) < wordCount ∧
      ∃ p q, (t.run workedOff).find? archiveAll.id = some p ∧
        (t.run (workedOff ++ [scrollEnd])).find? archiveAll.id = some q ∧
        p.state = .scrollingRunning ∧ q.state = .completedWithErrors ∧
        q.submitted = true ∧ q.scrollFailed = false ∧ q.processed = q.scrollCount ∧
        (q.state = .completedWithErrors ↔ 0 < q.errorCount) := by
  obtain ⟨p, q, hp, hq, -, -, -, hend, -⟩ :=
    @completion_sound (new 8 60) _ ⟨0, 0⟩ archiveAll rfl workedOff scrollEnd (by decide)
  have hpstate : p.state = .scrollingRunning := by
    rw [← Option.some.inj hp]
    rfl
  have hqstate : q.state = .completedWithErrors := by
    rw [← Option.some.inj hq]
    rfl
  refine ⟨_, rfl, by decide, p, q, hp, hq, hpstate, hqstate, hend ?_ (.inr hqstate)⟩
  rw [hpstate, hqstate]
  decide

end Tracker

end BulkRun
