import BulkRun.Proofs.Status.Completion
import Mathlib.Data.List.Basic
/-!
# The order of reports

Workers report while the scroll still goes on, so the reports on a command come in any order that
has each record scrolled before its outcome is told.  `Tally` says what such a history has counted
so far; no order enters into it.  Main statement: every order of the same reports ends the command
in the same status, with every report counted in full, and the last of them is what ends it.
-/

namespace BulkRun

open Tracker (Report Call reportsOn)

namespace Tracker

namespace Report

/-- The number of records whose outcome a report tells. -/
def reported : Report → Nat
  | .recordBatch processed _ => processed
  | _ => 0

/-- The number of records that a report says failed. -/
def failed : Report → Nat
  | .recordBatch _ errors => errors
  | _ => 0

/-- Whether a report has no part in the counts. -/
def isNeutral : Report → Bool
  | .startScrolling | .completeBucket _ => true
  | _ => false

/-- Whether a report is one of those that a scroll and its workers make when all goes well. -/
def Regular : Report → Prop
  | .addScrolled _ | .markSubmitted => True
  | .recordBatch processed errors => 1 ≤ processed ∧ errors ≤ processed
  | r => r.isNeutral = true

end Report

/-- The number of records scrolled. -/
def scrolledOf (reports : List Report) : Nat := (reports.map Report.scrolled).sum

/-- The number of records with a reported outcome. -/
def reportedOf (reports : List Report) : Nat := (reports.map Report.reported).sum

/-- The number of records that failed. -/
def failedOf (reports : List Report) : Nat := (reports.map Report.failed).sum

/-- Reports on a scroll and on the work it makes, in an order in which they can come: the scroll is
submitted once and nothing is scrolled after that, no outcome is told before its record is scrolled,
and in the end every record has its outcome. -/
structure Converging (reports : List Report) : Prop where
  regular : ∀ r ∈ reports, r.Regular
  submission : ∃ earlier later, reports = earlier ++ .markSubmitted :: later ∧
    .markSubmitted ∉ earlier ∧ .markSubmitted ∉ later ∧ ∀ n, .addScrolled n ∉ later
  covered : ∀ n, reportedOf (reports.take n) ≤ scrolledOf (reports.take n)
  exhausted : reportedOf reports = scrolledOf reports
  fits : scrolledOf reports < wordCount

namespace Converging

variable {reports earlier later : List Report} {r : Report}

/-- Before anything is scrolled or the scroll is submitted, it was not submitted. -/
theorem not_submitted (h : Converging reports) (hsplit : reports = earlier ++ r :: later)
    (hr : r = .markSubmitted ∨ ∃ n, r = .addScrolled n) : .markSubmitted ∉ earlier := by
  intro hmem
  obtain ⟨a, b, hab⟩ := List.append_of_mem hmem
  obtain ⟨front, rear, hfront, hnot, hnot', hscrolls⟩ := h.submission
  -- the two splittings at the submission are one, for it is the only one
  have hrear : rear = b ++ r :: later := by
    have heq : front ++ .markSubmitted :: rear = a ++ .markSubmitted :: (b ++ r :: later) := by
      rw [← hfront, hsplit, hab, List.append_assoc, List.cons_append]
    exact ((List.append_cons_inj_of_notMem hnot hnot').1 heq).2.2
  have hlate : r ∈ rear := by
    rw [hrear]
    exact List.mem_append_right b List.mem_cons_self
  obtain rfl | ⟨n, rfl⟩ := hr
  · exact hnot' hlate
  · exact hscrolls n hlate

theorem covered_of_eq (h : Converging reports) (hsplit : reports = earlier ++ later) :
    reportedOf earlier ≤ scrolledOf earlier := by
  have := h.covered earlier.length
  rwa [hsplit, List.take_left' rfl] at this

theorem scrolledOf_le (hsplit : reports = earlier ++ later) :
    scrolledOf earlier ≤ scrolledOf reports := by
  rw [hsplit, scrolledOf, scrolledOf, List.map_append, List.sum_append]
  exact Nat.le_add_right _ _

/-- As long as a report is to come that counts, the scroll was not submitted or an outcome is
missing. -/
theorem unfinished (h : Converging reports) (hsplit : reports = earlier ++ later)
    (hr : r ∈ later) (hcounts : r.isNeutral = false) :
    ¬(.markSubmitted ∈ earlier ∧ reportedOf earlier = scrolledOf earlier) := by
  rintro ⟨hsubmitted, hdrained⟩
  -- after the submission nothing is scrolled and the scroll is not submitted again
  have hlate {r' : Report} (hr' : r' ∈ later) :
      ¬(r' = .markSubmitted ∨ ∃ n, r' = .addScrolled n) := by
    intro hkind
    obtain ⟨front, rear, rfl⟩ := List.append_of_mem hr'
    have hbefore : .markSubmitted ∈ earlier ++ front := List.mem_append_left front hsubmitted
    have heq : reports = (earlier ++ front) ++ r' :: rear := by
      rw [hsplit, List.append_assoc]
    exact h.not_submitted heq hkind hbefore
  have hscrolls : scrolledOf later = 0 := by
    rw [scrolledOf, List.sum_eq_zero_iff_forall_eq_nat]
    intro n hn
    obtain ⟨r', hr', rfl⟩ := List.mem_map.1 hn
    cases r' with
    | addScrolled n => exact absurd (.inr ⟨n, rfl⟩) (hlate hr')
    | _ => rfl
  -- what is to come and counts can only be an outcome, and it is of some record
  have hreports : reportedOf later ≠ 0 := by
    rw [reportedOf, Ne, List.sum_eq_zero_iff_forall_eq_nat]
    intro hzero
    have hr0 := hzero _ (List.mem_map_of_mem hr)
    have hregular := h.regular r (by rw [hsplit]; exact List.mem_append_right _ hr)
    cases r with
    | recordBatch n e => exact absurd hr0 (Nat.one_le_iff_ne_zero.1 hregular.1)
    | addScrolled n => exact hlate hr (.inr ⟨n, rfl⟩)
    | markSubmitted => exact hlate hr (.inl rfl)
    | _ => exact absurd (hregular.symm.trans hcounts) (by decide)
  -- so the outcome that is to come would have no record
  have htotal := h.exhausted
  rw [hsplit, reportedOf, scrolledOf, List.map_append, List.map_append, List.sum_append,
    List.sum_append] at htotal
  unfold reportedOf scrolledOf at *
  omega

end Converging

theorem scrolledOf_concat (reports : List Report) (r : Report) :
    scrolledOf (reports ++ [r]) = scrolledOf reports + r.scrolled := by
  simp [scrolledOf]

theorem reportedOf_concat (reports : List Report) (r : Report) :
    reportedOf (reports ++ [r]) = reportedOf reports + r.reported := by
  simp [reportedOf]

theorem failedOf_concat (reports : List Report) (r : Report) :
    failedOf (reports ++ [r]) = failedOf reports + r.failed := by
  simp [failedOf]

end Tracker

namespace Progress

open Tracker (scrolledOf reportedOf failedOf Converging scrolledOf_concat reportedOf_concat
  failedOf_concat)

/-- The progress of a command on which some reports came, all of them counted in full. -/
structure Tally (c : Command) (createdAt : Timestamp) (reports : List Report) (p : Progress) :
    Prop where
  command : p.command = c
  createdAt : p.createdAt = createdAt
  scrollCount : p.scrollCount = scrolledOf reports
  processed : p.processed = reportedOf reports
  errorCount : p.errorCount = failedOf reports
  submitted : p.submitted = true ↔ .markSubmitted ∈ reports
  scrollFailed : p.scrollFailed = false
  errorMessage : p.errorMessage = none
  errors_le : failedOf reports ≤ reportedOf reports
  /-- The command has ended exactly when it is submitted and drained. -/
  ended : p.state.isTerminal = true ↔ p.submitted = true ∧ p.processed = p.scrollCount
  final : p.state.isTerminal = true → p.state = p.finalState

variable {c : Command} {createdAt : Timestamp} {reports : List Report} {p : Progress}

theorem tally_new (c : Command) (now : Timestamp) : Tally c now [] (Progress.new c now) where
  command := rfl
  createdAt := rfl
  scrollCount := rfl
  processed := rfl
  errorCount := rfl
  submitted := by simp [Progress.new]
  scrollFailed := rfl
  errorMessage := rfl
  errors_le := Nat.le_refl 0
  ended := by simp [Progress.new, CommandState.initial, CommandState.isTerminal]
  final h := absurd h (by simp [Progress.new, CommandState.initial, CommandState.isTerminal])

/-- A command that goes on and is settled has ended exactly when it is submitted and drained. -/
theorem ended_settle (now : Timestamp) (hopen : p.state.isTerminal = false)
    (hfailed : p.scrollFailed = false) (hle : p.processed ≤ p.scrollCount) :
    ((p.settle now).1.state.isTerminal = true ↔
        p.submitted = true ∧ p.processed = p.scrollCount) ∧
      ((p.settle now).1.state.isTerminal = true →
        (p.settle now).1.state = p.finalState) := by
  have hdrained : p.isDrained = true ↔ p.submitted = true ∧ p.processed = p.scrollCount := by
    rw [isDrained_iff, scrollIsOver, hfailed, Bool.or_false]
    exact and_congr_right fun _ => ⟨fun h => Nat.le_antisymm hle h, fun h => Nat.le_of_eq h.symm⟩
  obtain hstay | ⟨hd, -, hfinal⟩ := p.settle_state now
  · rw [hstay, hopen]
    refine ⟨⟨fun h => absurd h Bool.false_ne_true, ?_⟩, fun h => absurd h Bool.false_ne_true⟩
    intro h
    -- a drained command that is settled does not stay as it is
    have hend := p.settle_isTerminal now (hdrained.2 h)
    rwa [hstay, hopen] at hend
  · rw [hfinal]
    exact ⟨⟨fun _ => hdrained.1 hd, fun _ => p.finalState_isTerminal⟩, fun _ => rfl⟩

theorem ended_endScroll (now : Timestamp) (hopen : p.state.isTerminal = false)
    (hfailed : p.scrollFailed = false) (hle : p.processed ≤ p.scrollCount) :
    ((p.endScroll now).1.state.isTerminal = true ↔
        p.submitted = true ∧ p.processed = p.scrollCount) ∧
      ((p.endScroll now).1.state.isTerminal = true →
        (p.endScroll now).1.state = p.finalState) := by
  rw [endScroll_fst]
  split
  · exact ended_settle (p := { p with state := .running }) now rfl hfailed hle
  · exact ended_settle now hopen hfailed hle

namespace Tally

/-- A command that is not submitted or not drained goes on. -/
theorem goesOn (h : Tally c createdAt reports p)
    (hnot : ¬(p.submitted = true ∧ p.processed = p.scrollCount)) : p.state.isTerminal = false := by
  cases ht : p.state.isTerminal with
  | false => rfl
  | true => exact absurd (h.ended.1 ht) hnot

/-- A report with no part in the counts leaves them. -/
theorem concat_neutral (h : Tally c createdAt reports p) {r : Report}
    (hr : r.isNeutral = true) : Tally c createdAt (reports ++ [r]) p := by
  obtain ⟨hs, hn, hf, hne⟩ :
      r.scrolled = 0 ∧ r.reported = 0 ∧ r.failed = 0 ∧ .markSubmitted ≠ r := by
    cases r <;> simp_all [Report.isNeutral, Report.scrolled, Report.reported, Report.failed]
  exact { h with
    scrollCount := by rw [h.scrollCount, scrolledOf_concat, hs, Nat.add_zero]
    processed := by rw [h.processed, reportedOf_concat, hn, Nat.add_zero]
    errorCount := by rw [h.errorCount, failedOf_concat, hf, Nat.add_zero]
    submitted := by simpa [hne] using h.submitted
    errors_le := by
      rw [reportedOf_concat, failedOf_concat, hn, hf]
      exact h.errors_le }

theorem heed_startScrolling (h : Tally c createdAt reports p) (now : Timestamp) :
    Tally c createdAt reports (p.startScrolling now).1 := by
  rw [startScrolling_fst]
  split
  · rename_i hs
    have hopen : p.state.isTerminal = false := by rw [eq_of_beq hs]; rfl
    have hended := h.ended
    rw [hopen] at hended
    exact { h with ended := hended, final := nofun }
  · exact h

theorem heed_completeBucket (h : Tally c createdAt reports p) (k : Nat) :
    Tally c createdAt reports (p.completeBucket k) := by
  unfold completeBucket
  split
  · exact h
  · exact { h with }

theorem heed_addScrolled (h : Tally c createdAt reports p) {n : Nat}
    (hfits : scrolledOf (reports ++ [.addScrolled n]) < wordCount)
    (hnot : .markSubmitted ∉ reports) :
    Tally c createdAt (reports ++ [.addScrolled n]) (p.addScrolled n) := by
  rw [scrolledOf_concat, ← h.scrollCount] at hfits
  have hopen : p.submitted = false := by
    cases hs : p.submitted
    · rfl
    · exact absurd (h.submitted.1 hs) hnot
  -- before its submission no command has ended
  have hstate : p.state.isTerminal = false := h.goesOn (by simp [hopen])
  exact { h with
    scrollCount := by
      rw [scrolledOf_concat, ← h.scrollCount]
      exact Nat.mod_eq_of_lt hfits
    processed := by rw [reportedOf_concat]; exact h.processed
    errorCount := by rw [failedOf_concat]; exact h.errorCount
    submitted := by simpa [addScrolled] using h.submitted
    errors_le := by rw [reportedOf_concat, failedOf_concat]; exact h.errors_le
    ended := by simp [addScrolled, hstate, hopen]
    final := by simp [addScrolled, hstate] }

theorem heed_markSubmitted (h : Tally c createdAt reports p) (now : Timestamp)
    (hcovered : reportedOf reports ≤ scrolledOf reports) (hnot : .markSubmitted ∉ reports) :
    Tally c createdAt (reports ++ [.markSubmitted]) (p.markSubmitted now).1 := by
  have hstate : p.state.isTerminal = false := by
    apply h.goesOn
    rintro ⟨hsubmitted, -⟩
    exact hnot (h.submitted.1 hsubmitted)
  rw [← h.processed, ← h.scrollCount] at hcovered
  obtain ⟨hended, hfinal⟩ := ended_endScroll
    (p := { p with scrollEndedAt := some now, submitted := true }) now hstate h.scrollFailed
    hcovered
  unfold markSubmitted
  constructor
  case command => simpa using h.command
  case createdAt => simpa using h.createdAt
  case scrollCount => simpa [scrolledOf_concat, Report.scrolled] using h.scrollCount
  case processed => simpa [reportedOf_concat, Report.reported] using h.processed
  case errorCount => simpa [failedOf_concat, Report.failed] using h.errorCount
  case submitted => simp
  case scrollFailed => simpa using h.scrollFailed
  case errorMessage => simpa using h.errorMessage
  case errors_le =>
    simpa [reportedOf_concat, failedOf_concat, Report.reported, Report.failed] using h.errors_le
  case ended => simpa using hended
  case final => simpa using hfinal

theorem heed_recordBatch (h : Tally c createdAt reports p) (now : Timestamp) {n e : Nat}
    (hregular : 1 ≤ n ∧ e ≤ n)
    (hfits : scrolledOf reports < wordCount)
    (hcovered : reportedOf reports + n ≤ scrolledOf reports) :
    Tally c createdAt (reports ++ [.recordBatch n e]) (p.recordBatch now n e).1 := by
  have herrors := h.errors_le
  rw [← h.processed, ← h.errorCount] at herrors
  rw [← h.scrollCount] at hfits
  rw [← h.processed, ← h.scrollCount] at hcovered
  have hstate : p.state.isTerminal = false := by
    apply h.goesOn
    -- records are still to be reported, so it is not drained
    rintro ⟨-, hdrained⟩
    omega
  -- neither counter reaches its bound, so the report counts in full
  have hfull : min (min (p.processed + n) wordMax) p.scrollCount = p.processed + n := by
    unfold wordMax
    omega
  have hfull' : (p.errorCount + e) % wordCount = p.errorCount + e := Nat.mod_eq_of_lt (by omega)
  obtain ⟨hended, hfinal⟩ := ended_settle
    (p := { p with
      startedAt := p.startedAt.or (some now)
      errorCount := p.errorCount + e
      processed := p.processed + n }) now hstate h.scrollFailed hcovered
  unfold recordBatch
  rw [hfull, hfull']
  constructor
  case command => simpa using h.command
  case createdAt => simpa using h.createdAt
  case scrollCount => simpa [scrolledOf_concat, Report.scrolled] using h.scrollCount
  case processed => simpa [reportedOf_concat, Report.reported] using h.processed
  case errorCount => simpa [failedOf_concat, Report.failed] using h.errorCount
  case submitted => simpa using h.submitted
  case scrollFailed => simpa using h.scrollFailed
  case errorMessage => simpa using h.errorMessage
  case errors_le =>
    have := h.errors_le
    simp only [reportedOf_concat, failedOf_concat, Report.reported, Report.failed]
    omega
  case ended => simpa using hended
  case final => simpa using hfinal

/-- A report that may come next is counted in full. -/
theorem heed (h : Tally c createdAt reports p) (now : Timestamp) {r : Report}
    (hregular : r.Regular)
    (hfits : scrolledOf (reports ++ [r]) < wordCount)
    (hcovered : reportedOf (reports ++ [r]) ≤ scrolledOf (reports ++ [r]))
    (hnot : r = .markSubmitted ∨ (∃ n, r = .addScrolled n) → .markSubmitted ∉ reports) :
    Tally c createdAt (reports ++ [r]) (p.heed now r) := by
  cases r with
  | startScrolling => exact (h.heed_startScrolling now).concat_neutral rfl
  | completeBucket k => exact (h.heed_completeBucket k).concat_neutral rfl
  | addScrolled n => exact h.heed_addScrolled hfits (hnot (.inr ⟨n, rfl⟩))
  | markSubmitted =>
    rw [reportedOf_concat, scrolledOf_concat] at hcovered
    exact h.heed_markSubmitted now hcovered (hnot (.inl rfl))
  | recordBatch n e =>
    rw [scrolledOf_concat] at hfits
    rw [reportedOf_concat, scrolledOf_concat] at hcovered
    exact h.heed_recordBatch now hregular hfits hcovered
  | failScroll message => exact absurd hregular Bool.false_ne_true
  | abort => exact absurd hregular Bool.false_ne_true
  | abortWithError message => exact absurd hregular Bool.false_ne_true

end Tally

/-- Reports that converge are counted in full at every moment. -/
theorem tally_heedAll (c : Command) (now : Timestamp) {earlier later : List (Timestamp × Report)}
    (h : Converging ((earlier ++ later).map Prod.snd)) :
    Tally c now (earlier.map Prod.snd) ((Progress.new c now).heedAll earlier) := by
  induction earlier using List.reverseRecOn generalizing later with
  | nil => exact tally_new c now
  | append_singleton earlier r ih =>
    have hlonger : Converging ((earlier ++ r :: later).map Prod.snd) := by simpa using h
    have hbefore := ih hlonger
    rw [List.map_append, List.map_append] at h
    rw [heedAll_concat, List.map_append]
    refine hbefore.heed r.1 (h.regular r.2 (by simp)) ?_ ?_ ?_
    · exact Nat.lt_of_le_of_lt (Converging.scrolledOf_le rfl) h.fits
    · exact h.covered_of_eq rfl
    · exact h.not_submitted (by rw [List.append_assoc]; rfl)

end Progress

namespace Tracker

/-- The reports on a command without their times. -/
def told (id : CommandId) (calls : List Call) : List Report := (reportsOn id calls).map Prod.snd

theorem told_append (id : CommandId) (earlier later : List Call) :
    told id (earlier ++ later) = told id earlier ++ told id later := by
  simp [told, reportsOn_append]

/-- After any part of a converging history the command has counted it in full. -/
theorem tally_run {t₀ t : Tracker} {now : Timestamp} {c : Command}
    (hreg : t₀.register now c = .ok t) (earlier later : List Call)
    (h : Converging (told c.id (earlier ++ later))) :
    ∃ p, (t.run earlier).find? c.id = some p ∧ p.Tally c now (told c.id earlier) := by
  rw [told, reportsOn_append] at h
  exact ⟨_, find?_run_register hreg earlier, Progress.tally_heedAll c now h⟩

end Tracker

/-- A status without the times at which things happened to the command. -/
def Status.timeless (s : Status) : Status :=
  { s with scrollStartedAt := none, scrollEndedAt := none, startedAt := none, completedAt := none }

/-- The status that a command ends in when all its records have their outcome. -/
def Status.ofOutcome (c : Command) (createdAt : Timestamp) (total errors : Nat) : Status where
  id := c.id
  action := c.action
  username := c.username
  state := if 0 < errors then .completedWithErrors else .completed
  scrollCount := total
  processed := total
  errorCount := errors
  submitted := true
  errorMessage := none
  createdAt := createdAt
  scrollStartedAt := none
  scrollEndedAt := none
  startedAt := none
  completedAt := none

namespace Tracker

/-- A converging history ends the command in the status that its totals call for. -/
theorem status_run {t₀ t : Tracker} {now : Timestamp} {c : Command}
    (hreg : t₀.register now c = .ok t) {calls : List Call} (h : Converging (told c.id calls)) :
    ∃ p, (t.run calls).find? c.id = some p ∧
      p.status.timeless =
        .ofOutcome c now (scrolledOf (told c.id calls)) (failedOf (told c.id calls)) := by
  obtain ⟨p, hp, ht⟩ := tally_run hreg calls [] (by simpa using h)
  have hsubmitted : p.submitted = true := by
    obtain ⟨earlier, later, hsplit, -⟩ := h.submission
    rw [ht.submitted, hsplit]
    simp
  have hdrained : p.processed = p.scrollCount := by
    rw [ht.processed, ht.scrollCount, h.exhausted]
  have hstate := ht.final (ht.ended.2 ⟨hsubmitted, hdrained⟩)
  rw [Progress.finalState, ht.scrollFailed, if_neg Bool.false_ne_true] at hstate
  refine ⟨p, hp, ?_⟩
  simp only [Status.timeless, Progress.status, Status.ofOutcome, hstate, hdrained, hsubmitted,
    ht.command, ht.createdAt, ht.scrollCount, ht.errorCount, ht.errorMessage]

/-- The order of reports does not matter.  At every moment of a converging history all reports so
far are counted in full, and the command goes on as long as one is to come; in the end it has the
status that the totals call for, and so it has after every other order of the same reports. -/
theorem reports_converge {t₀ t : Tracker} {now : Timestamp} {c : Command}
    (hreg : t₀.register now c = .ok t) (calls : List Call) (h : Converging (told c.id calls)) :
    (∀ earlier later, calls = earlier ++ later →
      ∃ p, (t.run earlier).find? c.id = some p ∧
        p.scrollCount = scrolledOf (told c.id earlier) ∧
        p.processed = reportedOf (told c.id earlier) ∧
        p.errorCount = failedOf (told c.id earlier) ∧
        ((∃ r ∈ told c.id later, r.isNeutral = false) → p.state.isTerminal = false)) ∧
    (∃ p, (t.run calls).find? c.id = some p ∧
      p.submitted = true ∧
      p.scrollCount = scrolledOf (told c.id calls) ∧
      p.processed = p.scrollCount ∧
      p.errorCount = failedOf (told c.id calls) ∧
      p.state = if failedOf (told c.id calls) = 0 then .completed else .completedWithErrors) ∧
    ∀ others, (told c.id others).Perm (told c.id calls) → Converging (told c.id others) →
      ∃ p q, (t.run calls).find? c.id = some p ∧ (t.run others).find? c.id = some q ∧
        p.status.timeless = q.status.timeless := by
  refine ⟨?_, ?_, ?_⟩
  · rintro earlier later rfl
    obtain ⟨p, hp, ht⟩ := tally_run hreg earlier later h
    refine ⟨p, hp, ht.scrollCount, ht.processed, ht.errorCount, ?_⟩
    rintro ⟨r, hr, hcounts⟩
    have hopen := h.unfinished (told_append c.id earlier later) hr hcounts
    rw [← ht.submitted, ← ht.processed, ← ht.scrollCount, ← ht.ended] at hopen
    exact Bool.eq_false_iff.2 hopen
  · obtain ⟨p, hp, hs⟩ := status_run hreg h
    refine ⟨p, hp, congrArg Status.submitted hs, congrArg Status.scrollCount hs, ?_,
      congrArg Status.errorCount hs, ?_⟩
    · exact (congrArg Status.processed hs).trans (congrArg Status.scrollCount hs).symm
    · apply (congrArg Status.state hs).trans
      simp only [Status.ofOutcome, Nat.pos_iff_ne_zero, ite_not]
  · intro others hperm hothers
    obtain ⟨p, hp, hps⟩ := status_run hreg h
    obtain ⟨q, hq, hqs⟩ := status_run hreg hothers
    refine ⟨p, q, hp, hq, ?_⟩
    -- the totals are sums, which no order has a part in
    rw [hps, hqs]
    unfold scrolledOf failedOf
    rw [(hperm.map Report.scrolled).sum_nat, (hperm.map Report.failed).sum_nat]

/-- The reports of `workedOff`, with the scroll submitted as soon as it is over. -/
def submittedEarly : List Call :=
  [⟨⟨1, 0⟩, archiveAll.id, .startScrolling⟩, ⟨⟨2, 0⟩, archiveAll.id, .addScrolled 3⟩, scrollEnd,
    ⟨⟨6, 0⟩, archiveAll.id, .recordBatch 1 0⟩, ⟨⟨7, 0⟩, archiveAll.id, .recordBatch 2 1⟩]

theorem converging_workedOff : Converging (told archiveAll.id (workedOff ++ [scrollEnd])) where
  regular := by simp [told, reportsOn, workedOff, scrollEnd, Report.Regular, Report.isNeutral]
  submission := ⟨told archiveAll.id workedOff, [], rfl, by decide, by decide, by simp⟩
  covered
    | 0 | 1 | 2 | 3 | 4 => by decide
    | n + 5 => by
      rw [List.take_of_length_le (by simp [told, reportsOn, workedOff, scrollEnd])]
      decide
  exhausted := rfl
  fits := by decide

theorem converging_submittedEarly : Converging (told archiveAll.id submittedEarly) where
  regular := by simp [told, reportsOn, submittedEarly, scrollEnd, Report.Regular, Report.isNeutral]
  submission := ⟨[.startScrolling, .addScrolled 3], [.recordBatch 1 0, .recordBatch 2 1], rfl,
    by decide, by decide, by simp⟩
  covered
    | 0 | 1 | 2 | 3 | 4 => by decide
    | n + 5 => by
      rw [List.take_of_length_le (by simp [told, reportsOn, submittedEarly, scrollEnd])]
      decide
  exhausted := rfl
  fits := by decide

/-- The work may be done before the scroll is submitted or after it. -/
theorem reports_converge_submitted_early :
    ∃ t, (new 8 60).register ⟨0, 0⟩ archiveAll = .ok t ∧
      Converging (told archiveAll.id (workedOff ++ [scrollEnd])) ∧
      Converging (told archiveAll.id submittedEarly) ∧
      ∃ p q, (t.run (workedOff ++ [scrollEnd])).find? archiveAll.id = some p ∧
        (t.run submittedEarly).find? archiveAll.id = some q ∧
        p.status.timeless = q.status.timeless := by
  obtain ⟨-, -, hsame⟩ :=
    @reports_converge (new 8 60) _ ⟨0, 0⟩ archiveAll rfl (workedOff ++ [scrollEnd])
      converging_workedOff
  exact ⟨_, rfl, converging_workedOff, converging_submittedEarly,
    hsame submittedEarly (by decide) converging_submittedEarly⟩

end Tracker

end BulkRun
