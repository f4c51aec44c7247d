import BulkRun.Proofs.Status.Convergence
import BulkRun.Proofs.Status.Ending
/-!
# Reports that come too often

A report may come twice, and a command may be told of more outcomes than it has records.  As many
records count as worked on as were scrolled, and the rest of such a report is a surplus; its
failures count all the same.  Main statement: whatever is reported, the two counters differ from the
reports by the surplus alone, so that the failures are no more than the records worked on and the
surplus together, and a completed command has no failures but those it was told of after its end.
-/

namespace BulkRun

namespace Tracker

theorem scrolledOf_append (earlier later : List Report) :
    scrolledOf (earlier ++ later) = scrolledOf earlier + scrolledOf later := by
  simp [scrolledOf]

theorem reportedOf_append (earlier later : List Report) :
    reportedOf (earlier ++ later) = reportedOf earlier + reportedOf later := by
  simp [reportedOf]

theorem failedOf_append (earlier later : List Report) :
    failedOf (earlier ++ later) = failedOf earlier + failedOf later := by
  simp [failedOf]

/-- No more records failed than had their outcome told, if each report says so. -/
theorem failedOf_le_reportedOf {reports : List Report}
    (h : ∀ r ∈ reports, r.failed ≤ r.reported) : failedOf reports ≤ reportedOf reports := by
  induction reports with
  | nil => exact Nat.le_refl 0
  | cons r reports ih =>
    have hrest := ih fun r' hr' => h r' (List.mem_cons_of_mem r hr')
    have hfirst := h r List.mem_cons_self
    unfold failedOf reportedOf at *
    rw [List.map_cons, List.map_cons, List.sum_cons, List.sum_cons]
    omega

end Tracker

open Tracker (Report scrolledOf reportedOf failedOf scrolledOf_append reportedOf_append
  failedOf_append failedOf_le_reportedOf)

namespace Progress

/-- How many of the records that a report tells the outcome of are beyond those that were
scrolled. -/
def surplus (p : Progress) : Report → Nat
  | .recordBatch processed _ => p.processed + processed - p.scrollCount
  | _ => 0

/-- The surplus of some reports, each at the time when it comes. -/
def surplusIn (p : Progress) : List (Timestamp × Report) → Nat
  | [] => 0
  | r :: reports => p.surplus r.2 + (p.heed r.1 r.2).surplusIn reports

/-- What some reports make of the counters: all that was scrolled and all that failed is counted,
and of the outcomes all but the surplus. -/
structure Counts (p q : Progress) (reports : List Report) (surplus : Nat) : Prop where
  scrollCount : q.scrollCount = p.scrollCount + scrolledOf reports
  processed : q.processed + surplus = p.processed + reportedOf reports
  errorCount : q.errorCount = p.errorCount + failedOf reports

variable {p q o : Progress}

theorem Counts.refl (p : Progress) : Counts p p [] 0 := ⟨rfl, rfl, rfl⟩

theorem Counts.trans {earlier later : List Report} {m n : Nat} (h : Counts p q earlier m)
    (h' : Counts q o later n) : Counts p o (earlier ++ later) (m + n) where
  scrollCount := by rw [h'.scrollCount, h.scrollCount, scrolledOf_append, Nat.add_assoc]
  processed := by
    have hearlier := h.processed
    have hlater := h'.processed
    rw [reportedOf_append]
    omega
  errorCount := by rw [h'.errorCount, h.errorCount, failedOf_append, Nat.add_assoc]

/-- A report without a part in the counters leaves them. -/
theorem Counts.of_neutral {r : Report} (hr : r.scrolled = 0 ∧ r.reported = 0 ∧ r.failed = 0)
    (hq : q.scrollCount = p.scrollCount ∧ q.processed = p.processed ∧ q.errorCount = p.errorCount) :
    Counts p q [r] 0 where
  scrollCount := by simp [scrolledOf, hr.1, hq.1]
  processed := by simp [reportedOf, hr.2.1, hq.2.1]
  errorCount := by simp [failedOf, hr.2.2, hq.2.2]

/-- One report, which leaves the counters within their bounds. -/
theorem counts_heed (p : Progress) (now : Timestamp) (r : Report)
    (hfit : p.scrollCount + r.scrolled < wordCount) (hfit' : p.errorCount + r.failed < wordCount) :
    Counts p (p.heed now r) [r] (p.surplus r) := by
  have aborted (message : Option String) :
      ((p.abort? now message).getD p).scrollCount = p.scrollCount ∧
        ((p.abort? now message).getD p).processed = p.processed ∧
        ((p.abort? now message).getD p).errorCount = p.errorCount := by
    rw [abort?_eq]
    split <;> exact ⟨rfl, rfl, rfl⟩
  cases r with
  | startScrolling =>
    obtain ⟨s, at', hq⟩ := p.startScrolling_frame now
    rw [heed, hq]
    exact .of_neutral ⟨rfl, rfl, rfl⟩ ⟨rfl, rfl, rfl⟩
  | addScrolled n =>
    have hmod : (p.scrollCount + n) % wordCount = p.scrollCount + n := Nat.mod_eq_of_lt hfit
    refine ⟨?_, rfl, rfl⟩
    simp [heed, addScrolled, scrolledOf, Report.scrolled, hmod]
  | markSubmitted =>
    refine .of_neutral ⟨rfl, rfl, rfl⟩ ?_
    simp [heed, markSubmitted]
  | failScroll message =>
    refine .of_neutral ⟨rfl, rfl, rfl⟩ ?_
    simp [heed, failScroll]
  | recordBatch n e =>
    have hwords : p.scrollCount ≤ wordMax := by
      simp only [Report.scrolled] at hfit
      unfold wordMax
      omega
    simp only [Report.failed] at hfit'
    constructor
    case scrollCount => simp [heed, recordBatch, scrolledOf, Report.scrolled]
    case processed =>
      -- what the bound cuts off is the surplus
      simp only [heed, recordBatch, settle_processed, surplus, reportedOf, List.map_cons,
        List.map_nil, List.sum_cons, List.sum_nil, Report.reported]
      omega
    case errorCount =>
      simp [heed, recordBatch, failedOf, Report.failed, Nat.mod_eq_of_lt hfit']
  | completeBucket k =>
    obtain ⟨done, hq⟩ := p.completeBucket_frame k
    rw [heed, hq]
    exact .of_neutral ⟨rfl, rfl, rfl⟩ ⟨rfl, rfl, rfl⟩
  | abort => exact .of_neutral ⟨rfl, rfl, rfl⟩ (aborted none)
  | abortWithError message => exact .of_neutral ⟨rfl, rfl, rfl⟩ (aborted (some message))

/-- Any reports on a consistent command, with totals within the bounds of the counters. -/
theorem Consistent.counts_heedAll (h : p.Consistent) (reports : List (Timestamp × Report))
    (hfit : p.scrollCount + scrolledOf (reports.map Prod.snd) < wordCount)
    (hfit' : p.errorCount + failedOf (reports.map Prod.snd) < wordCount) :
    (p.heedAll reports).Consistent ∧
      Counts p (p.heedAll reports) (reports.map Prod.snd) (p.surplusIn reports) := by
  induction reports generalizing p with
  | nil => exact ⟨h, .refl p⟩
  | cons r reports ih =>
    rw [List.map_cons, ← List.singleton_append] at hfit hfit' ⊢
    rw [scrolledOf_append, ← Nat.add_assoc] at hfit
    rw [failedOf_append, ← Nat.add_assoc] at hfit'
    have hscrolled : r.2.scrolled = scrolledOf [r.2] := by simp [scrolledOf]
    have hfailed : r.2.failed = failedOf [r.2] := by simp [failedOf]
    have hfirst : Counts p (p.heed r.1 r.2) [r.2] (p.surplus r.2) :=
      counts_heed p r.1 r.2 (by omega) (by omega)
    obtain ⟨hnext, -⟩ := h.heed r.1 r.2 (by omega)
    rw [← hfirst.scrollCount] at hfit
    rw [← hfirst.errorCount] at hfit'
    obtain ⟨hrest, hcounts⟩ := ih hnext hfit hfit'
    exact ⟨hrest, hfirst.trans hcounts⟩

/-- A report that completes a command finds no failures, and leaves no record without its
outcome. -/
theorem Consistent.heed_completed (h : p.Consistent) (now : Timestamp) (r : Report)
    (hfit : p.scrollCount + r.scrolled < wordCount) (hopen : p.state ≠ .completed)
    (hstate : (p.heed now r).state = .completed) :
    (p.heed now r).errorCount = 0 ∧ (p.heed now r).processed = (p.heed now r).scrollCount := by
  obtain ⟨hq, hfollows⟩ := h.heed now r hfit
  have hmoved : (p.heed now r).state ≠ p.state := by
    rw [hstate]
    exact hopen.symm
  cases habort : r.isAbort with
  | true =>
    -- an abort completes nothing
    have haborted := (hfollows.aborts habort).resolve_left hmoved
    rw [hstate] at haborted
    exact absurd haborted (by decide)
  | false =>
    obtain ⟨-, -, hdrained, herrors⟩ :=
      (hfollows.moves habort).of_completed hq.processed_le hmoved (.inl hstate)
    rw [hstate] at herrors
    refine ⟨Nat.eq_zero_of_not_pos fun hpos => ?_, hdrained⟩
    exact absurd (herrors.2 hpos) (by decide)

/-- Among the reports after which a command reads as completed, there is one that completed it. -/
theorem Consistent.exists_completion (h : p.Consistent) (hopen : p.state ≠ .completed)
    (reports : List (Timestamp × Report))
    (hfit : p.scrollCount + scrolledOf (reports.map Prod.snd) < wordCount)
    (hstate : (p.heedAll reports).state = .completed) :
    ∃ earlier later, reports = earlier ++ later ∧ (p.heedAll earlier).state = .completed ∧
      (p.heedAll earlier).errorCount = 0 ∧
      (p.heedAll earlier).processed = (p.heedAll earlier).scrollCount := by
  induction reports generalizing p with
  | nil => exact absurd hstate hopen
  | cons r reports ih =>
    have hsum : scrolledOf ((r :: reports).map Prod.snd) =
        r.2.scrolled + scrolledOf (reports.map Prod.snd) := by
      simp [scrolledOf]
    obtain ⟨hq, hfollows⟩ := h.heed r.1 r.2 (by omega)
    by_cases hfirst : (p.heed r.1 r.2).state = .completed
    · exact ⟨[r], reports, rfl, hfirst, h.heed_completed r.1 r.2 (by omega) hopen hfirst⟩
    · obtain ⟨earlier, later, rfl, hfound⟩ := ih hq hfirst (by
        rw [hfollows.scrollCount_eq]
        omega) hstate
      exact ⟨r :: earlier, later, rfl, hfound⟩

/-- A command without any outcomes so far, whatever is reported from now on. -/
theorem Consistent.over_reported (h : p.Consistent) (hopen : p.state ≠ .completed)
    (hzero : p.scrollCount = 0 ∧ p.processed = 0 ∧ p.errorCount = 0)
    (reports : List (Timestamp × Report)) (hregular : ∀ r ∈ reports, r.2.failed ≤ r.2.reported)
    (hfit : scrolledOf (reports.map Prod.snd) < wordCount)
    (hfit' : reportedOf (reports.map Prod.snd) < wordCount) :
    (p.heedAll reports).processed ≤ (p.heedAll reports).scrollCount ∧
      (p.heedAll reports).scrollCount = scrolledOf (reports.map Prod.snd) ∧
      (p.heedAll reports).processed + p.surplusIn reports = reportedOf (reports.map Prod.snd) ∧
      (p.heedAll reports).errorCount = failedOf (reports.map Prod.snd) ∧
      (p.heedAll reports).errorCount ≤ (p.heedAll reports).processed + p.surplusIn reports ∧
      ((p.heedAll reports).state = .completed → ∃ earlier later q, reports = earlier ++ later ∧
        q = p.heedAll earlier ∧ q.state = .completed ∧ q.errorCount = 0 ∧
        q.processed = q.scrollCount ∧
        (p.heedAll reports).errorCount = failedOf (later.map Prod.snd) ∧
        (p.heedAll reports).errorCount ≤
          scrolledOf (later.map Prod.snd) + q.surplusIn later) := by
  have hfailed {part : List (Timestamp × Report)} (hpart : ∀ r ∈ part, r ∈ reports) :
      failedOf (part.map Prod.snd) ≤ reportedOf (part.map Prod.snd) := by
    refine failedOf_le_reportedOf fun r hr => ?_
    obtain ⟨r', hr', rfl⟩ := List.mem_map.1 hr
    exact hregular r' (hpart r' hr')
  have hall := hfailed fun _ hr => hr
  obtain ⟨hp, hscrolled, hreported, herrors⟩ := h.counts_heedAll reports (by omega) (by omega)
  refine ⟨hp.processed_le, by omega, by omega, by omega, by omega, fun hstate => ?_⟩
  obtain ⟨earlier, later, rfl, hcompleted, hnone, hdrained⟩ :=
    h.exists_completion hopen reports (by omega) hstate
  refine ⟨earlier, later, _, rfl, rfl, hcompleted, hnone, hdrained, ?_⟩
  -- what came after the completion is counted from there
  have hlate := hfailed fun _ hr => List.mem_append_right earlier hr
  rw [List.map_append, scrolledOf_append] at hfit hscrolled
  rw [List.map_append, failedOf_append, reportedOf_append] at hall
  rw [List.map_append, reportedOf_append] at hfit'
  obtain ⟨hq, hscrolled', -, -⟩ := h.counts_heedAll earlier (by omega) (by omega)
  obtain ⟨-, -, hreported', herrors'⟩ := hq.counts_heedAll later (by omega) (by omega)
  rw [← heedAll_append] at hreported' herrors'
  have hle := hp.processed_le
  exact ⟨by omega, by omega⟩

end Progress

namespace Tracker

variable {t u s : Tracker} {now : Timestamp} {c : Command}

/-- A command that was just accepted is there, among commands of other ids. -/
theorem distinct_and_found_of_accepted {capacity retention : Nat}
    {front rear : List (Move Tracker Operation)}
    (hrun : Run next? (keeping capacity retention) (front ++ ⟨t, .register now c, u⟩ :: rear) s)
    (haccepted : t.register now c = .ok u) :
    u.Distinct ∧ u.find? c.id = some (.new c now) ∧ Run next? u rear s := by
  rw [← List.singleton_append, ← List.append_assoc] at hrun
  obtain ⟨u', haccepting, hrest⟩ := hrun.cut
  obtain rfl : u' = u := haccepting.eq_of_concat
  refine ⟨distinct_of_run (distinct_keeping capacity retention) haccepting, ?_, hrest⟩
  rw [(register_eq_ok haccepted).2 c.id, if_pos rfl]

/-- What over-reporting comes to.  From the operation that accepts a command, and as long as the
command is kept, no more records count as worked on than were scrolled; the failures are all that
were told, and the records worked on are all that were told but for the surplus.  So the failures
exceed the records worked on by no more than the surplus, and not at all without one.  A completed
command had no failures and no record left when it was completed: the failures it has were told of
afterwards, and are no more than what was scrolled afterwards and the surplus since then. -/
theorem over_reports {capacity retention : Nat} {front rear : List (Move Tracker Operation)}
    (hrun : Run next? (keeping capacity retention) (front ++ ⟨t, .register now c, u⟩ :: rear) s)
    (haccepted : t.register now c = .ok u) (hkept : ∀ m ∈ rear, m.after.find? c.id ≠ none)
    {reports : List (Timestamp × Report)}
    (htold : reports = yielded (Operation.reportOn? c.id) rear)
    (hregular : ∀ r ∈ reports, r.2.failed ≤ r.2.reported)
    (hfit : scrolledOf (reports.map Prod.snd) < wordCount)
    (hfit' : reportedOf (reports.map Prod.snd) < wordCount) :
    ∃ p, s.find? c.id = some p ∧
      p.processed ≤ p.scrollCount ∧
      p.scrollCount = scrolledOf (reports.map Prod.snd) ∧
      p.processed + (Progress.new c now).surplusIn reports = reportedOf (reports.map Prod.snd) ∧
      p.errorCount = failedOf (reports.map Prod.snd) ∧
      p.errorCount ≤ p.processed + (Progress.new c now).surplusIn reports ∧
      (p.state = .completed → ∃ earlier later q, reports = earlier ++ later ∧
        q = (Progress.new c now).heedAll earlier ∧ q.state = .completed ∧ q.errorCount = 0 ∧
        q.processed = q.scrollCount ∧ p.errorCount = failedOf (later.map Prod.snd) ∧
        p.errorCount ≤ scrolledOf (later.map Prod.snd) + q.surplusIn later) := by
  obtain ⟨hd, hfirst, hrest⟩ := distinct_and_found_of_accepted hrun haccepted
  have hfind := find?_of_run hrest hd hfirst hkept
  rw [← htold] at hfind
  have hnew : (Progress.new c now).Consistent := Progress.consistent_new c now
  exact ⟨_, hfind, hnew.over_reported nofun ⟨rfl, rfl, rfl⟩ reports hregular hfit hfit'⟩

/-- One record is worked on, and two more reports come on it when the command is complete. -/
def reportedAgain : List Operation :=
  [.call ⟨⟨1, 0⟩, archiveAll.id, .startScrolling⟩,
    .call ⟨⟨2, 0⟩, archiveAll.id, .addScrolled 1⟩,
    .call ⟨⟨3, 0⟩, archiveAll.id, .recordBatch 1 0⟩,
    .call ⟨⟨4, 0⟩, archiveAll.id, .markSubmitted⟩,
    .call ⟨⟨5, 0⟩, archiveAll.id, .recordBatch 1 1⟩,
    .call ⟨⟨6, 0⟩, archiveAll.id, .recordBatch 1 1⟩]

/-- The command reads as completed, with two failures among one record. -/
theorem over_reports_after_the_end :
    ∃ u rear s, Run next? (new 8 60) ([] ++ ⟨new 8 60, .register ⟨0, 0⟩ archiveAll, u⟩ :: rear) s ∧
      (new 8 60).register ⟨0, 0⟩ archiveAll = .ok u ∧
      (∀ m ∈ rear, m.after.find? archiveAll.id ≠ none) ∧
      rear.map (·.event) = reportedAgain ∧
      ∃ p, s.find? archiveAll.id = some p ∧ p.state = .completed ∧ p.scrollCount = 1 ∧
        p.processed = 1 ∧ p.errorCount = 2 := by
  let u := (new 8 60).operate (.register ⟨0, 0⟩ archiveAll)
  have hcheck : (movesOf? next? u reportedAgain).any (fun r =>
      (r.1.all fun m => (m.after.find? archiveAll.id).isSome) &&
      (r.2.find? archiveAll.id).any fun p => decide (p.state = .completed) &&
        decide (p.processed = 1)) = true := by
    decide +kernel
  obtain ⟨⟨rear, s⟩, hrear, hs⟩ := (Option.any_eq_true _ _).1 hcheck
  obtain ⟨hthere, hend⟩ := (Bool.and_eq_true _ _).mp hs
  obtain ⟨p, hp, hend⟩ := (Option.any_eq_true _ _).1 hend
  simp only [Bool.and_eq_true, decide_eq_true_eq] at hend
  obtain ⟨hstate, hprocessed⟩ := hend
  have hkept : ∀ m ∈ rear, m.after.find? archiveAll.id ≠ none := fun m hm =>
    Option.isSome_iff_ne_none.1 (List.all_eq_true.1 hthere m hm)
  have htold : yielded (Operation.reportOn? archiveAll.id) rear =
      [(⟨1, 0⟩, .startScrolling), (⟨2, 0⟩, .addScrolled 1), (⟨3, 0⟩, .recordBatch 1 0),
        (⟨4, 0⟩, .markSubmitted), (⟨5, 0⟩, .recordBatch 1 1), (⟨6, 0⟩, .recordBatch 1 1)] := by
    rw [yielded_eq_filterMap, events_of_movesOf? hrear]
    decide
  have haccepted : (new 8 60).register ⟨0, 0⟩ archiveAll = .ok u := rfl
  have hfirst : Run next? (new 8 60) ([] ++ [⟨new 8 60, .register ⟨0, 0⟩ archiveAll, u⟩]) u :=
    .move _ .start rfl
  have hrun : Run next? (new 8 60) ([] ++ ⟨new 8 60, .register ⟨0, 0⟩ archiveAll, u⟩ :: rear) s :=
    hfirst.append hrear
  obtain ⟨p', hp', -, hscrolled, -, herrors, -, -⟩ :=
    over_reports hrun haccepted hkept htold.symm (by decide) (by decide) (by decide)
  obtain rfl := Option.some.inj (hp.symm.trans hp')
  exact ⟨u, rear, s, hrun, haccepted, hkept, events_of_movesOf? hrear, p, hp, hstate, hscrolled,
    hprocessed, herrors⟩

end Tracker

end BulkRun
