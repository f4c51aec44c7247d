import BulkRun.Proofs.Dispatch.ScrollSteps
import BulkRun.Proofs.Execution.Steps
import Mathlib.Algebra.Order.BigOperators.Group.Multiset
import Mathlib.Algebra.Order.Group.Nat
/-!
# The dues of a command

The books of a command say that every record is accounted for at least once; its dues say that none
is accounted for more than once, as long as no work is broken off.  What the scroll loop has yet to
publish and what is owed for published buckets is no more than what was scrolled and not worked on
yet.  So when all that was scrolled counts as worked on, nothing is owed, and nobody is at work.
-/

namespace BulkRun

open Tracker (Report Heeds)

/-- Whether a report leaves the counts and the done buckets as they are. -/
def Tracker.Report.isPlain : Report → Bool
  | .addScrolled _ | .recordBatch _ _ | .completeBucket _ => false
  | _ => true

namespace Progress

variable {p q : Progress} {owed : Nat} {lots : Multiset Lot} {lot : Lot} {b : Bucket}

theorem isPlain_of_isAbort {r : Report} (h : r.isAbort = true) : r.isPlain = true := by
  cases r with
  | abort => rfl
  | abortWithError message => rfl
  | _ => exact absurd h Bool.false_ne_true

/-- A plain report leaves everything that dues are reckoned from. -/
theorem heed_plain {r : Report} (h : r.isPlain = true) (p : Progress) (now : Timestamp) :
    (p.heed now r).scrollCount = p.scrollCount ∧ (p.heed now r).processed = p.processed ∧
      (p.heed now r).completedBuckets = p.completedBuckets := by
  have aborted (message : Option String) :
      ((p.abort? now message).getD p).scrollCount = p.scrollCount ∧
        ((p.abort? now message).getD p).processed = p.processed ∧
        ((p.abort? now message).getD p).completedBuckets = p.completedBuckets := by
    rw [abort?_eq]
    split <;> exact ⟨rfl, rfl, rfl⟩
  cases r with
  | startScrolling =>
    obtain ⟨s, at', hq⟩ := startScrolling_frame now p
    rw [heed, hq]
    exact ⟨rfl, rfl, rfl⟩
  | markSubmitted => simp [heed, markSubmitted]
  | failScroll message => simp [heed, failScroll]
  | abort => exact aborted none
  | abortWithError message => exact aborted (some message)
  | _ => exact absurd h Bool.false_ne_true

theorem state_of_isAbort (now : Timestamp) {r : Report} (hopen : p.state.isTerminal = false)
    (hr : r.isAbort = true) : (p.heed now r).state = .aborted := by
  have aborted (message : Option String) :
      ((p.abort? now message).getD p).state = .aborted := by
    rw [abort?_eq, hopen]
    rfl
  cases r with
  | abort => exact aborted none
  | abortWithError message => exact aborted (some message)
  | _ => exact absurd hr Bool.false_ne_true

/-- When a report other than an abort ends a command, all that was scrolled counts as worked on. -/
theorem drained_of_heed {now : Timestamp} {r : Report} (hopen : p.state.isTerminal = false)
    (hended : (p.heed now r).state.isTerminal = true) (hr : r.isAbort = false) :
    (p.heed now r).scrollCount ≤ (p.heed now r).processed := by
  have hsettles : p.MovesBySettling (p.heed now r) → (p.heed now r).scrollCount ≤
      (p.heed now r).processed := by
    rintro (h | h | ⟨h, -⟩)
    · rw [h, hopen] at hended
      exact absurd hended Bool.false_ne_true
    · rw [h] at hended
      exact absurd hended Bool.false_ne_true
    · exact ((p.heed now r).isDrained_iff.1 h).2
  apply hsettles
  cases r with
  | startScrolling =>
    rw [heed, startScrolling_fst]
    split
    · exact .inr (.inl rfl)
    · exact .inl rfl
  | addScrolled n => exact .inl rfl
  | markSubmitted => exact movesBySettling_endScroll now
  | failScroll message => exact movesBySettling_endScroll now
  | recordBatch n e => exact movesBySettling_settle now
  | completeBucket k =>
    obtain ⟨done, hq⟩ := completeBucket_frame p k
    exact .inl (by rw [heed, hq])
  | abort => exact absurd hr (by simp [Report.isAbort])
  | abortWithError message => exact absurd hr (by simp [Report.isAbort])

/-! ## What is owed -/

/-- Whether all that is owed was scrolled and not worked on: so much by the scroll loop, and the
rest for published buckets. -/
def Covers (p : Progress) (owed : Nat) (lots : Multiset Lot) : Prop :=
  p.processed + owed + (lots.map (Lot.owed p)).sum ≤ p.scrollCount

theorem covers_cons : p.Covers owed (lot ::ₘ lots) ↔
    p.processed + owed + (Lot.owed p lot + (lots.map (Lot.owed p)).sum) ≤ p.scrollCount := by
  rw [Covers, Multiset.map_cons, Multiset.sum_cons]

/-- Less may be owed, for other buckets and in other counts. -/
theorem Covers.mono {owed' : Nat} (h : p.Covers owed lots)
    (hscroll : p.scrollCount + owed' ≤ q.scrollCount + owed)
    (hprocessed : q.processed ≤ p.processed)
    (hlots : ∀ lot ∈ lots, Lot.owed q lot ≤ Lot.owed p lot) : q.Covers owed' lots := by
  have hsum : (lots.map (Lot.owed q)).sum ≤ (lots.map (Lot.owed p)).sum :=
    Multiset.sum_map_le_sum_map _ _ hlots
  unfold Covers at h ⊢
  omega

/-- A batch that is reported is owed for no longer. -/
theorem Covers.report {n left : Nat} (h : p.Covers owed (⟨b, .working (n + left)⟩ ::ₘ lots))
    (now : Timestamp) (errors : Nat) :
    (p.heed now (.recordBatch n errors)).Covers owed (⟨b, .working left⟩ ::ₘ lots) := by
  have hcovers := covers_cons.1 h
  have howed : Lot.owed (p.heed now (.recordBatch n errors)) = Lot.owed p :=
    Lot.owed_congr (by simp [heed, recordBatch])
  have hscroll : (p.heed now (.recordBatch n errors)).scrollCount = p.scrollCount := by
    simp [heed, recordBatch]
  have hprocessed : (p.heed now (.recordBatch n errors)).processed ≤ p.processed + n := by
    simp only [heed, recordBatch, settle_processed]
    omega
  refine covers_cons.2 ?_
  rw [howed, hscroll]
  have hworking (m : Nat) : Lot.owed p ⟨b, .working m⟩ = m := rfl
  rw [hworking] at hcovers ⊢
  omega

/-- The work at hand is owed. -/
theorem left_le_owed (p : Progress) (lot : Lot) : lot.standing.left ≤ Lot.owed p lot := by
  unfold Lot.owed
  cases lot.standing with
  | working left => exact Nat.le_refl left
  | _ => exact Nat.zero_le _

/-- Nobody is at work when all that was scrolled was worked on. -/
theorem Covers.left_eq_zero (h : p.Covers owed lots) (hdrained : p.scrollCount ≤ p.processed)
    (hlot : lot ∈ lots) : lot.standing.left = 0 := by
  have hle : Lot.owed p lot ≤ (lots.map (Lot.owed p)).sum :=
    Multiset.single_le_sum (fun _ _ => Nat.zero_le _) _ (Multiset.mem_map_of_mem _ hlot)
  have hleft := left_le_owed p lot
  unfold Covers at h
  omega

/-- A bucket that is done is owed for no longer. -/
theorem owed_completeBucket_le (p : Progress) (k : Nat) (lot : Lot) :
    Lot.owed (p.completeBucket k) lot ≤ Lot.owed p lot := by
  unfold Lot.owed
  cases lot.standing with
  | working left => exact Nat.le_refl left
  | _ =>
    simp only [isBucketDone_completeBucket]
    cases p.isBucketDone lot.bucket.sequence
    · cases lot.bucket.sequence == k
      · exact Nat.le_refl _
      · exact Nat.zero_le _
    · exact Nat.le_refl _

end Progress

/-- Whether some of the records of a bucket are worked on, and the others are left. -/
def Lot.IsMidway (lot : Lot) : Prop :=
  ∃ left, lot.standing = .working left ∧ left < lot.bucket.ids.length

/-- The dues of a command: while it goes on, all that is owed is covered, and once it has ended
other than by an abort, nobody is at work for it. -/
structure Dues (owed : Nat) (found : Option Progress) (lots : Multiset Lot) : Prop where
  covers : ∀ p, found = some p → p.state.isTerminal = false → p.Covers owed lots
  rests : ∀ p, found = some p → p.state.isTerminal = true → p.state ≠ .aborted →
    ∀ lot ∈ lots, lot.standing.left = 0

namespace Dues

variable {owed owed' : Nat} {found : Option Progress} {lots : Multiset Lot} {p : Progress}
  {b : Bucket} {s s' : Standing} {now : Timestamp} {r : Report}

/-- A command that is gone has no dues. -/
theorem gone (owed : Nat) (lots : Multiset Lot) : Dues owed none lots :=
  ⟨fun _ hp => absurd hp (by simp), fun _ hp => absurd hp (by simp)⟩

/-- A command that was just accepted owes nothing. -/
theorem accepted (c : Command) (now : Timestamp) : Dues 0 (some (Progress.new c now)) 0 where
  covers p hp _ := by
    obtain rfl := Option.some.inj hp
    exact Nat.le_refl 0
  rests _ _ _ _ lot hlot := absurd hlot (Multiset.notMem_zero lot)

/-- A command that stays as it is or goes meets its dues. -/
theorem same_or_gone {found' : Option Progress} (h : Dues owed found lots)
    (hfound : found' = found ∨ found' = none) : Dues owed found' lots := by
  obtain rfl | rfl := hfound
  · exact h
  · exact gone owed lots

/-- The scroll loop may have less to publish. -/
theorem spend (h : Dues owed found lots) (hle : owed' ≤ owed) : Dues owed' found lots :=
  { h with
    covers := by
      intro p hp hopen
      exact (h.covers p hp hopen).mono (by omega) (Nat.le_refl _) fun _ _ => Nat.le_refl _ }

/-- A published bucket may stand otherwise, as long as no more is owed for it. -/
theorem restand (h : Dues owed found (⟨b, s⟩ ::ₘ lots)) (hleft : s'.left ≤ s.left)
    (howed : ∀ p, found = some p → p.state.isTerminal = false →
      Lot.owed p ⟨b, s'⟩ ≤ Lot.owed p ⟨b, s⟩) : Dues owed found (⟨b, s'⟩ ::ₘ lots) where
  covers p hp hopen := by
    have hcovers := Progress.covers_cons.1 (h.covers p hp hopen)
    have hle := howed p hp hopen
    exact Progress.covers_cons.2 (by omega)
  rests p hp hended hstate := by
    obtain ⟨hself, hothers⟩ := Multiset.forall_mem_cons.1 (h.rests p hp hended hstate)
    refine Multiset.forall_mem_cons.2 ⟨?_, hothers⟩
    exact Nat.eq_zero_of_le_zero (hself ▸ hleft)

theorem owed_of_rests (hs : ∀ left, s ≠ .working left) (p : Progress) :
    Lot.owed p ⟨b, s⟩ = if p.isBucketDone b.sequence then 0 else b.ids.length := by
  cases s with
  | working left => exact absurd rfl (hs left)
  | _ => rfl

/-- A bucket on which nobody works may be done or not, and may lie anywhere. -/
theorem lay (h : Dues owed found (⟨b, s⟩ ::ₘ lots)) (hs : ∀ left, s ≠ .working left)
    (hs' : ∀ left, s' ≠ .working left) : Dues owed found (⟨b, s'⟩ ::ₘ lots) := by
  apply h.restand
  · cases s' with
    | working left => exact absurd rfl (hs' left)
    | _ => exact Nat.zero_le _
  · intro p _ _
    rw [owed_of_rests hs p, owed_of_rests hs' p]

/-- The work on a bucket begins, which is not done and whose command goes on. -/
theorem begin (h : Dues owed (some p) (⟨b, s⟩ ::ₘ lots)) (hopen : p.state.isTerminal = false)
    (hs : ∀ left, s ≠ .working left) (hdone : p.isBucketDone b.sequence = false) :
    Dues owed (some p) (⟨b, .working b.ids.length⟩ ::ₘ lots) := by
  constructor
  · intro q hq _
    obtain rfl := Option.some.inj hq
    have hcovers := Progress.covers_cons.1 (h.covers p rfl hopen)
    rw [owed_of_rests hs p, hdone, if_neg Bool.false_ne_true] at hcovers
    exact Progress.covers_cons.2 hcovers
  · intro q hq hended
    obtain rfl := Option.some.inj hq
    rw [hopen] at hended
    exact absurd hended Bool.false_ne_true

/-- A bucket may be put back, unless some of it was counted and the rest was not: what was counted
would be owed for once more. -/
theorem putBack {lot : Lot} (h : Dues owed found (lot ::ₘ lots)) (hwhole : ¬lot.IsMidway) :
    Dues owed found (.lying lot.bucket ::ₘ lots) := by
  obtain ⟨b, s⟩ := lot
  apply h.restand (Nat.zero_le _)
  intro p _ _
  cases s with
  | working left =>
    have hleft : b.ids.length ≤ left := Nat.le_of_not_lt fun hlt => hwhole ⟨left, rfl, hlt⟩
    refine Nat.le_trans ?_ hleft
    simp only [Lot.owed]
    cases p.isBucketDone b.sequence
    · exact Nat.le_refl _
    · exact Nat.zero_le _
  | _ => exact Nat.le_refl _

/-- A bucket that is acknowledged is owed for no longer. -/
theorem drop {lot : Lot} (h : Dues owed found (lot ::ₘ lots)) : Dues owed found lots where
  covers p hp hopen := by
    have hcovers := Progress.covers_cons.1 (h.covers p hp hopen)
    unfold Progress.Covers
    omega
  rests p hp hended hstate := (Multiset.forall_mem_cons.1 (h.rests p hp hended hstate)).2

/-- What is to be published is owed for once it is. -/
theorem publish (h : Dues (b.ids.length + owed) found lots) :
    Dues owed found (.lying b ::ₘ lots) where
  covers p hp hopen := by
    have hcovers := h.covers p hp hopen
    have hle : Lot.owed p (.lying b) ≤ b.ids.length := by
      unfold Lot.owed Lot.lying
      cases p.isBucketDone b.sequence
      · exact Nat.le_refl _
      · exact Nat.zero_le _
    unfold Progress.Covers at hcovers
    refine Progress.covers_cons.2 ?_
    omega
  rests p hp hended hstate := Multiset.forall_mem_cons.2 ⟨rfl, h.rests p hp hended hstate⟩

/-- A report after which the dues of a command that went on are covered. -/
theorem heed (hcovers : p.state.isTerminal = false → (p.heed now r).Covers owed lots)
    (hrests : p.state.isTerminal = true → p.state ≠ .aborted →
      ∀ lot ∈ lots, lot.standing.left = 0) :
    Dues owed (some (p.heed now r)) lots := by
  constructor
  · intro q hq hopen
    obtain rfl := Option.some.inj hq
    apply hcovers
    by_contra hended
    rw [p.heed_isTerminal now (Bool.not_eq_false _ ▸ hended) r] at hopen
    exact absurd hopen (by simp)
  · intro q hq hended hstate lot hlot
    obtain rfl := Option.some.inj hq
    cases hp : p.state.isTerminal with
    | true =>
      rw [Progress.heed_state_of_isTerminal hp] at hstate
      exact hrests hp hstate lot hlot
    | false =>
      have hr : r.isAbort = false := by
        by_contra hr
        exact hstate (Progress.state_of_isAbort now hp (Bool.not_eq_false _ ▸ hr))
      exact (hcovers hp).left_eq_zero (Progress.drained_of_heed hp hended hr) hlot

theorem heed_plain (h : Dues owed (some p) lots) (hr : r.isPlain = true) :
    Dues owed (some (p.heed now r)) lots := by
  apply heed
  · intro hopen
    obtain ⟨hscroll, hprocessed, hdone⟩ := p.heed_plain hr now
    refine (h.covers p rfl hopen).mono (by omega) (by omega) fun lot _ => ?_
    rw [Lot.owed_congr hdone]
  · exact h.rests p rfl

theorem heedAll_plain {reports : List (Timestamp × Report)} (h : Dues owed (some p) lots)
    (hreports : ∀ r ∈ reports, r.2.isPlain = true) : Dues owed (some (p.heedAll reports)) lots := by
  induction reports generalizing p with
  | nil => exact h
  | cons r reports ih =>
    obtain ⟨hr, hrest⟩ := List.forall_mem_cons.1 hreports
    exact ih (h.heed_plain hr) hrest

/-- The work for a command that has ended may end anyhow. -/
theorem leave (h : Dues owed found (⟨b, s⟩ ::ₘ lots))
    (hended : ∀ p, found = some p → p.state.isTerminal = true) :
    Dues owed found (⟨b, .ended⟩ ::ₘ lots) := by
  apply h.restand (Nat.zero_le _)
  intro p hp hopen
  rw [hended p hp] at hopen
  exact absurd hopen (by simp)

/-- Work that aborts its command is over. -/
theorem abandon (h : Dues owed (some p) (⟨b, s⟩ ::ₘ lots)) (hr : r.isAbort = true) :
    Dues owed (some (p.heed now r)) (⟨b, .ended⟩ ::ₘ lots) := by
  apply (h.heed_plain (Progress.isPlain_of_isAbort hr)).leave
  intro q hq
  obtain rfl := Option.some.inj hq
  exact Progress.heed_isTerminal_of_isAbort p now hr

/-- Records that are counted are to be published. -/
theorem addScrolled {n : Nat} (h : Dues owed (some p) lots)
    (hfits : p.state.isTerminal = false → p.scrollCount + n < wordCount) :
    Dues (owed + n) (some (p.heed now (.addScrolled n))) lots := by
  apply heed
  · intro hopen
    have hcount : (p.addScrolled n).scrollCount = p.scrollCount + n :=
      Nat.mod_eq_of_lt (hfits hopen)
    refine (h.covers p rfl hopen).mono ?_ (Nat.le_refl _) fun _ _ => Nat.le_refl _
    rw [Progress.heed, hcount]
    omega
  · exact h.rests p rfl

/-- A batch that is reported is owed for no longer. -/
theorem report {n left errors : Nat} (h : Dues owed (some p) (⟨b, .working (n + left)⟩ ::ₘ lots)) :
    Dues owed (some (p.heed now (.recordBatch n errors))) (⟨b, .working left⟩ ::ₘ lots) := by
  apply heed
  · exact fun hopen => (h.covers p rfl hopen).report now errors
  · intro hended hstate
    obtain ⟨hself, hothers⟩ := Multiset.forall_mem_cons.1 (h.rests p rfl hended hstate)
    refine Multiset.forall_mem_cons.2 ⟨?_, hothers⟩
    have hsum : n + left = 0 := hself
    show left = 0
    omega

/-- A bucket that was worked through is done. -/
theorem complete {left : Nat} (h : Dues owed (some p) (⟨b, .working left⟩ ::ₘ lots)) :
    Dues owed (some (p.heed now (.completeBucket b.sequence))) (⟨b, .ended⟩ ::ₘ lots) := by
  apply heed
  · intro hopen
    obtain ⟨done, hq⟩ := p.completeBucket_frame b.sequence
    have hcounts : (p.completeBucket b.sequence).scrollCount = p.scrollCount ∧
        (p.completeBucket b.sequence).processed = p.processed := by
      rw [hq]
      exact ⟨rfl, rfl⟩
    have hcovers : (p.completeBucket b.sequence).Covers owed (⟨b, .working left⟩ ::ₘ lots) :=
      (h.covers p rfl hopen).mono (by omega) (by omega) fun lot _ =>
        p.owed_completeBucket_le b.sequence lot
    have hself : Lot.owed (p.completeBucket b.sequence) ⟨b, .ended⟩ = 0 := by
      simp [Lot.owed, Progress.isBucketDone_completeBucket]
    have hcovers' := Progress.covers_cons.1 hcovers
    refine Progress.covers_cons.2 ?_
    rw [Progress.heed, hself]
    omega
  · intro hended hstate
    have hothers := (Multiset.forall_mem_cons.1 (h.rests p rfl hended hstate)).2
    exact Multiset.forall_mem_cons.2 ⟨rfl, hothers⟩

end Dues

end BulkRun
