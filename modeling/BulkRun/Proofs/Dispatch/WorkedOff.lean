import BulkRun.Proofs.Dispatch.Dues
import BulkRun.Proofs.Status.ScrollFailure
/-!
# Published buckets are worked off

While a command goes on, each bucket that was published of it is done, or it is still there to be
worked on; and the work on a bucket that is done was begun throughout.  So when the command comes to
its end with all that was scrolled worked on, no bucket is left: its dues say that nothing is owed
for those that are still there (`begun_of_drained`).
-/

namespace BulkRun

open Tracker (Report Heeds Retains)

variable {σ : Type}

/-! ## Work that was begun -/

/-- Whether a transaction was asked for on behalf of a command to work on a batch of a bucket, among
all the work for which one was asked. -/
def Begun (k : Command) (opened : List (Work σ)) (b : Bucket) (batch : Batch) : Prop :=
  ∃ w ∈ opened, w.command = k ∧ w.bucket = b ∧ w.batch = batch

/-- Whether the work on all batches of a bucket was begun. -/
def AllBegun (k : Command) (opened : List (Work σ)) (b : Bucket) : Prop :=
  ∀ batch ∈ batches b.ids k.batchSize, Begun k opened b batch

theorem Begun.append {k : Command} {opened : List (Work σ)} {b : Bucket} {batch : Batch}
    (h : Begun k opened b batch) (more : List (Work σ)) : Begun k (opened ++ more) b batch := by
  obtain ⟨w, hw, h⟩ := h
  exact ⟨w, List.mem_append_left more hw, h⟩

theorem AllBegun.append {k : Command} {opened : List (Work σ)} {b : Bucket}
    (h : AllBegun k opened b) (more : List (Work σ)) : AllBegun k (opened ++ more) b :=
  fun batch hbatch => (h batch hbatch).append more

/-- A bucket without records has no batch. -/
theorem allBegun_of_nil {k : Command} {opened : List (Work σ)} {b : Bucket} (h : b.ids = []) :
    AllBegun k opened b := by
  intro batch hbatch
  rw [h, batches, chunks_nil] at hbatch
  exact absurd hbatch List.not_mem_nil

/-! ## What becomes of the published buckets -/

/-- Where the published buckets of a command are, of which some are still there. -/
structure WorkedOff (begun : Bucket → Prop) (published : List Bucket) (there : Multiset Bucket)
    (found : Option Progress) : Prop where
  numbers : (published.map (·.sequence)).Nodup
  member : ∀ b ∈ there, b ∈ published
  done : ∀ p, found = some p → ∀ n, p.isBucketDone n = true →
    ∃ b ∈ published, b.sequence = n ∧ begun b
  left : ∀ p, found = some p → p.state.isTerminal = false → ∀ b ∈ published,
    p.isBucketDone b.sequence = false → b ∈ there
  ended : (∀ p, found = some p → p.state.isTerminal = true) → ∀ b ∈ published, begun b

namespace WorkedOff

variable {begun begun' : Bucket → Prop} {published : List Bucket} {there : Multiset Bucket}
  {found : Option Progress} {p q : Progress} {b : Bucket} {id : CommandId} {t u : Tracker}
  {now : Timestamp} {r : Report} {owed : Nat} {lots : Multiset Lot}

/-- Of a command that was just accepted nothing was published. -/
theorem new (begun : Bucket → Prop) (hfound : ∀ p, found = some p → p.completedBuckets = ∅) :
    WorkedOff begun [] 0 found where
  numbers := List.nodup_nil
  member _ hb := absurd hb (Multiset.notMem_zero _)
  done p hp n hn := by
    rw [Progress.isBucketDone, hfound p hp] at hn
    exact absurd hn (by simp)
  left _ _ _ _ hb := absurd hb List.not_mem_nil
  ended _ _ hb := absurd hb List.not_mem_nil

/-- More work was begun. -/
theorem mono (h : WorkedOff begun published there found) (hmore : ∀ b, begun b → begun' b) :
    WorkedOff begun' published there found :=
  { h with
    done := by
      intro p hp n hn
      obtain ⟨b, hb, hsequence, hbegun⟩ := h.done p hp n hn
      exact ⟨b, hb, hsequence, hmore b hbegun⟩
    ended := fun hended b hb => hmore b (h.ended hended b hb) }

/-- The command stays as it is, or is dropped when it has ended. -/
theorem retain (h : WorkedOff begun published there (t.find? id)) (hretains : Retains id t u) :
    WorkedOff begun published there (u.find? id) := by
  obtain hsame | ⟨hgone, hended⟩ := hretains
  · rw [hsame]
    exact h
  · rw [hgone]
    exact { h with
      done := fun p hp => absurd hp (by simp)
      left := fun p hp => absurd hp (by simp)
      ended := fun _ => h.ended hended }

/-- The work on a done bucket was begun throughout. -/
theorem begun_of_done (h : WorkedOff begun published there (some p)) (hb : b ∈ published)
    (hdone : p.isBucketDone b.sequence = true) : begun b := by
  obtain ⟨c, hc, hsequence, hbegun⟩ := h.done p rfl b.sequence hdone
  rwa [List.inj_on_of_nodup_map h.numbers hc hb hsequence] at hbegun

/-- A report that leaves the done buckets, and does not end the command with work to be begun. -/
theorem heed (h : WorkedOff begun published there (some p))
    (hsame : (p.heed now r).completedBuckets = p.completedBuckets)
    (hended : p.state.isTerminal = false → (p.heed now r).state.isTerminal = true →
      ∀ b ∈ published, begun b) : WorkedOff begun published there (some (p.heed now r)) where
  numbers := h.numbers
  member := h.member
  done q hq n hn := by
    obtain rfl := Option.some.inj hq
    rw [Progress.isBucketDone_congr hsame] at hn
    exact h.done p rfl n hn
  left q hq hopen b hb hdone := by
    obtain rfl := Option.some.inj hq
    rw [Progress.isBucketDone_congr hsame] at hdone
    refine h.left p rfl ?_ b hb hdone
    by_contra hterminal
    rw [p.heed_isTerminal now (Bool.not_eq_false _ ▸ hterminal) r] at hopen
    exact absurd hopen (by simp)
  ended hterminal := by
    cases hp : p.state.isTerminal with
    | true => exact h.ended fun q hq => Option.some.inj hq ▸ hp
    | false => exact hended hp (hterminal _ rfl)

/-- A bucket is done when the work on all its batches was begun. -/
theorem complete (h : WorkedOff begun published there (some p)) (hb : b ∈ published)
    (hbegun : begun b) : WorkedOff begun published there
      (some (p.heed now (.completeBucket b.sequence))) := by
  obtain ⟨done, hframe⟩ := p.completeBucket_frame b.sequence
  have hstate : (p.completeBucket b.sequence).state = p.state := by rw [hframe]
  refine ⟨h.numbers, h.member, fun q hq n hn => ?_, fun q hq hopen c hc hdone => ?_,
    fun hended => ?_⟩
  · obtain rfl := Option.some.inj hq
    rw [Progress.heed, Progress.isBucketDone_completeBucket, Bool.or_eq_true] at hn
    obtain hn | hn := hn
    · exact h.done p rfl n hn
    · exact ⟨b, hb, (eq_of_beq hn).symm, hbegun⟩
  · obtain rfl := Option.some.inj hq
    rw [Progress.heed, Progress.isBucketDone_completeBucket, Bool.or_eq_false_iff] at hdone
    rw [Progress.heed, hstate] at hopen
    exact h.left p rfl hopen c hc hdone.1
  · refine h.ended fun q hq => ?_
    obtain rfl := Option.some.inj hq
    have hterminal := hended _ rfl
    rwa [Progress.heed, hstate] at hterminal

/-- A bucket is published while the command goes on. -/
theorem publish (h : WorkedOff begun published there (some p)) (hopen : p.state.isTerminal = false)
    (hnumbers : ((published ++ [b]).map (·.sequence)).Nodup) :
    WorkedOff begun (published ++ [b]) (b ::ₘ there) (some p) where
  numbers := hnumbers
  member c hc := by
    obtain rfl | hc := Multiset.mem_cons.1 hc
    · exact List.mem_append_right published (List.mem_singleton_self c)
    · exact List.mem_append_left [b] (h.member c hc)
  done q hq n hn := by
    obtain ⟨c, hc, hsequence, hbegun⟩ := h.done q hq n hn
    exact ⟨c, List.mem_append_left [b] hc, hsequence, hbegun⟩
  left q hq hopen c hc hdone := by
    obtain hc | hc := List.mem_append.1 hc
    · exact Multiset.mem_cons_of_mem (h.left q hq hopen c hc hdone)
    · rw [List.mem_singleton.1 hc]
      exact Multiset.mem_cons_self b there
  ended hended := by
    rw [hended p rfl] at hopen
    exact absurd hopen (by simp)

/-- A bucket is put away that needs no more work. -/
theorem putAway (h : WorkedOff begun published (b ::ₘ there) found)
    (hshut : ∀ p, found = some p → p.Shuts b.sequence) : WorkedOff begun published there found :=
  { h with
    member := fun c hc => h.member c (Multiset.mem_cons_of_mem hc)
    left := by
      intro p hp hopen c hc hdone
      obtain rfl | hc' := Multiset.mem_cons.1 (h.left p hp hopen c hc hdone)
      · obtain hterminal | hdone' := hshut p hp
        · rw [hterminal] at hopen
          exact absurd hopen (by simp)
        · rw [hdone'] at hdone
          exact absurd hdone (by simp)
      · exact hc' }

/-- When all that was scrolled of a command that goes on was worked on, no work is left to be
begun. -/
theorem begun_of_drained (h : WorkedOff begun published (lots.map (·.bucket)) (some p))
    (hopen : p.state.isTerminal = false) (hsame : q.completedBuckets = p.completedBuckets)
    (hcovers : q.Covers owed lots) (hdrained : q.scrollCount ≤ q.processed)
    (hnil : ∀ b : Bucket, b.ids = [] → begun b)
    (hworking : ∀ lot ∈ lots, lot.standing = .working 0 → begun lot.bucket) :
    ∀ b ∈ published, begun b := by
  intro b hb
  cases hdone : p.isBucketDone b.sequence with
  | true => exact h.begun_of_done hb hdone
  | false =>
    obtain ⟨lot, hlot, rfl⟩ := Multiset.mem_map.1 (h.left p rfl hopen b hb hdone)
    -- nothing is owed for the buckets that are still there
    have hle : Lot.owed q lot ≤ (lots.map (Lot.owed q)).sum :=
      Multiset.single_le_sum (fun _ _ => Nat.zero_le _) _ (Multiset.mem_map_of_mem _ hlot)
    have hnothing : Lot.owed q lot = 0 := by
      unfold Progress.Covers at hcovers
      omega
    rw [Lot.owed_congr hsame] at hnothing
    obtain ⟨bucket, standing⟩ := lot
    cases standing with
    | working left =>
      obtain rfl : left = 0 := hnothing
      exact hworking _ hlot rfl
    | _ =>
      rw [Lot.owed] at hnothing
      simp only [hdone, if_neg Bool.false_ne_true] at hnothing
      exact hnil bucket (List.length_eq_zero_iff.1 hnothing)

/-- A report that counts nothing may end the command only when no work is left to be begun. -/
theorem tell (h : WorkedOff begun published (lots.map (·.bucket)) (some p))
    (hplain : r.isPlain = true) (hr : r.isAbort = false) (hdues : Dues owed (some p) lots)
    (hnil : ∀ b : Bucket, b.ids = [] → begun b)
    (hworking : ∀ lot ∈ lots, lot.standing ≠ .working 0) :
    WorkedOff begun published (lots.map (·.bucket)) (some (p.heed now r)) := by
  obtain ⟨hscroll, hprocessed, hsame⟩ := p.heed_plain hplain now
  refine h.heed hsame fun hopen hended => ?_
  have hcovers : (p.heed now r).Covers owed lots := by
    refine (hdues.covers p rfl hopen).mono (by omega) (by omega) fun lot _ => ?_
    rw [Lot.owed_congr hsame]
  exact h.begun_of_drained hopen hsame hcovers (Progress.drained_of_heed hopen hended hr) hnil
    fun lot hlot hzero => absurd hzero (hworking lot hlot)

/-- The report of a batch may end the command only when that was the last batch, and no other is
left to be begun. -/
theorem report {n later errors : Nat}
    (h : WorkedOff begun published (b ::ₘ lots.map (·.bucket)) (some p))
    (hdues : Dues owed (some p) (⟨b, .working (n + later)⟩ ::ₘ lots))
    (hnil : ∀ b : Bucket, b.ids = [] → begun b)
    (hworking : ∀ lot ∈ lots, lot.standing ≠ .working 0) (hlast : later = 0 → begun b) :
    WorkedOff begun published (b ::ₘ lots.map (·.bucket))
      (some (p.heed now (.recordBatch n errors))) := by
  have hsame : (p.heed now (.recordBatch n errors)).completedBuckets = p.completedBuckets :=
    Progress.completedBuckets_heed now (by simp)
  refine h.heed hsame fun hopen hended => ?_
  have hcovers := (hdues.covers p rfl hopen).report now errors
  have hmap : b ::ₘ lots.map (·.bucket) =
      Multiset.map (·.bucket) (⟨b, .working later⟩ ::ₘ lots) := by rw [Multiset.map_cons]
  rw [hmap] at h
  refine h.begun_of_drained hopen hsame hcovers (Progress.drained_of_heed hopen hended rfl) hnil ?_
  intro lot hlot hzero
  obtain rfl | hlot := Multiset.mem_cons.1 hlot
  · exact hlast (Standing.working.inj hzero)
  · exact absurd hzero (hworking lot hlot)

end WorkedOff

end BulkRun
