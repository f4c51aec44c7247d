import BulkRun.Proofs.Status.Live
import BulkRun.Bucket
import Mathlib.Algebra.GroupWithZero.Nat
/-!
# The books of a command

Every record that was counted as scrolled is accounted for: its outcome was reported, or it is in a
bucket that somebody still has to work on, or the scroll loop has yet to publish it.  `Books` says
this of a live command, of what its scroll loop holds (`Stock`) and of the buckets that were
published (`Lot`), and each operation of a scroll loop or of an execution keeps the books.

The balance is an inequality.  An execution that is broken off and begun again reports some records
twice, and a report that is cut down counts for less than it says.
-/

namespace BulkRun

open Tracker (Report)

/-- How far the work on a published bucket has come. -/
inductive Standing where
  /-- Nobody works on it. -/
  | untouched
  /-- It is worked on; so many of its records have no reported outcome. -/
  | working (left : Nat)
  /-- The work on it has come to an end. -/
  | ended
deriving DecidableEq, Repr

/-- A published bucket, wherever it is. -/
structure Lot where
  bucket : Bucket
  standing : Standing

namespace Standing

/-- The number of records that the work at hand has yet to report. -/
def left : Standing → Nat
  | .working left => left
  | _ => 0

/-- Whether a standing goes with a bucket that is done, or not done. -/
def Fits (isDone : Bool) : Standing → Prop
  | .untouched => True
  | .working _ => isDone = false
  | .ended => isDone = true

end Standing

/-- The records of a lot whose outcome is still to be reported. -/
def Lot.owed (p : Progress) (lot : Lot) : Nat :=
  match lot.standing with
  | .working left => left
  | _ => if p.isBucketDone lot.bucket.sequence then 0 else lot.bucket.ids.length

/-- What a scroll loop has yet to publish. -/
structure Stock where
  upcoming : List Bucket
  /-- The number of records that are in no bucket yet. -/
  loose : Nat
  /-- The number of the next bucket to be filled, while the scroll goes on. -/
  next : Option Nat
  /-- The number of records scrolled, while the scroll goes on. -/
  scrolled : Option Nat
  /-- Whether the loop has returned. -/
  returned : Bool

namespace Stock

/-- The number of records that are yet to be published. -/
def owed (s : Stock) : Nat := (s.upcoming.map (·.ids.length)).sum + s.loose

/-- The stock of a loop between two chunks. -/
def gathering (loose next scrolled : Nat) : Stock := ⟨[], loose, some next, some scrolled, false⟩

/-- The stock of a loop that has returned. -/
def empty : Stock := ⟨[], 0, none, none, true⟩

end Stock

/-- The books of a command that goes on. -/
structure Kept (stock : Stock) (lots : List Lot) (p : Progress) : Prop where
  consistent : p.Consistent
  goesOn : p.state.isTerminal = false
  fits : p.scrollCount < wordCount
  scrolled : ∀ n, stock.scrolled = some n → p.scrollCount = n
  below : ∀ n, stock.next = some n → ∀ k, p.isBucketDone k = true → k < n
  upcoming : ∀ b ∈ stock.upcoming, p.isBucketDone b.sequence = false
  standing : ∀ lot ∈ lots, lot.standing.Fits (p.isBucketDone lot.bucket.sequence)
  balance : p.scrollCount ≤ p.processed + stock.owed + (lots.map (Lot.owed p)).sum
  returned : stock.returned = true → p.scrollIsOver = true

/-- The books of a command: no two of its buckets have the same number, and while it is live all its
records are accounted for. -/
structure Books (stock : Stock) (live : Option Progress) (lots : List Lot) : Prop where
  distinct : ((lots.map (·.bucket) ++ stock.upcoming).map (·.sequence)).Nodup
  numbered : ∀ n, stock.next = some n → ∀ b ∈ lots.map (·.bucket) ++ stock.upcoming, b.sequence < n
  within : ∀ lot ∈ lots, lot.standing.left ≤ lot.bucket.ids.length
  kept : ∀ p, live = some p → Kept stock lots p

theorem Lot.owed_congr {p q : Progress} (h : q.completedBuckets = p.completedBuckets) :
    Lot.owed q = Lot.owed p := by
  funext lot
  unfold owed Progress.isBucketDone
  rw [h]

theorem Progress.isBucketDone_congr {p q : Progress} (h : q.completedBuckets = p.completedBuckets)
    (k : Nat) : q.isBucketDone k = p.isBucketDone k := by
  unfold isBucketDone
  rw [h]

namespace Kept

variable {stock : Stock} {lots lots' : List Lot} {p q : Progress}

theorem perm (h : Kept stock lots p) (hperm : lots.Perm lots') : Kept stock lots' p :=
  { h with
    standing := fun lot hlot => h.standing lot (hperm.mem_iff.2 hlot)
    balance := by
      rw [← (hperm.map (Lot.owed p)).sum_nat]
      exact h.balance }

/-- A change that leaves the counts and the done buckets keeps the books. -/
theorem of_same (h : Kept stock lots p) (hconsistent : q.Consistent)
    (hopen : q.state.isTerminal = false) (hscroll : q.scrollCount = p.scrollCount)
    (hprocessed : q.processed = p.processed) (hdone : q.completedBuckets = p.completedBuckets)
    (hended : p.scrollIsOver = true → q.scrollIsOver = true) : Kept stock lots q where
  consistent := hconsistent
  goesOn := hopen
  fits := by rw [hscroll]; exact h.fits
  scrolled n hn := by rw [hscroll]; exact h.scrolled n hn
  below n hn k hk := by
    rw [Progress.isBucketDone_congr hdone] at hk
    exact h.below n hn k hk
  upcoming b hb := by
    rw [Progress.isBucketDone_congr hdone]
    exact h.upcoming b hb
  standing lot hlot := by
    rw [Progress.isBucketDone_congr hdone]
    exact h.standing lot hlot
  balance := by
    rw [hscroll, hprocessed, Lot.owed_congr hdone]
    exact h.balance
  returned hr := hended (h.returned hr)

/-- The standing of a lot changes, and no more of its records are taken to be accounted for. -/
theorem restand {b : Bucket} {s s' : Standing} (h : Kept stock (⟨b, s⟩ :: lots) p)
    (hfits : s'.Fits (p.isBucketDone b.sequence)) (howed : Lot.owed p ⟨b, s⟩ ≤ Lot.owed p ⟨b, s'⟩) :
    Kept stock (⟨b, s'⟩ :: lots) p :=
  { h with
    standing := List.forall_mem_cons.2 ⟨hfits, (List.forall_mem_cons.1 h.standing).2⟩
    balance := by
      have hbalance := h.balance
      rw [List.map_cons, List.sum_cons] at hbalance ⊢
      omega }

end Kept

namespace Books

variable {stock : Stock} {live : Option Progress} {lots lots' : List Lot}

theorem perm (h : Books stock live lots) (hperm : lots.Perm lots') : Books stock live lots' where
  distinct := by
    refine List.Perm.nodup ?_ h.distinct
    exact ((hperm.map _).append_right _).map _
  numbered n hn b hb := by
    apply h.numbered n hn b
    exact ((hperm.map _).append_right _).mem_iff.2 hb
  within lot hlot := h.within lot (hperm.mem_iff.2 hlot)
  kept p hp := (h.kept p hp).perm hperm

/-- A command that is not live any more owes nothing. -/
theorem gone (h : Books stock live lots) : Books stock none lots :=
  { h with kept := fun _ hp => absurd hp (by simp) }

/-- A command that stays as it is or goes keeps its books. -/
theorem same_or_gone (h : Books stock live lots) {live' : Option Progress}
    (hlive : live' = live ∨ live' = none) : Books stock live' lots := by
  obtain rfl | rfl := hlive
  · exact h
  · exact h.gone

/-- A loop may return at any time once its command is not live. -/
theorem return_gone (h : Books stock none lots) : Books .empty none lots where
  distinct := by
    have hsub : (lots.map (·.bucket) ++ Stock.empty.upcoming).Sublist
        (lots.map (·.bucket) ++ stock.upcoming) :=
      List.Sublist.append_left (List.nil_sublist _) _
    exact (hsub.map _).nodup h.distinct
  numbered _ hn := absurd hn (by simp [Stock.empty])
  within := h.within
  kept _ hp := absurd hp (by simp)

/-- The books of a command that was just accepted. -/
theorem accepted (c : Command) (now : Timestamp) :
    Books (.gathering 0 0 0) (some (Progress.new c now)) [] where
  distinct := List.nodup_nil
  numbered _ _ b hb := absurd hb (by simp [Stock.gathering])
  within _ hlot := absurd hlot List.not_mem_nil
  kept p hp := by
    obtain rfl := Option.some.inj hp
    exact {
      consistent := Progress.consistent_new c now
      goesOn := rfl
      fits := show 0 < wordCount by decide
      scrolled := fun n hn => Option.some.inj hn
      below := fun n hn k hk => absurd hk (by simp [Progress.new, Progress.isBucketDone])
      upcoming := fun b hb => absurd hb List.not_mem_nil
      standing := fun lot hlot => absurd hlot List.not_mem_nil
      balance := Nat.zero_le _
      returned := nofun }

/-! ## What a scroll loop does -/

section Loop

variable (now : Timestamp) {loose next scrolled : Nat}

/-- The scroll begins, which counts nothing. -/
theorem startScrolling (h : Books stock live lots) :
    Books stock (live.bind fun p => (p.heed now .startScrolling).live) lots :=
  { h with
    kept := by
      intro q hq
      rcases Progress.exists_of_heed now hq with ⟨p, hp, hopen, rfl⟩
      have hk := h.kept p hp
      obtain ⟨s, at', hq⟩ := Progress.startScrolling_frame now p
      exact hk.of_same (hk.consistent.heed now .startScrolling hk.fits).1 hopen
        (by rw [Progress.heed, hq]) (by rw [Progress.heed, hq]) (by rw [Progress.heed, hq])
        (fun hended => by rw [Progress.heed, hq]; exact hended) }

/-- Buckets that are numbered from a number on have their numbers there. -/
theorem sequence_bounds {full : List Bucket}
    (hnumbers : full.map (·.sequence) = List.range' next full.length) {b : Bucket} (hb : b ∈ full) :
    next ≤ b.sequence ∧ b.sequence < next + full.length := by
  have hmem : b.sequence ∈ full.map (·.sequence) := List.mem_map_of_mem hb
  rw [hnumbers] at hmem
  exact List.mem_range'_1.1 hmem

/-- A chunk is counted, and its records and those that were loose are grouped into full buckets with
the next numbers. -/
theorem addScrolled (h : Books (.gathering loose next scrolled) live lots) {full : List Bucket}
    {count loose' : Nat} (hnumbers : full.map (·.sequence) = List.range' next full.length)
    (htotal : (full.map (·.ids.length)).sum + loose' = loose + count)
    (hfits : ∀ p, live = some p → scrolled + count < wordCount) :
    Books ⟨full, loose', some (next + full.length), some (scrolled + count), false⟩
      (live.bind fun p => (p.heed now (.addScrolled count)).live) lots where
  distinct := by
    -- all published buckets have smaller numbers than the new ones
    have hlots : ((lots.map (·.bucket)).map (·.sequence)).Nodup := by
      simpa [Stock.gathering] using h.distinct
    rw [List.map_append, hnumbers]
    refine List.nodup_append.2 ⟨hlots, List.nodup_range', ?_⟩
    intro k hk k' hk'
    obtain ⟨b, hb, rfl⟩ := List.mem_map.1 hk
    have hlow := h.numbered next rfl b (List.mem_append_left _ hb)
    have hhigh := (List.mem_range'_1.1 hk').1
    omega
  numbered n hn b hb := by
    obtain rfl : next + full.length = n := Option.some.inj hn
    obtain hb | hb := List.mem_append.1 hb
    · have := h.numbered next rfl b (List.mem_append_left _ hb)
      omega
    · exact (sequence_bounds hnumbers hb).2
  within := h.within
  kept q hq := by
    rcases Progress.exists_of_heed now hq with ⟨p, hp, hopen, rfl⟩
    have hk := h.kept p hp
    have hscrolled := hk.scrolled scrolled rfl
    have hfit : p.scrollCount + count < wordCount := by rw [hscrolled]; exact hfits p hp
    have hcount : (p.addScrolled count).scrollCount = p.scrollCount + count := Nat.mod_eq_of_lt hfit
    exact {
      consistent := (hk.consistent.heed now (.addScrolled count) hfit).1
      goesOn := hopen
      fits := by rw [Progress.heed, hcount]; exact hfit
      scrolled := by
        intro n hn
        rw [Progress.heed, hcount, hscrolled]
        exact Option.some.inj hn
      below := by
        intro n hn k hdone
        have := hk.below next rfl k hdone
        obtain rfl : next + full.length = n := Option.some.inj hn
        omega
      upcoming := by
        intro b hb
        -- only buckets with smaller numbers were done
        cases hdone : (p.heed now (.addScrolled count)).isBucketDone b.sequence
        · rfl
        · have hlow := hk.below next rfl b.sequence hdone
          have hhigh := (sequence_bounds hnumbers hb).1
          omega
      standing := hk.standing
      balance := by
        have hbalance := hk.balance
        rw [Progress.heed, hcount]
        simp only [Stock.owed, Stock.gathering, List.map_nil, List.sum_nil] at hbalance ⊢
        rw [htotal, show Lot.owed (p.addScrolled count) = Lot.owed p from rfl]
        have hprocessed : (p.addScrolled count).processed = p.processed := rfl
        omega
      returned := nofun }

/-- A bucket is published. -/
theorem publish {b : Bucket} {rest : List Bucket} {n k : Option Nat} {r : Bool}
    (h : Books ⟨b :: rest, loose, n, k, r⟩ live lots) :
    Books ⟨rest, loose, n, k, r⟩ live (⟨b, .untouched⟩ :: lots) where
  distinct := h.distinct.perm (List.perm_middle.map _)
  numbered m hm c hc := h.numbered m hm c (List.perm_middle.mem_iff.2 hc)
  within := List.forall_mem_cons.2 ⟨Nat.zero_le _, h.within⟩
  kept p hp := by
    have hk := h.kept p hp
    exact { hk with
      upcoming := fun c hc => hk.upcoming c (List.mem_cons_of_mem b hc)
      standing := List.forall_mem_cons.2 ⟨trivial, hk.standing⟩
      balance := by
        have hbalance := hk.balance
        -- what was owed for a bucket in stock is owed for it now that it is published
        have howed : Lot.owed p ⟨b, .untouched⟩ = b.ids.length := by
          simp [Lot.owed, hk.upcoming b List.mem_cons_self]
        simp only [Stock.owed, List.map_cons, List.sum_cons, howed] at hbalance ⊢
        omega }

/-- The loose records become the last bucket, and nothing more is scrolled. -/
theorem flush (h : Books (.gathering loose next scrolled) live lots) {b : Bucket}
    (hnumber : b.sequence = next) (hlength : b.ids.length = loose) :
    Books ⟨[b], 0, none, none, false⟩ live lots where
  distinct := by
    have hlots : ((lots.map (·.bucket)).map (·.sequence)).Nodup := by
      simpa [Stock.gathering] using h.distinct
    rw [List.map_append]
    refine List.nodup_append.2 ⟨hlots, by simp, ?_⟩
    intro k hk k' hk'
    obtain ⟨c, hc, rfl⟩ := List.mem_map.1 hk
    have hlow := h.numbered next rfl c (List.mem_append_left _ hc)
    obtain rfl : k' = b.sequence := List.mem_singleton.1 hk'
    omega
  numbered := nofun
  within := h.within
  kept p hp := by
    have hk := h.kept p hp
    exact { hk with
      scrolled := nofun
      below := nofun
      upcoming := by
        intro c hc
        obtain rfl : c = b := List.mem_singleton.1 hc
        cases hdone : p.isBucketDone c.sequence
        · rfl
        · have := hk.below next rfl c.sequence hdone
          omega
      balance := by
        have hbalance := hk.balance
        simp only [Stock.owed, Stock.gathering, List.map_cons, List.map_nil, List.sum_cons,
          List.sum_nil] at hbalance ⊢
        omega
      returned := nofun }

/-- The scroll comes to its end, or breaks off, when all it found is published. -/
theorem endScroll (h : Books stock live lots) (hupcoming : stock.upcoming = [])
    (hloose : stock.loose = 0) {r : Report} (hr : r = .markSubmitted ∨ ∃ m, r = .failScroll m) :
    Books .empty (live.bind fun p => (p.heed now r).live) lots where
  distinct := by
    rw [show Stock.empty.upcoming = stock.upcoming from hupcoming.symm]
    exact h.distinct
  numbered _ hn := absurd hn (by simp [Stock.empty])
  within := h.within
  kept q hq := by
    rcases Progress.exists_of_heed now hq with ⟨p, hp, hopen, rfl⟩
    have hk := h.kept p hp
    have hscrolled : r.scrolled = 0 := by
      obtain rfl | ⟨m, rfl⟩ := hr <;> rfl
    have hconsistent := (hk.consistent.heed now r (by rw [hscrolled]; exact hk.fits)).1
    obtain ⟨hcount, hprocessed, hdone, hended⟩ :
        (p.heed now r).scrollCount = p.scrollCount ∧ (p.heed now r).processed = p.processed ∧
        (p.heed now r).completedBuckets = p.completedBuckets ∧
        (p.heed now r).scrollIsOver = true := by
      obtain rfl | ⟨m, rfl⟩ := hr
      · simp [Progress.heed, Progress.markSubmitted, Progress.scrollIsOver]
      · simp [Progress.heed, Progress.failScroll, Progress.scrollIsOver]
    have hsame := hk.of_same hconsistent hopen hcount hprocessed hdone fun _ => hended
    exact { hsame with
      scrolled := fun n hn => absurd hn (by simp [Stock.empty])
      below := fun n hn => absurd hn (by simp [Stock.empty])
      upcoming := fun b hb => absurd hb (by simp [Stock.empty])
      balance := by
        have hbalance := hsame.balance
        simpa [Stock.owed, Stock.empty, hupcoming, hloose] using hbalance
      returned := fun _ => hended }

end Loop

/-! ## What an execution does -/

section Execution

variable (now : Timestamp) {b : Bucket}

/-- The standing of a published bucket changes; the bucket keeps its number. -/
theorem restand {live' : Option Progress} {s s' : Standing} (h : Books stock live (⟨b, s⟩ :: lots))
    (hleft : s'.left ≤ b.ids.length)
    (hkept : ∀ q, live' = some q → Kept stock (⟨b, s'⟩ :: lots) q) :
    Books stock live' (⟨b, s'⟩ :: lots) where
  distinct := h.distinct
  numbered := h.numbered
  within := List.forall_mem_cons.2 ⟨hleft, (List.forall_mem_cons.1 h.within).2⟩
  kept := hkept

/-- The work on a bucket begins. -/
theorem begin (h : Books stock live (⟨b, .untouched⟩ :: lots))
    (hdone : ∀ p, live = some p → p.isBucketDone b.sequence = false) :
    Books stock live (⟨b, .working b.ids.length⟩ :: lots) := by
  apply h.restand (Nat.le_refl _)
  intro p hp
  have hfits : Standing.Fits (p.isBucketDone b.sequence) (.working b.ids.length) := hdone p hp
  apply (h.kept p hp).restand hfits
  simp [Lot.owed, hdone p hp]

/-- A bucket that was worked through before is passed over. -/
theorem skip (h : Books stock live (⟨b, .untouched⟩ :: lots))
    (hdone : ∀ p, live = some p → p.isBucketDone b.sequence = true) :
    Books stock live (⟨b, .ended⟩ :: lots) := by
  apply h.restand (Nat.zero_le _)
  intro p hp
  exact (h.kept p hp).restand (hdone p hp) (Nat.le_refl _)

/-- The work of a command that is not live any more is over, whatever is left of it. -/
theorem leave {s : Standing} (h : Books stock none (⟨b, s⟩ :: lots)) :
    Books stock none (⟨b, .ended⟩ :: lots) := by
  apply h.restand (Nat.zero_le _)
  intro p hp
  exact absurd hp (by simp)

/-- A batch is reported. -/
theorem report {n left errors : Nat} (h : Books stock live (⟨b, .working (n + left)⟩ :: lots)) :
    Books stock (live.bind fun p => (p.heed now (.recordBatch n errors)).live)
      (⟨b, .working left⟩ :: lots) := by
  have hwithin : n + left ≤ b.ids.length := h.within _ List.mem_cons_self
  apply h.restand (Nat.le_trans (Nat.le_add_left left n) hwithin)
  intro q hq
  rcases Progress.exists_of_heed now hq with ⟨p, hp, hopen, rfl⟩
  have hk := h.kept p hp
  have hfits := hk.fits
  have hcount : (p.heed now (.recordBatch n errors)).scrollCount = p.scrollCount := by
    simp [Progress.heed, Progress.recordBatch]
  have hprocessed : (p.heed now (.recordBatch n errors)).processed =
      min (min (p.processed + n) wordMax) p.scrollCount := by
    simp [Progress.heed, Progress.recordBatch]
  have hdone : (p.heed now (.recordBatch n errors)).completedBuckets = p.completedBuckets := by
    simp [Progress.heed, Progress.recordBatch]
  have hended : (p.heed now (.recordBatch n errors)).scrollIsOver = p.scrollIsOver := by
    simp [Progress.heed, Progress.recordBatch, Progress.scrollIsOver]
  exact {
    consistent := (hk.consistent.heed now (.recordBatch n errors) hfits).1
    goesOn := hopen
    fits := by rw [hcount]; exact hfits
    scrolled := fun m hm => by rw [hcount]; exact hk.scrolled m hm
    below := by
      intro m hm k hd
      rw [Progress.isBucketDone_congr hdone] at hd
      exact hk.below m hm k hd
    upcoming := by
      intro c hc
      rw [Progress.isBucketDone_congr hdone]
      exact hk.upcoming c hc
    standing := by
      intro lot hlot
      rw [Progress.isBucketDone_congr hdone]
      obtain rfl | hlot := List.mem_cons.1 hlot
      · exact hk.standing ⟨b, .working (n + left)⟩ List.mem_cons_self
      · exact hk.standing lot (List.mem_cons_of_mem _ hlot)
    balance := by
      have hbalance := hk.balance
      rw [hcount, hprocessed, Lot.owed_congr hdone]
      simp only [List.map_cons, List.sum_cons, Lot.owed] at hbalance ⊢
      unfold wordMax
      -- a report that is cut down at the count leaves nothing to be accounted for
      omega
    returned := fun hr => by rw [hended]; exact hk.returned hr }

/-- A bucket is worked through: it is remembered as done, which no other bucket is affected by. -/
theorem complete (h : Books stock live (⟨b, .working 0⟩ :: lots)) :
    Books stock (live.bind fun p => (p.heed now (.completeBucket b.sequence)).live)
      (⟨b, .ended⟩ :: lots) := by
  apply h.restand (Nat.zero_le _)
  intro q hq
  rcases Progress.exists_of_heed now hq with ⟨p, hp, hopen, rfl⟩
  have hk := h.kept p hp
  -- what was done before is done, and no other bucket has this number
  have hsame (k : Nat) (hne : k ≠ b.sequence) :
      (p.completeBucket b.sequence).isBucketDone k = p.isBucketDone k := by
    rw [Progress.isBucketDone_completeBucket, beq_eq_false_iff_ne.2 hne, Bool.or_false]
  have hother : ∀ c ∈ lots.map (·.bucket) ++ stock.upcoming, c.sequence ≠ b.sequence := by
    intro c hc heq
    have hdistinct := h.distinct
    rw [List.map_cons, List.cons_append, List.map_cons, List.nodup_cons] at hdistinct
    apply hdistinct.1
    rw [← heq]
    exact List.mem_map_of_mem hc
  have hlots : ∀ lot ∈ lots, (p.completeBucket b.sequence).isBucketDone lot.bucket.sequence =
      p.isBucketDone lot.bucket.sequence := by
    intro lot hlot
    exact hsame _ (hother lot.bucket (List.mem_append_left _ (List.mem_map_of_mem hlot)))
  have howed : lots.map (Lot.owed (p.completeBucket b.sequence)) = lots.map (Lot.owed p) := by
    apply List.map_congr_left
    intro lot hlot
    unfold Lot.owed
    rw [hlots lot hlot]
  have hself : (p.completeBucket b.sequence).isBucketDone b.sequence = true := by
    rw [Progress.isBucketDone_completeBucket, beq_self_eq_true, Bool.or_true]
  obtain ⟨done, hq⟩ := p.completeBucket_frame b.sequence
  have hscroll : (p.completeBucket b.sequence).scrollCount = p.scrollCount := by rw [hq]
  have hprocessed : (p.completeBucket b.sequence).processed = p.processed := by rw [hq]
  have hended : (p.completeBucket b.sequence).scrollIsOver = p.scrollIsOver := by rw [hq]; rfl
  exact {
    consistent := Progress.consistent_completeBucket hk.consistent b.sequence
    goesOn := hopen
    fits := by rw [Progress.heed, hscroll]; exact hk.fits
    scrolled := fun n hn => by rw [Progress.heed, hscroll]; exact hk.scrolled n hn
    below := by
      intro n hn k hd
      by_cases hk' : k = b.sequence
      · rw [hk']
        exact h.numbered n hn b List.mem_cons_self
      · rw [Progress.heed, hsame k hk'] at hd
        exact hk.below n hn k hd
    upcoming := by
      intro c hc
      rw [Progress.heed, hsame _ (hother c (List.mem_append_right _ hc))]
      exact hk.upcoming c hc
    standing := by
      intro lot hlot
      obtain rfl | hlot := List.mem_cons.1 hlot
      · exact hself
      · rw [Progress.heed, hlots lot hlot]
        exact hk.standing lot (List.mem_cons_of_mem _ hlot)
    balance := by
      have hbalance := hk.balance
      -- the last batch was reported, so the bucket owed nothing any more
      have hnothing : Lot.owed (p.completeBucket b.sequence) ⟨b, .ended⟩ = 0 := by
        simp [Lot.owed, hself]
      rw [Progress.heed, hscroll, hprocessed, List.map_cons, List.sum_cons, howed, hnothing]
      simpa [Lot.owed] using hbalance
    returned := fun hr => by rw [Progress.heed, hended]; exact hk.returned hr }

/-! ## What a receiver does -/

/-- A bucket is handed back, whether or not the work on it was finished. -/
theorem handBack {s : Standing} (h : Books stock live (⟨b, s⟩ :: lots)) :
    Books stock live (⟨b, .untouched⟩ :: lots) := by
  apply h.restand (Nat.zero_le _)
  intro p hp
  have hstanding := (h.kept p hp).standing _ List.mem_cons_self
  have hwithin := h.within _ List.mem_cons_self
  have hfits : Standing.untouched.Fits (p.isBucketDone b.sequence) := trivial
  apply (h.kept p hp).restand hfits
  -- all of a bucket that is not done is owed again
  cases s with
  | untouched => exact Nat.le_refl _
  | working left =>
    have hopen : p.isBucketDone b.sequence = false := hstanding
    have hleft : left ≤ b.ids.length := hwithin
    simpa [Lot.owed, hopen] using hleft
  | ended => exact Nat.le_refl _

/-- A bucket is acknowledged when the work on it is over. -/
theorem acknowledge (h : Books stock live (⟨b, .ended⟩ :: lots)) : Books stock live lots where
  distinct := by
    have hdistinct := h.distinct
    rw [List.map_cons, List.cons_append, List.map_cons, List.nodup_cons] at hdistinct
    exact hdistinct.2
  numbered n hn c hc := h.numbered n hn c (List.mem_cons_of_mem b hc)
  within lot hlot := h.within lot (List.mem_cons_of_mem _ hlot)
  kept p hp := by
    have hk := h.kept p hp
    have hdone : p.isBucketDone b.sequence = true := hk.standing _ List.mem_cons_self
    exact { hk with
      standing := fun lot hlot => hk.standing lot (List.mem_cons_of_mem _ hlot)
      balance := by
        have hbalance := hk.balance
        simpa [Lot.owed, hdone] using hbalance }

end Execution

/-- Books of which nothing is left open belong to a command that is not live. -/
theorem live_eq_none (h : Books .empty live lots) (hended : ∀ lot ∈ lots, lot.standing = .ended) :
    live = none := by
  cases hlive : live with
  | none => rfl
  | some p =>
    have hk := h.kept p hlive
    -- nothing is owed, so all that was scrolled was worked on, and the command has ended
    have howed : (lots.map (Lot.owed p)).sum = 0 := by
      rw [List.sum_eq_zero_iff_forall_eq_nat]
      intro n hn
      obtain ⟨lot, hlot, rfl⟩ := List.mem_map.1 hn
      have hdone := hk.standing lot hlot
      rw [hended lot hlot] at hdone
      have hdone : p.isBucketDone lot.bucket.sequence = true := hdone
      rw [Lot.owed, hended lot hlot]
      simp [hdone]
    have hbalance : p.scrollCount ≤ p.processed := by
      simpa [Stock.owed, Stock.empty, howed] using hk.balance
    have hended := hk.consistent.ended (hk.returned rfl)
      (Nat.le_antisymm hk.consistent.processed_le hbalance)
    rw [hk.goesOn] at hended
    exact absurd hended Bool.false_ne_true

end Books

end BulkRun
