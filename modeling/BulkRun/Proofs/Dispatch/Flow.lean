import BulkRun.Proofs.Bucketing
import BulkRun.Proofs.InMemory.Wiring
import BulkRun.Proofs.Status.Convergence
/-!
# The flow of records

Every record of a command is at one place at a time: its outcome was told, or somebody has it in
hand, or it is in a bucket that nobody has received, or it is still to be scrolled.  The records at
these places, one place after the other, are the records of the command in their order.  `Flow` says
so of what was told and of what the action was tried on, and there is one lemma for every way in
which records move on.  When nothing is left to move, all of them were told (`Flow.workedThrough`).
-/

namespace BulkRun

open InMemory (World QueryLists RecordingAction)

/-- A command that is run, and what it is run with. -/
structure Plan where
  command : Command
  /-- The place of the lists that its scroller draws on. -/
  source : Nat
  lists : QueryLists
  /-- The number of records that its scroll asks for at once. -/
  fetchSize : Nat
  /-- The place of its action. -/
  target : Nat
  action : RecordingAction

namespace Plan

/-- The records that the action is to be tried on: those that the query finds, as far as the limit
of the command goes. -/
def records (plan : Plan) : List String := plan.command.cut (plan.lists.found plan.command.query)

/-- The id of the command. -/
def id (plan : Plan) : CommandId := plan.command.id

/-- Whether a plan is about collaborators of a world that answer, and asks for records at all. -/
structure IsWired (w₀ : World) (plan : Plan) : Prop where
  source : w₀.sources[plan.source]? = some (.queryLists plan.lists)
  lists : plan.lists.IsSteady
  target : w₀.actions[plan.target]? = some (.recording plan.action)
  action : plan.action.IsSteady
  bucketSize : 0 < plan.command.bucketSize
  fetchSize : 0 < plan.fetchSize

/-- Whether room can be set aside for the buckets and for the chunks of a plan. -/
structure Fits (plan : Plan) : Prop where
  buckets : plan.command.bucketSize ≤ maxReserved
  chunks : (Cursor.new plan.command).wanted plan.fetchSize ≤ maxReserved

instance (plan : Plan) : Decidable plan.Fits :=
  decidable_of_iff
    (plan.command.bucketSize ≤ maxReserved ∧
      (Cursor.new plan.command).wanted plan.fetchSize ≤ maxReserved)
    ⟨fun h => ⟨h.1, h.2⟩, fun h => ⟨h.buckets, h.chunks⟩⟩

/-- All records can be counted. -/
theorem IsWired.length_lt {w₀ : World} {plan : Plan} (h : plan.IsWired w₀) :
    plan.records.length < wordCount := by
  apply Nat.lt_of_le_of_lt (Draft.length_cut_le _ _)
  exact (h.lists.answers plan.command.query).fits

/-- The records on which the action succeeds. -/
def successes (plan : Plan) (ids : List String) : List String :=
  ids.filter fun id => !plan.action.stopsOn id

/-- The number of records on which the action stops. -/
def failures (plan : Plan) (ids : List String) : Nat := ids.countP plan.action.stopsOn

@[simp]
theorem successes_append (plan : Plan) (front rear : List String) :
    plan.successes (front ++ rear) = plan.successes front ++ plan.successes rear :=
  List.filter_append ..

@[simp]
theorem failures_append (plan : Plan) (front rear : List String) :
    plan.failures (front ++ rear) = plan.failures front + plan.failures rear :=
  List.countP_append

end Plan

/-- What the scroll of a command has yet to bring. -/
structure Supply where
  /-- The buckets that nobody has received, those that were published first. -/
  line : List Bucket
  /-- Records that are in no bucket yet. -/
  loose : List String
  /-- Records that the scroller has yet to hand out. -/
  uncounted : List String
  /-- The number of the next bucket, as long as more may be filled. -/
  next? : Option Nat
  /-- The end of the scroll was told. -/
  ended : Bool

/-- The records of a supply, in order. -/
def Supply.records (s : Supply) : List String := recordsOf s.line ++ (s.loose ++ s.uncounted)

/-- What somebody has in hand of the records of a command. -/
structure Holding where
  /-- The buckets that are worked on. -/
  buckets : List Bucket
  /-- The records whose outcome was not told yet. -/
  untold : List String
  /-- The records that the action was not tried on yet. -/
  untried : List String

/-- Nothing in hand. -/
def Holding.none : Holding := ⟨[], [], []⟩

/-- A bucket in hand that nobody has begun to work on. -/
def Holding.received (b : Bucket) : Holding := ⟨[b], b.ids, b.ids⟩

/-- Whether buckets are numbered in order from some number on, and so that the next one goes on. -/
structure IsNumbered (first : Nat) (buckets : List Bucket) (next? : Option Nat) : Prop where
  sequence : buckets.map (·.sequence) = List.range' first buckets.length
  next : ∀ n, next? = some n → n = first + buckets.length

namespace IsNumbered

variable {first n : Nat} {buckets more : List Bucket} {next? : Option Nat}

/-- More buckets with the next numbers. -/
theorem append (h : IsNumbered first buckets (some n))
    (hmore : more.map (·.sequence) = List.range' n more.length) :
    IsNumbered first (buckets ++ more) (some (n + more.length)) := by
  have hn := h.next n rfl
  refine ⟨?_, ?_⟩
  · rw [List.map_append, h.sequence, hmore, hn, List.length_append, List.range'_append_1]
  · rintro k hk
    rw [← Option.some.inj hk, hn, List.length_append]
    exact Nat.add_assoc _ _ _

/-- No bucket comes after the last one. -/
theorem close (h : IsNumbered first buckets next?) : IsNumbered first buckets none :=
  ⟨h.sequence, nofun⟩

/-- The first bucket has the first number. -/
theorem tail {b : Bucket} (h : IsNumbered first (b :: buckets) next?) :
    b.sequence = first ∧ IsNumbered (first + 1) buckets next? := by
  have hsequence := h.sequence
  rw [List.map_cons, List.length_cons, List.range'_succ] at hsequence
  rcases List.cons.inj hsequence with ⟨hfirst, hrest⟩
  refine ⟨hfirst, hrest, ?_⟩
  intro n hn
  rw [h.next n hn, List.length_cons]
  omega

end IsNumbered

/-- Where the records of a command are. -/
structure Flow (plan : Plan) (supply : Supply) (hold : Holding) (applied : List String)
    (p : Progress) : Prop where
  tally : ∃ createdAt reports, p.Tally plan.command createdAt reports
  scrolled : p.scrollCount + supply.uncounted.length = plan.records.length
  told : ∃ told, plan.records = told ++ (hold.untold ++ supply.records) ∧
    p.processed = told.length ∧ p.errorCount = plan.failures told
  tried : ∃ tried, plan.records = tried ++ (hold.untried ++ supply.records) ∧
    applied = plan.successes tried
  /-- No bucket in hand or in line was worked through. -/
  numbered : ∃ first, IsNumbered first (hold.buckets ++ supply.line) supply.next? ∧
    ∀ n, first ≤ n → p.isBucketDone n = false
  submitted : p.submitted = supply.ended

/-- What is seen of a command all of whose records were told. -/
structure Progress.WorkedThrough (plan : Plan) (p : Progress) : Prop where
  command : p.command = plan.command
  submitted : p.submitted = true
  scrollCount : p.scrollCount = plan.records.length
  processed : p.processed = plan.records.length
  errorCount : p.errorCount = plan.failures plan.records
  state : p.state = if plan.failures plan.records = 0 then .completed else .completedWithErrors

namespace Flow

variable {plan : Plan} {supply : Supply} {hold : Holding} {applied : List String} {p : Progress}
  {line : List Bucket} {loose uncounted : List String} {next? : Option Nat} {ended : Bool}

/-- A command whose scroll has not begun. -/
theorem new (plan : Plan) (now : Timestamp) :
    Flow plan ⟨[], [], plan.records, some 0, false⟩ .none [] (Progress.new plan.command now) where
  tally := ⟨now, [], Progress.tally_new plan.command now⟩
  scrolled := Nat.zero_add _
  told := ⟨[], rfl, rfl, rfl⟩
  tried := ⟨[], rfl, rfl⟩
  numbered := by
    refine ⟨0, ⟨rfl, ?_⟩, fun _ _ => rfl⟩
    rintro n hn
    exact (Option.some.inj hn).symm
  submitted := rfl

theorem command_eq (h : Flow plan supply hold applied p) : p.command = plan.command := by
  rcases h.tally with ⟨_, _, htally⟩
  exact htally.command

/-- While the end of the scroll is to come, it was not told. -/
theorem not_submitted (h : Flow plan supply hold applied p) (hopen : supply.ended = false)
    {createdAt : Timestamp} {reports : List Tracker.Report}
    (ht : p.Tally plan.command createdAt reports) : .markSubmitted ∉ reports := by
  rw [← ht.submitted, h.submitted, hopen]
  exact Bool.false_ne_true

/-- Nobody has more told than was scrolled. -/
theorem processed_le (h : Flow plan supply hold applied p) :
    p.processed + hold.untold.length ≤ p.scrollCount := by
  rcases h.told with ⟨told, hrecords, hprocessed, -⟩
  have hscrolled := h.scrolled
  have hlength := congrArg List.length hrecords
  simp only [Supply.records, List.length_append] at hlength
  omega

/-- A command that keeps its flow is not aborted. -/
theorem state_ne_aborted (h : Flow plan supply hold applied p) : p.state ≠ .aborted := by
  rcases h.tally with ⟨_, _, htally⟩
  intro hstate
  have hfinal := htally.final (by rw [hstate]; rfl)
  rw [Progress.finalState, htally.scrollFailed, if_neg Bool.false_ne_true, hstate] at hfinal
  split at hfinal
  · exact absurd hfinal (by simp)
  · exact absurd hfinal (by simp)

/-- A report that keeps what the flow is about. -/
theorem of_frame {q : Progress} (h : Flow plan supply hold applied p)
    (htally : ∀ createdAt reports, p.Tally plan.command createdAt reports →
      q.Tally plan.command createdAt reports)
    (hdone : q.completedBuckets = p.completedBuckets) (hsubmitted : q.submitted = p.submitted)
    (hscrolled : q.scrollCount = p.scrollCount) (hprocessed : q.processed = p.processed)
    (herrors : q.errorCount = p.errorCount) : Flow plan supply hold applied q where
  tally := by
    rcases h.tally with ⟨createdAt, reports, ht⟩
    exact ⟨createdAt, reports, htally createdAt reports ht⟩
  scrolled := hscrolled ▸ h.scrolled
  told := by
    rw [hprocessed, herrors]
    exact h.told
  tried := h.tried
  numbered := by
    unfold Progress.isBucketDone
    rw [hdone]
    exact h.numbered
  submitted := hsubmitted.trans h.submitted

theorem startScrolling (h : Flow plan supply hold applied p) (now : Timestamp) :
    Flow plan supply hold applied (p.startScrolling now).1 := by
  rcases p.startScrolling_frame now with ⟨s, at', heq⟩
  refine h.of_frame (fun _ _ ht => ht.heed_startScrolling now) ?_ ?_ ?_ ?_ ?_ <;> rw [heq]

/-! ## The scroll -/

/-- A chunk is counted, and fills some buckets. -/
theorem count (h : Flow plan ⟨line, loose, uncounted, some n, false⟩ hold applied p)
    (hfits : plan.records.length < wordCount) {chunk later rest : List String} {full : List Bucket}
    (hchunk : uncounted = chunk ++ later) (hfull : recordsOf full ++ rest = loose ++ chunk)
    (hnumbers : full.map (·.sequence) = List.range' n full.length) :
    Flow plan ⟨line ++ full, rest, later, some (n + full.length), false⟩ hold applied
      (p.addScrolled chunk.length) := by
  have hscrolled := h.scrolled
  -- grouping and counting move no record from its place in the order
  have hrecords : recordsOf (line ++ full) ++ (rest ++ later) =
      recordsOf line ++ (loose ++ uncounted) := by
    rw [recordsOf_append, hchunk, List.append_assoc, ← List.append_assoc (recordsOf full), hfull,
      List.append_assoc]
  rw [hchunk, List.length_append] at hscrolled
  have hcount : (p.scrollCount + chunk.length) % wordCount = p.scrollCount + chunk.length :=
    Nat.mod_eq_of_lt (by omega)
  constructor
  case tally =>
    rcases h.tally with ⟨createdAt, reports, ht⟩
    refine ⟨createdAt, _, ht.heed_addScrolled (n := chunk.length) ?_ (h.not_submitted rfl ht)⟩
    rw [Tracker.scrolledOf_concat, ← ht.scrollCount]
    show p.scrollCount + chunk.length < wordCount
    omega
  case scrolled =>
    show (p.scrollCount + chunk.length) % wordCount + later.length = plan.records.length
    omega
  case told =>
    rw [Supply.records, hrecords]
    exact h.told
  case tried =>
    rw [Supply.records, hrecords]
    exact h.tried
  case numbered =>
    rcases h.numbered with ⟨first, hnumbered, hdone⟩
    refine ⟨first, ?_, hdone⟩
    rw [← List.append_assoc]
    exact hnumbered.append hnumbers
  case submitted => exact h.submitted

/-- The loose records become the last bucket. -/
theorem flush (h : Flow plan ⟨line, loose, [], some n, false⟩ hold applied p) {b : Bucket}
    (hids : b.ids = loose) (hnumber : b.sequence = n) :
    Flow plan ⟨line ++ [b], [], [], none, false⟩ hold applied p := by
  have hrecords : recordsOf (line ++ [b]) ++ [] = recordsOf line ++ loose := by
    rw [recordsOf_append, recordsOf_cons, hids]
    simp
  constructor
  case tally => exact h.tally
  case scrolled => exact h.scrolled
  case told =>
    have htold := h.told
    rw [Supply.records, List.append_nil] at htold ⊢
    rw [hrecords]
    exact htold
  case tried =>
    have htried := h.tried
    rw [Supply.records, List.append_nil] at htried ⊢
    rw [hrecords]
    exact htried
  case numbered =>
    rcases h.numbered with ⟨first, hnumbered, hdone⟩
    refine ⟨first, ?_, hdone⟩
    rw [← List.append_assoc]
    have hone : [b].map (·.sequence) = List.range' n [b].length := by
      rw [← hnumber]
      rfl
    exact (hnumbered.append hone).close
  case submitted => exact h.submitted

/-- The end of the scroll is told. -/
theorem submit (h : Flow plan ⟨line, [], [], next?, false⟩ hold applied p) (now : Timestamp) :
    Flow plan ⟨line, [], [], none, true⟩ hold applied (p.markSubmitted now).1 := by
  have hframe : (p.markSubmitted now).1.scrollCount = p.scrollCount ∧
      (p.markSubmitted now).1.processed = p.processed ∧
      (p.markSubmitted now).1.errorCount = p.errorCount ∧
      (p.markSubmitted now).1.completedBuckets = p.completedBuckets ∧
      (p.markSubmitted now).1.submitted = true := by
    simp [Progress.markSubmitted]
  rcases hframe with ⟨hscrolled, hprocessed, herrors, hdone, hsubmitted⟩
  constructor
  case tally =>
    rcases h.tally with ⟨createdAt, reports, ht⟩
    refine ⟨createdAt, _, ht.heed_markSubmitted now ?_ (h.not_submitted rfl ht)⟩
    -- nobody was told of more records than were scrolled
    have hle := h.processed_le
    rw [← ht.processed, ← ht.scrollCount]
    omega
  case scrolled => exact hscrolled ▸ h.scrolled
  case told =>
    rw [hprocessed, herrors]
    exact h.told
  case tried => exact h.tried
  case numbered =>
    rcases h.numbered with ⟨first, hnumbered, hnone⟩
    refine ⟨first, hnumbered.close, ?_⟩
    intro n hn
    rw [Progress.isBucketDone, hdone]
    exact hnone n hn
  case submitted => exact hsubmitted

/-! ## The work -/

/-- A bucket is received. -/
theorem receive {v : Bucket}
    (h : Flow plan ⟨v :: line, loose, uncounted, next?, ended⟩ .none applied p) :
    Flow plan ⟨line, loose, uncounted, next?, ended⟩ (.received v) applied p := by
  constructor
  case tally => exact h.tally
  case scrolled => exact h.scrolled
  case told =>
    have htold := h.told
    simp only [Supply.records, recordsOf_cons, List.append_assoc] at htold
    exact htold
  case tried =>
    have htried := h.tried
    simp only [Supply.records, recordsOf_cons, List.append_assoc] at htried
    exact htried
  case numbered => exact h.numbered
  case submitted => exact h.submitted

/-- The action is tried on some records. -/
theorem attempt (h : Flow plan supply hold applied p) {settled rest : List String}
    (hsplit : hold.untried = settled ++ rest) :
    Flow plan supply { hold with untried := rest } (applied ++ plan.successes settled) p := by
  refine { h with tried := ?_ }
  rcases h.tried with ⟨tried, hrecords, rfl⟩
  refine ⟨tried ++ settled, ?_, (plan.successes_append tried settled).symm⟩
  rw [hrecords, hsplit]
  simp only [List.append_assoc]

/-- The outcome of a batch is told. -/
theorem report (h : Flow plan supply hold applied p) (hfits : plan.records.length < wordCount)
    (now : Timestamp) {batch rest : List String} (hbatch : batch ≠ [])
    (hsplit : hold.untold = batch ++ rest) :
    Flow plan supply { hold with untold := rest } applied
      (p.recordBatch now batch.length (plan.failures batch)).1 := by
  have hle := h.processed_le
  have hscrolled := h.scrolled
  rw [hsplit, List.length_append] at hle
  have hpos : 1 ≤ batch.length := List.length_pos_iff.2 hbatch
  have hfailures : plan.failures batch ≤ batch.length := List.countP_le_length
  have htally : ∃ createdAt reports,
      (p.recordBatch now batch.length (plan.failures batch)).1.Tally
        plan.command createdAt reports ∧
      (p.recordBatch now batch.length (plan.failures batch)).1.processed =
        p.processed + batch.length ∧
      (p.recordBatch now batch.length (plan.failures batch)).1.errorCount =
        p.errorCount + plan.failures batch := by
    rcases h.tally with ⟨createdAt, reports, ht⟩
    -- all untold records were scrolled, so the report is not cut down
    have hnew := ht.heed_recordBatch now ⟨hpos, hfailures⟩ (by rw [← ht.scrollCount]; omega)
      (by rw [← ht.processed, ← ht.scrollCount]; omega)
    refine ⟨createdAt, _, hnew, ?_, ?_⟩
    · rw [hnew.processed, Tracker.reportedOf_concat, ← ht.processed]
      rfl
    · rw [hnew.errorCount, Tracker.failedOf_concat, ← ht.errorCount]
      rfl
  have hframe : (p.recordBatch now batch.length (plan.failures batch)).1.scrollCount =
        p.scrollCount ∧
      (p.recordBatch now batch.length (plan.failures batch)).1.completedBuckets =
        p.completedBuckets ∧
      (p.recordBatch now batch.length (plan.failures batch)).1.submitted = p.submitted := by
    simp [Progress.recordBatch]
  rcases htally with ⟨createdAt, reports, ht, hprocessed, herrors⟩
  rcases hframe with ⟨hscrolled', hdone, hsubmitted⟩
  constructor
  case tally => exact ⟨createdAt, reports, ht⟩
  case scrolled => exact hscrolled' ▸ h.scrolled
  case told =>
    rcases h.told with ⟨told, hrecords, htold, hfailed⟩
    refine ⟨told ++ batch, ?_, ?_, ?_⟩
    · rw [hrecords, hsplit]
      simp only [List.append_assoc]
    · rw [hprocessed, htold, List.length_append]
    · rw [herrors, hfailed, plan.failures_append]
  case tried => exact h.tried
  case numbered =>
    unfold Progress.isBucketDone
    rw [hdone]
    exact h.numbered
  case submitted => exact hsubmitted.trans h.submitted

/-- A bucket of which nothing is left is put away. -/
theorem putAway {v : Bucket} (h : Flow plan supply ⟨[v], [], []⟩ applied p) :
    Flow plan supply .none applied p := by
  refine { h with numbered := ?_ }
  rcases h.numbered with ⟨first, hnumbered, hdone⟩
  exact ⟨first + 1, hnumbered.tail.2, fun n hn => hdone n (Nat.le_of_succ_le hn)⟩

/-- A bucket is done when all its records were told. -/
theorem complete {v : Bucket} (h : Flow plan supply ⟨[v], [], []⟩ applied p) :
    Flow plan supply .none applied (p.completeBucket v.sequence) := by
  rcases h.numbered with ⟨first, hnumbered, hdone⟩
  rcases hnumbered.tail with ⟨hfirst, hrest⟩
  rcases p.completeBucket_frame v.sequence with ⟨done, heq⟩
  constructor
  case tally =>
    rcases h.tally with ⟨createdAt, reports, ht⟩
    exact ⟨createdAt, reports, ht.heed_completeBucket v.sequence⟩
  case scrolled =>
    rw [heq]
    exact h.scrolled
  case told =>
    rw [heq]
    exact h.told
  case tried => exact h.tried
  case numbered =>
    refine ⟨first + 1, hrest, ?_⟩
    intro n hn
    -- the buckets behind it have larger numbers
    rw [Progress.isBucketDone_completeBucket, hdone n (by omega), Bool.false_or, hfirst]
    exact beq_eq_false_iff_ne.2 (by omega)
  case submitted =>
    rw [heq]
    exact h.submitted

/-- A received bucket was not worked through. -/
theorem isBucketDone_received {v : Bucket} (h : Flow plan supply (.received v) applied p) :
    p.isBucketDone v.sequence = false := by
  rcases h.numbered with ⟨first, hnumbered, hdone⟩
  exact hdone _ (Nat.le_of_eq hnumbered.tail.1.symm)

/-- Once a command has ended, nothing is left of its records. -/
theorem nothing_left (h : Flow plan supply hold applied p) (hended : p.state.isTerminal = true) :
    hold.untold = [] := by
  rcases h.tally with ⟨_, _, ht⟩
  have hle := h.processed_le
  have hall := (ht.ended.1 hended).2
  exact List.eq_nil_of_length_eq_zero (by omega)

/-- When nothing is left to be moved, all records were told. -/
theorem workedThrough (h : Flow plan ⟨[], [], [], next?, true⟩ .none applied p) :
    p.WorkedThrough plan ∧ applied = plan.successes plan.records := by
  rcases h.tally with ⟨_, _, ht⟩
  rcases h.told with ⟨told, htold, hprocessed, herrors⟩
  rcases h.tried with ⟨tried, htried, happlied⟩
  -- nothing is in hand and nothing to come, so all records were told and tried
  have htold' : plan.records = told := by simpa [Holding.none, Supply.records] using htold
  have htried' : plan.records = tried := by simpa [Holding.none, Supply.records] using htried
  rw [← htold'] at hprocessed herrors
  rw [← htried'] at happlied
  have hscrolled : p.scrollCount = plan.records.length := h.scrolled
  refine ⟨?_, happlied⟩
  constructor
  case command => exact ht.command
  case submitted => exact h.submitted
  case scrollCount => exact hscrolled
  case processed => exact hprocessed
  case errorCount => exact herrors
  case state =>
    have hended := ht.ended.2 ⟨h.submitted, hprocessed.trans hscrolled.symm⟩
    rw [ht.final hended, Progress.finalState, ht.scrollFailed, if_neg Bool.false_ne_true, herrors]
    by_cases hzero : plan.failures plan.records = 0
    · rw [if_pos hzero, if_neg (by omega)]
    · rw [if_neg hzero, if_pos (by omega)]

end Flow

end BulkRun
