import BulkRun.Proofs.Service.Receipts
/-!
# A shutdown drains a service and accounts for everything

However a service was used and whatever its collaborators do, when all its consumers have stopped
then every bucket that was published was received once and acknowledged once, nothing is left in any
partition, and each consumer tells how many of the buckets of its partition were worked through,
skipped, broken off and failed.  No result of a bucket stops a consumer: it stops only when nobody
may publish and it is done with all that was published to its partition.  Main statement:
`shutdown_drains_and_accounts`.
-/

namespace BulkRun

open Traffic (belongingTo bucketsAt)

variable {σ : Type} {setup : Setup σ}

/-! ## What consumers count -/

/-- What a consumer may count a bucket as. -/
inductive Heading where
  | executed
  | skipped
  | interrupted
  | failed
deriving DecidableEq, Repr

/-- What a bucket with some result is to be counted as. -/
def Heading.of : Except Error BucketOutcome → Heading
  | .ok (.processed _ _) => .executed
  | .ok .skippedTerminal | .ok .skippedDuplicate | .ok .skippedUnknown => .skipped
  | .ok (.interrupted _ _) | .ok .commandAborted => .interrupted
  | .error _ => .failed

namespace ConsumerSummary

/-- How many buckets were counted under a heading. -/
def under (s : ConsumerSummary) : Heading → Nat
  | .executed => s.bucketsExecuted
  | .skipped => s.bucketsSkipped
  | .interrupted => s.bucketsInterrupted
  | .failed => s.failures

/-- All buckets that were counted. -/
def total (s : ConsumerSummary) : Nat :=
  s.bucketsExecuted + s.bucketsSkipped + s.bucketsInterrupted + s.failures

theorem under_count (s : ConsumerSummary) (result : Except Error BucketOutcome) (k : Heading) :
    (s.count result).under k = s.under k + [Heading.of result].count k := by
  cases result with
  | error err => cases k <;> rfl
  | ok outcome => cases outcome <;> cases k <;> rfl

theorem total_count (s : ConsumerSummary) (result : Except Error BucketOutcome) :
    (s.count result).total = s.total + 1 := by
  have hsum (u : ConsumerSummary) :
      u.total = u.under .executed + u.under .skipped + u.under .interrupted + u.under .failed := rfl
  rw [hsum, hsum, under_count, under_count, under_count, under_count]
  cases Heading.of result <;> simp <;> omega

variable (s : ConsumerSummary) (results : List (Except Error BucketOutcome))

theorem under_foldl (k : Heading) :
    (results.foldl .count s).under k = s.under k + (results.map Heading.of).count k := by
  induction results generalizing s with
  | nil => rfl
  | cons result rest ih =>
    rw [List.foldl_cons, ih, under_count, Nat.add_assoc, ← List.count_append]
    rfl

theorem total_foldl : (results.foldl .count s).total = s.total + results.length := by
  induction results generalizing s with
  | nil => rfl
  | cons result rest ih =>
    rw [List.foldl_cons, ih, total_count, List.length_cons]
    omega

end ConsumerSummary

/-- Whether all consumers have stopped. -/
def System.HasStopped (s : System σ) : Prop := ∀ c ∈ s.consumers, c.phase = .stopped

instance (p : ConsumerPhase σ) : Decidable (p = .stopped) :=
  match p with
  | .stopped => .isTrue rfl
  | .idle | .suspended | .executing _ _ => .isFalse nofun

instance (s : System σ) : Decidable s.HasStopped :=
  inferInstanceAs (Decidable (∀ c ∈ s.consumers, c.phase = .stopped))

namespace Service

variable {s t : System σ} {moves : List (Move (System σ) (Event σ))}

/-- The buckets that were published to a partition, in order. -/
def publishedTo (s : System σ) (i : Nat) (moves : List (Move (System σ) (Event σ))) : List Bucket :=
  belongingTo s.engine.channel.partitionFor i (published moves)

/-- What came of the buckets that were received from a partition, in order. -/
def returnedFrom (setup : Setup σ) (i : Nat) (moves : List (Move (System σ) (Event σ))) :
    List Receipt :=
  receiptsAt i (returned setup moves)

/-! ## No result stops a consumer -/

/-- No fault of a bucket stops a consumer. -/
structure Persists (setup : Setup σ) (moves : List (Move (System σ) (Event σ))) (s : System σ) :
    Prop where
  /-- Whatever came of a bucket, its consumer goes on to receive. -/
  goesOn : ∀ m ∈ moves, ∀ receipt, returned? setup m = some receipt →
    ∃ c, m.after.consumers[receipt.partition]? = some c ∧ c.phase = .idle
  /-- A consumer stops only when nobody may publish, and it is done with all that was published. -/
  stopped : ∀ i c, s.consumers[i]? = some c → c.phase = .stopped →
    s.engine.channel.publishers = 0 ∧
      (returnedFrom setup i moves).map (·.bucket) = publishedTo s i moves
  /-- Once whoever submits commands has let go and no action is waited for, the tasks come to rest
  only when all consumers have stopped. -/
  rests : (∃ m ∈ moves, m.event = .system .release) →
    (∀ c ∈ s.consumers, ∀ v x, c.phase ≠ .executing v x) →
    (∀ key, s.stepTask? setup (.scroll key) = none) →
    (∀ i, s.stepTask? setup (.consume i) = none) → s.HasStopped

namespace Accounts

/-- A consumer that has stopped has nothing in hand, and nothing is queued for it. -/
theorem of_stopped (h : Accounts setup moves s) {i : Nat} {c : Consumer σ}
    (hc : s.consumers[i]? = some c) (hstopped : c.phase = .stopped) :
    s.engine.channel.publishers = 0 ∧ s.engine.channel.queueAt i = [] ∧ s.inHand i = [] := by
  obtain ⟨hzero, hempty⟩ := (h.inOrder.consumers i c hc).stopped hstopped
  refine ⟨hzero, hempty, ?_⟩
  rw [System.inHand, hc, Option.bind_some, Consumer.bucket?, hstopped]
  rfl

/-- Where nothing is queued or in hand, what was published is what was received, and what was
received is done with. -/
theorem of_nothing_left (h : Accounts setup moves s) {i : Nat}
    (hqueue : s.engine.channel.queueAt i = []) (hhand : s.inHand i = []) :
    bucketsAt i (received moves) = publishedTo s i moves ∧
      (returnedFrom setup i moves).map (·.bucket) = publishedTo s i moves := by
  have hqueued := h.queued i
  have hheld := h.held i
  rw [hqueue, List.append_nil] at hqueued
  rw [hhand, List.append_nil] at hheld
  exact ⟨hqueued.symm, hheld.symm.trans hqueued.symm⟩

/-- When everybody who submits commands has let go and nobody works on a bucket, all rest together:
the scroll loops have ended, so nobody may publish, so the consumers stop. -/
theorem hasStopped_of_quiet (h : Accounts setup moves s)
    (hreleased : ∃ m ∈ moves, m.event = .system .release)
    (hidle : ∀ c ∈ s.consumers, ∀ v x, c.phase ≠ .executing v x)
    (hloops : ∀ key, s.stepTask? setup (.scroll key) = none)
    (hconsumers : ∀ i, s.stepTask? setup (.consume i) = none) : s.HasStopped := by
  have hrests {i : Nat} {c : Consumer σ} (hc : s.consumers[i]? = some c) :
      (c.phase = .stopped ∨ c.phase = .suspended ∧ s.engine.channel.publishers ≠ 0) ∧
        s.engine.channel.queueAt i = [] := by
    obtain ⟨v, x, hphase, -⟩ | hrests := h.inOrder.queueAt_of_quiet hc (hconsumers i)
    · exact absurd hphase (hidle c (List.mem_of_getElem? hc) v x)
    · exact hrests
  have hempty := h.inOrder.queueAt_eq_nil fun _ _ hc => (hrests hc).2
  -- nobody waits in front of an empty queue, so the loops have ended
  have hactive : s.activeScrolls = 0 := by
    rw [System.activeScrolls, List.length_eq_zero_iff, List.filter_eq_nil_iff]
    intro l hl
    rw [h.inOrder.isEnded_of_quiet hloops hempty hl]
    exact Bool.false_ne_true
  have hzero : s.engine.channel.publishers = 0 := by
    obtain ⟨m, hm, hrelease⟩ := hreleased
    rw [h.inOrder.held, hactive, holders_of_released hm hrelease]
  intro c hc
  obtain ⟨i, hi⟩ := List.mem_iff_getElem?.1 hc
  obtain ⟨hstopped | ⟨-, hopen⟩, -⟩ := hrests hi
  · exact hstopped
  · exact absurd hzero hopen

theorem persists (h : Accounts setup moves s) : Persists setup moves s where
  goesOn := h.goesOn
  stopped i c hc hstopped := by
    obtain ⟨hzero, hqueue, hhand⟩ := h.of_stopped hc hstopped
    exact ⟨hzero, (h.of_nothing_left hqueue hhand).2⟩
  rests := h.hasStopped_of_quiet

end Accounts

/-! ## What is left when all consumers have stopped -/

/-- A service that is drained: all that was published is done with. -/
structure Drained (setup : Setup σ) (moves : List (Move (System σ) (Event σ))) (s : System σ) :
    Prop where
  /-- Every scroll loop has come to its end. -/
  scrolled : ∀ l ∈ s.loops, l.isEnded = true
  published : s.engine.channel.stats.published = (published moves).length
  acknowledged : s.engine.channel.stats.acknowledged = s.engine.channel.stats.published
  redelivered : s.engine.channel.stats.redelivered = 0
  /-- Nothing is left in any partition. -/
  empty : s.engine.channel.buckets = []
  /-- What was published to a partition was received from there, each bucket once and in order. -/
  received : ∀ i, bucketsAt i (received moves) = publishedTo s i moves
  /-- So it was acknowledged, each bucket with its result. -/
  returned : ∀ i, (returnedFrom setup i moves).map (·.bucket) = publishedTo s i moves

/-- Whether the consumers, one for each partition, tell what came of all that was published. -/
structure AccountedFor (setup : Setup σ) (moves : List (Move (System σ) (Event σ))) (s : System σ)
    (summaries : List ConsumerSummary) : Prop where
  partitions : summaries.map (·.partition) = List.range s.engine.channel.partitions.length
  counted : ∀ c ∈ summaries, ∀ k : Heading, c.under k =
    ((returnedFrom setup c.partition moves).map fun receipt => Heading.of receipt.result).count k
  balance : ∀ c ∈ summaries, c.total = (publishedTo s c.partition moves).length

/-- Two lists are equally long if equally many of their members go to each place. -/
theorem length_eq_of_filter {α β : Type} {f : α → Nat} {g : β → Nat} {as : List α} {bs : List β}
    (h : ∀ i, (as.filter (f · == i)).length = (bs.filter (g · == i)).length) :
    as.length = bs.length := by
  have hperm : (as.map f).Perm (bs.map g) := by
    rw [List.perm_iff_count]
    intro i
    have hi := h i
    rw [← List.countP_eq_length_filter, ← List.countP_eq_length_filter] at hi
    rw [List.count_eq_countP, List.count_eq_countP, List.countP_map, List.countP_map]
    exact hi
  simpa using hperm.length_eq

namespace Accounts

theorem drained (h : Accounts setup moves s) (hstopped : s.HasStopped) :
    Drained setup moves s := by
  have hleft {i : Nat} {c : Consumer σ} (hc : s.consumers[i]? = some c) :=
    h.of_stopped hc (hstopped c (List.mem_of_getElem? hc))
  have hqueue := h.inOrder.queueAt_eq_nil fun _ _ hc => (hleft hc).2.1
  have hhand (i : Nat) : s.inHand i = [] := by
    cases hc : s.consumers[i]? with
    | some c => exact (hleft hc).2.2
    | none =>
      rw [System.inHand, hc]
      rfl
  have hzero : s.engine.channel.publishers = 0 := by
    have hpos : 0 < s.consumers.length := by
      rw [h.inOrder.receivers]
      exact h.inOrder.channel.positive
    exact (hleft (List.getElem?_eq_getElem hpos)).1
  have hdone (i : Nat) := h.of_nothing_left (hqueue i) (hhand i)
  constructor
  case scrolled =>
    intro l hl
    cases hended : l.isEnded with
    | true => rfl
    | false =>
      have hpos := h.inOrder.publishers_pos hl hended
      omega
  case published => rw [h.stats]
  case acknowledged =>
    rw [h.stats]
    show (returned setup moves).length = (published moves).length
    refine length_eq_of_filter (f := Receipt.partition)
      (g := fun b => s.engine.channel.partitionFor b.commandId) ?_
    intro i
    have hi := congrArg List.length (hdone i).2
    rw [List.length_map] at hi
    exact hi
  case redelivered => rw [h.stats]
  case empty =>
    apply List.flatMap_eq_nil_iff.2
    intro p hp
    obtain ⟨i, hi⟩ := List.mem_iff_getElem?.1 hp
    rw [Partition.buckets, (h.inOrder.channel.at hi).stash, ← Channel.queueAt_of_getElem? hi,
      hqueue i]
    rfl
  case received => exact fun i => (hdone i).1
  case returned => exact fun i => (hdone i).2

theorem accountedFor (h : Accounts setup moves s) (hstopped : s.HasStopped) :
    AccountedFor setup moves s (s.consumers.map (·.summary)) := by
  have hsummary (c : ConsumerSummary) (hc : c ∈ s.consumers.map (·.summary)) :
      c = ((returnedFrom setup c.partition moves).map (·.result)).foldl .count
        ⟨c.partition, 0, 0, 0, 0⟩ := by
    obtain ⟨consumer, hmem, rfl⟩ := List.mem_map.1 hc
    obtain ⟨i, hi⟩ := List.mem_iff_getElem?.1 hmem
    have hpartition : consumer.summary.partition = i :=
      (h.inOrder.consumers i consumer hi).partition
    rw [hpartition]
    exact h.summaries i consumer hi
  constructor
  case partitions =>
    rw [← h.inOrder.receivers]
    apply List.ext_getElem (by simp)
    intro i hi hi'
    simp only [List.getElem_map, List.getElem_range]
    exact (h.inOrder.consumers i _ (List.getElem?_eq_getElem (by simpa using hi'))).partition
  case counted =>
    intro c hc k
    have hunder := congrArg (fun d : ConsumerSummary => d.under k) (hsummary c hc)
    simp only [ConsumerSummary.under_foldl, List.map_map] at hunder
    rw [hunder]
    cases k <;> exact Nat.zero_add _
  case balance =>
    intro c hc
    have htotal := congrArg ConsumerSummary.total (hsummary c hc)
    rw [ConsumerSummary.total_foldl, List.length_map] at htotal
    rw [htotal, ← (h.drained hstopped).returned, List.length_map]
    exact Nat.zero_add _

end Accounts

/-! ## The main statement -/

/-- However long the tasks take turns, what comes of it is a run in which nobody lets go. -/
theorem exists_run_settle (setup : Setup σ) (steps rounds : Nat) (s : System σ) :
    ∃ moves, Run (next? setup) s moves (s.settle setup steps rounds) ∧
      ∀ m ∈ moves, m.event ≠ .system .release := by
  have hmove {moves : List (Move (System σ) (Event σ))} {u v : System σ} (event : Event σ)
      (hrun : Run (next? setup) s moves u ∧ ∀ m ∈ moves, m.event ≠ .system .release)
      (hnext : next? setup u event = some v) (hevent : event ≠ .system .release) :
      ∃ moves, Run (next? setup) s moves v ∧ ∀ m ∈ moves, m.event ≠ .system .release := by
    refine ⟨_, .move event hrun.1 hnext, ?_⟩
    intro m hm
    obtain hm | hm := List.mem_append.1 hm
    · exact hrun.2 m hm
    · rw [List.mem_singleton.1 hm]
      exact hevent
  refine System.settle_induction (P := fun u => ∃ moves, Run (next? setup) s moves u ∧
    ∀ m ∈ moves, m.event ≠ .system .release) ?_ ?_ ?_ steps rounds ⟨[], .start, by simp⟩
  · rintro task u v ⟨moves, hrun⟩ hstep
    exact hmove (.system (.step task)) hrun hstep (by simp)
  · rintro task u v ⟨moves, hrun⟩ hput
    exact hmove (.system (.putOff task)) hrun hput (by simp)
  · rintro u queue yielded allowance ⟨moves, hrun⟩
    exact hmove (.system (.schedule queue yielded allowance)) hrun rfl (by simp)

/-- Between two runs, whoever submits commands may let go. -/
theorem exists_run_release {u : System σ} {front rear : List (Move (System σ) (Event σ))}
    (hfront : Run (next? setup) s front u) (hheld : u.isHeld = true)
    (hrear : Run (next? setup) u.dropPublisher rear t) :
    ∃ rest, Run (next? setup) s rest t ∧ ∃ m ∈ rest, m.event = .system .release := by
  have hnext : next? setup u (.system .release) = some u.dropPublisher := by
    rw [next?, System.next?, if_pos hheld]
  exact ⟨_, (Run.move _ hfront hnext).trans hrear, ⟨u, .system .release, u.dropPublisher⟩,
    by simp, rfl⟩

/-- A shutdown of a service that was not shut down before is a run in which whoever submits commands
lets go, and at whose end the consumers tell what they did. -/
theorem exists_run_shutdown {service : Service σ} (h : Accounts service.setup moves s)
    (hopen : ∀ m ∈ moves, m.event ≠ .system .release) (steps rounds : Nat) :
    ∃ rest t, Run (next? service.setup) s rest t ∧ (∃ m ∈ rest, m.event = .system .release) ∧
      shutdown steps rounds { service with system := s } =
        (t.consumers.map (·.summary), { service with system := t }) := by
  obtain ⟨front, hfront, hquiet⟩ := exists_run_settle service.setup steps rounds s
  obtain ⟨rear, hrear, -⟩ := exists_run_settle service.setup steps rounds
    (s.settle service.setup steps rounds).dropPublisher
  have horder := (h.run hfront).inOrder
  -- nobody has let go so far, so whoever submits commands may do so now
  have hone : holders (moves ++ front) = 1 := by
    apply holders_of_open
    intro m hm
    obtain hm | hm := List.mem_append.1 hm
    · exact hopen m hm
    · exact hquiet m hm
  rw [hone] at horder
  obtain ⟨rest, hrest, hreleased⟩ :=
    exists_run_release hfront (horder.isHeld_iff.2 Nat.one_pos) hrear
  exact ⟨rest, _, hrest, hreleased, rfl⟩

/-- A shutdown drains a service and accounts for everything.  However the service was used before,
whatever its scrollers, its actions and its transaction manager do, and whatever else happens while
it is shut down: no result of a bucket stops a consumer, and once all consumers have stopped, all
that was published was received and acknowledged once and is accounted for. -/
theorem shutdown_drains_and_accounts {settings : Settings} {actions : ActionRegistry (Action σ)}
    {scrollers : ScrollerRegistry (Scroller σ)} {transactions : TransactionManager σ}
    {now : Timestamp} {world : σ} {service : Service σ}
    (hstart : start settings actions scrollers transactions now world = .ok service)
    (hrun : Run (next? service.setup) service.system moves s)
    -- it was not shut down before
    (hopen : ∀ m ∈ moves, m.event ≠ .system .release) :
    -- a shutdown is a run, in which whoever submits commands lets go
    (∀ steps rounds, ∃ rest t, Run (next? service.setup) s rest t ∧
      (∃ m ∈ rest, m.event = .system .release) ∧
      shutdown steps rounds { service with system := s } =
        (t.consumers.map (·.summary), { service with system := t })) ∧
    -- and so is whatever else happens until the consumers have stopped
    ∀ rest t, Run (next? service.setup) s rest t → Persists service.setup (moves ++ rest) t ∧
      (t.HasStopped → Drained service.setup (moves ++ rest) t ∧
        AccountedFor service.setup (moves ++ rest) t (t.consumers.map (·.summary))) := by
  have haccounts : Accounts service.setup moves s := by
    have hstarted := (accounts_start hstart).run hrun
    rwa [List.nil_append] at hstarted
  refine ⟨exists_run_shutdown haccounts hopen, ?_⟩
  intro rest t hrest
  have hafter := haccounts.run hrest
  exact ⟨hafter.persists, fun hstopped => ⟨hafter.drained hstopped, hafter.accountedFor hstopped⟩⟩

/-! ### A shutdown amid trouble -/

/-- An action that does its work, except for one command. -/
def unfitFor (id : CommandId) : Action Unit where
  validate _ := .ok ()
  call _ _ world := (0, world)
  takesPermit := false
  poll context ids _ world :=
    let result : Except ActionError (List RecordOutcome) :=
      if context.commandId = id then .error (.configuration "no archive")
      else .ok (ids.map fun record => ⟨record, none⟩)
    some (⟨[], result⟩, world)

/-- A scroller that finds the same records at every query. -/
def finding (records : List String) : Scroller Unit where
  kind := .query
  start c world := (.ok (.new c), world)
  reserved _ _ := 0
  next state _ world := (.ok ⟨records, true⟩, state, world)

/-- The command of some id to archive everything. -/
def archiveFor (id : CommandId) : Command :=
  ⟨⟨"archive", "all", none, none, none, 0, 0, none, false, []⟩, id⟩

/-- A service with two partitions that have room for one bucket each. -/
def narrowService : Service Unit where
  settings := ⟨⟨2, 1, 2, none⟩, ⟨2, 1⟩, ⟨60, 8⟩⟩
  setup := {
    actions := ⟨[("archive", ⟨⟨"archive", none, none, none⟩, unfitFor ⟨8⟩⟩)]⟩
    scrollers := ScrollerRegistry.empty.register .query "default" (finding ["a", "b", "c"])
    transactions := .none
    dispatcher := ⟨2, 1, 2, none⟩ }
  system := System.withConsumers (.ofEngine ⟨⟨0, 0⟩, .new 8 60, .new 2 1, ()⟩)

/-- Three commands are accepted.  A bucket of the last one is received, then this command is aborted
and forgotten. -/
def amidTrouble : List (Event Unit) :=
  let consume := Event.system (.step (.consume 0))
  [.system (.submit (archiveFor ⟨7⟩)), .system (.submit (archiveFor ⟨8⟩)),
    .system (.submit (archiveFor ⟨10⟩))] ++
  List.replicate 5 (.system (.step (.scroll 2))) ++
  [consume, consume, .system (.abort ⟨10⟩ none), .system (.tick ⟨100, 0⟩), .system .purge]

/-- One command cannot be done, another is aborted and forgotten while it is worked on, and the
third one is done.  The buckets are counted as what they came to. -/
theorem shutdown_drains_and_accounts_amid_trouble :
    ∃ moves s rest t, start narrowService.settings narrowService.setup.actions
        narrowService.setup.scrollers .none ⟨0, 0⟩ () = .ok narrowService ∧
      Run (next? narrowService.setup) narrowService.system moves s ∧
      moves.map (·.event) = amidTrouble ∧ Run (next? narrowService.setup) s rest t ∧
      shutdown 40 4 { narrowService with system := s } =
        ([⟨0, 0, 2, 1, 1⟩, ⟨1, 2, 0, 0, 0⟩], { narrowService with system := t }) ∧
      t.HasStopped ∧ Persists narrowService.setup (moves ++ rest) t ∧
      Drained narrowService.setup (moves ++ rest) t ∧
      AccountedFor narrowService.setup (moves ++ rest) t
        [⟨0, 0, 2, 1, 1⟩, ⟨1, 2, 0, 0, 0⟩] := by
  have hcheck : (movesOf? (next? narrowService.setup) narrowService.system amidTrouble).any
      (fun f =>
        decide ((shutdown 40 4 { narrowService with system := f.2 }).1 =
            [⟨0, 0, 2, 1, 1⟩, ⟨1, 2, 0, 0, 0⟩] ∧
          (shutdown 40 4 { narrowService with system := f.2 }).2.system.HasStopped)) = true := by
    decide +kernel
  obtain ⟨⟨moves, s⟩, hmoves, hs⟩ := (Option.any_eq_true _ _).1 hcheck
  obtain ⟨htold, hstopped⟩ := of_decide_eq_true hs
  have hstart : start narrowService.settings narrowService.setup.actions
      narrowService.setup.scrollers .none ⟨0, 0⟩ () = .ok narrowService := rfl
  have hrun : Run (next? narrowService.setup) narrowService.system moves s := .of_movesOf? hmoves
  have hevents : ∀ event ∈ amidTrouble, event ≠ .system .release := by simp [amidTrouble]
  obtain ⟨hshutdown, hafter⟩ :=
    shutdown_drains_and_accounts hstart hrun (forall_of_movesOf? hmoves hevents)
  obtain ⟨rest, t, hrest, -, heq⟩ := hshutdown 40 4
  rw [heq] at htold hstopped
  have hsummaries : t.consumers.map (·.summary) = [⟨0, 0, 2, 1, 1⟩, ⟨1, 2, 0, 0, 0⟩] := htold
  obtain ⟨hpersists, hdone⟩ := hafter rest t hrest
  obtain ⟨hdrained, haccounted⟩ := hdone hstopped
  rw [hsummaries] at heq haccounted
  exact ⟨moves, s, rest, t, hstart, hrun, events_of_movesOf? hmoves, hrest, heq, hstopped,
    hpersists, hdrained, haccounted⟩

end Service

end BulkRun
