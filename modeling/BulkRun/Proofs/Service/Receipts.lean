import BulkRun.Proofs.Dispatch.Handover
import BulkRun.Proofs.Dispatch.Order
/-!
# The accounts of a service

A running service may be used in any way, its tasks take their steps in any order, and the world of
its collaborators changes as it likes.  What was published, what was received and what came of it is
read off the moves of a run.  Every event moves at most one bucket on its way, and counts it
(`enters_next?`), so the accounts of a service are kept along every run (`Accounts.run`): what
was published to a partition was received or is queued, and what was received was acknowledged and
counted or is in the hands of the consumer.
-/

namespace BulkRun

open Traffic (belongingTo bucketsAt)

variable {σ : Type} {setup : Setup σ}

/-- What came of a bucket that the consumer of a partition received. -/
structure Receipt where
  partition : Nat
  bucket : Bucket
  result : Except Error BucketOutcome

/-- The receipts of one partition. -/
def receiptsAt (i : Nat) (receipts : List Receipt) : List Receipt :=
  receipts.filter (·.partition == i)

/-- The bucket in the hands of the consumer of a partition. -/
def System.inHand (s : System σ) (i : Nat) : List Bucket :=
  (s.consumers[i]?.bind (·.bucket?)).toList

namespace Service

/-! ## Runs of a service -/

/-- What can happen to a running service. -/
inductive Event (σ : Type) where
  | system (event : System.Event)
  /-- The world of the collaborators changes of itself. -/
  | world (w : σ)

/-- Whether whoever submits commands will submit no more. -/
def Event.isRelease : Event σ → Bool
  | .system .release => true
  | _ => false

/-- The system of a service after an event; `none` when the event cannot happen. -/
def next? (setup : Setup σ) (s : System σ) : Event σ → Option (System σ)
  | .system event => s.next? setup event
  | .world w => some { s with engine := { s.engine with world := w } }

/-- The bucket that is published with an event. -/
def published? (m : Move (System σ) (Event σ)) : Option Bucket :=
  match m.event with
  | .system (.step (.scroll key)) => (m.before.loop? key).bind (·.publishes? m.before.engine)
  | _ => none

/-- The delivery that a consumer receives with an event. -/
def received? (m : Move (System σ) (Event σ)) : Option Delivery :=
  match m.event with
  | .system (.step (.consume i)) =>
    (m.before.consumers[i]?.bind (·.received? m.before.engine)).map Prod.fst
  | _ => none

/-- What came of a bucket that a consumer is done with. -/
def returned? (setup : Setup σ) (m : Move (System σ) (Event σ)) : Option Receipt :=
  match m.event with
  | .system (.step (.consume i)) =>
    (m.before.consumers[i]?.bind (·.returns? setup m.before.engine)).map fun (b, result) =>
      ⟨i, b, result⟩
  | _ => none

/-- The buckets that were published, in order. -/
def published (moves : List (Move (System σ) (Event σ))) : List Bucket := moves.filterMap published?

/-- What was received, in order. -/
def received (moves : List (Move (System σ) (Event σ))) : List Delivery := moves.filterMap received?

/-- What came of the buckets that were received, in the order in which they were done with. -/
def returned (setup : Setup σ) (moves : List (Move (System σ) (Event σ))) : List Receipt :=
  moves.filterMap (returned? setup)

/-- How many others than the scroll loops may publish: one, until it lets go. -/
def holders (moves : List (Move (System σ) (Event σ))) : Nat :=
  1 - moves.countP (·.event.isRelease)

variable {s t : System σ} {moves : List (Move (System σ) (Event σ))} {m : Move (System σ) (Event σ)}

theorem holders_of_open (h : ∀ m ∈ moves, m.event ≠ .system .release) : holders moves = 1 := by
  have hnone : moves.countP (·.event.isRelease) = 0 := by
    rw [List.countP_eq_zero]
    intro m hm hrelease
    apply h m hm
    unfold Event.isRelease at hrelease
    split at hrelease
    · assumption
    · exact absurd hrelease Bool.false_ne_true
  rw [holders, hnone]

theorem holders_of_released (hm : m ∈ moves) (hrelease : m.event = .system .release) :
    holders moves = 0 := by
  have hpos : 0 < moves.countP (·.event.isRelease) := by
    rw [List.countP_pos_iff]
    exact ⟨m, hm, by rw [hrelease]; rfl⟩
  unfold holders
  omega

/-- A system stays in order, whoever lets go of it. -/
theorem inOrder_next? {event : Event σ} (h : s.InOrder (holders moves))
    (hnext : next? setup s event = some t) : t.InOrder (holders (moves ++ [⟨s, event, t⟩])) := by
  have hcount : holders (moves ++ [⟨s, event, t⟩]) =
      if event.isRelease then holders moves - 1 else holders moves := by
    unfold holders
    rw [List.countP_append, List.countP_singleton]
    split <;> omega
  rw [hcount]
  cases event with
  | system event =>
    have hafter := h.next? hnext
    cases event with
    | _ => exact hafter
  | world w =>
    obtain rfl := Option.some.inj hnext
    exact { h with sound := { h.sound with } }

/-! ## What one event enters -/

/-- What an event makes of the buckets on their way and of the accounts, when some bucket is
published with it, received with it, or done with. -/
structure Enters (s t : System σ) (published : Option Bucket) (received : Option Delivery)
    (returned : Option Receipt) : Prop where
  length : t.engine.channel.partitions.length = s.engine.channel.partitions.length
  queue : ∀ i, s.engine.channel.queueAt i ++
      belongingTo s.engine.channel.partitionFor i published.toList =
    bucketsAt i received.toList ++ t.engine.channel.queueAt i
  held : ∀ i, s.inHand i ++ bucketsAt i received.toList =
    (receiptsAt i returned.toList).map (·.bucket) ++ t.inHand i
  stats : t.engine.channel.stats = ⟨s.engine.channel.stats.published + published.toList.length,
    s.engine.channel.stats.acknowledged + returned.toList.length,
    s.engine.channel.stats.redelivered⟩
  summaries : ∀ i, t.consumers[i]?.map (·.summary) = s.consumers[i]?.map fun c =>
    ((receiptsAt i returned.toList).map (·.result)).foldl .count c.summary
  /-- Whatever came of a bucket, its consumer goes on to receive. -/
  idle : ∀ receipt, returned = some receipt →
    ∃ c, t.consumers[receipt.partition]? = some c ∧ c.phase = .idle

/-- Nobody but a consumer receives anything, or is done with anything. -/
theorem enters_feeds {b : Option Bucket} (hfeeds : s.engine.channel.Feeds b t.engine.channel)
    (hconsumers : t.consumers = s.consumers) : Enters s t b none none where
  length := hfeeds.length
  queue i := (hfeeds.queue i).symm
  held i := by
    show s.inHand i ++ [] = t.inHand i
    rw [List.append_nil, System.inHand, System.inHand, hconsumers]
  stats := hfeeds.stats
  summaries i := by
    rw [hconsumers]
    rfl
  idle _ h := absurd h (by simp)

theorem bucketsAt_toList {v : Option Delivery} {i : Nat} (h : ∀ w, v = some w → w.partition = i)
    (j : Nat) : bucketsAt j v.toList = if j = i then (v.map (·.bucket)).toList else [] := by
  cases v with
  | none => exact (ite_self _).symm
  | some w =>
    have hw := h w rfl
    split
    · rename_i hj
      exact Traffic.bucketsAt_cons_self (hw.trans hj.symm)
    · rename_i hj
      exact Traffic.bucketsAt_cons_other fun heq => hj (heq.symm.trans hw)

theorem receiptsAt_toList (r : Option (Bucket × Except Error BucketOutcome)) (i j : Nat) :
    receiptsAt j (r.map fun (b, result) => (⟨i, b, result⟩ : Receipt)).toList =
      if j = i then (r.map fun (b, result) => (⟨i, b, result⟩ : Receipt)).toList else [] := by
  cases r with
  | none => exact (ite_self _).symm
  | some _ =>
    split
    · rename_i hj
      simp [receiptsAt, hj]
    · rename_i hj
      simp [receiptsAt, Ne.symm hj]

/-- A consumer enters what it receives and what came of what it received. -/
theorem enters_draws {i : Nat} {c : Consumer σ} {r : Consumer σ × Engine σ}
    (hc : s.consumers[i]? = some c) (hpartition : c.partition = i)
    (hdraws : c.Draws setup s.engine r) :
    Enters s { s with engine := r.2, consumers := s.consumers.set i r.1 } none
      ((c.received? s.engine).map Prod.fst)
      ((c.returns? setup s.engine).map fun (b, result) => ⟨i, b, result⟩) := by
  have hi : i < s.consumers.length := (List.getElem?_eq_some_iff.1 hc).1
  have hself : (s.consumers.set i r.1)[i]? = some r.1 := List.getElem?_set_self hi
  have hother {j : Nat} (hj : j ≠ i) : (s.consumers.set i r.1)[j]? = s.consumers[j]? :=
    List.getElem?_set_ne (Ne.symm hj)
  have hreceived (j : Nat) := bucketsAt_toList (v := (c.received? s.engine).map Prod.fst) (i := i)
    (fun w hw => by
      obtain ⟨⟨v, d⟩, hv, rfl⟩ := Option.map_eq_some_iff.1 hw
      exact (hdraws.partition v d hv).trans hpartition) j
  constructor
  case length => exact hdraws.length
  case queue =>
    intro j
    rw [hreceived]
    show s.engine.channel.queueAt j ++ [] = _
    rw [List.append_nil]
    split
    · rename_i hj
      rw [hj, ← hpartition, Option.map_map]
      exact hdraws.queue_self
    · rename_i hj
      exact (hdraws.queue_other j (hpartition ▸ hj)).symm
  case held =>
    intro j
    rw [hreceived, receiptsAt_toList]
    unfold System.inHand
    split
    · rename_i hj
      rw [hj, hself, hc, Option.bind_some, Option.bind_some, Option.map_map, ← Option.toList_map,
        Option.map_map]
      exact hdraws.held
    · rename_i hj
      rw [hother hj, List.append_nil]
      rfl
  case stats =>
    rw [Option.toList_map, List.length_map]
    exact hdraws.stats
  case summaries =>
    intro j
    rw [receiptsAt_toList]
    split
    · rename_i hj
      rw [hj, hself, hc, Option.map_some, Option.map_some, ← Option.toList_map, Option.map_map]
      exact congrArg some hdraws.summary
    · rename_i hj
      rw [hother hj]
      rfl
  case idle =>
    intro receipt hreceipt
    obtain ⟨⟨b, result⟩, hr, rfl⟩ := Option.map_eq_some_iff.1 hreceipt
    exact ⟨r.1, hself, hdraws.idle (by rw [hr]; rfl)⟩

/-- Every event moves at most one bucket on its way, and enters it. -/
theorem enters_next? {n : Nat} {event : Event σ} (h : s.InOrder n)
    (hnext : next? setup s event = some t) :
    Enters s t (published? ⟨s, event, t⟩) (received? ⟨s, event, t⟩)
      (returned? setup ⟨s, event, t⟩) := by
  have hnothing {u : System σ} (hparts : u.engine.channel.partitions = s.engine.channel.partitions)
      (hstats : u.engine.channel.stats = s.engine.channel.stats)
      (hconsumers : u.consumers = s.consumers) : Enters s u none none none :=
    enters_feeds (Channel.feeds_none hparts hstats) hconsumers
  cases event with
  | world w =>
    obtain rfl := Option.some.inj hnext
    exact hnothing rfl rfl rfl
  | system event =>
    have hnext : s.next? setup event = some t := hnext
    cases event with
    | submit c =>
      obtain ⟨-, r, hr⟩ := System.next?_submit hnext
      obtain ⟨c', x, u, -, -, -, rfl⟩ := System.submit_eq_ok hr
      exact hnothing rfl rfl rfl
    | step task =>
      cases task with
      | scroll key =>
        have hstep : s.stepTask? setup (.scroll key) = some t := hnext
        obtain ⟨l, -, hfind, hopen, -, rfl⟩ := System.stepTask?_scroll hstep
        simp only [published?, hfind, Option.bind_some]
        exact enters_feeds (ScrollLoop.feeds_resume hopen) rfl
      | consume i =>
        obtain ⟨c, r, hc, hr, rfl⟩ := System.stepTask?_consume hnext
        have hserves := h.sound.consumers c (List.mem_of_getElem? hc)
        have hdraws := Consumer.draws_step? h.channel hserves h.sound.distinct hr
        simp only [received?, returned?, hc, Option.bind_some]
        exact enters_draws hc (h.consumers i c hc).partition hdraws
      | watch i =>
        obtain ⟨w, -, rfl⟩ := Option.map_eq_some_iff.1 hnext
        exact hnothing rfl rfl rfl
    | putOff task =>
      have hput : s.putOff? setup task = some t := hnext
      obtain rfl | ⟨l, -, r, hr, rfl⟩ := System.putOff?_eq_some hput
      · exact hnothing rfl rfl rfl
      · exact enters_feeds (ScrollLoop.feeds_putOff? hr) rfl
    | abort k message =>
      obtain ⟨new, u, -, rfl⟩ := System.next?_abort hnext
      exact hnothing rfl rfl rfl
    | release =>
      obtain ⟨-, rfl⟩ := System.next?_release hnext
      exact hnothing rfl rfl rfl
    | lookUp | purge | tick | await | schedule =>
      obtain rfl := Option.some.inj hnext
      exact hnothing rfl rfl rfl

/-! ## Along a run -/

/-- The accounts of a service after some moves. -/
structure Accounts (setup : Setup σ) (moves : List (Move (System σ) (Event σ))) (s : System σ) :
    Prop where
  inOrder : s.InOrder (holders moves)
  /-- What was published to a partition was received, in order, or is queued. -/
  queued : ∀ i, belongingTo s.engine.channel.partitionFor i (published moves) =
    bucketsAt i (received moves) ++ s.engine.channel.queueAt i
  /-- What was received is done with, in order, or it is the one in the hands of the consumer. -/
  held : ∀ i, bucketsAt i (received moves) =
    (receiptsAt i (returned setup moves)).map (·.bucket) ++ s.inHand i
  stats : s.engine.channel.stats = ⟨(published moves).length, (returned setup moves).length, 0⟩
  summaries : ∀ i c, s.consumers[i]? = some c → c.summary =
    ((receiptsAt i (returned setup moves)).map (·.result)).foldl .count ⟨i, 0, 0, 0, 0⟩
  /-- Whatever came of a bucket, its consumer went on to receive. -/
  goesOn : ∀ m ∈ moves, ∀ receipt, returned? setup m = some receipt →
    ∃ c, m.after.consumers[receipt.partition]? = some c ∧ c.phase = .idle

theorem published_concat :
    published (moves ++ [m]) = published moves ++ (published? m).toList := List.filterMap_append

theorem received_concat :
    received (moves ++ [m]) = received moves ++ (received? m).toList := List.filterMap_append

theorem returned_concat : returned setup (moves ++ [m]) =
    returned setup moves ++ (returned? setup m).toList := List.filterMap_append

theorem receiptsAt_append (i : Nat) (front rear : List Receipt) :
    receiptsAt i (front ++ rear) = receiptsAt i front ++ receiptsAt i rear := List.filter_append ..

/-- One more move. -/
theorem Accounts.move {event : Event σ} (h : Accounts setup moves s)
    (hnext : next? setup s event = some t) : Accounts setup (moves ++ [⟨s, event, t⟩]) t := by
  have henters := enters_next? h.inOrder hnext
  have hplace : t.engine.channel.partitionFor = s.engine.channel.partitionFor :=
    funext (Channel.partitionFor_congr henters.length)
  constructor
  case inOrder => exact inOrder_next? h.inOrder hnext
  case queued =>
    intro i
    rw [hplace, published_concat, received_concat, Traffic.belongingTo_append,
      Traffic.bucketsAt_append, h.queued i, List.append_assoc, List.append_assoc, henters.queue i]
  case held =>
    intro i
    rw [received_concat, returned_concat, Traffic.bucketsAt_append, receiptsAt_append,
      List.map_append, h.held i, List.append_assoc, List.append_assoc, henters.held i]
  case stats =>
    rw [published_concat, returned_concat, List.length_append, List.length_append, henters.stats,
      h.stats]
  case summaries =>
    intro i c' hc'
    have hafter := henters.summaries i
    rw [hc', Option.map_some] at hafter
    obtain ⟨c, hc, hcounted⟩ := Option.map_eq_some_iff.1 hafter.symm
    rw [returned_concat, receiptsAt_append, List.map_append, List.foldl_append,
      ← h.summaries i c hc]
    exact hcounted.symm
  case goesOn =>
    intro m hm
    obtain hm | hm := List.mem_append.1 hm
    · exact h.goesOn m hm
    · rw [List.mem_singleton.1 hm]
      exact henters.idle

/-- A service that was just started has nothing to account for. -/
theorem accounts_start {settings : Settings} {actions : ActionRegistry (Action σ)}
    {scrollers : ScrollerRegistry (Scroller σ)} {transactions : TransactionManager σ}
    {now : Timestamp} {world : σ} {service : Service σ}
    (h : start settings actions scrollers transactions now world = .ok service) :
    Accounts service.setup [] service.system where
  inOrder := System.inOrder_start h
  queued i := by
    rw [system_of_start h]
    exact (Channel.queueAt_new _ _ i).symm
  held i := by
    rw [system_of_start h, System.inHand]
    cases hc : (System.withConsumers (.ofEngine _)).consumers[i]? with
    | none => rfl
    | some c =>
      rw [System.eq_new_of_withConsumers hc]
      rfl
  stats := by
    rw [system_of_start h]
    rfl
  summaries i c hc := by
    rw [system_of_start h] at hc
    rw [System.eq_new_of_withConsumers hc]
    rfl
  goesOn m hm := absurd hm List.not_mem_nil

/-- The accounts are kept along every run. -/
theorem Accounts.run {front : List (Move (System σ) (Event σ))} (h : Accounts setup front s)
    (hrun : Run (next? setup) s moves t) : Accounts setup (front ++ moves) t := by
  induction hrun with
  | start =>
    rw [List.append_nil]
    exact h
  | move event _ hnext ih =>
    rw [← List.append_assoc]
    exact ih.move hnext

end Service

end BulkRun
