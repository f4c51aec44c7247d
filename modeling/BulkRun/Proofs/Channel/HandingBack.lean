import BulkRun.Proofs.Channel.Conservation
/-!
# When a bucket that was handed back comes again

Publishers come and go, and a receiver that waits at its queue is told when nothing more can come.
What is handed back goes on top of the stash, and whoever turns to a partition takes from the top
(`stashAfter`), so what was handed back last comes first, and before everything in the queue.

A receiver looks into its stash only before it begins to wait.  What is handed back while it waits
lies in the stash until it turns to the partition again, even if it is told meanwhile that nothing
more will come (`overtaken_and_left_behind`).  Main statement: `handed_back_comes_next`.
-/

namespace BulkRun.Traffic

/-- Whether an event is one of a holder who may publish. -/
def Event.isPublishing : Event → Bool
  | .publish _ | .enlist _ _ | .reserve _ _ | .claim _ _ => true
  | _ => false

/-- What can happen to a channel whose publishers come and go. -/
inductive Act where
  | pass (e : Event)
  /-- A holder lets another one publish, too. -/
  | join
  /-- A holder will publish no more. -/
  | leave
  /-- A receiver that waits at the queue is told that nothing more will come. -/
  | stop (i : Nat)

/-- A channel after an act; `none` when the act cannot happen.  Nobody publishes, and nobody lets
others publish, when all holders are gone. -/
def act? (t : Traffic) : Act → Option Traffic
  | .pass e => if e.isPublishing && t.channel.isFinished then none else t.next? e
  | .join =>
    if t.channel.isFinished then none else some { t with channel := t.channel.addPublisher }
  | .leave =>
    if t.channel.isFinished then none else some { t with channel := t.channel.dropPublisher }
  | .stop i =>
    if i ∈ t.calling then
      match t.channel.dequeue? i with
      | some _ => none
      | none => if t.channel.isFinished then some (t.hangUp i) else none
    else none

variable {t u w : Traffic} {a : Act} {e : Event} {i j n : Nat} {v : Delivery} {b : Bucket}
  {moves more : List (Move Traffic Act)} {partitions capacity : Nat}

/-- Whether an act hands a bucket back to a partition. -/
def Act.HandsBackTo (i : Nat) (a : Act) : Prop := ∃ v, a = .pass (.handBack v) ∧ v.partition = i

theorem next?_of_act? (h : t.act? (.pass e) = some u) : t.next? e = some u := by
  rw [act?] at h
  split at h
  · exact absurd h (by simp)
  · exact h

/-- A receiver is told that nothing more will come when all publishers are gone and the queue of
its partition is empty. -/
theorem stop_eq_some (h : t.act? (.stop i) = some u) :
    i ∈ t.calling ∧ t.channel.queueAt i = [] ∧ t.channel.publishers = 0 ∧ u = t.hangUp i := by
  rw [act?] at h
  split at h
  · rename_i hcalling
    split at h
    · exact absurd h (by simp)
    · rename_i hqueue
      split at h
      · rename_i hfinished
        exact ⟨hcalling, Channel.queueAt_of_dequeue?_none hqueue, eq_of_beq hfinished,
          (Option.some.inj h).symm⟩
      · exact absurd h (by simp)
  · exact absurd h (by simp)

/-- Whether all deliveries are of partitions that exist. -/
def HeldInRange (t : Traffic) : Prop := ∀ v ∈ t.held, v.partition < t.channel.partitions.length

theorem HeldInRange.act? (hheld : t.HeldInRange) (h : t.act? a = some u) : u.HeldInRange := by
  cases a with
  | pass e => exact (passes_next? hheld (next?_of_act? h)).held
  | join | leave =>
    rw [Traffic.act?] at h
    split at h
    · exact absurd h (by simp)
    · obtain rfl := Option.some.inj h
      exact hheld
  | stop i =>
    obtain ⟨-, -, -, rfl⟩ := stop_eq_some h
    exact hheld

theorem heldInRange_new (partitions capacity : Nat) : (new partitions capacity).HeldInRange :=
  fun _ hv => absurd hv List.not_mem_nil

theorem heldInRange_run (h : Run act? (new partitions capacity) moves t) : t.HeldInRange :=
  h.always (heldInRange_new partitions capacity) fun _ _ _ hnext hheld => hheld.act? hnext

/-! ## What an act does to a stash -/

/-- What an act makes of the stash of a partition. -/
def stashAfter (i : Nat) : Act → List Bucket → List Bucket
  | .pass (.receive j), stash => if j = i then stash.tail else stash
  | .pass (.handBack v), stash => if v.partition = i then v.bucket :: stash else stash
  | _, stash => stash

theorem stashAfter_nil (h : ¬a.HandsBackTo i) : stashAfter i a [] = [] := by
  unfold stashAfter
  split
  · split
    · rfl
    · rfl
  · rename_i v
    rw [if_neg fun hv => h ⟨v, rfl, hv⟩]
  · rfl

/-- Nothing but receiving and handing back changes a stash. -/
theorem Shift.stash_eq {home : CommandId → Nat} {P Q : Places} (h : Shift home i e P Q)
    (hreceive : ∀ j, e ≠ .receive j) (hhand : e.handedBack? = none) : Q.stash = P.stash := by
  cases h with
  | unstash _ => exact absurd rfl (hreceive i)
  | handBack _ _ => exact absurd hhand (by simp [Event.handedBack?])
  | publish _ _ _ | dequeue _ _ _ | call _ | answer _ _ | hangUp | acknowledge _ _ | still _ _ =>
    rfl

theorem stashAt_receive (h : t.next? (.receive j) = some u) (i : Nat) :
    u.channel.stashAt i = stashAfter i (.pass (.receive j)) (t.channel.stashAt i) := by
  rw [next?] at h
  split at h
  · exact absurd h (by simp)
  obtain ⟨⟨v, c⟩, hc, rfl⟩ := Option.map_eq_some_iff.1 h
  obtain ⟨p, q, hp, hq, rfl, rfl⟩ := Channel.takeWith_eq_some hc
  have halters := Channel.alters_setPartition hp q
  have htail : q.stash = p.stash.tail := by
    obtain ⟨rest, hstash, rfl⟩ | ⟨hstash, hq⟩ := Partition.take?_eq_some hq
    · rw [hstash]
      rfl
    · obtain ⟨rest, -, rfl⟩ := Partition.dequeue?_eq_some hq
      rw [Partition.stash_grant]
      show p.stash = p.stash.tail
      rw [hstash]
      rfl
  show (t.channel.setPartition v.partition q).stashAt i = _
  rw [stashAfter]
  split
  · rename_i hi
    rw [← hi, halters.stashAt_self, htail, Channel.stashAt_of_getElem? hp]
  · rename_i hi
    exact halters.stashAt_other (Ne.symm hi)

theorem stashAt_handBack (hheld : t.HeldInRange)
    (h : t.next? (.handBack v) = some u) (i : Nat) :
    u.channel.stashAt i = stashAfter i (.pass (.handBack v)) (t.channel.stashAt i) := by
  rw [next?] at h
  split at h
  · rename_i hv
    obtain rfl := Option.some.inj h
    have hp := List.getElem?_eq_getElem (hheld v hv)
    have halters := Channel.alters_handBack hp
    show (t.channel.handBack v).stashAt i = _
    rw [stashAfter]
    split
    · rename_i hi
      rw [← hi, halters.stashAt_self, Channel.stashAt_of_getElem? hp]
      rfl
    · rename_i hi
      exact halters.stashAt_other (Ne.symm hi)
  · exact absurd h (by simp)

/-- A stash is served from the top, and what is handed back is put there. -/
theorem stashAt_act? (hheld : t.HeldInRange) (h : t.act? a = some u) (i : Nat) :
    u.channel.stashAt i = stashAfter i a (t.channel.stashAt i) := by
  cases a with
  | pass e =>
    have hnext := next?_of_act? h
    have hshift := (passes_next? hheld hnext).shift i
    cases e with
    | receive j => exact stashAt_receive hnext i
    | handBack v => exact stashAt_handBack hheld hnext i
    | publish _ | enlist _ _ | reserve _ _ | claim _ _ | call _ | answer _ | hangUp _
    | acknowledge _ => exact hshift.stash_eq (fun j => by simp) rfl
  | join | leave =>
    rw [act?] at h
    split at h
    · exact absurd h (by simp)
    · obtain rfl := Option.some.inj h
      rfl
  | stop j =>
    obtain ⟨-, -, -, rfl⟩ := stop_eq_some h
    rfl

/-! ## Who waits, and since when -/

/-- Whoever waits at a queue began to wait, or did so before. -/
theorem mem_calling_act? (hheld : t.HeldInRange) (h : t.act? a = some u) (hi : i ∈ u.calling) :
    a = .pass (.call i) ∨ i ∈ t.calling := by
  cases a with
  | pass e =>
    have hshift := (passes_next? hheld (next?_of_act? h)).shift i
    have hcalling : (u.places i).calling = true := List.contains_iff_mem.2 hi
    generalize hP : t.places i = P at hshift
    generalize hQ : u.places i = Q at hshift hcalling
    have hmem : P.calling = true → i ∈ t.calling := by
      rintro hP'
      rw [← hP] at hP'
      exact List.contains_iff_mem.1 hP'
    cases hshift with
    | call _ => exact .inl rfl
    | answer _ _ | hangUp => exact absurd hcalling Bool.false_ne_true
    | publish _ _ _ | unstash _ | dequeue _ _ _ | acknowledge _ _ | handBack _ _ | still _ _ =>
      exact .inr (hmem hcalling)
  | join | leave =>
    rw [act?] at h
    split at h
    · exact absurd h (by simp)
    · obtain rfl := Option.some.inj h
      exact .inr hi
  | stop j =>
    obtain ⟨-, -, -, rfl⟩ := stop_eq_some h
    exact .inr (List.mem_filter.1 hi).1

theorem stashAt_of_call (h : t.act? (.pass (.call i)) = some u) : t.channel.stashAt i = [] := by
  have hnext := next?_of_act? h
  rw [next?] at hnext
  split at hnext
  · exact absurd hnext (by simp)
  · rename_i hnot
    exact Decidable.not_not.1 fun hne => hnot (.inr hne)

/-- A receiver that waits found its stash empty when it began, and so it is still unless something
was handed back since. -/
theorem waits_since (h : Run act? (new partitions capacity) moves t) (hi : i ∈ t.calling) :
    ∃ front c rear, moves = front ++ c :: rear ∧ c.event = .pass (.call i) ∧
      (∀ m ∈ rear, i ∈ m.before.calling) ∧
      ((∀ m ∈ rear, ¬m.event.HandsBackTo i) → t.channel.stashAt i = []) := by
  induction h with
  | start => exact absurd hi List.not_mem_nil
  | @move moves t u a hrun hact ih =>
    have hheld := heldInRange_run hrun
    have hstash := stashAt_act? hheld hact i
    obtain rfl | hbefore := mem_calling_act? hheld hact hi
    · refine ⟨moves, ⟨t, _, u⟩, [], rfl, rfl, fun m hm => absurd hm List.not_mem_nil, fun _ => ?_⟩
      rw [hstash, stashAt_of_call hact]
      rfl
    · obtain ⟨front, c, rear, rfl, hc, hwaits, hempty⟩ := ih hbefore
      refine ⟨front, c, rear ++ [⟨t, a, u⟩], by simp, hc, ?_, ?_⟩
      · intro m hm
        obtain hm | hm := List.mem_append.1 hm
        · exact hwaits m hm
        · rw [List.mem_singleton.1 hm]
          exact hbefore
      · intro hnone
        rw [hstash, hempty fun m hm => hnone m (List.mem_append_left _ hm)]
        exact stashAfter_nil (hnone ⟨t, a, u⟩ (by simp))

/-! ## What lies above a bucket that was handed back -/

/-- How many buckets lie above one that lies in a stash under so many; `none` when it is delivered
itself, or when a receiver who waits at the queue gets a bucket of its partition before. -/
def above? (i n : Nat) : Act → Option Nat
  | .pass (.receive j) => if j = i then (if n = 0 then none else some (n - 1)) else some n
  | .pass (.answer j) => if j = i then none else some n
  | .pass (.handBack v) => if v.partition = i then some (n + 1) else some n
  | _ => some n

/-- A bucket stays where it lies in a stash, under those that were handed back after it. -/
theorem stashAfter_above {top : List Bucket} (b : Bucket) (below : List Bucket)
    (h : above? i top.length a = some n) :
    ∃ top', top'.length = n ∧ stashAfter i a (top ++ b :: below) = top' ++ b :: below := by
  unfold above? at h
  split at h
  · split at h
    · split at h
      · exact absurd h (by simp)
      · rename_i j hj hne
        obtain ⟨first, rest, rfl⟩ := List.exists_cons_of_length_pos (Nat.pos_of_ne_zero hne)
        obtain rfl := Option.some.inj h
        refine ⟨rest, rfl, ?_⟩
        rw [stashAfter, if_pos hj]
        rfl
    · rename_i j hj
      obtain rfl := Option.some.inj h
      refine ⟨top, rfl, ?_⟩
      rw [stashAfter, if_neg hj]
  · split at h
    · exact absurd h (by simp)
    · obtain rfl := Option.some.inj h
      exact ⟨top, rfl, rfl⟩
  · split at h
    · rename_i v hv
      obtain rfl := Option.some.inj h
      refine ⟨v.bucket :: top, rfl, ?_⟩
      rw [stashAfter, if_pos hv]
      rfl
    · rename_i v hv
      obtain rfl := Option.some.inj h
      refine ⟨top, rfl, ?_⟩
      rw [stashAfter, if_neg hv]
  · rename_i hreceive _ hhand
    obtain rfl := Option.some.inj h
    refine ⟨top, rfl, ?_⟩
    unfold stashAfter
    split
    · exact absurd rfl (hreceive _)
    · exact absurd rfl (hhand _)
    · rfl

/-- While a bucket lies in a stash, nobody begins to wait at the queue of its partition. -/
theorem lies_run {top below : List Bucket} (h : Run act? u more w) (hheld : u.HeldInRange)
    (hstash : u.channel.stashAt i = top ++ b :: below)
    (habove : (more.map (·.event)).foldlM (above? i) top.length = some n) :
    (∃ top', top'.length = n ∧ w.channel.stashAt i = top' ++ b :: below) ∧
      (i ∈ w.calling → i ∈ u.calling) ∧ w.HeldInRange := by
  induction h generalizing n with
  | start =>
    obtain rfl := Option.some.inj habove
    exact ⟨⟨top, rfl, hstash⟩, id, hheld⟩
  | @move more t w a hrun hact ih =>
    rw [List.map_append, List.foldlM_append] at habove
    obtain ⟨k, hk, hlast⟩ := Option.bind_eq_some_iff.1 habove
    have hn : above? i k a = some n := by simpa using hlast
    obtain ⟨⟨top', rfl, hlies⟩, hcalling, hrange⟩ := ih hk
    obtain ⟨top'', hlength, hafter⟩ := stashAfter_above b below hn
    refine ⟨⟨top'', hlength, ?_⟩, fun hi => ?_, hrange.act? hact⟩
    · rw [stashAt_act? hrange hact, hlies, hafter]
    · obtain rfl | hbefore := mem_calling_act? hrange hact hi
      · have hnone := stashAt_of_call hact
        rw [hlies] at hnone
        exact absurd hnone (by simp)
      · exact hcalling hbefore

/-- A receiver that does not wait gets the top of its stash. -/
theorem receive_of_stash {rest : List Bucket} (hstash : t.channel.stashAt i = b :: rest)
    (hi : i ∉ t.calling) :
    ∃ u, t.act? (.pass (.receive i)) = some u ∧ u.held = ⟨b, i⟩ :: t.held ∧
      u.channel.queueAt i = t.channel.queueAt i := by
  cases hp : t.channel.partitions[i]? with
  | none =>
    rw [Channel.stashAt, hp] at hstash
    exact absurd hstash (by simp)
  | some p =>
    rw [Channel.stashAt_of_getElem? hp] at hstash
    have htake : t.channel.take? i =
        some (⟨b, i⟩, t.channel.setPartition i { p with stash := rest }) := by
      simp only [Channel.take?, Channel.takeWith, hp, Partition.take?, Partition.unstash?, hstash,
        Option.map_some]
    refine ⟨t.send (⟨b, i⟩, t.channel.setPartition i { p with stash := rest }), ?_, rfl, ?_⟩
    · show t.next? (.receive i) = _
      rw [next?, if_neg hi, htake, Option.map_some]
    · have halters := Channel.alters_setPartition hp { p with stash := rest }
      show (t.channel.setPartition i { p with stash := rest }).queueAt i = _
      rw [halters.queueAt_self, Channel.queueAt_of_getElem? hp]

/-! ## From the start -/

/-- Whoever is told that nothing more will come has nothing in the queue of its partition, and
nothing in the stash either unless it was handed back while the receiver waited.  What is handed
back comes again before everything in the queue, the last first: as long as it is not delivered, and
nobody who waited already gets a bucket of its partition, nobody begins to wait there, and whoever
does not wait and turns to the partition gets what is on top. -/
theorem handed_back_comes_next (h : Run act? (new partitions capacity) moves t) :
    (∀ i u, t.act? (.stop i) = some u →
      t.channel.publishers = 0 ∧ t.channel.queueAt i = [] ∧
        ∃ front c rear, moves = front ++ c :: rear ∧ c.event = .pass (.call i) ∧
          (∀ m ∈ rear, i ∈ m.before.calling) ∧
          ((∀ m ∈ rear, ¬m.event.HandsBackTo i) → t.channel.stashAt i = [])) ∧
    ∀ v u more w n, t.act? (.pass (.handBack v)) = some u → Run act? u more w →
      (more.map (·.event)).foldlM (above? v.partition) 0 = some n →
      (v.partition ∈ w.calling → v.partition ∈ t.calling) ∧
      w.act? (.pass (.call v.partition)) = none ∧
      (v.partition ∉ w.calling →
        w.act? (.pass (.answer v.partition)) = none ∧ w.act? (.stop v.partition) = none ∧
        ∃ d x, w.act? (.pass (.receive v.partition)) = some x ∧ x.held = d :: w.held ∧
          d.partition = v.partition ∧
          x.channel.queueAt v.partition = w.channel.queueAt v.partition ∧ (n = 0 → d = v)) := by
  have hheld := heldInRange_run h
  constructor
  · intro i u hstop
    obtain ⟨hcalling, hqueue, hpublishers, -⟩ := stop_eq_some hstop
    exact ⟨hpublishers, hqueue, waits_since h hcalling⟩
  · intro v u more w n hback hmore habove
    have hstash : u.channel.stashAt v.partition =
        [] ++ v.bucket :: t.channel.stashAt v.partition := by
      rw [stashAt_act? hheld hback, stashAfter, if_pos rfl, List.nil_append]
    obtain ⟨⟨top, rfl, hlies⟩, hcalling, -⟩ :=
      lies_run hmore (hheld.act? hback) hstash habove
    refine ⟨fun hw => ?_, ?_, fun hw => ⟨?_, ?_, ?_⟩⟩
    · obtain hcall | hbefore := mem_calling_act? hheld hback (hcalling hw)
      · exact absurd hcall (by simp)
      · exact hbefore
    · rw [Option.eq_none_iff_forall_ne_some]
      intro x hx
      have hnone := stashAt_of_call hx
      rw [hlies] at hnone
      exact absurd hnone (by simp)
    · show w.next? (.answer v.partition) = none
      rw [next?, if_neg hw]
    · rw [act?, if_neg hw]
    · cases top with
      | nil =>
        obtain ⟨x, hx, hout, hqueue⟩ := receive_of_stash hlies hw
        exact ⟨v, x, hx, hout, rfl, hqueue, fun _ => rfl⟩
      | cons b rest =>
        obtain ⟨x, hx, hout, hqueue⟩ := receive_of_stash hlies hw
        exact ⟨_, x, hx, hout, rfl, hqueue, fun hn => absurd hn (by simp)⟩

/-- The buckets of one command, by their place in it. -/
def numbered (n : Nat) : Bucket := ⟨.ofNat 2, n, []⟩

/-- A bucket is handed back and worked on again; then the publishers go, and the receiver waits. -/
def closingTraffic : List Act :=
  [.pass (.publish (numbered 0)), .pass (.receive 0), .pass (.handBack ⟨numbered 0, 0⟩), .join,
    .pass (.receive 0), .leave, .pass (.acknowledge ⟨numbered 0, 0⟩), .pass (.call 0), .leave]

/-- Two of three buckets are out. -/
def twoOut : List Act :=
  [.pass (.publish (numbered 0)), .pass (.publish (numbered 1)), .pass (.publish (numbered 2)),
    .pass (.receive 0), .pass (.receive 0)]

/-- While the first lies in the stash, the second is handed back and delivered again. -/
def secondMeanwhile : List Act :=
  [.pass (.handBack ⟨numbered 1, 0⟩), .leave, .pass (.receive 0)]

theorem handed_back_comes_next_twice :
    (∃ moves t u, Run act? (new 1 4) moves t ∧ t.act? (.stop 0) = some u ∧
      t.channel.publishers = 0 ∧ t.channel.queueAt 0 = []) ∧
    ∃ moves t u more w x, Run act? (new 1 4) moves t ∧
      t.act? (.pass (.handBack ⟨numbered 0, 0⟩)) = some u ∧ Run act? u more w ∧
      w.act? (.pass (.call 0)) = none ∧ w.act? (.pass (.receive 0)) = some x ∧
      x.held = ⟨numbered 0, 0⟩ :: w.held ∧ x.channel.queueAt 0 = w.channel.queueAt 0 := by
  constructor
  · have hcheck : (movesOf? act? (new 1 4) closingTraffic).any (fun r =>
        (r.2.act? (.stop 0)).isSome) = true := by
      decide +kernel
    obtain ⟨⟨moves, t⟩, hmoves, ht⟩ := (Option.any_eq_true _ _).1 hcheck
    obtain ⟨u, hu⟩ := Option.isSome_iff_exists.1 ht
    have hrun : Run act? (new 1 4) moves t := .of_movesOf? hmoves
    obtain ⟨hpublishers, hqueue, -⟩ := (handed_back_comes_next hrun).1 0 u hu
    exact ⟨moves, t, u, hrun, hu, hpublishers, hqueue⟩
  · have hcheck : (movesOf? act? (new 1 4) twoOut).any (fun r =>
        (r.2.act? (.pass (.handBack ⟨numbered 0, 0⟩))).any fun u =>
          (movesOf? act? u secondMeanwhile).any fun r => decide (r.2.calling = [])) = true := by
      decide +kernel
    obtain ⟨⟨moves, t⟩, hmoves, ht⟩ := (Option.any_eq_true _ _).1 hcheck
    obtain ⟨u, hu, hmore⟩ := (Option.any_eq_true _ _).1 ht
    obtain ⟨⟨more, w⟩, hw, hcalling⟩ := (Option.any_eq_true _ _).1 hmore
    have hrun : Run act? (new 1 4) moves t := .of_movesOf? hmoves
    have hafter : Run act? u more w := .of_movesOf? hw
    have habove : (more.map (·.event)).foldlM (above? 0) 0 = some 0 := by
      rw [events_of_movesOf? hw]
      rfl
    obtain ⟨-, hcall, hnext⟩ :=
      (handed_back_comes_next hrun).2 ⟨numbered 0, 0⟩ u more w 0 hu hafter habove
    have hidle : (0 : Nat) ∉ w.calling := by
      rw [of_decide_eq_true hcalling]
      exact List.not_mem_nil
    obtain ⟨-, -, d, x, hx, hout, -, hqueue, hd⟩ := hnext hidle
    rw [hd rfl] at hout
    exact ⟨moves, t, u, more, w, x, hrun, hu, hafter, hcall, hx, hout, hqueue⟩

/-- A bucket that is handed back while the stash is empty need not be the next that is delivered:
one that is handed back after it comes first, and so does one that is published if the receiver
waits already.  If the publishers go while it waits, the receiver is told that nothing more will
come, with the bucket in the stash. -/
theorem overtaken_and_left_behind :
    (∃ moves t u, Run act? (new 1 4) moves t ∧ t.channel.stashAt 0 = [] ∧
      ∃ more w, movesOf? act? t
          [.pass (.handBack ⟨numbered 0, 0⟩), .pass (.handBack ⟨numbered 1, 0⟩)] = some (more, w) ∧
        w.act? (.pass (.receive 0)) = some u ∧ u.held = [⟨numbered 1, 0⟩]) ∧
    (∃ moves t u, Run act? (new 1 4) moves t ∧ t.channel.stashAt 0 = [] ∧ 0 ∈ t.calling ∧
      ∃ more w, movesOf? act? t
          [.pass (.handBack ⟨numbered 0, 0⟩), .pass (.publish (numbered 1))] = some (more, w) ∧
        w.act? (.pass (.answer 0)) = some u ∧ u.held = [⟨numbered 1, 0⟩]) ∧
    ∃ moves t u, Run act? (new 1 4) moves t ∧ t.act? (.stop 0) = some u ∧
      t.channel.stashAt 0 = [numbered 0] := by
  refine ⟨?_, ?_, ?_⟩
  · have hcheck : (movesOf? act? (new 1 4) twoOut).any (fun r =>
        decide (r.2.channel.stashAt 0 = []) &&
        (movesOf? act? r.2 [.pass (.handBack ⟨numbered 0, 0⟩),
          .pass (.handBack ⟨numbered 1, 0⟩)]).any fun q =>
            (q.2.act? (.pass (.receive 0))).any fun u =>
              decide (u.held = [⟨numbered 1, 0⟩])) = true := by
      decide +kernel
    obtain ⟨⟨moves, t⟩, hmoves, ht⟩ := (Option.any_eq_true _ _).1 hcheck
    obtain ⟨hstash, ht⟩ := Bool.and_eq_true_iff.1 ht
    obtain ⟨⟨more, w⟩, hmore, hw⟩ := (Option.any_eq_true _ _).1 ht
    obtain ⟨u, hu, hout⟩ := (Option.any_eq_true _ _).1 hw
    exact ⟨moves, t, u, .of_movesOf? hmoves, of_decide_eq_true hstash, more, w, hmore, hu,
      of_decide_eq_true hout⟩
  · have hcheck : (movesOf? act? (new 1 4)
        [.pass (.publish (numbered 0)), .pass (.receive 0), .pass (.call 0)]).any (fun r =>
          decide (r.2.channel.stashAt 0 = [] ∧ 0 ∈ r.2.calling) &&
          (movesOf? act? r.2 [.pass (.handBack ⟨numbered 0, 0⟩),
            .pass (.publish (numbered 1))]).any fun q =>
              (q.2.act? (.pass (.answer 0))).any fun u =>
                decide (u.held = [⟨numbered 1, 0⟩])) = true := by
      decide +kernel
    obtain ⟨⟨moves, t⟩, hmoves, ht⟩ := (Option.any_eq_true _ _).1 hcheck
    obtain ⟨hbefore, ht⟩ := Bool.and_eq_true_iff.1 ht
    obtain ⟨hstash, hcalling⟩ := of_decide_eq_true hbefore
    obtain ⟨⟨more, w⟩, hmore, hw⟩ := (Option.any_eq_true _ _).1 ht
    obtain ⟨u, hu, hout⟩ := (Option.any_eq_true _ _).1 hw
    exact ⟨moves, t, u, .of_movesOf? hmoves, hstash, hcalling, more, w, hmore, hu,
      of_decide_eq_true hout⟩
  · have hcheck : (movesOf? act? (new 1 4) [.pass (.publish (numbered 0)), .pass (.receive 0),
        .pass (.call 0), .pass (.handBack ⟨numbered 0, 0⟩), .leave]).any (fun r =>
          (r.2.act? (.stop 0)).isSome && decide (r.2.channel.stashAt 0 = [numbered 0])) = true := by
      decide +kernel
    obtain ⟨⟨moves, t⟩, hmoves, ht⟩ := (Option.any_eq_true _ _).1 hcheck
    obtain ⟨hstop, hstash⟩ := Bool.and_eq_true_iff.1 ht
    obtain ⟨u, hu⟩ := Option.isSome_iff_exists.1 hstop
    exact ⟨moves, t, u, .of_movesOf? hmoves, hu, of_decide_eq_true hstash⟩

end BulkRun.Traffic
