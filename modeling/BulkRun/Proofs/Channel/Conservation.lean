import BulkRun.Proofs.Channel.Traffic
/-!
# What becomes of published buckets

Each event of a channel in use moves at most one bucket from one place of its partition to another,
so nothing is lost or doubled (`Shift.conserves`).  When no delivery of a partition is out while its
receiver turns to it, at most one bucket stands before the queue, and the places read from the left
are the order of publishing (`Shift.inOrder`).  Main statement: `conserved_and_ordered`.
-/

namespace BulkRun.Traffic

variable {t u : Traffic} {e : Event} {i : Nat} {b : Bucket} {c : Channel}
variable {home : CommandId → Nat} {P Q : Places} {moves : List (Move Traffic Event)}

/-- All buckets of a partition that are not acknowledged yet: what is out, then what was handed
back, then what is queued. -/
def Places.all (P : Places) : List Bucket := (P.held ++ P.stash) ++ P.queue

/-- What was published to a partition, in the order of publishing. -/
def publishedAt (home : CommandId → Nat) (i : Nat) (moves : List (Move Traffic Event)) :
    List Bucket :=
  belongingTo home i (yielded Event.published? moves)

/-- What the receiver of a partition acknowledged, in this order. -/
def acknowledgedAt (i : Nat) (moves : List (Move Traffic Event)) : List Bucket :=
  bucketsAt i (yielded Event.acknowledged? moves)

/-- Whether nothing of a partition is out whenever its receiver turns to it for the next bucket. -/
def OneAtATime (i : Nat) (moves : List (Move Traffic Event)) : Prop :=
  ∀ m ∈ moves, m.event = .receive i ∨ m.event = .call i → (m.before.places i).held = []

theorem belongingTo_none (he : e.published? = none) :
    belongingTo home i e.published?.toList = [] := by
  rw [he]
  rfl

theorem belongingTo_self (he : e.published? = some b) (hb : home b.commandId = i) :
    belongingTo home i e.published?.toList = [b] := by
  rw [he, Option.toList_some, belongingTo, List.filter_cons_of_pos (by simpa using hb),
    List.filter_nil]

theorem bucketsAt_none (ha : e.acknowledged? = none) : bucketsAt i e.acknowledged?.toList = [] := by
  rw [ha]
  rfl

theorem belongingTo_elsewhere (h : ∀ b, e.published? = some b → home b.commandId ≠ i) :
    belongingTo home i e.published?.toList = [] := by
  refine List.filter_eq_nil_iff.2 ?_
  intro b hb
  simpa using h b (Option.mem_toList.1 hb)

theorem bucketsAt_elsewhere (h : ∀ v, e.acknowledged? = some v → v.partition ≠ i) :
    bucketsAt i e.acknowledged?.toList = [] := by
  rw [bucketsAt, List.map_eq_nil_iff]
  refine List.filter_eq_nil_iff.2 ?_
  intro v hv
  simpa using h v (Option.mem_toList.1 hv)

/-- An event adds the bucket that it publishes and takes away the one that it acknowledges. -/
theorem Shift.conserves (h : Shift home i e P Q) :
    (P.all ++ belongingTo home i e.published?.toList).Perm
      (bucketsAt i e.acknowledged?.toList ++ Q.all) := by
  cases h with
  | publish he ha hb =>
    rw [belongingTo_self he hb, bucketsAt_none ha, List.nil_append, Places.all, Places.all,
      List.append_assoc]
  | unstash hstash =>
    rw [belongingTo_none rfl, bucketsAt_none rfl, List.append_nil, List.nil_append, Places.all,
      Places.all, hstash]
    exact (List.perm_middle).append_right _
  | dequeue _ hstash hqueue =>
    rw [belongingTo_none rfl, bucketsAt_none rfl, List.append_nil, List.nil_append, Places.all,
      Places.all, hqueue]
    exact List.perm_middle
  | call _ | hangUp =>
    rw [belongingTo_none rfl, bucketsAt_none rfl, List.append_nil, List.nil_append, Places.all,
      Places.all]
  | answer _ hqueue =>
    rw [belongingTo_none rfl, bucketsAt_none rfl, List.append_nil, List.nil_append, Places.all,
      Places.all, hqueue]
    exact List.perm_middle
  | acknowledge hv hheld =>
    rw [belongingTo_none rfl, List.append_nil, Event.acknowledged?, Option.toList_some,
      bucketsAt_cons_self hv]
    exact (hheld.append_right _).append_right _
  | handBack hv hheld =>
    rw [belongingTo_none rfl, bucketsAt_none rfl, List.append_nil, List.nil_append, Places.all,
      Places.all]
    exact ((hheld.append_right _).trans List.perm_middle.symm).append_right _
  | still hp ha =>
    rw [belongingTo_elsewhere hp, bucketsAt_elsewhere ha, List.append_nil, List.nil_append]

/-- Whether at most one bucket of a partition is out or handed back, and none while its receiver
waits at the queue. -/
structure Places.IsSingle (P : Places) : Prop where
  atMostOne : (P.held ++ P.stash).length ≤ 1
  waiting : P.calling = true → P.held ++ P.stash = []

/-- If one delivery at a time is held, whichever is given up is the only one. -/
theorem Places.IsSingle.held_of_perm {held : List Bucket} (h : P.IsSingle)
    (hheld : P.held.Perm (b :: held)) : P.held = [b] ∧ held = [] ∧ P.stash = [] := by
  have hatMostOne := h.atMostOne
  have hlength := hheld.length_eq
  rw [List.length_append] at hatMostOne
  rw [List.length_cons] at hlength
  have hnil : held = [] := List.length_eq_zero_iff.1 (by omega)
  rw [hnil] at hheld
  exact ⟨List.perm_singleton.1 hheld, hnil, List.length_eq_zero_iff.1 (by omega)⟩

/-- With one delivery at a time, an event leaves the buckets in the order of publishing. -/
theorem Shift.inOrder (h : Shift home i e P Q) (hsingle : P.IsSingle)
    (hone : e = .receive i ∨ e = .call i → P.held = []) :
    Q.IsSingle ∧ P.all ++ belongingTo home i e.published?.toList =
      bucketsAt i e.acknowledged?.toList ++ Q.all := by
  cases h with
  | publish he ha hb =>
    refine ⟨⟨hsingle.atMostOne, hsingle.waiting⟩, ?_⟩
    rw [belongingTo_self he hb, bucketsAt_none ha, List.nil_append, Places.all, Places.all,
      List.append_assoc]
  | @unstash b rest _ hstash =>
    -- what was handed back is the only bucket before the queue
    have hheld := hone (.inl rfl)
    have hatMostOne := hsingle.atMostOne
    rw [hheld, hstash, List.nil_append, List.length_cons] at hatMostOne
    have hrest : rest = [] := List.length_eq_zero_iff.1 (by omega)
    refine ⟨⟨?_, ?_⟩, ?_⟩
    · simp [hheld, hrest]
    · intro hcalling
      have hnone := hsingle.waiting hcalling
      rw [hstash] at hnone
      exact absurd hnone (by simp)
    · rw [belongingTo_none rfl, bucketsAt_none rfl, Places.all, Places.all, hheld, hstash, hrest]
      simp
  | dequeue hcalling hstash hqueue =>
    have hheld := hone (.inl rfl)
    refine ⟨⟨?_, fun h => absurd (hcalling.symm.trans h) Bool.false_ne_true⟩, ?_⟩
    · simp [hheld, hstash]
    · rw [belongingTo_none rfl, bucketsAt_none rfl, Places.all, Places.all, hheld, hstash, hqueue]
      simp
  | call hstash =>
    have hheld := hone (.inr rfl)
    refine ⟨⟨hsingle.atMostOne, fun _ => ?_⟩, ?_⟩
    · rw [hheld, hstash, List.nil_append]
    · rw [belongingTo_none rfl, bucketsAt_none rfl, List.append_nil, List.nil_append, Places.all,
        Places.all]
  | answer hcalling hqueue =>
    obtain ⟨hheld, hstash⟩ := List.append_eq_nil_iff.1 (hsingle.waiting hcalling)
    refine ⟨⟨?_, fun h => absurd h Bool.false_ne_true⟩, ?_⟩
    · simp [hheld, hstash]
    · rw [belongingTo_none rfl, bucketsAt_none rfl, Places.all, Places.all, hheld, hstash, hqueue]
      simp
  | hangUp =>
    refine ⟨⟨hsingle.atMostOne, fun h => absurd h Bool.false_ne_true⟩, ?_⟩
    rw [belongingTo_none rfl, bucketsAt_none rfl, List.append_nil, List.nil_append, Places.all,
      Places.all]
  | acknowledge hv hperm =>
    obtain ⟨hheld, rfl, hstash⟩ := hsingle.held_of_perm hperm
    refine ⟨⟨?_, fun _ => hstash⟩, ?_⟩
    · simp [hstash]
    · rw [belongingTo_none rfl, Event.acknowledged?, Option.toList_some, bucketsAt_cons_self hv,
        Places.all, Places.all, hheld, hstash]
      simp [bucketsAt]
  | handBack hv hperm =>
    obtain ⟨hheld, rfl, hstash⟩ := hsingle.held_of_perm hperm
    refine ⟨⟨?_, ?_⟩, ?_⟩
    · simp [hstash]
    · intro hcalling
      have hnone := hsingle.waiting hcalling
      rw [hheld] at hnone
      exact absurd hnone (by simp)
    · rw [belongingTo_none rfl, bucketsAt_none rfl, Places.all, Places.all, hheld, hstash]
      simp
  | still hp ha =>
    refine ⟨hsingle, ?_⟩
    rw [belongingTo_elsewhere hp, bucketsAt_elsewhere ha, List.append_nil, List.nil_append]

/-! ## From the start -/

variable {partitions capacity : Nat}

/-- What is true of a channel in use at the end of a run. -/
structure Accounted (c : Channel) (n : Nat) (moves : List (Move Traffic Event)) (t : Traffic) :
    Prop where
  length : t.channel.partitions.length = c.partitions.length
  held : ∀ v ∈ t.held, v.partition < t.channel.partitions.length
  fits : ∀ p ∈ t.channel.partitions, p.Fits n
  stats : t.channel.stats = ⟨(yielded Event.published? moves).length,
    (yielded Event.acknowledged? moves).length, (yielded Event.handedBack? moves).length⟩
  present : t.present + (yielded Event.acknowledged? moves).length =
    (yielded Event.published? moves).length

theorem accounted_new (partitions capacity : Nat) :
    Accounted (.new partitions capacity) (max capacity 1) [] (new partitions capacity) where
  length := rfl
  held v hv := absurd hv List.not_mem_nil
  fits p hp := by
    rw [(List.mem_replicate.1 hp).2]
    exact .empty capacity
  stats := rfl
  present := by
    show 0 + ((List.replicate (max partitions 1) (Partition.empty capacity)).flatMap
      Partition.buckets).length + 0 = 0
    rw [List.flatMap_replicate]
    simp [Partition.buckets, Partition.empty]

theorem Accounted.move {n : Nat} {event : Event} (h : Accounted c n moves t)
    (hnext : next? t event = some u) : Accounted c n (moves ++ [⟨t, event, u⟩]) u := by
  have hpasses := passes_next? h.held hnext
  have hpresent := hpasses.present
  have hbefore := h.present
  refine ⟨hpasses.length.trans h.length, hpasses.held, hpasses.fits n h.fits, ?_, ?_⟩
  · rw [hpasses.stats, h.stats]
    simp only [yielded_concat, List.length_append]
  · simp only [yielded_concat, List.length_append]
    omega

theorem accounted_run (h : Run next? (new partitions capacity) moves t) :
    Accounted (.new partitions capacity) (max capacity 1) moves t := by
  induction h with
  | start => exact accounted_new partitions capacity
  | move event _ hnext ih => exact ih.move hnext

theorem places_new (partitions capacity i : Nat) :
    (new partitions capacity).places i = ⟨[], [], [], false⟩ := by
  have hstash : (Channel.new partitions capacity).stashAt i = [] := by
    unfold Channel.stashAt Channel.new
    rw [List.getElem?_replicate]
    split <;> rfl
  rw [places, new, Channel.queueAt_new, hstash]
  rfl

theorem publishedAt_concat (m : Move Traffic Event) : publishedAt home i (moves ++ [m]) =
    publishedAt home i moves ++ belongingTo home i m.event.published?.toList := by
  rw [publishedAt, yielded_concat, belongingTo_append, publishedAt]

theorem acknowledgedAt_concat (m : Move Traffic Event) : acknowledgedAt i (moves ++ [m]) =
    acknowledgedAt i moves ++ bucketsAt i m.event.acknowledged?.toList := by
  rw [acknowledgedAt, yielded_concat, bucketsAt_append, acknowledgedAt]

/-- Each bucket that was published to a partition is acknowledged or in one of its places. -/
theorem perm_run (h : Run next? (new partitions capacity) moves t) (i : Nat) :
    (publishedAt t.channel.partitionFor i moves).Perm
      (acknowledgedAt i moves ++ (t.places i).all) := by
  induction h with
  | start =>
    rw [places_new]
    exact .refl _
  | @move moves t u event hrun hnext ih =>
    have hpasses := passes_next? (accounted_run hrun).held hnext
    have hhome : u.channel.partitionFor = t.channel.partitionFor :=
      funext (Channel.partitionFor_congr hpasses.length)
    rw [hhome, publishedAt_concat, acknowledgedAt_concat, List.append_assoc]
    refine (ih.append_right _).trans ?_
    rw [List.append_assoc]
    exact (hpasses.shift i).conserves.append_left _

/-- With one delivery at a time, they stand in the order of publishing. -/
theorem eq_run (h : Run next? (new partitions capacity) moves t) (hone : OneAtATime i moves) :
    (t.places i).IsSingle ∧
      publishedAt t.channel.partitionFor i moves = acknowledgedAt i moves ++ (t.places i).all := by
  induction h with
  | start =>
    rw [places_new]
    exact ⟨⟨Nat.zero_le 1, fun h => absurd h Bool.false_ne_true⟩, rfl⟩
  | @move moves t u event hrun hnext ih =>
    obtain ⟨hsingle, heq⟩ := ih fun m hm => hone m (List.mem_append_left _ hm)
    have hpasses := passes_next? (accounted_run hrun).held hnext
    have hhome : u.channel.partitionFor = t.channel.partitionFor :=
      funext (Channel.partitionFor_congr hpasses.length)
    obtain ⟨hafter, horder⟩ := (hpasses.shift i).inOrder hsingle (hone ⟨t, event, u⟩ (by simp))
    refine ⟨hafter, ?_⟩
    rw [hhome, publishedAt_concat, acknowledgedAt_concat, heq, List.append_assoc, horder,
      List.append_assoc]

/-! ## The buckets of one command -/

/-- The buckets of a command that were published, in the order of publishing. -/
def publishedOf (id : CommandId) (moves : List (Move Traffic Event)) : List Bucket :=
  (yielded Event.published? moves).filter (·.commandId == id)

/-- The buckets of a command that were acknowledged, in the order of acknowledging. -/
def acknowledgedOf (id : CommandId) (moves : List (Move Traffic Event)) : List Bucket :=
  ((yielded Event.acknowledged? moves).map (·.bucket)).filter (·.commandId == id)

theorem publishedOf_eq (home : CommandId → Nat) (id : CommandId)
    (moves : List (Move Traffic Event)) :
    publishedOf id moves = (publishedAt home (home id) moves).filter (·.commandId == id) := by
  rw [publishedAt, belongingTo, List.filter_filter, publishedOf]
  apply List.filter_congr
  intro b _
  by_cases hb : b.commandId = id
  · simp [hb]
  · simp [hb]

/-- The buckets of a command are acknowledged where they belong. -/
theorem acknowledgedOf_eq (id : CommandId)
    (hhome : ∀ i, ∀ b ∈ acknowledgedAt i moves, home b.commandId = i) :
    acknowledgedOf id moves = (acknowledgedAt (home id) moves).filter (·.commandId == id) := by
  unfold acknowledgedAt bucketsAt at hhome
  rw [acknowledgedOf, acknowledgedAt, bucketsAt, List.filter_map, List.filter_map,
    List.filter_filter]
  refine congrArg _ (List.filter_congr ?_)
  intro v hv
  have hv' := hhome v.partition v.bucket
    (List.mem_map_of_mem (List.mem_filter.2 ⟨hv, beq_self_eq_true _⟩))
  by_cases hid : v.bucket.commandId = id
  · rw [hid] at hv'
    simp [hid, hv']
  · simp [hid]

/-- Nothing is lost, doubled or mixed up, whatever is published, received, acknowledged and handed
back: each bucket of a partition is acknowledged or in one of its places, the queues keep within
their capacity, and the counters are right.  When each delivery of a partition comes back before
the next is received, its buckets keep the order of publishing. -/
theorem conserved_and_ordered (h : Run next? (new partitions capacity) moves t) :
    (∀ i, (publishedAt t.channel.partitionFor i moves).Perm
      (acknowledgedAt i moves ++ (t.places i).all)) ∧
    (∀ id, t.channel.partitionFor id = (Channel.new partitions capacity).partitionFor id) ∧
    (∀ i, ∀ b ∈ acknowledgedAt i moves ++ (t.places i).all,
      t.channel.partitionFor b.commandId = i) ∧
    (∀ i, (t.places i).queue.length ≤ max capacity 1) ∧
    t.channel.stats.published = (yielded Event.published? moves).length ∧
    t.channel.stats.published = t.channel.stats.acknowledged + t.present ∧
    t.channel.stats.redelivered = (yielded Event.handedBack? moves).length ∧
    (∀ i, OneAtATime i moves → publishedAt t.channel.partitionFor i moves =
      acknowledgedAt i moves ++ (t.places i).all) ∧
    ∀ id, OneAtATime (t.channel.partitionFor id) moves →
      acknowledgedOf id moves <+: publishedOf id moves := by
  have haccounted := accounted_run h
  have hpresent := haccounted.present
  have hstats := haccounted.stats
  have hhome : ∀ i, ∀ b ∈ acknowledgedAt i moves ++ (t.places i).all,
      t.channel.partitionFor b.commandId = i := by
    intro i b hb
    have hpublished := ((perm_run h i).mem_iff).2 hb
    exact eq_of_beq (List.mem_filter.1 hpublished).2
  refine ⟨perm_run h, Channel.partitionFor_congr haccounted.length, hhome, ?_, ?_, ?_, ?_,
    fun i hone => (eq_run h hone).2, ?_⟩
  · intro i
    show (t.channel.queueAt i).length ≤ max capacity 1
    cases hp : t.channel.partitions[i]? with
    | none =>
      rw [Channel.queueAt, hp]
      exact Nat.zero_le _
    | some p =>
      have htaken := (haccounted.fits p (List.mem_of_getElem? hp)).taken
      rw [Channel.queueAt_of_getElem? hp]
      omega
  · rw [hstats]
  · rw [hstats]
    show (yielded Event.published? moves).length =
      (yielded Event.acknowledged? moves).length + t.present
    omega
  · rw [hstats]
  · intro id hone
    have hacknowledged := acknowledgedOf_eq id fun i b hb =>
      hhome i b (List.mem_append_left _ hb)
    rw [publishedOf_eq t.channel.partitionFor, (eq_run h hone).2, hacknowledged,
      List.filter_append]
    exact List.prefix_append _ _

/-- Two commands in two partitions with room for one bucket.  A bucket of the first is handed back
and overtakes nothing; the other command lets its deliveries overlap. -/
def busyTraffic : List Event :=
  let first (n : Nat) : Bucket := ⟨.ofNat 2, n, []⟩
  let second (n : Nat) : Bucket := ⟨.ofNat 3, n, []⟩
  [.publish (first 0), .publish (second 0), .enlist 7 (first 1), .receive 0, .claim 7 (first 1),
    .handBack ⟨first 0, 0⟩, .receive 0, .acknowledge ⟨first 0, 0⟩, .call 0, .answer 0,
    .acknowledge ⟨first 1, 0⟩, .call 0, .publish (first 2), .receive 1, .publish (second 1),
    .receive 1, .handBack ⟨second 0, 1⟩, .acknowledge ⟨second 1, 1⟩]

theorem conserved_and_ordered_busy :
    ∃ moves t, Run next? (new 2 1) moves t ∧ OneAtATime 0 moves ∧
      t.channel.stats = ⟨5, 3, 2⟩ ∧ t.present = 2 ∧
      publishedAt t.channel.partitionFor 0 moves = acknowledgedAt 0 moves ++ (t.places 0).all := by
  have hcheck : (movesOf? next? (new 2 1) busyTraffic).any (fun r =>
      (r.1.all fun m => match m.event with
        | .receive 0 => (m.before.places 0).held.isEmpty
        | .call 0 => (m.before.places 0).held.isEmpty
        | _ => true) &&
      decide (r.2.channel.stats = ⟨5, 3, 2⟩) && decide (r.2.present = 2)) = true := by
    decide +kernel
  obtain ⟨⟨moves, t⟩, hmoves, ht⟩ := (Option.any_eq_true _ _).1 hcheck
  simp only [Bool.and_eq_true, decide_eq_true_eq, List.all_eq_true] at ht
  obtain ⟨⟨hall, hstats⟩, hpresent⟩ := ht
  have hrun : Run next? (new 2 1) moves t := .of_movesOf? hmoves
  have hone : OneAtATime 0 moves := by
    rintro m hm hevent
    have hempty := hall m hm
    obtain hevent | hevent := hevent
    all_goals
      rw [hevent] at hempty
      exact List.isEmpty_iff.1 hempty
  obtain ⟨-, -, -, -, -, -, -, hordered, -⟩ := conserved_and_ordered hrun
  exact ⟨moves, t, hrun, hone, hstats, hpresent, hordered 0 hone⟩

end BulkRun.Traffic
