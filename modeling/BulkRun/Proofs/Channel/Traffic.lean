import BulkRun.Proofs.Run
import BulkRun.Proofs.Channel.Buckets
import BulkRun.Proofs.Channel.Line
/-!
# Traffic through a channel

A channel in use: buckets are published, at once or by publishers who waited for a place, receivers
take them, and every delivery is acknowledged or handed back in the end.  Any number of deliveries
of a partition may be out at the same time, and they may come back in any order.

What happens in one partition is read off its `Places`: the deliveries that are out, the stash and
the queue.  An event moves at most one bucket from one place to another (`Shift`) and counts it;
that is said once for every event (`passes_next?`).
-/

namespace BulkRun

/-! ## The operations of a channel -/

namespace Channel

variable {c d : Channel} {b : Bucket} {i : Nat} {who : PublisherKey} {v : Delivery}

/-- The buckets that were handed back to a partition. -/
def stashAt (c : Channel) (i : Nat) : List Bucket := ((c.partitions[i]?).map (·.stash)).getD []

theorem stashAt_of_getElem? {p : Partition} (h : c.partitions[i]? = some p) :
    c.stashAt i = p.stash := by
  rw [stashAt, h]
  rfl

theorem Alters.stashAt_self {p q : Partition} (h : Alters c d i p q) : d.stashAt i = q.stash :=
  stashAt_of_getElem? h.self

theorem Alters.stashAt_other {p q : Partition} {j : Nat} (h : Alters c d i p q) (hne : j ≠ i) :
    d.stashAt j = c.stashAt j := by
  rw [stashAt, h.other hne, stashAt]

theorem alters_handBack {p : Partition} (h : c.partitions[v.partition]? = some p) :
    Alters c (c.handBack v) v.partition p (p.restore v.bucket) := by
  unfold handBack
  simp only [h]
  exact ⟨h, rfl, rfl⟩

/-- A partition that changes brings its buckets and takes away those it had before. -/
theorem Alters.length_buckets {p q : Partition} (h : Alters c d i p q) :
    p.buckets.length + d.buckets.length = q.buckets.length + c.buckets.length := by
  have hperm := (buckets_setPartition (q := q) h.before).length_eq
  have heq : d.buckets = (c.setPartition i q).buckets := by
    rw [buckets, h.after, buckets, setPartition]
  rw [heq, ← List.length_append, hperm, List.length_append]

end Channel

/-- A partition of so many places, of which not more are taken. -/
structure Partition.Fits (p : Partition) (n : Nat) : Prop where
  capacity : p.capacity = n
  taken : p.queue.length + p.granted.length ≤ n

namespace Partition.Fits

variable {p q : Partition} {n : Nat} {b : Bucket} {who : PublisherKey}

theorem empty (capacity : Nat) : (Partition.empty capacity).Fits (max capacity 1) :=
  ⟨rfl, Nat.zero_le _⟩

theorem enqueue (h : p.Fits n) (hroom : p.hasRoom = true) : (p.enqueue b).Fits n := by
  rw [hasRoom_iff, h.capacity] at hroom
  refine ⟨h.capacity, ?_⟩
  show (p.queue ++ [b]).length + p.granted.length ≤ n
  rw [List.length_append, List.length_singleton]
  omega

theorem reserve? (h : p.Fits n) (hq : p.reserve? who = some q) : q.Fits n := by
  obtain ⟨hroom, rfl⟩ := reserve?_eq_some hq
  rw [hasRoom_iff, h.capacity] at hroom
  refine ⟨h.capacity, ?_⟩
  show p.queue.length + (p.granted ++ [who]).length ≤ n
  rw [List.length_append, List.length_singleton]
  omega

/-- The place of a publisher becomes the place of its bucket. -/
theorem fillGranted? (h : p.Fits n) (hq : p.fillGranted? who b = some q) : q.Fits n := by
  obtain ⟨hmem, rfl⟩ := fillGranted?_eq_some hq
  have htaken := h.taken
  have hpos := List.length_pos_of_mem hmem
  refine ⟨h.capacity, ?_⟩
  show (p.queue ++ [b]).length + (p.granted.erase who).length ≤ n
  rw [List.length_append, List.length_singleton, List.length_erase_of_mem hmem]
  omega

/-- A place that is freed is given away at most once. -/
theorem dequeue? (h : p.Fits n) (hq : p.dequeue? = some (b, q)) : q.Fits n := by
  obtain ⟨rest, hqueue, rfl⟩ := dequeue?_eq_some hq
  have htaken := h.taken
  rw [hqueue, List.length_cons] at htaken
  unfold grant
  split
  · refine ⟨h.capacity, ?_⟩
    show rest.length + p.granted.length ≤ n
    omega
  · rename_i who others _
    refine ⟨h.capacity, ?_⟩
    show rest.length + (p.granted ++ [who]).length ≤ n
    rw [List.length_append, List.length_singleton]
    omega

end Partition.Fits

/-! ## A channel in use -/

/-- A channel, the deliveries that are out, and the partitions whose receiver found the stash empty
and waits at the queue. -/
structure Traffic where
  channel : Channel
  held : List Delivery
  calling : List Nat
deriving DecidableEq, Repr

namespace Traffic

/-- A channel that nobody has used yet. -/
def new (partitions capacity : Nat) : Traffic := ⟨.new partitions capacity, [], []⟩

/-- What can happen to a channel in use. -/
inductive Event where
  /-- A bucket is published at once. -/
  | publish (b : Bucket)
  /-- A publisher gets in line for a place. -/
  | enlist (who : PublisherKey) (b : Bucket)
  /-- A publisher is given a free place. -/
  | reserve (who : PublisherKey) (b : Bucket)
  /-- A publisher publishes in the place given to it. -/
  | claim (who : PublisherKey) (b : Bucket)
  /-- A receiver takes what is next without waiting. -/
  | receive (i : Nat)
  /-- A receiver finds its stash empty and begins to wait at the queue. -/
  | call (i : Nat)
  /-- A receiver that waits at the queue gets its first bucket. -/
  | answer (i : Nat)
  /-- A receiver gives up waiting. -/
  | hangUp (i : Nat)
  | acknowledge (v : Delivery)
  | handBack (v : Delivery)

/-- A bucket is published, unless its publisher has to wait or nobody is there to receive it. -/
def accept? (t : Traffic) : Except Error (Option Channel) → Option Traffic
  | .ok (some c) => some { t with channel := c }
  | _ => none

/-- A delivery goes out. -/
def send (t : Traffic) (r : Delivery × Channel) : Traffic :=
  { t with channel := r.2, held := r.1 :: t.held }

/-- A receiver waits no longer. -/
def hangUp (t : Traffic) (i : Nat) : Traffic := { t with calling := t.calling.filter (· != i) }

/-- A channel in use after an event; `none` when the event cannot happen.  A receiver that waits
does nothing else. -/
def next? (t : Traffic) : Event → Option Traffic
  | .publish b => t.accept? (t.channel.offer b)
  | .enlist who b => some { t with channel := t.channel.enlist who b }
  | .reserve who b => (t.channel.reserve? who b).map fun c => { t with channel := c }
  | .claim who b => t.accept? (t.channel.claim who b)
  | .receive i => if i ∈ t.calling then none else (t.channel.take? i).map t.send
  | .call i =>
    if i ∈ t.calling ∨ t.channel.stashAt i ≠ [] then none
    else some { t with calling := i :: t.calling }
  | .answer i => if i ∈ t.calling then (t.channel.dequeue? i).map (t.hangUp i).send else none
  | .hangUp i => some (t.hangUp i)
  | .acknowledge v =>
    if v ∈ t.held then some { t with channel := t.channel.acknowledge, held := t.held.erase v }
    else none
  | .handBack v =>
    if v ∈ t.held then some { t with channel := t.channel.handBack v, held := t.held.erase v }
    else none

/-! ## What was done -/

/-- The bucket that an event publishes. -/
def Event.published? : Event → Option Bucket
  | .publish b => some b
  | .claim _ b => some b
  | _ => none

/-- The delivery that an event acknowledges. -/
def Event.acknowledged? : Event → Option Delivery
  | .acknowledge v => some v
  | _ => none

/-- The delivery that an event hands back. -/
def Event.handedBack? : Event → Option Delivery
  | .handBack v => some v
  | _ => none

/-- The buckets of the deliveries of one partition. -/
def bucketsAt (i : Nat) (vs : List Delivery) : List Bucket :=
  (vs.filter (·.partition == i)).map (·.bucket)

/-- The buckets that belong to one partition. -/
def belongingTo (home : CommandId → Nat) (i : Nat) (bs : List Bucket) : List Bucket :=
  bs.filter fun b => home b.commandId == i

theorem belongingTo_append (home : CommandId → Nat) (i : Nat) (front rear : List Bucket) :
    belongingTo home i (front ++ rear) = belongingTo home i front ++ belongingTo home i rear :=
  List.filter_append ..

section Histories

variable {i : Nat} {v : Delivery} {vs : List Delivery}

theorem bucketsAt_append (vs ws : List Delivery) :
    bucketsAt i (vs ++ ws) = bucketsAt i vs ++ bucketsAt i ws := by
  rw [bucketsAt, List.filter_append, List.map_append, bucketsAt, bucketsAt]

theorem bucketsAt_cons_self (h : v.partition = i) :
    bucketsAt i (v :: vs) = v.bucket :: bucketsAt i vs := by
  rw [bucketsAt, List.filter_cons_of_pos (by simpa using h), List.map_cons, bucketsAt]

theorem bucketsAt_cons_other (h : v.partition ≠ i) : bucketsAt i (v :: vs) = bucketsAt i vs := by
  rw [bucketsAt, List.filter_cons_of_neg (by simpa using h), bucketsAt]

/-- A delivery that leaves is one of its partition, wherever it stands. -/
theorem bucketsAt_erase_self (hv : v ∈ vs) :
    (bucketsAt v.partition vs).Perm (v.bucket :: bucketsAt v.partition (vs.erase v)) := by
  have hperm := (List.perm_cons_erase hv).filter (·.partition == v.partition)
  have hmap := hperm.map (·.bucket)
  rwa [List.filter_cons_of_pos (by simp), List.map_cons] at hmap

theorem bucketsAt_erase_other (h : v.partition ≠ i) :
    bucketsAt i (vs.erase v) = bucketsAt i vs := by
  induction vs with
  | nil => rfl
  | cons w ws ih =>
    by_cases hw : w = v
    · rw [hw, List.erase_cons_head, bucketsAt_cons_other h]
    · rw [List.erase_cons_tail (by simpa using hw)]
      by_cases hi : w.partition = i
      · rw [bucketsAt_cons_self hi, bucketsAt_cons_self hi, ih]
      · rw [bucketsAt_cons_other hi, bucketsAt_cons_other hi, ih]

end Histories

/-! ## The places of a partition -/

/-- The buckets of a partition by the place where they are, and whether its receiver waits at the
queue. -/
structure Places where
  held : List Bucket
  stash : List Bucket
  queue : List Bucket
  calling : Bool

/-- The places of a partition. -/
def places (t : Traffic) (i : Nat) : Places where
  held := bucketsAt i t.held
  stash := t.channel.stashAt i
  queue := t.channel.queueAt i
  calling := t.calling.contains i

/-- What an event makes of the places of a partition. -/
inductive Shift (home : CommandId → Nat) (i : Nat) : Event → Places → Places → Prop
  | publish {e : Event} {b : Bucket} {P : Places} (he : e.published? = some b)
      (ha : e.acknowledged? = none) (hb : home b.commandId = i) :
      Shift home i e P { P with queue := P.queue ++ [b] }
  | unstash {b : Bucket} {rest : List Bucket} {P : Places} (hstash : P.stash = b :: rest) :
      Shift home i (.receive i) P { P with held := b :: P.held, stash := rest }
  | dequeue {b : Bucket} {rest : List Bucket} {P : Places} (hcalling : P.calling = false)
      (hstash : P.stash = []) (hqueue : P.queue = b :: rest) :
      Shift home i (.receive i) P { P with held := b :: P.held, queue := rest }
  | call {P : Places} (hstash : P.stash = []) : Shift home i (.call i) P { P with calling := true }
  | answer {b : Bucket} {rest : List Bucket} {P : Places} (hcalling : P.calling = true)
      (hqueue : P.queue = b :: rest) :
      Shift home i (.answer i) P { P with held := b :: P.held, queue := rest, calling := false }
  | hangUp {P : Places} : Shift home i (.hangUp i) P { P with calling := false }
  | acknowledge {v : Delivery} {held : List Bucket} {P : Places} (hv : v.partition = i)
      (hheld : P.held.Perm (v.bucket :: held)) :
      Shift home i (.acknowledge v) P { P with held := held }
  | handBack {v : Delivery} {held : List Bucket} {P : Places} (hv : v.partition = i)
      (hheld : P.held.Perm (v.bucket :: held)) :
      Shift home i (.handBack v) P { P with held := held, stash := v.bucket :: P.stash }
  | still {e : Event} {P : Places} (hp : ∀ b, e.published? = some b → home b.commandId ≠ i)
      (ha : ∀ v, e.acknowledged? = some v → v.partition ≠ i) : Shift home i e P P

/-! ## What one event does -/

/-- How many buckets there are, out or in the channel. -/
def present (t : Traffic) : Nat := t.held.length + t.channel.buckets.length

/-- What one event does to a channel in use. -/
structure Passes (t u : Traffic) (e : Event) : Prop where
  length : u.channel.partitions.length = t.channel.partitions.length
  held : ∀ v ∈ u.held, v.partition < u.channel.partitions.length
  shift : ∀ i, Shift t.channel.partitionFor i e (t.places i) (u.places i)
  fits : ∀ n, (∀ p ∈ t.channel.partitions, p.Fits n) → ∀ p ∈ u.channel.partitions, p.Fits n
  stats : u.channel.stats = ⟨t.channel.stats.published + e.published?.toList.length,
    t.channel.stats.acknowledged + e.acknowledged?.toList.length,
    t.channel.stats.redelivered + e.handedBack?.toList.length⟩
  present : u.present + e.acknowledged?.toList.length = t.present + e.published?.toList.length

variable {t u : Traffic} {e : Event} {i j : Nat} {p q : Partition} {c : Channel} {b : Bucket}
  {v : Delivery}

theorem accept?_eq_some {r : Except Error (Option Channel)} (h : t.accept? r = some u) :
    ∃ c, r = .ok (some c) ∧ u = { t with channel := c } := by
  unfold accept? at h
  split at h
  · rename_i c
    exact ⟨c, rfl, (Option.some.inj h).symm⟩
  · exact absurd h (by simp)

theorem contains_hangUp_self : (t.hangUp i).calling.contains i = false := by
  simp [hangUp]

theorem contains_hangUp_other (h : i ≠ j) :
    (t.hangUp j).calling.contains i = t.calling.contains i := by
  simp [hangUp, h]

theorem places_other (h : Channel.Alters t.channel u.channel j p q) (hi : i ≠ j)
    (hheld : bucketsAt i u.held = bucketsAt i t.held)
    (hcalling : u.calling.contains i = t.calling.contains i) : u.places i = t.places i := by
  rw [places, places, hheld, hcalling, h.stashAt_other hi, h.queueAt_other hi]

theorem fits_of_alters (h : Channel.Alters t.channel u.channel j p q)
    (hfits : ∀ n, p.Fits n → q.Fits n) (n : Nat) (hall : ∀ p ∈ t.channel.partitions, p.Fits n) :
    ∀ p ∈ u.channel.partitions, p.Fits n := by
  intro r hr
  rw [h.after] at hr
  obtain hr | rfl := List.mem_or_eq_of_mem_set hr
  · exact hall r hr
  · exact hfits n (hall p (List.mem_of_getElem? h.before))

/-- A bucket is published, at once or in a place that was kept for it. -/
theorem passes_publishing (hheld : ∀ v ∈ t.held, v.partition < t.channel.partitions.length)
    (he : e.published? = some b) (ha : e.acknowledged? = none) (hr : e.handedBack? = none)
    (hp : t.channel.partitions[t.channel.partitionFor b.commandId]? = some p)
    (hqueue : q.queue = p.queue ++ [b]) (hstash : q.stash = p.stash)
    (hfits : ∀ n, p.Fits n → q.Fits n) :
    Passes t { t with channel := t.channel.accept (t.channel.partitionFor b.commandId) q } e := by
  have halters := Channel.alters_accept hp q
  have hlength := halters.length_buckets
  refine ⟨halters.length, ?_, ?_, fits_of_alters halters hfits, ?_, ?_⟩
  · rwa [halters.length]
  · intro i
    by_cases hi : i = t.channel.partitionFor b.commandId
    · subst hi
      have hplaces : places
            { t with channel := t.channel.accept (t.channel.partitionFor b.commandId) q }
            (t.channel.partitionFor b.commandId) =
          { t.places (t.channel.partitionFor b.commandId) with
            queue := (t.places (t.channel.partitionFor b.commandId)).queue ++ [b] } := by
        simp only [places, halters.stashAt_self, halters.queueAt_self, hqueue, hstash,
          Channel.stashAt_of_getElem? hp, Channel.queueAt_of_getElem? hp]
      rw [hplaces]
      exact .publish he ha rfl
    · have hplaces : places
          { t with channel := t.channel.accept (t.channel.partitionFor b.commandId) q } i =
            t.places i := places_other halters hi rfl rfl
      rw [hplaces]
      refine .still ?_ ?_
      · intro b' hb'
        rw [he] at hb'
        rw [← Option.some.inj hb']
        exact Ne.symm hi
      · intro v hv
        rw [ha] at hv
        exact absurd hv (by simp)
  · rw [he, ha, hr]
    rfl
  · rw [he, ha]
    rw [Partition.buckets, Partition.buckets, hqueue, hstash] at hlength
    simp only [List.length_append, List.length_singleton] at hlength
    show t.held.length + (t.channel.accept _ q).buckets.length + 0 =
      t.held.length + t.channel.buckets.length + 1
    omega

/-- The lines in front of a partition change, and nothing else. -/
theorem passes_lining (hheld : ∀ v ∈ t.held, v.partition < t.channel.partitions.length)
    (he : e.published? = none) (ha : e.acknowledged? = none) (hr : e.handedBack? = none)
    (hp : t.channel.partitions[j]? = some p) (hqueue : q.queue = p.queue)
    (hstash : q.stash = p.stash) (hfits : ∀ n, p.Fits n → q.Fits n) :
    Passes t { t with channel := t.channel.setPartition j q } e := by
  have halters := Channel.alters_setPartition hp q
  have hlength := halters.length_buckets
  refine ⟨halters.length, ?_, ?_, fits_of_alters halters hfits, ?_, ?_⟩
  · rwa [halters.length]
  · intro i
    have hplaces : places { t with channel := t.channel.setPartition j q } i = t.places i := by
      by_cases hi : i = j
      · subst hi
        simp only [places, halters.stashAt_self, halters.queueAt_self, hqueue, hstash,
          Channel.stashAt_of_getElem? hp, Channel.queueAt_of_getElem? hp]
      · exact places_other halters hi rfl rfl
    rw [hplaces]
    exact .still (by simp [he]) (by simp [ha])
  · rw [he, ha, hr]
    rfl
  · rw [he, ha]
    rw [Partition.buckets, Partition.buckets, hqueue, hstash] at hlength
    show t.held.length + (t.channel.setPartition j q).buckets.length + 0 =
      t.held.length + t.channel.buckets.length + 0
    omega

/-- A delivery goes out, from the stash or from the queue. -/
theorem passes_sending (hheld : ∀ v ∈ t.held, v.partition < t.channel.partitions.length)
    (he : e.published? = none) (ha : e.acknowledged? = none) (hr : e.handedBack? = none)
    (hp : t.channel.partitions[v.partition]? = some p)
    (hbuckets : p.buckets.Perm (v.bucket :: q.buckets)) (hfits : ∀ n, p.Fits n → q.Fits n)
    (calling : List Nat)
    (hcalling : ∀ i, i ≠ v.partition → calling.contains i = t.calling.contains i)
    (hshift : ∀ P, P = t.places v.partition → P.stash = p.stash → P.queue = p.queue →
      Shift t.channel.partitionFor v.partition e P
        ⟨v.bucket :: P.held, q.stash, q.queue, calling.contains v.partition⟩) :
    Passes t ⟨t.channel.setPartition v.partition q, v :: t.held, calling⟩ e := by
  have halters := Channel.alters_setPartition hp q
  have hlength := halters.length_buckets
  refine ⟨halters.length, ?_, ?_, fits_of_alters halters hfits, ?_, ?_⟩
  · rw [halters.length]
    intro w hw
    obtain rfl | hw := List.mem_cons.1 hw
    · exact (List.getElem?_eq_some_iff.1 hp).1
    · exact hheld w hw
  · intro i
    by_cases hi : i = v.partition
    · subst hi
      have hplaces : places ⟨t.channel.setPartition v.partition q, v :: t.held, calling⟩
          v.partition = ⟨v.bucket :: (t.places v.partition).held, q.stash, q.queue,
            calling.contains v.partition⟩ := by
        simp only [places, halters.stashAt_self, halters.queueAt_self, bucketsAt_cons_self]
      rw [hplaces]
      exact hshift _ rfl (Channel.stashAt_of_getElem? hp) (Channel.queueAt_of_getElem? hp)
    · have hplaces : places ⟨t.channel.setPartition v.partition q, v :: t.held, calling⟩ i =
          t.places i :=
        places_other halters hi (bucketsAt_cons_other (Ne.symm hi)) (hcalling i hi)
      rw [hplaces]
      exact .still (by simp [he]) (by simp [ha])
  · rw [he, ha, hr]
    rfl
  · rw [he, ha]
    have hsent := hbuckets.length_eq
    rw [List.length_cons] at hsent
    show (v :: t.held).length + (t.channel.setPartition v.partition q).buckets.length + 0 =
      t.held.length + t.channel.buckets.length + 0
    rw [List.length_cons]
    omega

theorem passes_receive (hheld : ∀ v ∈ t.held, v.partition < t.channel.partitions.length)
    (h : next? t (.receive i) = some u) : Passes t u (.receive i) := by
  rw [next?] at h
  split at h
  · exact absurd h (by simp)
  rename_i hcalling
  obtain ⟨⟨v, c⟩, hc, rfl⟩ := Option.map_eq_some_iff.1 h
  obtain ⟨p, q, hp, hq, rfl, rfl⟩ := Channel.takeWith_eq_some hc
  obtain ⟨rest, hstash, rfl⟩ | ⟨hstash, hq⟩ := Partition.take?_eq_some hq
  · -- from the stash
    have hbuckets : p.buckets = v.bucket :: Partition.buckets { p with stash := rest } := by
      rw [Partition.buckets, Partition.buckets, hstash, List.cons_append]
    apply passes_sending (e := .receive v.partition) hheld rfl rfl rfl hp (.of_eq hbuckets)
      (fun n hn => ⟨hn.capacity, hn.taken⟩) _ (fun _ _ => rfl)
    rintro P rfl hs hqueue
    show Shift _ _ _ _ ⟨_, rest, p.queue, _⟩
    rw [← hqueue]
    exact .unstash (hs.trans hstash)
  · -- from the queue
    apply passes_sending (e := .receive v.partition) hheld rfl rfl rfl hp
      (Partition.buckets_dequeue? hq) (fun n hn => hn.dequeue? hq) _ (fun _ _ => rfl)
    rintro P rfl hs hqueue
    obtain ⟨rest, hpqueue, rfl⟩ := Partition.dequeue?_eq_some hq
    rw [Partition.queue_grant, Partition.stash_grant, ← hs]
    refine .dequeue ?_ (hs.trans hstash) (hqueue.trans hpqueue)
    simpa [places] using hcalling

theorem passes_answer (hheld : ∀ v ∈ t.held, v.partition < t.channel.partitions.length)
    (h : next? t (.answer i) = some u) : Passes t u (.answer i) := by
  rw [next?] at h
  split at h
  · rename_i hcalling
    obtain ⟨⟨v, c⟩, hc, rfl⟩ := Option.map_eq_some_iff.1 h
    obtain ⟨p, q, hp, hq, rfl, rfl⟩ := Channel.takeWith_eq_some hc
    apply passes_sending (e := .answer v.partition) hheld rfl rfl rfl hp
      (Partition.buckets_dequeue? hq) (fun n hn => hn.dequeue? hq) _
      (fun i hi => contains_hangUp_other hi)
    rintro P rfl hs hqueue
    obtain ⟨rest, hpqueue, rfl⟩ := Partition.dequeue?_eq_some hq
    rw [Partition.queue_grant, Partition.stash_grant, ← hs, contains_hangUp_self]
    exact .answer (List.contains_iff_mem.2 hcalling) (hqueue.trans hpqueue)
  · exact absurd h (by simp)

/-- A receiver begins to wait, or waits no longer. -/
theorem passes_waiting (hheld : ∀ v ∈ t.held, v.partition < t.channel.partitions.length)
    (he : e.published? = none) (ha : e.acknowledged? = none) (hr : e.handedBack? = none)
    (calling : List Nat) (hcalling : ∀ i, i ≠ j → calling.contains i = t.calling.contains i)
    (hshift : Shift t.channel.partitionFor j e (t.places j)
      { t.places j with calling := calling.contains j }) :
    Passes t { t with calling := calling } e := by
  refine ⟨rfl, hheld, ?_, fun n hn => hn, ?_, ?_⟩
  · intro i
    by_cases hi : i = j
    · rwa [hi]
    · have hplaces : places { t with calling := calling } i = t.places i := by
        simp only [places, hcalling i hi]
      rw [hplaces]
      exact .still (by simp [he]) (by simp [ha])
  · rw [he, ha, hr]
    rfl
  · rw [he, ha]
    rfl

theorem passes_call (hheld : ∀ v ∈ t.held, v.partition < t.channel.partitions.length)
    (h : next? t (.call i) = some u) : Passes t u (.call i) := by
  rw [next?] at h
  split at h
  · exact absurd h (by simp)
  · rename_i hnot
    obtain rfl := Option.some.inj h
    have hstash : t.channel.stashAt i = [] := Decidable.not_not.1 fun hne => hnot (.inr hne)
    apply passes_waiting (j := i) hheld rfl rfl rfl
    · intro k hk
      simp [hk]
    · have hcalling : (i :: t.calling).contains i = true := by simp
      rw [hcalling]
      exact .call hstash

theorem passes_hangUp (hheld : ∀ v ∈ t.held, v.partition < t.channel.partitions.length) (i : Nat) :
    Passes t (t.hangUp i) (.hangUp i) := by
  apply passes_waiting (j := i) hheld rfl rfl rfl
  · exact fun k hk => contains_hangUp_other hk
  · have hcalling := contains_hangUp_self (t := t) (i := i)
    rw [hangUp] at hcalling
    rw [hcalling]
    exact .hangUp

theorem passes_acknowledge (hheld : ∀ v ∈ t.held, v.partition < t.channel.partitions.length)
    (h : next? t (.acknowledge v) = some u) : Passes t u (.acknowledge v) := by
  rw [next?] at h
  split at h
  · rename_i hv
    obtain rfl := Option.some.inj h
    refine ⟨rfl, fun w hw => hheld w (List.mem_of_mem_erase hw), ?_, fun n hn => hn, rfl, ?_⟩
    · intro i
      by_cases hi : v.partition = i
      · subst hi
        exact .acknowledge rfl (bucketsAt_erase_self hv)
      · have hplaces : places ⟨t.channel.acknowledge, t.held.erase v, t.calling⟩ i =
            t.places i := by
          rw [places, bucketsAt_erase_other hi]
          rfl
        rw [hplaces]
        refine .still (by simp [Event.published?]) ?_
        intro w hw
        rwa [← Option.some.inj hw]
    · have hlength := List.length_erase_of_mem hv
      have hpos := List.length_pos_of_mem hv
      show (t.held.erase v).length + t.channel.buckets.length + 1 =
        t.held.length + t.channel.buckets.length + 0
      omega
  · exact absurd h (by simp)

theorem passes_handBack (hheld : ∀ v ∈ t.held, v.partition < t.channel.partitions.length)
    (h : next? t (.handBack v) = some u) : Passes t u (.handBack v) := by
  rw [next?] at h
  split at h
  · rename_i hv
    obtain rfl := Option.some.inj h
    have hp := List.getElem?_eq_getElem (hheld v hv)
    have halters := Channel.alters_handBack hp
    refine ⟨halters.length, ?_, ?_, ?_, ?_, ?_⟩
    · rw [halters.length]
      exact fun w hw => hheld w (List.mem_of_mem_erase hw)
    · intro i
      by_cases hi : i = v.partition
      · subst hi
        have hplaces : places ⟨t.channel.handBack v, t.held.erase v, t.calling⟩ v.partition =
            { t.places v.partition with
              held := bucketsAt v.partition (t.held.erase v)
              stash := v.bucket :: (t.places v.partition).stash } := by
          simp only [places, halters.stashAt_self, halters.queueAt_self, Partition.restore,
            Channel.stashAt_of_getElem? hp, Channel.queueAt_of_getElem? hp]
        rw [hplaces]
        exact .handBack rfl (bucketsAt_erase_self hv)
      · have hplaces : places ⟨t.channel.handBack v, t.held.erase v, t.calling⟩ i = t.places i :=
          places_other halters hi (bucketsAt_erase_other (Ne.symm hi)) rfl
        rw [hplaces]
        exact .still (by simp [Event.published?]) (by simp [Event.acknowledged?])
    · exact fits_of_alters halters fun n hn => ⟨hn.capacity, hn.taken⟩
    · show (t.channel.handBack v).stats = _
      unfold Channel.handBack
      simp only [hp]
      rfl
    · have hlength := halters.length_buckets
      have herase := List.length_erase_of_mem hv
      have hpos := List.length_pos_of_mem hv
      simp only [Partition.buckets, Partition.restore, List.length_append, List.length_cons]
        at hlength
      show (t.held.erase v).length + (t.channel.handBack v).buckets.length + 0 =
        t.held.length + t.channel.buckets.length + 0
      omega
  · exact absurd h (by simp)

/-- Every event moves at most one bucket, and counts it. -/
theorem passes_next? (hheld : ∀ v ∈ t.held, v.partition < t.channel.partitions.length)
    (h : next? t e = some u) : Passes t u e := by
  cases e with
  | publish b =>
    obtain ⟨c, hc, rfl⟩ := accept?_eq_some h
    obtain ⟨p, hp, hroom, rfl⟩ := Channel.offer_eq_some hc
    exact passes_publishing hheld rfl rfl rfl hp rfl rfl fun n hn => hn.enqueue hroom
  | enlist who b =>
    obtain rfl := Option.some.inj h
    obtain heq | ⟨p, hp, heq⟩ := Channel.enlist_cases t.channel who b
    · rw [heq]
      exact passes_waiting (j := 0) hheld rfl rfl rfl _ (fun _ _ => rfl)
        (.still (by simp [Event.published?]) (by simp [Event.acknowledged?]))
    · rw [heq]
      exact passes_lining hheld rfl rfl rfl hp rfl rfl fun n hn => ⟨hn.capacity, hn.taken⟩
  | reserve who b =>
    obtain ⟨c, hc, rfl⟩ := Option.map_eq_some_iff.1 h
    obtain ⟨p, q, hp, hq, rfl⟩ := Channel.reserve?_eq_some hc
    apply passes_lining hheld rfl rfl rfl hp _ _ fun n hn => hn.reserve? hq
    all_goals
      obtain ⟨-, rfl⟩ := Partition.reserve?_eq_some hq
      rfl
  | claim who b =>
    obtain ⟨c, hc, rfl⟩ := accept?_eq_some h
    obtain ⟨p, q, hp, hq, rfl⟩ := Channel.claim_eq_some hc
    apply passes_publishing hheld rfl rfl rfl hp _ _ fun n hn => hn.fillGranted? hq
    all_goals
      obtain ⟨-, rfl⟩ := Partition.fillGranted?_eq_some hq
      rfl
  | receive i => exact passes_receive hheld h
  | call i => exact passes_call hheld h
  | answer i => exact passes_answer hheld h
  | hangUp i =>
    obtain rfl := Option.some.inj h
    exact passes_hangUp hheld i
  | acknowledge v => exact passes_acknowledge hheld h
  | handBack v => exact passes_handBack hheld h

end Traffic

end BulkRun
