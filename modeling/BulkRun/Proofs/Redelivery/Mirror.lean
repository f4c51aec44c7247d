import BulkRun.Proofs.Redelivery.Shelf
import BulkRun.Proofs.Redelivery.Spent
/-!
# Redelivery changes nothing

A desk at which buckets are handed back and published over and over is followed by one at which each
bucket is published and delivered once (`Mirrors`).  The second desk takes part in whatever is done
for the first time; all the rest concerns buckets that are shut, and leaves the engine as it is.

A bucket that was received and is not acknowledged yet is the only one before the queue.  It is in
hand or in the stash, and the second desk holds it from its first delivery on (`Front`).
-/

namespace BulkRun

variable {σ : Type}

/-! ## The second desk -/

namespace Desk

/-- Whether a bucket was received, is not acknowledged yet and is not worked on: it is in hand, or
it was handed back. -/
def Rests (i : Nat) (b : Bucket) (hand : Option (Hand σ)) (stash : List Bucket) : Prop :=
  (∃ h, hand = some h ∧ h.delivery = ⟨b, i⟩ ∧ h.rests = true ∧ stash = []) ∨
    hand = none ∧ stash = [b]

/-- Whether no execution of a bucket that was received has begun. -/
def Lies (i : Nat) (b : Bucket) (hand : Option (Hand σ)) (stash : List Bucket) : Prop :=
  hand = some ⟨⟨b, i⟩, none⟩ ∧ stash = [] ∨ hand = none ∧ stash = [b]

/-- What is before the queue, and what the second desk has in hand: nothing while the bucket is one
that it has done with.  The last argument is the bucket on which work is still to be done. -/
inductive Front (seen : List (CommandId × Nat)) (i : Nat) :
    Option (Hand σ) → List Bucket → Option (Hand σ) → Option (CommandId × Nat) → Prop
  | idle : Front seen i none [] none none
  | fresh {b : Bucket} {hand : Option (Hand σ)} {stash : List Bucket} (hseen : b.key ∈ seen)
      (h : Lies i b hand stash) : Front seen i hand stash (some ⟨⟨b, i⟩, none⟩) (some b.key)
  | busy {b : Bucket} {x : Execution σ} {w : Work σ} (hseen : b.key ∈ seen)
      (hw : x.work? = some w) :
      Front seen i (some ⟨⟨b, i⟩, some x⟩) [] (some ⟨⟨b, i⟩, some x⟩) (some b.key)
  | settled {b : Bucket} {hand : Option (Hand σ)} {stash : List Bucket}
      {result : Except Error BucketOutcome} (hseen : b.key ∈ seen) (h : Rests i b hand stash) :
      Front seen i hand stash (some ⟨⟨b, i⟩, some (.finished result)⟩) none
  | copy {b : Bucket} {hand : Option (Hand σ)} {stash : List Bucket} (hseen : b.key ∈ seen)
      (h : Rests i b hand stash) : Front seen i hand stash none none

/-- A desk and one that follows it with each bucket delivered once.  These are the keys of the
buckets that were received, and the bucket among them on which work is still to be done. -/
structure Mirrors (i : Nat) (known : List CommandId) (published : List Bucket)
    (seen : List (CommandId × Nat)) (active : Option (CommandId × Nat)) (p q : Partition)
    (s r : Desk σ) : Prop where
  engine : r.engine = { s.engine with channel := r.engine.channel }
  length : r.engine.channel.partitions.length = s.engine.channel.partitions.length
  shelf : s.engine.channel.Shelf i p
  mirror : r.engine.channel.Shelf i q
  capacity : q.capacity = p.capacity
  stash : q.stash = []
  queue : q.queue = firsts seen p.queue
  front : Front seen i s.hand p.stash r.hand active
  shut : ∀ key ∈ seen, key.1 ∈ known ∧
    (active = some key ∨ s.engine.tracker.Shut key.1 key.2)
  listed : ∀ b ∈ p.queue, b.commandId ∈ known
  published : ∀ key, key ∈ published.map Bucket.key ↔ key ∈ seen ∨ key ∈ p.queue.map Bucket.key

/-- The bucket that a move receives. -/
def received? (m : Move (Desk σ) (Event σ)) : Option Bucket :=
  match m.event with
  | .receive => m.after.hand.map (·.delivery.bucket)
  | _ => none

/-- What others do in a move. -/
def Event.outside? : Event σ → Option (Outside σ)
  | .outside o => some o
  | _ => none

/-- How the second desk takes part in an event of the first.  What it works on it has not worked on
before, and it hands nothing back. -/
structure Joins (setup : Setup σ) (i : Nat) (event : Event σ) (published : List Bucket)
    (q q' : Partition) (r r' : Desk σ) : Prop where
  next : next? setup i r event = some r'
  keeps : event ≠ .handBack
  fresh : event = .start → ∃ v, r.hand = some ⟨v, none⟩
  new : firsts [] (published ++ event.published?.toList) =
    firsts [] published ++ event.published?.toList
  queue : (received? ⟨r, event, r'⟩).toList ++ q'.queue = q.queue ++ event.published?.toList

/-- How the second desk follows an event of the first: it takes part in it, or it has done so
before. -/
inductive Keeps (setup : Setup σ) (i : Nat) (event : Event σ) (published : List Bucket)
    (q q' : Partition) (r r' : Desk σ) : Prop
  | joins (h : Joins setup i event published q q' r r')
  | stays (hr : r' = r) (hq : q' = q) (houtside : event.outside? = none)
      (hold : firsts [] (published ++ event.published?.toList) = firsts [] published)

variable {setup : Setup σ} {i : Nat} {known : List CommandId} {published : List Bucket}
  {seen : List (CommandId × Nat)} {active : Option (CommandId × Nat)} {p q : Partition}
  {s r t : Desk σ} {b : Bucket} {hand hand' : Option (Hand σ)} {stash : List Bucket} {h : Hand σ}

/-! ### What is before the queue -/

/-- A bucket that was handed back can be received again; otherwise nothing is before the queue. -/
theorem Front.of_none (hfront : Front seen i none stash hand' active) :
    (stash = [] ∧ hand' = none ∧ active = none) ∨
      ∃ b, stash = [b] ∧ Front seen i (some ⟨⟨b, i⟩, none⟩) [] hand' active := by
  have rests {b : Bucket} (hrests : Rests i b (none : Option (Hand σ)) stash) :
      stash = [b] ∧ Rests i b (some (⟨⟨b, i⟩, none⟩ : Hand σ)) [] := by
    obtain ⟨h, hnone, -⟩ | ⟨-, hstash⟩ := hrests
    · exact absurd hnone (by simp)
    · exact ⟨hstash, .inl ⟨_, rfl, rfl, rfl, rfl⟩⟩
  cases hfront with
  | idle => exact .inl ⟨rfl, rfl, rfl⟩
  | @fresh b _ _ hseen hlies =>
    obtain ⟨hnone, -⟩ | ⟨-, hstash⟩ := hlies
    · exact absurd hnone (by simp)
    · exact .inr ⟨b, hstash, .fresh hseen (.inl ⟨rfl, rfl⟩)⟩
  | @settled b _ _ result hseen hrests =>
    exact .inr ⟨b, (rests hrests).1, .settled hseen (rests hrests).2⟩
  | @copy b _ _ hseen hrests => exact .inr ⟨b, (rests hrests).1, .copy hseen (rests hrests).2⟩

/-- A delivery in hand: no execution of it has begun, or one is under way, and the second desk has
the same in hand; or the second desk has done with the bucket. -/
theorem Front.of_some (hfront : Front seen i (some h) stash hand' active) :
    stash = [] ∧ ∃ b, h.delivery = ⟨b, i⟩ ∧ b.key ∈ seen ∧
      ((hand' = some h ∧ active = some b.key ∧
          (h.execution = none ∨ ∃ x w, h.execution = some x ∧ x.work? = some w)) ∨
        h.rests = true ∧ active = none ∧
          (hand' = none ∨ ∃ result, hand' = some ⟨⟨b, i⟩, some (.finished result)⟩)) := by
  have rests {b : Bucket} (hrests : Rests i b (some h) stash) :
      stash = [] ∧ h.delivery = ⟨b, i⟩ ∧ h.rests = true := by
    obtain ⟨k, hk, hdelivery, hrests, hstash⟩ | ⟨hnone, -⟩ := hrests
    · obtain rfl := Option.some.inj hk
      exact ⟨hstash, hdelivery, hrests⟩
    · exact absurd hnone (by simp)
  generalize hhand : some h = hand at hfront
  cases hfront with
  | idle => exact absurd hhand (by simp)
  | @fresh b _ _ hseen hlies =>
    obtain ⟨hb, hstash⟩ | ⟨hnone, -⟩ := hlies
    · subst hhand
      obtain rfl := Option.some.inj hb
      exact ⟨hstash, b, rfl, hseen, .inl ⟨rfl, rfl, .inl rfl⟩⟩
    · exact absurd (hhand.trans hnone) (by simp)
  | @busy b x w hseen hw =>
    obtain rfl := Option.some.inj hhand
    exact ⟨rfl, b, rfl, hseen, .inl ⟨rfl, rfl, .inr ⟨x, w, rfl, hw⟩⟩⟩
  | @settled b _ _ result hseen hrests =>
    rw [← hhand] at hrests
    obtain ⟨hstash, hdelivery, hrests⟩ := rests hrests
    exact ⟨hstash, b, hdelivery, hseen, .inr ⟨hrests, rfl, .inr ⟨result, rfl⟩⟩⟩
  | @copy b _ _ hseen hrests =>
    rw [← hhand] at hrests
    obtain ⟨hstash, hdelivery, hrests⟩ := rests hrests
    exact ⟨hstash, b, hdelivery, hseen, .inr ⟨hrests, rfl, .inl rfl⟩⟩

/-- A bucket with which the second desk has done, wherever it is. -/
theorem Front.of_rests (hseen : b.key ∈ seen) (hrests : Rests i b hand stash)
    (hhand : hand' = none ∨ ∃ result, hand' = some ⟨⟨b, i⟩, some (.finished result)⟩) :
    Front seen i hand stash hand' none := by
  obtain rfl | ⟨result, rfl⟩ := hhand
  · exact .copy hseen hrests
  · exact .settled hseen hrests

theorem eq_finished_of_work? {x : Execution σ} (h : x.work? = none) :
    ∃ result, x = .finished result := by
  cases x with
  | finished result => exact ⟨result, rfl⟩
  | _ => exact absurd h (by simp [Execution.work?])

/-! ### Each event is followed -/

theorem outside?_withChannel (e : Engine σ) (o : Outside σ) (c : Channel) :
    Engine.outside? { e with channel := c } o =
      (e.outside? o).map fun f => { f with channel := c } := by
  cases o with
  | register k =>
    simp only [Engine.outside?, Option.map_map]
    rfl
  | report id k =>
    simp only [Engine.outside?, Option.map_map]
    rfl
  | _ => rfl

/-- A second desk that takes no part in an event which publishes nothing. -/
theorem keeps_still {event : Event σ} (hp : event.published? = none)
    (ho : event.outside? = none) : Keeps setup i event published q q r r := by
  refine .stays rfl rfl ho ?_
  rw [hp, Option.toList_none, List.append_nil]

/-- A second desk that takes part in an event which neither publishes nor receives. -/
theorem keeps_together {event : Event σ} {r' : Desk σ} (hp : event.published? = none)
    (hreceive : event ≠ .receive) (hback : event ≠ .handBack)
    (hfresh : event = .start → ∃ v, r.hand = some ⟨v, none⟩)
    (h : next? setup i r event = some r') : Keeps setup i event published q q r r' := by
  have hnone : received? ⟨r, event, r'⟩ = none := by
    cases event with
    | receive => exact absurd rfl hreceive
    | _ => rfl
  refine .joins ⟨h, hback, hfresh, ?_, ?_⟩
  · rw [hp, Option.toList_none, List.append_nil, List.append_nil]
  · rw [hnone, hp, Option.toList_none, List.append_nil, List.nil_append]

theorem Mirrors.outside {o : Outside σ} {f : Engine σ}
    (hm : Mirrors i known published seen active p q s r) (hs : s.Sound known)
    (hnew : ∀ id, (Event.outside o).registered? = some id → id ∉ known)
    (hf : s.engine.outside? o = some f) :
    Keeps setup i (.outside o) published q q r ⟨{ f with channel := r.engine.channel }, r.hand⟩ ∧
      Mirrors i (known ++ (Event.outside o).registered?.toList) published seen active p q
        { s with engine := f } ⟨{ f with channel := r.engine.channel }, r.hand⟩ := by
  have hchannel := (outside?_cases hs.distinct hf).1
  have hnext : next? setup i s (.outside o) = some { s with engine := f } := by
    rw [next?, hf, Option.map_some]
  have hnext' : next? setup i r (.outside o) =
      some ⟨{ f with channel := r.engine.channel }, r.hand⟩ := by
    rw [next?, hm.engine, outside?_withChannel, hf]
    rfl
  refine ⟨keeps_together rfl (by simp) (by simp) (by simp) hnext', ?_⟩
  exact { hm with
    engine := rfl
    length := by
      rw [hchannel]
      exact hm.length
    shelf := by
      rw [hchannel]
      exact hm.shelf
    shut := by
      intro key hkey
      obtain ⟨hknown, hshut⟩ := hm.shut key hkey
      refine ⟨List.mem_append_left _ hknown, ?_⟩
      exact hshut.imp_right fun hshut => shut_next? hs hknown hnew hnext hshut
    listed := fun b hb => List.mem_append_left _ (hm.listed b hb) }

theorem Mirrors.publish {c : Channel} (hm : Mirrors i known published seen active p q s r)
    (hb : s.engine.channel.partitionFor b.commandId = i) (hknown : b.commandId ∈ known)
    (hc : s.engine.channel.offer b = .ok (some c)) :
    ∃ q' r', Keeps setup i (.publish b) published q q' r r' ∧
      Mirrors i known (published ++ [b]) seen active (p.enqueue b) q' (s.withChannel c) r' := by
  obtain ⟨hroom, hlength, hshelf⟩ := hm.shelf.offer hb hc
  have hlisted : ∀ a ∈ (p.enqueue b).queue, a.commandId ∈ known := by
    intro a ha
    obtain ha | ha := List.mem_append.1 ha
    · exact hm.listed a ha
    · rw [List.mem_singleton.1 ha]
      exact hknown
  have hpublished : ∀ key, key ∈ (published ++ [b]).map Bucket.key ↔
      key ∈ seen ∨ key ∈ (p.enqueue b).queue.map Bucket.key := by
    intro key
    show _ ↔ key ∈ seen ∨ key ∈ (p.queue ++ [b]).map Bucket.key
    rw [List.map_append, List.mem_append, hm.published key, List.map_append, List.mem_append]
    exact or_assoc
  have hfirsts := firsts_concat seen p.queue b
  rw [if_congr (hm.published b.key).symm rfl rfl] at hfirsts
  have hagain := firsts_concat [] published b
  rw [if_congr (or_iff_right (List.not_mem_nil (a := b.key))) rfl rfl] at hagain
  have hsame : r.engine.channel.partitionFor b.commandId = i := by
    rw [← hb, Channel.partitionFor, Channel.partitionFor, hm.length]
  by_cases hold : b.key ∈ published.map Bucket.key
  · -- a copy of a bucket that was published before
    rw [if_pos hold, List.append_nil] at hfirsts hagain
    refine ⟨q, r, .stays rfl rfl rfl hagain, ?_⟩
    exact { hm with
      length := hm.length.trans hlength.symm
      shelf := hshelf
      queue := hm.queue.trans hfirsts.symm
      listed := hlisted
      published := hpublished }
  · rw [if_neg hold] at hfirsts hagain
    have hroom' : q.hasRoom = true := by
      rw [hm.mirror.hasRoom_iff, hm.capacity, hm.queue]
      exact Nat.lt_of_le_of_lt (length_firsts_le seen p.queue) (hm.shelf.hasRoom_iff.1 hroom)
    obtain ⟨d, hd⟩ := hm.mirror.exists_offer hsame hroom'
    obtain ⟨-, hlength', hshelf'⟩ := hm.mirror.offer hsame hd
    have hnext : next? setup i r (.publish b) = some (r.withChannel d) := by
      rw [next?, if_pos hsame, hd]
    refine ⟨q.enqueue b, r.withChannel d, .joins ⟨hnext, (by simp), (by simp), hagain, rfl⟩, ?_⟩
    exact { hm with
      engine := by rw [withChannel, hm.engine]; rfl
      length := (hlength'.trans hm.length).trans hlength.symm
      shelf := hshelf
      mirror := hshelf'
      queue := by
        show q.queue ++ [b] = _
        rw [hm.queue]
        exact hfirsts.symm
      listed := hlisted
      published := hpublished }

/-- The first bucket of the queue is received.  The second desk receives it unless it has had it
before. -/
theorem Mirrors.receive_queued {rest : List Bucket} {c : Channel}
    (hm : Mirrors i known published seen none p q s r) (hhand : r.hand = none)
    (hlength : c.partitions.length = s.engine.channel.partitions.length)
    (hstash : p.stash = []) (hqueue : p.queue = b :: rest)
    (hshelf : c.Shelf i { p with queue := rest }) :
    ∃ seen' active' q' r', Keeps setup i .receive published q q' r r' ∧
      Mirrors i known published seen' active' { p with queue := rest } q'
        (s.hold (⟨b, i⟩, c)) r' := by
  have hlisted : ∀ a ∈ rest, a.commandId ∈ known := by
    intro a ha
    exact hm.listed a (hqueue ▸ List.mem_cons_of_mem _ ha)
  have hpublished : ∀ key, key ∈ published.map Bucket.key ↔
      key ∈ b.key :: seen ∨ key ∈ rest.map Bucket.key := by
    intro key
    rw [hm.published key, hqueue, List.map_cons, List.mem_cons, List.mem_cons]
    exact or_left_comm.trans or_assoc.symm
  by_cases hb : b.key ∈ seen
  · -- a copy of a bucket that was received before
    refine ⟨seen, none, q, r, keeps_still rfl rfl, ?_⟩
    exact { hm with
      length := hm.length.trans hlength.symm
      shelf := hshelf
      queue := by rw [hm.queue, hqueue, firsts_cons_seen hb]
      front := by
        rw [hhand]
        exact .copy hb (.inl ⟨_, rfl, rfl, rfl, hstash⟩)
      listed := hlisted
      published := by
        intro key
        rw [hpublished key, List.mem_cons]
        refine or_congr_left ⟨?_, .inr⟩
        rintro (rfl | h)
        · exact hb
        · exact h }
  · have hqueue' : q.queue = b :: firsts (b.key :: seen) rest := by
      rw [hm.queue, hqueue, firsts_cons_new hb]
    obtain ⟨d, hd⟩ : ∃ d, d = r.engine.channel.setPartition i
      { q with queue := firsts (b.key :: seen) rest } := ⟨_, rfl⟩
    have htake := hm.mirror.take?_of_queue hm.stash hqueue'
    rw [← hd] at htake
    have hnext : next? setup i r .receive = some (r.hold (⟨b, i⟩, d)) := by
      rw [next?, hhand]
      simp only [htake, Option.map_some]
    refine ⟨b.key :: seen, some b.key, { q with queue := firsts (b.key :: seen) rest },
      r.hold (⟨b, i⟩, d), .joins ⟨hnext, (by simp), (by simp), ?_, ?_⟩, ?_⟩
    · rw [show (Event.receive : Event σ).published? = none from rfl, Option.toList_none,
        List.append_nil, List.append_nil]
    · rw [show (Event.receive : Event σ).published? = none from rfl, Option.toList_none,
        List.append_nil, hqueue']
      rfl
    · exact { hm with
        engine := by rw [hold, withChannel, hm.engine]; rfl
        length := by
          rw [hd]
          exact List.length_set.trans (hm.length.trans hlength.symm)
        shelf := hshelf
        mirror := by
          rw [hd]
          exact hm.mirror.set hm.mirror.isOpen hm.mirror.waiting hm.mirror.granted
        queue := rfl
        front := .fresh List.mem_cons_self (.inl ⟨rfl, hstash⟩)
        shut := by
          intro key hkey
          obtain rfl | hkey := List.mem_cons.1 hkey
          · exact ⟨hm.listed b (hqueue ▸ List.mem_cons_self), .inl rfl⟩
          · obtain ⟨hknown, hactive | hshut⟩ := hm.shut key hkey
            · exact absurd hactive (by simp)
            · exact ⟨hknown, .inr hshut⟩
        listed := hlisted
        published := hpublished }

/-- What is received was handed back before, or it is the first of the queue. -/
theorem Mirrors.receive {v : Delivery} {c : Channel}
    (hm : Mirrors i known published seen active p q s r) (hhand : s.hand = none)
    (hc : s.engine.channel.take? i = some (v, c)) :
    ∃ seen' active' p' q' r', Keeps setup i .receive published q q' r r' ∧
      Mirrors i known published seen' active' p' q' (s.hold (v, c)) r' := by
  obtain ⟨b, j⟩ := v
  obtain ⟨hj, hlength, ⟨rest, hstash, hshelf⟩ | ⟨hstash, rest, hqueue, hshelf⟩⟩ :=
    hm.shelf.take? hc
  all_goals
    obtain rfl : j = i := hj
    have hfront := hm.front
    rw [hhand] at hfront
  · obtain ⟨hempty, -⟩ | ⟨a, hone, hfront⟩ := hfront.of_none
    · rw [hempty] at hstash
      exact absurd hstash (by simp)
    · rw [hone] at hstash
      obtain ⟨rfl, rfl⟩ := List.cons.inj hstash
      refine ⟨seen, active, { p with stash := [] }, q, r, keeps_still rfl rfl, ?_⟩
      exact { hm with
        length := hm.length.trans hlength.symm
        shelf := hshelf
        front := hfront }
  · obtain ⟨-, hnone, rfl⟩ | ⟨a, hone, -⟩ := hfront.of_none
    · obtain ⟨seen', active', q', r', h⟩ :=
        hm.receive_queued hnone hlength hstash hqueue hshelf
      exact ⟨seen', active', _, q', r', h⟩
    · rw [hone] at hstash
      exact absurd hstash (by simp)

/-- Both desks work on the bucket in the same way. -/
theorem Mirrors.progress {res : Execution σ × Engine σ}
    (hm : Mirrors i known published seen active p q s r) (hseen : b.key ∈ seen)
    (hstash : p.stash = []) (hactive : active = some b.key)
    (hevolves : Execution.Evolves s.engine res.2)
    (hshut : res.1.work? = none → res.2.tracker.Shut b.key.1 b.key.2) :
    ∃ active', Mirrors i known published seen active' p q (Desk.progress ⟨b, i⟩ res)
      (Desk.progress ⟨b, i⟩ (Execution.withChannel res r.engine.channel)) := by
  have hlength : r.engine.channel.partitions.length = res.2.channel.partitions.length := by
    rw [hevolves.channel]
    exact hm.length
  have hshelf : res.2.channel.Shelf i p := by
    rw [hevolves.channel]
    exact hm.shelf
  cases hwork : res.1.work? with
  | none =>
    -- the bucket was the only one with work still to be done
    obtain ⟨result, hfinished⟩ := eq_finished_of_work? hwork
    refine ⟨none, ?_⟩
    exact { hm with
      engine := rfl
      length := hlength
      shelf := hshelf
      front := by
        show Front seen i (some ⟨⟨b, i⟩, some res.1⟩) p.stash (some ⟨⟨b, i⟩, some res.1⟩) none
        rw [hfinished]
        exact .settled hseen (.inl ⟨_, rfl, rfl, rfl, hstash⟩)
      shut := by
        intro key hkey
        obtain ⟨hknown, hor⟩ := hm.shut key hkey
        refine ⟨hknown, .inr ?_⟩
        obtain h | h := hor
        · obtain rfl := Option.some.inj (hactive.symm.trans h)
          exact hshut hwork
        · exact h.advance hevolves.tracker }
  | some w =>
    refine ⟨active, ?_⟩
    exact { hm with
      engine := rfl
      length := hlength
      shelf := hshelf
      front := by
        rw [hactive, hstash]
        exact .busy hseen hwork
      shut := by
        intro key hkey
        obtain ⟨hknown, hor⟩ := hm.shut key hkey
        exact ⟨hknown, hor.imp_right fun h => h.advance hevolves.tracker⟩ }

theorem rests_of_work {x : Execution σ} {w : Work σ} (hx : h.execution = some x)
    (hw : x.work? = some w) : h.rests = false ∧ h.isWorkedOff = false := by
  unfold Hand.rests Hand.isWorkedOff
  rw [hx]
  cases x with
  | finished result => exact absurd hw (by simp [Execution.work?])
  | _ => exact ⟨rfl, rfl⟩

theorem Mirrors.start (hm : Mirrors i known published seen active p q s r)
    (hhand : s.hand = some h) (hrests : h.rests = true) :
    ∃ active' r', Keeps setup i .start published q q r r' ∧
      Mirrors i known published seen active' p q
        (Desk.progress h.delivery (Execution.start setup h.delivery.bucket s.engine)) r' := by
  have hfront := hm.front
  rw [hhand] at hfront
  obtain ⟨hstash, b, hdelivery, hseen, ⟨hsame, hactive, hor⟩ | ⟨-, hactive, hover⟩⟩ :=
    hfront.of_some
  · -- no execution of the bucket has begun yet
    have hbegins := Execution.begins_start setup b s.engine
    obtain ⟨active', hm'⟩ := hm.progress hseen hstash hactive hbegins.evolves hbegins.shut
    have hnext : next? setup i r .start = some (Desk.progress ⟨b, i⟩
        (Execution.withChannel (Execution.start setup b s.engine) r.engine.channel)) := by
      rw [next?, hsame]
      simp only [hrests, if_true, hdelivery]
      rw [hm.engine, Execution.start_withChannel]
    have hfresh : r.hand = some ⟨h.delivery, none⟩ := by
      obtain hx | ⟨x, w, hx, hw⟩ := hor
      · rw [hsame, ← hx]
      · rw [(rests_of_work hx hw).1] at hrests
        exact absurd hrests Bool.false_ne_true
    rw [hdelivery]
    exact ⟨active', _, keeps_together rfl (by simp) (by simp) (fun _ => ⟨_, hfresh⟩) hnext, hm'⟩
  · have hshut : s.engine.tracker.Shut b.commandId b.sequence := by
      obtain ⟨-, h | h⟩ := hm.shut b.key hseen
      · rw [hactive] at h
        exact absurd h (by simp)
      · exact h
    obtain ⟨outcome, hstart⟩ := Execution.start_of_shut setup hshut
    rw [hdelivery, hstart]
    refine ⟨none, r, keeps_still rfl rfl, ?_⟩
    exact { hm with
      front := Front.of_rests hseen (.inl ⟨_, rfl, rfl, rfl, hstash⟩) hover
      shut := by
        rw [← hactive]
        exact hm.shut }

theorem Mirrors.work {v : Delivery} {x : Execution σ} {res : Execution σ × Engine σ}
    (hm : Mirrors i known published seen active p q s r) (hs : s.Sound known)
    (hhand : s.hand = some ⟨v, some x⟩) (hstep : x.step? setup s.engine = some res) :
    ∃ active' r', Keeps setup i .work published q q r r' ∧
      Mirrors i known published seen active' p q (Desk.progress v res) r' := by
  have hfront := hm.front
  rw [hhand] at hfront
  obtain ⟨w, hw, hworks⟩ := Execution.works_step? hs.distinct hstep
  obtain ⟨hstash, b, hdelivery, hseen, ⟨hsame, hactive, -⟩ | ⟨hrests, -⟩⟩ := hfront.of_some
  · obtain rfl : v = ⟨b, i⟩ := hdelivery
    have hkey : w.key = b.key := key_of_serves (hs.serves _ _ hhand rfl) hw
    have hshut (hended : res.1.work? = none) : res.2.tracker.Shut b.key.1 b.key.2 := by
      rw [← hkey]
      exact hworks.shut hended
    obtain ⟨active', hm'⟩ := hm.progress hseen hstash hactive hworks.evolves hshut
    have hnext : next? setup i r .work = some (Desk.progress ⟨b, i⟩
        (Execution.withChannel res r.engine.channel)) := by
      rw [next?, hsame]
      simp only
      rw [hm.engine, Execution.step?_withChannel, hstep]
      rfl
    exact ⟨active', _, keeps_together rfl (by simp) (by simp) (by simp) hnext, hm'⟩
  · rw [(rests_of_work rfl hw).1] at hrests
    exact absurd hrests Bool.false_ne_true

theorem Mirrors.acknowledge (hm : Mirrors i known published seen active p q s r)
    (hhand : s.hand = some h) (hover : h.isWorkedOff = true) :
    ∃ r', Keeps setup i .acknowledge published q q r r' ∧
      Mirrors i known published seen active p q
        { s.withChannel s.engine.channel.acknowledge with hand := none } r' := by
  have hfront := hm.front
  rw [hhand] at hfront
  obtain ⟨hstash, b, -, -, ⟨-, -, hor⟩ | ⟨-, hactive, hnone | ⟨result, hdone⟩⟩⟩ := hfront.of_some
  · have hnot : h.isWorkedOff = false := by
      obtain hx | ⟨x, w, hx, hw⟩ := hor
      · rw [Hand.isWorkedOff, hx]
      · exact (rests_of_work hx hw).2
    rw [hnot] at hover
    exact absurd hover Bool.false_ne_true
  · -- the second desk has acknowledged the bucket already
    refine ⟨r, keeps_still rfl rfl, ?_⟩
    exact { hm with
      shelf := ⟨hm.shelf.place, hm.shelf.isOpen, hm.shelf.waiting, hm.shelf.granted⟩
      front := by
        rw [hnone, hactive, hstash]
        exact .idle }
  · have hnext : next? setup i r .acknowledge =
        some { r.withChannel r.engine.channel.acknowledge with hand := none } := by
      rw [next?, hdone]
      rfl
    refine ⟨_, keeps_together rfl (by simp) (by simp) (by simp) hnext, ?_⟩
    exact { hm with
      engine := by rw [withChannel, hm.engine]; rfl
      shelf := ⟨hm.shelf.place, hm.shelf.isOpen, hm.shelf.waiting, hm.shelf.granted⟩
      mirror := ⟨hm.mirror.place, hm.mirror.isOpen, hm.mirror.waiting, hm.mirror.granted⟩
      front := by
        rw [hactive, hstash]
        exact .idle }

/-- What is handed back is the second desk's to keep. -/
theorem Mirrors.handBack (hm : Mirrors i known published seen active p q s r)
    (hhand : s.hand = some h) (hrests : h.rests = true) :
    Keeps setup i .handBack published q q r r ∧
      Mirrors i known published seen active (p.restore h.delivery.bucket) q
        { s.withChannel (s.engine.channel.handBack h.delivery) with hand := none } r := by
  have hfront := hm.front
  rw [hhand] at hfront
  obtain ⟨hstash, b, hdelivery, hseen, hor⟩ := hfront.of_some
  obtain ⟨hlength, hshelf⟩ := hm.shelf.handBack (v := h.delivery) (by rw [hdelivery])
  have hone : (p.restore h.delivery.bucket).stash = [b] := by
    rw [hdelivery, Partition.restore, hstash]
  refine ⟨keeps_still rfl rfl, ?_⟩
  exact { hm with
    length := hm.length.trans hlength.symm
    shelf := hshelf
    front := by
      rw [hone]
      obtain ⟨hsame, hactive, hnone | ⟨x, w, hx, hw⟩⟩ | ⟨-, hactive, hover⟩ := hor
      · have hh : h = ⟨⟨b, i⟩, none⟩ := by rw [← hdelivery, ← hnone]
        rw [hsame, hactive, hh]
        exact .fresh hseen (.inr ⟨rfl, rfl⟩)
      · rw [(rests_of_work hx hw).1] at hrests
        exact absurd hrests Bool.false_ne_true
      · rw [hactive]
        exact Front.of_rests hseen (.inr ⟨rfl, rfl⟩) hover }

/-- Whatever happens at the first desk, the second one follows. -/
theorem Mirrors.next? {event : Event σ} (hm : Mirrors i known published seen active p q s r)
    (hs : s.Sound known) (hnew : ∀ id, event.registered? = some id → id ∉ known)
    (hlisted : ∀ b, event.published? = some b → b.commandId ∈ known)
    (h : next? setup i s event = some t) :
    ∃ seen' active' p' q' r', Keeps setup i event published q q' r r' ∧
      Mirrors i (known ++ event.registered?.toList) (published ++ event.published?.toList)
        seen' active' p' q' t r' := by
  cases deed_next? h with
  | @outside o f hf =>
    rw [show (Event.outside o).published? = none from rfl, Option.toList_none, List.append_nil]
    exact ⟨seen, active, p, q, _, hm.outside hs hnew hf⟩
  | @publish b c hb hc =>
    rw [show (Event.publish b : Event σ).registered? = none from rfl, Option.toList_none,
      List.append_nil]
    obtain ⟨q', r', hkeeps, hm'⟩ := hm.publish hb (hlisted b rfl) hc
    exact ⟨seen, active, p.enqueue b, q', r', hkeeps, hm'⟩
  | receive hhand hc =>
    simp only [Event.registered?, Event.published?, Option.toList_none, List.append_nil]
    exact hm.receive hhand hc
  | start hhand hrests =>
    simp only [Event.registered?, Event.published?, Option.toList_none, List.append_nil]
    obtain ⟨active', r', hkeeps, hm'⟩ := hm.start hhand hrests
    exact ⟨seen, active', p, q, r', hkeeps, hm'⟩
  | work hhand hstep =>
    simp only [Event.registered?, Event.published?, Option.toList_none, List.append_nil]
    obtain ⟨active', r', hkeeps, hm'⟩ := hm.work hs hhand hstep
    exact ⟨seen, active', p, q, r', hkeeps, hm'⟩
  | acknowledge hhand hover =>
    simp only [Event.registered?, Event.published?, Option.toList_none, List.append_nil]
    obtain ⟨r', hkeeps, hm'⟩ := hm.acknowledge hhand hover
    exact ⟨seen, active, p, q, r', hkeeps, hm'⟩
  | handBack hhand hrests =>
    simp only [Event.registered?, Event.published?, Option.toList_none, List.append_nil]
    exact ⟨seen, active, _, q, r, hm.handBack hhand hrests⟩

end Desk

end BulkRun
