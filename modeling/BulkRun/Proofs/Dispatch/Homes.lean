import BulkRun.Proofs.Channel.Traffic
import BulkRun.Proofs.Dispatch.InFlight
import BulkRun.Proofs.Dispatch.Passage
/-!
# Where the buckets of a command are at home

All buckets of a command go through one partition: they lie there, and they are received from there.
That holds of the bench of a workshop whatever happens (`Bench.Homed.turns`).  Since every partition
has one consumer, which holds nothing but what it received from its partition (`Workshop.Homed`), at
most one batch of a command is in flight as long as nobody else works (`card_inFlight_le_one`).
-/

namespace BulkRun

open Relation (ReflTransGen)

variable {σ : Type} {setup : Setup σ} {id : CommandId}

/-! ## Channels -/

@[simp]
theorem Partition.isOpen_grant (p : Partition) : p.grant.isOpen = p.isOpen := by
  unfold grant
  split <;> rfl

namespace Channel

variable {c d e : Channel} {b : Bucket} {i : Nat} {p q : Partition} {v : Delivery}

/-- Whether every bucket lies in the partition of its command. -/
def Sorted (c : Channel) : Prop :=
  ∀ i p, c.partitions[i]? = some p → ∀ b ∈ p.buckets, c.partitionFor b.commandId = i

/-- Whether there are partitions, each of which has a receiver. -/
structure IsOpen (c : Channel) : Prop where
  positive : 0 < c.partitions.length
  partitions : ∀ p ∈ c.partitions, p.isOpen = true

/-- Whether a channel comes of another with every bucket where it belongs, if it was so before, and
without any receiver having gone. -/
structure Homes (c d : Channel) : Prop where
  length : d.partitions.length = c.partitions.length
  sorted : c.Sorted → d.Sorted
  isOpen : c.IsOpen → d.IsOpen

theorem homes_of_partitions (h : d.partitions = c.partitions) : Homes c d where
  length := by rw [h]
  sorted hc := by
    unfold Sorted partitionFor
    rw [h]
    exact hc
  isOpen hc := ⟨by rw [h]; exact hc.positive, by rw [h]; exact hc.partitions⟩

theorem Homes.trans (h : Homes c d) (h' : Homes d e) : Homes c e :=
  ⟨h'.length.trans h.length, fun hc => h'.sorted (h.sorted hc), fun hc => h'.isOpen (h.isOpen hc)⟩

/-- A partition changes, to which no bucket comes that does not belong there. -/
theorem Alters.sorted (h : Alters c d i p q)
    (hq : ∀ b ∈ q.buckets, b ∈ p.buckets ∨ c.partitionFor b.commandId = i) (hc : c.Sorted) :
    d.Sorted := by
  intro j r hr b hb
  rw [h.partitionFor]
  by_cases hj : j = i
  · subst hj
    obtain rfl := Option.some.inj (h.self.symm.trans hr)
    obtain hmem | hhome := hq b hb
    · exact hc j p h.before b hmem
    · exact hhome
  · rw [h.other hj] at hr
    exact hc j r hr b hb

theorem Alters.homes (h : Alters c d i p q)
    (hq : ∀ b ∈ q.buckets, b ∈ p.buckets ∨ c.partitionFor b.commandId = i)
    (hopen : q.isOpen = p.isOpen) : Homes c d where
  length := h.length
  sorted := h.sorted hq
  isOpen hc := by
    refine ⟨by rw [h.length]; exact hc.positive, fun r hr => ?_⟩
    rw [h.after] at hr
    obtain hr | rfl := List.mem_or_eq_of_mem_set hr
    · exact hc.partitions r hr
    · rw [hopen]
      exact hc.partitions p (List.mem_of_getElem? h.before)

/-- The partition of a bucket takes it in. -/
theorem homes_accept (hp : c.partitions[c.partitionFor b.commandId]? = some p)
    (hq : q.buckets.Perm (b :: p.buckets)) (hopen : q.isOpen = p.isOpen) :
    Homes c (c.accept (c.partitionFor b.commandId) q) := by
  refine (alters_accept hp q).homes (fun b' hb' => ?_) hopen
  obtain rfl | hmem := List.mem_cons.1 (hq.mem_iff.1 hb')
  · exact .inr rfl
  · exact .inl hmem

/-- A partition keeps its buckets and its receiver. -/
theorem homes_setPartition (hp : c.partitions[i]? = some p) (hq : q.buckets = p.buckets)
    (hopen : q.isOpen = p.isOpen) : Homes c (c.setPartition i q) := by
  refine (alters_setPartition hp q).homes (fun b hb => .inl ?_) hopen
  rwa [hq] at hb

theorem homes_publish {who : PublisherKey}
    (h : c.offer b = .ok (some d) ∨ c.claim who b = .ok (some d)) : Homes c d := by
  obtain h | h := h
  · obtain ⟨p, hp, -, rfl⟩ := offer_eq_some h
    exact homes_accept hp Partition.buckets_enqueue rfl
  · obtain ⟨p, q, hp, hq, rfl⟩ := claim_eq_some h
    refine homes_accept hp (Partition.buckets_fillGranted? hq) ?_
    obtain ⟨-, rfl⟩ := Partition.fillGranted?_eq_some hq
    rfl

theorem homes_enlist (c : Channel) (who : PublisherKey) (b : Bucket) :
    Homes c (c.enlist who b) := by
  obtain h | ⟨p, hp, h⟩ := c.enlist_cases who b
  · rw [h]
    exact homes_of_partitions rfl
  · rw [h]
    exact homes_setPartition hp rfl rfl

theorem homes_reserve? {who : PublisherKey} (h : c.reserve? who b = some d) : Homes c d := by
  obtain ⟨p, q, hp, hq, rfl⟩ := reserve?_eq_some h
  refine homes_setPartition hp (Partition.buckets_reserve? hq) ?_
  obtain ⟨-, rfl⟩ := Partition.reserve?_eq_some hq
  rfl

theorem sorted_close (h : ∀ p, c.partitions[i]? = some p → p.buckets = []) (hc : c.Sorted) :
    (c.close i).Sorted := by
  unfold close
  split
  · exact hc
  · rename_i p hp
    refine (alters_setPartition hp p.close).sorted (fun b hb => .inl ?_) hc
    rwa [Partition.buckets_close (h p hp)] at hb

/-- What is received from a partition lay there, and the rest goes on to lie there. -/
theorem homes_receive (h : c.unstash? i = some (v, d) ∨ c.dequeue? i = some (v, d)) :
    Homes c d ∧ v.partition = i ∧ (c.Sorted → c.partitionFor v.bucket.commandId = v.partition) := by
  have htake {take : Partition → Option (Bucket × Partition)}
      (hbuckets : ∀ {p b q}, take p = some (b, q) → p.buckets.Perm (b :: q.buckets))
      (hopen : ∀ {p b q}, take p = some (b, q) → q.isOpen = p.isOpen)
      (h : c.takeWith take i = some (v, d)) :
      Homes c d ∧ v.partition = i ∧
        (c.Sorted → c.partitionFor v.bucket.commandId = v.partition) := by
    obtain ⟨p, q, hp, hq, hpartition, rfl⟩ := takeWith_eq_some h
    have hperm := hbuckets hq
    refine ⟨(alters_setPartition hp q).homes (fun b hb => .inl ?_) (hopen hq), hpartition,
      fun hsorted => ?_⟩
    · exact hperm.mem_iff.2 (List.mem_cons_of_mem _ hb)
    · rw [hpartition]
      exact hsorted i p hp v.bucket (hperm.mem_iff.2 List.mem_cons_self)
  obtain h | h := h
  · refine htake (fun h => .of_eq (Partition.buckets_unstash? h)) (fun h => ?_) h
    obtain ⟨rest, -, rfl⟩ := Partition.unstash?_eq_some h
    rfl
  · refine htake Partition.buckets_dequeue? (fun h => ?_) h
    obtain ⟨rest, -, rfl⟩ := Partition.dequeue?_eq_some h
    exact Partition.isOpen_grant _

/-- What is handed back goes to where it belongs. -/
theorem homes_handBack (h : c.partitionFor v.bucket.commandId = v.partition) :
    Homes c (c.handBack v) := by
  cases hp : c.partitions[v.partition]? with
  | none =>
    unfold handBack
    simp only [hp]
    exact homes_of_partitions rfl
  | some p =>
    refine (alters_handBack hp).homes (fun b hb => ?_) rfl
    rw [Partition.buckets, Partition.restore, List.cons_append] at hb
    obtain rfl | hmem := List.mem_cons.1 hb
    · exact .inr h
    · exact .inl hmem

end Channel

/-! ## Scroll loops -/

namespace ScrollLoop

variable {l : ScrollLoop σ} {e : Engine σ} {r : ScrollLoop σ × Engine σ} {report : Tracker.Report}
  {how : ScrollEnd} {after : AfterBucket}

theorem Returns.partitions (h : Returns l e report how r) :
    r.2.channel.partitions = e.channel.partitions := by
  cases h <;> rfl

theorem GoesOn.partitions (h : GoesOn l e after r) :
    r.2.channel.partitions = e.channel.partitions := by
  cases h with
  | exhaust _ h => exact h.partitions
  | submit h => exact h.partitions
  | fail h => exact h.partitions
  | _ => rfl

/-- A loop publishes to the partition of its command. -/
theorem Resumes.homes (h : Resumes l e r) : Channel.Homes e.channel r.2.channel := by
  cases h with
  | refuse _ _ _ h => exact Channel.homes_of_partitions h.partitions
  | openUp _ _ _ _ h => exact Channel.homes_of_partitions h.partitions
  | chunk _ _ _ _ h => exact Channel.homes_of_partitions h.partitions
  | breakEmpty _ _ _ _ h => exact Channel.homes_of_partitions h.partitions
  | closed _ _ h => exact Channel.homes_of_partitions h.partitions
  | enlist hphase _ => exact Channel.homes_enlist _ _ _
  | published _ _ hd h =>
    exact (Channel.homes_publish hd).trans (Channel.homes_of_partitions h.partitions)
  | _ => exact Channel.homes_of_partitions rfl

end ScrollLoop

/-! ## Benches -/

/-- Whether a delivery is of the partition of its command. -/
def Hand.IsHomed (c : Channel) (h : Hand σ) : Prop :=
  c.partitionFor h.delivery.bucket.commandId = h.delivery.partition

namespace Bench

variable {b c : Bench σ} {sign : Option (Sign σ)}

/-- Whether every bucket is where it belongs, or was received from there. -/
structure Homed (b : Bench σ) : Prop where
  channel : b.engine.channel.Sorted
  hands : ∀ h ∈ b.hands, h.IsHomed b.engine.channel

theorem Homed.homes_handles (h : b.Homed) (hgrip : Handles setup b sign c) :
    Channel.Homes b.engine.channel c.engine.channel := by
  cases hgrip with
  | receive hv => exact (Channel.homes_receive hv).1
  | @start e ls hs v r hr =>
    refine Channel.homes_of_partitions (congrArg Channel.partitions ?_)
    rw [← hr]
    exact (Execution.begins_start setup v.bucket e).evolves.channel
  | work hr => exact Channel.homes_of_partitions (congrArg _ (Execution.channel_step? hr))
  | acknowledge => exact Channel.homes_of_partitions rfl
  | handBack hand => exact Channel.homes_handBack (h.hands hand (Multiset.mem_cons_self _ _))

/-- Deals leave the receivers, but for one that is seen to go. -/
theorem homes_deals (hdeal : Deals setup b sign c) (hsign : ∀ i, sign ≠ some (.closed i)) :
    Channel.Homes b.engine.channel c.engine.channel := by
  cases hdeal with
  | resume hl hopen => exact (ScrollLoop.resumes_resume hopen).homes
  | putOff hl hr =>
    obtain rfl | ⟨k, after, d, -, hd, rfl⟩ := ScrollLoop.putOff?_eq_some hr
    · exact Channel.homes_of_partitions rfl
    · exact Channel.homes_reserve? hd
  | @close i hempty => exact absurd rfl (hsign i)
  | _ => exact Channel.homes_of_partitions rfl

/-- The channel changes, and no more is at hand than before. -/
theorem homed_of_sorted (hsorted : c.engine.channel.Sorted)
    (hlength : c.engine.channel.partitions.length = b.engine.channel.partitions.length)
    (hhands : ∀ k ∈ c.hands, k.IsHomed b.engine.channel) : c.Homed where
  channel := hsorted
  hands k hk := by
    rw [Hand.IsHomed, Channel.partitionFor_congr hlength]
    exact hhands k hk

theorem Homed.handles (h : b.Homed) (hgrip : Handles setup b sign c) : c.Homed := by
  have hhomes := h.homes_handles hgrip
  refine homed_of_sorted (hhomes.sorted h.channel) hhomes.length fun k hk => ?_
  cases hgrip with
  | receive hv =>
    obtain rfl | hk := Multiset.mem_cons.1 hk
    · exact (Channel.homes_receive hv).2.2 h.channel
    · exact h.hands k hk
  | @start e ls hs v r hr =>
    obtain rfl | hk := Multiset.mem_cons.1 hk
    · exact h.hands ⟨v, none⟩ (Multiset.mem_cons_self _ _)
    · exact h.hands k (Multiset.mem_cons_of_mem hk)
  | @work e ls hs v x r hr =>
    obtain rfl | hk := Multiset.mem_cons.1 hk
    · exact h.hands ⟨v, some x⟩ (Multiset.mem_cons_self _ _)
    · exact h.hands k (Multiset.mem_cons_of_mem hk)
  | acknowledge => exact h.hands k (Multiset.mem_cons_of_mem hk)
  | handBack => exact h.hands k (Multiset.mem_cons_of_mem hk)

theorem Homed.deals (h : b.Homed) (hdeal : Deals setup b sign c) : c.Homed := by
  by_cases hclosed : ∃ i, sign = some (.closed i)
  · cases hdeal with
    | close hempty =>
      exact homed_of_sorted (Channel.sorted_close hempty h.channel)
        (Channel.keeps_close hempty).length h.hands
    | @resume l hl hopen =>
      obtain ⟨i, hsign⟩ := hclosed
      obtain ⟨answer, -, h⟩ | ⟨k, -, h⟩ := ScrollLoop.sign?_eq_some hsign
      · exact absurd h (by simp)
      · exact absurd h (by simp)
    | _ => exact absurd hclosed (by simp)
  · have hhomes := homes_deals hdeal fun i hi => hclosed ⟨i, hi⟩
    refine homed_of_sorted (hhomes.sorted h.channel) hhomes.length ?_
    cases hdeal <;> exact h.hands

theorem Homed.handles_chain (h : b.Homed) (hchain : ReflTransGen (Handles setup · none ·) b c) :
    c.Homed := by
  induction hchain with
  | refl => exact h
  | tail _ hgrip ih => exact ih.handles hgrip

/-- Whatever happens, every bucket is where it belongs, or was received from there. -/
theorem Homed.turns (h : b.Homed) (hturns : Turns setup b sign c) : c.Homed := by
  obtain hdeal | ⟨mid, hchain, hgrip⟩ := hturns
  · exact h.deals hdeal
  · exact (h.handles_chain hchain).handles hgrip

end Bench

/-! ## Consumers -/

namespace Consumer

variable {e : Engine σ} {c : Consumer σ} {r : Consumer σ × Engine σ} {v : Delivery}

/-- Whether a consumer holds nothing but what it received from its partition. -/
def IsHomed (c : Consumer σ) : Prop := ∀ h, c.hand? = some h → h.delivery.partition = c.partition

theorem isHomed_of_none (h : c.hand? = none) : c.IsHomed := by
  intro k hk
  rw [h] at hk
  exact absurd hk (by simp)

theorem homed_settle (hv : v.partition = c.partition) (x : Execution σ) (e : Engine σ) :
    (c.settle v x e).1.IsHomed := by
  obtain ⟨-, h⟩ | ⟨result, -, h⟩ := c.settle_cases v x e
  · intro k hk
    rw [h] at hk ⊢
    rw [← Option.some.inj hk]
    exact hv
  · rw [h]
    exact isHomed_of_none rfl

/-- A consumer stays with its partition. -/
theorem homed_step? (hc : c.IsHomed) (h : c.step? setup e = some r) :
    r.1.partition = c.partition ∧ r.1.IsHomed := by
  cases steps_of_step? h with
  | unstash _ hv =>
    have hhome := (Channel.homes_receive (.inl hv)).2.1
    exact ⟨partition_settle c _ _ _, homed_settle hhome _ _⟩
  | dequeue _ hv =>
    have hhome := (Channel.homes_receive (.inr hv)).2.1
    exact ⟨partition_settle c _ _ _, homed_settle hhome _ _⟩
  | suspend | stop => exact ⟨rfl, isHomed_of_none rfl⟩
  | @work v x y f hphase _ =>
    have hhome := hc ⟨v, some x⟩ (by rw [hand?, hphase])
    exact ⟨partition_settle c v _ _, homed_settle hhome _ _⟩

end Consumer

/-- Only steps of consumers change what the consumers of a system hold. -/
theorem System.consumers_next? {s t : System σ} {event : System.Event}
    (hnext : s.next? setup event = some t) :
    t.consumers = s.consumers ∨ ∃ i c r, s.consumers[i]? = some c ∧
      c.step? setup s.engine = some r ∧ t.consumers = s.consumers.set i r.1 := by
  cases event with
  | step task =>
    have hstep : s.stepTask? setup task = some t := hnext
    cases task with
    | scroll key =>
      obtain ⟨l, -, -, -, -, rfl⟩ := stepTask?_scroll hstep
      exact .inl rfl
    | consume i =>
      obtain ⟨c, r, hc, hr, rfl⟩ := stepTask?_consume hstep
      exact .inr ⟨i, c, r, hc, hr, rfl⟩
    | watch i =>
      obtain ⟨w, -, rfl⟩ := Option.map_eq_some_iff.1 hstep
      exact .inl rfl
  | submit c =>
    obtain ⟨-, r, hr⟩ := next?_submit hnext
    obtain ⟨c', x, v, -, -, -, rfl⟩ := submit_eq_ok hr
    exact .inl rfl
  | putOff task =>
    obtain rfl | ⟨l, -, r, -, rfl⟩ := putOff?_eq_some hnext
    · exact .inl rfl
    · exact .inl rfl
  | abort k message =>
    obtain ⟨new, v, -, rfl⟩ := next?_abort hnext
    exact .inl rfl
  | release =>
    obtain ⟨-, rfl⟩ := next?_release hnext
    exact .inl rfl
  | lookUp | purge | tick | await | schedule =>
    obtain rfl := Option.some.inj hnext
    exact .inl rfl

/-! ## Workshops -/

namespace Workshop

variable {s t : Workshop σ}

theorem consumers_next? {event : Event σ} (hnext : s.next? setup event = some t) :
    t.system.consumers = s.system.consumers ∨ ∃ i c r, s.system.consumers[i]? = some c ∧
      c.step? setup s.system.engine = some r ∧
      t.system.consumers = s.system.consumers.set i r.1 := by
  obtain ⟨event, rfl⟩ | hsystem := system_next? hnext
  · obtain ⟨u, hu, rfl⟩ := Option.map_eq_some_iff.1 hnext
    exact System.consumers_next? hu
  · rw [hsystem]
    exact .inl rfl

/-- A workshop with one consumer for a partition, where everything was received from where it
belongs. -/
structure Homed (s : Workshop σ) : Prop where
  bench : s.bench.Homed
  consumers : ∀ c ∈ s.system.consumers, c.IsHomed
  partitions : (s.system.consumers.map Consumer.partition).Nodup

theorem Homed.next? {event : Event σ} (h : s.Homed) (hd : s.system.engine.tracker.Distinct)
    (hnext : s.next? setup event = some t) : t.Homed := by
  have hbench := h.bench.turns (turns_next? hd hnext)
  obtain hsame | ⟨i, c, r, hc, hr, hset⟩ := consumers_next? hnext
  · exact ⟨hbench, by rw [hsame]; exact h.consumers, by rw [hsame]; exact h.partitions⟩
  · obtain ⟨hpartition, hhomed⟩ := Consumer.homed_step? (h.consumers c (List.mem_of_getElem? hc)) hr
    refine ⟨hbench, fun k hk => ?_, ?_⟩
    · rw [hset] at hk
      obtain hk | rfl := List.mem_or_eq_of_mem_set hk
      · exact h.consumers k hk
      · exact hhomed
    · have hmap : (s.system.consumers.set i r.1).map Consumer.partition =
          s.system.consumers.map Consumer.partition := by
        obtain ⟨hi, rfl⟩ := List.getElem?_eq_some_iff.1 hc
        have hlt : i < (s.system.consumers.map Consumer.partition).length := by
          rwa [List.length_map]
        rw [List.map_set, hpartition, ← List.getElem_map Consumer.partition (h := hlt)]
        exact List.set_getElem_self hlt
      rw [hset, hmap]
      exact h.partitions

/-- In a new workshop everything is where it belongs. -/
theorem IsNew.homed_bench (h : s.IsNew) : s.bench.Homed where
  channel := by
    intro i p hp b hb
    have hmem : b ∈ s.system.engine.channel.buckets :=
      List.mem_flatMap.2 ⟨p, List.mem_of_getElem? hp, hb⟩
    rw [h.channel] at hmem
    exact absurd hmem List.not_mem_nil
  hands := by
    rw [h.hands_bench]
    exact fun k hk => absurd hk (Multiset.notMem_zero k)

theorem IsNew.homed (h : s.IsNew)
    (hpartitions : (s.system.consumers.map Consumer.partition).Nodup) : s.Homed where
  bench := h.homed_bench
  consumers c hc := Consumer.isHomed_of_none (hand?_of_lot? (h.idle c hc))
  partitions := hpartitions

end Workshop

end BulkRun
