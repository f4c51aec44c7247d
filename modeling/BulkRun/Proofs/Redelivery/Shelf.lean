import BulkRun.Proofs.Channel.Traffic
import BulkRun.Proofs.Redelivery.Desk
/-!
# A partition with one receiver

Of the buckets that were published, a receiver who does each only once needs the first of each key.
What happens in his partition is said of the partition alone: nobody waits for a place in it, so a
place that is freed belongs to nobody.
-/

namespace BulkRun

/-! ## First occurrences -/

/-- The first bucket of each key, unless the key was seen before. -/
def firsts (seen : List (CommandId × Nat)) : List Bucket → List Bucket
  | [] => []
  | b :: bs => if b.key ∈ seen then firsts seen bs else b :: firsts (b.key :: seen) bs

section Firsts

variable {seen : List (CommandId × Nat)} {b : Bucket} {bs : List Bucket} {key : CommandId × Nat}

theorem firsts_cons_seen (h : b.key ∈ seen) : firsts seen (b :: bs) = firsts seen bs := by
  rw [firsts, if_pos h]

theorem firsts_cons_new (h : b.key ∉ seen) :
    firsts seen (b :: bs) = b :: firsts (b.key :: seen) bs := by
  rw [firsts, if_neg h]

theorem length_firsts_le (seen : List (CommandId × Nat)) (bs : List Bucket) :
    (firsts seen bs).length ≤ bs.length := by
  induction bs generalizing seen with
  | nil => exact Nat.le_refl 0
  | cons b bs ih =>
    by_cases hb : b.key ∈ seen
    · rw [firsts_cons_seen hb, List.length_cons]
      exact Nat.le_succ_of_le (ih seen)
    · rw [firsts_cons_new hb, List.length_cons, List.length_cons]
      exact Nat.succ_le_succ (ih _)

/-- A bucket that comes last is left out exactly when its key was seen or came before. -/
theorem firsts_concat (seen : List (CommandId × Nat)) (bs : List Bucket) (b : Bucket) :
    firsts seen (bs ++ [b]) =
      firsts seen bs ++ if b.key ∈ seen ∨ b.key ∈ bs.map Bucket.key then [] else [b] := by
  induction bs generalizing seen with
  | nil =>
    by_cases hb : b.key ∈ seen
    · simp [firsts, hb]
    · simp [firsts, hb]
  | cons a bs ih =>
    rw [List.cons_append]
    by_cases ha : a.key ∈ seen
    · -- what is seen stands for what came before
      have hiff : (b.key ∈ seen ∨ b.key ∈ (a :: bs).map Bucket.key) ↔
          b.key ∈ seen ∨ b.key ∈ bs.map Bucket.key := by
        rw [List.map_cons, List.mem_cons]
        constructor
        · rintro (h | h | h)
          · exact .inl h
          · exact .inl (h ▸ ha)
          · exact .inr h
        · rintro (h | h)
          · exact .inl h
          · exact .inr (.inr h)
      rw [firsts_cons_seen ha, firsts_cons_seen ha, ih, if_congr hiff rfl rfl]
    · have hiff : (b.key ∈ seen ∨ b.key ∈ (a :: bs).map Bucket.key) ↔
          b.key ∈ a.key :: seen ∨ b.key ∈ bs.map Bucket.key := by
        rw [List.map_cons, List.mem_cons, List.mem_cons]
        exact or_left_comm.trans or_assoc.symm
      rw [firsts_cons_new ha, firsts_cons_new ha, ih, if_congr hiff rfl rfl, List.cons_append]

theorem mem_keys_firsts : key ∈ (firsts seen bs).map Bucket.key ↔
    key ∉ seen ∧ key ∈ bs.map Bucket.key := by
  induction bs generalizing seen with
  | nil => simp [firsts]
  | cons a bs ih =>
    by_cases ha : a.key ∈ seen
    · rw [firsts_cons_seen ha, ih, List.map_cons, List.mem_cons]
      constructor
      · rintro ⟨hkey, h⟩
        exact ⟨hkey, .inr h⟩
      · rintro ⟨hkey, rfl | h⟩
        · exact absurd ha hkey
        · exact ⟨hkey, h⟩
    · rw [firsts_cons_new ha, List.map_cons, List.mem_cons, ih, List.map_cons, List.mem_cons,
        List.mem_cons]
      constructor
      · rintro (rfl | ⟨hkey, h⟩)
        · exact ⟨ha, .inl rfl⟩
        · exact ⟨fun hseen => hkey (.inr hseen), .inr h⟩
      · rintro ⟨hkey, h⟩
        by_cases heq : key = a.key
        · exact .inl heq
        · refine .inr ⟨fun hor => hor.elim heq hkey, h.resolve_left heq⟩

theorem nodup_firsts (seen : List (CommandId × Nat)) (bs : List Bucket) :
    ((firsts seen bs).map Bucket.key).Nodup := by
  induction bs generalizing seen with
  | nil => exact List.nodup_nil
  | cons a bs ih =>
    by_cases ha : a.key ∈ seen
    · rw [firsts_cons_seen ha]
      exact ih seen
    · rw [firsts_cons_new ha, List.map_cons, List.nodup_cons]
      refine ⟨fun hmem => ?_, ih _⟩
      exact (mem_keys_firsts.1 hmem).1 List.mem_cons_self

end Firsts

/-! ## The partition of a desk -/

/-- Whether a channel has this partition in a place, with nobody in line for it. -/
structure Channel.Shelf (c : Channel) (i : Nat) (p : Partition) : Prop where
  place : c.partitions[i]? = some p
  isOpen : p.isOpen = true
  waiting : p.waiting = []
  granted : p.granted = []

namespace Channel.Shelf

variable {c d : Channel} {i : Nat} {p : Partition} {b : Bucket} {v : Delivery}

theorem hasRoom_iff (h : c.Shelf i p) : p.hasRoom = true ↔ p.queue.length < p.capacity := by
  rw [Partition.hasRoom_iff, h.granted, List.length_nil, Nat.add_zero]

theorem offer (h : c.Shelf i p) (hb : c.partitionFor b.commandId = i)
    (hc : c.offer b = .ok (some d)) :
    p.hasRoom = true ∧ d.partitions.length = c.partitions.length ∧ d.Shelf i (p.enqueue b) := by
  obtain ⟨p', hp', hroom, rfl⟩ := Channel.offer_eq_some hc
  rw [hb] at hp' ⊢
  obtain rfl := Option.some.inj (h.place.symm.trans hp')
  have halters := Channel.alters_accept hp' (p.enqueue b)
  exact ⟨hroom, halters.length, halters.self, h.isOpen, h.waiting, h.granted⟩

theorem exists_offer (h : c.Shelf i p) (hb : c.partitionFor b.commandId = i)
    (hroom : p.hasRoom = true) : ∃ d, c.offer b = .ok (some d) := by
  refine ⟨c.accept i (p.enqueue b), ?_⟩
  unfold Channel.offer
  simp only [hb, h.place, h.isOpen, hroom, Bool.not_true, Bool.false_eq_true, if_false, if_true]

/-- Freeing a place gives it to nobody where nobody waits. -/
theorem dequeue? {rest : List Bucket} (h : c.Shelf i p) (hqueue : p.queue = b :: rest) :
    p.dequeue? = some (b, { p with queue := rest }) := by
  have hgrant : ({ p with queue := rest } : Partition).grant = { p with queue := rest } := by
    unfold Partition.grant
    simp only [h.waiting]
  rw [Partition.dequeue?, hqueue]
  simp only [hgrant]

theorem set (h : c.Shelf i p) {q : Partition} (hopen : q.isOpen = true) (hwaiting : q.waiting = [])
    (hgranted : q.granted = []) : (c.setPartition i q).Shelf i q :=
  ⟨(Channel.alters_setPartition h.place q).self, hopen, hwaiting, hgranted⟩

/-- The next bucket is the last that was handed back, or else the first of the queue. -/
theorem take? (h : c.Shelf i p) (hv : c.take? i = some (v, d)) :
    v.partition = i ∧ d.partitions.length = c.partitions.length ∧
      ((∃ rest, p.stash = v.bucket :: rest ∧ d.Shelf i { p with stash := rest }) ∨
        p.stash = [] ∧ ∃ rest, p.queue = v.bucket :: rest ∧
          d.Shelf i { p with queue := rest }) := by
  obtain ⟨p', q, hp', hq, hi, rfl⟩ := Channel.takeWith_eq_some hv
  obtain rfl := Option.some.inj (h.place.symm.trans hp')
  refine ⟨hi, List.length_set, ?_⟩
  obtain ⟨rest, hstash, rfl⟩ | ⟨hstash, hq⟩ := Partition.take?_eq_some hq
  · exact .inl ⟨rest, hstash, h.set h.isOpen h.waiting h.granted⟩
  · obtain ⟨rest, hqueue, -⟩ := Partition.dequeue?_eq_some hq
    rw [h.dequeue? hqueue] at hq
    obtain ⟨-, rfl⟩ := Prod.mk.inj (Option.some.inj hq)
    exact .inr ⟨hstash, rest, hqueue, h.set h.isOpen h.waiting h.granted⟩

theorem take?_of_queue {rest : List Bucket} (h : c.Shelf i p) (hstash : p.stash = [])
    (hqueue : p.queue = b :: rest) :
    c.take? i = some (⟨b, i⟩, c.setPartition i { p with queue := rest }) := by
  have htake : p.take? = some (b, { p with queue := rest }) := by
    have hnone : p.unstash? = none := by rw [Partition.unstash?, hstash]
    rw [Partition.take?, hnone]
    exact h.dequeue? hqueue
  unfold Channel.take? Channel.takeWith
  rw [h.place]
  simp only [htake, Option.map_some]

theorem handBack (h : c.Shelf i p) (hv : v.partition = i) :
    (c.handBack v).partitions.length = c.partitions.length ∧
      (c.handBack v).Shelf i (p.restore v.bucket) := by
  subst hv
  have halters := Channel.alters_handBack h.place
  exact ⟨halters.length, halters.self, h.isOpen, h.waiting, h.granted⟩

end Channel.Shelf

end BulkRun
