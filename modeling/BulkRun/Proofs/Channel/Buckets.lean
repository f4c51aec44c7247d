import BulkRun.Proofs.Channel.Operations
/-!
# The buckets in a channel

What is in the queues and in the stashes of a channel, up to order.  Publishing adds one bucket,
receiving takes one out and handing back puts it in again; nothing else adds or takes any.
-/

namespace BulkRun

/-- The buckets that a partition has to deliver. -/
def Partition.buckets (p : Partition) : List Bucket := p.stash ++ p.queue

namespace Partition

variable {p q : Partition} {b : Bucket} {who : PublisherKey}

@[simp]
theorem buckets_grant : p.grant.buckets = p.buckets := by
  rw [buckets, stash_grant, queue_grant, buckets]

theorem buckets_enqueue : (p.enqueue b).buckets.Perm (b :: p.buckets) := by
  rw [buckets, enqueue, ← List.append_assoc]
  exact List.perm_append_singleton b (p.stash ++ p.queue)

theorem buckets_fillGranted? (h : p.fillGranted? who b = some q) :
    q.buckets.Perm (b :: p.buckets) := by
  obtain ⟨-, rfl⟩ := fillGranted?_eq_some h
  exact buckets_enqueue

theorem buckets_reserve? (h : p.reserve? who = some q) : q.buckets = p.buckets := by
  obtain ⟨-, rfl⟩ := reserve?_eq_some h
  rfl

theorem buckets_dequeue? (h : p.dequeue? = some (b, q)) : p.buckets.Perm (b :: q.buckets) := by
  obtain ⟨rest, hqueue, rfl⟩ := dequeue?_eq_some h
  rw [buckets_grant, buckets, buckets, hqueue]
  exact List.perm_middle

theorem buckets_unstash? (h : p.unstash? = some (b, q)) : p.buckets = b :: q.buckets := by
  obtain ⟨rest, hstash, rfl⟩ := unstash?_eq_some h
  rw [buckets, buckets, hstash]
  rfl

theorem buckets_close (h : p.buckets = []) : p.close.buckets = p.buckets := by
  rw [h]
  rfl

end Partition

namespace Channel

variable {c d : Channel} {b : Bucket} {i : Nat} {p q : Partition} {who : PublisherKey}

/-- The buckets that a channel has to deliver. -/
def buckets (c : Channel) : List Bucket := c.partitions.flatMap Partition.buckets

/-- A partition that is put in the place of another brings its buckets and takes those of the other
away. -/
theorem buckets_setPartition (h : c.partitions[i]? = some p) :
    (p.buckets ++ (c.setPartition i q).buckets).Perm (q.buckets ++ c.buckets) := by
  obtain ⟨hi, hp⟩ := List.getElem?_eq_some_iff.1 h
  have hbefore : c.buckets = (c.partitions.take i).flatMap Partition.buckets ++
      (p.buckets ++ (c.partitions.drop (i + 1)).flatMap Partition.buckets) := by
    conv => lhs; rw [buckets, ← List.take_append_drop i c.partitions, List.drop_eq_getElem_cons hi]
    rw [hp, List.flatMap_append, List.flatMap_cons]
  have hafter : (c.setPartition i q).buckets = (c.partitions.take i).flatMap Partition.buckets ++
      (q.buckets ++ (c.partitions.drop (i + 1)).flatMap Partition.buckets) := by
    rw [buckets, setPartition, List.set_eq_take_append_cons_drop, if_pos hi, List.flatMap_append,
      List.flatMap_cons]
  rw [hbefore, hafter]
  generalize (c.partitions.take i).flatMap Partition.buckets = front
  generalize (c.partitions.drop (i + 1)).flatMap Partition.buckets = rear
  calc List.Perm (p.buckets ++ (front ++ (q.buckets ++ rear)))
        (front ++ (p.buckets ++ (q.buckets ++ rear))) := List.perm_append_comm_assoc _ _ _
    List.Perm _ (front ++ (q.buckets ++ (p.buckets ++ rear))) :=
        List.Perm.append_left front (List.perm_append_comm_assoc _ _ _)
    List.Perm _ (q.buckets ++ (front ++ (p.buckets ++ rear))) := List.perm_append_comm_assoc _ _ _

theorem buckets_setPartition_same (h : c.partitions[i]? = some p) (hq : q.buckets = p.buckets) :
    (c.setPartition i q).buckets.Perm c.buckets := by
  apply (List.perm_append_left_iff p.buckets).1
  exact (buckets_setPartition h).trans (by rw [hq])

theorem buckets_setPartition_add (h : c.partitions[i]? = some p)
    (hq : q.buckets.Perm (b :: p.buckets)) :
    (c.setPartition i q).buckets.Perm (b :: c.buckets) := by
  -- the old buckets of the partition stand on both sides
  apply (List.perm_append_left_iff p.buckets).1
  calc List.Perm (p.buckets ++ (c.setPartition i q).buckets) (q.buckets ++ c.buckets) :=
        buckets_setPartition h
    List.Perm _ (b :: p.buckets ++ c.buckets) := hq.append_right c.buckets
    List.Perm _ (p.buckets ++ b :: c.buckets) := List.perm_middle.symm

theorem buckets_setPartition_remove (h : c.partitions[i]? = some p)
    (hp : p.buckets.Perm (b :: q.buckets)) :
    c.buckets.Perm (b :: (c.setPartition i q).buckets) := by
  apply (List.perm_append_left_iff q.buckets).1
  calc List.Perm (q.buckets ++ c.buckets) (p.buckets ++ (c.setPartition i q).buckets) :=
        (buckets_setPartition h).symm
    List.Perm _ (b :: q.buckets ++ (c.setPartition i q).buckets) := hp.append_right _
    List.Perm _ (q.buckets ++ b :: (c.setPartition i q).buckets) := List.perm_middle.symm

/-! ## Publishing -/

/-- What becomes of a channel that takes a bucket. -/
structure Takes (c d : Channel) (b : Bucket) : Prop where
  buckets : d.buckets.Perm (b :: c.buckets)
  length : d.partitions.length = c.partitions.length

/-- What becomes of a channel that keeps its buckets. -/
structure Keeps (c d : Channel) : Prop where
  buckets : d.buckets.Perm c.buckets
  length : d.partitions.length = c.partitions.length

theorem takes_accept (h : c.partitions[i]? = some p) (hq : q.buckets.Perm (b :: p.buckets)) :
    Takes c (c.accept i q) b :=
  ⟨buckets_setPartition_add h hq, List.length_set⟩

theorem keeps_setPartition (h : c.partitions[i]? = some p) (hq : q.buckets = p.buckets) :
    Keeps c (c.setPartition i q) :=
  ⟨buckets_setPartition_same h hq, List.length_set⟩

/-- A bucket that is offered is refused for good, taken, or left to its publisher. -/
theorem offer_cases (c : Channel) (b : Bucket) :
    (∃ m, c.offer b = .error (.channel m)) ∨ c.offer b = .ok none ∨
      ∃ d, c.offer b = .ok (some d) ∧ Takes c d b := by
  unfold offer
  dsimp only
  split
  · exact .inl ⟨_, rfl⟩
  · rename_i p hp
    split
    · exact .inl ⟨_, rfl⟩
    · split
      · exact .inr (.inr ⟨_, rfl, takes_accept hp Partition.buckets_enqueue⟩)
      · exact .inr (.inl rfl)

theorem claim_cases (c : Channel) (who : PublisherKey) (b : Bucket) :
    (∃ m, c.claim who b = .error (.channel m)) ∨ c.claim who b = .ok none ∨
      ∃ d, c.claim who b = .ok (some d) ∧ Takes c d b := by
  unfold claim
  dsimp only
  split
  · exact .inl ⟨_, rfl⟩
  · rename_i p hp
    split
    · exact .inl ⟨_, rfl⟩
    · cases hf : p.fillGranted? who b with
      | none => exact .inr (.inl rfl)
      | some q =>
        exact .inr (.inr ⟨_, rfl, takes_accept hp (Partition.buckets_fillGranted? hf)⟩)

theorem keeps_enlist (c : Channel) (who : PublisherKey) (b : Bucket) :
    Keeps c (c.enlist who b) := by
  obtain h | ⟨p, hp, h⟩ := enlist_cases c who b
  · rw [h]
    exact ⟨.refl _, rfl⟩
  · rw [h]
    exact keeps_setPartition hp rfl

theorem keeps_reserve? (h : c.reserve? who b = some d) : Keeps c d := by
  obtain ⟨p, q, hp, hq, rfl⟩ := reserve?_eq_some h
  exact keeps_setPartition hp (Partition.buckets_reserve? hq)

/-! ## Receiving -/

/-- What becomes of a channel from which a delivery is received. -/
structure Gives (c d : Channel) (delivery : Delivery) : Prop where
  buckets : c.buckets.Perm (delivery.bucket :: d.buckets)
  length : d.partitions.length = c.partitions.length
  partition : delivery.partition < c.partitions.length

theorem gives_takeWith {take : Partition → Option (Bucket × Partition)}
    (htake : ∀ {p b q}, take p = some (b, q) → p.buckets.Perm (b :: q.buckets)) {v : Delivery}
    (h : c.takeWith take i = some (v, d)) : Gives c d v := by
  obtain ⟨p, q, hp, hq, rfl, rfl⟩ := takeWith_eq_some h
  refine ⟨buckets_setPartition_remove hp (htake hq), List.length_set, ?_⟩
  exact (List.getElem?_eq_some_iff.1 hp).1

theorem gives_unstash? {v : Delivery} (h : c.unstash? i = some (v, d)) : Gives c d v :=
  gives_takeWith (fun h => List.Perm.of_eq (Partition.buckets_unstash? h)) h

theorem gives_dequeue? {v : Delivery} (h : c.dequeue? i = some (v, d)) : Gives c d v :=
  gives_takeWith Partition.buckets_dequeue? h

theorem takes_handBack {v : Delivery} (h : v.partition < c.partitions.length) :
    Takes c (c.handBack v) v.bucket := by
  have hp := List.getElem?_eq_getElem h
  unfold handBack
  simp only [hp]
  exact ⟨buckets_setPartition_add hp (.refl _), List.length_set⟩

/-- A receiver that leaves nothing behind takes no buckets away. -/
theorem keeps_close (h : ∀ p, c.partitions[i]? = some p → p.buckets = []) :
    Keeps c (c.close i) := by
  unfold close
  split
  · exact ⟨.refl _, rfl⟩
  · rename_i p hp
    exact keeps_setPartition hp (Partition.buckets_close (h p hp))

end Channel

end BulkRun
