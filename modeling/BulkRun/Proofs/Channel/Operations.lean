import BulkRun.Channel.Basic
/-!
# What the operations of a channel do

Read backwards: when an operation of a partition or of a channel gave something, how the partition
stood before it and what became of it.  An operation of a channel is one of the partition it is
about; nothing else of the channel changes but its counts.
-/

namespace BulkRun

namespace Partition

variable {p q : Partition} {b : Bucket} {who : PublisherKey}

theorem hasRoom_iff : p.hasRoom = true ↔ p.queue.length + p.granted.length < p.capacity := by
  simp [hasRoom]

theorem queue_grant : p.grant.queue = p.queue := by
  unfold grant
  split <;> rfl

@[simp]
theorem stash_grant (p : Partition) : p.grant.stash = p.stash := by
  unfold grant
  split <;> rfl

theorem reserve?_eq_some (hq : p.reserve? who = some q) :
    p.hasRoom = true ∧ q = { p with granted := p.granted ++ [who] } := by
  unfold reserve? at hq
  split at hq
  · rename_i hroom
    rw [Bool.and_eq_true] at hroom
    exact ⟨hroom.2, (Option.some.inj hq).symm⟩
  · exact absurd hq (by simp)

theorem fillGranted?_eq_some (hq : p.fillGranted? who b = some q) :
    who ∈ p.granted ∧ q = { p with granted := p.granted.erase who }.enqueue b := by
  unfold fillGranted? at hq
  split at hq
  · rename_i hmem
    exact ⟨List.contains_iff_mem.1 hmem, (Option.some.inj hq).symm⟩
  · exact absurd hq (by simp)

theorem dequeue?_eq_some (hq : p.dequeue? = some (b, q)) :
    ∃ rest, p.queue = b :: rest ∧ q = { p with queue := rest }.grant := by
  unfold dequeue? at hq
  split at hq
  · exact absurd hq (by simp)
  · rename_i first rest hqueue
    obtain ⟨rfl, rfl⟩ := Prod.mk.inj (Option.some.inj hq)
    exact ⟨rest, hqueue, rfl⟩

theorem unstash?_eq_some (h : p.unstash? = some (b, q)) :
    ∃ rest, p.stash = b :: rest ∧ q = { p with stash := rest } := by
  unfold unstash? at h
  split at h
  · exact absurd h (by simp)
  · rename_i first rest hstash
    obtain ⟨rfl, rfl⟩ := Prod.mk.inj (Option.some.inj h)
    exact ⟨rest, hstash, rfl⟩

/-- A bucket is taken from the stash, and from the queue only when the stash is empty. -/
theorem take?_eq_some (h : p.take? = some (b, q)) :
    (∃ rest, p.stash = b :: rest ∧ q = { p with stash := rest }) ∨
      p.stash = [] ∧ p.dequeue? = some (b, q) := by
  unfold take? at h
  split at h
  · rename_i r hr
    exact .inl (unstash?_eq_some (hr.trans h))
  · rename_i hnone
    refine .inr ⟨?_, h⟩
    unfold unstash? at hnone
    split at hnone
    · assumption
    · exact absurd hnone (by simp)

end Partition

namespace Channel

variable {c d : Channel} {b : Bucket} {i : Nat} {who : PublisherKey} {v : Delivery}

theorem offer_eq_some (h : c.offer b = .ok (some d)) :
    ∃ p, c.partitions[c.partitionFor b.commandId]? = some p ∧ p.hasRoom = true ∧
      d = c.accept (c.partitionFor b.commandId) (p.enqueue b) := by
  unfold offer at h
  dsimp only at h
  split at h
  · exact absurd h (by simp)
  · rename_i p hp
    split at h
    · exact absurd h (by simp)
    · split at h
      · rename_i hroom
        exact ⟨p, hp, hroom, (Option.some.inj (Except.ok.inj h)).symm⟩
      · exact absurd h (by simp)

theorem claim_eq_some (h : c.claim who b = .ok (some d)) :
    ∃ p q, c.partitions[c.partitionFor b.commandId]? = some p ∧ p.fillGranted? who b = some q ∧
      d = c.accept (c.partitionFor b.commandId) q := by
  unfold claim at h
  dsimp only at h
  split at h
  · exact absurd h (by simp)
  · rename_i p hp
    split at h
    · exact absurd h (by simp)
    · obtain ⟨q, hq, rfl⟩ := Option.map_eq_some_iff.1 (Except.ok.inj h)
      exact ⟨p, q, hp, hq, rfl⟩

theorem reserve?_eq_some (h : c.reserve? who b = some d) :
    ∃ p q, c.partitions[c.partitionFor b.commandId]? = some p ∧ p.reserve? who = some q ∧
      d = c.setPartition (c.partitionFor b.commandId) q := by
  obtain ⟨q, hq, rfl⟩ := Option.map_eq_some_iff.1 h
  obtain ⟨p, hp, hq⟩ := Option.bind_eq_some_iff.1 hq
  exact ⟨p, q, hp, hq, rfl⟩

theorem enlist_cases (c : Channel) (who : PublisherKey) (b : Bucket) :
    c.enlist who b = c ∨ ∃ p, c.partitions[c.partitionFor b.commandId]? = some p ∧
      c.enlist who b = c.setPartition (c.partitionFor b.commandId) (p.enlist who) := by
  unfold enlist
  dsimp only
  split
  · exact .inl rfl
  · rename_i p hp
    exact .inr ⟨p, hp, rfl⟩

theorem takeWith_eq_some {take : Partition → Option (Bucket × Partition)}
    (h : c.takeWith take i = some (v, d)) :
    ∃ p q, c.partitions[i]? = some p ∧ take p = some (v.bucket, q) ∧ v.partition = i ∧
      d = c.setPartition i q := by
  unfold takeWith at h
  split at h
  · exact absurd h (by simp)
  · rename_i p hp
    obtain ⟨⟨b, q⟩, hq, hvd⟩ := Option.map_eq_some_iff.1 h
    obtain ⟨rfl, rfl⟩ := Prod.mk.inj hvd
    exact ⟨p, q, hp, hq, rfl, rfl⟩

end Channel

end BulkRun
