import BulkRun.Proofs.Channel.Operations
/-!
# Publishers in line

A publisher that finds no room gets in line: it waits for a place, and keeps its place in the line
until it has filled it.  In a partition that is orderly nobody waits while there is room, so
publishers in front of an empty queue have been given their places already
(`granted_ne_nil`).  What each operation of a channel does to the lines and to the queues is said
once here: `Publishes`, `Enlists` and `Delivers`.
-/

namespace BulkRun

namespace Partition

variable {p q : Partition} {b : Bucket} {who k : PublisherKey}

/-- The publishers in line. -/
def line (p : Partition) : List PublisherKey := p.waiting ++ p.granted

/-- A partition with a receiver, with nothing handed back, where nobody waits while there is
room. -/
structure IsOrderly (p : Partition) : Prop where
  isOpen : p.isOpen = true
  stash : p.stash = []
  capacity : 0 < p.capacity
  distinct : p.line.Nodup
  crowded : p.waiting ≠ [] → p.capacity ≤ p.queue.length + p.granted.length

theorem orderly_empty (capacity : Nat) : (empty capacity).IsOrderly where
  isOpen := rfl
  stash := rfl
  capacity := Nat.le_max_right capacity 1
  distinct := List.nodup_nil
  crowded h := absurd rfl h

/-- Whoever is in front of an empty queue has been given a place, if anybody waits. -/
theorem granted_ne_nil (h : p.IsOrderly) (hqueue : p.queue = []) (hline : p.line ≠ []) :
    p.granted ≠ [] := by
  intro hgranted
  have hwaiting : p.waiting ≠ [] := by
    intro hnil
    rw [line, hnil, hgranted] at hline
    exact hline rfl
  -- nobody would wait in front of a partition with all its room free
  have hcrowded := h.crowded hwaiting
  have hcapacity := h.capacity
  rw [hqueue, hgranted, List.length_nil, List.length_nil] at hcrowded
  omega

theorem IsOrderly.enqueue (h : p.IsOrderly) : (p.enqueue b).IsOrderly :=
  { h with
    crowded := by
      intro hwaiting
      have hcrowded := h.crowded hwaiting
      show p.capacity ≤ (p.queue ++ [b]).length + p.granted.length
      rw [List.length_append]
      omega }

theorem IsOrderly.enlist (h : p.IsOrderly) (hroom : p.hasRoom = false) (hnew : who ∉ p.line) :
    (p.enlist who).IsOrderly :=
  { h with
    distinct := by
      show ((p.waiting ++ [who]) ++ p.granted).Nodup
      rw [List.append_assoc]
      exact List.perm_middle.symm.nodup (List.nodup_cons.2 ⟨hnew, h.distinct⟩)
    crowded := by
      intro _
      -- whoever gets in line found no room
      have hnot : ¬p.queue.length + p.granted.length < p.capacity := by
        rw [← hasRoom_iff, hroom]
        exact Bool.false_ne_true
      exact Nat.le_of_not_lt hnot }

theorem mem_line_enlist : k ∈ (p.enlist who).line ↔ k ∈ p.line ∨ k = who := by
  simp only [line, enlist, List.mem_append, List.mem_singleton]
  exact or_right_comm

theorem IsOrderly.reserve? (h : p.IsOrderly) (hq : p.reserve? who = some q) (hnew : who ∉ p.line) :
    q.IsOrderly := by
  obtain ⟨-, rfl⟩ := reserve?_eq_some hq
  exact { h with
    distinct := by
      show (p.waiting ++ (p.granted ++ [who])).Nodup
      rw [← List.append_assoc]
      exact (List.perm_append_singleton who _).symm.nodup (List.nodup_cons.2 ⟨hnew, h.distinct⟩)
    crowded := by
      intro hwaiting
      have hcrowded := h.crowded hwaiting
      show p.capacity ≤ p.queue.length + (p.granted ++ [who]).length
      rw [List.length_append]
      omega }

theorem mem_line_reserve? (hq : p.reserve? who = some q) : k ∈ q.line ↔ k ∈ p.line ∨ k = who := by
  obtain ⟨-, rfl⟩ := reserve?_eq_some hq
  simp only [line, List.mem_append, List.mem_singleton]
  exact or_assoc.symm

theorem IsOrderly.fillGranted? (h : p.IsOrderly) (hq : p.fillGranted? who b = some q) :
    q.IsOrderly := by
  obtain ⟨hmem, rfl⟩ := fillGranted?_eq_some hq
  exact { h with
    distinct := by
      refine h.distinct.sublist ?_
      exact (List.erase_sublist).append_left p.waiting
    crowded := by
      intro hwaiting
      -- the place that was kept for the bucket becomes its place in the queue
      have hcrowded := h.crowded hwaiting
      have hpos := List.length_pos_of_mem hmem
      show p.capacity ≤ (p.queue ++ [b]).length + (p.granted.erase who).length
      rw [List.length_append, List.length_erase_of_mem hmem, List.length_singleton]
      omega }

theorem mem_line_fillGranted? (h : p.IsOrderly) (hq : p.fillGranted? who b = some q) :
    k ∈ q.line ↔ k ∈ p.line ∧ k ≠ who := by
  obtain ⟨hmem, rfl⟩ := fillGranted?_eq_some hq
  have hdistinct := List.nodup_append.1 h.distinct
  show k ∈ p.waiting ++ p.granted.erase who ↔ k ∈ p.waiting ++ p.granted ∧ k ≠ who
  rw [List.mem_append, List.mem_append, hdistinct.2.1.mem_erase_iff]
  constructor
  · rintro (hk | ⟨hne, hk⟩)
    · exact ⟨.inl hk, fun heq => hdistinct.2.2 k hk who hmem heq⟩
    · exact ⟨.inr hk, hne⟩
  · rintro ⟨hk | hk, hne⟩
    · exact .inl hk
    · exact .inr ⟨hne, hk⟩

theorem mem_line_grant : k ∈ p.grant.line ↔ k ∈ p.line := by
  unfold grant
  split
  · rfl
  · rename_i first rest hwaiting
    simp only [line, hwaiting, List.mem_append, List.mem_cons, List.not_mem_nil, or_false]
    constructor
    · rintro (h | h | h)
      · exact .inl (.inr h)
      · exact .inr h
      · exact .inl (.inl h)
    · rintro ((h | h) | h)
      · exact .inr (.inr h)
      · exact .inl h
      · exact .inr (.inl h)

theorem IsOrderly.dequeue? (h : p.IsOrderly) (hq : p.dequeue? = some (b, q)) : q.IsOrderly := by
  obtain ⟨rest, hqueue, rfl⟩ := dequeue?_eq_some hq
  have hcrowded := h.crowded
  have hdistinct := h.distinct
  rw [hqueue, List.length_cons] at hcrowded
  rw [line] at hdistinct
  unfold grant
  split
  · rename_i hwaiting
    exact { h with crowded := fun hne => absurd hwaiting hne }
  · -- the freed place goes to the first that waits
    rename_i first others hwaiting
    replace hwaiting : p.waiting = first :: others := hwaiting
    rw [hwaiting] at hcrowded hdistinct
    have hle := hcrowded (List.cons_ne_nil _ _)
    exact { h with
      distinct := by
        show (others ++ (p.granted ++ [first])).Nodup
        rw [← List.append_assoc]
        exact (List.perm_append_singleton first _).symm.nodup hdistinct
      crowded := by
        intro _
        show p.capacity ≤ rest.length + (p.granted ++ [first]).length
        rw [List.length_append, List.length_singleton]
        omega }

end Partition

namespace Channel

variable {c d : Channel} {i : Nat} {p q : Partition} {b : Bucket} {who : PublisherKey}

/-- The buckets that are queued in a partition. -/
def queueAt (c : Channel) (i : Nat) : List Bucket := ((c.partitions[i]?).map (·.queue)).getD []

/-- Whether a publisher is in line in front of a partition. -/
def InLine (c : Channel) (i : Nat) (who : PublisherKey) : Prop :=
  ∃ p, c.partitions[i]? = some p ∧ who ∈ p.line

/-- A channel of orderly partitions, each with the buckets that belong there. -/
structure IsOrderly (c : Channel) : Prop where
  positive : 0 < c.partitions.length
  partitions : ∀ p ∈ c.partitions, p.IsOrderly
  sorted : ∀ i, ∀ b ∈ c.queueAt i, c.partitionFor b.commandId = i

/-- Nothing is queued in a new channel. -/
theorem queueAt_new (partitions capacity i : Nat) : (new partitions capacity).queueAt i = [] := by
  unfold queueAt new
  rw [List.getElem?_replicate]
  split
  · rfl
  · rfl

theorem orderly_new (partitions capacity : Nat) : (new partitions capacity).IsOrderly where
  positive := by
    show 0 < (List.replicate (max partitions 1) (Partition.empty capacity)).length
    rw [List.length_replicate]
    exact Nat.le_max_right partitions 1
  partitions p hp := by
    rw [(List.mem_replicate.1 hp).2]
    exact Partition.orderly_empty capacity
  sorted i b hb := by
    rw [queueAt_new] at hb
    exact absurd hb List.not_mem_nil

theorem queueAt_of_getElem? (h : c.partitions[i]? = some p) : c.queueAt i = p.queue := by
  rw [queueAt, h]
  rfl

theorem inLine_iff (h : c.partitions[i]? = some p) : c.InLine i who ↔ who ∈ p.line := by
  unfold InLine
  rw [h]
  constructor
  · rintro ⟨r, hr, hmem⟩
    rwa [← Option.some.inj hr] at hmem
  · intro hmem
    exact ⟨p, rfl, hmem⟩

theorem exists_partitionFor (h : c.IsOrderly) (id : CommandId) :
    ∃ p, c.partitions[c.partitionFor id]? = some p :=
  ⟨_, List.getElem?_eq_getElem (Nat.mod_lt _ h.positive)⟩

theorem IsOrderly.at (h : c.IsOrderly) (hp : c.partitions[i]? = some p) : p.IsOrderly :=
  h.partitions p (List.mem_of_getElem? hp)

/-! ## Nothing changes in the partitions -/

theorem IsOrderly.congr (h : c.IsOrderly) (heq : d.partitions = c.partitions) : d.IsOrderly := by
  have hsorted := h.sorted
  unfold queueAt partitionFor at hsorted
  exact {
    positive := heq ▸ h.positive
    partitions := heq ▸ h.partitions
    sorted := by
      unfold queueAt partitionFor
      rw [heq]
      exact hsorted }

theorem inLine_congr (heq : d.partitions = c.partitions) : d.InLine i who ↔ c.InLine i who := by
  unfold InLine
  rw [heq]

theorem queueAt_congr (heq : d.partitions = c.partitions) (i : Nat) :
    d.queueAt i = c.queueAt i := by
  unfold queueAt
  rw [heq]

theorem partitionFor_congr (h : d.partitions.length = c.partitions.length) (id : CommandId) :
    d.partitionFor id = c.partitionFor id := by
  unfold partitionFor
  rw [h]

/-! ## One partition changes -/

/-- Whether a channel comes of another by what happens in one partition. -/
structure Alters (c d : Channel) (i : Nat) (p q : Partition) : Prop where
  before : c.partitions[i]? = some p
  after : d.partitions = c.partitions.set i q
  publishers : d.publishers = c.publishers

namespace Alters

theorem length (h : Alters c d i p q) : d.partitions.length = c.partitions.length := by
  rw [h.after, List.length_set]

theorem partitionFor (h : Alters c d i p q) (id : CommandId) :
    d.partitionFor id = c.partitionFor id := by
  rw [Channel.partitionFor, h.length, Channel.partitionFor]

theorem self (h : Alters c d i p q) : d.partitions[i]? = some q := by
  rw [h.after, List.getElem?_set_self (List.getElem?_eq_some_iff.1 h.before).1]

theorem other (h : Alters c d i p q) {j : Nat} (hne : j ≠ i) :
    d.partitions[j]? = c.partitions[j]? := by
  rw [h.after, List.getElem?_set_ne hne.symm]

theorem queueAt_self (h : Alters c d i p q) : d.queueAt i = q.queue := queueAt_of_getElem? h.self

theorem queueAt_other (h : Alters c d i p q) {j : Nat} (hne : j ≠ i) :
    d.queueAt j = c.queueAt j := by
  rw [queueAt, h.other hne, queueAt]

theorem inLine_self (h : Alters c d i p q) : d.InLine i who ↔ who ∈ q.line := inLine_iff h.self

theorem inLine_other (h : Alters c d i p q) {j : Nat} (hne : j ≠ i) :
    d.InLine j who ↔ c.InLine j who := by
  unfold InLine
  rw [h.other hne]

theorem orderly (h : Alters c d i p q) (hc : c.IsOrderly) (hq : q.IsOrderly)
    (hsorted : ∀ b ∈ q.queue, c.partitionFor b.commandId = i) : d.IsOrderly where
  positive := by
    rw [h.length]
    exact hc.positive
  partitions r hr := by
    rw [h.after] at hr
    obtain hr | rfl := List.mem_or_eq_of_mem_set hr
    · exact hc.partitions r hr
    · exact hq
  sorted j b hb := by
    rw [h.partitionFor]
    by_cases hj : j = i
    · subst hj
      rw [h.queueAt_self] at hb
      exact hsorted b hb
    · rw [h.queueAt_other hj] at hb
      exact hc.sorted j b hb

end Alters

theorem alters_setPartition (h : c.partitions[i]? = some p) (q : Partition) :
    Alters c (c.setPartition i q) i p q :=
  ⟨h, rfl, rfl⟩

theorem alters_accept (h : c.partitions[i]? = some p) (q : Partition) :
    Alters c (c.accept i q) i p q :=
  ⟨h, rfl, rfl⟩

/-! ## Publishing -/

/-- What becomes of a channel when a publisher, who is in no line from then on, has published a
bucket. -/
structure Publishes (c d : Channel) (who : PublisherKey) (b : Bucket) : Prop where
  orderly : d.IsOrderly
  length : d.partitions.length = c.partitions.length
  publishers : d.publishers = c.publishers
  line : ∀ i k, d.InLine i k ↔ c.InLine i k ∧ ¬(i = c.partitionFor b.commandId ∧ k = who)
  queue_self : d.queueAt (c.partitionFor b.commandId) =
    c.queueAt (c.partitionFor b.commandId) ++ [b]
  queue_other : ∀ i, i ≠ c.partitionFor b.commandId → d.queueAt i = c.queueAt i

/-- What becomes of a channel when a publisher gets in line with a bucket. -/
structure Enlists (c d : Channel) (who : PublisherKey) (b : Bucket) : Prop where
  orderly : d.IsOrderly
  length : d.partitions.length = c.partitions.length
  publishers : d.publishers = c.publishers
  line : ∀ i k, d.InLine i k ↔ c.InLine i k ∨ i = c.partitionFor b.commandId ∧ k = who
  queue : ∀ i, d.queueAt i = c.queueAt i

theorem Alters.publishes (h : Alters c d (c.partitionFor b.commandId) p q) (hc : c.IsOrderly)
    (hq : q.IsOrderly) (hqueue : q.queue = p.queue ++ [b])
    (hline : ∀ k, k ∈ q.line ↔ k ∈ p.line ∧ k ≠ who) : Publishes c d who b where
  orderly := by
    apply h.orderly hc hq
    intro b' hb'
    rw [hqueue, List.mem_append, List.mem_singleton] at hb'
    obtain hb' | rfl := hb'
    · apply hc.sorted _ b'
      rwa [queueAt_of_getElem? h.before]
    · rfl
  length := h.length
  publishers := h.publishers
  line i k := by
    -- only the line in front of the partition of the bucket changes
    by_cases hi : i = c.partitionFor b.commandId
    · subst hi
      rw [h.inLine_self, inLine_iff h.before, hline]
      simp
    · rw [h.inLine_other hi]
      simp [hi]
  queue_self := by rw [h.queueAt_self, queueAt_of_getElem? h.before, hqueue]
  queue_other _ hne := h.queueAt_other hne

theorem Alters.enlists (h : Alters c d (c.partitionFor b.commandId) p q) (hc : c.IsOrderly)
    (hq : q.IsOrderly) (hqueue : q.queue = p.queue)
    (hline : ∀ k, k ∈ q.line ↔ k ∈ p.line ∨ k = who) : Enlists c d who b where
  orderly := by
    apply h.orderly hc hq
    intro b' hb'
    rw [hqueue] at hb'
    apply hc.sorted _ b'
    rwa [queueAt_of_getElem? h.before]
  length := h.length
  publishers := h.publishers
  line i k := by
    by_cases hi : i = c.partitionFor b.commandId
    · subst hi
      rw [h.inLine_self, inLine_iff h.before, hline]
      simp
    · rw [h.inLine_other hi]
      simp [hi]
  queue i := by
    by_cases hi : i = c.partitionFor b.commandId
    · subst hi
      rw [h.queueAt_self, queueAt_of_getElem? h.before, hqueue]
    · exact h.queueAt_other hi

/-- A publisher that is not in line publishes its bucket, or finds no room and gets in line. -/
theorem offer_of_orderly (hc : c.IsOrderly) (who : PublisherKey) (b : Bucket)
    (hnew : ¬c.InLine (c.partitionFor b.commandId) who) :
    (∃ d, c.offer b = .ok (some d) ∧ Publishes c d who b) ∨
      c.offer b = .ok none ∧ Enlists c (c.enlist who b) who b := by
  obtain ⟨p, hp⟩ := exists_partitionFor hc b.commandId
  rw [inLine_iff hp] at hnew
  have horderly := hc.at hp
  unfold offer enlist
  simp only [hp, horderly.isOpen, Bool.not_true, Bool.false_eq_true, if_false]
  cases hroom : p.hasRoom with
  | true =>
    -- the publisher was in no line, so leaving it out of the lines changes nothing
    rw [if_pos rfl]
    refine .inl ⟨_, rfl, (alters_accept hp _).publishes hc horderly.enqueue rfl ?_⟩
    intro k
    exact ⟨fun hk => ⟨hk, fun heq => hnew (heq ▸ hk)⟩, And.left⟩
  | false =>
    rw [if_neg Bool.false_ne_true]
    exact .inr ⟨rfl, (alters_setPartition hp _).enlists hc (horderly.enlist hroom hnew) rfl
      fun _ => Partition.mem_line_enlist⟩

/-- A publisher to whom a place belongs fills it; any other goes on waiting. -/
theorem claim_of_orderly (hc : c.IsOrderly) (who : PublisherKey) (b : Bucket) :
    (∃ d, c.claim who b = .ok (some d) ∧ Publishes c d who b) ∨
      c.claim who b = .ok none ∧
        ∀ p, c.partitions[c.partitionFor b.commandId]? = some p → who ∉ p.granted := by
  obtain ⟨p, hp⟩ := exists_partitionFor hc b.commandId
  have horderly := hc.at hp
  unfold claim
  simp only [hp, horderly.isOpen, Bool.not_true, Bool.false_eq_true, if_false]
  cases hq : p.fillGranted? who b with
  | some q =>
    refine .inl ⟨_, rfl, (alters_accept hp _).publishes hc (horderly.fillGranted? hq) ?_
      fun _ => Partition.mem_line_fillGranted? horderly hq⟩
    obtain ⟨-, rfl⟩ := Partition.fillGranted?_eq_some hq
    rfl
  | none =>
    refine .inr ⟨rfl, ?_⟩
    intro p' hp' hmem
    obtain rfl := Option.some.inj hp'
    rw [Partition.fillGranted?, if_pos (List.contains_iff_mem.2 hmem)] at hq
    exact absurd hq (by simp)

theorem reserve?_of_orderly (hc : c.IsOrderly) (hnew : ¬c.InLine (c.partitionFor b.commandId) who)
    (h : c.reserve? who b = some d) : Enlists c d who b := by
  obtain ⟨p, q, hp, hq, rfl⟩ := reserve?_eq_some h
  rw [inLine_iff hp] at hnew
  refine (alters_setPartition hp q).enlists hc ((hc.at hp).reserve? hq hnew) ?_
    fun _ => Partition.mem_line_reserve? hq
  obtain ⟨-, rfl⟩ := Partition.reserve?_eq_some hq
  rfl

/-! ## Receiving -/

/-- What becomes of a channel when the first bucket of a queue is received. -/
structure Delivers (c d : Channel) (i : Nat) (b : Bucket) : Prop where
  orderly : d.IsOrderly
  length : d.partitions.length = c.partitions.length
  publishers : d.publishers = c.publishers
  line : ∀ j k, d.InLine j k ↔ c.InLine j k
  queue_self : c.queueAt i = b :: d.queueAt i
  queue_other : ∀ j, j ≠ i → d.queueAt j = c.queueAt j

/-- Nothing is handed back in an orderly channel. -/
theorem unstash?_of_orderly (hc : c.IsOrderly) (i : Nat) : c.unstash? i = none := by
  unfold unstash? takeWith
  split
  · rfl
  · rename_i p hp
    rw [Partition.unstash?, (hc.at hp).stash]
    rfl

theorem dequeue?_of_orderly (hc : c.IsOrderly) {v : Delivery} (h : c.dequeue? i = some (v, d)) :
    v.partition = i ∧ Delivers c d i v.bucket := by
  obtain ⟨p, q, hp, hq, rfl, rfl⟩ := takeWith_eq_some h
  obtain ⟨rest, hqueue, hgrant⟩ := Partition.dequeue?_eq_some hq
  have halters := alters_setPartition hp q
  -- who waits does not matter for what is queued
  have hrest : q.queue = rest := by rw [hgrant, Partition.queue_grant]
  refine ⟨rfl, ?_, halters.length, halters.publishers, ?_, ?_, ?_⟩
  · apply halters.orderly hc ((hc.at hp).dequeue? hq)
    intro b hb
    apply hc.sorted v.partition b
    rw [queueAt_of_getElem? hp, hqueue, ← hrest]
    exact List.mem_cons_of_mem v.bucket hb
  · intro j k
    by_cases hj : j = v.partition
    · subst hj
      rw [halters.inLine_self, inLine_iff hp, hgrant, Partition.mem_line_grant]
      rfl
    · exact halters.inLine_other hj
  · rw [halters.queueAt_self, queueAt_of_getElem? hp, hqueue, hrest]
  · exact fun j hj => halters.queueAt_other hj

/-- Nothing can be received only where nothing is queued. -/
theorem queueAt_of_dequeue?_none (h : c.dequeue? i = none) : c.queueAt i = [] := by
  unfold dequeue? takeWith at h
  split at h
  · rename_i hp
    rw [queueAt, hp]
    rfl
  · rename_i p hp
    rw [queueAt_of_getElem? hp]
    cases hqueue : p.queue with
    | nil => rfl
    | cons b rest =>
      rw [Partition.dequeue?, hqueue] at h
      exact absurd h (by simp)

/-! ## The queued buckets of one command -/

/-- The buckets of a command that are queued, all of them in its partition. -/
def queueFor (c : Channel) (id : CommandId) : List Bucket :=
  (c.queueAt (c.partitionFor id)).filter (·.commandId == id)

variable {id : CommandId}

theorem queueFor_congr (heq : d.partitions = c.partitions) (id : CommandId) :
    d.queueFor id = c.queueFor id := by
  unfold queueFor
  rw [partitionFor_congr (congrArg List.length heq), queueAt_congr heq]

theorem Enlists.queueFor (h : Enlists c d who b) (id : CommandId) :
    d.queueFor id = c.queueFor id := by
  unfold Channel.queueFor
  rw [partitionFor_congr h.length, h.queue]

/-- A bucket that is published is the last of its command. -/
theorem Publishes.queueFor_self (h : Publishes c d who b) (hb : b.commandId = id) :
    d.queueFor id = c.queueFor id ++ [b] := by
  subst hb
  unfold queueFor
  rw [partitionFor_congr h.length, h.queue_self, List.filter_append]
  simp

theorem Publishes.queueFor_other (h : Publishes c d who b) (hb : b.commandId ≠ id) :
    d.queueFor id = c.queueFor id := by
  unfold queueFor
  rw [partitionFor_congr h.length]
  by_cases hi : c.partitionFor id = c.partitionFor b.commandId
  · rw [hi, h.queue_self, List.filter_append]
    simp [hb]
  · rw [h.queue_other _ hi]

/-- A bucket that is received was the first of its command. -/
theorem Delivers.queueFor_self (h : Delivers c d i b) (hc : c.IsOrderly) (hb : b.commandId = id) :
    c.queueFor id = b :: d.queueFor id := by
  have hi : c.partitionFor b.commandId = i := by
    apply hc.sorted i b
    rw [h.queue_self]
    exact List.mem_cons_self
  subst hb hi
  unfold queueFor
  rw [partitionFor_congr h.length, h.queue_self, List.filter_cons_of_pos (by simp)]

theorem Delivers.queueFor_other (h : Delivers c d i b) (hb : b.commandId ≠ id) :
    d.queueFor id = c.queueFor id := by
  unfold queueFor
  rw [partitionFor_congr h.length]
  by_cases hi : c.partitionFor id = i
  · rw [hi, h.queue_self, List.filter_cons_of_neg (by simpa using hb)]
  · rw [h.queue_other _ hi]

end Channel

end BulkRun
