import BulkRun.Channel.Partition
/-!
# The bucket channel

Buckets travel from publishers to receivers through partitions.  All buckets of a command go through
the same partition, so they arrive in the order in which they were published.  A delivery is
acknowledged once its bucket was worked on, or handed back to be delivered again.
-/

namespace BulkRun

/-- How many buckets were published, acknowledged and handed back. -/
structure ChannelStats where
  published : Nat
  acknowledged : Nat
  redelivered : Nat
deriving DecidableEq, Repr

/-- The partitions, and the number of holders that may still publish. -/
structure Channel where
  partitions : List Partition
  stats : ChannelStats
  publishers : Nat
deriving DecidableEq, Repr

/-- A bucket in the hands of a receiver. -/
structure Delivery where
  bucket : Bucket
  partition : Nat
deriving DecidableEq, Repr

namespace Channel

/-- A channel of at least one partition, with one publisher. -/
def new (partitions capacity : Nat) : Channel :=
  ⟨List.replicate (max partitions 1) (.empty capacity), ⟨0, 0, 0⟩, 1⟩

/-- The partition of a command. -/
def partitionFor (c : Channel) (id : CommandId) : Nat := id.toNat % c.partitions.length

/-- Puts a partition in the place of another. -/
def setPartition (c : Channel) (i : Nat) (p : Partition) : Channel :=
  { c with partitions := c.partitions.set i p }

/-- The error of publishing to a partition without a receiver. -/
def closedError (i : Nat) : Error := .channel ("partition " ++ Text.ofNat i ++ " is closed")

/-- The channel after a bucket was put into a partition. -/
def accept (c : Channel) (i : Nat) (p : Partition) : Channel :=
  { c.setPartition i p with stats := { c.stats with published := c.stats.published + 1 } }

/-- Publishes a bucket if there is room; `none` when the publisher has to wait. -/
def offer (c : Channel) (b : Bucket) : Except Error (Option Channel) :=
  let i := c.partitionFor b.commandId
  match c.partitions[i]? with
  | none => .error (closedError i)
  | some p =>
    if !p.isOpen then .error (closedError i)
    else if p.hasRoom then .ok (some (c.accept i (p.enqueue b)))
    else .ok none

/-- Gives a publisher a place for a bucket, if there is one. -/
def reserve? (c : Channel) (who : PublisherKey) (b : Bucket) : Option Channel :=
  let i := c.partitionFor b.commandId
  (c.partitions[i]?.bind fun p => p.reserve? who).map (c.setPartition i)

/-- Lets a publisher wait for a place for a bucket. -/
def enlist (c : Channel) (who : PublisherKey) (b : Bucket) : Channel :=
  let i := c.partitionFor b.commandId
  match c.partitions[i]? with
  | none => c
  | some p => c.setPartition i (p.enlist who)

/-- Publishes the bucket of a publisher that waited; `none` when it goes on waiting. -/
def claim (c : Channel) (who : PublisherKey) (b : Bucket) : Except Error (Option Channel) :=
  let i := c.partitionFor b.commandId
  match c.partitions[i]? with
  | none => .error (closedError i)
  | some p =>
    if !p.isOpen then .error (closedError i)
    else .ok ((p.fillGranted? who b).map (c.accept i))

/-- Takes a bucket out of a partition. -/
def takeWith (take : Partition → Option (Bucket × Partition)) (c : Channel) (i : Nat) :
    Option (Delivery × Channel) :=
  match c.partitions[i]? with
  | none => none
  | some p => (take p).map fun (b, p) => (⟨b, i⟩, c.setPartition i p)

/-- Receives the next bucket of a partition, if there is one. -/
def take? (c : Channel) (i : Nat) : Option (Delivery × Channel) := c.takeWith Partition.take? i

/-- Receives the last bucket that was handed back. -/
def unstash? (c : Channel) (i : Nat) : Option (Delivery × Channel) :=
  c.takeWith Partition.unstash? i

/-- Receives the oldest bucket of the queue. -/
def dequeue? (c : Channel) (i : Nat) : Option (Delivery × Channel) :=
  c.takeWith Partition.dequeue? i

/-- Acknowledges a delivery. -/
def acknowledge (c : Channel) : Channel :=
  { c with stats := { c.stats with acknowledged := c.stats.acknowledged + 1 } }

/-- Hands a delivery back, to be the next that its partition delivers. -/
def handBack (c : Channel) (d : Delivery) : Channel :=
  let c := { c with stats := { c.stats with redelivered := c.stats.redelivered + 1 } }
  match c.partitions[d.partition]? with
  | none => c
  | some p => c.setPartition d.partition (p.restore d.bucket)

/-- The number of buckets that a partition has to deliver. -/
def backlog (c : Channel) (i : Nat) : Nat :=
  (c.partitions[i]?.map fun p => p.queue.length + p.stash.length).getD 0

/-- Receives and acknowledges buckets of a partition, at most so many. -/
def drain (i : Nat) : Nat → Channel → List Bucket × Channel
  | 0, c => ([], c)
  | count + 1, c =>
    match c.take? i with
    | none => ([], c)
    | some (d, c) =>
      let (more, c) := drain i count c.acknowledge
      (d.bucket :: more, c)

/-- Removes the receiver of a partition. -/
def close (c : Channel) (i : Nat) : Channel :=
  match c.partitions[i]? with
  | none => c
  | some p => c.setPartition i p.close

/-- The partitions that have a receiver. -/
def openPartitions (c : Channel) : List Nat :=
  (List.range c.partitions.length).filter fun i => (c.partitions[i]?.map (·.isOpen)).getD false

/-- Whether nothing more can be published. -/
def isFinished (c : Channel) : Bool := c.publishers == 0

/-- One more holder may publish. -/
def addPublisher (c : Channel) : Channel := { c with publishers := c.publishers + 1 }

/-- One holder will publish no more. -/
def dropPublisher (c : Channel) : Channel := { c with publishers := c.publishers - 1 }

end Channel

end BulkRun
