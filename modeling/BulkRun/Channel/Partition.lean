import BulkRun.Bucket
/-!
# Partitions

A partition is a bounded queue of buckets with one receiver.  A bucket that its receiver hands back
goes to a stash, which is served before the queue.

Publishers that find the queue full wait in a line.  Each place that is freed in the queue belongs
to the first in the line from then on, who fills it when its turn comes; until then it counts as
taken.
-/

namespace BulkRun

/-- The name by which a waiting publisher is known. -/
abbrev PublisherKey := Nat

/-- A bounded queue of buckets. -/
structure Partition where
  capacity : Nat
  /-- Buckets published and not yet received, oldest first. -/
  queue : List Bucket
  /-- Buckets handed back, the last one first. -/
  stash : List Bucket
  /-- Publishers without a place, in the order in which they came. -/
  waiting : List PublisherKey
  /-- Publishers to whom a freed place belongs. -/
  granted : List PublisherKey
  /-- Whether the receiver is still there. -/
  isOpen : Bool
deriving DecidableEq, Repr

namespace Partition

/-- A partition without buckets; it has room for at least one. -/
def empty (capacity : Nat) : Partition := ⟨max capacity 1, [], [], [], [], true⟩

/-- Whether a place is free that belongs to nobody. -/
def hasRoom (p : Partition) : Bool := p.queue.length + p.granted.length < p.capacity

/-- Puts a bucket at the end of the queue. -/
def enqueue (p : Partition) (b : Bucket) : Partition := { p with queue := p.queue ++ [b] }

/-- Lets a publisher wait for a place. -/
def enlist (p : Partition) (who : PublisherKey) : Partition :=
  { p with waiting := p.waiting ++ [who] }

/-- Gives a freed place to the first waiting publisher. -/
def grant (p : Partition) : Partition :=
  match p.waiting with
  | [] => p
  | who :: rest => { p with waiting := rest, granted := p.granted ++ [who] }

/-- Gives a free place to a publisher who will fill it later. -/
def reserve? (p : Partition) (who : PublisherKey) : Option Partition :=
  if p.isOpen && p.hasRoom then some { p with granted := p.granted ++ [who] } else none

/-- Fills the place that belongs to a publisher; `none` when none does. -/
def fillGranted? (p : Partition) (who : PublisherKey) (b : Bucket) : Option Partition :=
  if p.granted.contains who then some ({ p with granted := p.granted.erase who }.enqueue b)
  else none

/-- Takes the oldest bucket of the queue, which frees its place. -/
def dequeue? (p : Partition) : Option (Bucket × Partition) :=
  match p.queue with
  | [] => none
  | b :: rest => some (b, { p with queue := rest }.grant)

/-- Takes the last bucket handed back. -/
def unstash? (p : Partition) : Option (Bucket × Partition) :=
  match p.stash with
  | [] => none
  | b :: rest => some (b, { p with stash := rest })

/-- Takes the next bucket: the stash is served before the queue. -/
def take? (p : Partition) : Option (Bucket × Partition) :=
  match p.unstash? with
  | some r => some r
  | none => p.dequeue?

/-- Puts a bucket back. -/
def restore (p : Partition) (b : Bucket) : Partition := { p with stash := b :: p.stash }

/-- Removes the receiver with all the buckets there are. -/
def close (p : Partition) : Partition := { p with queue := [], stash := [], isOpen := false }

end Partition

end BulkRun
