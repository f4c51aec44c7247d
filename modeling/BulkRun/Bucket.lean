import BulkRun.Chunks
import BulkRun.Command.Basic
/-!
# Buckets

A bucket is a run of records of one command, handed to a worker as a whole.  All buckets of a
command but the last hold as many records as its bucket size says, and they are numbered from zero.

`bucketize` cuts a list of records that is known as a whole, while a `Bucketizer` is given the
records piece by piece, as a scroll finds them.
-/

namespace BulkRun

/-- Records of one command. -/
structure Bucket where
  commandId : CommandId
  /-- The number of buckets of the command before this one. -/
  sequence : Nat
  ids : List String
deriving DecidableEq, Repr

/-- The most records that room can be set aside for at once.  A record is kept by a handle of three
words, and no block of memory is larger than the greatest signed word. -/
def maxReserved : Nat := (signedCount - 1) / 24

/-- The records `stem-0`, `stem-1`, … -/
def recordIds (stem : String) (count : Nat) : List String :=
  (List.range count).map fun n => stem ++ "-" ++ Text.ofNat n

/-- Cuts a list of records into buckets. -/
def bucketize (id : CommandId) (ids : List String) (size : Nat) :
    Except CommandFault (List Bucket) :=
  if size = 0 then .error .zeroBucketSize
  else .ok ((chunks size ids).mapIdx fun n c => ⟨id, n, c⟩)

/-- A bucket that is being filled. -/
structure Bucketizer where
  commandId : CommandId
  size : Nat
  /-- The number of buckets filled so far. -/
  emitted : Nat
  /-- The records of the bucket to come. -/
  pending : List String
deriving DecidableEq, Repr

namespace Bucketizer

/-- A bucketizer that has been given no record yet. -/
def new (id : CommandId) (size : Nat) : Except CommandFault Bucketizer :=
  if size = 0 then .error .zeroBucketSize else .ok ⟨id, size, 0, []⟩

/-- The pending records as a bucket. -/
def pendingBucket (b : Bucketizer) : Bucket := ⟨b.commandId, b.emitted, b.pending⟩

/-- Takes records; the buckets that they fill. -/
def push (b : Bucketizer) (ids : List String) : List Bucket × Bucketizer :=
  let all := b.pending ++ ids
  let count := all.length / b.size
  let full := chunks b.size (all.take (count * b.size))
  (full.mapIdx fun n c => ⟨b.commandId, b.emitted + n, c⟩,
    { b with emitted := b.emitted + count, pending := all.drop (count * b.size) })

/-- The last bucket, when records are pending. -/
def finish (b : Bucketizer) : Option Bucket :=
  if b.pending.isEmpty then none else some b.pendingBucket

end Bucketizer

end BulkRun
