import BulkRun.Bucket
/-!
# Batches

A batch is the part of a bucket that is worked on within one transaction.
-/

namespace BulkRun

/-- A run of records of a bucket. -/
structure Batch where
  /-- The number of batches of the bucket before this one. -/
  index : Nat
  /-- The number of records of the bucket before the first of this batch. -/
  offset : Nat
  ids : List String
deriving DecidableEq, Repr

/-- The batches of a bucket's records; a size of zero counts as one. -/
def batches (ids : List String) (size : Nat) : List Batch :=
  (chunks (max size 1) ids).mapIdx fun n c => ⟨n, n * max size 1, c⟩

/-- The number of batches of a bucket of `length` records. -/
def batchCount (length size : Nat) : Nat :=
  (length + (max size 1 - 1)) / max size 1

end BulkRun
