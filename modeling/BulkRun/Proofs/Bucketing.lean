import BulkRun.Batch
import Mathlib.Algebra.GroupWithZero.Nat
/-!
# Grouping records

A bucketizer and the batches of a bucket cut a list of records without losing, repeating or
reordering any.  A bucketizer does so piece by piece: what it has handed out and what is pending are
together what it was given (`records_push`), and its buckets are numbered in order.  It takes the
records one after the other, and hands out a bucket when it is full (`push_cons`).
-/

namespace BulkRun

section Chunks

variable {α : Type} {size : Nat}

/-- A list that makes whole pieces makes as many as its length says. -/
theorem length_chunks_of_eq_mul (hs : 0 < size) {xs : List α} {n : Nat}
    (h : xs.length = n * size) : (chunks size xs).length = n := by
  induction n generalizing xs with
  | zero =>
    rw [Nat.zero_mul, List.length_eq_zero_iff] at h
    rw [h, chunks_nil]
    rfl
  | succ n ih =>
    rw [Nat.succ_mul] at h
    have hne : xs ≠ [] := by
      rintro rfl
      rw [List.length_nil] at h
      omega
    rw [chunks_of_ne_nil hne hs, List.length_cons, ih]
    rw [List.length_drop]
    omega

/-- Whole pieces may be cut off first. -/
theorem chunks_append (hs : 0 < size) {xs : List α} {n : Nat} (h : xs.length = n * size)
    (ys : List α) : chunks size (xs ++ ys) = chunks size xs ++ chunks size ys := by
  induction n generalizing xs with
  | zero =>
    rw [Nat.zero_mul, List.length_eq_zero_iff] at h
    rw [h, chunks_nil, List.nil_append, List.nil_append]
  | succ n ih =>
    rw [Nat.succ_mul] at h
    have hne : xs ≠ [] := by
      rintro rfl
      rw [List.length_nil] at h
      omega
    have hle : size ≤ xs.length := by omega
    rw [chunks_of_ne_nil hne hs, chunks_of_ne_nil (List.append_ne_nil_of_left_ne_nil hne ys) hs,
      List.take_append_of_le_length hle, List.drop_append_of_le_length hle, ih, List.cons_append]
    rw [List.length_drop]
    omega

/-- Pieces that are numbered and labelled are the pieces of the same list. -/
theorem flatMap_mapIdx {β : Type} {label : Nat → List α → β} {items : β → List α}
    (h : ∀ n xs, items (label n xs) = xs) (pieces : List (List α)) :
    (pieces.mapIdx label).flatMap items = pieces.flatten := by
  rw [List.flatMap_def]
  congr 1
  apply List.ext_getElem (by simp)
  intro n hn hn'
  simp [h]

end Chunks

/-- The records of some buckets, in order. -/
def recordsOf (buckets : List Bucket) : List String := buckets.flatMap (·.ids)

theorem length_recordsOf (buckets : List Bucket) :
    (recordsOf buckets).length = (buckets.map (·.ids.length)).sum := by
  rw [recordsOf, List.length_flatMap]

@[simp]
theorem recordsOf_nil : recordsOf [] = [] := rfl

@[simp]
theorem recordsOf_cons (b : Bucket) (buckets : List Bucket) :
    recordsOf (b :: buckets) = b.ids ++ recordsOf buckets := rfl

@[simp]
theorem recordsOf_append (front rear : List Bucket) :
    recordsOf (front ++ rear) = recordsOf front ++ recordsOf rear :=
  List.flatMap_append

namespace Bucketizer

variable (b : Bucketizer) (ids : List String)

/-- The buckets that are filled and the records that are pending are all records there were. -/
theorem records_push :
    recordsOf (b.push ids).1 ++ (b.push ids).2.pending = b.pending ++ ids := by
  have hflat (pieces : List (List String)) :
      recordsOf (pieces.mapIdx fun n c => ⟨b.commandId, b.emitted + n, c⟩) = pieces.flatten :=
    flatMap_mapIdx (fun _ _ => rfl) pieces
  simp only [push, hflat]
  obtain hs | hs := Nat.eq_zero_or_pos b.size
  · simp [hs]
  · rw [flatten_chunks hs, List.take_append_drop]

theorem emitted_push : (b.push ids).2.emitted = b.emitted + (b.push ids).1.length := by
  simp only [push, List.length_mapIdx]
  obtain hs | hs := Nat.eq_zero_or_pos b.size
  · simp [hs]
  · congr 1
    refine (length_chunks_of_eq_mul hs ?_).symm
    rw [List.length_take]
    exact Nat.min_eq_left (Nat.div_mul_le_self _ _)

/-- The filled buckets have the next numbers. -/
theorem sequence_push :
    (b.push ids).1.map (·.sequence) = List.range' b.emitted (b.push ids).1.length := by
  apply List.ext_getElem (by simp)
  intro n hn hn'
  simp [push]

theorem commandId_of_mem_push {c : Bucket} (h : c ∈ (b.push ids).1) :
    c.commandId = b.commandId := by
  obtain ⟨n, hn, rfl⟩ := List.mem_mapIdx.1 h
  rfl

theorem length_push :
    ((b.push ids).1.map (·.ids.length)).sum + (b.push ids).2.pending.length =
      b.pending.length + ids.length := by
  rw [← length_recordsOf, ← List.length_append, records_push, List.length_append]

/-- What is pending after a push never fills a bucket. -/
theorem pending_push_lt {b : Bucketizer} (hs : 0 < b.size) (ids : List String) :
    (b.push ids).2.pending.length < b.size := by
  simp only [push, List.length_drop]
  have hmod := Nat.mod_lt (b.pending ++ ids).length hs
  have hdiv := Nat.div_add_mod (b.pending ++ ids).length b.size
  rw [Nat.mul_comm] at hdiv
  omega

/-- What is given to a bucketizer in two parts fills the same buckets as what is given at once. -/
theorem push_append {b : Bucketizer} (hs : 0 < b.size) (xs ys : List String) :
    b.push (xs ++ ys) =
      ((b.push xs).1 ++ ((b.push xs).2.push ys).1, ((b.push xs).2.push ys).2) := by
  obtain ⟨id, size, emitted, pending⟩ := b
  replace hs : 0 < size := hs
  -- `front` makes whole buckets, and `rest` is pending before the second part comes
  obtain ⟨n, front, rest, hfront, hall⟩ : ∃ n front rest, front.length = n * size ∧
      pending ++ xs = front ++ rest ∧ (pending ++ xs).length / size = n ∧
      (pending ++ xs).take (n * size) = front ∧ (pending ++ xs).drop (n * size) = rest := by
    refine ⟨_, _, _, ?_, (List.take_append_drop _ _).symm, rfl, rfl, rfl⟩
    rw [List.length_take]
    exact Nat.min_eq_left (Nat.div_mul_le_self _ _)
  obtain ⟨hsplit, hcount, htake, hdrop⟩ := hall
  have hwhole : pending ++ (xs ++ ys) = front ++ (rest ++ ys) := by
    rw [← List.append_assoc, hsplit, List.append_assoc]
  have htotal : (front ++ (rest ++ ys)).length / size = n + (rest ++ ys).length / size := by
    rw [List.length_append, hfront, Nat.add_comm, Nat.add_mul_div_right _ _ hs, Nat.add_comm]
  have hpast : (n + (rest ++ ys).length / size) * size =
      front.length + (rest ++ ys).length / size * size := by rw [Nat.add_mul, hfront]
  simp only [push, hcount, htake, hdrop, hwhole, htotal, hpast]
  rw [List.take_length_add_append, List.drop_length_add_append, chunks_append hs hfront,
    List.mapIdx_append, length_chunks_of_eq_mul hs hfront]
  simp only [Nat.add_assoc, Nat.add_comm n]

/-! ### Record by record -/

/-- Takes one record; the bucket that it fills, if it does. -/
def pushOne (b : Bucketizer) (id : String) : Option Bucket × Bucketizer :=
  let more : Bucketizer := { b with pending := b.pending ++ [id] }
  if more.pending.length = b.size then
    (some more.pendingBucket, { b with emitted := b.emitted + 1, pending := [] })
  else (none, more)

/-- Without records nothing changes. -/
theorem push_nil {b : Bucketizer} (h : b.pending.length < b.size) : b.push [] = ([], b) := by
  have hzero : b.pending.length / b.size = 0 := Nat.div_eq_of_lt h
  simp [push, hzero]

/-- One record is appended to those that are pending, and the bucket is handed out when it is
full. -/
theorem push_singleton {b : Bucketizer} (h : b.pending.length < b.size) (id : String) :
    b.push [id] = ((b.pushOne id).1.toList, (b.pushOne id).2) := by
  have hlength : (b.pending ++ [id]).length = b.pending.length + 1 := List.length_append
  by_cases hfull : (b.pending ++ [id]).length = b.size
  · have hone : (b.pending ++ [id]).length / b.size = 1 := by
      rw [hfull, Nat.div_self (Nat.zero_lt_of_lt h)]
    have hle : (b.pending ++ [id]).length ≤ b.size := Nat.le_of_eq hfull
    simp only [push, pushOne, hone, Nat.one_mul, if_pos hfull, List.take_of_length_le hle,
      List.drop_of_length_le hle, chunks_of_length_le (List.concat_ne_nil id b.pending) hle]
    rfl
  · have hzero : (b.pending ++ [id]).length / b.size = 0 := Nat.div_eq_of_lt (by omega)
    simp only [push, pushOne, hzero, Nat.zero_mul, if_neg hfull, List.take_zero, List.drop_zero,
      chunks_nil]
    rfl

/-- Records are taken one after the other. -/
theorem push_cons {b : Bucketizer} (h : b.pending.length < b.size) (id : String)
    (ids : List String) :
    b.push (id :: ids) = ((b.pushOne id).1.toList ++ ((b.pushOne id).2.push ids).1,
      ((b.pushOne id).2.push ids).2) := by
  rw [← List.singleton_append, push_append (Nat.zero_lt_of_lt h), push_singleton h]

/-- What a bucketizer makes of some records, the last bucket included, is what they are cut into. -/
theorem bucketize_of_push {id : CommandId} {size : Nat} (hs : 0 < size) (ids : List String) :
    bucketize id ids size = .ok ((push ⟨id, size, 0, []⟩ ids).1 ++
      (push ⟨id, size, 0, []⟩ ids).2.finish.toList) := by
  have hlength : (ids.take (ids.length / size * size)).length = ids.length / size * size := by
    rw [List.length_take]
    exact Nat.min_eq_left (Nat.div_mul_le_self _ _)
  have hcut := chunks_append hs hlength (ids.drop (ids.length / size * size))
  rw [List.take_append_drop] at hcut
  have hrest : (ids.drop (ids.length / size * size)).length ≤ size := by
    rw [List.length_drop]
    have hmod := Nat.mod_lt ids.length hs
    have hdiv := Nat.div_add_mod ids.length size
    rw [Nat.mul_comm] at hdiv
    omega
  rw [bucketize, if_neg (Nat.pos_iff_ne_zero.1 hs), hcut, List.mapIdx_append,
    length_chunks_of_eq_mul hs hlength]
  simp only [push, List.nil_append, finish, pendingBucket, Nat.zero_add]
  by_cases hnil : ids.drop (ids.length / size * size) = []
  · rw [hnil, chunks_nil]
    rfl
  · rw [chunks_of_length_le hnil hrest, if_neg (by simpa using hnil)]
    simp

theorem finish_cases :
    (b.pending = [] ∧ b.finish = none) ∨ b.finish = some b.pendingBucket := by
  unfold finish
  split
  · rename_i h
    exact .inl ⟨List.isEmpty_iff.1 h, rfl⟩
  · exact .inr rfl

end Bucketizer

/-- The batches of a bucket are its records, in order. -/
theorem records_batches (ids : List String) (size : Nat) :
    (batches ids size).flatMap (·.ids) = ids := by
  rw [batches, flatMap_mapIdx fun _ _ => rfl]
  exact flatten_chunks (Nat.le_max_right size 1) ids

/-- No batch is empty. -/
theorem ids_ne_nil_of_mem_batches {ids : List String} {size : Nat} {b : Batch}
    (h : b ∈ batches ids size) : b.ids ≠ [] := by
  rcases List.mem_mapIdx.1 h with ⟨n, hn, rfl⟩
  exact List.length_pos_iff.1 (length_of_mem_chunks (List.getElem_mem hn)).1

theorem length_batches (ids : List String) (size : Nat) :
    ((batches ids size).map (·.ids.length)).sum = ids.length := by
  rw [← List.length_flatMap, records_batches]

end BulkRun
