import BulkRun.Dispatch.ScrollLoop
import BulkRun.Proofs.Bucketing
/-!
# Records that come in parts

A bucketizer is given the records of a command part by part, as a scroll finds them.  Main
statement: however the records are cut into parts, the buckets are those that all the records
together are cut into (`streaming_is_one_shot`); all but the last of these are full, and where the
bucketizer stands after every part is a quotient with its remainder.

A bucketizer sets room aside for a whole bucket before it is given a record, so there is no
bucketizer at all for buckets that are larger than any room.
-/

namespace BulkRun

section Chunks

variable {α : Type} {size : Nat}

/-- There are as many pieces as their size goes into the length, and one more for a rest. -/
theorem length_chunks (hs : 0 < size) (xs : List α) :
    (chunks size xs).length = (xs.length + size - 1) / size := by
  fun_induction chunks size xs with
  | case1 xs h =>
    obtain rfl | rfl := h
    · rw [List.length_nil, List.length_nil, Nat.zero_add, Nat.div_eq_of_lt (by omega)]
    · omega
  | case2 xs h ih =>
    have hpos : 0 < xs.length := List.length_pos_iff.2 fun e => h (.inl e)
    rw [List.length_cons, ih, List.length_drop]
    by_cases hle : size ≤ xs.length
    · have hmore : xs.length + size - 1 = xs.length - size + size - 1 + size := by omega
      rw [hmore, Nat.add_div_right _ hs]
    · have hrest : xs.length - size = 0 := by omega
      rw [hrest, Nat.zero_add, Nat.div_eq_of_lt (by omega),
        Nat.div_eq_of_lt_le (k := 1) (by omega) (by omega)]

/-- Only the last piece can be short. -/
theorem length_of_mem_dropLast_chunks {xs c : List α} (h : c ∈ (chunks size xs).dropLast) :
    c.length = size := by
  fun_induction chunks size xs with
  | case1 => exact absurd h (by simp)
  | case2 xs hne ih =>
    cases hrest : chunks size (xs.drop size) with
    | nil =>
      rw [hrest] at h
      exact absurd h (by simp)
    | cons d ds =>
      -- there is a piece behind the first one, so the list reaches beyond it
      have hmore : 0 < (xs.drop size).length := by
        have hd : d ∈ chunks size (xs.drop size) := hrest ▸ List.mem_cons_self
        refine List.length_pos_iff.2 fun hnil => ?_
        rw [hnil, chunks_nil] at hd
        exact absurd hd List.not_mem_nil
      rw [List.length_drop] at hmore
      rw [hrest] at h ih
      rw [List.dropLast_cons_cons] at h
      obtain rfl | h := List.mem_cons.1 h
      · rw [List.length_take]
        omega
      · exact ih h

end Chunks

section Buckets

variable {id : CommandId} {ids : List String} {size : Nat} {buckets : List Bucket}

/-- The pieces that records are cut into, each with its number. -/
theorem bucketize_eq_ok (hs : 0 < size) :
    bucketize id ids size = .ok buckets ↔
      buckets = (chunks size ids).mapIdx fun n c => ⟨id, n, c⟩ := by
  rw [bucketize, if_neg (Nat.pos_iff_ne_zero.1 hs), Except.ok.injEq, eq_comm]

theorem ids_of_bucketize (hs : 0 < size) (h : bucketize id ids size = .ok buckets) :
    buckets.map (·.ids) = chunks size ids := by
  rw [(bucketize_eq_ok hs).1 h]
  apply List.ext_getElem (by simp)
  intro n hn hn'
  simp

theorem sequence_of_bucketize (hs : 0 < size) (h : bucketize id ids size = .ok buckets) :
    buckets.map (·.sequence) = List.range ((ids.length + size - 1) / size) := by
  rw [(bucketize_eq_ok hs).1 h, ← length_chunks hs]
  apply List.ext_getElem (by simp)
  intro n hn hn'
  simp

theorem of_mem_bucketize (hs : 0 < size) (h : bucketize id ids size = .ok buckets) {c : Bucket}
    (hc : c ∈ buckets) : c.commandId = id ∧ c.ids ≠ [] ∧ c.ids.length ≤ size := by
  have hpiece : c.ids ∈ chunks size ids := by
    rw [← ids_of_bucketize hs h]
    exact List.mem_map_of_mem hc
  obtain ⟨hpos, hle⟩ := length_of_mem_chunks hpiece
  rw [(bucketize_eq_ok hs).1 h] at hc
  obtain ⟨n, hn, rfl⟩ := List.mem_mapIdx.1 hc
  exact ⟨rfl, List.length_pos_iff.1 hpos, hle⟩

/-- All buckets but the last are full. -/
theorem length_of_mem_dropLast_bucketize (hs : 0 < size)
    (h : bucketize id ids size = .ok buckets) {c : Bucket} (hc : c ∈ buckets.dropLast) :
    c.ids.length = size := by
  have hpiece : c.ids ∈ (chunks size ids).dropLast := by
    rw [← ids_of_bucketize hs h, ← List.map_dropLast]
    exact List.mem_map_of_mem hc
  exact length_of_mem_dropLast_chunks hpiece

theorem records_of_bucketize (hs : 0 < size) (h : bucketize id ids size = .ok buckets) :
    recordsOf buckets = ids := by
  rw [recordsOf, List.flatMap_def, ids_of_bucketize hs h, flatten_chunks hs]

end Buckets

namespace Bucketizer

/-- Makes a bucketizer.  Room for a bucket is set aside first, and there is no answer when so much
cannot be had. -/
def make? (id : CommandId) (size : Nat) : Option (Except CommandFault Bucketizer) :=
  if maxReserved < size then none else some (new id size)

/-- Takes records part by part; the buckets that they fill. -/
def pushAll (b : Bucketizer) : List (List String) → List Bucket × Bucketizer
  | [] => ([], b)
  | ids :: parts =>
    let (full, b) := b.push ids
    let (more, b) := b.pushAll parts
    (full ++ more, b)

/-- The buckets of records that come in parts, the last one included. -/
def stream? (id : CommandId) (size : Nat) (parts : List (List String)) :
    Option (Except CommandFault (List Bucket)) :=
  (make? id size).map fun made => made.map fun b =>
    let (full, b) := b.pushAll parts
    full ++ b.finish.toList

variable {b : Bucketizer} {id : CommandId} {size : Nat}

/-- Parts fill the same buckets as all their records at once. -/
theorem pushAll_eq_push (hs : 0 < b.size) (h : b.pending.length < b.size)
    (parts : List (List String)) : b.pushAll parts = b.push parts.flatten := by
  induction parts generalizing b with
  | nil => exact (push_nil h).symm
  | cons ids parts ih =>
    rw [List.flatten_cons, push_append hs, ← ih (b := (b.push ids).2) hs (pending_push_lt hs ids)]
    rfl

/-- After some parts, so many buckets are filled and so many records pending as the bucket size goes
into the number of records, and as are left over. -/
theorem pushAll_new (id : CommandId) (hs : 0 < size) (parts : List (List String)) :
    (pushAll ⟨id, size, 0, []⟩ parts).2.emitted = parts.flatten.length / size ∧
      (pushAll ⟨id, size, 0, []⟩ parts).2.pending.length = parts.flatten.length % size := by
  rw [pushAll_eq_push (b := ⟨id, size, 0, []⟩) hs hs]
  refine ⟨Nat.zero_add _, ?_⟩
  show (parts.flatten.drop (parts.flatten.length / size * size)).length = _
  rw [List.length_drop]
  have hdiv := Nat.div_add_mod' parts.flatten.length size
  omega

theorem make?_of_le (id : CommandId) (hs : 0 < size) (hroom : size ≤ maxReserved) :
    make? id size = some (.ok ⟨id, size, 0, []⟩) := by
  rw [make?, if_neg (Nat.not_lt.2 hroom), new, if_neg (Nat.pos_iff_ne_zero.1 hs)]

/-- Where there is a bucketizer, parts make the buckets of all their records. -/
theorem stream?_of_le (id : CommandId) (hs : 0 < size) (hroom : size ≤ maxReserved)
    (parts : List (List String)) :
    stream? id size parts = some (.ok ((push ⟨id, size, 0, []⟩ parts.flatten).1 ++
      (push ⟨id, size, 0, []⟩ parts.flatten).2.finish.toList)) := by
  rw [stream?, make?_of_le id hs hroom, ← pushAll_eq_push (b := ⟨id, size, 0, []⟩) hs hs]
  rfl

/-- A scroll loop that has its cursor goes on with the bucketizer that it makes, and collapses when
there is none. -/
theorem resume_opening {σ : Type} {l : ScrollLoop σ} {e : Engine σ} {cursor : Cursor} {w : σ}
    (hphase : l.phase = .opening) (hs : 0 < l.command.bucketSize)
    (hstart : l.scroller.start l.command e.world = (.ok cursor, w)) :
    l.resume e = match make? l.id l.command.bucketSize with
      | some (.ok b) => l.fetch ⟨cursor, b, 0⟩ { e with world := w }
      | some (.error f) => l.fail f.toError { e with world := w }
      | none => l.collapse { e with world := w } := by
  unfold ScrollLoop.resume
  rw [hphase]
  simp only [hstart, make?, new, if_neg (Nat.pos_iff_ne_zero.1 hs)]
  by_cases hroom : maxReserved < l.command.bucketSize
  · rw [if_pos hroom, if_pos hroom]
  · rw [if_neg hroom, if_neg hroom]

/-- Streaming is cutting at one stroke.  However records are cut into parts, the buckets that the
parts fill, and the one with what is left over, are those that all the records are cut into.  They
are numbered from zero, as many as the bucket size goes into the number of records, rounded up; each
is of the command, none is empty, all but the last are full, and together they are the records in
order.  After any of the parts less than a bucket is pending, and so many buckets have been filled
as the bucket size goes into the number of records until then.

All this as far as room for a bucket can be set aside.  For larger buckets there is no bucketizer,
be it for parts or for all records at once, and a scroll loop that needs one collapses. -/
theorem streaming_is_one_shot (id : CommandId) {size : Nat} (hs : 0 < size)
    (parts : List (List String)) :
    (size ≤ maxReserved → ∃ b buckets,
      make? id size = some (.ok b) ∧
      stream? id size parts = some (.ok buckets) ∧
      stream? id size [parts.flatten] = some (.ok buckets) ∧
      bucketize id parts.flatten size = .ok buckets ∧
      (∀ c ∈ buckets, c.commandId = id ∧ c.ids ≠ []) ∧
      buckets.map (·.sequence) = List.range ((parts.flatten.length + size - 1) / size) ∧
      (∀ c ∈ buckets.dropLast, c.ids.length = size) ∧
      (∀ c ∈ buckets, c.ids.length ≤ size) ∧
      recordsOf buckets = parts.flatten ∧
      ∀ front, front <+: parts →
        (b.pushAll front).2.pending.length < size ∧
        (b.pushAll front).2.emitted = front.flatten.length / size ∧
        size * (b.pushAll front).2.emitted + (b.pushAll front).2.pending.length =
          front.flatten.length) ∧
    (maxReserved < size → make? id size = none ∧ stream? id size parts = none ∧
      ∀ (σ : Type) (l : ScrollLoop σ) (e : Engine σ) (cursor : Cursor) (w : σ),
        l.phase = .opening → l.command.bucketSize = size →
        l.scroller.start l.command e.world = (.ok cursor, w) →
          l.resume e = l.collapse { e with world := w }) := by
  refine ⟨fun hroom => ?_, fun hlarge => ⟨if_pos hlarge, ?_, ?_⟩⟩
  · have hcut : bucketize id parts.flatten size = .ok _ := bucketize_of_push hs parts.flatten
    have hmake := make?_of_le id hs hroom
    refine ⟨_, _, hmake, stream?_of_le id hs hroom parts, ?_, hcut, ?_, ?_, ?_, ?_, ?_, ?_⟩
    · rw [stream?_of_le id hs hroom, List.flatten_singleton]
    · exact fun c hc => ⟨(of_mem_bucketize hs hcut hc).1, (of_mem_bucketize hs hcut hc).2.1⟩
    · exact sequence_of_bucketize hs hcut
    · exact fun c => length_of_mem_dropLast_bucketize hs hcut
    · exact fun c hc => (of_mem_bucketize hs hcut hc).2.2
    · exact records_of_bucketize hs hcut
    · intro front _
      obtain ⟨hemitted, hpending⟩ := pushAll_new id hs front
      rw [hemitted, hpending]
      exact ⟨Nat.mod_lt _ hs, rfl, Nat.div_add_mod _ _⟩
  · rw [stream?, make?, if_pos hlarge]
    rfl
  · rintro σ l e cursor w hphase rfl hstart
    rw [resume_opening hphase hs hstart, make?, if_pos hlarge]

/-- The second part fills nothing, the third fills a bucket, and two records are left over; with
larger buckets than there can be room for, nothing comes of a single record. -/
theorem streaming_is_one_shot_uneven :
    0 < 4 ∧ 4 ≤ maxReserved ∧
      stream? ⟨5⟩ 4 [["a", "b", "c"], [], ["d", "e"], ["f"]] =
        some (.ok [⟨⟨5⟩, 0, ["a", "b", "c", "d"]⟩, ⟨⟨5⟩, 1, ["e", "f"]⟩]) ∧
      0 < twoTo 59 ∧ maxReserved < twoTo 59 ∧ stream? ⟨5⟩ (twoTo 59) [["a"]] = none := by
  have hroom : 4 ≤ maxReserved := by decide
  have hlarge : maxReserved < twoTo 59 := by decide
  obtain ⟨hstream, -⟩ := streaming_is_one_shot ⟨5⟩ (show 0 < 4 by decide)
    [["a", "b", "c"], [], ["d", "e"], ["f"]]
  obtain ⟨b, buckets, -, hparts, -, hcut, -⟩ := hstream hroom
  obtain ⟨-, hnone⟩ := streaming_is_one_shot ⟨5⟩ (show 0 < twoTo 59 by decide) [["a"]]
  refine ⟨by decide, hroom, ?_, by decide, hlarge, (hnone hlarge).2.1⟩
  rw [hparts, ← Except.ok.inj hcut]
  simp [chunks]

end Bucketizer

end BulkRun
