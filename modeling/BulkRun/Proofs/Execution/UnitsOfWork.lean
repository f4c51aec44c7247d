import BulkRun.Proofs.Bucketing.Streaming
import BulkRun.Proofs.Execution.Discipline
import Mathlib.Data.List.Flatten
import Mathlib.Data.List.Nodup
/-!
# Units of work

The records of a command are cut twice: into buckets, which are handed to workers, and each bucket
into batches, which are worked on one at a time.  Main statement: the batches of a bucket cover it
without gaps or overlaps, the batches of all buckets are the records of the command in order, no two
of them share a transaction scope, and whoever works on a bucket works on nothing else
(`batches_are_the_work`).
-/

namespace BulkRun

open Bucketizer (stream? stream?_of_le make? bucketize_of_push resume_opening)

section Covering

/-- Whether some batches cover a list of records. -/
structure BatchesCover (ids : List String) (size : Nat) (bs : List Batch) : Prop where
  /-- There are so many as their number is said to be before they are made. -/
  count : bs.length = batchCount ids.length size
  records : bs.flatMap (·.ids) = ids
  ne_nil : ∀ b ∈ bs, b.ids ≠ []
  length_le : ∀ b ∈ bs, b.ids.length ≤ max size 1
  /-- Only the last batch can be short. -/
  full : ∀ b ∈ bs.dropLast, b.ids.length = max size 1
  indices : bs.map (·.index) = List.range bs.length
  /-- A batch begins where the batches before it end. -/
  offset : ∀ front b rear, bs = front ++ b :: rear → b.offset = (front.map (·.ids.length)).sum
  /-- Where a batch begins is computed from its number, and never lies behind the records. -/
  product : ∀ b ∈ bs, b.offset = b.index * max size 1 ∧ b.index * max size 1 < ids.length

variable {ids : List String} {size : Nat}

theorem ids_of_batches (ids : List String) (size : Nat) :
    (batches ids size).map (·.ids) = chunks (max size 1) ids := by
  apply List.ext_getElem (by simp [batches])
  intro n hn hn'
  simp [batches]

theorem length_batches_eq (ids : List String) (size : Nat) :
    (batches ids size).length = batchCount ids.length size := by
  rw [batches, List.length_mapIdx, length_chunks (Nat.le_max_right size 1), batchCount,
    Nat.add_sub_assoc (Nat.le_max_right size 1)]

theorem length_of_mem_batches {b : Batch} (h : b ∈ batches ids size) :
    b.ids.length ≤ max size 1 := by
  have hpiece : b.ids ∈ chunks (max size 1) ids := by
    rw [← ids_of_batches]
    exact List.mem_map_of_mem h
  exact (length_of_mem_chunks hpiece).2

theorem length_of_mem_dropLast_batches {b : Batch} (h : b ∈ (batches ids size).dropLast) :
    b.ids.length = max size 1 := by
  have hpiece : b.ids ∈ (chunks (max size 1) ids).dropLast := by
    rw [← ids_of_batches, ← List.map_dropLast]
    exact List.mem_map_of_mem h
  exact length_of_mem_dropLast_chunks hpiece

/-- The place of a batch is that among the batches. -/
theorem offset_of_batches {front rear : List Batch} {b : Batch}
    (h : batches ids size = front ++ b :: rear) :
    b.index = front.length ∧ b.offset = front.length * max size 1 := by
  have hplace : (batches ids size)[front.length]? = some b := by
    rw [h, List.getElem?_append_right (Nat.le_refl _), Nat.sub_self]
    rfl
  rw [batches, List.getElem?_mapIdx, Option.map_eq_some_iff] at hplace
  obtain ⟨piece, -, rfl⟩ := hplace
  exact ⟨rfl, rfl⟩

/-- All batches before another one are full. -/
theorem sum_length_of_batches {front rear : List Batch} {b : Batch}
    (h : batches ids size = front ++ b :: rear) :
    (front.map (·.ids.length)).sum = front.length * max size 1 := by
  have hfull : ∀ n ∈ front.map (·.ids.length), n = max size 1 := by
    intro n hn
    obtain ⟨c, hc, rfl⟩ := List.mem_map.1 hn
    apply length_of_mem_dropLast_batches
    rw [h, List.dropLast_append_of_ne_nil (List.cons_ne_nil b rear)]
    exact List.mem_append_left _ hc
  rw [List.eq_replicate_of_mem hfull, List.sum_replicate_nat, List.length_map]

theorem batchesCover_batches (ids : List String) (size : Nat) :
    BatchesCover ids size (batches ids size) where
  count := length_batches_eq ids size
  records := records_batches ids size
  ne_nil _ := ids_ne_nil_of_mem_batches
  length_le _ := length_of_mem_batches
  full _ := length_of_mem_dropLast_batches
  indices := index_eq_of_prefix (List.prefix_refl _)
  offset front b rear h := by rw [(offset_of_batches h).2, sum_length_of_batches h]
  product b hb := by
    obtain ⟨front, rear, h⟩ := List.append_of_mem hb
    obtain ⟨hindex, hoffset⟩ := offset_of_batches h
    have hsum := sum_length_of_batches h
    have htotal := length_batches ids size
    have hpos := List.length_pos_iff.2 (ids_ne_nil_of_mem_batches hb)
    rw [h, List.map_append, List.sum_append, List.map_cons, List.sum_cons] at htotal
    rw [hindex]
    exact ⟨hoffset, by omega⟩

end Covering

/-! ## The batches of many buckets -/

section Portions

/-- The batches of some buckets, each with its bucket. -/
def portions (size : Nat) (buckets : List Bucket) : List (Bucket × Batch) :=
  buckets.flatMap fun c => (batches c.ids size).map fun b => (c, b)

/-- The transaction scope of a batch of a bucket. -/
def scopeOf (c : Bucket) (b : Batch) : BatchScope := ⟨c.commandId, c.sequence, b.index⟩

variable {id : CommandId} {ids : List String} {size bucketSize : Nat} {buckets : List Bucket}

theorem records_portions (size : Nat) (buckets : List Bucket) :
    (portions size buckets).flatMap (·.2.ids) = recordsOf buckets := by
  have hbucket (c : Bucket) :
      ((batches c.ids size).map fun b => (c, b)).flatMap (·.2.ids) = c.ids := by
    rw [List.flatMap_map]
    exact records_batches c.ids size
  rw [portions, List.flatMap_assoc]
  simp only [hbucket]
  rfl

theorem scopes_portions (size : Nat) (buckets : List Bucket) :
    (portions size buckets).map (fun p => scopeOf p.1 p.2) =
      buckets.flatMap fun c => (batches c.ids size).map (scopeOf c) := by
  rw [portions, List.map_flatMap]
  simp only [List.map_map]
  rfl

/-- No two batches of a bucket share a scope. -/
theorem nodup_scopes_batches (c : Bucket) (size : Nat) :
    ((batches c.ids size).map (scopeOf c)).Nodup := by
  apply List.Nodup.of_map (·.batchIndex)
  rw [List.map_map]
  have hindices : (batches c.ids size).map (·.index) = List.range (batches c.ids size).length :=
    index_eq_of_prefix (List.prefix_refl _)
  show ((batches c.ids size).map (·.index)).Nodup
  rw [hindices]
  exact List.nodup_range

/-- Where the buckets have different numbers no two of all their batches share a scope. -/
theorem nodup_scopes (h : (buckets.map (·.sequence)).Nodup) :
    ((portions size buckets).map fun p => scopeOf p.1 p.2).Nodup := by
  rw [scopes_portions, List.nodup_flatMap]
  -- the scopes of a bucket differ by the batch, those of two buckets by the bucket
  refine ⟨fun c _ => nodup_scopes_batches c size, ?_⟩
  refine (List.pairwise_map.1 h).imp fun {c d} hne => ?_
  intro scope hc hd
  obtain ⟨b, -, rfl⟩ := List.mem_map.1 hc
  obtain ⟨b', -, hscope⟩ := List.mem_map.1 hd
  exact hne (congrArg BatchScope.bucketSequence hscope).symm

end Portions

/-! ## What passes while a bucket is worked on -/

/-- The transactions that were asked for. -/
def Journal.scopes (j : Journal) : List BatchScope :=
  j.filterMap fun note => match note with
    | .began scope _ => some scope
    | _ => none

/-- Whether what passes is about a batch: its transaction, or its records, all of them at once or
one of them. -/
def Note.IsAbout (c : Bucket) (b : Batch) : Note → Prop
  | .began scope _ | .committed scope _ | .rolledBack scope _ => scope = scopeOf c b
  | .called ids | .answered ids _ => ids = b.ids ∨ ∃ id ∈ b.ids, ids = [id]

/-- Whether all that passes is about a batch, for which one transaction was asked for. -/
structure Journal.IsAbout (c : Bucket) (b : Batch) (j : Journal) : Prop where
  scopes : j.scopes = [scopeOf c b]
  notes : ∀ note ∈ j, note.IsAbout c b

section Blocks

variable {k : Command} {c : Bucket} {block : Block}

theorem Journal.scopes_append (j j' : Journal) :
    Journal.scopes (j ++ j') = j.scopes ++ j'.scopes := List.filterMap_append

theorem Block.scopes_notes (k : Command) (c : Bucket) (block : Block) :
    (block.notes k c).scopes = [block.scope k c] := by
  have happlied : Journal.scopes (block.applied.flatMap (·.notes)) = [] := by
    induction block.applied with
    | nil => rfl
    | cons a rest ih =>
      rw [List.flatMap_cons, Journal.scopes_append, ih]
      rfl
  have hpending : Journal.scopes (block.pending.toList.map .called) = [] := by
    cases block.pending <;> rfl
  have hclosing :
      Journal.scopes (block.closing.toList.map (Closing.note (block.scope k c))) = [] := by
    cases block.closing with
    | none => rfl
    | some closing => cases closing <;> rfl
  show block.scope k c :: Journal.scopes _ = _
  rw [Journal.scopes_append, Journal.scopes_append, happlied, hpending, hclosing]
  rfl

/-- The action is called for all records of a batch or for one of them. -/
theorem Trial.CallsInTurn.mem {ids asked : List String} {applied : List Application}
    {calls : List (List String)} (h : CallsInTurn ids applied calls) (hasked : asked ∈ calls) :
    asked = ids ∨ ∃ id ∈ ids, asked = [id] := by
  obtain rfl | ⟨singles, rfl, hsingles⟩ := h
  · exact absurd hasked List.not_mem_nil
  · obtain rfl | hasked := List.mem_cons.1 hasked
    · exact .inl rfl
    · obtain ⟨id, hid, rfl⟩ := List.mem_map.1 hasked
      obtain rfl | ⟨first, rest, record, m, -, -, -, hbegins⟩ := hsingles
      · exact absurd hid List.not_mem_nil
      · exact .inr ⟨id, List.mem_of_mem_drop (hbegins.mem hid), rfl⟩

/-- All that passes in a block is about its batch. -/
theorem Block.IsLawful.isAbout (h : block.IsLawful) (hid : k.id = c.commandId) :
    Journal.IsAbout c block.batch (block.notes k c) := by
  have hscope : block.scope k c = scopeOf c block.batch := by rw [Block.scope, hid, scopeOf]
  have hcalls {asked : List String} (hasked : asked ∈ block.calls) :
      asked = block.batch.ids ∨ ∃ id ∈ block.batch.ids, asked = [id] := h.calls.mem hasked
  refine ⟨by rw [Block.scopes_notes, hscope], fun note hnote => ?_⟩
  simp only [Block.notes, List.mem_cons, List.mem_append] at hnote
  obtain rfl | (happlied | hpending) | hclosing := hnote
  · exact hscope
  · obtain ⟨a, ha, hnote⟩ := List.mem_flatMap.1 happlied
    have hasked := hcalls (List.mem_append_left _ (List.mem_map_of_mem ha))
    obtain rfl | rfl := List.mem_pair.1 hnote
    · exact hasked
    · exact hasked
  · obtain ⟨asked, hasked, rfl⟩ := List.mem_map.1 hpending
    exact hcalls (List.mem_append_right _ hasked)
  · obtain ⟨closing, -, rfl⟩ := List.mem_map.1 hclosing
    cases closing with
    | commit answer => exact hscope
    | rollback answer => exact hscope

end Blocks

namespace Stint

variable {σ : Type} {setup : Setup σ} {c : Bucket} {size : Nat} {e : Engine σ}
  {moves : List (Move (Stint σ) (Event σ))} {s : Stint σ}

/-- Whether what has passed falls into one part for each of the first batches of a bucket, and for
each of all its batches once it is worked through. -/
def KeepsToBatches (c : Bucket) (size : Nat) (s : Stint σ) : Prop :=
  ∃ parts : List Journal, s.journal = parts.flatten ∧
    List.Forall₂ (Journal.IsAbout c) ((batches c.ids size).take parts.length) parts ∧
    ∀ n m, s.execution = .finished (.ok (.processed n m)) →
      parts.length = (batches c.ids size).length

theorem IsIdle.keepsToBatches (h : s.IsIdle) : s.KeepsToBatches c size := by
  obtain ⟨outcome, hend, hcounts⟩ := h.finished
  refine ⟨[], h.journal, .nil, fun n m hprocessed => ?_⟩
  rw [← Except.ok.inj (Execution.finished.inj (hprocessed.symm.trans hend))] at hcounts
  exact absurd hcounts nofun

/-- The parts are the blocks that have passed. -/
theorem keepsToBatches_of_tells {k : Command} {told : List Block} {current : Option Block}
    (hid : k.id = c.commandId) (h : Tells k c told current s) :
    s.KeepsToBatches c k.batchSize := by
  have hdisciplined := h.isDisciplined
  have hbatches := List.prefix_iff_eq_take.1 hdisciplined.batches
  rw [List.length_map] at hbatches
  refine ⟨(told ++ current.toList).map (Block.notes k c), ?_, ?_, ?_⟩
  · rw [hdisciplined.journal, List.flatMap_def]
  · rw [List.length_map, ← hbatches, List.forall₂_map_left_iff, List.forall₂_map_right_iff,
      List.forall₂_same]
    exact fun block hblock => (hdisciplined.lawful block hblock).isAbout hid
  · intro n m hend
    have hstands := h.stands
    rw [hend] at hstands
    cases hstands with
    | processed hbehind => simp [hbehind.batches]

/-- Whoever works on a bucket works on its batches, and on nothing else. -/
theorem keepsToBatches_of_run (hrun : Run (next? setup) (begun setup c e) moves s)
    (hsize : ∀ p, e.tracker.find? c.commandId = some p → p.command.batchSize = size) :
    s.KeepsToBatches c size := by
  obtain hidle | ⟨p, hfind, told, current, htells⟩ := stands_of_run hrun
  · exact hidle.keepsToBatches
  · rw [← hsize p hfind]
    exact keepsToBatches_of_tells (Tracker.id_of_find? hfind) htells

end Stint

/-! ## Main statement -/

/-- The batches of a bucket cover it, whatever their size is, a size of zero counting as one: there
are as many as the size goes into the number of records, rounded up; none is empty, all but the last
are full, and together they are the records in order; they are numbered from zero, and each begins
where those before it end, which is at the product of its number and the size, within the bucket.

So the batches of the buckets of a command are its records in order, no two of them share a
transaction scope, and in all that passes while one of these buckets is worked on, whatever the
collaborators answer and whatever others do, there is nothing but its batches one after the other,
and all of them when it was worked through.  That is as far as room for a bucket can be set aside:
for larger buckets there are no buckets at all, and the scroll loop of the command collapses. -/
theorem batches_are_the_work (id : CommandId) (ids : List String) (size : Nat) :
    BatchesCover ids size (batches ids size) ∧
    ∀ bucketSize, 0 < size → size ≤ bucketSize →
      (bucketSize ≤ maxReserved → ∃ buckets,
        stream? id bucketSize [ids] = some (.ok buckets) ∧
        bucketize id ids bucketSize = .ok buckets ∧
        (portions size buckets).flatMap (·.2.ids) = ids ∧
        ((portions size buckets).map fun p => scopeOf p.1 p.2).Nodup ∧
        ∀ c ∈ buckets, c.commandId = id ∧
          ∀ (σ : Type) (setup : Setup σ) (e : Engine σ) moves s,
            Run (Stint.next? setup) (Stint.begun setup c e) moves s →
            (∀ p, e.tracker.find? id = some p → p.command.batchSize = size) →
              s.KeepsToBatches c size) ∧
      (maxReserved < bucketSize → stream? id bucketSize [ids] = none ∧
        ∀ (σ : Type) (l : ScrollLoop σ) (e : Engine σ) (cursor : Cursor) (w : σ),
          l.phase = .opening → l.command.bucketSize = bucketSize →
          l.scroller.start l.command e.world = (.ok cursor, w) →
            l.resume e = l.collapse { e with world := w }) := by
  refine ⟨batchesCover_batches ids size, fun bucketSize hsize hle => ⟨fun hroom => ?_, ?_⟩⟩
  · have hs : 0 < bucketSize := Nat.lt_of_lt_of_le hsize hle
    have hcut : bucketize id ids bucketSize = .ok _ := bucketize_of_push hs ids
    have hstream := stream?_of_le id hs hroom [ids]
    rw [List.flatten_singleton] at hstream
    refine ⟨_, hstream, hcut, ?_, ?_, ?_⟩
    · rw [records_portions, records_of_bucketize hs hcut]
    · apply nodup_scopes
      rw [sequence_of_bucketize hs hcut]
      exact List.nodup_range
    · intro c hc
      obtain ⟨hid, -⟩ := of_mem_bucketize hs hcut hc
      refine ⟨hid, fun σ setup e moves s hrun hbatch => ?_⟩
      rw [← hid] at hbatch
      exact Stint.keepsToBatches_of_run hrun hbatch
  · intro hlarge
    refine ⟨?_, ?_⟩
    · rw [stream?, make?, if_pos hlarge]
      rfl
    · rintro σ l e cursor w hphase rfl hstart
      rw [resume_opening hphase (Nat.lt_of_lt_of_le hsize hle) hstart, make?, if_pos hlarge]

/-- The action takes `a` and `b` together and stops on `c`, so that `d` is taken on its own. -/
def stopsOnThird : List ActionReply :=
  [⟨[], .ok [⟨"a", none⟩, ⟨"b", none⟩]⟩, ⟨[], .error (.recordFailed "c" "locked")⟩,
    ⟨[], .ok [⟨"d", none⟩]⟩]

/-- Seven records in two buckets and four batches.  Of the first bucket both batches are worked on,
although a record fails; of buckets that are larger than any room there is none. -/
theorem batches_are_the_work_with_failure :
    0 < 2 ∧ 2 ≤ 4 ∧ 4 ≤ maxReserved ∧
      bucketize ⟨7⟩ ["a", "b", "c", "d", "e", "f", "g"] 4 =
        .ok [⟨⟨7⟩, 0, ["a", "b", "c", "d"]⟩, ⟨⟨7⟩, 1, ["e", "f", "g"]⟩] ∧
      (∃ moves s, Run (Stint.next? (scriptedSetup .none))
          (Stint.begun (scriptedSetup .none) ⟨⟨7⟩, 0, ["a", "b", "c", "d"]⟩
            (scriptedEngine (running 7) stopsOnThird)) moves s ∧
        s.execution = .finished (.ok (.processed 4 1)) ∧
        s.journal.scopes = [⟨⟨7⟩, 0, 0⟩, ⟨⟨7⟩, 0, 1⟩] ∧
        s.KeepsToBatches ⟨⟨7⟩, 0, ["a", "b", "c", "d"]⟩ 2) ∧
      2 ≤ twoTo 59 ∧ maxReserved < twoTo 59 ∧ stream? ⟨7⟩ (twoTo 59) [["a"]] = none := by
  have hcut : bucketize ⟨7⟩ ["a", "b", "c", "d", "e", "f", "g"] 4 =
      .ok [⟨⟨7⟩, 0, ["a", "b", "c", "d"]⟩, ⟨⟨7⟩, 1, ["e", "f", "g"]⟩] := by
    simp [bucketize, chunks]
  have hcheck : (movesOf? (Stint.next? (scriptedSetup .none))
      (Stint.begun (scriptedSetup .none) ⟨⟨7⟩, 0, ["a", "b", "c", "d"]⟩
        (scriptedEngine (running 7) stopsOnThird)) (List.replicate 7 .work)).any (fun r =>
        decide (r.2.execution.outcome? = some (.processed 4 1)) &&
          decide (r.2.journal.scopes = [⟨⟨7⟩, 0, 0⟩, ⟨⟨7⟩, 0, 1⟩])) = true := by
    decide +kernel
  obtain ⟨⟨moves, s⟩, hmoves, hs⟩ := (Option.any_eq_true _ _).1 hcheck
  rw [Bool.and_eq_true, decide_eq_true_eq, decide_eq_true_eq] at hs
  have hrun := Run.of_movesOf? hmoves
  have hend := Execution.eq_of_outcome? hs.1
  have hlarge : maxReserved < twoTo 59 := by decide
  obtain ⟨-, hall⟩ := batches_are_the_work ⟨7⟩ ["a", "b", "c", "d", "e", "f", "g"] 2
  obtain ⟨hfits, -⟩ := hall 4 (by decide) (by decide)
  obtain ⟨buckets, -, hbuckets, -, -, hwork⟩ := hfits (by decide)
  obtain rfl := Except.ok.inj (hbuckets.symm.trans hcut)
  obtain ⟨-, hkeeps⟩ := hwork ⟨⟨7⟩, 0, ["a", "b", "c", "d"]⟩ List.mem_cons_self
  have hbatches := hkeeps _ _ _ moves s hrun (by decide +kernel)
  obtain ⟨-, hnone⟩ := (batches_are_the_work ⟨7⟩ ["a"] 2).2 (twoTo 59) (by decide) (by decide)
  exact ⟨by decide, by decide, by decide, hcut, ⟨moves, s, hrun, hend, hs.2, hbatches⟩, by decide,
    hlarge, (hnone hlarge).1⟩

end BulkRun
