import BulkRun.Proofs.Channel.Buckets
import BulkRun.Proofs.Dispatch.Books
/-!
# What one command sees of the engine

A scene is what the books of a command are kept on: the stock of its scroll loop, the tracker and
the channel.  Whoever works for a command changes its scene, and leaves the scenes of all other
commands alone but for dropping commands from the tracker.
-/

namespace BulkRun

/-- The tracker and the channel, and the stock of the loop of a command unless that collapsed. -/
structure Scene where
  stock : Option Stock
  tracker : Tracker
  channel : Channel

/-- A bucket on which nobody works. -/
def Lot.lying (b : Bucket) : Lot := ⟨b, .untouched⟩

@[simp]
theorem Lot.bucket_lying (b : Bucket) : (Lot.lying b).bucket = b := rfl

/-- The published buckets of a command: those in the channel, and those that are held. -/
def lotsOf (id : CommandId) (c : Channel) (held : List Lot) : List Lot :=
  (c.buckets.map Lot.lying ++ held).filter (·.bucket.commandId == id)

variable {id k : CommandId} {c d : Channel} {held held' : List Lot}

theorem lotsOf_perm (id : CommandId) (hbuckets : c.buckets.Perm d.buckets)
    (hheld : held.Perm held') :
    (lotsOf id c held).Perm (lotsOf id d held') :=
  ((hbuckets.map _).append hheld).filter _

theorem lotsOf_take {b : Bucket} (h : Channel.Takes c d b) (hb : b.commandId = id) :
    (lotsOf id d held).Perm (.lying b :: lotsOf id c held) := by
  apply (((h.buckets.map _).append_right held).filter _).trans
  rw [List.map_cons, List.cons_append, List.filter_cons_of_pos (by simpa using hb)]
  rfl

/-- A held bucket that is put back into the channel stays among the lots of its command. -/
theorem lotsOf_handBack {b : Bucket} (h : Channel.Takes c d b) :
    (lotsOf id d held).Perm (lotsOf id c (.lying b :: held)) := by
  refine ((((h.buckets.map _).append_right held).trans ?_).filter _)
  rw [List.map_cons]
  exact List.perm_middle.symm

theorem lotsOf_held_self (c : Channel) (held : List Lot) {lot : Lot}
    (h : lot.bucket.commandId = id) :
    (lotsOf id c (lot :: held)).Perm (lot :: lotsOf id c held) := by
  apply (List.perm_middle.filter _).trans
  rw [List.filter_cons_of_pos (by simpa using h)]
  rfl

theorem lotsOf_held_other {lot : Lot} (h : lot.bucket.commandId ≠ id) :
    lotsOf id c (lot :: held) = lotsOf id c held := by
  simp [lotsOf, h]

theorem lotsOf_eq_nil (hbuckets : ∀ b ∈ c.buckets, b.commandId ≠ id)
    (hheld : ∀ lot ∈ held, lot.bucket.commandId ≠ id) : lotsOf id c held = [] := by
  rw [lotsOf, List.filter_eq_nil_iff]
  intro lot hlot
  obtain hlot | hlot := List.mem_append.1 hlot
  · obtain ⟨b, hb, rfl⟩ := List.mem_map.1 hlot
    simpa using hbuckets b hb
  · simpa using hheld lot hlot

namespace Scene

/-- The books of a command on its scene; some of its buckets may be held outside the channel. -/
def Kept (id : CommandId) (held : List Lot) (s : Scene) : Prop :=
  ∀ stock, s.stock = some stock → Books stock (s.tracker.live? id) (lotsOf id s.channel held)

/-- What work for a command does to the tracker and to the channel: it touches no other command but
for dropping it, and all buckets that it publishes are the command's own. -/
structure Minds (id : CommandId) (t u : Tracker) (c d : Channel) : Prop where
  spares : Tracker.Spares id t u
  published : ∃ new : List Bucket, d.buckets.Perm (new ++ c.buckets) ∧ ∀ b ∈ new, b.commandId = id
  length : d.partitions.length = c.partitions.length

variable {t u : Tracker}

theorem Minds.of_keeps (ht : Tracker.Spares id t u) (h : Channel.Keeps c d) : Minds id t u c d :=
  ⟨ht, ⟨[], h.buckets, by simp⟩, h.length⟩

theorem Minds.of_spares (ht : Tracker.Spares id t u) : Minds id t u c c :=
  .of_keeps ht ⟨.refl _, rfl⟩

theorem Minds.trans {v : Tracker} {e : Channel} (h : Minds id t u c d) (h' : Minds id u v d e) :
    Minds id t v c e where
  spares := h.spares.trans h'.spares
  published := by
    obtain ⟨new, hnew, hids⟩ := h.published
    obtain ⟨new', hnew', hids'⟩ := h'.published
    refine ⟨new' ++ new, ?_, ?_⟩
    · rw [List.append_assoc]
      exact hnew'.trans (hnew.append_left new')
    · intro b hb
      obtain hb | hb := List.mem_append.1 hb
      · exact hids' b hb
      · exact hids b hb
  length := h'.length.trans h.length

/-- The lots of a command are not changed by work for another one. -/
theorem Minds.lotsOf_other (h : Minds k t u c d) (hne : id ≠ k) (held : List Lot) :
    (lotsOf id d held).Perm (lotsOf id c held) := by
  obtain ⟨new, hnew, hids⟩ := h.published
  apply (((hnew.map _).append_right held).filter _).trans
  -- what was published is none of the other command's
  have hnone : (new.map Lot.lying).filter (·.bucket.commandId == id) = [] := by
    rw [List.filter_eq_nil_iff]
    intro lot hlot
    obtain ⟨b, hb, rfl⟩ := List.mem_map.1 hlot
    simpa [hids b hb] using Ne.symm hne
  rw [List.map_append, List.append_assoc, List.filter_append, hnone]
  rfl

/-- Work for another command keeps the books of a command. -/
theorem Minds.kept_other (h : Minds k t u c d) (hne : id ≠ k) {stock : Option Stock}
    (hkept : Kept id held ⟨stock, t, c⟩) : Kept id held ⟨stock, u, d⟩ := by
  intro st hst
  have hbooks := (hkept st hst).same_or_gone (h.spares.live?_others hne)
  exact hbooks.perm (h.lotsOf_other hne held).symm

end Scene

end BulkRun
