import BulkRun.Proofs.Dispatch.Homes
/-!
# No work for a command that has ended

Whatever happens, a batch is begun only for a command that is there and not aborted.  Once a command
is aborted, there is nothing more to it than the one batch that is in flight: no other is begun, no
more records than those of that batch come to be counted, and every bucket on which the work is
still to begin is skipped.  A command that comes to its end otherwise has no batches left, unless
some of its records count twice: of a bucket that is handed back with some batches counted and
others not, these batches count once more when it is worked on again, so that the command may
complete too early.  Main statement: `no_work_after_the_end`.
-/

namespace BulkRun

variable {σ : Type} {setup : Setup σ} {id : CommandId}

namespace Workshop

variable {s s₀ t : Workshop σ} {moves rear : List (Move (Workshop σ) (Event σ))}

/-- What is true of a workshop as far as a command is concerned, whatever happens. -/
structure Orderly (id : CommandId) (s : Workshop σ) : Prop where
  system : s.system.Sound
  bench : s.bench.Sound
  homed : s.Homed
  unseen : s.system.loops.filter (·.id == id) = [] → s.system.engine.tracker.find? id = none

theorem IsNew.orderly (h : s.IsNew)
    (hpartitions : (s.system.consumers.map Consumer.partition).Nodup) (id : CommandId) :
    s.Orderly id where
  system := h.sound
  bench := h.sound_bench
  homed := h.homed hpartitions
  unseen hunseen := ((h.dutiful id).meets.unseen hunseen).1

theorem Orderly.next? {event : Event σ} (h : s.Orderly id) (hnext : s.next? setup event = some t) :
    t.Orderly id where
  system := sound_next? h.system hnext
  bench := h.bench.turns (turns_next? h.system.distinct hnext)
  homed := h.homed.next? h.system.distinct hnext
  unseen := (turns_next? h.system.distinct hnext).unseen h.system.nodup h.system.distinct h.unseen

/-- What is kept along a run, of which `t` was a state when the command was called off. -/
structure Subsiding (id : CommandId) (t s : Workshop σ) : Prop where
  orderly : s.Orderly id
  seen : s.system.loops.filter (·.id == id) ≠ []
  windsDown : Bench.WindsDown id t.bench s.bench

theorem Subsiding.next? {event : Event σ} {u : Workshop σ} (h : Subsiding id t s)
    (hnext : s.next? setup event = some u)
    (honce : (u.system.loops.filter (·.id == id)).length ≤ 1) : Subsiding id t u := by
  have hsound := h.orderly.system
  have hturns := turns_next? hsound.distinct hnext
  refine ⟨h.orderly.next? hnext, ?_, ?_⟩
  · have hpos := List.length_pos_of_ne_nil h.seen
    have hle : (s.system.loops.filter (·.id == id)).length ≤
        (u.system.loops.filter (·.id == id)).length := Bench.length_loops_le hsound.nodup hturns
    exact List.ne_nil_of_length_pos (by omega)
  · exact h.windsDown.trans
      (Bench.windsDown_turns hsound.distinct h.windsDown.off hturns honce h.seen)

/-- Whether every record of a command counts once in some moves: none of its buckets is handed back
with some batches counted and others not, and fewer of its records are scrolled than a word
counts. -/
def CountsOnce (id : CommandId) (moves : List (Move (Workshop σ) (Event σ))) : Prop :=
  ∀ m ∈ moves, ¬Undoes id m ∧
    ∀ l ∈ m.after.system.loops, l.id = id → l.phase.scrolled < wordCount

theorem CountsOnce.dutiful (h : CountsOnce id moves) (hrun : Run (next? setup) s₀ moves s)
    (hnew : s₀.IsNew) : s.Dutiful id :=
  hrun.invariant h (hnew.dutiful id) fun _ _ _ hnext hfair hs => hs.next? hnext hfair.1 hfair.2

/-- A workshop with one partition that has room for one bucket, and its consumer. -/
def staffedWorkshop : Workshop Unit :=
  ⟨{ emptyWorkshop.system with consumers := [.new 0] }, []⟩

theorem isNew_staffedWorkshop : staffedWorkshop.IsNew := by
  refine ⟨rfl, ?_, rfl, rfl, rfl⟩
  intro c hc
  rw [List.mem_singleton.1 hc]
  rfl

/-- The work for which a transaction is asked in a move. -/
def opened? (m : Move (Workshop σ) (Event σ)) : Option (Work σ) :=
  match sign? m with
  | some (.opened w) => some w
  | _ => none

end Workshop

end BulkRun
