import BulkRun.Proofs.Dispatch.ScrollLoop
import BulkRun.Proofs.Execution.Books
import Mathlib.Data.List.Nodup
/-!
# Commands that are tended

A command is tended while nobody but its one scroll loop scrolls it and its books are kept.
Whatever the scroll loops, the executions and the receivers of the channel do, every command stays
tended: the one they work for because they keep its books, and the others because they have nothing
to do with them.  What is said here is about the engine, the loops and the held buckets, and not
about who schedules the work or holds the buckets.
-/

namespace BulkRun

variable {σ : Type}

/-- What the books of all commands are kept on. -/
structure View (σ : Type) where
  tracker : Tracker
  channel : Channel
  loops : List (ScrollLoop σ)
  /-- The published buckets that are not in the channel. -/
  held : List Lot

namespace View

/-- A command that no loop scrolls was never seen, and the books of a command that one loop scrolls
are kept.  Nothing is said about a command that was accepted more than once. -/
structure Tended (id : CommandId) (v : View σ) : Prop where
  unseen : v.loops.filter (·.id == id) = [] →
    v.tracker.find? id = none ∧ lotsOf id v.channel v.held = []
  kept : ∀ l, v.loops.filter (·.id == id) = [l] →
    Scene.Kept id v.held ⟨l.phase.stock?, v.tracker, v.channel⟩

variable {id : CommandId} {t u : Tracker} {c d : Channel} {ls : List (ScrollLoop σ)}
  {held held' : List Lot} {b : Bucket} {s : Standing}

theorem Tended.of_lots_perm (h : Tended id ⟨t, c, ls, held⟩)
    (hlots : (lotsOf id c held).Perm (lotsOf id d held')) : Tended id ⟨t, d, ls, held'⟩ where
  unseen hunseen := by
    obtain ⟨hgone, hnone⟩ := h.unseen hunseen
    refine ⟨hgone, ?_⟩
    rw [hnone] at hlots
    exact hlots.nil_eq.symm
  kept l hl stock hstock := (h.kept l hl stock hstock).perm hlots

/-- Commands that stay as they are or go. -/
theorem Tended.of_same_or_gone (h : Tended id ⟨t, c, ls, held⟩)
    (hfind : u.find? id = none ∨ t.find? id ≠ none)
    (hlive : u.live? id = t.live? id ∨ u.live? id = none) : Tended id ⟨u, c, ls, held⟩ where
  unseen hunseen := by
    obtain ⟨hgone, hnone⟩ := h.unseen hunseen
    refine ⟨?_, hnone⟩
    obtain hu | ht := hfind
    · exact hu
    · exact absurd hgone ht
  kept l hl stock hstock := (h.kept l hl stock hstock).same_or_gone hlive

/-- A command with a held bucket was seen. -/
theorem Tended.seen (h : Tended id ⟨t, c, ls, ⟨b, s⟩ :: held⟩) (hb : b.commandId = id) :
    ls.filter (·.id == id) ≠ [] := by
  intro hunseen
  have hself := lotsOf_held_self c held (show (⟨b, s⟩ : Lot).bucket.commandId = id from hb)
  rw [(h.unseen hunseen).2] at hself
  exact absurd hself.nil_eq (by simp)

/-! ## Receivers -/

/-- A bucket that is received is held. -/
theorem Tended.receive {v : Delivery} (h : Tended id ⟨t, c, ls, held⟩)
    (hgives : Channel.Gives c d v) : Tended id ⟨t, d, ls, .lying v.bucket :: held⟩ :=
  h.of_lots_perm (lotsOf_handBack ⟨hgives.buckets, hgives.length.symm⟩)

/-- A bucket that is handed back is in the channel again. -/
theorem Tended.handBack (h : Tended id ⟨t, c, ls, ⟨b, s⟩ :: held⟩) (htakes : Channel.Takes c d b) :
    Tended id ⟨t, d, ls, held⟩ := by
  -- it does not matter how far the work on it had come
  have hlying : Tended id ⟨t, c, ls, .lying b :: held⟩ → Tended id ⟨t, d, ls, held⟩ :=
    fun h => h.of_lots_perm (lotsOf_handBack htakes).symm
  apply hlying
  by_cases hb : b.commandId = id
  · constructor
    · exact fun hunseen => absurd hunseen (h.seen hb)
    · intro l hl stock hstock
      have hbooks := (h.kept l hl stock hstock).perm (lotsOf_held_self _ _ hb)
      exact hbooks.handBack.perm (lotsOf_held_self _ _ hb).symm
  · have hother : lotsOf id c (⟨b, s⟩ :: held) = lotsOf id c (.lying b :: held) := by
      rw [lotsOf_held_other hb, lotsOf_held_other hb]
    exact h.of_lots_perm (.of_eq hother)

/-- A bucket on which the work is over is acknowledged. -/
theorem Tended.acknowledge (h : Tended id ⟨t, c, ls, ⟨b, .ended⟩ :: held⟩)
    (hkeeps : Channel.Keeps c d) : Tended id ⟨t, d, ls, held⟩ := by
  by_cases hb : b.commandId = id
  · constructor
    · exact fun hunseen => absurd hunseen (h.seen hb)
    · intro l hl stock hstock
      have hbooks := (h.kept l hl stock hstock).perm (lotsOf_held_self _ _ hb)
      exact hbooks.acknowledge.perm (lotsOf_perm _ hkeeps.buckets.symm (.refl _))
  · apply h.of_lots_perm
    rw [lotsOf_held_other hb]
    exact lotsOf_perm _ hkeeps.buckets.symm (.refl _)

/-! ## Executions -/

/-- Work on a held bucket. -/
theorem Tended.work {e : Engine σ} {r : Execution σ × Engine σ}
    (h : Tended id ⟨e.tracker, e.channel, ls, ⟨b, s⟩ :: held⟩) (hacts : Execution.Acts b s e r) :
    Tended id ⟨r.2.tracker, r.2.channel, ls, ⟨b, r.1.standing⟩ :: held⟩ := by
  rw [hacts.channel]
  by_cases hb : b.commandId = id
  · subst hb
    constructor
    · exact fun hunseen => absurd hunseen (h.seen rfl)
    · intro l hl stock hstock
      have hbooks := (h.kept l hl stock hstock).perm (lotsOf_held_self _ _ rfl)
      exact (hacts.books _ _ hbooks).perm (lotsOf_held_self _ _ rfl).symm
  · -- another command: its buckets stay as they are, and it can only be dropped
    have hsame : Tended id ⟨e.tracker, e.channel, ls, ⟨b, r.1.standing⟩ :: held⟩ := by
      refine h.of_lots_perm (.of_eq ?_)
      rw [lotsOf_held_other hb, lotsOf_held_other hb]
    refine hsame.of_same_or_gone ?_ (hacts.spares.live?_others (Ne.symm hb))
    obtain hfind | hfind := hacts.spares.others id (Ne.symm hb)
    · rw [hfind]
      exact (Decidable.em _)
    · exact .inl hfind

/-! ## Scroll loops -/

/-- The loops with another one in the place of that of its key. -/
def setLoop (ls : List (ScrollLoop σ)) (l' : ScrollLoop σ) : List (ScrollLoop σ) :=
  ls.map fun m => if m.key == l'.key then l' else m

variable {l l' : ScrollLoop σ}

/-- Loops with distinct keys that have the key of a loop are that loop. -/
theorem eq_of_key {m : ScrollLoop σ} (hkeys : (ls.map (·.key)).Nodup) (hl : l ∈ ls) (hm : m ∈ ls)
    (hkey : m.key = l.key) : m = l :=
  List.inj_on_of_nodup_map hkeys hm hl hkey

theorem filter_setLoop (hkeys : (ls.map (·.key)).Nodup) (hl : l ∈ ls) (hkey : l'.key = l.key)
    (hid : l'.id = l.id) (id : CommandId) :
    (setLoop ls l').filter (·.id == id) = setLoop (ls.filter (·.id == id)) l' := by
  rw [setLoop, List.filter_map, setLoop]
  congr 1
  apply List.filter_congr
  intro m hm
  rw [Function.comp_apply]
  split
  · rename_i hmk
    rw [hid, eq_of_key hkeys hl hm ((eq_of_beq hmk).trans hkey)]
  · rfl

/-- The one loop of a command is the one that takes a step, and what became of that afterwards. -/
theorem filter_setLoop_self (hkeys : (ls.map (·.key)).Nodup) (hl : l ∈ ls) (hkey : l'.key = l.key)
    (hid : l'.id = l.id) {m : ScrollLoop σ} (h : ls.filter (·.id == l.id) = [m]) :
    m = l ∧ (setLoop ls l').filter (·.id == l.id) = [l'] := by
  have hmem : l ∈ ls.filter (·.id == l.id) := List.mem_filter.2 ⟨hl, beq_self_eq_true _⟩
  rw [h, List.mem_singleton] at hmem
  subst hmem
  refine ⟨rfl, ?_⟩
  rw [filter_setLoop hkeys hl hkey hid, h, setLoop, List.map_singleton, hkey,
    if_pos (beq_self_eq_true _)]

/-- The one loop of a command after a step of some loop: that loop, or the one there was. -/
theorem setLoop_eq_singleton (hkeys : (ls.map (·.key)).Nodup) (hl : l ∈ ls) (hkey : l'.key = l.key)
    (hid : l'.id = l.id) {m : ScrollLoop σ} (h : (setLoop ls l').filter (·.id == id) = [m]) :
    ls.filter (·.id == id) = [l] ∧ l.id = id ∧ m = l' ∨
      ls.filter (·.id == id) = [m] ∧ l.id ≠ id := by
  rw [filter_setLoop hkeys hl hkey hid, setLoop] at h
  obtain ⟨m₀, hm₀, hm⟩ := List.map_eq_singleton_iff.1 h
  have hmem : m₀ ∈ ls.filter (·.id == id) := by
    rw [hm₀]
    exact List.mem_singleton_self m₀
  obtain ⟨hmem, hmid⟩ := List.mem_filter.1 hmem
  by_cases hlid : l.id = id
  · have hlmem : l ∈ ls.filter (·.id == id) := List.mem_filter.2 ⟨hl, by simpa using hlid⟩
    rw [hm₀, List.mem_singleton] at hlmem
    subst hlmem
    rw [hkey, if_pos (beq_self_eq_true _)] at hm
    exact .inl ⟨hm₀, hlid, hm.symm⟩
  · have hne : (m₀.key == l'.key) = false := by
      refine beq_eq_false_iff_ne.2 fun hk => hlid ?_
      rw [← eq_of_key hkeys hl hmem (hk.trans hkey)]
      exact eq_of_beq hmid
    rw [hne, if_neg Bool.false_ne_true] at hm
    exact .inr ⟨hm ▸ hm₀, hlid⟩

theorem mem_setLoop {m : ScrollLoop σ} (h : m ∈ setLoop ls l') : m = l' ∨ m ∈ ls := by
  obtain ⟨m₀, hm₀, rfl⟩ := List.mem_map.1 h
  split
  · exact .inl rfl
  · exact .inr hm₀

theorem setLoop_self (hkeys : (ls.map (·.key)).Nodup) (hl : l ∈ ls) : setLoop ls l = ls := by
  refine (List.map_congr_left ?_).trans (List.map_id ls)
  intro m hm
  split
  · rename_i hmk
    exact (eq_of_key hkeys hl hm (eq_of_beq hmk)).symm
  · rfl

/-- A step changes nothing of what the loops scroll. -/
theorem command_setLoop (hkeys : (ls.map (·.key)).Nodup) (hl : l ∈ ls) (hkey : l'.key = l.key)
    (hcommand : l'.command = l.command) :
    (setLoop ls l').map (·.command) = ls.map (·.command) := by
  rw [setLoop, List.map_map]
  refine List.map_congr_left fun m hm => ?_
  rw [Function.comp_apply]
  split
  · rename_i hmk
    rw [hcommand, eq_of_key hkeys hl hm ((eq_of_beq hmk).trans hkey)]
  · rfl

theorem setLoop_of_not_mem (h : l'.key ∉ ls.map (·.key)) : setLoop ls l' = ls := by
  refine (List.map_congr_left ?_).trans (List.map_id ls)
  intro m hm
  have hne : m.key ≠ l'.key := fun heq => h (List.mem_map.2 ⟨m, hm, heq⟩)
  rw [beq_eq_false_iff_ne.2 hne, if_neg Bool.false_ne_true]
  rfl

/-- A step of a loop leaves the loops of other commands where they are. -/
theorem filter_setLoop_other (hkeys : (ls.map (·.key)).Nodup) (hl : l ∈ ls) (hkey : l'.key = l.key)
    (hid : l'.id = l.id) (hne : l.id ≠ id) :
    (setLoop ls l').filter (·.id == id) = ls.filter (·.id == id) := by
  rw [filter_setLoop hkeys hl hkey hid]
  refine setLoop_of_not_mem fun hmem => ?_
  obtain ⟨m, hm, hmkey⟩ := List.mem_map.1 hmem
  obtain ⟨hm, hmid⟩ := List.mem_filter.1 hm
  rw [eq_of_key hkeys hl hm (hmkey.trans hkey)] at hmid
  exact hne (eq_of_beq hmid)

/-- The one loop of a command when some loop has turned to another phase. -/
theorem filter_setLoop_cases (hkeys : (ls.map (·.key)).Nodup) (hl : l ∈ ls)
    (hloop : ∃ phase, l' = { l with phase := phase }) {m : ScrollLoop σ}
    (h : ls.filter (·.id == id) = [m]) :
    m = l ∧ l.id = id ∧ (setLoop ls l').filter (·.id == id) = [l'] ∨
      l.id ≠ id ∧ (setLoop ls l').filter (·.id == id) = [m] := by
  obtain ⟨phase, hphase⟩ := hloop
  have hkey : l'.key = l.key := by rw [hphase]
  have hsame : l'.id = l.id := by rw [hphase]; rfl
  by_cases hid : l.id = id
  · subst hid
    obtain ⟨hm, hset⟩ := filter_setLoop_self hkeys hl hkey hsame h
    exact .inl ⟨hm, rfl, hset⟩
  · right
    rw [filter_setLoop_other hkeys hl hkey hsame hid]
    exact ⟨hid, h⟩

/-- A loop that takes the place of that of its key leaves the others where they are. -/
theorem setLoop_append {front rear : List (ScrollLoop σ)}
    (hkeys : ((front ++ l :: rear).map (·.key)).Nodup) (hkey : l'.key = l.key) :
    setLoop (front ++ l :: rear) l' = front ++ l' :: rear := by
  rw [List.map_append, List.map_cons] at hkeys
  have hnot := (List.nodup_cons.1 (List.perm_middle.nodup hkeys)).1
  rw [List.mem_append, not_or, ← hkey] at hnot
  have hfront : setLoop front l' = front := setLoop_of_not_mem hnot.1
  have hrear : setLoop rear l' = rear := setLoop_of_not_mem hnot.2
  unfold setLoop at *
  rw [List.map_append, List.map_cons, hfront, hrear, hkey, if_pos (beq_self_eq_true _)]

theorem mem_setLoop_iff (hl : l ∈ ls) (hkey : l'.key = l.key)
    {m : ScrollLoop σ} : m ∈ setLoop ls l' ↔ m = l' ∨ m ∈ ls ∧ m.key ≠ l.key := by
  constructor
  · intro hm
    obtain ⟨m₀, hm₀, rfl⟩ := List.mem_map.1 hm
    split
    · exact .inl rfl
    · rename_i hne
      exact .inr ⟨hm₀, fun heq => hne (beq_iff_eq.2 (heq.trans hkey.symm))⟩
  · rintro (rfl | ⟨hm, hne⟩)
    · exact List.mem_map.2 ⟨l, hl, by rw [hkey, if_pos (beq_self_eq_true _)]⟩
    · refine List.mem_map.2 ⟨m, hm, ?_⟩
      rw [if_neg]
      exact fun heq => hne ((eq_of_beq heq).trans hkey)

theorem mem_setLoop_self (hl : l ∈ ls) (hkey : l'.key = l.key) : l' ∈ setLoop ls l' :=
  List.mem_map.2 ⟨l, hl, by rw [hkey, if_pos (beq_self_eq_true _)]⟩

/-- A step of a scroll loop. -/
theorem Tended.scroll {e : Engine σ} {r : ScrollLoop σ × Engine σ} {stock : Stock}
    (h : Tended id ⟨e.tracker, e.channel, ls, held⟩) (hkeys : (ls.map (·.key)).Nodup) (hl : l ∈ ls)
    (hstock : l.phase.stock? = some stock) (hacts : ScrollLoop.Acts l stock e r)
    (hfits : l.id = id → r.1.phase.scrolled < wordCount) :
    Tended id ⟨r.2.tracker, r.2.channel, setLoop ls r.1, held⟩ where
  unseen hunseen := by
    have hid : r.1.id = l.id := congrArg Command.id hacts.command
    rw [filter_setLoop hkeys hl hacts.key hid, setLoop, List.map_eq_nil_iff] at hunseen
    -- a command without a loop is not the one whose loop took a step
    have hne : id ≠ l.id := by
      rintro rfl
      have hmem : l ∈ ls.filter (·.id == l.id) := List.mem_filter.2 ⟨hl, beq_self_eq_true _⟩
      rw [hunseen] at hmem
      exact absurd hmem List.not_mem_nil
    obtain ⟨hgone, hnone⟩ := h.unseen hunseen
    refine ⟨?_, ?_⟩
    · obtain hfind | hfind := hacts.minds.spares.others id hne
      · rw [hfind]
        exact hgone
      · exact hfind
    · have hlots := hacts.minds.lotsOf_other hne held
      rw [hnone] at hlots
      exact hlots.eq_nil
  kept m hm := by
    have hid : r.1.id = l.id := congrArg Command.id hacts.command
    obtain ⟨hl', rfl, rfl⟩ | ⟨hm', hlid⟩ := setLoop_eq_singleton hkeys hl hacts.key hid hm
    · have hkept := h.kept l hl'
      rw [hstock] at hkept
      exact hacts.books (hfits rfl) held hkept
    · exact hacts.minds.kept_other (Ne.symm hlid) (h.kept m hm')

/-- A new command is accepted, with a loop of its own that has not begun. -/
theorem Tended.submit {now : Timestamp} {command : Command}
    (h : Tended id ⟨t, c, ls, held⟩) (hreg : t.register now command = .ok u)
    (hkeeps : Channel.Keeps c d) (hcommand : l.command = command) (hphase : l.phase = .created) :
    Tended id ⟨u, d, ls ++ [l], held⟩ := by
  have hid : l.id = command.id := congrArg Command.id hcommand
  obtain ⟨hnew, hfind⟩ := Tracker.register_eq_ok hreg
  have hlots := lotsOf_perm id hkeeps.buckets (.refl held)
  by_cases hne : command.id = id
  · -- the command itself: its loop is the first, or else there is more than one
    have happend : (ls ++ [l]).filter (·.id == id) = ls.filter (·.id == id) ++ [l] := by
      simp [hid, hne]
    constructor
    · intro hunseen
      rw [happend] at hunseen
      exact absurd hunseen (by simp)
    · intro m hm
      rw [happend] at hm
      have hfirst : ls.filter (·.id == id) = [] ∧ m = l := by
        obtain ⟨hnil, hlast⟩ | ⟨hone, hnil⟩ := List.append_eq_singleton_iff.1 hm
        · exact ⟨hnil, (List.singleton_inj.1 hlast).symm⟩
        · exact absurd hnil (by simp)
      obtain ⟨hunseen, rfl⟩ := hfirst
      obtain ⟨-, hnone⟩ := h.unseen hunseen
      rw [hnone] at hlots
      intro stock hstock
      rw [hphase] at hstock
      obtain rfl := Option.some.inj hstock
      show Books _ (u.live? id) (lotsOf id d held)
      have hlive : u.live? id = some (Progress.new command now) := by
        rw [Tracker.live?, hfind id, if_pos hne.symm]
        rfl
      rw [hlots.eq_nil, hlive]
      exact .accepted command now
  · -- another command: nothing of it has changed
    have happend : (ls ++ [l]).filter (·.id == id) = ls.filter (·.id == id) := by
      simp [hid, hne]
    have hsame : u.find? id = t.find? id := by rw [hfind id, if_neg (Ne.symm hne)]
    constructor
    · intro hunseen
      rw [happend] at hunseen
      obtain ⟨hgone, hnone⟩ := h.unseen hunseen
      rw [hnone] at hlots
      exact ⟨hsame.trans hgone, hlots.eq_nil⟩
    · intro m hm
      rw [happend] at hm
      intro stock hstock
      have hlive : u.live? id = t.live? id := by rw [Tracker.live?, hsame, Tracker.live?]
      exact ((h.kept m hm stock hstock).same_or_gone (.inl hlive)).perm hlots.symm

end View

end BulkRun
