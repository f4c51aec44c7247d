import BulkRun.Proofs.Dispatch.Bench
import BulkRun.Proofs.Dispatch.NotHanging
import BulkRun.Proofs.Dispatch.ScrollDues
/-!
# Every event of a workshop leaves all dues covered

At a bench where a command meets its dues, whatever is published of it and not done is covered by
what was scrolled of it and not worked on yet.  Every grip and every deal keeps this
(`MeetsDues.handles`, `MeetsDues.deals`), as long as no work is broken off, and therefore so does
every event (`Dutiful.next?`), unless a bucket is handed back with some of its batches counted and
others not.  As a consequence a command at whose batches somebody works goes on, unless it is
aborted (`MeetsDues.goes_on`).
-/

namespace BulkRun

open Relation (ReflTransGen)
open Tracker (Report Heeds)

variable {σ : Type} {setup : Setup σ} {id : CommandId}

namespace Channel

/-- A bucket that is handed back lies in the channel again, unless there is no such partition. -/
theorem handBack_cases (c : Channel) (v : Delivery) :
    Takes c (c.handBack v) v.bucket ∨ Keeps c (c.handBack v) := by
  obtain h | h := Nat.lt_or_ge v.partition c.partitions.length
  · exact .inl (takes_handBack h)
  · right
    unfold handBack
    simp only [List.getElem?_eq_none h]
    exact ⟨.refl _, rfl⟩

end Channel

/-! ## The lots at a bench -/

/-- The buckets of a command that are at hand. -/
def handLots (id : CommandId) (hs : Multiset (Hand σ)) : Multiset Lot :=
  (hs.map Hand.lot).filter fun lot => lot.bucket.commandId = id

@[simp]
theorem Hand.bucket_lot (h : Hand σ) : h.lot.bucket = h.delivery.bucket := by
  unfold lot
  split <;> rfl

variable {h : Hand σ} {hs : Multiset (Hand σ)}

/-- Nobody is at work on a bucket at hand that rests. -/
theorem Hand.standing_of_rests (hrests : h.rests = true) (left : Nat) :
    h.lot.standing ≠ .working left := by
  unfold rests at hrests
  unfold lot
  cases hx : h.execution with
  | none => simp [Lot.lying]
  | some x =>
    rw [hx] at hrests
    cases x with
    | finished result => simp [Execution.standing, Execution.work?]
    | _ => exact absurd hrests (by simp [Execution.result?])

theorem Hand.not_isMidway (hrests : h.rests = true) : ¬h.lot.IsMidway :=
  fun ⟨left, hleft, _⟩ => h.standing_of_rests hrests left hleft

/-- The lot of somebody who is at work. -/
theorem Hand.lot_of_work? {v : Delivery} {x : Execution σ} {w : Work σ} (hw : x.work? = some w) :
    Hand.lot ⟨v, some x⟩ = ⟨v.bucket, .working w.left⟩ := by
  rw [Hand.lot]
  simp only [Execution.standing, hw]

theorem handLots_cons_self (hid : h.delivery.bucket.commandId = id) :
    handLots id (h ::ₘ hs) = h.lot ::ₘ handLots id hs := by
  rw [handLots, Multiset.map_cons, Multiset.filter_cons_of_pos, handLots]
  rw [h.bucket_lot]
  exact hid

theorem handLots_cons_other (hid : h.delivery.bucket.commandId ≠ id) :
    handLots id (h ::ₘ hs) = handLots id hs := by
  rw [handLots, Multiset.map_cons, Multiset.filter_cons_of_neg, handLots]
  rw [h.bucket_lot]
  exact hid

namespace Bench

/-- The published buckets of a command: those in the channel, and those at hand. -/
def lots (id : CommandId) (b : Bench σ) : Multiset Lot :=
  b.engine.channel.lots id + handLots id b.hands

theorem lots_cons_self {e : Engine σ} {ls : List (ScrollLoop σ)}
    (hid : h.delivery.bucket.commandId = id) :
    lots id ⟨e, ls, h ::ₘ hs⟩ = h.lot ::ₘ lots id ⟨e, ls, hs⟩ := by
  rw [lots, handLots_cons_self hid, Multiset.add_cons]
  rfl

theorem lots_cons_other {e : Engine σ} {ls : List (ScrollLoop σ)}
    (hid : h.delivery.bucket.commandId ≠ id) :
    lots id ⟨e, ls, h ::ₘ hs⟩ = lots id ⟨e, ls, hs⟩ := by
  rw [lots, handLots_cons_other hid, lots]

/-- Of what was published of a command, nothing is at work without records left. -/
theorem Sound.standing_ne {b : Bench σ} (hb : b.Sound) {lot : Lot} (hlot : lot ∈ b.lots id) :
    lot.standing ≠ .working 0 := by
  obtain hlot | hlot := Multiset.mem_add.1 hlot
  · obtain ⟨hlot, -⟩ := List.mem_filter.1 (Multiset.mem_coe.1 hlot)
    rw [List.append_nil] at hlot
    obtain ⟨b, -, rfl⟩ := List.mem_map.1 hlot
    simp [Lot.lying]
  · obtain ⟨hlot, -⟩ := Multiset.mem_filter.1 hlot
    obtain ⟨h, hh, rfl⟩ := Multiset.mem_map.1 hlot
    unfold Hand.lot
    cases hx : h.execution with
    | none => simp [Lot.lying]
    | some x =>
      simp only [Execution.standing]
      cases hw : x.work? with
      | none => simp
      | some w =>
        have hsolid : w.batch.ids ≠ [] := hb.solid h hh x hx w hw w.batch List.mem_cons_self
        have hpos := List.length_pos_of_ne_nil hsolid
        simp only [Work.left, ne_eq, Standing.working.injEq]
        omega

/-- A grip begins a batch only for a command that is there and not aborted; the records of the batch
are left then. -/
theorem Sound.begun {b c : Bench σ} {w : Work σ} (hb : b.Sound)
    (hgrip : Handles setup b (some (.opened w)) c) :
    ⟨w.bucket, .working w.left⟩ ∈ c.lots w.command.id ∧
      ∃ p, c.engine.tracker.find? w.command.id = some p ∧ p.state ≠ .aborted := by
  have hsound := hb.handles hgrip
  have hopened {x : Execution σ} (hx : some (.opened w) = x.sign?) : x.opened? = some w := by
    obtain ⟨v, hv, hvw⟩ := Option.map_eq_some_iff.1 hx.symm
    obtain rfl := Sign.opened.inj hvw
    exact hv
  have hlots {e : Engine σ} {ls : List (ScrollLoop σ)} {hs : Multiset (Hand σ)} {v : Delivery}
      {x : Execution σ} (hserves : x.Serves v.bucket) (hx : x.opened? = some w) :
      ⟨w.bucket, .working w.left⟩ ∈ lots w.command.id ⟨e, ls, ⟨v, some x⟩ ::ₘ hs⟩ := by
    have hw := Execution.work?_of_opened? hx
    obtain ⟨hbucket, hid⟩ := hserves w hw
    rw [lots_cons_self hid.symm, Hand.lot_of_work? hw, hbucket]
    exact Multiset.mem_cons_self _ _
  generalize hsign : some (Sign.opened w) = sign at hgrip
  cases hgrip with
  | @start e ls hs v r h =>
    subst h
    have hw := hopened hsign
    have hserves := (Multiset.forall_mem_cons.1 hsound.serves).1 _ rfl
    refine ⟨hlots hserves hw, ?_⟩
    rw [(hserves w (Execution.work?_of_opened? hw)).2]
    exact (Execution.begins_start setup v.bucket e).begun hw
  | @work e ls hs v x r h =>
    have hw := hopened hsign
    obtain ⟨w', hw', hworks⟩ := Execution.works_step? hb.distinct h
    have hserves := (Multiset.forall_mem_cons.1 hsound.serves).1 _ rfl
    have hserves' := (Multiset.forall_mem_cons.1 hb.serves).1 x rfl
    refine ⟨hlots hserves hw, ?_⟩
    -- it is the same command as that of the batch before
    rw [(hserves w (Execution.work?_of_opened? hw)).2, ← (hserves' w' hw').2]
    exact hworks.begun hw
  | receive => exact absurd hsign (by simp)
  | acknowledge => exact absurd hsign (by simp)
  | handBack h =>
    split at hsign
    · exact absurd hsign (by simp)
    · exact absurd hsign (by simp)

/-- What is true of a bench as long as a command meets its dues. -/
structure MeetsDues (id : CommandId) (b : Bench σ) : Prop extends Sound b where
  unseen : b.loops.filter (·.id == id) = [] → b.engine.tracker.find? id = none ∧ b.lots id = 0
  dues : ∀ l, b.loops.filter (·.id == id) = [l] →
    Dues l.phase.owed (b.engine.tracker.find? id) (b.lots id)

namespace MeetsDues

variable {e : Engine σ} {ls : List (ScrollLoop σ)} {d : Channel} {v : Delivery} {b c : Bench σ}
  {sign : Option (Sign σ)}

/-- A bucket that changes hands. -/
theorem of_lots {hs' : Multiset (Hand σ)} (hb : MeetsDues id ⟨e, ls, hs⟩)
    (hsound : Sound ⟨{ e with channel := d }, ls, hs'⟩)
    (hlots : lots id ⟨{ e with channel := d }, ls, hs'⟩ = lots id ⟨e, ls, hs⟩) :
    MeetsDues id ⟨{ e with channel := d }, ls, hs'⟩ where
  toSound := hsound
  unseen hunseen := by
    obtain ⟨hgone, hnone⟩ := hb.unseen hunseen
    exact ⟨hgone, hlots.trans hnone⟩
  dues l hl := by
    rw [hlots]
    exact hb.dues l hl

theorem receive (hb : MeetsDues id ⟨e, ls, hs⟩) (hgives : Channel.Gives e.channel d v)
    (hsound : Sound ⟨{ e with channel := d }, ls, ⟨v, none⟩ ::ₘ hs⟩) :
    MeetsDues id ⟨{ e with channel := d }, ls, ⟨v, none⟩ ::ₘ hs⟩ := by
  refine hb.of_lots hsound ?_
  have htakes : Channel.Takes d e.channel v.bucket := ⟨hgives.buckets, hgives.length.symm⟩
  by_cases hid : v.bucket.commandId = id
  · rw [lots_cons_self hid, lots, lots, Channel.lots_takes htakes hid, Multiset.cons_add]
    rfl
  · rw [lots_cons_other hid, lots, lots, Channel.lots_takes_other htakes hid]

/-- A command of which nothing was published has no bucket at hand. -/
theorem ne_of_unseen (hb : MeetsDues id ⟨e, ls, h ::ₘ hs⟩)
    (hunseen : ls.filter (·.id == id) = []) : h.delivery.bucket.commandId ≠ id := by
  intro hid
  have hnone := (hb.unseen hunseen).2
  rw [lots_cons_self hid] at hnone
  exact Multiset.cons_ne_zero hnone

theorem ne_of_mem (hb : b.MeetsDues id) (hunseen : b.loops.filter (·.id == id) = [])
    (hh : h ∈ b.hands) : h.delivery.bucket.commandId ≠ id := by
  obtain ⟨e, ls, hs⟩ := b
  obtain ⟨rest, rfl⟩ := Multiset.exists_cons_of_mem hh
  exact hb.ne_of_unseen hunseen

/-- Work on a bucket at hand. -/
theorem progress {r : Execution σ × Engine σ} (hb : MeetsDues id ⟨e, ls, h ::ₘ hs⟩)
    (hsound : Sound ⟨r.2, ls, ⟨h.delivery, some r.1⟩ ::ₘ hs⟩)
    (hevolves : Execution.Evolves e r.2)
    (hspares : Tracker.Spares h.delivery.bucket.commandId e.tracker r.2.tracker)
    (hdues : ∀ owed lots, h.delivery.bucket.commandId = id →
      Dues owed (e.tracker.find? id) (h.lot ::ₘ lots) →
      Dues owed (r.2.tracker.find? id) (⟨h.delivery.bucket, r.1.standing⟩ ::ₘ lots)) :
    MeetsDues id ⟨r.2, ls, ⟨h.delivery, some r.1⟩ ::ₘ hs⟩ := by
  have hrest : lots id ⟨r.2, ls, hs⟩ = lots id ⟨e, ls, hs⟩ := by
    rw [lots, lots, hevolves.channel]
  refine ⟨hsound, ?_, ?_⟩
  · intro hunseen
    obtain ⟨hgone, hnone⟩ := hb.unseen hunseen
    have hid := hb.ne_of_unseen hunseen
    refine ⟨hevolves.tracker.find?_none hgone, ?_⟩
    rw [lots_cons_other hid] at hnone
    rw [lots_cons_other (h := ⟨h.delivery, some r.1⟩) hid, hrest]
    exact hnone
  · intro l hl
    have hold := hb.dues l hl
    by_cases hid : h.delivery.bucket.commandId = id
    · rw [lots_cons_self hid] at hold
      rw [lots_cons_self (h := ⟨h.delivery, some r.1⟩) hid, hrest]
      exact hdues _ _ hid hold
    · -- another command: its buckets stay as they are, and it can only be dropped
      rw [lots_cons_other hid] at hold
      rw [lots_cons_other (h := ⟨h.delivery, some r.1⟩) hid, hrest]
      exact hold.same_or_gone (hspares.others id (Ne.symm hid))

/-- A bucket at hand is let go of. -/
theorem letGo (hb : MeetsDues id ⟨e, ls, h ::ₘ hs⟩)
    (hwhole : h.delivery.bucket.commandId = id → ¬h.lot.IsMidway)
    (hd : Channel.Takes e.channel d h.delivery.bucket ∨ Channel.Keeps e.channel d) :
    MeetsDues id ⟨{ e with channel := d }, ls, hs⟩ := by
  have hsound : Sound ⟨{ e with channel := d }, ls, hs⟩ :=
    ⟨hb.distinct, (Multiset.forall_mem_cons.1 hb.serves).2, (Multiset.forall_mem_cons.1 hb.solid).2⟩
  by_cases hid : h.delivery.bucket.commandId = id
  · refine ⟨hsound, ?_, ?_⟩
    · exact fun hunseen => absurd hid (hb.ne_of_unseen hunseen)
    · intro l hl
      have hold := hb.dues l hl
      rw [lots_cons_self hid] at hold
      obtain htakes | hkeeps := hd
      · rw [lots, Channel.lots_takes htakes hid, Multiset.cons_add]
        rw [← h.bucket_lot]
        exact hold.putBack (hwhole hid)
      · rw [lots, Channel.lots_keeps hkeeps]
        exact hold.drop
  · refine hb.of_lots hsound ?_
    rw [lots_cons_other hid, lots, lots]
    obtain htakes | hkeeps := hd
    · rw [Channel.lots_takes_other htakes hid]
    · rw [Channel.lots_keeps hkeeps]

/-- Every grip leaves the dues covered, unless work is broken off. -/
theorem handles (hb : b.MeetsDues id) (hgrip : Handles setup b sign c)
    (hwhole : sign ≠ some .brokenOff) : c.MeetsDues id := by
  have hsound := hb.toSound.handles hgrip
  cases hgrip with
  | receive h =>
    obtain h | h := h
    · exact hb.receive (Channel.gives_unstash? h) hsound
    · exact hb.receive (Channel.gives_dequeue? h) hsound
  | @start e ls hs v r h =>
    subst h
    have hbegins := Execution.begins_start setup v.bucket e
    refine hb.progress hsound hbegins.evolves Execution.acts_start.spares ?_
    rintro owed lots rfl hold
    exact hbegins.dues hold
  | @work e ls hs v x r h =>
    obtain ⟨w, hw, hworks⟩ := Execution.works_step? hb.distinct h
    have hserves := (Multiset.forall_mem_cons.1 hb.serves).1 x rfl
    refine hb.progress hsound hworks.evolves
      (Execution.acts_step? hserves hb.distinct h).spares ?_
    rintro owed lots rfl hold
    rw [Hand.lot_of_work? hw] at hold
    exact hworks.dues (hserves w hw).1 (hserves w hw).2 hold
  | acknowledge result => exact hb.letGo (fun _ => Hand.not_isMidway rfl) (.inr ⟨.refl _, rfl⟩)
  | @handBack e ls hs h =>
    refine hb.letGo (fun _ => h.not_isMidway ?_) (e.channel.handBack_cases h.delivery)
    by_contra hrests
    exact hwhole (by rw [if_neg hrests])

/-- Whatever is done in a few grips without a sign leaves the dues covered. -/
theorem handles_chain (hb : b.MeetsDues id) (hchain : ReflTransGen (Handles setup · none ·) b c) :
    c.MeetsDues id := by
  induction hchain with
  | refl => exact hb
  | tail _ hgrip ih => exact ih.handles hgrip (by simp)

/-- A step of a scroll loop. -/
theorem scroll {l : ScrollLoop σ} {r : ScrollLoop σ × Engine σ} (hb : b.MeetsDues id)
    (hkeys : (b.loops.map (·.key)).Nodup) (hl : l ∈ b.loops) (hkey : r.1.key = l.key)
    (hcommand : r.1.command = l.command)
    (hminds : Scene.Minds l.id b.engine.tracker r.2.tracker b.engine.channel r.2.channel)
    (hdues : l.id = id → b.loops.filter (·.id == id) = [l] →
      Dues l.phase.owed (b.engine.tracker.find? id) (b.lots id) →
      Dues r.1.phase.owed (r.2.tracker.find? id) (r.2.channel.lots id + handLots id b.hands)) :
    MeetsDues id ⟨r.2, View.setLoop b.loops r.1, b.hands⟩ := by
  have hid : r.1.id = l.id := congrArg Command.id hcommand
  have hother (hne : id ≠ l.id) : lots id ⟨r.2, View.setLoop b.loops r.1, b.hands⟩ = b.lots id := by
    have hlots : r.2.channel.lots id = b.engine.channel.lots id :=
      Multiset.coe_eq_coe.2 (hminds.lotsOf_other hne [])
    rw [lots, hlots, lots]
  refine ⟨⟨hminds.spares.distinct hb.distinct, hb.serves, hb.solid⟩, ?_, ?_⟩
  · intro hunseen
    rw [View.filter_setLoop hkeys hl hkey hid, View.setLoop, List.map_eq_nil_iff] at hunseen
    -- a command without a loop is not the one whose loop took a step
    have hne : id ≠ l.id := by
      rintro rfl
      have hmem : l ∈ b.loops.filter (·.id == l.id) := List.mem_filter.2 ⟨hl, beq_self_eq_true _⟩
      rw [hunseen] at hmem
      exact absurd hmem List.not_mem_nil
    obtain ⟨hgone, hnone⟩ := hb.unseen hunseen
    refine ⟨?_, (hother hne).trans hnone⟩
    obtain hfind | hfind := hminds.spares.others id hne
    · exact hfind.trans hgone
    · exact hfind
  · intro m hm
    obtain ⟨hl', rfl, rfl⟩ | ⟨hm', hne⟩ := View.setLoop_eq_singleton hkeys hl hkey hid hm
    · exact hdues rfl hl' (hb.dues l hl')
    · rw [hother (Ne.symm hne)]
      exact (hb.dues m hm').same_or_gone (hminds.spares.others id (Ne.symm hne))

/-- A change of the tracker alone, after which every command meets its dues that did before. -/
theorem of_tracker {u : Tracker} (hb : b.MeetsDues id) (hdistinct : u.Distinct)
    (hgone : b.engine.tracker.find? id = none → u.find? id = none)
    (hdues : ∀ owed lots, Dues owed (b.engine.tracker.find? id) lots →
      Dues owed (u.find? id) lots) :
    MeetsDues id ⟨{ b.engine with tracker := u }, b.loops, b.hands⟩ :=
  ⟨⟨hdistinct, hb.serves, hb.solid⟩,
    fun hunseen => (hb.unseen hunseen).imp_left hgone, fun l hl => hdues _ _ (hb.dues l hl)⟩

/-- A change of the channel that keeps its buckets. -/
theorem of_keeps {d : Channel} (hb : b.MeetsDues id) (hkeeps : Channel.Keeps b.engine.channel d) :
    MeetsDues id ⟨{ b.engine with channel := d }, b.loops, b.hands⟩ :=
  hb.of_lots ⟨hb.distinct, hb.serves, hb.solid⟩ (by rw [lots, lots, Channel.lots_keeps hkeeps])

/-- A new command is accepted. -/
theorem accept {u : Tracker} {k : Command} {l : ScrollLoop σ} (hb : b.MeetsDues id)
    (hreg : b.engine.tracker.register b.engine.now k = .ok u) (hcommand : l.command = k)
    (hphase : l.phase = .created) :
    MeetsDues id ⟨{ b.engine with tracker := u, channel := b.engine.channel.addPublisher },
      b.loops ++ [l], b.hands⟩ := by
  have hid : l.id = k.id := congrArg Command.id hcommand
  have hsound : Sound ⟨{ b.engine with tracker := u, channel := b.engine.channel.addPublisher },
      b.loops ++ [l], b.hands⟩ :=
    ⟨Tracker.distinct_of_register hb.distinct hreg, hb.serves, hb.solid⟩
  obtain ⟨-, hfind⟩ := Tracker.register_eq_ok hreg
  by_cases hk : k.id = id
  · -- the command itself: its loop is the first, or else there is more than one
    have happend : (b.loops ++ [l]).filter (·.id == id) = b.loops.filter (·.id == id) ++ [l] := by
      simp [hid, hk]
    refine ⟨hsound, fun hunseen => ?_, fun m hm => ?_⟩
    · rw [happend] at hunseen
      exact absurd hunseen (by simp)
    · rw [happend] at hm
      obtain ⟨hunseen, hlast⟩ | ⟨-, hnil⟩ := List.append_eq_singleton_iff.1 hm
      · obtain rfl := List.singleton_inj.1 hlast
        show Dues l.phase.owed (u.find? id) (b.lots id)
        rw [(hb.unseen hunseen).2, hphase, hfind id, if_pos hk.symm]
        exact .accepted k b.engine.now
      · exact absurd hnil (by simp)
  · -- another command: nothing of it has changed
    have happend : (b.loops ++ [l]).filter (·.id == id) = b.loops.filter (·.id == id) := by
      simp [hid, hk]
    have hsame : u.find? id = b.engine.tracker.find? id := by rw [hfind id, if_neg (Ne.symm hk)]
    refine ⟨hsound, fun hunseen => ?_, fun m hm => ?_⟩
    · rw [happend] at hunseen
      exact (hb.unseen hunseen).imp_left hsame.trans
    · rw [happend] at hm
      show Dues _ (u.find? id) _
      rw [hsame]
      exact hb.dues m hm

/-- Every deal leaves the dues covered. -/
theorem deals (hb : b.MeetsDues id) (hdeal : Deals setup b sign c)
    (hkeys : (b.loops.map (·.key)).Nodup) (howned : ∀ l ∈ b.loops, l.phase.Owned l.id)
    (hcount : ∀ l g p, b.loops.filter (·.id == id) = [l] → l.phase = .fetching g →
      b.engine.tracker.find? id = some p → p.state.isTerminal = false → p.scrollCount = g.scrolled)
    (hfits : ∀ l ∈ c.loops, l.id = id → l.phase.scrolled < wordCount) : c.MeetsDues id := by
  cases hdeal with
  | @resume l hl hopen =>
    obtain ⟨stock, hstock⟩ := l.exists_stock hopen
    have hacts := ScrollLoop.acts_resume (e := b.engine) (howned l hl) hstock hopen
    refine hb.scroll hkeys hl hacts.key hacts.command hacts.minds ?_
    rintro rfl hone hdues
    refine (ScrollLoop.resumes_resume hopen).dues (howned l hl) (fun g p hphase =>
      hcount l g p hone hphase) (hfits _ ?_ ?_) hdues
    · exact View.mem_setLoop_self hl hacts.key
    · exact congrArg Command.id hacts.command
  | @putOff l r hl hr =>
    obtain ⟨hkey, hcommand, hminds⟩ : r.1.key = l.key ∧ r.1.command = l.command ∧
        Scene.Minds l.id b.engine.tracker r.2.tracker b.engine.channel r.2.channel := by
      obtain rfl | ⟨k, after, d, -, hd, rfl⟩ := ScrollLoop.putOff?_eq_some hr
      · exact ⟨rfl, rfl, .of_spares (.refl _ _)⟩
      · exact ⟨rfl, rfl, .of_keeps (.refl _ _) (Channel.keeps_reserve? hd)⟩
    refine hb.scroll hkeys hl hkey hcommand hminds ?_
    rintro rfl hone hdues
    exact ScrollLoop.dues_putOff? hr hdues
  | accept hprepare hreg => exact hb.accept hreg rfl rfl
  | @abort k message isNew u h =>
    obtain ⟨r, p, hr, ht⟩ := Tracker.heeds_abortWith h
    refine hb.of_tracker (ht.distinct hb.distinct) (ht.advances.find?_none)
      fun owed lots hdues => ?_
    by_cases hk : id = k
    · subst hk
      rw [ht.before] at hdues
      rw [ht.find?_self]
      exact hdues.heed_plain (Progress.isPlain_of_isAbort hr)
    · rw [ht.find?_other hk]
      exact hdues
  | @drop u h =>
    refine hb.of_tracker (h.distinct hb.distinct) (h.advances.find?_none) fun owed lots hdues => ?_
    exact hdues.same_or_gone (h.find?_eq id)
  | release => exact hb.of_keeps ⟨.refl _, rfl⟩
  | close hempty => exact hb.of_keeps (Channel.keeps_close hempty)
  | drift now world => exact ⟨⟨hb.distinct, hb.serves, hb.solid⟩, hb.unseen, hb.dues⟩

end MeetsDues

end Bench

namespace Workshop

variable {s t : Workshop σ}

/-- A workshop in which the books of a command are kept and its dues are met. -/
structure Dutiful (id : CommandId) (s : Workshop σ) : Prop where
  tends : s.Tends id
  meets : s.bench.MeetsDues id

/-- A loop that asks for a chunk knows how many records of its command were counted. -/
theorem Tends.counted (h : s.Tends id) {l : ScrollLoop σ} {g : Gathering} {p : Progress}
    (hl : s.system.loops.filter (·.id == id) = [l]) (hphase : l.phase = .fetching g)
    (hfind : s.system.engine.tracker.find? id = some p) (hopen : p.state.isTerminal = false) :
    p.scrollCount = g.scrolled := by
  have hbooks := h.tended.kept l hl g.stock (by rw [hphase]; rfl)
  have hlive : s.system.engine.tracker.live? id = some p := by
    rw [Tracker.live?_of_find? hfind]
    exact Progress.live_eq_some.2 ⟨hopen, rfl⟩
  exact (hbooks.kept p hlive).scrolled g.scrolled rfl

/-- Whether a bucket of a command is handed back in a move after some of its batches were counted
and before all were. -/
def Undoes (id : CommandId) (m : Move (Workshop σ) (Event σ)) : Prop :=
  ∃ k h, m.event = .handBack k ∧ m.before.hands[k]? = some h ∧
    h.delivery.bucket.commandId = id ∧ h.lot.IsMidway

theorem not_undoes {m : Move (Workshop σ) (Event σ)} (hwhole : sign? m ≠ some .brokenOff) :
    ¬Undoes id m := by
  rintro ⟨k, h, hevent, hk, -, hmidway⟩
  have hrests : h.rests = false := Bool.eq_false_iff.2 fun hrests => h.not_isMidway hrests hmidway
  apply hwhole
  simp only [sign?, hevent, hk, Option.bind_some, hrests, Bool.false_eq_true, if_false]

/-- Only deliveries that are handed back are broken off. -/
theorem sign?_ne_brokenOff {event : Event σ} (hevent : ∀ k, event ≠ .handBack k) :
    sign? ⟨s, event, t⟩ ≠ some .brokenOff := by
  have hhand (h : Option (Hand σ)) : h.bind Hand.sign? ≠ some .brokenOff := by
    simp [Hand.sign?, Execution.sign?, Option.bind_eq_some_iff]
  cases event with
  | system event =>
    cases event with
    | step task =>
      cases task with
      | scroll key =>
        intro hsign
        obtain ⟨l, -, hl⟩ := Option.bind_eq_some_iff.1 hsign
        obtain ⟨answer, -, h⟩ | ⟨b, -, h⟩ := ScrollLoop.sign?_eq_some hl
        · exact absurd h (by simp)
        · exact absurd h (by simp)
      | consume i => exact hhand _
      | watch i => simp [sign?]
    | abort k message =>
      unfold sign?
      dsimp only
      split
      · simp
      · simp
    | _ => simp [sign?]
  | start k => exact hhand _
  | work k => exact hhand _
  | handBack k => exact absurd rfl (hevent k)
  | _ => simp [sign?]

/-- Whatever happens, the dues are met, as long as no bucket is handed back half counted. -/
theorem Dutiful.next? {event : Event σ} (h : s.Dutiful id) (hnext : s.next? setup event = some t)
    (hwhole : ¬Undoes id ⟨s, event, t⟩)
    (hfits : ∀ l ∈ t.system.loops, l.id = id → l.phase.scrolled < wordCount) : t.Dutiful id where
  tends := h.tends.next? hnext hfits
  meets := by
    by_cases hevent : ∃ k, event = .handBack k
    · obtain ⟨k, rfl⟩ := hevent
      obtain ⟨hand, hk, rfl⟩ := Option.map_eq_some_iff.1 hnext
      obtain ⟨rest, hbefore, hafter, -⟩ := exists_bench_hand hk
      have hmeets := h.meets
      rw [hbefore] at hmeets
      rw [withChannel, hafter]
      exact hmeets.letGo (fun hid hmidway => hwhole ⟨k, hand, rfl, hk, hid, hmidway⟩)
        (s.system.engine.channel.handBack_cases hand.delivery)
    · have hsign : sign? ⟨s, event, t⟩ ≠ some .brokenOff :=
        sign?_ne_brokenOff fun k hk => hevent ⟨k, hk⟩
      obtain hdeal | ⟨mid, hchain, hgrip⟩ := turns_next? h.tends.sound.system.distinct hnext
      · exact h.meets.deals hdeal h.tends.sound.system.nodup h.tends.sound.system.owned
          (fun l g p => h.tends.counted) hfits
      · exact (h.meets.handles_chain hchain).handles hgrip hsign

theorem hand?_of_lot? {c : Consumer σ} (h : c.lot? = none) : c.hand? = none := by
  unfold Consumer.lot? at h
  unfold Consumer.hand?
  cases hphase : c.phase with
  | executing v x =>
    rw [hphase] at h
    exact absurd h (by simp)
  | _ => rfl

/-- In a new workshop nothing is at hand. -/
theorem IsNew.hands_bench (h : s.IsNew) : s.bench.hands = 0 := by
  have hnone : s.system.consumers.filterMap Consumer.hand? = [] :=
    List.filterMap_eq_nil_iff.2 fun c hc => hand?_of_lot? (h.idle c hc)
  rw [bench, hnone, h.hands]
  rfl

theorem IsNew.sound (h : s.IsNew) : s.system.Sound := (h.tends ⟨0⟩).sound.system

theorem IsNew.sound_bench (h : s.IsNew) : s.bench.Sound := by
  refine ⟨h.sound.distinct, ?_, ?_⟩
  · rw [h.hands_bench]
    exact fun k hk => absurd hk (Multiset.notMem_zero k)
  · rw [h.hands_bench]
    exact fun k hk => absurd hk (Multiset.notMem_zero k)

theorem IsNew.dutiful (h : s.IsNew) (id : CommandId) : s.Dutiful id where
  tends := h.tends id
  meets := by
    have hunseen := (h.tends id).tended.unseen (by rw [view, h.loops]; rfl)
    refine ⟨h.sound_bench, fun _ => ⟨hunseen.1, ?_⟩, ?_⟩
    · rw [Bench.lots, h.hands_bench]
      have hnone : lotsOf id s.bench.engine.channel [] = [] :=
        lotsOf_eq_nil (by simp [bench, h.channel]) (by simp)
      rw [Channel.lots, hnone]
      rfl
    · intro l hl
      rw [bench, h.loops] at hl
      exact absurd hl (by simp)

end Workshop

end BulkRun
