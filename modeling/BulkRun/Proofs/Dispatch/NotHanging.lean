import BulkRun.Proofs.Dispatch.Sound
/-!
# No command is left hanging

Every event of a workshop keeps every command tended.  Once the scroll loop of a command has
returned and no bucket of it is in the channel or in anybody's hands, its books have nothing left to
account for, so the command has ended or is gone (`not_hanging`).
-/

namespace BulkRun

variable {σ : Type} {setup : Setup σ}

/-! ## The workshop -/

namespace Workshop

/-- Whether somebody works on the bucket that he received, from a partition that there is. -/
def Minded (c : Channel) (h : Hand σ) : Prop :=
  h.delivery.partition < c.partitions.length ∧
    ∀ x, h.execution = some x → x.Serves h.delivery.bucket

theorem Minded.of_length {c d : Channel} {hand : Hand σ} (h : Minded c hand)
    (hlength : d.partitions.length = c.partitions.length) : Minded d hand :=
  ⟨hlength ▸ h.1, h.2⟩

/-- What is true of a workshop whatever happens in it. -/
structure Sound (s : Workshop σ) : Prop where
  system : s.system.Sound
  hands : ∀ h ∈ s.hands, Minded s.system.engine.channel h

/-- What the books of the commands of a workshop are kept on. -/
def view (s : Workshop σ) : View σ :=
  ⟨s.system.engine.tracker, s.system.engine.channel, s.system.loops,
    heldBy s.system.consumers s.hands⟩

/-- A workshop in which a command is tended. -/
structure Tends (id : CommandId) (s : Workshop σ) : Prop where
  sound : s.Sound
  tended : s.view.Tended id

variable {id : CommandId} {s t : Workshop σ}

/-- An event that leaves the loops, the consumers and the hands alone. -/
theorem Tends.of_engine {e : Engine σ} (h : s.Tends id) (hsteady : Engine.Steady s.system.engine e)
    (htended : View.Tended id { s.view with tracker := e.tracker, channel := e.channel }) :
    (s.withEngine e).Tends id where
  sound := {
    system := h.sound.system.of_engine hsteady
    hands := fun k hk => (h.sound.hands k hk).of_length hsteady.length }
  tended := htended

/-- An event that only ends or drops commands. -/
theorem Tends.of_loses {u : Tracker} (h : s.Tends id) (hloses : s.system.engine.tracker.Loses u) :
    (s.withEngine { s.system.engine with tracker := u }).Tends id :=
  h.of_engine ⟨rfl, hloses.distinct⟩ (h.tended.of_same_or_gone (hloses.find? id) (hloses.live? id))

/-- An event that leaves the buckets in the channel. -/
theorem Tends.of_keeps {c : Channel} (h : s.Tends id)
    (hkeeps : Channel.Keeps s.system.engine.channel c) : (s.withChannel c).Tends id :=
  h.of_engine ⟨hkeeps.length, fun hd => hd⟩
    (h.tended.of_lots_perm (lotsOf_perm _ hkeeps.buckets.symm (.refl _)))

/-- A step of a scroll loop that some other loop takes the place of. -/
theorem Tends.of_loop {l : ScrollLoop σ} {r : ScrollLoop σ × Engine σ} {stock : Stock}
    (h : s.Tends id) (hl : l ∈ s.system.loops) (hstock : l.phase.stock? = some stock)
    (hacts : ScrollLoop.Acts l stock s.system.engine r)
    (hfits : ∀ k ∈ View.setLoop s.system.loops r.1, k.id = id → k.phase.scrolled < wordCount) :
    Tends id { s with system := { s.system with engine := r.2 }.setLoop r.1 } where
  sound := {
    system := h.sound.system.scroll hacts
    hands := fun k hk => (h.sound.hands k hk).of_length hacts.minds.length }
  tended := by
    apply View.Tended.scroll h.tended h.sound.system.nodup hl hstock hacts
    intro hid
    apply hfits _ (View.mem_setLoop_self hl hacts.key)
    exact (congrArg Command.id hacts.command).trans hid

/-- A task that takes a step. -/
theorem Tends.step {u : System σ} (h : s.Tends id) {task : Task}
    (hnext : s.system.stepTask? setup task = some u)
    (hfits : ∀ l ∈ u.loops, l.id = id → l.phase.scrolled < wordCount) :
    Tends id { s with system := u } := by
  cases task with
  | scroll key =>
    obtain ⟨l, hl, -, hopen, -, rfl⟩ := System.stepTask?_scroll hnext
    obtain ⟨stock, hstock⟩ := l.exists_stock hopen
    exact h.of_loop hl hstock (ScrollLoop.acts_resume (h.sound.system.owned l hl) hstock hopen)
      hfits
  | consume i =>
    obtain ⟨c, r, hc, hr, rfl⟩ := System.stepTask?_consume hnext
    obtain ⟨rest, hbefore, hafter⟩ := heldBy_consumer hc s.hands
    have hserves := h.sound.system.consumers c (List.mem_of_getElem? hc)
    have hacts := Consumer.acts_step? hserves h.sound.system.distinct hr
    constructor
    · exact {
        system := h.sound.system.consume hacts
        hands := fun k hk => (h.sound.hands k hk).of_length hacts.steady.length }
    · have hheld := h.tended.of_lots_perm (lotsOf_perm _ (.refl _) hbefore)
      have htended := hacts.tended id _ rest hheld
      exact htended.of_lots_perm (lotsOf_perm _ (.refl _) (hafter r.1).symm)
  | watch i =>
    obtain ⟨w, -, rfl⟩ := Option.map_eq_some_iff.1 hnext
    exact ⟨⟨{ h.sound.system with }, h.sound.hands⟩, h.tended⟩

/-- A task that puts its step off. -/
theorem Tends.putOff {u : System σ} (h : s.Tends id) {task : Task}
    (hnext : s.system.putOff? setup task = some u)
    (hfits : ∀ l ∈ u.loops, l.id = id → l.phase.scrolled < wordCount) :
    Tends id { s with system := u } := by
  obtain rfl | ⟨l, hl, r, hr, rfl⟩ := System.putOff?_eq_some hnext
  · exact h
  · cases hstock : l.phase.stock? with
    | some stock =>
      exact h.of_loop hl hstock (ScrollLoop.acts_putOff? (h.sound.system.owned l hl) hstock hr)
        hfits
    | none =>
      obtain rfl := System.putOff?_of_stock?_none hstock hr
      rw [System.setLoop_of_mem h.sound.system hl]
      exact h

/-- A command that is submitted. -/
theorem Tends.submit {u : System σ} {c : Command} {r : CommandId} (h : s.Tends id)
    (hsubmit : s.system.submit setup c = .ok (r, u)) : Tends id { s with system := u } := by
  have hsound := h.sound.system.submit hsubmit
  obtain ⟨c', x, t, -, hreg, -, rfl⟩ := System.submit_eq_ok hsubmit
  exact ⟨⟨hsound, h.sound.hands⟩, View.Tended.submit h.tended hreg ⟨.refl _, rfl⟩ rfl rfl⟩

/-- Whatever happens to the system. -/
theorem Tends.system {u : System σ} (h : s.Tends id) {event : System.Event}
    (hnext : s.system.next? setup event = some u)
    (hfits : ∀ l ∈ u.loops, l.id = id → l.phase.scrolled < wordCount) :
    Tends id { s with system := u } := by
  cases event with
  | submit c =>
    obtain ⟨-, r, hr⟩ := System.next?_submit hnext
    exact h.submit hr
  | step task => exact h.step hnext hfits
  | putOff task => exact h.putOff hnext hfits
  | abort k message =>
    obtain ⟨new, v, hv, rfl⟩ := System.next?_abort hnext
    exact h.of_loses (Tracker.loses_abortWith hv)
  | lookUp k =>
    obtain rfl := Option.some.inj hnext
    exact h.of_loses (Tracker.drops_get h.sound.system.distinct _ _).loses
  | purge =>
    obtain rfl := Option.some.inj hnext
    exact h.of_loses (Tracker.drops_purgeExpired h.sound.system.distinct _).loses
  | tick now =>
    obtain rfl := Option.some.inj hnext
    exact ⟨⟨{ h.sound.system with }, h.sound.hands⟩, h.tended⟩
  | await k =>
    obtain rfl := Option.some.inj hnext
    exact ⟨⟨{ h.sound.system with }, h.sound.hands⟩, h.tended⟩
  | release =>
    obtain ⟨-, rfl⟩ := System.next?_release hnext
    exact h.of_keeps ⟨.refl _, rfl⟩
  | schedule queue yielded allowance =>
    obtain rfl := Option.some.inj hnext
    exact ⟨⟨{ h.sound.system with }, h.sound.hands⟩, h.tended⟩

/-! ### Hands -/

/-- Somebody receives. -/
theorem Tends.hold {v : Delivery} {d : Channel} (h : s.Tends id)
    (hgives : Channel.Gives s.system.engine.channel d v) : (s.hold (v, d)).Tends id where
  sound := {
    system := h.sound.system.of_engine ⟨hgives.length, fun hd => hd⟩
    hands := by
      intro k hk
      obtain hk | hk := List.mem_append.1 hk
      · exact (h.sound.hands k hk).of_length hgives.length
      · rw [List.mem_singleton.1 hk]
        refine ⟨?_, fun x hx => absurd hx (by simp)⟩
        show v.partition < d.partitions.length
        rw [hgives.length]
        exact hgives.partition }
  tended := by
    refine (View.Tended.receive h.tended hgives).of_lots_perm (lotsOf_perm _ (.refl _) ?_)
    show List.Perm _ (s.system.consumers.filterMap Consumer.lot? ++ (s.hands ++ [_]).map Hand.lot)
    rw [List.map_append, ← List.append_assoc]
    exact (List.perm_append_singleton _ _).symm

/-- Somebody works on what he holds. -/
theorem Tends.progress {k : Nat} {v : Delivery} {hand : Hand σ} {r : Execution σ × Engine σ}
    {standing : Standing} (h : s.Tends id) (hk : s.hands[k]? = some hand)
    (hv : hand.delivery = v) (hlot : hand.lot = ⟨v.bucket, standing⟩)
    (hacts : Execution.Acts v.bucket standing s.system.engine r) :
    (s.progress k v r).Tends id := by
  obtain ⟨rest, hbefore, -, hafter⟩ := heldBy_hand hk s.system.consumers
  have hminded := h.sound.hands hand (List.mem_of_getElem? hk)
  constructor
  · exact {
      system := h.sound.system.of_engine hacts.steady
      hands := by
        intro k' hk'
        obtain hk' | rfl := List.mem_or_eq_of_mem_set hk'
        · exact (h.sound.hands k' hk').of_length hacts.steady.length
        · refine ⟨?_, ?_⟩
          · rw [← hv]
            exact (hminded.of_length hacts.steady.length).1
          · intro x hx
            rw [← Option.some.inj hx]
            exact hacts.serves }
  · have hheld := h.tended.of_lots_perm (lotsOf_perm _ (.refl _) hbefore)
    rw [hlot] at hheld
    have htended := View.Tended.work hheld hacts
    exact htended.of_lots_perm (lotsOf_perm _ (.refl _) (hafter ⟨v, some r.1⟩).symm)

/-- Somebody lets go of what he holds. -/
theorem Sound.eraseIdx {c : Channel} (h : s.Sound) (k : Nat)
    (hlength : c.partitions.length = s.system.engine.channel.partitions.length) :
    Sound { s.withChannel c with hands := s.hands.eraseIdx k } where
  system := h.system.of_engine ⟨hlength, fun hd => hd⟩
  hands hand hhand := (h.hands hand (List.mem_of_mem_eraseIdx hhand)).of_length hlength

theorem Tends.acknowledge {k : Nat} {v : Delivery} {result : Except Error BucketOutcome}
    (h : s.Tends id) (hk : s.hands[k]? = some ⟨v, some (.finished result)⟩) :
    Tends id { s.withChannel s.system.engine.channel.acknowledge with
      hands := s.hands.eraseIdx k } := by
  obtain ⟨rest, hbefore, hafter, -⟩ := heldBy_hand hk s.system.consumers
  refine ⟨h.sound.eraseIdx k rfl, ?_⟩
  have hheld := h.tended.of_lots_perm (lotsOf_perm _ (.refl _) hbefore)
  have htended := View.Tended.acknowledge (d := s.system.engine.channel.acknowledge) hheld
    ⟨.refl _, rfl⟩
  exact htended.of_lots_perm (lotsOf_perm _ (.refl _) hafter.symm)

theorem Tends.handBack {k : Nat} {hand : Hand σ} (h : s.Tends id) (hk : s.hands[k]? = some hand) :
    Tends id { s.withChannel (s.system.engine.channel.handBack hand.delivery) with
      hands := s.hands.eraseIdx k } := by
  obtain ⟨rest, hbefore, hafter, -⟩ := heldBy_hand hk s.system.consumers
  have hminded := h.sound.hands hand (List.mem_of_getElem? hk)
  have htakes := Channel.takes_handBack hminded.1
  refine ⟨h.sound.eraseIdx k htakes.length, ?_⟩
  -- nobody asks whether work on it was begun
  have hlot : ∃ standing, hand.lot = ⟨hand.delivery.bucket, standing⟩ := by
    unfold Hand.lot
    split <;> exact ⟨_, rfl⟩
  obtain ⟨standing, hlot⟩ := hlot
  have hheld := h.tended.of_lots_perm (lotsOf_perm _ (.refl _) hbefore)
  rw [hlot] at hheld
  have htended := View.Tended.handBack hheld htakes
  exact htended.of_lots_perm (lotsOf_perm _ (.refl _) hafter.symm)

/-- Whatever happens, a command stays tended. -/
theorem Tends.next? {event : Event σ} (h : s.Tends id) (hnext : s.next? setup event = some t)
    (hfits : ∀ l ∈ t.system.loops, l.id = id → l.phase.scrolled < wordCount) : t.Tends id := by
  cases event with
  | system event =>
    obtain ⟨u, hu, rfl⟩ := Option.map_eq_some_iff.1 hnext
    exact h.system hu hfits
  | unstash i =>
    obtain ⟨⟨v, d⟩, hv, rfl⟩ := Option.map_eq_some_iff.1 hnext
    exact h.hold (Channel.gives_unstash? hv)
  | dequeue i =>
    obtain ⟨⟨v, d⟩, hv, rfl⟩ := Option.map_eq_some_iff.1 hnext
    exact h.hold (Channel.gives_dequeue? hv)
  | start k =>
    obtain ⟨v, hk, rfl⟩ := next?_start hnext
    exact h.progress hk rfl rfl Execution.acts_start
  | work k =>
    obtain ⟨v, x, r, hk, hr, rfl⟩ := next?_work hnext
    -- whoever works does so for the command of the bucket that he received
    have hserves := (h.sound.hands _ (List.mem_of_getElem? hk)).2 x rfl
    exact h.progress hk rfl rfl (Execution.acts_step? hserves h.sound.system.distinct hr)
  | acknowledge k =>
    obtain ⟨v, result, hk, rfl⟩ := next?_acknowledge hnext
    exact h.acknowledge hk
  | handBack k =>
    obtain ⟨hand, hk, rfl⟩ := Option.map_eq_some_iff.1 hnext
    exact h.handBack hk
  | close i =>
    obtain ⟨hempty, rfl⟩ := next?_close hnext
    exact h.of_keeps (Channel.keeps_close hempty)
  | world w =>
    obtain rfl := Option.some.inj hnext
    exact ⟨⟨{ h.sound.system with }, h.sound.hands⟩, h.tended⟩

/-! ## The main statement -/

/-- A workshop in which nothing has happened yet. -/
structure IsNew (s : Workshop σ) : Prop where
  loops : s.system.loops = []
  idle : ∀ c ∈ s.system.consumers, c.lot? = none
  hands : s.hands = []
  channel : s.system.engine.channel.buckets = []
  tracker : s.system.engine.tracker.commands = []

theorem IsNew.tends (h : s.IsNew) (id : CommandId) : s.Tends id where
  sound := {
    system := {
      distinct := by
        unfold Tracker.Distinct
        rw [h.tracker]
        exact List.nodup_nil
      keys := by
        rw [h.loops]
        rfl
      owned := by simp [h.loops]
      consumers := fun c hc => Consumer.serves_of_lot? (h.idle c hc) }
    hands := by simp [h.hands] }
  tended := by
    constructor
    · intro _
      refine ⟨?_, lotsOf_eq_nil ?_ ?_⟩
      · show s.system.engine.tracker.find? id = none
        rw [Tracker.find?, h.tracker]
        rfl
      · simp [view, h.channel]
      · have hnone : heldBy s.system.consumers s.hands = [] := by
          rw [heldBy, h.hands, List.filterMap_eq_nil_iff.2 h.idle]
          rfl
        simp [view, hnone]
    · intro l hl
      simp [view, h.loops] at hl

/-- A service that was just started is new, and so it is with receivers besides its consumers. -/
theorem isNew_start {settings : Settings} {actions : ActionRegistry (Action σ)}
    {scrollers : ScrollerRegistry (Scroller σ)} {transactions : TransactionManager σ}
    {now : Timestamp} {world : σ} {service : Service σ}
    (h : Service.start settings actions scrollers transactions now world = .ok service) :
    IsNew ⟨service.system, []⟩ := by
  rw [Service.system_of_start h]
  refine ⟨rfl, ?_, rfl, ?_, rfl⟩
  · intro c hc
    obtain ⟨i, -, rfl⟩ := List.mem_map.1 hc
    rfl
  · apply List.flatMap_eq_nil_iff.2
    intro p hp
    rw [(List.mem_replicate.1 hp).2]
    rfl

/-- No command is left hanging.  Whatever its scroller, its action and the transaction manager do,
whenever it is cancelled or dropped and however often its buckets are handed back: once the scroll
loop of a command has returned, and no bucket of it is in the channel or still to be worked on by
somebody who holds it, the command has ended or is gone. -/
theorem not_hanging {s₀ : Workshop σ} {moves : List (Move (Workshop σ) (Event σ))}
    (hnew : s₀.IsNew) (hrun : Run (next? setup) s₀ moves s) {l : ScrollLoop σ}
    -- the command was accepted once
    (honce : s.system.loops.filter (·.id == l.id) = [l])
    (hreturned : l.phase.hasReturned = true)
    (hfits : ∀ m ∈ moves, ∀ k ∈ m.after.system.loops, k.id = l.id → k.phase.scrolled < wordCount)
    (hchannel : ∀ b ∈ s.system.engine.channel.buckets, b.commandId ≠ l.id)
    (hheld : ∀ lot ∈ heldBy s.system.consumers s.hands, lot.bucket.commandId = l.id →
      lot.standing = .ended) :
    s.system.engine.tracker.find? l.id = none ∨
      ∃ p, s.system.engine.tracker.find? l.id = some p ∧ p.state.isTerminal = true := by
  have htends : s.Tends l.id :=
    hrun.invariant hfits (hnew.tends l.id) fun _ _ _ hnext hfair h => h.next? hnext hfair
  have hstock := ScrollPhase.stock?_of_hasReturned hreturned
  have hbooks := htends.tended.kept l honce .empty hstock
  refine Tracker.live?_eq_none.1 (hbooks.live_eq_none fun lot hlot => ?_)
  obtain ⟨hlot, hid⟩ := List.mem_filter.1 hlot
  -- a bucket is in the channel, which has none of the command, or it is held
  obtain hlot | hlot := List.mem_append.1 hlot
  · obtain ⟨b, hb, rfl⟩ := List.mem_map.1 hlot
    exact absurd (eq_of_beq hid) (hchannel b hb)
  · exact hheld lot hlot (eq_of_beq hid)

/-! ### A run with a bucket that is handed back -/

/-- An action that succeeds on every record. -/
def willing : Action Unit where
  validate _ := .ok ()
  call _ _ w := (0, w)
  takesPermit := false
  poll _ ids _ w := some (⟨[], .ok (ids.map fun id => ⟨id, none⟩)⟩, w)

/-- A scroller that finds three records at once. -/
def threeRecords : Scroller Unit where
  kind := .query
  start c w := (.ok (.new c), w)
  reserved _ _ := 0
  next c _ w := (.ok ⟨["a", "b", "c"], true⟩, c, w)

/-- Collaborators with buckets of two records and batches of one. -/
def smallSetup : Setup Unit where
  actions := ⟨[("archive", ⟨⟨"archive", none, none, none⟩, willing⟩)]⟩
  scrollers := ScrollerRegistry.empty.register .query "default" threeRecords
  transactions := .none
  dispatcher := ⟨2, 1, 2, none⟩

/-- A workshop with one partition that has room for one bucket, and no consumer. -/
def emptyWorkshop : Workshop Unit :=
  ⟨.ofEngine ⟨⟨0, 0⟩, .new 8 60, .new 1 1, ()⟩, []⟩

/-- The first bucket is handed back by somebody who has begun to work on it, while the loop waits
for room for the second. -/
def handedBackOnce : List (Event Unit) :=
  let scroll : Event Unit := .system (.step (.scroll 0))
  [.system (.submit Tracker.archiveAll), scroll, scroll, scroll, scroll, scroll,
    .dequeue 0, .start 0, .work 0, .handBack 0, scroll,
    .unstash 0, .start 0, .work 0, .work 0, .work 0, .work 0, .work 0, .work 0, .acknowledge 0,
    .dequeue 0, .start 0, .work 0, .work 0, .work 0, .acknowledge 0]

/-- With both buckets acknowledged the command has ended. -/
theorem not_hanging_handed_back :
    ∃ moves s l, emptyWorkshop.IsNew ∧ Run (next? smallSetup) emptyWorkshop moves s ∧
      s.system.loops.filter (·.id == l.id) = [l] ∧ l.phase.hasReturned = true ∧
      (∀ m ∈ moves, ∀ k ∈ m.after.system.loops, k.id = l.id → k.phase.scrolled < wordCount) ∧
      s.system.engine.channel.buckets = [] ∧ heldBy s.system.consumers s.hands = [] ∧
      s.system.engine.channel.stats = ⟨2, 2, 1⟩ ∧
      (s.system.engine.tracker.find? l.id = none ∨
        ∃ p, s.system.engine.tracker.find? l.id = some p ∧ p.state.isTerminal = true) := by
  have hcheck : (movesOf? (next? smallSetup) emptyWorkshop handedBackOnce).any (fun r =>
      decide (r.2.system.loops.map (·.phase.hasReturned) = [true]) &&
      (r.1.all fun m => m.after.system.loops.all fun k => decide (k.phase.scrolled < wordCount)) &&
      decide (r.2.system.engine.channel.buckets = []) &&
      (heldBy r.2.system.consumers r.2.hands).isEmpty &&
      decide (r.2.system.engine.channel.stats = ⟨2, 2, 1⟩)) = true := by
    decide +kernel
  obtain ⟨⟨moves, s⟩, hmoves, hs⟩ := (Option.any_eq_true _ _).1 hcheck
  simp only [Bool.and_eq_true, decide_eq_true_eq, List.all_eq_true, List.isEmpty_iff] at hs
  obtain ⟨⟨⟨⟨hloops, hfits⟩, hchannel⟩, hheld⟩, hstats⟩ := hs
  obtain ⟨l, hl, hreturned⟩ := List.map_eq_singleton_iff.1 hloops
  have hnew : emptyWorkshop.IsNew := ⟨rfl, by simp [emptyWorkshop, System.ofEngine], rfl, rfl, rfl⟩
  have honce : s.system.loops.filter (·.id == l.id) = [l] := by simp [hl]
  have hrun : Run (next? smallSetup) emptyWorkshop moves s := .of_movesOf? hmoves
  refine ⟨moves, s, l, hnew, hrun, honce, hreturned, ?_, hchannel, hheld, hstats, ?_⟩
  · exact fun m hm k hk _ => hfits m hm k hk
  · exact not_hanging hnew hrun honce hreturned (fun m hm k hk _ => hfits m hm k hk)
      (by simp [hchannel]) (by simp [hheld])

end Workshop

end BulkRun
