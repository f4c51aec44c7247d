import BulkRun.Proofs.Dispatch.ConsumerSteps
import BulkRun.Proofs.Dispatch.Workshop
/-!
# What every event of a system keeps

No command is registered twice, every scroll loop has a key of its own and holds what belongs to its
command, and every consumer works for the command of the bucket that it received.  Whatever happens
to a system keeps this (`Sound.next?`).
-/

namespace BulkRun

variable {σ : Type} {setup : Setup σ}

/-! ## Consumers -/

/-- What every event leaves as it is: the number of partitions, and that no command occurs twice. -/
structure Engine.Steady (e f : Engine σ) : Prop where
  length : f.channel.partitions.length = e.channel.partitions.length
  distinct : e.tracker.Distinct → f.tracker.Distinct

theorem Engine.Steady.refl (e : Engine σ) : Steady e e := ⟨rfl, fun h => h⟩

theorem Engine.Steady.trans {e f g : Engine σ} (h : Steady e f) (h' : Steady f g) : Steady e g :=
  ⟨h'.length.trans h.length, fun hd => h'.distinct (h.distinct hd)⟩

theorem Execution.Acts.steady {e : Engine σ} {r : Execution σ × Engine σ} {b : Bucket}
    {s : Standing}
    (h : Acts b s e r) : Engine.Steady e r.2 :=
  ⟨by rw [h.channel], h.spares.distinct⟩

namespace Consumer

variable {e : Engine σ} {c : Consumer σ}

/-- Whether a consumer works on the bucket that it received. -/
def Serves (c : Consumer σ) : Prop := ∀ v x, c.phase = .executing v x → x.Serves v.bucket

/-- A consumer that works on nothing. -/
theorem serves_of_lot? (h : c.lot? = none) : c.Serves := by
  intro v x hx
  rw [lot?, hx] at h
  exact absurd h (by simp)

/-- What a consumer does that held some buckets before. -/
structure Acts (before : List Lot) (e : Engine σ) (r : Consumer σ × Engine σ) : Prop where
  serves : r.1.Serves
  steady : Engine.Steady e r.2
  tended : ∀ id (ls : List (ScrollLoop σ)) rest,
    View.Tended id ⟨e.tracker, e.channel, ls, before ++ rest⟩ →
    View.Tended id ⟨r.2.tracker, r.2.channel, ls, r.1.lot?.toList ++ rest⟩

/-- A consumer acknowledges a bucket as soon as the work on it is over. -/
theorem acts_settle {v : Delivery} {x : Execution σ} (hserves : x.Serves v.bucket) :
    Acts [⟨v.bucket, x.standing⟩] e (c.settle v x e) := by
  unfold settle
  cases x with
  | finished result =>
    refine ⟨serves_of_lot? rfl, ⟨rfl, fun h => h⟩, ?_⟩
    intro id ls rest h
    exact View.Tended.acknowledge h ⟨.refl _, rfl⟩
  | _ =>
    refine ⟨?_, .refl e, fun id ls rest h => h⟩
    intro v' x' h
    obtain ⟨rfl, rfl⟩ := ConsumerPhase.executing.inj h
    exact hserves

theorem acts_begin (v : Delivery) : Acts [.lying v.bucket] e (c.begin setup v e) := by
  have hstart : Execution.Acts v.bucket .untouched e (Execution.start setup v.bucket e) :=
    Execution.acts_start
  have hsettle := acts_settle (c := c) (e := (Execution.start setup v.bucket e).2) hstart.serves
  exact ⟨hsettle.serves, hstart.steady.trans hsettle.steady,
    fun id ls rest h => hsettle.tended id ls rest (View.Tended.work h hstart)⟩

theorem acts_receive {v : Delivery} {d : Channel} (hgives : Channel.Gives e.channel d v) :
    Acts [] e (c.begin setup v { e with channel := d }) := by
  have hbegin : Acts [.lying v.bucket] { e with channel := d }
      (c.begin setup v { e with channel := d }) := acts_begin v
  have hsteady : Engine.Steady e { e with channel := d } := ⟨hgives.length, fun h => h⟩
  exact ⟨hbegin.serves, hsteady.trans hbegin.steady,
    fun id ls rest h => hbegin.tended id ls rest (View.Tended.receive h hgives)⟩

theorem acts_step? {r : Consumer σ × Engine σ} (hserves : c.Serves) (hd : e.tracker.Distinct)
    (h : c.step? setup e = some r) : Acts c.lot?.toList e r := by
  cases steps_of_step? h with
  | unstash hphase hv =>
    rw [show c.lot?.toList = [] by rw [lot?, hphase]; rfl]
    exact acts_receive (Channel.gives_unstash? hv)
  | dequeue hphase hv =>
    rw [show c.lot?.toList = [] by rw [lot?, hphase]; rfl]
    exact acts_receive (Channel.gives_dequeue? hv)
  | suspend hphase | stop hphase =>
    rw [show c.lot?.toList = [] by rw [lot?, hphase]; rfl]
    exact ⟨serves_of_lot? rfl, .refl e, fun id ls rest h => h⟩
  | @work v x y f hphase hwork =>
    rw [show c.lot?.toList = [⟨v.bucket, x.standing⟩] by rw [lot?, hphase]; rfl]
    have hstep := Execution.acts_step? (hserves v x hphase) hd hwork
    have hsettle := acts_settle (c := c) (e := f) hstep.serves
    exact ⟨hsettle.serves, hstep.steady.trans hsettle.steady,
      fun id ls rest h => hsettle.tended id ls rest (View.Tended.work h hstep)⟩

end Consumer

namespace System

variable {s t : System σ} {e : Engine σ}

/-- What is looked up before a command is accepted. -/
theorem prepare_eq_ok {c c' : Command} {x : Numbered (Scroller σ)}
    (h : setup.prepare c = .ok (c', x)) :
    ∃ registered, setup.actions.resolve c.action = .ok registered ∧
      setup.dispatcher.resolve registered.descriptor c = .ok c' ∧
      setup.scrollers.resolve c'.toDraft = .ok x := by
  unfold Setup.prepare at h
  split at h
  · exact absurd h (by simp)
  · rename_i registered hregistered
    split at h
    · exact absurd h (by simp)
    · rename_i c₁ hresolve
      split at h
      · exact absurd h (by simp)
      · cases hx : setup.scrollers.resolve c₁.toDraft with
        | error f =>
          rw [hx] at h
          exact absurd h (by simp [Except.map])
        | ok y =>
          rw [hx] at h
          obtain ⟨rfl, rfl⟩ := Prod.mk.inj (Except.ok.inj h)
          exact ⟨registered, hregistered, hresolve, hx⟩

/-- The system with one more scroll loop, which has not begun. -/
def withLoop (setup : Setup σ) (s : System σ) (c : Command) (x : Scroller σ) (u : Tracker) :
    System σ :=
  { s with
    engine := { s.engine with tracker := u, channel := s.engine.channel.addPublisher }
    loops := s.loops ++ [⟨s.loops.length, c, x, setup.dispatcher.fetchSize c, .created⟩] }

theorem submit_eq_ok {c : Command} {r : CommandId} (h : s.submit setup c = .ok (r, t)) :
    ∃ c' x u, setup.prepare c = .ok (c', x) ∧
      s.engine.tracker.register s.engine.now c' = .ok u ∧ r = c'.id ∧
      t = s.withLoop setup c' x.item u := by
  unfold submit at h
  split at h
  · exact absurd h (by simp)
  · rename_i c' x hprepare
    split at h
    · exact absurd h (by simp)
    · rename_i u hreg
      obtain ⟨rfl, rfl⟩ := Prod.mk.inj (Except.ok.inj h)
      exact ⟨c', x, u, hprepare, hreg, rfl, rfl⟩

/-- What is true of a system whatever happens to it. -/
structure Sound (s : System σ) : Prop where
  distinct : s.engine.tracker.Distinct
  keys : s.loops.map (·.key) = List.range s.loops.length
  owned : ∀ l ∈ s.loops, l.phase.Owned l.id
  consumers : ∀ c ∈ s.consumers, c.Serves

namespace Sound

theorem nodup (h : s.Sound) : (s.loops.map (·.key)).Nodup := by
  rw [h.keys]
  exact List.nodup_range

/-- An event that leaves the loops and the consumers alone. -/
theorem of_engine (h : s.Sound) (hsteady : Engine.Steady s.engine e) :
    Sound { s with engine := e } :=
  { h with distinct := hsteady.distinct h.distinct }

/-- A step of a scroll loop. -/
theorem scroll (h : s.Sound) {l : ScrollLoop σ} {r : ScrollLoop σ × Engine σ} {stock : Stock}
    (hacts : ScrollLoop.Acts l stock s.engine r) :
    Sound ({ s with engine := r.2 }.setLoop r.1) where
  distinct := hacts.minds.spares.distinct h.distinct
  keys := by
    -- a loop takes the place of one with its own key
    have hkeys : (View.setLoop s.loops r.1).map (·.key) = s.loops.map (·.key) := by
      rw [View.setLoop, List.map_map]
      apply List.map_congr_left
      intro m _
      rw [Function.comp_apply]
      split
      · rename_i hmk
        exact (eq_of_beq hmk).symm
      · rfl
    show (View.setLoop s.loops r.1).map (·.key) = _
    rw [hkeys, h.keys]
    simp [System.setLoop]
  owned m hm := by
    obtain rfl | hm := View.mem_setLoop hm
    · have hid : r.1.id = l.id := congrArg Command.id hacts.command
      rw [hid]
      exact hacts.owned
    · exact h.owned m hm
  consumers := h.consumers

/-- A step of a consumer. -/
theorem consume (h : s.Sound) {i : Nat} {before : List Lot} {r : Consumer σ × Engine σ}
    (hacts : Consumer.Acts before s.engine r) :
    Sound { s with engine := r.2, consumers := s.consumers.set i r.1 } where
  distinct := hacts.steady.distinct h.distinct
  keys := h.keys
  owned := h.owned
  consumers c hc := by
    obtain hc | rfl := List.mem_or_eq_of_mem_set hc
    · exact h.consumers c hc
    · exact hacts.serves

/-- A command that is submitted. -/
theorem submit (h : s.Sound) {c : Command} {r : CommandId}
    (hsubmit : s.submit setup c = .ok (r, t)) : t.Sound := by
  obtain ⟨c', x, u, -, hreg, -, rfl⟩ := submit_eq_ok hsubmit
  exact {
    distinct := Tracker.distinct_of_register h.distinct hreg
    keys := by
      show (s.loops ++ [_]).map _ = List.range (s.loops ++ [_]).length
      rw [List.map_append, h.keys, List.length_append, List.length_singleton, List.range_succ]
      rfl
    owned := by
      intro m hm
      obtain hm | hm := List.mem_append.1 hm
      · exact h.owned m hm
      · rw [List.mem_singleton.1 hm]
        exact trivial
    consumers := h.consumers }

end Sound

theorem loop?_eq_some {key : PublisherKey} {l : ScrollLoop σ} (h : s.loop? key = some l) :
    l ∈ s.loops ∧ l.key = key :=
  ⟨List.mem_of_find?_eq_some h, by simpa using List.find?_some h⟩

/-- A step of a task that scrolls is a step of its loop. -/
theorem stepTask?_scroll {key : PublisherKey} (h : s.stepTask? setup (.scroll key) = some t) :
    ∃ l ∈ s.loops, s.loop? key = some l ∧ l.isEnded = false ∧ l.isBlocked s.engine = false ∧
      t = { s with engine := (l.resume s.engine).2 }.setLoop (l.resume s.engine).1 := by
  rw [stepTask?] at h
  split at h
  · exact absurd h (by simp)
  · rename_i l hl
    split at h
    · rename_i hcan
      rw [loopCanRun, Bool.and_eq_true, Bool.not_eq_true', Bool.not_eq_true'] at hcan
      exact ⟨l, (loop?_eq_some hl).1, hl, hcan.1, hcan.2, (Option.some.inj h).symm⟩
    · exact absurd h (by simp)

theorem stepTask?_consume {i : Nat} (h : s.stepTask? setup (.consume i) = some t) :
    ∃ c r, s.consumers[i]? = some c ∧ c.step? setup s.engine = some r ∧
      t = { s with engine := r.2, consumers := s.consumers.set i r.1 } := by
  rw [stepTask?] at h
  split at h
  · exact absurd h (by simp)
  · rename_i c hc
    obtain ⟨r, hr, rfl⟩ := Option.map_eq_some_iff.1 h
    exact ⟨c, r, hc, hr, rfl⟩

/-- A consumer whose task can take no step can take none itself. -/
theorem step?_eq_none {i : Nat} {c : Consumer σ} (h : s.stepTask? setup (.consume i) = none)
    (hc : s.consumers[i]? = some c) : c.step? setup s.engine = none := by
  rw [stepTask?] at h
  simp only [hc] at h
  exact Option.map_eq_none_iff.1 h

/-- A loop that has not ended and whose task can take no step is blocked. -/
theorem isBlocked_of_stepTask?_none (hs : s.Sound) {l : ScrollLoop σ} (hl : l ∈ s.loops)
    (h : s.stepTask? setup (.scroll l.key) = none) (hopen : l.isEnded = false) :
    l.isBlocked s.engine = true := by
  -- keys are distinct, so the loop with this key is this one
  have hfind : s.loop? l.key = some l := by
    cases hfind : s.loop? l.key with
    | none =>
      have hnot := List.find?_eq_none.1 hfind l hl
      exact absurd (beq_self_eq_true l.key) hnot
    | some m =>
      obtain ⟨hm, hkey⟩ := loop?_eq_some hfind
      rw [View.eq_of_key hs.nodup hl hm hkey]
  rw [stepTask?] at h
  simp only [hfind] at h
  split at h
  · exact absurd h (by simp)
  · rename_i hcannot
    rw [loopCanRun, hopen, Bool.not_false, Bool.true_and, Bool.not_eq_true, Bool.not_eq_false']
      at hcannot
    exact hcannot

/-- Only a task that scrolls changes anything when it puts its step off. -/
theorem putOff?_eq_some {task : Task} (h : s.putOff? setup task = some t) :
    t = s ∨ ∃ l ∈ s.loops, ∃ r, l.putOff? s.engine = some r ∧
      t = { s with engine := r.2 }.setLoop r.1 := by
  cases task with
  | scroll key =>
    obtain ⟨r, hr, rfl⟩ := Option.map_eq_some_iff.1 h
    obtain ⟨l, hl, hr⟩ := Option.bind_eq_some_iff.1 hr
    exact .inr ⟨l, (loop?_eq_some hl).1, r, hr, rfl⟩
  | consume i =>
    rw [putOff?] at h
    split at h
    · exact .inl (Option.some.inj h).symm
    · exact absurd h (by simp)
  | watch i => exact .inl (Option.some.inj h).symm

theorem setLoop_of_mem (h : s.Sound) {l : ScrollLoop σ} (hl : l ∈ s.loops) : s.setLoop l = s := by
  show { s with loops := View.setLoop s.loops l } = s
  rw [View.setLoop_self h.nodup hl]

/-- A loop that has no stock collapsed, and has nothing to put off. -/
theorem putOff?_of_stock?_none {l : ScrollLoop σ} {r : ScrollLoop σ × Engine σ}
    (hstock : l.phase.stock? = none) (h : l.putOff? e = some r) : r = (l, e) := by
  unfold ScrollLoop.putOff? at h
  split at h
  · rename_i hphase
    rw [hphase] at hstock
    exact absurd hstock (by simp [ScrollPhase.stock?])
  · exact (Option.some.inj h).symm

theorem of_toOption {α ε : Type} {r : Except ε α} {a : α} (h : r.toOption = some a) :
    r = .ok a := by
  cases r with
  | error => exact absurd h (by simp [Except.toOption])
  | ok => exact congrArg Except.ok (Option.some.inj h)

/-- An accepted command was submitted by somebody who holds the system. -/
theorem next?_submit {c : Command} (h : s.next? setup (.submit c) = some t) :
    s.isHeld = true ∧ ∃ r, s.submit setup c = .ok (r, t) := by
  rw [next?] at h
  split at h
  · rename_i hheld
    obtain ⟨⟨r, u⟩, hr, rfl⟩ := Option.map_eq_some_iff.1 h
    exact ⟨hheld, r, of_toOption hr⟩
  · exact absurd h (by simp)

theorem next?_abort {id : CommandId} {message : Option String}
    (h : s.next? setup (.abort id message) = some t) :
    ∃ new u, s.engine.tracker.abortWith s.engine.now id message = .ok (new, u) ∧
      t = s.withTracker u := by
  obtain ⟨⟨new, u⟩, hr, rfl⟩ := Option.map_eq_some_iff.1 h
  exact ⟨new, u, of_toOption hr, rfl⟩

theorem next?_release (h : s.next? setup .release = some t) :
    s.isHeld = true ∧ t = s.dropPublisher := by
  rw [next?] at h
  split at h
  · rename_i hheld
    exact ⟨hheld, (Option.some.inj h).symm⟩
  · exact absurd h (by simp)

namespace Sound

theorem stepTask? (h : s.Sound) {task : Task} (hnext : s.stepTask? setup task = some t) :
    t.Sound := by
  cases task with
  | scroll key =>
    obtain ⟨l, hl, -, hopen, -, rfl⟩ := stepTask?_scroll hnext
    obtain ⟨stock, hstock⟩ := l.exists_stock hopen
    exact h.scroll (ScrollLoop.acts_resume (h.owned l hl) hstock hopen)
  | consume i =>
    obtain ⟨c, r, hc, hr, rfl⟩ := stepTask?_consume hnext
    exact h.consume (Consumer.acts_step? (h.consumers c (List.mem_of_getElem? hc)) h.distinct hr)
  | watch i =>
    obtain ⟨w, -, rfl⟩ := Option.map_eq_some_iff.1 hnext
    exact { h with }

theorem putOff? (h : s.Sound) {task : Task} (hnext : s.putOff? setup task = some t) : t.Sound := by
  obtain rfl | ⟨l, hl, r, hr, rfl⟩ := putOff?_eq_some hnext
  · exact h
  · cases hstock : l.phase.stock? with
    | some stock => exact h.scroll (ScrollLoop.acts_putOff? (h.owned l hl) hstock hr)
    | none =>
      obtain rfl := putOff?_of_stock?_none hstock hr
      rw [setLoop_of_mem h hl]
      exact h

/-- Whatever happens to a system, it stays sound. -/
theorem next? (h : s.Sound) {event : Event} (hnext : s.next? setup event = some t) : t.Sound := by
  cases event with
  | submit c =>
    obtain ⟨-, r, hr⟩ := next?_submit hnext
    exact h.submit hr
  | step task => exact h.stepTask? hnext
  | putOff task => exact h.putOff? hnext
  | abort k message =>
    obtain ⟨new, u, hu, rfl⟩ := next?_abort hnext
    exact h.of_engine ⟨rfl, (Tracker.loses_abortWith hu).distinct⟩
  | lookUp k =>
    obtain rfl := Option.some.inj hnext
    exact h.of_engine ⟨rfl, (Tracker.drops_get h.distinct _ _).loses.distinct⟩
  | purge =>
    obtain rfl := Option.some.inj hnext
    exact h.of_engine ⟨rfl, (Tracker.drops_purgeExpired h.distinct _).loses.distinct⟩
  | tick now =>
    obtain rfl := Option.some.inj hnext
    exact { h with }
  | await k =>
    obtain rfl := Option.some.inj hnext
    exact { h with }
  | release =>
    obtain ⟨-, rfl⟩ := next?_release hnext
    exact { h with }
  | schedule queue yielded allowance =>
    obtain rfl := Option.some.inj hnext
    exact { h with }

end Sound

end System

end BulkRun
