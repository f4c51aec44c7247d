import BulkRun.Proofs.Dispatch.Order
import BulkRun.Proofs.Dispatch.ScrollSteps
import BulkRun.Proofs.Execution.Ready
/-!
# Nobody is blocked for ever

With collaborators in memory that answer every call, a system comes to rest only when all its work
is done: every scroll loop has ended, nothing is queued, and no consumer works on anything
(`Lively.isEnded_of_quiet`, `Lively.queueAt_of_quiet`, `Lively.idle_of_quiet`).  A publisher waits
only while its partition is full or a place is about to be filled, and a consumer stops only when
nobody can publish any more.
-/

namespace BulkRun

open InMemory (World Wired)

variable {w₀ : World} {setup : Setup World}

/-- Whether a consumer is that of a partition, and can go on with what it has received. -/
structure Consumer.IsAt (w₀ : World) (ch : Channel) (i : Nat) (c : Consumer World) : Prop where
  partition : c.partition = i
  ready : ∀ v x, c.phase = .executing v x →
    x.Ready w₀ ∧ x.work?.isSome = true ∧ ch.partitionFor v.bucket.commandId = i
  stopped : c.phase = .stopped → ch.publishers = 0 ∧ ch.queueAt i = []

namespace Consumer

variable {c : Consumer World} {ch : Channel} {i : Nat}

theorem IsAt.mans (h : c.IsAt w₀ ch i) : c.Mans ch i where
  partition := h.partition
  atWork v x hx := (h.ready v x hx).2
  stopped := h.stopped

theorem Mans.isAt (h : c.Mans ch i) (hready : ∀ v x, c.phase = .executing v x → x.Ready w₀) :
    c.IsAt w₀ ch i where
  partition := h.partition
  ready v x hx := ⟨hready v x hx, h.atWork v x hx⟩
  stopped := h.stopped

theorem ready_settle {v : Delivery} {x : Execution World} {e : Engine World}
    (hready : x.Ready w₀) :
    ∀ v' x', (c.settle v x e).1.phase = .executing v' x' → x'.Ready w₀ := by
  intro v' x' heq
  obtain ⟨-, h⟩ | ⟨result, -, h⟩ := c.settle_cases v x e
  · rw [h] at heq
    obtain ⟨rfl, rfl⟩ := ConsumerPhase.executing.inj heq
    exact hready
  · rw [h] at heq
    exact absurd heq (by simp)

end Consumer

namespace System

/-- A system in which whoever waits will go on. -/
structure Lively (w₀ : World) (s : System World) : Prop where
  sound : s.Sound
  world : World.Follows w₀ s.engine.world
  channel : s.engine.channel.IsOrderly
  scrollers : ∀ l ∈ s.loops, w₀.Enumerates l.scroller
  /-- The publishers in line are the loops that wait. -/
  inLine : ∀ (i : Nat) (k : PublisherKey), s.engine.channel.InLine i k ↔
    ∃ l ∈ s.loops, l.key = k ∧ l.isWaiting = true ∧ s.engine.channel.partitionFor l.id = i
  /-- Every loop that has not ended may publish. -/
  held : s.activeScrolls ≤ s.engine.channel.publishers
  receivers : s.consumers.length = s.engine.channel.partitions.length
  consumers : ∀ (i : Nat) (c : Consumer World), s.consumers[i]? = some c →
    c.IsAt w₀ s.engine.channel i

/-- Whether no scroll loop and no consumer can take a step. -/
structure IsQuiet (setup : Setup World) (s : System World) : Prop where
  loops : ∀ key, s.stepTask? setup (.scroll key) = none
  consumers : ∀ i, s.stepTask? setup (.consume i) = none

theorem isQuiet_of_ended {s : System World} (hloops : ∀ l ∈ s.loops, l.isEnded = true)
    (hconsumers : ∀ c ∈ s.consumers, c.step? setup s.engine = none) : s.IsQuiet setup where
  loops key := by
    cases hstep : s.stepTask? setup (.scroll key) with
    | none => rfl
    | some t =>
      rcases stepTask?_scroll hstep with ⟨l, hl, -, hopen, -⟩
      exact absurd ((hloops l hl).symm.trans hopen) (by simp)
  consumers i := by
    cases hstep : s.stepTask? setup (.consume i) with
    | none => rfl
    | some t =>
      rcases stepTask?_consume hstep with ⟨c, r, hc, hr, -⟩
      exact absurd ((hconsumers c (List.mem_of_getElem? hc)).symm.trans hr) (by simp)

/-- The scroller that a command is to be run with is one of those that were wired. -/
theorem enumerates_of_prepare (hwired : Wired setup w₀) {c c' : Command}
    {x : Numbered (Scroller World)} (h : setup.prepare c = .ok (c', x)) : w₀.Enumerates x.item := by
  obtain ⟨registered, -, -, hx⟩ := prepare_eq_ok h
  exact hwired.scrollers _ _ hx

namespace Lively

variable {s t : System World} {l : ScrollLoop World} {r : ScrollLoop World × Engine World}

theorem inOrder (h : Lively w₀ s) :
    InOrder (s.engine.channel.publishers - s.activeScrolls) s where
  sound := h.sound
  channel := h.channel
  inLine := h.inLine
  held := (Nat.add_sub_of_le h.held).symm
  receivers := h.receivers
  consumers i c hc := (h.consumers i c hc).mans

/-- A system in order is lively when its collaborators are in memory. -/
theorem of_inOrder {n : Nat} (h : InOrder n s) (hworld : World.Follows w₀ s.engine.world)
    (hscrollers : ∀ l ∈ s.loops, w₀.Enumerates l.scroller)
    (hready : ∀ c ∈ s.consumers, ∀ v x, c.phase = .executing v x → x.Ready w₀) :
    Lively w₀ s where
  sound := h.sound
  world := hworld
  channel := h.channel
  scrollers := hscrollers
  inLine := h.inLine
  held := by
    rw [h.held]
    exact Nat.le_add_right _ _
  receivers := h.receivers
  consumers i c hc := (h.consumers i c hc).isAt (hready c (List.mem_of_getElem? hc))

theorem ready (h : Lively w₀ s) {c : Consumer World} (hc : c ∈ s.consumers) :
    ∀ v x, c.phase = .executing v x → x.Ready w₀ := by
  intro v x hx
  obtain ⟨i, hi⟩ := List.mem_iff_getElem?.1 hc
  exact ((h.consumers i c hi).ready v x hx).1

/-- A loop that does not wait is not in line. -/
theorem not_inLine (h : Lively w₀ s) (hl : l ∈ s.loops) (hwait : l.isWaiting = false) (i : Nat) :
    ¬s.engine.channel.InLine i l.key :=
  h.inOrder.not_inLine hl hwait i

/-- The scroller of a loop leaves the world wired. -/
theorem follows_of_touches (h : Lively w₀ s) (hl : l ∈ s.loops) {w : World}
    (hw : l.scroller.Touches s.engine.world w) : World.Follows w₀ w := by
  obtain ⟨i, q, hx, hq, hsteady⟩ := h.scrollers l hl
  rw [hx] at hw
  cases hw with
  | nothing => exact h.world
  | start c =>
    obtain ⟨w', hstart, hfollows, -⟩ := World.start_lists h.world hq hsteady c
    rw [hstart]
    exact hfollows
  | next c maxCount => exact (World.follows_next h.world hq hsteady c maxCount).1

/-- A step of a loop leaves the world wired. -/
theorem follows_resume (h : Lively w₀ s) (hl : l ∈ s.loops) (hopen : l.isEnded = false)
    (hfree : l.isBlocked s.engine = false) : World.Follows w₀ (l.resume s.engine).2.world := by
  obtain ⟨w, -, hw, hcontinues⟩ | ⟨b, after, d, -, -, heq⟩ | ⟨b, after, d, -, -, heq⟩ :=
    ScrollLoop.resume_cases hopen hfree h.channel (h.not_inLine hl)
  · rw [hcontinues.world]
    exact h.follows_of_touches hl hw
  · rw [heq, (ScrollLoop.continues_goOn l after _).world]
    exact h.world
  · rw [heq]
    exact h.world

/-- A loop keeps its scroller. -/
theorem scrollers_setLoop (h : Lively w₀ s) (hl : l ∈ s.loops) {m : ScrollLoop World}
    (hloop : ∃ phase, m = { l with phase := phase }) :
    ∀ k ∈ View.setLoop s.loops m, w₀.Enumerates k.scroller := by
  obtain ⟨phase, rfl⟩ := hloop
  intro k hk
  obtain rfl | hk := View.mem_setLoop hk
  · exact h.scrollers l hl
  · exact h.scrollers k hk

/-- A consumer goes on with work that can go on, and leaves the world wired. -/
theorem ready_step? (hwired : Wired setup w₀) (h : Lively w₀ s) {i : Nat} {c : Consumer World}
    {r : Consumer World × Engine World} (hc : s.consumers[i]? = some c)
    (hr : c.step? setup s.engine = some r) :
    (∀ v x, r.1.phase = .executing v x → x.Ready w₀) ∧ World.Follows w₀ r.2.world := by
  -- it suspends, stops, receives a bucket, or goes on with the one it has
  obtain ⟨-, rfl⟩ | ⟨-, -, -, rfl⟩ | ⟨v, d, x, f, -, -, hstart, rfl⟩ |
      ⟨v, x, y, f, hphase, hstep, rfl⟩ := Consumer.step?_cases h.channel hr
  · exact ⟨fun v x heq => absurd heq (by simp), h.world⟩
  · exact ⟨fun v x heq => absurd heq (by simp), h.world⟩
  · have hremains := Execution.remains_start (e := { s.engine with channel := d }) hwired h.world
      v.bucket
    rw [hstart] at hremains
    obtain ⟨-, -, hworld, -⟩ := c.engine_settle v x f
    exact ⟨Consumer.ready_settle hremains.ready, hworld.symm ▸ hremains.world⟩
  · obtain ⟨hready, hwork, -⟩ := (h.consumers i c hc).ready v x hphase
    -- the step that it took is the one that it could take
    obtain ⟨r', hr', hremains⟩ := Execution.exists_step? hwired h.world hready hwork
    obtain rfl := Option.some.inj (hr'.symm.trans hstep)
    obtain ⟨-, -, hworld, -⟩ := c.engine_settle v y f
    exact ⟨Consumer.ready_settle hremains.ready, hworld.symm ▸ hremains.world⟩

/-- Whatever happens to a system, whoever waits in it will go on. -/
theorem next? (hwired : Wired setup w₀) (h : Lively w₀ s) {event : Event}
    (hnext : s.next? setup event = some t) : Lively w₀ t := by
  have horder := h.inOrder.next? hnext
  have hready (c : Consumer World) (hc : c ∈ s.consumers) := h.ready hc
  cases event with
  | submit c =>
    obtain ⟨-, r, hr⟩ := next?_submit hnext
    obtain ⟨c', x, u, hprepare, -, -, rfl⟩ := submit_eq_ok hr
    refine .of_inOrder horder h.world ?_ hready
    intro l hl
    obtain hl | hl := List.mem_append.1 hl
    · exact h.scrollers l hl
    · rw [List.mem_singleton.1 hl]
      exact enumerates_of_prepare hwired hprepare
  | step task =>
    cases task with
    | scroll key =>
      have hstep : s.stepTask? setup (.scroll key) = some t := hnext
      obtain ⟨l, hl, -, hopen, hfree, rfl⟩ := stepTask?_scroll hstep
      exact .of_inOrder horder (h.follows_resume hl hopen hfree)
        (h.scrollers_setLoop hl (ScrollLoop.resumes_resume hopen).loop) hready
    | consume i =>
      obtain ⟨c, r, hc, hr, rfl⟩ := stepTask?_consume hnext
      obtain ⟨hafter, hworld⟩ := h.ready_step? hwired hc hr
      refine .of_inOrder horder hworld h.scrollers ?_
      intro c' hc'
      obtain hc' | rfl := List.mem_or_eq_of_mem_set hc'
      · exact hready c' hc'
      · exact hafter
    | watch i =>
      obtain ⟨w, -, rfl⟩ := Option.map_eq_some_iff.1 hnext
      exact .of_inOrder horder h.world h.scrollers hready
  | putOff task =>
    have hput : s.putOff? setup task = some t := hnext
    obtain rfl | ⟨l, hl, r, hr, rfl⟩ := putOff?_eq_some hput
    · exact h
    · have hworld : r.2.world = s.engine.world := by
        obtain rfl | ⟨b, after, d, -, -, rfl⟩ := ScrollLoop.putOff?_eq_some hr <;> rfl
      refine .of_inOrder horder ?_ (h.scrollers_setLoop hl (ScrollLoop.loop_putOff? hr)) hready
      show World.Follows w₀ r.2.world
      rw [hworld]
      exact h.world
  | abort k message =>
    obtain ⟨new, u, -, rfl⟩ := next?_abort hnext
    exact .of_inOrder horder h.world h.scrollers hready
  | release =>
    obtain ⟨-, rfl⟩ := next?_release hnext
    exact .of_inOrder horder h.world h.scrollers hready
  | lookUp | purge | tick | await | schedule =>
    obtain rfl := Option.some.inj hnext
    exact .of_inOrder horder h.world h.scrollers hready

/-! ## Coming to rest -/

/-- A consumer that cannot take a step works on nothing, and nothing is queued in its partition. -/
theorem idle_of_quiet (hwired : Wired setup w₀) (h : Lively w₀ s) (hquiet : s.IsQuiet setup)
    {i : Nat}
    {c : Consumer World} (hc : s.consumers[i]? = some c) :
    (∀ v x, c.phase ≠ .executing v x) ∧ s.engine.channel.queueAt i = [] := by
  obtain ⟨v, x, hphase, hnone⟩ | ⟨hphase, hempty⟩ :=
    h.inOrder.queueAt_of_quiet hc (hquiet.consumers i)
  · obtain ⟨hready, hwork, -⟩ := (h.consumers i c hc).ready v x hphase
    obtain ⟨r, hr, -⟩ := Execution.exists_step? hwired h.world hready hwork
    exact absurd (hnone.symm.trans hr) (by simp)
  · refine ⟨?_, hempty⟩
    intro v x heq
    rw [heq] at hphase
    exact absurd hphase (by simp)

theorem queueAt_of_quiet (hwired : Wired setup w₀) (h : Lively w₀ s) (hquiet : s.IsQuiet setup)
    (i : Nat) : s.engine.channel.queueAt i = [] :=
  h.inOrder.queueAt_eq_nil (fun _ _ hc => (h.idle_of_quiet hwired hquiet hc).2) i

theorem isEnded_of_quiet (hwired : Wired setup w₀) (h : Lively w₀ s) (hquiet : s.IsQuiet setup)
    (hl : l ∈ s.loops) : l.isEnded = true :=
  h.inOrder.isEnded_of_quiet hquiet.loops (h.queueAt_of_quiet hwired hquiet) hl

end Lively

/-- A system that was just started is lively. -/
theorem lively_start {settings : Settings} {actions : ActionRegistry (Action World)}
    {scrollers : ScrollerRegistry (Scroller World)} {transactions : TransactionManager World}
    {now : Timestamp} {service : Service World}
    (h : Service.start settings actions scrollers transactions now w₀ = .ok service) :
    Lively w₀ service.system := by
  have horder := inOrder_start h
  rw [Service.system_of_start h] at horder ⊢
  refine .of_inOrder horder (.refl w₀) (by simp [withConsumers, ofEngine]) ?_
  intro c hc v x heq
  obtain ⟨i, -, rfl⟩ := List.mem_map.1 hc
  exact absurd heq (by simp [Consumer.new])

end System

end BulkRun
