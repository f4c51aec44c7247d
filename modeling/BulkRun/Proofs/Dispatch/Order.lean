import BulkRun.Proofs.Dispatch.Passage
import BulkRun.Proofs.Dispatch.Sound
/-!
# Systems in order

Every scroll loop that has not ended may publish, and so may some others.  The publishers in line
are the loops that wait, and every partition has one consumer, which works on what belongs there and
stops only when nobody can publish any more and nothing is queued.  Whatever happens to a system,
and whatever its collaborators do, keeps this (`InOrder.next?`).

In such a system a loop goes on for ever without ending only if the queue of some partition is never
worked off (`InOrder.isEnded_of_quiet`): whoever is first in line has a place of its own when the
queue is empty.
-/

namespace BulkRun

variable {σ : Type} {setup : Setup σ}

/-- Whether a consumer is that of a partition, and works on what belongs there. -/
structure Consumer.Mans (ch : Channel) (i : Nat) (c : Consumer σ) : Prop where
  partition : c.partition = i
  atWork : ∀ v x, c.phase = .executing v x →
    x.work?.isSome = true ∧ ch.partitionFor v.bucket.commandId = i
  stopped : c.phase = .stopped → ch.publishers = 0 ∧ ch.queueAt i = []

namespace Consumer

variable {c : Consumer σ} {ch d : Channel} {i : Nat}

/-- A consumer stays at its partition while the partitions stay where they are; if it has stopped,
nobody may publish again. -/
theorem Mans.congr (h : c.Mans ch i) (hlength : d.partitions.length = ch.partitions.length)
    (hstopped : c.phase = .stopped → d.publishers = 0 ∧ d.queueAt i = []) : c.Mans d i where
  partition := h.partition
  atWork v x hx := by
    obtain ⟨hwork, hi⟩ := h.atWork v x hx
    exact ⟨hwork, (Channel.partitionFor_congr hlength _).trans hi⟩
  stopped := hstopped

/-- A consumer that goes on with a bucket, or acknowledges it, stays at its partition. -/
theorem mans_settle {v : Delivery} {x : Execution σ} {e : Engine σ} (hpartition : c.partition = i)
    (hplace : e.channel.partitionFor v.bucket.commandId = i) :
    (c.settle v x e).1.Mans (c.settle v x e).2.channel i := by
  have hsame := partition_settle c v x e
  obtain ⟨hwork, h⟩ | ⟨result, -, h⟩ := c.settle_cases v x e
  · rw [h] at hsame ⊢
    refine ⟨hsame.trans hpartition, ?_, fun hstopped => absurd hstopped (by simp)⟩
    intro v' x' heq
    obtain ⟨rfl, rfl⟩ := ConsumerPhase.executing.inj heq
    exact ⟨hwork, hplace⟩
  · rw [h] at hsame ⊢
    exact ⟨hsame.trans hpartition, fun v' x' heq => absurd heq (by simp),
      fun hstopped => absurd hstopped (by simp)⟩

end Consumer

namespace System

/-- A system in order, in which so many others than the scroll loops may publish. -/
structure InOrder (n : Nat) (s : System σ) : Prop where
  sound : s.Sound
  channel : s.engine.channel.IsOrderly
  /-- The publishers in line are the loops that wait. -/
  inLine : ∀ (i : Nat) (k : PublisherKey), s.engine.channel.InLine i k ↔
    ∃ l ∈ s.loops, l.key = k ∧ l.isWaiting = true ∧ s.engine.channel.partitionFor l.id = i
  held : s.engine.channel.publishers = s.activeScrolls + n
  receivers : s.consumers.length = s.engine.channel.partitions.length
  consumers : ∀ (i : Nat) (c : Consumer σ), s.consumers[i]? = some c →
    c.Mans s.engine.channel i

/-- How many others than the scroll loops may publish after an event. -/
def Event.holders : Event → Nat → Nat
  | .release, n => n - 1
  | _, n => n

variable {s t : System σ} {l : ScrollLoop σ} {r : ScrollLoop σ × Engine σ} {n : Nat}

/-- A loop that ends is one less that has not ended. -/
theorem activeScrolls_setLoop (h : s.Sound) (hl : l ∈ s.loops) (hopen : l.isEnded = false)
    {m : ScrollLoop σ} (hkey : m.key = l.key) :
    ((View.setLoop s.loops m).filter fun l => !l.isEnded).length + (if m.isEnded then 1 else 0) =
      s.activeScrolls := by
  have hkeys := h.nodup
  obtain ⟨front, rear, hsplit⟩ := List.append_of_mem hl
  unfold activeScrolls
  rw [hsplit] at hkeys ⊢
  rw [View.setLoop_append hkeys hkey, List.filter_append, List.filter_append, List.filter_cons,
    List.filter_cons, hopen]
  cases m.isEnded with
  | true => simp [Nat.add_assoc]
  | false =>
    simp only [Bool.not_false, if_true, List.length_append, List.length_cons]
    rfl

namespace InOrder

/-- A loop that does not wait is not in line. -/
theorem not_inLine (h : InOrder n s) (hl : l ∈ s.loops) (hwait : l.isWaiting = false) (i : Nat) :
    ¬s.engine.channel.InLine i l.key := by
  intro hline
  obtain ⟨m, hm, hkey, hmwait, -⟩ := (h.inLine i l.key).1 hline
  rw [View.eq_of_key h.sound.nodup hl hm hkey, hwait] at hmwait
  exact Bool.false_ne_true hmwait

/-- While a loop has not ended, no consumer has stopped. -/
theorem publishers_pos (h : InOrder n s) (hl : l ∈ s.loops) (hopen : l.isEnded = false) :
    0 < s.engine.channel.publishers := by
  have hactive : 0 < s.activeScrolls := by
    refine List.length_pos_of_mem (List.mem_filter.2 ⟨hl, ?_⟩)
    rw [hopen]
    rfl
  have hheld := h.held
  omega

theorem isHeld_iff (h : InOrder n s) : s.isHeld = true ↔ 0 < n := by
  have hheld := h.held
  rw [isHeld, decide_eq_true_eq]
  omega

/-! ## Scroll loops -/

/-- After a step of a scroll loop the lines are those of the loops that wait, if the step took that
loop out of line or put it there, and moved nobody else. -/
theorem inLine_setLoop (h : InOrder n s) (hl : l ∈ s.loops) {m : ScrollLoop σ} {c d : Channel}
    (hkey : m.key = l.key) (hid : m.id = l.id)
    (hplace : ∀ id, d.partitionFor id = s.engine.channel.partitionFor id)
    (hsame : d.partitions = c.partitions)
    (hline : ∀ i k, c.InLine i k ↔ s.engine.channel.InLine i k ∧ k ≠ l.key ∨
      m.isWaiting = true ∧ s.engine.channel.partitionFor l.id = i ∧ k = l.key)
    (i : Nat) (k : PublisherKey) :
    d.InLine i k ↔ ∃ n ∈ View.setLoop s.loops m, n.key = k ∧ n.isWaiting = true ∧
      d.partitionFor n.id = i := by
  have hmem (n : ScrollLoop σ) := View.mem_setLoop_iff (m := n) hl hkey
  rw [Channel.inLine_congr hsame, hline i k]
  constructor
  · rintro (⟨hin, hne⟩ | ⟨hwait, hi, rfl⟩)
    · obtain ⟨n, hn, rfl, hnwait, hni⟩ := (h.inLine i k).1 hin
      exact ⟨n, (hmem n).2 (.inr ⟨hn, hne⟩), rfl, hnwait, (hplace n.id).trans hni⟩
    · refine ⟨m, (hmem m).2 (.inl rfl), hkey, hwait, ?_⟩
      rw [hid]
      exact (hplace l.id).trans hi
  · rintro ⟨n, hn, rfl, hnwait, hni⟩
    obtain rfl | ⟨hn, hne⟩ := (hmem n).1 hn
    · refine .inr ⟨hnwait, ?_, hkey⟩
      rw [← hid]
      exact (hplace _).symm.trans hni
    · exact .inl ⟨(h.inLine i n.key).2 ⟨n, hn, rfl, hnwait, (hplace n.id).symm.trans hni⟩, hne⟩

/-- A step of a scroll loop: everybody else stays in line, and the loop is in line exactly when it
waits after the step. -/
theorem scroll (h : InOrder n s) (hl : l ∈ s.loops) (hopen : l.isEnded = false) {d : Channel}
    (hloop : ∃ phase, r.1 = { l with phase := phase }) (hd : d.IsOrderly)
    (hlength : d.partitions.length = s.engine.channel.partitions.length)
    (hpublishers : d.publishers = s.engine.channel.publishers)
    (hline : ∀ i k, d.InLine i k ↔ s.engine.channel.InLine i k ∧ k ≠ l.key ∨
      r.1.isWaiting = true ∧ s.engine.channel.partitionFor l.id = i ∧ k = l.key)
    (hchannel : r.2.channel = if r.1.isEnded then d.dropPublisher else d)
    (hsound : Sound ({ s with engine := r.2 }.setLoop r.1)) :
    InOrder n ({ s with engine := r.2 }.setLoop r.1) := by
  obtain ⟨phase, hphase⟩ := hloop
  have hkey : r.1.key = l.key := by rw [hphase]
  have hid : r.1.id = l.id := by rw [hphase]; rfl
  have hsame : r.2.channel.partitions = d.partitions := by
    rw [hchannel]
    split <;> rfl
  have hplace (id : CommandId) :
      r.2.channel.partitionFor id = s.engine.channel.partitionFor id :=
    Channel.partitionFor_congr (by rw [hsame, hlength]) id
  have hpos := h.publishers_pos hl hopen
  constructor
  case sound => exact hsound
  case channel => exact hd.congr hsame
  case inLine => exact h.inLine_setLoop hl hkey hid hplace hsame hline
  case held =>
    have hactive := activeScrolls_setLoop h.sound hl hopen hkey
    have hheld := h.held
    show r.2.channel.publishers = ((View.setLoop s.loops r.1).filter fun l => !l.isEnded).length + n
    rw [hchannel]
    split
    · rename_i hended
      rw [hended, if_pos rfl] at hactive
      show d.publishers - 1 = _
      omega
    · rename_i hended
      rw [if_neg hended] at hactive
      omega
  case receivers =>
    show s.consumers.length = r.2.channel.partitions.length
    rw [hsame, hlength]
    exact h.receivers
  case consumers =>
    intro i c hc
    apply (h.consumers i c hc).congr ((congrArg List.length hsame).trans hlength)
    intro hstopped
    -- a consumer stops only without publishers, and this loop is one
    have hzero := ((h.consumers i c hc).stopped hstopped).1
    omega

/-- A loop that publishes a bucket leaves the line, if it was in one. -/
theorem publish (h : InOrder n s) (hl : l ∈ s.loops) (hopen : l.isEnded = false) {b : Bucket}
    (hb : b.commandId = l.id) {d : Channel} (hd : s.engine.channel.Publishes d l.key b)
    (hcontinues : ScrollLoop.Continues l { s.engine with channel := d } r)
    (hsound : Sound ({ s with engine := r.2 }.setLoop r.1)) :
    InOrder n ({ s with engine := r.2 }.setLoop r.1) := by
  refine h.scroll hl hopen hcontinues.loop hd.orderly hd.length hd.publishers ?_
    hcontinues.channel hsound
  intro i k
  rw [hd.line i k, hcontinues.free, hb]
  constructor
  · rintro ⟨hin, hnot⟩
    refine .inl ⟨hin, ?_⟩
    rintro rfl
    -- the loop is in line in front of no other partition
    obtain ⟨m, hm, hkey, -, hi⟩ := (h.inLine i l.key).1 hin
    rw [View.eq_of_key h.sound.nodup hl hm hkey] at hi
    exact hnot ⟨hi.symm, rfl⟩
  · rintro (⟨hin, hne⟩ | ⟨habsurd, -⟩)
    · exact ⟨hin, fun heq => hne heq.2⟩
    · exact absurd habsurd Bool.false_ne_true

/-- A loop that gets in line was not in line before. -/
theorem enlist (h : InOrder n s) (hl : l ∈ s.loops) {b : Bucket} {after : AfterBucket}
    (hphase : l.phase = .publishing b after) {d : Channel}
    (hd : s.engine.channel.Enlists d l.key b)
    (hsound : Sound ({ s with engine := { s.engine with channel := d } }.setLoop
      { l with phase := .waiting b after })) :
    InOrder n ({ s with engine := { s.engine with channel := d } }.setLoop
      { l with phase := .waiting b after }) := by
  have howned := h.sound.owned l hl
  rw [hphase] at howned
  have hwait : l.isWaiting = false := by rw [ScrollLoop.isWaiting, hphase]
  have hopen : l.isEnded = false := by rw [ScrollLoop.isEnded, hphase]
  refine h.scroll (r := ⟨{ l with phase := .waiting b after }, { s.engine with channel := d }⟩)
    hl hopen ⟨_, rfl⟩ hd.orderly hd.length hd.publishers ?_ rfl hsound
  intro i k
  rw [hd.line i k, howned.1]
  constructor
  · rintro (hin | ⟨rfl, rfl⟩)
    · exact .inl ⟨hin, fun heq => h.not_inLine hl hwait i (heq ▸ hin)⟩
    · exact .inr ⟨rfl, rfl, rfl⟩
  · rintro (⟨hin, -⟩ | ⟨-, rfl, rfl⟩)
    · exact .inl hin
    · exact .inr ⟨rfl, rfl⟩

theorem resume (h : InOrder n s) (hl : l ∈ s.loops) (hopen : l.isEnded = false)
    (hfree : l.isBlocked s.engine = false)
    (hsound : Sound ({ s with engine := (l.resume s.engine).2 }.setLoop (l.resume s.engine).1)) :
    InOrder n ({ s with engine := (l.resume s.engine).2 }.setLoop (l.resume s.engine).1) := by
  obtain ⟨w, hwait, -, hcontinues⟩ | ⟨b, after, d, hphase, hpublishes, heq⟩ |
      ⟨b, after, d, hphase, henlists, heq⟩ :=
    ScrollLoop.resume_cases hopen hfree h.channel (h.not_inLine hl)
  · -- the loop had not to do with the channel, and it is in no line
    refine h.scroll hl hopen hcontinues.loop h.channel rfl rfl ?_ hcontinues.channel hsound
    intro i k
    rw [hcontinues.free]
    constructor
    · exact fun hin => .inl ⟨hin, fun heq => h.not_inLine hl hwait i (heq ▸ hin)⟩
    · rintro (⟨hin, -⟩ | ⟨habsurd, -⟩)
      · exact hin
      · exact absurd habsurd Bool.false_ne_true
  · have hb : b.commandId = l.id := ScrollLoop.commandId_of_owned (h.sound.owned l hl) hphase
    have hcontinues := ScrollLoop.continues_goOn l after { s.engine with channel := d }
    rw [← heq] at hcontinues
    exact h.publish hl hopen hb hpublishes hcontinues hsound
  · rw [heq] at hsound ⊢
    exact h.enlist hl hphase henlists hsound

/-- A loop that puts its step off gets in line, or does nothing. -/
theorem putOff (h : InOrder n s) (hl : l ∈ s.loops) (hr : l.putOff? s.engine = some r)
    (hsound : Sound ({ s with engine := r.2 }.setLoop r.1)) :
    InOrder n ({ s with engine := r.2 }.setLoop r.1) := by
  obtain rfl | ⟨b, after, d, hphase, henlists, rfl⟩ :=
    ScrollLoop.putOff?_cases h.channel (h.not_inLine hl) hr
  · rw [setLoop_of_mem h.sound hl]
    exact h
  · exact h.enlist hl hphase henlists hsound

/-! ## Consumers -/

/-- A step of a consumer: everybody stays in line, and nothing is put into a queue. -/
theorem consume (h : InOrder n s) {i : Nat} {c : Consumer σ} {e : Engine σ} {c' : Consumer σ}
    (hc : s.consumers[i]? = some c) (hd : e.channel.IsOrderly)
    (hlength : e.channel.partitions.length = s.engine.channel.partitions.length)
    (hpublishers : e.channel.publishers = s.engine.channel.publishers)
    (hline : ∀ i k, e.channel.InLine i k ↔ s.engine.channel.InLine i k)
    (hqueue : ∀ j, j ≠ i → e.channel.queueAt j = s.engine.channel.queueAt j)
    (hmans : c'.Mans e.channel i)
    (hsound : Sound { s with engine := e, consumers := s.consumers.set i c' }) :
    InOrder n { s with engine := e, consumers := s.consumers.set i c' } := by
  constructor
  case sound => exact hsound
  case channel => exact hd
  case inLine =>
    intro j k
    apply (hline j k).trans ((h.inLine j k).trans _)
    simp only [Channel.partitionFor_congr hlength]
  case held => exact hpublishers.trans h.held
  case receivers =>
    show (s.consumers.set i c').length = e.channel.partitions.length
    rw [List.length_set, hlength]
    exact h.receivers
  case consumers =>
    intro j c₁ hc₁
    by_cases hj : j = i
    · subst hj
      have hself : (s.consumers.set j c')[j]? = some c' :=
        List.getElem?_set_self (List.getElem?_eq_some_iff.1 hc).1
      obtain rfl := Option.some.inj (hself.symm.trans hc₁)
      exact hmans
    · have hother : (s.consumers.set i c')[j]? = s.consumers[j]? :=
        List.getElem?_set_ne (Ne.symm hj)
      have hbefore := h.consumers j c₁ (hother.symm.trans hc₁)
      apply hbefore.congr hlength
      intro hstopped
      rcases hbefore.stopped hstopped with ⟨hzero, hempty⟩
      exact ⟨hpublishers.trans hzero, (hqueue j hj).trans hempty⟩

theorem consumerStep (h : InOrder n s) {i : Nat} {c : Consumer σ} {r : Consumer σ × Engine σ}
    (hc : s.consumers[i]? = some c) (hr : c.step? setup s.engine = some r)
    (hsound : Sound { s with engine := r.2, consumers := s.consumers.set i r.1 }) :
    InOrder n { s with engine := r.2, consumers := s.consumers.set i r.1 } := by
  have hmans := h.consumers i c hc
  -- it suspends, stops, receives a bucket, or goes on with the one it has
  obtain ⟨-, rfl⟩ | ⟨-, hzero, hempty, rfl⟩ | ⟨v, d, x, f, -, hdelivers, hstart, rfl⟩ |
      ⟨v, x, y, f, hphase, hstep, rfl⟩ := Consumer.step?_cases h.channel hr
  · exact h.consume hc h.channel rfl rfl (fun _ _ => .rfl) (fun _ _ => rfl)
      ⟨hmans.partition, fun v x heq => absurd heq (by simp), fun heq => absurd heq (by simp)⟩ hsound
  · refine h.consume hc h.channel rfl rfl (fun _ _ => .rfl) (fun _ _ => rfl)
      ⟨hmans.partition, fun v x heq => absurd heq (by simp), fun _ => ⟨hzero, ?_⟩⟩ hsound
    rw [← hmans.partition]
    exact hempty
  · -- the bucket that is received belongs to the partition
    rw [hmans.partition] at hdelivers
    have hb : s.engine.channel.partitionFor v.bucket.commandId = i :=
      h.channel.sorted i v.bucket (by rw [hdelivers.queue_self]; exact List.mem_cons_self)
    have hacts : Execution.Acts v.bucket .untouched { s.engine with channel := d }
        (Execution.start setup v.bucket { s.engine with channel := d }) := Execution.acts_start
    rw [hstart] at hacts
    have hsteady : f.channel = d := hacts.channel
    obtain ⟨hparts, hpub, -, -⟩ := c.engine_settle v x f
    rw [hsteady] at hparts hpub
    refine h.consume hc (hdelivers.orderly.congr hparts)
      ((congrArg List.length hparts).trans hdelivers.length) (hpub.trans hdelivers.publishers)
      (fun j k => (Channel.inLine_congr hparts).trans (hdelivers.line j k))
      (fun j hj => (Channel.queueAt_congr hparts j).trans (hdelivers.queue_other j hj)) ?_ hsound
    apply Consumer.mans_settle hmans.partition
    rw [hsteady]
    exact (Channel.partitionFor_congr hdelivers.length _).trans hb
  · obtain ⟨-, hb⟩ := hmans.atWork v x hphase
    have hserves := h.sound.consumers c (List.mem_of_getElem? hc)
    have hsteady : f.channel = s.engine.channel :=
      (Execution.acts_step? (hserves v x hphase) h.sound.distinct hstep).channel
    obtain ⟨hparts, hpub, -, -⟩ := c.engine_settle v y f
    rw [hsteady] at hparts hpub
    refine h.consume hc (h.channel.congr hparts) (congrArg List.length hparts) hpub
      (fun j k => Channel.inLine_congr hparts) (fun j _ => Channel.queueAt_congr hparts j) ?_ hsound
    apply Consumer.mans_settle hmans.partition
    rw [hsteady]
    exact hb

/-! ## Other events -/

/-- A command that is submitted. -/
theorem withLoop (h : InOrder n s) (hheld : s.isHeld = true) (c : Command) (x : Scroller σ)
    (u : Tracker) (hsound : Sound (s.withLoop setup c x u)) :
    InOrder n (s.withLoop setup c x u) := by
  have hpos := h.isHeld_iff.1 hheld
  constructor
  case sound => exact hsound
  case channel => exact h.channel.congr rfl
  case inLine =>
    intro i k
    apply (h.inLine i k).trans
    constructor
    · rintro ⟨l, hl, hkey, hwait, hi⟩
      exact ⟨l, List.mem_append_left _ hl, hkey, hwait, hi⟩
    · rintro ⟨l, hl, hkey, hwait, hi⟩
      obtain hl | hl := List.mem_append.1 hl
      · exact ⟨l, hl, hkey, hwait, hi⟩
      · rw [List.mem_singleton.1 hl] at hwait
        exact absurd hwait Bool.false_ne_true
  case held =>
    have hheld := h.held
    show s.engine.channel.publishers + 1 = ((s.loops ++ [_]).filter _).length + n
    rw [List.filter_append, List.length_append]
    show _ = s.activeScrolls + 1 + n
    omega
  case receivers => exact h.receivers
  case consumers =>
    intro i c₁ hc₁
    refine Consumer.Mans.congr (h.consumers i c₁ hc₁) rfl ?_
    intro hstopped
    -- somebody holds the system, so no consumer has stopped
    have hzero := ((h.consumers i c₁ hc₁).stopped hstopped).1
    have hheld := h.held
    omega

/-- Somebody who might submit commands lets go of the system. -/
theorem dropPublisher (h : InOrder n s) (hpos : 0 < n) (hsound : Sound s.dropPublisher) :
    InOrder (n - 1) s.dropPublisher := by
  have hheld := h.held
  exact { h with
    sound := hsound
    channel := h.channel.congr rfl
    held := by
      show s.engine.channel.publishers - 1 = s.activeScrolls + (n - 1)
      omega
    consumers := by
      intro i c hc
      refine Consumer.Mans.congr (h.consumers i c hc) rfl ?_
      intro hstopped
      have hzero := ((h.consumers i c hc).stopped hstopped).1
      omega }

/-- Whatever happens to a system leaves it in order. -/
theorem next? (h : InOrder n s) {event : Event} (hnext : s.next? setup event = some t) :
    InOrder (event.holders n) t := by
  have hsound := h.sound.next? hnext
  cases event with
  | submit c =>
    obtain ⟨hheld, r, hr⟩ := next?_submit hnext
    obtain ⟨c', x, u, -, -, -, rfl⟩ := submit_eq_ok hr
    exact h.withLoop hheld c' x.item u hsound
  | step task =>
    cases task with
    | scroll key =>
      have hstep : s.stepTask? setup (.scroll key) = some t := hnext
      obtain ⟨l, hl, -, hopen, hfree, rfl⟩ := stepTask?_scroll hstep
      exact h.resume hl hopen hfree hsound
    | consume i =>
      obtain ⟨c, r, hc, hr, rfl⟩ := stepTask?_consume hnext
      exact h.consumerStep hc hr hsound
    | watch i =>
      obtain ⟨w, -, rfl⟩ := Option.map_eq_some_iff.1 hnext
      exact { h with sound := hsound }
  | putOff task =>
    have hput : s.putOff? setup task = some t := hnext
    obtain rfl | ⟨l, hl, r, hr, rfl⟩ := putOff?_eq_some hput
    · exact h
    · exact h.putOff hl hr hsound
  | abort k message =>
    obtain ⟨new, u, -, rfl⟩ := next?_abort hnext
    exact { h with sound := hsound }
  | release =>
    obtain ⟨hheld, rfl⟩ := next?_release hnext
    exact h.dropPublisher (h.isHeld_iff.1 hheld) hsound
  | lookUp | purge | tick | await | schedule =>
    obtain rfl := Option.some.inj hnext
    exact { h with sound := hsound }

/-! ## Coming to rest -/

/-- When nothing is queued, nobody waits: whoever is first in line has a place already, and would
go on. -/
theorem isEnded_of_quiet (h : InOrder n s)
    (hquiet : ∀ key, s.stepTask? setup (.scroll key) = none)
    (hempty : ∀ i, s.engine.channel.queueAt i = []) (hl : l ∈ s.loops) : l.isEnded = true := by
  have hcannot {m : ScrollLoop σ} (hm : m ∈ s.loops) (hopen : m.isEnded = false) :
      m.isBlocked s.engine = true :=
    isBlocked_of_stepTask?_none h.sound hm (hquiet m.key) hopen
  cases hended : l.isEnded with
  | true => rfl
  | false =>
    exfalso
    -- a loop that is blocked is in line in front of a partition, and its queue is empty
    obtain ⟨b, after, hphase, -⟩ := ScrollLoop.of_isBlocked h.channel (hcannot hl hended)
    have hwait : l.isWaiting = true := by rw [ScrollLoop.isWaiting, hphase]
    obtain ⟨p, hp, hline⟩ := (h.inLine _ l.key).2 ⟨l, hl, rfl, hwait, rfl⟩
    have hqueue := hempty (s.engine.channel.partitionFor l.id)
    rw [Channel.queueAt_of_getElem? hp] at hqueue
    have hgranted := Partition.granted_ne_nil (h.channel.at hp) hqueue (List.ne_nil_of_mem hline)
    obtain ⟨k, hk⟩ := List.exists_mem_of_ne_nil _ hgranted
    -- the publisher to whom the place belongs is not blocked
    obtain ⟨m, hm, rfl, hmwait, hmi⟩ := (h.inLine _ k).1 ⟨p, hp, List.mem_append_right _ hk⟩
    have hmopen : m.isEnded = false := by
      obtain ⟨b', after', hmphase⟩ := ScrollLoop.isWaiting_iff.1 hmwait
      rw [ScrollLoop.isEnded, hmphase]
    obtain ⟨b', after', hmphase, hnot⟩ := ScrollLoop.of_isBlocked h.channel (hcannot hm hmopen)
    have howned := h.sound.owned m hm
    rw [hmphase] at howned
    rw [howned.1, hmi] at hnot
    exact hnot p hp hk

/-- A consumer that can take no step works on a bucket, or nothing is queued in its partition. -/
theorem queueAt_of_quiet (h : InOrder n s) {i : Nat} {c : Consumer σ}
    (hc : s.consumers[i]? = some c) (hquiet : s.stepTask? setup (.consume i) = none) :
    (∃ v x, c.phase = .executing v x ∧ x.step? setup s.engine = none) ∨
      (c.phase = .stopped ∨ c.phase = .suspended ∧ s.engine.channel.publishers ≠ 0) ∧
        s.engine.channel.queueAt i = [] := by
  have hmans := h.consumers i c hc
  have hnone : c.step? setup s.engine = none := step?_eq_none hquiet hc
  cases hphase : c.phase with
  | idle =>
    rw [Consumer.step?, hphase] at hnone
    simp only [Channel.unstash?_of_orderly h.channel] at hnone
    exact absurd hnone (by simp)
  | suspended =>
    rw [Consumer.step?, hphase] at hnone
    simp only [Consumer.receive?] at hnone
    split at hnone
    · exact absurd hnone (by simp)
    · rename_i hempty
      split at hnone
      · exact absurd hnone (by simp)
      · rename_i hopen
        refine .inr ⟨.inr ⟨rfl, by simpa [Channel.isFinished] using hopen⟩, ?_⟩
        rw [← hmans.partition]
        exact Channel.queueAt_of_dequeue?_none hempty
  | executing v x =>
    rw [Consumer.step?, hphase] at hnone
    exact .inl ⟨v, x, rfl, Option.map_eq_none_iff.1 hnone⟩
  | stopped => exact .inr ⟨.inl rfl, (hmans.stopped hphase).2⟩

/-- Nothing is queued anywhere when nothing is queued for any consumer. -/
theorem queueAt_eq_nil (h : InOrder n s)
    (hall : ∀ (i : Nat) (c : Consumer σ), s.consumers[i]? = some c →
      s.engine.channel.queueAt i = [])
    (i : Nat) : s.engine.channel.queueAt i = [] := by
  by_cases hi : i < s.consumers.length
  · exact hall i _ (List.getElem?_eq_getElem hi)
  · rw [h.receivers] at hi
    unfold Channel.queueAt
    rw [List.getElem?_eq_none (Nat.le_of_not_lt hi)]
    rfl

end InOrder

/-! ## A new system -/

/-- The consumers of a new system are new. -/
theorem eq_new_of_withConsumers {i : Nat} {c : Consumer σ}
    (h : s.withConsumers.consumers[i]? = some c) : c = .new i := by
  unfold withConsumers at h
  rw [List.getElem?_map] at h
  rcases Option.map_eq_some_iff.1 h with ⟨j, hj, rfl⟩
  rw [List.getElem?_range (by simpa using (List.getElem?_eq_some_iff.1 hj).1)] at hj
  rw [Option.some.inj hj]

/-- A system that was just started is in order, and whoever started it may submit commands. -/
theorem inOrder_start {settings : Settings} {actions : ActionRegistry (Action σ)}
    {scrollers : ScrollerRegistry (Scroller σ)} {transactions : TransactionManager σ}
    {now : Timestamp} {world : σ} {service : Service σ}
    (h : Service.start settings actions scrollers transactions now world = .ok service) :
    InOrder 1 service.system := by
  rw [Service.system_of_start h]
  have horderly := Channel.orderly_new settings.channel.partitions settings.channel.capacity
  constructor
  case sound =>
    exact {
      distinct := List.nodup_nil
      keys := rfl
      owned := by simp [withConsumers, ofEngine]
      consumers := by
        intro c hc
        obtain ⟨i, -, rfl⟩ := List.mem_map.1 hc
        exact Consumer.serves_of_lot? rfl }
  case channel => exact horderly
  case inLine =>
    intro i k
    refine ⟨?_, fun ⟨l, hl, _⟩ => absurd hl (by simp [withConsumers, ofEngine])⟩
    rintro ⟨p, hp, hk⟩
    rw [(List.mem_replicate.1 (List.mem_of_getElem? hp)).2] at hk
    exact absurd hk List.not_mem_nil
  case held => rfl
  case receivers => simp [withConsumers, ofEngine]
  case consumers =>
    intro i c hc
    rw [eq_new_of_withConsumers hc]
    exact ⟨rfl, fun v x heq => absurd heq (by simp [Consumer.new]),
      fun heq => absurd heq (by simp [Consumer.new])⟩

end System

end BulkRun
