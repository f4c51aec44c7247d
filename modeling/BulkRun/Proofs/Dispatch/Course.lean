import BulkRun.Proofs.Dispatch.ScrollFlow
import BulkRun.Proofs.Dispatch.Unblocked
import BulkRun.Proofs.Execution.Flow
/-!
# The course of one command

Of a whole system, one command has its loop, its buckets in the queue of its partition, what the
consumer there has in hand of it, and its progress.  This is its course.  A step of a task that
works for another command leaves the course as it is (`course_scroll_other`,
`course_consume_other`); a step of its own loop or of its consumer keeps its flow
(`Course.Flows.scroll`, `Course.Flows.consume`).
-/

namespace BulkRun

open InMemory (World Wired Source ActionMemory)

/-- What a consumer has in hand of a command: a bucket, and the work on it. -/
def Consumer.handOf (id : CommandId) (c : Consumer World) : Option (Bucket × Execution World) :=
  match c.phase with
  | .executing v x => if v.bucket.commandId = id then some (v.bucket, x) else none
  | _ => none

/-- What there is of a command in a system. -/
structure Course where
  /-- The loops that scroll the command. -/
  loops : List (ScrollLoop World)
  /-- Its buckets that were published and not received. -/
  queue : List Bucket
  /-- What the consumer of its partition has in hand of it. -/
  hand : Option (Bucket × Execution World)
  progress : Option Progress

/-- The course of a command in a system. -/
def System.course (id : CommandId) (s : System World) : Course where
  loops := s.loops.filter (·.id == id)
  queue := s.engine.channel.queueFor id
  hand := s.consumers[s.engine.channel.partitionFor id]?.bind (·.handOf id)
  progress := s.engine.tracker.find? id

namespace Consumer

variable {id : CommandId} {c : Consumer World} {v : Delivery} {x : Execution World}
  {e : Engine World}

theorem handOf_executing (h : c.phase = .executing v x) (hv : v.bucket.commandId = id) :
    c.handOf id = some (v.bucket, x) := by
  rw [handOf, h]
  exact if_pos hv

theorem handOf_of_not_executing (h : ∀ v x, c.phase ≠ .executing v x) : c.handOf id = none := by
  unfold handOf
  split
  · rename_i v x hphase
    exact absurd hphase (h v x)
  · rfl

/-- What a consumer has in hand of the command whose bucket it works on, until it acknowledges. -/
theorem handOf_settle_self (hv : v.bucket.commandId = id) :
    (c.settle v x e).1.handOf id = if x.work?.isSome then some (v.bucket, x) else none := by
  rcases c.settle_cases v x e with ⟨hwork, h⟩ | ⟨result, rfl, h⟩
  · rw [h, hwork]
    exact if_pos hv
  · rw [h]
    rfl

theorem handOf_settle_other (hv : v.bucket.commandId ≠ id) :
    (c.settle v x e).1.handOf id = none := by
  rcases c.settle_cases v x e with ⟨-, h⟩ | ⟨result, -, h⟩
  · rw [h]
    exact if_neg hv
  · rw [h]
    rfl

end Consumer

namespace Course

/-- What somebody has in hand who works on a bucket, if anybody does. -/
def holdingOf : Option (Bucket × Execution World) → Holding
  | none => .none
  | some (b, x) => x.holding b

/-- What is in hand of a command. -/
def holding (c : Course) : Holding := holdingOf c.hand

/-- An execution that is finished has nothing in hand. -/
theorem holdingOf_work (b : Bucket) (x : Execution World) :
    holdingOf (if x.work?.isSome then some (b, x) else none) = x.holding b := by
  cases x <;> rfl

/-- A course of which nothing is there yet. -/
structure IsNew (c : Course) : Prop where
  loops : c.loops = []
  queue : c.queue = []
  hand : c.hand = none

/-- A course that keeps the flow of a plan. -/
structure Flows (plan : Plan) (applied : List String) (c : Course) : Prop where
  loop : ∃ l, c.loops = [l] ∧ l.IsOf plan ∧ l.phase.Follows plan ∧
    ∃ p, c.progress = some p ∧ Flow plan (l.phase.supply plan c.queue) c.holding applied p
  hand : ∀ b x, c.hand = some (b, x) → x.Follows plan

/-- A course on which nothing is done for a plan without room. -/
structure Stalls (plan : Plan) (c : Course) : Prop where
  loop : ∃ l, c.loops = [l] ∧ l.IsOf plan ∧ l.phase.Stalls plan ∧
    ∃ p, c.progress = some p ∧ p.IsBare plan l.phase.bareState
  queue : c.queue = []
  hand : c.hand = none

end Course

namespace System

variable {plan : Plan} {w₀ : World} {setup : Setup World} {s : System World} {id : CommandId}
  {applied : List String} {l : ScrollLoop World}

/-! ## Steps for other commands -/

theorem filter_setLoop_other (h : s.Sound) (hl : l ∈ s.loops) {m : ScrollLoop World}
    (hkey : m.key = l.key) (hid : m.id = l.id) (hne : l.id ≠ id) :
    (View.setLoop s.loops m).filter (·.id == id) = s.loops.filter (·.id == id) := by
  rw [View.filter_setLoop h.nodup hl hkey hid, View.setLoop]
  refine (List.map_congr_left ?_).trans (List.map_id _)
  intro k hk
  rcases List.mem_filter.1 hk with ⟨hmem, hkid⟩
  split
  · rename_i hsame
    -- a loop of that key is the loop that took the step, which is not one of the command
    rw [View.eq_of_key h.nodup hl hmem ((eq_of_beq hsame).trans hkey)] at hkid
    exact absurd (eq_of_beq hkid) hne
  · rfl

/-- A step of the loop of another command. -/
theorem course_scroll_other (h : Lively w₀ s) (hl : l ∈ s.loops) (hne : l.id ≠ id)
    {r : ScrollLoop World × Engine World} (hloop : ∃ phase, r.1 = { l with phase := phase })
    (hlength : r.2.channel.partitions.length = s.engine.channel.partitions.length)
    (hqueue : r.2.channel.queueFor id = s.engine.channel.queueFor id)
    (hfind : r.2.tracker.find? id = s.engine.tracker.find? id) :
    ({ s with engine := r.2 }.setLoop r.1).course id = s.course id := by
  rcases hloop with ⟨phase, hphase⟩
  have hloops : (View.setLoop s.loops r.1).filter (·.id == id) = s.loops.filter (·.id == id) := by
    rw [hphase]
    exact filter_setLoop_other h.sound hl rfl rfl hne
  unfold course
  congr 1
  exact congrArg (fun i => s.consumers[i]?.bind (·.handOf id))
    (Channel.partitionFor_congr hlength id)

/-- A loop of another command publishes nothing for a command. -/
theorem queueFor_resume_other (h : Lively w₀ s) (hl : l ∈ s.loops) (hopen : l.isEnded = false)
    (hfree : l.isBlocked s.engine = false) (hne : l.id ≠ id) :
    (∃ phase, (l.resume s.engine).1 = { l with phase := phase }) ∧
      (l.resume s.engine).2.channel.queueFor id = s.engine.channel.queueFor id := by
  rcases ScrollLoop.resume_cases hopen hfree h.channel (h.not_inLine hl) with
    ⟨w, -, -, hcontinues⟩ | ⟨b, after, d, hphase, hd, heq⟩ | ⟨b, after, d, hphase, hd, heq⟩
  · exact ⟨hcontinues.loop, Channel.queueFor_congr hcontinues.partitions id⟩
  · have hb : b.commandId ≠ id := by
      rw [ScrollLoop.commandId_of_owned (h.sound.owned l hl) hphase]
      exact hne
    have hcontinues := ScrollLoop.continues_goOn l after { s.engine with channel := d }
    rw [← heq] at hcontinues
    have hqueue := Channel.queueFor_congr hcontinues.partitions id
    exact ⟨hcontinues.loop, hqueue.trans (hd.queueFor_other hb)⟩
  · rw [heq]
    exact ⟨⟨_, rfl⟩, hd.queueFor id⟩

/-- A step of a consumer that has nothing in hand of a command, before or after. -/
theorem course_consume_other {i : Nat} {c : Consumer World} {r : Consumer World × Engine World}
    (hc : s.consumers[i]? = some c) (hbefore : c.handOf id = none) (hafter : r.1.handOf id = none)
    (hlength : r.2.channel.partitions.length = s.engine.channel.partitions.length)
    (hqueue : r.2.channel.queueFor id = s.engine.channel.queueFor id)
    (hfind : r.2.tracker.find? id = s.engine.tracker.find? id) :
    course id { s with engine := r.2, consumers := s.consumers.set i r.1 } = s.course id := by
  have hhand : (s.consumers.set i r.1)[r.2.channel.partitionFor id]?.bind (·.handOf id) =
      s.consumers[s.engine.channel.partitionFor id]?.bind (·.handOf id) := by
    rw [Channel.partitionFor_congr hlength id]
    by_cases hi : s.engine.channel.partitionFor id = i
    · rw [hi, List.getElem?_set_self (List.getElem?_eq_some_iff.1 hc).1, hc]
      exact hafter.trans hbefore.symm
    · rw [List.getElem?_set_ne (Ne.symm hi)]
  unfold course
  congr 1

/-- What becomes of the course of a command by a step of the consumer of its partition. -/
theorem course_consume_self {i : Nat} {c : Consumer World} {r : Consumer World × Engine World}
    (hc : s.consumers[i]? = some c) (hi : s.engine.channel.partitionFor id = i)
    (hlength : r.2.channel.partitions.length = s.engine.channel.partitions.length) :
    course id { s with engine := r.2, consumers := s.consumers.set i r.1 } =
      ⟨(s.course id).loops, r.2.channel.queueFor id, r.1.handOf id, r.2.tracker.find? id⟩ := by
  unfold course
  congr 1
  rw [Channel.partitionFor_congr hlength id, hi,
    List.getElem?_set_self (List.getElem?_eq_some_iff.1 hc).1]
  rfl

/-! ## Steps of the loop of a command -/

/-- What becomes of the course of a command by a step of its loop. -/
theorem course_scroll_self (h : s.Sound) (hl : l ∈ s.loops) (hid : l.id = id)
    {k : ScrollLoop World} (hloops : (s.course id).loops = [k])
    {r : ScrollLoop World × Engine World} (hloop : ∃ phase, r.1 = { l with phase := phase })
    (hlength : r.2.channel.partitions.length = s.engine.channel.partitions.length) :
    ({ s with engine := r.2 }.setLoop r.1).course id =
      ⟨[r.1], r.2.channel.queueFor id, (s.course id).hand, r.2.tracker.find? id⟩ := by
  subst hid
  have hkeys : r.1.key = l.key ∧ r.1.id = l.id := by
    rcases hloop with ⟨phase, hphase⟩
    rw [hphase]
    exact ⟨rfl, rfl⟩
  have hset := (View.filter_setLoop_self h.nodup hl hkeys.1 hkeys.2 hloops).2
  unfold course
  congr 1
  exact congrArg (fun i => s.consumers[i]?.bind (·.handOf l.id))
    (Channel.partitionFor_congr hlength l.id)

end System

namespace Course

open BulkRun.System (Lively)

variable {plan : Plan} {w₀ : World} {setup : Setup World} {s : System World}
  {applied : List String} {l : ScrollLoop World} {r : ScrollLoop World × Engine World}

/-- The loop of a command is the one that has its id. -/
theorem Flows.loop_of_mem (hflows : (s.course plan.id).Flows plan applied) (h : Lively w₀ s)
    (hl : l ∈ s.loops) (hid : l.id = plan.id) :
    (s.course plan.id).loops = [l] ∧ l.IsOf plan ∧ l.phase.Follows plan ∧
      ∃ p, s.engine.tracker.find? plan.id = some p ∧
        Flow plan (l.phase.supply plan (s.engine.channel.queueFor plan.id))
          (s.course plan.id).holding applied p := by
  rcases hflows.loop with ⟨k, hloops, hof, hfollows, hp⟩
  rw [← hid] at hloops
  obtain rfl := (View.filter_setLoop_self h.sound.nodup hl rfl rfl hloops).1
  rw [hid] at hloops
  exact ⟨hloops, hof, hfollows, hp⟩

/-- A step that keeps the flow, from the point of view of the loop that takes it. -/
theorem Flows.of_scroll (hflows : (s.course plan.id).Flows plan applied) (h : Lively w₀ s)
    (hl : l ∈ s.loops) (hid : l.id = plan.id)
    (hloop : ∃ phase, r.1 = { l with phase := phase })
    (hlength : r.2.channel.partitions.length = s.engine.channel.partitions.length)
    (hstep : ScrollLoop.Flows plan (r.2.channel.queueFor plan.id) (s.course plan.id).holding
      applied r) :
    (({ s with engine := r.2 }.setLoop r.1).course plan.id).Flows plan applied := by
  rcases hflows.loop_of_mem h hl hid with ⟨hloops, hof, -, -⟩
  rw [System.course_scroll_self h.sound hl hid hloops hloop hlength]
  refine ⟨⟨r.1, rfl, ?_, hstep.follows, hstep.flow⟩, hflows.hand⟩
  rcases hloop with ⟨phase, hphase⟩
  rw [hphase]
  exact ⟨hof.command, hof.scroller, hof.fetchSize⟩

/-- A bucket that is published goes to the end of the queue. -/
theorem Flows.publish (hflows : (s.course plan.id).Flows plan applied) (h : Lively w₀ s)
    (hl : l ∈ s.loops) (hid : l.id = plan.id) {b : Bucket} {after : AfterBucket} {d : Channel}
    (hphase : l.phase = .publishing b after ∨ l.phase = .waiting b after)
    (hd : s.engine.channel.Publishes d l.key b)
    (heq : l.resume s.engine = l.goOn after { s.engine with channel := d }) :
    (({ s with engine := (l.resume s.engine).2 }.setLoop (l.resume s.engine).1).course
      plan.id).Flows plan applied := by
  rcases hflows.loop_of_mem h hl hid with ⟨-, hof, hfollows, p, hfind, hflow⟩
  have hb : b.commandId = plan.id :=
    (ScrollLoop.commandId_of_owned (h.sound.owned l hl) hphase).trans hid
  have hbucket : after.Follows plan ∧
      Flow plan (after.supply plan (s.engine.channel.queueFor plan.id ++ [b]))
        (s.course plan.id).holding applied p := by
    rcases hphase with hphase | hphase
    · rw [hphase] at hfollows hflow
      exact ⟨hfollows, hflow⟩
    · rw [hphase] at hfollows hflow
      exact ⟨hfollows, hflow⟩
  rcases hbucket with ⟨hafter, hflow⟩
  -- behind the queue, the bucket is where the flow has it
  rw [← hd.queueFor_self hb] at hflow
  have hcontinues := ScrollLoop.continues_goOn l after { s.engine with channel := d }
  have hstep := ScrollLoop.flows_goOn (e := { s.engine with channel := d }) hof hfind hafter hflow
  rw [← heq] at hcontinues hstep
  have hparts : (l.resume s.engine).2.channel.partitions = d.partitions := hcontinues.partitions
  apply hflows.of_scroll h hl hid hcontinues.loop ((congrArg List.length hparts).trans hd.length)
  rw [Channel.queueFor_congr hparts]
  exact hstep

/-- A loop that gets in line with a bucket has it still to publish. -/
theorem Flows.enlist (hflows : (s.course plan.id).Flows plan applied) (h : Lively w₀ s)
    (hl : l ∈ s.loops) (hid : l.id = plan.id) {b : Bucket} {after : AfterBucket} {d : Channel}
    (hphase : l.phase = .publishing b after) (hd : s.engine.channel.Enlists d l.key b) :
    (({ s with engine := { s.engine with channel := d } }.setLoop
      { l with phase := .waiting b after }).course plan.id).Flows plan applied := by
  rcases hflows.loop_of_mem h hl hid with ⟨-, hof, hfollows, p, hfind, hflow⟩
  rw [hphase] at hfollows hflow
  refine hflows.of_scroll
    (r := ⟨{ l with phase := .waiting b after }, { s.engine with channel := d }⟩)
    h hl hid ⟨_, rfl⟩ hd.length ⟨hfollows, p, hfind, ?_⟩
  rw [hd.queueFor]
  exact hflow

/-- A step of its loop keeps the flow of a command. -/
theorem Flows.scroll (hflows : (s.course plan.id).Flows plan applied) (hplan : plan.IsWired w₀)
    (hfits : plan.Fits) (h : Lively w₀ s) (hl : l ∈ s.loops) (hid : l.id = plan.id)
    (hopen : l.isEnded = false) (hfree : l.isBlocked s.engine = false) :
    (({ s with engine := (l.resume s.engine).2 }.setLoop (l.resume s.engine).1).course
      plan.id).Flows plan applied := by
  cases hphase : l.phase with
  | publishing b after =>
    have hwait : l.isWaiting = false := by rw [ScrollLoop.isWaiting, hphase]
    rcases ScrollLoop.resume_publishing hphase h.channel (h.not_inLine hl hwait) with
      ⟨d, hd, heq⟩ | ⟨d, hd, heq⟩
    · exact hflows.publish h hl hid (.inl hphase) hd heq
    · rw [heq]
      exact hflows.enlist h hl hid hphase hd
  | waiting b after =>
    rcases ScrollLoop.resume_waiting hphase h.channel hfree with ⟨d, hd, heq⟩
    exact hflows.publish h hl hid (.inr hphase) hd heq
  | _ =>
    rcases hflows.loop_of_mem h hl hid with ⟨-, hof, hfollows, p, hfind, hflow⟩
    have hpublish : ∀ b after, l.phase ≠ .publishing b after := by
      intro b after heq
      rw [hphase] at heq
      exact absurd heq (by simp)
    have hwait : ∀ b after, l.phase ≠ .waiting b after := by
      intro b after heq
      rw [hphase] at heq
      exact absurd heq (by simp)
    have hidle : l.isWaiting = false := by rw [ScrollLoop.isWaiting, hphase]
    rcases ScrollLoop.continues_resume hopen hpublish hidle with ⟨w, -, hcontinues⟩
    have hparts : (l.resume s.engine).2.channel.partitions = s.engine.channel.partitions :=
      hcontinues.partitions
    apply hflows.of_scroll h hl hid hcontinues.loop (congrArg List.length hparts)
    rw [Channel.queueFor_congr hparts]
    exact ScrollLoop.flows_resume hplan hfits hof h.world hopen hpublish hwait hfollows hfind hflow

/-- A loop without room goes on to its collapse. -/
theorem Stalls.scroll (hstalls : (s.course plan.id).Stalls plan) (hplan : plan.IsWired w₀)
    (hnot : ¬plan.Fits) (h : Lively w₀ s) (hl : l ∈ s.loops) (hid : l.id = plan.id)
    (hopen : l.isEnded = false) :
    (({ s with engine := (l.resume s.engine).2 }.setLoop (l.resume s.engine).1).course
      plan.id).Stalls plan := by
  rcases hstalls.loop with ⟨k, hloops, hof, hphase, hbare⟩
  rw [← hid] at hloops
  obtain rfl := (View.filter_setLoop_self h.sound.nodup hl rfl rfl hloops).1
  rw [hid] at hloops
  -- a loop that stalls has no bucket to publish or to wait with
  have hpublish : ∀ b after, k.phase ≠ .publishing b after := by
    intro b after heq
    rw [heq] at hphase
    exact hphase.elim
  have hidle : k.isWaiting = false := by
    unfold ScrollLoop.isWaiting
    split
    · rename_i heq
      rw [heq] at hphase
      exact hphase.elim
    · rfl
  rcases ScrollLoop.continues_resume hopen hpublish hidle with ⟨w, -, hcontinues⟩
  have hparts : (k.resume s.engine).2.channel.partitions = s.engine.channel.partitions :=
    hcontinues.partitions
  have hstep := ScrollLoop.stallsAt_resume hplan hnot hof h.world hopen ⟨hphase, hbare⟩
  rw [System.course_scroll_self h.sound hl hid hloops hcontinues.loop (congrArg List.length hparts)]
  refine ⟨⟨_, rfl, ?_, hstep.phase, hstep.bare⟩, ?_, hstalls.hand⟩
  · rcases hcontinues.loop with ⟨phase, heq⟩
    rw [heq]
    exact ⟨hof.command, hof.scroller, hof.fetchSize⟩
  · exact (Channel.queueFor_congr hparts plan.id).trans hstalls.queue

/-! ## Steps of the consumer of a command -/

variable {i : Nat} {c : Consumer World} {v : Delivery} {x : Execution World} {e : Engine World}

/-- A step that keeps the flow, from the point of view of the consumer that takes it. -/
theorem flows_settle {k : ScrollLoop World} (hloops : (s.course plan.id).loops = [k])
    (hof : k.IsOf plan) (hfollows : k.phase.Follows plan) (hc : s.consumers[i]? = some c)
    (hi : s.engine.channel.partitionFor plan.id = i) (hv : v.bucket.commandId = plan.id)
    (hlength : e.channel.partitions.length = s.engine.channel.partitions.length) {w : World}
    (hstep : Execution.Flows plan v.bucket (k.phase.supply plan (e.channel.queueFor plan.id))
      applied w (x, e)) :
    (System.course plan.id { s with
      engine := (c.settle v x e).2, consumers := s.consumers.set i (c.settle v x e).1 }).Flows plan
        applied := by
  rcases c.engine_settle v x e with ⟨hparts, -, -, htracker⟩
  rw [System.course_consume_self hc hi ((congrArg List.length hparts).trans hlength),
    Channel.queueFor_congr hparts, htracker, Consumer.handOf_settle_self hv, hloops]
  rcases hstep.flow with ⟨p, hfind, hflow⟩
  refine ⟨⟨k, rfl, hof, hfollows, p, hfind, ?_⟩, ?_⟩
  · show Flow plan _ (holdingOf _) applied p
    rw [holdingOf_work]
    exact hflow
  · intro b y hy
    rw [Option.ite_none_right_eq_some] at hy
    rcases Prod.mk.inj (Option.some.inj hy.2) with ⟨-, rfl⟩
    exact hstep.follows

/-- What a consumer has in hand of a command before it receives a bucket, and while it works. -/
theorem hand_eq (hc : s.consumers[i]? = some c) (hi : s.engine.channel.partitionFor plan.id = i) :
    (s.course plan.id).hand = c.handOf plan.id := by
  show s.consumers[s.engine.channel.partitionFor plan.id]?.bind _ = _
  rw [hi, hc, Option.bind_some]

/-- A bucket of the command is received, and the work on it begins. -/
theorem Flows.receive (hflows : (s.course plan.id).Flows plan applied) (hwired : Wired setup w₀)
    (hresolve : ∃ r, setup.actions.resolve plan.command.action = .ok r ∧
      r.action = (ActionMemory.recording plan.action).action plan.target)
    (h : Lively w₀ s) (hc : s.consumers[i]? = some c) (hphase : c.phase = .suspended)
    {d : Channel} (hd : s.engine.channel.Delivers d i v.bucket)
    (hv : v.bucket.commandId = plan.id)
    (hstart : Execution.start setup v.bucket { s.engine with channel := d } = (x, e)) :
    (System.course plan.id { s with
      engine := (c.settle v x e).2, consumers := s.consumers.set i (c.settle v x e).1 }).Flows plan
        applied ∧ ∀ j, e.world.appliedAt j = s.engine.world.appliedAt j := by
  -- buckets are only queued in the partition of their command
  have hi : s.engine.channel.partitionFor plan.id = i := by
    rw [← hv]
    apply h.channel.sorted i
    rw [hd.queue_self]
    exact List.mem_cons_self
  have hhand : (s.course plan.id).hand = none := by
    rw [hand_eq hc hi]
    apply Consumer.handOf_of_not_executing
    intro v' x' heq
    rw [hphase] at heq
    exact absurd heq (by simp)
  rcases hflows.loop with ⟨k, hloops, hof, hfollows, p, hfind, hflow⟩
  have hqueue : (s.course plan.id).queue = v.bucket :: d.queueFor plan.id :=
    hd.queueFor_self h.channel hv
  rw [hqueue, ScrollPhase.supply_cons, holding, hhand] at hflow
  have hworld : World.Follows w₀ ({ s.engine with channel := d } : Engine World).world := h.world
  have hstep := Execution.flows_start hwired hworld hv hresolve hfind hflow.receive
  have hacts : Execution.Acts v.bucket .untouched { s.engine with channel := d } (x, e) := by
    rw [← hstart]
    exact Execution.acts_start
  rw [hstart] at hstep
  have hchannel : e.channel = d := hacts.channel
  refine ⟨flows_settle (w := s.engine.world) hloops hof hfollows hc hi hv ?_ ?_, hstep.world⟩
  · rw [hchannel]
    exact hd.length
  · rw [hchannel]
    exact hstep

/-- The consumer goes on with a bucket of the command; what the action is applied to in the step, it
was applied to for the command. -/
theorem Flows.work (hflows : (s.course plan.id).Flows plan applied) (hwired : Wired setup w₀)
    (hplan : plan.IsWired w₀) (h : Lively w₀ s) (hc : s.consumers[i]? = some c)
    (hphase : c.phase = .executing v x) (hv : v.bucket.commandId = plan.id)
    {y : Execution World} (hstep : x.step? setup s.engine = some (y, e)) :
    ∃ more, (∀ j, e.world.appliedAt j =
        s.engine.world.appliedAt j ++ if plan.target = j then more else []) ∧
      (System.course plan.id { s with
        engine := (c.settle v y e).2
        consumers := s.consumers.set i (c.settle v y e).1 }).Flows plan (applied ++ more) := by
  have hi : s.engine.channel.partitionFor plan.id = i := by
    rw [← hv]
    exact ((h.consumers i c hc).ready v x hphase).2.2
  have hhand : (s.course plan.id).hand = some (v.bucket, x) := by
    rw [hand_eq hc hi]
    exact Consumer.handOf_executing hphase hv
  rcases hflows.loop with ⟨k, hloops, hof, hfollows, p, hfind, hflow⟩
  rw [holding, hhand] at hflow
  have hserves := h.sound.consumers c (List.mem_of_getElem? hc) v x hphase
  have hchannel : e.channel = s.engine.channel :=
    (Execution.acts_step? hserves h.sound.distinct hstep).channel
  rcases Execution.flows_step? hwired hplan h.world hfind hserves
    (hflows.hand _ _ hhand) hflow hstep
    with ⟨more, w, hgrows, hflows'⟩
  refine ⟨more, fun j => (hflows'.world j).trans (hgrows j), ?_⟩
  refine flows_settle (w := w) hloops hof hfollows hc hi hv ?_ ?_
  · rw [hchannel]
  · rw [hchannel]
    exact hflows'

end Course

end BulkRun
