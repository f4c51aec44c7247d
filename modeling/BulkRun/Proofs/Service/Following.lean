import BulkRun.Proofs.Command.Defaults
import BulkRun.Proofs.Dispatch.Course
/-!
# Following a command

A command is followed through a run of the whole system: what there is of it is its course, and what
was done for it is what its action was applied to in the moves of its consumer.  A move leaves the
course as it is, or it lets the course go on with what the action is applied to in the move
(`Move.Advances`).  So a command that is neither cancelled nor dropped keeps its flow from the move
that accepts it (`Followed.next?`).
-/

namespace BulkRun

open InMemory (World Wired Source ActionMemory)
open BulkRun.System (Lively)

/-! ## What was done for a command -/

/-- The records that an action was applied to in one move, by the consumer that works for a
command. -/
def Move.appliedFor (id : CommandId) (target : Nat) (m : Move (System World) System.Event) :
    List String :=
  match m.event with
  | .step (.consume i) =>
    match m.before.consumers[i]?.bind (·.handOf id) with
    | some _ =>
      (m.after.engine.world.appliedAt target).drop (m.before.engine.world.appliedAt target).length
    | none => []
  | _ => []

/-- The records that an action was applied to for a command, in the order of the calls. -/
def appliedFor (id : CommandId) (target : Nat) (moves : List (Move (System World) System.Event)) :
    List String :=
  moves.flatMap (·.appliedFor id target)

theorem appliedFor_concat (id : CommandId) (target : Nat)
    (moves : List (Move (System World) System.Event)) (m : Move (System World) System.Event) :
    appliedFor id target (moves ++ [m]) = appliedFor id target moves ++ m.appliedFor id target := by
  rw [appliedFor, List.flatMap_append, List.flatMap_singleton, appliedFor]

/-! ## Plans -/

/-- Whether a plan is what a setup makes of a command. -/
structure Plan.IsFor (setup : Setup World) (w₀ : World) (c : Command) (plan : Plan) : Prop where
  prepared : ∃ n, setup.prepare c =
    .ok (plan.command, ⟨n, (Source.queryLists plan.lists).scroller plan.source⟩)
  fetchSize : plan.fetchSize = setup.dispatcher.fetchSize plan.command
  resolved : ∃ r, setup.actions.resolve c.action = .ok r ∧
    r.action = (ActionMemory.recording plan.action).action plan.target
  source : w₀.sources[plan.source]? = some (.queryLists plan.lists)
  lists : plan.lists.IsSteady
  target : w₀.actions[plan.target]? = some (.recording plan.action)
  action : plan.action.IsSteady

namespace Plan.IsFor

variable {setup : Setup World} {w₀ : World} {c : Command} {plan : Plan}

theorem resolve_command (h : plan.IsFor setup w₀ c) :
    plan.command.id = c.id ∧ plan.command.action = c.action ∧ 0 < plan.command.bucketSize := by
  rcases h.prepared with ⟨n, hprepared⟩
  rcases System.prepare_eq_ok hprepared with ⟨registered, -, hresolve, -⟩
  exact DispatcherSettings.resolve_eq_ok hresolve

theorem isWired (h : plan.IsFor setup w₀ c) : plan.IsWired w₀ where
  source := h.source
  lists := h.lists
  target := h.target
  action := h.action
  bucketSize := h.resolve_command.2.2
  fetchSize := by
    -- a bucket has room for a record, and a chunk is at least as large as a bucket
    have hpos := Nat.mul_pos h.resolve_command.2.2
      (Nat.le_max_right setup.dispatcher.scrollFetchMultiplier 1)
    rw [h.fetchSize]
    exact Nat.lt_min.2 ⟨hpos, by decide⟩

theorem action_resolved (h : plan.IsFor setup w₀ c) :
    ∃ r, setup.actions.resolve plan.command.action = .ok r ∧
      r.action = (ActionMemory.recording plan.action).action plan.target := by
  rw [h.resolve_command.2.1]
  exact h.resolved

/-- Every command that can be prepared has a plan. -/
theorem exists_of_prepare (hwired : Wired setup w₀) {c' : Command} {x : Numbered (Scroller World)}
    (h : setup.prepare c = .ok (c', x)) : ∃ plan : Plan, plan.IsFor setup w₀ c := by
  rcases System.prepare_eq_ok h with ⟨registered, hregistered, -, hx⟩
  have hfind : setup.actions.find? c.action = some registered := by
    rw [ActionRegistry.resolve] at hregistered
    split at hregistered
    · rename_i r hr
      rw [hr, Except.ok.inj hregistered]
    · exact absurd hregistered (by simp)
  rcases hwired.actions _ _ hfind with ⟨target, action, haction, htarget, hanswers⟩
  rcases x with ⟨n, scroller⟩
  rcases hwired.scrollers _ _ hx with ⟨source, lists, rfl, hsource, hlists⟩
  exact ⟨⟨c', source, lists, setup.dispatcher.fetchSize c', target, action⟩, {
    prepared := ⟨n, h⟩
    fetchSize := rfl
    resolved := ⟨registered, hregistered, haction⟩
    source := hsource
    lists := hlists
    target := htarget
    action := hanswers }⟩

end Plan.IsFor

/-- The course that a command takes: it keeps its flow, or there is no room for it. -/
def Course.Goes (plan : Plan) (applied : List String) (c : Course) : Prop :=
  plan.Fits ∧ c.Flows plan applied ∨ ¬plan.Fits ∧ c.Stalls plan ∧ applied = []

namespace Course

variable {plan : Plan} {applied : List String} {c : Course}

theorem Goes.progress_ne_none (h : c.Goes plan applied) : c.progress ≠ none := by
  rcases h with ⟨-, hflows⟩ | ⟨-, hstalls, -⟩
  · rcases hflows.loop with ⟨l, -, -, -, p, hp, -⟩
    rw [hp]
    exact Option.some_ne_none p
  · rcases hstalls.loop with ⟨l, -, -, -, p, hp, -⟩
    rw [hp]
    exact Option.some_ne_none p

end Course

/-- What a move may do to the course of a command that is not dropped: nothing, or it goes on with
what its action is applied to in the move. -/
def Move.Advances (plan : Plan) (m : Move (System World) System.Event) : Prop :=
  m.after.course plan.id = m.before.course plan.id ∧ (∀ i, m.appliedFor plan.id i = []) ∨
    ¬(m.before.course plan.id).IsNew ∧ ∀ applied, (m.before.course plan.id).Goes plan applied →
      ∃ more, (∀ i, m.appliedFor plan.id i = if plan.target = i then more else []) ∧
        (m.after.course plan.id).Goes plan (applied ++ more)

namespace System

variable {plan : Plan} {w₀ : World} {setup : Setup World} {s t : System World}
  {l : ScrollLoop World} {event : Event}

/-- A move in which nothing is applied. -/
theorem advances_of_goes (hnew : ¬(s.course plan.id).IsNew)
    (hgrown : ∀ i, Move.appliedFor plan.id i ⟨s, event, t⟩ = [])
    (h : ∀ applied, (s.course plan.id).Goes plan applied → (t.course plan.id).Goes plan applied) :
    Move.Advances plan ⟨s, event, t⟩ := by
  refine .inr ⟨hnew, ?_⟩
  intro applied hgoes
  refine ⟨[], ?_, ?_⟩
  · intro i
    rw [hgrown, ite_self]
  · rw [List.append_nil]
    exact h applied hgoes

/-- A loop of a command is there. -/
theorem not_isNew_of_loop (hl : l ∈ s.loops) (hid : l.id = plan.id) :
    ¬(s.course plan.id).IsNew := by
  intro hnew
  have hmem : l ∈ (s.course plan.id).loops := List.mem_filter.2 ⟨hl, beq_iff_eq.2 hid⟩
  rw [hnew.loops] at hmem
  exact absurd hmem List.not_mem_nil

/-- A command that is the same or gone, and not dropped, is the same. -/
theorem find?_of_kept {t u : Tracker} {id : CommandId}
    (h : u.find? id = t.find? id ∨ u.find? id = none)
    (hkept : u.find? id = none → t.find? id = none) : u.find? id = t.find? id := by
  rcases h with hsame | hgone
  · exact hsame
  · rw [hgone, hkept hgone]

theorem advances_scroll (hplan : plan.IsWired w₀) (h : Lively w₀ s) (hl : l ∈ s.loops)
    (hopen : l.isEnded = false) (hfree : l.isBlocked s.engine = false)
    (hkept : (l.resume s.engine).2.tracker.find? plan.id = none →
      s.engine.tracker.find? plan.id = none) (key : PublisherKey) :
    Move.Advances plan ⟨s, .step (.scroll key),
      { s with engine := (l.resume s.engine).2 }.setLoop (l.resume s.engine).1⟩ := by
  by_cases hid : l.id = plan.id
  · refine advances_of_goes (not_isNew_of_loop hl hid) (fun _ => rfl) ?_
    intro applied hgoes
    rcases hgoes with ⟨hfits, hflows⟩ | ⟨hnot, hstalls, happlied⟩
    · exact .inl ⟨hfits, hflows.scroll hplan hfits h hl hid hopen hfree⟩
    · exact .inr ⟨hnot, hstalls.scroll hplan hnot h hl hid hopen, happlied⟩
  · rcases l.exists_stock hopen with ⟨stock, hstock⟩
    have hacts := ScrollLoop.acts_resume (e := s.engine) (h.sound.owned l hl) hstock hopen
    have hfind := find?_of_kept (hacts.minds.spares.others plan.id (Ne.symm hid)) hkept
    rcases queueFor_resume_other h hl hopen hfree hid with ⟨hloop, hqueue⟩
    exact .inl ⟨course_scroll_other h hl hid hloop hacts.minds.length hqueue hfind, fun _ => rfl⟩

/-- A loop that puts its step off gets in line at most. -/
theorem advances_putOff (h : Lively w₀ s) (hl : l ∈ s.loops) {r : ScrollLoop World × Engine World}
    (hr : l.putOff? s.engine = some r) (task : Task) :
    Move.Advances plan ⟨s, .putOff task, { s with engine := r.2 }.setLoop r.1⟩ := by
  rcases ScrollLoop.putOff?_cases h.channel (h.not_inLine hl) hr with
    rfl | ⟨b, after, d, hphase, hd, rfl⟩
  · refine .inl ⟨?_, fun _ => rfl⟩
    show (s.setLoop l).course plan.id = s.course plan.id
    rw [setLoop_of_mem h.sound hl]
  · by_cases hid : l.id = plan.id
    · refine advances_of_goes (not_isNew_of_loop hl hid) (fun _ => rfl) ?_
      intro applied hgoes
      rcases hgoes with ⟨hfits, hflows⟩ | ⟨hnot, hstalls, -⟩
      · exact .inl ⟨hfits, hflows.enlist h hl hid hphase hd⟩
      · -- a loop without room has no bucket to publish
        rcases hstalls.loop with ⟨k, hloops, -, hstalled, -⟩
        rw [← hid] at hloops
        obtain rfl := (View.filter_setLoop_self h.sound.nodup hl rfl rfl hloops).1
        rw [hphase] at hstalled
        exact hstalled.elim
    · have hcourse := course_scroll_other (r := ⟨{ l with phase := .waiting b after },
        { s.engine with channel := d }⟩) h hl hid ⟨_, rfl⟩ hd.length (hd.queueFor plan.id) rfl
      exact .inl ⟨hcourse, fun _ => rfl⟩

/-- A step of a consumer while it has nothing in hand of the command is not counted for it. -/
theorem appliedFor_of_handOf_none {i : Nat} {c : Consumer World} (hc : s.consumers[i]? = some c)
    (hhand : c.handOf plan.id = none) (t : System World) (target : Nat) :
    Move.appliedFor plan.id target ⟨s, .step (.consume i), t⟩ = [] := by
  simp only [Move.appliedFor, hc, Option.bind_some, hhand]

/-- A consumer that works on a bucket of another command. -/
theorem course_settle_other {i : Nat} {c : Consumer World} {v : Delivery} {x : Execution World}
    {e : Engine World} (hc : s.consumers[i]? = some c) (hbefore : c.handOf plan.id = none)
    (hv : v.bucket.commandId ≠ plan.id)
    (hlength : e.channel.partitions.length = s.engine.channel.partitions.length)
    (hqueue : e.channel.queueFor plan.id = s.engine.channel.queueFor plan.id)
    (hspares : Tracker.Spares v.bucket.commandId s.engine.tracker e.tracker)
    (hkept : (c.settle v x e).2.tracker.find? plan.id = none →
      s.engine.tracker.find? plan.id = none) :
    course plan.id { s with
      engine := (c.settle v x e).2, consumers := s.consumers.set i (c.settle v x e).1 } =
        s.course plan.id := by
  rcases c.engine_settle v x e with ⟨hparts, -, -, htracker⟩
  rw [htracker] at hkept
  refine course_consume_other hc hbefore (Consumer.handOf_settle_other hv)
    ((congrArg List.length hparts).trans hlength)
    ((Channel.queueFor_congr hparts _).trans hqueue) ?_
  rw [htracker]
  exact find?_of_kept (hspares.others plan.id (Ne.symm hv)) hkept

/-- A consumer receives a bucket, of the command or of another. -/
theorem advances_receive (hwired : Wired setup w₀)
    (hresolve : ∃ r, setup.actions.resolve plan.command.action = .ok r ∧
      r.action = (ActionMemory.recording plan.action).action plan.target)
    (h : Lively w₀ s) {i : Nat} {c : Consumer World} (hc : s.consumers[i]? = some c)
    (hphase : c.phase = .suspended) {v : Delivery} {d : Channel}
    (hd : s.engine.channel.Delivers d i v.bucket) {x : Execution World} {e : Engine World}
    (hstart : Execution.start setup v.bucket { s.engine with channel := d } = (x, e))
    (hkept : (c.settle v x e).2.tracker.find? plan.id = none →
      s.engine.tracker.find? plan.id = none) :
    Move.Advances plan ⟨s, .step (.consume i), { s with
      engine := (c.settle v x e).2, consumers := s.consumers.set i (c.settle v x e).1 }⟩ := by
  have hnone : c.handOf plan.id = none := by
    apply Consumer.handOf_of_not_executing
    intro v' x' heq
    rw [hphase] at heq
    exact absurd heq (by simp)
  have hgrown (t : System World) (target : Nat) :
      Move.appliedFor plan.id target ⟨s, .step (.consume i), t⟩ = [] :=
    appliedFor_of_handOf_none hc hnone t target
  have hacts : Execution.Acts v.bucket .untouched { s.engine with channel := d } (x, e) := by
    rw [← hstart]
    exact Execution.acts_start
  have hchannel : e.channel = d := hacts.channel
  by_cases hv : v.bucket.commandId = plan.id
  · -- the bucket was the first in the queue of the command, so there is a queue to speak of
    have hqueue : (s.course plan.id).queue = v.bucket :: d.queueFor plan.id :=
      hd.queueFor_self h.channel hv
    refine advances_of_goes ?_ (hgrown _) ?_
    · intro hnew
      rw [hnew.queue] at hqueue
      exact absurd hqueue (by simp)
    · intro applied hgoes
      rcases hgoes with ⟨hfits, hflows⟩ | ⟨-, hstalls, -⟩
      · exact .inl ⟨hfits, (hflows.receive hwired hresolve h hc hphase hd hv hstart).1⟩
      · rw [hstalls.queue] at hqueue
        exact absurd hqueue (by simp)
  · refine .inl ⟨course_settle_other hc hnone hv ?_ ?_ hacts.spares hkept, hgrown _⟩
    · rw [hchannel]
      exact hd.length
    · rw [hchannel]
      exact hd.queueFor_other hv

/-- A consumer goes on with the bucket it has in hand, of the command or of another. -/
theorem advances_work (hwired : Wired setup w₀) (hplan : plan.IsWired w₀) (h : Lively w₀ s)
    {i : Nat}
    {c : Consumer World} (hc : s.consumers[i]? = some c) {v : Delivery} {x y : Execution World}
    (hphase : c.phase = .executing v x) {e : Engine World}
    (hstep : x.step? setup s.engine = some (y, e))
    (hkept : (c.settle v y e).2.tracker.find? plan.id = none →
      s.engine.tracker.find? plan.id = none) :
    Move.Advances plan ⟨s, .step (.consume i), { s with
      engine := (c.settle v y e).2, consumers := s.consumers.set i (c.settle v y e).1 }⟩ := by
  have hserves := h.sound.consumers c (List.mem_of_getElem? hc) v x hphase
  have hacts := Execution.acts_step? hserves h.sound.distinct hstep
  by_cases hv : v.bucket.commandId = plan.id
  · have hself : c.handOf plan.id = some (v.bucket, x) := Consumer.handOf_executing hphase hv
    have hi : s.engine.channel.partitionFor plan.id = i := by
      rw [← hv]
      exact ((h.consumers i c hc).ready v x hphase).2.2
    have hhand := (Course.hand_eq hc hi).trans hself
    refine .inr ⟨?_, ?_⟩
    · intro hnew
      rw [hnew.hand] at hhand
      exact absurd hhand (by simp)
    · intro applied hgoes
      rcases hgoes with ⟨hfits, hflows⟩ | ⟨-, hstalls, -⟩
      · rcases hflows.work hwired hplan h hc hphase hv hstep with ⟨more, hgrows, hflows'⟩
        refine ⟨more, ?_, .inl ⟨hfits, hflows'⟩⟩
        intro target
        rcases c.engine_settle v y e with ⟨-, -, hworld, -⟩
        simp only [Move.appliedFor, hc, Option.bind_some, hself, hworld, hgrows, List.drop_left]
      · rw [hstalls.hand] at hhand
        exact absurd hhand (by simp)
  · have hnone : c.handOf plan.id = none := by
      rw [Consumer.handOf, hphase]
      exact if_neg hv
    have hchannel : e.channel = s.engine.channel := hacts.channel
    refine .inl ⟨course_settle_other hc hnone hv ?_ ?_ hacts.spares hkept,
      appliedFor_of_handOf_none hc hnone _⟩
    · rw [hchannel]
    · rw [hchannel]

theorem advances_consume (hwired : Wired setup w₀) (hplan : plan.IsWired w₀)
    (hresolve : ∃ r, setup.actions.resolve plan.command.action = .ok r ∧
      r.action = (ActionMemory.recording plan.action).action plan.target)
    (h : Lively w₀ s) {i : Nat} {c : Consumer World} {r : Consumer World × Engine World}
    (hc : s.consumers[i]? = some c) (hr : c.step? setup s.engine = some r)
    (hkept : r.2.tracker.find? plan.id = none → s.engine.tracker.find? plan.id = none) :
    Move.Advances plan ⟨s, .step (.consume i),
      { s with engine := r.2, consumers := s.consumers.set i r.1 }⟩ := by
  -- whoever is not at work has nothing in hand
  have hidle (hphase : c.phase = .idle ∨ c.phase = .suspended) : c.handOf plan.id = none := by
    apply Consumer.handOf_of_not_executing
    intro v x heq
    rw [heq] at hphase
    simp at hphase
  rcases Consumer.step?_cases h.channel hr with ⟨hphase, rfl⟩ | ⟨hphase, -, -, rfl⟩ |
    ⟨v, d, x, e, hphase, hd, hstart, rfl⟩ | ⟨v, x, y, e, hphase, hstep, rfl⟩
  · have hnone := hidle (.inl hphase)
    exact .inl ⟨course_consume_other (r := ⟨{ c with phase := .suspended }, s.engine⟩) hc hnone rfl
      rfl rfl rfl, appliedFor_of_handOf_none hc hnone _⟩
  · have hnone := hidle (.inr hphase)
    exact .inl ⟨course_consume_other (r := ⟨{ c with phase := .stopped }, s.engine⟩) hc hnone rfl
      rfl rfl rfl, appliedFor_of_handOf_none hc hnone _⟩
  · rw [((h.consumers i c hc).partition : c.partition = i)] at hd
    exact advances_receive hwired hresolve h hc hphase hd hstart hkept
  · exact advances_work hwired hplan h hc hphase hstep hkept

/-- A task takes a step. -/
theorem advances_stepTask? (hwired : Wired setup w₀) (hplan : plan.IsWired w₀)
    (hresolve : ∃ r, setup.actions.resolve plan.command.action = .ok r ∧
      r.action = (ActionMemory.recording plan.action).action plan.target)
    (h : Lively w₀ s) {task : Task} (hstep : s.stepTask? setup task = some t)
    (hkept : t.engine.tracker.find? plan.id = none → s.engine.tracker.find? plan.id = none) :
    Move.Advances plan ⟨s, .step task, t⟩ := by
  cases task with
  | scroll key =>
    rcases stepTask?_scroll hstep with ⟨l, hl, -, hopen, hfree, rfl⟩
    exact advances_scroll hplan h hl hopen hfree hkept key
  | consume i =>
    rcases stepTask?_consume hstep with ⟨c, r, hc, hr, rfl⟩
    exact advances_consume hwired hplan hresolve h hc hr hkept
  | watch i =>
    rcases Option.map_eq_some_iff.1 hstep with ⟨w, -, rfl⟩
    exact .inl ⟨rfl, fun _ => rfl⟩

/-- A task puts its step off. -/
theorem advances_putOff? (h : Lively w₀ s) {task : Task} (hput : s.putOff? setup task = some t) :
    Move.Advances plan ⟨s, .putOff task, t⟩ := by
  rcases putOff?_eq_some hput with rfl | ⟨l, hl, r, hr, rfl⟩
  · exact .inl ⟨rfl, fun _ => rfl⟩
  · exact advances_putOff h hl hr task

/-- The course of a command when another loop is started. -/
theorem course_withLoop (id : CommandId) (c : Command) (x : Scroller World) (u : Tracker) :
    (s.withLoop setup c x u).course id =
      ⟨(s.course id).loops ++ if c.id = id then
          [⟨s.loops.length, c, x, setup.dispatcher.fetchSize c, .created⟩] else [],
        (s.course id).queue, (s.course id).hand, u.find? id⟩ := by
  unfold course
  congr 1
  show (s.loops ++ [_]).filter _ = _
  rw [List.filter_append]
  congr 1
  by_cases hid : c.id = id
  · rw [if_pos hid]
    apply List.filter_eq_self.2
    intro l hl
    rw [List.mem_singleton.1 hl]
    exact beq_iff_eq.2 hid
  · rw [if_neg hid]
    apply List.filter_eq_nil_iff.2
    intro l hl
    rw [List.mem_singleton.1 hl]
    exact fun heq => hid (eq_of_beq heq)

/-- What is told about commands, with nothing done for them. -/
theorem course_withTracker {u : Tracker} {id : CommandId}
    (h : u.find? id = s.engine.tracker.find? id) : (s.withTracker u).course id = s.course id := by
  unfold course
  congr 1

end System

/-- Whether an event cancels a command. -/
def System.Event.isAbortOf (id : CommandId) : System.Event → Bool
  | .abort k _ => k == id
  | _ => false

/-- Whether a move neither cancels a command nor drops it. -/
structure Move.Keeps (id : CommandId) (m : Move (System World) System.Event) : Prop where
  not_aborted : m.event.isAbortOf id = false
  not_dropped : m.after.engine.tracker.find? id = none → m.before.engine.tracker.find? id = none

instance (id : CommandId) (m : Move (System World) System.Event) : Decidable (m.Keeps id) :=
  decidable_of_iff
    (m.event.isAbortOf id = false ∧
      (m.after.engine.tracker.find? id = none → m.before.engine.tracker.find? id = none))
    ⟨fun h => ⟨h.1, h.2⟩, fun h => ⟨h.not_aborted, h.not_dropped⟩⟩

/-- What is known of a command in a run that does not drop it. -/
structure Followed (c : Command) (plan : Plan) (moves : List (Move (System World) System.Event))
    (s : System World) : Prop where
  unseen : s.engine.tracker.find? plan.id = none →
    (s.course plan.id).IsNew ∧ ∀ i, appliedFor plan.id i moves = []
  accepted : (∃ m ∈ moves, m.event = .submit c) →
    ∃ applied, (∀ i, appliedFor plan.id i moves = if plan.target = i then applied else []) ∧
      (s.course plan.id).Goes plan applied

namespace Followed

variable {plan : Plan} {w₀ : World} {setup : Setup World} {s t : System World} {c : Command}
  {moves : List (Move (System World) System.Event)} {event : System.Event}

/-- A move in which no command is submitted. -/
theorem advance (h : Followed c plan moves s)
    (hkept : t.engine.tracker.find? plan.id = none → s.engine.tracker.find? plan.id = none)
    (hevent : event ≠ .submit c)
    (hadvances : Move.Advances plan ⟨s, event, t⟩) :
    Followed c plan (moves ++ [⟨s, event, t⟩]) t where
  unseen hgone := by
    rcases h.unseen (hkept hgone) with ⟨hnew, hnone⟩
    rcases hadvances with ⟨hcourse, hgrown⟩ | ⟨hnot, -⟩
    · refine ⟨?_, ?_⟩
      · show (t.course plan.id).IsNew
        rw [show t.course plan.id = s.course plan.id from hcourse]
        exact hnew
      · intro i
        rw [appliedFor_concat, hnone, hgrown, List.append_nil]
    · exact absurd hnew hnot
  accepted hmem := by
    have hearlier : ∃ m ∈ moves, m.event = .submit c := by
      rcases hmem with ⟨m, hm, hsubmit⟩
      rcases List.mem_append.1 hm with hm | hm
      · exact ⟨m, hm, hsubmit⟩
      · rw [List.mem_singleton.1 hm] at hsubmit
        exact absurd hsubmit hevent
    rcases h.accepted hearlier with ⟨applied, happlied, hgoes⟩
    rcases hadvances with ⟨hcourse, hgrown⟩ | ⟨-, hon⟩
    · refine ⟨applied, ?_, ?_⟩
      · intro i
        rw [appliedFor_concat, hgrown, List.append_nil]
        exact happlied i
      · rw [show t.course plan.id = s.course plan.id from hcourse]
        exact hgoes
    · rcases hon applied hgoes with ⟨more, hgrown, hgoes'⟩
      refine ⟨applied ++ more, ?_, hgoes'⟩
      intro i
      rw [appliedFor_concat, happlied, hgrown]
      split
      · rfl
      · rfl

/-- The command of the plan begins its course. -/
theorem goes_withLoop (hplan : plan.IsFor setup w₀ c) (hnew : (s.course plan.id).IsNew)
    {c' : Command} {x : Numbered (Scroller World)} (hprepare : setup.prepare c = .ok (c', x))
    {u : Tracker} {now : Timestamp}
    (hfind : u.find? plan.id = some (Progress.new plan.command now)) :
    ((s.withLoop setup c' x.item u).course plan.id).Goes plan [] := by
  rcases hplan.prepared with ⟨n, hprepared⟩
  rcases Prod.mk.inj (Except.ok.inj (hprepare.symm.trans hprepared)) with ⟨rfl, rfl⟩
  have hcourse : (s.withLoop setup plan.command _ u).course plan.id = _ :=
    System.course_withLoop plan.id plan.command
      ((Source.queryLists plan.lists).scroller plan.source) u
  rw [if_pos (show plan.command.id = plan.id from rfl), hnew.loops, hnew.queue, hnew.hand, hfind,
    List.nil_append] at hcourse
  rw [hcourse]
  have hof := (⟨rfl, rfl, hplan.fetchSize.symm⟩ : ScrollLoop.IsOf plan
    ⟨s.loops.length, plan.command, (Source.queryLists plan.lists).scroller plan.source,
      setup.dispatcher.fetchSize plan.command, .created⟩)
  by_cases hfits : plan.Fits
  · refine .inl ⟨hfits, ⟨_, rfl, hof, trivial, _, rfl, Flow.new plan now⟩, ?_⟩
    intro b x hhand
    exact absurd hhand (by simp)
  · refine .inr ⟨hfits, ⟨⟨_, rfl, hof, trivial, _, rfl, ?_⟩, rfl, rfl⟩, rfl⟩
    exact ⟨rfl, rfl, rfl, rfl, rfl, rfl⟩

/-- A command is submitted, which may be the one of the plan. -/
theorem submit (hplan : plan.IsFor setup w₀ c) (h : Followed c plan moves s) {c₁ : Command}
    (hnext : s.next? setup (.submit c₁) = some t) :
    Followed c plan (moves ++ [⟨s, .submit c₁, t⟩]) t := by
  rcases System.next?_submit hnext with ⟨-, r, hr⟩
  rcases System.submit_eq_ok hr with ⟨c', x, u, hprepare, hreg, -, rfl⟩
  rcases Tracker.register_eq_ok hreg with ⟨hfresh, hfind⟩
  by_cases hid : c'.id = plan.id
  · rw [hid] at hfresh hfind
    have hfound := hfind plan.id
    rw [if_pos rfl] at hfound
    rcases h.unseen hfresh with ⟨hnew, hnone⟩
    constructor
    · intro hgone
      have hgone : u.find? plan.id = none := hgone
      rw [hfound] at hgone
      exact absurd hgone (by simp)
    · rintro ⟨m, hm, hsubmit⟩
      rcases List.mem_append.1 hm with hm | hm
      · -- the command was not submitted before
        rcases h.accepted ⟨m, hm, hsubmit⟩ with ⟨applied, -, hgoes⟩
        exact absurd hfresh hgoes.progress_ne_none
      · rw [List.mem_singleton.1 hm] at hsubmit
        obtain rfl := System.Event.submit.inj hsubmit
        refine ⟨[], ?_, ?_⟩
        · intro i
          rw [appliedFor_concat, hnone, ite_self]
          rfl
        · rcases hplan.prepared with ⟨n, hprepared⟩
          -- what is prepared for a command does not depend on the state
          have hcommand := (Prod.mk.inj (Except.ok.inj (hprepare.symm.trans hprepared))).1
          rw [hcommand] at hfound
          exact goes_withLoop hplan hnew hprepare hfound
  · -- another command was accepted, so it was not the one that the plan is for
    have hsame : u.find? plan.id = s.engine.tracker.find? plan.id := by
      rw [hfind, if_neg (Ne.symm hid)]
    refine h.advance (fun hgone => hsame ▸ hgone) ?_ (.inl ⟨?_, fun _ => rfl⟩)
    · intro heq
      obtain rfl := System.Event.submit.inj heq
      rcases hplan.prepared with ⟨n, hprepared⟩
      have hcommand := (Prod.mk.inj (Except.ok.inj (hprepare.symm.trans hprepared))).1
      exact hid (congrArg Command.id hcommand)
    · show (s.withLoop setup c' x.item u).course plan.id = s.course plan.id
      rw [System.course_withLoop, if_neg hid, List.append_nil, hsame]
      rfl

/-- Something is told about commands, other than that this one is cancelled or dropped. -/
theorem withTracker (h : Followed c plan moves s) {u : Tracker} (hevent : event ≠ .submit c)
    (hgrown : ∀ i, Move.appliedFor plan.id i ⟨s, event, s.withTracker u⟩ = [])
    (hfind : u.find? plan.id = s.engine.tracker.find? plan.id) :
    Followed c plan (moves ++ [⟨s, event, s.withTracker u⟩]) (s.withTracker u) := by
  refine h.advance ?_ hevent (.inl ⟨System.course_withTracker hfind, hgrown⟩)
  intro hgone
  have hgone : u.find? plan.id = none := hgone
  rwa [hfind] at hgone

/-- Whatever happens to a system, as long as the command is neither cancelled nor dropped. -/
theorem next? (hwired : Wired setup w₀) (hplan : plan.IsFor setup w₀ c) (hlively : Lively w₀ s)
    (h : Followed c plan moves s) (hnext : s.next? setup event = some t)
    (hkeeps : Move.Keeps plan.id ⟨s, event, t⟩) : Followed c plan (moves ++ [⟨s, event, t⟩]) t := by
  have hkept : t.engine.tracker.find? plan.id = none → s.engine.tracker.find? plan.id = none :=
    hkeeps.not_dropped
  cases event with
  | submit c₁ => exact h.submit hplan hnext
  | step task =>
    exact h.advance hkept (by simp)
      (System.advances_stepTask? hwired hplan.isWired hplan.action_resolved hlively hnext hkept)
  | putOff task => exact h.advance hkept (by simp) (System.advances_putOff? hlively hnext)
  | abort k message =>
    rcases System.next?_abort hnext with ⟨new, u, hu, rfl⟩
    have hne : plan.id ≠ k := by
      rintro rfl
      exact absurd hkeeps.not_aborted (by simp [System.Event.isAbortOf])
    apply h.withTracker (by simp) (fun _ => rfl)
    rcases Tracker.abortWith_cases s.engine.tracker s.engine.now k message with
      ⟨-, heq⟩ | ⟨p, -, -, heq⟩ | ⟨p, v, -, hv, heq⟩
    · rw [heq] at hu
      exact absurd hu (by simp)
    · rw [heq] at hu
      rw [(Prod.mk.inj (Except.ok.inj hu)).2]
    · rw [heq] at hu
      rw [← (Prod.mk.inj (Except.ok.inj hu)).2]
      exact hv.find?_other hne
  | lookUp k =>
    obtain rfl := Option.some.inj hnext
    apply h.withTracker (by simp) (fun _ => rfl)
    have hdrops := Tracker.drops_get hlively.sound.distinct s.engine.now k
    exact System.find?_of_kept (hdrops.find?_eq plan.id) hkept
  | purge =>
    obtain rfl := Option.some.inj hnext
    apply h.withTracker (by simp) (fun _ => rfl)
    have hdrops := Tracker.drops_purgeExpired hlively.sound.distinct s.engine.now
    exact System.find?_of_kept (hdrops.find?_eq plan.id) hkept
  | tick now =>
    obtain rfl := Option.some.inj hnext
    exact h.advance hkept (by simp) (.inl ⟨rfl, fun _ => rfl⟩)
  | await k =>
    obtain rfl := Option.some.inj hnext
    exact h.advance hkept (by simp) (.inl ⟨rfl, fun _ => rfl⟩)
  | release =>
    rcases System.next?_release hnext with ⟨-, rfl⟩
    exact h.advance hkept (by simp) (.inl ⟨rfl, fun _ => rfl⟩)
  | schedule queue yielded allowance =>
    obtain rfl := Option.some.inj hnext
    exact h.advance hkept (by simp) (.inl ⟨rfl, fun _ => rfl⟩)

end Followed

end BulkRun
