import Mathlib.Data.List.Perm.Basic
import BulkRun.Proofs.Status.Ends
import BulkRun.Status.Waiter
/-!
# Waiting

Somebody waits for the end of a command while a tracker goes on taking operations.  Each thing that
he does is a step of its own: he subscribes, he looks at the command, he reads one event, and he
looks again when he was told that he missed some.  Between any two of these the tracker may do
anything, and an operation may have changed a command already and not yet have published it.

Main statement: he is told that the command has ended only if it has, and he is never asleep while
the command is there and has ended (`waiting_never_misses_the_end`).  The invariant is that an ended
command has its end among the events that are unread or not yet published (`Vigil.Alert`).
-/

namespace BulkRun

namespace Vigil

/-- Where somebody stands who waits for the end of a command. -/
inductive Stage where
  /-- He has not begun. -/
  | fresh
  /-- He has subscribed and not looked at the command. -/
  | subscribed (s : Subscriber)
  /-- He waits for the next event. -/
  | reading (s : Subscriber)
  /-- He was told that he missed events and has not looked at the command again. -/
  | behind (s : Subscriber)
  | answered (answer : Waited)
deriving DecidableEq

namespace Stage

/-- What comes of a look at the command. -/
def look (t : Tracker) (id : CommandId) (s : Subscriber) : Stage :=
  match t.state id with
  | .error e => answered (.error e)
  | .ok state => if state.isTerminal then answered (.ok true) else reading s

/-- What comes of reading something. -/
def read (id : CommandId) : Reception × Subscriber → Stage
  | (.event e, s) =>
    if e.commandId = id ∧ e.state.isTerminal then answered (.ok true) else reading s
  | (.lagged _, s) => behind s

/-- The next thing that he does; `none` when he sleeps, or has his answer. -/
def step? (t : Tracker) (id : CommandId) : Stage → Option Stage
  | fresh => some (subscribed t.log.subscribe)
  | subscribed s => some (look t id s)
  | reading s => (t.log.read? s).map (read id)
  | behind s => some (look t id s)
  | answered _ => none

/-- What he has become once he has looked at the command, if he was about to. -/
def looked (t : Tracker) (id : CommandId) : Stage → Stage
  | subscribed s => look t id s
  | behind s => look t id s
  | stage => stage

/-- Where a waiter stands. -/
def ofWaiting : Waited ⊕ Waiter → Stage
  | .inl answer => answered answer
  | .inr w => reading w.subscriber

/-- With nothing between the subscription and the look, this is how a waiter begins. -/
theorem start_eq (t : Tracker) (id : CommandId) :
    (fresh.step? t id).map (looked t id) = some (ofWaiting (Waiter.start t id)) := by
  rw [Waiter.start, step?, Option.map_some, looked, look]
  cases t.state id with
  | error e => rfl
  | ok state => cases h : state.isTerminal <;> simp [h, ofWaiting]

/-- With nothing between the reading and the look, this is a step of a waiter. -/
theorem reading_eq (t : Tracker) (id : CommandId) (s : Subscriber) :
    ((reading s).step? t id).map (looked t id) = (Waiter.step? t ⟨id, s⟩).map ofWaiting := by
  rw [Waiter.step?, step?, Option.map_map, Option.map_map]
  congr 1
  funext ⟨r, s'⟩
  cases r with
  | event e =>
    by_cases h : e.commandId = id ∧ e.state.isTerminal = true <;>
      simp [read, looked, Waiter.digest, ofWaiting, h]
  | lagged missed =>
    simp only [Function.comp_apply, read, looked, look, Waiter.digest]
    cases t.state id with
    | error e => rfl
    | ok state => cases h : state.isTerminal <;> simp [h, ofWaiting]

end Stage

end Vigil

/-- A tracker, and somebody who waits. -/
structure Vigil where
  tracker : Tracker
  /-- The events of changes that were made and are not yet published. -/
  due : List StatusEvent
  stage : Vigil.Stage

namespace Vigil

/-- Nobody has done anything yet. -/
def new (capacity retention : Nat) : Vigil := ⟨.new capacity retention, [], .fresh⟩

/-- What can happen. -/
inductive Event where
  /-- An operation from its beginning to its end. -/
  | operate (o : Tracker.Operation)
  /-- The change that an operation makes, whose events are not published yet. -/
  | change (o : Tracker.Operation)
  /-- One of the events that are due is published. -/
  | publish (place : Nat)
  /-- Whoever waits does his next thing. -/
  | wait
  /-- He has waited long enough. -/
  | expire

/-- The events that an operation publishes. -/
def eventsOf (t : Tracker) (o : Tracker.Operation) : List StatusEvent :=
  (t.operate o).log.events.drop t.log.events.length

/-- What an event makes of a vigil over a command; `none` when the event cannot happen. -/
def next? (id : CommandId) (v : Vigil) : Event → Option Vigil
  | .operate o => some { v with tracker := v.tracker.operate o }
  | .change o => some { v with
      tracker := { v.tracker.operate o with log := v.tracker.log }
      due := v.due ++ eventsOf v.tracker o }
  | .publish place => v.due[place]?.map fun e => { v with
      tracker := { v.tracker with log := v.tracker.log.publish e }
      due := v.due.eraseIdx place }
  | .wait => (v.stage.step? v.tracker id).map fun stage => { v with stage := stage }
  | .expire =>
    match v.stage with
    | .reading _ | .behind _ => some { v with stage := .answered (.ok false) }
    | _ => none

variable {id : CommandId} {v w : Vigil}

/-! ## Looking and reading -/

/-- A look finds that the command is gone, that it has ended, or that it goes on. -/
theorem Stage.look_cases (t : Tracker) (id : CommandId) (s : Subscriber) :
    (t.find? id = none ∧ look t id s = .answered (.error (.notFound id))) ∨
      (t.HasEnded id ∧ look t id s = .answered (.ok true)) ∨
      (¬t.HasEnded id ∧ look t id s = .reading s) := by
  cases hp : t.find? id with
  | none =>
    refine .inl ⟨rfl, ?_⟩
    rw [look, Tracker.state, Tracker.progress_eq_error.2 ⟨hp, rfl⟩]
    rfl
  | some p =>
    rw [look, Tracker.state, Tracker.progress_eq_ok.2 hp]
    cases hended : p.state.isTerminal with
    | true =>
      refine .inr (.inl ⟨⟨p, hp, hended⟩, ?_⟩)
      simp [Except.map, hended]
    | false =>
      refine .inr (.inr ⟨?_, ?_⟩)
      · rintro ⟨q, hq, hterminal⟩
        rw [← Option.some.inj (hp.symm.trans hq), hended] at hterminal
        exact Bool.false_ne_true hterminal
      · simp [Except.map, hended]

/-- A subscriber has read everything, reads the next event, or is told that it missed some. -/
theorem read?_cases (log : EventLog) (s : Subscriber) :
    (log.events.length ≤ s.next ∧ log.read? s = none) ∨
      (∃ e, log.events[s.next]? = some e ∧ log.read? s = some (.event e, ⟨s.next + 1⟩)) ∨
      ∃ missed oldest, s.next < oldest ∧ oldest ≤ log.events.length ∧
        log.read? s = some (.lagged missed, ⟨oldest⟩) := by
  unfold EventLog.read?
  dsimp only
  split
  · rename_i hlag
    exact .inr (.inr ⟨_, _, hlag, Nat.sub_le _ _, rfl⟩)
  · split
    · rename_i hnone
      exact .inl ⟨List.getElem?_eq_none_iff.1 hnone, rfl⟩
    · rename_i e he
      exact .inr (.inl ⟨e, he, rfl⟩)

theorem Stage.read_event (id : CommandId) (e : StatusEvent) (s : Subscriber) :
    (e.Ends id ∧ read id (.event e, s) = .answered (.ok true)) ∨
      (¬e.Ends id ∧ read id (.event e, s) = .reading s) := by
  by_cases h : e.commandId = id ∧ e.state.isTerminal = true
  · exact .inl ⟨h, if_pos h⟩
  · exact .inr ⟨h, if_neg h⟩

theorem next?_expire (h : v.next? id .expire = some w) :
    w = { v with stage := .answered (.ok false) } := by
  unfold next? at h
  dsimp only at h
  split at h
  · exact (Option.some.inj h).symm
  · exact (Option.some.inj h).symm
  · exact absurd h (by simp)

/-! ## The invariant -/

/-- The subscription of whoever waits, as long as he has one and no answer. -/
def Stage.subscriber? : Stage → Option Subscriber
  | subscribed s | reading s | behind s => some s
  | _ => none

/-- The events that are still to come to a subscriber, be they published or not. -/
def unheard (v : Vigil) (s : Subscriber) : List StatusEvent :=
  v.tracker.log.events.drop s.next ++ v.due

/-- What is true at any time. -/
structure Alert (id : CommandId) (v : Vigil) : Prop where
  distinct : v.tracker.Distinct
  /-- Nobody is ahead of the events. -/
  behind : ∀ s, v.stage.subscriber? = some s → s.next ≤ v.tracker.log.events.length
  /-- Whoever waits for an event still hears of the end of a command that has ended. -/
  heard : ∀ s, v.stage = .reading s → v.tracker.HasEnded id → ∃ e ∈ v.unheard s, e.Ends id

namespace Alert

/-- What happens to the tracker takes nothing away from what is still to come, and whatever ends the
command adds its end. -/
theorem of_tracker {t : Tracker} {due : List StatusEvent} (h : v.Alert id) (hd : t.Distinct)
    (hlength : v.tracker.log.events.length ≤ t.log.events.length)
    (hunheard : ∀ s, s.next ≤ v.tracker.log.events.length →
      ∀ e ∈ v.unheard s, e ∈ t.log.events.drop s.next ++ due)
    (hends : t.HasEnded id → v.tracker.HasEnded id ∨ ∃ e, e.Ends id ∧
      ∀ s : Subscriber, s.next ≤ v.tracker.log.events.length →
        e ∈ t.log.events.drop s.next ++ due) :
    Alert id { v with tracker := t, due := due } where
  distinct := hd
  behind s hs := Nat.le_trans (h.behind s hs) hlength
  heard s hs hended := by
    have hs' : v.stage = .reading s := hs
    have hle : s.next ≤ v.tracker.log.events.length := h.behind s (by rw [hs']; rfl)
    rcases hends hended with hbefore | ⟨e, he, hmem⟩
    · obtain ⟨e, hmem, he⟩ := h.heard s hs' hbefore
      exact ⟨e, hunheard s hle e hmem, he⟩
    · exact ⟨e, hmem s hle, he⟩

theorem operate (h : v.Alert id) (o : Tracker.Operation) :
    Alert id { v with tracker := v.tracker.operate o } := by
  obtain ⟨events, hevents, -, hends⟩ := Tracker.ends_operate h.distinct id o
  refine h.of_tracker (Tracker.distinct_operate h.distinct o) ?_ ?_ ?_
  · rw [hevents, List.length_append]
    exact Nat.le_add_right _ _
  · intro s hs e he
    rw [hevents, List.drop_append_of_le_length hs, List.append_assoc]
    rcases List.mem_append.1 he with he | he
    · exact List.mem_append_left _ he
    · exact List.mem_append_right _ (List.mem_append_right _ he)
  · intro hended
    refine (hends hended).imp_right fun ⟨e, he, hend⟩ => ⟨e, hend, fun s hs => ?_⟩
    rw [hevents, List.drop_append_of_le_length hs, List.append_assoc]
    exact List.mem_append_right _ (List.mem_append_left _ he)

theorem change (h : v.Alert id) (o : Tracker.Operation) :
    Alert id { v with
      tracker := { v.tracker.operate o with log := v.tracker.log }
      due := v.due ++ eventsOf v.tracker o } := by
  obtain ⟨events, hevents, -, hends⟩ := Tracker.ends_operate h.distinct id o
  have hdue : eventsOf v.tracker o = events := by rw [eventsOf, hevents, List.drop_left]
  rw [hdue]
  refine h.of_tracker (Tracker.distinct_operate h.distinct o) (Nat.le_refl _) ?_ ?_
  · intro s _ e he
    rw [← List.append_assoc]
    exact List.mem_append_left _ he
  · intro hended
    refine (hends hended).imp_right fun ⟨e, he, hend⟩ => ⟨e, hend, fun s _ => ?_⟩
    exact List.mem_append_right _ (List.mem_append_right _ he)

theorem publish (h : v.Alert id) {place : Nat} {e : StatusEvent} (he : v.due[place]? = some e) :
    Alert id { v with
      tracker := { v.tracker with log := v.tracker.log.publish e }
      due := v.due.eraseIdx place } := by
  refine h.of_tracker h.distinct ?_ ?_ fun hended => .inl hended
  · rw [EventLog.publish, List.length_append]
    exact Nat.le_add_right _ _
  · intro s hs k hk
    dsimp only [EventLog.publish]
    rw [List.drop_append_of_le_length hs, List.append_assoc]
    rcases List.mem_append.1 hk with hk | hk
    · exact List.mem_append_left _ hk
    · refine List.mem_append_right _ ?_
      obtain ⟨hplace, rfl⟩ := List.getElem?_eq_some_iff.1 he
      exact (List.getElem_cons_eraseIdx_perm hplace).mem_iff.2 hk

/-- Nothing is asked of somebody who has his answer. -/
theorem answer (h : v.Alert id) (answer : Waited) :
    Alert id { v with stage := .answered answer } :=
  ⟨h.distinct, fun _ hs => absurd hs (by simp [Stage.subscriber?]), fun _ hs => absurd hs (by simp)⟩

/-- Whoever looks at the command and goes on to read has found that it goes on. -/
theorem look (h : v.Alert id) {s : Subscriber} (hs : v.stage.subscriber? = some s) :
    Alert id { v with stage := .look v.tracker id s } := by
  obtain ⟨-, hlook⟩ | ⟨-, hlook⟩ | ⟨hopen, hlook⟩ := Stage.look_cases v.tracker id s
  · rw [hlook]
    exact h.answer _
  · rw [hlook]
    exact h.answer _
  · rw [hlook]
    refine ⟨h.distinct, fun s' hs' => ?_, fun s' _ hended => absurd hended hopen⟩
    rw [← Option.some.inj hs']
    exact h.behind s hs

/-- Whoever reads an event and goes on has not read the end of the command. -/
theorem read (h : v.Alert id) {s : Subscriber} (hs : v.stage = .reading s)
    {r : Reception × Subscriber} (hr : v.tracker.log.read? s = some r) :
    Alert id { v with stage := .read id r } := by
  obtain ⟨-, hnone⟩ | ⟨e, he, hread⟩ | ⟨missed, oldest, -, hle, hread⟩ :=
    read?_cases v.tracker.log s
  · rw [hnone] at hr
    exact absurd hr (by simp)
  · obtain rfl := Option.some.inj (hread.symm.trans hr)
    obtain ⟨hlt, rfl⟩ := List.getElem?_eq_some_iff.1 he
    obtain ⟨-, hstage⟩ | ⟨hgoes, hstage⟩ :=
      Stage.read_event id v.tracker.log.events[s.next] ⟨s.next + 1⟩
    · rw [hstage]
      exact h.answer _
    · rw [hstage]
      refine ⟨h.distinct, fun s' hs' => ?_, fun s' hs' hended => ?_⟩
      · rw [← Option.some.inj hs']
        exact hlt
      · obtain rfl := Stage.reading.inj hs'
        obtain ⟨k, hk, hend⟩ := h.heard s hs hended
        refine ⟨k, ?_, hend⟩
        rw [unheard, List.drop_eq_getElem_cons hlt, List.cons_append] at hk
        rcases List.mem_cons.1 hk with rfl | hk
        · exact absurd hend hgoes
        · exact hk
  · obtain rfl := Option.some.inj (hread.symm.trans hr)
    refine ⟨h.distinct, fun s' hs' => ?_, fun s' hs' => absurd hs' (by simp [Stage.read])⟩
    rw [← Option.some.inj hs']
    exact hle

/-- Whatever whoever waits does next. -/
theorem wait (h : v.Alert id) {stage : Stage} (hstep : v.stage.step? v.tracker id = some stage) :
    Alert id { v with stage := stage } := by
  cases hv : v.stage with
  | fresh =>
    rw [hv] at hstep
    rw [← Option.some.inj hstep]
    refine ⟨h.distinct, fun s hs => ?_, fun s hs => absurd hs (by simp)⟩
    rw [← Option.some.inj hs]
    exact Nat.le_refl _
  | subscribed s =>
    rw [hv] at hstep
    rw [← Option.some.inj hstep]
    exact h.look (by rw [hv]; rfl)
  | reading s =>
    rw [hv] at hstep
    obtain ⟨r, hr, rfl⟩ := Option.map_eq_some_iff.1 hstep
    exact h.read hv hr
  | behind s =>
    rw [hv] at hstep
    rw [← Option.some.inj hstep]
    exact h.look (by rw [hv]; rfl)
  | answered answer =>
    rw [hv] at hstep
    exact absurd hstep (by simp [Stage.step?])

/-- Whatever happens, the end of the command is not missed. -/
theorem next? (h : v.Alert id) {event : Event} (hnext : v.next? id event = some w) :
    w.Alert id := by
  cases event with
  | operate o =>
    rw [← Option.some.inj hnext]
    exact h.operate o
  | change o =>
    rw [← Option.some.inj hnext]
    exact h.change o
  | publish place =>
    obtain ⟨e, he, rfl⟩ := Option.map_eq_some_iff.1 hnext
    exact h.publish he
  | wait =>
    obtain ⟨stage, hstage, rfl⟩ := Option.map_eq_some_iff.1 hnext
    exact h.wait hstage
  | expire =>
    rw [next?_expire hnext]
    exact h.answer _

end Alert

/-! ## What was found and heard -/

/-- What the past of a vigil tells about its events and its answer. -/
structure Told (id : CommandId) (moves : List (Move Vigil Event)) (v : Vigil) : Prop where
  ends : ∀ e ∈ v.tracker.log.events ++ v.due, e.Ends id →
    ∃ m ∈ moves, m.after.tracker.HasEnded id
  ended : v.stage = .answered (.ok true) → ∃ m ∈ moves, m.after.tracker.HasEnded id
  missing : ∀ e, v.stage = .answered (.error e) → e = .notFound id ∧
    ∃ m ∈ moves, m.event = .wait ∧ m.before.tracker.find? id = none ∧ m.after.stage = v.stage

namespace Told

variable {moves : List (Move Vigil Event)}

/-- What was true of a move of the past stays so. -/
theorem exists_concat {P : Move Vigil Event → Prop} (m : Move Vigil Event)
    (h : ∃ k ∈ moves, P k) : ∃ k ∈ moves ++ [m], P k :=
  let ⟨k, hk, hP⟩ := h
  ⟨k, List.mem_append_left _ hk, hP⟩

theorem exists_last {P : Move Vigil Event → Prop} {m : Move Vigil Event} (h : P m) :
    ∃ k ∈ moves ++ [m], P k :=
  ⟨m, by simp, h⟩

/-- Something happens to the tracker.  What it publishes or leaves to be published of an end is the
end of a command that has ended then. -/
theorem of_tracker (h : Told id moves v) {event : Event} (hstage : w.stage = v.stage)
    (hends : ∀ e ∈ w.tracker.log.events ++ w.due, e.Ends id →
      e ∈ v.tracker.log.events ++ v.due ∨ w.tracker.HasEnded id) :
    Told id (moves ++ [⟨v, event, w⟩]) w where
  ends e he hend := by
    rcases hends e he hend with hbefore | hafter
    · exact exists_concat _ (h.ends e hbefore hend)
    · exact exists_last hafter
  ended hanswer := exists_concat _ (h.ended (hstage ▸ hanswer))
  missing e hanswer := by
    obtain ⟨he, hmove⟩ := h.missing e (hstage ▸ hanswer)
    rw [hstage]
    exact ⟨he, exists_concat _ hmove⟩

theorem operate (h : Told id moves v) (hd : v.tracker.Distinct) (o : Tracker.Operation)
    (hw : w = { v with tracker := v.tracker.operate o }) :
    Told id (moves ++ [⟨v, .operate o, w⟩]) w := by
  subst hw
  obtain ⟨events, hevents, hends, -⟩ := Tracker.ends_operate hd id o
  refine h.of_tracker rfl fun e he hend => ?_
  rw [hevents, List.mem_append, List.mem_append] at he
  rcases he with (he | he) | he
  · exact .inl (List.mem_append_left _ he)
  · exact .inr (hends ⟨e, he, hend⟩)
  · exact .inl (List.mem_append_right _ he)

theorem change (h : Told id moves v) (hd : v.tracker.Distinct) (o : Tracker.Operation)
    (hw : w = { v with
      tracker := { v.tracker.operate o with log := v.tracker.log }
      due := v.due ++ eventsOf v.tracker o }) :
    Told id (moves ++ [⟨v, .change o, w⟩]) w := by
  subst hw
  obtain ⟨events, hevents, hends, -⟩ := Tracker.ends_operate hd id o
  have hdue : eventsOf v.tracker o = events := by rw [eventsOf, hevents, List.drop_left]
  refine h.of_tracker rfl fun e he hend => ?_
  rw [hdue, ← List.append_assoc, List.mem_append] at he
  rcases he with he | he
  · exact .inl he
  · exact .inr (hends ⟨e, he, hend⟩)

theorem publish (h : Told id moves v) {place : Nat} {e : StatusEvent}
    (he : v.due[place]? = some e)
    (hw : w = { v with
      tracker := { v.tracker with log := v.tracker.log.publish e }
      due := v.due.eraseIdx place }) :
    Told id (moves ++ [⟨v, .publish place, w⟩]) w := by
  subst hw
  refine h.of_tracker rfl fun k hk _ => .inl ?_
  dsimp only [EventLog.publish] at hk
  rw [List.append_assoc, List.mem_append] at hk
  rcases hk with hk | hk
  · exact List.mem_append_left _ hk
  · obtain ⟨hplace, rfl⟩ := List.getElem?_eq_some_iff.1 he
    exact List.mem_append_right _ ((List.getElem_cons_eraseIdx_perm hplace).mem_iff.1 hk)

/-- What whoever waits is told, he found out in that very step or read from an event. -/
theorem of_stage (h : Told id moves v) {event : Event} {stage : Stage}
    (hended : stage = .answered (.ok true) →
      v.tracker.HasEnded id ∨ ∃ e ∈ v.tracker.log.events, e.Ends id)
    (hmissing : ∀ e, stage = .answered (.error e) →
      event = .wait ∧ v.tracker.find? id = none ∧ e = .notFound id) :
    Told id (moves ++ [⟨v, event, { v with stage := stage }⟩]) { v with stage := stage } where
  ends e he hend := exists_concat _ (h.ends e he hend)
  ended hanswer := by
    rcases hended hanswer with hnow | ⟨e, he, hend⟩
    · exact exists_last hnow
    · exact exists_concat _ (h.ends e (List.mem_append_left _ he) hend)
  missing e hanswer := by
    obtain ⟨hevent, hnone, he⟩ := hmissing e hanswer
    exact ⟨he, exists_last ⟨hevent, hnone, rfl⟩⟩

/-- Whoever has no answer yet was told nothing. -/
theorem goOn (h : Told id moves v) {event : Event} {stage : Stage}
    (hstage : ∀ answer, stage ≠ .answered answer) :
    Told id (moves ++ [⟨v, event, { v with stage := stage }⟩]) { v with stage := stage } :=
  h.of_stage (fun hanswer => absurd hanswer (hstage _)) fun _ hanswer => absurd hanswer (hstage _)

theorem look (h : Told id moves v) (s : Subscriber) :
    Told id (moves ++ [⟨v, .wait, { v with stage := .look v.tracker id s }⟩])
      { v with stage := .look v.tracker id s } := by
  obtain ⟨hnone, hlook⟩ | ⟨hended, hlook⟩ | ⟨-, hlook⟩ := Stage.look_cases v.tracker id s
  · rw [hlook]
    refine h.of_stage (fun hanswer => absurd hanswer (by simp)) fun e hanswer => ?_
    exact ⟨rfl, hnone, (Except.error.inj (Stage.answered.inj hanswer)).symm⟩
  · rw [hlook]
    exact h.of_stage (fun _ => .inl hended) fun e hanswer => absurd hanswer (by simp)
  · rw [hlook]
    exact h.goOn (by simp)

theorem read (h : Told id moves v) {s : Subscriber} {r : Reception × Subscriber}
    (hr : v.tracker.log.read? s = some r) :
    Told id (moves ++ [⟨v, .wait, { v with stage := .read id r }⟩])
      { v with stage := .read id r } := by
  obtain ⟨-, hnone⟩ | ⟨e, he, hread⟩ | ⟨missed, oldest, -, -, hread⟩ :=
    read?_cases v.tracker.log s
  · rw [hnone] at hr
    exact absurd hr (by simp)
  · obtain rfl := Option.some.inj (hread.symm.trans hr)
    obtain ⟨hend, hstage⟩ | ⟨-, hstage⟩ := Stage.read_event id e ⟨s.next + 1⟩
    · rw [hstage]
      exact h.of_stage (fun _ => .inr ⟨e, List.mem_of_getElem? he, hend⟩)
        fun k hanswer => absurd hanswer (by simp)
    · rw [hstage]
      exact h.goOn (by simp)
  · obtain rfl := Option.some.inj (hread.symm.trans hr)
    exact h.goOn (by simp [Stage.read])

theorem wait (h : Told id moves v) {stage : Stage}
    (hstep : v.stage.step? v.tracker id = some stage) :
    Told id (moves ++ [⟨v, .wait, { v with stage := stage }⟩]) { v with stage := stage } := by
  cases hv : v.stage with
  | fresh =>
    rw [hv] at hstep
    rw [← Option.some.inj hstep]
    exact h.goOn (by simp)
  | subscribed s =>
    rw [hv] at hstep
    rw [← Option.some.inj hstep]
    exact h.look s
  | reading s =>
    rw [hv] at hstep
    obtain ⟨r, hr, rfl⟩ := Option.map_eq_some_iff.1 hstep
    exact h.read hr
  | behind s =>
    rw [hv] at hstep
    rw [← Option.some.inj hstep]
    exact h.look s
  | answered answer =>
    rw [hv] at hstep
    exact absurd hstep (by simp [Stage.step?])

theorem next? (h : Told id moves v) (hd : v.tracker.Distinct) {event : Event}
    (hnext : v.next? id event = some w) : Told id (moves ++ [⟨v, event, w⟩]) w := by
  cases event with
  | operate o => exact h.operate hd o (Option.some.inj hnext).symm
  | change o => exact h.change hd o (Option.some.inj hnext).symm
  | publish place =>
    obtain ⟨e, he, hw⟩ := Option.map_eq_some_iff.1 hnext
    exact h.publish he hw.symm
  | wait =>
    obtain ⟨stage, hstage, rfl⟩ := Option.map_eq_some_iff.1 hnext
    exact h.wait hstage
  | expire =>
    obtain rfl := next?_expire hnext
    exact h.of_stage (fun hanswer => absurd hanswer (by simp)) fun e hanswer =>
      absurd hanswer (by simp)

end Told

variable {capacity retention : Nat} {moves : List (Move Vigil Event)}

theorem alert_new (id : CommandId) (capacity retention : Nat) :
    (new capacity retention).Alert id :=
  ⟨Tracker.distinct_keeping capacity _,
    fun _ hs => absurd hs (by simp [new, Stage.subscriber?]), fun _ hs => absurd hs (by simp [new])⟩

theorem alert_of_run (hrun : Run (next? id) (new capacity retention) moves v) : v.Alert id :=
  hrun.always (alert_new id capacity retention) fun _ _ _ hnext h => h.next? hnext

theorem told_of_run (hrun : Run (next? id) (new capacity retention) moves v) :
    Told id moves v := by
  induction hrun with
  | start =>
    exact ⟨fun _ he => absurd he List.not_mem_nil, fun hs => absurd hs (by simp [new]),
      fun _ hs => absurd hs (by simp [new])⟩
  | move event hbefore hnext ih => exact ih.next? (alert_of_run hbefore).distinct hnext

/-! ## Reading to the end -/

/-- Left alone, a waiter who still hears of the end of a command that has ended is told so. -/
theorem run_of_ended {t : Tracker} (hended : t.HasEnded id) (s : Subscriber)
    (hend : ∃ e ∈ t.log.events.drop s.next, e.Ends id) :
    ∃ fuel, Waiter.run t fuel ⟨id, s⟩ = .inl (.ok true) := by
  -- by induction on the number of events that he has not read
  induction hn : t.log.events.length - s.next generalizing s with
  | zero =>
    obtain ⟨e, he, -⟩ := hend
    rw [List.drop_eq_nil_of_le (Nat.sub_eq_zero_iff_le.1 hn)] at he
    exact absurd he List.not_mem_nil
  | succ n ih =>
    have told (hstep : Waiter.step? t ⟨id, s⟩ = some (.inl (.ok true))) :
        ∃ fuel, Waiter.run t fuel ⟨id, s⟩ = .inl (.ok true) := ⟨1, by rw [Waiter.run, hstep]⟩
    obtain ⟨hle, -⟩ | ⟨e, he, hread⟩ | ⟨missed, oldest, -, -, hread⟩ := read?_cases t.log s
    · omega
    · obtain ⟨hlt, rfl⟩ := List.getElem?_eq_some_iff.1 he
      by_cases hends : t.log.events[s.next].Ends id
      · have hdigest : Waiter.digest t ⟨id, s⟩ (.event t.log.events[s.next]) = some (.ok true) :=
          if_pos hends
        apply told
        simp only [Waiter.step?, hread, Option.map_some, hdigest]
      · have hdigest : Waiter.digest t ⟨id, s⟩ (.event t.log.events[s.next]) = none :=
          if_neg hends
        have hstep : Waiter.step? t ⟨id, s⟩ = some (.inr ⟨id, ⟨s.next + 1⟩⟩) := by
          simp only [Waiter.step?, hread, Option.map_some, hdigest]
        obtain ⟨k, hk, hkends⟩ := hend
        rw [List.drop_eq_getElem_cons hlt] at hk
        have hlater : ∃ e ∈ t.log.events.drop (s.next + 1), e.Ends id := by
          rcases List.mem_cons.1 hk with rfl | hk
          · exact absurd hkends hends
          · exact ⟨k, hk, hkends⟩
        obtain ⟨fuel, hfuel⟩ := ih ⟨s.next + 1⟩ hlater (by dsimp only; omega)
        exact ⟨fuel + 1, by rw [Waiter.run, hstep]; exact hfuel⟩
    · obtain ⟨p, hp, hterminal⟩ := hended
      have hstate : t.state id = .ok p.state := by
        rw [Tracker.state, Tracker.progress_eq_ok.2 hp]
        rfl
      have hdigest : Waiter.digest t ⟨id, s⟩ (.lagged missed) = some (.ok true) := by
        simp only [Waiter.digest, hstate, hterminal, if_true]
      apply told
      simp only [Waiter.step?, hread, Option.map_some, hdigest]

/-! ## Waiting never misses the end -/

/-- Waiting never misses the end, for any capacity of the events, whatever operations the tracker
takes and however these and the steps of whoever waits follow each other.  He is told that the
command has ended only if it had ended at some time, and that it is unknown only if it was not there
when he looked.  He is never asleep while the command is there and has ended, unless its end is yet
to be published: then he can go on, and reading on he is told so.  Without anything between them,
his steps are those of a waiter. -/
theorem waiting_never_misses_the_end
    (hrun : Run (next? id) (new capacity retention) moves v) :
    (v.stage = .answered (.ok true) → ∃ m ∈ moves, m.after.tracker.HasEnded id) ∧
    (∀ e, v.stage = .answered (.error e) → e = .notFound id ∧
      ∃ m ∈ moves, m.event = .wait ∧ m.before.tracker.find? id = none ∧
        m.after.stage = v.stage) ∧
    (v.tracker.HasEnded id → (∀ e ∈ v.due, ¬e.Ends id) →
      ((∀ answer, v.stage ≠ .answered answer) → (v.next? id .wait).isSome = true) ∧
      ∀ s, v.stage = .reading s →
        ∃ fuel, Waiter.run v.tracker fuel ⟨id, s⟩ = .inl (.ok true)) ∧
    ∀ (t : Tracker) (s : Subscriber),
      (Stage.fresh.step? t id).map (Stage.looked t id) =
        some (.ofWaiting (Waiter.start t id)) ∧
      ((Stage.reading s).step? t id).map (Stage.looked t id) =
        (Waiter.step? t ⟨id, s⟩).map .ofWaiting := by
  have halert := alert_of_run hrun
  have htold := told_of_run hrun
  refine ⟨htold.ended, htold.missing, fun hended hdue => ?_,
    fun t s => ⟨Stage.start_eq t id, Stage.reading_eq t id s⟩⟩
  have hpublished : ∀ s, v.stage = .reading s →
      ∃ e ∈ v.tracker.log.events.drop s.next, e.Ends id := by
    intro s hs
    obtain ⟨e, he, hend⟩ := halert.heard s hs hended
    rcases List.mem_append.1 he with he | he
    · exact ⟨e, he, hend⟩
    · exact absurd hend (hdue e he)
  refine ⟨fun hopen => ?_, fun s hs => run_of_ended hended s (hpublished s hs)⟩
  rw [next?, Option.isSome_map]
  cases hv : v.stage with
  | fresh => rfl
  | subscribed s => rfl
  | reading s =>
    obtain ⟨e, he, -⟩ := hpublished s hv
    obtain ⟨hle, -⟩ | ⟨_, -, hread⟩ | ⟨_, _, -, -, hread⟩ := read?_cases v.tracker.log s
    · rw [List.drop_eq_nil_of_le hle] at he
      exact absurd he List.not_mem_nil
    · rw [Stage.step?, hread]
      rfl
    · rw [Stage.step?, hread]
      rfl
  | behind s => rfl
  | answered answer => exact absurd hv (hopen answer)

/-- He waits, and the command is aborted; before and after that is published, so much else happens
that he misses it. -/
def flood : List Event :=
  let other : Command := { Tracker.archiveAll with id := ⟨8⟩ }
  [.operate (.register ⟨0, 0⟩ Tracker.archiveAll), .wait, .wait,
    .change (.call ⟨⟨1, 0⟩, Tracker.archiveAll.id, .abort⟩), .operate (.register ⟨2, 0⟩ other),
    .publish 0, .operate (.call ⟨⟨3, 0⟩, other.id, .abort⟩)]

/-- With room for a single event he is told that he missed some, looks again, and has his answer. -/
theorem waiting_never_misses_the_end_flooded :
    ∃ front rear v w, Run (next? ⟨7⟩) (new 1 60) front v ∧
      Run (next? ⟨7⟩) (new 1 60) (front ++ rear) w ∧
      front.map (·.event) = flood ∧ rear.map (·.event) = [.wait, .wait] ∧
      v.stage = .reading ⟨1⟩ ∧ v.tracker.HasEnded ⟨7⟩ ∧ v.due = [] ∧
      v.tracker.log.read? ⟨1⟩ = some (.lagged 2, ⟨3⟩) ∧
      (∃ fuel, Waiter.run v.tracker fuel ⟨⟨7⟩, ⟨1⟩⟩ = .inl (.ok true)) ∧
      w.stage = .answered (.ok true) ∧ ∃ m ∈ front ++ rear, m.after.tracker.HasEnded ⟨7⟩ := by
  have hcheck : (movesOf? (next? ⟨7⟩) (new 1 60) flood).any (fun f =>
      (movesOf? (next? ⟨7⟩) f.2 [.wait, .wait]).any fun r =>
        decide (f.2.stage = .reading ⟨1⟩) && decide (f.2.due = []) &&
        (f.2.tracker.find? ⟨7⟩).any (·.state.isTerminal) &&
        decide (f.2.tracker.log.read? ⟨1⟩ = some (.lagged 2, ⟨3⟩)) &&
        decide (r.2.stage = .answered (.ok true))) = true := by
    decide +kernel
  obtain ⟨⟨front, v⟩, hfront, hrest⟩ := (Option.any_eq_true _ _).1 hcheck
  obtain ⟨⟨rear, w⟩, hrear, hv⟩ := (Option.any_eq_true _ _).1 hrest
  simp only [Bool.and_eq_true, decide_eq_true_eq] at hv
  obtain ⟨⟨⟨⟨hreading, hdue⟩, hended⟩, hlagged⟩, hanswered⟩ := hv
  obtain ⟨p, hp, hterminal⟩ := (Option.any_eq_true _ _).1 hended
  have hended : v.tracker.HasEnded ⟨7⟩ := ⟨p, hp, hterminal⟩
  have hrun : Run (next? ⟨7⟩) (new 1 60) front v := .of_movesOf? hfront
  have hlater : Run (next? ⟨7⟩) (new 1 60) (front ++ rear) w := hrun.append hrear
  obtain ⟨-, -, hawake, -⟩ := waiting_never_misses_the_end hrun
  obtain ⟨htrue, -⟩ := waiting_never_misses_the_end hlater
  refine ⟨front, rear, v, w, hrun, hlater, events_of_movesOf? hfront, events_of_movesOf? hrear,
    hreading, hended, hdue, hlagged, (hawake hended ?_).2 _ hreading, hanswered, htrue hanswered⟩
  rw [hdue]
  exact fun e he => absurd he List.not_mem_nil

end Vigil

end BulkRun
