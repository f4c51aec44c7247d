import BulkRun.Proofs.Dispatch.Sound
import BulkRun.Proofs.Dispatch.Workshop
import BulkRun.Proofs.Execution.Steps
/-!
# One receiver at work

A desk is the receiver of one partition, who has one delivery in hand at a time.  He may execute it
as often as he likes, and then acknowledges it or hands it back.  Meanwhile buckets are published,
each as often as somebody likes, and anything may happen to the commands: they are accepted, told
about, aborted and dropped.
-/

namespace BulkRun

open Tracker (Report Heeds)

variable {σ : Type}

/-! ## Everybody else -/

/-- What others do, who have no part in the channel. -/
inductive Outside (σ : Type) where
  | register (c : Command)
  /-- Something is told about a command, be it an abort. -/
  | report (id : CommandId) (r : Report)
  /-- A command is looked up, which drops it when its retention is over. -/
  | lookUp (id : CommandId)
  /-- Commands whose retention is over are dropped. -/
  | purge
  /-- The clock is set. -/
  | tick (now : Timestamp)
  /-- The world of the collaborators changes. -/
  | world (w : σ)

/-- What others make of an engine; `none` when they are refused. -/
def Engine.outside? (e : Engine σ) : Outside σ → Option (Engine σ)
  | .register c => (e.tracker.register e.now c).toOption.map fun t => { e with tracker := t }
  | .report id r => (e.tracker.answer e.now id r).toOption.map fun t => { e with tracker := t }
  | .lookUp id => some { e with tracker := (e.tracker.get e.now id).2 }
  | .purge => some { e with tracker := (e.tracker.purgeExpired e.now).2 }
  | .tick now => some { e with now := now }
  | .world w => some { e with world := w }

/-- The command that is accepted. -/
def Outside.registered? : Outside σ → Option CommandId
  | .register c => some c.id
  | _ => none

/-! ## The desk -/

/-- Whether a delivery was worked on to the end. -/
def Hand.isWorkedOff (h : Hand σ) : Bool :=
  match h.execution with
  | none => false
  | some x => x.result?.isSome

/-- A receiver and the engine that he works in. -/
structure Desk (σ : Type) where
  engine : Engine σ
  hand : Option (Hand σ)

namespace Desk

/-- What can happen at a desk. -/
inductive Event (σ : Type) where
  | outside (o : Outside σ)
  /-- A bucket is published, for the first time or once more. -/
  | publish (b : Bucket)
  | receive
  /-- An execution of the delivery in hand begins. -/
  | start
  /-- The execution advances. -/
  | work
  | acknowledge
  | handBack

/-- The desk with another channel. -/
def withChannel (s : Desk σ) (c : Channel) : Desk σ :=
  { s with engine := { s.engine with channel := c } }

/-- The desk when a delivery was received. -/
def hold (s : Desk σ) (r : Delivery × Channel) : Desk σ :=
  { s.withChannel r.2 with hand := some ⟨r.1, none⟩ }

/-- The desk when the delivery in hand was worked on. -/
def progress (v : Delivery) (r : Execution σ × Engine σ) : Desk σ := ⟨r.2, some ⟨v, some r.1⟩⟩

/-- The desk after an event, at partition `i`; `none` when the event cannot happen.  A delivery is
let go of only while no work on it is under way. -/
def next? (setup : Setup σ) (i : Nat) (s : Desk σ) : Event σ → Option (Desk σ)
  | .outside o => (s.engine.outside? o).map fun e => { s with engine := e }
  | .publish b =>
    if s.engine.channel.partitionFor b.commandId = i then
      match s.engine.channel.offer b with
      | .ok (some c) => some (s.withChannel c)
      | _ => none
    else none
  | .receive =>
    match s.hand with
    | some _ => none
    | none => (s.engine.channel.take? i).map s.hold
  | .start =>
    match s.hand with
    | none => none
    | some h =>
      if h.rests then some (progress h.delivery (Execution.start setup h.delivery.bucket s.engine))
      else none
  | .work =>
    match s.hand with
    | some ⟨v, some x⟩ => (x.step? setup s.engine).map (progress v)
    | _ => none
  | .acknowledge =>
    match s.hand with
    | none => none
    | some h =>
      if h.isWorkedOff then some { s.withChannel s.engine.channel.acknowledge with hand := none }
      else none
  | .handBack =>
    match s.hand with
    | none => none
    | some h =>
      if h.rests then
        some { s.withChannel (s.engine.channel.handBack h.delivery) with hand := none }
      else none

/-! ## What happened -/

/-- The bucket that an event publishes. -/
def Event.published? : Event σ → Option Bucket
  | .publish b => some b
  | _ => none

/-- The command that an event accepts. -/
def Event.registered? : Event σ → Option CommandId
  | .outside o => o.registered?
  | _ => none

end Desk

/-- What two deliveries of the same bucket have in common. -/
def Bucket.key (b : Bucket) : CommandId × Nat := (b.commandId, b.sequence)

/-- The bucket that some work is for, as the transactions know it. -/
def Work.key (w : Work σ) : CommandId × Nat := (w.command.id, w.bucket.sequence)

/-- The bucket for which a transaction was just opened or the action was just called. -/
def Execution.touched? : Execution σ → Option (CommandId × Nat)
  | .opening w _ => some w.key
  | .applying w _ _ => some w.key
  | _ => none

namespace Desk

/-- The bucket for which a move opens a transaction or calls the action. -/
def touched? (m : Move (Desk σ) (Event σ)) : Option (CommandId × Nat) :=
  match m.event with
  | .start | .work => m.after.hand.bind fun h => h.execution.bind Execution.touched?
  | _ => none

/-- The work that is under way. -/
def work? (s : Desk σ) : Option (Work σ) := s.hand.bind fun h => h.execution.bind Execution.work?

/-! ## What is true whatever happens -/

/-- What is true of a desk at which these commands were accepted. -/
structure Sound (known : List CommandId) (s : Desk σ) : Prop where
  distinct : s.engine.tracker.Distinct
  listed : ∀ id p, s.engine.tracker.find? id = some p → id ∈ known
  serves : ∀ h x, s.hand = some h → h.execution = some x → x.Serves h.delivery.bucket
  active : ∀ w, s.work? = some w → w.key.1 ∈ known

variable {setup : Setup σ} {i : Nat} {s t : Desk σ} {known : List CommandId} {e f : Engine σ}

/-- What others do leaves the channel alone, and accepts at most one command. -/
theorem outside?_cases {o : Outside σ} (hd : e.tracker.Distinct) (h : e.outside? o = some f) :
    f.channel = e.channel ∧
      (o.registered? = none ∧ e.tracker.Advances f.tracker ∨
        ∃ c, o = .register c ∧ e.tracker.register e.now c = .ok f.tracker) := by
  cases o with
  | register c =>
    obtain ⟨t, ht, rfl⟩ := Option.map_eq_some_iff.1 h
    exact ⟨rfl, .inr ⟨c, rfl, System.of_toOption ht⟩⟩
  | report id r =>
    obtain ⟨t, ht, rfl⟩ := Option.map_eq_some_iff.1 h
    exact ⟨rfl, .inl ⟨rfl, Tracker.advances_answer (System.of_toOption ht)⟩⟩
  | lookUp id =>
    obtain rfl := Option.some.inj h
    exact ⟨rfl, .inl ⟨rfl, (Tracker.drops_get hd _ _).advances⟩⟩
  | purge =>
    obtain rfl := Option.some.inj h
    exact ⟨rfl, .inl ⟨rfl, (Tracker.drops_purgeExpired hd _).advances⟩⟩
  | tick now =>
    obtain rfl := Option.some.inj h
    exact ⟨rfl, .inl ⟨rfl, .refl _⟩⟩
  | world w =>
    obtain rfl := Option.some.inj h
    exact ⟨rfl, .inl ⟨rfl, .refl _⟩⟩

/-- What an event does at a desk, one way of happening after the other. -/
inductive Deed (setup : Setup σ) (i : Nat) (s : Desk σ) : Event σ → Desk σ → Prop
  | outside {o : Outside σ} {f : Engine σ} (h : s.engine.outside? o = some f) :
      Deed setup i s (.outside o) { s with engine := f }
  | publish {b : Bucket} {c : Channel} (hb : s.engine.channel.partitionFor b.commandId = i)
      (h : s.engine.channel.offer b = .ok (some c)) : Deed setup i s (.publish b) (s.withChannel c)
  | receive {v : Delivery} {c : Channel} (hhand : s.hand = none)
      (h : s.engine.channel.take? i = some (v, c)) : Deed setup i s .receive (s.hold (v, c))
  | start {h : Hand σ} (hhand : s.hand = some h) (hrests : h.rests = true) :
      Deed setup i s .start
        (progress h.delivery (Execution.start setup h.delivery.bucket s.engine))
  | work {v : Delivery} {x : Execution σ} {r : Execution σ × Engine σ}
      (hhand : s.hand = some ⟨v, some x⟩) (h : x.step? setup s.engine = some r) :
      Deed setup i s .work (progress v r)
  | acknowledge {h : Hand σ} (hhand : s.hand = some h) (hover : h.isWorkedOff = true) :
      Deed setup i s .acknowledge
        { s.withChannel s.engine.channel.acknowledge with hand := none }
  | handBack {h : Hand σ} (hhand : s.hand = some h) (hrests : h.rests = true) :
      Deed setup i s .handBack
        { s.withChannel (s.engine.channel.handBack h.delivery) with hand := none }

theorem deed_next? {event : Event σ} (h : next? setup i s event = some t) :
    Deed setup i s event t := by
  cases event with
  | outside o =>
    obtain ⟨f, hf, rfl⟩ := Option.map_eq_some_iff.1 h
    exact .outside hf
  | publish b =>
    rw [next?] at h
    split at h
    · rename_i hb
      split at h
      · rename_i c hc
        obtain rfl := Option.some.inj h
        exact .publish hb hc
      · exact absurd h (by simp)
    · exact absurd h (by simp)
  | receive =>
    rw [next?] at h
    split at h
    · exact absurd h (by simp)
    · rename_i hhand
      obtain ⟨⟨v, c⟩, hc, rfl⟩ := Option.map_eq_some_iff.1 h
      exact .receive hhand hc
  | start =>
    rw [next?] at h
    split at h
    · exact absurd h (by simp)
    · rename_i hand hhand
      split at h
      · rename_i hrests
        obtain rfl := Option.some.inj h
        exact .start hhand hrests
      · exact absurd h (by simp)
  | work =>
    rw [next?] at h
    split at h
    · rename_i v x hhand
      obtain ⟨r, hr, rfl⟩ := Option.map_eq_some_iff.1 h
      exact .work hhand hr
    · exact absurd h (by simp)
  | acknowledge =>
    rw [next?] at h
    split at h
    · exact absurd h (by simp)
    · rename_i hand hhand
      split at h
      · rename_i hover
        obtain rfl := Option.some.inj h
        exact .acknowledge hhand hover
      · exact absurd h (by simp)
  | handBack =>
    rw [next?] at h
    split at h
    · exact absurd h (by simp)
    · rename_i hand hhand
      split at h
      · rename_i hrests
        obtain rfl := Option.some.inj h
        exact .handBack hhand hrests
      · exact absurd h (by simp)

/-- What an event does to the commands: it accepts one, or it does not. -/
theorem Deed.tracker {event : Event σ} (h : Deed setup i s event t) (hs : s.Sound known) :
    event.registered? = none ∧ s.engine.tracker.Advances t.engine.tracker ∨
      ∃ c, event = .outside (.register c) ∧ t.hand = s.hand ∧
        s.engine.tracker.register s.engine.now c = .ok t.engine.tracker := by
  cases h with
  | @outside o f h =>
    obtain ⟨-, ⟨hnone, hadvances⟩ | ⟨c, rfl, hreg⟩⟩ := outside?_cases hs.distinct h
    · exact .inl ⟨hnone, hadvances⟩
    · exact .inr ⟨c, rfl, rfl, hreg⟩
  | start hhand _ => exact .inl ⟨rfl, (Execution.begins_start setup _ s.engine).evolves.tracker⟩
  | work hhand h =>
    obtain ⟨w, -, hworks⟩ := Execution.works_step? hs.distinct h
    exact .inl ⟨rfl, hworks.evolves.tracker⟩
  | publish _ _ => exact .inl ⟨rfl, .refl _⟩
  | receive _ _ => exact .inl ⟨rfl, .refl _⟩
  | acknowledge _ _ => exact .inl ⟨rfl, .refl _⟩
  | handBack _ _ => exact .inl ⟨rfl, .refl _⟩

theorem Deed.serves {event : Event σ} (h : Deed setup i s event t) (hs : s.Sound known) :
    ∀ hand x, t.hand = some hand → hand.execution = some x → x.Serves hand.delivery.bucket := by
  cases h with
  | outside h => exact hs.serves
  | publish _ _ => exact hs.serves
  | receive _ _ =>
    rintro hand x hhand hx
    obtain rfl := Option.some.inj hhand
    exact absurd hx (by simp)
  | start _ _ =>
    rintro hand x hhand hx
    obtain rfl := Option.some.inj hhand
    obtain rfl := Option.some.inj hx
    exact Execution.acts_start.serves
  | work hhand' h =>
    rintro hand x hhand hx
    obtain rfl := Option.some.inj hhand
    obtain rfl := Option.some.inj hx
    exact (Execution.acts_step? (hs.serves _ _ hhand' rfl) hs.distinct h).serves
  | acknowledge _ _ => exact fun _ _ hhand => absurd hhand (by simp)
  | handBack _ _ => exact fun _ _ hhand => absurd hhand (by simp)

theorem key_of_serves {b : Bucket} {x : Execution σ} {w : Work σ} (h : x.Serves b)
    (hw : x.work? = some w) : w.key = b.key := by
  obtain ⟨hbucket, hcommand⟩ := h w hw
  rw [Work.key, hcommand, hbucket, Bucket.key]

theorem work?_progress (v : Delivery) (r : Execution σ × Engine σ) :
    (progress v r).work? = r.1.work? := rfl

/-- Work that is under way after an event was under way before with the same bucket, or it has just
begun. -/
theorem work?_next? {event : Event σ} {w : Work σ} (hs : s.Sound known)
    (h : next? setup i s event = some t) (hw : t.work? = some w) :
    (event ≠ .start ∧ ∃ w', s.work? = some w' ∧ w'.key = w.key) ∨
      event = .start ∧ s.work? = none ∧ ∃ hand, s.hand = some hand ∧
        hand.delivery.bucket.key = w.key ∧
        (Execution.start setup hand.delivery.bucket s.engine).1.work? = some w := by
  cases deed_next? h with
  | outside h => exact .inl ⟨(by simp), w, hw, rfl⟩
  | publish _ _ => exact .inl ⟨(by simp), w, hw, rfl⟩
  | receive _ _ => exact absurd hw (by simp [work?, hold])
  | @start hand hhand hrests =>
    refine .inr ⟨rfl, ?_, hand, hhand, ?_, hw⟩
    · rw [work?, hhand, Option.bind_some]
      unfold Hand.rests at hrests
      cases hx : hand.execution with
      | none => rfl
      | some x =>
        rw [hx] at hrests
        cases x with
        | finished result => rfl
        | _ => exact absurd hrests (by simp [Execution.result?])
    · exact (key_of_serves Execution.acts_start.serves hw).symm
  | @work v x r hhand hstep =>
    obtain ⟨w', hw', hworks⟩ := Execution.works_step? hs.distinct hstep
    refine .inl ⟨(by simp), w', ?_, ?_⟩
    · rw [work?, hhand]
      exact hw'
    · obtain ⟨hcommand, hbucket⟩ := hworks.isFor w hw
      rw [Work.key, Work.key, hcommand, hbucket]
  | acknowledge _ _ => exact absurd hw (by simp [work?])
  | handBack _ _ => exact absurd hw (by simp [work?])

/-- Whatever happens, a desk stays sound; the commands that are accepted are known from then on. -/
theorem Sound.next? {event : Event σ} (hs : s.Sound known)
    (h : next? setup i s event = some t) : t.Sound (known ++ event.registered?.toList) := by
  have hdeed := deed_next? h
  refine ⟨?_, ?_, hdeed.serves hs, ?_⟩
  · obtain ⟨-, hadvances⟩ | ⟨c, -, -, hreg⟩ := hdeed.tracker hs
    · exact hadvances.distinct hs.distinct
    · exact Tracker.distinct_of_register hs.distinct hreg
  · intro id p hp
    rw [List.mem_append]
    obtain ⟨-, hadvances⟩ | ⟨c, rfl, -, hreg⟩ := hdeed.tracker hs
    · obtain ⟨q, -, hq, -⟩ := hadvances.found hp
      exact .inl (hs.listed id q hq)
    · obtain ⟨-, hfind⟩ := Tracker.register_eq_ok hreg
      rw [hfind id] at hp
      split at hp
      · rename_i hid
        right
        rw [hid]
        exact List.mem_singleton_self _
      · exact .inl (hs.listed id p hp)
  · intro w hw
    apply List.mem_append_left
    obtain ⟨-, w', hw', hkey⟩ | ⟨-, -, hand, -, hkey, hbegun⟩ := work?_next? hs h hw
    · rw [← hkey]
      exact hs.active w' hw'
    · obtain ⟨p, hfind, -⟩ := (Execution.begins_start setup _ s.engine).found hbegun
      rw [← hkey]
      exact hs.listed _ p hfind

/-! ## From the start -/

/-- A desk at which nothing has happened yet, with partition `i` among those of its channel. -/
structure IsNew (i : Nat) (s : Desk σ) : Prop where
  tracker : s.engine.tracker.commands = []
  channel : ∃ count capacity, s.engine.channel = .new count capacity
  place : i < s.engine.channel.partitions.length
  hand : s.hand = none

variable {s₀ : Desk σ} {moves : List (Move (Desk σ) (Event σ))}

theorem IsNew.sound (h : s₀.IsNew i) : s₀.Sound [] where
  distinct := by
    unfold Tracker.Distinct
    rw [h.tracker]
    exact List.nodup_nil
  listed id p hp := by
    rw [Tracker.find?, h.tracker] at hp
    exact absurd hp (by simp)
  serves hand x hhand := by
    rw [h.hand] at hhand
    exact absurd hhand (by simp)
  active w hw := by
    rw [work?, h.hand] at hw
    exact absurd hw (by simp)

theorem sound_run (hs : s.Sound known) (h : Run (next? setup i) s moves t) :
    t.Sound (known ++ yielded Event.registered? moves) := by
  induction h with
  | start =>
    rw [yielded, List.filterMap_nil, List.append_nil]
    exact hs
  | move event _ hnext ih =>
    rw [yielded_concat, ← List.append_assoc]
    exact ih.next? hnext

/-- An id that is accepted is new as long as no id is accepted twice. -/
theorem not_mem_of_nodup {known : List CommandId} {event : Event σ} {id : CommandId}
    (h : (known ++ event.registered?.toList).Nodup) (hid : event.registered? = some id) :
    id ∉ known := by
  intro hmem
  rw [hid] at h
  exact (List.nodup_append.1 h).2.2 id hmem id (List.mem_singleton_self id) rfl

end Desk

end BulkRun
