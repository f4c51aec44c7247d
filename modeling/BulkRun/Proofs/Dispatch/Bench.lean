import BulkRun.Proofs.Dispatch.ScrollSteps
import BulkRun.Proofs.Dispatch.Sound
import BulkRun.Proofs.Execution.Dues
import Mathlib.Logic.Relation
/-!
# What an event of a workshop comes to

A bench is a workshop without its schedule: the engine, the scroll loops, and all that is at hand,
be it a consumer's or somebody else's.  Every event of a workshop comes to one deal at its bench,
which leaves all that is at hand where it is (`Deals`), or to a few grips, which leave the scroll
loops where they are (`Handles`).  An event gives at most one sign of what it did (`sign?`), with
its deal or with its last grip (`turns_next?`).  Whatever happens, whoever works does so for the
bucket at hand, on batches with records (`Bench.Sound.turns`).
-/

namespace BulkRun

open Relation (ReflTransGen)

variable {σ : Type}

/-- What can be told about an event. -/
inductive Sign (σ : Type) where
  /-- The scroller of a command has answered. -/
  | heard (id : CommandId) (answer : Except Error Chunk)
  | published (b : Bucket)
  /-- A transaction was asked for, to work on a batch. -/
  | opened (w : Work σ)
  /-- A command was cancelled, which had ended before unless that is new. -/
  | aborted (id : CommandId) (isNew : Bool)
  /-- A delivery was handed back in the middle of the work on it. -/
  | brokenOff
  /-- The receiver of a partition has gone. -/
  | closed (partition : Nat)

/-- The engine, the scroll loops, and all that is at hand. -/
structure Bench (σ : Type) where
  engine : Engine σ
  loops : List (ScrollLoop σ)
  hands : Multiset (Hand σ)

/-! ## Signs -/

/-- What a consumer holds. -/
def Consumer.hand? (c : Consumer σ) : Option (Hand σ) :=
  match c.phase with
  | .executing v x => some ⟨v, some x⟩
  | _ => none

/-- The sign of work for which a transaction was just asked. -/
def Execution.sign? (x : Execution σ) : Option (Sign σ) := x.opened?.map .opened

/-- The sign of what was just done with a held delivery. -/
def Hand.sign? (h : Hand σ) : Option (Sign σ) := h.execution.bind Execution.sign?

/-- The sign that the next step of a loop gives. -/
def ScrollLoop.sign? (l : ScrollLoop σ) (e : Engine σ) : Option (Sign σ) :=
  match l.answer? e with
  | some answer => some (.heard l.id answer)
  | none => (l.publishes? e).map .published

/-- A loop tells what its scroller has answered, or what it publishes. -/
theorem ScrollLoop.sign?_eq_some {l : ScrollLoop σ} {e : Engine σ} {sign : Sign σ}
    (h : l.sign? e = some sign) :
    (∃ answer, l.answer? e = some answer ∧ sign = .heard l.id answer) ∨
      ∃ b, l.publishes? e = some b ∧ sign = .published b := by
  unfold sign? at h
  split at h
  · rename_i answer hanswer
    exact .inl ⟨answer, hanswer, (Option.some.inj h).symm⟩
  · obtain ⟨b, hb, rfl⟩ := Option.map_eq_some_iff.1 h
    exact .inr ⟨b, hb, rfl⟩

namespace Workshop

/-- What can be told about an event of a workshop. -/
def sign? (m : Move (Workshop σ) (Event σ)) : Option (Sign σ) :=
  match m.event with
  | .system (.step (.scroll key)) =>
    (m.before.system.loop? key).bind fun l => l.sign? m.before.system.engine
  | .system (.step (.consume i)) =>
    (m.after.system.consumers[i]?.bind Consumer.hand?).bind Hand.sign?
  | .system (.abort id message) =>
    match m.before.system.engine.tracker.abortWith m.before.system.engine.now id message with
    | .ok (isNew, _) => some (.aborted id isNew)
    | .error _ => none
  | .start k => m.after.hands[k]?.bind Hand.sign?
  | .work k => m.after.hands[k]?.bind Hand.sign?
  | .handBack k => m.before.hands[k]?.bind fun h => if h.rests then none else some .brokenOff
  | .close i => some (.closed i)
  | _ => none

/-- The bench of a workshop. -/
def bench (s : Workshop σ) : Bench σ :=
  ⟨s.system.engine, s.system.loops, s.system.consumers.filterMap Consumer.hand? + s.hands⟩

end Workshop

namespace Bench

/-- What is at hand if somebody may hold something more. -/
def holding (h : Option (Hand σ)) (rest : Multiset (Hand σ)) : Multiset (Hand σ) :=
  match h with
  | none => rest
  | some h => h ::ₘ rest

theorem holding_eq_add (h : Option (Hand σ)) (rest : Multiset (Hand σ)) :
    holding h rest = h.toList + rest := by
  cases h with
  | none => exact (Multiset.zero_add rest).symm
  | some h => exact (Multiset.singleton_add h rest).symm

/-! ## Deals and grips -/

/-- What may happen to all that is at hand. -/
inductive Handles (setup : Setup σ) : Bench σ → Option (Sign σ) → Bench σ → Prop
  | receive {e : Engine σ} {ls : List (ScrollLoop σ)} {hs : Multiset (Hand σ)} {i : Nat}
      {v : Delivery} {d : Channel}
      (h : e.channel.unstash? i = some (v, d) ∨ e.channel.dequeue? i = some (v, d)) :
      Handles setup ⟨e, ls, hs⟩ none ⟨{ e with channel := d }, ls, ⟨v, none⟩ ::ₘ hs⟩
  | start {e : Engine σ} {ls : List (ScrollLoop σ)} {hs : Multiset (Hand σ)} {v : Delivery}
      {r : Execution σ × Engine σ} (h : Execution.start setup v.bucket e = r) :
      Handles setup ⟨e, ls, ⟨v, none⟩ ::ₘ hs⟩ r.1.sign? ⟨r.2, ls, ⟨v, some r.1⟩ ::ₘ hs⟩
  | work {e : Engine σ} {ls : List (ScrollLoop σ)} {hs : Multiset (Hand σ)} {v : Delivery}
      {x : Execution σ} {r : Execution σ × Engine σ} (h : x.step? setup e = some r) :
      Handles setup ⟨e, ls, ⟨v, some x⟩ ::ₘ hs⟩ r.1.sign? ⟨r.2, ls, ⟨v, some r.1⟩ ::ₘ hs⟩
  | acknowledge {e : Engine σ} {ls : List (ScrollLoop σ)} {hs : Multiset (Hand σ)} {v : Delivery}
      (result : Except Error BucketOutcome) :
      Handles setup ⟨e, ls, ⟨v, some (.finished result)⟩ ::ₘ hs⟩ none
        ⟨{ e with channel := e.channel.acknowledge }, ls, hs⟩
  | handBack {e : Engine σ} {ls : List (ScrollLoop σ)} {hs : Multiset (Hand σ)} (h : Hand σ) :
      Handles setup ⟨e, ls, h ::ₘ hs⟩ (if h.rests then none else some .brokenOff)
        ⟨{ e with channel := e.channel.handBack h.delivery }, ls, hs⟩

/-- What else may happen, with all that is at hand left alone. -/
inductive Deals (setup : Setup σ) (b : Bench σ) : Option (Sign σ) → Bench σ → Prop
  | resume {l : ScrollLoop σ} (hl : l ∈ b.loops) (hopen : l.isEnded = false) :
      Deals setup b (l.sign? b.engine)
        ⟨(l.resume b.engine).2, View.setLoop b.loops (l.resume b.engine).1, b.hands⟩
  | putOff {l : ScrollLoop σ} {r : ScrollLoop σ × Engine σ} (hl : l ∈ b.loops)
      (h : l.putOff? b.engine = some r) :
      Deals setup b none ⟨r.2, View.setLoop b.loops r.1, b.hands⟩
  | accept {c c' : Command} {x : Numbered (Scroller σ)} {u : Tracker}
      (hprepare : setup.prepare c = .ok (c', x))
      (hreg : b.engine.tracker.register b.engine.now c' = .ok u) :
      Deals setup b none
        ⟨{ b.engine with tracker := u, channel := b.engine.channel.addPublisher },
          b.loops ++ [⟨b.loops.length, c', x.item, setup.dispatcher.fetchSize c', .created⟩],
            b.hands⟩
  | abort {id : CommandId} {message : Option String} {isNew : Bool} {u : Tracker}
      (h : b.engine.tracker.abortWith b.engine.now id message = .ok (isNew, u)) :
      Deals setup b (some (.aborted id isNew)) ⟨{ b.engine with tracker := u }, b.loops, b.hands⟩
  | drop {u : Tracker} (h : b.engine.tracker.Drops u) :
      Deals setup b none ⟨{ b.engine with tracker := u }, b.loops, b.hands⟩
  | release : Deals setup b none
      ⟨{ b.engine with channel := b.engine.channel.dropPublisher }, b.loops, b.hands⟩
  | close {i : Nat} (hempty : ∀ p, b.engine.channel.partitions[i]? = some p → p.buckets = []) :
      Deals setup b (some (.closed i))
        ⟨{ b.engine with channel := b.engine.channel.close i }, b.loops, b.hands⟩
  | drift (now : Timestamp) (world : σ) :
      Deals setup b none ⟨{ b.engine with now := now, world := world }, b.loops, b.hands⟩

/-- What one event comes to: a deal, or a few grips of which only the last gives a sign. -/
def Turns (setup : Setup σ) (b : Bench σ) (sign : Option (Sign σ)) (c : Bench σ) : Prop :=
  Deals setup b sign c ∨
    ∃ mid, ReflTransGen (Handles setup · none ·) b mid ∧ Handles setup mid sign c

/-- Grips leave the scroll loops alone. -/
theorem Handles.loops {setup : Setup σ} {b c : Bench σ} {sign : Option (Sign σ)}
    (h : Handles setup b sign c) : c.loops = b.loops := by
  cases h <;> rfl

theorem loops_of_chain {setup : Setup σ} {b c : Bench σ}
    (h : ReflTransGen (Handles setup · none ·) b c) : c.loops = b.loops := by
  induction h with
  | refl => rfl
  | tail _ hgrip ih => rw [hgrip.loops, ih]

/-! ## What is true whatever happens -/

section Sound

variable {setup : Setup σ} {b c : Bench σ} {sign : Option (Sign σ)}

/-- A grip advances what the tracker knows. -/
theorem Handles.advances (h : Handles setup b sign c) (hd : b.engine.tracker.Distinct) :
    b.engine.tracker.Advances c.engine.tracker := by
  cases h with
  | receive | acknowledge | handBack => exact .refl _
  | @start e ls hs v r h =>
    subst h
    exact (Execution.begins_start setup v.bucket e).evolves.tracker
  | work h =>
    obtain ⟨w, -, hworks⟩ := Execution.works_step? hd h
    exact hworks.evolves.tracker

/-- An event advances what the tracker knows, or a command is accepted. -/
theorem Turns.advances (h : Turns setup b sign c) (hd : b.engine.tracker.Distinct) :
    b.engine.tracker.Advances c.engine.tracker ∨
      ∃ now l, b.engine.tracker.register now l.command = .ok c.engine.tracker ∧
        c.loops = b.loops ++ [l] := by
  obtain hdeal | ⟨mid, hchain, hgrip⟩ := h
  · cases hdeal with
    | resume hl hopen => exact .inl (ScrollLoop.resumes_resume hopen).addresses.advances
    | putOff hl hr =>
      left
      obtain rfl | ⟨k, after, d, -, -, rfl⟩ := ScrollLoop.putOff?_eq_some hr <;> exact .refl _
    | accept hprepare hreg => exact .inr ⟨_, _, hreg, rfl⟩
    | abort h =>
      obtain ⟨r, p, -, ht⟩ := Tracker.heeds_abortWith h
      exact .inl ht.advances
    | drop h => exact .inl h.advances
    | _ => exact .inl (.refl _)
  · left
    have hmid : b.engine.tracker.Advances mid.engine.tracker := by
      clear hgrip
      induction hchain with
      | refl => exact .refl _
      | tail _ hgrip ih => exact ih.trans (hgrip.advances (ih.distinct hd))
    exact hmid.trans (hgrip.advances (hmid.distinct hd))

theorem Turns.distinct (h : Turns setup b sign c) (hd : b.engine.tracker.Distinct) :
    c.engine.tracker.Distinct := by
  obtain hadvances | ⟨now, l, hreg, -⟩ := h.advances hd
  · exact hadvances.distinct hd
  · exact Tracker.distinct_of_register hd hreg

/-- Whether commands have numbers of their own, and whoever works does so for the bucket at hand, on
batches with records. -/
structure Sound (b : Bench σ) : Prop where
  distinct : b.engine.tracker.Distinct
  serves : ∀ h ∈ b.hands, ∀ x, h.execution = some x → x.Serves h.delivery.bucket
  solid : ∀ h ∈ b.hands, ∀ x, h.execution = some x → x.IsSolid

/-- Somebody begins to work, or goes on with it. -/
theorem Sound.progress {e : Engine σ} {ls : List (ScrollLoop σ)} {hs : Multiset (Hand σ)}
    {h : Hand σ} {r : Execution σ × Engine σ} (hb : Sound ⟨e, ls, h ::ₘ hs⟩)
    (hdistinct : r.2.tracker.Distinct) (hserves : r.1.Serves h.delivery.bucket)
    (hsolid : r.1.IsSolid) : Sound ⟨r.2, ls, ⟨h.delivery, some r.1⟩ ::ₘ hs⟩ where
  distinct := hdistinct
  serves := by
    refine Multiset.forall_mem_cons.2 ⟨fun x hx => ?_, (Multiset.forall_mem_cons.1 hb.serves).2⟩
    rw [← Option.some.inj hx]
    exact hserves
  solid := by
    refine Multiset.forall_mem_cons.2 ⟨fun x hx => ?_, (Multiset.forall_mem_cons.1 hb.solid).2⟩
    rw [← Option.some.inj hx]
    exact hsolid

theorem Sound.handles (hb : b.Sound) (hgrip : Handles setup b sign c) : c.Sound := by
  have hdistinct := (hgrip.advances hb.distinct).distinct hb.distinct
  cases hgrip with
  | receive =>
    exact ⟨hdistinct, Multiset.forall_mem_cons.2 ⟨fun x hx => absurd hx (by simp), hb.serves⟩,
      Multiset.forall_mem_cons.2 ⟨fun x hx => absurd hx (by simp), hb.solid⟩⟩
  | @start e ls hs v r h =>
    subst h
    exact hb.progress hdistinct Execution.acts_start.serves
      (Execution.begins_start setup v.bucket e).isSolid
  | @work e ls hs v x r h =>
    obtain ⟨w, hw, hworks⟩ := Execution.works_step? hb.distinct h
    have hserves := (Multiset.forall_mem_cons.1 hb.serves).1 x rfl
    have hsolid := (Multiset.forall_mem_cons.1 hb.solid).1 x rfl w hw
    exact hb.progress hdistinct (Execution.acts_step? hserves hb.distinct h).serves
      (hworks.isSolid hsolid)
  | acknowledge | handBack =>
    exact ⟨hdistinct, (Multiset.forall_mem_cons.1 hb.serves).2,
      (Multiset.forall_mem_cons.1 hb.solid).2⟩

theorem Sound.handles_chain (hb : b.Sound) (hchain : ReflTransGen (Handles setup · none ·) b c) :
    c.Sound := by
  induction hchain with
  | refl => exact hb
  | tail _ hgrip ih => exact ih.handles hgrip

theorem Sound.deals (hb : b.Sound) (hdeal : Deals setup b sign c) : c.Sound := by
  have hdistinct := Turns.distinct (.inl hdeal) hb.distinct
  cases hdeal <;> exact ⟨hdistinct, hb.serves, hb.solid⟩

/-- A bench stays sound, whatever happens. -/
theorem Sound.turns (hb : b.Sound) (hturns : Turns setup b sign c) : c.Sound := by
  obtain hdeal | ⟨mid, hchain, hgrip⟩ := hturns
  · exact hb.deals hdeal
  · exact (hb.handles_chain hchain).handles hgrip

end Sound

/-! ## Commands -/

/-- The commands that were accepted, in order. -/
def commands (b : Bench σ) : List Command := b.loops.map (·.command)

theorem filter_commands (b : Bench σ) (id : CommandId) :
    b.commands.filter (·.id == id) = (b.loops.filter (·.id == id)).map (·.command) :=
  List.filter_map

/-- Commands are accepted when they were prepared, and never forgotten. -/
theorem commands_turns {setup : Setup σ} {b c : Bench σ} {sign : Option (Sign σ)}
    (hkeys : (b.loops.map (·.key)).Nodup) (hturns : Turns setup b sign c) :
    ∃ new, c.commands = b.commands ++ new ∧
      ∀ k ∈ new, ∃ k₀ x, setup.prepare k₀ = .ok (k, x) := by
  have hstill (h : c.commands = b.commands) : ∃ new, c.commands = b.commands ++ new ∧
      ∀ k ∈ new, ∃ k₀ x, setup.prepare k₀ = .ok (k, x) := ⟨[], by simpa using h, by simp⟩
  obtain hdeal | ⟨mid, hchain, hgrip⟩ := hturns
  · cases hdeal with
    | @resume l hl hopen =>
      obtain ⟨phase, hloop⟩ := (ScrollLoop.resumes_resume (e := b.engine) hopen).loop
      exact hstill (View.command_setLoop hkeys hl (by rw [hloop]) (by rw [hloop]))
    | putOff hl hr =>
      obtain rfl | ⟨k, after, d, -, -, rfl⟩ := ScrollLoop.putOff?_eq_some hr
      · exact hstill (View.command_setLoop hkeys hl rfl rfl)
      · exact hstill (View.command_setLoop hkeys hl rfl rfl)
    | @accept k₀ k x u hprepare hreg =>
      exact ⟨[k], by rw [commands, List.map_append]; rfl, by simpa using ⟨k₀, x, hprepare⟩⟩
    | _ => exact hstill rfl
  · exact hstill (by rw [commands, hgrip.loops, loops_of_chain hchain, commands])

/-- Scroll loops are added, but never taken away. -/
theorem length_loops_le {setup : Setup σ} {b c : Bench σ} {sign : Option (Sign σ)} {id : CommandId}
    (hkeys : (b.loops.map (·.key)).Nodup) (hturns : Turns setup b sign c) :
    (b.loops.filter (·.id == id)).length ≤ (c.loops.filter (·.id == id)).length := by
  obtain ⟨new, hnew, -⟩ := commands_turns hkeys hturns
  have hlength (b : Bench σ) :
      (b.loops.filter (·.id == id)).length = (b.commands.filter (·.id == id)).length := by
    rw [filter_commands, List.length_map]
  rw [hlength, hlength, hnew, List.filter_append, List.length_append]
  exact Nat.le_add_right _ _

/-- A command without a scroll loop is not known, if that was so before. -/
theorem Turns.unseen {setup : Setup σ} {b c : Bench σ} {sign : Option (Sign σ)} {id : CommandId}
    (h : Turns setup b sign c) (hkeys : (b.loops.map (·.key)).Nodup)
    (hd : b.engine.tracker.Distinct)
    (hb : b.loops.filter (·.id == id) = [] → b.engine.tracker.find? id = none)
    (hunseen : c.loops.filter (·.id == id) = []) : c.engine.tracker.find? id = none := by
  have hle : (b.loops.filter (·.id == id)).length ≤ (c.loops.filter (·.id == id)).length :=
    length_loops_le hkeys h
  rw [hunseen, List.length_nil, Nat.le_zero, List.length_eq_zero_iff] at hle
  obtain hadvances | ⟨now, l, hreg, hloops⟩ := h.advances hd
  · exact hadvances.find?_none (hb hle)
  · have hne : id ≠ l.command.id := by
      rintro rfl
      rw [hloops, List.filter_append, List.append_eq_nil_iff] at hunseen
      exact List.filter_eq_nil_iff.1 hunseen.2 l List.mem_cons_self (beq_self_eq_true l.command.id)
    rw [(Tracker.register_eq_ok hreg).2 id, if_neg hne]
    exact hb hle

end Bench

/-! ## Steps of consumers -/

namespace Consumer

variable {setup : Setup σ} {e : Engine σ} {c : Consumer σ} {ls : List (ScrollLoop σ)}
  {rest : Multiset (Hand σ)}

/-- What a consumer has come to after a few grips, of which only the last gives a sign. -/
def Handles (setup : Setup σ) (b : Bench σ) (ls : List (ScrollLoop σ)) (rest : Multiset (Hand σ))
    (r : Consumer σ × Engine σ) : Prop :=
  ∃ mid, ReflTransGen (Bench.Handles setup · none ·) b mid ∧
    Bench.Handles setup mid (r.1.hand?.bind Hand.sign?) ⟨r.2, ls, Bench.holding r.1.hand? rest⟩

/-- A consumer acknowledges a bucket as soon as the work on it is over. -/
theorem handles_settle {b : Bench σ} {v : Delivery} {x : Execution σ}
    (h : Bench.Handles setup b x.sign? ⟨e, ls, ⟨v, some x⟩ ::ₘ rest⟩) :
    Handles setup b ls rest (c.settle v x e) := by
  cases x with
  | finished result => exact ⟨_, .single h, .acknowledge result⟩
  | _ => exact ⟨b, .refl, h⟩

theorem handles_receive {i : Nat} {v : Delivery} {d : Channel}
    (h : e.channel.unstash? i = some (v, d) ∨ e.channel.dequeue? i = some (v, d)) :
    Handles setup ⟨e, ls, rest⟩ ls rest (c.begin setup v { e with channel := d }) := by
  have hstart : Handles setup ⟨{ e with channel := d }, ls, ⟨v, none⟩ ::ₘ rest⟩ ls rest
      (c.begin setup v { e with channel := d }) := handles_settle (.start rfl)
  obtain ⟨mid, hchain, hlast⟩ := hstart
  exact ⟨mid, .head (.receive h) hchain, hlast⟩

/-- A step of a consumer that changes nothing at its bench, or a few grips. -/
theorem handles_step? {r : Consumer σ × Engine σ} (h : c.step? setup e = some r)
    (ls : List (ScrollLoop σ)) (rest : Multiset (Hand σ)) :
    r.1.hand? = none ∧ c.hand? = none ∧ r.2 = e ∨
      Handles setup ⟨e, ls, Bench.holding c.hand? rest⟩ ls rest r := by
  cases steps_of_step? h with
  | unstash hphase hv =>
    rw [show c.hand? = none by rw [hand?, hphase]]
    exact .inr (handles_receive (.inl hv))
  | dequeue hphase hv =>
    rw [show c.hand? = none by rw [hand?, hphase]]
    exact .inr (handles_receive (.inr hv))
  | suspend hphase | stop hphase => exact .inl ⟨rfl, by rw [hand?, hphase], rfl⟩
  | @work v x y f hphase hwork =>
    rw [show c.hand? = some ⟨v, some x⟩ by rw [hand?, hphase]]
    exact .inr (handles_settle (.work hwork))

end Consumer

namespace Workshop

variable {setup : Setup σ} {s t : Workshop σ}

/-! ## Events -/

/-- The bench when one consumer holds something else. -/
theorem exists_bench_consumer {i : Nat} {c : Consumer σ} (h : s.system.consumers[i]? = some c) :
    ∃ rest : Multiset (Hand σ),
      s.bench = ⟨s.system.engine, s.system.loops, Bench.holding c.hand? rest⟩ ∧
      ∀ (e : Engine σ) (c' : Consumer σ),
        bench { s with
          system := { s.system with engine := e, consumers := s.system.consumers.set i c' } } =
          ⟨e, s.system.loops, Bench.holding c'.hand? rest⟩ := by
  obtain ⟨rest, hbefore, -, hafter⟩ := exists_filterMap_set Consumer.hand? h
  have hhands {cs : List (Consumer σ)} {h : Option (Hand σ)}
      (hperm : (cs.filterMap Consumer.hand?).Perm (h.toList ++ rest)) :
      (cs.filterMap Consumer.hand? : Multiset (Hand σ)) + s.hands =
        Bench.holding h (rest + s.hands) := by
    rw [Multiset.coe_eq_coe.2 hperm, ← Multiset.coe_add, Multiset.add_assoc, Bench.holding_eq_add]
  refine ⟨rest + s.hands, ?_, fun e c' => ?_⟩
  · exact congrArg _ (hhands hbefore)
  · exact congrArg _ (hhands (hafter c'))

/-- The bench when somebody else holds something else, or nothing any more. -/
theorem exists_bench_hand {k : Nat} {h : Hand σ} (hk : s.hands[k]? = some h) :
    ∃ rest : Multiset (Hand σ), s.bench = ⟨s.system.engine, s.system.loops, h ::ₘ rest⟩ ∧
      (∀ e : Engine σ, bench { s.withEngine e with hands := s.hands.eraseIdx k } =
        ⟨e, s.system.loops, rest⟩) ∧
      ∀ (e : Engine σ) (h' : Hand σ), bench { s.withEngine e with hands := s.hands.set k h' } =
        ⟨e, s.system.loops, h' ::ₘ rest⟩ := by
  obtain ⟨rest, hbefore, herase, hafter⟩ := exists_filterMap_set some hk
  simp only [List.filterMap_some] at hbefore herase hafter
  have hhands {hands : List (Hand σ)} {h' : Hand σ} (hperm : hands.Perm (h' :: rest)) :
      (s.system.consumers.filterMap Consumer.hand? : Multiset (Hand σ)) + hands =
        h' ::ₘ (s.system.consumers.filterMap Consumer.hand? + rest) := by
    rw [Multiset.coe_eq_coe.2 hperm, ← Multiset.cons_coe, Multiset.add_cons]
  refine ⟨s.system.consumers.filterMap Consumer.hand? + rest, ?_, fun e => ?_, fun e h' => ?_⟩
  · exact congrArg _ (hhands hbefore)
  · exact congrArg _ (congrArg _ (Multiset.coe_eq_coe.2 herase))
  · exact congrArg _ (hhands (hafter h'))

theorem turns_stepTask? {u : System σ} {task : Task}
    (hnext : s.system.stepTask? setup task = some u) :
    Bench.Turns setup s.bench (sign? ⟨s, .system (.step task), { s with system := u }⟩)
      (bench { s with system := u }) := by
  cases task with
  | scroll key =>
    obtain ⟨l, hl, hkey, hopen, -, rfl⟩ := System.stepTask?_scroll hnext
    rw [show sign? ⟨s, .system (.step (.scroll key)), _⟩ = l.sign? s.system.engine by
      simp only [sign?, hkey, Option.bind_some]]
    exact .inl (.resume hl hopen)
  | consume i =>
    obtain ⟨c, r, hc, hr, rfl⟩ := System.stepTask?_consume hnext
    obtain ⟨rest, hbefore, hafter⟩ := exists_bench_consumer hc
    have hi : i < s.system.consumers.length := (List.getElem?_eq_some_iff.1 hc).1
    rw [show sign? ⟨s, .system (.step (.consume i)), _⟩ = r.1.hand?.bind Hand.sign? by
      simp only [sign?, List.getElem?_set_self hi, Option.bind_some], hafter r.2 r.1, hbefore]
    obtain ⟨hnone, hnone', hsame⟩ | hhandles :=
      Consumer.handles_step? hr s.system.loops rest
    · rw [hnone, hnone', hsame]
      exact .inl (.drift s.system.engine.now s.system.engine.world)
    · exact .inr hhandles
  | watch i =>
    obtain ⟨w, -, rfl⟩ := Option.map_eq_some_iff.1 hnext
    exact .inl (.drift s.system.engine.now s.system.engine.world)

theorem turns_system {u : System σ} {event : System.Event} (hd : s.system.engine.tracker.Distinct)
    (hnext : s.system.next? setup event = some u) :
    Bench.Turns setup s.bench (sign? ⟨s, .system event, { s with system := u }⟩)
      (bench { s with system := u }) := by
  have hstill : Bench.Turns setup s.bench none s.bench :=
    .inl (.drift s.system.engine.now s.system.engine.world)
  cases event with
  | submit c =>
    obtain ⟨-, r, hr⟩ := System.next?_submit hnext
    obtain ⟨c', x, u, hprepare, hreg, -, rfl⟩ := System.submit_eq_ok hr
    exact .inl (.accept hprepare hreg)
  | step task => exact turns_stepTask? hnext
  | putOff task =>
    obtain rfl | ⟨l, hl, r, hr, rfl⟩ := System.putOff?_eq_some hnext
    · exact hstill
    · exact .inl (.putOff hl hr)
  | abort k message =>
    obtain ⟨new, v, hv, rfl⟩ := System.next?_abort hnext
    rw [show sign? ⟨s, .system (.abort k message), _⟩ = some (.aborted k new) by
      simp only [sign?, hv]]
    exact .inl (.abort hv)
  | lookUp k =>
    obtain rfl := Option.some.inj hnext
    exact .inl (.drop (Tracker.drops_get hd _ _))
  | purge =>
    obtain rfl := Option.some.inj hnext
    exact .inl (.drop (Tracker.drops_purgeExpired hd _))
  | tick now =>
    obtain rfl := Option.some.inj hnext
    exact .inl (.drift now s.system.engine.world)
  | await k =>
    obtain rfl := Option.some.inj hnext
    exact hstill
  | release =>
    obtain ⟨-, rfl⟩ := System.next?_release hnext
    exact .inl .release
  | schedule queue yielded allowance =>
    obtain rfl := Option.some.inj hnext
    exact hstill

/-- The bench when somebody has received. -/
theorem bench_hold (v : Delivery) (d : Channel) :
    (s.hold (v, d)).bench = ⟨{ s.system.engine with channel := d }, s.system.loops,
      ⟨v, none⟩ ::ₘ s.bench.hands⟩ := by
  have hperm (h : Hand σ) : (s.hands ++ [h]).Perm (h :: s.hands) := List.perm_append_singleton h _
  have hhands (h : Hand σ) : (s.system.consumers.filterMap Consumer.hand? : Multiset (Hand σ)) +
      (s.hands ++ [h] : List (Hand σ)) = h ::ₘ s.bench.hands := by
    rw [Multiset.coe_eq_coe.2 (hperm h), ← Multiset.cons_coe, Multiset.add_cons]
    rfl
  exact congrArg _ (hhands ⟨v, none⟩)

/-- Somebody works on what he holds. -/
theorem turns_progress {k : Nat} {h : Hand σ} {v : Delivery} {r : Execution σ × Engine σ}
    (hk : s.hands[k]? = some h)
    (hgrip : ∀ rest, Bench.Handles setup ⟨s.system.engine, s.system.loops, h ::ₘ rest⟩ r.1.sign?
      ⟨r.2, s.system.loops, ⟨v, some r.1⟩ ::ₘ rest⟩) :
    Bench.Turns setup s.bench ((s.progress k v r).hands[k]?.bind Hand.sign?)
      (s.progress k v r).bench := by
  have hlt : k < s.hands.length := (List.getElem?_eq_some_iff.1 hk).1
  have hsign : (s.progress k v r).hands[k]?.bind Hand.sign? = r.1.sign? := by
    rw [progress, List.getElem?_set_self hlt]
    rfl
  obtain ⟨rest, hbefore, -, hafter⟩ := exists_bench_hand hk
  rw [hsign, hbefore, progress, hafter]
  exact .inr ⟨_, .refl, hgrip rest⟩

/-- Every event of a workshop comes to a deal at its bench, or to a few grips. -/
theorem turns_next? {event : Event σ} (hd : s.system.engine.tracker.Distinct)
    (hnext : s.next? setup event = some t) :
    Bench.Turns setup s.bench (sign? ⟨s, event, t⟩) t.bench := by
  have hgrip {sign : Option (Sign σ)} {c : Bench σ} (h : Bench.Handles setup s.bench sign c) :
      Bench.Turns setup s.bench sign c := .inr ⟨s.bench, .refl, h⟩
  cases event with
  | system event =>
    obtain ⟨u, hu, rfl⟩ := Option.map_eq_some_iff.1 hnext
    exact turns_system hd hu
  | unstash i =>
    obtain ⟨⟨v, d⟩, hv, rfl⟩ := Option.map_eq_some_iff.1 hnext
    rw [bench_hold]
    exact hgrip (.receive (.inl hv))
  | dequeue i =>
    obtain ⟨⟨v, d⟩, hv, rfl⟩ := Option.map_eq_some_iff.1 hnext
    rw [bench_hold]
    exact hgrip (.receive (.inr hv))
  | start k =>
    obtain ⟨v, hk, rfl⟩ := next?_start hnext
    exact turns_progress hk fun rest => .start rfl
  | work k =>
    obtain ⟨v, x, r, hk, hr, rfl⟩ := next?_work hnext
    exact turns_progress hk fun rest => .work hr
  | acknowledge k =>
    obtain ⟨v, result, hk, rfl⟩ := next?_acknowledge hnext
    obtain ⟨rest, hbefore, hafter, -⟩ := exists_bench_hand hk
    rw [withChannel, hafter, hbefore]
    exact .inr ⟨_, .refl, .acknowledge result⟩
  | handBack k =>
    obtain ⟨hand, hk, rfl⟩ := Option.map_eq_some_iff.1 hnext
    obtain ⟨rest, hbefore, hafter, -⟩ := exists_bench_hand hk
    rw [show sign? ⟨s, .handBack k, _⟩ = if hand.rests then none else some .brokenOff by
      simp only [sign?, hk, Option.bind_some], withChannel, hafter, hbefore]
    exact .inr ⟨_, .refl, .handBack hand⟩
  | close i =>
    obtain ⟨hempty, rfl⟩ := next?_close hnext
    exact .inl (.close hempty)
  | world w =>
    obtain rfl := Option.some.inj hnext
    exact .inl (.drift s.system.engine.now w)

/-! ## Runs -/

/-- Whatever happens in a workshop, its system stays sound. -/
theorem sound_next? {event : Event σ} (h : s.system.Sound) (hnext : s.next? setup event = some t) :
    t.system.Sound := by
  obtain ⟨u, rfl⟩ | hsystem := system_next? hnext
  · obtain ⟨v, hv, rfl⟩ := Option.map_eq_some_iff.1 hnext
    exact h.next? hv
  · have hdistinct : t.system.engine.tracker.Distinct :=
      (turns_next? h.distinct hnext).distinct h.distinct
    rw [hsystem]
    exact { h with distinct := hdistinct }

variable {moves : List (Move (Workshop σ) (Event σ))}

theorem sound_of_run (hrun : Run (next? setup) s moves t) (h : s.system.Sound) : t.system.Sound :=
  hrun.always h fun _ _ _ hnext h => sound_next? h hnext

/-- Scroll loops are added, but never taken away. -/
theorem length_loops_of_run (hrun : Run (next? setup) s moves t) (h : s.system.Sound)
    (id : CommandId) : (s.system.loops.filter (·.id == id)).length ≤
      (t.system.loops.filter (·.id == id)).length := by
  induction hrun with
  | start => exact Nat.le_refl _
  | move event hrun hnext ih =>
    have hu := sound_of_run hrun h
    exact ih.trans (Bench.length_loops_le hu.nodup (turns_next? hu.distinct hnext))

end Workshop

end BulkRun
