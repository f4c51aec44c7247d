import BulkRun.Proofs.Run
import BulkRun.Proofs.Status.Moves
/-!
# Lifecycles and events

A tracker takes operations of every kind, about any number of commands.  An operation that fails
leaves it as it was.  What an operation does to a command that is there before and after it is told
by the events that are published meanwhile (`operate_cases`).  Main statement: as long as a command
is kept, the events published for it since it was accepted are its lifecycle, and of all aborts of
it one at most is told that it ended the command.
-/

namespace BulkRun

open CommandState (Leads)

/-- The states that some events tell of a command, in order. -/
def statesOf (id : CommandId) (events : List StatusEvent) : List CommandState :=
  (events.filter (·.commandId == id)).map (·.state)

theorem statesOf_append (id : CommandId) (earlier later : List StatusEvent) :
    statesOf id (earlier ++ later) = statesOf id earlier ++ statesOf id later := by
  rw [statesOf, List.filter_append, List.map_append]
  rfl

theorem statesOf_self (now : Timestamp) (id : CommandId) (states : List CommandState) :
    statesOf id (states.map (⟨id, ·, now⟩)) = states := by
  simp [statesOf, List.filter_map, Function.comp_def]

theorem statesOf_other {id k : CommandId} (h : k ≠ id) (now : Timestamp)
    (states : List CommandState) : statesOf id (states.map (⟨k, ·, now⟩)) = [] := by
  simp [statesOf, List.filter_map, Function.comp_def, h]

namespace Tracker

variable {t u s : Tracker} {now : Timestamp} {id : CommandId} {p q : Progress} {r : Report}

/-! ## What is published -/

theorem events_publish (t : Tracker) (now : Timestamp) (id : CommandId)
    (states : List CommandState) :
    (t.publish now id states).log.events = t.log.events ++ states.map (⟨id, ·, now⟩) := by
  unfold publish
  dsimp only
  generalize t.log = log
  induction states generalizing log with
  | nil => exact (List.append_nil _).symm
  | cons s states ih =>
    rw [List.foldl_cons, ih, EventLog.publish, List.append_assoc]
    rfl

theorem events_register {c : Command} (h : t.register now c = .ok u) :
    u.log.events = t.log.events ++ [.scheduled].map (⟨c.id, ·, now⟩) := by
  obtain ⟨hnew, -⟩ := register_eq_ok h
  rw [register, hnew] at h
  rw [← Except.ok.inj h]
  exact events_publish _ now c.id [.scheduled]

theorem events_change {f : Progress → Progress × List CommandState} (hp : t.find? id = some p)
    (h : t.change now id f = .ok u) :
    u.log.events = t.log.events ++ (f p).2.map (⟨id, ·, now⟩) := by
  rw [change, progress_eq_ok.2 hp] at h
  rw [← Except.ok.inj h]
  exact events_publish _ now id _

theorem events_abortWith {message : Option String} {isNew : Bool} (hp : t.find? id = some p)
    (h : t.abortWith now id message = .ok (isNew, u)) :
    u.log.events = t.log.events ++
      (if (p.abort? now message).isSome then [.aborted] else []).map (⟨id, ·, now⟩) := by
  rw [abortWith, progress_eq_ok.2 hp] at h
  cases hq : p.abort? now message with
  | none =>
    simp only [Except.map, hq] at h
    rw [← (Prod.mk.inj (Except.ok.inj h)).2]
    exact (List.append_nil _).symm
  | some q =>
    simp only [Except.map, hq] at h
    rw [← (Prod.mk.inj (Except.ok.inj h)).2]
    exact events_publish _ now id [.aborted]

/-- A report that is answered publishes what the progress of its command announces. -/
theorem events_answer (hp : t.find? id = some p) (h : t.answer now id r = .ok u) :
    u.log.events = t.log.events ++ (p.announced now r).map (⟨id, ·, now⟩) := by
  cases r with
  | startScrolling => exact events_change hp h
  | addScrolled n =>
    rw [answer, addScrolled] at h
    exact events_change hp h
  | markSubmitted => exact events_change hp h
  | failScroll message => exact events_change hp h
  | recordBatch n e => exact events_change hp h
  | completeBucket k =>
    obtain ⟨isNew, h⟩ := of_map_snd h
    exact events_change hp (change_of_completeBucket h)
  | abort =>
    obtain ⟨isNew, h⟩ := of_map_snd h
    exact events_abortWith hp h
  | abortWithError message =>
    obtain ⟨isNew, h⟩ := of_map_snd h
    exact events_abortWith hp h

/-! ## Operations of every kind -/

/-- What a tracker may be asked to do, with the time at which it is asked. -/
inductive Operation where
  | register (now : Timestamp) (c : Command)
  | call (c : Call)
  /-- A command is looked up, which drops it when its retention is over. -/
  | get (now : Timestamp) (id : CommandId)
  | purgeExpired (now : Timestamp)

/-- The tracker after an operation; one that fails leaves it as it was. -/
def operate (t : Tracker) : Operation → Tracker
  | .register now c => (t.register now c).toOption.getD t
  | .call c => t.call c
  | .get now id => (t.get now id).2
  | .purgeExpired now => (t.purgeExpired now).2

/-- The machine of which the runs are all sequences of operations. -/
def next? (t : Tracker) (o : Operation) : Option Tracker := some (t.operate o)

/-- What an operation reports about a command. -/
def Operation.reportOn? (id : CommandId) : Operation → Option (Timestamp × Report)
  | .call c => if c.id = id then some (c.now, c.report) else none
  | _ => none

/-- What an abort of a command is told: whether it is this abort that ended the command. -/
def abortAnswer? (t : Tracker) (id : CommandId) : Operation → Option Bool
  | .call ⟨now, k, .abort⟩ =>
    if k = id then (t.abort now k).toOption.map Prod.fst else none
  | .call ⟨now, k, .abortWithError message⟩ =>
    if k = id then (t.abortWithError now k message).toOption.map Prod.fst else none
  | _ => none

theorem distinct_operate (ht : t.Distinct) (o : Operation) : (t.operate o).Distinct := by
  cases o with
  | register now c =>
    cases h : t.register now c with
    | error e =>
      rw [operate, h]
      exact ht
    | ok u =>
      rw [operate, h]
      exact distinct_of_register ht h
  | call c =>
    rw [operate, call]
    obtain ⟨-, e, h⟩ | ⟨p, u, hu, h⟩ := answer_cases t c.now c.id c.report
    · rw [h]
      exact ht
    · rw [h]
      exact hu.distinct ht
  | get now k => exact (drops_get ht now k).distinct ht
  | purgeExpired now => exact (drops_purgeExpired ht now).distinct ht

theorem distinct_of_run {moves : List (Move Tracker Operation)} (ht : t.Distinct)
    (h : Run next? t moves s) : s.Distinct :=
  h.always ht fun _ o _ hnext hd => Option.some.inj hnext ▸ distinct_operate hd o

theorem distinct_keeping (capacity retention : Nat) : (keeping capacity retention).Distinct :=
  List.nodup_nil

/-- Nothing is published when commands are dropped. -/
theorem log_get (t : Tracker) (now : Timestamp) (id : CommandId) :
    (t.get now id).2.log = t.log := by
  unfold get
  split
  · rfl
  · split <;> rfl

/-- What one operation does to a command that is there: a report about the command is heeded, and
what it announces is published; any other operation leaves the command as it is or drops it, and
publishes nothing about it. -/
theorem operate_cases (ht : t.Distinct) (hp : t.find? id = some p) (o : Operation) :
    ∃ events, (t.operate o).log.events = t.log.events ++ events ∧
      ((∃ now r, o = .call ⟨now, id, r⟩ ∧ (t.operate o).find? id = some (p.heed now r) ∧
          statesOf id events = p.announced now r) ∨
        (o.reportOn? id = none ∧
          ((t.operate o).find? id = some p ∨ (t.operate o).find? id = none) ∧
          statesOf id events = [])) := by
  have dropped {u : Tracker} (hdrops : Drops t u) : u.find? id = some p ∨ u.find? id = none := by
    rw [← hp]
    exact hdrops.find?_eq id
  cases o with
  | register now c =>
    cases h : t.register now c with
    | error e =>
      rw [operate, h]
      exact ⟨[], (List.append_nil _).symm, .inr ⟨rfl, .inl hp, rfl⟩⟩
    | ok u =>
      obtain ⟨hnew, hfind⟩ := register_eq_ok h
      have hne : c.id ≠ id := by
        rintro rfl
        rw [hnew] at hp
        exact absurd hp (by simp)
      rw [operate, h]
      refine ⟨_, events_register h, .inr ⟨rfl, .inl ?_, statesOf_other hne _ _⟩⟩
      exact (hfind id).trans ((if_neg (Ne.symm hne)).trans hp)
  | call c =>
    obtain ⟨now, k, r⟩ := c
    obtain ⟨hgone, e, h⟩ | ⟨o, u, hu, h⟩ := answer_cases t now k r
    · have hne : k ≠ id := by
        rintro rfl
        rw [hgone] at hp
        exact absurd hp (by simp)
      rw [operate, call, h]
      exact ⟨[], (List.append_nil _).symm, .inr ⟨if_neg hne, .inl hp, rfl⟩⟩
    · rw [operate, call, h]
      refine ⟨_, events_answer hu.before h, ?_⟩
      by_cases hk : k = id
      · subst hk
        obtain rfl := Option.some.inj (hu.before.symm.trans hp)
        exact .inl ⟨now, r, rfl, hu.find?_self, statesOf_self now k _⟩
      · refine .inr ⟨if_neg hk, .inl ?_, statesOf_other hk now _⟩
        exact (hu.find?_other (Ne.symm hk)).trans hp
  | get now k =>
    refine ⟨[], ?_, .inr ⟨rfl, dropped (drops_get ht now k), rfl⟩⟩
    rw [List.append_nil, operate, log_get]
  | purgeExpired now =>
    exact ⟨[], (List.append_nil _).symm, .inr ⟨rfl, dropped (drops_purgeExpired ht now), rfl⟩⟩

/-! ## A command that is kept -/

/-- Whether the events published between two trackers tell how a command that is there came to be
where it is. -/
def Traces (id : CommandId) (t u : Tracker) : Prop :=
  ∃ events, u.log.events = t.log.events ++ events ∧ ∀ p, t.find? id = some p →
    ∃ q, u.find? id = some q ∧ Leads p.state (statesOf id events) q.state

theorem Traces.refl (id : CommandId) (t : Tracker) : Traces id t t :=
  ⟨[], (List.append_nil _).symm, fun p hp => ⟨p, hp, .stay _⟩⟩

theorem Traces.trans (h : Traces id t u) (h' : Traces id u s) : Traces id t s := by
  obtain ⟨earlier, hearlier, htrace⟩ := h
  obtain ⟨later, hlater, htrace'⟩ := h'
  refine ⟨earlier ++ later, by rw [hlater, hearlier, List.append_assoc], fun p hp => ?_⟩
  obtain ⟨q, hq, hleads⟩ := htrace p hp
  obtain ⟨o, ho, hleads'⟩ := htrace' q hq
  exact ⟨o, ho, statesOf_append id earlier later ▸ hleads.trans hleads'⟩

/-- A command that an operation leaves there heeds what the operation reports about it. -/
theorem find?_operate (ht : t.Distinct) (hp : t.find? id = some p) {o : Operation}
    (hthere : (t.operate o).find? id ≠ none) :
    (t.operate o).find? id = some (p.heedAll (o.reportOn? id).toList) := by
  obtain ⟨events, -, ⟨now, r, rfl, hq, -⟩ | ⟨hnone, hq, -⟩⟩ := operate_cases ht hp o
  · rw [hq, Operation.reportOn?, if_pos rfl]
    rfl
  · rw [hq.resolve_right hthere, hnone]
    rfl

/-- The events of one operation tell what it did to a command that it leaves there. -/
theorem traces_operate (ht : t.Distinct) (o : Operation)
    (hthere : (t.operate o).find? id ≠ none) (hp : t.find? id ≠ none) :
    Traces id t (t.operate o) := by
  obtain ⟨p, hp⟩ := Option.ne_none_iff_exists'.1 hp
  obtain ⟨events, hevents, hcases⟩ := operate_cases ht hp o
  refine ⟨events, hevents, fun p' hp' => ?_⟩
  obtain rfl := Option.some.inj (hp.symm.trans hp')
  obtain ⟨now, r, -, hq, hstates⟩ | ⟨-, hq, hstates⟩ := hcases
  · exact ⟨_, hq, hstates ▸ p.leads_heed now r⟩
  · exact ⟨p, hq.resolve_right hthere, hstates ▸ .stay _⟩

/-- A tracker that keeps a command goes on to have distinct ids, and the command was there before
and after every operation. -/
theorem distinct_and_kept {moves : List (Move Tracker Operation)} (hrun : Run next? t moves s)
    (ht : t.Distinct) (hp : t.find? id ≠ none) (hkept : ∀ m ∈ moves, m.after.find? id ≠ none) :
    ∀ m ∈ moves, m.before.Distinct ∧ m.before.find? id ≠ none := by
  let Keeps (v : Tracker) : Prop := v.Distinct ∧ v.find? id ≠ none
  have hstart : Keeps t := ⟨ht, hp⟩
  have hmove : ∀ v o w, next? v o = some w → w.find? id ≠ none → Keeps v → Keeps w :=
    fun _ o _ hnext hthere hv => ⟨Option.some.inj hnext ▸ distinct_operate hv.1 o, hthere⟩
  exact fun m hm => (hrun.invariant_of_mem hkept hstart hmove m hm).1

/-- The events of a run tell how a command that is kept all the while came to be where it is. -/
theorem traces_run {moves : List (Move Tracker Operation)} (hrun : Run next? t moves s)
    (ht : t.Distinct) (hp : t.find? id ≠ none) (hkept : ∀ m ∈ moves, m.after.find? id ≠ none) :
    Traces id t s := by
  refine (hrun.related (Traces.refl id) Traces.trans fun m hm => ?_).1
  obtain ⟨hd, hbefore⟩ := distinct_and_kept hrun ht hp hkept m hm
  have hafter := Option.some.inj (hrun.next?_of_mem hm)
  have hthere := hkept m hm
  rw [← hafter] at hthere ⊢
  exact traces_operate hd m.event hthere hbefore

/-! ## Aborts -/

/-- An abort of a command that is there is told that it ended the command, unless that has ended. -/
theorem abortAnswer?_call (hp : t.find? id = some p) (hr : r.isAbort = true) (now : Timestamp) :
    t.abortAnswer? id (.call ⟨now, id, r⟩) = some (!p.state.isTerminal) := by
  have answered (message : Option String) :
      (t.abortWith now id message).toOption.map Prod.fst = some (!p.state.isTerminal) := by
    obtain ⟨hgone, -⟩ | ⟨q, hq, hended, h⟩ | ⟨q, u, hopen, hu, h⟩ :=
      abortWith_cases t now id message
    · rw [hp] at hgone
      exact absurd hgone (by simp)
    · obtain rfl := Option.some.inj (hp.symm.trans hq)
      rw [h, hended]
      rfl
    · obtain rfl := Option.some.inj (hp.symm.trans hu.before)
      rw [h, hopen]
      rfl
  cases r with
  | abort => exact (if_pos rfl).trans (answered none)
  | abortWithError message => exact (if_pos rfl).trans (answered (some message))
  | _ => exact absurd hr Bool.false_ne_true

theorem isAbort_of_abortAnswer? {o : Operation} {b : Bool} (h : t.abortAnswer? id o = some b) :
    ∃ now r, o = .call ⟨now, id, r⟩ ∧ r.isAbort = true := by
  unfold abortAnswer? at h
  split at h
  · rename_i now k
    obtain ⟨rfl, -⟩ := Option.ite_none_right_eq_some.1 h
    exact ⟨now, .abort, rfl, rfl⟩
  · rename_i now k message
    obtain ⟨rfl, -⟩ := Option.ite_none_right_eq_some.1 h
    exact ⟨now, .abortWithError message, rfl, rfl⟩
  · exact absurd h (by simp)

/-- An abort changes the state of a command exactly when that has not ended. -/
theorem heed_abort_state (hr : r.isAbort = true) (p : Progress) (now : Timestamp) :
    ((p.heed now r).state != p.state) = !p.state.isTerminal := by
  cases hended : p.state.isTerminal with
  | true => simp [p.heed_state_of_isTerminal hended now r]
  | false =>
    have hafter := p.heed_isTerminal_of_isAbort now hr
    rw [bne_iff_ne.2 fun h => by rw [h, hended] at hafter; exact Bool.false_ne_true hafter]
    rfl

/-- The number of aborts of a command, among some moves, that are told they ended it. -/
def endings (id : CommandId) (moves : List (Move Tracker Operation)) : Nat :=
  moves.countP fun m => m.before.abortAnswer? id m.event == some true

/-- An abort that is told it ended a command came upon one that went on, and left it ended; a
command that has ended stays so. -/
theorem ending_operate (ht : t.Distinct) (hp : t.find? id = some p) {o : Operation}
    (hq : (t.operate o).find? id = some q) :
    (if p.state.isTerminal then 1 else 0) + (if t.abortAnswer? id o == some true then 1 else 0) ≤
      if q.state.isTerminal then 1 else 0 := by
  have hthere : (t.operate o).find? id ≠ none := by
    rw [hq]
    exact Option.some_ne_none q
  have hheed := find?_operate ht hp hthere
  rw [hq] at hheed
  cases hanswer : t.abortAnswer? id o == some true with
  | true =>
    obtain ⟨now, r, rfl, hr⟩ := isAbort_of_abortAnswer? (eq_of_beq hanswer)
    rw [abortAnswer?_call hp hr now] at hanswer
    have hopen : p.state.isTerminal = false := by simpa using hanswer
    rw [Operation.reportOn?, if_pos rfl] at hheed
    rw [Option.some.inj hheed, hopen]
    exact Nat.le_of_eq (if_pos (p.heed_isTerminal_of_isAbort now hr)).symm
  | false =>
    rw [if_neg Bool.false_ne_true, Nat.add_zero]
    split
    · rename_i hended
      rw [Option.some.inj hheed, p.heedAll_state_of_isTerminal hended, hended]
      exact Nat.le_refl _
    · exact Nat.zero_le _

/-- A command that is kept is ended by one abort at most, and if it goes on by none. -/
theorem endings_le {moves : List (Move Tracker Operation)} (hrun : Run next? t moves s)
    (ht : t.Distinct) (hp : t.find? id ≠ none) (hkept : ∀ m ∈ moves, m.after.find? id ≠ none) :
    ∃ q, s.find? id = some q ∧ endings id moves ≤ if q.state.isTerminal then 1 else 0 := by
  induction hrun with
  | start =>
    obtain ⟨q, hq⟩ := Option.ne_none_iff_exists'.1 hp
    exact ⟨q, hq, Nat.zero_le _⟩
  | @move moves v w o hbefore hnext ih =>
    obtain ⟨p, hp, hle⟩ := ih fun m hm => hkept m (List.mem_append_left _ hm)
    obtain ⟨q, hq⟩ := Option.ne_none_iff_exists'.1 (hkept ⟨v, o, w⟩ (by simp))
    obtain rfl := Option.some.inj hnext
    have hstep := ending_operate (distinct_of_run ht hbefore) hp hq
    refine ⟨q, hq, ?_⟩
    rw [endings, List.countP_append, List.countP_singleton]
    exact Nat.le_trans (Nat.add_le_add_right hle _) hstep

/-! ## The lifecycle -/

/-- The events tell the lifecycle.  From the operation that accepts a command, and as long as the
command is kept, the states published for it begin with the first one, rise in number, are terminal
at most at the end, and end with the state that it is in.  Every single operation publishes the
moves by which it brings the command from its state before to its state after, never moves it
backwards and never moves it when it has ended; an abort is told whether it changed the state, and
one at most is told that it did. -/
theorem events_tell_lifecycle {capacity retention : Nat} {c : Command}
    {front rear : List (Move Tracker Operation)}
    (hrun : Run next? (keeping capacity retention) (front ++ ⟨t, .register now c, u⟩ :: rear) s)
    (haccepted : t.register now c = .ok u) (hkept : ∀ m ∈ rear, m.after.find? c.id ≠ none) :
    (∃ events p, s.log.events = t.log.events ++ events ∧ s.find? c.id = some p ∧
      (statesOf c.id events).head? = some .scheduled ∧
      (statesOf c.id events).Pairwise (·.number < ·.number) ∧
      (∀ k ∈ (statesOf c.id events).dropLast, k.isTerminal = false) ∧
      (statesOf c.id events).getLast? = some p.state) ∧
    (∀ m ∈ rear, ∃ events p q, m.after.log.events = m.before.log.events ++ events ∧
      m.before.find? c.id = some p ∧ m.after.find? c.id = some q ∧
      Leads p.state (statesOf c.id events) q.state ∧
      (q.state = p.state ↔ statesOf c.id events = []) ∧
      p.state.number ≤ q.state.number ∧
      (p.state.isTerminal = true → q.state = p.state) ∧
      ∀ now r, m.event = .call ⟨now, c.id, r⟩ → r.isAbort = true →
        m.before.abortAnswer? c.id m.event = some (q.state != p.state)) ∧
    endings c.id rear ≤ 1 := by
  rw [← List.singleton_append, ← List.append_assoc] at hrun
  obtain ⟨u', haccepting, hrest⟩ := hrun.cut
  obtain rfl : u' = u := haccepting.eq_of_concat
  have hd : u'.Distinct := distinct_of_run (distinct_keeping capacity retention) haccepting
  obtain ⟨hnew, hfind⟩ := register_eq_ok haccepted
  have hfirst : u'.find? c.id = some (.new c now) := (hfind c.id).trans (if_pos rfl)
  have hthere : u'.find? c.id ≠ none := by
    rw [hfirst]
    exact Option.some_ne_none _
  refine ⟨?_, ?_, ?_⟩
  · have hscheduled : u'.log.events = t.log.events ++ [⟨c.id, .scheduled, now⟩] := by
      rw [register, hnew] at haccepted
      rw [← Except.ok.inj haccepted]
      exact events_publish _ now c.id [.scheduled]
    obtain ⟨later, hlater, htrace⟩ := traces_run hrest hd hthere hkept
    obtain ⟨p, hp, hleads⟩ := htrace _ hfirst
    have hstates : statesOf c.id (⟨c.id, .scheduled, now⟩ :: later) =
        .scheduled :: statesOf c.id later := by
      rw [statesOf, List.filter_cons_of_pos (by simp)]
      rfl
    refine ⟨⟨c.id, .scheduled, now⟩ :: later, p, ?_, hp, ?_⟩
    · rw [hlater, hscheduled, List.append_assoc, List.singleton_append]
    · rw [hstates]
      exact ⟨rfl, hleads.number_lt, hleads.not_isTerminal, hleads.getLast?⟩
  · intro m hm
    obtain ⟨hdistinct, hbefore⟩ := distinct_and_kept hrest hd hthere hkept m hm
    have hafter := Option.some.inj (hrest.next?_of_mem hm)
    have hstays := hkept m hm
    rw [← hafter] at hstays ⊢
    obtain ⟨p, hp⟩ := Option.ne_none_iff_exists'.1 hbefore
    obtain ⟨events, hevents, htrace⟩ := traces_operate hdistinct m.event hstays hbefore
    obtain ⟨q, hq, hleads⟩ := htrace p hp
    refine ⟨events, p, q, hevents, hp, hq, hleads, hleads.eq_iff, hleads.number_le,
      hleads.eq_of_isTerminal, fun now r hcall hr => ?_⟩
    have hheed := find?_operate hdistinct hp hstays
    rw [hcall, Operation.reportOn?, if_pos rfl, ← hcall, hq] at hheed
    rw [Option.some.inj hheed, hcall, abortAnswer?_call hp hr now]
    exact congrArg some (heed_abort_state hr p now).symm
  · obtain ⟨q, -, hle⟩ := endings_le hrest hd hthere hkept
    split at hle
    · exact hle
    · exact Nat.le_trans hle (Nat.zero_le 1)

/-- A command is accepted, aborted, and dropped after its retention. -/
def firstLife : List Operation :=
  [.register ⟨0, 0⟩ archiveAll, .call ⟨⟨1, 0⟩, archiveAll.id, .abort⟩, .purgeExpired ⟨100, 0⟩]

/-- The command cannot be accepted again as long as it is there.  It is aborted while it is worked
on, and what is told afterwards comes too late. -/
def secondLife : List Operation :=
  [.call ⟨⟨102, 0⟩, archiveAll.id, .startScrolling⟩, .register ⟨103, 0⟩ archiveAll,
    .call ⟨⟨104, 0⟩, archiveAll.id, .addScrolled 3⟩,
    .call ⟨⟨105, 0⟩, archiveAll.id, .markSubmitted⟩,
    .call ⟨⟨106, 0⟩, archiveAll.id, .abortWithError "out of storage"⟩,
    .call ⟨⟨107, 0⟩, archiveAll.id, .abort⟩, .call ⟨⟨108, 0⟩, archiveAll.id, .recordBatch 3 0⟩,
    .call ⟨⟨109, 0⟩, archiveAll.id, .failScroll "connection lost"⟩,
    .call ⟨⟨110, 0⟩, archiveAll.id, .markSubmitted⟩, .get ⟨111, 0⟩ archiveAll.id,
    .purgeExpired ⟨112, 0⟩]

/-- In its second life the command is told of by four events, the last of which is its abort. -/
theorem events_tell_lifecycle_second_life :
    ∃ front rear t u s,
      Run next? (new 8 60) (front ++ ⟨t, .register ⟨101, 0⟩ archiveAll, u⟩ :: rear) s ∧
      t.register ⟨101, 0⟩ archiveAll = .ok u ∧
      (∀ m ∈ rear, m.after.find? archiveAll.id ≠ none) ∧
      front.map (·.event) = firstLife ∧ rear.map (·.event) = secondLife ∧
      ∃ events p, s.log.events = t.log.events ++ events ∧ s.find? archiveAll.id = some p ∧
        statesOf archiveAll.id events = [.scheduled, .scrollingRunning, .running, .aborted] ∧
        p.state = .aborted ∧ endings archiveAll.id rear = 1 := by
  have hcheck : (movesOf? next? (new 8 60) firstLife).any (fun f =>
      (f.2.register ⟨101, 0⟩ archiveAll).toOption.any fun u =>
        (movesOf? next? u secondLife).any fun r =>
          (r.1.all fun m => (m.after.find? archiveAll.id).isSome) &&
          decide (statesOf archiveAll.id (r.2.log.events.drop f.2.log.events.length) =
            [.scheduled, .scrollingRunning, .running, .aborted]) &&
          decide (endings archiveAll.id r.1 = 1)) = true := by
    decide +kernel
  obtain ⟨⟨front, t⟩, hfront, hrest⟩ := (Option.any_eq_true _ _).1 hcheck
  obtain ⟨u, hu, hrest⟩ := (Option.any_eq_true _ _).1 hrest
  obtain ⟨⟨rear, s⟩, hrear, hs⟩ := (Option.any_eq_true _ _).1 hrest
  simp only [Bool.and_eq_true, decide_eq_true_eq, List.all_eq_true, Option.isSome_iff_ne_none] at hs
  obtain ⟨⟨hkept, hstates⟩, hends⟩ := hs
  have haccepted : t.register ⟨101, 0⟩ archiveAll = .ok u := by
    cases h : t.register ⟨101, 0⟩ archiveAll with
    | error e =>
      rw [h] at hu
      exact absurd hu (by simp [Except.toOption])
    | ok v =>
      rw [h] at hu
      exact congrArg Except.ok (Option.some.inj hu)
  have hnext : next? t (.register ⟨101, 0⟩ archiveAll) = some u := by
    rw [next?, operate, haccepted]
    rfl
  have hrun := Run.append (.move _ (.of_movesOf? hfront) hnext) hrear
  rw [List.append_assoc, List.singleton_append] at hrun
  obtain ⟨⟨events, p, hevents, hp, -, -, -, hlast⟩, -, -⟩ :=
    events_tell_lifecycle hrun haccepted hkept
  rw [hevents, List.drop_left] at hstates
  rw [hstates] at hlast
  exact ⟨front, rear, t, u, s, hrun, haccepted, hkept, events_of_movesOf? hfront,
    events_of_movesOf? hrear, events, p, hevents, hp, hstates, (Option.some.inj hlast).symm, hends⟩

end Tracker

end BulkRun
