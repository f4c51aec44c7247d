import BulkRun.Proofs.Dispatch.CalledOff
import BulkRun.Proofs.Execution.Bystanders
/-!
# What an event comes to for the scroll of one command

Of all that can happen in a workshop, three things concern the scroll of a command: its loop takes a
step, or puts one off, or the command is accepted.  Everything else leaves the loop where it is and
gives no sign of the scroll, and whatever is told about the command meanwhile is not about its
scroll (`Bench.Concerns`).
-/

namespace BulkRun

open Relation (ReflTransGen)
open Tracker (Bides)

variable {σ : Type} {setup : Setup σ} {id : CommandId}

/-- The only loop of a command. -/
theorem View.filter_eq_singleton {ls : List (ScrollLoop σ)} {l : ScrollLoop σ} (hl : l ∈ ls)
    (honce : (ls.filter (·.id == l.id)).length ≤ 1) : ls.filter (·.id == l.id) = [l] := by
  have hmem : l ∈ ls.filter (·.id == l.id) := List.mem_filter.2 ⟨hl, beq_self_eq_true _⟩
  obtain ⟨k, hk⟩ := List.length_eq_one_iff.1
    (Nat.le_antisymm honce (List.length_pos_of_mem hmem))
  rw [hk, List.mem_singleton] at hmem
  rw [hk, hmem]

theorem View.mem_of_filter_eq {ls : List (ScrollLoop σ)} {l : ScrollLoop σ}
    (h : ls.filter (·.id == id) = [l]) : l ∈ ls ∧ l.id = id := by
  have hmem : l ∈ ls.filter (·.id == id) := h ▸ List.mem_singleton_self l
  exact ⟨(List.mem_filter.1 hmem).1, eq_of_beq (List.mem_filter.1 hmem).2⟩

namespace Bench

variable {b c : Bench σ} {sign : Option (Sign σ)}

/-- What an event comes to for the scroll of a command that is accepted once at most. -/
inductive Concerns (id : CommandId) (b : Bench σ) (sign : Option (Sign σ)) (c : Bench σ) : Prop
  /-- The loop of the command takes a step. -/
  | resume {l : ScrollLoop σ} (hb : b.loops.filter (·.id == id) = [l]) (hopen : l.isEnded = false)
      (hsign : sign = l.sign? b.engine) (hengine : c.engine = (l.resume b.engine).2)
      (hc : c.loops.filter (·.id == id) = [(l.resume b.engine).1])
  /-- The loop of the command puts off its step. -/
  | putOff {l : ScrollLoop σ} {r : ScrollLoop σ × Engine σ}
      (hb : b.loops.filter (·.id == id) = [l]) (hr : l.putOff? b.engine = some r)
      (hsign : sign = none) (hengine : c.engine = r.2) (hc : c.loops.filter (·.id == id) = [r.1])
  | accept {l : ScrollLoop σ} (hb : b.loops.filter (·.id == id) = []) (hphase : l.phase = .created)
      (hreg : b.engine.tracker.register b.engine.now l.command = .ok c.engine.tracker)
      (hsign : sign = none) (hc : c.loops.filter (·.id == id) = [l])
  /-- Something else happens. -/
  | aside (hloops : c.loops.filter (·.id == id) = b.loops.filter (·.id == id))
      (hbides : Bides id b.engine.tracker c.engine.tracker)
      (hquiet : answersOf id sign.toList = [] ∧ bucketsOf id sign.toList = [])

/-! ## Grips -/

theorem Handles.bides (h : Handles setup b sign c) (hd : b.engine.tracker.Distinct)
    (id : CommandId) : Bides id b.engine.tracker c.engine.tracker := by
  cases h with
  | receive | acknowledge | handBack => exact .refl id _
  | @start e ls hs v r h =>
    subst h
    exact (Execution.begins_start setup v.bucket e).bides id
  | work h =>
    obtain ⟨w, -, hworks⟩ := Execution.works_step? hd h
    exact hworks.bides id

/-- What is done with a delivery gives no sign of a scroll. -/
theorem Handles.quiet (h : Handles setup b sign c) (id : CommandId) :
    answersOf id sign.toList = [] ∧ bucketsOf id sign.toList = [] := by
  cases h with
  | start | work => exact Execution.signs_of_sign? _ id
  | handBack h => split <;> exact ⟨rfl, rfl⟩
  | _ => exact ⟨rfl, rfl⟩

theorem bides_of_chain (h : ReflTransGen (Handles setup · none ·) b c)
    (hd : b.engine.tracker.Distinct) (id : CommandId) :
    Bides id b.engine.tracker c.engine.tracker ∧ c.engine.tracker.Distinct := by
  induction h with
  | refl => exact ⟨.refl id _, hd⟩
  | tail _ hgrip ih =>
    obtain ⟨hbides, hdistinct⟩ := ih
    exact ⟨hbides.trans (hgrip.bides hdistinct id), (hgrip.advances hdistinct).distinct hdistinct⟩

/-! ## Deals -/

theorem Deals.concerns (h : Deals setup b sign c) (hkeys : (b.loops.map (·.key)).Nodup)
    (howned : ∀ l ∈ b.loops, l.phase.Owned l.id)
    (hbefore : (b.loops.filter (·.id == id)).length ≤ 1)
    (hafter : (c.loops.filter (·.id == id)).length ≤ 1) : Concerns id b sign c := by
  have hsame {d : Bench σ} (hloops : d.loops = b.loops)
      (hbides : Bides id b.engine.tracker d.engine.tracker)
      (hquiet : answersOf id sign.toList = [] ∧ bucketsOf id sign.toList = []) :
      Concerns id b sign d := .aside (by rw [hloops]) hbides hquiet
  cases h with
  | @resume l hl hopen =>
    have hresumes := ScrollLoop.resumes_resume (e := b.engine) hopen
    obtain ⟨phase, hphase⟩ := hresumes.loop
    by_cases hid : l.id = id
    · subst hid
      have hb := View.filter_eq_singleton hl hbefore
      refine .resume hb hopen rfl rfl ?_
      exact (View.filter_setLoop_self hkeys hl (by rw [hphase]) (by rw [hphase]; rfl) hb).2
    · refine .aside ?_ ?_ (ScrollLoop.sign?_other (howned l hl) b.engine (Ne.symm hid))
      · exact View.filter_setLoop_other hkeys hl (by rw [hphase]) (by rw [hphase]; rfl) hid
      · exact .of_same_or_gone (.inl (hresumes.addresses.others id (Ne.symm hid)))
  | @putOff l r hl hr =>
    obtain ⟨phase, hphase⟩ := ScrollLoop.loop_putOff? hr
    by_cases hid : l.id = id
    · subst hid
      have hb := View.filter_eq_singleton hl hbefore
      refine .putOff hb hr rfl rfl ?_
      exact (View.filter_setLoop_self hkeys hl (by rw [hphase]) (by rw [hphase]; rfl) hb).2
    · refine .aside ?_ ?_ ⟨rfl, rfl⟩
      · exact View.filter_setLoop_other hkeys hl (by rw [hphase]) (by rw [hphase]; rfl) hid
      · obtain rfl | ⟨k, after, d, -, -, rfl⟩ := ScrollLoop.putOff?_eq_some hr <;> exact .refl id _
  | @accept k₀ k x u hprepare hreg =>
    by_cases hid : k.id = id
    · subst hid
      rw [List.filter_append, List.length_append,
        List.filter_cons_of_pos (by exact beq_self_eq_true k.id), List.length_cons] at hafter
      have hnone := List.length_eq_zero_iff.1
        (show (b.loops.filter (·.id == k.id)).length = 0 by omega)
      refine .accept (l := ⟨b.loops.length, k, x.item, setup.dispatcher.fetchSize k, .created⟩)
        hnone rfl hreg rfl ?_
      rw [List.filter_append, hnone,
        List.filter_cons_of_pos (by exact beq_self_eq_true k.id)]
      rfl
    · refine .aside ?_ (.of_same_or_gone (.inl ?_)) ⟨rfl, rfl⟩
      · rw [List.filter_append, List.filter_cons_of_neg (by simpa [ScrollLoop.id] using hid)]
        exact List.append_nil _
      · exact ((Tracker.register_eq_ok hreg).2 id).trans (if_neg (Ne.symm hid))
  | abort h =>
    obtain ⟨r, p, hr, ht⟩ := Tracker.heeds_abortWith h
    exact hsame rfl (ht.bides (Tracker.isScroll_of_isAbort hr) id) ⟨rfl, rfl⟩
  | drop h => exact hsame rfl (.of_same_or_gone (h.find?_eq id)) ⟨rfl, rfl⟩
  | _ => exact hsame rfl (.refl id _) ⟨rfl, rfl⟩

/-- Every event comes to one of these. -/
theorem Turns.concerns (h : Turns setup b sign c) (hd : b.engine.tracker.Distinct)
    (hkeys : (b.loops.map (·.key)).Nodup) (howned : ∀ l ∈ b.loops, l.phase.Owned l.id)
    (honce : (c.loops.filter (·.id == id)).length ≤ 1) : Concerns id b sign c := by
  have hbefore := (length_loops_le hkeys h).trans honce
  obtain hdeal | ⟨mid, hchain, hgrip⟩ := h
  · exact hdeal.concerns hkeys howned hbefore honce
  · obtain ⟨hbides, hdistinct⟩ := bides_of_chain hchain hd id
    refine .aside ?_ (hbides.trans (hgrip.bides hdistinct id)) (hgrip.quiet id)
    rw [hgrip.loops, loops_of_chain hchain]

end Bench

namespace Workshop

variable {s t : Workshop σ}

/-- What an event of a workshop comes to for the scroll of a command. -/
theorem concerns_next? {event : Event σ} (h : s.system.Sound)
    (hnext : s.next? setup event = some t)
    (honce : (t.system.loops.filter (·.id == id)).length ≤ 1) :
    Bench.Concerns id s.bench (sign? ⟨s, event, t⟩) t.bench :=
  (turns_next? h.distinct hnext).concerns h.distinct h.nodup h.owned honce

end Workshop

end BulkRun
