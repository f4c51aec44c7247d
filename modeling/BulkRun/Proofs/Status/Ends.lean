import BulkRun.Proofs.Status.History
/-!
# Events that tell of an end

A terminal state is published exactly when a command moves to it.  Main statement: an operation that
publishes the end of a command leaves the command ended, and one that leaves it ended published that,
unless the command had ended before (`ends_operate`).
-/

namespace BulkRun

open CommandState (Leads)

/-- Whether an event tells that a command has ended. -/
def StatusEvent.Ends (id : CommandId) (e : StatusEvent) : Prop :=
  e.commandId = id ∧ e.state.isTerminal = true

theorem exists_ends_iff {id : CommandId} {events : List StatusEvent} :
    (∃ e ∈ events, e.Ends id) ↔ ∃ s ∈ statesOf id events, s.isTerminal = true := by
  constructor
  · rintro ⟨e, he, hid, hended⟩
    refine ⟨e.state, List.mem_map.2 ⟨e, List.mem_filter.2 ⟨he, ?_⟩, rfl⟩, hended⟩
    exact beq_iff_eq.2 hid
  · rintro ⟨s, hs, hended⟩
    obtain ⟨e, he, rfl⟩ := List.mem_map.1 hs
    obtain ⟨hmem, hid⟩ := List.mem_filter.1 he
    exact ⟨e, hmem, eq_of_beq hid, hended⟩

namespace CommandState.Leads

variable {s e k : CommandState} {passed : List CommandState}

/-- Nothing leads on from a terminal state. -/
theorem isTerminal_of_mem (h : Leads s passed e) (hk : k ∈ passed) (hended : k.isTerminal = true) :
    e.isTerminal = true := by
  induction h with
  | stay => exact absurd hk List.not_mem_nil
  | move _ hrest ih =>
    rcases List.mem_cons.1 hk with rfl | hk
    · rw [hrest.eq_of_isTerminal hended]
      exact hended
    · exact ih hk

/-- A terminal state is where a command was, or one of the states that it moved to. -/
theorem exists_isTerminal (h : Leads s passed e) (hended : e.isTerminal = true) :
    s.isTerminal = true ∨ ∃ k ∈ passed, k.isTerminal = true := by
  induction h with
  | stay => exact .inl hended
  | @move s t e passed _ _ ih =>
    rcases ih hended with ht | ⟨k, hk, hterminal⟩
    · exact .inr ⟨t, List.mem_cons_self, ht⟩
    · exact .inr ⟨k, List.mem_cons_of_mem t hk, hterminal⟩

end CommandState.Leads

namespace Tracker

variable {t : Tracker} {id : CommandId}

/-- Whether a command is there and has ended. -/
def HasEnded (t : Tracker) (id : CommandId) : Prop :=
  ∃ p, t.find? id = some p ∧ p.state.isTerminal = true

/-- Of a command that is not there, an operation can only publish that it was accepted. -/
theorem operate_absent (ht : t.Distinct) (hp : t.find? id = none) (o : Operation) :
    ∃ events, (t.operate o).log.events = t.log.events ++ events ∧
      ((statesOf id events = [] ∧ (t.operate o).find? id = none) ∨
        (statesOf id events = [.scheduled] ∧
          ∃ c now, (t.operate o).find? id = some (Progress.new c now))) := by
  have dropped {u : Tracker} (hdrops : Drops t u) : u.find? id = none := by
    have heq := hdrops.find?_eq id
    rw [hp, or_self] at heq
    exact heq
  cases o with
  | register now c =>
    cases h : t.register now c with
    | error e =>
      rw [operate, h]
      exact ⟨[], (List.append_nil _).symm, .inl ⟨rfl, hp⟩⟩
    | ok u =>
      obtain ⟨-, hfind⟩ := register_eq_ok h
      rw [operate, h]
      refine ⟨_, events_register h, ?_⟩
      by_cases hid : id = c.id
      · subst hid
        exact .inr ⟨statesOf_self now c.id _, c, now, (hfind c.id).trans (if_pos rfl)⟩
      · refine .inl ⟨statesOf_other (Ne.symm hid) now _, ?_⟩
        exact (hfind id).trans ((if_neg hid).trans hp)
  | call c =>
    obtain ⟨now, k, r⟩ := c
    obtain ⟨-, e, h⟩ | ⟨q, u, hu, h⟩ := answer_cases t now k r
    · rw [operate, call, h]
      exact ⟨[], (List.append_nil _).symm, .inl ⟨rfl, hp⟩⟩
    · have hne : k ≠ id := by
        rintro rfl
        rw [hu.before] at hp
        exact absurd hp (by simp)
      rw [operate, call, h]
      refine ⟨_, events_answer hu.before h, .inl ⟨statesOf_other hne now _, ?_⟩⟩
      exact (hu.find?_other (Ne.symm hne)).trans hp
  | get now k =>
    refine ⟨[], ?_, .inl ⟨rfl, dropped (drops_get ht now k)⟩⟩
    rw [List.append_nil, operate, log_get]
  | purgeExpired now =>
    exact ⟨[], (List.append_nil _).symm, .inl ⟨rfl, dropped (drops_purgeExpired ht now)⟩⟩

/-- An operation that publishes the end of a command leaves the command ended, and one that leaves it
ended published that, unless the command had ended before. -/
theorem ends_operate (ht : t.Distinct) (id : CommandId) (o : Operation) :
    ∃ events, (t.operate o).log.events = t.log.events ++ events ∧
      ((∃ e ∈ events, e.Ends id) → (t.operate o).HasEnded id) ∧
      ((t.operate o).HasEnded id → t.HasEnded id ∨ ∃ e ∈ events, e.Ends id) := by
  cases hp : t.find? id with
  | none =>
    obtain ⟨events, hevents, ⟨hstates, hnone⟩ | ⟨hstates, c, now, hnew⟩⟩ := operate_absent ht hp o
    · refine ⟨events, hevents, ?_, ?_⟩
      · rw [exists_ends_iff, hstates]
        rintro ⟨s, hs, -⟩
        exact absurd hs List.not_mem_nil
      · rintro ⟨q, hq, -⟩
        rw [hnone] at hq
        exact absurd hq (by simp)
    · refine ⟨events, hevents, ?_, ?_⟩
      · rw [exists_ends_iff, hstates]
        rintro ⟨s, hs, hended⟩
        rw [List.mem_singleton.1 hs] at hended
        exact absurd hended Bool.false_ne_true
      · rintro ⟨q, hq, hended⟩
        rw [← Option.some.inj (hnew.symm.trans hq)] at hended
        exact absurd hended Bool.false_ne_true
  | some p =>
    obtain ⟨events, hevents, ⟨now, r, -, hq, hstates⟩ | ⟨-, hq, hstates⟩⟩ := operate_cases ht hp o
    · have hleads := hstates ▸ p.leads_heed now r
      refine ⟨events, hevents, ?_, ?_⟩
      · rw [exists_ends_iff]
        rintro ⟨s, hs, hended⟩
        exact ⟨_, hq, hleads.isTerminal_of_mem hs hended⟩
      · rintro ⟨q, hfind, hended⟩
        rw [← Option.some.inj (hq.symm.trans hfind)] at hended
        rw [exists_ends_iff]
        exact (hleads.exists_isTerminal hended).imp_left fun hterminal => ⟨p, hp, hterminal⟩
    · refine ⟨events, hevents, ?_, ?_⟩
      · rw [exists_ends_iff, hstates]
        rintro ⟨s, hs, -⟩
        exact absurd hs List.not_mem_nil
      · rintro ⟨q, hfind, hended⟩
        rcases hq with hsame | hgone
        · rw [← Option.some.inj (hsame.symm.trans hfind)] at hended
          exact .inl ⟨p, hp, hended⟩
        · rw [hgone] at hfind
          exact absurd hfind (by simp)

end Tracker

end BulkRun
