import BulkRun.Proofs.Status.Completion
/-!
# Commands that go on

A command is live while it is there and has not ended.  A command that has ended stays ended, and
one that is gone stays gone unless it is accepted again, so nothing but `register` makes a command
live.
-/

namespace BulkRun

open Tracker (Report)

namespace Progress

variable (now : Timestamp) {p : Progress}

/-- The progress, unless the command has ended. -/
def live (p : Progress) : Option Progress := if p.state.isTerminal then none else some p

theorem live_eq_some {q : Progress} : p.live = some q ↔ p.state.isTerminal = false ∧ p = q := by
  unfold live
  cases p.state.isTerminal <;> simp

theorem live_eq_none : p.live = none ↔ p.state.isTerminal = true := by
  unfold live
  cases p.state.isTerminal <;> simp

/-- A report that a live command goes on after was heeded by a command that went on before. -/
theorem exists_of_heed {live : Option Progress} {r : Tracker.Report} {q : Progress}
    (h : (live.bind fun p => (p.heed now r).live) = some q) :
    ∃ p, live = some p ∧ (p.heed now r).state.isTerminal = false ∧ q = p.heed now r := by
  rcases Option.bind_eq_some_iff.1 h with ⟨p, hp, hlive⟩
  rcases live_eq_some.1 hlive with ⟨hopen, rfl⟩
  exact ⟨p, hp, hopen, rfl⟩

theorem settle_isTerminal_of_isTerminal (h : p.state.isTerminal = true) :
    (p.settle now).1.state.isTerminal = true := by
  rw [settle_fst, h, Bool.not_true, Bool.and_false, if_neg Bool.false_ne_true]
  exact h

theorem endScroll_isTerminal_of_isTerminal (h : p.state.isTerminal = true) :
    (p.endScroll now).1.state.isTerminal = true := by
  rw [endScroll_fst]
  split
  · rename_i hs
    rw [CommandState.not_isTerminal_of_isScrolling hs] at h
    exact absurd h Bool.false_ne_true
  · exact settle_isTerminal_of_isTerminal now h

/-- No report makes an ended command go on. -/
theorem heed_isTerminal (h : p.state.isTerminal = true) (r : Report) :
    (p.heed now r).state.isTerminal = true := by
  -- both kinds of abort leave an ended command as it is
  have aborted (message : Option String) :
      ((p.abort? now message).getD p).state.isTerminal = true := by
    rw [abort?_eq, if_pos h]
    exact h
  cases r with
  | startScrolling =>
    rw [heed, startScrolling_fst]
    split
    · rename_i hs
      rw [eq_of_beq hs] at h
      exact absurd h (by decide)
    · exact h
  | addScrolled n => exact h
  | markSubmitted => exact endScroll_isTerminal_of_isTerminal now h
  | failScroll message => exact endScroll_isTerminal_of_isTerminal now h
  | recordBatch n e => exact settle_isTerminal_of_isTerminal now h
  | completeBucket k =>
    rw [heed, completeBucket]
    split <;> exact h
  | abort => exact aborted none
  | abortWithError message => exact aborted (some message)

/-- A command that heeds an abort has ended, be it before. -/
theorem heed_isTerminal_of_isAbort (p : Progress) (now : Timestamp) {r : Report}
    (hr : r.isAbort = true) : (p.heed now r).state.isTerminal = true := by
  have aborted (message : Option String) :
      ((p.abort? now message).getD p).state.isTerminal = true := by
    rw [abort?_eq]
    split
    · assumption
    · rfl
  cases r with
  | abort => exact aborted none
  | abortWithError message => exact aborted (some message)
  | _ => exact absurd hr Bool.false_ne_true

end Progress

namespace Tracker

variable {t u : Tracker} {now : Timestamp} {id k : CommandId} {r : Report} {p : Progress}

/-- The progress of a command that is there and has not ended. -/
def live? (t : Tracker) (id : CommandId) : Option Progress := (t.find? id).bind Progress.live

/-- A command is not live exactly when it is gone or has ended. -/
theorem live?_eq_none :
    t.live? id = none ↔
      t.find? id = none ∨ ∃ p, t.find? id = some p ∧ p.state.isTerminal = true := by
  unfold live?
  cases t.find? id <;> simp [Progress.live_eq_none]

theorem live?_of_find? (h : t.find? id = some p) : t.live? id = p.live := by
  rw [live?, h, Option.bind_some]

theorem live?_of_gone (h : t.find? id = none) : t.live? id = none := by
  rw [live?, h, Option.bind_none]

theorem isAborted_iff :
    t.isAborted id = true ↔ ∃ p, t.find? id = some p ∧ p.state = .aborted := by
  unfold isAborted
  cases t.find? id <;> simp

theorem live?_of_isAborted (h : t.isAborted id = true) : t.live? id = none := by
  obtain ⟨p, hp, hstate⟩ := isAborted_iff.1 h
  rw [live?_of_find? hp, Progress.live_eq_none, hstate]
  rfl

/-- What an operation on behalf of one command may do to the tracker: the commands of other ids stay
as they are or are gone, and no command comes to occur twice. -/
structure Spares (id : CommandId) (t u : Tracker) : Prop where
  others : ∀ k, k ≠ id → u.find? k = t.find? k ∨ u.find? k = none
  ended : t.live? id = none → u.live? id = none
  distinct : t.Distinct → u.Distinct

namespace Spares

theorem refl (id : CommandId) (t : Tracker) : Spares id t t :=
  ⟨fun _ _ => .inl rfl, fun h => h, fun h => h⟩

theorem trans {v : Tracker} (h : Spares id t u) (h' : Spares id u v) : Spares id t v where
  others k hk := by
    obtain hv | hv := h'.others k hk
    · rw [hv]
      exact h.others k hk
    · exact .inr hv
  ended hl := h'.ended (h.ended hl)
  distinct hd := h'.distinct (h.distinct hd)

theorem live?_others (h : Spares id t u) (hk : k ≠ id) :
    u.live? k = t.live? k ∨ u.live? k = none := by
  obtain hu | hu := h.others k hk
  · left
    rw [live?, live?, hu]
  · right
    exact live?_of_gone hu

end Spares

namespace Heeds

theorem live? (h : Heeds t now id r p u) :
    u.live? id = (t.live? id).bind fun p => (p.heed now r).live := by
  rw [live?_of_find? h.find?_self, live?_of_find? h.before, Progress.live]
  cases ht : p.state.isTerminal
  · rw [Progress.live, ht]
    rfl
  · rw [Progress.live, ht, p.heed_isTerminal now ht r]
    rfl

theorem spares (h : Heeds t now id r p u) : Spares id t u where
  others _ hk := .inl (h.find?_other hk)
  ended hl := by rw [h.live?, hl, Option.bind_none]
  distinct := h.distinct

end Heeds

/-- An aborted command is not live. -/
theorem Heeds.live?_abort (h : Heeds t now id r p u) (hr : r.isAbort = true) :
    u.live? id = none := by
  rw [h.live?]
  cases t.live? id with
  | none => rfl
  | some p => exact Progress.live_eq_none.2 (p.heed_isTerminal_of_isAbort now hr)

theorem Drops.live?_eq (h : Drops t u) (id : CommandId) :
    u.live? id = t.live? id ∨ u.live? id = none := by
  obtain hu | hu := h.find?_eq id
  · left
    rw [Tracker.live?, hu, Tracker.live?]
  · right
    exact live?_of_gone hu

/-- Whatever is dropped, no other command is touched. -/
theorem Drops.spares (h : Drops t u) (id : CommandId) : Spares id t u where
  others k _ := h.find?_eq k
  ended hl := by
    obtain hu | hu := h.find?_eq id
    · rw [Tracker.live?, hu]
      exact hl
    · exact live?_of_gone hu
  distinct := h.distinct

/-- What an operation that gives nobody work may do: commands end or are dropped. -/
structure Loses (t u : Tracker) : Prop where
  find? : ∀ k, u.find? k = none ∨ t.find? k ≠ none
  live? : ∀ k, u.live? k = t.live? k ∨ u.live? k = none
  distinct : t.Distinct → u.Distinct

theorem Drops.loses (h : Drops t u) : Loses t u where
  find? k := by
    obtain hu | hu := h.find?_eq k
    · rw [hu]
      exact Decidable.em _
    · exact .inl hu
  live? := h.live?_eq
  distinct := h.distinct

/-- Cancelling a command is a report about it. -/
theorem heeds_abortWith {message : Option String} {new : Bool}
    (h : t.abortWith now id message = .ok (new, u)) :
    ∃ r p, r.isAbort = true ∧ Heeds t now id r p u := by
  -- an abort with or without a message is one of two reports
  obtain ⟨r, hr, hanswer⟩ : ∃ r : Report, r.isAbort = true ∧ t.answer now id r = .ok u := by
    cases message with
    | none => exact ⟨.abort, rfl, by simp [answer, abort, h, Except.map]⟩
    | some m => exact ⟨.abortWithError m, rfl, by simp [answer, abortWithError, h, Except.map]⟩
  obtain ⟨-, e, he⟩ | ⟨p, v, hv, hok⟩ := answer_cases t now id r
  · rw [hanswer] at he
    exact absurd he (by simp)
  · obtain rfl : u = v := Except.ok.inj (hanswer.symm.trans hok)
    exact ⟨r, p, hr, hv⟩

theorem loses_abortWith {message : Option String} {new : Bool}
    (h : t.abortWith now id message = .ok (new, u)) : Loses t u := by
  obtain ⟨r, p, hr, hv⟩ := heeds_abortWith h
  refine ⟨?_, ?_, hv.distinct⟩
  · intro k
    by_cases hk : k = id
    · right
      rw [hk, hv.before]
      simp
    · rw [hv.find?_other hk]
      exact Decidable.em _
  · intro k
    by_cases hk : k = id
    · right
      rw [hk]
      exact hv.live?_abort hr
    · exact hv.spares.live?_others hk

end Tracker

end BulkRun
