import BulkRun.Proofs.Status.History
/-!
# The record of an ending

A command that has ended may still be told about: by consumers that come too late, and by a scroll
that goes on until it notices.  Main statement: the state and the time of the ending stay as they
are as long as the command is kept, and the message stays except that a scroll that breaks off
afterwards puts its own in its place.
-/

namespace BulkRun

open Tracker (Report)

/-- The message of a scroll that broke off. -/
def Tracker.Report.failure? : Report → Option String
  | .failScroll message => some message
  | _ => none

/-- The messages of the scrolls that broke off, as some reports tell. -/
def failuresIn (reports : List (Timestamp × Report)) : List String :=
  reports.filterMap (·.2.failure?)

theorem failuresIn_cons (r : Timestamp × Report) (reports : List (Timestamp × Report)) :
    failuresIn (r :: reports) = r.2.failure?.toList ++ failuresIn reports := by
  unfold failuresIn
  cases h : r.2.failure? with
  | none => exact List.filterMap_cons_none h
  | some message => exact List.filterMap_cons_some h

namespace Progress

variable {p : Progress}

/-- What a report leaves of the record of an ending: the time, and the message unless a scroll broke
off. -/
theorem heed_ending (hended : p.state.isTerminal = true) (now : Timestamp) (r : Report) :
    (p.heed now r).completedAt = p.completedAt ∧
      (p.heed now r).errorMessage = r.failure?.or p.errorMessage := by
  cases r with
  | startScrolling =>
    obtain ⟨s, at', hq⟩ := p.startScrolling_frame now
    rw [heed, hq]
    exact ⟨rfl, rfl⟩
  | addScrolled n => exact ⟨rfl, rfl⟩
  | markSubmitted =>
    rw [heed, markSubmitted, endScroll_of_isTerminal now (by exact hended)]
    exact ⟨rfl, rfl⟩
  | failScroll message =>
    -- the message is written before anything asks for the state
    rw [heed, failScroll, endScroll_of_isTerminal now (by exact hended)]
    exact ⟨rfl, rfl⟩
  | recordBatch n e =>
    rw [heed, recordBatch, settle_of_isTerminal now (by exact hended)]
    exact ⟨rfl, rfl⟩
  | completeBucket k =>
    obtain ⟨done, hq⟩ := p.completeBucket_frame k
    rw [heed, hq]
    exact ⟨rfl, rfl⟩
  | abort =>
    rw [heed, abort?_eq, if_pos hended]
    exact ⟨rfl, rfl⟩
  | abortWithError message =>
    rw [heed, abort?_eq, if_pos hended]
    exact ⟨rfl, rfl⟩

/-- After any reports the message is that of the last scroll that broke off meanwhile. -/
theorem heedAll_ending (hended : p.state.isTerminal = true) (reports : List (Timestamp × Report)) :
    (p.heedAll reports).completedAt = p.completedAt ∧
      (p.heedAll reports).errorMessage = (failuresIn reports).getLast?.or p.errorMessage := by
  induction reports generalizing p with
  | nil => exact ⟨rfl, rfl⟩
  | cons r reports ih =>
    obtain ⟨hat, hmessage⟩ := heed_ending hended r.1 r.2
    obtain ⟨hat', hmessage'⟩ := ih (p.heed_isTerminal r.1 hended r.2)
    refine ⟨hat'.trans hat, hmessage'.trans ?_⟩
    rw [hmessage, failuresIn_cons, List.getLast?_append, Option.or_assoc]
    cases r.2.failure? <;> rfl

end Progress

namespace Tracker

variable {t s : Tracker} {id : CommandId} {p : Progress}

/-- A command that is kept heeds what the operations of a run report about it. -/
theorem find?_of_run {moves : List (Move Tracker Operation)} (hrun : Run next? t moves s)
    (ht : t.Distinct) (hp : t.find? id = some p) (hkept : ∀ m ∈ moves, m.after.find? id ≠ none) :
    s.find? id = some (p.heedAll (yielded (Operation.reportOn? id) moves)) := by
  induction hrun with
  | start => exact hp
  | @move moves v w o hbefore hnext ih =>
    have hq := ih fun m hm => hkept m (List.mem_append_left _ hm)
    have hthere : w.find? id ≠ none := hkept ⟨v, o, w⟩ (by simp)
    obtain rfl := Option.some.inj hnext
    rw [find?_operate (distinct_of_run ht hbefore) hq hthere, yielded_concat,
      Progress.heedAll_append]

/-- What an abort with a message records when it ends a command. -/
theorem ending_of_abortWithError {u : Tracker} {now : Timestamp} {message : String}
    (h : t.abortWithError now id message = .ok (true, u)) :
    ∃ p, u.find? id = some p ∧ p.state = .aborted ∧ p.errorMessage = some message ∧
      p.completedAt = some now := by
  obtain ⟨-, h'⟩ | ⟨p, -, -, h'⟩ | ⟨p, v, -, hv, h'⟩ := abortWith_cases t now id (some message)
  · exact absurd (h.symm.trans h') (by simp)
  · exact absurd (Prod.mk.inj (Except.ok.inj (h.symm.trans h'))).1 (by simp)
  · obtain rfl := (Prod.mk.inj (Except.ok.inj (h.symm.trans h'))).2
    exact ⟨_, (hv.find? id).trans (if_pos rfl), rfl, rfl, rfl⟩

/-- The ending of a command is kept, but for the message of a scroll that breaks off afterwards.
From any tracker in which a command has ended, and as long as the command is kept, its state and the
time of its end stay as they are, and so does its message unless a scroll is told to have broken
off: then the last of these failures is what the status shows, be it in the place of the reason for
which an abort ended the command. -/
theorem ending_is_kept {capacity retention : Nat} {front rear : List (Move Tracker Operation)}
    (hfront : Run next? (keeping capacity retention) front t) (hrear : Run next? t rear s)
    (hp : t.find? id = some p) (hended : p.state.isTerminal = true)
    (hkept : ∀ m ∈ rear, m.after.find? id ≠ none) :
    ∃ q, s.find? id = some q ∧ q.state = p.state ∧ q.status.completedAt = p.completedAt ∧
      q.status.errorMessage =
        (failuresIn (yielded (Operation.reportOn? id) rear)).getLast?.or p.errorMessage ∧
      ∀ (v : Tracker) now message, v.abortWithError now id message = .ok (true, t) →
        q.status.completedAt = some now ∧ q.status.errorMessage =
          some ((failuresIn (yielded (Operation.reportOn? id) rear)).getLastD message) := by
  have hd : t.Distinct := distinct_of_run (distinct_keeping capacity retention) hfront
  obtain ⟨hat, hmessage⟩ :=
    Progress.heedAll_ending hended (yielded (Operation.reportOn? id) rear)
  refine ⟨_, find?_of_run hrear hd hp hkept, Progress.heedAll_state_of_isTerminal hended _, hat,
    hmessage, fun v now message habort => ?_⟩
  obtain ⟨p', hp', -, hmessage', hat'⟩ := ending_of_abortWithError habort
  obtain rfl := Option.some.inj (hp.symm.trans hp')
  refine ⟨hat.trans hat', hmessage.trans ?_⟩
  rw [hmessage', List.getLastD_eq_getLast?]
  cases (failuresIn (yielded (Operation.reportOn? id) rear)).getLast? <;> rfl

/-- The command is aborted for a reason while its records are scrolled. -/
def outOfStorage : List Operation :=
  [.register ⟨0, 0⟩ archiveAll, .call ⟨⟨1, 0⟩, archiveAll.id, .startScrolling⟩,
    .call ⟨⟨2, 0⟩, archiveAll.id, .abortWithError "out of storage"⟩]

/-- Its scroll breaks off before it notices. -/
def connectionLost : List Operation :=
  [.call ⟨⟨3, 0⟩, archiveAll.id, .recordBatch 1 1⟩, .call ⟨⟨4, 0⟩, archiveAll.id, .abort⟩,
    .call ⟨⟨5, 0⟩, archiveAll.id, .failScroll "connection lost"⟩]

/-- The reason of the abort gives way to the failure of the scroll. -/
theorem ending_is_kept_but_for_the_message :
    ∃ front rear t s p, Run next? (new 8 60) front t ∧ Run next? t rear s ∧
      t.find? archiveAll.id = some p ∧ p.state.isTerminal = true ∧
      (∀ m ∈ rear, m.after.find? archiveAll.id ≠ none) ∧
      front.map (·.event) = outOfStorage ∧ rear.map (·.event) = connectionLost ∧
      p.status.errorMessage = some "out of storage" ∧ p.status.completedAt = some ⟨2, 0⟩ ∧
      ∃ q, s.find? archiveAll.id = some q ∧ q.state = p.state ∧
        q.status.completedAt = some ⟨2, 0⟩ ∧ q.status.errorMessage = some "connection lost" := by
  have hcheck : (movesOf? next? (new 8 60) outOfStorage).any (fun f =>
      ((f.2.find? archiveAll.id).any fun p => p.state.isTerminal &&
        decide (p.status.errorMessage = some "out of storage") &&
        decide (p.status.completedAt = some ⟨2, 0⟩)) &&
      (movesOf? next? f.2 connectionLost).any fun r =>
        r.1.all fun m => (m.after.find? archiveAll.id).isSome) = true := by
    decide +kernel
  obtain ⟨⟨front, t⟩, hfront, hrest⟩ := (Option.any_eq_true _ _).1 hcheck
  obtain ⟨hfound, hrest⟩ := (Bool.and_eq_true _ _).mp hrest
  obtain ⟨p, hp, hthere⟩ := (Option.any_eq_true _ _).1 hfound
  obtain ⟨⟨rear, s⟩, hrear, hs⟩ := (Option.any_eq_true _ _).1 hrest
  simp only [Bool.and_eq_true, decide_eq_true_eq] at hthere
  obtain ⟨⟨hended, hmessage⟩, hat⟩ := hthere
  have hkept : ∀ m ∈ rear, m.after.find? archiveAll.id ≠ none := fun m hm =>
    Option.isSome_iff_ne_none.1 (List.all_eq_true.1 hs m hm)
  have htold : failuresIn (yielded (Operation.reportOn? archiveAll.id) rear) =
      ["connection lost"] := by
    rw [yielded_eq_filterMap, events_of_movesOf? hrear]
    decide
  obtain ⟨q, hq, hstate, hsameAt, hlast, -⟩ :=
    ending_is_kept (.of_movesOf? hfront) (.of_movesOf? hrear) hp hended hkept
  rw [htold] at hlast
  exact ⟨front, rear, t, s, p, .of_movesOf? hfront, .of_movesOf? hrear, hp, hended, hkept,
    events_of_movesOf? hfront, events_of_movesOf? hrear, hmessage, hat, q, hq, hstate,
    hsameAt.trans hat, hlast⟩

end Tracker

end BulkRun
