import BulkRun.Proofs.Status.Tracker
import Mathlib.Algebra.GroupWithZero.Nat
/-!
# Histories of a tracker

A history is a list of calls, each at a time of its own and each about some command.  A call about a
command that is not there fails and leaves the tracker as it was.  Main statement: the tracker runs
the calls about each command on their own (`find?_run`), so that a law about one command is a law
about the operations on its progress.
-/

namespace BulkRun

namespace Tracker

/-- What may be told about a command that was accepted. -/
inductive Report where
  | startScrolling
  | addScrolled (count : Nat)
  | markSubmitted
  | failScroll (message : String)
  | recordBatch (processed errors : Nat)
  | completeBucket (sequence : Nat)
  | abort
  | abortWithError (message : String)
deriving DecidableEq, Repr

/-- Whether a report asks for the end of the command. -/
def Report.isAbort : Report → Bool
  | .abort | .abortWithError _ => true
  | _ => false

/-- The number of records that a report says were scrolled. -/
def Report.scrolled : Report → Nat
  | .addScrolled count => count
  | _ => 0

/-- A report about a command, at an instant. -/
structure Call where
  now : Timestamp
  id : CommandId
  report : Report

/-- The answer of the tracker to a call, with what the call returns left aside. -/
def answer (t : Tracker) (now : Timestamp) (id : CommandId) : Report → Except Error Tracker
  | .startScrolling => t.startScrolling now id
  | .addScrolled count => t.addScrolled now id count
  | .markSubmitted => t.markSubmitted now id
  | .failScroll message => t.failScroll now id message
  | .recordBatch processed errors => t.recordBatch now id processed errors
  | .completeBucket sequence => (t.completeBucket now id sequence).map Prod.snd
  | .abort => (t.abort now id).map Prod.snd
  | .abortWithError message => (t.abortWithError now id message).map Prod.snd

/-- The tracker after a call. -/
def call (t : Tracker) (c : Call) : Tracker :=
  match t.answer c.now c.id c.report with
  | .ok u => u
  | .error _ => t

/-- The tracker after a history. -/
def run (t : Tracker) (calls : List Call) : Tracker := calls.foldl call t

theorem run_cons (t : Tracker) (c : Call) (calls : List Call) :
    t.run (c :: calls) = (t.call c).run calls := rfl

/-! ## The calls about one command -/

/-- The reports about a command, with their times. -/
def reportsOn (id : CommandId) (calls : List Call) : List (Timestamp × Report) :=
  (calls.filter (·.id == id)).map fun c => (c.now, c.report)

theorem reportsOn_append (id : CommandId) (earlier later : List Call) :
    reportsOn id (earlier ++ later) = reportsOn id earlier ++ reportsOn id later := by
  simp [reportsOn]

theorem reportsOn_cons_self (c : Call) (calls : List Call) :
    reportsOn c.id (c :: calls) = (c.now, c.report) :: reportsOn c.id calls := by
  simp [reportsOn]

theorem reportsOn_cons_other {id : CommandId} {c : Call} (h : c.id ≠ id) (calls : List Call) :
    reportsOn id (c :: calls) = reportsOn id calls := by
  simp [reportsOn, h]

/-- The number of records that some reports say were scrolled. -/
def scrolledIn (reports : List (Timestamp × Report)) : Nat :=
  (reports.map fun r => r.2.scrolled).sum

theorem scrolledIn_append (earlier later : List (Timestamp × Report)) :
    scrolledIn (earlier ++ later) = scrolledIn earlier + scrolledIn later := by
  simp [scrolledIn]

end Tracker

open Tracker (Report)

namespace Progress

/-- The progress of a command after a report about it. -/
def heed (p : Progress) (now : Timestamp) : Report → Progress
  | .startScrolling => (p.startScrolling now).1
  | .addScrolled count => p.addScrolled count
  | .markSubmitted => (p.markSubmitted now).1
  | .failScroll message => (p.failScroll now message).1
  | .recordBatch processed errors => (p.recordBatch now processed errors).1
  | .completeBucket sequence => p.completeBucket sequence
  | .abort => (p.abort? now none).getD p
  | .abortWithError message => (p.abort? now (some message)).getD p

/-- The progress of a command after some reports. -/
def heedAll (p : Progress) (reports : List (Timestamp × Report)) : Progress :=
  reports.foldl (fun p r => p.heed r.1 r.2) p

theorem heedAll_append (p : Progress) (earlier later : List (Timestamp × Report)) :
    p.heedAll (earlier ++ later) = (p.heedAll earlier).heedAll later :=
  List.foldl_append

theorem heedAll_concat (p : Progress) (reports : List (Timestamp × Report))
    (r : Timestamp × Report) : p.heedAll (reports ++ [r]) = (p.heedAll reports).heed r.1 r.2 := by
  rw [heedAll_append]
  rfl

end Progress

namespace Tracker

/-! ## Each command runs on its own -/

/-- What is found after a report about a command that is there. -/
structure Heeds (t : Tracker) (now : Timestamp) (id : CommandId) (r : Report) (p : Progress)
    (u : Tracker) : Prop where
  before : t.find? id = some p
  find? : ∀ k, u.find? k = if k = id then some (p.heed now r) else t.find? k
  distinct : t.Distinct → u.Distinct

namespace Heeds

variable {t u : Tracker} {now : Timestamp} {id k : CommandId} {r : Report} {p : Progress}

theorem find?_self (h : Heeds t now id r p u) : u.find? id = some (p.heed now r) := by
  rw [h.find? id, if_pos rfl]

theorem find?_other (h : Heeds t now id r p u) (hne : k ≠ id) : u.find? k = t.find? k := by
  rw [h.find? k, if_neg hne]

end Heeds

/-- A report is answered exactly when its command is there. -/
theorem answer_cases (t : Tracker) (now : Timestamp) (id : CommandId) (r : Report) :
    (t.find? id = none ∧ ∃ e, t.answer now id r = .error e) ∨
      ∃ p u, Heeds t now id r p u ∧ t.answer now id r = .ok u := by
  have changed (f : Progress → Progress × List CommandState)
      (hf : ∀ p, (f p).1.command = p.command) (hr : ∀ p, (f p).1 = p.heed now r) :
      (t.find? id = none ∧ ∃ e, t.change now id f = .error e) ∨
        ∃ p u, Heeds t now id r p u ∧ t.change now id f = .ok u := by
    obtain ⟨hnone, h⟩ | ⟨p, u, hu, h⟩ := change_cases t now id f hf
    · exact .inl ⟨hnone, _, h⟩
    · refine .inr ⟨p, u, ⟨hu.before, ?_, hu.distinct⟩, h⟩
      rw [← hr]
      exact hu.find?
  have aborted (message : Option String)
      (hr : ∀ p : Progress, (p.abort? now message).getD p = p.heed now r) :
      (t.find? id = none ∧ ∃ e, (t.abortWith now id message).map Prod.snd = .error e) ∨
        ∃ p u, Heeds t now id r p u ∧ (t.abortWith now id message).map Prod.snd = .ok u := by
    obtain ⟨hnone, h⟩ | ⟨p, hp, ht, h⟩ | ⟨p, u, ht, hu, h⟩ :=
      abortWith_cases t now id message
    · exact .inl ⟨hnone, _, by rw [h]; rfl⟩
    · refine .inr ⟨p, t, ⟨hp, ?_, fun hd => hd⟩, by rw [h]; rfl⟩
      intro k
      rw [← hr, Progress.abort?_eq, if_pos ht]
      split
      · rename_i hk
        rw [hk, hp]
        rfl
      · rfl
    · refine .inr ⟨p, u, ⟨hu.before, ?_, hu.distinct⟩, by rw [h]; rfl⟩
      intro k
      rw [← hr, Progress.abort?_eq, ht, hu.find? k]
      rfl
  cases r with
  | startScrolling => exact changed _ (fun p => p.startScrolling_command now) fun _ => rfl
  | addScrolled count =>
    exact changed (fun p => (p.addScrolled count, [])) (fun _ => rfl) fun _ => rfl
  | markSubmitted => exact changed _ (fun p => p.markSubmitted_command now) fun _ => rfl
  | failScroll message =>
    exact changed _ (fun p => p.failScroll_command now message) fun _ => rfl
  | recordBatch n e => exact changed _ (fun p => p.recordBatch_command now n e) fun _ => rfl
  | completeBucket k =>
    obtain ⟨hnone, e, h⟩ | ⟨p, u, hu, h⟩ :=
      changed (fun p => (p.completeBucket k, [])) (fun p => p.completeBucket_command k) fun _ => rfl
    · exact .inl ⟨hnone, e, by simp [answer, completeBucket, h, Except.map]⟩
    · exact .inr ⟨p, u, hu, by simp [answer, completeBucket, h, Except.map]⟩
  | abort => exact aborted none fun _ => rfl
  | abortWithError message => exact aborted (some message) fun _ => rfl

/-- A report about a command that is there is answered. -/
theorem exists_answer {t : Tracker} {id : CommandId} {p : Progress} (hfind : t.find? id = some p)
    (now : Timestamp) (r : Report) : ∃ u, Heeds t now id r p u ∧ t.answer now id r = .ok u := by
  rcases answer_cases t now id r with ⟨hgone, -⟩ | ⟨q, u, hu, h⟩
  · rw [hfind] at hgone
    exact absurd hgone (by simp)
  · rw [Option.some.inj (hfind.symm.trans hu.before)]
    exact ⟨u, hu, h⟩

theorem of_map_snd {α β ε : Type} {r : Except ε (α × β)} {b : β}
    (h : r.map Prod.snd = .ok b) : ∃ a, r = .ok (a, b) := by
  cases r with
  | error => exact absurd h (by simp [Except.map])
  | ok ab => exact ⟨ab.1, by rw [← Except.ok.inj h]⟩

/-- A bucket that is marked as done changes the progress of its command, and nothing else. -/
theorem change_of_completeBucket {t u : Tracker} {now : Timestamp} {id : CommandId} {sequence : Nat}
    {new : Bool} (h : t.completeBucket now id sequence = .ok (new, u)) :
    t.change now id (fun p => (p.completeBucket sequence, [])) = .ok u := by
  rw [completeBucket] at h
  cases hchange : t.change now id fun p => (p.completeBucket sequence, []) with
  | error => exact absurd h (by simp [hchange, Except.map])
  | ok v =>
    rw [hchange] at h
    rw [(Prod.mk.inj (Except.ok.inj h)).2]

private theorem of_map_error {α β ε : Type} {f : α → β} {r : Except ε α} {err : ε}
    (h : r.map f = .error err) : r = .error err := by
  cases r with
  | error => exact congrArg Except.error (Except.error.inj h)
  | ok => exact absurd h (by simp [Except.map])

/-- A call that returns something besides the tracker succeeds exactly when its command is there. -/
theorem cases_of_answer {t : Tracker} {now : Timestamp} {id : CommandId} {r : Report} {α : Type}
    {answered : Except Error (α × Tracker)} (hanswer : t.answer now id r = answered.map Prod.snd) :
    (t.find? id = none ∧ ∃ e, answered = .error e) ∨
      ∃ p u a, Heeds t now id r p u ∧ answered = .ok (a, u) := by
  obtain ⟨hgone, e, h⟩ | ⟨p, u, hu, h⟩ := answer_cases t now id r
  · exact .inl ⟨hgone, e, of_map_error (hanswer.symm.trans h)⟩
  · obtain ⟨a, h⟩ := of_map_snd (hanswer.symm.trans h)
    exact .inr ⟨p, u, a, hu, h⟩

theorem completeBucket_cases (t : Tracker) (now : Timestamp) (id : CommandId) (k : Nat) :
    (t.find? id = none ∧ ∃ e, t.completeBucket now id k = .error e) ∨
      ∃ p u new, Heeds t now id (.completeBucket k) p u ∧
        t.completeBucket now id k = .ok (new, u) :=
  cases_of_answer rfl

theorem abort_cases (t : Tracker) (now : Timestamp) (id : CommandId) :
    (t.find? id = none ∧ ∃ e, t.abort now id = .error e) ∨
      ∃ p u new, Heeds t now id .abort p u ∧ t.abort now id = .ok (new, u) :=
  cases_of_answer rfl

theorem abortWithError_cases (t : Tracker) (now : Timestamp) (id : CommandId) (message : String) :
    (t.find? id = none ∧ ∃ e, t.abortWithError now id message = .error e) ∨
      ∃ p u new, Heeds t now id (.abortWithError message) p u ∧
        t.abortWithError now id message = .ok (new, u) :=
  cases_of_answer rfl

theorem find?_call_self (t : Tracker) (c : Call) :
    (t.call c).find? c.id = (t.find? c.id).map (·.heed c.now c.report) := by
  unfold call
  obtain ⟨hnone, e, h⟩ | ⟨p, u, hu, h⟩ := answer_cases t c.now c.id c.report
  · rw [h]
    simp [hnone]
  · rw [h, hu.before]
    exact hu.find?_self

theorem find?_call_other (t : Tracker) {c : Call} {id : CommandId} (hne : c.id ≠ id) :
    (t.call c).find? id = t.find? id := by
  unfold call
  obtain ⟨-, e, h⟩ | ⟨p, u, hu, h⟩ := answer_cases t c.now c.id c.report
  · rw [h]
  · rw [h]
    exact hu.find?_other (Ne.symm hne)

/-- What a history does to a command is what the reports about it do to its progress. -/
theorem find?_run (t : Tracker) (id : CommandId) (calls : List Call) :
    (t.run calls).find? id = (t.find? id).map (·.heedAll (reportsOn id calls)) := by
  induction calls generalizing t with
  | nil => cases h : t.find? id <;> simp [run, h, reportsOn, Progress.heedAll]
  | cons c calls ih =>
    rw [run_cons, ih]
    by_cases h : c.id = id
    · subst h
      rw [find?_call_self, reportsOn_cons_self]
      cases t.find? c.id <;> rfl
    · rw [find?_call_other _ h, reportsOn_cons_other h]

end Tracker

end BulkRun
