import BulkRun.Proofs.Execution.Labour
/-!
# Whoever is not the scroll loop of a command

Only its scroll loop tells how the scroll of a command goes.  Whatever else is told of the command,
be it work or a cancellation, leaves the count of its records and whether that is complete
(`Tracker.Bides`), and unless it aborts the command, the scroll goes on.  This is so of every step
of an execution, whatever its action does.
-/

namespace BulkRun

open Tracker (Report Heeds)

/-- Whether a report is about the scroll of a command. -/
def Tracker.Report.isScroll : Report → Bool
  | .startScrolling | .addScrolled _ | .markSubmitted | .failScroll _ => true
  | _ => false

namespace Progress

variable {p : Progress} {k : Command} {n : Nat} {r : Report} {reports : List (Timestamp × Report)}

theorem isWork_or_isAbort (hr : r.isScroll = false) : r.isWork = true ∨ r.isAbort = true := by
  cases r with
  | recordBatch | completeBucket => exact .inl rfl
  | abort | abortWithError => exact .inr rfl
  | _ => exact absurd hr (by simp [Report.isScroll])

/-- What is told besides leaves what is known of the scroll. -/
theorem heed_aside (hr : r.isScroll = false) (p : Progress) (now : Timestamp) :
    (p.heed now r).scrollCount = p.scrollCount ∧ (p.heed now r).submitted = p.submitted := by
  obtain hwork | habort := isWork_or_isAbort hr
  · obtain ⟨-, hsubmitted, -, -, hcount⟩ := heed_work_frame hwork p now
    exact ⟨hcount, hsubmitted⟩
  · obtain ⟨s, m, at', hq⟩ := heed_abort_frame (p := p) now habort
    rw [hq]
    exact ⟨rfl, rfl⟩

theorem heedAll_aside (hreports : ∀ r ∈ reports, r.2.isScroll = false) (p : Progress) :
    (p.heedAll reports).scrollCount = p.scrollCount ∧
      (p.heedAll reports).submitted = p.submitted := by
  induction reports generalizing p with
  | nil => exact ⟨rfl, rfl⟩
  | cons r reports ih =>
    obtain ⟨hr, hrest⟩ := List.forall_mem_cons.1 hreports
    obtain ⟨hcount, hsubmitted⟩ := heed_aside hr p r.1
    obtain ⟨hcounts, hsubmits⟩ := ih hrest (p.heed r.1 r.2)
    exact ⟨hcounts.trans hcount, hsubmits.trans hsubmitted⟩

/-- A command that scrolls goes on to, or was aborted. -/
theorem Scrolls.heedAll_aside (h : p.Scrolls k n)
    (hreports : ∀ r ∈ reports, r.2.isScroll = false) :
    (p.heedAll reports).Scrolls k n ∨ (p.heedAll reports).state = .aborted := by
  induction reports generalizing p with
  | nil => exact .inl h
  | cons r reports ih =>
    obtain ⟨hr, hrest⟩ := List.forall_mem_cons.1 hreports
    obtain hwork | habort := isWork_or_isAbort hr
    · exact ih (h.heed_work hwork r.1) hrest
    · right
      have hstate : (p.heed r.1 r.2).state = .aborted := state_of_isAbort r.1 h.goesOn habort
      refine (heedAll_state_of_isTerminal ?_ reports).trans hstate
      rw [hstate]
      rfl

end Progress

namespace Tracker

variable {id : CommandId} {t u v : Tracker} {now : Timestamp} {r : Report} {p q : Progress}

/-- Whether nothing is told of the scroll of a command, which may be dropped. -/
def Bides (id : CommandId) (t u : Tracker) : Prop :=
  ∀ q, u.find? id = some q → ∃ p reports, t.find? id = some p ∧ q = p.heedAll reports ∧
    ∀ r ∈ reports, r.2.isScroll = false

namespace Bides

theorem of_same_or_gone (h : u.find? id = t.find? id ∨ u.find? id = none) : Bides id t u := by
  intro q hq
  obtain h | h := h
  · exact ⟨q, [], h ▸ hq, rfl, by simp⟩
  · rw [h] at hq
    exact absurd hq (by simp)

theorem refl (id : CommandId) (t : Tracker) : Bides id t t := of_same_or_gone (.inl rfl)

theorem trans (h : Bides id t u) (h' : Bides id u v) : Bides id t v := by
  intro q hq
  obtain ⟨p, later, hp, rfl, hlater⟩ := h' q hq
  obtain ⟨o, earlier, ho, rfl, hearlier⟩ := h p hp
  refine ⟨o, earlier ++ later, ho, (o.heedAll_append earlier later).symm, fun r hr => ?_⟩
  obtain hr | hr := List.mem_append.1 hr
  · exact hearlier r hr
  · exact hlater r hr

/-- The command is known by what it was before, and the scroll by as much. -/
theorem exists_before (h : Bides id t u) (hq : u.find? id = some q) :
    ∃ p, t.find? id = some p ∧ q.scrollCount = p.scrollCount ∧ q.submitted = p.submitted := by
  obtain ⟨p, reports, hp, rfl, hreports⟩ := h q hq
  exact ⟨p, hp, Progress.heedAll_aside hreports p⟩

end Bides

theorem Heeds.bides {k : CommandId} (h : Heeds t now k r p u) (hr : r.isScroll = false)
    (id : CommandId) : Bides id t u := by
  by_cases hid : id = k
  · subst hid
    intro q hq
    obtain rfl := Option.some.inj (h.find?_self.symm.trans hq)
    refine ⟨p, [(now, r)], h.before, rfl, fun s hs => ?_⟩
    rw [List.mem_singleton.1 hs]
    exact hr
  · exact .of_same_or_gone (.inl (h.find?_other hid))

theorem isScroll_of_isAbort (hr : r.isAbort = true) : r.isScroll = false := by
  cases r with
  | abort | abortWithError => rfl
  | _ => exact absurd hr (by simp [Report.isAbort])

end Tracker

namespace Execution

variable {σ : Type} {setup : Setup σ} {e : Engine σ} {r : Execution σ × Engine σ} {b : Bucket}
  {command : Command} {action : Action σ} {left : List Batch} {w : Work σ} {x : Execution σ}
  {errors : Nat}

theorem GoesOn.bides (h : GoesOn command action b e left r) (id : CommandId) :
    Tracker.Bides id e.tracker r.2.tracker := by
  cases h with
  | complete _ _ ht => exact ht.bides rfl id
  | _ => exact .refl id _

theorem Begins.bides (h : Begins setup b e r) (id : CommandId) :
    Tracker.Bides id e.tracker r.2.tracker := by
  cases h with
  | abort _ ht => exact ht.bides rfl id
  | goesOn _ _ _ _ h => exact h.bides id
  | _ => exact .refl id _

/-- Work tells nothing of a scroll. -/
theorem Works.bides (h : Works x w e r) (id : CommandId) :
    Tracker.Bides id e.tracker r.2.tracker := by
  cases h with
  | proceed _ _ hf _ =>
    intro q hq
    obtain ⟨p, reports, hp, rfl, hreports⟩ := hf.found hq
    refine ⟨p, reports, hp, rfl, fun r hr => ?_⟩
    rw [(hreports r hr).1]
    rfl
  | report h =>
    cases h with
    | gone => exact .refl id _
    | told ht h => exact (ht.bides rfl id).trans (h.bides id)
  | gone => exact .refl id _
  | abort _ ht => exact ht.bides rfl id

end Execution

end BulkRun
