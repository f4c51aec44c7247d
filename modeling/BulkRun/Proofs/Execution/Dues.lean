import BulkRun.Proofs.Dispatch.Dues
/-!
# Executions and the dues of a command

Every step of an execution leaves the dues of the command whose bucket it works on covered: a batch
that is reported is owed for no longer, and a bucket on which the work is over is done, or its
command is aborted or gone.  A batch is begun only for a command that is there and not aborted
(`Begins.begun`, `Works.begun`).
-/

namespace BulkRun

open Tracker (Report Heeds)

variable {σ : Type} {e : Engine σ}

/-- Whether there are records in the batch at hand and in all later ones. -/
def Work.IsSolid (w : Work σ) : Prop := ∀ batch ∈ w.batch :: w.later, batch.ids ≠ []

namespace Execution

/-- The work for which a transaction was just asked. -/
def opened? : Execution σ → Option (Work σ)
  | .opening w _ => some w
  | _ => none

theorem work?_of_opened? {x : Execution σ} {w : Work σ} (h : x.opened? = some w) :
    x.work? = some w := by
  cases x with
  | opening v answer => exact h
  | _ => exact absurd h (by simp [opened?])

/-- Whether all the batches that an execution has at hand have records. -/
def IsSolid (x : Execution σ) : Prop := ∀ w, x.work? = some w → w.IsSolid

theorem isSolid_finished (result : Except Error BucketOutcome) :
    IsSolid (.finished result : Execution σ) := by
  intro w hw
  exact absurd hw (by simp [work?])

variable {setup : Setup σ} {b : Bucket} {r : Execution σ × Engine σ} {command : Command}
  {action : Action σ} {left : List Batch} {w : Work σ} {x : Execution σ} {errors owed : Nat}
  {lots : Multiset Lot}

/-! ## Batches have records -/

theorem GoesOn.isSolid (h : GoesOn command action b e left r)
    (hleft : ∀ batch ∈ left, batch.ids ≠ []) : r.1.IsSolid := by
  cases h with
  | opens batch later processed errors answer world _ =>
    intro w hw
    obtain rfl := Option.some.inj hw
    exact hleft
  | _ => exact isSolid_finished _

theorem Reports.isSolid (h : Reports w errors e r) (hw : w.IsSolid) : r.1.IsSolid := by
  cases h with
  | gone => exact isSolid_finished _
  | told _ h => exact h.isSolid fun batch hbatch => hw batch (List.mem_cons_of_mem _ hbatch)

theorem Begins.isSolid (h : Begins setup b e r) : r.1.IsSolid := by
  cases h with
  | goesOn _ _ _ _ h => exact h.isSolid fun batch hbatch => ids_ne_nil_of_mem_batches hbatch
  | _ => exact isSolid_finished _

theorem Works.isSolid (h : Works x w e r) (hw : w.IsSolid) : r.1.IsSolid := by
  cases h with
  | proceed hwork _ _ _ =>
    intro v hv
    obtain rfl := Option.some.inj (hwork.symm.trans hv)
    exact hw
  | report h => exact h.isSolid hw
  | gone => exact isSolid_finished _
  | abort => exact isSolid_finished _

/-! ## Dues -/

theorem GoesOn.dues (h : GoesOn command action b e left r) (hid : command.id = b.commandId)
    (hdues : Dues owed (e.tracker.find? b.commandId)
      (⟨b, .working (left.map (·.ids.length)).sum⟩ ::ₘ lots)) :
    Dues owed (r.2.tracker.find? b.commandId) (⟨b, r.1.standing⟩ ::ₘ lots) := by
  cases h with
  | gone err hgone =>
    rw [hid] at hgone
    rw [hgone]
    exact .gone _ _
  | @complete p t processed errors ht =>
    rw [hid] at ht
    rw [ht.before] at hdues
    show Dues owed (t.find? b.commandId) (⟨b, .ended⟩ ::ₘ lots)
    rw [ht.find?_self]
    exact hdues.complete
  | interrupt batch later processed errors haborted =>
    rw [hid] at haborted
    obtain ⟨p, hp, hstate⟩ := Tracker.isAborted_iff.1 haborted
    apply hdues.leave
    intro q hq
    obtain rfl := Option.some.inj (hp.symm.trans hq)
    rw [hstate]
    rfl
  | opens => exact hdues

theorem Reports.dues (h : Reports w errors e r) (hbucket : w.bucket = b)
    (hid : w.command.id = b.commandId)
    (hdues : Dues owed (e.tracker.find? b.commandId) (⟨b, .working w.left⟩ ::ₘ lots)) :
    Dues owed (r.2.tracker.find? b.commandId) (⟨b, r.1.standing⟩ ::ₘ lots) := by
  cases h with
  | gone err hgone =>
    rw [hid] at hgone
    rw [hgone]
    exact .gone _ _
  | told ht h =>
    rw [hbucket] at h
    rw [hid] at ht
    refine h.dues hid ?_
    rw [ht.before] at hdues
    rw [ht.find?_self]
    exact hdues.report

theorem Begins.dues (h : Begins setup b e r)
    (hdues : Dues owed (e.tracker.find? b.commandId) (⟨b, .untouched⟩ ::ₘ lots)) :
    Dues owed (r.2.tracker.find? b.commandId) (⟨b, r.1.standing⟩ ::ₘ lots) := by
  have hskip : Dues owed (e.tracker.find? b.commandId) (⟨b, .ended⟩ ::ₘ lots) :=
    hdues.lay (by simp) (by simp)
  cases h with
  | unknown _ => exact hskip
  | terminal _ _ => exact hskip
  | duplicate _ _ _ => exact hskip
  | @abort p t err _ ht =>
    rw [ht.before] at hdues
    show Dues owed (t.find? b.commandId) (⟨b, .ended⟩ ::ₘ lots)
    rw [ht.find?_self]
    exact hdues.abandon rfl
  | goesOn hfind hopen hdone _ h =>
    refine h.dues (Tracker.id_of_find? hfind) ?_
    rw [length_batches]
    rw [hfind] at hdues ⊢
    exact hdues.begin hopen (by simp) hdone

theorem Works.dues (h : Works x w e r) (hbucket : w.bucket = b)
    (hid : w.command.id = b.commandId)
    (hdues : Dues owed (e.tracker.find? b.commandId) (⟨b, .working w.left⟩ ::ₘ lots)) :
    Dues owed (r.2.tracker.find? b.commandId) (⟨b, r.1.standing⟩ ::ₘ lots) := by
  cases h with
  | @proceed y f hwork _ hf _ =>
    have hstanding : y.standing = .working w.left := by rw [standing, hwork]
    show Dues owed (f.tracker.find? b.commandId) (⟨b, y.standing⟩ ::ₘ lots)
    rw [hstanding]
    cases hfind : f.tracker.find? b.commandId with
    | none => exact .gone _ _
    | some q =>
      -- the action may have aborted its command while it was called
      obtain ⟨p, reports, hp, rfl, hreports⟩ := hf.found hfind
      rw [hp] at hdues
      apply hdues.heedAll_plain
      intro r hr
      rw [(hreports r hr).1]
      rfl
  | report h => exact h.dues hbucket hid hdues
  | gone err hgone =>
    rw [hid] at hgone
    rw [hgone]
    exact .gone _ _
  | @abort p t m message _ ht =>
    rw [hid] at ht
    rw [ht.before] at hdues
    show Dues owed (t.find? b.commandId) (⟨b, .ended⟩ ::ₘ lots)
    rw [ht.find?_self]
    exact hdues.abandon rfl

/-! ## Batches are begun only for commands that are not aborted -/

theorem GoesOn.begun {v : Work σ} (h : GoesOn command action b e left r)
    (hv : r.1.opened? = some v) :
    r.2.tracker = e.tracker ∧ e.tracker.isAborted command.id = false := by
  cases h with
  | opens batch later processed errors answer world haborted => exact ⟨rfl, haborted⟩
  | _ => exact absurd hv (by simp [opened?])

theorem Begins.begun {v : Work σ} (h : Begins setup b e r) (hv : r.1.opened? = some v) :
    ∃ p, r.2.tracker.find? b.commandId = some p ∧ p.state ≠ .aborted := by
  cases h with
  | goesOn hfind hopen _ _ h =>
    rw [(h.begun hv).1]
    refine ⟨_, hfind, fun hstate => ?_⟩
    rw [hstate] at hopen
    exact absurd hopen (by decide)
  | _ => exact absurd hv (by simp [opened?])

/-- After a report the next batch is begun only if the command is there and not aborted. -/
theorem Reports.begun {v : Work σ} (h : Reports w errors e r) (hv : r.1.opened? = some v) :
    ∃ p, r.2.tracker.find? w.command.id = some p ∧ p.state ≠ .aborted := by
  cases h with
  | gone => exact absurd hv (by simp [opened?])
  | told ht h =>
    obtain ⟨htracker, haborted⟩ := h.begun hv
    rw [htracker]
    refine ⟨_, ht.find?_self, fun hstate => ?_⟩
    rw [Tracker.isAborted_iff.2 ⟨_, ht.find?_self, hstate⟩] at haborted
    exact absurd haborted (by simp)

theorem Works.begun {v : Work σ} (h : Works x w e r) (hv : r.1.opened? = some v) :
    ∃ p, r.2.tracker.find? w.command.id = some p ∧ p.state ≠ .aborted := by
  cases h with
  | @proceed y f _ hy _ _ =>
    cases y with
    | opening => exact absurd hy (by simp [isOpening])
    | _ => exact absurd hv (by simp [opened?])
  | report h => exact h.begun hv
  | gone => exact absurd hv (by simp [opened?])
  | abort => exact absurd hv (by simp [opened?])

end Execution

end BulkRun
