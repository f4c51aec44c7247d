import BulkRun.Proofs.Dispatch.WorkedOff
import BulkRun.Proofs.Execution.Dues
/-!
# The labour of loyal actions

An execution comes to each batch of its bucket through all batches before it (`Work.InTurn`).  As
long as its action is loyal, nothing but work befalls its command (`Works.labours`), and the
command's buckets are worked off: a bucket is done when the work on all its batches was begun, and
the command comes to its end when no work is left to be begun (`Works.worked`).  Other commands are
left as they are, unless they have ended (`Works.retains`).
-/

namespace BulkRun

open Tracker (Report Heeds Retains Labours)

variable {σ : Type} {setup : Setup σ} {e : Engine σ} {id : CommandId} {k : Command}
  {opened : List (Work σ)}

/-- Interventions on behalf of other commands. -/
theorem Engine.Meddles.retains {f : Engine σ} {other : CommandId} (h : Engine.Meddles other e f)
    (hne : id ≠ other) : Retains id e.tracker f.tracker := by
  cases hf : f.tracker.find? id with
  | none =>
    refine .inr ⟨hf, fun p hp => ?_⟩
    by_contra hopen
    rw [h.kept hne hp (Bool.eq_false_iff.2 hopen)] at hf
    exact absurd hf (by simp)
  | some q =>
    obtain ⟨p, reports, hp, rfl, hreports⟩ := h.found hf
    obtain rfl : reports = [] :=
      List.eq_nil_iff_forall_not_mem.2 fun r hr => hne (hreports r hr).2
    exact .inl (hf.trans hp.symm)

/-- Whether work for a command came to its batch through all batches before it. -/
structure Work.InTurn (k : Command) (opened : List (Work σ)) (w : Work σ) : Prop where
  command : w.command = k
  batches : ∃ front, batches w.bucket.ids k.batchSize = front ++ w.batch :: w.later ∧
    ∀ batch ∈ front ++ [w.batch], Begun k opened w.bucket batch

theorem Work.InTurn.append {w : Work σ} (h : w.InTurn k opened) (more : List (Work σ)) :
    w.InTurn k (opened ++ more) := by
  obtain ⟨front, hbatches, hfront⟩ := h.batches
  exact ⟨h.command, front, hbatches, fun batch hbatch => (hfront batch hbatch).append more⟩

/-- The work on the last batch of a bucket. -/
theorem Work.InTurn.allBegun {w : Work σ} (h : w.InTurn k opened) (hlast : w.later = []) :
    AllBegun k opened w.bucket := by
  obtain ⟨front, hbatches, hfront⟩ := h.batches
  rw [hlast] at hbatches
  intro batch hbatch
  rw [hbatches] at hbatch
  exact hfront batch hbatch

namespace Execution

/-- Whether an execution does loyal work for a command, batch after batch. -/
structure InTurn (k : Command) (opened : List (Work σ)) (x : Execution σ) : Prop where
  loyal : x.IsLoyal
  work : ∀ w, x.work? = some w → w.InTurn k opened

theorem InTurn.append {x : Execution σ} (h : x.InTurn k opened) (more : List (Work σ)) :
    x.InTurn k (opened ++ more) :=
  ⟨h.loyal, fun w hw => (h.work w hw).append more⟩

theorem inTurn_finished (k : Command) (opened : List (Work σ))
    (result : Except Error BucketOutcome) : InTurn k opened (.finished result) :=
  ⟨isLoyal_finished result, fun w hw => absurd hw (by simp [work?])⟩

variable {b : Bucket} {r : Execution σ × Engine σ} {command : Command} {action : Action σ}
  {left : List Batch} {w : Work σ} {x : Execution σ} {errors owed : Nat}

/-! ## Batch after batch -/

theorem GoesOn.inTurn (h : GoesOn k action b e left r) (front : List Batch)
    (hloyal : action.IsLoyal) (hbatches : batches b.ids k.batchSize = front ++ left)
    (hfront : ∀ batch ∈ front, Begun k opened b batch) :
    r.1.InTurn k (opened ++ r.1.opened?.toList) := by
  cases h with
  | opens batch later processed errors answer world _ =>
    refine ⟨isLoyal_opening hloyal answer, fun w hw => ?_⟩
    obtain rfl := Option.some.inj hw
    refine ⟨rfl, front, hbatches, fun c hc => ?_⟩
    obtain hc | hc := List.mem_append.1 hc
    · exact (hfront c hc).append _
    · exact ⟨_, List.mem_append_right opened List.mem_cons_self, rfl, rfl,
        (List.mem_singleton.1 hc).symm⟩
  | _ => exact inTurn_finished _ _ _

theorem Reports.inTurn (h : Reports w errors e r) (hw : w.InTurn k opened)
    (hloyal : w.action.IsLoyal) : r.1.InTurn k (opened ++ r.1.opened?.toList) := by
  cases h with
  | gone => exact inTurn_finished _ _ _
  | told _ h =>
    obtain ⟨front, hbatches, hfront⟩ := hw.batches
    rw [hw.command] at h
    exact h.inTurn (front ++ [w.batch]) hloyal (by simp [hbatches]) hfront

theorem Works.inTurn (h : Works x w e r) (hx : x.InTurn k opened) (hw : x.work? = some w) :
    r.1.InTurn k (opened ++ r.1.opened?.toList) := by
  cases h with
  | proceed hwork _ _ hloyal =>
    refine ⟨(hloyal hx.loyal).1, fun v hv => ?_⟩
    obtain rfl := Option.some.inj (hwork.symm.trans hv)
    exact (hx.work w hw).append _
  | report h => exact h.inTurn (hx.work w hw) (hx.loyal.action w hw)
  | gone => exact inTurn_finished _ _ _
  | abort => exact inTurn_finished _ _ _

theorem Begins.inTurn (h : Begins setup b e r)
    (hknown : ∀ p, e.tracker.find? b.commandId = some p → p.command = k)
    (hloyal : ∀ registered, setup.actions.resolve k.action = .ok registered →
      registered.action.IsLoyal) : r.1.InTurn k (opened ++ r.1.opened?.toList) := by
  cases h with
  | goesOn hfind _ _ haction h =>
    rw [hknown _ hfind] at haction h
    exact h.inTurn [] (hloyal _ haction) rfl (by simp)
  | _ => exact inTurn_finished _ _ _

/-! ## Other commands -/

theorem GoesOn.retains (h : GoesOn command action b e left r) (hne : id ≠ command.id) :
    Retains id e.tracker r.2.tracker := by
  cases h with
  | complete _ _ ht => exact ht.retains hne
  | _ => exact .refl id _

theorem Begins.retains (h : Begins setup b e r) (hne : id ≠ b.commandId) :
    Retains id e.tracker r.2.tracker := by
  cases h with
  | abort _ ht => exact ht.retains hne
  | goesOn hfind _ _ _ h =>
    rw [← Tracker.id_of_find? hfind] at hne
    exact h.retains hne
  | _ => exact .refl id _

/-- Work for other commands. -/
theorem Works.retains (h : Works x w e r) (hne : id ≠ w.command.id) :
    Retains id e.tracker r.2.tracker := by
  cases h with
  | proceed _ _ hf _ => exact hf.retains hne
  | report h =>
    cases h with
    | gone => exact .refl id _
    | told ht h => exact (ht.retains hne).trans (h.retains hne)
  | gone => exact .refl id _
  | abort _ ht => exact ht.retains hne

/-! ## Nothing but work -/

theorem GoesOn.labours {t : Tracker} (h : GoesOn command action b e left r)
    (ht : Labours command.id t e.tracker) : Labours command.id t r.2.tracker := by
  cases h with
  | complete _ _ hheeds => exact ht.tell hheeds rfl
  | _ => exact ht

theorem Begins.labours (h : Begins setup b e r)
    (haction : ∀ p, e.tracker.find? b.commandId = some p →
      ∃ registered, setup.actions.resolve p.command.action = .ok registered) :
    Labours b.commandId e.tracker r.2.tracker := by
  have hstill := (Retains.refl b.commandId e.tracker).labours
  cases h with
  | abort herr ht =>
    obtain ⟨registered, hresolve⟩ := haction _ ht.before
    rw [herr] at hresolve
    exact absurd hresolve (by simp)
  | goesOn hfind _ _ _ h =>
    rw [← Tracker.id_of_find? hfind] at hstill ⊢
    exact h.labours hstill
  | _ => exact hstill

/-- Nothing but work befalls a command from loyal work for it. -/
theorem Works.labours (h : Works x w e r) (hx : x.IsLoyal) :
    Labours w.command.id e.tracker r.2.tracker := by
  have hstill := (Retains.refl w.command.id e.tracker).labours
  cases h with
  | proceed _ _ _ hloyal => exact ((hloyal hx).2.retains _).labours
  | report h =>
    cases h with
    | gone => exact hstill
    | told ht h => exact h.labours (ht.labours rfl)
  | gone => exact hstill
  | abort hcause _ =>
    rw [hcause] at hx
    exact absurd rfl (hx.runs _)

/-! ## Buckets are worked off -/

variable {published : List Bucket} {there : Multiset Bucket} {lots : Multiset Lot}

theorem GoesOn.worked (h : GoesOn k action b e left r) (front : List Batch) (hb : b ∈ published)
    (hbatches : batches b.ids k.batchSize = front ++ left)
    (hfront : ∀ batch ∈ front, Begun k opened b batch)
    (hworked : WorkedOff (AllBegun k opened) published there (e.tracker.find? k.id)) :
    WorkedOff (AllBegun k (opened ++ r.1.opened?.toList)) published there
      (r.2.tracker.find? k.id) := by
  have hmore {found : Option Progress} (h : WorkedOff (AllBegun k opened) published there found) :
      WorkedOff (AllBegun k (opened ++ r.1.opened?.toList)) published there found :=
    h.mono fun _ hbegun => hbegun.append _
  cases h with
  | complete _ _ ht =>
    refine hmore ?_
    rw [ht.before] at hworked
    rw [ht.find?_self]
    refine hworked.complete hb fun batch hbatch => ?_
    rw [hbatches, List.append_nil] at hbatch
    exact hfront batch hbatch
  | _ => exact hmore hworked

theorem Begins.worked (h : Begins setup b e r) (hb : b ∈ published)
    (hknown : ∀ p, e.tracker.find? b.commandId = some p → p.command = k)
    (haction : ∃ registered, setup.actions.resolve k.action = .ok registered)
    (hworked : WorkedOff (AllBegun k opened) published there (e.tracker.find? k.id)) :
    WorkedOff (AllBegun k (opened ++ r.1.opened?.toList)) published there
      (r.2.tracker.find? k.id) := by
  cases h with
  | abort herr ht =>
    obtain ⟨registered, hresolve⟩ := haction
    rw [hknown _ ht.before, hresolve] at herr
    exact absurd herr (by simp)
  | goesOn hfind _ _ _ h =>
    rw [hknown _ hfind] at h
    exact h.worked [] hb rfl (by simp) hworked
  | _ => exact hworked.mono fun _ hbegun => hbegun.append _

theorem Reports.worked (h : Reports w errors e r) (hb : w.bucket ∈ published)
    (hw : w.InTurn k opened) (hsolid : w.IsSolid)
    (hdues : Dues owed (e.tracker.find? k.id) (⟨w.bucket, .working w.left⟩ ::ₘ lots))
    (hworking : ∀ lot ∈ lots, lot.standing ≠ .working 0)
    (hworked : WorkedOff (AllBegun k opened) published (w.bucket ::ₘ lots.map (·.bucket))
      (e.tracker.find? k.id)) :
    WorkedOff (AllBegun k (opened ++ r.1.opened?.toList)) published
      (w.bucket ::ₘ lots.map (·.bucket)) (r.2.tracker.find? k.id) := by
  cases h with
  | gone => exact hworked.mono fun _ hbegun => hbegun.append _
  | told ht h =>
    rw [hw.command] at ht h
    obtain ⟨front, hbatches, hfront⟩ := hw.batches
    refine h.worked (front ++ [w.batch]) hb (by simp [hbatches]) hfront ?_
    rw [ht.before] at hworked hdues
    rw [ht.find?_self]
    refine hworked.report hdues (fun _ => allBegun_of_nil) hworking fun hzero => ?_
    refine hw.allBegun (List.eq_nil_iff_forall_not_mem.2 fun batch hbatch => ?_)
    -- a later batch has records, which would be left
    have hle : batch.ids.length ≤ (w.later.map (·.ids.length)).sum :=
      List.le_sum_of_mem (List.mem_map_of_mem hbatch)
    rw [hzero, Nat.le_zero, List.length_eq_zero_iff] at hle
    exact hsolid batch (List.mem_cons_of_mem _ hbatch) hle

theorem Works.worked (h : Works x w e r) (hx : x.InTurn k opened) (hxw : x.work? = some w)
    (hb : w.bucket ∈ published) (hsolid : w.IsSolid)
    (hdues : Dues owed (e.tracker.find? k.id) (⟨w.bucket, .working w.left⟩ ::ₘ lots))
    (hworking : ∀ lot ∈ lots, lot.standing ≠ .working 0)
    (hworked : WorkedOff (AllBegun k opened) published (w.bucket ::ₘ lots.map (·.bucket))
      (e.tracker.find? k.id)) :
    WorkedOff (AllBegun k (opened ++ r.1.opened?.toList)) published
      (w.bucket ::ₘ lots.map (·.bucket)) (r.2.tracker.find? k.id) := by
  have hmore {found : Option Progress} (h : WorkedOff (AllBegun k opened) published
      (w.bucket ::ₘ lots.map (·.bucket)) found) : WorkedOff
      (AllBegun k (opened ++ r.1.opened?.toList)) published
        (w.bucket ::ₘ lots.map (·.bucket)) found :=
    h.mono fun _ hbegun => hbegun.append _
  cases h with
  | proceed _ _ _ hloyal => exact hmore (hworked.retain ((hloyal hx.loyal).2.retains k.id))
  | report h => exact h.worked hb (hx.work w hxw) hsolid hdues hworking hworked
  | gone => exact hmore hworked
  | abort hcause _ =>
    have hloyal := hx.loyal
    rw [hcause] at hloyal
    exact absurd rfl (hloyal.runs _)

end Execution

end BulkRun
