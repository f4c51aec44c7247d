import BulkRun.Proofs.Dispatch.MeetingDues
import Mathlib.Algebra.BigOperators.Group.Multiset.Basic
/-!
# What is in flight for a command that was called off

A command is called off once it is aborted, whether or not it is dropped later on.  From then on no
batch is begun for it, and what is in flight can only come to its end: every grip and every deal
winds it down (`windsDown_handles`, `windsDown_deals`), so that no more of its records come to count
as worked on than those of the batches that were in flight.
-/

namespace BulkRun

open Relation (ReflTransGen)
open Tracker (Report Heeds Raises)

variable {σ : Type} {setup : Setup σ} {id : CommandId}

theorem Tracker.recorded_of_isAbort {r : Report} (hr : r.isAbort = true) : r.recorded = 0 := by
  cases r with
  | recordBatch => exact absurd hr Bool.false_ne_true
  | _ => rfl

/-- Whether a command is aborted or gone. -/
def Tracker.CallsOff (t : Tracker) (id : CommandId) : Prop :=
  ∀ p, t.find? id = some p → p.state = .aborted

theorem Tracker.CallsOff.raises {t u : Tracker} {n : Nat} (h : t.CallsOff id)
    (hraises : Raises id n t u) : u.CallsOff id := by
  intro q hq
  obtain ⟨p, hp, -, hstate⟩ := hraises q hq
  exact hstate (h p hp)

theorem Tracker.callsOff_of_isAborted {t : Tracker} (h : t.isAborted id = true) :
    t.CallsOff id := by
  obtain ⟨p, hp, hstate⟩ := Tracker.isAborted_iff.1 h
  intro q hq
  obtain rfl := Option.some.inj (hp.symm.trans hq)
  exact hstate

/-! ## Executions -/

namespace Execution

variable {e : Engine σ} {b : Bucket} {r : Execution σ × Engine σ} {command : Command}
  {action : Action σ} {left : List Batch} {w : Work σ} {x : Execution σ} {errors : Nat}

theorem GoesOn.raises (h : GoesOn command action b e left r) (id : CommandId) :
    Raises id 0 e.tracker r.2.tracker := by
  cases h with
  | complete processed errors ht => exact ht.raises_zero rfl id
  | _ => exact .refl id _

/-- Nothing goes on for a command that is called off, and that is there. -/
theorem GoesOn.work?_of_callsOff {p : Progress} (h : GoesOn command action b e left r)
    (hoff : e.tracker.CallsOff command.id) (hfind : e.tracker.find? command.id = some p) :
    r.1.work? = none := by
  cases h with
  | opens batch later processed errors answer world haborted =>
    rw [Tracker.isAborted_iff.2 ⟨p, hfind, hoff p hfind⟩] at haborted
    exact absurd haborted (by simp)
  | _ => rfl

theorem Begins.raises (h : Begins setup b e r) (id : CommandId) :
    Raises id 0 e.tracker r.2.tracker := by
  cases h with
  | abort _ ht => exact ht.raises_zero rfl id
  | goesOn _ _ _ _ h => exact h.raises id
  | _ => exact .refl id _

/-- No work begins for a command that is called off. -/
theorem Begins.work?_of_callsOff (h : Begins setup b e r) (hoff : e.tracker.CallsOff b.commandId) :
    r.1.work? = none := by
  by_contra hwork
  obtain ⟨w, hw⟩ := Option.ne_none_iff_exists'.1 hwork
  obtain ⟨p, hp, hopen⟩ := h.found hw
  rw [hoff p hp] at hopen
  exact absurd hopen (by decide)

theorem raises_of_meddles {k : CommandId} {f : Engine σ} (h : Engine.Meddles k e f)
    (id : CommandId) : Raises id 0 e.tracker f.tracker := by
  intro q hq
  obtain ⟨p, reports, hp, rfl, hreports⟩ := h.found hq
  have hplain : ∀ r ∈ reports, r.2.recorded = 0 := by
    intro r hr
    rw [(hreports r hr).1]
    rfl
  refine ⟨p, hp, Progress.processed_heedAll_le hplain, fun hstate => ?_⟩
  rw [Progress.heedAll_state_of_isTerminal (by rw [hstate]; rfl), hstate]

/-- Work for other commands raises nothing. -/
theorem Works.raises_other (h : Works x w e r) (hid : id ≠ w.command.id) :
    Raises id 0 e.tracker r.2.tracker := by
  cases h with
  | proceed _ _ hf _ => exact raises_of_meddles hf id
  | report h =>
    cases h with
    | gone => exact .refl id _
    | told ht h =>
      have hraises := ht.raises id
      rw [if_neg hid] at hraises
      exact hraises.trans (h.raises id)
  | gone => exact .refl id _
  | abort _ ht => exact ht.raises_zero rfl id

/-- Work for a command that was called off goes on with its batch, or ends with it. -/
theorem Works.windsDown (h : Works x w e r) (hoff : e.tracker.CallsOff w.command.id) :
    r.1.work? = some w ∧ Raises w.command.id 0 e.tracker r.2.tracker ∨
      r.1.work? = none ∧ Raises w.command.id w.batch.ids.length e.tracker r.2.tracker := by
  have hzero {t u : Tracker} (h : Raises w.command.id 0 t u) :
      Raises w.command.id w.batch.ids.length t u := by
    intro q hq
    obtain ⟨p, hp, hle, hstate⟩ := h q hq
    exact ⟨p, hp, by omega, hstate⟩
  cases h with
  | proceed hwork _ hf _ => exact .inl ⟨hwork, raises_of_meddles hf _⟩
  | report h =>
    right
    cases h with
    | gone => exact ⟨rfl, hzero (.refl _ _)⟩
    | told ht h =>
      have hraises := ht.raises w.command.id
      rw [if_pos rfl] at hraises
      exact ⟨h.work?_of_callsOff (hoff.raises hraises) ht.find?_self,
        hraises.trans (h.raises w.command.id)⟩
  | gone => exact .inr ⟨rfl, hzero (.refl _ _)⟩
  | abort _ ht => exact .inr ⟨rfl, hzero (ht.raises_zero rfl _)⟩

end Execution

/-! ## Scroll loops -/

namespace ScrollLoop

variable {l : ScrollLoop σ} {e : Engine σ} {r : ScrollLoop σ × Engine σ} {report : Report}
  {how : ScrollEnd} {after : AfterBucket}

theorem recorded_lastWord (err : Error) : (lastWord err).recorded = 0 := by
  obtain ⟨-, m, h⟩ | ⟨m, h⟩ := lastWord_cases err
  · rw [h]
    rfl
  · rw [h]
    rfl

theorem Returns.raises (h : Returns l e report how r) (hreport : report.recorded = 0)
    (id : CommandId) : Raises id 0 e.tracker r.2.tracker := by
  cases h with
  | gone => exact .refl id _
  | told ht => exact ht.raises_zero hreport id

theorem GoesOn.raises (h : GoesOn l e after r) (id : CommandId) :
    Raises id 0 e.tracker r.2.tracker := by
  cases h with
  | exhaust _ h => exact h.raises rfl id
  | submit h => exact h.raises rfl id
  | fail h => exact h.raises (recorded_lastWord _) id
  | _ => exact .refl id _

/-- What a loop does raises nothing. -/
theorem Resumes.raises (h : Resumes l e r) (id : CommandId) :
    Raises id 0 e.tracker r.2.tracker := by
  cases h with
  | begin _ ht => exact ht.raises_zero rfl id
  | refuse _ _ _ h => exact h.raises (recorded_lastWord _) id
  | openUp _ _ _ _ h => exact h.raises id
  | chunk _ _ _ ht h => exact (ht.raises_zero rfl id).trans (h.raises id)
  | breakEmpty _ _ _ _ h => exact h.raises (recorded_lastWord _) id
  | closed _ _ h => exact h.raises (recorded_lastWord _) id
  | published _ _ _ h => exact h.raises id
  | _ => exact .refl id _

end ScrollLoop

/-! ## Benches -/

/-- The work on a held bucket that is for a command. -/
def Hand.workFor? (id : CommandId) (h : Hand σ) : Option (Work σ) :=
  (h.execution.bind Execution.work?).filter fun w => w.command.id == id

namespace Bench

/-- The work at hand for a command. -/
def inFlight (id : CommandId) (b : Bench σ) : Multiset (Work σ) :=
  b.hands.filterMap (Hand.workFor? id)

/-- The number of records in the batches that are in flight for a command. -/
def inFlightSize (id : CommandId) (b : Bench σ) : Nat :=
  ((b.inFlight id).map fun w => w.batch.ids.length).sum

/-- What may still happen for a command that was called off. -/
structure WindsDown (id : CommandId) (b c : Bench σ) : Prop where
  off : c.engine.tracker.CallsOff id
  inFlight : c.inFlight id ≤ b.inFlight id
  processed : ∀ q, c.engine.tracker.find? id = some q → ∃ p,
    b.engine.tracker.find? id = some p ∧
    q.processed + c.inFlightSize id ≤ p.processed + b.inFlightSize id

variable {a b c : Bench σ} {sign : Option (Sign σ)}

theorem WindsDown.refl (hoff : b.engine.tracker.CallsOff id) : WindsDown id b b :=
  ⟨hoff, le_rfl, fun q hq => ⟨q, hq, Nat.le_refl _⟩⟩

theorem WindsDown.trans (h : WindsDown id a b) (h' : WindsDown id b c) : WindsDown id a c where
  off := h'.off
  inFlight := h'.inFlight.trans h.inFlight
  processed q hq := by
    obtain ⟨p, hp, hle⟩ := h'.processed q hq
    obtain ⟨o, ho, hle'⟩ := h.processed p hp
    exact ⟨o, ho, by omega⟩

/-- Nothing is counted, and nothing more is in flight. -/
theorem windsDown_of_le (hoff : b.engine.tracker.CallsOff id)
    (hraises : Raises id 0 b.engine.tracker c.engine.tracker)
    (hle : c.inFlight id ≤ b.inFlight id) : WindsDown id b c where
  off := hoff.raises hraises
  inFlight := hle
  processed q hq := by
    obtain ⟨p, hp, hcount, -⟩ := hraises q hq
    refine ⟨p, hp, ?_⟩
    obtain ⟨rest, hrest⟩ := Multiset.le_iff_exists_add.1 hle
    have hsize : b.inFlightSize id =
        c.inFlightSize id + (rest.map fun w => w.batch.ids.length).sum := by
      rw [inFlightSize, hrest, Multiset.map_add, Multiset.sum_add, inFlightSize]
    omega

variable {e : Engine σ} {ls : List (ScrollLoop σ)} {hs : Multiset (Hand σ)} {h : Hand σ}

theorem inFlight_cons_none (hwork : h.workFor? id = none) :
    inFlight id ⟨e, ls, h ::ₘ hs⟩ = inFlight id ⟨e, ls, hs⟩ :=
  Multiset.filterMap_cons_none _ _ hwork

theorem inFlight_cons_some {w : Work σ} (hwork : h.workFor? id = some w) :
    inFlight id ⟨e, ls, h ::ₘ hs⟩ = w ::ₘ inFlight id ⟨e, ls, hs⟩ :=
  Multiset.filterMap_cons_some _ _ _ hwork

/-- A delivery that is let go of is in flight no longer. -/
theorem inFlight_le_cons (h : Hand σ) :
    inFlight id ⟨e, ls, hs⟩ ≤ inFlight id ⟨e, ls, h ::ₘ hs⟩ := by
  cases hwork : h.workFor? id with
  | none => rw [inFlight_cons_none hwork]
  | some w =>
    rw [inFlight_cons_some hwork]
    exact Multiset.le_cons_self _ w

theorem workFor?_eq_some {w : Work σ} : h.workFor? id = some w ↔
    h.execution.bind Execution.work? = some w ∧ w.command.id = id := by
  rw [Hand.workFor?, Option.filter_eq_some_iff, beq_iff_eq]

/-- Work on a bucket at hand, for a command that was called off. -/
theorem windsDown_work {v : Delivery} {x : Execution σ} {w : Work σ} {r : Execution σ × Engine σ}
    (hoff : e.tracker.CallsOff id) (hw : x.work? = some w) (hworks : Execution.Works x w e r) :
    WindsDown id ⟨e, ls, ⟨v, some x⟩ ::ₘ hs⟩ ⟨r.2, ls, ⟨v, some r.1⟩ ::ₘ hs⟩ := by
  by_cases hid : id = w.command.id
  · subst hid
    have hbefore : Hand.workFor? w.command.id ⟨v, some x⟩ = some w :=
      workFor?_eq_some.2 ⟨hw, rfl⟩
    obtain ⟨hwork, hraises⟩ | ⟨hwork, hraises⟩ := hworks.windsDown hoff
    · have hafter : Hand.workFor? w.command.id ⟨v, some r.1⟩ = some w :=
        workFor?_eq_some.2 ⟨hwork, rfl⟩
      apply windsDown_of_le hoff hraises
      rw [inFlight_cons_some hafter, inFlight_cons_some hbefore]
      exact le_rfl
    · have hafter : Hand.workFor? w.command.id ⟨v, some r.1⟩ = none := by
        rw [Hand.workFor?, Option.bind_some, hwork]
        rfl
      refine ⟨hoff.raises hraises, ?_, fun q hq => ?_⟩
      · rw [inFlight_cons_none hafter, inFlight_cons_some hbefore]
        exact Multiset.le_cons_self _ w
      · obtain ⟨p, hp, hle, -⟩ := hraises q hq
        refine ⟨p, hp, ?_⟩
        -- what comes to be counted is no more than what was in flight
        rw [inFlightSize, inFlightSize, inFlight_cons_none hafter, inFlight_cons_some hbefore,
          Multiset.map_cons, Multiset.sum_cons]
        have hrest : inFlight w.command.id ⟨r.2, ls, hs⟩ = inFlight w.command.id ⟨e, ls, hs⟩ := rfl
        rw [hrest]
        omega
  · have hnone {y : Execution σ} {u : Work σ} (hy : y.work? = some u)
        (hu : u.command.id = w.command.id) : Hand.workFor? id ⟨v, some y⟩ = none := by
      rw [Option.eq_none_iff_forall_ne_some]
      intro u' hu'
      obtain ⟨hsame, hid'⟩ := workFor?_eq_some.1 hu'
      obtain rfl := Option.some.inj (hy.symm.trans hsame)
      exact hid (hid'.symm.trans hu)
    apply windsDown_of_le hoff (hworks.raises_other hid)
    rw [inFlight_cons_none (hnone hw rfl)]
    cases hr : r.1.work? with
    | none =>
      rw [inFlight_cons_none (by rw [Hand.workFor?, Option.bind_some, hr]; rfl)]
      exact le_rfl
    | some u =>
      rw [inFlight_cons_none (hnone hr (congrArg Command.id (hworks.isFor u hr).1))]
      exact le_rfl

/-- Every grip winds down what is in flight for a command that was called off. -/
theorem windsDown_handles (hd : b.engine.tracker.Distinct) (hoff : b.engine.tracker.CallsOff id)
    (hgrip : Handles setup b sign c) : WindsDown id b c := by
  cases hgrip with
  | @receive e ls hs i v d h =>
    have hnone : Hand.workFor? id ⟨v, none⟩ = (none : Option (Work σ)) := rfl
    have hraises : Raises id 0 e.tracker { e with channel := d }.tracker := .refl id _
    exact windsDown_of_le hoff hraises (le_of_eq (inFlight_cons_none hnone))
  | @start e ls hs v r h =>
    subst h
    have hbegins := Execution.begins_start setup v.bucket e
    have hbefore : Hand.workFor? id ⟨v, none⟩ = (none : Option (Work σ)) := rfl
    have hafter : Hand.workFor? id ⟨v, some (Execution.start setup v.bucket e).1⟩ = none := by
      rw [Option.eq_none_iff_forall_ne_some]
      intro w hw
      obtain ⟨hwork, rfl⟩ := workFor?_eq_some.1 hw
      have hid : w.command.id = v.bucket.commandId := (Execution.acts_start.serves w hwork).2
      rw [hid] at hoff
      have hnone := hbegins.work?_of_callsOff hoff
      rw [show (Execution.start setup v.bucket e).1.work? = some w from hwork] at hnone
      exact absurd hnone (by simp)
    apply windsDown_of_le hoff (hbegins.raises id)
    rw [inFlight_cons_none hafter, inFlight_cons_none hbefore]
    exact le_rfl
  | @work e ls hs v x r h =>
    obtain ⟨w, hw, hworks⟩ := Execution.works_step? hd h
    exact windsDown_work hoff hw hworks
  | acknowledge result => exact windsDown_of_le hoff (.refl id _) (inFlight_le_cons _)
  | handBack h => exact windsDown_of_le hoff (.refl id _) (inFlight_le_cons h)

/-- Every deal leaves what is in flight, and raises nothing, unless it accepts the command. -/
theorem windsDown_deals (hoff : b.engine.tracker.CallsOff id) (hdeal : Deals setup b sign c)
    (honce : (c.loops.filter (·.id == id)).length ≤ 1)
    (hseen : b.loops.filter (·.id == id) ≠ []) : WindsDown id b c := by
  cases hdeal with
  | @resume l hl hopen =>
    exact windsDown_of_le hoff ((ScrollLoop.resumes_resume hopen).raises id) le_rfl
  | putOff hl hr =>
    obtain rfl | ⟨k, after, d, -, -, rfl⟩ := ScrollLoop.putOff?_eq_some hr
    · exact windsDown_of_le hoff (.refl id _) le_rfl
    · exact windsDown_of_le hoff (.refl id _) le_rfl
  | @accept k k' x u hprepare hreg =>
    have hne : id ≠ k'.id := by
      rintro rfl
      have hpos := List.length_pos_of_ne_nil hseen
      rw [List.filter_append, List.length_append,
        List.filter_cons_of_pos (by exact beq_self_eq_true k'.id), List.length_cons] at honce
      omega
    have hraises : Raises id 0 b.engine.tracker u := by
      refine Tracker.raises_of_same_or_gone (.inl ?_)
      rw [(Tracker.register_eq_ok hreg).2 id, if_neg hne]
    exact windsDown_of_le hoff hraises le_rfl
  | abort h =>
    obtain ⟨r, p, hr, ht⟩ := Tracker.heeds_abortWith h
    exact windsDown_of_le hoff (ht.raises_zero (Tracker.recorded_of_isAbort hr) id) le_rfl
  | drop h => exact windsDown_of_le hoff (Tracker.raises_of_same_or_gone (h.find?_eq id)) le_rfl
  | _ => exact windsDown_of_le hoff (.refl id _) le_rfl

/-- Every event winds down what is in flight for a command that was called off. -/
theorem windsDown_turns (hd : b.engine.tracker.Distinct) (hoff : b.engine.tracker.CallsOff id)
    (hturns : Turns setup b sign c) (honce : (c.loops.filter (·.id == id)).length ≤ 1)
    (hseen : b.loops.filter (·.id == id) ≠ []) : WindsDown id b c := by
  obtain hdeal | ⟨mid, hchain, hgrip⟩ := hturns
  · exact windsDown_deals hoff hdeal honce hseen
  · have hmid : mid.engine.tracker.Distinct ∧ WindsDown id b mid := by
      clear hgrip
      induction hchain with
      | refl => exact ⟨hd, .refl hoff⟩
      | tail _ hgrip ih =>
        obtain ⟨hdistinct, hwinds⟩ := ih
        exact ⟨(hgrip.advances hdistinct).distinct hdistinct,
          hwinds.trans (windsDown_handles hdistinct hwinds.off hgrip)⟩
    exact hmid.2.trans (windsDown_handles hmid.1 hmid.2.off hgrip)

end Bench

end BulkRun
