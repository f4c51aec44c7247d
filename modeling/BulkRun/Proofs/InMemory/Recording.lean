import BulkRun.Execution.Isolation
import BulkRun.InMemory.Actions
/-!
# Isolation with a recording action

An action that stops on some records is tried on every record of a batch, once each and in order,
however the calls go: what it is applied to are the records it does not stop on, and the failures
that are counted are the others.  Main statement: one answered call of a batch does so for the
records that it settles (`answer_apply`).
-/

namespace BulkRun

namespace Isolation

/-- The records of a batch that were not tried yet. -/
def rest : Isolation → List String
  | .whole ids => ids
  | .single id later _ => id :: later
  | _ => []

/-- The failures counted so far. -/
def errors : Isolation → Nat
  | .single _ _ errors => errors
  | .done errors => errors
  | _ => 0

/-- Whether the batch was given up. -/
def hasFailed : Isolation → Bool
  | .failed _ => true
  | _ => false

@[simp]
theorem rest_next (later : List String) (errors : Nat) : (next later errors).rest = later := by
  cases later <;> rfl

@[simp]
theorem errors_next (later : List String) (errors : Nat) : (next later errors).errors = errors := by
  cases later <;> rfl

@[simp]
theorem hasFailed_next (later : List String) (errors : Nat) :
    (next later errors).hasFailed = false := by
  cases later <;> rfl

end Isolation

/-- An action that succeeds on all records reports no failures. -/
theorem failures_of_success (ids : List String) :
    failures (ids.map fun id => ⟨id, none⟩) ids.length = 0 := by
  simp [failures, RecordOutcome.isSuccess]

/-- The first place of something that does not come earlier. -/
theorem idxOf?_append_cons {front later : List String} {id : String} (h : id ∉ front) :
    (front ++ id :: later).idxOf? id = some front.length := by
  rw [List.idxOf?_eq_some_iff]
  refine ⟨by simp, by simp, ?_⟩
  intro j hj
  rw [List.getElem_append_left hj]
  intro heq
  exact h (heq ▸ List.getElem_mem hj)

namespace InMemory.RecordingAction

variable (a : RecordingAction)

/-- Whether the action stops on a record. -/
def stopsOn (id : String) : Bool := a.failing.contains id

/-- The action after it was tried on some records, each on its own or together. -/
def tried (ids : List String) : RecordingAction :=
  { a with applied := a.applied ++ ids.filter fun id => !a.stopsOn id }

/-- The action is applied to all records, or to those before the first on which it stops. -/
theorem applyAll_cases (done : List RecordOutcome) (ids : List String) :
    (∀ id ∈ ids, a.stopsOn id = false) ∧
        a.applyAll done ids =
          (.ok (done.reverse ++ ids.map fun id => ⟨id, none⟩),
            { a with applied := a.applied ++ ids }) ∨
      ∃ front id later, ids = front ++ id :: later ∧ (∀ k ∈ front, a.stopsOn k = false) ∧
        a.stopsOn id = true ∧
        a.applyAll done ids =
          (.error (.recordFailed id "rejected by action"),
            { a with applied := a.applied ++ front }) := by
  induction ids generalizing a done with
  | nil =>
    refine .inl ⟨by simp, ?_⟩
    simp [applyAll]
  | cons id rest ih =>
    cases hstops : a.stopsOn id with
    | true =>
      refine .inr ⟨[], id, rest, rfl, by simp, hstops, ?_⟩
      have hstop : a.failing.contains id = true := hstops
      rw [applyAll, if_pos hstop, List.append_nil]
    | false =>
      have hgoes : ¬a.failing.contains id = true := by
        rw [show a.failing.contains id = false from hstops]
        exact Bool.false_ne_true
      have hrest := ih { a with applied := a.applied ++ [id] } (⟨id, none⟩ :: done)
      rw [applyAll, if_neg hgoes]
      obtain ⟨hall, h⟩ | ⟨front, k, later, rfl, hfront, hk, h⟩ := hrest
      · refine .inl ⟨List.forall_mem_cons.2 ⟨hstops, hall⟩, ?_⟩
        rw [h]
        simp
      · refine .inr ⟨id :: front, k, later, rfl, List.forall_mem_cons.2 ⟨hstops, hfront⟩, hk, ?_⟩
        rw [h]
        simp

variable {a}

theorem filter_of_goesOn {ids : List String} (h : ∀ id ∈ ids, a.stopsOn id = false) :
    ids.filter (fun id => !a.stopsOn id) = ids := by
  rw [List.filter_eq_self]
  intro id hid
  rw [h id hid]
  rfl

theorem countP_of_goesOn {ids : List String} (h : ∀ id ∈ ids, a.stopsOn id = false) :
    ids.countP a.stopsOn = 0 := by
  rw [List.countP_eq_zero]
  intro id hid
  rw [h id hid]
  exact Bool.false_ne_true

/-- What an answered call does for a batch: it settles the records that come next, the action was
applied to those on which it does not stop, and the others are counted. -/
structure Settles (a : RecordingAction) (i : Isolation)
    (r : Except ActionError (List RecordOutcome) × RecordingAction) (settled : List String) :
    Prop where
  rest : i.rest = settled ++ (i.answer r.1).rest
  memory : r.2 = a.tried settled
  errors : (i.answer r.1).errors = i.errors + settled.countP a.stopsOn
  hasFailed : (i.answer r.1).hasFailed = false

/-- A call for the whole batch settles all of it, or what comes before the first failure, and
that. -/
theorem settles_whole (all : List String) :
    ∃ settled, a.Settles (.whole all) (a.applyAll [] all) settled := by
  obtain ⟨hall, h⟩ | ⟨front, id, later, rfl, hfront, hid, h⟩ := a.applyAll_cases [] all
  · rw [h]
    refine ⟨all, ?_, ?_, ?_, rfl⟩
    · exact (List.append_nil all).symm
    · rw [tried, filter_of_goesOn hall]
    · rw [countP_of_goesOn hall]
      exact failures_of_success all
  · -- the record on which the action stopped counts as tried
    rw [h]
    have hnew : id ∉ front := by
      intro hmem
      rw [hfront id hmem] at hid
      exact Bool.false_ne_true hid
    have hanswer : (Isolation.whole (front ++ id :: later)).answer
        (.error (.recordFailed id "rejected by action")) = .next later 1 := by
      simp only [Isolation.answer, idxOf?_append_cons hnew]
      have hdrop : (front ++ id :: later).drop (front.length + 1) = later := by
        rw [← List.drop_drop, List.drop_left]
        rfl
      rw [hdrop]
    refine ⟨front ++ [id], ?_, ?_, ?_, ?_⟩
    · rw [hanswer, Isolation.rest_next, List.append_assoc]
      rfl
    · simp [tried, filter_of_goesOn hfront, hid]
    · rw [hanswer, List.countP_append, countP_of_goesOn hfront, List.countP_singleton, if_pos hid,
        Isolation.errors_next]
      rfl
    · rw [hanswer]
      exact Isolation.hasFailed_next _ _

/-- A call for one record settles it, whether or not it fails. -/
theorem settles_single (id : String) (later : List String) (errors : Nat) :
    ∃ settled, a.Settles (.single id later errors) (a.applyAll [] [id]) settled := by
  obtain ⟨hall, h⟩ | ⟨front, k, more, hids, hfront, hk, h⟩ := a.applyAll_cases [] [id]
  · rw [h]
    refine ⟨[id], ?_, ?_, ?_, Isolation.hasFailed_next _ _⟩
    · rw [Isolation.answer, Isolation.rest_next]
      rfl
    · rw [tried, filter_of_goesOn hall]
    · rw [Isolation.answer, Isolation.errors_next, countP_of_goesOn hall]
      exact congrArg (errors + ·) (failures_of_success [id])
  · rw [h]
    have hnil : front = [] ∧ k = id := by
      cases front with
      | nil => exact ⟨rfl, (List.cons.inj hids).1.symm⟩
      | cons f rest => exact absurd (congrArg List.length hids) (by simp)
    obtain ⟨rfl, rfl⟩ := hnil
    refine ⟨[k], ?_, ?_, ?_, Isolation.hasFailed_next _ _⟩
    · rw [Isolation.answer, Isolation.rest_next]
      rfl
    · simp [tried, hk]
    · rw [Isolation.answer, Isolation.errors_next, List.countP_singleton, if_pos hk]
      rfl

/-- Every answered call settles some of the records that were not tried yet, the next ones. -/
theorem answer_apply (hrun : a.misconfigured = none) {i : Isolation} {ids : List String}
    (hcalling : i.calling? = some ids) : ∃ settled, a.Settles i (a.apply ids) settled := by
  have happly : a.apply ids = a.applyAll [] ids := by
    rw [apply, hrun]
  rw [happly]
  -- a call is for the whole batch, or for one record after a failure
  cases i with
  | whole all =>
    obtain rfl := Option.some.inj hcalling
    exact settles_whole all
  | single id later errors =>
    obtain rfl := Option.some.inj hcalling
    exact settles_single id later errors
  | done errors => exact absurd hcalling (by simp [Isolation.calling?])
  | failed cause => exact absurd hcalling (by simp [Isolation.calling?])

end InMemory.RecordingAction

end BulkRun
