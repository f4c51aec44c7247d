import BulkRun.Execution.Basic
import Mathlib.Data.List.Basic
/-!
# A batch as a whole and record by record

An action that works on records in order, and stops at the first one that it cannot process, is
called for the whole batch first and then for each record that is left.  Where the work resumes is
found by the name of the record on which the action stopped: behind the first record of that name.
Main statement: what comes of a batch is what comes of attempting certain records one by one
(`attempts_one_by_one`).  These are the records of the batch, each once, exactly when the record on
which the action stopped has no namesake before it; otherwise the records from behind its first
namesake up to it are attempted once more.
-/

namespace BulkRun

variable {σ τ : Type} (attempt : String → τ → Except String τ)

/-! ## Actions that work in order -/

/-- Attempts records in order, up to the first one that cannot be processed, which is left alone.
Whether a record can be processed may depend on what was done before. -/
def attemptAll : List String → τ → Except ActionError (List RecordOutcome) × τ
  | [], s => (.ok [], s)
  | id :: rest, s =>
    match attempt id s with
    | .error message => (.error (.recordFailed id message), s)
    | .ok t => ((attemptAll rest t).1.map (⟨id, none⟩ :: ·), (attemptAll rest t).2)

/-- Attempts each of some records on its own, in order; the number of those that cannot be
processed, and what comes of the others. -/
def oneByOne : List String → τ → Nat × τ
  | [], s => (0, s)
  | id :: rest, s =>
    match attempt id s with
    | .error _ => ((oneByOne rest s).1 + 1, (oneByOne rest s).2)
    | .ok t => oneByOne rest t

/-- A record that cannot be processed, among the records before and behind it. -/
structure Stop where
  front : List String
  id : String
  later : List String

/-- Where an action stops that is applied to some records. -/
def stop? : List String → τ → Option Stop
  | [], _ => none
  | id :: rest, s =>
    match attempt id s with
    | .error _ => some ⟨[], id, rest⟩
    | .ok t => (stop? rest t).map fun stop => { stop with front := id :: stop.front }

/-- The records that are attempted, one after the other, when an action is applied to a batch: those
up to where it stops, and those behind the first record of the same name. -/
def attempted (ids : List String) (s : τ) : List String :=
  match stop? attempt ids s with
  | none => ids
  | some stop => stop.front ++ stop.id :: ids.drop (ids.idxOf stop.id + 1)

variable {attempt}

theorem oneByOne_append (front rear : List String) (s : τ) :
    oneByOne attempt (front ++ rear) s =
      ((oneByOne attempt front s).1 + (oneByOne attempt rear (oneByOne attempt front s).2).1,
        (oneByOne attempt rear (oneByOne attempt front s).2).2) := by
  induction front generalizing s with
  | nil => simp [oneByOne]
  | cons id front ih =>
    rw [List.cons_append, oneByOne, oneByOne]
    cases attempt id s with
    | error message =>
      simp only [ih]
      rw [Nat.add_right_comm]
    | ok t => exact ih t

/-- Without a stop all records are processed; with one, those before it, and the rest is left. -/
theorem attemptAll_cases (attempt : String → τ → Except String τ) (ids : List String) (s : τ) :
    (stop? attempt ids s = none ∧
        attemptAll attempt ids s = (.ok (ids.map fun id => ⟨id, none⟩), (oneByOne attempt ids s).2) ∧
        (oneByOne attempt ids s).1 = 0) ∨
      ∃ front id later t message, stop? attempt ids s = some ⟨front, id, later⟩ ∧
        ids = front ++ id :: later ∧ oneByOne attempt front s = (0, t) ∧
        attempt id t = .error message ∧
        attemptAll attempt ids s = (.error (.recordFailed id message), t) := by
  induction ids generalizing s with
  | nil => exact .inl ⟨rfl, rfl, rfl⟩
  | cons id rest ih =>
    cases h : attempt id s with
    | error message =>
      refine .inr ⟨[], id, rest, s, message, ?_, rfl, rfl, h, ?_⟩
      · simp only [stop?, h]
      · simp only [attemptAll, h]
    | ok u =>
      obtain ⟨hstop, hall, hnone⟩ | ⟨front, k, later, t, message, hstop, rfl, hfront, hk, hall⟩ :=
        ih u
      · refine .inl ⟨?_, ?_, ?_⟩
        · simp [stop?, h, hstop]
        · simp [attemptAll, oneByOne, h, hall, Except.map]
        · simp [oneByOne, h, hnone]
      · refine .inr ⟨id :: front, k, later, t, message, ?_, rfl, ?_, hk, ?_⟩
        · simp [stop?, h, hstop]
        · simp [oneByOne, h, hfront]
        · simp [attemptAll, h, hall, Except.map]

/-- Where an action stops, the records are split. -/
theorem eq_of_stop? {ids : List String} {s : τ} {stop : Stop}
    (h : stop? attempt ids s = some stop) : ids = stop.front ++ stop.id :: stop.later := by
  obtain ⟨hnone, -⟩ | ⟨front, id, later, t, message, hstop, hids, -⟩ :=
    attemptAll_cases attempt ids s
  · rw [hnone] at h
    exact absurd h (by simp)
  · rw [← Option.some.inj (hstop.symm.trans h)]
    exact hids

/-- The records of a batch are attempted once each if the action does not stop, or stops on a record
without a namesake before it, and in no other case. -/
theorem attempted_eq_iff (ids : List String) (s : τ) :
    attempted attempt ids s = ids ↔
      ∀ stop, stop? attempt ids s = some stop → stop.id ∉ stop.front := by
  unfold attempted
  cases hstop : stop? attempt ids s with
  | none => simp
  | some stop =>
    simp only [Option.some.injEq, forall_eq']
    have hids := eq_of_stop? hstop
    constructor
    · intro heq hmem
      -- a namesake comes earlier, so there are more attempts than records
      have hfirst : ids.idxOf stop.id < stop.front.length := by
        rw [hids, List.idxOf_append_of_mem hmem]
        exact List.idxOf_lt_length_of_mem hmem
      have hattempts := congrArg List.length heq
      have hlength := congrArg List.length hids
      simp only [List.length_append, List.length_cons, List.length_drop] at hattempts hlength
      omega
    · intro hnew
      have hfirst : ids.idxOf stop.id = stop.front.length := by
        rw [hids, List.idxOf_append_of_notMem hnew, List.idxOf_cons_self, Nat.add_zero]
      rw [hfirst, ← List.drop_drop, hids, List.drop_left, List.drop_one, List.tail_cons]

/-! ## Executions -/

/-- Whether an action works on records in order, as far as its state can be seen in the world, and
does nothing when it is merely called. -/
structure Action.WorksInOrder (action : Action σ) (context : ActionContext) (view : σ → τ)
    (attempt : String → τ → Except String τ) : Prop where
  call : ∀ ids w, view (action.call context ids w).2 = view w
  poll : ∀ ids call w, ∃ reply w', action.poll context ids call w = some (reply, w') ∧
    (reply.result, view w') = attemptAll attempt ids (view w)

namespace Execution

variable {setup : Setup σ} {view : σ → τ} {w : Work σ} {x : Execution σ} {e : Engine σ}

/-- Whether an execution comes to commit its batch, with so many failures and with the action in
some state. -/
def Commits (setup : Setup σ) (view : σ → τ) (w : Work σ) (result : Nat × τ)
    (r : Execution σ × Engine σ) : Prop :=
  ∃ fuel world answer f, r.1.run setup fuel r.2 = (.committing w result.1 answer, f) ∧
    setup.transactions.commit w.scope world = (answer, f.world) ∧ view world = result.2

theorem Commits.step {result : Nat × τ} {r : Execution σ × Engine σ}
    (h : Commits setup view w result r) (hstep : x.step? setup e = some r) :
    Commits setup view w result (x, e) := by
  obtain ⟨fuel, world, answer, f, hrun, hcommit, hview⟩ := h
  refine ⟨fuel + 1, world, answer, f, ?_, hcommit, hview⟩
  rw [run, hstep]
  exact hrun

/-- When all records were attempted the batch is committed. -/
theorem commits_done (errors : Nat) (e : Engine σ) :
    Commits setup view w (errors, view e.world) (proceed setup w (.done errors) e) :=
  ⟨0, e.world, _, _, rfl, rfl, rfl⟩

/-- What an action does to the commands leaves the collaborators alone. -/
theorem world_interveneAll (id : CommandId) (e : Engine σ) (is : List Intervention) :
    (e.interveneAll id is).world = e.world := by
  induction is generalizing e with
  | nil => rfl
  | cons i is ih =>
    have hfirst : (e.intervene id i).world = e.world := by
      cases i with
      | abort =>
        simp only [Engine.intervene]
        split <;> rfl
      | purge => rfl
    exact (ih (e.intervene id i)).trans hfirst

/-- A call is answered, and the execution proceeds with the answer. -/
theorem exists_answered (setup : Setup σ) (h : w.action.WorksInOrder (.of w.command) view attempt)
    {i : Isolation} {ids : List String} (hcalling : i.calling? = some ids) (call : Nat)
    (e : Engine σ) :
    ∃ f, (Execution.applying w call i).step? setup e =
        some (proceed setup w (i.answer (attemptAll attempt ids (view e.world)).1) f) ∧
      view f.world = (attemptAll attempt ids (view e.world)).2 := by
  obtain ⟨reply, world, hpoll, hreply⟩ := h.poll ids call e.world
  obtain ⟨hresult, hview⟩ := Prod.mk.inj hreply
  refine ⟨{ e with world := world }.interveneAll w.command.id reply.interventions, ?_, ?_⟩
  · simp only [step?, hcalling, hpoll, Option.map_some, hresult]
  · rw [world_interveneAll]
    exact hview

/-- The records that are left are attempted one by one. -/
theorem commits_next (h : w.action.WorksInOrder (.of w.command) view attempt) (later : List String)
    (errors : Nat) (e : Engine σ) :
    Commits setup view w
      (errors + (oneByOne attempt later (view e.world)).1,
        (oneByOne attempt later (view e.world)).2)
      (proceed setup w (.next later errors) e) := by
  induction later generalizing errors e with
  | nil => exact commits_done errors e
  | cons id rest ih =>
    let called := w.action.call (.of w.command) [id] e.world
    obtain ⟨f, hstep, hview⟩ := exists_answered setup h
      (show (Isolation.single id rest errors).calling? = some [id] from rfl) called.1
      { e with world := called.2 }
    have hcalled : view called.2 = view e.world := h.call _ _
    refine Commits.step ?_ hstep
    rw [hcalled] at hview ⊢
    simp only [attemptAll, oneByOne] at hview ⊢
    cases hone : attempt id (view e.world) with
    | error message =>
      rw [hone] at hview
      have hrest := ih (errors + 1) f
      rw [hview, Nat.add_assoc, Nat.add_comm 1] at hrest
      exact hrest
    | ok t =>
      rw [hone] at hview
      have hrest := ih (errors + 0) f
      rw [hview] at hrest
      exact hrest

/-- What the answer to the call for a whole batch leads to. -/
theorem commits_whole (h : w.action.WorksInOrder (.of w.command) view attempt) {ids : List String}
    {s : τ} {f : Engine σ} (hview : view f.world = (attemptAll attempt ids s).2) :
    Commits setup view w (oneByOne attempt (attempted attempt ids s) s)
      (proceed setup w ((Isolation.whole ids).answer (attemptAll attempt ids s).1) f) := by
  unfold attempted
  obtain ⟨hstop, hall, hnone⟩ | ⟨front, id, later, t, message, hstop, hids, hfront, hid, hall⟩ :=
    attemptAll_cases attempt ids s
  · have hanswer : (Isolation.whole ids).answer (attemptAll attempt ids s).1 = .done 0 := by
      rw [hall]
      simp [Isolation.answer, failures, RecordOutcome.isSuccess]
    have hresult : oneByOne attempt ids s = (0, view f.world) := by
      rw [hview, hall, ← hnone]
    simp only [hstop, hanswer, hresult]
    exact commits_done 0 f
  · -- the work resumes behind the first record of the name
    have hmem : id ∈ ids := by
      rw [hids]
      exact List.mem_append_right _ List.mem_cons_self
    have hanswer : (Isolation.whole ids).answer (attemptAll attempt ids s).1 =
        .next (ids.drop (ids.idxOf id + 1)) 1 := by
      rw [hall]
      cases hfirst : ids.idxOf? id with
      | none => exact absurd hmem (List.idxOf?_eq_none_iff.1 hfirst)
      | some k =>
        simp only [Isolation.answer, hfirst]
        rw [List.idxOf_eq_getD_idxOf?, hfirst, Option.getD_some]
    have hresult : oneByOne attempt (front ++ id :: ids.drop (ids.idxOf id + 1)) s =
        (1 + (oneByOne attempt (ids.drop (ids.idxOf id + 1)) (view f.world)).1,
          (oneByOne attempt (ids.drop (ids.idxOf id + 1)) (view f.world)).2) := by
      rw [oneByOne_append, hfront, oneByOne, hid, hview, hall, Nat.zero_add, Nat.add_comm 1]
    simp only [hstop, hanswer, hresult]
    exact commits_next h _ 1 f

/-- Whatever an action that works in order makes of a batch, the batch is committed with as many
failures, and with the action in the same state, as come of attempting certain records one by one.
They are the records of the batch, each in its place and once, if the action does not stop or stops
on a record that has no namesake before it, and in no other case. -/
theorem attempts_one_by_one (setup : Setup σ) (w : Work σ)
    (h : w.action.WorksInOrder (.of w.command) view attempt) (e : Engine σ) :
    Commits setup view w
        (oneByOne attempt (attempted attempt w.batch.ids (view e.world)) (view e.world))
        (.opening w (.ok ()), e) ∧
      (attempted attempt w.batch.ids (view e.world) = w.batch.ids ↔
        ∀ stop, stop? attempt w.batch.ids (view e.world) = some stop → stop.id ∉ stop.front) := by
  refine ⟨?_, attempted_eq_iff w.batch.ids (view e.world)⟩
  let called := w.action.call (.of w.command) w.batch.ids e.world
  have hcalled : view called.2 = view e.world := h.call _ _
  obtain ⟨f, hstep, hview⟩ := exists_answered setup h
    (show (Isolation.whole w.batch.ids).calling? = some w.batch.ids from rfl) called.1
    { e with world := called.2 }
  rw [hcalled] at hstep hview
  have hopens : (Execution.opening w (.ok ())).step? setup e =
    some (.applying w called.1 (.whole w.batch.ids), { e with world := called.2 }) := rfl
  exact ((commits_whole h hview).step hstep).step hopens

/-! ### A record that comes twice -/

/-- Takes every record but a second `a`. -/
def takeUnlessAgain (id : String) (taken : List String) : Except String (List String) :=
  if id = "a" ∧ "a" ∈ taken then .error "taken before" else .ok (taken ++ [id])

/-- The action that does so. -/
def taking : Action (List String) where
  validate _ := .ok ()
  call _ _ taken := (0, taken)
  takesPermit := false
  poll _ ids _ taken :=
    some (⟨[], (attemptAll takeUnlessAgain ids taken).1⟩, (attemptAll takeUnlessAgain ids taken).2)

/-- Work on a batch of three records, the first and the last of one name. -/
def namesakes : Work (List String) where
  command := ⟨⟨"take", "all", none, none, none, 3, 3, none, false, []⟩, ⟨7⟩⟩
  action := taking
  bucket := ⟨⟨7⟩, 0, ["a", "b", "a"]⟩
  batch := ⟨0, 0, ["a", "b", "a"]⟩
  later := []
  processed := 0
  errors := 0

/-- No collaborators but the action. -/
def takingSetup : Setup (List String) := ⟨⟨[]⟩, .empty, .none, ⟨3, 3, 1, none⟩⟩

/-- The action stops on the second `a`, and the work resumes behind the first: `b` is taken twice,
and the second `a` is counted twice. -/
theorem attempts_one_by_one_namesakes :
    taking.WorksInOrder (.of namesakes.command) id takeUnlessAgain ∧
      Commits takingSetup id namesakes (2, ["a", "b", "b"])
        (.opening namesakes (.ok ()), ⟨⟨0, 0⟩, .new 8 60, .new 1 1, []⟩) ∧
      attempted takeUnlessAgain ["a", "b", "a"] [] = ["a", "b", "a", "b", "a"] ∧
      oneByOne takeUnlessAgain ["a", "b", "a"] [] = (1, ["a", "b"]) := by
  have hworks : taking.WorksInOrder (.of namesakes.command) id takeUnlessAgain :=
    ⟨fun _ _ => rfl, fun _ _ _ => ⟨_, _, rfl, rfl⟩⟩
  have hattempts : attempted takeUnlessAgain ["a", "b", "a"] [] = ["a", "b", "a", "b", "a"] := by
    decide
  have hresult : oneByOne takeUnlessAgain ["a", "b", "a", "b", "a"] [] = (2, ["a", "b", "b"]) := by
    decide
  obtain ⟨hcommits, -⟩ :=
    attempts_one_by_one takingSetup namesakes hworks ⟨⟨0, 0⟩, .new 8 60, .new 1 1, []⟩
  refine ⟨hworks, ?_, hattempts, by decide⟩
  rw [← hresult, ← hattempts]
  exact hcommits

end Execution

end BulkRun
