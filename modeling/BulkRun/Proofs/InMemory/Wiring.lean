import BulkRun.InMemory.World
import BulkRun.Proofs.InMemory.Recording
import BulkRun.Proofs.Scroll.Listing
/-!
# Collaborators in memory at work

Collaborators that list the results of queries and record what they are applied to, in a world that
holds what all of them remember.  Each knows its own part of the world, and a call of one leaves the
parts of the others alone; whatever is called, the world that comes of it is wired as before
(`World.Follows`).
-/

namespace BulkRun.InMemory

namespace World

/-- The world when an action remembers something else. -/
def setAction (w : World) (i : Nat) (a : RecordingAction) : World :=
  { w with actions := w.actions.set i (.recording a) }

/-- The world when a source remembers something else. -/
def setLists (w : World) (i : Nat) (q : QueryLists) : World :=
  { w with sources := w.sources.set i (.queryLists q) }

/-- The records that an action was applied to. -/
def appliedAt (w : World) (i : Nat) : List String :=
  match w.actions[i]? with
  | some (.recording a) => a.applied
  | _ => []

/-- Whether a world has come of another: the collaborators are the same, but for what they have
counted and recorded. -/
structure Follows (w₀ w : World) : Prop where
  lists : ∀ (i : Nat) (q : QueryLists), w₀.sources[i]? = some (.queryLists q) →
    ∃ served, w.sources[i]? = some (.queryLists { q with pagesServed := served })
  actions : ∀ (i : Nat) (a : RecordingAction), w₀.actions[i]? = some (.recording a) →
    ∃ applied calls,
      w.actions[i]? = some (.recording { a with applied := applied, calls := calls })
  transactions : w.transactions = w₀.transactions

namespace Follows

variable {w₀ w w' : World} {i : Nat}

theorem refl (w : World) : Follows w w :=
  ⟨fun _ q h => ⟨q.pagesServed, h⟩, fun _ a h => ⟨a.applied, a.calls, h⟩, rfl⟩

theorem trans (h : Follows w₀ w) (h' : Follows w w') : Follows w₀ w' where
  lists i q hq := by
    obtain ⟨served, hw⟩ := h.lists i q hq
    obtain ⟨served', hw'⟩ := h'.lists i _ hw
    exact ⟨served', hw'⟩
  actions i a ha := by
    obtain ⟨applied, calls, hw⟩ := h.actions i a ha
    obtain ⟨applied', calls', hw'⟩ := h'.actions i _ hw
    exact ⟨applied', calls', hw'⟩
  transactions := h'.transactions.trans h.transactions

theorem setLists {q : QueryLists} (h : w.sources[i]? = some (.queryLists q)) (served : Nat) :
    Follows w (w.setLists i { q with pagesServed := served }) where
  lists j r hr := by
    obtain rfl | hne := Decidable.em (i = j)
    · obtain rfl := Source.queryLists.inj (Option.some.inj (h.symm.trans hr))
      refine ⟨served, ?_⟩
      exact List.getElem?_set_self (List.getElem?_eq_some_iff.1 h).1
    · exact ⟨r.pagesServed, (List.getElem?_set_ne hne).trans hr⟩
  actions _ a ha := ⟨a.applied, a.calls, ha⟩
  transactions := rfl

theorem setAction {a : RecordingAction} (h : w.actions[i]? = some (.recording a))
    (applied : List String) (calls : Nat) :
    Follows w (w.setAction i { a with applied := applied, calls := calls }) where
  lists _ q hq := ⟨q.pagesServed, hq⟩
  actions j b hb := by
    obtain rfl | hne := Decidable.em (i = j)
    · obtain rfl := ActionMemory.recording.inj (Option.some.inj (h.symm.trans hb))
      refine ⟨applied, calls, ?_⟩
      exact List.getElem?_set_self (List.getElem?_eq_some_iff.1 h).1
    · exact ⟨b.applied, b.calls, (List.getElem?_set_ne hne).trans hb⟩
  transactions := rfl

end Follows

variable {w : World} {i : Nat}

theorem appliedAt_setAction_self {a : RecordingAction} {m : ActionMemory}
    (h : w.actions[i]? = some m) : (w.setAction i a).appliedAt i = a.applied := by
  unfold appliedAt setAction
  rw [List.getElem?_set_self (List.getElem?_eq_some_iff.1 h).1]

theorem appliedAt_setAction_other {a : RecordingAction} {j : Nat} (h : i ≠ j) :
    (w.setAction i a).appliedAt j = w.appliedAt j := by
  unfold appliedAt setAction
  rw [List.getElem?_set_ne h]

end World

/-! ## Scrollers -/

/-- Whether lists of records answer every query, page by page. -/
structure QueryLists.IsSteady (q : QueryLists) : Prop where
  rejected : q.rejected = []
  failingAfter : q.failingAfter = []
  fits : ∀ query ids, q.results.lookup query = some ids → ids.length < wordCount

/-- The records that a query finds. -/
def QueryLists.found (q : QueryLists) (query : String) : List String :=
  (q.results.lookup query).getD []

/-- Whether lists have come of others by serving pages. -/
def QueryLists.ServedFrom (q r : QueryLists) : Prop :=
  ∃ served, r = { q with pagesServed := served }

/-- Whether lists of records answer a query, page by page. -/
structure QueryLists.Answers (q : QueryLists) (query : String) : Prop where
  accepted : q.rejected.contains query = false
  lasting : q.failingAfter.lookup query = none
  fits : (q.found query).length < wordCount

namespace QueryLists

variable {q : QueryLists} {query : String}

theorem IsSteady.answers (hsteady : q.IsSteady) (query : String) : q.Answers query where
  accepted := by rw [hsteady.rejected]; rfl
  lasting := by rw [hsteady.failingAfter]; rfl
  fits := by
    unfold found
    cases h : q.results.lookup query with
    | none => exact show 0 < wordCount by decide
    | some ids => exact hsteady.fits _ _ h

theorem page_eq {request : QueryRequest} (h : q.Answers request.query) (position : Option String)
    (size : Nat) {r : QueryLists} (hr : q.ServedFrom r) :
    (page request position size r).1 =
        pageOf (q.found request.query) position size (q.maxPage.map (max 1)) ∧
      q.ServedFrom (page request position size r).2 := by
  obtain ⟨served, rfl⟩ := hr
  refine ⟨?_, ⟨(served + 1) % wordCount, rfl⟩⟩
  unfold page
  simp only [h.lasting]
  rfl

/-- The lists serve the records of a query that they answer. -/
theorem serves (request : QueryRequest) (h : q.Answers request.query) :
    Cursor.Serves (page request) q.ServedFrom (q.found request.query) (q.maxPage.map (max 1)) where
  page position size _ hr := (page_eq h position size hr).1
  good position size _ hr := (page_eq h position size hr).2
  fits := h.fits
  page_pos m hm := by
    obtain ⟨n, -, rfl⟩ := Option.map_eq_some_iff.1 hm
    exact Nat.le_max_left 1 n

end QueryLists

namespace World

variable {w₀ w : World} {i : Nat} {q : QueryLists}

/-- A scroller that lists results opens a cursor for every command. -/
theorem start_lists (hw : Follows w₀ w) (hq : w₀.sources[i]? = some (.queryLists q))
    (hsteady : q.IsSteady) (c : Command) :
    ∃ w', ((Source.queryLists q).scroller i).start c w = (.ok (.new c), w') ∧ Follows w₀ w' ∧
      w'.actions = w.actions := by
  obtain ⟨served, hmemory⟩ := hw.lists i q hq
  refine ⟨w.setLists i { q with pagesServed := served }, ?_,
    hw.trans (Follows.setLists hmemory served), rfl⟩
  simp only [Source.scroller, Focus.scroller, Focus.within, Focus.comp, Focus.item, sourceAt,
    Scroller.query, QueryLists.source, QueryLists.validate, hmemory, Option.getD_some,
    hsteady.rejected]
  rfl

/-- A chunk is got from the lists alone. -/
theorem next_lists (hw : Follows w₀ w) (hq : w₀.sources[i]? = some (.queryLists q)) (c : Cursor)
    (maxCount : Nat) :
    ∃ r, q.ServedFrom r ∧ ((Source.queryLists q).scroller i).next c maxCount w =
      (((c.fill (QueryLists.page (.of c.command)) maxCount r).1.mapError (·.toError)),
        (c.fill (QueryLists.page (.of c.command)) maxCount r).2.1,
        w.setLists i (c.fill (QueryLists.page (.of c.command)) maxCount r).2.2) ∧
      w.sources[i]? = some (.queryLists r) := by
  obtain ⟨served, hmemory⟩ := hw.lists i q hq
  refine ⟨{ q with pagesServed := served }, ⟨served, rfl⟩, ?_, hmemory⟩
  simp only [Source.scroller, Focus.scroller, Focus.comp, Focus.item, sourceAt, Scroller.query,
    QueryLists.source, Scroller.chunkOrError, hmemory, Option.getD_some]
  rfl

/-- Whatever is asked for, getting a chunk leaves the world wired and all that was recorded. -/
theorem follows_next (hw : Follows w₀ w) (hq : w₀.sources[i]? = some (.queryLists q))
    (hsteady : q.IsSteady) (c : Cursor) (maxCount : Nat) :
    Follows w₀ (((Source.queryLists q).scroller i).next c maxCount w).2.2 ∧
      (((Source.queryLists q).scroller i).next c maxCount w).2.2.actions = w.actions := by
  obtain ⟨r, hr, hnext, hmemory⟩ := next_lists hw hq c maxCount
  have hserved : q.ServedFrom (c.fill (QueryLists.page (.of c.command)) maxCount r).2.2 :=
    Cursor.good_fill (QueryLists.serves (.of c.command) (hsteady.answers _)).good maxCount c hr
  rw [hnext]
  obtain ⟨served, rfl⟩ := hr
  obtain ⟨served', hserved⟩ := hserved
  refine ⟨?_, rfl⟩
  show Follows w₀ (w.setLists i _)
  rw [hserved]
  exact hw.trans (Follows.setLists hmemory served')

/-- A cursor on its way through the results of its query gets the next of them. -/
theorem next_eq (hw : Follows w₀ w) (hq : w₀.sources[i]? = some (.queryLists q))
    (hsteady : q.IsSteady) {c : Cursor} {maxCount : Nat} (hc : c.Lists (q.found c.command.query))
    (hopen : c.exhausted = false) (hmax : 0 < maxCount) :
    ∃ c' w', ((Source.queryLists q).scroller i).next c maxCount w =
        (.ok ⟨(c.left (q.found c.command.query)).take maxCount, c'.exhausted⟩, c', w') ∧
      c'.Lists (q.found c.command.query) ∧ c'.command = c.command ∧
      c'.left (q.found c.command.query) = (c.left (q.found c.command.query)).drop maxCount ∧
      (c'.exhausted = false → c'.left (q.found c.command.query) ≠ []) := by
  obtain ⟨r, hr, hnext, -⟩ := next_lists hw hq c maxCount
  obtain ⟨c', r', hfill, -, hlists, hcommand, hleft, hmore⟩ :=
    Cursor.fill_eq (QueryLists.serves (.of c.command) (hsteady.answers _)) hr hc hopen hmax
  refine ⟨c', w.setLists i r', ?_, hlists, hcommand, hleft, hmore⟩
  rw [hnext, hfill]
  rfl

end World

/-! ## Actions -/

/-- Whether an action answers every call. -/
structure RecordingAction.IsSteady (a : RecordingAction) : Prop where
  gate : a.gate = none
  runs : a.misconfigured = none

theorem RecordingAction.apply_snd (a : RecordingAction) (ids : List String) :
    ∃ applied, (a.apply ids).2 = { a with applied := applied } := by
  unfold apply
  split
  · exact ⟨a.applied, rfl⟩
  · obtain ⟨-, h⟩ | ⟨front, id, later, -, -, -, h⟩ := a.applyAll_cases [] ids
    · rw [h]
      exact ⟨_, rfl⟩
    · rw [h]
      exact ⟨_, rfl⟩

namespace World

variable {w₀ w : World} {i : Nat} {a : RecordingAction}

/-- A call is only counted. -/
theorem call_recording (hw : Follows w₀ w) (ha : w₀.actions[i]? = some (.recording a))
    (context : ActionContext) (ids : List String) :
    Follows w₀ (((ActionMemory.recording a).action i).call context ids w).2 ∧
      ∀ j, (((ActionMemory.recording a).action i).call context ids w).2.appliedAt j =
        w.appliedAt j := by
  obtain ⟨applied, calls, hmemory⟩ := hw.actions i a ha
  have hcall : (((ActionMemory.recording a).action i).call context ids w).2 =
      w.setAction i { a with applied := applied, calls := calls + 1 } := by
    simp only [ActionMemory.action, Focus.action, Focus.within, Focus.comp, Focus.item, actionAt,
      RecordingAction.action, hmemory, Option.getD_some]
    rfl
  rw [hcall]
  refine ⟨hw.trans (Follows.setAction hmemory applied (calls + 1)), ?_⟩
  intro j
  obtain rfl | hne := Decidable.em (i = j)
  · rw [appliedAt_setAction_self hmemory, appliedAt, hmemory]
  · exact appliedAt_setAction_other hne

/-- A call is answered at once, and the action remembers what came of it. -/
theorem poll_recording (hw : Follows w₀ w) (ha : w₀.actions[i]? = some (.recording a))
    (hsteady : a.IsSteady) (context : ActionContext) (ids : List String) (call : Nat) :
    ∃ applied calls,
      w.actions[i]? = some (.recording { a with applied := applied, calls := calls }) ∧
      ((ActionMemory.recording a).action i).poll context ids call w =
        some (⟨[], (RecordingAction.apply ids { a with applied := applied, calls := calls }).1⟩,
          w.setAction i (RecordingAction.apply ids
            { a with applied := applied, calls := calls }).2) := by
  obtain ⟨applied, calls, hmemory⟩ := hw.actions i a ha
  refine ⟨applied, calls, hmemory, ?_⟩
  simp only [ActionMemory.action, Focus.action, Focus.comp, Focus.item, actionAt,
    RecordingAction.action, RecordingAction.admits, hmemory, Option.getD_some, hsteady.gate,
    if_true, Option.map_some]
  rfl

/-- An answered call leaves the world wired. -/
theorem follows_poll (hw : Follows w₀ w) (ha : w₀.actions[i]? = some (.recording a))
    (hsteady : a.IsSteady) (context : ActionContext) (ids : List String) (call : Nat) :
    ∃ result w', ((ActionMemory.recording a).action i).poll context ids call w =
      some (⟨[], result⟩, w') ∧ Follows w₀ w' := by
  obtain ⟨applied, calls, hmemory, hpoll⟩ := poll_recording hw ha hsteady context ids call
  obtain ⟨applied', happly⟩ :=
    RecordingAction.apply_snd { a with applied := applied, calls := calls } ids
  refine ⟨_, _, hpoll, ?_⟩
  rw [happly]
  exact hw.trans (Follows.setAction hmemory applied' calls)

/-- What an answered call does for a batch that is isolated: some of the records are settled, the
action was applied to those on which it does not stop, and the others are counted. -/
theorem poll_isolation (hw : Follows w₀ w) (ha : w₀.actions[i]? = some (.recording a))
    (hsteady : a.IsSteady) (context : ActionContext) {k : Isolation} {ids : List String}
    (call : Nat)
    (hcalling : k.calling? = some ids) :
    ∃ result w' settled, ((ActionMemory.recording a).action i).poll context ids call w =
        some (⟨[], result⟩, w') ∧ Follows w₀ w' ∧
      k.rest = settled ++ (k.answer result).rest ∧
      (k.answer result).errors = k.errors + settled.countP a.stopsOn ∧
      (k.answer result).hasFailed = false ∧
      (∀ j, w'.appliedAt j = w.appliedAt j ++
        if i = j then settled.filter fun id => !a.stopsOn id else []) := by
  obtain ⟨applied, calls, hmemory, hpoll⟩ := poll_recording hw ha hsteady context ids call
  obtain ⟨settled, hrest, hmem, herrors, hfailed⟩ :=
    RecordingAction.answer_apply (a := { a with applied := applied, calls := calls }) hsteady.runs
      hcalling
  refine ⟨_, _, settled, hpoll, ?_, hrest, herrors, hfailed, ?_⟩
  · rw [hmem]
    exact hw.trans (Follows.setAction hmemory _ calls)
  · intro j
    rw [hmem]
    obtain rfl | hne := Decidable.em (i = j)
    · rw [appliedAt_setAction_self hmemory, if_pos rfl, appliedAt, hmemory]
      rfl
    · rw [appliedAt_setAction_other hne, if_neg hne, List.append_nil]

end World

/-! ## Transactions -/

/-- A world without transactions stays as it is, and nothing fails. -/
theorem call_transactions_none {w : World} (h : w.transactions = .none) (s : BatchScope) :
    transactionManager.begin s w = (.ok (), w) ∧ transactionManager.commit s w = (.ok (), w) := by
  have hsame : { w with transactions := .none } = w := by rw [← h]
  have hcall : callTransactions (fun _ => (.ok (), .none)) w = (.ok (), w) := by
    rw [callTransactions]
    exact congrArg (Prod.mk _) hsame
  constructor
  · simp only [transactionManager, callTransactions, h]
    exact hcall
  · simp only [transactionManager, callTransactions, h]
    exact hcall

theorem rollback_transactions_none {w : World} (h : w.transactions = .none) (s : BatchScope) :
    (transactionManager.rollback s w).2 = w := by
  have hsame : { w with transactions := .none } = w := by rw [← h]
  simp only [transactionManager, callTransactions, h]
  exact hsame

/-! ## Setups -/

/-- Whether an action is one that records, of a world, and answers every call. -/
def World.Records (w : World) (x : Action World) : Prop :=
  ∃ (i : Nat) (a : RecordingAction), x = (ActionMemory.recording a).action i ∧
    w.actions[i]? = some (.recording a) ∧ a.IsSteady

/-- Whether a scroller is one that lists results, of a world, and answers every query. -/
def World.Enumerates (w : World) (x : Scroller World) : Prop :=
  ∃ (i : Nat) (q : QueryLists), x = (Source.queryLists q).scroller i ∧
    w.sources[i]? = some (.queryLists q) ∧ q.IsSteady

/-- Whether a setup has collaborators of a world in memory only: actions that record and answer
every call, scrollers that list results, and no transactions. -/
structure Wired (setup : Setup World) (w : World) : Prop where
  actions : ∀ name r, setup.actions.find? name = some r → w.Records r.action
  scrollers : ∀ d n, setup.scrollers.resolve d = .ok n → w.Enumerates n.item
  manager : setup.transactions = transactionManager
  transactions : w.transactions = .none

end BulkRun.InMemory
