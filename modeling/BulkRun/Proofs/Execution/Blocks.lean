import BulkRun.Proofs.Execution.Journal
import Mathlib.Algebra.GroupWithZero.Nat
import Mathlib.Data.List.Basic
/-!
# What passes for one batch

A block is what passes between an execution and its collaborators for one batch: a transaction is
asked for, the action is applied to the records, and the transaction is closed.  What the answers of
the action amount to can be read off a block: how the action is applied to the records of a batch,
whatever it answers (`Trial`), tells how the transaction will be closed and how many records count
as failed.  A block that was begun but not closed yet is a block, too.
-/

namespace BulkRun

/-- A call of an action that was answered. -/
structure Application where
  /-- The records it was applied to. -/
  ids : List String
  reply : ActionReply

namespace Application

/-- Whether the answer concerns the batch as a whole: the action cannot run, or the transaction is
lost. -/
def givesUp (a : Application) : Bool :=
  match a.reply.result with
  | .error (.configuration _) | .error (.transaction _) => true
  | _ => false

/-- Whether the answer says that the action cannot run. -/
def cannotRun (a : Application) : Bool :=
  match a.reply.result with
  | .error (.configuration _) => true
  | _ => false

theorem givesUp_of_cannotRun (a : Application) (h : a.cannotRun = true) : a.givesUp = true := by
  unfold cannotRun at h
  unfold givesUp
  split at h
  · rename_i heq
    rw [heq]
  · exact absurd h Bool.false_ne_true

theorem cannotRun_iff (a : Application) :
    a.cannotRun = true ↔ ∃ m, a.reply.result = .error (.configuration m) := by
  unfold cannotRun
  split
  · rename_i m heq
    exact iff_of_true rfl ⟨m, heq⟩
  · rename_i hnot
    exact iff_of_false Bool.false_ne_true fun ⟨m, hm⟩ => hnot m hm

/-- How many failures an answer stands for; an action that stops on a record has failed once. -/
def errors (a : Application) : Nat :=
  match a.reply.result with
  | .ok outcomes => failures outcomes a.ids.length
  | .error _ => 1

/-- How many failures an answer tells of beyond the number of records that were asked about. -/
def surplus (a : Application) : Nat :=
  match a.reply.result with
  | .ok outcomes => (outcomes.filter fun o => !o.isSuccess).length - a.ids.length
  | .error _ => 0

/-- The notes of a call and its answer. -/
def notes (a : Application) : Journal := [.called a.ids, .answered a.ids a.reply]

end Application

/-- With no more outcomes than records there are no more failures than records. -/
theorem failures_le (outcomes : List RecordOutcome) (expected : Nat) :
    failures outcomes expected ≤
      expected + ((outcomes.filter fun o => !o.isSuccess).length - expected) := by
  have hle := List.length_filter_le (fun o : RecordOutcome => !o.isSuccess) outcomes
  unfold failures
  omega

theorem Application.errors_le (a : Application) (h : a.ids.length = 1) :
    a.errors ≤ 1 + a.surplus := by
  unfold errors surplus
  split
  · rw [h]
    exact failures_le _ 1
  · exact Nat.le_add_right 1 0

/-- Records that are asked about one by one count once each, but for failures beyond them. -/
theorem sum_errors_le {singles : List Application} (h : ∀ a ∈ singles, a.ids.length = 1) :
    (singles.map (·.errors)).sum ≤ singles.length + (singles.map (·.surplus)).sum := by
  induction singles with
  | nil => exact Nat.le_refl 0
  | cons a rest ih =>
    have hfirst := a.errors_le (h a List.mem_cons_self)
    have hrest := ih fun b hb => h b (List.mem_cons_of_mem a hb)
    simp only [List.map_cons, List.sum_cons, List.length_cons]
    omega

/-! ## How an action is applied to a batch -/

/-- How far an action was applied to the records of a batch, and where that leads. -/
inductive Trial (ids : List String) : List Application → Isolation → Prop
  | unasked : Trial ids [] (.whole ids)
  /-- The action has worked on all records at once. -/
  | atOnce {reply : ActionReply} {outcomes : List RecordOutcome}
      (hreply : reply.result = .ok outcomes) :
      Trial ids [⟨ids, reply⟩] (.done (failures outcomes ids.length))
  /-- The action stopped on a record that is not in the batch. -/
  | stranger {reply : ActionReply} {record m : String}
      (hreply : reply.result = .error (.recordFailed record m)) (hnot : record ∉ ids) :
      Trial ids [⟨ids, reply⟩] (.done ids.length)
  /-- The action stopped on a record, and is applied to each of the records behind it. -/
  | oneByOne (singles : List Application) (asked later : List String) {reply : ActionReply}
      {record m : String} {i : Isolation}
      (hreply : reply.result = .error (.recordFailed record m)) (hmem : record ∈ ids)
      (hlater : ids.drop (ids.idxOf record + 1) = asked ++ later)
      (hasked : singles.map (·.ids) = asked.map fun id => [id])
      (hgoes : ∀ a ∈ singles, a.givesUp = false)
      (hi : i = .next later (1 + (singles.map (·.errors)).sum)) :
      Trial ids (⟨ids, reply⟩ :: singles) i
  /-- The action answered for the batch as a whole. -/
  | gaveUp {applied : List Application} {i : Isolation} {asked : List String} {reply : ActionReply}
      {cause : ActionError} (h : Trial ids applied i) (hasked : i.calling? = some asked)
      (hreply : reply.result = .error cause)
      (hgives : (⟨asked, reply⟩ : Application).givesUp = true) :
      Trial ids (applied ++ [⟨asked, reply⟩]) (.failed cause)

namespace Trial

variable {ids asked : List String} {applied : List Application} {i : Isolation}

/-- An answer that concerns the batch as a whole ends it. -/
theorem answer_of_givesUp {reply : ActionReply} (hasked : i.calling? = some asked)
    (hgives : (⟨asked, reply⟩ : Application).givesUp = true) :
    ∃ cause, reply.result = .error cause ∧ i.answer reply.result = .failed cause := by
  cases hreply : reply.result with
  | ok outcomes => simp [Application.givesUp, hreply] at hgives
  | error cause =>
    refine ⟨cause, rfl, ?_⟩
    cases cause with
    | recordFailed record m => simp [Application.givesUp, hreply] at hgives
    | configuration m | transaction m =>
      cases i with
      | whole | single => rfl
      | done | failed => exact absurd hasked nofun

/-- Any other answer to the first call is for all records, or for one on which the action
stopped. -/
theorem answer_whole {reply : ActionReply}
    (hgoes : (⟨ids, reply⟩ : Application).givesUp = false) :
    Trial ids [⟨ids, reply⟩] ((Isolation.whole ids).answer reply.result) := by
  cases hreply : reply.result with
  | ok outcomes => exact .atOnce hreply
  | error cause =>
    cases cause with
    | configuration m | transaction m => simp [Application.givesUp, hreply] at hgoes
    | recordFailed record m =>
      cases hk : ids.idxOf? record with
      | none =>
        simp only [Isolation.answer, hk]
        exact .stranger hreply (List.idxOf?_eq_none_iff.1 hk)
      | some k =>
        have hmem : record ∈ ids := by
          by_contra hnot
          rw [List.idxOf?_eq_none_iff.2 hnot] at hk
          exact absurd hk nofun
        have hplace : ids.idxOf record = k := by
          rw [List.idxOf_eq_getD_idxOf?, hk, Option.getD_some]
        simp only [Isolation.answer, hk]
        exact .oneByOne [] [] (ids.drop (k + 1)) hreply hmem (by rw [hplace]; rfl) rfl nofun rfl

/-- Any other answer about a single record counts, and leads on to the next record. -/
theorem answer_single {id : String} {rest : List String} {errors : Nat} {reply : ActionReply}
    (hgoes : (⟨[id], reply⟩ : Application).givesUp = false) :
    (Isolation.single id rest errors).answer reply.result =
      .next rest (errors + (⟨[id], reply⟩ : Application).errors) := by
  cases hreply : reply.result with
  | ok outcomes =>
    simp only [Isolation.answer, Application.errors, hreply]
    rfl
  | error cause =>
    cases cause with
    | configuration m | transaction m => simp [Application.givesUp, hreply] at hgoes
    | recordFailed record m => simp only [Isolation.answer, Application.errors, hreply]

/-- Every answer leads on. -/
theorem answer (h : Trial ids applied i) (hasked : i.calling? = some asked) (reply : ActionReply) :
    Trial ids (applied ++ [⟨asked, reply⟩]) (i.answer reply.result) := by
  cases hgives : (⟨asked, reply⟩ : Application).givesUp with
  | true =>
    obtain ⟨cause, hreply, hfailed⟩ := answer_of_givesUp hasked hgives
    rw [hfailed]
    exact .gaveUp h hasked hreply hgives
  | false =>
    cases h with
    | unasked =>
      obtain rfl : ids = asked := Option.some.inj hasked
      exact answer_whole hgives
    | atOnce | stranger | gaveUp => exact absurd hasked nofun
    | @oneByOne singles before later first record m _ hfirst hmem hlater hsingles hgoes hi =>
      cases later with
      | nil =>
        rw [hi] at hasked
        exact absurd hasked nofun
      | cons id rest =>
        have hcalling : i.calling? = some [id] := by rw [hi]; rfl
        obtain rfl := Option.some.inj (hcalling.symm.trans hasked)
        -- one record more was asked about
        refine .oneByOne (singles ++ [⟨[id], reply⟩]) (before ++ [id]) rest hfirst hmem ?_ ?_ ?_ ?_
        · rw [hlater, List.append_assoc, List.singleton_append]
        · rw [List.map_append, List.map_append, hsingles]
          rfl
        · intro a ha
          rcases List.mem_append.1 ha with ha | ha
          · exact hgoes a ha
          · rw [List.mem_singleton.1 ha]
            exact hgives
        · rw [hi, Isolation.next, answer_single hgives, List.map_append, List.sum_append,
            List.map_singleton, List.sum_singleton, Nat.add_assoc]

/-- A batch is given up with its last answer. -/
theorem of_failed {cause : ActionError} (h : Trial ids applied (.failed cause)) :
    ∃ before last i, applied = before ++ [last] ∧ last.reply.result = .error cause ∧
      last.givesUp = true ∧ Trial ids before i ∧ i.calling? = some last.ids := by
  cases h with
  | oneByOne singles asked later _ _ _ _ _ hi => cases later <;> exact absurd hi nofun
  | gaveUp h hasked hreply hgives => exact ⟨_, _, _, rfl, hreply, hgives, h, hasked⟩

/-- A batch is given up exactly when some answer is about the batch as a whole. -/
theorem givesUp_iff (h : Trial ids applied i) :
    (∃ a ∈ applied, a.givesUp = true) ↔ ∃ cause, i = .failed cause := by
  cases h with
  | unasked => simp
  | atOnce hreply => simp [Application.givesUp, hreply]
  | stranger hreply => simp [Application.givesUp, hreply]
  | oneByOne singles asked later hreply _ _ _ hgoes hi =>
    have hnot : ¬∃ cause, i = .failed cause := by
      rintro ⟨cause, hcause⟩
      rw [hi] at hcause
      cases later <;> exact absurd hcause nofun
    refine iff_of_false ?_ hnot
    rintro ⟨a, ha, hgives⟩
    rcases List.mem_cons.1 ha with rfl | ha
    · simp [Application.givesUp, hreply] at hgives
    · rw [hgoes a ha] at hgives
      exact absurd hgives Bool.false_ne_true
  | gaveUp _ _ _ hgives => exact iff_of_true ⟨_, by simp, hgives⟩ ⟨_, rfl⟩

/-- A batch is given up because the action cannot run exactly when some answer says so. -/
theorem cannotRun_iff (h : Trial ids applied i) :
    (∃ a ∈ applied, a.cannotRun = true) ↔ ∃ m, i = .failed (.configuration m) := by
  constructor
  · rintro ⟨a, ha, hcannot⟩
    obtain ⟨cause, rfl⟩ := h.givesUp_iff.1 ⟨a, ha, a.givesUp_of_cannotRun hcannot⟩
    obtain ⟨before, last, j, rfl, hlast, -, hbefore, hasked⟩ := h.of_failed
    rcases List.mem_append.1 ha with ha | ha
    · -- after such an answer no other call would have been made
      obtain ⟨earlier, rfl⟩ := hbefore.givesUp_iff.1 ⟨a, ha, a.givesUp_of_cannotRun hcannot⟩
      exact absurd hasked nofun
    · rw [List.mem_singleton.1 ha, Application.cannotRun, hlast] at hcannot
      cases cause with
      | configuration m => exact ⟨m, rfl⟩
      | _ => exact absurd hcannot Bool.false_ne_true
  · rintro ⟨m, rfl⟩
    obtain ⟨before, last, j, rfl, hlast, -⟩ := h.of_failed
    refine ⟨last, by simp, ?_⟩
    rw [Application.cannotRun, hlast]

/-- Whether calls for the records of a batch are in turn: first all of them at once, then, behind
the record on which the action stopped, each on its own. -/
def CallsInTurn (ids : List String) (applied : List Application) (calls : List (List String)) :
    Prop :=
  calls = [] ∨ ∃ singles : List String, calls = ids :: singles.map (fun id => [id]) ∧
    (singles = [] ∨ ∃ first rest record m, applied = first :: rest ∧
      first.reply.result = .error (.recordFailed record m) ∧ record ∈ ids ∧
      singles <+: ids.drop (ids.idxOf record + 1))

theorem callsInTurn (h : Trial ids applied i) :
    CallsInTurn ids applied (applied.map (·.ids) ++ i.calling?.toList) := by
  induction h with
  | unasked => exact .inr ⟨[], rfl, .inl rfl⟩
  | atOnce => exact .inr ⟨[], rfl, .inl rfl⟩
  | stranger => exact .inr ⟨[], rfl, .inl rfl⟩
  | oneByOne singles asked later hreply hmem hlater hasked _ hi =>
    cases later with
    | nil =>
      refine .inr ⟨asked, ?_, .inr ⟨_, _, _, _, rfl, hreply, hmem, ?_⟩⟩
      · rw [hi, List.map_cons, hasked]
        exact List.append_nil _
      · exact ⟨[], hlater.symm⟩
    | cons id rest =>
      refine .inr ⟨asked ++ [id], ?_, .inr ⟨_, _, _, _, rfl, hreply, hmem, ?_⟩⟩
      · rw [hi, List.map_cons, hasked, List.map_append]
        rfl
      · exact ⟨rest, by rw [hlater, List.append_assoc, List.singleton_append]⟩
  | @gaveUp before i asked reply cause h hasked hreply hgives ih =>
    rw [hasked] at ih
    simp only [List.map_append, List.map_singleton, Isolation.calling?, Option.toList_none,
      List.append_nil]
    rcases ih with hnil | ⟨singles, hcalls, hsingles⟩
    · exact .inl hnil
    · refine .inr ⟨singles, hcalls, ?_⟩
      rcases hsingles with rfl | ⟨first, rest, record, m, rfl, hfirst⟩
      · exact .inl rfl
      · exact .inr ⟨first, rest ++ [⟨asked, reply⟩], record, m, rfl, hfirst⟩

theorem ne_nil_of_done {n : Nat} (h : Trial ids applied (.done n)) : applied ≠ [] := by
  cases h <;> exact List.cons_ne_nil _ _

/-- How many failures the answers for a batch amount to. -/
def errors (ids : List String) (applied : List Application) : Nat :=
  match applied with
  | [] => ids.length
  | first :: singles =>
    match first.reply.result with
    | .ok outcomes => failures outcomes ids.length
    | .error (.recordFailed record _) =>
      if record ∈ ids then 1 + (singles.map (·.errors)).sum else ids.length
    | .error _ => ids.length

theorem errors_eq {n : Nat} (h : Trial ids applied (.done n)) : errors ids applied = n := by
  cases h with
  | atOnce hreply => simp only [errors, hreply]
  | stranger hreply hnot => simp only [errors, hreply, if_neg hnot]
  | oneByOne singles asked later hreply hmem _ _ _ hi =>
    cases later with
    | nil =>
      rw [Isolation.done.inj hi]
      simp only [errors, hreply, if_pos hmem]
    | cons => exact absurd hi nofun

/-- No more records count as failed than there are, but for failures beyond the records that were
asked about. -/
theorem errors_le {n : Nat} (h : Trial ids applied (.done n)) :
    n ≤ ids.length + (applied.map (·.surplus)).sum := by
  cases h with
  | @atOnce reply outcomes hreply =>
    have hle := failures_le outcomes ids.length
    simp only [List.map_singleton, List.sum_singleton, Application.surplus, hreply]
    exact hle
  | stranger => exact Nat.le_add_right _ _
  | @oneByOne singles asked later reply record m _ hreply hmem hlater hasked _ hi =>
    -- the record on which the action stopped counts once, and so does each one behind it
    cases later with
    | cons => exact absurd hi nofun
    | nil =>
      have hone : ∀ a ∈ singles, a.ids.length = 1 := by
        intro a ha
        have hids : a.ids ∈ asked.map fun id => [id] := by
          rw [← hasked]
          exact List.mem_map.2 ⟨a, ha, rfl⟩
        obtain ⟨id, -, hid⟩ := List.mem_map.1 hids
        rw [← hid, List.length_singleton]
      have hsum := sum_errors_le hone
      have hcount : singles.length = asked.length := by
        simpa only [List.length_map] using congrArg List.length hasked
      have hplace := List.idxOf_lt_length_of_mem hmem
      have hbehind := congrArg List.length hlater
      rw [List.length_drop, List.append_nil] at hbehind
      rw [Isolation.done.inj hi, List.map_cons, List.sum_cons]
      omega

end Trial

/-! ## Blocks -/

/-- How a transaction was closed, and the answer. -/
inductive Closing where
  | commit (answer : Except TransactionError Unit)
  | rollback (answer : Except TransactionError Unit)

/-- The note of the closing of a transaction. -/
def Closing.note (s : BatchScope) : Closing → Note
  | .commit answer => .committed s answer
  | .rollback answer => .rolledBack s answer

/-- What passes for one batch. -/
structure Block where
  batch : Batch
  /-- The answer when the transaction was asked for. -/
  opening : Except TransactionError Unit
  applied : List Application
  /-- The records of a call that is not answered yet. -/
  pending : Option (List String)
  closing : Option Closing

namespace Block

/-- The transaction scope of the batch, which belongs to a bucket of a command. -/
def scope (k : Command) (b : Bucket) (block : Block) : BatchScope :=
  ⟨k.id, b.sequence, block.batch.index⟩

/-- The calls of the action, each for some records. -/
def calls (block : Block) : List (List String) :=
  block.applied.map (·.ids) ++ block.pending.toList

/-- The notes of a block. -/
def notes (k : Command) (b : Bucket) (block : Block) : Journal :=
  .began (block.scope k b) block.opening :: (block.applied.flatMap (·.notes) ++
    block.pending.toList.map .called ++ block.closing.toList.map (Closing.note (block.scope k b)))

/-- Whether nothing more passes for the batch. -/
def isOver (block : Block) : Bool :=
  match block.opening with
  | .ok () => block.closing.isSome
  | .error _ => true

/-- Whether some answer says that the action cannot run. -/
def stopsBucket (block : Block) : Bool := block.applied.any (·.cannotRun)

/-- How many failures of its records a batch comes to.  Without a transaction, or when that is not
committed, all of them have failed. -/
def errors (block : Block) : Nat :=
  match block.opening, block.closing with
  | .ok (), some (.commit (.ok ())) => Trial.errors block.batch.ids block.applied
  | _, _ => block.batch.ids.length

/-- How many failures the answers tell of beyond the records that were asked about. -/
def surplus (block : Block) : Nat := (block.applied.map (·.surplus)).sum

/-- Whether a block is in order. -/
structure IsLawful (block : Block) : Prop where
  /-- Without a transaction there is nothing to be done. -/
  refused : ∀ err, block.opening = .error err →
    block.applied = [] ∧ block.pending = none ∧ block.closing = none
  calls : Trial.CallsInTurn block.batch.ids block.applied block.calls
  /-- The transaction is closed when the last call is answered. -/
  closed : block.closing.isSome = true → block.pending = none ∧ block.applied ≠ []
  /-- It is rolled back exactly when some answer is about the batch as a whole. -/
  rolledBack : (∃ answer, block.closing = some (.rollback answer)) ↔
    ∃ a ∈ block.applied, a.givesUp = true
  errors_le : block.errors ≤ block.batch.ids.length + block.surplus

/-- The answers in a block are those of its calls. -/
theorem answered_mem_notes {k : Command} {b : Bucket} {block : Block} {ids : List String}
    {reply : ActionReply} :
    .answered ids reply ∈ block.notes k b ↔ ⟨ids, reply⟩ ∈ block.applied := by
  have hclosing : .answered ids reply ∉
      block.closing.toList.map (Closing.note (block.scope k b)) := by
    intro hmem
    rcases List.mem_map.1 hmem with ⟨closing, -, hnote⟩
    cases closing <;> exact absurd hnote (by simp [Closing.note])
  simp only [notes, List.mem_cons, List.mem_append, hclosing, or_false]
  constructor
  · rintro (hbegan | happlied | hpending)
    · exact absurd hbegan (by simp)
    · rcases List.mem_flatMap.1 happlied with ⟨a, ha, hnote⟩
      rcases List.mem_pair.1 hnote with hcalled | hanswered
      · exact absurd hcalled (by simp)
      · rcases Note.answered.inj hanswered with ⟨rfl, rfl⟩
        exact ha
    · rcases List.mem_map.1 hpending with ⟨ids', -, hnote⟩
      exact absurd hnote (by simp)
  · intro ha
    exact .inr (.inl (List.mem_flatMap.2 ⟨_, ha, by simp [Application.notes]⟩))

section Lawful

variable {batch : Batch} {applied : List Application} {ids : List String} {errors : Nat}
  {cause : ActionError} {answer : Except TransactionError Unit}

theorem isLawful_opened (batch : Batch) (answer : Except TransactionError Unit) :
    (⟨batch, answer, [], none, none⟩ : Block).IsLawful where
  refused _ _ := ⟨rfl, rfl, rfl⟩
  calls := .inl rfl
  closed := nofun
  rolledBack := by simp
  errors_le := by
    cases answer <;> exact Nat.le_add_right _ _

theorem isLawful_called {i : Isolation} (h : Trial batch.ids applied i)
    (hcalling : i.calling? = some ids) :
    (⟨batch, .ok (), applied, some ids, none⟩ : Block).IsLawful where
  refused := nofun
  calls := by
    have hcalls := h.callsInTurn
    rwa [hcalling] at hcalls
  closed := nofun
  rolledBack := by
    refine iff_of_false nofun ?_
    intro hgives
    obtain ⟨cause, rfl⟩ := h.givesUp_iff.1 hgives
    exact absurd hcalling nofun
  errors_le := Nat.le_add_right _ _

theorem isLawful_committed (h : Trial batch.ids applied (.done errors))
    (answer : Except TransactionError Unit) :
    (⟨batch, .ok (), applied, none, some (.commit answer)⟩ : Block).IsLawful where
  refused := nofun
  calls := h.callsInTurn
  closed _ := ⟨rfl, h.ne_nil_of_done⟩
  rolledBack := by
    refine iff_of_false nofun ?_
    intro hgives
    obtain ⟨cause, hcause⟩ := h.givesUp_iff.1 hgives
    exact absurd hcause nofun
  errors_le := by
    cases answer with
    | error err => exact Nat.le_add_right _ _
    | ok =>
      show Trial.errors batch.ids applied ≤ _
      rw [h.errors_eq]
      exact h.errors_le

theorem isLawful_rolledBack (h : Trial batch.ids applied (.failed cause))
    (answer : Except TransactionError Unit) :
    (⟨batch, .ok (), applied, none, some (.rollback answer)⟩ : Block).IsLawful where
  refused := nofun
  calls := h.callsInTurn
  closed _ := by
    obtain ⟨before, last, -, happlied, -⟩ := h.of_failed
    rw [happlied]
    exact ⟨rfl, List.concat_ne_nil _ _⟩
  rolledBack := iff_of_true ⟨answer, rfl⟩ (h.givesUp_iff.2 ⟨cause, rfl⟩)
  errors_le := Nat.le_add_right _ _

end Lawful

end Block

end BulkRun
