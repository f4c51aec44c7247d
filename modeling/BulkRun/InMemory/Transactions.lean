import BulkRun.Transaction
/-!
# Transactions in memory

A manager whose commits fail for chosen batches, and one that fails as written down beforehand and
remembers its calls.
-/

namespace BulkRun.InMemory

/-- A bucket's sequence number and a batch's index. -/
abbrev BatchKey := Nat × Nat

/-- The batch of a scope. -/
def keyOf (s : BatchScope) : BatchKey := (s.bucketSequence, s.batchIndex)

/-- Which commits fail, and the number of commits and rollbacks so far. -/
structure FailingCommits where
  failing : List BatchKey
  commits : Nat
  rollbacks : Nat
deriving DecidableEq, Repr

/-- The manager whose commits fail for chosen batches; such a commit rolls back. -/
def FailingCommits.manager : TransactionManager FailingCommits where
  begin _ m := (.ok (), m)
  commit s m :=
    if m.failing.contains (keyOf s) then
      (.error (.commit "injected commit failure"), { m with rollbacks := m.rollbacks + 1 })
    else (.ok (), { m with commits := m.commits + 1 })
  rollback _ m := (.ok (), { m with rollbacks := m.rollbacks + 1 })

/-- The calls of a manager. -/
inductive TransactionStep where
  | begin
  | commit
  | rollback
deriving DecidableEq, Repr

/-- The name of a call. -/
def TransactionStep.name : TransactionStep → String
  | .begin => "begin"
  | .commit => "commit"
  | .rollback => "rollback"

/-- The error of a call that fails. -/
def TransactionStep.error (m : String) : TransactionStep → TransactionError
  | .begin => .begin m
  | .commit => .commit m
  | .rollback => .rollback m

/-- A call that was made. -/
structure TransactionCall where
  step : TransactionStep
  key : BatchKey
  succeeded : Bool
deriving DecidableEq, Repr

/-- Which calls fail, and the calls made so far. -/
structure TransactionScript where
  failing : List (TransactionStep × BatchKey)
  calls : List TransactionCall
deriving DecidableEq, Repr

namespace TransactionScript

/-- Makes a call. -/
def make (step : TransactionStep) (s : BatchScope) (m : TransactionScript) :
    Except TransactionError Unit × TransactionScript :=
  let fails := m.failing.contains (step, keyOf s)
  let m := { m with calls := m.calls ++ [⟨step, keyOf s, !fails⟩] }
  (if fails then .error (step.error "scripted") else .ok (), m)

/-- The manager that fails as written down. -/
def manager : TransactionManager TransactionScript := ⟨make .begin, make .commit, make .rollback⟩

end TransactionScript

/-- What a manager in memory remembers. -/
inductive TransactionMemory where
  | none
  | failing (m : FailingCommits)
  | scripted (m : TransactionScript)
deriving DecidableEq, Repr

end BulkRun.InMemory
