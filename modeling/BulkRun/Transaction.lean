import BulkRun.Command.Id
import BulkRun.Error
/-!
# Transactions

Every batch is worked on within a scope of its own, which is committed or rolled back.
-/

namespace BulkRun

/-- The batch that a scope is for. -/
structure BatchScope where
  commandId : CommandId
  bucketSequence : Nat
  batchIndex : Nat
deriving DecidableEq, Repr

/-- Why a scope could not be opened or closed. -/
inductive TransactionError where
  | begin (message : String)
  | commit (message : String)
  | rollback (message : String)
deriving DecidableEq, Repr

/-- The wording of a transaction error. -/
def TransactionError.message : TransactionError → String
  | .begin m => "failed to begin transaction: " ++ m
  | .commit m => "commit failed: " ++ m
  | .rollback m => "rollback failed: " ++ m

/-- The error that a transaction error amounts to. -/
def TransactionError.toError (e : TransactionError) : Error := .transaction e.message

/-- The opening and closing of scopes, in a world of type `σ`. -/
structure TransactionManager (σ : Type) where
  begin : BatchScope → σ → Except TransactionError Unit × σ
  commit : BatchScope → σ → Except TransactionError Unit × σ
  rollback : BatchScope → σ → Except TransactionError Unit × σ

/-- The manager of stores without transactions; nothing ever fails. -/
def TransactionManager.none {σ : Type} : TransactionManager σ where
  begin _ s := (.ok (), s)
  commit _ s := (.ok (), s)
  rollback _ s := (.ok (), s)

end BulkRun
