import BulkRun.Action.Basic
/-!
# The action registry

Actions are found by name.  With its name an action brings defaults for the sizes and the record
limit of commands that leave them unset.
-/

namespace BulkRun

/-- The name of an action and its defaults. -/
structure ActionDescriptor where
  name : String
  defaultBucketSize : Option Nat
  defaultBatchSize : Option Nat
  defaultQueryLimit : Option Nat
deriving DecidableEq, Repr

/-- What is wrong with a descriptor. -/
inductive DescriptorFault where
  | emptyName
  | zeroDefault (name : String)
  | bucketBelowBatch (name : String) (bucket batch : Nat)
deriving DecidableEq, Repr

/-- The wording of a fault. -/
def DescriptorFault.message : DescriptorFault → String
  | .emptyName => "Action name cannot be empty"
  | .zeroDefault name => "Action " ++ name ++ ": default sizes must be > 0"
  | .bucketBelowBatch name bucket batch =>
    "Action " ++ name ++ ": default bucket size " ++ Text.ofNat bucket ++
      " is smaller than default batch size " ++ Text.ofNat batch

/-- A fault of a descriptor is an error of configuration. -/
def DescriptorFault.toError (f : DescriptorFault) : Error := .configuration f.message

/-- Refuses a blank name, a default of zero, and a bucket size below the batch size. -/
def ActionDescriptor.check (d : ActionDescriptor) : Except DescriptorFault Unit :=
  if Text.isBlank d.name then .error .emptyName
  else if d.defaultBucketSize = some 0 ∨ d.defaultBatchSize = some 0 then
    .error (.zeroDefault d.name)
  else
    match d.defaultBucketSize, d.defaultBatchSize with
    | some bucket, some batch =>
      if bucket < batch then .error (.bucketBelowBatch d.name bucket batch) else .ok ()
    | _, _ => .ok ()

/-- A descriptor with the action it stands for. -/
structure RegisteredAction (α : Type) where
  descriptor : ActionDescriptor
  action : α

/-- Actions by name. -/
structure ActionRegistry (α : Type) where
  entries : List (String × RegisteredAction α)

namespace ActionRegistry

variable {α : Type}

/-- Registers actions one after another, each in the place of one of its name. -/
def registerAll (r : ActionRegistry α) :
    List (RegisteredAction α) → Except DescriptorFault (ActionRegistry α)
  | [] => .ok r
  | a :: rest =>
    match a.descriptor.check with
    | .error f => .error f
    | .ok () => registerAll ⟨insertEntry r.entries a.descriptor.name a⟩ rest

/-- The registry of some actions; fails with the first descriptor that is no good. -/
def build (actions : List (RegisteredAction α)) : Except DescriptorFault (ActionRegistry α) :=
  registerAll ⟨[]⟩ actions

/-- The action of a name. -/
def find? (r : ActionRegistry α) (name : String) : Option (RegisteredAction α) :=
  r.entries.lookup name

/-- The action of a name, which has to be there. -/
def resolve (r : ActionRegistry α) (name : String) : Except Error (RegisteredAction α) :=
  match r.find? name with
  | some a => .ok a
  | none => .error (.unknownAction name)

/-- Whether there is an action of a name. -/
def contains (r : ActionRegistry α) (name : String) : Bool := (r.find? name).isSome

/-- The names in the order of their characters. -/
def names (r : ActionRegistry α) : List String :=
  (r.entries.map (·.1)).mergeSort fun a b => a ≤ b

/-- The number of actions. -/
def size (r : ActionRegistry α) : Nat := r.entries.length

end ActionRegistry

end BulkRun
