import BulkRun.Proofs.Dispatch.Streams
/-!
# The signs of a command

The signs of a command tell what its scroller has answered, which of its buckets were published, and
for which of its batches a transaction was asked.  A scroll loop gives signs of its own command
only, and so does the work on a bucket.
-/

namespace BulkRun

variable {σ : Type} {id : CommandId}

/-- What the scroller of a command has answered. -/
def answersOf (id : CommandId) (signs : List (Sign σ)) : List (Except Error Chunk) :=
  signs.filterMap fun
    | .heard k answer => if k == id then some answer else none
    | _ => none

/-- The buckets of a command that were published. -/
def bucketsOf (id : CommandId) (signs : List (Sign σ)) : List Bucket :=
  signs.filterMap fun
    | .published b => if b.commandId == id then some b else none
    | _ => none

/-- The work for a command for which a transaction was asked. -/
def openedOf (id : CommandId) (signs : List (Sign σ)) : List (Work σ) :=
  signs.filterMap fun
    | .opened w => if w.command.id == id then some w else none
    | _ => none

@[simp]
theorem answersOf_append (id : CommandId) (signs new : List (Sign σ)) :
    answersOf id (signs ++ new) = answersOf id signs ++ answersOf id new := List.filterMap_append

@[simp]
theorem bucketsOf_append (id : CommandId) (signs new : List (Sign σ)) :
    bucketsOf id (signs ++ new) = bucketsOf id signs ++ bucketsOf id new := List.filterMap_append

@[simp]
theorem openedOf_append (id : CommandId) (signs new : List (Sign σ)) :
    openedOf id (signs ++ new) = openedOf id signs ++ openedOf id new := List.filterMap_append

/-- Whether nothing is seen that keeps the work for a command from coming to its end: no failure but
of the scroll, no cancellation, no work that is broken off, and no receiver that goes. -/
structure IsCalm (id : CommandId) (sign : Option (Sign σ)) : Prop where
  scrolls : ∀ err, .error err ∈ answersOf id sign.toList → ∃ m, err = .scroll m
  stays : ∀ isNew, sign ≠ some (.aborted id isNew)
  whole : sign ≠ some .brokenOff
  receives : ∀ i, sign ≠ some (.closed i)

namespace ScrollLoop

variable {l : ScrollLoop σ} {e : Engine σ} {b : Bucket}

theorem offered?_of_publishes? (h : l.publishes? e = some b) :
    ∃ after, l.phase.offered? = some (b, after) := by
  unfold publishes? at h
  split at h
  · rename_i c after hphase
    split at h
    · obtain rfl := Option.some.inj h
      exact ⟨after, by rw [hphase]; rfl⟩
    · exact absurd h (by simp)
  · rename_i c after hphase
    split at h
    · obtain rfl := Option.some.inj h
      exact ⟨after, by rw [hphase]; rfl⟩
    · exact absurd h (by simp)
  · exact absurd h (by simp)

theorem answersOf_sign? (l : ScrollLoop σ) (e : Engine σ) :
    answersOf l.id (l.sign? e).toList = (l.answer? e).toList := by
  unfold sign?
  cases l.answer? e with
  | some answer => simp [answersOf]
  | none => cases l.publishes? e <;> simp [answersOf]

theorem bucketsOf_sign? (howned : l.phase.Owned l.id) (e : Engine σ) :
    bucketsOf l.id (l.sign? e).toList = (l.publishes? e).toList := by
  unfold sign?
  cases hpublishes : l.publishes? e with
  | none => cases l.answer? e <;> simp [bucketsOf]
  | some b =>
    obtain ⟨after, hoffered⟩ := offered?_of_publishes? hpublishes
    simp [answer?_of_offered? hoffered, bucketsOf, commandId_of_offered? howned hoffered]

theorem openedOf_sign? (l : ScrollLoop σ) (e : Engine σ) (id : CommandId) :
    openedOf id (l.sign? e).toList = [] := by
  unfold sign?
  cases l.answer? e with
  | some answer => simp [openedOf]
  | none => cases l.publishes? e <;> simp [openedOf]

/-- A loop gives no sign of other commands. -/
theorem sign?_other (howned : l.phase.Owned l.id) (e : Engine σ) (hne : id ≠ l.id) :
    answersOf id (l.sign? e).toList = [] ∧ bucketsOf id (l.sign? e).toList = [] := by
  cases hsign : l.sign? e with
  | none => exact ⟨rfl, rfl⟩
  | some sign =>
    obtain ⟨answer, -, rfl⟩ | ⟨b, hb, rfl⟩ := sign?_eq_some hsign
    · simp [answersOf, bucketsOf, Ne.symm hne]
    · obtain ⟨after, hoffered⟩ := offered?_of_publishes? hb
      simp [answersOf, bucketsOf, commandId_of_offered? howned hoffered, Ne.symm hne]

end ScrollLoop

namespace Execution

variable {x : Execution σ}

/-- Work gives no sign but that it asked for a transaction. -/
theorem signs_of_sign? (x : Execution σ) (id : CommandId) :
    answersOf id x.sign?.toList = [] ∧ bucketsOf id x.sign?.toList = [] := by
  unfold sign?
  cases x.opened? <;> simp [answersOf, bucketsOf]

theorem openedOf_sign? (h : ∀ w, x.work? = some w → w.command.id = id) :
    openedOf id x.sign?.toList = x.opened?.toList := by
  unfold sign?
  cases hx : x.opened? with
  | none => rfl
  | some w => simp [openedOf, h w (work?_of_opened? hx)]

theorem openedOf_sign?_other (h : ∀ w, x.work? = some w → w.command.id ≠ id) :
    openedOf id x.sign?.toList = [] := by
  unfold sign?
  cases hx : x.opened? with
  | none => rfl
  | some w => simp [openedOf, h w (work?_of_opened? hx)]

end Execution

end BulkRun
