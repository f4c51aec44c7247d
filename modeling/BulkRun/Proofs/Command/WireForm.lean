import BulkRun.Proofs.Command.Drafting
import BulkRun.Wire.Command
/-!
# Drafts and the wire form

A record is decoded to the command that it describes (`WireCommand.content`) exactly when that is
sound (`decode_eq_ok`).  Main statement: every command that can be made comes back from its record
as it was; a record is decoded exactly when its names are not blank and its sizes go together; and
what is decoded could have been drafted.
-/

namespace BulkRun

open Draft (Step)

namespace WireCommand

variable {w : WireCommand} {c : Command} {d d' : Draft}

/-- The command that a record describes, be it one that may not be. -/
def content (w : WireCommand) : Command where
  action := w.action
  query := w.query
  queryLimit := w.queryLimit
  username := w.username
  repository := w.repository
  bucketSize := w.bucketSize
  batchSize := w.batchSize
  scroller := w.scroller.bind Draft.scrollerName
  genericScroller := w.genericScroller
  params := w.params
  id := w.id

/-- A sound command is what its record describes. -/
theorem content_encode (h : c.toDraft.Sound) : c.encode.content = c := by
  have hscroller : c.scroller.bind Draft.scrollerName = c.scroller := by
    cases hname : c.scroller with
    | none => rfl
    | some name =>
      have hne : name.isEmpty = false := by
        cases hempty : name.isEmpty with
        | false => rfl
        | true =>
          have hsound := h.scroller
          rw [hname, String.isEmpty_iff.1 hempty] at hsound
          exact absurd rfl hsound
      rw [Option.bind_some, Draft.scrollerName, hne, if_neg Bool.false_ne_true]
  rw [content, Command.encode]
  dsimp only
  rw [hscroller]

theorem sound_content :
    w.content.toDraft.Sound ↔ Text.isBlank w.action = false ∧ Text.isBlank w.query = false ∧
      (∀ e ∈ w.params, Text.isBlank e.1 = false) ∧
      (w.bucketSize = 0 ∨ w.batchSize ≤ w.bucketSize) := by
  constructor
  · intro h
    exact ⟨h.action, h.query, h.keys, h.sizes⟩
  · rintro ⟨haction, hquery, hkeys, hsizes⟩
    refine ⟨haction, hquery, hkeys, hsizes, ?_⟩
    -- whatever name a record gives, the empty one is none
    intro hname
    obtain ⟨name, -, hname⟩ := Option.bind_eq_some_iff.1 hname
    exact Draft.scrollerName_ne name hname

/-! ## Decoding -/

theorem sized_withBucket_eq_ok {size : Nat} (hunset : d.bucketSize = 0) :
    sized Draft.withBucket size d = .ok d' ↔
      (size = 0 ∨ d.batchSize ≤ size) ∧ d' = { d with bucketSize := size } := by
  unfold sized
  split
  · rename_i hsize
    have hsame : { d with bucketSize := size } = d := by rw [hsize, ← hunset]
    rw [hsame, Except.ok.injEq, and_iff_right (.inl hsize), eq_comm]
  · rename_i hsize
    rw [Draft.withBucket_eq_ok, and_iff_right hsize, or_iff_right hsize]

theorem sized_withBatch_eq_ok {size : Nat} (hunset : d.batchSize = 0) :
    sized Draft.withBatch size d = .ok d' ↔
      (d.bucketSize = 0 ∨ size ≤ d.bucketSize) ∧ d' = { d with batchSize := size } := by
  unfold sized
  split
  · rename_i hsize
    have hsame : { d with batchSize := size } = d := by rw [hsize, ← hunset]
    rw [hsame, Except.ok.injEq, and_iff_right (.inr (hsize ▸ Nat.zero_le _)), eq_comm]
  · rename_i hsize
    rw [Draft.withBatch_eq_ok, and_iff_right hsize]

/-- What the checked fields of a record make of a draft. -/
def drafted (w : WireCommand) : Draft :=
  { Draft.blank w.action w.query with
    params := w.params, bucketSize := w.bucketSize, batchSize := w.batchSize }

/-- The checks let a record pass exactly when the command it describes is sound. -/
theorem draft_eq_ok :
    (Draft.new w.action w.query >>= fun d => d.withParams w.params >>= fun d =>
      sized Draft.withBucket w.bucketSize d >>= fun d => sized Draft.withBatch w.batchSize d) =
        .ok d ↔ w.content.toDraft.Sound ∧ d = w.drafted := by
  have hparams : (if w.params.isEmpty then [] else w.params) = w.params := by
    cases w.params <;> rfl
  simp only [except_bind_eq_ok]
  constructor
  · rintro ⟨d₁, hnew, d₂, hset, d₃, hbucket, hbatch⟩
    obtain ⟨haction, hquery, rfl⟩ := Draft.new_eq_ok.1 hnew
    obtain ⟨hkeys, rfl⟩ := Draft.withParams_eq_ok.1 hset
    obtain ⟨-, rfl⟩ := (sized_withBucket_eq_ok rfl).1 hbucket
    obtain ⟨hsizes, rfl⟩ := (sized_withBatch_eq_ok rfl).1 hbatch
    refine ⟨sound_content.2 ⟨haction, hquery, hkeys, hsizes⟩, ?_⟩
    rw [drafted]
    dsimp only [Draft.blank]
    rw [hparams]
  · rintro ⟨hsound, rfl⟩
    refine ⟨_, Draft.new_eq_ok.2 ⟨hsound.action, hsound.query, rfl⟩, _,
      Draft.withParams_eq_ok.2 ⟨hsound.keys, rfl⟩, _,
      (sized_withBucket_eq_ok rfl).2 ⟨.inr (Nat.zero_le _), rfl⟩,
      (sized_withBatch_eq_ok rfl).2 ⟨hsound.sizes, ?_⟩⟩
    rw [drafted]
    dsimp only [Draft.blank]
    rw [hparams]

/-- A record is decoded to the command that it describes, exactly when that is sound. -/
theorem decode_eq_ok : w.decode = .ok c ↔ w.content.toDraft.Sound ∧ c = w.content := by
  have hdecode : w.decode = (Draft.new w.action w.query >>= fun d => d.withParams w.params >>=
      fun d => sized Draft.withBucket w.bucketSize d >>= fun d =>
        sized Draft.withBatch w.batchSize d) >>= fun d => .ok { d with
          id := w.id
          queryLimit := w.queryLimit
          username := w.username
          repository := w.repository
          scroller := w.scroller.bind Draft.scrollerName
          genericScroller := w.genericScroller } := by
    simp only [bind_assoc]
    rfl
  rw [hdecode, except_bind_eq_ok]
  constructor
  · rintro ⟨d, hd, hc⟩
    obtain ⟨hsound, rfl⟩ := draft_eq_ok.1 hd
    exact ⟨hsound, (Except.ok.inj hc).symm⟩
  · rintro ⟨hsound, rfl⟩
    exact ⟨_, draft_eq_ok.2 ⟨hsound, rfl⟩, rfl⟩

/-! ## Drafting what a record describes -/

/-- A step for a size that is set. -/
def sizeSteps (step : Nat → Step) (size : Nat) : List Step := if size = 0 then [] else [step size]

/-- A step for a bound on the number of records that is set. -/
def limitSteps : Option Nat → List Step
  | none => []
  | some 0 => [.unlimited]
  | some limit => [.queryLimit limit]

/-- The steps for the fields that are checked. -/
def checkedSteps (w : WireCommand) : List Step :=
  .params w.params :: sizeSteps .bucket w.bucketSize ++ sizeSteps .batch w.batchSize

/-- The steps for the other fields. -/
def freeSteps (w : WireCommand) : List Step :=
  limitSteps w.queryLimit ++ (w.username.map .user).toList ++
    (w.repository.map .repository).toList ++ (w.scroller.map .scroller).toList ++
    if w.genericScroller then [.genericScroller] else []

/-- The steps that draft what a record describes. -/
def steps (w : WireCommand) : List Step := w.checkedSteps ++ w.freeSteps

theorem follow_append (d : Draft) (earlier later : List Step) :
    d.follow (earlier ++ later) = d.follow earlier >>= (·.follow later) :=
  List.foldlM_append

theorem follow_bucket (d : Draft) (size : Nat) :
    d.follow (sizeSteps .bucket size) = sized Draft.withBucket size d := by
  unfold sizeSteps sized
  split
  · rfl
  · exact bind_pure _

theorem follow_batch (d : Draft) (size : Nat) :
    d.follow (sizeSteps .batch size) = sized Draft.withBatch size d := by
  unfold sizeSteps sized
  split
  · rfl
  · exact bind_pure _

/-- The fields that are not checked are set one after the other, unless they are unset. -/
theorem follow_freeSteps (w : WireCommand) :
    w.drafted.follow w.freeSteps = .ok w.content.toDraft := by
  obtain ⟨id, action, query, limit, username, repository, bucket, batch, scroller, isGeneric,
    params⟩ := w
  obtain _ | _ | limit := limit <;> cases username <;> cases repository <;> cases scroller <;>
    cases isGeneric <;> rfl

/-- A record that is decoded is drafted by steps from its own fields. -/
theorem assemble_steps (h : w.content.toDraft.Sound) :
    Draft.assemble w.action w.query w.steps = .ok w.content.toDraft := by
  have hchecked : Draft.assemble w.action w.query w.checkedSteps = .ok w.drafted := by
    rw [← draft_eq_ok.2 ⟨h, rfl⟩, Draft.assemble]
    congr 1
    funext d
    rw [checkedSteps, List.cons_append, Draft.follow, List.foldlM_cons]
    congr 1
    funext d
    rw [← Draft.follow, follow_append, follow_bucket]
    congr 1
    funext d
    exact follow_batch d w.batchSize
  calc Draft.assemble w.action w.query w.steps
      = Draft.assemble w.action w.query w.checkedSteps >>= (·.follow w.freeSteps) := by
        simp only [Draft.assemble, steps, follow_append, bind_assoc]
    _ = w.drafted.follow w.freeSteps := by
        rw [hchecked]
        rfl
    _ = .ok w.content.toDraft := follow_freeSteps w

/-- The wire form and the steps of drafting describe the same commands.  A command that can be made
comes back from its record as it was; a record is decoded exactly when its action, its query and its
keys are not blank and its sizes go together, whatever its other fields; and what is decoded, but
for its id, is what steps from the fields of the record make of its action and its query. -/
theorem wire_form_describes_drafts :
    (∀ c : Command, c.Made → c.encode.decode = .ok c) ∧
    (∀ w : WireCommand, (∃ c, w.decode = .ok c) ↔
      Text.isBlank w.action = false ∧ Text.isBlank w.query = false ∧
        (∀ e ∈ w.params, Text.isBlank e.1 = false) ∧
        (w.bucketSize = 0 ∨ w.batchSize ≤ w.bucketSize)) ∧
    ∀ (w : WireCommand) (c : Command), w.decode = .ok c →
      ∃ d, Draft.assemble w.action w.query w.steps = .ok d ∧ c = d.build w.id := by
  refine ⟨fun c hmade => ?_, fun w => ?_, fun w c hdecoded => ?_⟩
  · have hcontent := content_encode hmade.sound
    exact decode_eq_ok.2 ⟨hcontent.symm ▸ hmade.sound, hcontent.symm⟩
  · rw [← sound_content]
    constructor
    · rintro ⟨c, hdecoded⟩
      exact (decode_eq_ok.1 hdecoded).1
    · exact fun hsound => ⟨w.content, decode_eq_ok.2 ⟨hsound, rfl⟩⟩
  · obtain ⟨hsound, rfl⟩ := decode_eq_ok.1 hdecoded
    exact ⟨w.content.toDraft, assemble_steps hsound, rfl⟩

/-- Steps in a twisted order: the batch size comes first, the empty name and no parameters change
nothing, and the bound is lifted again. -/
def twistedSteps : List Step :=
  [.batch 5, .scroller "", .bucket 10, .param "dc:title" .null, .params [], .queryLimit 3,
    .batch 10, .genericScroller, .unlimited, .user "alice", .documentScroller]

/-- A record with a batch size and no bucket size, and with an empty name of a scroller. -/
def looseRecord : WireCommand :=
  ⟨⟨9⟩, "archive", "all", some 0, none, some "default", 0, 25, some "", true, [("k", .null)]⟩

/-- A command that was drafted in twisted steps and given a repository afterwards comes back from
its record, and the loose record is decoded. -/
theorem wire_form_describes_drafts_twisted :
    ∃ d, Draft.assemble "archive" "all" twistedSteps = .ok d ∧
      (d.bucketSize, d.batchSize, d.queryLimit, d.scroller) = (10, 10, some 0, none) ∧
      ((d.build ⟨7⟩).withDefaultRepository (some "archive")).Made ∧
      ((d.build ⟨7⟩).withDefaultRepository (some "archive")).encode.decode =
        .ok ((d.build ⟨7⟩).withDefaultRepository (some "archive")) ∧
      ∃ c, looseRecord.decode = .ok c ∧ c.scroller = none ∧
        ∃ e, Draft.assemble "archive" "all" looseRecord.steps = .ok e ∧ c = e.build ⟨9⟩ := by
  obtain ⟨hback, hdecodes, hdrafted⟩ := wire_form_describes_drafts
  have hassembled : Draft.assemble "archive" "all" twistedSteps = .ok
      ⟨"archive", "all", some 0, some "alice", none, 10, 10, none, false, [("dc:title", .null)]⟩ :=
    rfl
  have hmade := (Command.Made.built ⟨7⟩ hassembled).withDefaultRepository (some "archive")
  obtain ⟨c, hc⟩ := (hdecodes looseRecord).2 ⟨rfl, rfl, by decide, .inl rfl⟩
  refine ⟨_, hassembled, rfl, hmade, hback _ hmade, c, hc, ?_, hdrafted looseRecord c hc⟩
  obtain ⟨-, rfl⟩ := decode_eq_ok.1 hc
  rfl

end WireCommand

end BulkRun
