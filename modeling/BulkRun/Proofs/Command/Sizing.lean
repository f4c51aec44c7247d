import Mathlib.Order.Bounds.Defs
import BulkRun.Proofs.Action.Registry
import BulkRun.Proofs.Command.Defaults
import BulkRun.Proofs.Command.WireForm
/-!
# Sizes from defaults

The bucket size and the batch size of a command may each come from the command, from its action or
from the settings, and these three are checked apart from each other.  Main statement: whatever
passed its own checks goes together, so filling in what is unset never fails; it overrides nothing
that is set, and moves a default only as far as the other size asks for (`defaults_always_resolve`).
-/

namespace BulkRun

/-! ## Two sizes -/

namespace Draft

variable {bucket batch defaultBucket defaultBatch : Nat}

theorem resolvedSizes_fst :
    (resolvedSizes bucket batch defaultBucket defaultBatch).1 =
      if bucket = 0 then max defaultBucket batch else bucket := by
  cases bucket <;> cases batch <;> simp [resolvedSizes]

theorem resolvedSizes_snd :
    (resolvedSizes bucket batch defaultBucket defaultBatch).2 =
      if batch = 0 then min defaultBatch (resolvedSizes bucket batch defaultBucket defaultBatch).1
      else batch := by
  cases bucket <;> cases batch <;> simp [resolvedSizes]

variable (hset : bucket = 0 ∨ batch ≤ bucket) (hbucket : 0 < defaultBucket)
  (hbatch : 0 < defaultBatch)

include hset in
/-- Set sizes that go together still do with what is filled in. -/
theorem resolvedSizes_snd_le :
    (resolvedSizes bucket batch defaultBucket defaultBatch).2 ≤
      (resolvedSizes bucket batch defaultBucket defaultBatch).1 := by
  rw [resolvedSizes_snd, resolvedSizes_fst]
  split
  · exact Nat.min_le_right _ _
  · split
    · exact Nat.le_max_right _ _
    · rename_i hb
      exact hset.resolve_left hb

include hbucket hbatch in
theorem resolvedSizes_snd_pos :
    0 < (resolvedSizes bucket batch defaultBucket defaultBatch).2 := by
  rw [resolvedSizes_snd]
  split
  · exact Nat.lt_min.2 ⟨hbatch, resolvedSizes_fst_pos _ _ hbucket _⟩
  · rename_i hb
    exact Nat.pos_of_ne_zero hb

end Draft

/-! ## Defaults -/

/-- Settings that are not refused have no zero where none may be. -/
theorem Settings.pos_of_check {s : Settings} (h : s.check = .ok ()) :
    ∀ e ∈ s.positive, 0 < e.2 := by
  intro e he
  unfold check at h
  split at h
  · exact absurd h (by simp)
  · rename_i hnone
    have hnot := List.find?_eq_none.1 hnone e he
    exact Nat.pos_of_ne_zero fun hzero => hnot (beq_iff_eq.2 hzero)

namespace ActionDescriptor

variable {d : ActionDescriptor}

/-- The bucket size for commands of an action that set none. -/
def bucketDefault (d : ActionDescriptor) (s : DispatcherSettings) : Nat :=
  d.defaultBucketSize.getD s.defaultBucketSize

/-- The batch size for commands of an action that set none. -/
def batchDefault (d : ActionDescriptor) (s : DispatcherSettings) : Nat :=
  d.defaultBatchSize.getD s.defaultBatchSize

theorem getD_pos {size : Option Nat} {n : Nat} (hsize : size ≠ some 0) (hn : 0 < n) :
    0 < size.getD n := by
  cases size with
  | none => exact hn
  | some m => exact Nat.pos_of_ne_zero fun hm => hsize (congrArg some hm)

/-- A good descriptor sets no size to zero, and settings that are not refused set both. -/
theorem defaults_pos {settings : Settings} (hd : d.check = .ok ())
    (hs : settings.check = .ok ()) :
    0 < d.bucketDefault settings.dispatcher ∧ 0 < d.batchDefault settings.dispatcher := by
  obtain ⟨-, hbucket, hbatch, -⟩ := check_eq_ok.1 hd
  have hpos := Settings.pos_of_check hs
  have hsizes : 0 < settings.dispatcher.defaultBucketSize ∧
      0 < settings.dispatcher.defaultBatchSize :=
    ⟨hpos ("dispatcher.default_bucket_size", _) (by simp [Settings.positive]),
      hpos ("dispatcher.default_batch_size", _) (by simp [Settings.positive])⟩
  exact ⟨getD_pos hbucket hsizes.1, getD_pos hbatch hsizes.2⟩

end ActionDescriptor

/-! ## Commands with what is filled in -/

/-- The commands that can be had: those that are made, and those that are decoded. -/
inductive Command.Obtainable (c : Command) : Prop
  | made : c.Made → Obtainable c
  | decoded {w : WireCommand} : w.decode = .ok c → Obtainable c

/-- Whatever a command was had from, its sizes go together. -/
theorem Command.Obtainable.sound {c : Command} (h : c.Obtainable) : c.toDraft.Sound := by
  cases h with
  | made hmade => exact hmade.sound
  | decoded hdecoded =>
    obtain ⟨hsound, rfl⟩ := WireCommand.decode_eq_ok.1 hdecoded
    exact hsound

/-- Defaults that are set can be filled in wherever the sizes that are set go together. -/
theorem Command.withDefaults_eq_ok {c : Command} {bucket batch : Nat} {limit : Option Nat}
    (hc : c.bucketSize = 0 ∨ c.batchSize ≤ c.bucketSize) (hbucket : 0 < bucket)
    (hbatch : 0 < batch) :
    c.withDefaults bucket batch limit = .ok { c with
      bucketSize := (Draft.resolvedSizes c.bucketSize c.batchSize bucket batch).1
      batchSize := (Draft.resolvedSizes c.bucketSize c.batchSize bucket batch).2
      queryLimit := c.queryLimit.or limit } := by
  have hzero : ¬(bucket = 0 ∨ batch = 0) := by omega
  rw [withDefaults, Draft.withDefaults, if_neg hzero]
  dsimp only
  rw [map_checkSizes_eq_ok.2 ⟨.inr (Draft.resolvedSizes_snd_le hc), rfl⟩]
  rfl

namespace DispatcherSettings

variable {s : DispatcherSettings} {d : ActionDescriptor} {c : Command}

/-- A command with its unset sizes, limit and repository filled in. -/
def filled (s : DispatcherSettings) (d : ActionDescriptor) (c : Command) : Command :=
  let sizes :=
    Draft.resolvedSizes c.bucketSize c.batchSize (d.bucketDefault s) (d.batchDefault s)
  { c with
    bucketSize := sizes.1
    batchSize := sizes.2
    queryLimit := c.queryLimit.or d.defaultQueryLimit
    repository := c.repository.or s.defaultRepository }

/-- What a command becomes when what it leaves unset is filled in. -/
structure Completes (s : DispatcherSettings) (d : ActionDescriptor) (c r : Command) : Prop where
  /-- Both sizes are set, and they go together. -/
  sized : 0 < r.batchSize ∧ r.batchSize ≤ r.bucketSize
  /-- Sizes that were set are kept. -/
  kept : (c.bucketSize ≠ 0 → r.bucketSize = c.bucketSize) ∧
    (c.batchSize ≠ 0 → r.batchSize = c.batchSize)
  /-- An unset bucket size is the least from its default on that a set batch fits into. -/
  bucket : c.bucketSize = 0 →
    IsLeast (fun n => d.bucketDefault s ≤ n ∧ c.batchSize ≤ n) r.bucketSize
  /-- An unset batch size is the greatest up to its default that fits into the bucket. -/
  batch : c.batchSize = 0 →
    IsGreatest (fun n => n ≤ d.batchDefault s ∧ n ≤ r.bucketSize) r.batchSize
  /-- A limit that was set is kept, the one that stands for no limit as well. -/
  limit : (∀ n, c.queryLimit = some n → r.queryLimit = some n) ∧
    (c.queryLimit = none → r.queryLimit = d.defaultQueryLimit)
  /-- A repository that was named is kept. -/
  repository : (∀ name, c.repository = some name → r.repository = some name) ∧
    (c.repository = none → r.repository = s.defaultRepository)
  /-- Nothing else changes, and the id neither. -/
  others : { r with
    bucketSize := c.bucketSize
    batchSize := c.batchSize
    queryLimit := c.queryLimit
    repository := c.repository } = c

section

variable (hbucket : 0 < d.bucketDefault s) (hbatch : 0 < d.batchDefault s)

include hbucket hbatch in
theorem resolve_eq_filled (hc : c.toDraft.Sound) : s.resolve d c = .ok (s.filled d c) := by
  rw [resolve, ← ActionDescriptor.bucketDefault, ← ActionDescriptor.batchDefault,
    Command.withDefaults_eq_ok hc.sizes hbucket hbatch]
  rfl

include hbucket hbatch in
theorem completes_filled (hc : c.toDraft.Sound) : s.Completes d c (s.filled d c) where
  sized := ⟨Draft.resolvedSizes_snd_pos hbucket hbatch, Draft.resolvedSizes_snd_le hc.sizes⟩
  kept := by
    refine ⟨fun h => ?_, fun h => ?_⟩
    · exact Draft.resolvedSizes_fst.trans (if_neg h)
    · exact Draft.resolvedSizes_snd.trans (if_neg h)
  bucket h := by
    have hsize : (s.filled d c).bucketSize = max (d.bucketDefault s) c.batchSize :=
      Draft.resolvedSizes_fst.trans (if_pos h)
    rw [hsize]
    exact ⟨⟨Nat.le_max_left _ _, Nat.le_max_right _ _⟩, fun n hn => Nat.max_le.2 hn⟩
  batch h := by
    have hsize : (s.filled d c).batchSize =
        min (d.batchDefault s) (s.filled d c).bucketSize :=
      Draft.resolvedSizes_snd.trans (if_pos h)
    rw [hsize]
    exact ⟨⟨Nat.min_le_left _ _, Nat.min_le_right _ _⟩, fun n hn => Nat.le_min.2 hn⟩
  limit := by
    refine ⟨fun n h => ?_, fun h => ?_⟩
    · show c.queryLimit.or _ = _
      rw [h, Option.some_or]
    · show c.queryLimit.or _ = _
      rw [h, Option.none_or]
  repository := by
    refine ⟨fun name h => ?_, fun h => ?_⟩
    · show c.repository.or _ = _
      rw [h, Option.some_or]
    · show c.repository.or _ = _
      rw [h, Option.none_or]
  others := rfl

end

namespace Completes

variable {r : Command} (h : s.Completes d c r)

include h

/-- What is filled in stays when the same defaults are filled in once more. -/
theorem withDefaults_eq (hbucket : 0 < d.bucketDefault s) (hbatch : 0 < d.batchDefault s) :
    r.withDefaults (d.bucketDefault s) (d.batchDefault s) d.defaultQueryLimit = .ok r := by
  have hset : r.bucketSize ≠ 0 ∧ r.batchSize ≠ 0 := by
    obtain ⟨hpos, hle⟩ := h.sized
    omega
  have hlimit : r.queryLimit.or d.defaultQueryLimit = r.queryLimit := by
    cases hc : c.queryLimit with
    | none =>
      rw [h.limit.2 hc]
      exact Option.or_self
    | some n =>
      rw [h.limit.1 n hc]
      exact Option.some_or
  rw [Command.withDefaults_eq_ok (.inr h.sized.2) hbucket hbatch, Draft.resolvedSizes_snd,
    Draft.resolvedSizes_fst, if_neg hset.1, if_neg hset.2, hlimit]

/-- The bucket size is one that somebody chose. -/
theorem bucketSize_le {n : Nat} (hbucket : c.bucketSize ≤ n) (hbatch : c.batchSize ≤ n)
    (hdefault : d.bucketDefault s ≤ n) : r.bucketSize ≤ n := by
  by_cases hset : c.bucketSize = 0
  · exact (h.bucket hset).2 ⟨hdefault, hbatch⟩
  · rw [h.kept.1 hset]
    exact hbucket

end Completes

/-- A bucket's worth of records is asked for at least, and a word's worth at most. -/
theorem fetchSize_bounds (s : DispatcherSettings) (c : Command) (h : c.bucketSize ≤ wordMax) :
    c.bucketSize ≤ s.fetchSize c ∧ s.fetchSize c ≤ wordMax := by
  refine ⟨Nat.le_min.2 ⟨?_, h⟩, Nat.min_le_right _ _⟩
  exact Nat.le_mul_of_pos_right _ (Nat.lt_of_lt_of_le Nat.one_pos (Nat.le_max_right _ _))

end DispatcherSettings

namespace Setup

variable {σ : Type}

/-- Filling in what is unset always succeeds and overrides nothing.  For a command that is drafted
or decoded, settings that are not refused and a registry that was built: once the action is found,
the preparation goes on to the action and to the scroller, with a command that has a batch size and
a bucket size it fits into, and that keeps whatever was set.  Filling in once more changes nothing,
and the number of records to ask for at once is a word and at least a bucket's worth. -/
theorem defaults_always_resolve {settings : Settings} {setup : Setup σ}
    {actions : List (RegisteredAction (Action σ))} {c : Command}
    (hsettings : settings.check = .ok ()) (hdispatcher : setup.dispatcher = settings.dispatcher)
    (hactions : ActionRegistry.build actions = .ok setup.actions) (hc : c.Obtainable) :
    (setup.actions.find? c.action = none → setup.prepare c = .error (.unknownAction c.action)) ∧
    ∀ a, setup.actions.find? c.action = some a →
      ∃ r, setup.dispatcher.resolve a.descriptor c = .ok r ∧
        setup.prepare c = (match a.action.validate r with
          | .error e => .error (rejection r e)
          | .ok () => (setup.scrollers.resolve r.toDraft).map fun x => (r, x)) ∧
        setup.dispatcher.Completes a.descriptor c r ∧
        r.withDefaults (a.descriptor.bucketDefault setup.dispatcher)
          (a.descriptor.batchDefault setup.dispatcher) a.descriptor.defaultQueryLimit = .ok r ∧
        ((∀ n ∈ [c.bucketSize, c.batchSize, a.descriptor.bucketDefault setup.dispatcher],
            n ≤ wordMax) →
          r.bucketSize ≤ setup.dispatcher.fetchSize r ∧
            setup.dispatcher.fetchSize r ≤ wordMax) := by
  constructor
  · intro hnone
    rw [prepare, ActionRegistry.resolve, hnone]
  · intro a ha
    obtain ⟨-, hgood⟩ := ActionRegistry.check_of_find? hactions ha
    obtain ⟨hbucket, hbatch⟩ := ActionDescriptor.defaults_pos hgood hsettings
    rw [← hdispatcher] at hbucket hbatch
    have hresolve := DispatcherSettings.resolve_eq_filled hbucket hbatch hc.sound
    have hcompletes := DispatcherSettings.completes_filled hbucket hbatch hc.sound
    refine ⟨_, hresolve, ?_, hcompletes, hcompletes.withDefaults_eq hbucket hbatch,
      fun hwords => ?_⟩
    · rw [prepare, ActionRegistry.resolve, ha]
      dsimp only
      rewrite [hresolve]
      rfl
    · simp only [List.forall_mem_cons, List.not_mem_nil] at hwords
      obtain ⟨hsize, hset, hdefault, -⟩ := hwords
      exact DispatcherSettings.fetchSize_bounds _ _ (hcompletes.bucketSize_le hsize hset hdefault)

/-- An action that wants to know the repository. -/
def homing : Action Unit where
  validate c := if c.repository.isNone then .error (.configuration "no repository") else .ok ()
  call _ _ w := (0, w)
  takesPermit := false
  poll _ ids _ w := some (⟨[], .ok (ids.map (⟨·, none⟩))⟩, w)

/-- Actions of one name, of which the later one counts: it has a batch size of its own, which is
above the bucket size of the settings, and a limit. -/
def mixedActions : List (RegisteredAction (Action Unit)) :=
  [⟨⟨"archive", some 7, some 7, none⟩, homing⟩, ⟨⟨"archive", none, some 40, some 9⟩, homing⟩]

/-- Settings with buckets of thirty records and batches of ten. -/
def mixedSettings : Settings := ⟨⟨30, 10, 4, some "main"⟩, .default, .default⟩

/-- Collaborators with these actions and settings, and without scrollers. -/
def mixedSetup : Setup Unit :=
  ⟨⟨[("archive", ⟨⟨"archive", none, some 40, some 9⟩, homing⟩)]⟩, .empty, .none,
    mixedSettings.dispatcher⟩

/-- A command without sizes. -/
def unsized : Command :=
  ⟨⟨"archive", "all", none, none, none, 0, 0, none, false, []⟩, ⟨1⟩⟩

/-- A command without limit, with a batch that no default bucket holds. -/
def overfull : Command :=
  ⟨⟨"archive", "all", some 0, none, some "other", 0, 50, none, false, []⟩, ⟨2⟩⟩

/-- The batches of the action shrink to the buckets of the settings, and the buckets of the settings
grow to the batches of the command. -/
theorem defaults_always_resolve_mixed :
    mixedSettings.check = .ok () ∧ ActionRegistry.build mixedActions = .ok mixedSetup.actions ∧
    unsized.Obtainable ∧ overfull.Obtainable ∧
    (∃ r, mixedSetup.dispatcher.resolve ⟨"archive", none, some 40, some 9⟩ unsized = .ok r ∧
      mixedSetup.prepare unsized = .error (.unknownScroller "query/default") ∧
      (r.bucketSize, r.batchSize, r.queryLimit, r.repository) = (30, 30, some 9, some "main") ∧
      r.withDefaults 30 40 (some 9) = .ok r) ∧
    ∃ r, mixedSetup.dispatcher.resolve ⟨"archive", none, some 40, some 9⟩ overfull = .ok r ∧
      mixedSetup.prepare overfull = .error (.unknownScroller "query/default") ∧
      (r.bucketSize, r.batchSize, r.queryLimit, r.repository) = (50, 50, some 0, some "other") ∧
      r.bucketSize ≤ mixedSetup.dispatcher.fetchSize r := by
  have hsettings : mixedSettings.check = .ok () := rfl
  have hactions : ActionRegistry.build mixedActions = .ok mixedSetup.actions := rfl
  have hdrafted : Draft.assemble "archive" "all" [] = .ok unsized.toDraft := rfl
  have hunsized : unsized.Obtainable := .made (.built ⟨1⟩ hdrafted)
  have hoverfull : overfull.Obtainable := .decoded (w := overfull.encode) rfl
  obtain ⟨r, hr, hprepared, -, hagain, -⟩ :=
    (defaults_always_resolve hsettings rfl hactions hunsized).2 _ rfl
  obtain ⟨q, hq, hstopped, -, -, hfetch⟩ :=
    (defaults_always_resolve hsettings rfl hactions hoverfull).2 _ rfl
  obtain rfl := Except.ok.inj hr
  obtain rfl := Except.ok.inj hq
  have hwords : ∀ n ∈ [overfull.bucketSize, overfull.batchSize, 30], n ≤ wordMax := by decide
  exact ⟨hsettings, hactions, hunsized, hoverfull, ⟨_, hr, hprepared, rfl, hagain⟩,
    _, hq, hstopped, rfl, (hfetch hwords).1⟩

end Setup

end BulkRun
