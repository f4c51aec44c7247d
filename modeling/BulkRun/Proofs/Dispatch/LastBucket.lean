import BulkRun.Proofs.Dispatch.InFlight
import BulkRun.Proofs.Dispatch.Signs
/-!
# Scroll loops whose command was called off

A loop asks whether its command was aborted before it publishes a full bucket and before it asks for
a chunk.  It does not ask before it publishes the records that are left over, be it that the scroll
is exhausted or that it breaks off.  So the loop of an aborted command begins to publish exactly
what is left over (`starts?_of_isAborted`).  A command that is gone does not count as aborted any
more, and then the full buckets that the loop still has are published as well: `WindsUp` lists what
a step of such a loop may come to, and `Ebbs` is what comes of many.
-/

namespace BulkRun

open Tracker (Report Heeds answer_cases)

variable {σ : Type}

/-! ## Buckets that a loop turns to -/

/-- The bucket that a loop has just turned to. -/
def ScrollPhase.starting? : ScrollPhase → Option Bucket
  | .publishing b _ => some b
  | _ => none

/-- The bucket that a loop has begun to publish, and which may wait for room. -/
def ScrollPhase.offering? (phase : ScrollPhase) : Option Bucket := phase.offered?.map Prod.fst

/-- The full buckets that a loop has still to turn to; `none` when it has turned to its last. -/
def AfterBucket.filled? : AfterBucket → Option (List Bucket)
  | .goOn full _ _ => some full
  | _ => none

/-- The full buckets that a loop has still to turn to; `none` when it has turned to its last. -/
def ScrollPhase.filled? : ScrollPhase → Option (List Bucket)
  | .created => some []
  | .opening => some []
  | .fetching _ => some []
  | .publishing _ after => after.filled?
  | .waiting _ after => after.filled?
  | .ended _ => none

/-- The full buckets that a loop has still to turn to. -/
def ScrollPhase.filled (phase : ScrollPhase) : List Bucket := phase.filled?.getD []

/-- The bucket of the pending records, when it is the last: the scroll is exhausted, and there is no
full bucket besides. -/
def Bucketizer.last? (b : Bucketizer) (full : List Bucket) (exhausted : Bool) : Option Bucket :=
  if full.isEmpty && exhausted then b.finish else none

/-- The bucket of what is left over, when that is all that a loop has still to publish. -/
def AfterBucket.leftover? : AfterBucket → Option Bucket
  | .goOn full exhausted g => g.bucketizer.last? full exhausted
  | _ => none

namespace ScrollLoop

/-- The bucket that a loop begins to publish with its next step. -/
def starts? (l : ScrollLoop σ) (e : Engine σ) : Option Bucket := (l.resume e).1.phase.starting?

/-- The bucket of what is left over, when the next step of a loop brings its scroll to the end. -/
def leftover? (l : ScrollLoop σ) (e : Engine σ) : Option Bucket :=
  match l.phase with
  | .fetching g =>
    match l.answer? e with
    | some (.error _) => g.bucketizer.finish
    | some (.ok c) => (g.bucketizer.push c.ids).2.last? (g.bucketizer.push c.ids).1 c.exhausted
    | none => none
  | .publishing _ after => (l.publishes? e).bind fun _ => after.leftover?
  | .waiting _ after => (l.publishes? e).bind fun _ => after.leftover?
  | _ => none

variable {l : ScrollLoop σ} {e : Engine σ} {r : ScrollLoop σ × Engine σ} {report : Report}
  {how : ScrollEnd} {after : AfterBucket} {g : Gathering}

theorem Returns.isEnded (h : Returns l e report how r) : r.1.isEnded = true := by
  cases h <;> rfl

theorem exists_of_isEnded (h : l.isEnded = true) : ∃ how, l.phase = .ended how := by
  unfold isEnded at h
  split at h
  · rename_i how hphase
    exact ⟨how, hphase⟩
  · exact absurd h (by simp)

theorem starting?_of_isEnded (h : l.isEnded = true) : l.phase.starting? = none := by
  obtain ⟨how, hphase⟩ := exists_of_isEnded h
  rw [hphase]
  rfl

theorem starting?_fail (l : ScrollLoop σ) (err : Error) (e : Engine σ) :
    (l.fail err e).1.phase.starting? = none := starting?_of_isEnded (returns_fail l err e).isEnded

theorem starting?_submit (l : ScrollLoop σ) (scrolled buckets : Nat) (e : Engine σ) :
    (l.submit scrolled buckets e).1.phase.starting? = none :=
  starting?_of_isEnded (returns_submit l scrolled buckets e).isEnded

/-! ## Aborted commands -/

theorem starting?_fetch (h : e.tracker.isAborted l.id = true) :
    (l.fetch g e).1.phase.starting? = none := by
  rw [fetch, if_pos h]
  rfl

theorem starting?_publishNext (h : e.tracker.isAborted l.id = true) (full : List Bucket)
    (exhausted : Bool) : (l.publishNext full exhausted g e).1.phase.starting? =
      g.bucketizer.last? full exhausted := by
  cases full with
  | cons b rest =>
    rw [publishNext, if_pos h]
    rfl
  | nil =>
    cases exhausted with
    | false => exact starting?_fetch h
    | true =>
      show (l.flush g e).1.phase.starting? = g.bucketizer.finish
      unfold flush
      cases g.bucketizer.finish with
      | none => exact starting?_submit l _ _ e
      | some b => rfl

theorem starting?_goOn (h : e.tracker.isAborted l.id = true) (after : AfterBucket) :
    (l.goOn after e).1.phase.starting? = after.leftover? := by
  cases after with
  | goOn full exhausted g => exact starting?_publishNext h full exhausted
  | submit scrolled buckets => exact starting?_submit l scrolled buckets e
  | fail err => exact starting?_fail l err e

theorem starting?_takeCursor (h : e.tracker.isAborted l.id = true)
    (opened : Except Error Cursor) : (l.takeCursor opened e).1.phase.starting? = none := by
  cases opened with
  | error err => exact starting?_fail l err e
  | ok cursor =>
    obtain ⟨-, err, heq⟩ | ⟨-, heq⟩ | ⟨-, -, heq⟩ := takeCursor_cases l cursor e
    · rw [heq]
      exact starting?_fail l err e
    · rw [heq]
      rfl
    · rw [heq]
      exact starting?_fetch h

theorem starting?_flushAndFail (err : Error) :
    (l.flushAndFail g err e).1.phase.starting? = g.bucketizer.finish := by
  unfold flushAndFail
  cases g.bucketizer.finish with
  | none => exact starting?_fail l err e
  | some b => rfl

/-- A chunk of an aborted command is counted, as the command is there. -/
theorem starting?_takeChunk (h : e.tracker.isAborted l.id = true) (c : Chunk) :
    (l.takeChunk g c e).1.phase.starting? =
      (g.bucketizer.push c.ids).2.last? (g.bucketizer.push c.ids).1 c.exhausted := by
  obtain ⟨p, hp, hstate⟩ := Tracker.isAborted_iff.1 h
  unfold takeChunk
  obtain ⟨hgone, -⟩ | ⟨q, t, ht, hcount⟩ :=
    answer_cases e.tracker e.now l.id (.addScrolled c.ids.length)
  · rw [hp] at hgone
    exact absurd hgone (by simp)
  · rw [show e.tracker.addScrolled e.now l.id c.ids.length = .ok t from hcount]
    obtain rfl := Option.some.inj (hp.symm.trans ht.before)
    have hstill : t.isAborted l.id = true := by
      refine Tracker.isAborted_iff.2 ⟨_, ht.find?_self, ?_⟩
      rw [Progress.heed_state_of_isTerminal (by rw [hstate]; rfl), hstate]
    exact starting?_publishNext (e := { e with tracker := t })
      (g := ⟨g.cursor, (g.bucketizer.push c.ids).2, g.scrolled + c.ids.length⟩) hstill _ _

/-- The loop of an aborted command begins to publish what is left over, and nothing else. -/
theorem starts?_of_isAborted (h : e.tracker.isAborted l.id = true) :
    l.starts? e = l.leftover? e := by
  have hworld (w : σ) : { e with world := w }.tracker.isAborted l.id = true := h
  have hchannel (d : Channel) : { e with channel := d }.tracker.isAborted l.id = true := h
  unfold starts?
  cases hphase : l.phase with
  | created =>
    simp only [leftover?, hphase, resume]
    split
    · exact starting?_fail l _ e
    · rfl
  | opening =>
    rw [resume_opening hphase]
    simp only [leftover?, hphase]
    exact starting?_takeCursor (hworld _) _
  | fetching g =>
    rw [resume_fetching hphase]
    simp only [leftover?, answer?, hphase]
    split
    · rfl
    · unfold takeAnswer
      split
      · rename_i err herr
        simp only [herr]
        exact starting?_flushAndFail err
      · rename_i c hc
        simp only [hc]
        exact starting?_takeChunk (hworld _) c
  | publishing b after =>
    simp only [leftover?, publishes?, hphase, resume]
    obtain ⟨m, hoffer⟩ | hoffer | ⟨d, hoffer, -⟩ := e.channel.offer_cases b
    · simp only [hoffer]
      exact starting?_fail l _ e
    · simp only [hoffer]
      rfl
    · simp only [hoffer]
      exact starting?_goOn (hchannel d) after
  | waiting b after =>
    simp only [leftover?, publishes?, hphase, resume]
    obtain ⟨m, hclaim⟩ | hclaim | ⟨d, hclaim, -⟩ := e.channel.claim_cases l.key b
    · simp only [hclaim]
      exact starting?_fail l _ e
    · simp only [hclaim, hphase]
      rfl
    · simp only [hclaim]
      exact starting?_goOn (hchannel d) after
  | ended how =>
    simp only [leftover?, hphase, resume]
    rfl

end ScrollLoop

/-! ## What is pending is not a full bucket -/

/-- Whether a bucket holds records of a command, but fewer than its buckets are to hold. -/
def Bucket.IsShort (k : Command) (b : Bucket) : Prop := b.ids ≠ [] ∧ b.ids.length < k.bucketSize

/-- Whether the pending records are fewer than fill a bucket of a command. -/
structure Gathering.IsCut (k : Command) (g : Gathering) : Prop where
  size : g.bucketizer.size = k.bucketSize
  pending : g.bucketizer.pending.length < k.bucketSize

/-- Whether fewer records are pending than fill a bucket, while a bucket is published. -/
def AfterBucket.IsCut (k : Command) : AfterBucket → Prop
  | .goOn _ _ g => g.IsCut k
  | _ => True

/-- Whether fewer records are pending than fill a bucket, wherever a loop stands. -/
def ScrollPhase.IsCut (k : Command) : ScrollPhase → Prop
  | .fetching g => g.IsCut k
  | .publishing _ after => after.IsCut k
  | .waiting _ after => after.IsCut k
  | _ => True

theorem Gathering.IsCut.push {k : Command} {g : Gathering} (h : g.IsCut k) (ids : List String)
    (cursor : Cursor) (scrolled : Nat) :
    Gathering.IsCut k ⟨cursor, (g.bucketizer.push ids).2, scrolled⟩ where
  size := h.size
  pending := by
    rw [← h.size]
    exact Bucketizer.pending_push_lt (by rw [h.size]; exact Nat.zero_lt_of_lt h.pending) ids

theorem Gathering.isCut_new {k : Command} (hsize : 0 < k.bucketSize) (cursor : Cursor) :
    Gathering.IsCut k ⟨cursor, ⟨k.id, k.bucketSize, 0, []⟩, 0⟩ := ⟨rfl, hsize⟩

theorem Gathering.IsCut.isShort {k : Command} {g : Gathering} (h : g.IsCut k)
    (hpending : g.bucketizer.pending ≠ []) : g.bucketizer.pendingBucket.IsShort k :=
  ⟨hpending, h.pending⟩

namespace ScrollLoop

variable {l : ScrollLoop σ} {e : Engine σ} {r : ScrollLoop σ × Engine σ} {report : Report}
  {how : ScrollEnd} {after : AfterBucket} {g : Gathering} {k : Command}

theorem isCut_of_isEnded (h : l.isEnded = true) : l.phase.IsCut k := by
  obtain ⟨how, hphase⟩ := exists_of_isEnded h
  rw [hphase]
  trivial

theorem isCut_of_offered? {phase : ScrollPhase} {b : Bucket}
    (h : phase.offered? = some (b, after)) (hcut : phase.IsCut k) : after.IsCut k := by
  rcases ScrollPhase.cases_of_offered? h with rfl | rfl
  · exact hcut
  · exact hcut

theorem GoesOn.isCut (h : GoesOn l e after r) (hcut : after.IsCut k) : r.1.phase.IsCut k := by
  cases h with
  | publish | fetch => exact hcut
  | stop | flush => trivial
  | exhaust _ h | submit h | fail h => exact isCut_of_isEnded h.isEnded

/-- A step of a loop leaves fewer records pending than fill a bucket. -/
theorem Resumes.isCut (h : Resumes l e r) (hcut : l.phase.IsCut l.command) :
    r.1.phase.IsCut l.command := by
  cases h with
  | begin | gone | collapse | breakOff => trivial
  | openUp _ _ _ hsize h => exact h.isCut (Gathering.isCut_new hsize _)
  | @chunk g cursor c p t r _ hphase _ _ h =>
    rw [hphase] at hcut
    exact h.isCut (Gathering.IsCut.push hcut c.ids cursor _)
  | refuse _ _ _ h | breakEmpty _ _ _ _ h | closed _ _ h => exact isCut_of_isEnded h.isEnded
  | enlist hphase _ =>
    rw [hphase] at hcut
    exact hcut
  | wait => exact hcut
  | published hphase _ _ h => exact h.isCut (isCut_of_offered? hphase hcut)

end ScrollLoop

/-! ## Steps of a loop whose command was called off -/

theorem Tracker.CallsOff.gone {t : Tracker} {id : CommandId} (h : t.CallsOff id)
    (hopen : t.isAborted id = false) : t.find? id = none := by
  cases hp : t.find? id with
  | none => rfl
  | some p =>
    rw [Tracker.isAborted_iff.2 ⟨p, hp, h p hp⟩] at hopen
    exact absurd hopen (by simp)

/-- What a loop may turn to whose command was called off, and perhaps is gone. -/
inductive ScrollPhase.WindsUp (k : Command) (gone : Prop) (p q : ScrollPhase) : Prop
  | still (hfilled : q.filled? = p.filled?) (hnone : q.starting? = none)
  | ends (hfilled : q.filled? = none) (hnone : q.starting? = none)
  /-- The next full bucket. -/
  | next {b : Bucket} {rest : List Bucket} (hgone : gone) (hbefore : p.filled? = some (b :: rest))
      (hafter : q.filled? = some rest) (hstart : q.starting? = some b)
  /-- The bucket of what is left over. -/
  | last {b : Bucket} (hbefore : p.filled? = some []) (hafter : q.filled? = none)
      (hstart : q.starting? = some b) (hshort : b.IsShort k)

theorem ScrollPhase.WindsUp.imp {k : Command} {gone gone' : Prop} {p q : ScrollPhase}
    (h : p.WindsUp k gone q) (himp : gone → gone') : p.WindsUp k gone' q := by
  cases h with
  | still hfilled hnone => exact .still hfilled hnone
  | ends hfilled hnone => exact .ends hfilled hnone
  | next hgone hbefore hafter hstart => exact .next (himp hgone) hbefore hafter hstart
  | last hbefore hafter hstart hshort => exact .last hbefore hafter hstart hshort

namespace ScrollLoop

variable {l : ScrollLoop σ} {e : Engine σ} {r : ScrollLoop σ × Engine σ} {report : Report}
  {how : ScrollEnd} {after : AfterBucket} {gone : Prop} {phase : ScrollPhase} {q : ScrollLoop σ}

theorem filled?_of_isEnded (h : l.isEnded = true) : l.phase.filled? = none := by
  obtain ⟨how, hphase⟩ := exists_of_isEnded h
  rw [hphase]
  rfl

theorem filled?_of_offered? {b : Bucket} (h : phase.offered? = some (b, after)) :
    phase.filled? = after.filled? := by
  rcases ScrollPhase.cases_of_offered? h with rfl | rfl
  · rfl
  · rfl

theorem Returns.windsUp (h : Returns l e report how r) :
    phase.WindsUp l.command gone r.1.phase :=
  .ends (filled?_of_isEnded h.isEnded) (starting?_of_isEnded h.isEnded)

/-- What a loop goes on to, from a phase that has the same buckets to turn to, or no full one, the
command being aborted. -/
theorem GoesOn.windsUp (h : GoesOn l e after r) (hoff : e.tracker.CallsOff l.id)
    (hcut : after.IsCut l.command) (hphase : phase.filled? = after.filled? ∨
      phase.filled? = some [] ∧ e.tracker.isAborted l.id = true) :
    phase.WindsUp l.command (e.tracker.find? l.id = none) r.1.phase := by
  cases h with
  | publish hopen =>
    obtain hphase | ⟨-, haborted⟩ := hphase
    · exact .next (hoff.gone hopen) hphase rfl rfl
    · rw [hopen] at haborted
      exact absurd haborted (by simp)
  | fetch _ => exact .still (by obtain hphase | ⟨hphase, -⟩ := hphase <;> exact hphase.symm) rfl
  | stop _ => exact .ends rfl rfl
  | flush hpending =>
    exact .last (by obtain hphase | ⟨hphase, -⟩ := hphase <;> exact hphase) rfl rfl
      (Gathering.IsCut.isShort hcut hpending)
  | exhaust _ h | submit h | fail h => exact h.windsUp

/-- A loop whose command was called off begins to publish a full bucket only when the command is
gone, and otherwise what is left over. -/
theorem Resumes.windsUp (h : Resumes l e r) (hoff : e.tracker.CallsOff l.id)
    (hcut : l.phase.IsCut l.command) :
    l.phase.WindsUp l.command (e.tracker.find? l.id = none) r.1.phase := by
  cases h with
  | begin hphase _ => exact .still (by rw [hphase]; rfl) rfl
  | gone | collapse => exact .ends rfl rfl
  | refuse _ _ _ h | breakEmpty _ _ _ _ h | closed _ _ h => exact h.windsUp
  | openUp _ hphase _ hsize h =>
    exact h.windsUp hoff (Gathering.isCut_new hsize _) (.inl (by rw [hphase]; rfl))
  | @chunk g cursor c p t r _ hphase _ ht h =>
    rw [hphase] at hcut ⊢
    -- the chunk was counted, so the command is there, and aborted
    have hstill : t.CallsOff l.id := hoff.raises (ht.raises_zero rfl l.id)
    have haborted : t.isAborted l.id = true :=
      Tracker.isAborted_iff.2 ⟨_, ht.find?_self, hstill _ ht.find?_self⟩
    have hwinds : ScrollPhase.WindsUp l.command (t.find? l.id = none) (.fetching g) r.1.phase :=
      h.windsUp hstill (Gathering.IsCut.push hcut c.ids cursor _) (.inr ⟨rfl, haborted⟩)
    refine hwinds.imp fun hgone => ?_
    rw [ht.find?_self] at hgone
    exact absurd hgone (by simp)
  | breakOff _ hphase _ hpending =>
    rw [hphase] at hcut ⊢
    exact .last rfl rfl rfl (Gathering.IsCut.isShort hcut hpending)
  | enlist hphase _ => exact .still (by rw [hphase]; rfl) rfl
  | wait hphase _ => exact .still rfl (by rw [hphase]; rfl)
  | published hphase _ _ h =>
    exact h.windsUp hoff (isCut_of_offered? hphase hcut) (.inl (filled?_of_offered? hphase))

/-! ### What is published -/

theorem offering?_of_isEnded (h : l.isEnded = true) : l.phase.offering? = none := by
  obtain ⟨how, hphase⟩ := exists_of_isEnded h
  rw [hphase]
  rfl

/-- A loop is on with the bucket that it has turned to. -/
theorem GoesOn.offering? (h : GoesOn l e after r) :
    r.1.phase.offering? = r.1.phase.starting? := by
  cases h with
  | publish | fetch | stop | flush => rfl
  | exhaust _ h | submit h | fail h =>
    rw [offering?_of_isEnded h.isEnded, starting?_of_isEnded h.isEnded]

/-- A loop publishes the bucket that it is on with. -/
theorem publishes?_prefix (l : ScrollLoop σ) (e : Engine σ) :
    (l.publishes? e).toList <+: l.phase.offering?.toList := by
  cases hpublishes : l.publishes? e with
  | none => exact List.nil_prefix
  | some b =>
    obtain ⟨after, hoffered⟩ := offered?_of_publishes? hpublishes
    rw [ScrollPhase.offering?, hoffered]
    exact List.prefix_refl _

/-- A loop that was on with nothing is on with what it turns to. -/
theorem offers_of_fresh (hfresh : l.phase.offered? = none)
    (hsame : q.phase.offering? = q.phase.starting?) :
    (l.publishes? e).toList ++ q.phase.offering?.toList =
      l.phase.offering?.toList ++ q.phase.starting?.toList := by
  have hnothing : l.phase.offering? = none := by
    rw [ScrollPhase.offering?, hfresh]
    rfl
  rw [publishes?_of_offered? hfresh, hsame, hnothing]

/-- A loop that publishes nothing may be on with the same bucket still. -/
theorem offers_of_same (hquiet : l.publishes? e = none)
    (hsame : q.phase.offering? = l.phase.offering?) (hnone : q.phase.starting? = none) :
    (l.publishes? e).toList ++ q.phase.offering?.toList =
      l.phase.offering?.toList ++ q.phase.starting?.toList := by
  rw [hquiet, hsame, hnone, Option.toList_none, List.nil_append, List.append_nil]

/-- A loop that has not ended with a step has published the bucket that it was on with, or is on
with it still. -/
theorem Resumes.offers (h : Resumes l e r) (hopen : r.1.isEnded = false) :
    (l.publishes? e).toList ++ r.1.phase.offering?.toList =
      l.phase.offering?.toList ++ r.1.phase.starting?.toList := by
  have hreturns {report : Report} {how : ScrollEnd} {f : Engine σ}
      (h : Returns l f report how r) : False := by
    rw [h.isEnded] at hopen
    exact absurd hopen (by simp)
  cases h with
  | begin hphase _ => exact offers_of_fresh (by rw [hphase]; rfl) rfl
  | gone | collapse => exact absurd (show true = false from hopen) (by simp)
  | refuse _ _ _ h | breakEmpty _ _ _ _ h | closed _ _ h => exact (hreturns h).elim
  | openUp _ hphase _ _ h => exact offers_of_fresh (by rw [hphase]; rfl) h.offering?
  | chunk _ hphase _ _ h => exact offers_of_fresh (by rw [hphase]; rfl) h.offering?
  | breakOff _ hphase _ _ => exact offers_of_fresh (by rw [hphase]; rfl) rfl
  | enlist hphase hfull =>
    exact offers_of_same (quiet_of_full hphase hfull).2 (by rw [hphase]; rfl) rfl
  | wait hphase hfull =>
    exact offers_of_same (quiet_of_kept hphase hfull).2 rfl (by rw [hphase]; rfl)
  | @published b after d r hphase hpublishes _ h =>
    rw [hpublishes, h.offering?, ScrollPhase.offering?, hphase]
    rfl

/-! ## Many steps of a loop whose command was called off -/

/-- What a loop has begun to publish since its command was called off, and where it stands now; the
command may be known to have been there ever since. -/
inductive Rests (l : ScrollLoop σ) (kept : Prop) (started : List Bucket) (phase : ScrollPhase) :
    Prop
  | goesOn {rest : List Bucket} (hrest : phase.filled? = some rest)
      (hstarted : started ++ rest = l.phase.filled) (hkept : kept → started = [])
  | ends (last : Option Bucket) (hrest : phase.filled? = none)
      (hstarted : started <+: l.phase.filled ++ last.toList)
      (hshort : ∀ b ∈ last, b.IsShort l.command) (hkept : kept → started <+: last.toList)

variable {kept kept' : Prop} {started published : List Bucket}

theorem rests_start (l : ScrollLoop σ) (kept : Prop) : l.Rests kept [] l.phase := by
  cases hrest : l.phase.filled? with
  | some rest => exact .goesOn hrest (by rw [ScrollPhase.filled, hrest]; rfl) fun _ => rfl
  | none => exact .ends none hrest List.nil_prefix (by simp) fun _ => List.nil_prefix

theorem Rests.windsUp {p q : ScrollPhase} (h : l.Rests kept started p)
    (hwinds : p.WindsUp l.command gone q) (hkept : kept' → kept ∧ ¬gone) :
    l.Rests kept' (started ++ q.starting?.toList) q := by
  cases hwinds with
  | still hfilled hnone =>
    rw [hnone, Option.toList_none, List.append_nil]
    cases h with
    | goesOn hrest hstarted hnew =>
      exact .goesOn (hfilled.trans hrest) hstarted fun hk => hnew (hkept hk).1
    | ends last hrest hstarted hshort hnew =>
      exact .ends last (hfilled.trans hrest) hstarted hshort fun hk => hnew (hkept hk).1
  | ends hfilled hnone =>
    rw [hnone, Option.toList_none, List.append_nil]
    cases h with
    | @goesOn rest hrest hstarted hnew =>
      refine .ends none hfilled ?_ (by simp) fun hk => ?_
      · rw [← hstarted, Option.toList_none, List.append_nil]
        exact List.prefix_append started rest
      · rw [hnew (hkept hk).1]
        exact List.nil_prefix
    | ends last hrest hstarted hshort hnew =>
      exact .ends last hfilled hstarted hshort fun hk => hnew (hkept hk).1
  | @next b rest hgone hbefore hafter hstart =>
    cases h with
    | goesOn hrest hstarted _ =>
      obtain rfl := Option.some.inj (hbefore.symm.trans hrest)
      refine .goesOn hafter ?_ fun hk => absurd hgone (hkept hk).2
      rw [hstart, Option.toList_some, List.append_assoc]
      exact hstarted
    | ends last hrest _ _ _ =>
      rw [hrest] at hbefore
      exact absurd hbefore (by simp)
  | @last b hbefore hafter hstart hshort =>
    cases h with
    | goesOn hrest hstarted hnew =>
      obtain rfl := Option.some.inj (hbefore.symm.trans hrest)
      rw [List.append_nil] at hstarted
      refine .ends (some b) hafter ?_ ?_ fun hk => ?_
      · rw [hstart, hstarted]
      · intro c hc
        rw [← Option.some.inj hc]
        exact hshort
      · rw [hnew (hkept hk).1, hstart]
        exact List.prefix_refl _
    | ends last hrest _ _ _ =>
      rw [hrest] at hbefore
      exact absurd hbefore (by simp)

/-- What has become of a loop since its command was called off, what it has begun to publish since,
and what it has published. -/
structure Ebbs (l : ScrollLoop σ) (kept : Prop) (started published : List Bucket)
    (q : ScrollLoop σ) : Prop where
  command : q.command = l.command
  rests : l.Rests kept started q.phase
  begun : published <+: l.phase.offering?.toList ++ started
  /-- Until it ends it has published whatever it has begun to, but for what it is on with. -/
  offers : q.isEnded = false →
    published ++ q.phase.offering?.toList = l.phase.offering?.toList ++ started

theorem ebbs_start (l : ScrollLoop σ) (kept : Prop) : l.Ebbs kept [] [] l where
  command := rfl
  rests := l.rests_start kept
  begun := List.nil_prefix
  offers _ := by rw [List.nil_append, List.append_nil]

/-- A step of the loop. -/
theorem Ebbs.resume (h : l.Ebbs kept started published q) (hopen : q.isEnded = false)
    (hoff : e.tracker.CallsOff q.id) (hcut : q.phase.IsCut q.command)
    (hkept : kept' → kept ∧ e.tracker.find? q.id ≠ none) :
    l.Ebbs kept' (started ++ (q.starts? e).toList) (published ++ (q.publishes? e).toList)
      (q.resume e).1 := by
  have hresumes := resumes_resume (e := e) hopen
  have hwinds := hresumes.windsUp hoff hcut
  rw [h.command] at hwinds
  obtain ⟨phase, hphase⟩ := hresumes.loop
  have hoffers := h.offers hopen
  refine ⟨by rw [hphase]; exact h.command, h.rests.windsUp hwinds hkept, ?_, fun hstill => ?_⟩
  · rw [← List.append_assoc, ← hoffers]
    have hpublishes := (List.prefix_append_right_inj published).2 (q.publishes?_prefix e)
    exact hpublishes.trans (List.prefix_append _ _)
  · rw [List.append_assoc, hresumes.offers hstill, ← List.append_assoc, hoffers, List.append_assoc]
    rfl

/-- The loop puts off its step. -/
theorem Ebbs.putOff (h : l.Ebbs kept started published q) (hr : q.putOff? e = some r) :
    l.Ebbs kept started published r.1 := by
  obtain rfl | ⟨b, after, d, hphase, -, rfl⟩ := putOff?_eq_some hr
  · exact h
  · have hoffers := h.offers (by rw [isEnded, hphase])
    have hwinds : q.phase.WindsUp l.command False (.waiting b after) :=
      .still (by rw [hphase]; rfl) rfl
    have hrests : l.Rests kept (started ++ []) (.waiting b after) :=
      h.rests.windsUp hwinds fun hk => ⟨hk, fun h => h⟩
    rw [List.append_nil] at hrests
    rw [hphase] at hoffers
    exact ⟨h.command, hrests, h.begun, fun _ => hoffers⟩

/-- Others do something. -/
theorem Ebbs.imp (h : l.Ebbs kept started published q) (hkept : kept' → kept) :
    l.Ebbs kept' started published q :=
  { h with
    rests := by
      obtain ⟨hrest, hstarted, hnew⟩ | ⟨last, hrest, hstarted, hshort, hnew⟩ := h.rests
      · exact .goesOn hrest hstarted fun hk => hnew (hkept hk)
      · exact .ends last hrest hstarted hshort fun hk => hnew (hkept hk) }

end ScrollLoop

end BulkRun
