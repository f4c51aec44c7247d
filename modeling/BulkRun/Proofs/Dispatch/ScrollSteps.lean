import BulkRun.Proofs.Dispatch.ScrollLoop
import BulkRun.Proofs.Status.ScrollFailure
/-!
# What a step of a scroll loop can be

Each function of a scroll loop is turned inside out once: `Returns` lists how a loop may come to its
end with a report, `GoesOn` what it may turn to once a bucket is published, and `Resumes` all that a
step may be.  Whatever is said about the steps of scroll loops follows by cases from here.
-/

namespace BulkRun

open Tracker (Report Heeds Addresses answer_cases)

variable {σ : Type}

/-- The bucket that a loop has to hand to the channel, and what it does after that. -/
def ScrollPhase.offered? : ScrollPhase → Option (Bucket × AfterBucket)
  | .publishing b after => some (b, after)
  | .waiting b after => some (b, after)
  | _ => none

/-- Only a loop that publishes a bucket, or that waits to, has one to hand over. -/
theorem ScrollPhase.cases_of_offered? {phase : ScrollPhase} {b : Bucket} {after : AfterBucket}
    (h : phase.offered? = some (b, after)) :
    phase = .publishing b after ∨ phase = .waiting b after := by
  cases phase with
  | publishing c next =>
    obtain ⟨rfl, rfl⟩ := Prod.mk.inj (Option.some.inj h)
    exact .inl rfl
  | waiting c next =>
    obtain ⟨rfl, rfl⟩ := Prod.mk.inj (Option.some.inj h)
    exact .inr rfl
  | _ => exact absurd h (by simp [offered?])

namespace ScrollLoop

/-- What a loop learns from its scroller in its next step: that the scroll cannot go on, or a chunk
that keeps the rules of scrolling. -/
def answer? (l : ScrollLoop σ) (e : Engine σ) : Option (Except Error Chunk) :=
  match l.phase with
  | .opening =>
    match (l.scroller.start l.command e.world).1 with
    | .error err => some (.error err)
    | .ok _ => none
  | .fetching g =>
    if maxReserved < l.scroller.reserved g.cursor l.fetchSize then none
    else some ((l.scroller.next g.cursor l.fetchSize e.world).1.bind (checkChunk l.fetchSize))
  | _ => none

/-- The bucket that a loop publishes with its next step. -/
def publishes? (l : ScrollLoop σ) (e : Engine σ) : Option Bucket :=
  match l.phase with
  | .publishing b _ => match e.channel.offer b with
    | .ok (some _) => some b
    | _ => none
  | .waiting b _ => match e.channel.claim l.key b with
    | .ok (some _) => some b
    | _ => none
  | _ => none

/-- What becomes of a loop that is to return with a report; if its command is gone there is nobody
to tell. -/
inductive Returns (l : ScrollLoop σ) (e : Engine σ) (r : Report) (how : ScrollEnd) :
    ScrollLoop σ × Engine σ → Prop
  | gone (err : Error) (hgone : e.tracker.find? l.id = none) :
      Returns l e r how (l.finish (.failed err) e)
  | told {p : Progress} {t : Tracker} (ht : Heeds e.tracker e.now l.id r p t) :
      Returns l e r how (l.finish how { e with tracker := t })

theorem returns_fail (l : ScrollLoop σ) (err : Error) (e : Engine σ) :
    Returns l e (lastWord err) (.failed err) (l.fail err e) := by
  rw [fail_eq]
  obtain ⟨hgone, err', h⟩ | ⟨p, t, ht, h⟩ := answer_cases e.tracker e.now l.id (lastWord err)
  · rw [h]
    exact .gone err hgone
  · rw [h]
    exact .told ht

/-- A loop whose command is gone ends with nobody told. -/
theorem fail_of_gone (l : ScrollLoop σ) (err : Error) {e : Engine σ}
    (hgone : e.tracker.find? l.id = none) : l.fail err e = l.finish (.failed err) e := by
  rw [fail_eq]
  obtain ⟨-, err', h⟩ | ⟨p, t, ht, -⟩ := answer_cases e.tracker e.now l.id (lastWord err)
  · rw [h]
  · rw [ht.before] at hgone
    exact absurd hgone (by simp)

theorem returns_submit (l : ScrollLoop σ) (scrolled buckets : Nat) (e : Engine σ) :
    Returns l e .markSubmitted (.submitted scrolled buckets) (l.submit scrolled buckets e) := by
  unfold submit
  obtain ⟨hgone, err, h⟩ | ⟨p, t, ht, h⟩ := answer_cases e.tracker e.now l.id .markSubmitted
  · rw [show e.tracker.markSubmitted e.now l.id = .error err from h]
    simp only
    rw [fail_of_gone l err hgone]
    exact .gone err hgone
  · rw [show e.tracker.markSubmitted e.now l.id = .ok t from h]
    exact .told ht

/-- What a loop may turn to once a bucket is published, or a chunk was counted. -/
inductive GoesOn (l : ScrollLoop σ) (e : Engine σ) : AfterBucket → ScrollLoop σ × Engine σ → Prop
  | publish {b : Bucket} {rest : List Bucket} {exhausted : Bool} {g : Gathering}
      (hopen : e.tracker.isAborted l.id = false) :
      GoesOn l e (.goOn (b :: rest) exhausted g) (l.publish b (.goOn rest exhausted g) e)
  | fetch {g : Gathering} (hopen : e.tracker.isAborted l.id = false) :
      GoesOn l e (.goOn [] false g) ({ l with phase := .fetching g }, e)
  | stop {full : List Bucket} {exhausted : Bool} {g : Gathering}
      (haborted : e.tracker.isAborted l.id = true) :
      GoesOn l e (.goOn full exhausted g) (l.stop g e)
  /-- The records that are left over make the last bucket. -/
  | flush {g : Gathering} (hpending : g.bucketizer.pending ≠ []) :
      GoesOn l e (.goOn [] true g)
        (l.publish g.bucketizer.pendingBucket (.submit g.scrolled (g.bucketizer.emitted + 1)) e)
  | exhaust {g : Gathering} {r : ScrollLoop σ × Engine σ} (hpending : g.bucketizer.pending = [])
      (h : Returns l e .markSubmitted (.submitted g.scrolled g.bucketizer.emitted) r) :
      GoesOn l e (.goOn [] true g) r
  | submit {scrolled buckets : Nat} {r : ScrollLoop σ × Engine σ}
      (h : Returns l e .markSubmitted (.submitted scrolled buckets) r) :
      GoesOn l e (.submit scrolled buckets) r
  | fail {err : Error} {r : ScrollLoop σ × Engine σ}
      (h : Returns l e (lastWord err) (.failed err) r) : GoesOn l e (.fail err) r

theorem finish_none_iff {g : Gathering} :
    g.bucketizer.finish = none ↔ g.bucketizer.pending = [] := by
  unfold Bucketizer.finish
  split
  · rename_i h
    exact iff_of_true rfl (List.isEmpty_iff.1 h)
  · rename_i h
    exact iff_of_false (by simp) fun hnil => h (List.isEmpty_iff.2 hnil)

theorem goesOn_fetch (l : ScrollLoop σ) (g : Gathering) (e : Engine σ) :
    GoesOn l e (.goOn [] false g) (l.fetch g e) := by
  unfold fetch
  split
  · rename_i haborted
    exact .stop haborted
  · rename_i hopen
    exact .fetch (Bool.eq_false_iff.2 hopen)

theorem goesOn_publishNext (l : ScrollLoop σ) (full : List Bucket) (exhausted : Bool)
    (g : Gathering) (e : Engine σ) :
    GoesOn l e (.goOn full exhausted g) (l.publishNext full exhausted g e) := by
  cases full with
  | cons b rest =>
    rw [publishNext]
    split
    · rename_i haborted
      exact .stop haborted
    · rename_i hopen
      exact .publish (Bool.eq_false_iff.2 hopen)
  | nil =>
    rw [publishNext]
    split
    · rename_i hend
      subst hend
      unfold flush
      obtain ⟨hpending, h⟩ | h := g.bucketizer.finish_cases
      · rw [h]
        exact .exhaust hpending (returns_submit l _ _ e)
      · rw [h]
        refine .flush fun hpending => ?_
        rw [finish_none_iff.2 hpending] at h
        exact absurd h (by simp)
    · rename_i hmore
      rw [Bool.eq_false_iff.2 hmore]
      exact goesOn_fetch l g e

theorem goesOn_goOn (l : ScrollLoop σ) (after : AfterBucket) (e : Engine σ) :
    GoesOn l e after (l.goOn after e) := by
  cases after with
  | goOn full exhausted g => exact goesOn_publishNext l full exhausted g e
  | submit scrolled buckets => exact .submit (returns_submit l scrolled buckets e)
  | fail err => exact .fail (returns_fail l err e)

/-- All that a step of a loop may be. -/
inductive Resumes (l : ScrollLoop σ) (e : Engine σ) : ScrollLoop σ × Engine σ → Prop
  | begin {p : Progress} {t : Tracker} (hphase : l.phase = .created)
      (ht : Heeds e.tracker e.now l.id .startScrolling p t) :
      Resumes l e ({ l with phase := .opening }, { e with tracker := t })
  /-- The command is gone, which the loop notices when it tells something about it. -/
  | gone (err : Error) (world : σ) (hgone : e.tracker.find? l.id = none) :
      Resumes l e (l.finish (.failed err) { e with world := world })
  /-- There is no room for what the scroll would bring. -/
  | collapse (world : σ) (hphase : l.phase = .opening ∨ ∃ g, l.phase = .fetching g)
      (hanswer : l.answer? e = none) : Resumes l e (l.collapse { e with world := world })
  /-- The scroll does not begin, for what the scroller says or for want of a bucket size. -/
  | refuse {err : Error} {r : ScrollLoop σ × Engine σ} (world : σ) (hphase : l.phase = .opening)
      (hanswer : l.answer? e = some (.error err) ∨ l.answer? e = none ∧ l.command.bucketSize = 0)
      (h : Returns l { e with world := world } (lastWord err) (.failed err) r) : Resumes l e r
  | openUp {cursor : Cursor} {r : ScrollLoop σ × Engine σ} (world : σ) (hphase : l.phase = .opening)
      (hanswer : l.answer? e = none) (hsize : 0 < l.command.bucketSize)
      (h : GoesOn l { e with world := world }
        (.goOn [] false ⟨cursor, ⟨l.id, l.command.bucketSize, 0, []⟩, 0⟩) r) : Resumes l e r
  /-- A chunk is counted, and buckets are filled with its records. -/
  | chunk {g : Gathering} {cursor : Cursor} {c : Chunk} {p : Progress} {t : Tracker}
      {r : ScrollLoop σ × Engine σ} (world : σ) (hphase : l.phase = .fetching g)
      (hanswer : l.answer? e = some (.ok c))
      (ht : Heeds e.tracker e.now l.id (.addScrolled c.ids.length) p t)
      (h : GoesOn l ⟨e.now, t, e.channel, world⟩ (.goOn (g.bucketizer.push c.ids).1 c.exhausted
        ⟨cursor, (g.bucketizer.push c.ids).2, g.scrolled + c.ids.length⟩) r) : Resumes l e r
  /-- The scroll breaks off, and what it found before is published. -/
  | breakOff {g : Gathering} {err : Error} (world : σ) (hphase : l.phase = .fetching g)
      (hanswer : l.answer? e = some (.error err)) (hpending : g.bucketizer.pending ≠ []) :
      Resumes l e (l.publish g.bucketizer.pendingBucket (.fail err) { e with world := world })
  | breakEmpty {g : Gathering} {err : Error} {r : ScrollLoop σ × Engine σ} (world : σ)
      (hphase : l.phase = .fetching g) (hanswer : l.answer? e = some (.error err))
      (hpending : g.bucketizer.pending = [])
      (h : Returns l { e with world := world } (lastWord err) (.failed err) r) : Resumes l e r
  /-- There is nobody to receive a bucket. -/
  | closed {b : Bucket} {after : AfterBucket} {m : String} {r : ScrollLoop σ × Engine σ}
      (hphase : l.phase.offered? = some (b, after))
      (hclosed : e.channel.offer b = .error (.channel m) ∨
        e.channel.claim l.key b = .error (.channel m))
      (h : Returns l e (lastWord (.channel m)) (.failed (.channel m)) r) : Resumes l e r
  | enlist {b : Bucket} {after : AfterBucket} (hphase : l.phase = .publishing b after)
      (hfull : e.channel.offer b = .ok none) : Resumes l e ({ l with phase := .waiting b after },
        { e with channel := e.channel.enlist l.key b })
  | wait {b : Bucket} {after : AfterBucket} (hphase : l.phase = .waiting b after)
      (hfull : e.channel.claim l.key b = .ok none) : Resumes l e (l, e)
  | published {b : Bucket} {after : AfterBucket} {d : Channel} {r : ScrollLoop σ × Engine σ}
      (hphase : l.phase.offered? = some (b, after)) (hpublishes : l.publishes? e = some b)
      (hd : e.channel.offer b = .ok (some d) ∨ e.channel.claim l.key b = .ok (some d))
      (h : GoesOn l { e with channel := d } after r) : Resumes l e r

variable {l : ScrollLoop σ} {e : Engine σ}

/-! ## What is seen of a step -/

/-- A loop that scrolls has no bucket to publish. -/
theorem offered?_of_scrolling (h : l.phase = .opening ∨ ∃ g, l.phase = .fetching g) :
    l.phase.offered? = none := by
  obtain hphase | ⟨g, hphase⟩ := h
  · rw [hphase]
    rfl
  · rw [hphase]
    rfl

theorem publishes?_of_offered? (h : l.phase.offered? = none) : l.publishes? e = none := by
  unfold publishes?
  cases hphase : l.phase with
  | publishing b after =>
    rw [hphase] at h
    exact absurd h (by simp [ScrollPhase.offered?])
  | waiting b after =>
    rw [hphase] at h
    exact absurd h (by simp [ScrollPhase.offered?])
  | _ => rfl

theorem answer?_of_offered? {b : Bucket} {after : AfterBucket}
    (h : l.phase.offered? = some (b, after)) :
    l.answer? e = none := by
  unfold answer?
  rcases ScrollPhase.cases_of_offered? h with hphase | hphase
  · rw [hphase]
  · rw [hphase]

/-- A loop that begins hears nothing and publishes nothing. -/
theorem quiet_of_created (hphase : l.phase = .created) :
    l.answer? e = none ∧ l.publishes? e = none := by
  simp [answer?, publishes?, hphase]

/-- A loop that finds no room for its bucket hears nothing and publishes nothing. -/
theorem quiet_of_full {b : Bucket} {after : AfterBucket} (hphase : l.phase = .publishing b after)
    (hfull : e.channel.offer b = .ok none) : l.answer? e = none ∧ l.publishes? e = none := by
  simp [answer?, publishes?, hphase, hfull]

/-- A loop that waits in vain hears nothing and publishes nothing. -/
theorem quiet_of_kept {b : Bucket} {after : AfterBucket} (hphase : l.phase = .waiting b after)
    (hfull : e.channel.claim l.key b = .ok none) : l.answer? e = none ∧ l.publishes? e = none := by
  simp [answer?, publishes?, hphase, hfull]

/-! ## Every step is one of these -/

private theorem resumes_opening (hphase : l.phase = .opening) : Resumes l e (l.resume e) := by
  rw [resume_opening hphase]
  generalize hr : l.scroller.start l.command e.world = r
  obtain ⟨opened, world⟩ := r
  cases opened with
  | error err =>
    have hopening : l.answer? e = some (.error err) := by
      rw [answer?, hphase]
      simp only [hr]
    exact .refuse world hphase (.inl hopening) (returns_fail l err _)
  | ok cursor =>
    have hopening : l.answer? e = none := by
      rw [answer?, hphase]
      simp only [hr]
    obtain ⟨hsize, err, h⟩ | ⟨-, h⟩ | ⟨hsize, -, h⟩ :=
      takeCursor_cases l cursor { e with world := world }
    · rw [h]
      exact .refuse world hphase (.inr ⟨hopening, hsize⟩) (returns_fail l err _)
    · rw [h]
      exact .collapse world (.inl hphase) hopening
    · rw [h]
      exact .openUp world hphase hopening hsize (goesOn_fetch l _ _)

private theorem resumes_fetching {g : Gathering} (hphase : l.phase = .fetching g) :
    Resumes l e (l.resume e) := by
  rw [resume_fetching hphase]
  have hanswer : l.answer? e = if maxReserved < l.scroller.reserved g.cursor l.fetchSize then none
      else some
        ((l.scroller.next g.cursor l.fetchSize e.world).1.bind (checkChunk l.fetchSize)) := by
    rw [answer?, hphase]
  generalize hr : l.scroller.next g.cursor l.fetchSize e.world = r at hanswer ⊢
  obtain ⟨answer, cursor, world⟩ := r
  simp only at hanswer ⊢
  split
  · rename_i hroom
    rw [if_pos hroom] at hanswer
    exact .collapse e.world (.inr ⟨g, hphase⟩) hanswer
  · rename_i hroom
    rw [if_neg hroom] at hanswer
    unfold takeAnswer
    split
    · rename_i err herr
      rw [herr] at hanswer
      unfold flushAndFail
      obtain ⟨hpending, h⟩ | h := g.bucketizer.finish_cases
      · rw [h]
        exact .breakEmpty world hphase hanswer hpending (returns_fail l err _)
      · rw [h]
        refine .breakOff world hphase hanswer fun hpending => ?_
        rw [finish_none_iff.2 hpending] at h
        exact absurd h (by simp)
    · rename_i c hc
      rw [hc] at hanswer
      unfold takeChunk
      obtain ⟨hgone, err, h⟩ | ⟨p, t, ht, h⟩ :=
        answer_cases e.tracker e.now l.id (.addScrolled c.ids.length)
      · simp only
        rw [show e.tracker.addScrolled e.now l.id c.ids.length = .error err from h]
        simp only
        rw [fail_of_gone l err (e := { e with world := world }) hgone]
        exact .gone err world hgone
      · simp only
        rw [show e.tracker.addScrolled e.now l.id c.ids.length = .ok t from h]
        exact .chunk world hphase hanswer ht (goesOn_publishNext l _ _ _ _)

/-- Every step of a loop is one of these. -/
theorem resumes_resume (hopen : l.isEnded = false) : Resumes l e (l.resume e) := by
  cases hphase : l.phase with
  | created =>
    simp only [resume, hphase]
    obtain ⟨hgone, err, h⟩ | ⟨p, t, ht, h⟩ := answer_cases e.tracker e.now l.id .startScrolling
    · rw [show e.tracker.startScrolling e.now l.id = .error err from h]
      simp only
      rw [fail_of_gone l err hgone]
      exact .gone err e.world hgone
    · rw [show e.tracker.startScrolling e.now l.id = .ok t from h]
      exact .begin hphase ht
  | opening => exact resumes_opening hphase
  | fetching g => exact resumes_fetching hphase
  | publishing b after =>
    have hoffered : l.phase.offered? = some (b, after) := by rw [hphase, ScrollPhase.offered?]
    simp only [resume, hphase]
    obtain ⟨m, h⟩ | h | ⟨d, h, -⟩ := e.channel.offer_cases b
    · rw [h]
      exact .closed hoffered (.inl h) (returns_fail l _ e)
    · rw [h]
      exact .enlist hphase h
    · rw [h]
      have hpublishes : l.publishes? e = some b := by simp only [publishes?, hphase, h]
      exact .published hoffered hpublishes (.inl h) (goesOn_goOn l after _)
  | waiting b after =>
    have hoffered : l.phase.offered? = some (b, after) := by rw [hphase, ScrollPhase.offered?]
    simp only [resume, hphase]
    obtain ⟨m, h⟩ | h | ⟨d, h, -⟩ := e.channel.claim_cases l.key b
    · rw [h]
      exact .closed hoffered (.inr h) (returns_fail l _ e)
    · rw [h]
      exact .wait hphase h
    · rw [h]
      have hpublishes : l.publishes? e = some b := by simp only [publishes?, hphase, h]
      exact .published hoffered hpublishes (.inr h) (goesOn_goOn l after _)
  | ended how =>
    rw [isEnded, hphase] at hopen
    exact absurd hopen (by simp)

theorem Returns.loop {report : Report} {how : ScrollEnd} {r : ScrollLoop σ × Engine σ}
    (h : Returns l e report how r) : ∃ phase, r.1 = { l with phase := phase } := by
  cases h with
  | _ => exact ⟨_, rfl⟩

theorem GoesOn.loop {after : AfterBucket} {r : ScrollLoop σ × Engine σ} (h : GoesOn l e after r) :
    ∃ phase, r.1 = { l with phase := phase } := by
  cases h with
  | exhaust _ h => exact h.loop
  | submit h => exact h.loop
  | fail h => exact h.loop
  | _ => exact ⟨_, rfl⟩

/-- A step changes nothing of a loop but its phase. -/
theorem Resumes.loop {r : ScrollLoop σ × Engine σ} (h : Resumes l e r) :
    ∃ phase, r.1 = { l with phase := phase } := by
  cases h with
  | refuse _ _ _ h => exact h.loop
  | openUp _ _ _ _ h => exact h.loop
  | chunk _ _ _ _ h => exact h.loop
  | breakEmpty _ _ _ _ h => exact h.loop
  | closed _ _ h => exact h.loop
  | published _ _ _ h => exact h.loop
  | _ => exact ⟨_, rfl⟩

/-- A loop that puts off its step waits with its bucket, whose place is its own from then on; or it
has nothing to put off. -/
theorem putOff?_eq_some {r : ScrollLoop σ × Engine σ} (h : l.putOff? e = some r) :
    r = (l, e) ∨ ∃ b after d, l.phase = .publishing b after ∧
      e.channel.reserve? l.key b = some d ∧
      r = ({ l with phase := .waiting b after }, { e with channel := d }) := by
  unfold putOff? at h
  split at h
  · rename_i b after hphase
    obtain ⟨d, hd, rfl⟩ := Option.map_eq_some_iff.1 h
    exact .inr ⟨b, after, d, hphase, hd, rfl⟩
  · exact .inl (Option.some.inj h).symm

theorem loop_putOff? {r : ScrollLoop σ × Engine σ} (h : l.putOff? e = some r) :
    ∃ phase, r.1 = { l with phase := phase } := by
  obtain rfl | ⟨b, after, d, -, -, rfl⟩ := putOff?_eq_some h
  · exact ⟨l.phase, rfl⟩
  · exact ⟨.waiting b after, rfl⟩

/-! ## Other commands -/

variable {r : ScrollLoop σ × Engine σ} {report : Report} {how : ScrollEnd} {after : AfterBucket}

theorem Returns.addresses (h : Returns l e report how r) :
    Addresses l.id e.tracker r.2.tracker := by
  cases h with
  | gone => exact .refl _ _
  | told ht => exact ht.addresses

theorem GoesOn.addresses (h : GoesOn l e after r) : Addresses l.id e.tracker r.2.tracker := by
  cases h with
  | exhaust _ h => exact h.addresses
  | submit h => exact h.addresses
  | fail h => exact h.addresses
  | _ => exact .refl _ _

/-- What a loop does leaves other commands as they are. -/
theorem Resumes.addresses (h : Resumes l e r) : Addresses l.id e.tracker r.2.tracker := by
  cases h with
  | begin _ ht => exact ht.addresses
  | refuse _ _ _ h => exact h.addresses
  | openUp _ _ _ _ h => exact h.addresses
  | chunk _ _ _ ht h => exact ht.addresses.trans h.addresses
  | breakEmpty _ _ _ _ h => exact h.addresses
  | closed _ _ h => exact h.addresses
  | published _ _ _ h => exact h.addresses
  | _ => exact .refl _ _

end ScrollLoop

end BulkRun
