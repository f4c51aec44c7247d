import BulkRun.Dispatch.ScrollLoop
import BulkRun.Proofs.Bucketing
import BulkRun.Proofs.Dispatch.Scene
/-!
# Scroll loops keep the books

Every step of a scroll loop keeps the books of its command: what it takes from the scroller it
counts, what it counted it publishes, and it returns only when all is published and the end of the
scroll is told, or when its command is not live any more.  That it may return in five ways makes
five cases of `fail`, `stop` and `submit`; a loop that collapses has no books.
-/

namespace BulkRun

open Tracker (Report Heeds answer_cases)

/-- The stock that is left once a bucket is published. -/
def AfterBucket.stock : AfterBucket → Stock
  | .goOn full _ g =>
    ⟨full, g.bucketizer.pending.length, some g.bucketizer.emitted, some g.scrolled, false⟩
  | .submit _ _ => ⟨[], 0, none, none, false⟩
  | .fail _ => ⟨[], 0, none, none, false⟩

/-- The stock of a gathering between two chunks. -/
def Gathering.stock (g : Gathering) : Stock :=
  .gathering g.bucketizer.pending.length g.bucketizer.emitted g.scrolled

namespace ScrollPhase

/-- The stock of a loop; one that collapsed has none. -/
def stock? : ScrollPhase → Option Stock
  | .created => some (.gathering 0 0 0)
  | .opening => some (.gathering 0 0 0)
  | .fetching g => some g.stock
  | .publishing b after => some { after.stock with upcoming := b :: after.stock.upcoming }
  | .waiting b after => some { after.stock with upcoming := b :: after.stock.upcoming }
  | .ended .collapsed => none
  | .ended _ => some .empty

/-- Whether a loop has returned, other than by a collapse. -/
def hasReturned : ScrollPhase → Bool
  | .ended .collapsed => false
  | .ended _ => true
  | _ => false

theorem stock?_of_hasReturned {phase : ScrollPhase} (h : phase.hasReturned = true) :
    phase.stock? = some .empty := by
  unfold hasReturned at h
  split at h
  · exact absurd h Bool.false_ne_true
  · rename_i how hsafe
    cases how with
    | collapsed => exact absurd rfl hsafe
    | _ => rfl
  · exact absurd h Bool.false_ne_true

/-- The number of records that a loop knows it has scrolled. -/
def scrolled : ScrollPhase → Nat
  | .fetching g => g.scrolled
  | .publishing _ (.goOn _ _ g) => g.scrolled
  | .publishing _ (.submit scrolled _) => scrolled
  | .waiting _ (.goOn _ _ g) => g.scrolled
  | .waiting _ (.submit scrolled _) => scrolled
  | .ended (.submitted scrolled _) => scrolled
  | .ended (.stopped scrolled _) => scrolled
  | _ => 0

end ScrollPhase

/-- Whether what follows a bucket is all about one command. -/
def AfterBucket.Owned (id : CommandId) : AfterBucket → Prop
  | .goOn full _ g => (∀ b ∈ full, b.commandId = id) ∧ g.bucketizer.commandId = id
  | _ => True

/-- Whether all that a loop holds belongs to one command. -/
def ScrollPhase.Owned (id : CommandId) : ScrollPhase → Prop
  | .fetching g => g.bucketizer.commandId = id
  | .publishing b after => b.commandId = id ∧ after.Owned id
  | .waiting b after => b.commandId = id ∧ after.Owned id
  | _ => True

namespace ScrollLoop

variable {σ : Type} {l : ScrollLoop σ} {e : Engine σ} {stock : Stock} {g : Gathering}

/-- The scene that a step of a loop leaves. -/
def sceneOf (r : ScrollLoop σ × Engine σ) : Scene :=
  ⟨r.1.phase.stock?, r.2.tracker, r.2.channel⟩

/-- What a step of a loop with some stock does: the loop stays that of its command and minds no
other, and it keeps the books as long as the scrolled records can be counted. -/
structure Acts (l : ScrollLoop σ) (stock : Stock) (e : Engine σ) (r : ScrollLoop σ × Engine σ) :
    Prop where
  key : r.1.key = l.key
  command : r.1.command = l.command
  owned : r.1.phase.Owned l.id
  minds : Scene.Minds l.id e.tracker r.2.tracker e.channel r.2.channel
  books : r.1.phase.scrolled < wordCount → ∀ held,
    Scene.Kept l.id held ⟨some stock, e.tracker, e.channel⟩ → Scene.Kept l.id held (sceneOf r)

/-! ## Ways to return -/

theorem acts_finish (how : ScrollEnd) {t : Tracker} (ht : Tracker.Spares l.id e.tracker t)
    (hbooks : ∀ lots, Books stock (e.tracker.live? l.id) lots →
      Books .empty (t.live? l.id) lots) :
    Acts l stock e (l.finish how { e with tracker := t }) where
  key := rfl
  command := rfl
  owned := trivial
  minds := .of_keeps ht ⟨.refl _, rfl⟩
  books _ held hkept st hst := by
    cases how with
    | collapsed => exact absurd hst (by simp [sceneOf, finish, ScrollPhase.stock?])
    | _ =>
      obtain rfl : Stock.empty = st := Option.some.inj hst
      exact hbooks _ (hkept stock rfl)

/-- A loop may return without a word once its command is not live. -/
theorem acts_finish_gone (how : ScrollEnd) (hgone : e.tracker.live? l.id = none) :
    Acts l stock e (l.finish how e) := by
  apply acts_finish how (.refl _ _)
  intro lots hbooks
  rw [hgone] at hbooks ⊢
  exact hbooks.return_gone

/-- A loop that collapses leaves no books behind. -/
theorem acts_collapse : Acts l stock e (l.collapse e) where
  key := rfl
  command := rfl
  owned := trivial
  minds := .of_keeps (.refl _ _) ⟨.refl _, rfl⟩
  books _ _ _ st hst := absurd hst (by simp [sceneOf, collapse, finish, ScrollPhase.stock?])

/-- A loop that returns with a report of the end of its scroll has nothing left to publish. -/
theorem acts_endScroll (how : ScrollEnd) (hupcoming : stock.upcoming = [])
    (hloose : stock.loose = 0) {r : Report} (hr : r = .markSubmitted ∨ ∃ m, r = .failScroll m)
    {p : Progress} {t : Tracker} (ht : Heeds e.tracker e.now l.id r p t) :
    Acts l stock e (l.finish how { e with tracker := t }) := by
  apply acts_finish how ht.spares
  intro lots hbooks
  rw [ht.live?]
  exact hbooks.endScroll e.now hupcoming hloose hr

/-- What a failing loop reports. -/
def lastWord (err : Error) : Report :=
  match err with
  | .scroll _ => .failScroll err.message
  | _ => .abortWithError err.message

theorem fail_eq (l : ScrollLoop σ) (err : Error) (e : Engine σ) :
    l.fail err e = match e.tracker.answer e.now l.id (lastWord err) with
      | .ok t => l.finish (.failed err) { e with tracker := t }
      | .error _ => l.finish (.failed err) e := by
  cases err <;> rfl

/-- A failing loop ends its scroll or aborts its command. -/
theorem lastWord_cases (err : Error) :
    (∃ m, err = .scroll m) ∧ (∃ m, lastWord err = .failScroll m) ∨
      ∃ m, lastWord err = .abortWithError m := by
  cases err with
  | scroll m => exact .inl ⟨⟨m, rfl⟩, _, rfl⟩
  | _ => exact .inr ⟨_, rfl⟩

/-- A failure that is not of the scroll ends the command at once; a failure of the scroll may come
only when all is published. -/
theorem acts_fail (err : Error)
    (herr : (∃ m, err = .scroll m) → stock.upcoming = [] ∧ stock.loose = 0) :
    Acts l stock e (l.fail err e) := by
  rw [fail_eq]
  obtain ⟨hgone, e', h⟩ | ⟨p, t, ht, h⟩ := answer_cases e.tracker e.now l.id (lastWord err)
  · rw [h]
    exact acts_finish_gone _ (Tracker.live?_of_gone hgone)
  · rw [h]
    obtain ⟨hscroll, hword⟩ | ⟨m, hword⟩ := lastWord_cases err
    · obtain ⟨hupcoming, hloose⟩ := herr hscroll
      exact acts_endScroll _ hupcoming hloose (.inr hword) ht
    · apply acts_finish _ ht.spares
      intro lots hbooks
      -- an abort is heeded at once, and then nothing is owed
      have hended : t.live? l.id = none := ht.live?_abort (by rw [hword]; rfl)
      rw [hended]
      exact hbooks.gone.return_gone

/-- A failing loop whose command is gone has nobody to tell. -/
theorem acts_fail_gone (err : Error) (hgone : e.tracker.find? l.id = none) :
    Acts l stock e (l.fail err e) := by
  rw [fail_eq]
  obtain ⟨-, e', h⟩ | ⟨p, t, ht, -⟩ := answer_cases e.tracker e.now l.id (lastWord err)
  · rw [h]
    exact acts_finish_gone _ (Tracker.live?_of_gone hgone)
  · rw [ht.before] at hgone
    exact absurd hgone (by simp)

theorem acts_stop (g : Gathering) (h : e.tracker.isAborted l.id = true) :
    Acts l stock e (l.stop g e) :=
  acts_finish_gone _ (Tracker.live?_of_isAborted h)

theorem acts_submit (scrolled buckets : Nat) (hupcoming : stock.upcoming = [])
    (hloose : stock.loose = 0) : Acts l stock e (l.submit scrolled buckets e) := by
  unfold submit
  obtain ⟨-, err, h⟩ | ⟨p, t, ht, h⟩ := answer_cases e.tracker e.now l.id .markSubmitted
  · rw [show e.tracker.markSubmitted e.now l.id = .error err from h]
    exact acts_fail err fun _ => ⟨hupcoming, hloose⟩
  · rw [show e.tracker.markSubmitted e.now l.id = .ok t from h]
    exact acts_endScroll _ hupcoming hloose (.inl rfl) ht

/-! ## Going on -/

/-- A step that follows on other work for the same command. -/
theorem Acts.after {stock' : Stock} {t : Tracker} {c : Channel} {w : σ}
    {r : ScrollLoop σ × Engine σ} (hminds : Scene.Minds l.id e.tracker t e.channel c)
    (hbooks : r.1.phase.scrolled < wordCount → ∀ held,
      Scene.Kept l.id held ⟨some stock, e.tracker, e.channel⟩ →
      Scene.Kept l.id held ⟨some stock', t, c⟩)
    (h : Acts l stock' ⟨e.now, t, c, w⟩ r) : Acts l stock e r :=
  { h with
    minds := hminds.trans h.minds
    books := fun hfits held hkept => h.books hfits held (hbooks hfits held hkept) }

/-- The books know nothing of the world of the collaborators. -/
theorem Acts.of_world {w : σ} {r : ScrollLoop σ × Engine σ}
    (h : Acts l stock { e with world := w } r) :
    Acts l stock e r :=
  ⟨h.key, h.command, h.owned, h.minds, h.books⟩

/-- A loop that turns to something else with the same stock, or with what its stock amounts to. -/
theorem acts_turnTo (phase : ScrollPhase) {stock' : Stock} (howned : phase.Owned l.id)
    (hstock : phase.stock? = some stock')
    (hbooks : ∀ live lots, Books stock live lots → Books stock' live lots) :
    Acts l stock e ({ l with phase := phase }, e) where
  key := rfl
  command := rfl
  owned := howned
  minds := .of_keeps (.refl _ _) ⟨.refl _, rfl⟩
  books _ held hkept st hst := by
    obtain rfl : stock' = st := Option.some.inj (hstock.symm.trans hst)
    exact hbooks _ _ (hkept stock rfl)

theorem acts_fetch (hg : g.bucketizer.commandId = l.id) : Acts l g.stock e (l.fetch g e) := by
  unfold fetch
  split
  · rename_i h
    exact acts_stop g h
  · exact acts_turnTo (.fetching g) hg rfl fun _ _ h => h

/-- The pending records become the last bucket; if there are none, all is published. -/
theorem acts_flush (hg : g.bucketizer.commandId = l.id) : Acts l g.stock e (l.flush g e) := by
  unfold flush
  obtain ⟨hpending, h⟩ | h := g.bucketizer.finish_cases
  · rw [h]
    exact acts_submit _ _ rfl (List.length_eq_zero_iff.2 hpending)
  · rw [h]
    exact acts_turnTo (.publishing _ _) ⟨hg, trivial⟩ rfl fun _ _ hbooks => hbooks.flush rfl rfl

theorem acts_flushAndFail (err : Error) (hg : g.bucketizer.commandId = l.id) :
    Acts l g.stock e (l.flushAndFail g err e) := by
  unfold flushAndFail
  obtain ⟨hpending, h⟩ | h := g.bucketizer.finish_cases
  · rw [h]
    exact acts_fail err fun _ => ⟨rfl, List.length_eq_zero_iff.2 hpending⟩
  · rw [h]
    exact acts_turnTo (.publishing _ _) ⟨hg, trivial⟩ rfl fun _ _ hbooks => hbooks.flush rfl rfl

theorem acts_publishNext (full : List Bucket) (exhausted : Bool)
    (hfull : ∀ b ∈ full, b.commandId = l.id) (hg : g.bucketizer.commandId = l.id) :
    Acts l (AfterBucket.goOn full exhausted g).stock e (l.publishNext full exhausted g e) := by
  cases full with
  | nil =>
    rw [publishNext]
    split
    · exact acts_flush hg
    · exact acts_fetch hg
  | cons b rest =>
    obtain ⟨hb, hrest⟩ := List.forall_mem_cons.1 hfull
    rw [publishNext]
    split
    · rename_i h
      exact acts_stop g h
    · exact acts_turnTo (.publishing b _) ⟨hb, hrest, hg⟩ rfl fun _ _ h => h

theorem acts_goOn (after : AfterBucket) (howned : after.Owned l.id) :
    Acts l after.stock e (l.goOn after e) := by
  cases after with
  | goOn full exhausted g => exact acts_publishNext full exhausted howned.1 howned.2
  | submit scrolled buckets => exact acts_submit scrolled buckets rfl rfl
  | fail err => exact acts_fail err fun _ => ⟨rfl, rfl⟩

/-- A loop whose command is there tells how much it has scrolled, unless it goes on to fail. -/
theorem scrolled_publishNext (full : List Bucket) (exhausted : Bool) (g : Gathering)
    {p : Progress} (hfound : e.tracker.find? l.id = some p) :
    (l.publishNext full exhausted g e).1.phase.scrolled = g.scrolled := by
  have hfetch : (l.fetch g e).1.phase.scrolled = g.scrolled := by
    unfold fetch
    split <;> rfl
  have hflush : (l.flush g e).1.phase.scrolled = g.scrolled := by
    unfold flush submit
    split
    · obtain ⟨hgone, -⟩ | ⟨q, t, -, h⟩ := answer_cases e.tracker e.now l.id .markSubmitted
      · rw [hfound] at hgone
        exact absurd hgone (by simp)
      · rw [show e.tracker.markSubmitted e.now l.id = .ok t from h]
        rfl
    · rfl
  cases full with
  | nil =>
    rw [publishNext]
    split
    · exact hflush
    · exact hfetch
  | cons b rest =>
    rw [publishNext]
    split <;> rfl

/-- The records of a chunk are counted before they are published. -/
theorem acts_takeChunk (c : Chunk) (hg : g.bucketizer.commandId = l.id) :
    Acts l g.stock e (l.takeChunk g c e) := by
  unfold takeChunk
  obtain ⟨hgone, err, h⟩ | ⟨p, t, ht, h⟩ :=
    answer_cases e.tracker e.now l.id (.addScrolled c.ids.length)
  · rw [show e.tracker.addScrolled e.now l.id c.ids.length = .error err from h]
    -- without its command the chunk is not counted, and the loop has nobody to tell
    exact acts_fail_gone err hgone
  · rw [show e.tracker.addScrolled e.now l.id c.ids.length = .ok t from h]
    refine .after (.of_spares ht.spares) ?_ (acts_publishNext _ _ ?_ hg)
    · intro hfits held hkept st hst
      -- the bound speaks of the records with those of this chunk, as the loop now knows them
      rw [scrolled_publishNext _ _ _ ht.find?_self] at hfits
      obtain rfl := Option.some.inj hst
      have hbooks := (hkept _ rfl).addScrolled e.now (g.bucketizer.sequence_push c.ids)
        (g.bucketizer.length_push c.ids) fun _ _ => hfits
      rw [ht.live?]
      simpa only [AfterBucket.stock, g.bucketizer.emitted_push] using hbooks
    · intro b hb
      rw [g.bucketizer.commandId_of_mem_push c.ids hb]
      exact hg

/-- A published bucket goes from the stock of the loop to the lots of its command. -/
theorem acts_published {b : Bucket} {after : AfterBucket} {c : Channel} (hb : b.commandId = l.id)
    (howned : after.Owned l.id) (h : Channel.Takes e.channel c b) :
    Acts l { after.stock with upcoming := b :: after.stock.upcoming } e
      (l.goOn after { e with channel := c }) := by
  -- the tracker is not touched, and the channel takes this bucket and no other
  refine .after ⟨.refl _ _, ⟨[b], h.buckets, by simpa using hb⟩, h.length⟩ ?_
    (acts_goOn after howned)
  intro _ held hkept st hst
  obtain rfl := Option.some.inj hst
  exact (hkept _ rfl).publish.perm (lotsOf_take h hb).symm

theorem acts_created (hphase : l.phase = .created) :
    Acts l (.gathering 0 0 0) e (l.resume e) := by
  simp only [resume, hphase]
  obtain ⟨hgone, err, h⟩ | ⟨p, t, ht, h⟩ := answer_cases e.tracker e.now l.id .startScrolling
  · rw [show e.tracker.startScrolling e.now l.id = .error err from h]
    exact acts_fail_gone err hgone
  · rw [show e.tracker.startScrolling e.now l.id = .ok t from h]
    refine ⟨rfl, rfl, trivial, .of_spares ht.spares, ?_⟩
    intro _ held hkept st hst
    obtain rfl := Option.some.inj hst
    show Books _ (t.live? l.id) _
    rw [ht.live?]
    exact (hkept _ rfl).startScrolling e.now

/-- Takes up what the scroller opened, a cursor or an error. -/
def takeCursor (l : ScrollLoop σ) (opened : Except Error Cursor) (e : Engine σ) :
    ScrollLoop σ × Engine σ :=
  match opened with
  | .error err => l.fail err e
  | .ok cursor =>
    match Bucketizer.new l.id l.command.bucketSize with
    | .error f => l.fail f.toError e
    | .ok bucketizer =>
      if maxReserved < bucketizer.size then l.collapse e else l.fetch ⟨cursor, bucketizer, 0⟩ e

theorem resume_opening (hphase : l.phase = .opening) :
    l.resume e = l.takeCursor (l.scroller.start l.command e.world).1
      { e with world := (l.scroller.start l.command e.world).2 } := by
  unfold resume
  rw [hphase]
  rfl

/-- A loop that has its cursor fetches, unless its buckets have no size or there is no room for
one. -/
theorem takeCursor_cases (l : ScrollLoop σ) (cursor : Cursor) (e : Engine σ) :
    (l.command.bucketSize = 0 ∧ ∃ err, l.takeCursor (.ok cursor) e = l.fail err e) ∨
      (maxReserved < l.command.bucketSize ∧ l.takeCursor (.ok cursor) e = l.collapse e) ∨
      0 < l.command.bucketSize ∧ l.command.bucketSize ≤ maxReserved ∧
        l.takeCursor (.ok cursor) e =
          l.fetch ⟨cursor, ⟨l.id, l.command.bucketSize, 0, []⟩, 0⟩ e := by
  unfold takeCursor Bucketizer.new
  by_cases hsize : l.command.bucketSize = 0
  · rw [if_pos hsize]
    exact .inl ⟨hsize, _, rfl⟩
  · rw [if_neg hsize]
    simp only
    split
    · rename_i hroom
      exact .inr (.inl ⟨hroom, rfl⟩)
    · rename_i hroom
      exact .inr (.inr ⟨Nat.pos_of_ne_zero hsize, Nat.le_of_not_lt hroom, rfl⟩)

theorem acts_takeCursor (opened : Except Error Cursor) :
    Acts l (.gathering 0 0 0) e (l.takeCursor opened e) := by
  cases opened with
  | error err => exact acts_fail err fun _ => ⟨rfl, rfl⟩
  | ok cursor =>
    obtain ⟨-, err, h⟩ | ⟨-, h⟩ | ⟨-, -, h⟩ := takeCursor_cases l cursor e
    · rw [h]
      exact acts_fail err fun _ => ⟨rfl, rfl⟩
    · rw [h]
      exact acts_collapse
    · rw [h]
      exact acts_fetch (g := ⟨cursor, ⟨l.id, l.command.bucketSize, 0, []⟩, 0⟩) rfl

/-- Takes up the answer of the scroller, a chunk or an error. -/
def takeAnswer (l : ScrollLoop σ) (g : Gathering) (answer : Except Error Chunk) (e : Engine σ) :
    ScrollLoop σ × Engine σ :=
  match answer.bind (checkChunk l.fetchSize) with
  | .error err => l.flushAndFail g err e
  | .ok c => l.takeChunk g c e

theorem resume_fetching (hphase : l.phase = .fetching g) :
    l.resume e =
      let r := l.scroller.next g.cursor l.fetchSize e.world
      if maxReserved < l.scroller.reserved g.cursor l.fetchSize then l.collapse e
      else l.takeAnswer { g with cursor := r.2.1 } r.1 { e with world := r.2.2 } := by
  unfold resume
  rw [hphase]
  rfl

theorem acts_takeAnswer (answer : Except Error Chunk) (hg : g.bucketizer.commandId = l.id) :
    Acts l g.stock e (l.takeAnswer g answer e) := by
  unfold takeAnswer
  split
  · exact acts_flushAndFail _ hg
  · exact acts_takeChunk _ hg

theorem acts_fetching (hphase : l.phase = .fetching g) (hg : g.bucketizer.commandId = l.id) :
    Acts l g.stock e (l.resume e) := by
  rw [resume_fetching hphase]
  simp only
  split
  · exact acts_collapse
  · generalize l.scroller.next g.cursor l.fetchSize e.world = r
    exact .of_world (acts_takeAnswer (g := { g with cursor := r.2.1 }) r.1 hg)

theorem acts_publishing {b : Bucket} {after : AfterBucket} (hphase : l.phase = .publishing b after)
    (hb : b.commandId = l.id) (howned : after.Owned l.id) :
    Acts l { after.stock with upcoming := b :: after.stock.upcoming } e (l.resume e) := by
  simp only [resume, hphase]
  obtain ⟨m, h⟩ | h | ⟨d, h, hd⟩ := e.channel.offer_cases b
  · rw [h]
    -- a channel that is closed fails the command, and not its scroll
    exact acts_fail _ fun ⟨m', h'⟩ => absurd h' (by simp)
  · rw [h]
    -- the bucket stays with the loop, which waits in line with it
    refine ⟨rfl, rfl, ⟨hb, howned⟩, .of_keeps (.refl _ _) (e.channel.keeps_enlist l.key b), ?_⟩
    intro _ held hkept st hst
    obtain rfl := Option.some.inj hst
    exact (hkept _ rfl).perm (lotsOf_perm l.id (e.channel.keeps_enlist l.key b).buckets.symm
      (.refl _))
  · rw [h]
    exact acts_published hb howned hd

theorem acts_waiting {b : Bucket} {after : AfterBucket} (hphase : l.phase = .waiting b after)
    (hb : b.commandId = l.id) (howned : after.Owned l.id) :
    Acts l { after.stock with upcoming := b :: after.stock.upcoming } e (l.resume e) := by
  simp only [resume, hphase]
  obtain ⟨m, h⟩ | h | ⟨d, h, hd⟩ := e.channel.claim_cases l.key b
  · rw [h]
    exact acts_fail _ fun ⟨m', h'⟩ => absurd h' (by simp)
  · rw [h]
    -- there is no room yet: the loop waits on, and nothing has changed
    refine ⟨rfl, rfl, ?_, .of_spares (.refl _ _), ?_⟩
    · rw [hphase]
      exact ⟨hb, howned⟩
    · intro _ held hkept st hst
      rw [sceneOf, hphase] at hst
      obtain rfl := Option.some.inj hst
      exact hkept _ rfl
  · rw [h]
    exact acts_published hb howned hd

theorem exists_stock (l : ScrollLoop σ) (hopen : l.isEnded = false) :
    ∃ stock, l.phase.stock? = some stock := by
  unfold isEnded at hopen
  cases hphase : l.phase with
  | ended how =>
    rw [hphase] at hopen
    exact absurd hopen (by simp)
  | _ => exact ⟨_, rfl⟩

/-- Every step of a loop keeps the books of its command. -/
theorem acts_resume (howned : l.phase.Owned l.id) (hstock : l.phase.stock? = some stock)
    (hopen : l.isEnded = false) : Acts l stock e (l.resume e) := by
  cases hphase : l.phase with
  | created =>
    rw [hphase] at hstock
    obtain rfl := Option.some.inj hstock
    exact acts_created hphase
  | opening =>
    rw [hphase] at hstock
    obtain rfl := Option.some.inj hstock
    rw [resume_opening hphase]
    exact .of_world (acts_takeCursor _)
  | fetching g =>
    rw [hphase] at hstock howned
    obtain rfl := Option.some.inj hstock
    exact acts_fetching hphase howned
  | publishing b after =>
    rw [hphase] at hstock howned
    obtain rfl := Option.some.inj hstock
    exact acts_publishing hphase howned.1 howned.2
  | waiting b after =>
    rw [hphase] at hstock howned
    obtain rfl := Option.some.inj hstock
    exact acts_waiting hphase howned.1 howned.2
  | ended how => exact absurd hopen (by simp [isEnded, hphase])

/-- A loop that puts off its step keeps the books as well. -/
theorem acts_putOff? {r : ScrollLoop σ × Engine σ} (howned : l.phase.Owned l.id)
    (hstock : l.phase.stock? = some stock) (h : l.putOff? e = some r) : Acts l stock e r := by
  unfold putOff? at h
  split at h
  · rename_i b after hphase
    rw [hphase] at hstock howned
    obtain rfl := Option.some.inj hstock
    obtain ⟨c, hc, rfl⟩ := Option.map_eq_some_iff.1 h
    have hkeeps := Channel.keeps_reserve? hc
    refine ⟨rfl, rfl, howned, .of_keeps (.refl _ _) hkeeps, ?_⟩
    intro _ held hkept st hst
    obtain rfl := Option.some.inj hst
    exact (hkept _ rfl).perm (lotsOf_perm l.id hkeeps.buckets.symm (.refl _))
  · rw [← Option.some.inj h]
    exact acts_turnTo l.phase howned hstock fun _ _ h => h

end ScrollLoop

end BulkRun
