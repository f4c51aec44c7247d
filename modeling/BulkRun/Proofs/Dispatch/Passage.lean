import BulkRun.Proofs.Channel.Line
import BulkRun.Proofs.Dispatch.ConsumerSteps
import BulkRun.Proofs.Dispatch.ScrollLoop
import BulkRun.Proofs.Execution.Books
/-!
# How the tasks use the channel

A step of a scroll loop on an orderly channel publishes one bucket, gets in line with one, or leaves
the partitions alone (`resume_cases`); a loop that ends gives up its right to publish.  What else
the step does, it does after that, and then it neither waits nor touches the channel (`Continues`).
A step of a consumer receives the first bucket of its queue, or works on the one that it has
received (`Consumer.step?_cases`).
-/

namespace BulkRun

open Tracker (answer_cases)

variable {σ : Type}

/-- Whether a world comes of another by a call of a scroller, if by any. -/
inductive Scroller.Touches (x : Scroller σ) (w : σ) : σ → Prop
  | nothing : Touches x w w
  | start (c : Command) : Touches x w (x.start c w).2
  | next (c : Cursor) (maxCount : Nat) : Touches x w (x.next c maxCount w).2.2

namespace ScrollLoop

variable {l : ScrollLoop σ} {e : Engine σ} {r : ScrollLoop σ × Engine σ} {g : Gathering}

/-- Whether a loop waits for room in the channel. -/
def isWaiting (l : ScrollLoop σ) : Bool :=
  match l.phase with
  | .waiting _ _ => true
  | _ => false

theorem isWaiting_iff : l.isWaiting = true ↔ ∃ b after, l.phase = .waiting b after := by
  unfold isWaiting
  split
  · rename_i b after hphase
    exact ⟨fun _ => ⟨b, after, hphase⟩, fun _ => rfl⟩
  · rename_i hphase
    refine ⟨nofun, ?_⟩
    rintro ⟨b, after, h⟩
    exact absurd h (hphase b after)

theorem isEnded_iff : l.isEnded = true ↔ ∃ how, l.phase = .ended how := by
  unfold isEnded
  split
  · rename_i how hphase
    exact ⟨fun _ => ⟨how, hphase⟩, fun _ => rfl⟩
  · rename_i hphase
    refine ⟨fun h => absurd h Bool.false_ne_true, ?_⟩
    rintro ⟨how, h⟩
    exact absurd h (hphase how)

/-- What a loop does when it has not to do with the channel, other than giving up its right to
publish. -/
structure Continues (l : ScrollLoop σ) (e : Engine σ) (r : ScrollLoop σ × Engine σ) : Prop where
  loop : ∃ phase, r.1 = { l with phase := phase }
  free : r.1.isWaiting = false
  channel : r.2.channel = if r.1.isEnded then e.channel.dropPublisher else e.channel
  world : r.2.world = e.world

/-- The right to publish is no part of any partition. -/
theorem Continues.partitions (h : Continues l e r) :
    r.2.channel.partitions = e.channel.partitions := by
  rw [h.channel]
  split <;> rfl

/-- Nor is it counted. -/
theorem Continues.stats (h : Continues l e r) : r.2.channel.stats = e.channel.stats := by
  rw [h.channel]
  split <;> rfl

theorem continues_finish (l : ScrollLoop σ) (how : ScrollEnd) (e : Engine σ) :
    Continues l e (l.finish how e) :=
  ⟨⟨_, rfl⟩, rfl, rfl, rfl⟩

theorem continues_fail (l : ScrollLoop σ) (err : Error) (e : Engine σ) :
    Continues l e (l.fail err e) := by
  rw [fail_eq]
  split
  · exact { continues_finish l _ _ with }
  · exact continues_finish l _ e

theorem continues_submit (l : ScrollLoop σ) (scrolled buckets : Nat) (e : Engine σ) :
    Continues l e (l.submit scrolled buckets e) := by
  unfold submit
  split
  · exact continues_fail l _ e
  · exact { continues_finish l _ _ with }

theorem continues_publish (l : ScrollLoop σ) (b : Bucket) (after : AfterBucket) (e : Engine σ) :
    Continues l e (l.publish b after e) :=
  ⟨⟨_, rfl⟩, rfl, rfl, rfl⟩

theorem continues_flush (l : ScrollLoop σ) (g : Gathering) (e : Engine σ) :
    Continues l e (l.flush g e) := by
  unfold flush
  split
  · exact continues_submit l _ _ e
  · exact continues_publish l _ _ e

theorem continues_flushAndFail (l : ScrollLoop σ) (g : Gathering) (err : Error) (e : Engine σ) :
    Continues l e (l.flushAndFail g err e) := by
  unfold flushAndFail
  split
  · exact continues_fail l err e
  · exact continues_publish l _ _ e

theorem continues_fetch (l : ScrollLoop σ) (g : Gathering) (e : Engine σ) :
    Continues l e (l.fetch g e) := by
  unfold fetch
  split
  · exact continues_finish l _ e
  · exact ⟨⟨_, rfl⟩, rfl, rfl, rfl⟩

theorem continues_publishNext (l : ScrollLoop σ) (full : List Bucket) (exhausted : Bool)
    (g : Gathering) (e : Engine σ) : Continues l e (l.publishNext full exhausted g e) := by
  unfold publishNext
  split
  · split
    · exact continues_flush l g e
    · exact continues_fetch l g e
  · split
    · exact continues_finish l _ e
    · exact continues_publish l _ _ e

theorem continues_goOn (l : ScrollLoop σ) (after : AfterBucket) (e : Engine σ) :
    Continues l e (l.goOn after e) := by
  unfold goOn
  split
  · exact continues_publishNext l _ _ _ e
  · exact continues_submit l _ _ e
  · exact continues_fail l _ e

theorem continues_takeChunk (l : ScrollLoop σ) (g : Gathering) (c : Chunk) (e : Engine σ) :
    Continues l e (l.takeChunk g c e) := by
  unfold takeChunk
  split
  · exact continues_fail l _ e
  · exact { continues_publishNext l _ _ _ _ with }

theorem continues_takeCursor (l : ScrollLoop σ) (opened : Except Error Cursor) (e : Engine σ) :
    Continues l e (l.takeCursor opened e) := by
  cases opened with
  | error err => exact continues_fail l err e
  | ok cursor =>
    obtain ⟨-, err, h⟩ | ⟨-, h⟩ | ⟨-, -, h⟩ := takeCursor_cases l cursor e
    · rw [h]
      exact continues_fail l err e
    · rw [h]
      exact continues_finish l _ e
    · rw [h]
      exact continues_fetch l _ e

theorem continues_takeAnswer (l : ScrollLoop σ) (g : Gathering) (answer : Except Error Chunk)
    (e : Engine σ) : Continues l e (l.takeAnswer g answer e) := by
  unfold takeAnswer
  split
  · exact continues_flushAndFail l g _ e
  · exact continues_takeChunk l g _ e

/-- Before a loop has a bucket to publish, its steps touch the world of its scroller only. -/
theorem continues_resume (hopen : l.isEnded = false)
    (hpublish : ∀ b after, l.phase ≠ .publishing b after) (hwait : l.isWaiting = false) :
    ∃ w, l.scroller.Touches e.world w ∧ Continues l { e with world := w } (l.resume e) := by
  cases hphase : l.phase with
  | created =>
    refine ⟨e.world, .nothing, ?_⟩
    simp only [resume, hphase]
    split
    · exact continues_fail l _ e
    · exact ⟨⟨_, rfl⟩, rfl, rfl, rfl⟩
  | opening =>
    rw [resume_opening hphase]
    exact ⟨_, .start l.command, continues_takeCursor l _ _⟩
  | fetching g =>
    rw [resume_fetching hphase]
    simp only
    split
    · exact ⟨e.world, .nothing, continues_finish l _ e⟩
    · exact ⟨_, .next g.cursor l.fetchSize, continues_takeAnswer l _ _ _⟩
  | publishing b after => exact absurd hphase (hpublish b after)
  | waiting b after =>
    rw [isWaiting, hphase] at hwait
    exact absurd hwait (by simp)
  | ended how =>
    rw [isEnded, hphase] at hopen
    exact absurd hopen (by simp)

/-- The bucket that a loop is about to publish is one of its command. -/
theorem commandId_of_owned {b : Bucket} {after : AfterBucket} (howned : l.phase.Owned l.id)
    (hphase : l.phase = .publishing b after ∨ l.phase = .waiting b after) : b.commandId = l.id := by
  obtain hphase | hphase := hphase
  · rw [hphase] at howned
    exact howned.1
  · rw [hphase] at howned
    exact howned.1

/-- A loop that publishes finds room, or gets in line. -/
theorem resume_publishing {b : Bucket} {after : AfterBucket}
    (hphase : l.phase = .publishing b after)
    (hc : e.channel.IsOrderly) (hnew : ∀ i, ¬e.channel.InLine i l.key) :
    (∃ d, e.channel.Publishes d l.key b ∧ l.resume e = l.goOn after { e with channel := d }) ∨
      ∃ d, e.channel.Enlists d l.key b ∧
        l.resume e = ({ l with phase := .waiting b after }, { e with channel := d }) := by
  simp only [resume, hphase]
  obtain ⟨d, hd, hpublishes⟩ | ⟨hnone, henlists⟩ :=
    Channel.offer_of_orderly hc l.key b (hnew _)
  · rw [hd]
    exact .inl ⟨d, hpublishes, rfl⟩
  · rw [hnone]
    exact .inr ⟨_, henlists, rfl⟩

/-- A loop that waits goes on only with a place of its own. -/
theorem resume_waiting {b : Bucket} {after : AfterBucket} (hphase : l.phase = .waiting b after)
    (hc : e.channel.IsOrderly) (hfree : l.isBlocked e = false) :
    ∃ d, e.channel.Publishes d l.key b ∧ l.resume e = l.goOn after { e with channel := d } := by
  simp only [resume, hphase]
  obtain ⟨d, hd, hpublishes⟩ | ⟨hnone, -⟩ := Channel.claim_of_orderly hc l.key b
  · rw [hd]
    exact ⟨d, hpublishes, rfl⟩
  · unfold isBlocked at hfree
    rw [hphase] at hfree
    simp only [hnone] at hfree
    exact absurd hfree (by simp)

/-- A loop that is blocked waits without a place of its own. -/
theorem of_isBlocked (hc : e.channel.IsOrderly) (h : l.isBlocked e = true) :
    ∃ b after, l.phase = .waiting b after ∧
      ∀ p, e.channel.partitions[e.channel.partitionFor b.commandId]? = some p →
        l.key ∉ p.granted := by
  unfold isBlocked at h
  split at h
  · rename_i b after hphase
    obtain ⟨d, hd, -⟩ | ⟨-, hnot⟩ := Channel.claim_of_orderly hc l.key b
    · rw [hd] at h
      exact absurd h (by simp)
    · exact ⟨b, after, hphase, hnot⟩
  · exact absurd h (by simp)

/-- A step of a loop that can go on publishes a bucket, gets in line with one, or has not to do with
the channel. -/
theorem resume_cases (hopen : l.isEnded = false) (hfree : l.isBlocked e = false)
    (hc : e.channel.IsOrderly) (hnew : l.isWaiting = false → ∀ i, ¬e.channel.InLine i l.key) :
    (∃ w, l.isWaiting = false ∧ l.scroller.Touches e.world w ∧
        Continues l { e with world := w } (l.resume e)) ∨
      (∃ b after d, (l.phase = .publishing b after ∨ l.phase = .waiting b after) ∧
        e.channel.Publishes d l.key b ∧ l.resume e = l.goOn after { e with channel := d }) ∨
      ∃ b after d, l.phase = .publishing b after ∧ e.channel.Enlists d l.key b ∧
        l.resume e = ({ l with phase := .waiting b after }, { e with channel := d }) := by
  cases hphase : l.phase with
  | publishing b after =>
    have hwait : l.isWaiting = false := by rw [isWaiting, hphase]
    obtain ⟨d, hd, h⟩ | ⟨d, hd, h⟩ := resume_publishing hphase hc (hnew hwait)
    · exact .inr (.inl ⟨b, after, d, .inl rfl, hd, h⟩)
    · exact .inr (.inr ⟨b, after, d, rfl, hd, h⟩)
  | waiting b after =>
    obtain ⟨d, hd, h⟩ := resume_waiting hphase hc hfree
    exact .inr (.inl ⟨b, after, d, .inr rfl, hd, h⟩)
  | _ =>
    have hwait : l.isWaiting = false := by rw [isWaiting, hphase]
    obtain ⟨w, hw, h⟩ := continues_resume hopen (fun b after => by rw [hphase]; nofun) hwait
    exact .inl ⟨w, hwait, hw, h⟩

/-- A loop that puts off publishing gets in line; one that does not publish does nothing. -/
theorem putOff?_cases (hc : e.channel.IsOrderly)
    (hnew : l.isWaiting = false → ∀ i, ¬e.channel.InLine i l.key) (h : l.putOff? e = some r) :
    r = (l, e) ∨ ∃ b after d, l.phase = .publishing b after ∧ e.channel.Enlists d l.key b ∧
      r = ({ l with phase := .waiting b after }, { e with channel := d }) := by
  unfold putOff? at h
  split at h
  · rename_i b after hphase
    have hwait : l.isWaiting = false := by rw [isWaiting, hphase]
    obtain ⟨d, hd, rfl⟩ := Option.map_eq_some_iff.1 h
    exact .inr ⟨b, after, d, hphase, Channel.reserve?_of_orderly hc (hnew hwait _) hd, rfl⟩
  · exact .inl (Option.some.inj h).symm

end ScrollLoop

namespace Consumer

variable {setup : Setup σ} {e : Engine σ} {c : Consumer σ} {r : Consumer σ × Engine σ}

/-- A step of a consumer whose partition has nothing handed back. -/
theorem step?_cases (hc : e.channel.IsOrderly) (h : c.step? setup e = some r) :
    (c.phase = .idle ∧ r = ({ c with phase := .suspended }, e)) ∨
      (c.phase = .suspended ∧ e.channel.publishers = 0 ∧ e.channel.queueAt c.partition = [] ∧
        r = ({ c with phase := .stopped }, e)) ∨
      (∃ v d x f, c.phase = .suspended ∧ e.channel.Delivers d c.partition v.bucket ∧
        Execution.start setup v.bucket { e with channel := d } = (x, f) ∧ r = c.settle v x f) ∨
      ∃ v x y f, c.phase = .executing v x ∧ x.step? setup e = some (y, f) ∧ r = c.settle v y f := by
  cases steps_of_step? h with
  | unstash _ hv =>
    -- nothing was handed back, so the stash has nothing to deliver
    rw [Channel.unstash?_of_orderly hc] at hv
    exact absurd hv (by simp)
  | suspend hphase _ => exact .inl ⟨hphase, rfl⟩
  | @dequeue v d hphase hv =>
    obtain ⟨-, hd⟩ := Channel.dequeue?_of_orderly hc hv
    exact .inr (.inr (.inl ⟨v, d, _, _, hphase, hd, rfl, rfl⟩))
  | stop hphase hnone hfinished =>
    exact .inr (.inl ⟨hphase, eq_of_beq hfinished, Channel.queueAt_of_dequeue?_none hnone, rfl⟩)
  | work hphase hwork => exact .inr (.inr (.inr ⟨_, _, _, _, hphase, hwork, rfl⟩))

end Consumer

end BulkRun
