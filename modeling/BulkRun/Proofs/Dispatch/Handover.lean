import BulkRun.Proofs.Channel.Traffic
import BulkRun.Proofs.Dispatch.Passage
import BulkRun.Proofs.Dispatch.ScrollSteps
import BulkRun.Proofs.Dispatch.Sound
/-!
# What the steps of tasks hand over

A step of a scroll loop puts the bucket that it publishes, if any, at the end of the queue of its
partition, and counts it (`ScrollLoop.feeds_resume`).  A step of a consumer takes at most one bucket
from the queue of its partition; the bucket is in its hands until the work on it is over, and then
it is acknowledged and its result is counted, whatever it is (`Consumer.draws_step?`).
-/

namespace BulkRun

variable {σ : Type} {setup : Setup σ} {e : Engine σ}

/-! ## Scroll loops -/

namespace Channel

variable {c d : Channel} {b : Bucket} {i : Nat} {p q : Partition} {who : PublisherKey}

/-- Whether a channel comes of another when a bucket is published, or none. -/
structure Feeds (c : Channel) (published : Option Bucket) (d : Channel) : Prop where
  length : d.partitions.length = c.partitions.length
  queue : ∀ i, d.queueAt i = c.queueAt i ++ Traffic.belongingTo c.partitionFor i published.toList
  stats : d.stats = { c.stats with published := c.stats.published + published.toList.length }

theorem feeds_none (hparts : d.partitions = c.partitions) (hstats : d.stats = c.stats) :
    Feeds c none d where
  length := congrArg List.length hparts
  queue i := by
    rw [queueAt_congr hparts]
    exact (List.append_nil _).symm
  stats := hstats

/-- What happens next has not to do with the channel. -/
theorem Feeds.congr {published : Option Bucket} {d' : Channel} (h : Feeds c published d)
    (hparts : d'.partitions = d.partitions) (hstats : d'.stats = d.stats) :
    Feeds c published d' where
  length := (congrArg List.length hparts).trans h.length
  queue i := (queueAt_congr hparts i).trans (h.queue i)
  stats := hstats.trans h.stats

theorem feeds_setPartition (hp : c.partitions[i]? = some p) (hq : q.queue = p.queue) :
    Feeds c none (c.setPartition i q) where
  length := (alters_setPartition hp q).length
  queue j := by
    rw [Option.toList_none]
    show _ = c.queueAt j ++ []
    rw [List.append_nil]
    by_cases hj : j = i
    · subst hj
      rw [(alters_setPartition hp q).queueAt_self, queueAt_of_getElem? hp, hq]
    · exact (alters_setPartition hp q).queueAt_other hj
  stats := rfl

theorem feeds_accept (hp : c.partitions[c.partitionFor b.commandId]? = some p)
    (hq : q.queue = p.queue ++ [b]) :
    Feeds c (some b) (c.accept (c.partitionFor b.commandId) q) where
  length := (alters_accept hp q).length
  queue i := by
    rw [Option.toList_some, Traffic.belongingTo]
    by_cases hi : i = c.partitionFor b.commandId
    · subst hi
      rw [(alters_accept hp q).queueAt_self, queueAt_of_getElem? hp, hq,
        List.filter_cons_of_pos (by simp), List.filter_nil]
    · rw [(alters_accept hp q).queueAt_other hi,
        List.filter_cons_of_neg (by simpa using Ne.symm hi), List.filter_nil, List.append_nil]
  stats := rfl

theorem feeds_offer (h : c.offer b = .ok (some d)) : Feeds c (some b) d := by
  obtain ⟨p, hp, -, rfl⟩ := offer_eq_some h
  exact feeds_accept hp rfl

theorem feeds_claim (h : c.claim who b = .ok (some d)) : Feeds c (some b) d := by
  obtain ⟨p, q, hp, hq, rfl⟩ := claim_eq_some h
  obtain ⟨-, rfl⟩ := Partition.fillGranted?_eq_some hq
  exact feeds_accept hp rfl

theorem feeds_enlist (c : Channel) (who : PublisherKey) (b : Bucket) :
    Feeds c none (c.enlist who b) := by
  obtain h | ⟨p, hp, h⟩ := c.enlist_cases who b
  · rw [h]
    exact feeds_none rfl rfl
  · rw [h]
    exact feeds_setPartition hp rfl

theorem feeds_reserve? (h : c.reserve? who b = some d) : Feeds c none d := by
  obtain ⟨p, q, hp, hq, rfl⟩ := reserve?_eq_some h
  obtain ⟨-, rfl⟩ := Partition.reserve?_eq_some hq
  exact feeds_setPartition hp rfl

end Channel

namespace ScrollLoop

variable {l : ScrollLoop σ} {r : ScrollLoop σ × Engine σ}

theorem Continues.feeds (h : Continues l e r) : e.channel.Feeds none r.2.channel :=
  Channel.feeds_none h.partitions h.stats

/-- A step of a loop puts the bucket that it publishes into its partition, and nothing else. -/
theorem feeds_resume (hopen : l.isEnded = false) :
    e.channel.Feeds (l.publishes? e) (l.resume e).2.channel := by
  cases hphase : l.phase with
  | publishing b after =>
    simp only [resume, publishes?, hphase]
    obtain ⟨m, h⟩ | h | ⟨d, h, -⟩ := e.channel.offer_cases b
    · simp only [h]
      exact (continues_fail l _ e).feeds
    · simp only [h]
      exact Channel.feeds_enlist _ _ _
    · simp only [h]
      have hgoes := continues_goOn l after { e with channel := d }
      exact (Channel.feeds_offer h).congr hgoes.partitions hgoes.stats
  | waiting b after =>
    simp only [resume, publishes?, hphase]
    obtain ⟨m, h⟩ | h | ⟨d, h, -⟩ := e.channel.claim_cases l.key b
    · simp only [h]
      exact (continues_fail l _ e).feeds
    · simp only [h]
      exact Channel.feeds_none rfl rfl
    · simp only [h]
      have hgoes := continues_goOn l after { e with channel := d }
      exact (Channel.feeds_claim h).congr hgoes.partitions hgoes.stats
  | _ =>
    -- before there is a bucket to publish, a loop has not to do with the channel
    have hnone : l.publishes? e = none := by rw [publishes?, hphase]
    have hwait : l.isWaiting = false := by rw [isWaiting, hphase]
    obtain ⟨w, -, hcontinues⟩ := continues_resume hopen (by simp [hphase]) hwait
    rw [hnone]
    exact hcontinues.feeds

theorem feeds_putOff? (h : l.putOff? e = some r) : e.channel.Feeds none r.2.channel := by
  obtain rfl | ⟨b, after, d, -, hd, rfl⟩ := putOff?_eq_some h
  · exact Channel.feeds_none rfl rfl
  · exact Channel.feeds_reserve? hd

end ScrollLoop

/-! ## Consumers -/

namespace Consumer

variable {c : Consumer σ} {r : Consumer σ × Engine σ}

/-- The bucket that a consumer works on. -/
def bucket? (c : Consumer σ) : Option Bucket :=
  match c.phase with
  | .executing v _ => some v.bucket
  | _ => none

/-- The bucket on which the work is over with the next step of a consumer, and its result. -/
def returns? (setup : Setup σ) (c : Consumer σ) (e : Engine σ) :
    Option (Bucket × Except Error BucketOutcome) :=
  match c.phase with
  | .executing v x => (x.step? setup e).bind fun (y, _) => y.result?.map (v.bucket, ·)
  | _ => (c.received? e).bind fun (v, d) =>
    (Execution.start setup v.bucket { e with channel := d }).1.result?.map (v.bucket, ·)

/-- What a step of a consumer takes from its partition, keeps in hand, and is done with. -/
structure Draws (setup : Setup σ) (c : Consumer σ) (e : Engine σ) (r : Consumer σ × Engine σ) :
    Prop where
  length : r.2.channel.partitions.length = e.channel.partitions.length
  partition : ∀ v d, c.received? e = some (v, d) → v.partition = c.partition
  queue_self : e.channel.queueAt c.partition =
    ((c.received? e).map (·.1.bucket)).toList ++ r.2.channel.queueAt c.partition
  queue_other : ∀ j, j ≠ c.partition → r.2.channel.queueAt j = e.channel.queueAt j
  held : c.bucket?.toList ++ ((c.received? e).map (·.1.bucket)).toList =
    ((c.returns? setup e).map Prod.fst).toList ++ r.1.bucket?.toList
  /-- Every result is acknowledged and counted, and then the consumer is about to receive. -/
  stats : r.2.channel.stats = { e.channel.stats with
    acknowledged := e.channel.stats.acknowledged + (c.returns? setup e).toList.length }
  summary : r.1.summary = ((c.returns? setup e).map Prod.snd).toList.foldl .count c.summary
  idle : (c.returns? setup e).isSome = true → r.1.phase = .idle

/-- A step with nothing received and nothing worked on. -/
theorem draws_nothing {phase : ConsumerPhase σ} (hreceived : c.received? e = none)
    (hreturns : c.returns? setup e = none) (hbucket : c.bucket? = none)
    (hphase : bucket? { c with phase := phase } = none) :
    Draws setup c e ({ c with phase := phase }, e) where
  length := rfl
  partition v d h := absurd (hreceived.symm.trans h) (by simp)
  queue_self := by rw [hreceived]; rfl
  queue_other _ _ := rfl
  held := by rw [hreceived, hreturns, hbucket, hphase]; rfl
  stats := by rw [hreturns]; rfl
  summary := by rw [hreturns]; rfl
  idle h := by
    rw [hreturns] at h
    exact absurd h (by simp)

/-- The work on a bucket, which was just received or in hand before, is over or leaves the bucket in
hand. -/
theorem draws_settle {v : Delivery} {x : Execution σ} {f : Engine σ}
    (hlength : f.channel.partitions.length = e.channel.partitions.length)
    (hpartition : ∀ v d, c.received? e = some (v, d) → v.partition = c.partition)
    (hself : e.channel.queueAt c.partition =
      ((c.received? e).map (·.1.bucket)).toList ++ f.channel.queueAt c.partition)
    (hother : ∀ j, j ≠ c.partition → f.channel.queueAt j = e.channel.queueAt j)
    (hstats : f.channel.stats = e.channel.stats)
    (hheld : c.bucket?.toList ++ ((c.received? e).map (·.1.bucket)).toList = [v.bucket])
    (hreturns : c.returns? setup e = x.result?.map (v.bucket, ·)) :
    Draws setup c e (c.settle v x f) := by
  cases x with
  | finished result =>
    have hreturns : c.returns? setup e = some (v.bucket, result) := hreturns
    constructor
    case length => exact hlength
    case partition => exact hpartition
    case queue_self => exact hself
    case queue_other => exact hother
    case held => rw [hheld, hreturns]; rfl
    case stats =>
      rw [hreturns, ← hstats]
      rfl
    case summary => rw [hreturns]; rfl
    case idle => exact fun _ => rfl
  | _ =>
    have hreturns : c.returns? setup e = none := hreturns
    constructor
    case length => exact hlength
    case partition => exact hpartition
    case queue_self => exact hself
    case queue_other => exact hother
    case held => rw [hheld, hreturns]; rfl
    case stats => rw [hreturns]; exact hstats
    case summary => rw [hreturns]; rfl
    case idle => rw [hreturns]; exact nofun

/-- A consumer that receives begins to work on what it has received. -/
theorem draws_receive {v : Delivery} {d : Channel} (hphase : c.phase = .suspended)
    (hc : e.channel.IsOrderly) (hd : e.channel.dequeue? c.partition = some (v, d)) :
    Draws setup c e (c.begin setup v { e with channel := d }) := by
  have hreceived : c.received? e = some (v, d) := by rw [received?, hphase]; exact hd
  obtain ⟨hv, hdelivers⟩ := Channel.dequeue?_of_orderly hc hd
  have hstats : d.stats = e.channel.stats := by
    obtain ⟨p, q, -, -, -, rfl⟩ := Channel.takeWith_eq_some hd
    rfl
  have hacts : Execution.Acts v.bucket .untouched { e with channel := d }
      (Execution.start setup v.bucket { e with channel := d }) := Execution.acts_start
  unfold begin
  generalize hstart : Execution.start setup v.bucket { e with channel := d } = r at hacts
  obtain ⟨x, f⟩ := r
  have hsteady : f.channel = d := hacts.channel
  apply draws_settle
  · rw [hsteady]
    exact hdelivers.length
  · intro v' d' h
    obtain ⟨rfl, rfl⟩ := Prod.mk.inj (Option.some.inj (hreceived.symm.trans h))
    exact hv
  · rw [hreceived, hsteady]
    exact hdelivers.queue_self
  · rw [hsteady]
    exact hdelivers.queue_other
  · rw [hsteady]
    exact hstats
  · rw [bucket?, hphase, hreceived]
    rfl
  · simp only [returns?, hphase, hreceived, Option.bind_some, hstart]

/-- A consumer that has a bucket in hand works on it. -/
theorem draws_work {v : Delivery} {x y : Execution σ} {f : Engine σ}
    (hphase : c.phase = .executing v x) (hstep : x.step? setup e = some (y, f))
    (hsteady : f.channel = e.channel) : Draws setup c e (c.settle v y f) := by
  have hreceived : c.received? e = none := by rw [received?, hphase]
  apply draws_settle
  · rw [hsteady]
  · exact fun v' d' h => absurd (hreceived.symm.trans h) (by simp)
  · rw [hreceived, hsteady]
    rfl
  · intro j _
    rw [hsteady]
  · rw [hsteady]
  · rw [bucket?, hphase, hreceived]
    rfl
  · simp only [returns?, hphase, hstep, Option.bind_some]

/-- A step of a consumer whose partition has nothing handed back. -/
theorem draws_step? (hc : e.channel.IsOrderly) (hserves : c.Serves) (hd : e.tracker.Distinct)
    (h : c.step? setup e = some r) : Draws setup c e r := by
  cases steps_of_step? h with
  | unstash _ hv =>
    rw [Channel.unstash?_of_orderly hc] at hv
    exact absurd hv (by simp)
  | suspend hphase hnone | stop hphase hnone =>
    have hreceived : c.received? e = none := by rw [received?, hphase]; exact hnone
    exact draws_nothing hreceived (by simp only [returns?, hphase, hreceived, Option.bind_none])
      (by rw [bucket?, hphase]) rfl
  | dequeue hphase hv => exact draws_receive hphase hc hv
  | @work v x y f hphase hwork =>
    exact draws_work hphase hwork (Execution.acts_step? (hserves v x hphase) hd hwork).channel

end Consumer

end BulkRun
