import BulkRun.Dispatch.Consumer
import BulkRun.Proofs.Execution.Books
/-!
# What a step of a consumer can be

A consumer receives a bucket, from the stash or from the queue of its partition, turns from the one
to the other, stops, or goes on with the bucket that it has in hand (`Steps`).  Whatever is said
about the steps of consumers follows by cases from here.
-/

namespace BulkRun

namespace Consumer

variable {σ : Type} {setup : Setup σ} {e : Engine σ} {c : Consumer σ}
  {r : Consumer σ × Engine σ}

/-- All that a step of a consumer may be. -/
inductive Steps (setup : Setup σ) (c : Consumer σ) (e : Engine σ) :
    Consumer σ × Engine σ → Prop
  | unstash {v : Delivery} {d : Channel} (hphase : c.phase = .idle)
      (hv : e.channel.unstash? c.partition = some (v, d)) :
      Steps setup c e (c.begin setup v { e with channel := d })
  /-- Nothing was handed back. -/
  | suspend (hphase : c.phase = .idle) (hnone : e.channel.unstash? c.partition = none) :
      Steps setup c e ({ c with phase := .suspended }, e)
  | dequeue {v : Delivery} {d : Channel} (hphase : c.phase = .suspended)
      (hv : e.channel.dequeue? c.partition = some (v, d)) :
      Steps setup c e (c.begin setup v { e with channel := d })
  /-- Nothing is queued, and nothing more will be. -/
  | stop (hphase : c.phase = .suspended) (hnone : e.channel.dequeue? c.partition = none)
      (hfinished : e.channel.isFinished = true) :
      Steps setup c e ({ c with phase := .stopped }, e)
  | work {v : Delivery} {x y : Execution σ} {f : Engine σ} (hphase : c.phase = .executing v x)
      (hwork : x.step? setup e = some (y, f)) : Steps setup c e (c.settle v y f)

theorem steps_of_step? (h : c.step? setup e = some r) : Steps setup c e r := by
  unfold step? at h
  split at h
  · rename_i hphase
    split at h
    · rename_i v d hv
      obtain rfl := Option.some.inj h
      exact .unstash hphase hv
    · rename_i hnone
      obtain rfl := Option.some.inj h
      exact .suspend hphase hnone
  · rename_i hphase
    unfold receive? at h
    split at h
    · rename_i v d hv
      obtain rfl := Option.some.inj h
      exact .dequeue hphase hv
    · rename_i hnone
      split at h
      · rename_i hfinished
        obtain rfl := Option.some.inj h
        exact .stop hphase hnone hfinished
      · exact absurd h (by simp)
  · rename_i v x hphase
    obtain ⟨⟨y, f⟩, hwork, rfl⟩ := Option.map_eq_some_iff.1 h
    exact .work hphase hwork
  · exact absurd h (by simp)

/-- The delivery that a consumer receives with its next step, if it receives one. -/
def received? (c : Consumer σ) (e : Engine σ) : Option (Delivery × Channel) :=
  match c.phase with
  | .idle => e.channel.unstash? c.partition
  | .suspended => e.channel.dequeue? c.partition
  | _ => none

/-- A consumer that works on a bucket goes on with it, or acknowledges it. -/
theorem settle_cases (c : Consumer σ) (v : Delivery) (x : Execution σ) (e : Engine σ) :
    (x.work?.isSome = true ∧ c.settle v x e = ({ c with phase := .executing v x }, e)) ∨
      ∃ result, x = .finished result ∧ c.settle v x e =
        (⟨c.summary.count result, .idle⟩, { e with channel := e.channel.acknowledge }) := by
  cases x with
  | finished result => exact .inr ⟨result, rfl, rfl⟩
  | _ => exact .inl ⟨rfl, rfl⟩

/-- A consumer that settles counts its acknowledgement, and does nothing else to the engine. -/
theorem engine_settle (c : Consumer σ) (v : Delivery) (x : Execution σ) (e : Engine σ) :
    (c.settle v x e).2.channel.partitions = e.channel.partitions ∧
      (c.settle v x e).2.channel.publishers = e.channel.publishers ∧
      (c.settle v x e).2.world = e.world ∧ (c.settle v x e).2.tracker = e.tracker := by
  rcases c.settle_cases v x e with ⟨-, h⟩ | ⟨result, -, h⟩
  · rw [h]
    exact ⟨rfl, rfl, rfl, rfl⟩
  · rw [h]
    exact ⟨rfl, rfl, rfl, rfl⟩

@[simp]
theorem partition_count (s : ConsumerSummary) (result : Except Error BucketOutcome) :
    (s.count result).partition = s.partition := by
  unfold ConsumerSummary.count
  split
  · rfl
  · rfl
  · split <;> rfl

@[simp]
theorem partition_settle (c : Consumer σ) (v : Delivery) (x : Execution σ) (e : Engine σ) :
    (c.settle v x e).1.partition = c.partition := by
  obtain ⟨-, h⟩ | ⟨result, -, h⟩ := c.settle_cases v x e
  · rw [h]
    rfl
  · rw [h]
    exact partition_count _ _

end Consumer

end BulkRun
