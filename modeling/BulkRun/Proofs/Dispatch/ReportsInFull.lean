import BulkRun.Proofs.Dispatch.Backing
/-!
# What is reported of batches that are taken up once

A batch is reported by whoever took it up, with the transaction that was asked for, and with as many
records as it has.  So no more records of a command count as worked on, or are at work, than there
are in the batches that were taken up (`Bench.Reckons`), and these are batches of the buckets that
were published.  If no batch is taken up twice, they are no more than were published, and therefore
no more than were counted as scrolled: there is room for every report.
-/

namespace BulkRun

open Relation (ReflTransGen)
open Tracker (Raises)

variable {σ : Type} {setup : Setup σ} {id : CommandId} {k : Command}

/-! ## Batches of buckets -/

/-- The number of records in the batch of some work. -/
def Work.size (w : Work σ) : Nat := w.batch.ids.length

/-- The number of records at work, where there is work. -/
def Work.size? (w : Option (Work σ)) : Nat := (w.map Work.size).getD 0

/-- The number of records in the batches of all work. -/
def Work.sizes (works : List (Work σ)) : Nat := (works.map Work.size).sum

theorem Work.sizes_append (works more : List (Work σ)) :
    sizes (works ++ more) = sizes works + sizes more := by
  rw [sizes, List.map_append, List.sum_append, sizes, sizes]

theorem Work.sizes_toList (w : Option (Work σ)) : sizes w.toList = size? w := by
  cases w <;> simp [sizes, size?]

/-- Batches of some buckets, each taken once, have no more records than the buckets. -/
theorem Work.sizes_le {works : List (Work σ)} {buckets : List Bucket} {n : Nat}
    (hid : ∀ w ∈ works, w.command.id = id) (hnodup : (works.map Work.scope).Nodup)
    (hworks : ∀ w ∈ works, w.bucket ∈ buckets ∧ w.batch ∈ batches w.bucket.ids n) :
    sizes works ≤ (recordsOf buckets).length := by
  let taken (w : Work σ) : Bucket × Batch := (w.bucket, w.batch)
  let all : List (Bucket × Batch) := buckets.flatMap fun b => (batches b.ids n).map (b, ·)
  let size (pair : Bucket × Batch) : Nat := pair.2.ids.length
  -- bucket and batch make the scope of a transaction, so they are not met twice either
  have hscopes : works.map Work.scope =
      (works.map taken).map fun pair => ⟨id, pair.1.sequence, pair.2.index⟩ := by
    rw [List.map_map]
    refine List.map_congr_left fun w hw => ?_
    rw [Work.scope, hid w hw]
    rfl
  have hdistinct : (works.map taken).Nodup := List.Nodup.of_map _ (hscopes ▸ hnodup)
  have hsubset : works.map taken ⊆ all := by
    intro pair hpair
    obtain ⟨w, hw, rfl⟩ := List.mem_map.1 hpair
    obtain ⟨hbucket, hbatch⟩ := hworks w hw
    exact List.mem_flatMap.2 ⟨w.bucket, hbucket, List.mem_map_of_mem hbatch⟩
  obtain ⟨some, hperm, hsublist⟩ := List.subperm_of_subset hdistinct hsubset
  calc sizes works = ((works.map taken).map size).sum := by rw [List.map_map]; rfl
    _ = (some.map size).sum := (hperm.map size).sum_eq.symm
    _ ≤ (all.map size).sum := (hsublist.map size).sum_le_sum fun _ _ => Nat.zero_le _
    _ = (recordsOf buckets).length := by
      rw [length_recordsOf, List.map_flatMap, List.flatMap_def, List.sum_flatten, List.map_map]
      congr 1
      refine List.map_congr_left fun b _ => ?_
      rw [Function.comp_apply, List.map_map]
      exact length_batches b.ids n

/-- Whether the batch at hand is one of those that its bucket is cut into for a command, and all
that come after it are left. -/
structure Work.IsPart (k : Command) (w : Work σ) : Prop where
  command : w.command = k
  batches : w.batch :: w.later <:+ batches w.bucket.ids k.batchSize

/-- Whether an execution is at work on a part of its bucket, if at all. -/
def Execution.IsPart (k : Command) (x : Execution σ) : Prop := ∀ w, x.work? = some w → w.IsPart k

/-! ## Steps of executions -/

/-- The number of records of a command that count as worked on. -/
def Tracker.processed (t : Tracker) (id : CommandId) : Nat :=
  ((t.find? id).map (·.processed)).getD 0

theorem Tracker.Raises.processed_le {t u : Tracker} {n : Nat} (h : Raises id n t u) :
    u.processed id ≤ t.processed id + n := by
  unfold Tracker.processed
  cases hu : u.find? id with
  | none => exact Nat.zero_le _
  | some q =>
    obtain ⟨p, hp, hle, -⟩ := h q hu
    rw [hp]
    exact hle

namespace Execution

variable {e : Engine σ} {b : Bucket} {r : Execution σ × Engine σ} {action : Action σ}
  {left : List Batch} {w : Work σ} {x : Execution σ} {errors : Nat} {command : Command}

theorem isPart_finished (k : Command) (result : Except Error BucketOutcome) :
    IsPart k (.finished result : Execution σ) := by
  intro w hw
  exact absurd hw (by simp [work?])

theorem GoesOn.isPart (h : GoesOn k action b e left r)
    (hleft : left <:+ batches b.ids k.batchSize) : r.1.IsPart k := by
  cases h with
  | opens =>
    intro w hw
    obtain rfl := Option.some.inj hw
    exact ⟨rfl, hleft⟩
  | _ => exact isPart_finished k _

theorem Begins.isPart (h : Begins setup b e r)
    (hknown : ∀ p, e.tracker.find? b.commandId = some p → p.command = k) : r.1.IsPart k := by
  cases h with
  | goesOn hfind _ _ _ h =>
    rw [hknown _ hfind] at h
    exact h.isPart List.suffix_rfl
  | _ => exact isPart_finished k _

theorem Works.isPart (h : Works x w e r) (hw : w.IsPart k) : r.1.IsPart k := by
  cases h with
  | proceed hwork _ _ _ =>
    intro v hv
    obtain rfl := Option.some.inj (hwork.symm.trans hv)
    exact hw
  | report h =>
    cases h with
    | gone => exact isPart_finished k _
    | told _ h =>
      rw [hw.command] at h
      exact h.isPart ((List.suffix_cons _ _).trans hw.batches)
  | gone | abort => exact isPart_finished k _

/-- Whoever goes on to a batch takes it up. -/
theorem GoesOn.work?_eq (h : GoesOn command action b e left r) : r.1.work? = r.1.opened? := by
  cases h <;> rfl

theorem Begins.work?_eq (h : Begins setup b e r) : r.1.work? = r.1.opened? := by
  cases h with
  | goesOn _ _ _ _ h => exact h.work?_eq
  | _ => rfl

/-- What comes to be counted was at work, and what comes to be at work is taken up. -/
theorem Works.processed_le (h : Works x w e r) (hw : x.work? = some w) :
    r.2.tracker.processed w.command.id + Work.size? r.1.work? ≤
      e.tracker.processed w.command.id + Work.size? x.work? + Work.size? r.1.opened? := by
  have hsize : Work.size? x.work? = w.batch.ids.length := by rw [hw]; rfl
  rw [hsize]
  cases h with
  | @proceed y f hwork hy hf _ =>
    have hraises := (raises_of_meddles hf w.command.id).processed_le
    have hsame : Work.size? y.work? = w.batch.ids.length := by rw [hwork]; rfl
    rw [hsame]
    show f.tracker.processed _ + _ ≤ _
    omega
  | report h =>
    cases h with
    | gone => exact Nat.le_add_right_of_le (Nat.le_add_right _ _)
    | told ht h =>
      have hraises := ((ht.raises w.command.id).trans (h.raises w.command.id)).processed_le
      rw [if_pos rfl] at hraises
      rw [h.work?_eq]
      exact Nat.add_le_add_right hraises _
  | gone => exact Nat.le_add_right_of_le (Nat.le_add_right _ _)
  | abort _ ht =>
    have hraises := (ht.raises_zero rfl w.command.id).processed_le
    exact hraises.trans (Nat.le_add_right _ _)

/-- What is taken up of a bucket is a batch of it. -/
theorem part_of_openedOf (hserves : x.Serves b) (hpart : b.commandId = k.id → x.IsPart k)
    (hw : w ∈ openedOf k.id x.sign?.toList) :
    b.commandId = k.id ∧ w.bucket = b ∧ w.batch ∈ batches b.ids k.batchSize := by
  by_cases hid : b.commandId = k.id
  · rw [openedOf_sign? fun u hu => (hserves u hu).2.trans hid] at hw
    have hwork := work?_of_opened? (Option.mem_toList.1 hw)
    have hbatches := (hpart hid w hwork).batches
    rw [(hserves w hwork).1] at hbatches
    exact ⟨hid, (hserves w hwork).1, hbatches.subset List.mem_cons_self⟩
  · rw [openedOf_sign?_other fun u hu => (hserves u hu).2 ▸ hid] at hw
    exact absurd hw List.not_mem_nil

end Execution

/-! ## Events -/

/-- Whether what is done with a held delivery of a command is work on a part of its bucket. -/
structure Hand.IsPart (k : Command) (h : Hand σ) : Prop where
  serves : ∀ x, h.execution = some x → x.Serves h.delivery.bucket
  part : ∀ x, h.execution = some x → h.delivery.bucket.commandId = k.id → x.IsPart k

theorem Hand.workFor?_self {v : Delivery} {x : Execution σ} (h : x.Serves v.bucket)
    (hid : v.bucket.commandId = id) : workFor? id ⟨v, some x⟩ = x.work? := by
  rw [workFor?, Option.bind_some]
  cases hw : x.work? with
  | none => rfl
  | some w => exact Option.filter_some_pos (beq_iff_eq.2 ((h w hw).2.trans hid))

theorem Hand.workFor?_other {v : Delivery} {x : Execution σ} (h : x.Serves v.bucket)
    (hid : v.bucket.commandId ≠ id) : workFor? id ⟨v, some x⟩ = none := by
  rw [Option.eq_none_iff_forall_ne_some]
  intro w hw
  obtain ⟨hwork, hcommand⟩ := Bench.workFor?_eq_some.1 hw
  exact hid ((h w hwork).2.symm.trans hcommand)

theorem ScrollLoop.Resumes.lots {l : ScrollLoop σ} {e : Engine σ} {r : ScrollLoop σ × Engine σ}
    (h : Resumes l e r) {lot : Lot} (hlot : lot ∈ r.2.channel.lots id) :
    lot ∈ e.channel.lots id ∨ lot.bucket ∈ bucketsOf id (l.sign? e).toList := by
  cases h with
  | refuse _ _ _ h | breakEmpty _ _ _ _ h | closed _ _ h =>
    rw [h.channel] at hlot
    exact .inl hlot
  | openUp _ _ _ _ h | chunk _ _ _ _ h =>
    rw [h.channel] at hlot
    exact .inl hlot
  | @enlist b after _ _ =>
    rw [Channel.lots_keeps (e.channel.keeps_enlist l.key b)] at hlot
    exact .inl hlot
  | @published b after d r hoffered hpublishes hd h =>
    rw [h.channel] at hlot
    by_cases hb : b.commandId = id
    · rw [Channel.lots_takes (takes_of_published hd) hb] at hlot
      obtain rfl | hlot := Multiset.mem_cons.1 hlot
      · right
        simp [sign?, answer?_of_offered? hoffered, hpublishes, bucketsOf, hb]
      · exact .inl hlot
    · rw [Channel.lots_takes_other (takes_of_published hd) hb] at hlot
      exact .inl hlot
  | _ => exact .inl hlot

namespace Bench

variable {b c : Bench σ} {sign : Option (Sign σ)} {signs new : List (Sign σ)}
  {e : Engine σ} {ls : List (ScrollLoop σ)} {hs : Multiset (Hand σ)} {h : Hand σ} {v : Delivery}

theorem inFlightSize_cons (h : Hand σ) :
    inFlightSize id ⟨e, ls, h ::ₘ hs⟩ =
      Work.size? (h.workFor? id) + inFlightSize id ⟨e, ls, hs⟩ := by
  cases hwork : h.workFor? id with
  | none =>
    rw [inFlightSize, inFlight_cons_none hwork]
    exact (Nat.zero_add _).symm
  | some w =>
    rw [inFlightSize, inFlight_cons_some hwork, Multiset.map_cons, Multiset.sum_cons]
    rfl

/-- Whether the buckets of a command were published, the batches that were taken up are parts of
them, and no more records count as worked on or are at work than there are in these. -/
structure Reckons (k : Command) (signs : List (Sign σ)) (b : Bench σ) : Prop where
  known : ∀ p, b.engine.tracker.find? k.id = some p → p.command = k
  hands : ∀ h ∈ b.hands, h.IsPart k
  published : ∀ bucket ∈ b.there k.id, bucket ∈ bucketsOf k.id signs
  opened : ∀ w ∈ openedOf k.id signs, w.bucket ∈ bucketsOf k.id signs ∧
    w.batch ∈ batches w.bucket.ids k.batchSize
  counted : b.engine.tracker.processed k.id + b.inFlightSize k.id ≤
    Work.sizes (openedOf k.id signs)

namespace Reckons

/-- Nothing is taken up. -/
theorem of_le (hb : b.Reckons k signs) (hopened : openedOf k.id new = [])
    (hknown : ∀ p, c.engine.tracker.find? k.id = some p → p.command = k)
    (hhands : ∀ h ∈ c.hands, h.IsPart k)
    (hthere : ∀ bucket ∈ c.there k.id, bucket ∈ b.there k.id ∨ bucket ∈ bucketsOf k.id new)
    (hcounted : c.engine.tracker.processed k.id + c.inFlightSize k.id ≤
      b.engine.tracker.processed k.id + b.inFlightSize k.id) : c.Reckons k (signs ++ new) := by
  have hsame : openedOf k.id (signs ++ new) = openedOf k.id signs := by
    rw [openedOf_append, hopened, List.append_nil]
  refine ⟨hknown, hhands, fun bucket hbucket => ?_, ?_, ?_⟩
  · rw [bucketsOf_append, List.mem_append]
    exact (hthere bucket hbucket).imp_left (hb.published bucket)
  · rw [hsame, bucketsOf_append]
    exact fun w hw => (hb.opened w hw).imp_left (List.mem_append_left _)
  · rw [hsame]
    exact hcounted.trans hb.counted

/-! ### Grips -/

variable {x : Option (Execution σ)} {r : Execution σ × Engine σ} {d : Channel}

/-- What is done with a bucket at hand, and what it may take up of the bucket. -/
theorem progress (hb : Reckons k signs ⟨e, ls, ⟨v, x⟩ ::ₘ hs⟩)
    (hevolves : Execution.Evolves e r.2) (hserves : r.1.Serves v.bucket)
    (hpart : v.bucket.commandId = k.id → r.1.IsPart k)
    (hcounted : r.2.tracker.processed k.id + Work.size? (Hand.workFor? k.id ⟨v, some r.1⟩) ≤
      e.tracker.processed k.id + Work.size? (Hand.workFor? k.id ⟨v, x⟩) +
        Work.sizes (openedOf k.id r.1.sign?.toList)) :
    Reckons k (signs ++ r.1.sign?.toList) ⟨r.2, ls, ⟨v, some r.1⟩ ::ₘ hs⟩ := by
  have hbuckets : bucketsOf k.id (signs ++ r.1.sign?.toList) = bucketsOf k.id signs := by
    rw [bucketsOf_append, (r.1.signs_of_sign? k.id).2, List.append_nil]
  obtain ⟨-, hhands⟩ := Multiset.forall_mem_cons.1 hb.hands
  refine ⟨fun p hp => hevolves.tracker.known hb.known hp,
    Multiset.forall_mem_cons.2 ⟨⟨fun y hy => ?_, fun y hy => ?_⟩, hhands⟩, ?_, fun w hw => ?_, ?_⟩
  · obtain rfl := Option.some.inj hy
    exact hserves
  · obtain rfl := Option.some.inj hy
    exact hpart
  · rw [hbuckets, there_progress hevolves.channel (some r.1) x]
    exact hb.published
  · rw [hbuckets]
    rw [openedOf_append] at hw
    obtain hw | hw := List.mem_append.1 hw
    · exact hb.opened w hw
    · obtain ⟨hid, hbucket, hbatch⟩ := Execution.part_of_openedOf hserves hpart hw
      rw [hbucket]
      refine ⟨hb.published v.bucket ?_, hbatch⟩
      rw [there_cons_self (h := ⟨v, x⟩) hid]
      exact Multiset.mem_cons_self _ _
  · have hle : e.tracker.processed k.id + _ ≤ _ := hb.counted
    show r.2.tracker.processed k.id + _ ≤ _
    rw [inFlightSize_cons] at hle ⊢
    rw [openedOf_append, Work.sizes_append]
    -- what else is at work does not depend on the engine
    have hrest : inFlightSize k.id ⟨r.2, ls, hs⟩ = inFlightSize k.id ⟨e, ls, hs⟩ := rfl
    omega

/-- A bucket at hand is let go of. -/
theorem letGo (hb : Reckons k signs ⟨e, ls, h ::ₘ hs⟩)
    (hd : Channel.Takes e.channel d h.delivery.bucket ∨ Channel.Keeps e.channel d)
    (hopened : openedOf k.id new = []) :
    Reckons k (signs ++ new) ⟨{ e with channel := d }, ls, hs⟩ := by
  obtain ⟨-, hhands⟩ := Multiset.forall_mem_cons.1 hb.hands
  refine hb.of_le hopened hb.known hhands (fun bucket hbucket => .inl ?_) ?_
  · obtain htakes | hkeeps := hd
    · rwa [there_takes htakes] at hbucket
    · rw [there_of_lots (Channel.lots_keeps hkeeps k.id)] at hbucket
      by_cases hid : h.delivery.bucket.commandId = k.id
      · rw [there_cons_self hid]
        exact Multiset.mem_cons_of_mem hbucket
      · rwa [there_cons_other hid]
  · rw [inFlightSize_cons]
    exact Nat.add_le_add_left (Nat.le_add_left _ _) _

/-- Every grip keeps the reckoning. -/
theorem handles (hb : b.Reckons k signs) (hd : b.engine.tracker.Distinct)
    (hgrip : Handles setup b sign c) : c.Reckons k (signs ++ sign.toList) := by
  cases hgrip with
  | @receive e ls hs i v d hv =>
    refine hb.of_le rfl hb.known (Multiset.forall_mem_cons.2 ⟨?_, hb.hands⟩) (fun bucket h => ?_) ?_
    · constructor <;> exact fun x hx => absurd hx (by simp)
    · exact .inl (there_receive hv ▸ h)
    · rw [inFlightSize_cons]
      exact Nat.le_of_eq (congrArg _ (Nat.zero_add _))
  | @start e ls hs v r hr =>
    subst hr
    have hbegins := Execution.begins_start setup v.bucket e
    have hserves : (Execution.start setup v.bucket e).1.Serves v.bucket :=
      Execution.acts_start.serves
    have hraises := (hbegins.raises k.id).processed_le
    refine hb.progress hbegins.evolves hserves (fun hid => ?_) ?_
    · exact hbegins.isPart fun p hp => hb.known p (hid ▸ hp)
    · by_cases hid : v.bucket.commandId = k.id
      · rw [Hand.workFor?_self hserves hid, hbegins.work?_eq,
          Execution.openedOf_sign? fun w hw => (hserves w hw).2.trans hid, Work.sizes_toList]
        omega
      · rw [Hand.workFor?_other hserves hid]
        exact hraises.trans (Nat.le_add_right _ _)
  | @work e ls hs v y r hr =>
    obtain ⟨w, hw, hworks⟩ := Execution.works_step? hd hr
    have hand := hb.hands ⟨v, some y⟩ (Multiset.mem_cons_self _ _)
    have hserves := hand.serves y rfl
    have hserves' := (Execution.acts_step? hserves hd hr).serves
    have hcommand := (hserves w hw).2
    refine hb.progress hworks.evolves hserves' (fun hid => ?_) ?_
    · exact hworks.isPart (hand.part y rfl hid w hw)
    · by_cases hid : v.bucket.commandId = k.id
      · rw [Hand.workFor?_self hserves' hid, Hand.workFor?_self hserves hid,
          Execution.openedOf_sign? fun u hu => (hserves' u hu).2.trans hid, Work.sizes_toList,
          ← hid, ← hcommand]
        exact hworks.processed_le hw
      · rw [Hand.workFor?_other hserves' hid]
        have hne : k.id ≠ w.command.id := hcommand ▸ Ne.symm hid
        have hraises := (hworks.raises_other hne).processed_le
        exact hraises.trans ((Nat.le_add_right _ _).trans (Nat.le_add_right _ _))
  | acknowledge result => exact hb.letGo (.inr ⟨.refl _, rfl⟩) rfl
  | @handBack e ls hs h =>
    refine hb.letGo (e.channel.handBack_cases h.delivery) ?_
    split <;> rfl

/-- Whatever is done in a few grips without a sign keeps the reckoning. -/
theorem handles_chain (hb : b.Reckons k signs) (hd : b.engine.tracker.Distinct)
    (hchain : ReflTransGen (Handles setup · none ·) b c) : c.Reckons k signs := by
  induction hchain with
  | refl => exact hb
  | tail hchain hgrip ih =>
    have hnext := ih.handles (bides_of_chain hchain hd k.id).2 hgrip
    rwa [Option.toList_none, List.append_nil] at hnext

/-! ### Deals -/

/-- What is at hand is left alone, and nothing is counted. -/
theorem of_deal {f : Engine σ} (hb : b.Reckons k signs) (hopened : openedOf k.id new = [])
    (hknown : ∀ p, f.tracker.find? k.id = some p → p.command = k)
    (hlots : ∀ lot ∈ f.channel.lots k.id,
      lot ∈ b.engine.channel.lots k.id ∨ lot.bucket ∈ bucketsOf k.id new)
    (hprocessed : f.tracker.processed k.id ≤ b.engine.tracker.processed k.id) :
    Reckons k (signs ++ new) ⟨f, ls, b.hands⟩ := by
  refine hb.of_le hopened hknown hb.hands (fun bucket hbucket => ?_)
    (Nat.add_le_add_right hprocessed _)
  obtain ⟨lot, hlot, rfl⟩ := Multiset.mem_map.1 hbucket
  obtain hlot | hlot := Multiset.mem_add.1 hlot
  · obtain hlot | hnew := hlots lot hlot
    · exact .inl (Multiset.mem_map_of_mem _ (Multiset.mem_add.2 (.inl hlot)))
    · exact .inr hnew
  · exact .inl (Multiset.mem_map_of_mem _ (Multiset.mem_add.2 (.inr hlot)))

/-- Every deal keeps the reckoning. -/
theorem deals (hb : b.Reckons k signs) (honce : c.AcceptsOnce k) (hdeal : Deals setup b sign c) :
    c.Reckons k (signs ++ sign.toList) := by
  have hadvance {t : Tracker} (hadvances : b.engine.tracker.Advances t) :
      ∀ p, t.find? k.id = some p → p.command = k := fun p hp => hadvances.known hb.known hp
  have hsame {d : Channel} (hkeeps : Channel.Keeps b.engine.channel d) :
      ∀ lot ∈ d.lots k.id, lot ∈ b.engine.channel.lots k.id ∨
        lot.bucket ∈ bucketsOf k.id ([] : List (Sign σ)) :=
    fun lot hlot => .inl (Channel.lots_keeps hkeeps k.id ▸ hlot)
  have hstill : Channel.Keeps b.engine.channel b.engine.channel := ⟨.refl _, rfl⟩
  cases hdeal with
  | @resume l hl hopen =>
    have hresumes := ScrollLoop.resumes_resume (e := b.engine) hopen
    exact hb.of_deal (l.openedOf_sign? b.engine k.id) (hadvance hresumes.addresses.advances)
      (fun lot hlot => hresumes.lots hlot) (hresumes.raises k.id).processed_le
  | putOff hl hr =>
    obtain rfl | ⟨bucket, after, d, -, hd, rfl⟩ := ScrollLoop.putOff?_eq_some hr
    · exact hb.of_deal rfl hb.known (hsame hstill) (Nat.le_refl _)
    · exact hb.of_deal rfl hb.known (hsame (Channel.keeps_reserve? hd)) (Nat.le_refl _)
  | @accept k₀ k' x u hprepare hreg =>
    have hfind := (Tracker.register_eq_ok hreg).2 k.id
    by_cases hid : k.id = k'.id
    · rw [if_pos hid] at hfind
      have hcommand : k' = k := by
        refine List.mem_singleton.1 (honce.subset (List.mem_filter.2 ⟨?_, beq_iff_eq.2 hid.symm⟩))
        exact List.mem_map_of_mem (List.mem_append_right _ (List.mem_singleton_self _))
      refine hb.of_deal rfl (fun p hp => ?_) (hsame ⟨.refl _, rfl⟩) ?_
      · obtain rfl := Option.some.inj (hfind.symm.trans hp)
        exact hcommand
      · show u.processed k.id ≤ _
        rw [Tracker.processed, hfind]
        exact Nat.zero_le _
    · rw [if_neg hid] at hfind
      refine hb.of_deal rfl (fun p hp => hb.known p (hfind.symm.trans hp)) (hsame ⟨.refl _, rfl⟩) ?_
      show u.processed k.id ≤ _
      rw [Tracker.processed, hfind, Tracker.processed]
  | @abort id message isNew u h =>
    obtain ⟨r, p, hr, ht⟩ := Tracker.heeds_abortWith h
    have hraises := ht.raises_zero (Tracker.recorded_of_isAbort hr) k.id
    exact hb.of_deal rfl (hadvance ht.advances) (hsame hstill) hraises.processed_le
  | drop h =>
    exact hb.of_deal rfl (hadvance h.advances) (hsame hstill)
      (Tracker.raises_of_same_or_gone (h.find?_eq k.id)).processed_le
  | release => exact hb.of_deal rfl hb.known (hsame ⟨.refl _, rfl⟩) (Nat.le_refl _)
  | close hempty =>
    exact hb.of_deal rfl hb.known (hsame (Channel.keeps_close hempty)) (Nat.le_refl _)
  | drift now world => exact hb.of_deal rfl hb.known (hsame hstill) (Nat.le_refl _)

/-- Every event keeps the reckoning. -/
theorem turns (hb : b.Reckons k signs) (hd : b.engine.tracker.Distinct) (honce : c.AcceptsOnce k)
    (hturns : Turns setup b sign c) : c.Reckons k (signs ++ sign.toList) := by
  obtain hdeal | ⟨mid, hchain, hgrip⟩ := hturns
  · exact hb.deals honce hdeal
  · exact (hb.handles_chain hd hchain).handles (bides_of_chain hchain hd k.id).2 hgrip

/-- Batches that are taken up once are batches of the published buckets, each once. -/
theorem processed_le (hb : b.Reckons k signs)
    (honce : ((openedOf k.id signs).map Work.scope).Nodup) :
    b.engine.tracker.processed k.id + b.inFlightSize k.id ≤
      (recordsOf (bucketsOf k.id signs)).length := by
  have hid : ∀ w ∈ openedOf k.id signs, w.command.id = k.id := by
    intro w hw
    obtain ⟨sign, -, hsign⟩ := List.mem_filterMap.1 hw
    cases sign with
    | opened v =>
      obtain ⟨hid, hv⟩ := Option.ite_none_right_eq_some.1 hsign
      exact Option.some.inj hv ▸ eq_of_beq hid
    | _ => exact absurd hsign (by simp)
  exact hb.counted.trans (Work.sizes_le hid honce hb.opened)

end Reckons

/-- Whether a batch that is at work for a command would be counted in full if it was reported. -/
def HasRoom (id : CommandId) (b : Bench σ) : Prop :=
  ∀ h ∈ b.hands, ∀ w, h.workFor? id = some w → ∀ p, b.engine.tracker.find? id = some p →
    ∀ now errors, (p.heed now (.recordBatch w.batch.ids.length errors)).processed =
      p.processed + w.batch.ids.length

/-- What was published was counted as scrolled, and leaves room for every batch of it. -/
theorem Reckons.hasRoom {l : ScrollLoop σ} (hb : b.Reckons k signs)
    (hbacked : b.Backed k.id (bucketsOf k.id signs)) (hl : b.loops.filter (·.id == k.id) = [l])
    (honce : ((openedOf k.id signs).map Work.scope).Nodup) : b.HasRoom k.id := by
  intro h hh w hw p hp now errors
  have hbacks := hbacked.backs l hl p hp
  have hcovers := hbacks.covers
  have hfits := hbacks.fits
  have hprocessed : p.processed + b.inFlightSize k.id ≤
      (recordsOf (bucketsOf k.id signs)).length := by
    have hle := hb.processed_le honce
    rwa [Tracker.processed, hp] at hle
  have hsize : w.batch.ids.length ≤ b.inFlightSize k.id := by
    refine Multiset.single_le_sum (fun _ _ => Nat.zero_le _) _ (Multiset.mem_map_of_mem _ ?_)
    exact (Multiset.mem_filterMap _ _).2 ⟨h, hh, hw⟩
  have hword : wordMax + 1 = wordCount := rfl
  simp only [Progress.heed, Progress.recordBatch, Progress.settle_processed]
  omega

end Bench

namespace Workshop

variable {s s₀ : Workshop σ} {moves : List (Move (Workshop σ) (Event σ))}

theorem IsNew.reckons (h : s.IsNew) (k : Command) : s.bench.Reckons k [] := by
  have hmeets := (h.dutiful k.id).meets
  have hloops : s.bench.loops = [] := h.loops
  obtain ⟨hgone, hnone⟩ := hmeets.unseen (by rw [hloops]; rfl)
  have hhands : s.bench.hands = 0 := h.hands_bench
  refine ⟨fun p hp => ?_, fun hand hmem => ?_, fun bucket hbucket => ?_, by simp [openedOf], ?_⟩
  · rw [hgone] at hp
    exact absurd hp (by simp)
  · rw [hhands] at hmem
    exact absurd hmem (Multiset.notMem_zero hand)
  · rw [Bench.there, hnone] at hbucket
    exact absurd hbucket (Multiset.notMem_zero bucket)
  · rw [Tracker.processed, hgone, Bench.inFlightSize, Bench.inFlight, hhands]
    exact Nat.le_refl 0

/-- All that is counted in a run, or at work after it, is part of what was published. -/
theorem IsNew.reckons_of_run (hnew : s₀.IsNew) (hrun : Run (next? setup) s₀ moves s)
    (honce : s.bench.AcceptsOnce k) : s.bench.Reckons k (signs moves) := by
  induction hrun with
  | start => exact hnew.reckons k
  | move event hrun hnext ih =>
    have hsound := sound_of_run hrun hnew.sound
    obtain ⟨new, hcommands, -⟩ := commands_next? hsound hnext
    rw [signs_concat]
    exact (ih (honce.of_commands (hcommands ▸ List.prefix_append _ _))).turns hsound.distinct honce
      (turns_next? hsound.distinct hnext)

end Workshop

end BulkRun
