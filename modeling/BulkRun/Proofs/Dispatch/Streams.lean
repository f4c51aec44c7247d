import BulkRun.Proofs.Dispatch.Homes
import BulkRun.Proofs.Dispatch.ScrollDues
import BulkRun.Proofs.Status.ScrollFailure
/-!
# A scroll in the light of what was heard and published

What a scroll loop has heard from its scroller says what the loop has published, what it holds, and
what the tracker knows of its command (`ScrollLoop.Streams`): the buckets are those that the records
of the chunks are cut into, in order, and the records of no other chunk are counted.  If the last
that was heard is a failure of the scroll, all those buckets are published before the failure is
told.  Every step of a loop keeps this (`Resumes.streams`).
-/

namespace BulkRun

open Tracker (Report Heeds Labours)

variable {σ : Type} {k : Command} {cs : List Chunk} {heard : List (Except Error Chunk)}
  {published buckets : List Bucket} {found : Option Progress}

/-- The records of some chunks. -/
def idsOf (cs : List Chunk) : List String := cs.flatMap (·.ids)

theorem idsOf_concat (cs : List Chunk) (c : Chunk) : idsOf (cs ++ [c]) = idsOf cs ++ c.ids := by
  simp [idsOf]

/-- Whether a gathering is what some chunks lead to, when some buckets were filled. -/
structure Gathering.Streams (k : Command) (cs : List Chunk) (published : List Bucket)
    (g : Gathering) : Prop where
  pushed : Bucketizer.push ⟨k.id, k.bucketSize, 0, []⟩ (idsOf cs) = (published, g.bucketizer)
  scrolled : g.scrolled = (idsOf cs).length

/-- Whether what follows a bucket is what was heard leads to, when some buckets were published. -/
def AfterBucket.Streams (k : Command) (cs : List Chunk) (heard : List (Except Error Chunk))
    (published : List Bucket) : AfterBucket → Prop
  | .goOn full _ g => heard = cs.map .ok ∧ g.Streams k cs (published ++ full)
  | .submit _ _ => heard = cs.map .ok ∧ bucketize k.id (idsOf cs) k.bucketSize = .ok published
  | .fail err => (∃ m, err = .scroll m) ∧ heard = cs.map .ok ++ [.error err] ∧
      bucketize k.id (idsOf cs) k.bucketSize = .ok published

/-- Whether a loop that has not ended stands where what was heard leads it, after some chunks. -/
def ScrollPhase.Streams (k : Command) (cs : List Chunk) (heard : List (Except Error Chunk))
    (published : List Bucket) : ScrollPhase → Prop
  | .created => heard = [] ∧ cs = [] ∧ published = []
  | .opening => heard = [] ∧ cs = [] ∧ published = []
  | .fetching g => heard = cs.map .ok ∧ g.Streams k cs published
  | .publishing b after => after.Streams k cs heard (published ++ [b])
  | .waiting b after => after.Streams k cs heard (published ++ [b])
  | .ended _ => False

/-- Whether a command scrolls and the records of some chunks were counted, and none besides. -/
def Counts (k : Command) (cs : List Chunk) (found : Option Progress) : Prop :=
  ∃ p, found = some p ∧ p.Scrolls k (idsOf cs).length

/-- What was heard and published of a command, and what the tracker knows of it. -/
inductive ScrollLoop.Streams (k : Command) (heard : List (Except Error Chunk))
    (published : List Bucket) (found : Option Progress) (l : ScrollLoop σ) : Prop
  | goesOn {cs : List Chunk} (h : l.phase.Streams k cs heard published) (hfound : Counts k cs found)
  | complete {cs : List Chunk} (hended : l.isEnded = true) (hheard : heard = cs.map .ok)
      (hfound : ∀ p, found = some p → p.command = k)
  | brokeOff {cs : List Chunk} {m : String} (hended : l.isEnded = true)
      (hheard : heard = cs.map .ok ++ [.error (.scroll m)])
      (hbuckets : bucketize k.id (idsOf cs) k.bucketSize = .ok published)
      (hfound : ∀ p, found = some p →
        p.BrokeOff k (idsOf cs).length (Error.message (.scroll m)))

/-! ## Gatherings -/

theorem Gathering.streams_new (k : Command) (cursor : Cursor) :
    Gathering.Streams k [] [] ⟨cursor, ⟨k.id, k.bucketSize, 0, []⟩, 0⟩ :=
  ⟨by simp [Bucketizer.push, idsOf], rfl⟩

/-- A chunk fills more buckets. -/
theorem Gathering.Streams.push {g : Gathering} (h : g.Streams k cs published)
    (hsize : 0 < k.bucketSize) (c : Chunk) (cursor : Cursor) :
    Gathering.Streams k (cs ++ [c]) (published ++ (g.bucketizer.push c.ids).1)
      ⟨cursor, (g.bucketizer.push c.ids).2, g.scrolled + c.ids.length⟩ where
  pushed := by
    have hpush := Bucketizer.push_append (b := ⟨k.id, k.bucketSize, 0, []⟩) hsize (idsOf cs) c.ids
    rw [idsOf_concat, hpush, h.pushed]
  scrolled := by
    rw [idsOf_concat, List.length_append, ← h.scrolled]

/-- What was filled is what the records are cut into, but for the last bucket. -/
theorem Gathering.Streams.bucketize {g : Gathering} (h : g.Streams k cs published)
    (hsize : 0 < k.bucketSize) : BulkRun.bucketize k.id (idsOf cs) k.bucketSize =
      .ok (published ++ g.bucketizer.finish.toList) := by
  rw [Bucketizer.bucketize_of_push hsize, h.pushed]

theorem Gathering.Streams.bucketize_of_nil {g : Gathering} (h : g.Streams k cs published)
    (hsize : 0 < k.bucketSize) (hpending : g.bucketizer.pending = []) :
    BulkRun.bucketize k.id (idsOf cs) k.bucketSize = .ok published := by
  rw [h.bucketize hsize, ScrollLoop.finish_none_iff.2 hpending]
  simp

theorem Gathering.Streams.bucketize_of_pending {g : Gathering} (h : g.Streams k cs published)
    (hsize : 0 < k.bucketSize) (hpending : g.bucketizer.pending ≠ []) :
    BulkRun.bucketize k.id (idsOf cs) k.bucketSize =
      .ok (published ++ [g.bucketizer.pendingBucket]) := by
  obtain ⟨hnil, -⟩ | hfinish := g.bucketizer.finish_cases
  · exact absurd hnil hpending
  · rw [h.bucketize hsize, hfinish]
    rfl

/-! ### What was published -/

theorem Gathering.Streams.isPrefix {g : Gathering} (h : g.Streams k cs published)
    (hsize : 0 < k.bucketSize)
    (hbuckets : BulkRun.bucketize k.id (idsOf cs) k.bucketSize = .ok buckets) :
    published <+: buckets := by
  rw [Except.ok.inj (hbuckets.symm.trans (h.bucketize hsize))]
  exact List.prefix_append _ _

theorem AfterBucket.Streams.isPrefix {after : AfterBucket} (h : after.Streams k cs heard published)
    (hsize : 0 < k.bucketSize) (hbuckets : bucketize k.id (idsOf cs) k.bucketSize = .ok buckets) :
    published <+: buckets := by
  cases after with
  | goOn full exhausted g => exact (List.prefix_append _ _).trans (h.2.isPrefix hsize hbuckets)
  | submit scrolled emitted => rw [Except.ok.inj (hbuckets.symm.trans h.2)]
  | fail err => rw [Except.ok.inj (hbuckets.symm.trans h.2.2)]

/-- The buckets that were published are the first of those that the records are cut into. -/
theorem ScrollPhase.Streams.isPrefix {phase : ScrollPhase}
    (h : phase.Streams k cs heard published) (hsize : 0 < k.bucketSize)
    (hbuckets : bucketize k.id (idsOf cs) k.bucketSize = .ok buckets) : published <+: buckets := by
  cases phase with
  | created | opening =>
    rw [h.2.2]
    exact List.nil_prefix
  | fetching => exact h.2.isPrefix hsize hbuckets
  | publishing | waiting =>
    exact (List.prefix_append _ _).trans (AfterBucket.Streams.isPrefix h hsize hbuckets)
  | ended => exact h.elim

/-! ## Numbers -/

theorem sequence_bucketize {id : CommandId} {ids : List String} {size : Nat}
    (h : bucketize id ids size = .ok published) :
    published.map (·.sequence) = List.range published.length := by
  unfold bucketize at h
  split at h
  · exact absurd h (by simp)
  · rw [← Except.ok.inj h]
    apply List.ext_getElem (by simp)
    intro n hn hn'
    simp

theorem nodup_of_bucketize {id : CommandId} {ids : List String} {size : Nat}
    (h : bucketize id ids size = .ok published) : (published.map (·.sequence)).Nodup := by
  rw [sequence_bucketize h]
  exact List.nodup_range

/-- No two buckets have the same number, of those that were published and of the next one. -/
theorem AfterBucket.Streams.nodup {after : AfterBucket} (h : after.Streams k cs heard published) :
    (published.map (·.sequence)).Nodup := by
  cases after with
  | goOn full exhausted g =>
    have hnumbers := Bucketizer.sequence_push ⟨k.id, k.bucketSize, 0, []⟩ (idsOf cs)
    rw [h.2.pushed] at hnumbers
    have hall : ((published ++ full).map (·.sequence)).Nodup := by
      rw [hnumbers]
      exact List.nodup_range'
    rw [List.map_append] at hall
    exact hall.of_append_left
  | submit scrolled buckets => exact nodup_of_bucketize h.2
  | fail err => exact nodup_of_bucketize h.2.2

/-! ## What was counted -/

theorem Counts.ne_none (h : Counts k cs found) : found ≠ none := by
  obtain ⟨p, hp, -⟩ := h
  rw [hp]
  exact Option.some_ne_none p

theorem Counts.command (h : Counts k cs found) {p : Progress} (hp : found = some p) :
    p.command = k := by
  obtain ⟨q, hq, hscrolls⟩ := h
  obtain rfl := Option.some.inj (hp.symm.trans hq)
  exact hscrolls.command

theorem Counts.begin {t u : Tracker} {now : Timestamp} {id : CommandId} {p : Progress}
    (h : Counts k cs (t.find? id)) (ht : Heeds t now id .startScrolling p u) :
    Counts k cs (u.find? id) := by
  obtain ⟨q, hq, hscrolls⟩ := h
  obtain rfl := Option.some.inj (hq.symm.trans ht.before)
  exact ⟨_, ht.find?_self, hscrolls.startScrolling now⟩

theorem Counts.chunk {t u : Tracker} {now : Timestamp} {id : CommandId} {p : Progress} {c : Chunk}
    (h : Counts k cs (t.find? id)) (ht : Heeds t now id (.addScrolled c.ids.length) p u)
    (hfits : (idsOf cs).length + c.ids.length < wordCount) :
    Counts k (cs ++ [c]) (u.find? id) := by
  obtain ⟨q, hq, hscrolls⟩ := h
  obtain rfl := Option.some.inj (hq.symm.trans ht.before)
  refine ⟨_, ht.find?_self, ?_⟩
  rw [idsOf_concat, List.length_append]
  exact hscrolls.addScrolled hfits now

theorem Counts.goesOn (h : Counts k cs found) :
    ∃ p, found = some p ∧ p.state.isTerminal = false := by
  obtain ⟨p, hp, hscrolls⟩ := h
  exact ⟨p, hp, hscrolls.goesOn⟩

theorem Counts.not_aborted {t : Tracker} {id : CommandId} (h : Counts k cs (t.find? id)) :
    t.isAborted id = false := by
  obtain ⟨p, hp, hopen⟩ := h.goesOn
  refine Bool.eq_false_iff.2 fun haborted => ?_
  obtain ⟨q, hq, hstate⟩ := Tracker.isAborted_iff.1 haborted
  obtain rfl := Option.some.inj (hp.symm.trans hq)
  rw [hstate] at hopen
  exact absurd hopen (by decide)

/-! ## Receivers -/

namespace Channel

variable {c : Channel} {b : Bucket}

/-- Whether the partition of a command has a receiver. -/
def Receives (c : Channel) (id : CommandId) : Prop :=
  ∃ p, c.partitions[c.partitionFor id]? = some p ∧ p.isOpen = true

instance (c : Channel) (id : CommandId) : Decidable (c.Receives id) :=
  decidable_of_iff (c.partitions[c.partitionFor id]?.any (·.isOpen) = true) (Option.any_eq_true _ _)

theorem IsOpen.receives (h : c.IsOpen) (id : CommandId) : c.Receives id := by
  have hlt : c.partitionFor id < c.partitions.length := Nat.mod_lt _ h.positive
  exact ⟨_, List.getElem?_eq_getElem hlt, h.partitions _ (List.getElem_mem hlt)⟩

/-- Where there is a receiver, no bucket is refused. -/
theorem Receives.not_refused (h : c.Receives b.commandId) {who : PublisherKey} {err : Error} :
    ¬(c.offer b = .error err ∨ c.claim who b = .error err) := by
  obtain ⟨p, hp, hopen⟩ := h
  rintro (hoffer | hclaim)
  · unfold offer at hoffer
    simp only [hp, hopen, Bool.not_true, Bool.false_eq_true, if_false] at hoffer
    split at hoffer <;> simp at hoffer
  · unfold claim at hclaim
    simp [hp, hopen] at hclaim

end Channel

namespace ScrollLoop

variable {l : ScrollLoop σ} {t u : Tracker} {id : CommandId}

/-- The tracker knows the command. -/
theorem Streams.known (h : l.Streams k heard published found) {p : Progress} (hp : found = some p) :
    p.command = k := by
  cases h with
  | goesOn _ hfound => exact hfound.command hp
  | complete _ _ hfound => exact hfound p hp
  | brokeOff _ _ _ hfound => exact (hfound p hp).command

/-- A loop that has not ended goes on with its stream. -/
theorem Streams.of_running (h : l.Streams k heard published found) (hrun : l.isEnded = false) :
    ∃ cs, l.phase.Streams k cs heard published ∧ Counts k cs found := by
  cases h with
  | goesOn h hfound => exact ⟨_, h, hfound⟩
  | complete hended => exact absurd (hrun.symm.trans hended) Bool.false_ne_true
  | brokeOff hended => exact absurd (hrun.symm.trans hended) Bool.false_ne_true

/-- Nothing but work befalls the command. -/
theorem Streams.labour (h : l.Streams k heard published (t.find? id)) (hlabours : Labours id t u) :
    l.Streams k heard published (u.find? id) := by
  cases h with
  | goesOn h hfound => exact .goesOn h (hlabours.scrolls hfound)
  | complete hended hheard hfound =>
    refine .complete hended hheard fun q hq => ?_
    obtain ⟨p, reports, hp, rfl, -⟩ := hlabours.found q hq
    rw [p.heedAll_command]
    exact hfound p hp
  | brokeOff hended hheard hbuckets hfound =>
    exact .brokeOff hended hheard hbuckets (hlabours.brokeOff hfound)

/-! ## Steps -/

variable {e : Engine σ} {r : ScrollLoop σ × Engine σ} {report : Report} {how : ScrollEnd}
  {after : AfterBucket}

/-- A loop that returns has ended, and told so to its command if that is there. -/
theorem Returns.told_of_counts (h : Returns l e report how r)
    (hfound : Counts k cs (e.tracker.find? l.id)) :
    r.1.isEnded = true ∧ ∃ p : Progress, p.Scrolls k (idsOf cs).length ∧
      r.2.tracker.find? l.id = some (p.heed e.now report) := by
  cases h with
  | gone err hgone => exact absurd hgone hfound.ne_none
  | told ht =>
    obtain ⟨q, hq, hscrolls⟩ := hfound
    obtain rfl := Option.some.inj (hq.symm.trans ht.before)
    exact ⟨rfl, q, hscrolls, ht.find?_self⟩

/-- The scroll comes to its end. -/
theorem Returns.streams_over (h : Returns l e .markSubmitted how r)
    (hheard : heard = cs.map .ok) (hfound : Counts k cs (e.tracker.find? l.id)) :
    r.1.Streams k heard published (r.2.tracker.find? l.id) := by
  obtain ⟨hended, p, hscrolls, hp⟩ := h.told_of_counts hfound
  refine .complete hended hheard fun q hq => ?_
  obtain rfl := Option.some.inj (hp.symm.trans hq)
  rw [p.heed_command]
  exact hscrolls.command

/-- The scroll breaks off. -/
theorem Returns.streams_brokeOff {m : String}
    (h : Returns l e (lastWord (.scroll m)) how r)
    (hheard : heard = cs.map .ok ++ [.error (.scroll m)])
    (hbuckets : bucketize k.id (idsOf cs) k.bucketSize = .ok published)
    (hfound : Counts k cs (e.tracker.find? l.id)) :
    r.1.Streams k heard published (r.2.tracker.find? l.id) := by
  obtain ⟨hended, p, hscrolls, hp⟩ := h.told_of_counts hfound
  refine .brokeOff hended hheard hbuckets fun q hq => ?_
  obtain rfl := Option.some.inj (hp.symm.trans hq)
  exact hscrolls.failScroll e.now _

theorem GoesOn.streams (h : GoesOn l e after r) (hsize : 0 < k.bucketSize)
    (hafter : after.Streams k cs heard published) (hfound : Counts k cs (e.tracker.find? l.id)) :
    r.1.Streams k heard published (r.2.tracker.find? l.id) := by
  cases h with
  | publish _ =>
    refine .goesOn ⟨hafter.1, ?_⟩ hfound
    rw [List.append_assoc]
    exact hafter.2
  | fetch _ =>
    refine .goesOn ⟨hafter.1, ?_⟩ hfound
    rw [← List.append_nil published]
    exact hafter.2
  | stop haborted => exact absurd haborted (by simp [hfound.not_aborted])
  | flush hpending =>
    obtain ⟨hheard, hgathers⟩ := hafter
    rw [List.append_nil] at hgathers
    exact .goesOn ⟨hheard, hgathers.bucketize_of_pending hsize hpending⟩ hfound
  | exhaust _ h => exact h.streams_over hafter.1 hfound
  | submit h => exact h.streams_over hafter.1 hfound
  | fail h =>
    obtain ⟨⟨m, rfl⟩, hheard, hbuckets⟩ := hafter
    exact h.streams_brokeOff hheard hbuckets hfound

/-- What a loop with a bucket to publish streams. -/
theorem streams_of_offered? {b : Bucket} (hoffered : l.phase.offered? = some (b, after))
    (h : l.phase.Streams k cs heard published) : after.Streams k cs heard (published ++ [b]) := by
  rcases ScrollPhase.cases_of_offered? hoffered with hphase | hphase
  · rw [hphase] at h
    exact h
  · rw [hphase] at h
    exact h

theorem streams_of_fetching {g : Gathering} (hphase : l.phase = .fetching g)
    (h : l.phase.Streams k cs heard published) : heard = cs.map .ok ∧ g.Streams k cs published := by
  rw [hphase] at h
  exact h

/-- A loop that has not begun to fetch has heard nothing and published nothing. -/
theorem streams_of_opening (hphase : l.phase = .opening)
    (h : l.phase.Streams k cs heard published) : heard = [] ∧ cs = [] ∧ published = [] := by
  rw [hphase] at h
  exact h

/-- Every step of a loop adds to what was heard and published, and stands where that leads it. -/
theorem Resumes.streams (h : Resumes l e r) (hopen : e.channel.IsOpen)
    (hsize : 0 < l.command.bucketSize)
    -- no error is heard but a failure of the scroll
    (hfair : ∀ err, l.answer? e = some (.error err) → ∃ m, err = .scroll m)
    (hfits : r.1.phase.scrolled < wordCount)
    (hphases : l.phase.Streams l.command cs heard published)
    (hfound : Counts l.command cs (e.tracker.find? l.id)) :
    r.1.Streams l.command (heard ++ (l.answer? e).toList) (published ++ (l.publishes? e).toList)
      (r.2.tracker.find? l.id) := by
  cases h with
  | begin hphase ht =>
    rw [(quiet_of_created hphase).1, (quiet_of_created hphase).2, Option.toList_none,
      Option.toList_none, List.append_nil, List.append_nil]
    rw [hphase] at hphases
    exact .goesOn hphases (hfound.begin ht)
  | gone err world hgone => exact absurd hgone hfound.ne_none
  | collapse world hphase hanswer =>
    have hheard : heard = cs.map .ok := by
      obtain hphase | ⟨g, hphase⟩ := hphase
      · obtain ⟨rfl, rfl, -⟩ := streams_of_opening hphase hphases
        rfl
      · exact (streams_of_fetching hphase hphases).1
    rw [hanswer, Option.toList_none, List.append_nil]
    exact .complete rfl hheard fun p hp => hfound.command hp
  | @refuse err r world hphase hanswer h =>
    obtain ⟨rfl, rfl, rfl⟩ := streams_of_opening hphase hphases
    obtain hanswer | ⟨-, hzero⟩ := hanswer
    · obtain ⟨m, rfl⟩ := hfair err hanswer
      rw [hanswer, publishes?_of_offered? (by rw [hphase]; rfl)]
      have hheard : [Except.error (Error.scroll m)] =
          ([] : List Chunk).map .ok ++ [.error (.scroll m)] := rfl
      refine h.streams_brokeOff hheard ?_ hfound
      simp [bucketize, Nat.pos_iff_ne_zero.1 hsize, idsOf]
    · omega
  | @openUp cursor r world hphase hanswer _ h =>
    obtain ⟨rfl, rfl, rfl⟩ := streams_of_opening hphase hphases
    rw [hanswer, publishes?_of_offered? (by rw [hphase]; rfl)]
    have hgathers := Gathering.streams_new l.command cursor
    exact h.streams hsize ⟨rfl, hgathers⟩ hfound
  | @chunk g cursor c p t r world hphase hanswer ht h =>
    obtain ⟨hheard, hgathers⟩ := streams_of_fetching hphase hphases
    rw [hanswer, publishes?_of_offered? (by rw [hphase]; rfl), Option.toList_none, List.append_nil]
    have hafter : AfterBucket.Streams l.command (cs ++ [c]) (heard ++ [.ok c]) published
        (.goOn (g.bucketizer.push c.ids).1 c.exhausted
          ⟨cursor, (g.bucketizer.push c.ids).2, g.scrolled + c.ids.length⟩) := by
      refine ⟨?_, hgathers.push hsize c cursor⟩
      rw [hheard, List.map_append]
      rfl
    rw [h.scrolled ht.find?_self, hgathers.scrolled] at hfits
    exact h.streams hsize hafter (hfound.chunk ht hfits)
  | @breakOff g err world hphase hanswer hpending =>
    obtain ⟨hheard, hgathers⟩ := streams_of_fetching hphase hphases
    rw [hanswer, publishes?_of_offered? (by rw [hphase]; rfl), Option.toList_none, List.append_nil]
    have hafter : AfterBucket.Streams l.command cs (heard ++ [.error err])
        (published ++ [g.bucketizer.pendingBucket]) (.fail err) :=
      ⟨hfair err hanswer, by rw [hheard], hgathers.bucketize_of_pending hsize hpending⟩
    exact .goesOn hafter hfound
  | @breakEmpty g err r world hphase hanswer hpending h =>
    obtain ⟨hheard, hgathers⟩ := streams_of_fetching hphase hphases
    obtain ⟨m, rfl⟩ := hfair err hanswer
    rw [hanswer, publishes?_of_offered? (by rw [hphase]; rfl), Option.toList_none, List.append_nil]
    have hlast : heard ++ [.error (.scroll m)] = cs.map .ok ++ [.error (.scroll m)] := by
      rw [hheard]
    exact h.streams_brokeOff hlast (hgathers.bucketize_of_nil hsize hpending) hfound
  | closed _ hclosed _ => exact absurd hclosed (hopen.receives _).not_refused
  | enlist hphase hfull =>
    rw [(quiet_of_full hphase hfull).1, (quiet_of_full hphase hfull).2, Option.toList_none,
      Option.toList_none, List.append_nil, List.append_nil]
    rw [hphase] at hphases
    exact .goesOn hphases hfound
  | wait hphase hfull =>
    rw [(quiet_of_kept hphase hfull).1, (quiet_of_kept hphase hfull).2, Option.toList_none,
      Option.toList_none, List.append_nil, List.append_nil]
    exact .goesOn hphases hfound
  | published hoffered hpublishes _ h =>
    rw [answer?_of_offered? hoffered, hpublishes, Option.toList_none, List.append_nil]
    exact h.streams hsize (streams_of_offered? hoffered hphases) hfound

end ScrollLoop

end BulkRun
