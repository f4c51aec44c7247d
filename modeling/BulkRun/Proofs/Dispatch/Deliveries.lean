import BulkRun.Proofs.Dispatch.ReportsInFull
/-!
# A scroll that is left in peace delivers all that was found

A loop whose scroller answers with chunks only, whose command goes on and whose partition has a
receiver publishes the buckets that the records of the chunks are cut into, however the chunks come
(`ScrollLoop.Delivers`).  It ends with the last of these, as submitted, or it collapses, for want of
room.  Where it stands shows in its phase, and each step of a loop but a wait that is in vain brings
it further (`Resumes.rank_le`).
-/

namespace BulkRun

open Tracker (Report Heeds Bides)

variable {σ : Type} {id : CommandId} {k : Command} {cs : List Chunk} {published : List Bucket}
  {found : Option Progress}

/-! ## What is found and delivered -/

/-- Whether the last of some chunks ends the scroll. -/
def endsScroll (cs : List Chunk) : Bool := cs.getLast?.any (·.exhausted)

@[simp]
theorem endsScroll_nil : endsScroll [] = false := rfl

@[simp]
theorem endsScroll_concat (cs : List Chunk) (c : Chunk) : endsScroll (cs ++ [c]) = c.exhausted := by
  rw [endsScroll, List.getLast?_concat]
  rfl

/-- What was filled is numbered as it was published. -/
theorem Gathering.Streams.emitted {g : Gathering} (h : g.Streams k cs published) :
    g.bucketizer.emitted = published.length := by
  have hemitted := Bucketizer.emitted_push ⟨k.id, k.bucketSize, 0, []⟩ (idsOf cs)
  rw [h.pushed] at hemitted
  simpa using hemitted

/-- Whether what follows a bucket is what some chunks lead to, when some buckets were published. -/
def AfterBucket.Delivers (k : Command) (cs : List Chunk) (published : List Bucket) :
    AfterBucket → Prop
  | .goOn full exhausted g => exhausted = endsScroll cs ∧ g.Streams k cs (published ++ full)
  | .submit scrolled buckets => endsScroll cs = true ∧ scrolled = (idsOf cs).length ∧
      buckets = published.length ∧ bucketize k.id (idsOf cs) k.bucketSize = .ok published
  | .fail _ => False

/-- Whether a loop that has not ended stands where some chunks lead it. -/
def ScrollPhase.Delivers (k : Command) (cs : List Chunk) (published : List Bucket) :
    ScrollPhase → Prop
  | .created => cs = [] ∧ published = []
  | .opening => cs = [] ∧ published = []
  | .fetching g => endsScroll cs = false ∧ g.Streams k cs published
  | .publishing b after => after.Delivers k cs (published ++ [b])
  | .waiting b after => after.Delivers k cs (published ++ [b])
  | .ended _ => False

theorem AfterBucket.Delivers.streams {after : AfterBucket} (h : after.Delivers k cs published) :
    after.Streams k cs (cs.map .ok) published := by
  cases after with
  | goOn => exact ⟨rfl, h.2⟩
  | submit => exact ⟨rfl, h.2.2.2⟩
  | fail => exact h.elim

theorem ScrollPhase.Delivers.streams {phase : ScrollPhase} (h : phase.Delivers k cs published) :
    phase.Streams k cs (cs.map .ok) published := by
  cases phase with
  | created | opening =>
    obtain ⟨rfl, rfl⟩ := h
    exact ⟨rfl, rfl, rfl⟩
  | fetching => exact ⟨rfl, h.2⟩
  | publishing | waiting => exact AfterBucket.Delivers.streams h
  | ended => exact h.elim

/-- Whether a loop has a cursor. -/
def ScrollPhase.hasCursor : ScrollPhase → Bool
  | .created => false
  | .opening => false
  | _ => true

/-- How far a loop has come since it got its last chunk or published its last bucket. -/
def ScrollPhase.rank : ScrollPhase → Nat
  | .created => 0
  | .opening => 1
  | .fetching _ => 2
  | .publishing _ _ => 2
  | .waiting _ _ => 3
  | .ended _ => 4

namespace ScrollLoop

/-- Whether a loop wants more room than can be set aside, for a bucket or for a chunk. -/
def WantsRoom (l : ScrollLoop σ) : Prop :=
  maxReserved < l.command.bucketSize ∨
    ∃ cursor, maxReserved < l.scroller.reserved cursor l.fetchSize

/-- How a scroll stands when some chunks were found and some buckets published. -/
inductive Delivers (cs : List Chunk) (published : List Bucket) (found : Option Progress)
    (l : ScrollLoop σ) : Prop
  | goesOn (h : l.phase.Delivers l.command cs published)
      (hroom : l.phase.hasCursor = true → l.command.bucketSize ≤ maxReserved)
      (hfound : Counts l.command cs found)
  | submitted (h : l.phase = .ended (.submitted (idsOf cs).length published.length))
      (hends : endsScroll cs = true) (hroom : l.command.bucketSize ≤ maxReserved)
      (hbuckets : bucketize l.id (idsOf cs) l.command.bucketSize = .ok published)
      (hfound : ∀ p, found = some p → p.submitted = true ∧ p.scrollCount = (idsOf cs).length)
  | collapsed (h : l.phase = .ended .collapsed) (hends : endsScroll cs = false)
      (hwants : l.WantsRoom) {g : Gathering} (hbuckets : g.Streams l.command cs published)
      (hfound : ∀ p, found = some p → p.submitted = false ∧ p.scrollCount = (idsOf cs).length)

end ScrollLoop

/-! ## What others do -/

/-- Whether a command is there and not aborted. -/
def Tracker.GoesOn (t : Tracker) (id : CommandId) : Prop :=
  ∃ p, t.find? id = some p ∧ p.state ≠ .aborted

instance (t : Tracker) (id : CommandId) : Decidable (t.GoesOn id) :=
  decidable_of_iff ((t.find? id).any (fun p => decide (p.state ≠ .aborted)) = true)
    ((Option.any_eq_true _ _).trans
      (exists_congr fun _ => and_congr_right fun _ => decide_eq_true_iff))

theorem Counts.submitted (h : Counts k cs found) {p : Progress} (hp : found = some p) :
    p.submitted = false ∧ p.scrollCount = (idsOf cs).length := by
  obtain ⟨q, hq, hscrolls⟩ := h
  obtain rfl := Option.some.inj (hp.symm.trans hq)
  have hon := hscrolls.isOn
  rw [Progress.scrollIsOver, Bool.or_eq_false_iff] at hon
  exact ⟨hon.1, hscrolls.count⟩

/-- Whoever is not the loop leaves a scroll alone, as long as the command is there and goes on. -/
theorem ScrollLoop.Delivers.bide {l : ScrollLoop σ} {t u : Tracker}
    (h : l.Delivers cs published (t.find? id)) (hbides : Bides id t u)
    (hpeace : l.isEnded = false → u.GoesOn id) :
    l.Delivers cs published (u.find? id) := by
  cases h with
  | goesOn h hroom hfound =>
    refine .goesOn h hroom ?_
    obtain ⟨q, hq, hstate⟩ := hpeace (isEnded_of_streams h.streams)
    obtain ⟨p, reports, hp, rfl, hreports⟩ := hbides q hq
    obtain ⟨o, ho, hscrolls⟩ := hfound
    obtain rfl := Option.some.inj (hp.symm.trans ho)
    exact ⟨_, hq, (hscrolls.heedAll_aside hreports).resolve_right hstate⟩
  | submitted h hends hroom hbuckets hfound =>
    refine .submitted h hends hroom hbuckets fun q hq => ?_
    obtain ⟨p, hp, hcount, hsubmitted⟩ := hbides.exists_before hq
    rw [hcount, hsubmitted]
    exact hfound p hp
  | collapsed h hends hwants hbuckets hfound =>
    refine .collapsed h hends hwants hbuckets fun q hq => ?_
    obtain ⟨p, hp, hcount, hsubmitted⟩ := hbides.exists_before hq
    rw [hcount, hsubmitted]
    exact hfound p hp

namespace ScrollLoop

/-! ## Steps -/

variable {l : ScrollLoop σ} {e : Engine σ} {r : ScrollLoop σ × Engine σ} {how : ScrollEnd}
  {after : AfterBucket}

/-- A loop that fails does not collapse. -/
theorem phase_fail (l : ScrollLoop σ) (err : Error) (e : Engine σ) :
    ∃ err', (l.fail err e).1.phase = .ended (.failed err') := by
  rw [fail_eq]
  split
  · exact ⟨err, rfl⟩
  · exact ⟨err, rfl⟩

/-- A loop gets a cursor if there is room for a bucket, and collapses otherwise. -/
theorem room_of_opening (hphase : l.phase = .opening) :
    ((l.resume e).1.isEnded = false → l.command.bucketSize ≤ maxReserved) ∧
      ((l.resume e).1.phase = .ended .collapsed → maxReserved < l.command.bucketSize) := by
  have hfail {err : Error} {f : Engine σ} {P Q : Prop} :
      ((l.fail err f).1.isEnded = false → P) ∧
        ((l.fail err f).1.phase = .ended .collapsed → Q) := by
    obtain ⟨err', h⟩ := l.phase_fail err f
    simp [isEnded, h]
  rw [resume_opening hphase]
  generalize (l.scroller.start l.command e.world).1 = opened
  cases opened with
  | error err => exact hfail
  | ok cursor =>
    generalize { e with world := (l.scroller.start l.command e.world).2 } = f
    obtain ⟨-, err, h⟩ | ⟨hroom, h⟩ | ⟨-, hroom, h⟩ := takeCursor_cases l cursor f
    · rw [h]
      exact hfail
    · rw [h]
      exact ⟨fun hrun => absurd hrun (by simp [collapse, finish, isEnded]), fun _ => hroom⟩
    · rw [h]
      refine ⟨fun _ => hroom, fun hcollapsed => ?_⟩
      unfold fetch at hcollapsed
      split at hcollapsed
      · exact absurd hcollapsed (by simp [stop, finish])
      · exact absurd hcollapsed (by simp)

/-- A loop that asks for a chunk collapses when there is no room for it. -/
theorem wantsRoom_of_fetching {g : Gathering} (hphase : l.phase = .fetching g)
    (hanswer : l.answer? e = none) : l.WantsRoom := by
  unfold answer? at hanswer
  rw [hphase] at hanswer
  simp only at hanswer
  split at hanswer
  · rename_i hroom
    exact .inr ⟨g.cursor, hroom⟩
  · exact absurd hanswer (by simp)

theorem delivers_of_offered? {b : Bucket} (hoffered : l.phase.offered? = some (b, after))
    (h : l.phase.Delivers k cs published) :
    after.Delivers k cs (published ++ [b]) ∧ l.phase.hasCursor = true := by
  rcases ScrollPhase.cases_of_offered? hoffered with hphase | hphase
  · rw [hphase] at h ⊢
    exact ⟨h, rfl⟩
  · rw [hphase] at h ⊢
    exact ⟨h, rfl⟩

theorem Returns.delivers
    (h : Returns l e .markSubmitted (.submitted (idsOf cs).length published.length) r)
    (hends : endsScroll cs = true) (hroom : l.command.bucketSize ≤ maxReserved)
    (hbuckets : bucketize l.id (idsOf cs) l.command.bucketSize = .ok published)
    (hfound : Counts l.command cs (e.tracker.find? l.id)) :
    r.1.Delivers cs published (r.2.tracker.find? l.id) := by
  cases h with
  | gone err hgone => exact absurd hgone hfound.ne_none
  | @told p t ht =>
    obtain ⟨q, hq, hscrolls⟩ := hfound
    obtain rfl := Option.some.inj (hq.symm.trans ht.before)
    refine .submitted rfl hends hroom hbuckets fun p hp => ?_
    obtain rfl := Option.some.inj (ht.find?_self.symm.trans hp)
    simp [Progress.heed, Progress.markSubmitted, hscrolls.count]

theorem GoesOn.delivers (h : GoesOn l e after r) (hsize : 0 < l.command.bucketSize)
    (hroom : l.command.bucketSize ≤ maxReserved)
    (hafter : after.Delivers l.command cs published)
    (hfound : Counts l.command cs (e.tracker.find? l.id)) :
    r.1.Delivers cs published (r.2.tracker.find? l.id) := by
  cases h with
  | publish _ =>
    refine .goesOn ⟨hafter.1, ?_⟩ (fun _ => hroom) hfound
    rw [List.append_assoc]
    exact hafter.2
  | fetch _ =>
    refine .goesOn ⟨hafter.1.symm, ?_⟩ (fun _ => hroom) hfound
    rw [← List.append_nil published]
    exact hafter.2
  | stop haborted => exact absurd haborted (by simp [hfound.not_aborted])
  | flush hpending =>
    obtain ⟨hends, hgathers⟩ := hafter
    rw [List.append_nil] at hgathers
    refine .goesOn ⟨hends.symm, hgathers.scrolled, ?_, hgathers.bucketize_of_pending hsize hpending⟩
      (fun _ => hroom) hfound
    rw [hgathers.emitted, List.length_append, List.length_singleton]
  | exhaust hpending h =>
    obtain ⟨hends, hgathers⟩ := hafter
    rw [List.append_nil] at hgathers
    rw [hgathers.scrolled, hgathers.emitted] at h
    exact h.delivers hends.symm hroom (hgathers.bucketize_of_nil hsize hpending) hfound
  | submit h =>
    obtain ⟨hends, rfl, rfl, hbuckets⟩ := hafter
    exact h.delivers hends hroom hbuckets hfound
  | fail => exact hafter.elim

/-- Every step of a loop that is left in peace adds to what was found and published, and stands
where that leads it. -/
theorem Resumes.delivers (h : Resumes l e r) (hsize : 0 < l.command.bucketSize)
    (howned : l.phase.Owned l.id) (hreceives : e.channel.Receives l.id)
    (hok : ∀ err, l.answer? e ≠ some (.error err)) (hfits : r.1.phase.scrolled < wordCount)
    (hopening : l.phase = .opening → (r.1.isEnded = false → l.command.bucketSize ≤ maxReserved) ∧
      (r.1.phase = .ended .collapsed → maxReserved < l.command.bucketSize))
    (hphases : l.phase.Delivers l.command cs published)
    (hroom : l.phase.hasCursor = true → l.command.bucketSize ≤ maxReserved)
    (hfound : Counts l.command cs (e.tracker.find? l.id)) :
    r.1.Delivers (cs ++ chunksIn (l.answer? e).toList) (published ++ (l.publishes? e).toList)
      (r.2.tracker.find? l.id) := by
  have hquiet {cs' : List Chunk} {published' : List Bucket}
      (hquiet : l.answer? e = none ∧ l.publishes? e = none)
      (h : r.1.Delivers cs' published' (r.2.tracker.find? l.id)) :
      r.1.Delivers (cs' ++ chunksIn (l.answer? e).toList)
        (published' ++ (l.publishes? e).toList) (r.2.tracker.find? l.id) := by
    rw [hquiet.1, hquiet.2]
    simpa [chunksIn] using h
  cases h with
  | begin hphase ht =>
    rw [hphase] at hphases
    refine hquiet (quiet_of_created hphase) ?_
    exact .goesOn hphases (by simp [ScrollPhase.hasCursor]) (hfound.begin ht)
  | gone err world hgone => exact absurd hgone hfound.ne_none
  | collapse world hphase hanswer =>
    have hcounted : ∀ p, e.tracker.find? l.id = some p →
        p.submitted = false ∧ p.scrollCount = (idsOf cs).length := fun p hp => hfound.submitted hp
    refine hquiet ⟨hanswer, publishes?_of_offered? (offered?_of_scrolling hphase)⟩ ?_
    obtain hphase | ⟨g, hphase⟩ := hphase
    · rw [hphase] at hphases
      obtain ⟨rfl, rfl⟩ := hphases
      exact .collapsed rfl rfl (.inl ((hopening hphase).2 rfl))
        (Gathering.streams_new l.command (.new l.command)) hcounted
    · have hwants := wantsRoom_of_fetching hphase hanswer
      rw [hphase] at hphases
      exact .collapsed rfl hphases.1 hwants hphases.2 hcounted
  | refuse world hphase hanswer h =>
    obtain hanswer | ⟨-, hzero⟩ := hanswer
    · exact absurd hanswer (hok _)
    · omega
  | @openUp cursor r world hphase hanswer _ h =>
    have hopens := (hopening hphase).1
    rw [hphase] at hphases
    obtain ⟨rfl, rfl⟩ := hphases
    have hrun : r.1.isEnded = false := by
      cases h with
      | fetch => rfl
      | stop haborted => exact absurd haborted (by simp [hfound.not_aborted])
    refine hquiet ⟨hanswer, publishes?_of_offered? (by rw [hphase]; rfl)⟩ ?_
    exact h.delivers hsize (hopens hrun) ⟨rfl, Gathering.streams_new l.command cursor⟩ hfound
  | @chunk g cursor c p t r world hphase hanswer ht h =>
    have hcursor := hroom (by rw [hphase]; rfl)
    rw [hphase] at hphases
    obtain ⟨hends, hgathers⟩ := hphases
    rw [hanswer, publishes?_of_offered? (by rw [hphase]; rfl), Option.toList_none, List.append_nil]
    show r.1.Delivers (cs ++ [c]) published _
    rw [h.scrolled ht.find?_self, hgathers.scrolled] at hfits
    exact h.delivers hsize hcursor ⟨(endsScroll_concat cs c).symm, hgathers.push hsize c cursor⟩
      (hfound.chunk ht hfits)
  | breakOff world hphase hanswer => exact absurd hanswer (hok _)
  | breakEmpty world hphase hanswer => exact absurd hanswer (hok _)
  | closed hoffered hclosed _ =>
    rw [← commandId_of_offered? howned hoffered] at hreceives
    exact absurd hclosed hreceives.not_refused
  | enlist hphase hfull =>
    have hcursor := hroom (by rw [hphase]; rfl)
    refine hquiet (quiet_of_full hphase hfull) ?_
    rw [hphase] at hphases
    exact .goesOn hphases (fun _ => hcursor) hfound
  | wait hphase hfull =>
    exact hquiet (quiet_of_kept hphase hfull) (.goesOn hphases hroom hfound)
  | published hoffered hpublishes _ h =>
    obtain ⟨hafter, hcursor⟩ := delivers_of_offered? hoffered hphases
    rw [answer?_of_offered? hoffered, hpublishes, Option.toList_none]
    have hnone : cs ++ chunksIn [] = cs := List.append_nil cs
    rw [hnone]
    exact h.delivers hsize (hroom hcursor) hafter hfound

/-! ## How far a loop has come -/

/-- A loop that has told how its scroll ended has come to its end. -/
theorem Returns.rank_eq {report : Report} (h : Returns l e report how r) : r.1.phase.rank = 4 := by
  cases h <;> rfl

theorem GoesOn.rank_ge (h : GoesOn l e after r) : 2 ≤ r.1.phase.rank := by
  cases h with
  | publish | fetch | flush => exact Nat.le_refl 2
  | stop => exact Nat.le_of_ble_eq_true rfl
  | exhaust _ h | submit h | fail h =>
    rw [h.rank_eq]
    exact Nat.le_of_ble_eq_true rfl

/-- Every step of a loop that is not blocked brings it further, unless it gets a chunk or publishes
a bucket. -/
theorem Resumes.rank_le (h : Resumes l e r) (hrun : l.isEnded = false)
    (hblocked : l.isBlocked e = false) :
    l.phase.rank + 1 ≤
      r.1.phase.rank + (l.answer? e).toList.length + 2 * (l.publishes? e).toList.length := by
  have hrank : l.phase.rank ≤ 3 := by
    cases hphase : l.phase with
    | ended how =>
      rw [isEnded, hphase] at hrun
      exact absurd hrun (by simp)
    | _ => simp [ScrollPhase.rank]
  have hfurther (h : l.phase.rank + 1 ≤ r.1.phase.rank) : l.phase.rank + 1 ≤
      r.1.phase.rank + (l.answer? e).toList.length + 2 * (l.publishes? e).toList.length := by
    omega
  cases h with
  | begin hphase =>
    refine hfurther ?_
    rw [hphase]
    exact Nat.le_refl 1
  | gone | collapse => exact hfurther (Nat.succ_le_succ hrank)
  | refuse _ _ _ h | breakEmpty _ _ _ _ h | closed _ _ h =>
    refine hfurther ?_
    rw [h.rank_eq]
    exact Nat.succ_le_succ hrank
  | openUp _ hphase _ _ h =>
    refine hfurther ?_
    rw [hphase]
    exact h.rank_ge
  | chunk _ hphase hanswer _ h =>
    have hge := h.rank_ge
    have hfetching : l.phase.rank = 2 := by rw [hphase]; rfl
    rw [hanswer, Option.toList_some, List.length_singleton]
    omega
  | breakOff _ hphase hanswer =>
    have hfetching : l.phase.rank = 2 := by rw [hphase]; rfl
    rw [hanswer, hfetching]
    exact Nat.le_add_right _ _
  | enlist hphase =>
    refine hfurther ?_
    rw [hphase]
    exact Nat.le_refl 3
  | wait hphase hfull =>
    rw [isBlocked, hphase] at hblocked
    simp [hfull] at hblocked
  | published _ hpublishes _ h =>
    have hge := h.rank_ge
    rw [hpublishes, Option.toList_some, List.length_singleton]
    omega

theorem rank_putOff? (h : l.putOff? e = some r) : l.phase.rank ≤ r.1.phase.rank := by
  obtain rfl | ⟨b, after, d, hphase, -, rfl⟩ := putOff?_eq_some h
  · exact Nat.le_refl _
  · rw [hphase]
    exact Nat.le_succ 2

end ScrollLoop

/-! ## Events -/

namespace Bench

variable {b c : Bench σ} {sign : Option (Sign σ)} {signs : List (Sign σ)}

/-- Whether the scroll of a command is left in peace: as long as it goes on, the command is there
and not aborted, and its partition has a receiver. -/
def IsPeaceful (id : CommandId) (b : Bench σ) : Prop :=
  ∀ l ∈ b.loops, l.id = id → l.isEnded = false →
    b.engine.tracker.GoesOn id ∧ b.engine.channel.Receives id

instance (id : CommandId) (b : Bench σ) : Decidable (b.IsPeaceful id) :=
  inferInstanceAs (Decidable (∀ l ∈ b.loops, l.id = id → l.isEnded = false →
    b.engine.tracker.GoesOn id ∧ b.engine.channel.Receives id))

/-- How the scroll of a command stands at a bench when so much was seen of it. -/
structure Delivers (id : CommandId) (signs : List (Sign σ)) (b : Bench σ) : Prop where
  unseen : b.loops.filter (·.id == id) = [] → answersOf id signs = [] ∧ bucketsOf id signs = []
  delivers : ∀ l, b.loops.filter (·.id == id) = [l] →
    l.Delivers (chunksIn (answersOf id signs)) (bucketsOf id signs) (b.engine.tracker.find? id)

/-- The scroll takes a step while it is left in peace. -/
theorem delivers_resume {l : ScrollLoop σ} {published : List Bucket}
    (h : l.Delivers cs published (b.engine.tracker.find? l.id)) (hrun : l.isEnded = false)
    (hl : l ∈ b.loops) (hpeace : b.IsPeaceful l.id) (hsize : 0 < l.command.bucketSize)
    (howned : l.phase.Owned l.id) (hok : ∀ err, l.answer? b.engine ≠ some (.error err))
    (hfits : (l.resume b.engine).1.phase.scrolled < wordCount) :
    (l.resume b.engine).1.Delivers (cs ++ chunksIn (l.answer? b.engine).toList)
      (published ++ (l.publishes? b.engine).toList)
      ((l.resume b.engine).2.tracker.find? l.id) := by
  cases h with
  | goesOn hphases hroom hfound =>
    exact (ScrollLoop.resumes_resume hrun).delivers hsize howned (hpeace l hl rfl hrun).2 hok hfits
      ScrollLoop.room_of_opening hphases hroom hfound
  | submitted hphase | collapsed hphase =>
    rw [ScrollLoop.isEnded, hphase] at hrun
    exact absurd hrun (by simp)

/-- Every event leaves the scroll where what is seen of it leads, as long as it is left in peace. -/
theorem Delivers.concerns (h : b.Delivers id signs) (hconcerns : Concerns id b sign c)
    (howned : ∀ l ∈ b.loops, l.phase.Owned l.id) (hsizes : ∀ l ∈ b.loops, 0 < l.command.bucketSize)
    (hbefore : b.IsPeaceful id) (hafter : c.IsPeaceful id)
    (hok : ∀ err, .error err ∉ answersOf id sign.toList)
    (hfits : ∀ l ∈ c.loops, l.id = id → l.phase.scrolled < wordCount) :
    c.Delivers id (signs ++ sign.toList) := by
  have hseen {l : ScrollLoop σ} {P : Prop} (hl : c.loops.filter (·.id == id) = [l])
      (hunseen : c.loops.filter (·.id == id) = []) : P := by
    rw [hunseen] at hl
    exact absurd hl (by simp)
  cases hconcerns with
  | @resume l hb hopen hsign hengine hc =>
    obtain ⟨hl, rfl⟩ := View.mem_of_filter_eq hb
    obtain ⟨hmem, hid⟩ := View.mem_of_filter_eq hc
    have hanswer : answersOf l.id sign.toList = (l.answer? b.engine).toList := by
      rw [hsign, l.answersOf_sign?]
    have hbuckets : bucketsOf l.id sign.toList = (l.publishes? b.engine).toList := by
      rw [hsign, ScrollLoop.bucketsOf_sign? (howned l hl)]
    refine ⟨hseen hc, fun m hm => ?_⟩
    obtain rfl := List.singleton_inj.1 (hc.symm.trans hm)
    have hchunks : chunksIn (answersOf l.id (signs ++ sign.toList)) =
        chunksIn (answersOf l.id signs) ++ chunksIn (l.answer? b.engine).toList := by
      rw [answersOf_append, hanswer]
      exact List.filterMap_append
    rw [hchunks, bucketsOf_append, hbuckets, hengine]
    refine delivers_resume (h.delivers l hb) hopen hl hbefore (hsizes l hl) (howned l hl)
      (fun err herr => hok err ?_) (hfits _ hmem hid)
    rw [hanswer, herr]
    exact List.mem_singleton_self _
  | @putOff l r hb hr hsign hengine hc =>
    rw [hsign, Option.toList_none, List.append_nil]
    refine ⟨hseen hc, fun m hm => ?_⟩
    obtain rfl := List.singleton_inj.1 (hc.symm.trans hm)
    have hdelivers := h.delivers l hb
    rw [hengine]
    obtain rfl | ⟨k, after, d, hphase, -, rfl⟩ := ScrollLoop.putOff?_eq_some hr
    · exact hdelivers
    · cases hdelivers with
      | goesOn hphases hroom hfound =>
        rw [hphase] at hphases hroom
        exact .goesOn hphases hroom hfound
      | submitted hended | collapsed hended =>
        rw [hphase] at hended
        exact absurd hended (by simp)
  | @accept l hb hphase hreg hsign hc =>
    obtain ⟨hanswers, hbuckets⟩ := h.unseen hb
    obtain ⟨-, hid⟩ := View.mem_of_filter_eq hc
    rw [hsign, Option.toList_none, List.append_nil]
    refine ⟨hseen hc, fun m hm => ?_⟩
    obtain rfl := List.singleton_inj.1 (hc.symm.trans hm)
    have hcreated : l.phase.Delivers l.command [] [] := by
      rw [hphase]
      exact ⟨rfl, rfl⟩
    have hfound : c.engine.tracker.find? id = some (Progress.new l.command b.engine.now) :=
      ((Tracker.register_eq_ok hreg).2 id).trans (if_pos hid.symm)
    rw [hanswers, hbuckets]
    refine .goesOn hcreated (by simp [hphase, ScrollPhase.hasCursor]) ⟨_, hfound, ?_⟩
    exact Progress.scrolls_new l.command b.engine.now
  | aside hloops hbides hquiet =>
    have hanswers : answersOf id (signs ++ sign.toList) = answersOf id signs := by
      rw [answersOf_append, hquiet.1, List.append_nil]
    have hbuckets : bucketsOf id (signs ++ sign.toList) = bucketsOf id signs := by
      rw [bucketsOf_append, hquiet.2, List.append_nil]
    constructor
    all_goals rw [hanswers, hbuckets, hloops]
    · exact h.unseen
    · intro l hl
      obtain ⟨hmem, hid⟩ := View.mem_of_filter_eq (hloops.trans hl)
      exact (h.delivers l hl).bide hbides fun hrun => (hafter l hmem hid hrun).1

end Bench

end BulkRun
