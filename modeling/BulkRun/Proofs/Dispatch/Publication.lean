import BulkRun.Proofs.Dispatch.Deliveries
/-!
# A scroll loop publishes the scroll, whatever the chunks

The loop of a command whose scroller answers with some chunks publishes the buckets that the records
of all chunks are cut into, in order and numbered from zero, and tells that the scroll is complete
when the last is published.  It comes there in a bounded number of steps.  What it has published, at
any time and however the scroll ends, was counted before, so that there is room for the report of
each batch (`publishes_the_scroll`).

A loop collapses if it wants more room than can be set aside, for a bucket or for a chunk.
-/

namespace BulkRun

variable {σ : Type} {setup : Setup σ} {id : CommandId}

/-! ## What was published -/

section

variable {k : Command} {cs : List Chunk} {published buckets : List Bucket}

/-- The buckets that were published are the first of those that the records are cut into. -/
theorem ScrollLoop.Delivers.isPrefix {l : ScrollLoop σ} {found : Option Progress}
    (h : l.Delivers cs published found) (hsize : 0 < l.command.bucketSize)
    (hbuckets : bucketize l.id (idsOf cs) l.command.bucketSize = .ok buckets) :
    published <+: buckets := by
  cases h with
  | goesOn h => exact h.streams.isPrefix hsize hbuckets
  | submitted _ _ _ hpublished => rw [Except.ok.inj (hbuckets.symm.trans hpublished)]
  | collapsed _ _ _ hgathers => exact hgathers.isPrefix hsize hbuckets

/-- When the scroll has come to its end, a loop that goes on has a bucket to publish. -/
theorem ScrollPhase.Delivers.offers {phase : ScrollPhase} (h : phase.Delivers k cs published)
    (hends : endsScroll cs = true) (hsize : 0 < k.bucketSize)
    (hbuckets : bucketize k.id (idsOf cs) k.bucketSize = .ok buckets) :
    ∃ b after, phase.offered? = some (b, after) ∧ published ++ [b] <+: buckets := by
  cases phase with
  | created | opening =>
    rw [h.1] at hends
    exact absurd hends (by simp)
  | fetching =>
    rw [h.1] at hends
    exact absurd hends (by simp)
  | publishing b after | waiting b after =>
    exact ⟨b, after, rfl, (AfterBucket.Delivers.streams h).isPrefix hsize hbuckets⟩
  | ended => exact h.elim

theorem sequence_isPrefix {size : Nat} {ids : List String} (h : published <+: buckets)
    (hbuckets : bucketize id ids size = .ok buckets) :
    published.map (·.sequence) = List.range published.length := by
  obtain ⟨rest, rfl⟩ := h
  have hnumbers := congrArg (List.take published.length) (sequence_bucketize hbuckets)
  rw [List.map_append, List.take_left' (List.length_map _), List.take_range, List.length_append,
    Nat.min_eq_left (Nat.le_add_right _ _)] at hnumbers
  exact hnumbers

theorem ScrollPhase.rank_le (phase : ScrollPhase) : phase.rank ≤ 4 := by
  cases phase <;> simp [rank]

end

namespace Workshop

variable {s s₀ t : Workshop σ} {moves : List (Move (Workshop σ) (Event σ))} {event : Event σ}

/-! ## Steps of a loop -/

/-- The steps that the loop of a command takes in some moves, each told by the loop before it. -/
def stepsOf (id : CommandId) (moves : List (Move (Workshop σ) (Event σ))) : List (ScrollLoop σ) :=
  moves.filterMap (stepping? id)

theorem stepsOf_concat (id : CommandId) (moves : List (Move (Workshop σ) (Event σ)))
    (m : Move (Workshop σ) (Event σ)) :
    stepsOf id (moves ++ [m]) = stepsOf id moves ++ (stepping? id m).toList :=
  List.filterMap_append

/-- A loop that takes a step is not blocked. -/
theorem isBlocked_of_stepping? {l : ScrollLoop σ} (hnext : s.next? setup event = some t)
    (h : stepping? id ⟨s, event, t⟩ = some l) : l.isBlocked s.system.engine = false := by
  unfold stepping? at h
  split at h
  · rename_i key hevent
    obtain rfl : event = .system (.step (.scroll key)) := hevent
    obtain ⟨u, hu, rfl⟩ := Option.map_eq_some_iff.1 hnext
    have hstep : s.system.stepTask? setup (.scroll key) = some u := hu
    obtain ⟨q, -, hq, -, hblocked, -⟩ := System.stepTask?_scroll hstep
    obtain ⟨hl, -⟩ := Option.filter_eq_some_iff.1 h
    obtain rfl := Option.some.inj (hq.symm.trans hl)
    exact hblocked
  · exact absurd h (by simp)

/-- The number of steps that a loop may have taken, by where it stands and what was seen of it. -/
def mostSteps (id : CommandId) (signs : List (Sign σ)) (phase : ScrollPhase) : Nat :=
  phase.rank + (answersOf id signs).length + 2 * (bucketsOf id signs).length

/-- A move takes the loop of a command a step on only if it brings the loop further. -/
theorem Drives.mostSteps_le {m : Move (Workshop σ) (Event σ)} {q : ScrollLoop σ}
    {signs : List (Sign σ)} {n : Nat} (hdrives : Drives m) (hsound : m.before.system.Sound)
    (hblocked : ∀ l, stepping? id m = some l → l.isBlocked m.before.system.engine = false)
    (hq : m.before.system.loops.filter (·.id == id) = [q]) (hn : n ≤ mostSteps id signs q.phase) :
    ∀ q', m.after.system.loops.filter (·.id == id) = [q'] →
      n + (stepping? id m).toList.length ≤ mostSteps id (signs ++ (sign? m).toList) q'.phase := by
  unfold mostSteps at hn ⊢
  simp only [answersOf_append, bucketsOf_append, List.length_append]
  intro q' hq'
  -- a loop that is left where it was
  have hstill (hrank : q.phase.rank ≤ q'.phase.rank) (hnone : stepping? id m = none) :
      n + (stepping? id m).toList.length ≤ q'.phase.rank +
        ((answersOf id signs).length + (answersOf id (sign? m).toList).length) +
        2 * ((bucketsOf id signs).length + (bucketsOf id (sign? m).toList).length) := by
    rw [hnone, Option.toList_none, List.length_nil]
    omega
  cases hdrives with
  | @step l hl hopen hstepping hsign hloops =>
    have hresumes := ScrollLoop.resumes_resume (e := m.before.system.engine) hopen
    rw [hloops] at hq'
    obtain ⟨rfl, rfl, hset⟩ | ⟨hne, hset⟩ :=
      View.filter_setLoop_cases hsound.nodup hl hresumes.loop hq
    · obtain rfl := List.singleton_inj.1 (hset.symm.trans hq')
      have hself : stepping? q.id m = some q :=
        (hstepping q.id).trans (Option.filter_some_pos (beq_self_eq_true q.id))
      have hrank := hresumes.rank_le hopen (hblocked q hself)
      rw [hself, hsign, q.answersOf_sign?, ScrollLoop.bucketsOf_sign? (hsound.owned q hl),
        Option.toList_some, List.length_singleton]
      omega
    · obtain rfl := List.singleton_inj.1 (hset.symm.trans hq')
      exact hstill (Nat.le_refl _)
        ((hstepping id).trans (Option.filter_some_neg (by simpa using hne)))
  | @putOff l r hl hr hidle hloops =>
    rw [hloops] at hq'
    obtain ⟨rfl, -, hset⟩ | ⟨-, hset⟩ :=
      View.filter_setLoop_cases hsound.nodup hl (ScrollLoop.loop_putOff? hr) hq
    · obtain rfl := List.singleton_inj.1 (hset.symm.trans hq')
      exact hstill (ScrollLoop.rank_putOff? hr) (hidle.stepping id)
    · obtain rfl := List.singleton_inj.1 (hset.symm.trans hq')
      exact hstill (Nat.le_refl _) (hidle.stepping id)
  | accept new hidle hloops _ =>
    rw [hloops, List.filter_append, hq] at hq'
    obtain rfl := (List.cons.inj hq').1
    exact hstill (Nat.le_refl _) (hidle.stepping id)

theorem mem_of_stepping? {m : Move (Workshop σ) (Event σ)} {l : ScrollLoop σ}
    (h : stepping? id m = some l) : l ∈ m.before.system.loops.filter (·.id == id) := by
  have hid := id_of_stepping? h
  unfold stepping? at h
  split at h
  · obtain ⟨hl, -⟩ := Option.filter_eq_some_iff.1 h
    exact List.mem_filter.2 ⟨(System.loop?_eq_some hl).1, beq_iff_eq.2 hid⟩
  · exact absurd h (by simp)

/-! ## Along a run -/

/-- A loop takes no more steps than there are chunks to get and buckets to publish. -/
theorem IsNew.length_stepsOf_le (hnew : s₀.IsNew) (hrun : Run (next? setup) s₀ moves s)
    (honce : (s.system.loops.filter (·.id == id)).length ≤ 1) :
    (s.system.loops.filter (·.id == id) = [] → stepsOf id moves = []) ∧
      ∀ l, s.system.loops.filter (·.id == id) = [l] →
        (stepsOf id moves).length ≤ mostSteps id (signs moves) l.phase := by
  induction hrun with
  | start => exact ⟨fun _ => rfl, fun _ _ => Nat.zero_le _⟩
  | @move moves u v event hrun hnext ih =>
    have hsound := sound_of_run hrun hnew.sound
    have hle : (u.system.loops.filter (·.id == id)).length ≤
        (v.system.loops.filter (·.id == id)).length :=
      length_loops_of_run (.move event .start hnext) hsound id
    obtain ⟨hunseen, hsteps⟩ := ih (hle.trans honce)
    rw [stepsOf_concat, signs_concat]
    cases hloops : u.system.loops.filter (·.id == id) with
    | nil =>
      have hidle : stepping? id ⟨u, event, v⟩ = none := by
        rw [Option.eq_none_iff_forall_ne_some]
        intro l hl
        have hmem := mem_of_stepping? hl
        rw [hloops] at hmem
        exact absurd hmem List.not_mem_nil
      rw [hidle, hunseen hloops]
      exact ⟨fun _ => rfl, fun _ _ => Nat.zero_le _⟩
    | cons q rest =>
      obtain rfl : rest = [] := by
        rw [hloops, List.length_cons] at hle
        exact List.length_eq_zero_iff.1 (by omega)
      refine ⟨fun hnone => ?_, ?_⟩
      · rw [hloops, hnone] at hle
        exact absurd hle (by simp)
      · rw [List.length_append]
        exact (drives_next? hnext).mostSteps_le hsound
          (fun l hl => isBlocked_of_stepping? hnext hl) hloops (hsteps q hloops)

/-- No command without a bucket size is accepted. -/
theorem IsNew.bucketSize_pos (hnew : s₀.IsNew) (hrun : Run (next? setup) s₀ moves s) :
    ∀ l ∈ s.system.loops, 0 < l.command.bucketSize := by
  have hcommands : s₀.bench.commands = [] := by
    rw [Bench.commands, bench, hnew.loops, List.map_nil]
  have hsound : ∀ m ∈ moves, m.before.system.Sound := fun m hm =>
    (hrun.invariant_of_mem (fun _ _ => trivial) hnew.sound
      (fun _ _ _ hnext _ h => sound_next? h hnext) m hm).1
  intro l hl
  obtain ⟨k₀, x, hprepare⟩ :=
    prepared_of_run hrun hcommands hsound l.command (List.mem_map_of_mem hl)
  exact (resolves_of_prepare hprepare).1

/-- A scroll that is left in peace stands where what was seen of it leads. -/
theorem IsNew.delivers_of_run (hnew : s₀.IsNew) (hrun : Run (next? setup) s₀ moves s)
    (honce : (s.system.loops.filter (·.id == id)).length ≤ 1)
    (hpeace : ∀ m ∈ moves, m.after.bench.IsPeaceful id)
    (hok : ∀ err, .error err ∉ answersOf id (signs moves))
    (hfits : ∀ m ∈ moves, ∀ l ∈ m.after.system.loops, l.id = id → l.phase.scrolled < wordCount) :
    s.bench.IsPeaceful id ∧ s.bench.Delivers id (signs moves) := by
  induction hrun with
  | start =>
    have hnone : s₀.bench.loops = [] := hnew.loops
    refine ⟨fun l hl => ?_, ⟨fun _ => ⟨rfl, rfl⟩, fun l hl => ?_⟩⟩
    · rw [hnone] at hl
      exact absurd hl List.not_mem_nil
    · rw [hnone] at hl
      exact absurd hl (by simp)
  | @move moves u v event hrun hnext ih =>
    have hsound := sound_of_run hrun hnew.sound
    have hle := length_loops_of_run (.move event .start hnext) hsound id
    rw [signs_concat, answersOf_append] at hok
    obtain ⟨hbefore, hdelivers⟩ := ih (hle.trans honce)
      (fun m hm => hpeace m (List.mem_append_left _ hm))
      (fun err herr => hok err (List.mem_append_left _ herr))
      fun m hm => hfits m (List.mem_append_left _ hm)
    have hafter : v.bench.IsPeaceful id := hpeace ⟨u, event, v⟩ (by simp)
    refine ⟨hafter, ?_⟩
    rw [signs_concat]
    exact hdelivers.concerns (concerns_next? hsound hnext honce) hsound.owned
      (hnew.bucketSize_pos hrun) hbefore hafter
      (fun err herr => hok err (List.mem_append_right _ herr)) (hfits ⟨u, event, v⟩ (by simp))

/-! ## The main statement -/

/-- What has become of a scroll when the scroller of a command has answered with some chunks, whose
records are cut into some buckets; `l` is the loop of the command. -/
structure Publishes (setup : Setup σ) (l : ScrollLoop σ) (cs : List Chunk) (buckets : List Bucket)
    (moves : List (Move (Workshop σ) (Event σ))) (s : Workshop σ) : Prop where
  /-- The buckets are published in order. -/
  inOrder : bucketsOf l.id (signs moves) <+: buckets
  /-- They are numbered from zero. -/
  numbered : (bucketsOf l.id (signs moves)).map (·.sequence) =
    List.range (bucketsOf l.id (signs moves)).length
  /-- As long as the loop goes on, the records are counted, and the command is not submitted. -/
  scrolls : l.isEnded = false → ∃ p, s.system.engine.tracker.find? l.id = some p ∧
    p.submitted = false ∧ p.scrollCount = (idsOf cs).length
  /-- When no more chunks will come, the loop goes on only to publish. -/
  publishing : l.isEnded = false → endsScroll cs = true → ∃ b after,
    l.phase.offered? = some (b, after) ∧ bucketsOf l.id (signs moves) ++ [b] <+: buckets
  /-- The loop returns when all chunks have come and all buckets are published, and tells so; or it
  collapses before, for want of room. -/
  ended : l.isEnded = true →
    (l.phase = .ended (.submitted (idsOf cs).length buckets.length) ∧
      l.command.bucketSize ≤ maxReserved ∧ endsScroll cs = true ∧
      bucketsOf l.id (signs moves) = buckets ∧
      ∀ p, s.system.engine.tracker.find? l.id = some p →
        p.submitted = true ∧ p.scrollCount = (idsOf cs).length) ∨
    (l.phase = .ended .collapsed ∧ endsScroll cs = false ∧ l.WantsRoom ∧
      ∀ p, s.system.engine.tracker.find? l.id = some p →
        p.submitted = false ∧ p.scrollCount = (idsOf cs).length)
  /-- Until then it can take a step, unless it waits for a place in its partition. -/
  goesOn : l.isEnded = false → l.isBlocked s.system.engine = false →
    (s.system.stepTask? setup (.scroll l.key)).isSome = true
  /-- There is a bound on the number of its steps. -/
  bounded : (stepsOf l.id moves).length ≤
    cs.length + 2 * (bucketsOf l.id (signs moves)).length + 4

theorem IsNew.publishes_of_run {l : ScrollLoop σ} {cs : List Chunk} {buckets : List Bucket}
    (hnew : s₀.IsNew) (hrun : Run (next? setup) s₀ moves s)
    (honce : s.system.loops.filter (·.id == l.id) = [l])
    (hfits : ∀ m ∈ moves, ∀ k ∈ m.after.system.loops, k.id = l.id → k.phase.scrolled < wordCount)
    (hanswers : answersOf l.id (signs moves) = cs.map .ok)
    (hpeace : ∀ m ∈ moves, m.after.bench.IsPeaceful l.id)
    (hbuckets : bucketize l.id (idsOf cs) l.command.bucketSize = .ok buckets) :
    Publishes setup l cs buckets moves s := by
  have hone : (s.system.loops.filter (·.id == l.id)).length ≤ 1 := by
    rw [honce]
    exact Nat.le_refl 1
  obtain ⟨hl, -⟩ := View.mem_of_filter_eq honce
  have hsize := hnew.bucketSize_pos hrun l hl
  have hok : ∀ err, .error err ∉ answersOf l.id (signs moves) := by
    rw [hanswers]
    simp
  have hdelivers := (hnew.delivers_of_run hrun hone hpeace hok hfits).2.delivers l honce
  rw [hanswers, chunksIn_ok] at hdelivers
  have hfirst := hdelivers.isPrefix hsize hbuckets
  have hsteps := (hnew.length_stepsOf_le hrun hone).2 l honce
  refine ⟨hfirst, sequence_isPrefix hfirst hbuckets, fun hrunning => ?_,
    fun hrunning hends => ?_, fun hended => ?_, fun hrunning hblocked => ?_, ?_⟩
  · cases hdelivers with
    | goesOn _ _ hfound =>
      obtain ⟨p, hp, hscrolls⟩ := hfound
      exact ⟨p, hp, Counts.submitted ⟨p, hp, hscrolls⟩ hp⟩
    | submitted hphase | collapsed hphase =>
      rw [ScrollLoop.isEnded, hphase] at hrunning
      exact absurd hrunning (by simp)
  · cases hdelivers with
    | goesOn hphases => exact hphases.offers hends hsize hbuckets
    | submitted hphase | collapsed hphase =>
      rw [ScrollLoop.isEnded, hphase] at hrunning
      exact absurd hrunning (by simp)
  · cases hdelivers with
    | goesOn hphases =>
      rw [ScrollLoop.isEnded_of_streams hphases.streams] at hended
      exact absurd hended (by simp)
    | submitted hphase hends hroom hpublished hfound =>
      have hall := Except.ok.inj (hpublished.symm.trans hbuckets)
      rw [hall] at hphase
      exact .inl ⟨hphase, hroom, hends, hall, hfound⟩
    | collapsed hphase hends hwants _ hfound => exact .inr ⟨hphase, hends, hwants, hfound⟩
  · rw [Option.isSome_iff_ne_none]
    intro hnone
    have hsound := sound_of_run hrun hnew.sound
    rw [System.isBlocked_of_stepTask?_none hsound hl hnone hrunning] at hblocked
    exact absurd hblocked (by simp)
  · unfold mostSteps at hsteps
    rw [hanswers, List.length_map] at hsteps
    have hrank := l.phase.rank_le
    omega

/-- A scroll loop publishes the scroll, whatever the chunks.  At every point of every run, however
the scroll goes on or came to its end, no more records were published than were counted, so that no
report is cut short if no batch is taken up twice.  A scroll that is left in peace, and whose
scroller fails in nothing, publishes the buckets that the records of its chunks are cut into. -/
theorem publishes_the_scroll (hnew : s₀.IsNew) (hrun : Run (next? setup) s₀ moves s)
    {l : ScrollLoop σ}
    -- the command was accepted once
    (honce : s.system.loops.filter (·.id == l.id) = [l])
    (hfits : ∀ m ∈ moves, ∀ k ∈ m.after.system.loops, k.id = l.id →
      k.phase.scrolled < wordCount) :
    -- however the scroll goes, what was published was counted
    (∀ p, s.system.engine.tracker.find? l.id = some p →
      (recordsOf (bucketsOf l.id (signs moves))).length ≤ p.scrollCount) ∧
    (((openedOf l.id (signs moves)).map Work.scope).Nodup → s.bench.HasRoom l.id) ∧
    -- and if it is left in peace, all that was found is published
    ∀ cs, answersOf l.id (signs moves) = cs.map .ok →
      (∀ m ∈ moves, m.after.bench.IsPeaceful l.id) →
      ∃ buckets, bucketize l.id (idsOf cs) l.command.bucketSize = .ok buckets ∧
        Publishes setup l cs buckets moves s := by
  have hone : (s.system.loops.filter (·.id == l.id)).length ≤ 1 := by
    rw [honce]
    exact Nat.le_refl 1
  obtain ⟨hl, -⟩ := View.mem_of_filter_eq honce
  have hsize := hnew.bucketSize_pos hrun l hl
  have hbacked : s.bench.Backed l.id (bucketsOf l.id (signs moves)) :=
    hnew.backed_of_run hrun hone hfits
  refine ⟨fun p hp => ?_, fun hnodup => ?_, fun cs hanswers hpeace => ?_⟩
  · exact (Nat.le_add_right _ _).trans (hbacked.backs l honce p hp).covers
  · have haccepts : s.bench.AcceptsOnce l.command := Bench.acceptsOnce_of_filter honce
    exact (hnew.reckons_of_run hrun haccepts).hasRoom hbacked honce hnodup
  · obtain ⟨buckets, hbuckets⟩ : ∃ buckets,
        bucketize l.id (idsOf cs) l.command.bucketSize = .ok buckets :=
      ⟨_, Bucketizer.bucketize_of_push hsize _⟩
    exact ⟨buckets, hbuckets, hnew.publishes_of_run hrun honce hfits hanswers hpeace hbuckets⟩

/-! ### Chunks that do not fit the buckets -/

/-- A scroller that finds one record, and then two more. -/
def oneThenTwo : Scroller Unit where
  kind := .query
  start c w := (.ok (.new c), w)
  reserved _ _ := 0
  next c _ w :=
    if c.produced = 0 then (.ok ⟨["a"], false⟩, { c with produced := 1 }, w)
    else (.ok ⟨["b", "c"], true⟩, { c with produced := 3 }, w)

/-- Collaborators with this scroller. -/
def unevenSetup : Setup Unit :=
  { smallSetup with
    scrollers := ScrollerRegistry.empty.register .query "default" oneThenTwo }

/-- The loop waits with the second bucket until the consumer works on the first. -/
def unevenScroll : List (Event Unit) :=
  let scroll : Event Unit := .system (.step (.scroll 0))
  let consume : Event Unit := .system (.step (.consume 0))
  [.system (.submit Tracker.archiveAll), scroll, scroll, scroll, scroll, scroll, scroll, consume,
    consume, scroll]

/-- Both buckets are published, and the scroll is over, while the first batch is in flight. -/
theorem publishes_the_scroll_uneven :
    ∃ moves s l buckets, staffedWorkshop.IsNew ∧ Run (next? unevenSetup) staffedWorkshop moves s ∧
      s.system.loops.filter (·.id == l.id) = [l] ∧
      (∀ m ∈ moves, ∀ k ∈ m.after.system.loops, k.id = l.id → k.phase.scrolled < wordCount) ∧
      answersOf l.id (signs moves) = [⟨["a"], false⟩, ⟨["b", "c"], true⟩].map .ok ∧
      (∀ m ∈ moves, m.after.bench.IsPeaceful l.id) ∧
      ((openedOf l.id (signs moves)).map Work.scope).Nodup ∧
      (openedOf l.id (signs moves)).map (·.batch.ids) = [["a"]] ∧
      (s.system.engine.tracker.find? l.id).map (fun p => (p.processed, p.scrollCount)) =
        some (0, 3) ∧
      (stepsOf l.id moves).length = 7 ∧ buckets.map (·.ids) = [["a", "b"], ["c"]] ∧
      l.phase = .ended (.submitted 3 2) ∧ s.bench.HasRoom l.id ∧
      (∀ p, s.system.engine.tracker.find? l.id = some p →
        (recordsOf (bucketsOf l.id (signs moves))).length ≤ p.scrollCount) ∧
      Publishes unevenSetup l [⟨["a"], false⟩, ⟨["b", "c"], true⟩] buckets moves s := by
  have hcheck : (movesOf? (next? unevenSetup) staffedWorkshop unevenScroll).any (fun r =>
      let id := Tracker.archiveAll.id
      decide (r.2.system.loops.map (fun l => (l.id, l.command.bucketSize, l.isEnded)) =
        [(id, 2, true)]) &&
      (r.1.all fun m => decide (m.after.bench.IsPeaceful id) &&
        m.after.system.loops.all fun k => decide (k.phase.scrolled < wordCount)) &&
      decide (answersOf id (signs r.1) = [.ok ⟨["a"], false⟩, .ok ⟨["b", "c"], true⟩]) &&
      decide (((openedOf id (signs r.1)).map Work.scope).Nodup) &&
      decide ((openedOf id (signs r.1)).map (·.batch.ids) = [["a"]]) &&
      decide ((r.2.system.engine.tracker.find? id).map (fun p => (p.processed, p.scrollCount)) =
        some (0, 3)) &&
      decide ((stepsOf id r.1).length = 7)) = true := by
    decide +kernel
  obtain ⟨⟨moves, s⟩, hmoves, hs⟩ := (Option.any_eq_true _ _).1 hcheck
  simp only [Bool.and_eq_true, decide_eq_true_eq, List.all_eq_true] at hs
  obtain ⟨⟨⟨⟨⟨⟨hloops, hcalm⟩, hanswers⟩, hnodup⟩, hopened⟩, hfound⟩, hsteps⟩ := hs
  obtain ⟨l, hl, hfacts⟩ := List.map_eq_singleton_iff.1 hloops
  obtain ⟨hid, hrest⟩ := Prod.mk.inj hfacts
  obtain ⟨hsize, hended⟩ := Prod.mk.inj hrest
  rw [← hid] at hcalm hanswers hnodup hopened hfound hsteps
  have hnew := isNew_staffedWorkshop
  have hrun : Run (next? unevenSetup) staffedWorkshop moves s := .of_movesOf? hmoves
  have honce : s.system.loops.filter (·.id == l.id) = [l] := by
    rw [hl]
    simp
  have hpeace : ∀ m ∈ moves, m.after.bench.IsPeaceful l.id := fun m hm => (hcalm m hm).1
  have hfits : ∀ m ∈ moves, ∀ k ∈ m.after.system.loops, k.id = l.id →
      k.phase.scrolled < wordCount := fun m hm k hk _ => (hcalm m hm).2 k hk
  have hheard : answersOf l.id (signs moves) =
      ([⟨["a"], false⟩, ⟨["b", "c"], true⟩] : List Chunk).map .ok := hanswers
  obtain ⟨hcounted, hroom, hpublishes⟩ := publishes_the_scroll hnew hrun honce hfits
  obtain ⟨buckets, hbuckets, hdone⟩ := hpublishes _ hheard hpeace
  have hcut : buckets.map (·.ids) = [["a", "b"], ["c"]] := by
    rw [hsize] at hbuckets
    rw [← Except.ok.inj hbuckets]
    simp [idsOf, chunks]
  have hphase : l.phase = .ended (.submitted 3 2) := by
    obtain ⟨hphase, -⟩ | ⟨-, hmore, -⟩ := hdone.ended hended
    · have hlength : buckets.length = 2 := by
        rw [← List.length_map, hcut]
        rfl
      rw [hphase, hlength]
      rfl
    · exact absurd hmore (by decide)
  exact ⟨moves, s, l, buckets, hnew, hrun, honce, hfits, hheard, hpeace, hnodup, hopened, hfound,
    hsteps, hcut, hphase, hroom hnodup, hcounted, hdone⟩

end Workshop

end BulkRun
