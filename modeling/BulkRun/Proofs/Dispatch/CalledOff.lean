import BulkRun.Proofs.Dispatch.BreakingOff
import BulkRun.Proofs.Dispatch.LastBucket
/-!
# What is published after an abort

Once a command is aborted its scroll loop publishes the bucket that it is on with, and no full
bucket after that.  But when its scroll is exhausted or breaks off, it publishes what is left over
all the same, which is one bucket more, and not a full one.  If the command is dropped before its
loop comes to look, the loop takes it for one that goes on, and publishes the full buckets that it
has as well.  Main statement: `last_bucket_after_abort`.
-/

namespace BulkRun

open Tracker (Advances)

variable {σ : Type} {setup : Setup σ} {id : CommandId}

theorem Tracker.CallsOff.advance {t u : Tracker} (h : t.CallsOff id) (hadvances : Advances t u) :
    u.CallsOff id := by
  intro q hq
  obtain ⟨p, reports, hp, rfl⟩ := hadvances.found hq
  rw [Progress.heedAll_state_of_isTerminal (by rw [h p hp]; rfl), h p hp]

/-! ## Trackers on a bench -/

namespace Bench

variable {b c : Bench σ} {sign : Option (Sign σ)}

/-- A command that was called off stays so, unless it is accepted once more. -/
theorem Turns.callsOff (h : Turns setup b sign c) (hd : b.engine.tracker.Distinct)
    (hoff : b.engine.tracker.CallsOff id) (honce : (c.loops.filter (·.id == id)).length ≤ 1)
    (hseen : b.loops.filter (·.id == id) ≠ []) : c.engine.tracker.CallsOff id := by
  obtain hadvances | ⟨now, l, hreg, hloops⟩ := h.advances hd
  · exact hoff.advance hadvances
  · have hne : id ≠ l.command.id := by
      rintro rfl
      have hpos := List.length_pos_of_ne_nil hseen
      rw [hloops, List.filter_append, List.length_append,
        List.filter_cons_of_pos (by exact beq_self_eq_true l.command.id), List.length_cons] at honce
      omega
    intro q hq
    rw [(Tracker.register_eq_ok hreg).2 id, if_neg hne] at hq
    exact hoff q hq

end Bench

/-! ## Signs of hands -/

theorem bucketsOf_hand (id : CommandId) (h : Option (Hand σ)) :
    bucketsOf id (h.bind Hand.sign?).toList = [] := by
  cases h with
  | none => rfl
  | some h =>
    obtain ⟨v, x⟩ := h
    cases x with
    | none => rfl
    | some x => exact (x.signs_of_sign? id).2

namespace Workshop

variable {s s₀ t : Workshop σ} {front rear moves : List (Move (Workshop σ) (Event σ))}
  {event : Event σ} {l : ScrollLoop σ}

/-! ## What a move does to the scroll loops -/

/-- The loop of a command that takes a step in a move. -/
def stepping? (id : CommandId) (m : Move (Workshop σ) (Event σ)) : Option (ScrollLoop σ) :=
  match m.event with
  | .system (.step (.scroll key)) => (m.before.system.loop? key).filter (·.id == id)
  | _ => none

theorem id_of_stepping? {m : Move (Workshop σ) (Event σ)} (h : stepping? id m = some l) :
    l.id = id := by
  unfold stepping? at h
  split at h
  · exact eq_of_beq (Option.filter_eq_some_iff.1 h).2
  · exact absurd h (by simp)

/-- The bucket of a command that its loop begins to publish in a move. -/
def started? (id : CommandId) (m : Move (Workshop σ) (Event σ)) : Option Bucket :=
  (stepping? id m).bind (·.starts? m.before.system.engine)

/-- The buckets of a command that its loop begins to publish in some moves, in order. -/
def startedOf (id : CommandId) (moves : List (Move (Workshop σ) (Event σ))) : List Bucket :=
  moves.filterMap (started? id)

theorem startedOf_concat (id : CommandId) (moves : List (Move (Workshop σ) (Event σ)))
    (m : Move (Workshop σ) (Event σ)) :
    startedOf id (moves ++ [m]) = startedOf id moves ++ (started? id m).toList :=
  List.filterMap_append

/-- Whether no scroll loop takes a step in a move. -/
structure IsStill (m : Move (Workshop σ) (Event σ)) : Prop where
  stepping : ∀ id, stepping? id m = none
  buckets : ∀ id, bucketsOf id (sign? m).toList = []

/-- What a move may do to the scroll loops. -/
inductive Drives (m : Move (Workshop σ) (Event σ)) : Prop
  | step {l : ScrollLoop σ} (hl : l ∈ m.before.system.loops) (hopen : l.isEnded = false)
      (hstepping : ∀ id, stepping? id m = (some l).filter (·.id == id))
      (hsign : sign? m = l.sign? m.before.system.engine)
      (hloops : m.after.system.loops =
        View.setLoop m.before.system.loops (l.resume m.before.system.engine).1)
  | putOff {l : ScrollLoop σ} {r : ScrollLoop σ × Engine σ} (hl : l ∈ m.before.system.loops)
      (hr : l.putOff? m.before.system.engine = some r) (hstill : IsStill m)
      (hloops : m.after.system.loops = View.setLoop m.before.system.loops r.1)
  | accept (new : List (ScrollLoop σ)) (hstill : IsStill m)
      (hloops : m.after.system.loops = m.before.system.loops ++ new)
      (hnew : ∀ l ∈ new, l.phase = .created)

theorem isStill_of_sign {m : Move (Workshop σ) (Event σ)}
    (hstepping : ∀ id, stepping? id m = none) {h : Option (Hand σ)}
    (hsign : sign? m = h.bind Hand.sign?) : IsStill m :=
  ⟨hstepping, fun id => by rw [hsign]; exact bucketsOf_hand id h⟩

/-- What somebody does with a delivery moves no scroll loop. -/
theorem isStill_hands (hevent : ∀ u, event ≠ .system u) : IsStill ⟨s, event, t⟩ := by
  cases event with
  | system u => exact absurd rfl (hevent u)
  | start k | work k => exact isStill_of_sign (fun _ => rfl) rfl
  | handBack k =>
    refine ⟨fun _ => rfl, fun id => ?_⟩
    simp only [sign?]
    cases s.hands[k]? with
    | none => rfl
    | some h =>
      rw [Option.bind_some]
      split <;> rfl
  | _ => exact ⟨fun _ => rfl, fun _ => rfl⟩

/-- Every move takes one scroll loop a step on, or puts off the step of one, or leaves them alone
but for accepting commands. -/
theorem drives_next? (hnext : s.next? setup event = some t) : Drives ⟨s, event, t⟩ := by
  have hsame (hstill : IsStill ⟨s, event, t⟩) (h : t.system.loops = s.system.loops) :
      Drives ⟨s, event, t⟩ := .accept [] hstill (by rw [h, List.append_nil]) (by simp)
  cases event with
  | system event =>
    obtain ⟨u, hu, rfl⟩ := Option.map_eq_some_iff.1 hnext
    cases event with
    | step task =>
      have hstep : s.system.stepTask? setup task = some u := hu
      cases task with
      | scroll key =>
        obtain ⟨l, hl, hkey, hopen, -, rfl⟩ := System.stepTask?_scroll hstep
        refine .step hl hopen (fun id => ?_) ?_ rfl
        · simp only [stepping?, hkey]
        · simp only [sign?, hkey, Option.bind_some]
      | consume i =>
        obtain ⟨c, r, -, -, rfl⟩ := System.stepTask?_consume hstep
        exact hsame (isStill_of_sign (fun _ => rfl) rfl) rfl
      | watch i =>
        obtain ⟨w, -, rfl⟩ := Option.map_eq_some_iff.1 hstep
        exact hsame ⟨fun _ => rfl, fun _ => rfl⟩ rfl
    | submit c =>
      obtain ⟨-, r, hr⟩ := System.next?_submit hu
      obtain ⟨c', x, v, -, -, -, rfl⟩ := System.submit_eq_ok hr
      exact .accept [⟨s.system.loops.length, c', x.item, setup.dispatcher.fetchSize c', .created⟩]
        ⟨fun _ => rfl, fun _ => rfl⟩ rfl (by simp)
    | putOff task =>
      obtain rfl | ⟨l, hl, r, hr, rfl⟩ := System.putOff?_eq_some hu
      · exact hsame ⟨fun _ => rfl, fun _ => rfl⟩ rfl
      · exact .putOff hl hr ⟨fun _ => rfl, fun _ => rfl⟩ rfl
    | abort k message =>
      obtain ⟨new, v, hv, rfl⟩ := System.next?_abort hu
      refine hsame ⟨fun _ => rfl, fun _ => ?_⟩ rfl
      simp only [sign?, hv]
      rfl
    | release =>
      obtain ⟨-, rfl⟩ := System.next?_release hu
      exact hsame ⟨fun _ => rfl, fun _ => rfl⟩ rfl
    | _ =>
      obtain rfl := Option.some.inj hu
      exact hsame ⟨fun _ => rfl, fun _ => rfl⟩ rfl
  | _ =>
    refine hsame (isStill_hands fun _ => by simp) ?_
    obtain ⟨u, hu⟩ | hsystem := system_next? hnext
    · exact absurd hu (by simp)
    · rw [hsystem]

/-! ## Loops whose command was called off -/

/-- Whether no loop has as many records pending as fill a bucket. -/
def IsCut (s : Workshop σ) : Prop := ∀ l ∈ s.system.loops, l.phase.IsCut l.command

theorem IsCut.next? (h : s.IsCut) (hnext : s.next? setup event = some t) : t.IsCut := by
  intro m hm
  cases drives_next? hnext with
  | @step l hl hopen _ _ hloops =>
    have hresumes := ScrollLoop.resumes_resume (e := s.system.engine) hopen
    rw [hloops] at hm
    obtain rfl | hm := View.mem_setLoop hm
    · obtain ⟨phase, hphase⟩ := hresumes.loop
      have hcommand : (l.resume s.system.engine).1.command = l.command := by rw [hphase]
      rw [hcommand]
      exact hresumes.isCut (h l hl)
    · exact h m hm
  | @putOff l r hl hr _ hloops =>
    rw [hloops] at hm
    obtain rfl | hm := View.mem_setLoop hm
    · obtain rfl | ⟨b, after, d, hphase, -, rfl⟩ := ScrollLoop.putOff?_eq_some hr
      · exact h l hl
      · have hcut := h l hl
        rw [hphase] at hcut
        exact hcut
    · exact h m hm
  | accept new _ hloops hnew =>
    rw [hloops] at hm
    obtain hm | hm := List.mem_append.1 hm
    · exact h m hm
    · rw [hnew m hm]
      trivial

/-- A move before which the tracker knows a command. -/
def IsKept (id : CommandId) (m : Move (Workshop σ) (Event σ)) : Prop :=
  m.before.system.engine.tracker.find? id ≠ none

/-- What is kept along the moves after a command was called off, whose loop was `l` then. -/
structure Subdued (l : ScrollLoop σ) (moves : List (Move (Workshop σ) (Event σ)))
    (s : Workshop σ) : Prop where
  sound : s.system.Sound
  cut : s.IsCut
  off : s.system.engine.tracker.CallsOff l.id
  offBefore : ∀ m ∈ moves, m.before.system.engine.tracker.CallsOff l.id
  ebbs : ∃ q, s.system.loops.filter (·.id == l.id) = [q] ∧
    l.Ebbs (∀ m ∈ moves, IsKept l.id m) (startedOf l.id moves) (bucketsOf l.id (signs moves)) q

/-- A loop ebbs on, whatever a move does to the scroll loops. -/
theorem Drives.ebbs {m : Move (Workshop σ) (Event σ)} {q : ScrollLoop σ} {kept kept' : Prop}
    {started published : List Bucket} (hdrives : Drives m) (hsound : m.before.system.Sound)
    (hcut : m.before.IsCut) (hoff : m.before.system.engine.tracker.CallsOff l.id)
    (hq : m.before.system.loops.filter (·.id == l.id) = [q])
    (h : l.Ebbs kept started published q) (hkept : kept' → kept ∧ IsKept l.id m)
    (honce : (m.after.system.loops.filter (·.id == l.id)).length ≤ 1) :
    ∃ q', m.after.system.loops.filter (·.id == l.id) = [q'] ∧
      l.Ebbs kept' (started ++ (started? l.id m).toList)
        (published ++ bucketsOf l.id (sign? m).toList) q' := by
  have hrest : l.Ebbs kept' started published q := h.imp fun hk => (hkept hk).1
  have hidle (hstill : IsStill m) : started ++ (started? l.id m).toList = started ∧
      published ++ bucketsOf l.id (sign? m).toList = published := by
    rw [started?, hstill.stepping, hstill.buckets]
    exact ⟨List.append_nil _, List.append_nil _⟩
  cases hdrives with
  | @step k hk hopen hstepping hsign hloops =>
    have hresumes := ScrollLoop.resumes_resume (e := m.before.system.engine) hopen
    have howned := hsound.owned k hk
    rw [hloops, started?, hstepping, hsign]
    obtain ⟨rfl, hid, hset⟩ | ⟨hne, hset⟩ :=
      View.filter_setLoop_cases hsound.nodup hk hresumes.loop hq
    · refine ⟨_, hset, ?_⟩
      rw [← hid] at hoff
      rw [Option.filter_some_pos (by simpa using hid), Option.bind_some, ← hid,
        ScrollLoop.bucketsOf_sign? howned]
      refine h.resume hopen hoff (hcut q hk) fun hk => ?_
      rw [hid]
      exact hkept hk
    · refine ⟨q, hset, ?_⟩
      rw [Option.filter_some_neg (by simpa using hne),
        (ScrollLoop.sign?_other howned _ (Ne.symm hne)).2]
      simpa using hrest
  | @putOff k r hk hr hstill hloops =>
    obtain ⟨hstarted, hbuckets⟩ := hidle hstill
    rw [hstarted, hbuckets, hloops]
    obtain ⟨rfl, -, hset⟩ | ⟨-, hset⟩ :=
      View.filter_setLoop_cases hsound.nodup hk (ScrollLoop.loop_putOff? hr) hq
    · exact ⟨r.1, hset, hrest.putOff hr⟩
    · exact ⟨q, hset, hrest⟩
  | accept new hstill hloops _ =>
    obtain ⟨hstarted, hbuckets⟩ := hidle hstill
    rw [hstarted, hbuckets]
    rw [hloops, List.filter_append, hq] at honce ⊢
    rw [List.length_append, List.length_singleton] at honce
    have hnone := List.length_eq_zero_iff.1 (show (new.filter (·.id == l.id)).length = 0 by omega)
    exact ⟨q, by rw [hnone, List.append_nil], hrest⟩

theorem Subdued.next? (h : Subdued l moves s) (hnext : s.next? setup event = some t)
    (honce : (t.system.loops.filter (·.id == l.id)).length ≤ 1) :
    Subdued l (moves ++ [⟨s, event, t⟩]) t := by
  obtain ⟨q, hq, hebbs⟩ := h.ebbs
  refine ⟨sound_next? h.sound hnext, h.cut.next? hnext, ?_, ?_, ?_⟩
  · refine (turns_next? h.sound.distinct hnext).callsOff h.sound.distinct h.off honce ?_
    rw [show s.bench.loops.filter (·.id == l.id) = [q] from hq]
    exact List.cons_ne_nil q []
  · intro m hm
    obtain hm | hm := List.mem_append.1 hm
    · exact h.offBefore m hm
    · rw [List.mem_singleton.1 hm]
      exact h.off
  · rw [startedOf_concat, signs_concat, bucketsOf_append]
    exact (drives_next? hnext).ebbs h.sound h.cut h.off hq hebbs (fun hk =>
      ⟨fun m hm => hk m (List.mem_append_left _ hm), hk _ (by simp)⟩) honce

theorem subdued_of_run (hrun : Run (next? setup) t rear s) (ht : Subdued l [] t)
    (honce : (s.system.loops.filter (·.id == l.id)).length ≤ 1) : Subdued l rear s := by
  induction hrun with
  | start => exact ht
  | @move moves u v event hrun hnext ih =>
    have hu := sound_of_run hrun ht.sound
    have hmore : Run (next? setup) u [⟨u, event, v⟩] v := .move event .start hnext
    exact (ih ((length_loops_of_run hmore hu l.id).trans honce)).next? hnext honce

/-! ## The main statement -/

/-- What the scroll loop of a command still does in the moves after the command was aborted; `l` is
the loop when that happened. -/
structure Ceases (l : ScrollLoop σ) (rear : List (Move (Workshop σ) (Event σ))) : Prop where
  /-- While the command is there, its loop begins to publish what is left over when its scroll is
  exhausted or breaks off, and nothing else. -/
  starts : ∀ m ∈ rear, IsKept l.id m → ∀ q, stepping? l.id m = some q →
    q.starts? m.before.system.engine = q.leftover? m.before.system.engine
  /-- It begins to publish no more than the full buckets that it has, and one besides; and of these
  only the latter while the command is there. -/
  started : ∃ last : Option Bucket, startedOf l.id rear <+: l.phase.filled ++ last.toList ∧
    (∀ b ∈ last, b.IsShort l.command) ∧
    ((∀ m ∈ rear, IsKept l.id m) → startedOf l.id rear <+: last.toList)
  /-- Nothing else is published but the bucket that it was on with. -/
  published : bucketsOf l.id (signs rear) <+: l.phase.offering?.toList ++ startedOf l.id rear

theorem ceases_of_ebbs {q : ScrollLoop σ}
    (hoff : ∀ m ∈ rear, m.before.system.engine.tracker.CallsOff l.id)
    (h : l.Ebbs (∀ m ∈ rear, IsKept l.id m) (startedOf l.id rear) (bucketsOf l.id (signs rear)) q) :
    Ceases l rear where
  starts m hm hkept k hk := by
    obtain ⟨p, hp⟩ := Option.ne_none_iff_exists'.1 hkept
    have hid : k.id = l.id := id_of_stepping? hk
    apply ScrollLoop.starts?_of_isAborted
    rw [hid]
    exact Tracker.isAborted_iff.2 ⟨p, hp, hoff m hm p hp⟩
  started := by
    cases h.rests with
    | @goesOn rest _ hstarted hnew =>
      refine ⟨none, ?_, by simp, fun hkept => ?_⟩
      · rw [← hstarted, Option.toList_none, List.append_nil]
        exact List.prefix_append _ rest
      · rw [hnew hkept]
        exact List.nil_prefix
    | ends last _ hstarted hshort hnew => exact ⟨last, hstarted, hshort, hnew⟩
  published := h.begun

/-- An abort lets one bucket more pass.  Once a command is aborted, at whatever point of its scroll
and whatever its scroller does, its loop publishes the bucket that it is on with, and begins to
publish one other at most, which is not full: that of the records left over when the scroll is
exhausted or breaks off.  Only if the command is dropped before the loop comes to look, the full
buckets that the loop has are published, too. -/
theorem last_bucket_after_abort (hnew : s₀.IsNew) (hfront : Run (next? setup) s₀ front t)
    (hrear : Run (next? setup) t rear s) (hl : l ∈ t.system.loops)
    (haborted : t.system.engine.tracker.isAborted l.id = true)
    -- the command was accepted once
    (honce : (s.system.loops.filter (·.id == l.id)).length ≤ 1) : Ceases l rear := by
  have hnobody : s₀.IsCut := by
    intro k hk
    rw [hnew.loops] at hk
    exact absurd hk List.not_mem_nil
  have hsound := sound_of_run hfront hnew.sound
  have hcut : t.IsCut := hfront.always hnobody fun _ _ _ hnext h => h.next? hnext
  have hone : t.system.loops.filter (·.id == l.id) = [l] := by
    have hmem : l ∈ t.system.loops.filter (·.id == l.id) :=
      List.mem_filter.2 ⟨hl, beq_self_eq_true _⟩
    have hle := (length_loops_of_run hrear hsound l.id).trans honce
    obtain ⟨k, hk⟩ := List.length_eq_one_iff.1
      (Nat.le_antisymm hle (List.length_pos_of_mem hmem))
    rw [hk, List.mem_singleton] at hmem
    rw [hk, hmem]
  have hsubdued : Subdued l rear s := by
    refine subdued_of_run hrear ⟨hsound, hcut, Tracker.callsOff_of_isAborted haborted, by simp, ?_⟩
      honce
    exact ⟨l, hone, l.ebbs_start _⟩
  obtain ⟨q, -, hebbs⟩ := hsubdued.ebbs
  exact ceases_of_ebbs hsubdued.offBefore hebbs

/-! ### A command that is aborted with its first bucket on the way -/

/-- The command is cancelled when its loop has turned to the first bucket. -/
def cancelledEarly : List (Event Unit) :=
  let scroll : Event Unit := .system (.step (.scroll 0))
  [.system (.submit Tracker.archiveAll), scroll, scroll, scroll,
    .system (.abort Tracker.archiveAll.id none)]

/-- The consumer makes room for the second bucket. -/
def madeRoom : List (Event Unit) :=
  let scroll : Event Unit := .system (.step (.scroll 0))
  let consume : Event Unit := .system (.step (.consume 0))
  [scroll, scroll, consume, consume, scroll]

/-- The first bucket is full and on the way, and the second, which is not full, comes after it. -/
theorem last_bucket_after_abort_exhausted :
    ∃ front rear t s l, staffedWorkshop.IsNew ∧
      Run (next? smallSetup) staffedWorkshop front t ∧ Run (next? smallSetup) t rear s ∧
      l ∈ t.system.loops ∧ t.system.engine.tracker.isAborted l.id = true ∧
      (s.system.loops.filter (·.id == l.id)).length ≤ 1 ∧ (∀ m ∈ rear, IsKept l.id m) ∧
      l.command.bucketSize = 2 ∧ l.phase.offering?.map (·.ids) = some ["a", "b"] ∧
      l.phase.filled = [] ∧ (startedOf l.id rear).map (·.ids) = [["c"]] ∧
      (bucketsOf l.id (signs rear)).map (·.ids) = [["a", "b"], ["c"]] ∧ Ceases l rear := by
  have hcheck : (movesOf? (next? smallSetup) staffedWorkshop cancelledEarly).any (fun r =>
      (movesOf? (next? smallSetup) r.2 madeRoom).any fun q =>
        r.2.system.loops.any fun l =>
          r.2.system.engine.tracker.isAborted l.id && decide (q.2.system.loops.length ≤ 1) &&
          (q.1.all fun m => (m.before.system.engine.tracker.find? l.id).isSome) &&
          decide (l.command.bucketSize = 2) &&
          decide (l.phase.offering?.map (·.ids) = some ["a", "b"]) &&
          decide (l.phase.filled = []) &&
          decide ((startedOf l.id q.1).map (·.ids) = [["c"]]) &&
          decide ((bucketsOf l.id (signs q.1)).map (·.ids) = [["a", "b"], ["c"]])) = true := by
    decide +kernel
  obtain ⟨⟨front, t⟩, hfront, hrest⟩ := (Option.any_eq_true _ _).1 hcheck
  obtain ⟨⟨rear, s⟩, hrear, hs⟩ := (Option.any_eq_true _ _).1 hrest
  obtain ⟨l, hl, hs⟩ := List.any_eq_true.1 hs
  simp only [Bool.and_eq_true, decide_eq_true_eq, List.all_eq_true] at hs
  obtain ⟨⟨⟨⟨⟨⟨⟨haborted, hloops⟩, hkept⟩, hsize⟩, hoffering⟩, hfilled⟩, hstarted⟩, hpublished⟩ :=
    hs
  have hnew := isNew_staffedWorkshop
  have honce : (s.system.loops.filter (·.id == l.id)).length ≤ 1 :=
    Nat.le_trans (List.length_filter_le _ _) hloops
  exact ⟨front, rear, t, s, l, hnew, .of_movesOf? hfront, .of_movesOf? hrear, hl, haborted, honce,
    fun m hm => Option.isSome_iff_ne_none.1 (hkept m hm), hsize, hoffering, hfilled, hstarted,
    hpublished,
    last_bucket_after_abort hnew (.of_movesOf? hfront) (.of_movesOf? hrear) hl haborted honce⟩

end Workshop

end BulkRun
