import BulkRun.Proofs.Command.Defaults
import BulkRun.Proofs.Dispatch.AfterEnd
import BulkRun.Proofs.Dispatch.Tallies
/-!
# A scroll that breaks off ends the scroll, not the work

When the scroller of a command fails after some chunks, the records of these chunks are published
and worked on all the same, and the command ends as aborted when that is done and not before
(`scroll_failure_ends_the_scroll`).  The proof reads off the tally at the states of a run; that the
failure is the last answer tells which states these are, since a loop that has ended hears nothing
(`ended_of_run`).
-/

namespace BulkRun

variable {σ : Type} {setup : Setup σ} {id : CommandId} {k : Command}

/-! ## Answers -/

/-- The chunks among some answers. -/
def chunksIn (answers : List (Except Error Chunk)) : List Chunk := answers.filterMap Except.toOption

theorem chunksIn_ok (cs : List Chunk) : chunksIn (cs.map .ok) = cs := by
  rw [chunksIn, List.filterMap_map]
  exact List.filterMap_some

theorem chunksIn_error (cs : List Chunk) (err : Error) :
    chunksIn (cs.map .ok ++ [.error err]) = cs := by
  have happend : chunksIn (cs.map .ok ++ [.error err]) =
      chunksIn (cs.map .ok) ++ chunksIn [.error err] := List.filterMap_append
  rw [happend, chunksIn_ok]
  exact List.append_nil cs

/-- Answers that end with a failure are no chunks. -/
theorem map_ok_ne (cs ds : List Chunk) (err : Error) :
    (ds.map .ok : List (Except Error Chunk)) ≠ cs.map .ok ++ [.error err] := by
  intro h
  have hmem : Except.error err ∈ (ds.map .ok : List (Except Error Chunk)) := by
    rw [h]
    exact List.mem_append_right _ (List.mem_singleton_self _)
  obtain ⟨d, -, hd⟩ := List.mem_map.1 hmem
  exact absurd hd (by simp)

theorem eq_of_failure {cs ds : List Chunk} {err err' : Error}
    (h : (ds.map .ok ++ [.error err'] : List (Except Error Chunk)) = cs.map .ok ++ [.error err]) :
    ds = cs ∧ err' = err := by
  refine ⟨?_, ?_⟩
  · rw [← chunksIn_error ds err', h, chunksIn_error]
  · obtain ⟨-, hlast⟩ := List.append_inj' h rfl
    exact Except.error.inj (List.singleton_inj.1 hlast)

namespace ScrollLoop

variable {l : ScrollLoop σ} {cs : List Chunk} {heard : List (Except Error Chunk)}
  {published buckets : List Bucket} {found : Option Progress} {m : String}

theorem isEnded_of_streams (h : l.phase.Streams k cs heard published) : l.isEnded = false := by
  unfold isEnded
  cases hphase : l.phase with
  | ended how =>
    rw [hphase] at h
    exact h.elim
  | _ => rfl

/-- What a loop that has not ended has heard is the chunks it has come by, perhaps with a
failure. -/
theorem chunksIn_of_streams {phase : ScrollPhase} (h : phase.Streams k cs heard published) :
    chunksIn heard = cs := by
  have hafter {after : AfterBucket} {published : List Bucket}
      (h : after.Streams k cs heard published) : chunksIn heard = cs := by
    cases after with
    | goOn => rw [h.1, chunksIn_ok]
    | submit => rw [h.1, chunksIn_ok]
    | fail => rw [h.2.1, chunksIn_error]
  cases phase with
  | created =>
    rw [h.1, h.2.1]
    rfl
  | opening =>
    rw [h.1, h.2.1]
    rfl
  | fetching => rw [h.1, chunksIn_ok]
  | publishing => exact hafter h
  | waiting => exact hafter h
  | ended => exact h.elim

/-- What was published of a scroll that breaks off is a part of what it found before. -/
theorem Streams.buckets_of_failure {err : Error}
    (h : l.Streams k (cs.map .ok ++ [.error err]) published found) (hsize : 0 < k.bucketSize)
    (hbuckets : bucketize k.id (idsOf cs) k.bucketSize = .ok buckets) : published <+: buckets := by
  cases h with
  | @goesOn ds hphases _ =>
    obtain rfl := (chunksIn_of_streams hphases).symm.trans (chunksIn_error cs err)
    exact hphases.isPrefix hsize hbuckets
  | complete _ hheard => exact absurd hheard.symm (map_ok_ne _ _ _)
  | brokeOff _ hheard hpublished =>
    obtain ⟨rfl, -⟩ := eq_of_failure hheard
    rw [Except.ok.inj (hbuckets.symm.trans hpublished)]

end ScrollLoop

/-! ## Loops that have ended -/

namespace Bench

variable {b c : Bench σ} {sign : Option (Sign σ)} {l : ScrollLoop σ}

/-- A loop that has ended stays as it is, and nothing more is heard of its command. -/
theorem ended_turns (hkeys : (b.loops.map (·.key)).Nodup)
    (howned : ∀ l ∈ b.loops, l.phase.Owned l.id)
    (hturns : Turns setup b sign c) (hl : b.loops.filter (·.id == id) = [l])
    (hended : l.isEnded = true) (honce : (c.loops.filter (·.id == id)).length ≤ 1) :
    c.loops.filter (·.id == id) = [l] ∧ answersOf id sign.toList = [] := by
  -- whichever loop goes on is another one
  have hother {m : ScrollLoop σ} (hm : m ∈ b.loops) (hrun : m.isEnded = false) : m.id ≠ id := by
    rintro rfl
    have hmem : m ∈ b.loops.filter (·.id == m.id) := List.mem_filter.2 ⟨hm, beq_self_eq_true _⟩
    rw [hl, List.mem_singleton] at hmem
    rw [← hmem, hrun] at hended
    exact absurd hended (by simp)
  obtain hdeal | ⟨mid, hchain, hgrip⟩ := hturns
  · cases hdeal with
    | @resume m hm hrun =>
      obtain ⟨phase, hphase⟩ := (ScrollLoop.resumes_resume (e := b.engine) hrun).loop
      have hne := hother hm hrun
      refine ⟨?_, (ScrollLoop.sign?_other (howned m hm) b.engine (Ne.symm hne)).1⟩
      rw [← hl]
      exact View.filter_setLoop_other hkeys hm (by rw [hphase]) (by rw [hphase]; rfl) hne
    | @putOff m r hm hr =>
      refine ⟨?_, rfl⟩
      obtain rfl | ⟨bucket, after, d, hphase, -, rfl⟩ := ScrollLoop.putOff?_eq_some hr
      · rw [View.setLoop_self hkeys hm]
        exact hl
      · rw [← hl]
        have hrun : m.isEnded = false := by rw [ScrollLoop.isEnded, hphase]
        exact View.filter_setLoop_other hkeys hm rfl rfl (hother hm hrun)
    | @accept k₀ k' x u hprepare hreg =>
      have hmore {more : List (ScrollLoop σ)} (h : ([l] ++ more).length ≤ 1) :
          [l] ++ more = [l] := by
        rw [List.length_append, List.length_singleton] at h
        rw [List.length_eq_zero_iff.1 (show more.length = 0 by omega), List.append_nil]
      rw [List.filter_append, hl] at honce ⊢
      exact ⟨hmore honce, rfl⟩
    | _ => exact ⟨hl, rfl⟩
  · refine ⟨by rw [hgrip.loops, loops_of_chain hchain]; exact hl, ?_⟩
    cases hgrip with
    | @start e ls hs v r hr => exact (r.1.signs_of_sign? id).1
    | @work e ls hs v x r hr => exact (r.1.signs_of_sign? id).1
    | handBack h => split <;> rfl
    | _ => rfl

theorem AcceptsOnce.length_le (h : b.AcceptsOnce k) :
    (b.loops.filter (·.id == k.id)).length ≤ 1 := by
  obtain hnone | ⟨l, hl, -⟩ := h.cases
  · rw [hnone]
    exact Nat.zero_le 1
  · rw [hl]
    exact Nat.le_refl 1

/-- A command that is accepted once at most was so before. -/
theorem AcceptsOnce.of_commands (h : c.AcceptsOnce k) (hle : b.commands <+: c.commands) :
    b.AcceptsOnce k := (hle.filter _).trans h

end Bench

namespace Workshop

variable {s s₀ t : Workshop σ} {moves rear : List (Move (Workshop σ) (Event σ))}

/-! ## Along a run -/

/-- The signs that some moves give, one after the other. -/
def signs (moves : List (Move (Workshop σ) (Event σ))) : List (Sign σ) := moves.filterMap sign?

theorem signs_append (front rear : List (Move (Workshop σ) (Event σ))) :
    signs (front ++ rear) = signs front ++ signs rear := List.filterMap_append

theorem signs_concat (moves : List (Move (Workshop σ) (Event σ)))
    (m : Move (Workshop σ) (Event σ)) : signs (moves ++ [m]) = signs moves ++ (sign? m).toList := by
  have hone : signs [m] = (sign? m).toList := by
    cases hsign : sign? m with
    | none => exact List.filterMap_cons_none hsign
    | some sign => exact List.filterMap_cons_some hsign
  rw [signs_append, hone]

theorem mem_answersOf_signs {m : Move (Workshop σ) (Event σ)} {answer : Except Error Chunk}
    (hm : m ∈ moves) (h : answer ∈ answersOf id (sign? m).toList) :
    answer ∈ answersOf id (signs moves) := by
  obtain ⟨sign, hsign, hanswer⟩ := List.mem_filterMap.1 h
  exact List.mem_filterMap.2 ⟨sign, List.mem_filterMap.2 ⟨m, hm, Option.mem_toList.1 hsign⟩,
    hanswer⟩

/-- What is kept along a run as far as a command is concerned. -/
structure Steady (k : Command) (moves : List (Move (Workshop σ) (Event σ))) (s : Workshop σ) :
    Prop where
  dutiful : s.Dutiful k.id
  homed : s.bench.Homed
  isOpen : s.system.engine.channel.IsOpen
  tallies : s.bench.Tallies k (signs moves)

theorem IsNew.steady (h : s.IsNew) (hopen : s.system.engine.channel.IsOpen) (k : Command) :
    s.Steady k [] where
  dutiful := h.dutiful k.id
  homed := h.homed_bench
  isOpen := hopen
  tallies := by
    have hmeets := (h.dutiful k.id).meets
    have hloops : s.bench.loops = [] := h.loops
    obtain ⟨hgone, hnone⟩ := hmeets.unseen (by rw [hloops]; rfl)
    refine ⟨fun _ => ⟨rfl, rfl⟩, fun l hl => ?_, ?_, ?_⟩
    · rw [hloops] at hl
      exact absurd hl (by simp)
    · rw [h.hands_bench]
      exact fun hand hmem => absurd hmem (Multiset.notMem_zero hand)
    · rw [Bench.there, hnone]
      refine .new _ fun p hp => ?_
      rw [hgone] at hp
      exact absurd hp (by simp)

/-- Commands are accepted when they were prepared, and never forgotten. -/
theorem commands_next? {event : Event σ} (h : s.system.Sound)
    (hnext : s.next? setup event = some t) :
    ∃ new, t.bench.commands = s.bench.commands ++ new ∧
      ∀ k ∈ new, ∃ k₀ x, setup.prepare k₀ = .ok (k, x) :=
  Bench.commands_turns h.nodup (turns_next? h.distinct hnext)

/-- Every command was prepared before it was accepted. -/
theorem prepared_of_run (hrun : Run (next? setup) s₀ moves s) (hnew : s₀.bench.commands = [])
    (hsound : ∀ m ∈ moves, m.before.system.Sound) :
    ∀ k ∈ s.bench.commands, ∃ k₀ x, setup.prepare k₀ = .ok (k, x) := by
  induction hrun with
  | start =>
    rw [hnew]
    exact fun k hk => absurd hk List.not_mem_nil
  | @move moves u v event _ hnext ih =>
    obtain ⟨new, hcommands, hprepared⟩ := commands_next? (hsound ⟨u, event, v⟩ (by simp)) hnext
    rw [hcommands]
    intro k hk
    obtain hk | hk := List.mem_append.1 hk
    · exact ih (fun m hm => hsound m (List.mem_append_left _ hm)) k hk
    · exact hprepared k hk

/-- What is looked up for a command is there. -/
theorem resolves_of_prepare {k₀ : Command} {x : Numbered (Scroller σ)}
    (h : setup.prepare k₀ = .ok (k, x)) : 0 < k.bucketSize ∧
      ∃ registered, setup.actions.resolve k.action = .ok registered := by
  obtain ⟨registered, hregistered, hresolve, -⟩ := System.prepare_eq_ok h
  obtain ⟨-, hsame, hsize⟩ := DispatcherSettings.resolve_eq_ok hresolve
  exact ⟨hsize, registered, by rw [hsame]; exact hregistered⟩

/-- No command but those that were accepted in the end was ever accepted. -/
theorem commands_of_run (hrun : Run (next? setup) t rear s)
    (hsound : ∀ m ∈ rear, m.before.system.Sound) : t.bench.commands <+: s.bench.commands ∧
      ∀ m ∈ rear, m.after.bench.commands <+: s.bench.commands := by
  refine hrun.related (R := fun t u => t.bench.commands <+: u.bench.commands)
    (fun _ => List.prefix_refl _) List.IsPrefix.trans fun m hm => ?_
  obtain ⟨new, hnew, -⟩ := commands_next? (hsound m hm) (hrun.next?_of_mem hm)
  rw [hnew]
  exact List.prefix_append _ _

/-- Whether nothing happens in a move that disturbs the work for a command. -/
structure IsFair (k : Command) (m : Move (Workshop σ) (Event σ)) : Prop where
  calm : IsCalm k.id (sign? m)
  fits : ∀ l ∈ m.after.system.loops, l.id = k.id → l.phase.scrolled < wordCount
  once : m.after.bench.AcceptsOnce k

theorem Steady.next? {event : Event σ} (h : s.Steady k moves)
    (hnext : s.next? setup event = some t) (hfair : IsFair k ⟨s, event, t⟩)
    (hsize : 0 < k.bucketSize)
    (hloyal : ∃ registered, setup.actions.resolve k.action = .ok registered ∧
      registered.action.IsLoyal) : t.Steady k (moves ++ [⟨s, event, t⟩]) := by
  have hsound := h.dutiful.tends.sound.system
  have hturns := turns_next? hsound.distinct hnext
  obtain ⟨new, hnew, -⟩ := commands_next? hsound hnext
  have hbefore : s.bench.AcceptsOnce k := hfair.once.of_commands (hnew ▸ List.prefix_append _ _)
  obtain ⟨htallies, hopen⟩ := h.tallies.turns h.dutiful.meets h.homed h.isOpen hsound.nodup
    hsound.owned hbefore hfair.once hsize hloyal hturns hfair.calm hfair.fits
  refine ⟨h.dutiful.next? hnext (not_undoes hfair.calm.whole) hfair.fits, h.homed.turns hturns,
    hopen, ?_⟩
  rw [signs_concat]
  exact htallies

theorem IsNew.steady_of_run (hnew : s₀.IsNew) (hopen : s₀.system.engine.channel.IsOpen)
    (hrun : Run (next? setup) s₀ moves s) (hfair : ∀ m ∈ moves, IsFair k m)
    (hsize : 0 < k.bucketSize)
    (hloyal : ∃ registered, setup.actions.resolve k.action = .ok registered ∧
      registered.action.IsLoyal) : s.Steady k moves := by
  induction hrun with
  | start => exact hnew.steady hopen k
  | @move moves u v event _ hnext ih =>
    have hsteady := ih fun m hm => hfair m (List.mem_append_left _ hm)
    exact hsteady.next? hnext (hfair _ (by simp)) hsize hloyal

/-- Once a loop has ended, nothing more is heard of its command. -/
theorem ended_of_run {l : ScrollLoop σ} (hrun : Run (next? setup) t rear s) (ht : t.Dutiful k.id)
    (hl : t.system.loops.filter (·.id == k.id) = [l]) (hended : l.isEnded = true)
    (hfair : ∀ m ∈ rear, IsFair k m) : answersOf k.id (signs rear) = [] := by
  have hrest : s.Dutiful k.id ∧ s.system.loops.filter (·.id == k.id) = [l] ∧
      answersOf k.id (signs rear) = [] := by
    induction hrun with
    | start => exact ⟨ht, hl, rfl⟩
    | @move moves u v event _ hnext ih =>
      obtain ⟨hdutiful, hsame, hquiet⟩ := ih fun m hm => hfair m (List.mem_append_left _ hm)
      have hlast : IsFair k ⟨u, event, v⟩ := hfair _ (by simp)
      have hsound := hdutiful.tends.sound.system
      obtain ⟨hstill, hnone⟩ := Bench.ended_turns hsound.nodup hsound.owned
        (turns_next? hsound.distinct hnext) hsame hended hlast.once.length_le
      refine ⟨hdutiful.next? hnext (not_undoes hlast.calm.whole) hlast.fits, hstill, ?_⟩
      rw [signs_concat, answersOf_append, hquiet, hnone]
      rfl
  exact hrest.2.2

/-- How a command stands in the course of a scroll that breaks off after some chunks: it is yet to
come, or it scrolls, or its scroll has ended. -/
inductive Stands (k : Command) (cs : List Chunk) (m : String) (buckets : List Bucket)
    (moves : List (Move (Workshop σ) (Event σ))) (t : Workshop σ) : Prop
  | unseen (hloops : t.system.loops.filter (·.id == k.id) = [])
      (hfound : t.system.engine.tracker.find? k.id = none)
  | scrolls {l : ScrollLoop σ} (hl : t.system.loops.filter (·.id == k.id) = [l])
      (hrun : l.isEnded = false) (hfound : Counts k (chunksIn (answersOf k.id (signs moves)))
        (t.system.engine.tracker.find? k.id))
  | ended {l : ScrollLoop σ} (hl : t.system.loops.filter (·.id == k.id) = [l])
      (hended : l.isEnded = true) (hpublished : bucketsOf k.id (signs moves) = buckets)
      (hchunks : chunksIn (answersOf k.id (signs moves)) = cs)
      (hfound : ∀ p, t.system.engine.tracker.find? k.id = some p →
        p.BrokeOff k (idsOf cs).length (Error.scroll m).message)

theorem Steady.stands {cs : List Chunk} {m : String} {buckets : List Bucket}
    (h : t.Steady k moves) (honce : t.bench.AcceptsOnce k)
    (hanswers : answersOf k.id (signs moves) ++ answersOf k.id (signs rear) =
      cs.map .ok ++ [.error (.scroll m)])
    (hbuckets : bucketize k.id (idsOf cs) k.bucketSize = .ok buckets)
    (hquiet : ∀ l, t.system.loops.filter (·.id == k.id) = [l] → l.isEnded = true →
      answersOf k.id (signs rear) = []) : Stands k cs m buckets moves t := by
  obtain hunseen | ⟨l, hl, -⟩ := honce.cases
  · exact .unseen hunseen (h.dutiful.meets.unseen hunseen).1
  · cases h.tallies.streams l hl with
    | goesOn hphases hfound =>
      refine .scrolls hl (ScrollLoop.isEnded_of_streams hphases) ?_
      rw [ScrollLoop.chunksIn_of_streams hphases]
      exact hfound
    | @complete ds hended hheard _ =>
      -- nothing is heard after the end, but a failure was
      rw [hquiet l hl hended, List.append_nil, hheard] at hanswers
      exact absurd hanswers (map_ok_ne _ _ _)
    | @brokeOff ds m' hended hheard hpublished hfound =>
      rw [hquiet l hl hended, List.append_nil, hheard] at hanswers
      obtain ⟨rfl, hm⟩ := eq_of_failure hanswers
      obtain rfl := Error.scroll.inj hm
      refine .ended hl hended (Except.ok.inj (hpublished.symm.trans hbuckets)) ?_ hfound
      rw [hheard, chunksIn_error]

/-! ## The main statement -/

/-- What becomes of a command whose scroll breaks off after some chunks, whose records are cut into
some buckets: `t` is a state on the way, after some moves. -/
structure Drains (k : Command) (cs : List Chunk) (m : String) (buckets : List Bucket)
    (moves : List (Move (Workshop σ) (Event σ))) (t : Workshop σ) : Prop where
  /-- The buckets are published in order. -/
  published : bucketsOf k.id (signs moves) <+: buckets
  /-- No records count as scrolled but those of the chunks that have come. -/
  counted : ∀ p, t.system.engine.tracker.find? k.id = some p →
    p.scrollCount = (idsOf (chunksIn (answersOf k.id (signs moves)))).length
  /-- The command goes on as long as its scroll does. -/
  scrolls : ∀ l, t.system.loops.filter (·.id == k.id) = [l] → l.isEnded = false →
    ∃ p, t.system.engine.tracker.find? k.id = some p ∧ p.state.isTerminal = false
  /-- When the scroll has ended, all buckets are published and the failure is told. -/
  told : ∀ l, t.system.loops.filter (·.id == k.id) = [l] → l.isEnded = true →
    bucketsOf k.id (signs moves) = buckets ∧
    ∀ p, t.system.engine.tracker.find? k.id = some p → p.submitted = false ∧
      p.errorMessage = some (Error.scroll m).message ∧ p.scrollCount = (idsOf cs).length
  /-- The command ends when all records are worked on, and it ends as aborted. -/
  ended : ∀ p, t.system.engine.tracker.find? k.id = some p → p.state.isTerminal = true →
    p.state = .aborted ∧ p.processed = (idsOf cs).length ∧ p.scrollCount = (idsOf cs).length
  /-- By then a transaction was asked for each batch of each bucket. -/
  begun : t.system.loops.filter (·.id == k.id) ≠ [] →
    (∀ p, t.system.engine.tracker.find? k.id = some p → p.state.isTerminal = true) →
    ∀ b ∈ buckets, AllBegun k (openedOf k.id (signs moves)) b
  /-- It has ended, and may be dropped, once its scroll loop has returned and no bucket of it is
left. -/
  drained : ∀ l, t.system.loops.filter (·.id == k.id) = [l] → l.phase.hasReturned = true →
    (∀ b ∈ t.system.engine.channel.buckets, b.commandId ≠ k.id) →
    (∀ lot ∈ heldBy t.system.consumers t.hands, lot.bucket.commandId = k.id →
      lot.standing = .ended) →
    ∀ p, t.system.engine.tracker.find? k.id = some p → p.state.isTerminal = true

theorem Steady.drains {cs : List Chunk} {m : String} {buckets : List Bucket} (h : t.Steady k moves)
    (hstands : Stands k cs m buckets moves t)
    (hpublished : bucketsOf k.id (signs moves) <+: buckets)
    (hdrained : ∀ l, t.system.loops.filter (·.id == k.id) = [l] → l.phase.hasReturned = true →
      (∀ b ∈ t.system.engine.channel.buckets, b.commandId ≠ k.id) →
      (∀ lot ∈ heldBy t.system.consumers t.hands, lot.bucket.commandId = k.id →
        lot.standing = .ended) →
      ∀ p, t.system.engine.tracker.find? k.id = some p → p.state.isTerminal = true) :
    Drains k cs m buckets moves t := by
  cases hstands with
  | unseen hloops hfound =>
    have hnone {P : Progress → Prop} :
        ∀ p, t.system.engine.tracker.find? k.id = some p → P p := by
      intro p hp
      rw [hfound] at hp
      exact absurd hp (by simp)
    have hnobody {P : ScrollLoop σ → Prop} :
        ∀ l, t.system.loops.filter (·.id == k.id) = [l] → P l := by
      intro l hl
      rw [hloops] at hl
      exact absurd hl (by simp)
    exact ⟨hpublished, hnone, hnobody, hnobody, hnone, fun hseen => absurd hloops hseen, hdrained⟩
  | @scrolls l hl hrun hfound =>
    obtain ⟨p, hp, hscrolls⟩ := hfound
    have hself {q : Progress} (hq : t.system.engine.tracker.find? k.id = some q) : q = p :=
      Option.some.inj (hq.symm.trans hp)
    refine ⟨hpublished, fun q hq => ?_, fun _ _ _ => ⟨p, hp, hscrolls.goesOn⟩,
      fun l' hl' hended => ?_, fun q hq hterminal => ?_, fun _ hterminal => ?_, hdrained⟩
    · rw [hself hq]
      exact hscrolls.count
    · rw [← List.singleton_inj.1 (hl.symm.trans hl'), hrun] at hended
      exact absurd hended (by simp)
    · rw [hself hq, hscrolls.goesOn] at hterminal
      exact absurd hterminal (by simp)
    · have hended := hterminal p hp
      rw [hscrolls.goesOn] at hended
      exact absurd hended (by simp)
  | @ended l hl hended hbuckets hchunks hfound =>
    refine ⟨hpublished, fun p hp => ?_, fun l' hl' hrun => ?_,
      fun _ _ _ => ⟨hbuckets, fun p hp => ?_⟩, fun p hp hterminal => ?_, fun _ hterminal => ?_,
      hdrained⟩
    · rw [hchunks]
      exact (hfound p hp).count
    · rw [← List.singleton_inj.1 (hl.symm.trans hl'), hended] at hrun
      exact absurd hrun (by simp)
    · exact ⟨(hfound p hp).submitted, (hfound p hp).message, (hfound p hp).count⟩
    · obtain ⟨hstate, hprocessed⟩ := (hfound p hp).ended hterminal
      exact ⟨hstate, hprocessed, (hfound p hp).count⟩
    · rw [← hbuckets]
      exact h.tallies.worked.ended hterminal

/-- A failure of a scroll ends the scroll, and not the work.  If the scroller of a command answers
with some chunks and then with a failure, be it of its own or because a chunk breaks the rules of
scrolling, the records of these chunks are cut into buckets as ever, all of which are published and
worked on before the command ends as aborted. -/
theorem scroll_failure_ends_the_scroll (hnew : s₀.IsNew)
    (hopen : s₀.system.engine.channel.IsOpen) (hrun : Run (next? setup) s₀ moves s)
    {l : ScrollLoop σ}
    -- the command was accepted once
    (honce : s.system.loops.filter (·.id == l.command.id) = [l])
    (hloyal : ∀ registered, setup.actions.resolve l.command.action = .ok registered →
      registered.action.IsLoyal)
    -- nobody cancels the command
    (hstays : ∀ m ∈ moves, ∀ isNew, sign? m ≠ some (.aborted l.command.id isNew))
    -- deliveries are handed back before or after the work on them
    (hwhole : ∀ m ∈ moves, sign? m ≠ some .brokenOff)
    (hreceives : ∀ m ∈ moves, ∀ i, sign? m ≠ some (.closed i))
    (hfits : ∀ m ∈ moves, ∀ k ∈ m.after.system.loops, k.id = l.command.id →
      k.phase.scrolled < wordCount)
    {cs : List Chunk} {m : String}
    (hanswers : answersOf l.command.id (signs moves) = cs.map .ok ++ [.error (.scroll m)]) :
    ∃ buckets, bucketize l.command.id (idsOf cs) l.command.bucketSize = .ok buckets ∧
      ∀ front rear t, moves = front ++ rear → Run (next? setup) s₀ front t →
        Run (next? setup) t rear s → Drains l.command cs m buckets front t := by
  have hdutiful : ∀ m ∈ moves, m.before.Dutiful l.command.id := by
    have hkept : ∀ m ∈ moves, sign? m ≠ some .brokenOff ∧
        ∀ k ∈ m.after.system.loops, k.id = l.command.id → k.phase.scrolled < wordCount :=
      fun m hm => ⟨hwhole m hm, hfits m hm⟩
    exact fun m hm => (hrun.invariant_of_mem hkept (hnew.dutiful _)
      (fun _ _ _ hnext h hs => hs.next? hnext (not_undoes h.1) h.2) m hm).1
  have hsound : ∀ m ∈ moves, m.before.system.Sound :=
    fun m hm => (hdutiful m hm).tends.sound.system
  have hmem : l ∈ s.system.loops.filter (·.id == l.command.id) := by
    rw [honce]
    exact List.mem_singleton_self l
  obtain ⟨hsize, registered, hresolve⟩ : 0 < l.command.bucketSize ∧
      ∃ registered, setup.actions.resolve l.command.action = .ok registered := by
    have hcommands : s₀.bench.commands = [] := by
      rw [Bench.commands, bench, hnew.loops, List.map_nil]
    obtain ⟨k₀, x, hprepare⟩ := prepared_of_run hrun hcommands hsound
      l.command (List.mem_map_of_mem (List.mem_filter.1 hmem).1)
    exact resolves_of_prepare hprepare
  -- there never were other commands of this number than there are in the end
  have hbefore {t : Workshop σ} (h : t.bench.commands <+: s.bench.commands) :
      t.bench.AcceptsOnce l.command := (Bench.acceptsOnce_of_filter honce).of_commands h
  have hfair : ∀ m ∈ moves, IsFair l.command m := by
    intro m' hm'
    refine ⟨⟨fun err herr => ?_, hstays m' hm', hwhole m' hm', hreceives m' hm'⟩, hfits m' hm',
      hbefore ((commands_of_run hrun hsound).2 m' hm')⟩
    have hheard := mem_answersOf_signs hm' herr
    rw [hanswers] at hheard
    obtain hheard | hheard := List.mem_append.1 hheard
    · obtain ⟨c, -, hc⟩ := List.mem_map.1 hheard
      exact absurd hc (by simp)
    · exact ⟨m, Except.error.inj (List.mem_singleton.1 hheard)⟩
  obtain ⟨buckets, hbuckets⟩ : ∃ buckets,
      bucketize l.command.id (idsOf cs) l.command.bucketSize = .ok buckets :=
    ⟨_, Bucketizer.bucketize_of_push hsize _⟩
  refine ⟨buckets, hbuckets, ?_⟩
  rintro front rear t rfl hfront hrear
  obtain ⟨hfrontFair, hrearFair⟩ := List.forall_mem_append.1 hfair
  have ht := hnew.steady_of_run hopen hfront hfrontFair hsize
    ⟨registered, hresolve, hloyal _ hresolve⟩
  have hsplit : answersOf l.command.id (signs front) ++ answersOf l.command.id (signs rear) =
      cs.map .ok ++ [.error (.scroll m)] := by
    rw [← answersOf_append, ← signs_append]
    exact hanswers
  have htonce := hbefore (commands_of_run hrear (List.forall_mem_append.1 hsound).2).1
  have hstands := ht.stands htonce hsplit hbuckets fun l' hl' hended =>
    ended_of_run hrear ht.dutiful hl' hended hrearFair
  refine ht.drains hstands ?_ ?_
  · -- what was published by now was published in the end
    have hs := hnew.steady_of_run hopen hrun hfair hsize ⟨registered, hresolve, hloyal _ hresolve⟩
    have hall := hs.tallies.streams l honce
    rw [hanswers] at hall
    have hpublished := hall.buckets_of_failure hsize hbuckets
    rw [signs_append, bucketsOf_append] at hpublished
    exact (List.prefix_append _ _).trans hpublished
  · intro l' hl' hreturned hchannel hheld p hp
    have hmem' : l' ∈ t.system.loops.filter (·.id == l.command.id) := by
      rw [hl']
      exact List.mem_singleton_self l'
    have hid : l'.id = l.command.id := eq_of_beq (List.mem_filter.1 hmem').2
    rw [← hid] at hl' hchannel hheld hp
    obtain hgone | ⟨q, hq, hterminal⟩ := not_hanging hnew hfront hl' hreturned
      (fun m hm k hk hkid => (hfrontFair m hm).fits k hk (hkid.trans hid)) hchannel hheld
    · rw [hgone] at hp
      exact absurd hp (by simp)
    · rw [Option.some.inj (hp.symm.trans hq)]
      exact hterminal

/-! ### A scroll that breaks off while a batch is in flight -/

/-- A scroller that finds three records, and whose source breaks down then. -/
def breaksDown : Scroller Unit where
  kind := .query
  start c w := (.ok (.new c), w)
  reserved _ _ := 0
  next c _ w :=
    if c.produced = 0 then (.ok ⟨["a", "b", "c"], false⟩, { c with produced := 3 }, w)
    else (.error (.scroll "connection lost"), c, w)

/-- Collaborators with this scroller. -/
def brittleSetup : Setup Unit :=
  { smallSetup with
    scrollers := ScrollerRegistry.empty.register .query "default" breaksDown }

/-- The scroll fails with one bucket published and the next one not full, and that is told when the
consumer works on the first batch. -/
def brokenScroll : List (Event Unit) :=
  let scroll : Event Unit := .system (.step (.scroll 0))
  let consume : Event Unit := .system (.step (.consume 0))
  [.system (.submit Tracker.archiveAll), scroll, scroll, scroll, scroll, scroll, scroll, consume,
    consume, scroll]

/-- The consumer works on what was published. -/
def workedThrough : List (Event Unit) := List.replicate 11 (.system (.step (.consume 0)))

theorem isLoyal_willing : willing.IsLoyal := by
  constructor
  · intro context ids call w w' reply h
    obtain ⟨rfl, -⟩ := Prod.mk.inj (Option.some.inj h)
    exact List.not_mem_nil
  · intro context ids call w w' reply h m
    obtain ⟨rfl, -⟩ := Prod.mk.inj (Option.some.inj h)
    simp

/-- Whether something happens in a move that disturbs the work for a command. -/
def disturbs (id : CommandId) (m : Move (Workshop σ) (Event σ)) : Bool :=
  match sign? m with
  | some (.aborted k _) => k == id
  | some .brokenOff => true
  | some (.closed _) => true
  | _ => false

theorem ne_of_not_disturbs {m : Move (Workshop σ) (Event σ)} (h : disturbs id m = false) :
    (∀ isNew, sign? m ≠ some (.aborted id isNew)) ∧ sign? m ≠ some .brokenOff ∧
      ∀ i, sign? m ≠ some (.closed i) := by
  unfold disturbs at h
  refine ⟨fun isNew hsign => ?_, fun hsign => ?_, fun i hsign => ?_⟩
  all_goals
    rw [hsign] at h
    simp at h

/-- All three records are worked on after the failure was told. -/
theorem scroll_failure_ends_the_scroll_midway :
    ∃ front rear t s l buckets, staffedWorkshop.IsNew ∧
      staffedWorkshop.system.engine.channel.IsOpen ∧
      Run (next? brittleSetup) staffedWorkshop front t ∧ Run (next? brittleSetup) t rear s ∧
      s.system.loops.filter (·.id == l.command.id) = [l] ∧
      (∀ registered, brittleSetup.actions.resolve l.command.action = .ok registered →
        registered.action.IsLoyal) ∧
      (∀ m ∈ front ++ rear, (∀ isNew, sign? m ≠ some (.aborted l.command.id isNew)) ∧
        sign? m ≠ some .brokenOff ∧ ∀ i, sign? m ≠ some (.closed i)) ∧
      (∀ m ∈ front ++ rear, ∀ k ∈ m.after.system.loops, k.id = l.command.id →
        k.phase.scrolled < wordCount) ∧
      answersOf l.command.id (signs (front ++ rear)) =
        [⟨["a", "b", "c"], false⟩].map .ok ++ [.error (.scroll "connection lost")] ∧
      buckets.map (·.ids) = [["a", "b"], ["c"]] ∧
      (t.system.engine.tracker.find? l.command.id).map (fun p => (p.state.isTerminal,
        p.processed)) = some (false, 0) ∧
      (s.system.engine.tracker.find? l.command.id).map (fun p => (p.state, p.processed)) =
        some (.aborted, 3) ∧
      Drains l.command [⟨["a", "b", "c"], false⟩] "connection lost" buckets front t ∧
      Drains l.command [⟨["a", "b", "c"], false⟩] "connection lost" buckets (front ++ rear) s := by
  have hcheck : (movesOf? (next? brittleSetup) staffedWorkshop brokenScroll).any (fun r =>
      (movesOf? (next? brittleSetup) r.2 workedThrough).any fun q =>
        let id := Tracker.archiveAll.id
        decide (q.2.system.loops.map (fun l => (l.command.id, l.command.bucketSize)) = [(id, 2)]) &&
        ((r.1 ++ q.1).all fun m => !disturbs id m &&
          m.after.system.loops.all fun k => decide (k.phase.scrolled < wordCount)) &&
        decide (answersOf id (signs (r.1 ++ q.1)) =
          [.ok ⟨["a", "b", "c"], false⟩, .error (.scroll "connection lost")]) &&
        decide ((r.2.system.engine.tracker.find? id).map (fun p => (p.state.isTerminal,
          p.processed)) = some (false, 0)) &&
        decide ((q.2.system.engine.tracker.find? id).map (fun p => (p.state, p.processed)) =
          some (.aborted, 3))) = true := by
    decide +kernel
  obtain ⟨⟨front, t⟩, hfront, hrest⟩ := (Option.any_eq_true _ _).1 hcheck
  obtain ⟨⟨rear, s⟩, hrear, hs⟩ := (Option.any_eq_true _ _).1 hrest
  simp only [Bool.and_eq_true, Bool.not_eq_true', decide_eq_true_eq, List.all_eq_true] at hs
  obtain ⟨⟨⟨⟨hloops, hmoves⟩, hanswers⟩, hearly⟩, hlate⟩ := hs
  obtain ⟨l, hl, hcommand⟩ := List.map_eq_singleton_iff.1 hloops
  obtain ⟨hid, hsize⟩ := Prod.mk.inj hcommand
  rw [← hid] at hmoves hanswers hearly hlate
  have hnew := isNew_staffedWorkshop
  have hopen : staffedWorkshop.system.engine.channel.IsOpen := ⟨by decide, by decide⟩
  have honce : s.system.loops.filter (·.id == l.command.id) = [l] := by
    rw [hl]
    simp [ScrollLoop.id]
  have hloyal : ∀ registered, brittleSetup.actions.resolve l.command.action = .ok registered →
      registered.action.IsLoyal := by
    intro registered h
    unfold ActionRegistry.resolve at h
    split at h
    · rename_i found hfound
      obtain rfl := Except.ok.inj h
      obtain ⟨name, hmem⟩ : ∃ name, (name, found) ∈ brittleSetup.actions.entries := by
        obtain ⟨front, rear, hentries, -⟩ := List.lookup_eq_some_iff.1 hfound
        exact ⟨_, hentries ▸ List.mem_append_right _ List.mem_cons_self⟩
      obtain ⟨-, rfl⟩ := Prod.mk.inj (List.mem_singleton.1 hmem)
      exact isLoyal_willing
    · exact absurd h (by simp)
  have hcalm : ∀ m ∈ front ++ rear, (∀ isNew, sign? m ≠ some (.aborted l.command.id isNew)) ∧
      sign? m ≠ some .brokenOff ∧ ∀ i, sign? m ≠ some (.closed i) :=
    fun m hm => ne_of_not_disturbs (hmoves m hm).1
  have hfits : ∀ m ∈ front ++ rear, ∀ k ∈ m.after.system.loops, k.id = l.command.id →
      k.phase.scrolled < wordCount := fun m hm k hk _ => (hmoves m hm).2 k hk
  have hheard : answersOf l.command.id (signs (front ++ rear)) =
      ([⟨["a", "b", "c"], false⟩] : List Chunk).map .ok ++ [.error (.scroll "connection lost")] :=
    hanswers
  obtain ⟨buckets, hbuckets, hdrains⟩ := scroll_failure_ends_the_scroll hnew hopen
    (Run.append (.of_movesOf? hfront) hrear) honce hloyal (fun m hm => (hcalm m hm).1)
    (fun m hm => (hcalm m hm).2.1) (fun m hm => (hcalm m hm).2.2) hfits hheard
  have hcut : buckets.map (·.ids) = [["a", "b"], ["c"]] := by
    rw [hsize] at hbuckets
    rw [← Except.ok.inj hbuckets]
    simp [idsOf, chunks]
  have hwhole : Run (next? brittleSetup) staffedWorkshop (front ++ rear) s :=
    Run.append (.of_movesOf? hfront) hrear
  exact ⟨front, rear, t, s, l, buckets, hnew, hopen, .of_movesOf? hfront, .of_movesOf? hrear, honce,
    hloyal, hcalm, hfits, hheard, hcut, hearly, hlate,
    hdrains front rear t rfl (.of_movesOf? hfront) (.of_movesOf? hrear),
    hdrains (front ++ rear) [] s (List.append_nil _).symm hwhole .start⟩

end Workshop

end BulkRun
