import BulkRun.Proofs.Dispatch.Flow
import BulkRun.Proofs.Dispatch.ScrollLoop
/-!
# Scroll loops keep the flow

What a scroll loop has yet to bring is said by its phase.  Every step of it keeps the flow of its
command: a chunk that the scroller hands out is counted and cut into buckets, each bucket is
published behind the others, and the end is told when nothing is left.  The steps of a loop follow
`publishNext`, and so do the lemmas.
-/

namespace BulkRun

open InMemory (World Source)
open Tracker (exists_answer)

variable {plan : Plan} {w₀ : World} {hold : Holding} {applied : List String} {p : Progress}

/-- Whether a gathering is on its way through the records of a plan. -/
structure Gathering.Follows (plan : Plan) (g : Gathering) : Prop where
  command : g.cursor.command = plan.command
  lists : g.cursor.Lists (plan.lists.found plan.command.query)

/-- What a gathering has yet to bring, behind some buckets. -/
def Gathering.supply (plan : Plan) (line : List Bucket) (g : Gathering) : Supply where
  line := line
  loose := g.bucketizer.pending
  uncounted := g.cursor.left (plan.lists.found plan.command.query)
  next? := some g.bucketizer.emitted
  ended := false

/-- Whether what follows a bucket is what a plan says. -/
def AfterBucket.Follows (plan : Plan) : AfterBucket → Prop
  | .goOn _ exhausted g => g.Follows plan ∧ exhausted = g.cursor.exhausted
  | .submit _ _ => True
  | .fail _ => False

/-- What is yet to come when the last bucket was published. -/
def AfterBucket.supply (plan : Plan) (line : List Bucket) : AfterBucket → Supply
  | .goOn full _ g => g.supply plan (line ++ full)
  | .submit _ _ => ⟨line, [], [], none, false⟩
  | .fail _ => ⟨line, [], [], none, false⟩

/-- Whether a loop is where a plan may lead it. -/
def ScrollPhase.Follows (plan : Plan) : ScrollPhase → Prop
  | .created => True
  | .opening => True
  | .fetching g => g.Follows plan ∧ g.cursor.exhausted = false
  | .publishing _ after => after.Follows plan
  | .waiting _ after => after.Follows plan
  | .ended how => ∃ scrolled buckets, how = .submitted scrolled buckets

/-- What a loop has yet to bring, when some buckets are published and not received. -/
def ScrollPhase.supply (plan : Plan) (queue : List Bucket) : ScrollPhase → Supply
  | .created => ⟨queue, [], plan.records, some 0, false⟩
  | .opening => ⟨queue, [], plan.records, some 0, false⟩
  | .fetching g => g.supply plan queue
  | .publishing b after => after.supply plan (queue ++ [b])
  | .waiting b after => after.supply plan (queue ++ [b])
  | .ended _ => ⟨queue, [], [], none, true⟩

/-- The buckets that were published come first. -/
theorem ScrollPhase.supply_cons (plan : Plan) (v : Bucket) (queue : List Bucket)
    (phase : ScrollPhase) :
    phase.supply plan (v :: queue) =
      { phase.supply plan queue with line := v :: (phase.supply plan queue).line } := by
  cases phase with
  | publishing b after => cases after <;> rfl
  | waiting b after => cases after <;> rfl
  | _ => rfl

namespace ScrollLoop

/-- Whether a loop scrolls the command of a plan. -/
structure IsOf (plan : Plan) (l : ScrollLoop World) : Prop where
  command : l.command = plan.command
  scroller : l.scroller = (Source.queryLists plan.lists).scroller plan.source
  fetchSize : l.fetchSize = plan.fetchSize

theorem IsOf.id {l : ScrollLoop World} (h : l.IsOf plan) : l.id = plan.id :=
  congrArg Command.id h.command

/-- A loop and an engine that keep the flow of a plan. -/
structure Flows (plan : Plan) (queue : List Bucket) (hold : Holding) (applied : List String)
    (r : ScrollLoop World × Engine World) : Prop where
  follows : r.1.phase.Follows plan
  flow : ∃ p, r.2.tracker.find? plan.id = some p ∧
    Flow plan (r.1.phase.supply plan queue) hold applied p

variable {l : ScrollLoop World} {e : Engine World} {g : Gathering} {queue full : List Bucket}

/-- A command that keeps its flow is found, and is not aborted. -/
theorem isAborted_eq_false {supply : Supply} {t : Tracker} (hfind : t.find? plan.id = some p)
    (h : Flow plan supply hold applied p) : t.isAborted plan.id = false := by
  rw [Tracker.isAborted, hfind]
  exact beq_eq_false_iff_ne.2 h.state_ne_aborted

theorem flows_submit (hl : l.IsOf plan) (hfind : e.tracker.find? plan.id = some p)
    {next? : Option Nat} (h : Flow plan ⟨queue, [], [], next?, false⟩ hold applied p)
    (scrolled buckets : Nat) : Flows plan queue hold applied (l.submit scrolled buckets e) := by
  unfold submit
  rcases exists_answer hfind e.now .markSubmitted with ⟨t, ht, heq⟩
  rw [hl.id, show e.tracker.markSubmitted e.now plan.id = .ok t from heq]
  exact ⟨⟨scrolled, buckets, rfl⟩, _, ht.find?_self, h.submit e.now⟩

theorem flows_fetch (hl : l.IsOf plan) (hfind : e.tracker.find? plan.id = some p)
    (h : Flow plan (g.supply plan queue) hold applied p) (hg : g.Follows plan)
    (hmore : g.cursor.exhausted = false) : Flows plan queue hold applied (l.fetch g e) := by
  unfold fetch
  rw [hl.id, isAborted_eq_false hfind h, if_neg Bool.false_ne_true]
  exact ⟨⟨hg, hmore⟩, p, hfind, h⟩

/-- At the end of the scroll the loose records are published as the last bucket. -/
theorem flows_flush (hl : l.IsOf plan) (hfind : e.tracker.find? plan.id = some p)
    (h : Flow plan (g.supply plan queue) hold applied p) (hg : g.Follows plan)
    (hend : g.cursor.exhausted = true) : Flows plan queue hold applied (l.flush g e) := by
  -- a scroll that is exhausted has nothing more to hand out
  have hleft := hg.lists.exhausted hend
  rw [Gathering.supply, hleft] at h
  unfold flush
  rcases g.bucketizer.finish_cases with ⟨hpending, heq⟩ | heq
  · rw [heq]
    rw [hpending] at h
    exact flows_submit hl hfind h _ _
  · rw [heq]
    exact ⟨trivial, p, hfind, h.flush rfl rfl⟩

theorem flows_publishNext (hl : l.IsOf plan) (hfind : e.tracker.find? plan.id = some p)
    (h : Flow plan (g.supply plan (queue ++ full)) hold applied p) (hg : g.Follows plan) :
    Flows plan queue hold applied (l.publishNext full g.cursor.exhausted g e) := by
  cases full with
  | nil =>
    rw [List.append_nil] at h
    rw [publishNext]
    cases hend : g.cursor.exhausted with
    | true => exact flows_flush hl hfind h hg hend
    | false => exact flows_fetch hl hfind h hg hend
  | cons b rest =>
    rw [publishNext, hl.id, isAborted_eq_false hfind h, if_neg Bool.false_ne_true]
    refine ⟨⟨hg, rfl⟩, p, hfind, ?_⟩
    show Flow plan (g.supply plan ((queue ++ [b]) ++ rest)) hold applied p
    rwa [List.append_assoc]

/-- What a loop does once a bucket is published. -/
theorem flows_goOn (hl : l.IsOf plan) (hfind : e.tracker.find? plan.id = some p)
    {after : AfterBucket} (hafter : after.Follows plan)
    (h : Flow plan (after.supply plan queue) hold applied p) :
    Flows plan queue hold applied (l.goOn after e) := by
  cases after with
  | goOn full exhausted g =>
    rcases hafter with ⟨hg, rfl⟩
    exact flows_publishNext hl hfind h hg
  | submit scrolled buckets => exact flows_submit hl hfind h scrolled buckets
  | fail err => exact hafter.elim

/-- A chunk is counted before any of its records is published. -/
theorem flows_takeChunk (c : Cursor) (chunk : Chunk) (hl : l.IsOf plan)
    (hfind : e.tracker.find? plan.id = some p) (hfits : plan.records.length < wordCount)
    (h : Flow plan (g.supply plan queue) hold applied p)
    (hleft : g.cursor.left (plan.lists.found plan.command.query) =
      chunk.ids ++ c.left (plan.lists.found plan.command.query))
    (hc : Gathering.Follows plan { g with cursor := c }) (hend : chunk.exhausted = c.exhausted) :
    Flows plan queue hold applied (l.takeChunk { g with cursor := c } chunk e) := by
  unfold takeChunk
  rcases exists_answer hfind e.now (.addScrolled chunk.ids.length) with ⟨t, ht, heq⟩
  rw [hl.id, show e.tracker.addScrolled e.now plan.id chunk.ids.length = .ok t from heq, hend]
  refine flows_publishNext (g := ⟨c, _, _⟩) hl ht.find?_self ?_ ⟨hc.command, hc.lists⟩
  unfold Gathering.supply
  simp only [g.bucketizer.emitted_push]
  exact h.count hfits hleft (g.bucketizer.records_push chunk.ids)
    (g.bucketizer.sequence_push chunk.ids)

/-! ## Steps -/

/-- A chunk that is no larger than was asked for, and empty only at the end, is taken. -/
theorem checkChunk_eq {asked : Nat} {c : Chunk} (hle : c.ids.length ≤ asked)
    (hmore : c.exhausted = false → c.ids ≠ []) : checkChunk asked c = .ok c := by
  unfold checkChunk
  rw [if_neg (Nat.not_lt.2 hle), if_neg]
  intro hempty
  rw [Bool.and_eq_true, List.isEmpty_iff, Bool.not_eq_true'] at hempty
  exact hmore hempty.2 hempty.1

theorem flows_created (hl : l.IsOf plan) (hphase : l.phase = .created)
    (hfind : e.tracker.find? plan.id = some p)
    (h : Flow plan (l.phase.supply plan queue) hold applied p) :
    Flows plan queue hold applied (l.resume e) := by
  rw [hphase] at h
  simp only [resume, hphase]
  rcases exists_answer hfind e.now .startScrolling with ⟨t, ht, heq⟩
  rw [hl.id, show e.tracker.startScrolling e.now plan.id = .ok t from heq]
  exact ⟨trivial, _, ht.find?_self, h.startScrolling e.now⟩

/-- What comes of the answer of a scroller in memory to the request for a cursor. -/
theorem resume_opening_eq (hplan : plan.IsWired w₀) (hl : l.IsOf plan)
    (hw : World.Follows w₀ e.world) (hphase : l.phase = .opening) :
    ∃ w, l.resume e =
      if maxReserved < plan.command.bucketSize then l.collapse { e with world := w }
      else l.fetch ⟨.new plan.command, ⟨plan.id, plan.command.bucketSize, 0, []⟩, 0⟩
        { e with world := w } := by
  rcases World.start_lists hw hplan.source hplan.lists l.command with ⟨w, hstart, -, -⟩
  have hpos := hplan.bucketSize
  refine ⟨w, ?_⟩
  rw [resume_opening hphase, hl.scroller, hstart, takeCursor, hl.id, hl.command, Bucketizer.new,
    if_neg (Nat.ne_of_gt hpos)]

theorem flows_opening (hplan : plan.IsWired w₀) (hfits : plan.Fits) (hl : l.IsOf plan)
    (hw : World.Follows w₀ e.world) (hphase : l.phase = .opening)
    (hfind : e.tracker.find? plan.id = some p)
    (h : Flow plan (l.phase.supply plan queue) hold applied p) :
    Flows plan queue hold applied (l.resume e) := by
  rw [hphase] at h
  rcases resume_opening_eq hplan hl hw hphase with ⟨w, heq⟩
  rw [heq, if_neg (Nat.not_lt.2 hfits.buckets)]
  exact flows_fetch hl hfind h ⟨rfl, Cursor.lists_new _ _⟩ rfl

theorem flows_fetching (hplan : plan.IsWired w₀) (hfits : plan.Fits) (hl : l.IsOf plan)
    (hw : World.Follows w₀ e.world) (hphase : l.phase = .fetching g)
    (hfollows : l.phase.Follows plan) (hfind : e.tracker.find? plan.id = some p)
    (h : Flow plan (l.phase.supply plan queue) hold applied p) :
    Flows plan queue hold applied (l.resume e) := by
  rw [hphase] at h hfollows
  rcases hfollows with ⟨hg, hopen⟩
  -- later chunks are not larger than the first one may be
  have hroom : ¬maxReserved < l.scroller.reserved g.cursor l.fetchSize := by
    have hle := g.cursor.reserved_le plan.fetchSize
    have hchunks := hfits.chunks
    rw [hg.command] at hle
    rw [hl.scroller, hl.fetchSize]
    exact Nat.not_lt.2 (Nat.le_trans hle hchunks)
  have hlists : g.cursor.Lists (plan.lists.found g.cursor.command.query) := by
    rw [hg.command]
    exact hg.lists
  rcases World.next_eq hw hplan.source hplan.lists hlists hopen hplan.fetchSize with
    ⟨c, w, hnext, hc, hcommand, hleft, hmore⟩
  rw [hg.command] at hnext hc hleft hmore
  rw [resume_fetching hphase]
  simp only
  rw [if_neg hroom, hl.scroller, hl.fetchSize, hnext, takeAnswer, hl.fetchSize]
  -- an empty chunk would be the last one
  have hnone : c.exhausted = false →
      (g.cursor.left (plan.lists.found plan.command.query)).take plan.fetchSize ≠ [] := by
    intro hgoes hnil
    apply hmore hgoes
    rcases List.take_eq_nil_iff.1 hnil with hzero | hnil
    · exact absurd hzero (Nat.ne_of_gt hplan.fetchSize)
    · rw [hleft, hnil, List.drop_nil]
  have htaken : (Except.ok ⟨_, c.exhausted⟩ : Except Error Chunk).bind
      (checkChunk plan.fetchSize) = .ok ⟨_, c.exhausted⟩ :=
    checkChunk_eq (List.length_take_le _ _) hnone
  rw [htaken]
  refine flows_takeChunk c ⟨_, c.exhausted⟩ hl hfind hplan.length_lt h ?_
    ⟨hcommand.trans hg.command, hc⟩ rfl
  rw [hleft]
  exact (List.take_append_drop _ _).symm

/-- A loop that does not publish keeps the flow. -/
theorem flows_resume (hplan : plan.IsWired w₀) (hfits : plan.Fits) (hl : l.IsOf plan)
    (hw : World.Follows w₀ e.world) (hopen : l.isEnded = false)
    (hpublish : ∀ b after, l.phase ≠ .publishing b after)
    (hwait : ∀ b after, l.phase ≠ .waiting b after) (hfollows : l.phase.Follows plan)
    (hfind : e.tracker.find? plan.id = some p)
    (h : Flow plan (l.phase.supply plan queue) hold applied p) :
    Flows plan queue hold applied (l.resume e) := by
  cases hphase : l.phase with
  | created => exact flows_created hl hphase hfind h
  | opening => exact flows_opening hplan hfits hl hw hphase hfind h
  | fetching g => exact flows_fetching hplan hfits hl hw hphase hfollows hfind h
  | publishing b after => exact absurd hphase (hpublish b after)
  | waiting b after => exact absurd hphase (hwait b after)
  | ended how =>
    rw [isEnded, hphase] at hopen
    exact absurd hopen (by simp)

end ScrollLoop

/-! ## Loops without room -/

/-- Whether a loop is where a plan without room may lead it: it collapses before the first chunk. -/
def ScrollPhase.Stalls (plan : Plan) : ScrollPhase → Prop
  | .created => True
  | .opening => True
  | .fetching g => g.cursor = .new plan.command ∧ plan.command.bucketSize ≤ maxReserved
  | .ended how => how = .collapsed
  | _ => False

/-- What is seen of a command that nothing was done for. -/
structure Progress.IsBare (plan : Plan) (state : CommandState) (p : Progress) : Prop where
  command : p.command = plan.command
  state : p.state = state
  submitted : p.submitted = false
  scrollCount : p.scrollCount = 0
  processed : p.processed = 0
  errorCount : p.errorCount = 0

/-- The state of a command that nothing is done for. -/
def ScrollPhase.bareState : ScrollPhase → CommandState
  | .created => .scheduled
  | _ => .scrollingRunning

namespace ScrollLoop

/-- A loop and an engine that do nothing for a plan. -/
structure StallsAt (plan : Plan) (l : ScrollLoop World) (t : Tracker) : Prop where
  phase : l.phase.Stalls plan
  bare : ∃ p, t.find? plan.id = some p ∧ p.IsBare plan l.phase.bareState

variable {l : ScrollLoop World} {e : Engine World}

theorem stallsAt_created (hl : l.IsOf plan) (hphase : l.phase = .created)
    (h : l.StallsAt plan e.tracker) :
    (l.resume e).1.StallsAt plan (l.resume e).2.tracker := by
  rcases h.bare with ⟨p, hfind, hbare⟩
  rw [hphase] at hbare
  simp only [resume, hphase]
  rcases exists_answer hfind e.now .startScrolling with ⟨t, ht, heq⟩
  rw [hl.id, show e.tracker.startScrolling e.now plan.id = .ok t from heq]
  refine ⟨trivial, _, ht.find?_self, ?_⟩
  have hbegun : (p.startScrolling e.now).1 =
      { p with state := .scrollingRunning, scrollStartedAt := some e.now } := by
    rw [Progress.startScrolling_fst, if_pos]
    exact beq_iff_eq.2 hbare.state
  show (p.startScrolling e.now).1.IsBare plan .scrollingRunning
  rw [hbegun]
  exact { hbare with state := rfl }

/-- A loop for whose buckets or chunks no room can be set aside comes to a collapse. -/
theorem stallsAt_resume (hplan : plan.IsWired w₀) (hnot : ¬plan.Fits) (hl : l.IsOf plan)
    (hw : World.Follows w₀ e.world) (hopen : l.isEnded = false) (h : l.StallsAt plan e.tracker) :
    (l.resume e).1.StallsAt plan (l.resume e).2.tracker := by
  cases hphase : l.phase with
  | created => exact stallsAt_created hl hphase h
  | opening =>
    rcases h.bare with ⟨p, hfind, hbare⟩
    rw [hphase] at hbare
    rcases resume_opening_eq hplan hl hw hphase with ⟨w, heq⟩
    rw [heq]
    split
    · exact ⟨rfl, p, hfind, hbare⟩
    · rename_i hroom
      -- there is room for buckets, so it is the chunks for which there is none
      have hgoes : e.tracker.isAborted plan.id = false := by
        rw [Tracker.isAborted, hfind]
        show (p.state == .aborted) = false
        rw [hbare.state]
        rfl
      unfold fetch
      rw [hl.id, hgoes, if_neg Bool.false_ne_true]
      exact ⟨⟨rfl, Nat.not_lt.1 hroom⟩, p, hfind, hbare⟩
  | fetching g =>
    have hstalls := h.phase
    rcases h.bare with ⟨p, hfind, hbare⟩
    rw [hphase] at hstalls hbare
    rcases hstalls with ⟨hcursor, hbuckets⟩
    have hroom : maxReserved < l.scroller.reserved g.cursor l.fetchSize := by
      rw [hl.scroller, hl.fetchSize, hcursor]
      refine Nat.lt_of_not_le fun hchunks => hnot ⟨hbuckets, ?_⟩
      exact hchunks
    rw [resume_fetching hphase]
    simp only
    rw [if_pos hroom]
    exact ⟨rfl, p, hfind, hbare⟩
  | publishing b after =>
    have hstalls := h.phase
    rw [hphase] at hstalls
    exact hstalls.elim
  | waiting b after =>
    have hstalls := h.phase
    rw [hphase] at hstalls
    exact hstalls.elim
  | ended how =>
    rw [isEnded, hphase] at hopen
    exact absurd hopen (by simp)

end ScrollLoop

end BulkRun
