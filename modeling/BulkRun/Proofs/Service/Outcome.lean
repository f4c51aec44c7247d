import BulkRun.Proofs.Service.Following
/-!
# What comes of a command

A service whose collaborators are in memory runs its commands side by side, in any order of steps.
When no step is left, what came of a command is said by its plan alone: the sizes of buckets and
batches, of the pages and of the channel, the number of partitions, and what was done for other
commands in between have no part in it (`Service.outcome`).  There is one exception.  A command
whose buckets or chunks are larger than room can be set aside for is left hanging: its loop
collapses before the first chunk, and nothing is told about it.
-/

namespace BulkRun

open InMemory (World Wired Source ActionMemory QueryLists RecordingAction)
open BulkRun.System (Lively)

namespace Service

variable {plan : Plan} {w₀ : World} {setup : Setup World} {s₀ s : System World} {c : Command}
  {moves : List (Move (System World) System.Event)} {applied : List String}

/-- When a service is started, nothing is there of any command. -/
theorem isNew_course_of_start {settings : Settings} {actions : ActionRegistry (Action World)}
    {scrollers : ScrollerRegistry (Scroller World)} {transactions : TransactionManager World}
    {now : Timestamp} {service : Service World}
    (h : start settings actions scrollers transactions now w₀ = .ok service) (id : CommandId) :
    (service.system.course id).IsNew := by
  rw [system_of_start h]
  refine ⟨rfl, ?_, ?_⟩
  · show ((Channel.new _ _).queueAt _).filter _ = []
    rw [Channel.queueAt_new]
    rfl
  · apply Option.bind_eq_none_iff.2
    intro k hk
    rw [System.eq_new_of_withConsumers hk]
    rfl

/-- A run is followed from its start, at which nothing is there of the command. -/
theorem followed_of_run (hwired : Wired setup w₀) (hplan : plan.IsFor setup w₀ c)
    (hstart : Lively w₀ s₀) (hnew : (s₀.course plan.id).IsNew)
    (hrun : Run (System.next? setup) s₀ moves s) (hkept : ∀ m ∈ moves, m.Keeps plan.id) :
    Lively w₀ s ∧ Followed c plan moves s := by
  induction hrun with
  | start =>
    refine ⟨hstart, fun _ => ⟨hnew, fun _ => rfl⟩, ?_⟩
    intro hmem
    rcases hmem with ⟨m, hm, -⟩
    exact absurd hm List.not_mem_nil
  | move event _ hnext ih =>
    rcases ih (fun m hm => hkept m (List.mem_append_left _ hm)) with ⟨hlively, hfollowed⟩
    have hkeeps := hkept _ (List.mem_append_right _ (List.mem_singleton_self _))
    exact ⟨hlively.next? hwired hnext, hfollowed.next? hwired hplan hlively hnext hkeeps⟩

/-- At rest, the loop of a command has ended, nothing of it is queued and nobody works on it. -/
theorem at_rest (hwired : Wired setup w₀) (h : Lively w₀ s) (hquiet : s.IsQuiet setup)
    (id : CommandId) :
    (∀ l ∈ (s.course id).loops, l.isEnded = true) ∧ (s.course id).queue = [] ∧
      (s.course id).hand = none := by
  refine ⟨?_, ?_, ?_⟩
  · intro l hl
    exact h.isEnded_of_quiet hwired hquiet (List.mem_filter.1 hl).1
  · show (s.engine.channel.queueAt _).filter _ = []
    rw [h.queueAt_of_quiet hwired hquiet]
    rfl
  · show s.consumers[s.engine.channel.partitionFor id]?.bind _ = none
    rw [Option.bind_eq_none_iff]
    intro k hk
    exact Consumer.handOf_of_not_executing (h.idle_of_quiet hwired hquiet hk).1

/-- A command for which there is room has been worked through when nothing moves any more. -/
theorem workedThrough_of_quiet (hwired : Wired setup w₀) (h : Lively w₀ s)
    (hquiet : s.IsQuiet setup) (hflows : (s.course plan.id).Flows plan applied) :
    ∃ p, s.engine.tracker.find? plan.id = some p ∧ p.WorkedThrough plan ∧
      applied = plan.successes plan.records := by
  rcases at_rest hwired h hquiet plan.id with ⟨hended, hqueue, hhand⟩
  rcases hflows.loop with ⟨l, hloops, -, hfollows, p, hfind, hflow⟩
  have hl : l.isEnded = true := hended l (by rw [hloops]; exact List.mem_singleton_self l)
  rcases ScrollLoop.isEnded_iff.1 hl with ⟨how, hphase⟩
  rw [hphase, hqueue, Course.holding, hhand] at hflow
  exact ⟨p, hfind, hflow.workedThrough⟩

/-- A command for which there is no room is left as it was when its scroll began. -/
theorem isBare_of_quiet (hwired : Wired setup w₀) (h : Lively w₀ s) (hquiet : s.IsQuiet setup)
    (hstalls : (s.course plan.id).Stalls plan) :
    ∃ p, s.engine.tracker.find? plan.id = some p ∧ p.IsBare plan .scrollingRunning := by
  rcases at_rest hwired h hquiet plan.id with ⟨hended, -, -⟩
  rcases hstalls.loop with ⟨l, hloops, -, -, p, hfind, hbare⟩
  have hl : l.isEnded = true := hended l (by rw [hloops]; exact List.mem_singleton_self l)
  rcases ScrollLoop.isEnded_iff.1 hl with ⟨how, hphase⟩
  rw [hphase] at hbare
  exact ⟨p, hfind, hbare⟩

/-- Whatever else a service does, and in whichever order its tasks take their steps: once none of
them can take another, a command that was accepted, and neither cancelled nor dropped, has its
records counted and told, and its action was applied to those on which it succeeds, in their order.
If there is no room for its buckets or its chunks, it is left hanging instead. -/
theorem outcome {settings : Settings} {actions : ActionRegistry (Action World)}
    {scrollers : ScrollerRegistry (Scroller World)} {transactions : TransactionManager World}
    {now : Timestamp} {service : Service World}
    (hstart : start settings actions scrollers transactions now w₀ = .ok service)
    (hwired : Wired service.setup w₀)
    (hrun : Run (System.next? service.setup) service.system moves s)
    (haccepted : ∃ m ∈ moves, m.event = .submit c) (hkept : ∀ m ∈ moves, m.Keeps c.id)
    (hquiet : s.IsQuiet service.setup) :
    (∃ plan : Plan, plan.IsFor service.setup w₀ c) ∧
      ∀ plan : Plan, plan.IsFor service.setup w₀ c →
        ∃ p, s.engine.tracker.find? c.id = some p ∧
          if plan.Fits then
            p.WorkedThrough plan ∧ ∀ i, appliedFor c.id i moves =
              if i = plan.target then plan.successes plan.records else []
          else
            p.IsBare plan .scrollingRunning ∧ ∀ i, appliedFor c.id i moves = [] := by
  refine ⟨?_, fun plan hplan => ?_⟩
  · rcases haccepted with ⟨m, hm, hsubmit⟩
    have hnext := hrun.next?_of_mem hm
    rw [hsubmit] at hnext
    rcases System.next?_submit hnext with ⟨-, r, hr⟩
    rcases System.submit_eq_ok hr with ⟨c', x, u, hprepare, -, -, -⟩
    exact Plan.IsFor.exists_of_prepare hwired hprepare
  rw [show c.id = plan.id from hplan.resolve_command.1.symm] at hkept ⊢
  have hnew := isNew_course_of_start hstart plan.id
  rcases followed_of_run hwired hplan (System.lively_start hstart) hnew hrun hkept with
    ⟨hlively, hfollowed⟩
  rcases hfollowed.accepted haccepted with ⟨applied, happlied, hgoes⟩
  rcases hgoes with ⟨hfits, hflows⟩ | ⟨hnot, hstalls, rfl⟩
  · rcases workedThrough_of_quiet hwired hlively hquiet hflows with ⟨p, hfind, hworked, rfl⟩
    refine ⟨p, hfind, ?_⟩
    rw [if_pos hfits]
    refine ⟨hworked, ?_⟩
    intro i
    rw [happlied]
    exact if_congr eq_comm rfl rfl
  · rcases isBare_of_quiet hwired hlively hquiet hstalls with ⟨p, hfind, hbare⟩
    refine ⟨p, hfind, ?_⟩
    rw [if_neg hnot]
    refine ⟨hbare, ?_⟩
    intro i
    rw [happlied, ite_self]

/-! ### Two commands side by side -/

/-- Three records that one query finds. -/
def threeRecords : QueryLists := ⟨[("all", ["a", "b", "c"])], [], [], none, 0⟩

/-- The memory of an action that stops on one record. -/
def stoppingOnB : RecordingAction := ⟨[], 0, ["b"], none, none, none⟩

/-- Three records and an action in memory. -/
def smallWorld : World := ⟨[.recording stoppingOnB], [.queryLists threeRecords], .none⟩

/-- The settings of a service with one partition that has room for one bucket. -/
def smallSettings : Settings := ⟨.default, ⟨1, 1⟩, .default⟩

/-- The one action of a small world. -/
def smallActions : ActionRegistry (Action World) :=
  ⟨[("archive",
    ⟨⟨"archive", none, none, none⟩, (ActionMemory.recording stoppingOnB).action 0⟩)]⟩

/-- The one scroller of a small world. -/
def smallScrollers : ScrollerRegistry (Scroller World) :=
  ScrollerRegistry.empty.register .query "default" ((Source.queryLists threeRecords).scroller 0)

/-- A service that was started in a small world. -/
def smallService : Service World where
  settings := smallSettings
  setup := ⟨smallActions, smallScrollers, InMemory.transactionManager, smallSettings.dispatcher⟩
  system := System.withConsumers (.ofEngine ⟨⟨0, 0⟩, .new 1000 3600, .new 1 1, smallWorld⟩)

/-- The plan of a command with buckets of some size and batches of one. -/
def archivePlan (id : CommandId) (bucketSize : Nat) : Plan :=
  ⟨⟨⟨"archive", "all", none, none, none, bucketSize, 1, none, false, []⟩, id⟩, 0, threeRecords,
    min (bucketSize * 4) wordMax, 0, stoppingOnB⟩

/-- A command with buckets of two records. -/
def pairwise : Plan := archivePlan ⟨7⟩ 2

/-- A command with buckets for which no room can be set aside. -/
def oversized : Plan := archivePlan ⟨8⟩ (twoTo 59)

theorem eq_of_lookup_singleton {κ α : Type} [BEq κ] {k j : κ} {a b : α}
    (h : [(k, a)].lookup j = some b) : a = b := by
  rw [List.lookup_cons] at h
  split at h
  · exact Option.some.inj h
  · exact absurd h (by simp)

theorem steady_threeRecords : threeRecords.IsSteady where
  rejected := rfl
  failingAfter := rfl
  fits _ _ h := by
    rw [← eq_of_lookup_singleton h]
    decide

theorem wired_smallService : Wired smallService.setup smallWorld where
  actions name r h := by
    rw [← eq_of_lookup_singleton h]
    exact ⟨0, stoppingOnB, rfl, rfl, rfl, rfl⟩
  scrollers d n h := by
    rw [ScrollerRegistry.resolve] at h
    split at h
    · rename_i hfind
      rw [← Except.ok.inj h, ← eq_of_lookup_singleton hfind]
      exact ⟨0, threeRecords, rfl, rfl, steady_threeRecords⟩
    · exact absurd h (by simp)
  manager := rfl
  transactions := rfl

theorem isFor_archivePlan (id : CommandId) {bucketSize : Nat}
    (hprepare : smallService.setup.prepare (archivePlan id bucketSize).command =
      .ok ((archivePlan id bucketSize).command,
        ⟨0, (Source.queryLists threeRecords).scroller 0⟩)) :
    (archivePlan id bucketSize).IsFor smallService.setup smallWorld
      (archivePlan id bucketSize).command where
  prepared := ⟨0, hprepare⟩
  fetchSize := rfl
  resolved := ⟨_, rfl, rfl⟩
  source := rfl
  lists := steady_threeRecords
  target := rfl
  action := ⟨rfl, rfl⟩

/-- Both commands are accepted, and the tasks take turns. -/
def sideBySide : List System.Event :=
  let scroll := System.Event.step (.scroll 0)
  let consume := System.Event.step (.consume 0)
  [.submit pairwise.command, .submit oversized.command] ++ List.replicate 5 scroll ++
    List.replicate 2 (.step (.scroll 1)) ++ [consume, consume, scroll] ++ List.replicate 12 consume

/-- The records of one command are counted and told, though one of them in vain; the other command
is left hanging. -/
theorem outcome_side_by_side :
    ∃ moves s, start smallSettings smallActions smallScrollers InMemory.transactionManager ⟨0, 0⟩
        smallWorld = .ok smallService ∧ Wired smallService.setup smallWorld ∧
      Run (System.next? smallService.setup) smallService.system moves s ∧
      s.IsQuiet smallService.setup ∧
      (∃ p, s.engine.tracker.find? pairwise.id = some p ∧ p.state = .completedWithErrors ∧
        p.submitted = true ∧ p.scrollCount = 3 ∧ p.processed = 3 ∧ p.errorCount = 1 ∧
        appliedFor pairwise.id 0 moves = ["a", "c"]) ∧
      ∃ p, s.engine.tracker.find? oversized.id = some p ∧ p.state = .scrollingRunning ∧
        p.submitted = false ∧ appliedFor oversized.id 0 moves = [] := by
  have hcheck : (movesOf? (System.next? smallService.setup) smallService.system sideBySide).any
      (fun r => (r.2.loops.all (·.isEnded)) &&
        (r.2.consumers.all fun c => (c.step? smallService.setup r.2.engine).isNone) &&
        decide (∀ m ∈ r.1, m.Keeps pairwise.id ∧ m.Keeps oversized.id)) = true := by
    decide +kernel
  rcases (Option.any_eq_true _ _).1 hcheck with ⟨⟨moves, s⟩, hmoves, hs⟩
  simp only [Bool.and_eq_true, decide_eq_true_eq, List.all_eq_true, Option.isNone_iff_eq_none] at hs
  rcases hs with ⟨⟨hloops, hconsumers⟩, hkept⟩
  have hrun : Run (System.next? smallService.setup) smallService.system moves s :=
    .of_movesOf? hmoves
  have hquiet : s.IsQuiet smallService.setup := System.isQuiet_of_ended hloops hconsumers
  have haccepted {c : Command} (hc : .submit c ∈ sideBySide) :
      ∃ m ∈ moves, m.event = .submit c := by
    rw [← events_of_movesOf? hmoves] at hc
    exact List.mem_map.1 hc
  have hstart : start smallSettings smallActions smallScrollers InMemory.transactionManager ⟨0, 0⟩
      smallWorld = .ok smallService := rfl
  have hpairwise := (outcome hstart wired_smallService hrun
    (haccepted (c := pairwise.command) (by simp [sideBySide]))
    (fun m hm => (hkept m hm).1) hquiet).2 pairwise (isFor_archivePlan _ rfl)
  have hoversized := (outcome hstart wired_smallService hrun
    (haccepted (c := oversized.command) (by simp [sideBySide]))
    (fun m hm => (hkept m hm).2) hquiet).2 oversized (isFor_archivePlan _ rfl)
  have hfits : pairwise.Fits := by decide
  have hlarge : ¬oversized.Fits := by decide
  rcases hpairwise with ⟨p, hp, hworked⟩
  rw [if_pos hfits] at hworked
  rcases hoversized with ⟨q, hq, hbare⟩
  rw [if_neg hlarge] at hbare
  refine ⟨moves, s, hstart, wired_smallService, hrun, hquiet, ⟨p, hp, ?_⟩, q, hq, ?_⟩
  · rcases hworked with ⟨h, happlied⟩
    exact ⟨h.state, h.submitted, h.scrollCount, h.processed, h.errorCount, happlied 0⟩
  · rcases hbare with ⟨h, happlied⟩
    exact ⟨h.state, h.submitted, happlied 0⟩

end Service

end BulkRun
