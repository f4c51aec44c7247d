import BulkRun.Proofs.Redelivery.Mirror
/-!
# Redelivery is harmless

Buckets may be handed back and published again as often as somebody likes.  All that the work on a
bucket does to the collaborators is still done by one execution of it, and what comes of the run is
what comes of one in which each bucket is published, received and executed once
(`redelivery_is_harmless`).
-/

namespace BulkRun

variable {σ : Type}

open Tracker (Report)

namespace Desk

/-- The bucket of which a move begins an execution. -/
def executed? (m : Move (Desk σ) (Event σ)) : Option Bucket :=
  match m.event with
  | .start => m.after.hand.map (·.delivery.bucket)
  | _ => none

/-- The bucket that was received and of which no execution has begun. -/
def lying (s : Desk σ) : List Bucket :=
  match s.hand with
  | some ⟨v, none⟩ => [v.bucket]
  | _ => []

/-- A run in which each bucket is published once and nothing is handed back, as it may stand for
another run: everybody else does the same, and of the rest only what is done for the first time is
done. -/
structure Replays (setup : Setup σ) (i : Nat) (s₀ : Desk σ)
    (moves once : List (Move (Desk σ) (Event σ))) (r : Desk σ) : Prop where
  run : Run (next? setup i) s₀ once r
  order : (once.map (·.event)).Sublist (moves.map (·.event))
  outside : yielded Event.outside? once = yielded Event.outside? moves
  keeps : ∀ m ∈ once, m.event ≠ .handBack
  published : yielded Event.published? once = firsts [] (yielded Event.published? moves)

/-- Whether each bucket is one of a command that was accepted before it was published. -/
def Listed (moves : List (Move (Desk σ) (Event σ))) : Prop :=
  ∀ front m rear, moves = front ++ m :: rear → ∀ b, m.event.published? = some b →
    b.commandId ∈ yielded Event.registered? front

variable {setup : Setup σ} {i : Nat} {s₀ s r t : Desk σ}
  {moves once : List (Move (Desk σ) (Event σ))}
  {event : Event σ} {published : List Bucket} {q q' : Partition}

theorem Listed.front {m : Move (Desk σ) (Event σ)} (h : Listed (moves ++ [m])) : Listed moves := by
  intro front n rear hsplit
  refine h front n (rear ++ [m]) ?_
  rw [hsplit, List.append_assoc, List.cons_append]

theorem Listed.last {m : Move (Desk σ) (Event σ)} (h : Listed (moves ++ [m])) {b : Bucket}
    (hb : m.event.published? = some b) : b.commandId ∈ yielded Event.registered? moves :=
  h moves m [] rfl b hb

/-- The first move accepts the command of all the buckets. -/
theorem listed_of_first {first : Move (Desk σ) (Event σ)} {rest : List (Move (Desk σ) (Event σ))}
    {id : CommandId} (hid : first.event.registered? = some id)
    (hrest : ∀ b ∈ yielded Event.published? rest, b.commandId = id) : Listed (first :: rest) := by
  intro front m rear hsplit b hb
  cases front with
  | nil =>
    obtain ⟨rfl, -⟩ := List.cons.inj hsplit
    cases hevent : first.event with
    | publish b =>
      rw [hevent] at hid
      exact absurd hid (by simp [Event.registered?])
    | _ =>
      rw [hevent] at hb
      exact absurd hb (by simp [Event.published?])
  | cons n front =>
    obtain ⟨rfl, hrest'⟩ := List.cons.inj hsplit
    have hmem : b ∈ yielded Event.published? rest := by
      rw [hrest']
      exact List.mem_filterMap.2 ⟨m, List.mem_append_right _ List.mem_cons_self, hb⟩
    rw [hrest b hmem]
    exact List.mem_filterMap.2 ⟨first, List.mem_cons_self, hid⟩

/-! ## What is received is executed once -/

/-- What was received and not yet executed is executed, or something is received. -/
theorem Joins.lying (h : Joins setup i event published q q' r t) :
    (executed? ⟨r, event, t⟩).toList ++ t.lying = r.lying ++ (received? ⟨r, event, t⟩).toList := by
  cases deed_next? h.next with
  | outside _ => exact (List.append_nil _).symm
  | publish _ _ => exact (List.append_nil _).symm
  | receive hhand _ =>
    simp only [Desk.lying, hhand]
    rfl
  | start hhand _ =>
    obtain ⟨v, hv⟩ := h.fresh rfl
    obtain rfl := Option.some.inj (hhand.symm.trans hv)
    simp only [Desk.lying, hhand]
    rfl
  | work hhand _ =>
    simp only [Desk.lying, hhand]
    rfl
  | @acknowledge hand hhand hover =>
    have hx : ∃ x, hand.execution = some x := by
      cases hx : hand.execution with
      | none =>
        rw [Hand.isWorkedOff, hx] at hover
        exact absurd hover Bool.false_ne_true
      | some x => exact ⟨x, rfl⟩
    obtain ⟨x, hx⟩ := hx
    obtain ⟨v, y⟩ := hand
    obtain rfl : y = some x := hx
    simp only [Desk.lying, hhand]
    rfl
  | handBack => exact absurd rfl h.keeps

/-! ## From the start -/

theorem shelf_new {count capacity : Nat} (hi : i < (Channel.new count capacity).partitions.length) :
    (Channel.new count capacity).Shelf i (.empty capacity) := by
  refine ⟨?_, rfl, rfl, rfl⟩
  rw [Channel.new, List.length_replicate] at hi
  exact List.getElem?_replicate_of_lt hi

theorem IsNew.mirrors (h : s₀.IsNew i) : ∃ p, p.queue = [] ∧ Mirrors i [] [] [] none p p s₀ s₀ := by
  obtain ⟨count, capacity, hchannel⟩ := h.channel
  have hplace := h.place
  have hshelf : s₀.engine.channel.Shelf i (.empty capacity) := by
    rw [hchannel] at hplace ⊢
    exact shelf_new hplace
  refine ⟨.empty capacity, rfl, ?_⟩
  exact {
    engine := rfl
    length := rfl
    shelf := hshelf
    mirror := hshelf
    capacity := rfl
    stash := rfl
    queue := rfl
    front := by
      rw [h.hand]
      exact .idle
    shut := by simp
    listed := by simp [Partition.empty]
    published := by simp [Partition.empty] }

/-- The second desk, after a whole run of the first. -/
theorem exists_replay (hnew : s₀.IsNew i) (hrun : Run (next? setup i) s₀ moves s)
    (hids : (yielded Event.registered? moves).Nodup) (hlisted : Listed moves) :
    ∃ once seen active p q r, Replays setup i s₀ moves once r ∧
      Mirrors i (yielded Event.registered? moves) (yielded Event.published? moves) seen active
        p q s r ∧
      once.filterMap received? ++ q.queue = firsts [] (yielded Event.published? moves) ∧
      once.filterMap executed? ++ r.lying = once.filterMap received? := by
  induction hrun with
  | start =>
    obtain ⟨p, hqueue, hm⟩ := hnew.mirrors
    refine ⟨[], [], none, p, p, s₀, ⟨.start, .slnil, rfl, by simp, rfl⟩, hm, hqueue, ?_⟩
    rw [lying, hnew.hand]
    rfl
  | @move moves s t event hrun hnext ih =>
    rw [yielded_concat] at hids
    obtain ⟨once, seen, active, p, q, r, hreplays, hm, hreceived, hexecuted⟩ :=
      ih (List.nodup_append.1 hids).1 hlisted.front
    have hsound := sound_run hnew.sound hrun
    rw [List.nil_append] at hsound
    obtain ⟨seen', active', p', q', r', hkeeps, hm'⟩ := hm.next? hsound
      (fun id => not_mem_of_nodup hids) (fun b => hlisted.last) hnext
    rw [yielded_concat, yielded_concat]
    cases hkeeps with
    | joins h =>
      refine ⟨once ++ [⟨r, event, r'⟩], seen', active', p', q', r',
        ⟨.move event hreplays.run h.next,
        ?_, ?_, ?_, ?_⟩, hm', ?_, ?_⟩
      · rw [List.map_append, List.map_append]
        exact hreplays.order.append_right _
      · rw [yielded_concat, yielded_concat, hreplays.outside]
      · intro m hm
        obtain hm | hm := List.mem_append.1 hm
        · exact hreplays.keeps m hm
        · rw [List.mem_singleton.1 hm]
          exact h.keeps
      · rw [yielded_concat, yielded_concat, hreplays.published]
        exact h.new.symm
      · have hone : [(⟨r, event, r'⟩ : Move (Desk σ) (Event σ))].filterMap received? =
          (received? ⟨r, event, r'⟩).toList := rfl
        rw [List.filterMap_append, hone, List.append_assoc, h.queue, ← List.append_assoc, hreceived]
        exact h.new.symm
      · have hone : ∀ f : Move (Desk σ) (Event σ) → Option Bucket,
          [(⟨r, event, r'⟩ : Move (Desk σ) (Event σ))].filterMap f =
            (f ⟨r, event, r'⟩).toList := fun _ => rfl
        rw [List.filterMap_append, List.filterMap_append, hone, hone, List.append_assoc, h.lying,
          ← List.append_assoc, hexecuted]
    | stays hr hq houtside hold =>
      subst hr hq
      refine ⟨once, seen', active', p', q', r', ⟨hreplays.run, ?_, ?_, hreplays.keeps, ?_⟩, hm', ?_,
        hexecuted⟩
      · rw [List.map_append]
        exact hreplays.order.trans (List.sublist_append_left _ _)
      · rw [yielded_concat, houtside, Option.toList_none, List.append_nil, hreplays.outside]
      · rw [yielded_concat, hold, hreplays.published]
      · rw [hold, hreceived]

/-- Whatever was received and handed back before, nothing is left to be done when nothing is in hand
and nothing is to be delivered. -/
theorem Mirrors.drained {known : List CommandId} {seen : List (CommandId × Nat)}
    {active : Option (CommandId × Nat)} {p : Partition}
    (hm : Mirrors i known published seen active p q s r) (hhand : s.hand = none)
    (hbacklog : s.engine.channel.backlog i = 0) : r.hand = none ∧ q.queue = [] := by
  rw [Channel.backlog, hm.shelf.place] at hbacklog
  obtain ⟨hqueue, hstash⟩ := Nat.add_eq_zero_iff.1 hbacklog
  have hfront := hm.front
  rw [hhand, List.length_eq_zero_iff.1 hstash] at hfront
  rw [hm.queue, List.length_eq_zero_iff.1 hqueue]
  obtain ⟨-, hnone, -⟩ | ⟨b, hone, -⟩ := hfront.of_none
  · exact ⟨hnone, rfl⟩
  · exact absurd hone (by simp)

/-- Delivering a bucket more than once does no harm.  Whatever others do, and however often buckets
are handed back or published again, one execution of a bucket does all that is done to the
transactions and to the action on its behalf.  And there is a run in which each bucket is published,
received and executed once, and everybody else does the same, that leaves the commands and the world
of the collaborators just as they are. -/
theorem redelivery_is_harmless (hnew : s₀.IsNew i) (hrun : Run (next? setup i) s₀ moves s)
    -- no id is accepted a second time
    (hids : (yielded Event.registered? moves).Nodup) (hlisted : Listed moves) :
    (∀ front m between m' rear key, moves = front ++ m :: (between ++ m' :: rear) →
        touched? m = some key → touched? m' = some key →
        ∀ n ∈ between ++ [m'], n.event ≠ .start) ∧
      ∃ once r, Replays setup i s₀ moves once r ∧
        r.engine.tracker = s.engine.tracker ∧ r.engine.world = s.engine.world ∧
        ((yielded Event.published? once).map Bucket.key).Nodup ∧
        (∀ key, key ∈ (yielded Event.published? once).map Bucket.key ↔
          key ∈ (yielded Event.published? moves).map Bucket.key) ∧
        once.filterMap received? <+: yielded Event.published? once ∧
        once.filterMap executed? <+: once.filterMap received? ∧
        (s.hand = none → s.engine.channel.backlog i = 0 →
          r.hand = none ∧ once.filterMap executed? = yielded Event.published? once) := by
  refine ⟨fun front m between m' rear key hsplit hm hm' =>
    touched_by_one hnew hrun hids hsplit hm hm', ?_⟩
  obtain ⟨once, seen, active, p, q, r, hreplays, hmirrors, hreceived, hexecuted⟩ :=
    exists_replay hnew hrun hids hlisted
  have htracker : r.engine.tracker = s.engine.tracker := by rw [hmirrors.engine]
  have hworld : r.engine.world = s.engine.world := by rw [hmirrors.engine]
  refine ⟨once, r, hreplays, htracker, hworld, ?_, ?_, ?_, ⟨_, hexecuted⟩, ?_⟩
  · rw [hreplays.published]
    exact nodup_firsts [] _
  · intro key
    rw [hreplays.published, mem_keys_firsts]
    exact and_iff_right List.not_mem_nil
  · rw [hreplays.published]
    exact ⟨_, hreceived⟩
  · intro hhand hbacklog
    obtain ⟨hnone, hqueue⟩ := hmirrors.drained hhand hbacklog
    refine ⟨hnone, ?_⟩
    have hlying : r.lying = [] := by rw [lying, hnone]
    rw [hlying, List.append_nil] at hexecuted
    rw [hqueue, List.append_nil] at hreceived
    rw [hexecuted, hreceived, hreplays.published]

/-! ### A run with copies and with buckets that are handed back -/

/-- An action that writes down the records it is applied to. -/
def noting : Action (List String) where
  validate _ := .ok ()
  call _ _ w := (0, w)
  takesPermit := false
  poll _ ids _ w := some (⟨[], .ok (ids.map fun id => ⟨id, none⟩)⟩, w ++ ids)

/-- The action and no transactions. -/
def notingSetup : Setup (List String) where
  actions := ⟨[("archive", ⟨⟨"archive", none, none, none⟩, noting⟩)]⟩
  scrollers := ScrollerRegistry.empty
  transactions := .none
  dispatcher := ⟨2, 1, 2, none⟩

/-- A desk at the only partition, which has room for three buckets. -/
def emptyDesk : Desk (List String) := ⟨⟨⟨0, 0⟩, .new 8 60, .new 1 3, []⟩, none⟩

/-- Two buckets of a command, the first of them published twice.  It is handed back before it is
executed and once more after that. -/
def deliveredOften : List (Event (List String)) :=
  let b : Bucket := ⟨Tracker.archiveAll.id, 0, ["a", "b"]⟩
  let c : Bucket := ⟨Tracker.archiveAll.id, 1, ["c"]⟩
  let tell (r : Report) : Event (List String) := .outside (.report Tracker.archiveAll.id r)
  [.outside (.register Tracker.archiveAll), tell .startScrolling, tell (.addScrolled 2), .publish b,
    tell (.addScrolled 1), .publish c, .publish b, tell .markSubmitted,
    .receive, .handBack, .receive, .start, .work, .work, .work, .work, .work, .work, .handBack,
    .receive, .start, .acknowledge, .receive, .start, .work, .work, .work, .acknowledge,
    .receive, .start, .acknowledge]

/-- Each record was worked on once, and the command has ended, as in the run without copies. -/
theorem redelivery_is_harmless_twice :
    ∃ moves s, emptyDesk.IsNew 0 ∧ Run (next? notingSetup 0) emptyDesk moves s ∧
      moves.map (·.event) = deliveredOften ∧ (yielded Event.registered? moves).Nodup ∧
      Listed moves ∧ s.engine.channel.stats = ⟨3, 3, 2⟩ ∧ s.engine.world = ["a", "b", "c"] ∧
      s.hand = none ∧ s.engine.channel.backlog 0 = 0 ∧
      ∃ once r, Replays notingSetup 0 emptyDesk moves once r ∧
        r.engine.tracker = s.engine.tracker ∧ r.engine.world = ["a", "b", "c"] ∧ r.hand = none ∧
        once.filterMap executed? = yielded Event.published? once := by
  have hcheck : (movesOf? (next? notingSetup 0) emptyDesk deliveredOften).any (fun r =>
      decide (r.2.engine.channel.stats = ⟨3, 3, 2⟩) &&
      decide (r.2.engine.world = ["a", "b", "c"]) && r.2.hand.isNone &&
      decide (r.2.engine.channel.backlog 0 = 0)) = true := by
    decide +kernel
  obtain ⟨⟨moves, s⟩, hmoves, hs⟩ := (Option.any_eq_true _ _).1 hcheck
  simp only [Bool.and_eq_true, decide_eq_true_eq, Option.isNone_iff_eq_none] at hs
  obtain ⟨⟨⟨hstats, hworld⟩, hhand⟩, hbacklog⟩ := hs
  have hevents := events_of_movesOf? hmoves
  have hrun : Run (next? notingSetup 0) emptyDesk moves s := .of_movesOf? hmoves
  have hnew : emptyDesk.IsNew 0 := ⟨rfl, ⟨1, 3, rfl⟩, Nat.one_pos, rfl⟩
  have hids : (yielded Event.registered? moves).Nodup := by
    rw [yielded_eq_filterMap, hevents]
    decide
  have hlisted : Listed moves := by
    obtain ⟨first, rest, rfl, hfirst, hrest⟩ := List.map_eq_cons_iff.1 hevents
    have hid : first.event.registered? = some Tracker.archiveAll.id := by
      rw [hfirst]
      rfl
    refine listed_of_first hid ?_
    rw [yielded_eq_filterMap, hrest]
    decide
  obtain ⟨-, once, r, hreplays, htracker, hworld', -, -, -, -, hdrained⟩ :=
    redelivery_is_harmless hnew hrun hids hlisted
  obtain ⟨hnone, hexecuted⟩ := hdrained hhand hbacklog
  exact ⟨moves, s, hnew, hrun, hevents, hids, hlisted, hstats, hworld, hhand, hbacklog, once, r,
    hreplays, htracker, hworld'.trans hworld, hnone, hexecuted⟩

end Desk

end BulkRun
