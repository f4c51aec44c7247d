import BulkRun.Proofs.Dispatch.Events
import BulkRun.Proofs.Dispatch.Tended
/-!
# Workshops

A workshop is a system with receivers besides its consumers, who hold deliveries, work on them,
break the work off, and acknowledge or hand back what they hold.  Together with the events of the
system, these are all the ways in which buckets move.  What consumers and receivers hold is listed
in one place (`heldBy`), from which one of them can be taken out and put back.
-/

namespace BulkRun

/-- A delivery that somebody holds, and the work that was begun on it. -/
structure Hand (σ : Type) where
  delivery : Delivery
  execution : Option (Execution σ)

/-- Whether no work on a delivery is under way. -/
def Hand.rests {σ : Type} (h : Hand σ) : Bool :=
  match h.execution with
  | none => true
  | some x => x.result?.isSome

/-- A system, and the deliveries that are held by others than its consumers. -/
structure Workshop (σ : Type) where
  system : System σ
  hands : List (Hand σ)

namespace Workshop

variable {σ : Type}

/-- What can happen in a workshop. -/
inductive Event (σ : Type) where
  | system (event : System.Event)
  /-- Somebody receives from the stash of a partition. -/
  | unstash (partition : Nat)
  /-- Somebody receives from the queue of a partition. -/
  | dequeue (partition : Nat)
  /-- The work on a held delivery begins. -/
  | start (place : Nat)
  /-- The work on a held delivery advances. -/
  | work (place : Nat)
  /-- A held delivery is acknowledged, the work on it being over. -/
  | acknowledge (place : Nat)
  /-- A held delivery is handed back, whether or not any work on it was begun or finished. -/
  | handBack (place : Nat)
  /-- The receiver of a partition goes, with nothing left to be received. -/
  | close (partition : Nat)
  /-- The world of the collaborators changes of itself. -/
  | world (w : σ)

/-- The workshop with another engine. -/
def withEngine (s : Workshop σ) (e : Engine σ) : Workshop σ :=
  { s with system := { s.system with engine := e } }

/-- The workshop with another channel. -/
def withChannel (s : Workshop σ) (c : Channel) : Workshop σ :=
  s.withEngine { s.system.engine with channel := c }

/-- The workshop when somebody has received a delivery. -/
def hold (s : Workshop σ) (received : Delivery × Channel) : Workshop σ :=
  { s.withChannel received.2 with hands := s.hands ++ [⟨received.1, none⟩] }

/-- The workshop when a held delivery was worked on. -/
def progress (s : Workshop σ) (place : Nat) (v : Delivery) (r : Execution σ × Engine σ) :
    Workshop σ :=
  { s.withEngine r.2 with hands := s.hands.set place ⟨v, some r.1⟩ }

/-- The workshop after an event; `none` when the event cannot happen. -/
def next? (setup : Setup σ) (s : Workshop σ) : Event σ → Option (Workshop σ)
  | .system event => (s.system.next? setup event).map fun t => { s with system := t }
  | .unstash i => (s.system.engine.channel.unstash? i).map s.hold
  | .dequeue i => (s.system.engine.channel.dequeue? i).map s.hold
  | .start k =>
    match s.hands[k]? with
    | some ⟨v, none⟩ => some (s.progress k v (Execution.start setup v.bucket s.system.engine))
    | _ => none
  | .work k =>
    match s.hands[k]? with
    | some ⟨v, some x⟩ => (x.step? setup s.system.engine).map (s.progress k v)
    | _ => none
  | .acknowledge k =>
    match s.hands[k]? with
    | some ⟨_, some (.finished _)⟩ =>
      some { s.withChannel s.system.engine.channel.acknowledge with hands := s.hands.eraseIdx k }
    | _ => none
  | .handBack k =>
    (s.hands[k]?).map fun h =>
      { s.withChannel (s.system.engine.channel.handBack h.delivery) with
        hands := s.hands.eraseIdx k }
  | .close i =>
    if ((s.system.engine.channel.partitions[i]?.map (·.buckets)).getD []).isEmpty then
      some (s.withChannel (s.system.engine.channel.close i))
    else none
  | .world w => some (s.withEngine { s.system.engine with world := w })

/-! ## What somebody does with a delivery -/

variable {setup : Setup σ} {s t : Workshop σ} {k : Nat}

theorem next?_start (h : s.next? setup (.start k) = some t) :
    ∃ v, s.hands[k]? = some ⟨v, none⟩ ∧
      t = s.progress k v (Execution.start setup v.bucket s.system.engine) := by
  rw [next?] at h
  split at h
  · rename_i v hk
    exact ⟨v, hk, (Option.some.inj h).symm⟩
  · exact absurd h (by simp)

theorem next?_work (h : s.next? setup (.work k) = some t) :
    ∃ v x r, s.hands[k]? = some ⟨v, some x⟩ ∧ x.step? setup s.system.engine = some r ∧
      t = s.progress k v r := by
  rw [next?] at h
  split at h
  · rename_i v x hk
    obtain ⟨r, hr, rfl⟩ := Option.map_eq_some_iff.1 h
    exact ⟨v, x, r, hk, hr, rfl⟩
  · exact absurd h (by simp)

theorem next?_acknowledge (h : s.next? setup (.acknowledge k) = some t) :
    ∃ v result, s.hands[k]? = some ⟨v, some (.finished result)⟩ ∧
      t = { s.withChannel s.system.engine.channel.acknowledge with
        hands := s.hands.eraseIdx k } := by
  rw [next?] at h
  split at h
  · rename_i v result hk
    exact ⟨v, result, hk, (Option.some.inj h).symm⟩
  · exact absurd h (by simp)

theorem next?_close {i : Nat} (h : s.next? setup (.close i) = some t) :
    (∀ p, s.system.engine.channel.partitions[i]? = some p → p.buckets = []) ∧
      t = s.withChannel (s.system.engine.channel.close i) := by
  rw [next?] at h
  split at h
  · rename_i hempty
    refine ⟨fun p hp => ?_, (Option.some.inj h).symm⟩
    rw [hp] at hempty
    exact List.isEmpty_iff.1 hempty
  · exact absurd h (by simp)

/-- It leaves everything but the engine of the system alone. -/
theorem system_next? {event : Event σ} (h : s.next? setup event = some t) :
    (∃ u, event = .system u) ∨ t.system = { s.system with engine := t.system.engine } := by
  cases event with
  | system event => exact .inl ⟨event, rfl⟩
  | unstash i | dequeue i | handBack i =>
    obtain ⟨v, -, rfl⟩ := Option.map_eq_some_iff.1 h
    exact .inr rfl
  | start k =>
    obtain ⟨v, -, rfl⟩ := next?_start h
    exact .inr rfl
  | work k =>
    obtain ⟨v, x, r, -, -, rfl⟩ := next?_work h
    exact .inr rfl
  | acknowledge k =>
    obtain ⟨v, result, -, rfl⟩ := next?_acknowledge h
    exact .inr rfl
  | close i =>
    obtain ⟨-, rfl⟩ := next?_close h
    exact .inr rfl
  | world w =>
    obtain rfl := Option.some.inj h
    exact .inr rfl

end Workshop

/-! ## What is held -/

/-- The bucket that a consumer works on. -/
def Consumer.lot? {σ : Type} (c : Consumer σ) : Option Lot :=
  match c.phase with
  | .executing v x => some ⟨v.bucket, x.standing⟩
  | _ => none

/-- The bucket that somebody holds. -/
def Hand.lot {σ : Type} (h : Hand σ) : Lot :=
  match h.execution with
  | some x => ⟨h.delivery.bucket, x.standing⟩
  | none => .lying h.delivery.bucket

namespace Workshop

variable {σ : Type}

/-- All published buckets that are not in the channel. -/
def heldBy (consumers : List (Consumer σ)) (hands : List (Hand σ)) : List Lot :=
  consumers.filterMap Consumer.lot? ++ hands.map Hand.lot

/-- What the entries of a list yield, with one of them taken out or replaced. -/
theorem exists_filterMap_set {α β : Type} (f : α → Option β) {as : List α} {i : Nat} {a : α}
    (h : as[i]? = some a) :
    ∃ rest, (as.filterMap f).Perm ((f a).toList ++ rest) ∧
      ((as.eraseIdx i).filterMap f).Perm rest ∧
      ∀ a', ((as.set i a').filterMap f).Perm ((f a').toList ++ rest) := by
  obtain ⟨hi, ha⟩ := List.getElem?_eq_some_iff.1 h
  have split (a' : α) : ((as.take i ++ a' :: as.drop (i + 1)).filterMap f).Perm
      ((f a').toList ++ (as.take i ++ as.drop (i + 1)).filterMap f) := by
    rw [List.filterMap_append, List.filterMap_append, List.filterMap_cons]
    cases f a' with
    | none => exact .refl _
    | some b => exact List.perm_middle
  have whole : as.take i ++ a :: as.drop (i + 1) = as := by
    rw [← ha, ← List.drop_eq_getElem_cons hi, List.take_append_drop]
  refine ⟨(as.take i ++ as.drop (i + 1)).filterMap f, ?_, ?_, ?_⟩
  · have hsplit := split a
    rwa [whole] at hsplit
  · rw [List.eraseIdx_eq_take_drop_succ]
  · intro a'
    rw [List.set_eq_take_append_cons_drop, if_pos hi]
    exact split a'

theorem heldBy_consumer {consumers : List (Consumer σ)} {i : Nat} {c : Consumer σ}
    (h : consumers[i]? = some c) (hands : List (Hand σ)) :
    ∃ rest, (heldBy consumers hands).Perm (c.lot?.toList ++ rest) ∧
      ∀ c', (heldBy (consumers.set i c') hands).Perm (c'.lot?.toList ++ rest) := by
  obtain ⟨rest, hbefore, -, hafter⟩ := exists_filterMap_set Consumer.lot? h
  refine ⟨rest ++ hands.map Hand.lot, ?_, fun c' => ?_⟩
  · rw [← List.append_assoc]
    exact hbefore.append_right _
  · rw [← List.append_assoc]
    exact (hafter c').append_right _

theorem heldBy_hand {hands : List (Hand σ)} {k : Nat} {h : Hand σ} (hk : hands[k]? = some h)
    (consumers : List (Consumer σ)) :
    ∃ rest, (heldBy consumers hands).Perm (h.lot :: rest) ∧
      (heldBy consumers (hands.eraseIdx k)).Perm rest ∧
      ∀ h', (heldBy consumers (hands.set k h')).Perm (h'.lot :: rest) := by
  obtain ⟨rest, hbefore, herase, hafter⟩ := exists_filterMap_set (some ∘ Hand.lot) hk
  simp only [List.filterMap_eq_map] at hbefore herase hafter
  refine ⟨consumers.filterMap Consumer.lot? ++ rest, ?_, herase.append_left _, fun h' => ?_⟩
  · exact (hbefore.append_left _).trans List.perm_middle
  · exact ((hafter h').append_left _).trans List.perm_middle

end Workshop

end BulkRun
