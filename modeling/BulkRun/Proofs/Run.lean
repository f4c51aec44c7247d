/-!
# Runs

A run is what comes of taking one event after the other from a state.  It remembers every move, so
that what happened on the way can be asked for at its end.
-/

namespace BulkRun

/-- One event, with the states before and after it. -/
structure Move (S E : Type) where
  before : S
  event : E
  after : S

variable {S E : Type} {next? : S → E → Option S} {s₀ s : S} {moves : List (Move S E)}

/-- The runs of a machine, of which `next?` says what an event makes of a state. -/
inductive Run (next? : S → E → Option S) (s₀ : S) : List (Move S E) → S → Prop
  | start : Run next? s₀ [] s₀
  | move {moves : List (Move S E)} {s t : S} (event : E) :
      Run next? s₀ moves s → next? s event = some t → Run next? s₀ (moves ++ [⟨s, event, t⟩]) t

/-- The moves that some events make, one after the other, and the state they lead to. -/
def movesOf? (next? : S → E → Option S) (s : S) : List E → Option (List (Move S E) × S)
  | [] => some ([], s)
  | event :: events =>
    (next? s event).bind fun t =>
      (movesOf? next? t events).map fun (moves, u) => (⟨s, event, t⟩ :: moves, u)

/-- The moves that some events make are moves with these events. -/
theorem events_of_movesOf? {events : List E} {t : S}
    (h : movesOf? next? s events = some (moves, t)) : moves.map (·.event) = events := by
  induction events generalizing moves s with
  | nil =>
    obtain ⟨rfl, -⟩ := Prod.mk.inj (Option.some.inj h)
    rfl
  | cons event events ih =>
    obtain ⟨u, -, hrest⟩ := Option.bind_eq_some_iff.1 h
    obtain ⟨⟨rest, v⟩, hv, heq⟩ := Option.map_eq_some_iff.1 hrest
    obtain ⟨rfl, rfl⟩ := Prod.mk.inj heq
    rw [List.map_cons, ih hv]

/-- What can be said of the events can be said of the moves that they make. -/
theorem forall_of_movesOf? {P : E → Prop} {events : List E} {t : S}
    (h : movesOf? next? s events = some (moves, t)) (hevents : ∀ event ∈ events, P event) :
    ∀ m ∈ moves, P m.event := by
  intro m hm
  apply hevents
  rw [← events_of_movesOf? h]
  exact List.mem_map.2 ⟨m, hm, rfl⟩

/-! ## What was done -/

/-- What the events of some moves yield, one after the other. -/
def yielded {α : Type} (f : E → Option α) (moves : List (Move S E)) : List α :=
  moves.filterMap fun m => f m.event

theorem yielded_eq_filterMap {α : Type} (f : E → Option α) (moves : List (Move S E)) :
    yielded f moves = (moves.map (·.event)).filterMap f := by
  rw [List.filterMap_map]
  rfl

theorem yielded_append {α : Type} (f : E → Option α) (front rear : List (Move S E)) :
    yielded f (front ++ rear) = yielded f front ++ yielded f rear :=
  List.filterMap_append

theorem yielded_concat {α : Type} (f : E → Option α) (moves : List (Move S E)) (m : Move S E) :
    yielded f (moves ++ [m]) = yielded f moves ++ (f m.event).toList :=
  List.filterMap_append

namespace Run

/-- A run may go on with another run. -/
theorem trans {t : S} {more : List (Move S E)} (h : Run next? s₀ moves s)
    (hmore : Run next? s more t) : Run next? s₀ (moves ++ more) t := by
  induction hmore with
  | start => rwa [List.append_nil]
  | move event _ hnext ih =>
    rw [← List.append_assoc]
    exact .move event ih hnext

/-- The moves that some events make are a run. -/
theorem of_movesOf? {events : List E} (h : movesOf? next? s₀ events = some (moves, s)) :
    Run next? s₀ moves s := by
  induction events generalizing moves s₀ with
  | nil =>
    obtain ⟨rfl, rfl⟩ := Prod.mk.inj (Option.some.inj h)
    exact .start
  | cons event events ih =>
    obtain ⟨t, hnext, hrest⟩ := Option.bind_eq_some_iff.1 h
    obtain ⟨⟨rest, u⟩, hu, heq⟩ := Option.map_eq_some_iff.1 hrest
    obtain ⟨rfl, rfl⟩ := Prod.mk.inj heq
    exact trans (.move event .start hnext) (ih hu)

/-- A run may go on with the moves that some events make. -/
theorem append {t : S} {events : List E} {more : List (Move S E)} (h : Run next? s₀ moves s)
    (hmore : movesOf? next? s events = some (more, t)) : Run next? s₀ (moves ++ more) t :=
  h.trans (of_movesOf? hmore)

/-- Every move of a run is one that the machine makes. -/
theorem next?_of_mem (h : Run next? s₀ moves s) {m : Move S E} (hm : m ∈ moves) :
    next? m.before m.event = some m.after := by
  induction h with
  | start => exact absurd hm List.not_mem_nil
  | move event _ hnext ih =>
    rcases List.mem_append.1 hm with hm | hm
    · exact ih hm
    · rw [List.mem_singleton.1 hm]
      exact hnext

/-- A run that was cut in two is a run up to the cut and a run from there. -/
theorem cut {front rear : List (Move S E)} (h : Run next? s₀ (front ++ rear) s) :
    ∃ t, Run next? s₀ front t ∧ Run next? t rear s := by
  generalize hall : front ++ rear = all at h
  induction h generalizing rear with
  | start =>
    obtain ⟨rfl, rfl⟩ := List.append_eq_nil_iff.1 hall
    exact ⟨s₀, .start, .start⟩
  | @move moves t u event hrun hnext ih =>
    obtain rfl | ⟨rest, m, rfl⟩ := rear.eq_nil_or_concat
    · rw [List.append_nil] at hall
      rw [hall]
      exact ⟨u, .move event hrun hnext, .start⟩
    · rw [List.concat_eq_append, ← List.append_assoc] at hall
      obtain ⟨hmoves, hlast⟩ := List.append_inj' hall rfl
      obtain ⟨v, hfront, hrest⟩ := ih hmoves
      rw [List.concat_eq_append, hlast]
      exact ⟨v, hfront, .move event hrest hnext⟩

/-- A run is where its last move led. -/
theorem eq_of_concat {m : Move S E} (h : Run next? s₀ (moves ++ [m]) s) : s = m.after := by
  generalize hall : moves ++ [m] = all at h
  cases h with
  | start => exact absurd hall (by simp)
  | move event _ _ =>
    obtain ⟨-, hlast⟩ := List.append_inj' hall rfl
    rw [List.singleton_inj.1 hlast]

/-- What holds at the start and is kept by every move that `Fair` allows holds at the end of every
run of such moves. -/
theorem invariant {Fair : Move S E → Prop} {Inv : S → Prop} (h : Run next? s₀ moves s)
    (hfair : ∀ m ∈ moves, Fair m) (hstart : Inv s₀)
    (hmove : ∀ s event t, next? s event = some t → Fair ⟨s, event, t⟩ → Inv s → Inv t) :
    Inv s := by
  induction h with
  | start => exact hstart
  | move event _ hnext ih =>
    refine hmove _ event _ hnext (hfair _ (by simp)) (ih fun m hm => hfair m ?_)
    exact List.mem_append_left _ hm

/-- What holds at the start and is kept by every move holds at the end of every run. -/
theorem always {Inv : S → Prop} (h : Run next? s₀ moves s) (hstart : Inv s₀)
    (hmove : ∀ s event t, next? s event = some t → Inv s → Inv t) : Inv s := by
  have hfair : ∀ m ∈ moves, True := fun _ _ => trivial
  exact h.invariant hfair hstart fun s event t hnext _ => hmove s event t hnext

/-- An invariant of the moves that `Fair` allows holds before and after every move, too. -/
theorem invariant_of_mem {Fair : Move S E → Prop} {Inv : S → Prop} (h : Run next? s₀ moves s)
    (hfair : ∀ m ∈ moves, Fair m) (hstart : Inv s₀)
    (hmove : ∀ s event t, next? s event = some t → Fair ⟨s, event, t⟩ → Inv s → Inv t) :
    ∀ m ∈ moves, Inv m.before ∧ Inv m.after := by
  induction h with
  | start => exact fun m hm => absurd hm List.not_mem_nil
  | @move moves s t event hrun hnext ih =>
    have hfair' : ∀ m ∈ moves, Fair m := fun m hm => hfair m (List.mem_append_left _ hm)
    have hs : Inv s := hrun.invariant hfair' hstart hmove
    intro m hm
    rcases List.mem_append.1 hm with hm | hm
    · exact ih hfair' m hm
    · rw [List.mem_singleton.1 hm]
      exact ⟨hs, hmove s event t hnext (hfair _ (by simp)) hs⟩

/-- What every move of a run leads to is related to the end of the run, if that is so for every move
and the relation is a preorder. -/
theorem related {R : S → S → Prop} (hrefl : ∀ s, R s s) (htrans : ∀ {s t u}, R s t → R t u → R s u)
    (h : Run next? s₀ moves s) (hmoves : ∀ m ∈ moves, R m.before m.after) :
    R s₀ s ∧ ∀ m ∈ moves, R m.after s := by
  induction h with
  | start => exact ⟨hrefl s₀, fun m hm => absurd hm List.not_mem_nil⟩
  | @move moves s t event _ _ ih =>
    obtain ⟨hstart, hrest⟩ := ih fun m hm => hmoves m (List.mem_append_left _ hm)
    have hlast : R s t := hmoves ⟨s, event, t⟩ (by simp)
    refine ⟨htrans hstart hlast, fun m hm => ?_⟩
    rcases List.mem_append.1 hm with hm | hm
    · exact htrans (hrest m hm) hlast
    · obtain rfl := List.mem_singleton.1 hm
      exact hrefl _

end Run

end BulkRun
