import BulkRun.Proofs.Status.History
import Mathlib.Data.List.Nodup
/-!
# Commands whose retention is over

A command that has ended is kept for a while and may be dropped then.  How long ago it ended is read
off the time of its end, which is recorded apart from its state, by everything that ends a command.
Main statement: in every history the time is there exactly when the command has ended, and so
dropping takes away exactly the commands that ended at least a retention ago
(`expiry_is_exact`).
-/

namespace BulkRun

open Tracker (Report)

namespace Timestamp

variable {t u v : Timestamp} {n : Nat}

protected theorem le_refl (t : Timestamp) : t ≤ t := .inr ⟨rfl, Nat.le_refl _⟩

protected theorem le_trans (h : t ≤ u) (h' : u ≤ v) : t ≤ v := by
  obtain h | ⟨h, hn⟩ := h
  · obtain h' | ⟨h', -⟩ := h'
    · exact .inl (Int.lt_trans h h')
    · exact .inl (h' ▸ h)
  · obtain h' | ⟨h', hn'⟩ := h'
    · exact .inl (h ▸ h')
    · exact .inr ⟨h.trans h', Nat.le_trans hn hn'⟩

/-! ### Instants outside leap seconds -/

/-- Nanoseconds since 1970, if there were no leap seconds. -/
def ticks (t : Timestamp) : Int := t.seconds * 1000000000 + (t.nanos : Int)

/-- Outside leap seconds instants come in the order of the nanoseconds since 1970. -/
theorem le_iff_ticks (ht : t.nanos < 1000000000) (hu : u.nanos < 1000000000) :
    t ≤ u ↔ t.ticks ≤ u.ticks := by
  show t.seconds < u.seconds ∨ t.seconds = u.seconds ∧ t.nanos ≤ u.nanos ↔ _
  unfold ticks
  omega

/-- Nanoseconds that may be added are added. -/
theorem ticks_of_add? (ht : t.nanos < 1000000000) (hu : t.add? n = some u) :
    u.nanos < 1000000000 ∧ u.ticks = t.ticks + n := by
  unfold add? at hu
  rw [if_neg (by omega)] at hu
  dsimp only at hu
  split at hu
  · obtain rfl := Option.some.inj hu
    unfold ticks
    dsimp only
    omega
  · exact absurd hu (by simp)

/-- An instant that the calendar reaches is reached. -/
theorem exists_add? (ht : t.nanos < 1000000000)
    (hfits : (t.ticks + n) / 1000000000 < secondsEnd) : ∃ u, t.add? n = some u := by
  unfold add?
  rw [if_neg (by omega)]
  dsimp only
  rw [if_pos]
  · exact ⟨_, rfl⟩
  · unfold ticks at hfits
    omega

end Timestamp

namespace Progress

variable {p : Progress} {now earlier : Timestamp} {retention : Nat}

/-! ## The time of the end -/

/-- Whether the time of the end is recorded exactly if the command has ended. -/
def EndIsDated (p : Progress) : Prop := p.completedAt.isSome = true ↔ p.state.isTerminal = true

theorem endIsDated_new (c : Command) (now : Timestamp) : (new c now).EndIsDated :=
  iff_of_false Bool.false_ne_true Bool.false_ne_true

/-- Only the state and the time of the end matter. -/
theorem EndIsDated.congr {q : Progress} (h : p.EndIsDated) (hstate : q.state = p.state)
    (hat : q.completedAt = p.completedAt) : q.EndIsDated := by
  unfold EndIsDated
  rw [hstate, hat]
  exact h

/-- A move between states that are not terminal leaves the time alone. -/
theorem EndIsDated.move {q : Progress} (h : p.EndIsDated) (hbefore : p.state.isTerminal = false)
    (hafter : q.state.isTerminal = false) (hat : q.completedAt = p.completedAt) :
    q.EndIsDated := by
  unfold EndIsDated at *
  rw [hafter, hat, h, hbefore]

theorem EndIsDated.settle (h : p.EndIsDated) (now : Timestamp) : (p.settle now).1.EndIsDated := by
  rw [settle_fst]
  split
  · exact iff_of_true rfl p.finalState_isTerminal
  · exact h

theorem EndIsDated.startScrolling (h : p.EndIsDated) (now : Timestamp) :
    (p.startScrolling now).1.EndIsDated := by
  rw [startScrolling_fst]
  split
  · rename_i hscheduled
    refine h.move ?_ rfl rfl
    rw [eq_of_beq hscheduled]
    rfl
  · exact h

theorem EndIsDated.endScroll (h : p.EndIsDated) (now : Timestamp) :
    (p.endScroll now).1.EndIsDated := by
  rw [endScroll_fst]
  split
  · rename_i hscrolling
    have hopen := CommandState.not_isTerminal_of_isScrolling hscrolling
    exact (h.move (q := { p with state := .running }) hopen rfl rfl).settle now
  · exact h.settle now

theorem EndIsDated.abort (h : p.EndIsDated) (now : Timestamp) (message : Option String) :
    ((p.abort? now message).getD p).EndIsDated := by
  rw [abort?_eq]
  split
  · exact h
  · exact iff_of_true rfl rfl

/-- Whatever is reported about a command, the time of its end is recorded when it ends, and not
before. -/
theorem EndIsDated.heed (h : p.EndIsDated) (now : Timestamp) (r : Report) :
    (p.heed now r).EndIsDated := by
  cases r with
  | startScrolling => exact h.startScrolling now
  | addScrolled n => exact h.congr rfl rfl
  | markSubmitted =>
    have hmarked : EndIsDated { p with scrollEndedAt := some now, submitted := true } := h
    exact hmarked.endScroll now
  | failScroll message =>
    have hfailed : EndIsDated { p with
      scrollEndedAt := some now, errorMessage := some message, scrollFailed := true } := h
    exact hfailed.endScroll now
  | recordBatch n e =>
    have hcounted : EndIsDated { p with
      startedAt := p.startedAt.or (some now)
      errorCount := (p.errorCount + e) % wordCount
      processed := min (min (p.processed + n) wordMax) p.scrollCount } := h
    exact hcounted.settle now
  | completeBucket k =>
    obtain ⟨done, hdone⟩ := p.completeBucket_frame k
    rw [Progress.heed, hdone]
    exact h.congr rfl rfl
  | abort => exact h.abort now none
  | abortWithError message => exact h.abort now (some message)

/-! ## Being due -/

/-- Whether a command ended at least so many nanoseconds before an instant.  A time that lies past
the end of the calendar never comes. -/
def IsDue (retention : Nat) (now : Timestamp) (p : Progress) : Prop :=
  p.state.isTerminal = true ∧
    ∃ ended ∈ p.completedAt, ∃ expiry ∈ ended.add? retention, expiry ≤ now

instance (retention : Nat) (now : Timestamp) (p : Progress) : Decidable (p.IsDue retention now) :=
  inferInstanceAs (Decidable (_ ∧ _))

theorem isExpired_iff : p.isExpired now retention = true ↔ p.IsDue retention now := by
  unfold isExpired IsDue
  rw [Bool.and_eq_true]
  refine and_congr_right fun _ => ?_
  cases p.completedAt with
  | none => simp
  | some ended => cases hexpiry : ended.add? retention <;> simp [hexpiry]

theorem isExpired_eq_decide (p : Progress) (now : Timestamp) (retention : Nat) :
    p.isExpired now retention = decide (p.IsDue retention now) := by
  rw [Bool.eq_iff_iff, isExpired_iff, decide_eq_true_eq]

/-- What is due at an instant stays due. -/
theorem IsDue.later (h : p.IsDue retention earlier) (hle : earlier ≤ now) :
    p.IsDue retention now := by
  obtain ⟨hended, ended, hat, expiry, hexpiry, hdue⟩ := h
  exact ⟨hended, ended, hat, expiry, hexpiry, Timestamp.le_trans hdue hle⟩

/-- Outside leap seconds a command is due when the retention has passed since its end. -/
theorem isDue_iff_ticks {ended : Timestamp} (hended : p.state.isTerminal = true)
    (hat : p.completedAt = some ended) (hplain : ended.nanos < 1000000000)
    (hfits : (ended.ticks + retention) / 1000000000 < Timestamp.secondsEnd)
    (hnow : now.nanos < 1000000000) :
    p.IsDue retention now ↔ ended.ticks + retention ≤ now.ticks := by
  obtain ⟨expiry, hexpiry⟩ := Timestamp.exists_add? hplain hfits
  obtain ⟨hexact, hticks⟩ := Timestamp.ticks_of_add? hplain hexpiry
  rw [← hticks, ← Timestamp.le_iff_ticks hexact hnow]
  simp [IsDue, hended, hat, hexpiry]

end Progress

namespace Tracker

variable {t u s : Tracker} {now earlier : Timestamp} {id : CommandId} {p q : Progress}

/-! ## Every command of a history -/

theorem find?_of_mem (ht : t.Distinct) (hp : p ∈ t.commands) : t.find? p.id = some p := by
  cases hq : t.find? p.id with
  | none =>
    exact absurd (List.mem_map_of_mem hp) (find?_eq_none_iff.1 hq)
  | some q =>
    have hmem : q ∈ t.commands := List.mem_of_find?_eq_some hq
    exact congrArg some (List.inj_on_of_nodup_map ht hmem hp (id_of_find? hq))

/-- A command that is found after an operation was accepted by it, or was there before and perhaps
heeded a report. -/
theorem found_operate (ht : t.Distinct) (o : Operation) (hq : (t.operate o).find? id = some q) :
    (∃ c now, q = .new c now) ∨
      ∃ p, t.find? id = some p ∧ (q = p ∨ ∃ now r, q = p.heed now r) := by
  cases hp : t.find? id with
  | some p =>
    obtain ⟨-, -, ⟨now, r, -, hheed, -⟩ | ⟨-, hkept | hgone, -⟩⟩ := operate_cases ht hp o
    · exact .inr ⟨p, rfl, .inr ⟨now, r, Option.some.inj (hq.symm.trans hheed)⟩⟩
    · exact .inr ⟨p, rfl, .inl (Option.some.inj (hq.symm.trans hkept))⟩
    · exact absurd (hq.symm.trans hgone) (by simp)
  | none =>
    have absent (h : t.find? id = some q) : False := absurd (h.symm.trans hp) (by simp)
    cases o with
    | register now c =>
      cases h : t.register now c with
      | error e =>
        rw [operate, h] at hq
        exact (absent hq).elim
      | ok u =>
        rw [operate, h] at hq
        change u.find? id = some q at hq
        rw [(register_eq_ok h).2 id] at hq
        split at hq
        · exact .inl ⟨c, now, (Option.some.inj hq).symm⟩
        · exact (absent hq).elim
    | call c =>
      rw [operate] at hq
      by_cases hc : c.id = id
      · subst hc
        rw [find?_call_self, hp] at hq
        exact absurd hq (by simp)
      · rw [find?_call_other t hc] at hq
        exact (absent hq).elim
    | get now k => exact (absent ((drops_get ht now k).find? hq)).elim
    | purgeExpired now => exact (absent ((drops_purgeExpired ht now).find? hq)).elim

/-- What holds of a command that is accepted, and is kept by every report, holds of all commands
after any history. -/
theorem forall_find?_of_run {Holds : Progress → Prop} {moves : List (Move Tracker Operation)}
    (hrun : Run next? t moves s) (ht : t.Distinct) (hnone : t.commands = [])
    (hnew : ∀ c now, Holds (.new c now)) (hheed : ∀ p now r, Holds p → Holds (p.heed now r)) :
    ∀ id p, s.find? id = some p → Holds p := by
  induction hrun with
  | start =>
    intro id p hp
    rw [find?, hnone] at hp
    exact absurd hp (by simp)
  | @move moves v w o hbefore hnext ih =>
    obtain rfl := Option.some.inj hnext
    intro id q hq
    obtain ⟨c, now, rfl⟩ | ⟨p, hp, rfl | ⟨now, r, rfl⟩⟩ :=
      found_operate (distinct_of_run ht hbefore) o hq
    · exact hnew c now
    · exact ih id q hp
    · exact hheed p now r (ih id p hp)

/-! ## The retention -/

theorem retention_change {f : Progress → Progress × List CommandState}
    (h : t.change now id f = .ok u) : u.retention = t.retention := by
  unfold change at h
  cases hp : t.progress id with
  | error e =>
    rw [hp] at h
    exact absurd h (by simp [Except.map])
  | ok p =>
    rw [hp] at h
    rw [← Except.ok.inj h]
    rfl

theorem retention_abortWith {message : Option String} {isNew : Bool}
    (h : t.abortWith now id message = .ok (isNew, u)) : u.retention = t.retention := by
  obtain ⟨-, h'⟩ | ⟨p, -, -, h'⟩ | ⟨p, v, -, hv, h'⟩ := abortWith_cases t now id message
  · exact absurd (h.symm.trans h') (by simp)
  · rw [(Prod.mk.inj (Except.ok.inj (h.symm.trans h'))).2]
  · rw [(Prod.mk.inj (Except.ok.inj (h.symm.trans h'))).2]
    exact hv.retention

theorem retention_answer {r : Report} (h : t.answer now id r = .ok u) :
    u.retention = t.retention := by
  cases r with
  | startScrolling => exact retention_change h
  | addScrolled n =>
    rw [answer, addScrolled] at h
    exact retention_change h
  | markSubmitted =>
    rw [answer, markSubmitted] at h
    exact retention_change h
  | failScroll message =>
    rw [answer, failScroll] at h
    exact retention_change h
  | recordBatch n e => exact retention_change h
  | completeBucket k =>
    obtain ⟨isNew, h⟩ := of_map_snd h
    exact retention_change (change_of_completeBucket h)
  | abort =>
    obtain ⟨isNew, h⟩ := of_map_snd h
    exact retention_abortWith h
  | abortWithError message =>
    obtain ⟨isNew, h⟩ := of_map_snd h
    exact retention_abortWith h

/-- No operation changes how long commands are kept. -/
theorem retention_operate (t : Tracker) (o : Operation) :
    (t.operate o).retention = t.retention := by
  cases o with
  | register now c =>
    rw [operate, register]
    split <;> rfl
  | call c =>
    rw [operate, call]
    split
    · rename_i u hu
      exact retention_answer hu
    · rfl
  | get now k =>
    rw [operate, get]
    split
    · rfl
    · split <;> rfl
  | purgeExpired now => rfl

theorem retention_of_run {moves : List (Move Tracker Operation)} (hrun : Run next? t moves s) :
    s.retention = t.retention := by
  induction hrun with
  | start => rfl
  | move o _ hnext ih => rw [← Option.some.inj hnext, retention_operate _ o, ih]

/-! ## Dropping -/

/-- What is dropped at an instant are the commands that are due. -/
theorem purgeExpired_eq (t : Tracker) (now : Timestamp) :
    t.purgeExpired now = ((t.commands.filter fun p => p.IsDue t.retention now).length,
      { t with commands := t.commands.filter fun p => ¬ p.IsDue t.retention now }) := by
  have hkeep : (fun p : Progress => !p.isExpired now t.retention) =
      fun p => decide (¬ p.IsDue t.retention now) := by
    funext p
    rw [Progress.isExpired_eq_decide, decide_not]
  unfold purgeExpired
  dsimp only
  rw [hkeep]
  refine Prod.ext ?_ rfl
  have hparts := List.length_eq_length_filter_add (l := t.commands)
    fun p => decide (p.IsDue t.retention now)
  simp only [decide_not] at *
  omega

/-- After commands were dropped there is nothing to be dropped at the same instant or before. -/
theorem purgeExpired_again (t : Tracker) (hle : earlier ≤ now) :
    (t.purgeExpired now).2.purgeExpired earlier = (0, (t.purgeExpired now).2) := by
  have hnone : ∀ p ∈ (t.purgeExpired now).2.commands, ¬ p.IsDue t.retention earlier := by
    intro p hp hdue
    rw [purgeExpired_eq] at hp
    exact of_decide_eq_true (List.mem_filter.1 hp).2 (hdue.later hle)
  have hkept : (t.purgeExpired now).2.retention = t.retention := by rw [purgeExpired_eq]
  rw [purgeExpired_eq, hkept, List.filter_eq_nil_iff.2 fun p hp => by simpa using hnone p hp,
    List.filter_eq_self.2 fun p hp => by simpa using hnone p hp]
  rfl

/-- After commands were dropped those are found that were found before and are not due. -/
theorem find?_purgeExpired (ht : t.Distinct) (now : Timestamp) (id : CommandId) :
    (t.purgeExpired now).2.find? id =
      (t.find? id).filter fun p => ¬ p.IsDue t.retention now := by
  rw [purgeExpired_eq]
  exact find?_filter ht _

/-- A command is looked up: it is found if it is there and not due, and dropped if it is due. -/
theorem get_eq (ht : t.Distinct) (now : Timestamp) (id : CommandId) :
    t.get now id =
      (match (t.purgeExpired now).2.find? id with
        | some p => .ok p.status
        | none => .error (.notFound id),
      { t with
        commands := t.commands.filter fun p => ¬ (p.id = id ∧ p.IsDue t.retention now) }) := by
  -- whatever has this id is the command that is looked up
  have hsame : ∀ q ∈ t.commands, q.id = id → t.find? id = some q := by
    rintro q hq rfl
    exact find?_of_mem ht hq
  have hall (h : ∀ q ∈ t.commands, ¬ (q.id = id ∧ q.IsDue t.retention now)) :
      t.commands.filter (fun q => ¬ (q.id = id ∧ q.IsDue t.retention now)) = t.commands :=
    List.filter_eq_self.2 fun q hq => decide_eq_true (h q hq)
  rw [find?_purgeExpired ht]
  unfold get
  cases hp : t.find? id with
  | none =>
    rw [progress_eq_error.2 ⟨hp, rfl⟩, hall]
    · rfl
    · intro q hq h
      exact absurd ((hsame q hq h.1).symm.trans hp) (by simp)
  | some p =>
    rw [progress_eq_ok.2 hp]
    dsimp only
    by_cases hdue : p.IsDue t.retention now
    · rw [if_pos (Progress.isExpired_iff.2 hdue), Option.filter_some, if_neg (by simpa using hdue)]
      refine Prod.ext rfl (congrArg (fun cs => { t with commands := cs }) ?_)
      refine List.filter_congr fun q hq => ?_
      by_cases hid : q.id = id
      · obtain rfl := Option.some.inj ((hsame q hq hid).symm.trans hp)
        simp [hid, hdue]
      · simp [hid]
    · rw [if_neg fun h => hdue (Progress.isExpired_iff.1 h), Option.filter_some,
        if_pos (by simpa using hdue), hall]
      rintro q hq ⟨hid, hdue'⟩
      obtain rfl := Option.some.inj ((hsame q hq hid).symm.trans hp)
      exact hdue hdue'

/-! ## In every history -/

variable {capacity retention : Nat} {moves : List (Move Tracker Operation)}

/-- In every history the time of an end is recorded exactly for the commands that have ended. -/
theorem endIsDated_of_run (hrun : Run next? (keeping capacity retention) moves t)
    (hp : p ∈ t.commands) : p.EndIsDated :=
  have hd := distinct_keeping capacity retention
  forall_find?_of_run hrun hd rfl Progress.endIsDated_new (fun _ now r h => h.heed now r) _ p
    (find?_of_mem (distinct_of_run hd hrun) hp)

/-- Expiry is exact, after every history and for every retention.  The time of the end of a command
is recorded if and only if it has ended.  So at any instant the commands that are dropped are those
that have ended and whose end, put off by the retention, has come; their number is returned, all
others are left as they are, and dropping once more, then or earlier, drops nothing.  A command is
looked up in vain exactly if it is not there or would be dropped, and then it alone is dropped. -/
theorem expiry_is_exact (hrun : Run next? (keeping capacity retention) moves t) :
    (retention ≤ maxRetention → t.retention = retention) ∧
    (∀ p ∈ t.commands, (p.completedAt.isSome = true ↔ p.state.isTerminal = true) ∧
      ∀ ended, p.completedAt = some ended → ∀ now,
        (p.IsDue t.retention now ↔ ∃ expiry, ended.add? t.retention = some expiry ∧ expiry ≤ now) ∧
        -- outside leap seconds, and within the calendar
        (ended.nanos < 1000000000 → now.nanos < 1000000000 →
          (ended.ticks + t.retention) / 1000000000 < Timestamp.secondsEnd →
            (p.IsDue t.retention now ↔ ended.ticks + t.retention ≤ now.ticks))) ∧
    ∀ now,
      (t.purgeExpired now = ((t.commands.filter fun p => p.IsDue t.retention now).length,
        { t with commands := t.commands.filter fun p => ¬ p.IsDue t.retention now })) ∧
      (∀ p ∈ t.commands, p.state.isTerminal = false → p ∈ (t.purgeExpired now).2.commands) ∧
      (∀ earlier, earlier ≤ now →
        (t.purgeExpired now).2.purgeExpired earlier = (0, (t.purgeExpired now).2)) ∧
      ∀ id,
        ((t.get now id).1 = .error (.notFound id) ↔
          t.find? id = none ∨ ∃ p, t.find? id = some p ∧ p.IsDue t.retention now) ∧
        (∀ e, (t.get now id).1 = .error e →
          e = .notFound id ∧ (t.purgeExpired now).2.find? id = none) ∧
        (∀ p, (t.purgeExpired now).2.find? id = some p → (t.get now id).1 = .ok p.status) ∧
        (t.get now id).2 =
          { t with commands := t.commands.filter fun p =>
              ¬ (p.id = id ∧ p.IsDue t.retention now) } := by
  have hd : t.Distinct := distinct_of_run (distinct_keeping capacity retention) hrun
  refine ⟨fun hle => ?_, fun p hp => ⟨endIsDated_of_run hrun hp, fun ended hat now => ?_⟩,
    fun now => ⟨purgeExpired_eq t now, fun p hp hopen => ?_, fun _ => purgeExpired_again t,
      fun id => ?_⟩⟩
  · rw [retention_of_run hrun, keeping, effectiveRetention, if_pos hle]
  · have hended : p.state.isTerminal = true :=
      (endIsDated_of_run hrun hp).1 (by rw [hat, Option.isSome_some])
    refine ⟨by simp [Progress.IsDue, hended, hat], fun hplain hnow hfits => ?_⟩
    exact Progress.isDue_iff_ticks hended hat hplain hfits hnow
  · rw [purgeExpired_eq]
    refine List.mem_filter.2 ⟨hp, decide_eq_true fun hdue => ?_⟩
    exact absurd (hopen.symm.trans hdue.1) Bool.false_ne_true
  · have hgone : (t.purgeExpired now).2.find? id = none ↔
        t.find? id = none ∨ ∃ p, t.find? id = some p ∧ p.IsDue t.retention now := by
      rw [find?_purgeExpired hd]
      cases t.find? id <;> simp [Option.filter_some]
    rw [get_eq hd now id, ← hgone]
    cases (t.purgeExpired now).2.find? id <;> simp [eq_comm]

/-- Three commands: one is aborted, one is worked through later, and one is scrolled to the end. -/
def threeCommands : List Operation :=
  let second : Command := { archiveAll with id := ⟨8⟩ }
  let third : Command := { archiveAll with id := ⟨9⟩ }
  [.register ⟨0, 0⟩ archiveAll, .register ⟨0, 0⟩ second, .register ⟨0, 0⟩ third,
    .call ⟨⟨1, 0⟩, second.id, .startScrolling⟩, .call ⟨⟨1, 500⟩, archiveAll.id, .abort⟩,
    .call ⟨⟨2, 0⟩, second.id, .addScrolled 1⟩, .call ⟨⟨2, 0⟩, third.id, .addScrolled 1⟩,
    .call ⟨⟨3, 0⟩, second.id, .markSubmitted⟩, .call ⟨⟨3, 0⟩, third.id, .markSubmitted⟩,
    .call ⟨⟨4, 0⟩, archiveAll.id, .recordBatch 1 1⟩, .call ⟨⟨5, 0⟩, second.id, .recordBatch 1 0⟩]

/-- A minute and some nanoseconds later, and not before, the first is dropped; the second is still
found then, and is not found some seconds on. -/
theorem expiry_is_exact_to_the_nanosecond :
    ∃ moves t, Run next? (keeping 8 60000000250) moves t ∧ moves.map (·.event) = threeCommands ∧
      t.commands.map (·.state) = [.aborted, .completed, .running] ∧
      t.commands.map (·.completedAt) = [some ⟨1, 500⟩, some ⟨5, 0⟩, none] ∧
      (t.purgeExpired ⟨61, 749⟩).1 = 0 ∧ (t.purgeExpired ⟨61, 750⟩).1 = 1 ∧
      (t.purgeExpired ⟨61, 750⟩).2.purgeExpired ⟨61, 750⟩ = (0, (t.purgeExpired ⟨61, 750⟩).2) ∧
      (t.get ⟨61, 750⟩ archiveAll.id).1 = .error (.notFound archiveAll.id) ∧
      (∃ p, (t.get ⟨61, 750⟩ ⟨8⟩).1 = .ok p) ∧
      (t.get ⟨65, 250⟩ ⟨8⟩).1 = .error (.notFound ⟨8⟩) := by
  have hcheck : (movesOf? next? (keeping 8 60000000250) threeCommands).any (fun r =>
      decide (r.2.commands.map (·.state) = [.aborted, .completed, .running]) &&
      decide (r.2.commands.map (·.completedAt) = [some ⟨1, 500⟩, some ⟨5, 0⟩, none]) &&
      decide (((r.2.commands.filter fun p => p.IsDue r.2.retention ⟨61, 749⟩).length,
        (r.2.commands.filter fun p => p.IsDue r.2.retention ⟨61, 750⟩).length) = (0, 1)) &&
      ((r.2.find? archiveAll.id).any fun p => p.IsDue r.2.retention ⟨61, 750⟩) &&
      ((r.2.purgeExpired ⟨61, 750⟩).2.find? ⟨8⟩).isSome &&
      (r.2.find? ⟨8⟩).any fun p => p.IsDue r.2.retention ⟨65, 250⟩) = true := by
    decide +kernel
  obtain ⟨⟨moves, t⟩, hmoves, ht⟩ := (Option.any_eq_true _ _).1 hcheck
  simp only [Bool.and_eq_true, decide_eq_true_eq, Prod.mk.injEq] at ht
  obtain ⟨⟨⟨⟨⟨hstates, hends⟩, hnone, hone⟩, hfirst⟩, hsecond⟩, hlater⟩ := ht
  have hrun : Run next? (keeping 8 60000000250) moves t := .of_movesOf? hmoves
  obtain ⟨-, -, hexact⟩ := expiry_is_exact hrun
  obtain ⟨hearly, -⟩ := hexact ⟨61, 749⟩
  obtain ⟨hdrops, -, hagain, hlook⟩ := hexact ⟨61, 750⟩
  obtain ⟨-, -, -, hlook'⟩ := hexact ⟨65, 250⟩
  obtain ⟨p, hp, hdue⟩ := (Option.any_eq_true _ _).1 hfirst
  obtain ⟨q, hq⟩ := Option.isSome_iff_exists.1 hsecond
  obtain ⟨q', hq', hdue'⟩ := (Option.any_eq_true _ _).1 hlater
  refine ⟨moves, t, hrun, events_of_movesOf? hmoves, hstates, hends, ?_, ?_,
    hagain _ (Timestamp.le_refl _),
    (hlook archiveAll.id).1.2 (.inr ⟨p, hp, of_decide_eq_true hdue⟩),
    ⟨q.status, (hlook ⟨8⟩).2.2.1 q hq⟩, (hlook' ⟨8⟩).1.2 (.inr ⟨q', hq', of_decide_eq_true hdue'⟩)⟩
  · rw [hearly, hnone]
  · rw [hdrops, hone]

end Tracker

end BulkRun
