import BulkRun.Proofs.Redelivery.Desk
/-!
# One execution does all the work on a bucket

Once the work on a bucket has come to an end the bucket is shut, and stays so as long as its command
is not accepted again (`Spent.next?`).  So whatever the work on a bucket does to the collaborators
is done by one execution of it.
-/

namespace BulkRun

variable {σ : Type}

namespace Desk

variable {setup : Setup σ} {i : Nat} {s t s₀ : Desk σ} {known : List CommandId}
  {moves : List (Move (Desk σ) (Event σ))}

/-! ## Buckets that get no more work -/

/-- Whether a bucket of a command that was accepted gets no more work: it is shut, and no work on it
is under way. -/
structure Spent (known : List CommandId) (key : CommandId × Nat) (s : Desk σ) : Prop where
  known : key.1 ∈ known
  shut : s.engine.tracker.Shut key.1 key.2
  still : ∀ w, s.work? = some w → w.key ≠ key

/-- A bucket that is shut stays shut unless its command is accepted once more. -/
theorem shut_next? {event : Event σ} {key : CommandId × Nat} (hs : s.Sound known)
    (hkey : key.1 ∈ known) (hnew : ∀ id, event.registered? = some id → id ∉ known)
    (h : next? setup i s event = some t) (hshut : s.engine.tracker.Shut key.1 key.2) :
    t.engine.tracker.Shut key.1 key.2 := by
  obtain ⟨-, hadvances⟩ | ⟨c, rfl, -, hreg⟩ := (deed_next? h).tracker hs
  · exact hshut.advance hadvances
  · have hne : key.1 ≠ c.id := fun heq => hnew c.id rfl (heq ▸ hkey)
    intro p hp
    rw [(Tracker.register_eq_ok hreg).2 key.1, if_neg hne] at hp
    exact hshut p hp

theorem Spent.next? {event : Event σ} {key : CommandId × Nat} (hspent : s.Spent known key)
    (hs : s.Sound known) (hnew : ∀ id, event.registered? = some id → id ∉ known)
    (h : next? setup i s event = some t) : t.Spent (known ++ event.registered?.toList) key where
  known := List.mem_append_left _ hspent.known
  shut := shut_next? hs hspent.known hnew h hspent.shut
  still w hw := by
    obtain ⟨-, w', hw', hkey⟩ | ⟨-, -, hand, -, hkey, hbegun⟩ := work?_next? hs h hw
    · rw [← hkey]
      exact hspent.still w' hw'
    · -- an execution of a bucket that is shut ends at once
      rw [← hkey]
      rintro rfl
      obtain ⟨outcome, hstart⟩ := Execution.start_of_shut (b := hand.delivery.bucket)
        setup hspent.shut
      rw [hstart] at hbegun
      exact absurd hbegun (by simp [Execution.work?])

theorem touched?_eq_some {m : Move (Desk σ) (Event σ)} {key : CommandId × Nat}
    (h : touched? m = some key) : ∃ w, m.after.work? = some w ∧ w.key = key := by
  have htouched : (m.after.hand.bind fun h => h.execution.bind Execution.touched?) = some key := by
    unfold touched? at h
    split at h
    · exact h
    · exact h
    · exact absurd h (by simp)
  obtain ⟨hand, hhand, hx⟩ := Option.bind_eq_some_iff.1 htouched
  obtain ⟨x, hx, hkey⟩ := Option.bind_eq_some_iff.1 hx
  have hwork : m.after.work? = x.work? := by
    rw [work?, hhand, Option.bind_some, hx, Option.bind_some]
  rw [hwork]
  cases x with
  | opening w answer => exact ⟨w, rfl, Option.some.inj hkey⟩
  | applying w call i => exact ⟨w, rfl, Option.some.inj hkey⟩
  | _ => exact absurd hkey (by simp [Execution.touched?])

/-- The work on a bucket goes on, or the bucket is spent. -/
theorem spent_of_work {event : Event σ} {w : Work σ} (hs : s.Sound known)
    (hw : s.work? = some w)
    (hnew : ∀ id, event.registered? = some id → id ∉ known)
    (h : next? setup i s event = some t) :
    (event ≠ .start ∧ ∃ w', t.work? = some w' ∧ w'.key = w.key) ∨
      t.Spent (known ++ event.registered?.toList) w.key := by
  have hbusy : ∀ hand, s.hand = some hand → ∃ x, hand.execution = some x ∧ x.work? = some w := by
    intro hand hhand
    rw [work?, hhand, Option.bind_some] at hw
    exact Option.bind_eq_some_iff.1 hw
  have hnotRests : ∀ hand, s.hand = some hand → hand.rests = false := by
    intro hand hhand
    obtain ⟨x, hx, hxw⟩ := hbusy hand hhand
    rw [Hand.rests, hx]
    cases x with
    | finished result => exact absurd hxw (by simp [Execution.work?])
    | _ => rfl
  cases deed_next? h with
  | outside h => exact .inl ⟨(by simp), w, hw, rfl⟩
  | publish _ _ => exact .inl ⟨(by simp), w, hw, rfl⟩
  | receive hhand _ =>
    rw [work?, hhand] at hw
    exact absurd hw (by simp)
  | start hhand hrests =>
    rw [hnotRests _ hhand] at hrests
    exact absurd hrests Bool.false_ne_true
  | @work v x r hhand hstep =>
    obtain ⟨w', hw', hworks⟩ := Execution.works_step? hs.distinct hstep
    have hsame : s.work? = x.work? := by rw [work?, hhand]; rfl
    obtain rfl := Option.some.inj (hw.symm.trans (hsame.trans hw'))
    cases hended : r.1.work? with
    | none =>
      right
      refine ⟨List.mem_append_left _ (hs.active _ hw), hworks.shut hended, ?_⟩
      intro v' hv'
      rw [work?_progress, hended] at hv'
      exact absurd hv' (by simp)
    | some w'' =>
      obtain ⟨hcommand, hbucket⟩ := hworks.isFor w'' hended
      refine .inl ⟨(by simp), w'', hended, ?_⟩
      rw [Work.key, Work.key, hcommand, hbucket]
  | acknowledge hhand hover =>
    obtain ⟨x, hx, hxw⟩ := hbusy _ hhand
    rw [Hand.isWorkedOff, hx] at hover
    cases x with
    | finished result => exact absurd hxw (by simp [Execution.work?])
    | _ => exact absurd hover (by simp [Execution.result?])
  | handBack hhand hrests =>
    rw [hnotRests _ hhand] at hrests
    exact absurd hrests Bool.false_ne_true

/-- From some work on a bucket on, no execution of it begins while that work goes on, and after that
the bucket is spent. -/
theorem goes_on_or_spent {w : Work σ} (hs : s.Sound known) (hw : s.work? = some w)
    (h : Run (next? setup i) s moves t)
    (hids : (known ++ yielded Event.registered? moves).Nodup) :
    ((∀ m ∈ moves, m.event ≠ .start) ∧ ∃ w', t.work? = some w' ∧ w'.key = w.key) ∨
      t.Spent (known ++ yielded Event.registered? moves) w.key := by
  induction h with
  | start => exact .inl ⟨by simp, w, hw, rfl⟩
  | @move moves t u event hrun hnext ih =>
    rw [yielded_concat, ← List.append_assoc] at hids ⊢
    have hnew (id : CommandId) (hid : event.registered? = some id) :
        id ∉ known ++ yielded Event.registered? moves := not_mem_of_nodup hids hid
    have hsound := sound_run hs hrun
    obtain ⟨hnone, w', hw', hkey⟩ | hspent := ih (List.nodup_append.1 hids).1
    · obtain ⟨hevent, w'', hw'', hkey'⟩ | hspent := spent_of_work hsound hw' hnew hnext
      · refine .inl ⟨?_, w'', hw'', hkey'.trans hkey⟩
        intro m hm
        obtain hm | hm := List.mem_append.1 hm
        · exact hnone m hm
        · rw [List.mem_singleton.1 hm]
          exact hevent
      · right
        rw [← hkey]
        exact hspent
    · exact .inr (hspent.next? hsound hnew hnext)

/-- All that the work on a bucket does to the transactions and to the action is done by one
execution: none begins between two of its touches. -/
theorem touched_by_one (hnew : s₀.IsNew i) (hrun : Run (next? setup i) s₀ moves s)
    (hids : (yielded Event.registered? moves).Nodup)
    {front between rear : List (Move (Desk σ) (Event σ))} {m m' : Move (Desk σ) (Event σ)}
    (hsplit : moves = front ++ m :: (between ++ m' :: rear)) {key : CommandId × Nat}
    (hm : touched? m = some key) (hm' : touched? m' = some key) :
    ∀ n ∈ between ++ [m'], n.event ≠ .start := by
  obtain ⟨w, hw, rfl⟩ := touched?_eq_some hm
  obtain ⟨w', hw', hkey⟩ := touched?_eq_some hm'
  -- the run up to the first touch, and the run from there to the second
  have hall : moves = (front ++ [m]) ++ ((between ++ [m']) ++ rear) := by
    rw [hsplit, List.append_assoc, List.append_assoc, List.singleton_append, List.singleton_append]
  rw [hall] at hrun hids
  obtain ⟨u, hfirst, hrest⟩ := hrun.cut
  obtain ⟨v, hsecond, -⟩ := hrest.cut
  obtain rfl := hfirst.eq_of_concat
  obtain rfl := hsecond.eq_of_concat
  have hsound := sound_run hnew.sound hfirst
  rw [yielded_append, yielded_append Event.registered? (between ++ [m']), ← List.append_assoc]
    at hids
  have hids' := (List.nodup_append.1 hids).1
  obtain ⟨hnone, -⟩ | hspent := goes_on_or_spent hsound hw hsecond hids'
  · exact hnone
  · exact absurd hkey (hspent.still w' hw')

end Desk

end BulkRun
