import BulkRun.Proofs.Status.Progress
import BulkRun.Status.Tracker
/-!
# What the tracker finds

Every operation of the tracker is described by what `find?` answers after it.  An operation on one
command changes the progress of that command alone, by the operation on progress of the same name;
dropping commands takes away what is found and changes nothing of the rest.  The second half needs
that no id occurs twice (`Distinct`), which every operation keeps.
-/

namespace BulkRun

namespace Tracker

variable {t u : Tracker} {now : Timestamp} {id other : CommandId}

theorem id_of_find? {p : Progress} (h : t.find? id = some p) : p.id = id := by
  simpa using List.find?_some h

@[simp]
theorem find?_publish (states : List CommandState) :
    (t.publish now other states).find? id = t.find? id := rfl

/-! ## Operations on one command -/

/-- New progress is found in the place of the old one. -/
theorem find?_replace {p q : Progress} (hp : t.find? id = some p) (hq : q.id = id) :
    (t.replace q).find? other = if other = id then some q else t.find? other := by
  subst hq
  unfold find? replace at *
  -- whatever comes first in the list with an id, its replacement has the same id
  have same (r : Progress) : (if r.id == q.id then q else r).id = r.id := by
    split
    · rename_i h
      exact (eq_of_beq h).symm
    · rfl
  have found : (t.commands.map fun r => if r.id == q.id then q else r).find? (·.id == other) =
      (t.commands.find? (·.id == other)).map fun r => if r.id == q.id then q else r := by
    rw [List.find?_map]
    congr 2
    funext r
    simp only [Function.comp_apply, same]
  rw [found]
  by_cases h : other = q.id
  · subst h
    rw [hp, if_pos rfl]
    simp [(show p.id = q.id by simpa using List.find?_some hp)]
  · rw [if_neg h]
    cases hr : t.commands.find? (·.id == other) with
    | none => rfl
    | some r =>
      have hid : r.id = other := by simpa using List.find?_some hr
      simp [hid, h]

theorem progress_eq_ok {p : Progress} : t.progress id = .ok p ↔ t.find? id = some p := by
  unfold progress
  cases t.find? id <;> simp

theorem progress_eq_error {e : Error} :
    t.progress id = .error e ↔ t.find? id = none ∧ e = .notFound id := by
  unfold progress
  cases t.find? id <;> simp [eq_comm]

/-- What a change of one command leaves to be found. -/
structure Changes (t : Tracker) (id : CommandId) (p q : Progress) (u : Tracker) : Prop where
  before : t.find? id = some p
  find? : ∀ other, u.find? other = if other = id then some q else t.find? other
  ids : u.commands.map (·.id) = t.commands.map (·.id)
  retention : u.retention = t.retention

namespace Changes

variable {p q : Progress}

theorem find?_other (h : Changes t id p q u) (hne : other ≠ id) :
    u.find? other = t.find? other := by
  rw [h.find? other, if_neg hne]

end Changes

theorem changes_replace {p q : Progress} (hp : t.find? id = some p)
    (hq : q.command = p.command) (states : List CommandState) :
    Changes t id p q ((t.replace q).publish now other states) where
  before := hp
  find? k := by
    have hid : q.id = id := by
      rw [← id_of_find? hp]
      exact congrArg Command.id hq
    rw [find?_publish, find?_replace hp hid]
  ids := by
    simp only [publish, replace, List.map_map]
    apply List.map_congr_left
    intro r _
    simp only [Function.comp_apply]
    split
    · rename_i h
      exact (eq_of_beq h).symm
    · rfl
  retention := rfl

/-- A change succeeds exactly when the command is there. -/
theorem change_cases (t : Tracker) (now : Timestamp) (id : CommandId)
    (f : Progress → Progress × List CommandState)
    (hf : ∀ p, (f p).1.command = p.command) :
    (t.find? id = none ∧ t.change now id f = .error (.notFound id)) ∨
      ∃ p u, Changes t id p (f p).1 u ∧ t.change now id f = .ok u := by
  unfold change
  cases hp : t.find? id with
  | none =>
    rw [(progress_eq_error (e := .notFound id)).2 ⟨hp, rfl⟩]
    exact .inl ⟨rfl, rfl⟩
  | some p =>
    rw [progress_eq_ok.2 hp]
    exact .inr ⟨p, _, changes_replace hp (hf p) _, rfl⟩

/-- An abort changes a command that has not ended, and nothing otherwise. -/
theorem abortWith_cases (t : Tracker) (now : Timestamp) (id : CommandId)
    (message : Option String) :
    (t.find? id = none ∧ t.abortWith now id message = .error (.notFound id)) ∨
      (∃ p, t.find? id = some p ∧ p.state.isTerminal = true ∧
        t.abortWith now id message = .ok (false, t)) ∨
      ∃ p u, p.state.isTerminal = false ∧
        Changes t id p { p with
          state := .aborted
          errorMessage := message.or p.errorMessage
          completedAt := some now } u ∧
        t.abortWith now id message = .ok (true, u) := by
  unfold abortWith
  cases hp : t.find? id with
  | none =>
    rw [(progress_eq_error (e := .notFound id)).2 ⟨hp, rfl⟩]
    exact .inl ⟨rfl, rfl⟩
  | some p =>
    rw [progress_eq_ok.2 hp]
    simp only [Except.map, Progress.abort?_eq]
    cases ht : p.state.isTerminal with
    | true => exact .inr (.inl ⟨p, rfl, ht, rfl⟩)
    | false =>
      refine .inr (.inr ⟨p, _, ht, changes_replace hp ?_ [.aborted], rfl⟩)
      rfl

/-! ## Accepting and dropping commands -/

/-- No id occurs twice. -/
def Distinct (t : Tracker) : Prop := (t.commands.map (·.id)).Nodup

theorem Changes.distinct {p q : Progress} (h : Changes t id p q u) (ht : t.Distinct) :
    u.Distinct := by
  unfold Distinct
  rw [h.ids]
  exact ht

/-- A command is accepted exactly when its id is new. -/
theorem register_eq_ok {c : Command} (h : t.register now c = .ok u) :
    t.find? c.id = none ∧
      ∀ k, u.find? k = if k = c.id then some (Progress.new c now) else t.find? k := by
  unfold register at h
  split at h
  · exact absurd h (by simp)
  · rename_i hnone
    refine ⟨hnone, ?_⟩
    intro k
    rw [← Except.ok.inj h, find?_publish]
    unfold find? at *
    rw [List.find?_append]
    by_cases hk : k = c.id
    · subst hk
      rw [hnone, if_pos rfl]
      simp [Progress.new, Progress.id]
    · rw [if_neg hk, List.find?_cons_of_neg (by simpa [Progress.new, Progress.id] using Ne.symm hk)]
      simp

theorem find?_eq_none_iff : t.find? id = none ↔ id ∉ t.commands.map (·.id) := by
  simp [find?]

theorem distinct_of_register {c : Command} (ht : t.Distinct) (h : t.register now c = .ok u) :
    u.Distinct := by
  have hnew := find?_eq_none_iff.1 (register_eq_ok h).1
  unfold register at h
  split at h
  · exact absurd h (by simp)
  · rw [← Except.ok.inj h]
    unfold Distinct publish at *
    rw [List.map_append]
    exact List.nodup_append.2 ⟨ht, by simp, by
      intro a ha b hb
      rw [List.map_singleton, List.mem_singleton] at hb
      rintro rfl
      subst hb
      exact hnew ha⟩

/-- Among commands with distinct ids, one that is kept is found as before and one that is dropped is
not found. -/
theorem find?_filter (ht : t.Distinct) (keep : Progress → Bool) :
    ({ t with commands := t.commands.filter keep }).find? id = (t.find? id).filter keep := by
  unfold Distinct at ht
  unfold find?
  dsimp only
  generalize t.commands = commands at ht
  induction commands with
  | nil => rfl
  | cons p rest ih =>
    rw [List.map_cons, List.nodup_cons] at ht
    have absent (h : p.id = id) : rest.find? (·.id == id) = none := by
      rw [List.find?_eq_none]
      intro q hq hqid
      exact ht.1 (List.mem_map.2 ⟨q, hq, by rw [h]; exact eq_of_beq hqid⟩)
    by_cases hp : p.id = id
    · rw [List.find?_cons_of_pos (by simpa using hp), List.filter_cons]
      cases hk : keep p with
      | false =>
        rw [if_neg (by simp), ih ht.2, absent hp]
        simp [Option.filter, hk]
      | true =>
        rw [if_pos rfl, List.find?_cons_of_pos (by simpa using hp)]
        simp [Option.filter, hk]
    · rw [List.find?_cons_of_neg (by simpa using hp), List.filter_cons]
      cases keep p with
      | false => exact ih ht.2
      | true =>
        rw [if_pos rfl, List.find?_cons_of_neg (by simpa using hp)]
        exact ih ht.2

theorem distinct_filter (ht : t.Distinct) (keep : Progress → Bool) :
    ({ t with commands := t.commands.filter keep } : Tracker).Distinct :=
  List.Nodup.sublist (List.Sublist.map _ (List.filter_sublist (p := keep))) ht

/-- What is left after some commands were dropped, all of which had ended. -/
structure Drops (t u : Tracker) : Prop where
  find? : ∀ {id : CommandId} {p : Progress}, u.find? id = some p → t.find? id = some p
  kept : ∀ {id : CommandId} {p : Progress}, t.find? id = some p → p.state.isTerminal = false →
    u.find? id = some p
  distinct : t.Distinct → u.Distinct

theorem Drops.refl (t : Tracker) : Drops t t := ⟨id, fun h _ => h, id⟩

theorem Drops.trans {v : Tracker} (h : Drops t u) (h' : Drops u v) : Drops t v :=
  ⟨fun hp => h.find? (h'.find? hp), fun hp hopen => h'.kept (h.kept hp hopen) hopen,
    fun ht => h'.distinct (h.distinct ht)⟩

theorem Drops.find?_eq (h : Drops t u) (id : CommandId) :
    u.find? id = t.find? id ∨ u.find? id = none := by
  cases hu : u.find? id with
  | none => exact .inr rfl
  | some p => exact .inl (h.find? hu).symm

/-- Commands are dropped only once they have ended. -/
theorem drops_filter (ht : t.Distinct) (keep : Progress → Bool)
    (hkeep : ∀ {id : CommandId} {p : Progress}, t.find? id = some p →
      p.state.isTerminal = false → keep p = true) :
    Drops t { t with commands := t.commands.filter keep } where
  find? {id p} h := by
    rw [find?_filter ht] at h
    exact (Option.filter_eq_some_iff.1 h).1
  kept h hopen := by
    rw [find?_filter ht]
    exact Option.filter_eq_some_iff.2 ⟨h, hkeep h hopen⟩
  distinct ht := distinct_filter ht _

theorem not_isExpired {p : Progress} (h : p.state.isTerminal = false) (now : Timestamp)
    (retention : Nat) : p.isExpired now retention = false := by
  rw [Progress.isExpired, h, Bool.false_and]

theorem drops_purgeExpired (ht : t.Distinct) (now : Timestamp) :
    Drops t (t.purgeExpired now).2 := by
  refine drops_filter ht _ fun _ hopen => ?_
  rw [not_isExpired hopen]
  rfl

theorem drops_get (ht : t.Distinct) (now : Timestamp) (id : CommandId) :
    Drops t (t.get now id).2 := by
  unfold get
  split
  · exact .refl t
  · rename_i p hp
    split
    · rename_i hexpired
      refine drops_filter ht _ fun {k q} hq hopen => ?_
      -- the command that is dropped is expired, so it is not the one that goes on
      rw [bne_iff_ne]
      intro hid
      have hk : q.id = k := id_of_find? hq
      have hsame : t.find? id = some p := progress_eq_ok.1 hp
      rw [← hid, hk, hq] at hsame
      obtain rfl := Option.some.inj hsame
      rw [not_isExpired hopen] at hexpired
      exact absurd hexpired Bool.false_ne_true
    · exact .refl t

end Tracker

end BulkRun
