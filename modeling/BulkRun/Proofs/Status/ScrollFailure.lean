import BulkRun.Proofs.Status.Advance
/-!
# A command whose scroll breaks off

As long as the scroll of a command goes on, nothing but an abort can end the command (`Scrolls`).
Once the scroll has broken off, the command ends when all that was scrolled counts as worked on, and
it ends as aborted (`BrokeOff`).  Reports of the work on its buckets keep either.
-/

namespace BulkRun

open Tracker (Report Heeds)

/-- Whether a report is about the work on buckets. -/
def Tracker.Report.isWork : Report → Bool
  | .recordBatch _ _ | .completeBucket _ => true
  | _ => false

namespace Progress

variable {k : Command} {n : Nat} {m : String} {p : Progress} {now : Timestamp} {r : Report}

/-- A command whose scroll goes on, of which so many records were counted. -/
structure Scrolls (k : Command) (n : Nat) (p : Progress) : Prop where
  command : p.command = k
  goesOn : p.state.isTerminal = false
  isOn : p.scrollIsOver = false
  count : p.scrollCount = n
  fits : n < wordCount
  consistent : p.Consistent

/-- A command whose scroll broke off after so many records, for the reason that the message
tells. -/
structure BrokeOff (k : Command) (n : Nat) (m : String) (p : Progress) : Prop where
  command : p.command = k
  submitted : p.submitted = false
  failed : p.scrollFailed = true
  message : p.errorMessage = some m
  count : p.scrollCount = n
  fits : n < wordCount
  consistent : p.Consistent
  ended : p.state.isTerminal = true → p.state = .aborted ∧ p.processed = n

theorem scrolls_new (k : Command) (now : Timestamp) : (Progress.new k now).Scrolls k 0 where
  command := rfl
  goesOn := rfl
  isOn := rfl
  count := rfl
  fits := by decide
  consistent := consistent_new k now

/-- What the work on buckets leaves as it is. -/
theorem heed_work_frame (hr : r.isWork = true) (p : Progress) (now : Timestamp) :
    (p.heed now r).command = p.command ∧ (p.heed now r).submitted = p.submitted ∧
      (p.heed now r).scrollFailed = p.scrollFailed ∧
      (p.heed now r).errorMessage = p.errorMessage ∧
      (p.heed now r).scrollCount = p.scrollCount := by
  cases r with
  | recordBatch n e => simp [heed, recordBatch]
  | completeBucket j =>
    obtain ⟨done, hq⟩ := p.completeBucket_frame j
    rw [heed, hq]
    exact ⟨rfl, rfl, rfl, rfl, rfl⟩
  | _ => exact absurd hr Bool.false_ne_true

theorem scrolled_of_isWork (hr : r.isWork = true) : r.scrolled = 0 := by
  cases r with
  | recordBatch n e => rfl
  | completeBucket j => rfl
  | _ => exact absurd hr Bool.false_ne_true

theorem not_isAbort_of_isWork (hr : r.isWork = true) : r.isAbort = false := by
  cases r with
  | recordBatch n e => rfl
  | completeBucket j => rfl
  | _ => exact absurd hr Bool.false_ne_true

/-- No work ends a command whose scroll goes on. -/
theorem Scrolls.heed_work (h : p.Scrolls k n) (hr : r.isWork = true) (now : Timestamp) :
    (p.heed now r).Scrolls k n := by
  obtain ⟨hcommand, hsubmitted, hfailed, -, hcount⟩ := heed_work_frame hr p now
  have hfits := h.fits
  rw [← h.count] at hfits
  obtain ⟨hconsistent, hfollows⟩ := h.consistent.heed now r (by rwa [scrolled_of_isWork hr])
  have hon : (p.heed now r).scrollIsOver = false := by
    rw [scrollIsOver, hsubmitted, hfailed]
    exact h.isOn
  refine ⟨hcommand.trans h.command, ?_, hon, hcount.trans h.count, h.fits, hconsistent⟩
  obtain hstate | hopen | ⟨hdrained, -⟩ := hfollows.moves (not_isAbort_of_isWork hr)
  · rw [hstate]
    exact h.goesOn
  · exact hopen
  · rw [((p.heed now r).isDrained_iff.1 hdrained).1] at hon
    exact absurd hon (by simp)

/-- A command that settles while its scroll counts as broken off can only end as aborted, with all
that was scrolled worked on. -/
theorem ended_of_movesBySettling {q : Progress} (hmoves : p.MovesBySettling q)
    (hfailed : q.scrollFailed = true) (hconsistent : q.Consistent)
    (hsame : q.state = p.state → q.state.isTerminal = true → q.state = .aborted ∧
      q.processed = q.scrollCount) :
    q.state.isTerminal = true → q.state = .aborted ∧ q.processed = q.scrollCount := by
  intro hended
  obtain hstate | hopen | ⟨hdrained, hstate⟩ := hmoves
  · exact hsame hstate hended
  · rw [hopen] at hended
    exact absurd hended (by simp)
  · refine ⟨?_, Nat.le_antisymm hconsistent.processed_le (q.isDrained_iff.1 hdrained).2⟩
    rw [hstate, finalState, if_pos hfailed]

/-- A command whose scroll broke off ends by work only when all is worked on. -/
theorem BrokeOff.heed_work (h : p.BrokeOff k n m) (hr : r.isWork = true) (now : Timestamp) :
    (p.heed now r).BrokeOff k n m := by
  obtain ⟨hcommand, hsubmitted, hfailed, hmessage, hcount⟩ := heed_work_frame hr p now
  have hfits := h.fits
  rw [← h.count] at hfits
  obtain ⟨hconsistent, hfollows⟩ := h.consistent.heed now r (by rwa [scrolled_of_isWork hr])
  have hended := ended_of_movesBySettling (hfollows.moves (not_isAbort_of_isWork hr))
    (hfailed.trans h.failed) hconsistent ?_
  · refine ⟨hcommand.trans h.command, hsubmitted.trans h.submitted, hfailed.trans h.failed,
      hmessage.trans h.message, hcount.trans h.count, h.fits, hconsistent, ?_⟩
    rw [hcount, h.count] at hended
    exact hended
  · -- a command that had ended stays as it was
    intro hstate hended
    rw [hstate] at hended ⊢
    obtain ⟨haborted, hprocessed⟩ := h.ended hended
    refine ⟨haborted, ?_⟩
    have hmore := hfollows.processed_le
    have hwithin := hconsistent.processed_le
    rw [hcount, h.count] at hwithin ⊢
    omega

/-- The scroll of a command breaks off. -/
theorem Scrolls.failScroll (h : p.Scrolls k n) (now : Timestamp) (m : String) :
    (p.heed now (.failScroll m)).BrokeOff k n m := by
  have hfits := h.fits
  rw [← h.count] at hfits
  obtain ⟨hconsistent, hfollows⟩ := h.consistent.heed now (.failScroll m) hfits
  have hfailed : (p.heed now (.failScroll m)).scrollFailed = true := by
    simp [heed, Progress.failScroll]
  have hcount : (p.heed now (.failScroll m)).scrollCount = n :=
    hfollows.scrollCount_eq.trans h.count
  have hended := ended_of_movesBySettling (hfollows.moves rfl) hfailed hconsistent ?_
  · have hsubmitted : p.submitted = false := by
      have hon := h.isOn
      rw [scrollIsOver, Bool.or_eq_false_iff] at hon
      exact hon.1
    refine ⟨?_, ?_, hfailed, ?_, hcount, h.fits, hconsistent, ?_⟩
    · simp [heed, Progress.failScroll, h.command]
    · simp [heed, Progress.failScroll, hsubmitted]
    · simp [heed, Progress.failScroll]
    · rw [hcount] at hended
      exact hended
  · intro hstate hended
    rw [hstate, h.goesOn] at hended
    exact absurd hended (by simp)

theorem Scrolls.startScrolling (h : p.Scrolls k n) (now : Timestamp) :
    (p.heed now .startScrolling).Scrolls k n := by
  have hfits := h.fits
  rw [← h.count] at hfits
  obtain ⟨hconsistent, hfollows⟩ := h.consistent.heed now .startScrolling hfits
  obtain ⟨s, at', hq⟩ := p.startScrolling_frame now
  have hframe : p.heed now .startScrolling = { p with state := s, scrollStartedAt := at' } := hq
  rw [hframe] at hconsistent hfollows ⊢
  refine ⟨h.command, ?_, h.isOn, h.count, h.fits, hconsistent⟩
  obtain hstate | hopen | ⟨hdrained, -⟩ := hfollows.moves rfl
  · rw [hstate]
    exact h.goesOn
  · exact hopen
  · have hover := (isDrained_iff _).1 hdrained
    rw [show Progress.scrollIsOver { p with state := s, scrollStartedAt := at' } = false
      from h.isOn]
      at hover
    exact absurd hover.1 (by simp)

/-- More records are counted. -/
theorem Scrolls.addScrolled (h : p.Scrolls k n) {count : Nat} (hfits : n + count < wordCount)
    (now : Timestamp) : (p.heed now (.addScrolled count)).Scrolls k (n + count) := by
  have hfit : p.scrollCount + count < wordCount := by rwa [h.count]
  refine ⟨h.command, h.goesOn, h.isOn, ?_, hfits, consistent_addScrolled h.consistent hfit⟩
  rw [← h.count]
  exact Nat.mod_eq_of_lt hfit

theorem Scrolls.heedAll_work {reports : List (Timestamp × Report)} (h : p.Scrolls k n)
    (hreports : ∀ r ∈ reports, r.2.isWork = true) : (p.heedAll reports).Scrolls k n := by
  induction reports generalizing p with
  | nil => exact h
  | cons r reports ih =>
    obtain ⟨hr, hrest⟩ := List.forall_mem_cons.1 hreports
    exact ih (h.heed_work hr r.1) hrest

theorem BrokeOff.heedAll_work {reports : List (Timestamp × Report)} (h : p.BrokeOff k n m)
    (hreports : ∀ r ∈ reports, r.2.isWork = true) : (p.heedAll reports).BrokeOff k n m := by
  induction reports generalizing p with
  | nil => exact h
  | cons r reports ih =>
    obtain ⟨hr, hrest⟩ := List.forall_mem_cons.1 hreports
    exact ih (h.heed_work hr r.1) hrest

end Progress

namespace Tracker

variable {id : CommandId} {k : Command} {n : Nat} {m : String} {t u v : Tracker} {now : Timestamp}
  {r : Report} {p : Progress}

/-- Whether a command stays as it is, unless it has ended: then it may be dropped. -/
def Retains (id : CommandId) (t u : Tracker) : Prop :=
  u.find? id = t.find? id ∨
    u.find? id = none ∧ ∀ p, t.find? id = some p → p.state.isTerminal = true

theorem Retains.refl (id : CommandId) (t : Tracker) : Retains id t t := .inl rfl

theorem Retains.trans (h : Retains id t u) (h' : Retains id u v) : Retains id t v := by
  obtain h | ⟨hgone, hended⟩ := h
  · obtain h' | ⟨hgone, hended⟩ := h'
    · exact .inl (h'.trans h)
    · exact .inr ⟨hgone, h ▸ hended⟩
  · refine .inr ⟨?_, hended⟩
    obtain h' | ⟨hgone', -⟩ := h'
    · exact h'.trans hgone
    · exact hgone'

theorem Heeds.retains {k : CommandId} (h : Heeds t now k r p u) (hne : id ≠ k) : Retains id t u :=
  .inl (h.find?_other hne)

theorem Drops.retains (h : Drops t u) (id : CommandId) : Retains id t u := by
  obtain hsame | hgone := h.find?_eq id
  · exact .inl hsame
  · refine .inr ⟨hgone, fun p hp => ?_⟩
    by_contra hopen
    rw [h.kept hp (Bool.eq_false_iff.2 hopen)] at hgone
    exact absurd hgone (by simp)

/-- A bucket of the command that gets no more work gets none later on. -/
theorem Retains.shut {j : Nat} (h : Retains id t u) (hshut : t.Shut id j) : u.Shut id j := by
  intro q hq
  obtain hsame | ⟨hgone, -⟩ := h
  · rw [hsame] at hq
    exact hshut q hq
  · rw [hgone] at hq
    exact absurd hq (by simp)

/-- Whether nothing happened but that some reports were made to one command. -/
structure Addresses (id : CommandId) (t u : Tracker) : Prop where
  advances : Advances t u
  others : ∀ k, k ≠ id → u.find? k = t.find? k

theorem Addresses.refl (id : CommandId) (t : Tracker) : Addresses id t t :=
  ⟨.refl t, fun _ _ => rfl⟩

theorem Addresses.trans (h : Addresses id t u) (h' : Addresses id u v) : Addresses id t v :=
  ⟨h.advances.trans h'.advances, fun k hk => (h'.others k hk).trans (h.others k hk)⟩

theorem Heeds.addresses (h : Heeds t now id r p u) : Addresses id t u :=
  ⟨h.advances, fun _ hk => h.find?_other hk⟩

/-- Whether nothing but work befalls a command, unless it has ended: then it may be dropped. -/
structure Labours (id : CommandId) (t u : Tracker) : Prop where
  found : ∀ q, u.find? id = some q → ∃ p reports, t.find? id = some p ∧ q = p.heedAll reports ∧
    ∀ r ∈ reports, r.2.isWork = true
  kept : ∀ p, t.find? id = some p → p.state.isTerminal = false → u.find? id ≠ none

theorem Retains.labours (h : Retains id t u) : Labours id t u := by
  constructor
  · intro q hq
    obtain h | ⟨hgone, -⟩ := h
    · exact ⟨q, [], h ▸ hq, rfl, by simp⟩
    · rw [hgone] at hq
      exact absurd hq (by simp)
  · intro p hp hopen
    obtain h | ⟨-, hended⟩ := h
    · rw [h, hp]
      simp
    · rw [hended p hp] at hopen
      exact absurd hopen (by simp)

/-- One more report of work. -/
theorem Labours.tell (h : Labours id t u) (ht : Heeds u now id r p v) (hr : r.isWork = true) :
    Labours id t v where
  found q hq := by
    obtain rfl := Option.some.inj (ht.find?_self.symm.trans hq)
    obtain ⟨o, reports, ho, rfl, hreports⟩ := h.found p ht.before
    refine ⟨o, reports ++ [(now, r)], ho, (o.heedAll_append reports [(now, r)]).symm, ?_⟩
    intro r' hr'
    obtain hr' | hr' := List.mem_append.1 hr'
    · exact hreports r' hr'
    · rw [List.mem_singleton.1 hr']
      exact hr
  kept _ _ _ := by
    rw [ht.find?_self]
    simp

theorem Heeds.labours (h : Heeds t now id r p u) (hr : r.isWork = true) : Labours id t u :=
  (Retains.refl id t).labours.tell h hr

/-- A command that scrolls goes on to. -/
theorem Labours.scrolls (h : Labours id t u) (ht : ∃ p, t.find? id = some p ∧ p.Scrolls k n) :
    ∃ q, u.find? id = some q ∧ q.Scrolls k n := by
  obtain ⟨p, hp, hscrolls⟩ := ht
  obtain ⟨q, hq⟩ := Option.ne_none_iff_exists'.1 (h.kept p hp hscrolls.goesOn)
  obtain ⟨o, reports, ho, rfl, hreports⟩ := h.found q hq
  obtain rfl := Option.some.inj (hp.symm.trans ho)
  exact ⟨_, hq, hscrolls.heedAll_work hreports⟩

theorem Labours.brokeOff (h : Labours id t u) (ht : ∀ p, t.find? id = some p → p.BrokeOff k n m) :
    ∀ q, u.find? id = some q → q.BrokeOff k n m := by
  intro q hq
  obtain ⟨p, reports, hp, rfl, hreports⟩ := h.found q hq
  exact (ht p hp).heedAll_work hreports

end Tracker

end BulkRun
