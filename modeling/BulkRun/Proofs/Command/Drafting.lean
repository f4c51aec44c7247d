import BulkRun.Command.Basic
/-!
# Drafting commands

A draft is taken from its action and its query through steps, each of which may be refused.  A step
that is not refused keeps a draft sound (`Draft.Sound`), so every command that can be made is sound,
also when defaults were filled in afterwards (`Command.Made.sound`).
-/

namespace BulkRun

/-- A chain of two operations succeeds when both do. -/
theorem except_bind_eq_ok {ε α β : Type} {x : Except ε α} {f : α → Except ε β} {b : β} :
    x >>= f = .ok b ↔ ∃ a, x = .ok a ∧ f a = .ok b := by
  cases x <;> simp [bind, Except.bind]

/-! ## What is refused -/

/-- A change that goes with a check of sizes is made exactly when the sizes go together. -/
theorem map_checkSizes_eq_ok {α : Type} {bucket batch : Nat} {a b : α} :
    (checkSizes bucket batch).map (fun _ => a) = .ok b ↔
      (bucket = 0 ∨ batch ≤ bucket) ∧ b = a := by
  unfold checkSizes
  split
  · simp only [Except.map, reduceCtorEq, false_iff]
    omega
  · rename_i hfits
    have hfits : bucket = 0 ∨ batch ≤ bucket := by omega
    simp [Except.map, hfits, eq_comm]

namespace Draft

variable {d d' : Draft}

/-- A draft with nothing set but its action and its query. -/
def blank (action query : String) : Draft :=
  ⟨action, query, none, none, none, 0, 0, none, false, []⟩

theorem new_eq_ok {action query : String} :
    Draft.new action query = .ok d ↔
      Text.isBlank action = false ∧ Text.isBlank query = false ∧ d = blank action query := by
  unfold Draft.new blank
  cases Text.isBlank action <;> cases Text.isBlank query <;> simp [eq_comm]

theorem withQueryLimit_eq_ok {limit : Nat} :
    d.withQueryLimit limit = .ok d' ↔ limit ≠ 0 ∧ d' = { d with queryLimit := some limit } := by
  unfold withQueryLimit
  split <;> simp_all [eq_comm]

theorem withBucket_eq_ok {size : Nat} :
    d.withBucket size = .ok d' ↔
      size ≠ 0 ∧ d.batchSize ≤ size ∧ d' = { d with bucketSize := size } := by
  unfold withBucket
  split
  · simp_all
  · rename_i hsize
    rw [map_checkSizes_eq_ok, or_iff_right hsize, and_iff_right hsize]

theorem withBatch_eq_ok {size : Nat} :
    d.withBatch size = .ok d' ↔ size ≠ 0 ∧ (d.bucketSize = 0 ∨ size ≤ d.bucketSize) ∧
      d' = { d with batchSize := size } := by
  unfold withBatch
  split
  · simp_all
  · rename_i hsize
    rw [map_checkSizes_eq_ok, and_iff_right hsize]

theorem withParam_eq_ok {key : String} {value : Json} :
    d.withParam key value = .ok d' ↔
      Text.isBlank key = false ∧ d' = { d with params := insertEntry d.params key value } := by
  unfold withParam
  cases Text.isBlank key <;> simp [eq_comm]

/-- No parameters at all leave those there are. -/
theorem withParams_eq_ok {params : Params} :
    d.withParams params = .ok d' ↔ (∀ e ∈ params, Text.isBlank e.1 = false) ∧
      d' = { d with params := if params.isEmpty then d.params else params } := by
  unfold withParams
  split
  · rename_i hnone
    obtain rfl := List.isEmpty_iff.1 hnone
    exact ⟨fun h => ⟨by simp, (Except.ok.inj h).symm⟩, fun h => congrArg Except.ok h.2.symm⟩
  · split
    · rename_i hblank
      obtain ⟨e, he, hkey⟩ := List.any_eq_true.1 hblank
      simp only [reduceCtorEq, false_iff, not_and]
      intro hkeys
      rw [hkeys e he] at hkey
      exact absurd hkey Bool.false_ne_true
    · rename_i hkeys
      have hkeys : ∀ e ∈ params, Text.isBlank e.1 = false := by simpa using hkeys
      rw [and_iff_right hkeys, Except.ok.injEq, eq_comm]

/-! ## Steps -/

/-- A step in drafting a command. -/
inductive Step where
  | repository (name : String)
  | user (name : String)
  | queryLimit (limit : Nat)
  | unlimited
  | bucket (size : Nat)
  | batch (size : Nat)
  | param (key : String) (value : Json)
  | params (params : Params)
  | scroller (name : String)
  | genericScroller
  | documentScroller

/-- The draft after a step, unless the step is refused. -/
def take (d : Draft) : Step → Except CommandFault Draft
  | .repository name => .ok (d.withRepository name)
  | .user name => .ok (d.withUser name)
  | .queryLimit limit => d.withQueryLimit limit
  | .unlimited => .ok d.unlimited
  | .bucket size => d.withBucket size
  | .batch size => d.withBatch size
  | .param key value => d.withParam key value
  | .params params => d.withParams params
  | .scroller name => .ok (d.withScroller name)
  | .genericScroller => .ok d.useGenericScroller
  | .documentScroller => .ok d.useDocumentScroller

/-- The draft after some steps, none of which is refused. -/
def follow (d : Draft) (steps : List Step) : Except CommandFault Draft := steps.foldlM take d

/-- What some steps make of an action and a query. -/
def assemble (action query : String) (steps : List Step) : Except CommandFault Draft :=
  Draft.new action query >>= (·.follow steps)

/-! ## Sound drafts -/

/-- What every draft keeps to that the steps lead to. -/
structure Sound (d : Draft) : Prop where
  action : Text.isBlank d.action = false
  query : Text.isBlank d.query = false
  keys : ∀ e ∈ d.params, Text.isBlank e.1 = false
  sizes : d.bucketSize = 0 ∨ d.batchSize ≤ d.bucketSize
  scroller : d.scroller ≠ some ""

theorem scrollerName_ne (name : String) : scrollerName name ≠ some "" := by
  unfold scrollerName
  split
  · exact (Option.some_ne_none _).symm
  · rename_i hname
    intro h
    rw [Option.some.inj h] at hname
    exact hname rfl

theorem mem_insertEntry {params : Params} {key : String} {value : Json} {e : String × Json}
    (h : e ∈ insertEntry params key value) : e ∈ params ∨ e.1 = key := by
  induction params with
  | nil => exact .inr (congrArg Prod.fst (List.mem_singleton.1 h))
  | cons entry rest ih =>
    unfold insertEntry at h
    split at h
    · obtain rfl | h := List.mem_cons.1 h
      · exact .inr rfl
      · exact .inl (List.mem_cons_of_mem _ h)
    · obtain rfl | h := List.mem_cons.1 h
      · exact .inl List.mem_cons_self
      · exact (ih h).imp_left (List.mem_cons_of_mem _)

/-- What is drafted from an action and a query that are not blank is sound. -/
theorem sound_blank {action query : String} (haction : Text.isBlank action = false)
    (hquery : Text.isBlank query = false) : (blank action query).Sound where
  action := haction
  query := hquery
  keys _ he := absurd he List.not_mem_nil
  sizes := .inl rfl
  scroller := (Option.some_ne_none _).symm

/-- A step that is not refused keeps a draft sound. -/
theorem Sound.take (h : d.Sound) {step : Step} (hstep : d.take step = .ok d') : d'.Sound := by
  cases step with
  | repository name =>
    rw [← Except.ok.inj hstep]
    exact ⟨h.action, h.query, h.keys, h.sizes, h.scroller⟩
  | user name =>
    rw [← Except.ok.inj hstep]
    exact ⟨h.action, h.query, h.keys, h.sizes, h.scroller⟩
  | queryLimit limit =>
    obtain ⟨-, rfl⟩ := withQueryLimit_eq_ok.1 hstep
    exact ⟨h.action, h.query, h.keys, h.sizes, h.scroller⟩
  | unlimited =>
    rw [← Except.ok.inj hstep]
    exact ⟨h.action, h.query, h.keys, h.sizes, h.scroller⟩
  | bucket size =>
    obtain ⟨-, hfits, rfl⟩ := withBucket_eq_ok.1 hstep
    exact ⟨h.action, h.query, h.keys, .inr hfits, h.scroller⟩
  | batch size =>
    obtain ⟨-, hfits, rfl⟩ := withBatch_eq_ok.1 hstep
    exact ⟨h.action, h.query, h.keys, hfits, h.scroller⟩
  | param key value =>
    obtain ⟨hkey, rfl⟩ := withParam_eq_ok.1 hstep
    refine ⟨h.action, h.query, fun e he => ?_, h.sizes, h.scroller⟩
    obtain he | he := mem_insertEntry he
    · exact h.keys e he
    · rw [he]
      exact hkey
  | params params =>
    obtain ⟨hkeys, rfl⟩ := withParams_eq_ok.1 hstep
    refine ⟨h.action, h.query, ?_, h.sizes, h.scroller⟩
    dsimp only
    split
    · exact h.keys
    · exact hkeys
  | scroller name =>
    rw [← Except.ok.inj hstep]
    exact ⟨h.action, h.query, h.keys, h.sizes, scrollerName_ne name⟩
  | genericScroller =>
    rw [← Except.ok.inj hstep]
    exact ⟨h.action, h.query, h.keys, h.sizes, h.scroller⟩
  | documentScroller =>
    rw [← Except.ok.inj hstep]
    exact ⟨h.action, h.query, h.keys, h.sizes, h.scroller⟩

/-- So do some steps. -/
theorem Sound.follow {steps : List Step} (h : d.Sound) (hsteps : d.follow steps = .ok d') :
    d'.Sound := by
  induction steps generalizing d with
  | nil =>
    rw [← Except.ok.inj hsteps]
    exact h
  | cons step steps ih =>
    rw [Draft.follow, List.foldlM_cons, except_bind_eq_ok] at hsteps
    obtain ⟨e, hstep, hrest⟩ := hsteps
    exact ih (h.take hstep) hrest

theorem sound_of_assemble {action query : String} {steps : List Step}
    (h : assemble action query steps = .ok d) : d.Sound := by
  obtain ⟨e, hnew, hsteps⟩ := except_bind_eq_ok.1 h
  obtain ⟨haction, hquery, rfl⟩ := new_eq_ok.1 hnew
  exact (sound_blank haction hquery).follow hsteps

/-- Defaults that are filled in go together with the sizes that are set. -/
theorem Sound.withDefaults {bucket batch : Nat} {limit : Option Nat} (h : d.Sound)
    (hok : d.withDefaults bucket batch limit = .ok d') : d'.Sound := by
  unfold Draft.withDefaults at hok
  split at hok
  · exact absurd hok (by simp)
  · obtain ⟨hfits, rfl⟩ := map_checkSizes_eq_ok.1 hok
    exact ⟨h.action, h.query, h.keys, hfits, h.scroller⟩

end Draft

/-- The commands that can be made: what is drafted is given an id, and then defaults may be filled
in. -/
inductive Command.Made : Command → Prop
  | built {action query : String} {steps : List Draft.Step} {d : Draft} (id : CommandId) :
      Draft.assemble action query steps = .ok d → Made (d.build id)
  | withDefaults {c c' : Command} {bucket batch : Nat} {limit : Option Nat} :
      Made c → c.withDefaults bucket batch limit = .ok c' → Made c'
  | withDefaultRepository {c : Command} (name : Option String) :
      Made c → Made (c.withDefaultRepository name)

/-- Every command that can be made is sound. -/
theorem Command.Made.sound {c : Command} (h : c.Made) : c.toDraft.Sound := by
  induction h with
  | built id hassembled => exact Draft.sound_of_assemble hassembled
  | @withDefaults c c' bucket batch limit _ hok ih =>
    unfold Command.withDefaults at hok
    cases hdefaults : c.toDraft.withDefaults bucket batch limit with
    | error f =>
      rw [hdefaults] at hok
      exact absurd hok (by simp [Except.map])
    | ok d =>
      rw [hdefaults] at hok
      rw [← Except.ok.inj hok]
      exact ih.withDefaults hdefaults
  | withDefaultRepository name _ ih =>
    exact ⟨ih.action, ih.query, ih.keys, ih.sizes, ih.scroller⟩

end BulkRun
