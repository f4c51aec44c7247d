import BulkRun.Proofs.Command.Sizing
import BulkRun.Proofs.Dispatch.Sound
import BulkRun.Proofs.Scroll.Registry
/-!
# Submission

A command is accepted when its action is registered, the action accepts it with its defaults filled
in, its scroller is registered, and no command of its id is there.  Main statement: the first of
these that fails is what is reported, and then nothing has changed (`submission_all_or_nothing`).
-/

namespace BulkRun

variable {σ : Type}

/-- What is registered for a service, in order. -/
structure Registrations (σ : Type) where
  actions : List (RegisteredAction (Action σ))
  scrollers : List (ScrollerRegistry.Step (Scroller σ))

namespace Service

/-- A service with good settings and with registries that were built.  What runs in it is left
open. -/
structure BuiltFrom (s : Service σ) (w : Registrations σ) : Prop where
  settings : s.settings.check = .ok ()
  dispatcher : s.setup.dispatcher = s.settings.dispatcher
  actions : ActionRegistry.build w.actions = .ok s.setup.actions
  scrollers : ScrollerRegistry.assemble w.scrollers = .ok s.setup.scrollers

/-! ## What may stand in the way -/

section

variable (w : Registrations σ) (s : Service σ) (c : Command)

/-- No action is registered under the name that the command gives. -/
def unknownAction? : Option Error :=
  match ActionRegistry.lastNamed? w.actions c.action with
  | some _ => none
  | none => some (.unknownAction c.action)

/-- The action does not accept the command with its defaults filled in. -/
def refusal? : Option Error :=
  (ActionRegistry.lastNamed? w.actions c.action).bind fun a =>
    match a.action.validate (s.settings.dispatcher.filled a.descriptor c) with
    | .ok () => none
    | .error e =>
      some (.configuration ("Action " ++ c.action ++ " rejected command: " ++ e.message))

/-- The scroller that the registrations name for the command. -/
def scrollerOf? : Option (Scroller σ) :=
  ScrollerRegistry.lastItem? w.scrollers c.scrollerKind
    (ScrollerRegistry.nameIn w.scrollers c.toDraft)

/-- No scroller of the kind is registered under the name that the command goes by. -/
def unknownScroller? : Option Error :=
  match scrollerOf? w c with
  | some _ => none
  | none => some (.unknownScroller
      (c.scrollerKind.name ++ "/" ++ ScrollerRegistry.nameIn w.scrollers c.toDraft))

/-- There is a command of this id. -/
def duplicate? : Option Error :=
  if s.system.engine.tracker.commands.any (·.id == c.id) then
    some (.configuration ("Command " ++ c.id.text ++ " is already registered"))
  else none

/-- Everything that may stand in the way of a command, in order. -/
def hurdles : List (Option Error) :=
  [unknownAction? w c, refusal? w s c, unknownScroller? w c, duplicate? s c]

end

/-! ## What becomes of an accepted command -/

/-- A service that accepted a command and changed in nothing else. -/
structure Accepts (s : Service σ) (r : Command) (x : Scroller σ) (t : Service σ) : Prop where
  /-- There is one more record, of a command that has not begun. -/
  record : ∃ p, t.system.engine.tracker.commands = s.system.engine.tracker.commands ++ [p] ∧
    p.command = r ∧ p.state = .scheduled ∧ p.createdAt = s.system.engine.now ∧
    p.scrollCount = 0 ∧ p.processed = 0 ∧ p.errorCount = 0 ∧ p.completedBuckets = [] ∧
    p.submitted = false ∧ p.scrollFailed = false ∧ p.errorMessage = none
  /-- There is one more event. -/
  event : t.system.engine.tracker.log = s.system.engine.tracker.log.publish
    ⟨r.id, .scheduled, s.system.engine.now⟩
  /-- There is one more scroll loop, which may publish. -/
  loops : t.system.loops = s.system.loops ++
    [⟨s.system.loops.length, r, x, s.settings.dispatcher.fetchSize r, .created⟩]
  channel : t.system.engine.channel = s.system.engine.channel.addPublisher
  others : t = { s with
    system := { s.system with
      loops := t.system.loops
      engine := { s.system.engine with
        channel := t.system.engine.channel
        tracker := { s.system.engine.tracker with
          commands := t.system.engine.tracker.commands
          log := t.system.engine.tracker.log } } } }

/-- A service with one more command. -/
def withCommand (s : Service σ) (r : Command) (x : Scroller σ) : Service σ :=
  let now := s.system.engine.now
  let t := s.system.engine.tracker
  { s with
    system := s.system.withLoop s.setup r x
      ({ t with commands := t.commands ++ [Progress.new r now] }.publish now r.id [.scheduled]) }

theorem accepts_withCommand {s : Service σ} {r : Command} {x : Scroller σ}
    (h : s.setup.dispatcher = s.settings.dispatcher) : s.Accepts r x (s.withCommand r x) where
  record := ⟨_, rfl, rfl, rfl, rfl, rfl, rfl, rfl, rfl, rfl, rfl, rfl⟩
  event := rfl
  loops := by rw [← h]; rfl
  channel := rfl
  others := rfl

theorem BuiltFrom.withCommand {w : Registrations σ} {s : Service σ} (h : s.BuiltFrom w)
    (r : Command) (x : Scroller σ) : (s.withCommand r x).BuiltFrom w :=
  ⟨h.settings, h.dispatcher, h.actions, h.scrollers⟩

/-! ## Submitting -/

variable {w : Registrations σ} {s : Service σ} {c : Command}

namespace BuiltFrom

theorem resolve_action (h : s.BuiltFrom w) : s.setup.actions.resolve c.action =
    match ActionRegistry.lastNamed? w.actions c.action with
    | some a => .ok a
    | none => .error (.unknownAction c.action) := by
  rewrite [ActionRegistry.resolve, ActionRegistry.find?_build h.actions]
  cases ActionRegistry.lastNamed? w.actions c.action <;> rfl

/-- Once the action is found, its defaults and those of the settings are filled in. -/
theorem resolve_defaults (h : s.BuiltFrom w) (hc : c.Obtainable)
    {a : RegisteredAction (Action σ)}
    (ha : ActionRegistry.lastNamed? w.actions c.action = some a) :
    s.setup.dispatcher.resolve a.descriptor c =
        .ok (s.settings.dispatcher.filled a.descriptor c) ∧
      s.settings.dispatcher.Completes a.descriptor c
        (s.settings.dispatcher.filled a.descriptor c) := by
  rw [← ActionRegistry.find?_build h.actions] at ha
  obtain ⟨hbucket, hbatch⟩ :=
    ActionDescriptor.defaults_pos (ActionRegistry.check_of_find? h.actions ha).2 h.settings
  rw [h.dispatcher]
  exact ⟨DispatcherSettings.resolve_eq_filled hbucket hbatch hc.sound,
    DispatcherSettings.completes_filled hbucket hbatch hc.sound⟩

/-- What is filled in does not touch the choice of the scroller. -/
theorem resolve_scroller (h : s.BuiltFrom w) (d : ActionDescriptor) :
    (s.setup.scrollers.resolve (s.settings.dispatcher.filled d c).toDraft).map (·.item) =
      match scrollerOf? w c with
      | some x => .ok x
      | none => .error (.unknownScroller
          (c.scrollerKind.name ++ "/" ++ ScrollerRegistry.nameIn w.scrollers c.toDraft)) := by
  have hkind : (s.settings.dispatcher.filled d c).scrollerKind = c.scrollerKind := rfl
  have hname : ScrollerRegistry.nameIn w.scrollers (s.settings.dispatcher.filled d c).toDraft =
      ScrollerRegistry.nameIn w.scrollers c.toDraft := rfl
  rewrite [ScrollerRegistry.resolve_assemble h.scrollers, hkind, hname, scrollerOf?]
  cases ScrollerRegistry.lastItem? w.scrollers c.scrollerKind
    (ScrollerRegistry.nameIn w.scrollers c.toDraft) <;> rfl

/-- The preparation of a command comes to the first hurdle that stands in the way, or to the end. -/
theorem prepare_cases (h : s.BuiltFrom w) (hc : c.Obtainable) :
    (∃ e, [unknownAction? w c, refusal? w s c, unknownScroller? w c].findSome? id = some e ∧
      s.setup.prepare c = .error e) ∨
    ((unknownAction? w c = none ∧ refusal? w s c = none ∧ unknownScroller? w c = none) ∧
      ∃ a n, ActionRegistry.lastNamed? w.actions c.action = some a ∧
        a.action.validate (s.settings.dispatcher.filled a.descriptor c) = .ok () ∧
        scrollerOf? w c = some n.item ∧
        s.setup.prepare c = .ok (s.settings.dispatcher.filled a.descriptor c, n)) := by
  have haction := h.resolve_action (c := c)
  unfold Setup.prepare unknownAction? refusal?
  cases ha : ActionRegistry.lastNamed? w.actions c.action with
  | none =>
    rw [ha] at haction
    rw [haction]
    exact .inl ⟨_, rfl, rfl⟩
  | some a =>
    rw [ha] at haction
    have hscroller := h.resolve_scroller (c := c) a.descriptor
    rw [haction]
    dsimp only [Option.bind_some]
    rw [(h.resolve_defaults hc ha).1]
    dsimp only
    cases hvalidate : a.action.validate (s.settings.dispatcher.filled a.descriptor c) with
    | error e => exact .inl ⟨_, rfl, rfl⟩
    | ok u =>
      unfold unknownScroller?
      cases hx : s.setup.scrollers.resolve
          (s.settings.dispatcher.filled a.descriptor c).toDraft with
      | error e =>
        rw [hx] at hscroller
        split at hscroller
        · exact absurd hscroller (by simp [Except.map])
        · rename_i hnone
          rw [hnone]
          exact .inl ⟨_, rfl, congrArg _ (Except.error.inj hscroller)⟩
      | ok n =>
        rw [hx] at hscroller
        split at hscroller
        · rename_i x hsome
          obtain rfl := Except.ok.inj hscroller
          rw [hsome]
          exact .inr ⟨⟨rfl, rfl, rfl⟩, a, n, rfl, hvalidate, rfl, rfl⟩
        · exact absurd hscroller (by simp [Except.map])

end BuiltFrom

theorem register_eq (t : Tracker) (now : Timestamp) (r : Command) :
    t.register now r =
      if t.commands.any (·.id == r.id) then
        .error (.configuration ("Command " ++ r.id.text ++ " is already registered"))
      else .ok ({ t with commands := t.commands ++ [Progress.new r now] }.publish now r.id
        [.scheduled]) := by
  rw [Tracker.register, Tracker.find?, ← List.isSome_find?]
  cases t.commands.find? (·.id == r.id) <;> rfl

/-- A submission comes to the first hurdle that stands in the way, or to the end. -/
theorem submit_cases (h : s.BuiltFrom w) (hc : c.Obtainable) :
    (∃ e, (s.hurdles w c).findSome? id = some e ∧ s.submit c = .error e) ∨
    (∀ hurdle ∈ s.hurdles w c, hurdle = none) ∧ ∃ a x,
      ActionRegistry.lastNamed? w.actions c.action = some a ∧
      a.action.validate (s.settings.dispatcher.filled a.descriptor c) = .ok () ∧
      scrollerOf? w c = some x ∧
      s.submit c = .ok (c.id, s.withCommand (s.settings.dispatcher.filled a.descriptor c) x) := by
  unfold submit System.submit hurdles
  obtain ⟨e, he, hprepare⟩ | ⟨⟨haction, hrefusal, hscroller⟩, a, n, ha, hvalidate, hn, hprepare⟩ :=
    h.prepare_cases hc
  · rw [hprepare]
    refine .inl ⟨e, ?_, rfl⟩
    show ([unknownAction? w c, refusal? w s c, unknownScroller? w c] ++ [duplicate? s c]).findSome?
      id = some e
    rw [List.findSome?_append, he, Option.some_or]
  · rw [hprepare, haction, hrefusal, hscroller, duplicate?]
    dsimp only
    rw [register_eq]
    have hid : (s.settings.dispatcher.filled a.descriptor c).id = c.id := rfl
    rw [hid]
    cases hd : s.system.engine.tracker.commands.any (·.id == c.id) with
    | true => exact .inl ⟨_, rfl, rfl⟩
    | false => exact .inr ⟨by simp, a, n.item, ha, hvalidate, hn, rfl⟩

/-! ## Submitting in steps -/

/-- A change of what runs. -/
def modifySystem (f : System σ → System σ) : EStateM Error (Service σ) Unit :=
  modify fun s => { s with system := f s.system }

/-- A change of the tracker. -/
def modifyTracker (f : Timestamp → Tracker → Tracker) : EStateM Error (Service σ) Unit :=
  modifySystem fun s => s.withTracker (f s.engine.now s.engine.tracker)

/-- Submission one step after the other.  A step that fails takes nothing back of what the steps
before it changed. -/
def submitInSteps (c : Command) : EStateM Error (Service σ) CommandId := do
  let setup := (← get).setup
  let a ← ofExcept (setup.actions.resolve c.action)
  let r ← ofExcept ((setup.dispatcher.resolve a.descriptor c).mapError (·.toError))
  ofExcept ((a.action.validate r).mapError (rejection r))
  let x ← ofExcept (setup.scrollers.resolve r.toDraft)
  if ((← get).system.engine.tracker.find? r.id).isSome then
    throw (.configuration ("Command " ++ r.id.text ++ " is already registered"))
  modifyTracker fun now t => { t with commands := t.commands ++ [Progress.new r now] }
  modifyTracker fun now t => t.publish now r.id [.scheduled]
  modifySystem fun s =>
    { s with engine := { s.engine with channel := s.engine.channel.addPublisher } }
  modifySystem fun s => { s with
    loops := s.loops ++ [⟨s.loops.length, r, x.item, setup.dispatcher.fetchSize r, .created⟩] }
  return r.id

theorem get_bind {α : Type} (f : Service σ → EStateM Error (Service σ) α) (s : Service σ) :
    (get >>= f) s = f s s := rfl

theorem ofExcept_bind {α β : Type} (x : Except Error α) (f : α → EStateM Error (Service σ) β)
    (s : Service σ) :
    (ofExcept x >>= f) s = match x with
      | .ok a => f a s
      | .error e => .error e s := by
  cases x <;> rfl

/-- The steps come to what a submission comes to, and to the old service when it fails. -/
theorem submitInSteps_eq (s : Service σ) (c : Command) :
    submitInSteps c s = match s.submit c with
      | .ok (id, t) => .ok id t
      | .error e => .error e s := by
  unfold submitInSteps submit System.submit Setup.prepare
  simp only [get_bind, ofExcept_bind]
  cases s.setup.actions.resolve c.action with
  | error e => rfl
  | ok a =>
    dsimp only
    cases s.setup.dispatcher.resolve a.descriptor c with
    | error f => rfl
    | ok r =>
      dsimp only [Except.mapError]
      cases a.action.validate r with
      | error e => rfl
      | ok u =>
        dsimp only
        cases s.setup.scrollers.resolve r.toDraft with
        | error e => rfl
        | ok x =>
          dsimp only [Except.map, Tracker.register]
          cases s.system.engine.tracker.find? r.id with
          | some p => rfl
          | none => rfl

/-! ## All or nothing -/

/-- Submission is all or nothing.  In whatever state a service with good settings and built
registries is, a command is accepted exactly when nothing stands in the way: its action is
registered, the action accepts the command with its defaults filled in, a scroller of its kind is
registered under the name it goes by, and its id is new.  The first of these that fails, in this
order, is the error that is reported.  Once it is accepted, there are one record, one event and one
scroll loop more, and the record is that of a command that has not begun, with its defaults and its
id.  The steps of a submission, of which none takes back anything, leave the service as it was when
one of them fails. -/
theorem submission_all_or_nothing (h : s.BuiltFrom w) (hc : c.Obtainable) :
    ((∃ out, s.submit c = .ok out) ↔ ∀ hurdle ∈ s.hurdles w c, hurdle = none) ∧
    (∀ e, s.submit c = .error e ↔ (s.hurdles w c).findSome? id = some e) ∧
    (∀ id t, s.submit c = .ok (id, t) → id = c.id ∧ ∃ a r x,
      ActionRegistry.lastNamed? w.actions c.action = some a ∧
      s.settings.dispatcher.Completes a.descriptor c r ∧ a.action.validate r = .ok () ∧
      scrollerOf? w c = some x ∧ r.id = c.id ∧ s.Accepts r x t) ∧
    submitInSteps c s = match s.submit c with
      | .ok (id, t) => .ok id t
      | .error e => .error e s := by
  obtain ⟨e, he, hsubmit⟩ | ⟨hnone, a, x, ha, hvalidate, hx, hsubmit⟩ := submit_cases h hc
  · refine ⟨⟨fun ⟨out, hout⟩ => ?_, fun hnone => ?_⟩, fun e' => ?_, fun id t hok => ?_,
      submitInSteps_eq s c⟩
    · exact absurd (hsubmit.symm.trans hout) (by simp)
    · obtain ⟨hurdle, hmem, hsome⟩ := List.exists_of_findSome?_eq_some he
      exact absurd ((hnone hurdle hmem).symm.trans hsome) (by simp)
    · rw [hsubmit, he, Except.error.injEq, Option.some.injEq]
    · exact absurd (hsubmit.symm.trans hok) (by simp)
  · have hfree : (s.hurdles w c).findSome? id = none := List.findSome?_eq_none_iff.2 hnone
    refine ⟨⟨fun _ => hnone, fun _ => ⟨_, hsubmit⟩⟩, fun e' => ?_, fun id t hok => ?_,
      submitInSteps_eq s c⟩
    · rw [hsubmit, hfree]
      simp
    · obtain ⟨rfl, rfl⟩ := Prod.mk.inj (Except.ok.inj (hsubmit.symm.trans hok))
      exact ⟨rfl, a, _, x, ha, (h.resolve_defaults hc ha).2, hvalidate, hx, rfl,
        accepts_withCommand h.dispatcher⟩

/-- An action that wants the number of records to be bounded. -/
def boundedOnly : Action Unit where
  validate c :=
    if c.effectiveQueryLimit.isNone then .error (.configuration "no limit") else .ok ()
  call _ _ w := (0, w)
  takesPermit := false
  poll _ ids _ w := some (⟨[], .ok (ids.map (⟨·, none⟩))⟩, w)

/-- A scroller that finds nothing. -/
def noRecords : Scroller Unit where
  kind := .query
  start c w := (.ok (.new c), w)
  reserved _ _ := 0
  next c _ w := (.ok ⟨[], true⟩, c, w)

/-- An action that is registered twice, and two scrollers of which the second is the default. -/
def twofold : Registrations Unit where
  actions :=
    [⟨⟨"archive", none, none, none⟩, boundedOnly⟩,
      ⟨⟨"archive", none, some 40, some 9⟩, boundedOnly⟩]
  scrollers := [.register .query "default" noRecords, .register .query "live" noRecords,
    .defaultFor .query "live"]

/-- A service with these, in which nothing has happened yet. -/
def twofoldService : Service Unit where
  settings := .default
  setup :=
    ⟨⟨[("archive", ⟨⟨"archive", none, some 40, some 9⟩, boundedOnly⟩)]⟩,
      ((ScrollerRegistry.empty.register .query "default" noRecords).register .query "live"
        noRecords).defaultFor .query "live", .none, Settings.default.dispatcher⟩
  system := System.withConsumers (.ofEngine ⟨⟨0, 0⟩, .new 8 60, .new 4 64, ()⟩)

/-- A command for it, with an id of its own. -/
def plainCommand : Command :=
  ⟨⟨"archive", "all", none, none, none, 0, 0, none, false, []⟩, ⟨1⟩⟩

/-- A command of the same id, without limit, for a scroller that nobody registered. -/
def looseCommand : Command :=
  ⟨⟨"archive", "all", some 0, none, none, 0, 0, none, true, []⟩, ⟨1⟩⟩

/-- The service after it accepted the first command. -/
def busyService : Service Unit :=
  twofoldService.withCommand
    ⟨⟨"archive", "all", some 9, none, none, 100, 40, none, false, []⟩, ⟨1⟩⟩ noRecords

/-- A command is accepted once; of the three hurdles before a later one of its id the first is
reported. -/
theorem submission_all_or_nothing_twofold :
    twofoldService.BuiltFrom twofold ∧ busyService.BuiltFrom twofold ∧
    plainCommand.Obtainable ∧ looseCommand.Obtainable ∧
    twofoldService.submit plainCommand = .ok (⟨1⟩, busyService) ∧
    (∃ r, twofoldService.Accepts r noRecords busyService ∧ r.id = ⟨1⟩ ∧ r.queryLimit = some 9) ∧
    busyService.submit plainCommand = .error (.configuration
      ("Command " ++ CommandId.text ⟨1⟩ ++ " is already registered")) ∧
    submitInSteps looseCommand busyService = .error (.configuration
      "Action archive rejected command: action configuration: no limit") busyService := by
  have hbuilt : twofoldService.BuiltFrom twofold := ⟨rfl, rfl, rfl, rfl⟩
  have hbusy : busyService.BuiltFrom twofold := hbuilt.withCommand _ _
  have hplain : plainCommand.Obtainable := .decoded (w := plainCommand.encode) rfl
  have hloose : looseCommand.Obtainable := .decoded (w := looseCommand.encode) rfl
  obtain ⟨-, -, hafter, -⟩ := submission_all_or_nothing hbuilt hplain
  obtain ⟨-, hagain, -⟩ := submission_all_or_nothing hbusy hplain
  obtain ⟨-, hrefused, -, hsteps⟩ := submission_all_or_nothing hbusy hloose
  have hsubmit : twofoldService.submit plainCommand = .ok (⟨1⟩, busyService) := rfl
  obtain ⟨-, a, r, x, ha, hcompletes, -, hx, hid, haccepts⟩ := hafter _ _ hsubmit
  obtain rfl := Option.some.inj ha
  obtain rfl := Option.some.inj hx
  refine ⟨hbuilt, hbusy, hplain, hloose, hsubmit, ⟨r, haccepts, hid, hcompletes.limit.2 rfl⟩,
    (hagain _).2 rfl, ?_⟩
  rewrite [hsteps, (hrefused _).2 rfl]
  rfl

end Service

end BulkRun
