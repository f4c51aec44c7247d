import BulkRun.Proofs.Dispatch.ScrollWork
import BulkRun.Proofs.Dispatch.Signs
import BulkRun.Proofs.Execution.Labour
/-!
# What is seen of a command at a bench

What is seen of a command at a bench tallies with the signs of the command (`Bench.Tallies`): its
scroll loop stands where the answers of the scroller lead, whoever is at work came to its batch
through all batches before it, and the published buckets are worked off.  Every event keeps this, as
long as nobody cancels the command (`Tallies.turns`).
-/

namespace BulkRun

open Relation (ReflTransGen)
open Tracker (Retains Addresses Labours)

variable {σ : Type} {setup : Setup σ} {id : CommandId} {k : Command}

/-- Whether the work on a held bucket of a command came to its batch in turn, and leaves the
bucket shut when it is over. -/
structure Hand.InTurn (k : Command) (opened : List (Work σ)) (t : Tracker) (h : Hand σ) :
    Prop where
  work : ∀ x, h.execution = some x → x.InTurn k opened
  shut : ∀ x, h.execution = some x → x.work? = none → t.Shut k.id h.delivery.bucket.sequence

theorem Hand.InTurn.append {h : Hand σ} {opened : List (Work σ)} {t u : Tracker}
    (hh : h.InTurn k opened t) (more : List (Work σ))
    (hshut : ∀ n, t.Shut k.id n → u.Shut k.id n) : h.InTurn k (opened ++ more) u where
  work x hx := (hh.work x hx).append more
  shut x hx hended := hshut _ (hh.shut x hx hended)

theorem Hand.inTurn_of_none {h : Hand σ} (hx : h.execution = none) (opened : List (Work σ))
    (t : Tracker) : h.InTurn k opened t := by
  constructor
  all_goals
    intro x hx'
    rw [hx] at hx'
    exact absurd hx' (by simp)

namespace Bench

variable {b c : Bench σ} {signs new : List (Sign σ)} {sign : Option (Sign σ)}
  {e : Engine σ} {ls : List (ScrollLoop σ)} {hs : Multiset (Hand σ)} {d : Channel} {h : Hand σ}
  {v : Delivery}

/-! ## The published buckets that are still there -/

/-- The published buckets of a command, in the channel and at hand. -/
def there (id : CommandId) (b : Bench σ) : Multiset Bucket := (b.lots id).map (·.bucket)

theorem there_cons_self (hid : h.delivery.bucket.commandId = id) :
    there id ⟨e, ls, h ::ₘ hs⟩ = h.delivery.bucket ::ₘ there id ⟨e, ls, hs⟩ := by
  rw [there, lots_cons_self hid, Multiset.map_cons, h.bucket_lot, there]

theorem there_cons_other (hid : h.delivery.bucket.commandId ≠ id) :
    there id ⟨e, ls, h ::ₘ hs⟩ = there id ⟨e, ls, hs⟩ := by
  rw [there, lots_cons_other hid, there]

theorem there_of_lots {ls' : List (ScrollLoop σ)} {f : Engine σ}
    (h : f.channel.lots id = e.channel.lots id) :
    there id ⟨f, ls', hs⟩ = there id ⟨e, ls, hs⟩ := by
  rw [there, lots, h, there, lots]

/-- It does not matter how far the work on a bucket at hand has come. -/
theorem there_progress {f : Engine σ} (hchannel : f.channel = e.channel)
    (x y : Option (Execution σ)) :
    there id ⟨f, ls, ⟨v, x⟩ ::ₘ hs⟩ = there id ⟨e, ls, ⟨v, y⟩ ::ₘ hs⟩ := by
  have hrest : there id ⟨f, ls, hs⟩ = there id ⟨e, ls, hs⟩ := there_of_lots (by rw [hchannel])
  by_cases hid : v.bucket.commandId = id
  · rw [there_cons_self hid, there_cons_self hid, hrest]
  · rw [there_cons_other hid, there_cons_other hid, hrest]

/-- It does not matter whether a bucket is in the channel or at hand. -/
theorem there_takes {f : Engine σ} (htakes : Channel.Takes e.channel f.channel h.delivery.bucket) :
    there id ⟨f, ls, hs⟩ = there id ⟨e, ls, h ::ₘ hs⟩ := by
  by_cases hid : h.delivery.bucket.commandId = id
  · rw [there_cons_self hid, there, lots, Channel.lots_takes htakes hid, Multiset.cons_add,
      Multiset.map_cons]
    rfl
  · rw [there_cons_other hid]
    exact there_of_lots (Channel.lots_takes_other htakes hid)

theorem there_receive {i : Nat}
    (h : e.channel.unstash? i = some (v, d) ∨ e.channel.dequeue? i = some (v, d)) :
    there id ⟨{ e with channel := d }, ls, (⟨v, none⟩ : Hand σ) ::ₘ hs⟩ = there id ⟨e, ls, hs⟩ := by
  have hgives : Channel.Gives e.channel d v := by
    obtain h | h := h
    · exact Channel.gives_unstash? h
    · exact Channel.gives_dequeue? h
  have htakes : Channel.Takes d e.channel v.bucket := ⟨hgives.buckets, hgives.length.symm⟩
  exact (there_takes (e := { e with channel := d }) (h := ⟨v, none⟩) htakes).symm

/-! ## The tally -/

/-- Whether what is seen of a command at a bench tallies with the signs that were given. -/
structure Tallies (k : Command) (signs : List (Sign σ)) (b : Bench σ) : Prop where
  unseen : b.loops.filter (·.id == k.id) = [] →
    answersOf k.id signs = [] ∧ bucketsOf k.id signs = []
  streams : ∀ l, b.loops.filter (·.id == k.id) = [l] →
    l.Streams k (answersOf k.id signs) (bucketsOf k.id signs) (b.engine.tracker.find? k.id)
  hands : ∀ h ∈ b.hands, h.delivery.bucket.commandId = k.id →
    h.InTurn k (openedOf k.id signs) b.engine.tracker
  worked : WorkedOff (AllBegun k (openedOf k.id signs)) (bucketsOf k.id signs) (b.there k.id)
    (b.engine.tracker.find? k.id)

/-- Whether no command but one was accepted under its number, and that once at most. -/
def AcceptsOnce (k : Command) (b : Bench σ) : Prop := b.commands.filter (·.id == k.id) <+: [k]

theorem acceptsOnce_of_filter {l : ScrollLoop σ}
    (h : b.loops.filter (·.id == l.command.id) = [l]) : b.AcceptsOnce l.command := by
  rw [AcceptsOnce, filter_commands, h]
  exact List.prefix_refl _

theorem AcceptsOnce.cases (h : b.AcceptsOnce k) : b.loops.filter (·.id == k.id) = [] ∨
    ∃ l, b.loops.filter (·.id == k.id) = [l] ∧ l.command = k := by
  rw [AcceptsOnce, filter_commands] at h
  obtain hnone | hone := List.prefix_cons_iff.1 h
  · exact .inl (List.map_eq_nil_iff.1 hnone)
  · obtain ⟨rest, hrest, hnil⟩ := hone
    rw [List.prefix_nil.1 hnil] at hrest
    exact .inr (List.map_eq_singleton_iff.1 hrest)

theorem AcceptsOnce.of_chain (h : b.AcceptsOnce k)
    (hchain : ReflTransGen (Handles setup · none ·) b c) : c.AcceptsOnce k := by
  rw [AcceptsOnce, commands, loops_of_chain hchain]
  exact h

namespace Tallies

/-- The tracker knows the command by its number. -/
theorem known (h : b.Tallies k signs) (hmeets : b.MeetsDues k.id) (honce : b.AcceptsOnce k)
    {p : Progress} (hp : b.engine.tracker.find? k.id = some p) : p.command = k := by
  obtain hunseen | ⟨l, hl, -⟩ := honce.cases
  · rw [(hmeets.unseen hunseen).1] at hp
    exact absurd hp (by simp)
  · exact (h.streams l hl).known hp

/-- Nothing but work befalls the command. -/
theorem of_labours (h : b.Tallies k signs) (hloops : c.loops = b.loops)
    (hlabours : Labours k.id b.engine.tracker c.engine.tracker)
    (hquiet : answersOf k.id new = [] ∧ bucketsOf k.id new = [])
    (hhands : ∀ h ∈ c.hands, h.delivery.bucket.commandId = k.id →
      h.InTurn k (openedOf k.id (signs ++ new)) c.engine.tracker)
    (hworked : WorkedOff (AllBegun k (openedOf k.id (signs ++ new))) (bucketsOf k.id signs)
      (c.there k.id) (c.engine.tracker.find? k.id)) : c.Tallies k (signs ++ new) := by
  have hanswers : answersOf k.id (signs ++ new) = answersOf k.id signs := by
    rw [answersOf_append, hquiet.1, List.append_nil]
  have hbuckets : bucketsOf k.id (signs ++ new) = bucketsOf k.id signs := by
    rw [bucketsOf_append, hquiet.2, List.append_nil]
  refine ⟨?_, ?_, hhands, ?_⟩
  · rw [hanswers, hbuckets, hloops]
    exact h.unseen
  · rw [hanswers, hbuckets, hloops]
    exact fun l hl => (h.streams l hl).labour hlabours
  · rw [hbuckets]
    exact hworked

/-- Whatever happens has nothing to do with the command. -/
theorem of_retains (h : b.Tallies k signs)
    (hloops : c.loops.filter (·.id == k.id) = b.loops.filter (·.id == k.id))
    (hretains : Retains k.id b.engine.tracker c.engine.tracker)
    (hquiet : answersOf k.id new = [] ∧ bucketsOf k.id new = [] ∧ openedOf k.id new = [])
    (hhands : ∀ h ∈ c.hands, h.delivery.bucket.commandId = k.id →
      h ∈ b.hands ∨ h.execution = none)
    (hthere : c.there k.id = b.there k.id) : c.Tallies k (signs ++ new) := by
  obtain ⟨hanswers, hbuckets, hopened⟩ := hquiet
  constructor
  all_goals
    simp only [answersOf_append, bucketsOf_append, openedOf_append, hanswers, hbuckets, hopened,
      List.append_nil]
  · rw [hloops]
    exact h.unseen
  · rw [hloops]
    exact fun l hl => (h.streams l hl).labour hretains.labours
  · intro hand hmem hid
    obtain hold | hnone := hhands hand hmem hid
    · have happend := (h.hands hand hold hid).append [] fun _ => hretains.shut
      rwa [List.append_nil] at happend
    · exact Hand.inTurn_of_none hnone _ _
  · rw [hthere]
    exact h.worked.retain hretains

/-! ### Grips -/

variable {r : Execution σ × Engine σ} {x : Option (Execution σ)}

/-- Work on a bucket of another command. -/
theorem progress_other (h : Tallies k signs ⟨e, ls, ⟨v, x⟩ ::ₘ hs⟩)
    (hid : v.bucket.commandId ≠ k.id)
    (hevolves : Execution.Evolves e r.2) (hserves : r.1.Serves v.bucket)
    (hretains : Retains k.id e.tracker r.2.tracker) :
    Tallies k (signs ++ r.1.sign?.toList) ⟨r.2, ls, ⟨v, some r.1⟩ ::ₘ hs⟩ := by
  have hopened : openedOf k.id r.1.sign?.toList = [] := by
    refine Execution.openedOf_sign?_other fun w hw => ?_
    rw [(hserves w hw).2]
    exact hid
  obtain ⟨hanswers, hbuckets⟩ := r.1.signs_of_sign? k.id
  refine h.of_retains rfl hretains ⟨hanswers, hbuckets, hopened⟩ ?_
    (there_progress hevolves.channel _ _)
  intro hand hmem hhand
  obtain rfl | hmem := Multiset.mem_cons.1 hmem
  · exact absurd hhand hid
  · exact .inl (Multiset.mem_cons_of_mem hmem)

/-- Work on a bucket of the command. -/
theorem progress_self (h : Tallies k signs ⟨e, ls, ⟨v, x⟩ ::ₘ hs⟩) (hid : v.bucket.commandId = k.id)
    (hevolves : Execution.Evolves e r.2) (hserves : r.1.Serves v.bucket)
    (hlabours : Labours k.id e.tracker r.2.tracker)
    (hturn : r.1.InTurn k (openedOf k.id signs ++ r.1.opened?.toList))
    (hshut : r.1.work? = none → r.2.tracker.Shut k.id v.bucket.sequence)
    (hworked : WorkedOff (AllBegun k (openedOf k.id signs ++ r.1.opened?.toList))
      (bucketsOf k.id signs) (there k.id ⟨e, ls, ⟨v, x⟩ ::ₘ hs⟩) (r.2.tracker.find? k.id)) :
    Tallies k (signs ++ r.1.sign?.toList) ⟨r.2, ls, ⟨v, some r.1⟩ ::ₘ hs⟩ := by
  have hopened : openedOf k.id (signs ++ r.1.sign?.toList) =
      openedOf k.id signs ++ r.1.opened?.toList := by
    rw [openedOf_append, Execution.openedOf_sign? fun w hw => (hserves w hw).2.trans hid]
  refine h.of_labours rfl hlabours (r.1.signs_of_sign? k.id) ?_ ?_
  · rw [hopened]
    intro hand hmem hhand
    obtain rfl | hmem := Multiset.mem_cons.1 hmem
    · constructor
      · intro y hy
        obtain rfl := Option.some.inj hy
        exact hturn
      · intro y hy
        obtain rfl := Option.some.inj hy
        exact hshut
    · exact (h.hands hand (Multiset.mem_cons_of_mem hmem) hhand).append _
        fun _ hshut => hshut.advance hevolves.tracker
  · rw [hopened, there_progress hevolves.channel (some r.1) x]
    exact hworked

/-- The work on a bucket begins. -/
theorem start (h : Tallies k signs ⟨e, ls, ⟨v, none⟩ ::ₘ hs⟩)
    (hmeets : MeetsDues k.id ⟨e, ls, ⟨v, none⟩ ::ₘ hs⟩)
    (honce : AcceptsOnce k ⟨e, ls, ⟨v, none⟩ ::ₘ hs⟩)
    (hloyal : ∃ registered, setup.actions.resolve k.action = .ok registered ∧
      registered.action.IsLoyal) (hr : Execution.Begins setup v.bucket e r)
    (hserves : r.1.Serves v.bucket) :
    Tallies k (signs ++ r.1.sign?.toList) ⟨r.2, ls, ⟨v, some r.1⟩ ::ₘ hs⟩ := by
  obtain ⟨registered, hresolve, haction⟩ := hloyal
  by_cases hid : v.bucket.commandId = k.id
  · have hknown : ∀ p, e.tracker.find? v.bucket.commandId = some p → p.command = k := by
      rw [hid]
      exact fun p => h.known hmeets honce
    have hlabours := hr.labours fun p hp => ⟨registered, by rw [hknown p hp]; exact hresolve⟩
    have hturn : r.1.InTurn k (openedOf k.id signs ++ r.1.opened?.toList) := by
      refine hr.inTurn hknown fun registered' hresolve' => ?_
      rw [← Except.ok.inj (hresolve.symm.trans hresolve')]
      exact haction
    have hmem : v.bucket ∈ bucketsOf k.id signs := by
      refine h.worked.member v.bucket ?_
      rw [there_cons_self (h := ⟨v, none⟩) hid]
      exact Multiset.mem_cons_self _ _
    have hshut := hr.shut
    rw [hid] at hlabours hshut
    exact h.progress_self hid hr.evolves hserves hlabours hturn hshut
      (hr.worked hmem hknown ⟨registered, hresolve⟩ h.worked)
  · exact h.progress_other hid hr.evolves hserves (hr.retains (Ne.symm hid))

/-- The work on a bucket advances. -/
theorem work {y : Execution σ} {w : Work σ} (h : Tallies k signs ⟨e, ls, ⟨v, some y⟩ ::ₘ hs⟩)
    (hmeets : MeetsDues k.id ⟨e, ls, ⟨v, some y⟩ ::ₘ hs⟩)
    (honce : AcceptsOnce k ⟨e, ls, ⟨v, some y⟩ ::ₘ hs⟩) (hw : y.work? = some w)
    (hr : Execution.Works y w e r) (hserves : r.1.Serves v.bucket) :
    Tallies k (signs ++ r.1.sign?.toList) ⟨r.2, ls, ⟨v, some r.1⟩ ::ₘ hs⟩ := by
  obtain ⟨hbucket, hcommand⟩ := (Multiset.forall_mem_cons.1 hmeets.serves).1 y rfl w hw
  by_cases hid : v.bucket.commandId = k.id
  · have hand := h.hands ⟨v, some y⟩ (Multiset.mem_cons_self _ _) hid
    have hy := hand.work y rfl
    have hself : w.command.id = k.id := hcommand.trans hid
    obtain ⟨l, hl, -⟩ : ∃ l, ls.filter (·.id == k.id) = [l] ∧ l.command = k :=
      honce.cases.resolve_left fun hunseen => hmeets.ne_of_unseen hunseen hid
    have hlots : lots k.id ⟨e, ls, ⟨v, some y⟩ ::ₘ hs⟩ =
        ⟨w.bucket, .working w.left⟩ ::ₘ lots k.id ⟨e, ls, hs⟩ := by
      rw [lots_cons_self (h := ⟨v, some y⟩) hid, Hand.lot_of_work? hw, hbucket]
    have hthere : there k.id ⟨e, ls, ⟨v, some y⟩ ::ₘ hs⟩ =
        w.bucket ::ₘ (lots k.id ⟨e, ls, hs⟩).map (·.bucket) := by
      rw [there, hlots, Multiset.map_cons]
    have hworking : ∀ lot ∈ lots k.id ⟨e, ls, hs⟩, lot.standing ≠ .working 0 := by
      intro lot hlot
      have hmem : lot ∈ lots k.id ⟨e, ls, ⟨v, some y⟩ ::ₘ hs⟩ := by
        rw [hlots]
        exact Multiset.mem_cons_of_mem hlot
      exact hmeets.standing_ne hmem
    have hdues := hmeets.dues l hl
    have hworked := h.worked
    have hlabours := hr.labours hy.loyal
    have hshut := hr.shut
    rw [hlots] at hdues
    rw [hthere] at hworked
    rw [hself] at hlabours hshut
    rw [hbucket] at hshut
    refine h.progress_self hid hr.evolves hserves hlabours (hr.inTurn hy hw) hshut ?_
    rw [hthere]
    refine hr.worked hy hw (hworked.member _ (Multiset.mem_cons_self _ _)) ?_ hdues hworking hworked
    exact (Multiset.forall_mem_cons.1 hmeets.solid).1 y rfl w hw
  · refine h.progress_other hid hr.evolves hserves (hr.retains ?_)
    rw [hcommand]
    exact Ne.symm hid

/-- A bucket is acknowledged, the work on it being over. -/
theorem acknowledge {result : Except Error BucketOutcome}
    (h : Tallies k signs ⟨e, ls, ⟨v, some (.finished result)⟩ ::ₘ hs⟩)
    (hkeeps : Channel.Keeps e.channel d) :
    Tallies k signs ⟨{ e with channel := d }, ls, hs⟩ := by
  have hthere : there k.id ⟨{ e with channel := d }, ls, hs⟩ = there k.id ⟨e, ls, hs⟩ :=
    there_of_lots (Channel.lots_keeps hkeeps k.id)
  rw [← List.append_nil signs]
  by_cases hid : v.bucket.commandId = k.id
  · refine h.of_labours rfl (Retains.refl k.id e.tracker).labours ⟨rfl, rfl⟩ ?_ ?_
    · rw [List.append_nil]
      exact fun hand hmem => h.hands hand (Multiset.mem_cons_of_mem hmem)
    · have hworked := h.worked
      rw [there_cons_self (h := ⟨v, some (.finished result)⟩) hid] at hworked
      rw [List.append_nil, hthere]
      exact hworked.putAway
        ((h.hands _ (Multiset.mem_cons_self _ _) hid).shut _ rfl rfl)
  · refine h.of_retains rfl (.refl k.id e.tracker) ⟨rfl, rfl, rfl⟩ ?_ ?_
    · exact fun hand hmem _ => .inl (Multiset.mem_cons_of_mem hmem)
    · rw [hthere, there_cons_other (h := ⟨v, some (.finished result)⟩) hid]

/-- Every grip keeps the tally, unless work is broken off. -/
theorem handles (h : b.Tallies k signs) (hmeets : b.MeetsDues k.id) (hhomed : b.Homed)
    (hopen : b.engine.channel.IsOpen) (honce : b.AcceptsOnce k)
    (hloyal : ∃ registered, setup.actions.resolve k.action = .ok registered ∧
      registered.action.IsLoyal)
    (hgrip : Handles setup b sign c) : c.Tallies k (signs ++ sign.toList) := by
  cases hgrip with
  | @receive e ls hs i v d hv =>
    refine h.of_retains rfl (.refl k.id e.tracker) ⟨rfl, rfl, rfl⟩ ?_ (there_receive hv)
    intro hand hmem _
    obtain rfl | hmem := Multiset.mem_cons.1 hmem
    · exact .inr rfl
    · exact .inl hmem
  | @start e ls hs v r hr =>
    subst hr
    exact h.start hmeets honce hloyal (Execution.begins_start setup v.bucket e)
      Execution.acts_start.serves
  | @work e ls hs v y r hr =>
    obtain ⟨w, hw, hworks⟩ := Execution.works_step? hmeets.distinct hr
    have hserves := (Multiset.forall_mem_cons.1 hmeets.serves).1 y rfl
    exact h.work hmeets honce hw hworks (Execution.acts_step? hserves hmeets.distinct hr).serves
  | @acknowledge e ls hs v result =>
    rw [Option.toList_none, List.append_nil]
    exact h.acknowledge ⟨.refl _, rfl⟩
  | @handBack e ls hs hand =>
    have hhome : e.channel.partitionFor hand.delivery.bucket.commandId = hand.delivery.partition :=
      hhomed.hands hand (Multiset.mem_cons_self _ _)
    have hlt : hand.delivery.partition < e.channel.partitions.length := by
      rw [← hhome]
      exact Nat.mod_lt _ hopen.positive
    refine h.of_retains rfl (.refl k.id e.tracker) ?_ ?_
      (there_takes (Channel.takes_handBack hlt))
    · split <;> exact ⟨rfl, rfl, rfl⟩
    · exact fun hand hmem _ => .inl (Multiset.mem_cons_of_mem hmem)

/-! ### Deals -/

variable {l : ScrollLoop σ} {s : ScrollLoop σ × Engine σ}

/-- A step of a scroll loop. -/
theorem scroll (h : b.Tallies k signs) (honce : b.AcceptsOnce k)
    (hkeys : (b.loops.map (·.key)).Nodup)
    (hl : l ∈ b.loops) (hkey : s.1.key = l.key) (hcommand : s.1.command = l.command)
    (haddresses : Addresses l.id b.engine.tracker s.2.tracker) (hopened : openedOf k.id new = [])
    (hself : l.command = k → b.loops.filter (·.id == k.id) = [l] →
      s.1.Streams k (answersOf k.id (signs ++ new)) (bucketsOf k.id (signs ++ new))
        (s.2.tracker.find? k.id) ∧
      WorkedOff (AllBegun k (openedOf k.id signs)) (bucketsOf k.id (signs ++ new))
        (there k.id ⟨s.2, View.setLoop b.loops s.1, b.hands⟩) (s.2.tracker.find? k.id))
    (hother : k.id ≠ l.id → answersOf k.id new = [] ∧ bucketsOf k.id new = [] ∧
      s.2.channel.lots k.id = b.engine.channel.lots k.id) :
    Tallies k (signs ++ new) ⟨s.2, View.setLoop b.loops s.1, b.hands⟩ := by
  have hid : s.1.id = l.id := congrArg Command.id hcommand
  by_cases hlid : l.id = k.id
  · have hmem : l ∈ b.loops.filter (·.id == k.id) := List.mem_filter.2 ⟨hl, beq_iff_eq.2 hlid⟩
    obtain hunseen | ⟨m, hm, hmk⟩ := honce.cases
    · rw [hunseen] at hmem
      exact absurd hmem List.not_mem_nil
    · rw [hm, List.mem_singleton] at hmem
      subst hmem
      obtain ⟨hstreams, hworked⟩ := hself hmk hm
      have hone : (View.setLoop b.loops s.1).filter (·.id == k.id) = [s.1] := by
        rw [View.filter_setLoop hkeys hl hkey hid, hm]
        simp [View.setLoop, hkey]
      refine ⟨fun hunseen => ?_, fun m hm' => ?_, fun hand hmem hhand => ?_, ?_⟩
      · rw [hone] at hunseen
        exact absurd hunseen (by simp)
      · obtain rfl := List.singleton_inj.1 (hone.symm.trans hm')
        exact hstreams
      · rw [openedOf_append]
        exact (h.hands hand hmem hhand).append _ fun _ hshut => hshut.advance haddresses.advances
      · rw [openedOf_append, hopened, List.append_nil]
        exact hworked
  · obtain ⟨hanswers, hbuckets, hlots⟩ := hother (Ne.symm hlid)
    exact h.of_retains (View.filter_setLoop_other hkeys hl hkey hid hlid)
      (.inl (haddresses.others k.id (Ne.symm hlid))) ⟨hanswers, hbuckets, hopened⟩
      (fun hand hmem _ => .inl hmem) (there_of_lots hlots)

/-- A new command is accepted. -/
theorem accept {k' : Command} {u : Tracker} (h : b.Tallies k signs) (hmeets : b.MeetsDues k.id)
    (hreg : b.engine.tracker.register b.engine.now k' = .ok u) (hcommand : l.command = k')
    (hphase : l.phase = .created) (hkeeps : Channel.Keeps b.engine.channel d)
    (honce : AcceptsOnce k
      ⟨{ b.engine with tracker := u, channel := d }, b.loops ++ [l], b.hands⟩) :
    Tallies k signs ⟨{ b.engine with tracker := u, channel := d }, b.loops ++ [l], b.hands⟩ := by
  obtain ⟨-, hfind⟩ := Tracker.register_eq_ok hreg
  have hthere : there k.id ⟨{ b.engine with tracker := u, channel := d }, b.loops ++ [l], b.hands⟩ =
      there k.id b := there_of_lots (Channel.lots_keeps hkeeps k.id)
  by_cases hid : l.id = k.id
  · -- the command itself, of which nothing was seen before
    have hlast : (b.loops ++ [l]).filter (·.id == k.id) = b.loops.filter (·.id == k.id) ++ [l] := by
      simp [hid]
    have hfirst : b.loops.filter (·.id == k.id) = [] ∧ l.command = k := by
      obtain hnone | ⟨m, hm, hmk⟩ := honce.cases
      · rw [hlast] at hnone
        exact absurd hnone (by simp)
      · rw [hlast] at hm
        obtain ⟨hnil, hlm⟩ | ⟨-, hnil⟩ := List.append_eq_singleton_iff.1 hm
        · obtain rfl := List.singleton_inj.1 hlm
          exact ⟨hnil, hmk⟩
        · exact absurd hnil (by simp)
    obtain ⟨hunseen, rfl⟩ := hfirst
    subst hcommand
    obtain ⟨hanswers, hbuckets⟩ := h.unseen hunseen
    have hnew : u.find? l.id = some (Progress.new l.command b.engine.now) := by
      rw [hfind l.id]
      exact if_pos rfl
    refine ⟨fun hnone => ?_, fun m hm => ?_, fun hand hmem hhand => ?_, ?_⟩
    · rw [hlast] at hnone
      exact absurd hnone (by simp)
    · rw [hlast, hunseen, List.nil_append] at hm
      obtain rfl := List.singleton_inj.1 hm
      have hcreated : l.phase.Streams l.command [] (answersOf l.id signs)
          (bucketsOf l.id signs) := by
        rw [hphase]
        exact ⟨hanswers, rfl, hbuckets⟩
      exact .goesOn hcreated ⟨_, hnew, Progress.scrolls_new l.command b.engine.now⟩
    · exact absurd hhand (hmeets.ne_of_mem hunseen hmem)
    · rw [hthere, there, (hmeets.unseen hunseen).2, hbuckets]
      refine .new _ fun p hp => ?_
      obtain rfl := Option.some.inj (hnew.symm.trans hp)
      rfl
  · have hsame : u.find? k.id = b.engine.tracker.find? k.id := by
      rw [hfind k.id, if_neg]
      rw [← hcommand]
      exact Ne.symm hid
    rw [← List.append_nil signs]
    refine h.of_retains ?_ (.inl hsame) ⟨rfl, rfl, rfl⟩ (fun hand hmem _ => .inl hmem) hthere
    simp [hid]

/-- A scroll loop takes a step. -/
theorem resume (h : b.Tallies k signs) (hmeets : b.MeetsDues k.id) (hopen : b.engine.channel.IsOpen)
    (honce : b.AcceptsOnce k) (hkeys : (b.loops.map (·.key)).Nodup)
    (howned : l.phase.Owned l.id) (hl : l ∈ b.loops) (hrun : l.isEnded = false)
    (hsize : 0 < k.bucketSize)
    (hcalm : IsCalm k.id (l.sign? b.engine))
    (hfits : ∀ m ∈ View.setLoop b.loops (l.resume b.engine).1, m.id = k.id →
      m.phase.scrolled < wordCount) :
    Tallies k (signs ++ (l.sign? b.engine).toList)
      ⟨(l.resume b.engine).2, View.setLoop b.loops (l.resume b.engine).1, b.hands⟩ := by
  have hresumes := ScrollLoop.resumes_resume (e := b.engine) hrun
  obtain ⟨stock, hstock⟩ := l.exists_stock hrun
  have hacts := ScrollLoop.acts_resume (e := b.engine) howned hstock hrun
  refine h.scroll honce hkeys hl hacts.key hacts.command hresumes.addresses
    (l.openedOf_sign? b.engine k.id) ?_ ?_
  · rintro rfl hm
    have hanswer : answersOf l.command.id (l.sign? b.engine).toList =
        (l.answer? b.engine).toList := l.answersOf_sign? b.engine
    have hbucket : bucketsOf l.command.id (l.sign? b.engine).toList =
        (l.publishes? b.engine).toList := ScrollLoop.bucketsOf_sign? howned b.engine
    have hheard : ∀ err, l.answer? b.engine = some (.error err) → ∃ m, err = .scroll m := by
      intro err herr
      refine hcalm.scrolls err ?_
      rw [hanswer, herr]
      exact List.mem_singleton_self _
    have hfit := hfits _ (View.mem_setLoop_self hl hacts.key) (congrArg Command.id hacts.command)
    rw [answersOf_append, hanswer, bucketsOf_append, hbucket]
    obtain ⟨cs, hphases, hfound⟩ := (h.streams l hm).of_running hrun
    refine ⟨hresumes.streams hopen hsize hheard hfit hphases hfound, ?_⟩
    exact hresumes.worked howned hopen hsize hheard hfit hphases hfound (hmeets.dues l hm)
      (fun _ => allBegun_of_nil) (fun lot => hmeets.standing_ne) h.worked
  · intro hne
    obtain ⟨hanswers, hbuckets⟩ := ScrollLoop.sign?_other howned b.engine hne
    exact ⟨hanswers, hbuckets, Multiset.coe_eq_coe.2 (hacts.minds.lotsOf_other hne [])⟩

/-- A scroll loop waits for the place of its bucket. -/
theorem putOff {bucket : Bucket} {after : AfterBucket} (h : b.Tallies k signs)
    (honce : b.AcceptsOnce k) (hkeys : (b.loops.map (·.key)).Nodup) (hl : l ∈ b.loops)
    (hphase : l.phase = .publishing bucket after) (hkeeps : Channel.Keeps b.engine.channel d) :
    Tallies k signs ⟨{ b.engine with channel := d },
      View.setLoop b.loops { l with phase := .waiting bucket after }, b.hands⟩ := by
  have hlots : d.lots k.id = b.engine.channel.lots k.id := Channel.lots_keeps hkeeps k.id
  have hrun : l.isEnded = false := by rw [ScrollLoop.isEnded, hphase]
  have hscroll := h.scroll (s := ({ l with phase := .waiting bucket after },
    { b.engine with channel := d })) honce hkeys hl rfl rfl (.refl _ _)
    (show openedOf k.id [] = [] from rfl) ?_ fun _ => ⟨rfl, rfl, hlots⟩
  · rwa [List.append_nil] at hscroll
  · rintro rfl hm
    rw [List.append_nil]
    refine ⟨?_, ?_⟩
    · obtain ⟨cs, hphases, hfound⟩ := (h.streams l hm).of_running hrun
      rw [hphase] at hphases
      exact .goesOn hphases hfound
    · rw [there, lots, hlots]
      exact h.worked

/-- Something else happens to the engine. -/
theorem of_engine {f : Engine σ} (h : b.Tallies k signs)
    (hretains : Retains k.id b.engine.tracker f.tracker)
    (hkeeps : Channel.Keeps b.engine.channel f.channel)
    (hquiet : answersOf k.id new = [] ∧ bucketsOf k.id new = [] ∧ openedOf k.id new = []) :
    Tallies k (signs ++ new) ⟨f, b.loops, b.hands⟩ :=
  h.of_retains rfl hretains hquiet (fun _ hmem _ => .inl hmem)
    (there_of_lots (Channel.lots_keeps hkeeps k.id))

/-- Every deal keeps the tally, as long as the command is not cancelled and no receiver goes. -/
theorem deals (h : b.Tallies k signs) (hmeets : b.MeetsDues k.id) (hopen : b.engine.channel.IsOpen)
    (hkeys : (b.loops.map (·.key)).Nodup) (howned : ∀ l ∈ b.loops, l.phase.Owned l.id)
    (honce : b.AcceptsOnce k) (honce' : c.AcceptsOnce k) (hsize : 0 < k.bucketSize)
    (hdeal : Deals setup b sign c)
    (hcalm : IsCalm k.id sign)
    (hfits : ∀ l ∈ c.loops, l.id = k.id → l.phase.scrolled < wordCount) :
    c.Tallies k (signs ++ sign.toList) := by
  have hsame : Channel.Keeps b.engine.channel b.engine.channel := ⟨.refl _, rfl⟩
  cases hdeal with
  | @resume l hl hrun =>
    exact h.resume hmeets hopen honce hkeys (howned l hl) hl hrun hsize hcalm hfits
  | @putOff l r hl hr =>
    rw [Option.toList_none, List.append_nil]
    obtain rfl | ⟨bucket, after, d, hphase, hd, rfl⟩ := ScrollLoop.putOff?_eq_some hr
    · rwa [View.setLoop_self hkeys hl]
    · exact h.putOff honce hkeys hl hphase (Channel.keeps_reserve? hd)
  | @accept k₀ k' x u hprepare hreg =>
    rw [Option.toList_none, List.append_nil]
    exact h.accept hmeets hreg rfl rfl ⟨.refl _, rfl⟩ honce'
  | @abort other message isNew u hu =>
    obtain ⟨report, p, -, ht⟩ := Tracker.heeds_abortWith hu
    have hne : k.id ≠ other := by
      rintro rfl
      exact hcalm.stays isNew rfl
    exact h.of_engine (ht.retains hne) hsame ⟨rfl, rfl, rfl⟩
  | drop hu => exact h.of_engine (hu.retains k.id) hsame ⟨rfl, rfl, rfl⟩
  | release => exact h.of_engine (.refl _ _) ⟨.refl _, rfl⟩ ⟨rfl, rfl, rfl⟩
  | @close i hempty => exact absurd rfl (hcalm.receives i)
  | drift now world => exact h.of_engine (.refl _ _) hsame ⟨rfl, rfl, rfl⟩

/-- Whatever is done in a few grips without a sign keeps the tally. -/
theorem handles_chain (h : b.Tallies k signs) (hmeets : b.MeetsDues k.id) (hhomed : b.Homed)
    (hopen : b.engine.channel.IsOpen) (honce : b.AcceptsOnce k)
    (hloyal : ∃ registered, setup.actions.resolve k.action = .ok registered ∧
      registered.action.IsLoyal)
    (hchain : ReflTransGen (Handles setup · none ·) b c) :
    c.Tallies k signs ∧ c.engine.channel.IsOpen := by
  induction hchain with
  | refl => exact ⟨h, hopen⟩
  | @tail mid _ hchain hgrip ih =>
    obtain ⟨htallies, hmid⟩ := ih
    have hmid' := hhomed.handles_chain hchain
    have hnext := htallies.handles (hmeets.handles_chain hchain) hmid' hmid
      (honce.of_chain hchain) hloyal hgrip
    rw [Option.toList_none, List.append_nil] at hnext
    exact ⟨hnext, (hmid'.homes_handles hgrip).isOpen hmid⟩

/-- Every event keeps the tally, and leaves the receivers. -/
theorem turns (h : b.Tallies k signs) (hmeets : b.MeetsDues k.id) (hhomed : b.Homed)
    (hopen : b.engine.channel.IsOpen) (hkeys : (b.loops.map (·.key)).Nodup)
    (howned : ∀ l ∈ b.loops, l.phase.Owned l.id) (honce : b.AcceptsOnce k)
    (honce' : c.AcceptsOnce k)
    (hsize : 0 < k.bucketSize)
    (hloyal : ∃ registered, setup.actions.resolve k.action = .ok registered ∧
      registered.action.IsLoyal)
    (hturns : Turns setup b sign c)
    (hcalm : IsCalm k.id sign)
    (hfits : ∀ l ∈ c.loops, l.id = k.id → l.phase.scrolled < wordCount) :
    c.Tallies k (signs ++ sign.toList) ∧ c.engine.channel.IsOpen := by
  obtain hdeal | ⟨mid, hchain, hgrip⟩ := hturns
  · exact ⟨h.deals hmeets hopen hkeys howned honce honce' hsize hdeal hcalm hfits,
      (homes_deals hdeal hcalm.receives).isOpen hopen⟩
  · obtain ⟨htallies, hmid⟩ := h.handles_chain hmeets hhomed hopen honce hloyal hchain
    have hhomed' := hhomed.handles_chain hchain
    refine ⟨?_, (hhomed'.homes_handles hgrip).isOpen hmid⟩
    exact htallies.handles (hmeets.handles_chain hchain) hhomed' hmid (honce.of_chain hchain) hloyal
      hgrip

end Tallies

end Bench

end BulkRun
