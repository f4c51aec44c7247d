import BulkRun.Proofs.Channel.Traffic
import BulkRun.Proofs.Dispatch.Dues
/-!
# Scroll loops and the dues of a command

Every step of a scroll loop leaves the dues of its command covered: what it scrolls it counts before
it is to be published, and it returns with nothing left to publish, or with its command aborted.
-/

namespace BulkRun

open Tracker (Report Heeds)

variable {σ : Type}

/-- The number of records that a loop has yet to publish. -/
def ScrollPhase.owed (phase : ScrollPhase) : Nat := (phase.stock?.map Stock.owed).getD 0

theorem ScrollPhase.owed_ended (how : ScrollEnd) : (ScrollPhase.ended how).owed = 0 := by
  cases how <;> rfl

theorem ScrollPhase.owed_of_offered? {phase : ScrollPhase} {b : Bucket} {after : AfterBucket}
    (h : phase.offered? = some (b, after)) : phase.owed = b.ids.length + after.stock.owed := by
  have howed : Stock.owed { after.stock with upcoming := b :: after.stock.upcoming } =
      b.ids.length + after.stock.owed := by
    simp only [Stock.owed, List.map_cons, List.sum_cons]
    omega
  rcases cases_of_offered? h with rfl | rfl
  · exact howed
  · exact howed

namespace Channel

variable {c d : Channel} {b : Bucket} {id : CommandId}

/-- The buckets of a command that are in the channel. -/
def lots (c : Channel) (id : CommandId) : Multiset Lot := lotsOf id c []

theorem lots_keeps (h : Keeps c d) (id : CommandId) : d.lots id = c.lots id :=
  Multiset.coe_eq_coe.2 (lotsOf_perm id h.buckets (.refl []))

theorem lots_takes (h : Takes c d b) (hb : b.commandId = id) :
    d.lots id = .lying b ::ₘ c.lots id :=
  Multiset.coe_eq_coe.2 (lotsOf_take h hb)

theorem lots_takes_other (h : Takes c d b) (hb : b.commandId ≠ id) : d.lots id = c.lots id := by
  have hlots : (lotsOf id d []).Perm (lotsOf id c [.lying b]) := lotsOf_handBack h
  rw [lotsOf_held_other hb] at hlots
  exact Multiset.coe_eq_coe.2 hlots

end Channel

namespace ScrollLoop

variable {l : ScrollLoop σ} {e : Engine σ} {r : ScrollLoop σ × Engine σ} {report : Report}
  {how : ScrollEnd} {after : AfterBucket} {owed : Nat} {lots : Multiset Lot}

/-- What a loop tells when it returns counts nothing. -/
theorem isPlain_lastWord (err : Error) : (lastWord err).isPlain = true := by
  obtain ⟨-, m, h⟩ | ⟨m, h⟩ := lastWord_cases err
  · rw [h]
    rfl
  · rw [h]
    rfl

theorem Returns.dues (h : Returns l e report how r) (hreport : report.isPlain = true)
    (hdues : Dues owed (e.tracker.find? l.id) lots) :
    Dues r.1.phase.owed (r.2.tracker.find? l.id) lots := by
  cases h with
  | gone err hgone =>
    show Dues _ (e.tracker.find? l.id) lots
    rw [hgone]
    exact .gone _ _
  | @told p t ht =>
    show Dues (ScrollPhase.ended how).owed (t.find? l.id) lots
    rw [ht.before] at hdues
    rw [ht.find?_self, ScrollPhase.owed_ended]
    exact (hdues.heed_plain hreport).spend (Nat.zero_le _)

/-- What a loop does that returns leaves the buckets in the channel. -/
theorem Returns.channel (h : Returns l e report how r) (id : CommandId) :
    r.2.channel.lots id = e.channel.lots id := by
  cases h with
  | gone => rfl
  | told => rfl

theorem GoesOn.channel (h : GoesOn l e after r) (id : CommandId) :
    r.2.channel.lots id = e.channel.lots id := by
  cases h with
  | exhaust _ h => exact h.channel id
  | submit h => exact h.channel id
  | fail h => exact h.channel id
  | _ => rfl

theorem GoesOn.dues (h : GoesOn l e after r)
    (hdues : Dues after.stock.owed (e.tracker.find? l.id) lots) :
    Dues r.1.phase.owed (r.2.tracker.find? l.id) lots := by
  cases h with
  | publish _ => exact hdues
  | fetch _ => exact hdues
  | stop _ =>
    rw [ScrollLoop.stop, finish, ScrollPhase.owed_ended]
    exact hdues.spend (Nat.zero_le _)
  | @flush g _ =>
    rw [ScrollLoop.publish, ScrollPhase.owed_of_offered? rfl]
    refine hdues.spend (Nat.le_of_eq ?_)
    simp [AfterBucket.stock, Stock.owed, Bucketizer.pendingBucket]
  | exhaust _ h => exact h.dues rfl hdues
  | submit h => exact h.dues rfl hdues
  | fail h => exact h.dues (isPlain_lastWord _) hdues

/-- A loop whose command is there tells how much it has scrolled as it goes on. -/
theorem GoesOn.scrolled {full : List Bucket} {exhausted : Bool} {g : Gathering} {p : Progress}
    (h : GoesOn l e (.goOn full exhausted g) r) (hfound : e.tracker.find? l.id = some p) :
    r.1.phase.scrolled = g.scrolled := by
  cases h with
  | exhaust _ h =>
    cases h with
    | gone err hgone =>
      rw [hfound] at hgone
      exact absurd hgone (by simp)
    | told _ => rfl
  | _ => rfl

/-- The stock of a chunk that was just counted is what was loose and what is new. -/
theorem owed_push (g : Gathering) (cursor : Cursor) (ids : List String) (exhausted : Bool)
    (scrolled : Nat) :
    (AfterBucket.goOn (g.bucketizer.push ids).1 exhausted
      ⟨cursor, (g.bucketizer.push ids).2, scrolled⟩).stock.owed = g.stock.owed + ids.length := by
  have hlength := g.bucketizer.length_push ids
  simp only [AfterBucket.stock, Gathering.stock, Stock.gathering, Stock.owed, List.map_nil,
    List.sum_nil]
  omega

/-- A chunk that is counted is to be published. -/
theorem dues_chunk {g : Gathering} {c : Chunk} {p : Progress} {t : Tracker}
    (hphase : l.phase = .fetching g)
    (ht : Heeds e.tracker e.now l.id (.addScrolled c.ids.length) p t)
    (hcount : p.state.isTerminal = false → p.scrollCount = g.scrolled)
    (hfits : g.scrolled + c.ids.length < wordCount)
    (hdues : Dues l.phase.owed (e.tracker.find? l.id) lots) (cursor : Cursor) (exhausted : Bool) :
    Dues (AfterBucket.goOn (g.bucketizer.push c.ids).1 exhausted
      ⟨cursor, (g.bucketizer.push c.ids).2, g.scrolled + c.ids.length⟩).stock.owed
      (t.find? l.id) lots := by
  rw [hphase, ht.before] at hdues
  rw [owed_push, ht.find?_self]
  refine hdues.addScrolled fun hopen => ?_
  rw [hcount hopen]
  exact hfits

theorem takes_of_published {c d : Channel} {b : Bucket} {key : PublisherKey}
    (h : c.offer b = .ok (some d) ∨ c.claim key b = .ok (some d)) : Channel.Takes c d b := by
  obtain h | h := h
  · obtain ⟨p, hp, -, rfl⟩ := Channel.offer_eq_some h
    exact Channel.takes_accept hp p.buckets_enqueue
  · obtain ⟨p, q, hp, hq, rfl⟩ := Channel.claim_eq_some h
    exact Channel.takes_accept hp (Partition.buckets_fillGranted? hq)

theorem commandId_of_offered? {b : Bucket} (howned : l.phase.Owned l.id)
    (h : l.phase.offered? = some (b, after)) : b.commandId = l.id := by
  rcases ScrollPhase.cases_of_offered? h with hphase | hphase
  · rw [hphase] at howned
    exact howned.1
  · rw [hphase] at howned
    exact howned.1

theorem Resumes.dues {held : Multiset Lot} (h : Resumes l e r) (howned : l.phase.Owned l.id)
    (hcount : ∀ g p, l.phase = .fetching g → e.tracker.find? l.id = some p →
      p.state.isTerminal = false → p.scrollCount = g.scrolled)
    (hfits : r.1.phase.scrolled < wordCount)
    (hdues : Dues l.phase.owed (e.tracker.find? l.id) (e.channel.lots l.id + held)) :
    Dues r.1.phase.owed (r.2.tracker.find? l.id) (r.2.channel.lots l.id + held) := by
  cases h with
  | @begin p t hphase ht =>
    rw [hphase, ht.before] at hdues
    show Dues _ (t.find? l.id) _
    rw [ht.find?_self]
    exact hdues.heed_plain rfl
  | gone err world hgone =>
    show Dues _ (e.tracker.find? l.id) _
    rw [hgone]
    exact .gone _ _
  | collapse world _ _ =>
    rw [ScrollLoop.collapse, finish, ScrollPhase.owed_ended]
    exact hdues.spend (Nat.zero_le _)
  | refuse world _ _ h =>
    rw [h.channel]
    exact h.dues (isPlain_lastWord _) hdues
  | openUp world hphase _ _ h =>
    rw [hphase] at hdues
    rw [h.channel]
    exact h.dues hdues
  | @chunk g cursor c p t r world hphase _ ht h =>
    rw [h.scrolled ht.find?_self] at hfits
    rw [h.channel]
    exact h.dues (dues_chunk hphase ht (hcount g p hphase ht.before) hfits hdues cursor c.exhausted)
  | @breakOff g err world hphase _ _ =>
    rw [hphase] at hdues
    rw [ScrollLoop.publish, ScrollPhase.owed_of_offered? rfl]
    refine hdues.spend (Nat.le_of_eq ?_)
    simp [AfterBucket.stock, Stock.owed, Bucketizer.pendingBucket, ScrollPhase.owed,
      ScrollPhase.stock?, Gathering.stock, Stock.gathering]
  | breakEmpty world _ _ _ h =>
    rw [h.channel]
    exact h.dues (isPlain_lastWord _) hdues
  | closed _ _ h =>
    rw [h.channel]
    exact h.dues (isPlain_lastWord _) hdues
  | @enlist b after hphase _ =>
    rw [hphase] at hdues
    rw [Channel.lots_keeps (e.channel.keeps_enlist l.key b)]
    exact hdues
  | wait => exact hdues
  | @published b after d r hphase _ hd h =>
    have htakes : Channel.Takes e.channel d b := takes_of_published hd
    rw [ScrollPhase.owed_of_offered? hphase] at hdues
    rw [h.channel, Channel.lots_takes htakes (commandId_of_offered? howned hphase),
      Multiset.cons_add]
    exact h.dues hdues.publish

/-- A loop that puts off its step has as much to publish as before. -/
theorem dues_putOff? {held : Multiset Lot} (h : l.putOff? e = some r)
    (hdues : Dues l.phase.owed (e.tracker.find? l.id) (e.channel.lots l.id + held)) :
    Dues r.1.phase.owed (r.2.tracker.find? l.id) (r.2.channel.lots l.id + held) := by
  obtain rfl | ⟨b, after, d, hphase, hd, rfl⟩ := putOff?_eq_some h
  · exact hdues
  · rw [hphase] at hdues
    rw [Channel.lots_keeps (Channel.keeps_reserve? hd)]
    exact hdues

end ScrollLoop

end BulkRun
