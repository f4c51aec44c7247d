import BulkRun.Proofs.Dispatch.Concerns
/-!
# What is published was counted before

A scroll loop counts the records of a chunk before it turns to the first bucket that they fill, and
it publishes nothing else.  So at any time the records that were published, and those that the loop
has in stock, are no more than the tracker has counted (`Progress.Backs`), whatever becomes of the
command and however its scroll comes to an end.
-/

namespace BulkRun

open Tracker (Report Heeds Bides)

variable {σ : Type} {setup : Setup σ} {id : CommandId}

/-- What a loop has in stock; one that collapsed has nothing left. -/
def ScrollPhase.stock (phase : ScrollPhase) : Stock := phase.stock?.getD .empty

@[simp]
theorem ScrollPhase.stock_ended (how : ScrollEnd) : (ScrollPhase.ended how).stock = .empty := by
  cases how <;> rfl

theorem ScrollPhase.stock_of_offered? {phase : ScrollPhase} {b : Bucket} {after : AfterBucket}
    (h : phase.offered? = some (b, after)) :
    phase.stock = { after.stock with upcoming := b :: after.stock.upcoming } := by
  rcases cases_of_offered? h with rfl | rfl
  · rfl
  · rfl

namespace Progress

variable {p q : Progress} {published : Nat} {stock : Stock}

/-- Whether so many records that were published and those in stock were counted.  A loop that goes
on with its scroll knows what the count is. -/
structure Backs (published : Nat) (stock : Stock) (p : Progress) : Prop where
  covers : published + stock.owed ≤ p.scrollCount
  counted : ∀ n, stock.scrolled = some n → p.scrollCount = n
  fits : p.scrollCount < wordCount

theorem backs_new (k : Command) (now : Timestamp) :
    (Progress.new k now).Backs 0 (.gathering 0 0 0) where
  covers := Nat.le_refl 0
  counted _ hn := Option.some.inj hn
  fits := Nat.two_pow_pos 64

theorem Backs.congr (h : p.Backs published stock) (hcount : q.scrollCount = p.scrollCount) :
    q.Backs published stock := by
  constructor
  all_goals rw [hcount]
  · exact h.covers
  · exact h.counted
  · exact h.fits

/-- A loop that has returned has nothing in stock. -/
theorem Backs.empty (h : p.Backs published stock) : p.Backs published .empty where
  covers := Nat.le_trans (Nat.add_le_add_left (Nat.zero_le _) _) h.covers
  counted _ hn := absurd hn (by simp [Stock.empty])
  fits := h.fits

/-- What is published was in stock. -/
theorem Backs.publish {b : Bucket}
    (h : p.Backs published { stock with upcoming := b :: stock.upcoming }) :
    p.Backs (published + b.ids.length) stock where
  covers := by
    have hcovers := h.covers
    simp only [Stock.owed, List.map_cons, List.sum_cons] at hcovers ⊢
    omega
  counted := h.counted
  fits := h.fits

/-- What is pending is published as it is. -/
theorem Backs.flush {g : Gathering} {after : AfterBucket} (h : p.Backs published g.stock)
    (hafter : after.stock = ⟨[], 0, none, none, false⟩) :
    p.Backs published (ScrollPhase.publishing g.bucketizer.pendingBucket after).stock where
  covers := by
    have hcovers := h.covers
    rw [ScrollPhase.stock_of_offered? rfl, hafter]
    simpa [Gathering.stock, Stock.gathering, Stock.owed, Bucketizer.pendingBucket] using hcovers
  counted n hn := by
    rw [ScrollPhase.stock_of_offered? rfl, hafter] at hn
    exact absurd hn (by simp)
  fits := h.fits

/-- The records of a chunk are counted when they come. -/
theorem Backs.chunk {g : Gathering} (h : p.Backs published g.stock) (ids : List String)
    (cursor : Cursor) (exhausted : Bool) (hfits : g.scrolled + ids.length < wordCount)
    (now : Timestamp) : (p.heed now (.addScrolled ids.length)).Backs published
      (AfterBucket.goOn (g.bucketizer.push ids).1 exhausted
        ⟨cursor, (g.bucketizer.push ids).2, g.scrolled + ids.length⟩).stock := by
  have hbefore : p.scrollCount = g.scrolled := h.counted g.scrolled rfl
  have hafter : (p.heed now (.addScrolled ids.length)).scrollCount = g.scrolled + ids.length := by
    rw [← hbefore] at hfits ⊢
    exact Nat.mod_eq_of_lt hfits
  refine ⟨?_, fun n hn => hafter.trans (Option.some.inj hn), hafter ▸ hfits⟩
  have hcovers := h.covers
  rw [ScrollLoop.owed_push, hafter]
  omega

end Progress

/-- Whether so many records that were published of a command and those in stock were counted, if the
command is there. -/
def Tracker.Backs (t : Tracker) (id : CommandId) (published : Nat) (stock : Stock) : Prop :=
  ∀ p, t.find? id = some p → p.Backs published stock

theorem Tracker.Backs.bide {t u : Tracker} {published : Nat} {stock : Stock}
    (h : t.Backs id published stock) (hbides : Bides id t u) : u.Backs id published stock := by
  intro q hq
  obtain ⟨p, hp, hcount, -⟩ := hbides.exists_before hq
  exact (h p hp).congr hcount

/-! ## Steps of a loop -/

namespace ScrollLoop

variable {l : ScrollLoop σ} {e : Engine σ} {r : ScrollLoop σ × Engine σ} {report : Report}
  {how : ScrollEnd} {after : AfterBucket} {published : Nat} {stock : Stock}

theorem Returns.backs (h : Returns l e report how r) (hreport : report.isPlain = true)
    (hbacks : e.tracker.Backs l.id published stock) :
    r.2.tracker.Backs l.id published r.1.phase.stock := by
  cases h with
  | gone err hgone =>
    intro q hq
    rw [show e.tracker.find? l.id = some q from hq] at hgone
    exact absurd hgone (by simp)
  | @told p t ht =>
    intro q hq
    obtain rfl := Option.some.inj (ht.find?_self.symm.trans hq)
    show Progress.Backs published (ScrollPhase.ended how).stock _
    rw [ScrollPhase.stock_ended]
    exact (hbacks p ht.before).empty.congr (p.heed_plain hreport e.now).1

theorem GoesOn.backs (h : GoesOn l e after r)
    (hbacks : e.tracker.Backs l.id published after.stock) :
    r.2.tracker.Backs l.id published r.1.phase.stock := by
  cases h with
  | publish _ => exact hbacks
  | fetch _ => exact hbacks
  | stop _ => exact fun p hp => (hbacks p hp).empty
  | flush _ => exact fun p hp => (hbacks p hp).flush rfl
  | exhaust _ h => exact h.backs rfl hbacks
  | submit h => exact h.backs rfl hbacks
  | fail h => exact h.backs (isPlain_lastWord _) hbacks

/-- Every step counts what it takes in before it is published. -/
theorem Resumes.backs (h : Resumes l e r) (hfits : r.1.phase.scrolled < wordCount)
    (hbacks : e.tracker.Backs l.id published l.phase.stock) :
    r.2.tracker.Backs l.id (published + (recordsOf (l.publishes? e).toList).length)
      r.1.phase.stock := by
  have hquiet (h : l.phase.offered? = none) :
      published + (recordsOf (l.publishes? e).toList).length = published := by
    rw [publishes?_of_offered? h]
    rfl
  cases h with
  | @begin p t hphase ht =>
    rw [hquiet (by rw [hphase]; rfl)]
    rw [hphase] at hbacks
    intro q hq
    obtain rfl := Option.some.inj (ht.find?_self.symm.trans hq)
    exact (hbacks p ht.before).congr (p.heed_plain rfl e.now).1
  | gone err world hgone =>
    intro q hq
    rw [show e.tracker.find? l.id = some q from hq] at hgone
    exact absurd hgone (by simp)
  | collapse world hphase _ =>
    rw [hquiet (offered?_of_scrolling hphase)]
    exact fun p hp => (hbacks p hp).empty
  | refuse world hphase _ h =>
    rw [hquiet (by rw [hphase]; rfl)]
    exact h.backs (isPlain_lastWord _) hbacks
  | openUp world hphase _ _ h =>
    rw [hquiet (by rw [hphase]; rfl)]
    rw [hphase] at hbacks
    exact h.backs hbacks
  | @chunk g cursor c p t r world hphase _ ht h =>
    rw [hquiet (by rw [hphase]; rfl)]
    rw [h.scrolled ht.find?_self] at hfits
    rw [hphase] at hbacks
    refine h.backs fun q hq => ?_
    obtain rfl := Option.some.inj (ht.find?_self.symm.trans hq)
    exact (hbacks p ht.before).chunk c.ids cursor c.exhausted hfits e.now
  | breakOff world hphase _ _ =>
    rw [hquiet (by rw [hphase]; rfl)]
    rw [hphase] at hbacks
    exact fun p hp => (hbacks p hp).flush rfl
  | breakEmpty world hphase _ _ h =>
    rw [hquiet (by rw [hphase]; rfl)]
    exact h.backs (isPlain_lastWord _) hbacks
  | closed _ _ h =>
    -- had the bucket been taken, it would have been in stock
    cases hpublishes : l.publishes? e with
    | none => exact h.backs (isPlain_lastWord _) hbacks
    | some b =>
      obtain ⟨after, hoffered⟩ := offered?_of_publishes? hpublishes
      rw [ScrollPhase.stock_of_offered? hoffered] at hbacks
      rw [Option.toList_some, recordsOf_cons, recordsOf_nil, List.append_nil]
      exact h.backs (isPlain_lastWord _) fun p hp => (hbacks p hp).publish
  | enlist hphase hfull =>
    rw [(quiet_of_full hphase hfull).2]
    rw [hphase] at hbacks
    exact hbacks
  | wait hphase hfull =>
    rw [(quiet_of_kept hphase hfull).2]
    exact hbacks
  | @published b after d r hoffered hpublishes _ h =>
    rw [ScrollPhase.stock_of_offered? hoffered] at hbacks
    rw [hpublishes, Option.toList_some, recordsOf_cons, recordsOf_nil, List.append_nil]
    exact h.backs fun p hp => (hbacks p hp).publish

end ScrollLoop

/-! ## Events -/

namespace Bench

variable {b c : Bench σ} {sign : Option (Sign σ)} {published : List Bucket}

/-- Whether all that was published of a command, and all that its loop has in stock, was counted. -/
structure Backed (id : CommandId) (published : List Bucket) (b : Bench σ) : Prop where
  unseen : b.loops.filter (·.id == id) = [] → published = []
  backs : ∀ l, b.loops.filter (·.id == id) = [l] →
    b.engine.tracker.Backs id (recordsOf published).length l.phase.stock

/-- Every event keeps this. -/
theorem Backed.concerns (h : b.Backed id published) (hconcerns : Concerns id b sign c)
    (howned : ∀ l ∈ b.loops, l.phase.Owned l.id)
    (hfits : ∀ l ∈ c.loops, l.id = id → l.phase.scrolled < wordCount) :
    c.Backed id (published ++ bucketsOf id sign.toList) := by
  cases hconcerns with
  | @resume l hb hopen hsign hengine hc =>
    obtain ⟨hl, rfl⟩ := View.mem_of_filter_eq hb
    obtain ⟨hafter, hid⟩ := View.mem_of_filter_eq hc
    have hbacks := (ScrollLoop.resumes_resume hopen).backs (hfits _ hafter hid) (h.backs l hb)
    refine ⟨fun hunseen => ?_, fun m hm => ?_⟩
    · rw [hunseen] at hc
      exact absurd hc (by simp)
    · obtain rfl := List.singleton_inj.1 (hc.symm.trans hm)
      rw [hsign, hengine, ScrollLoop.bucketsOf_sign? (howned l hl), recordsOf_append,
        List.length_append]
      exact hbacks
  | @putOff l r hb hr hsign hengine hc =>
    rw [hsign]
    show c.Backed id (published ++ [])
    rw [List.append_nil]
    refine ⟨fun hunseen => ?_, fun m hm => ?_⟩
    · rw [hunseen] at hc
      exact absurd hc (by simp)
    · obtain rfl := List.singleton_inj.1 (hc.symm.trans hm)
      have hbacks := h.backs l hb
      rw [hengine]
      obtain rfl | ⟨k, after, d, hphase, -, rfl⟩ := ScrollLoop.putOff?_eq_some hr
      · exact hbacks
      · rw [hphase] at hbacks
        exact hbacks
  | @accept l hb hphase hreg hsign hc =>
    obtain rfl := h.unseen hb
    obtain ⟨-, hid⟩ := View.mem_of_filter_eq hc
    rw [hsign]
    refine ⟨fun _ => rfl, fun m hm p hp => ?_⟩
    obtain rfl := List.singleton_inj.1 (hc.symm.trans hm)
    rw [(Tracker.register_eq_ok hreg).2 id, if_pos (show id = l.command.id from hid.symm)]
      at hp
    obtain rfl := Option.some.inj hp
    rw [hphase]
    exact Progress.backs_new _ _
  | aside hloops hbides hquiet =>
    rw [hquiet.2, List.append_nil]
    refine ⟨fun hunseen => h.unseen (hloops.symm.trans hunseen), fun l hl => ?_⟩
    exact (h.backs l (hloops.symm.trans hl)).bide hbides

end Bench

namespace Workshop

variable {s s₀ t : Workshop σ} {moves : List (Move (Workshop σ) (Event σ))}

theorem IsNew.backed (h : s.IsNew) (id : CommandId) : s.bench.Backed id [] where
  unseen _ := rfl
  backs l hl := by
    rw [bench, h.loops] at hl
    exact absurd hl (by simp)

/-- All that is published in a run was counted. -/
theorem IsNew.backed_of_run (hnew : s₀.IsNew) (hrun : Run (next? setup) s₀ moves s)
    (honce : (s.system.loops.filter (·.id == id)).length ≤ 1)
    (hfits : ∀ m ∈ moves, ∀ l ∈ m.after.system.loops, l.id = id → l.phase.scrolled < wordCount) :
    s.bench.Backed id (bucketsOf id (signs moves)) := by
  induction hrun with
  | start => exact hnew.backed id
  | @move moves s t event hrun hnext ih =>
    have hsound := sound_of_run hrun hnew.sound
    have hle := length_loops_of_run (.move event .start hnext) hsound id
    have hbacked := ih (hle.trans honce) fun m hm => hfits m (List.mem_append_left _ hm)
    rw [signs_concat, bucketsOf_append]
    exact hbacked.concerns (concerns_next? hsound hnext honce) hsound.owned
      (hfits ⟨s, event, t⟩ (by simp))

end Workshop

end BulkRun
