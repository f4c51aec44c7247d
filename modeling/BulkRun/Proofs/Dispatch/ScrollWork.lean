import BulkRun.Proofs.Dispatch.Streams
import BulkRun.Proofs.Dispatch.WorkedOff
/-!
# Scroll loops and what is worked off

A scroll loop publishes buckets only while its command goes on, and what it tells when it returns
ends the command only if all that it published is worked off (`Resumes.worked`).
-/

namespace BulkRun

open Tracker (Report Heeds)

namespace ScrollLoop

variable {σ : Type} {l : ScrollLoop σ} {e : Engine σ} {r : ScrollLoop σ × Engine σ}
  {report : Report}
  {how : ScrollEnd} {after : AfterBucket} {k : Command} {cs : List Chunk}
  {heard : List (Except Error Chunk)} {published : List Bucket} {begun : Bucket → Prop}
  {owed : Nat} {lots : Multiset Lot}

theorem Returns.worked (h : Returns l e report how r) (hplain : report.isPlain = true)
    (hreport : report.isAbort = false) (hdues : Dues owed (e.tracker.find? l.id) lots)
    (hnil : ∀ b : Bucket, b.ids = [] → begun b) (hworking : ∀ lot ∈ lots, lot.standing ≠ .working 0)
    (hworked : WorkedOff begun published (lots.map (·.bucket)) (e.tracker.find? l.id)) :
    WorkedOff begun published (lots.map (·.bucket)) (r.2.tracker.find? l.id) := by
  cases h with
  | gone => exact hworked
  | @told p t ht =>
    show WorkedOff begun published _ (t.find? l.id)
    rw [ht.before] at hdues hworked
    rw [ht.find?_self]
    exact hworked.tell hplain hreport hdues hnil hworking

/-- The failure of a scroll does not end its command at once. -/
theorem isAbort_lastWord (m : String) : (lastWord (.scroll m)).isAbort = false := rfl

theorem GoesOn.worked (h : GoesOn l e after r) (hafter : after.Streams k cs heard published)
    (hdues : Dues after.stock.owed (e.tracker.find? l.id) lots)
    (hnil : ∀ b : Bucket, b.ids = [] → begun b) (hworking : ∀ lot ∈ lots, lot.standing ≠ .working 0)
    (hworked : WorkedOff begun published (lots.map (·.bucket)) (e.tracker.find? l.id)) :
    WorkedOff begun published (lots.map (·.bucket)) (r.2.tracker.find? l.id) := by
  cases h with
  | exhaust _ h => exact h.worked rfl rfl hdues hnil hworking hworked
  | submit h => exact h.worked rfl rfl hdues hnil hworking hworked
  | fail h =>
    obtain ⟨⟨m, rfl⟩, -⟩ := hafter
    exact h.worked (isPlain_lastWord _) (isAbort_lastWord m) hdues hnil hworking hworked
  | _ => exact hworked

/-- Every step of a loop leaves what it published to be worked off. -/
theorem Resumes.worked {held : Multiset Lot} (h : Resumes l e r) (howned : l.phase.Owned l.id)
    (hopen : e.channel.IsOpen) (hsize : 0 < l.command.bucketSize)
    (hfair : ∀ err, l.answer? e = some (.error err) → ∃ m, err = .scroll m)
    (hfits : r.1.phase.scrolled < wordCount)
    (hphases : l.phase.Streams l.command cs heard published)
    (hfound : Counts l.command cs (e.tracker.find? l.id))
    (hdues : Dues l.phase.owed (e.tracker.find? l.id) (e.channel.lots l.id + held))
    (hnil : ∀ b : Bucket, b.ids = [] → begun b)
    (hworking : ∀ lot ∈ e.channel.lots l.id + held, lot.standing ≠ .working 0)
    (hworked : WorkedOff begun published ((e.channel.lots l.id + held).map (·.bucket))
      (e.tracker.find? l.id)) :
    WorkedOff begun (published ++ (l.publishes? e).toList)
      ((r.2.channel.lots l.id + held).map (·.bucket)) (r.2.tracker.find? l.id) := by
  have hquiet (h : l.phase.offered? = none) : published ++ (l.publishes? e).toList = published := by
    rw [publishes?_of_offered? h, Option.toList_none, List.append_nil]
  cases h with
  | @begin p t hphase ht =>
    rw [hquiet (by rw [hphase]; rfl)]
    show WorkedOff begun published _ (t.find? l.id)
    rw [ht.before] at hdues hworked
    rw [ht.find?_self]
    exact hworked.tell rfl rfl hdues hnil hworking
  | gone err world hgone => exact absurd hgone hfound.ne_none
  | collapse world hphase _ =>
    rw [hquiet (offered?_of_scrolling hphase)]
    exact hworked
  | @refuse err r world hphase hanswer h =>
    rw [hquiet (by rw [hphase]; rfl), h.channel]
    obtain hanswer | ⟨-, hzero⟩ := hanswer
    · obtain ⟨m, rfl⟩ := hfair err hanswer
      exact h.worked (isPlain_lastWord _) (isAbort_lastWord m) hdues hnil hworking hworked
    · omega
  | @openUp cursor r world hphase _ _ h =>
    rw [hquiet (by rw [hphase]; rfl), h.channel]
    rw [hphase] at hdues
    obtain ⟨-, -, rfl⟩ := streams_of_opening hphase hphases
    have hgathers := Gathering.streams_new l.command cursor
    exact h.worked ⟨rfl, hgathers⟩ hdues hnil hworking hworked
  | @chunk g cursor c p t r world hphase _ ht h =>
    obtain ⟨hheard, hgathers⟩ := streams_of_fetching hphase hphases
    obtain ⟨p₀, hp₀, hscrolls⟩ := hfound
    obtain rfl := Option.some.inj (hp₀.symm.trans ht.before)
    rw [h.scrolled ht.find?_self] at hfits
    rw [hquiet (by rw [hphase]; rfl), h.channel]
    have hcount : p₀.scrollCount = g.scrolled := hscrolls.count.trans hgathers.scrolled.symm
    have hcounted := dues_chunk hphase ht (fun _ => hcount) hfits hdues cursor c.exhausted
    refine h.worked ⟨rfl, hgathers.push hsize c cursor⟩ hcounted hnil hworking ?_
    show WorkedOff begun published _ (t.find? l.id)
    rw [ht.before] at hworked
    rw [ht.find?_self]
    -- to be counted does not end a command
    refine hworked.heed rfl fun hgoesOn hended => ?_
    rw [show (p₀.heed e.now (.addScrolled c.ids.length)).state = p₀.state from rfl, hgoesOn]
      at hended
    exact absurd hended (by simp)
  | breakOff world hphase =>
    rw [hquiet (by rw [hphase]; rfl)]
    exact hworked
  | @breakEmpty g err r world hphase hanswer _ h =>
    rw [hquiet (by rw [hphase]; rfl), h.channel]
    obtain ⟨m, rfl⟩ := hfair err hanswer
    exact h.worked (isPlain_lastWord _) (isAbort_lastWord m) hdues hnil hworking hworked
  | closed _ hclosed _ => exact absurd hclosed (hopen.receives _).not_refused
  | @enlist b after hphase hfull =>
    rw [(quiet_of_full hphase hfull).2, Option.toList_none, List.append_nil,
      Channel.lots_keeps (e.channel.keeps_enlist l.key b)]
    exact hworked
  | wait hphase hfull =>
    rw [(quiet_of_kept hphase hfull).2, Option.toList_none, List.append_nil]
    exact hworked
  | @published b after d r hoffered hpublishes hd h =>
    have htakes : Channel.Takes e.channel d b := takes_of_published hd
    have hafter := streams_of_offered? hoffered hphases
    rw [ScrollPhase.owed_of_offered? hoffered] at hdues
    rw [hpublishes, h.channel,
      Channel.lots_takes htakes (commandId_of_offered? howned hoffered), Multiset.cons_add]
    refine h.worked hafter hdues.publish hnil ?_ ?_
    · exact Multiset.forall_mem_cons.2 ⟨by simp [Lot.lying], hworking⟩
    · rw [Multiset.map_cons]
      show WorkedOff begun (published ++ [b]) _ (e.tracker.find? l.id)
      obtain ⟨p₀, hp₀, hscrolls⟩ := hfound
      rw [hp₀] at hworked ⊢
      exact hworked.publish hscrolls.goesOn hafter.nodup

end ScrollLoop

end BulkRun
