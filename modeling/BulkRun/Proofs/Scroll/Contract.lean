import BulkRun.Proofs.Dispatch.ScrollFlow
import BulkRun.Proofs.Run
/-!
# The contract of cursors

A cursor may be asked for chunks of any size, and its source may answer as it likes: with pages that
are longer or shorter than asked for, empty, or not at all.  What a call gathers is taken from the
front of what was buffered and received (`Gathers`); a call for which no room can be set aside is
the end of its caller.  Main statement: every chunk obeys the rules of scrolling, no call asks the
source more often than it wants records, and of all that was received nothing is repeated, left out
or put in another order.
-/

namespace BulkRun

namespace Cursor

variable {σ : Type}

/-- What a source answers when it is asked for a page. -/
abbrev Answer : Type := Except SourceError Page

/-- The records of the pages among some answers, in the order of their coming. -/
def received (answers : List Answer) : List String :=
  answers.flatMap fun answer => match answer with
    | .ok page => page.ids
    | .error _ => []

theorem received_append (front rear : List Answer) :
    received (front ++ rear) = received front ++ received rear :=
  List.flatMap_append

theorem received_page (ids : List String) (next : Option String) :
    received [.ok ⟨ids, next⟩] = ids := by
  simp [received]

/-- The same source, which notes its answers. -/
def noted (fetch : Fetch σ) : Fetch (σ × List Answer) := fun position size memory =>
  let answered := fetch position size memory.1
  (answered.1, answered.2, memory.2 ++ [answered.1])

/-! ## What is read from the source -/

section Pull

variable {fetch : Fetch σ} {need : Nat} {c : Cursor} {s s' : σ}

theorem pull_of_error {e : SourceError} (hneed : need ≠ 0)
    (hfetch : fetch c.position need s = (.error e, s')) :
    pull fetch need c s = (.error e, c, s') := by
  rw [pull, dif_neg hneed, hfetch]

theorem pull_of_emptyPage {next : String} (hneed : need ≠ 0)
    (hfetch : fetch c.position need s = (.ok ⟨[], some next⟩, s')) :
    pull fetch need c s = (.error c.emptyPage, c, s') := by
  rw [pull, dif_neg hneed, hfetch]

theorem pull_of_lastPage {ids : List String} (hneed : need ≠ 0) (hbuffered : c.buffered = [])
    (hfetch : fetch c.position need s = (.ok ⟨ids, none⟩, s')) :
    pull fetch need c s = (.ok (ids.take need),
      { c with position := none, sourceDone := true, buffered := ids.drop need }, s') := by
  rw [pull, dif_neg hneed, hfetch]
  cases ids with
  | nil => simp [hbuffered]
  | cons id rest => simp

/-- The cursor behind a page that was read for so many records. -/
def behind (c : Cursor) (need : Nat) (ids : List String) (next : String) : Cursor :=
  { c with position := some next, sourceDone := false, buffered := ids.drop need }

theorem pull_of_page {ids : List String} {next : String} (hneed : need ≠ 0) (hids : ids ≠ [])
    (hfetch : fetch c.position need s = (.ok ⟨ids, some next⟩, s')) :
    pull fetch need c s =
      ((pull fetch (need - (ids.take need).length) (c.behind need ids next) s').1.map
          (ids.take need ++ ·),
        (pull fetch (need - (ids.take need).length) (c.behind need ids next) s').2) := by
  rw [pull, dif_neg hneed, hfetch]
  cases ids with
  | nil => exact absurd rfl hids
  | cons id rest =>
    simp only [Option.isNone_some, Bool.false_eq_true, if_false]
    unfold behind
    generalize pull fetch _ _ s' = r
    obtain ⟨answer, c', s''⟩ := r
    cases answer <;> rfl

/-- The cursor without the buffered records that are handed out first. -/
def unbuffer (c : Cursor) (need : Nat) : Cursor := { c with buffered := c.buffered.drop need }

theorem gather_of_done (hdone : c.sourceDone = true) :
    gather fetch need c s = (.ok (c.buffered.take need), c.unbuffer need, s) := by
  unfold gather
  exact if_pos hdone

theorem gather_of_open (hopen : c.sourceDone = false) :
    gather fetch need c s =
      ((pull fetch (need - (c.buffered.take need).length) (c.unbuffer need) s).1.map
          (c.buffered.take need ++ ·),
        (pull fetch (need - (c.buffered.take need).length) (c.unbuffer need) s).2) := by
  unfold gather unbuffer
  simp only [hopen, Bool.false_eq_true, if_false]
  generalize pull fetch _ _ s = r
  obtain ⟨answer, c', s'⟩ := r
  cases answer <;> rfl

end Pull

/-- What comes of gathering some records, with what the source answered meanwhile: the records at
the front of what was buffered and received, as many as were wanted unless there is no further page,
or an error that leaves nothing of fewer than that. -/
structure Gathers (need : Nat) (c : Cursor) (answers : List Answer)
    (result : Except SourceError (List String)) (c' : Cursor) : Prop where
  same : c'.command = c.command ∧ c'.produced = c.produced ∧ c'.exhausted = c.exhausted
  asks_le : answers.length ≤ need
  ok : ∀ ids, result = .ok ids → c.buffered ++ received answers = ids ++ c'.buffered ∧
    ids.length ≤ need ∧ (ids.length < need → c'.sourceDone = true ∧ c'.buffered = [])
  error : ∀ e, result = .error e → (c.buffered ++ received answers).length < need ∧
    c'.sourceDone = false ∧ c'.buffered = []

namespace Gathers

variable {need : Nat} {c c' : Cursor}

/-- Nothing is gathered when nothing is wanted, or when there is nothing. -/
theorem nothing (hnone : need = 0 ∨ c.sourceDone = true ∧ c.buffered = []) :
    Gathers need c [] (.ok []) c where
  same := ⟨rfl, rfl, rfl⟩
  asks_le := Nat.zero_le need
  ok := by
    rintro ids ⟨⟩
    refine ⟨List.append_nil _, Nat.zero_le need, fun hneed => ?_⟩
    exact hnone.resolve_left (Nat.ne_of_gt hneed)
  error := nofun

theorem failed {answer : Answer} (hneed : need ≠ 0) (hopen : c.sourceDone = false)
    (hbuffered : c.buffered = []) (hanswer : received [answer] = []) (e : SourceError) :
    Gathers need c [answer] (.error e) c where
  same := ⟨rfl, rfl, rfl⟩
  asks_le := Nat.pos_of_ne_zero hneed
  ok := nofun
  error _ _ := by
    rw [hbuffered, hanswer]
    exact ⟨Nat.pos_of_ne_zero hneed, hopen, rfl⟩

/-- Some records are taken first, for which the source need not be asked more often than there are
of them; the others are gathered behind them. -/
theorem prepend (c₁ : Cursor) {front : List String} (answers : List Answer) {later : List Answer}
    {result : Except SourceError (List String)}
    (hsame : c₁.command = c.command ∧ c₁.produced = c.produced ∧ c₁.exhausted = c.exhausted)
    (htaken : c.buffered ++ received answers = front ++ c₁.buffered)
    (hle : front.length ≤ need) (hasks : answers.length ≤ front.length)
    (h : Gathers (need - front.length) c₁ later result c') :
    Gathers need c (answers ++ later) (result.map (front ++ ·)) c' where
  same :=
    ⟨h.same.1.trans hsame.1, h.same.2.1.trans hsame.2.1, h.same.2.2.trans hsame.2.2⟩
  asks_le := by
    have := h.asks_le
    rw [List.length_append]
    omega
  ok found hfound := by
    obtain ⟨rest, rfl, rfl⟩ : ∃ rest, result = .ok rest ∧ front ++ rest = found := by
      cases result with
      | error e => exact absurd hfound nofun
      | ok rest => exact ⟨rest, rfl, Except.ok.inj hfound⟩
    obtain ⟨hall, hrest, hshort⟩ := h.ok rest rfl
    rw [received_append, ← List.append_assoc, htaken, List.append_assoc, hall, List.append_assoc,
      List.length_append]
    exact ⟨rfl, by omega, fun h => hshort (by omega)⟩
  error e he := by
    obtain ⟨e', rfl⟩ : ∃ e', result = .error e' := by
      cases result with
      | error e' => exact ⟨e', rfl⟩
      | ok rest => exact absurd he nofun
    obtain ⟨hfew, hclean⟩ := h.error e' rfl
    rw [received_append, ← List.append_assoc, htaken, List.append_assoc, List.length_append]
    exact ⟨by omega, hclean⟩

theorem lastPage (hneed : need ≠ 0) (hbuffered : c.buffered = []) (ids : List String) :
    Gathers need c [.ok ⟨ids, none⟩] (.ok (ids.take need))
      { c with position := none, sourceDone := true, buffered := ids.drop need } where
  same := ⟨rfl, rfl, rfl⟩
  asks_le := Nat.pos_of_ne_zero hneed
  ok := by
    rintro found ⟨⟩
    rw [hbuffered, received_page, List.nil_append, List.take_append_drop]
    refine ⟨rfl, List.length_take_le _ _, fun hshort => ⟨rfl, ?_⟩⟩
    rw [List.length_take] at hshort
    exact List.drop_eq_nil_of_le (by omega)
  error := nofun

/-- The front of a page is taken, and what is missing is gathered behind it. -/
theorem page {ids : List String} {next : String} {later : List Answer}
    {result : Except SourceError (List String)} (hneed : need ≠ 0) (hbuffered : c.buffered = [])
    (hids : ids ≠ [])
    (h : Gathers (need - (ids.take need).length) (c.behind need ids next) later result c') :
    Gathers need c (.ok ⟨ids, some next⟩ :: later) (result.map (ids.take need ++ ·)) c' := by
  refine prepend (c.behind need ids next) [.ok ⟨ids, some next⟩] ⟨rfl, rfl, rfl⟩ ?_
    (List.length_take_le _ _) ?_ h
  · rw [hbuffered, received_page, List.nil_append]
    exact (List.take_append_drop need ids).symm
  · have hpos := List.length_pos_iff.2 hids
    rw [List.length_take, List.length_singleton]
    omega

/-- The buffered records are taken first, and what is missing is gathered behind them. -/
theorem buffered {later : List Answer} {result : Except SourceError (List String)}
    (h : Gathers (need - (c.buffered.take need).length) (c.unbuffer need) later result c') :
    Gathers need c later (result.map (c.buffered.take need ++ ·)) c' := by
  refine prepend (c.unbuffer need) [] ⟨rfl, rfl, rfl⟩ ?_
    (List.length_take_le _ _) (Nat.zero_le _) h
  exact (List.append_nil _).trans (List.take_append_drop need c.buffered).symm

end Gathers

/-- A source that notes its answers is read like the source itself, and what is read is gathered. -/
theorem pull_noted (fetch : Fetch σ) (need : Nat) (c : Cursor) (s : σ) (before : List Answer)
    (hopen : c.sourceDone = false) (hbuffered : need ≠ 0 → c.buffered = []) :
    ∃ answers, pull (noted fetch) need c (s, before) =
        ((pull fetch need c s).1, (pull fetch need c s).2.1, (pull fetch need c s).2.2,
          before ++ answers) ∧
      Gathers need c answers (pull fetch need c s).1 (pull fetch need c s).2.1 := by
  induction need using Nat.strongRecOn generalizing c s before with
  | ind need ih =>
    by_cases hneed : need = 0
    · subst hneed
      refine ⟨[], ?_, ?_⟩
      · rw [pull, dif_pos rfl, pull, dif_pos rfl, List.append_nil]
      · rw [pull, dif_pos rfl]
        exact .nothing (.inl rfl)
    have hnone := hbuffered hneed
    cases hfetch : fetch c.position need s with
    | mk answer s' =>
      have hnoted : noted fetch c.position need (s, before) =
          (answer, s', before ++ [answer]) := by
        simp only [noted, hfetch]
      rcases answer with e | ⟨ids, _ | next⟩
      · rw [pull_of_error hneed hfetch, pull_of_error hneed hnoted]
        exact ⟨_, rfl, .failed hneed hopen hnone rfl e⟩
      · rw [pull_of_lastPage hneed hnone hfetch, pull_of_lastPage hneed hnone hnoted]
        exact ⟨_, rfl, .lastPage hneed hnone ids⟩
      · by_cases hids : ids = []
        · subst hids
          rw [pull_of_emptyPage hneed hfetch, pull_of_emptyPage hneed hnoted]
          exact ⟨_, rfl, .failed hneed hopen hnone rfl c.emptyPage⟩
        · rw [pull_of_page hneed hids hfetch, pull_of_page hneed hids hnoted]
          have hless : need - (ids.take need).length < need := by
            have hpos := List.length_pos_iff.2 hids
            rw [List.length_take]
            omega
          -- records of the page are left only if it brought enough
          obtain ⟨answers, hrest, hgathers⟩ := ih _ hless (c.behind need ids next) s'
            (before ++ [.ok ⟨ids, some next⟩]) rfl (by
              rw [List.length_take]
              intro hmore
              exact List.drop_eq_nil_of_le (by omega))
          refine ⟨.ok ⟨ids, some next⟩ :: answers, ?_, .page hneed hnone hids hgathers⟩
          rw [hrest, List.append_assoc, List.singleton_append]

/-- A call on a source that notes its answers is a call on the source itself. -/
theorem gather_noted (fetch : Fetch σ) (need : Nat) (c : Cursor) (s : σ) (before : List Answer) :
    ∃ answers, gather (noted fetch) need c (s, before) =
        ((gather fetch need c s).1, (gather fetch need c s).2.1, (gather fetch need c s).2.2,
          before ++ answers) ∧
      Gathers need c answers (gather fetch need c s).1 (gather fetch need c s).2.1 := by
  -- the buffer is empty before the source is asked
  have hempty : need - (c.buffered.take need).length ≠ 0 → (c.unbuffer need).buffered = [] := by
    rw [List.length_take]
    exact fun hmore => List.drop_eq_nil_of_le (by omega)
  cases hdone : c.sourceDone with
  | true =>
    rw [gather_of_done hdone, gather_of_done hdone]
    have hrest : Gathers (need - (c.buffered.take need).length) (c.unbuffer need) [] (.ok [])
        (c.unbuffer need) := by
      refine .nothing ?_
      by_cases hmore : need - (c.buffered.take need).length = 0
      · exact .inl hmore
      · exact .inr ⟨hdone, hempty hmore⟩
    have hall := hrest.buffered
    rw [Except.map, List.append_nil] at hall
    exact ⟨[], by rw [List.append_nil], hall⟩
  | false =>
    rw [gather_of_open hdone, gather_of_open hdone]
    obtain ⟨answers, hpull, hgathers⟩ := pull_noted fetch
      (need - (c.buffered.take need).length) (c.unbuffer need) s before hdone hempty
    exact ⟨answers, by rw [hpull], hgathers.buffered⟩

/-! ## One call -/

/-- What comes of a call for a chunk, with what the source answered meanwhile. -/
structure Fills (maxCount : Nat) (c : Cursor) (answers : List Answer)
    (result : Except SourceError Chunk) (c' : Cursor) : Prop where
  command : c'.command = c.command
  asks_le : answers.length ≤ c.wanted maxCount
  /-- An exhausted cursor has no more to hand out. -/
  exhausted : c.exhausted = true → 0 < maxCount →
    result = .ok ⟨[], true⟩ ∧ answers = [] ∧ c'.exhausted = true
  ok : ∀ chunk, result = .ok chunk → c'.produced = c.produced + chunk.ids.length ∧
    c.buffered ++ received answers = chunk.ids ++ c'.buffered ∧
    chunk.ids.length ≤ c.wanted maxCount ∧ c'.exhausted = chunk.exhausted ∧ 0 < maxCount ∧
    (chunk.ids.length < maxCount → chunk.exhausted = true)
  error : ∀ e, result = .error e → c'.produced = c.produced ∧ c'.exhausted = c.exhausted ∧
    (maxCount = 0 ∧ c' = c ∧ answers = [] ∨
      (c.buffered ++ received answers).length < c.wanted maxCount ∧ c'.buffered = [])

section Fill

variable {fetch : Fetch σ} {maxCount : Nat} {c c' : Cursor} {s s' : σ}

theorem wanted_le (c : Cursor) (maxCount : Nat) : c.wanted maxCount ≤ maxCount := by
  unfold wanted
  split
  · exact Nat.min_le_left _ _
  · exact Nat.le_refl _

theorem fill_of_exhausted (hmax : 0 < maxCount) (hexhausted : c.exhausted = true) :
    fill fetch maxCount c s = (.ok ⟨[], true⟩, c, s) := by
  unfold fill
  rw [if_neg (Nat.ne_of_gt hmax), if_pos hexhausted]

theorem fill_of_failed {e : SourceError} (hmax : 0 < maxCount) (hopen : c.exhausted = false)
    (hgather : gather fetch (c.wanted maxCount) c s = (.error e, c', s')) :
    fill fetch maxCount c s = (.error e, c', s') := by
  unfold fill
  rw [if_neg (Nat.ne_of_gt hmax), hopen, if_neg Bool.false_ne_true, hgather]

/-- A short chunk is the last one: with fewer records than were wanted there are no more, and fewer
than asked for are wanted only where the bound is. -/
theorem handedOut_exhausted {count : Nat} (hcommand : c'.command = c.command)
    (hproduced : c'.produced = c.produced) (hle : count ≤ c.wanted maxCount)
    (hshort : count < c.wanted maxCount → c'.sourceDone = true ∧ c'.buffered = [])
    (hcount : count < maxCount) : (c'.handedOut count).exhausted = true := by
  show (((c'.handedOut count).remaining == some 0) || (c'.sourceDone && c'.buffered.isEmpty)) = true
  by_cases hmore : count < c.wanted maxCount
  · obtain ⟨hdone, hempty⟩ := hshort hmore
    rw [hdone, hempty]
    exact Bool.or_true _
  · have hremaining : (c'.handedOut count).remaining =
        c.command.effectiveQueryLimit.map (· - (c.produced + count)) := by
      show c'.command.effectiveQueryLimit.map (· - (c'.produced + count)) = _
      rw [hcommand, hproduced]
    unfold wanted remaining limit at hle hmore
    cases hlimit : c.command.effectiveQueryLimit with
    | none =>
      rw [hlimit] at hle hmore
      exact absurd hcount hmore
    | some n =>
      rw [hlimit] at hle hmore
      simp only [Option.map_some] at hle hmore
      rw [hremaining, hlimit, Option.map_some, show n - (c.produced + count) = 0 by omega]
      rfl

/-- A call on a source that notes its answers is a call on the source itself. -/
theorem fill_noted (fetch : Fetch σ) (maxCount : Nat) (c : Cursor) (s : σ) :
    ∃ answers, fill (noted fetch) maxCount c (s, []) =
        ((fill fetch maxCount c s).1, (fill fetch maxCount c s).2.1,
          (fill fetch maxCount c s).2.2, answers) ∧
      Fills maxCount c answers (fill fetch maxCount c s).1 (fill fetch maxCount c s).2.1 := by
  by_cases hmax : maxCount = 0
  · subst hmax
    refine ⟨[], rfl, rfl, Nat.zero_le _, fun _ h => absurd h (Nat.lt_irrefl 0), nofun, ?_⟩
    exact fun _ _ => ⟨rfl, rfl, .inl ⟨rfl, rfl, rfl⟩⟩
  have hpos := Nat.pos_of_ne_zero hmax
  cases hexhausted : c.exhausted with
  | true =>
    rw [fill_of_exhausted hpos hexhausted, fill_of_exhausted hpos hexhausted]
    refine ⟨[], rfl, rfl, Nat.zero_le _, fun _ _ => ⟨rfl, rfl, hexhausted⟩, ?_, nofun⟩
    rintro chunk ⟨⟩
    exact ⟨rfl, List.append_nil _, Nat.zero_le _, hexhausted, hpos, fun _ => rfl⟩
  | false =>
    obtain ⟨answers, hnoted, hgathers⟩ := gather_noted fetch (c.wanted maxCount) c s []
    have hopen : ¬c.exhausted = true := Bool.not_eq_true _ ▸ hexhausted
    generalize hgather : gather fetch (c.wanted maxCount) c s = r at hnoted hgathers
    obtain ⟨result, c', s'⟩ := r
    obtain ⟨⟨hcommand, hproduced, hsame⟩, hasks, hok, herror⟩ := hgathers
    cases result with
    | error e =>
      rw [fill_of_failed hpos hexhausted hgather, fill_of_failed hpos hexhausted hnoted]
      refine ⟨answers, rfl, hcommand, hasks, fun h => absurd h hopen, nofun, fun _ _ => ?_⟩
      obtain ⟨hfew, -, hempty⟩ := herror e rfl
      exact ⟨hproduced, hsame, .inr ⟨hfew, hempty⟩⟩
    | ok ids =>
      rw [fill_of_gather hpos hexhausted hgather, fill_of_gather hpos hexhausted hnoted]
      refine ⟨answers, rfl, hcommand, hasks, fun h => absurd h hopen, ?_, nofun⟩
      rintro chunk ⟨⟩
      obtain ⟨hall, hle, hshort⟩ := hok ids rfl
      exact ⟨congrArg (· + ids.length) hproduced, hall, hle, rfl, hpos,
        handedOut_exhausted hcommand hproduced hle hshort⟩

end Fill

/-- A chunk that comes of a call obeys the rules of scrolling. -/
theorem Fills.checkChunk_eq {maxCount : Nat} {c c' : Cursor} {answers : List Answer}
    {result : Except SourceError Chunk} (h : Fills maxCount c answers result c') {chunk : Chunk}
    (hchunk : result = .ok chunk) : ScrollLoop.checkChunk maxCount chunk = .ok chunk := by
  obtain ⟨-, -, hle, -, hpos, hshort⟩ := h.ok chunk hchunk
  refine ScrollLoop.checkChunk_eq (Nat.le_trans hle (c.wanted_le maxCount)) ?_
  intro hgoes hempty
  rw [hempty] at hshort
  exact absurd (hgoes.symm.trans (hshort hpos)) Bool.false_ne_true

/-- Whatever a scroll loop makes sure of, a chunk of a cursor has it already. -/
theorem chunkOrError_bind_checkChunk (fetch : Fetch σ) (maxCount : Nat) (c : Cursor) (s : σ) :
    (Scroller.chunkOrError (fill fetch maxCount c s)).1.bind (ScrollLoop.checkChunk maxCount) =
      (Scroller.chunkOrError (fill fetch maxCount c s)).1 := by
  obtain ⟨answers, -, hfills⟩ := fill_noted fetch maxCount c s
  generalize fill fetch maxCount c s = r at hfills
  obtain ⟨result, c', s'⟩ := r
  cases result with
  | error e => rfl
  | ok chunk => exact hfills.checkChunk_eq rfl

/-! ## All calls of a scroll -/

/-- One call for a chunk: the cursor as it was, what was asked for, what the source answered
meanwhile, and what the call returned. -/
structure Filling where
  before : Cursor
  maxCount : Nat
  answers : List Answer
  result : Except SourceError Chunk

namespace Filling

/-- The records handed out. -/
def handed (f : Filling) : List String :=
  match f.result with
  | .ok chunk => chunk.ids
  | .error _ => []

/-- The records gathered: those handed out, or all that were there when the call failed. -/
def gathered (f : Filling) : List String :=
  match f.result with
  | .ok chunk => chunk.ids
  | .error _ => if f.maxCount = 0 then [] else f.before.buffered ++ received f.answers

/-- Whether the call found the end of the scroll. -/
def isLast (f : Filling) : Prop := ∃ chunk, f.result = .ok chunk ∧ chunk.exhausted = true

end Filling

namespace Fills

variable {maxCount : Nat} {c c' : Cursor} {answers : List Answer}
  {result : Except SourceError Chunk}

/-- What is handed out is counted. -/
theorem produced (h : Fills maxCount c answers result c') :
    c'.produced = c.produced + (Filling.handed ⟨c, maxCount, answers, result⟩).length := by
  cases result with
  | error e => exact (h.error e rfl).1
  | ok chunk => exact (h.ok chunk rfl).1

theorem produced_le (h : Fills maxCount c answers result c') {limit : Nat}
    (hlimit : c.command.effectiveQueryLimit = some limit) (hle : c.produced ≤ limit) :
    c'.produced ≤ limit := by
  cases result with
  | error e =>
    obtain ⟨hproduced, -⟩ := h.error e rfl
    exact hproduced ▸ hle
  | ok chunk =>
    obtain ⟨hproduced, -, hwanted, -⟩ := h.ok chunk rfl
    unfold wanted remaining Cursor.limit at hwanted
    rw [hlimit] at hwanted
    simp only [Option.map_some] at hwanted
    omega

/-- What waited and what came is gathered or waits still, in order. -/
theorem gathered (h : Fills maxCount c answers result c') :
    Filling.gathered ⟨c, maxCount, answers, result⟩ ++ c'.buffered =
      c.buffered ++ received answers := by
  cases result with
  | error e =>
    obtain ⟨-, -, ⟨rfl, rfl, rfl⟩ | ⟨hfew, hempty⟩⟩ := h.error e rfl
    · exact (List.append_nil _).symm
    · have hmax : maxCount ≠ 0 := by
        have := c.wanted_le maxCount
        omega
      simp only [Filling.gathered, if_neg hmax, hempty, List.append_nil]
  | ok chunk => exact (h.ok chunk rfl).2.1.symm

/-- A cursor is exhausted from the call on that finds the end of the scroll. -/
theorem exhausted_iff (h : Fills maxCount c answers result c') :
    c'.exhausted = true ↔
      c.exhausted = true ∨ Filling.isLast ⟨c, maxCount, answers, result⟩ := by
  cases result with
  | error e =>
    obtain ⟨-, hsame, -⟩ := h.error e rfl
    rw [hsame]
    exact (or_iff_left fun ⟨_, hresult, _⟩ => absurd hresult nofun).symm
  | ok chunk =>
    obtain ⟨-, -, -, hchunk, hpos, -⟩ := h.ok chunk rfl
    constructor
    · exact fun hended => .inr ⟨chunk, rfl, hchunk ▸ hended⟩
    · rintro (hended | ⟨chunk', hresult, hended⟩)
      · exact (h.exhausted hended hpos).2.2
      · rw [hchunk, Except.ok.inj hresult]
        exact hended

end Fills

/-- A cursor in use, with what its source remembers and all calls so far. -/
structure Session (σ : Type) where
  cursor : Cursor
  world : σ
  calls : List Filling

namespace Session

/-- What happens to a cursor in use. -/
inductive Event (σ : Type) where
  /-- A chunk of at most so many records is asked for. -/
  | fill (maxCount : Nat)
  /-- Others change what the source remembers. -/
  | meanwhile (world : σ)

/-- A cursor before its first call. -/
def new (c : Command) (s : σ) : Session σ := ⟨.new c, s, []⟩

/-- The machine of which the runs are all sequences of calls.  A call for which no room can be set
aside is the end of its caller. -/
def next? (fetch : Fetch σ) (u : Session σ) : Event σ → Option (Session σ)
  | .fill maxCount =>
    if maxReserved < u.cursor.reserved maxCount then none
    else
      let filled := u.cursor.fill (noted fetch) maxCount (u.world, [])
      some ⟨filled.2.1, filled.2.2.1, u.calls ++ [⟨u.cursor, maxCount, filled.2.2.2, filled.1⟩]⟩
  | .meanwhile world => some { u with world := world }

/-- What a call returns and leaves is what it does on the source itself, if there is room. -/
theorem next?_fill (fetch : Fetch σ) (u : Session σ) {maxCount : Nat}
    (hroom : u.cursor.reserved maxCount ≤ maxReserved) :
    ∃ answers result c world,
      u.cursor.fill fetch maxCount u.world = (result, c, world) ∧
      Fills maxCount u.cursor answers result c ∧
      u.next? fetch (.fill maxCount) =
        some ⟨c, world, u.calls ++ [⟨u.cursor, maxCount, answers, result⟩]⟩ := by
  obtain ⟨answers, hnoted, hfills⟩ := fill_noted fetch maxCount u.cursor u.world
  generalize fill fetch maxCount u.cursor u.world = r at hnoted hfills
  obtain ⟨result, c, world⟩ := r
  refine ⟨answers, result, c, world, rfl, hfills, ?_⟩
  rw [next?, if_neg (Nat.not_lt.2 hroom), hnoted]

/-- A call ends its caller exactly if there is no room for what it wants. -/
theorem next?_fill_eq_none (fetch : Fetch σ) (u : Session σ) (maxCount : Nat) :
    u.next? fetch (.fill maxCount) = none ↔ maxReserved < u.cursor.reserved maxCount := by
  rw [next?]
  split
  · rename_i hlarge
    exact iff_of_true rfl hlarge
  · rename_i hroom
    exact iff_of_false (by simp) hroom

theorem reserved_le_of_next? {fetch : Fetch σ} {u v : Session σ} {maxCount : Nat}
    (hnext : u.next? fetch (.fill maxCount) = some v) :
    u.cursor.reserved maxCount ≤ maxReserved := by
  rw [← Nat.not_lt, ← next?_fill_eq_none fetch, hnext]
  simp

/-- What holds of a cursor in use after any calls. -/
structure Keeps (c : Command) (u : Session σ) : Prop where
  command : u.cursor.command = c
  produced : u.cursor.produced = (u.calls.flatMap Filling.handed).length
  within : ∀ limit, c.effectiveQueryLimit = some limit → u.cursor.produced ≤ limit
  inOrder : u.calls.flatMap Filling.gathered ++ u.cursor.buffered =
    received (u.calls.flatMap (·.answers))
  exhausted : u.cursor.exhausted = true ↔ ∃ f ∈ u.calls, f.isLast
  lawful : ∀ f ∈ u.calls, f.before.command = c ∧
    ∃ c', Fills f.maxCount f.before f.answers f.result c'
  quiet : u.calls.Pairwise fun f g => f.isLast → 0 < g.maxCount →
    g.result = .ok ⟨[], true⟩ ∧ g.answers = []

theorem keeps_new (c : Command) (s : σ) : (new c s).Keeps c where
  command := rfl
  produced := rfl
  within _ _ := Nat.zero_le _
  inOrder := rfl
  exhausted := by simp [new, Cursor.new]
  lawful := by simp [new]
  quiet := .nil

theorem Keeps.fill {c : Command} {u : Session σ} (h : u.Keeps c) {maxCount : Nat}
    {answers : List Answer} {result : Except SourceError Chunk} {c' : Cursor} (world : σ)
    (hfills : Fills maxCount u.cursor answers result c') :
    (⟨c', world, u.calls ++ [⟨u.cursor, maxCount, answers, result⟩]⟩ : Session σ).Keeps c where
  command := hfills.command.trans h.command
  produced := by
    rw [List.flatMap_append, List.length_append, ← h.produced, List.flatMap_singleton]
    exact hfills.produced
  within limit hlimit := hfills.produced_le (by rw [h.command, hlimit]) (h.within limit hlimit)
  inOrder := by
    rw [List.flatMap_append, List.flatMap_append, received_append, ← h.inOrder,
      List.flatMap_singleton, List.flatMap_singleton, List.append_assoc, List.append_assoc]
    exact congrArg _ hfills.gathered
  exhausted := by
    refine hfills.exhausted_iff.trans ?_
    rw [h.exhausted]
    simp only [List.mem_append, List.mem_singleton]
    constructor
    · rintro (⟨f, hf, hended⟩ | hnew)
      · exact ⟨f, .inl hf, hended⟩
      · exact ⟨_, .inr rfl, hnew⟩
    · rintro ⟨f, hf | rfl, hended⟩
      · exact .inl ⟨f, hf, hended⟩
      · exact .inr hended
  lawful f hf := by
    rcases List.mem_append.1 hf with hf | hf
    · exact h.lawful f hf
    · obtain rfl := List.mem_singleton.1 hf
      exact ⟨h.command, c', hfills⟩
  quiet := by
    refine List.pairwise_append.2 ⟨h.quiet, List.pairwise_singleton _ _, fun f hf g hg => ?_⟩
    obtain rfl := List.mem_singleton.1 hg
    intro hended hpos
    obtain ⟨hresult, hanswers, -⟩ := hfills.exhausted (h.exhausted.2 ⟨f, hf, hended⟩) hpos
    exact ⟨hresult, hanswers⟩

theorem keeps_of_run {fetch : Fetch σ} {c : Command} {s : σ}
    {moves : List (Move (Session σ) (Event σ))} {u : Session σ}
    (hrun : Run (next? fetch) (.new c s) moves u) : u.Keeps c := by
  refine hrun.always (keeps_new c s) fun v event w hnext hv => ?_
  cases event with
  | fill maxCount =>
    obtain ⟨answers, result, c', world, -, hfills, hfill⟩ :=
      next?_fill fetch v (reserved_le_of_next? hnext)
    obtain rfl := Option.some.inj (hfill.symm.trans hnext)
    exact hv.fill world hfills
  | meanwhile world =>
    obtain rfl := Option.some.inj hnext
    exact { hv with }

/-- The contract of cursors.  Whatever is asked for and whatever the source answers: every chunk
holds no more records than were asked for, a shorter one and an empty one is the last, and so the
scroll loop never has to refuse a chunk of either scroller; a call asks the source no more often
than records were asked for, nor than the bound leaves; after the last chunk a call returns an empty
one without asking; the records handed out are counted and within the bound; and what the calls
gathered, with what waits behind it, is what was received, in order.  A call is the end of its
caller exactly if there is no room for what it wants, which is nothing after the last chunk. -/
theorem keeps_contract (fetch : Fetch σ) (c : Command) (s : σ)
    {moves : List (Move (Session σ) (Event σ))} {u : Session σ}
    (hrun : Run (next? fetch) (.new c s) moves u) :
    (∀ m ∈ moves, ∀ maxCount, m.event = .fill maxCount → ∃ answers result,
      m.before.cursor.fill fetch maxCount m.before.world =
        (result, m.after.cursor, m.after.world) ∧
      m.after.calls = m.before.calls ++ [⟨m.before.cursor, maxCount, answers, result⟩]) ∧
    (∀ f ∈ u.calls, ∀ chunk, f.result = .ok chunk →
      chunk.ids.length ≤ f.maxCount ∧
      (chunk.ids.length < f.maxCount → chunk.exhausted = true) ∧
      (chunk.ids = [] → chunk.exhausted = true)) ∧
    (∀ (source : QuerySource σ) maxCount world,
      ((Scroller.query source).next u.cursor maxCount world).1.bind
          (ScrollLoop.checkChunk maxCount) =
        ((Scroller.query source).next u.cursor maxCount world).1) ∧
    (∀ (source : RecordSource σ) maxCount world,
      ((Scroller.generic source).next u.cursor maxCount world).1.bind
          (ScrollLoop.checkChunk maxCount) =
        ((Scroller.generic source).next u.cursor maxCount world).1) ∧
    (∀ f ∈ u.calls, f.answers.length ≤ f.maxCount ∧
      ∀ limit, c.effectiveQueryLimit = some limit →
        f.answers.length ≤ limit - f.before.produced) ∧
    (u.calls.Pairwise fun f g => f.isLast → 0 < g.maxCount →
      g.result = .ok ⟨[], true⟩ ∧ g.answers = []) ∧
    (u.cursor.exhausted = true ↔ ∃ f ∈ u.calls, f.isLast) ∧
    u.cursor.produced = (u.calls.flatMap Filling.handed).length ∧
    (∀ limit, c.effectiveQueryLimit = some limit → u.cursor.produced ≤ limit) ∧
    u.calls.flatMap Filling.gathered ++ u.cursor.buffered =
      received (u.calls.flatMap (·.answers)) ∧
    ∀ maxCount, (u.next? fetch (.fill maxCount) = none ↔
        maxReserved < u.cursor.reserved maxCount) ∧
      (u.cursor.exhausted = true → u.cursor.reserved maxCount = 0) := by
  have hu := keeps_of_run hrun
  refine ⟨?_, ?_, ?_, ?_, ?_, hu.quiet, hu.exhausted, hu.produced, hu.within, hu.inOrder,
    fun maxCount => ⟨next?_fill_eq_none fetch u maxCount, fun hended => if_pos hended⟩⟩
  · intro m hm maxCount hevent
    have hnext := hrun.next?_of_mem hm
    rw [hevent] at hnext
    obtain ⟨answers, result, c', world, hfill, -, hafter⟩ :=
      next?_fill fetch m.before (reserved_le_of_next? hnext)
    rw [hafter] at hnext
    rw [← Option.some.inj hnext]
    exact ⟨answers, result, hfill, rfl⟩
  · intro f hf chunk hchunk
    obtain ⟨-, c', hfills⟩ := hu.lawful f hf
    obtain ⟨-, -, hle, -, hpos, hshort⟩ := hfills.ok chunk hchunk
    refine ⟨Nat.le_trans hle (f.before.wanted_le f.maxCount), hshort, fun hempty => hshort ?_⟩
    rw [hempty]
    exact hpos
  · exact fun source maxCount world => chunkOrError_bind_checkChunk _ maxCount u.cursor world
  · exact fun source maxCount world => chunkOrError_bind_checkChunk _ maxCount u.cursor world
  · intro f hf
    obtain ⟨hcommand, c', hfills⟩ := hu.lawful f hf
    have hasks := hfills.asks_le
    refine ⟨Nat.le_trans hasks (f.before.wanted_le f.maxCount), fun limit hlimit => ?_⟩
    unfold wanted remaining Cursor.limit at hasks
    rw [hcommand, hlimit] at hasks
    exact Nat.le_trans hasks (Nat.min_le_right _ _)

/-- A source that answers by number: with a page that is longer than asked for, with an error, and
with the last page. -/
def moody : Fetch Nat := fun _ _ asks =>
  match asks with
  | 0 => (.ok ⟨["a", "b", "c"], some "1"⟩, 1)
  | 1 => (.error (.unavailable "no answer"), 2)
  | _ => (.ok ⟨["d"], none⟩, 3)

/-- A command for at most nine records. -/
def atMostNine : Command :=
  ⟨⟨"archive", "all", some 9, none, none, 2, 2, none, false, []⟩, ⟨7⟩⟩

/-- The second call takes what waits and fails for the rest; the third is short and the last. -/
theorem keeps_contract_moody :
    ∃ moves u, Run (next? moody) (.new atMostNine 0) moves u ∧
      u.calls.map (·.result) =
        [.ok ⟨["a", "b"], false⟩, .error (.unavailable "no answer"), .ok ⟨["d"], true⟩,
          .ok ⟨[], true⟩] ∧
      u.cursor.produced = 3 ∧
      [["a", "b"], ["c"], ["d"], []].flatten ++ u.cursor.buffered =
        received (u.calls.flatMap (·.answers)) := by
  have hcheck : (movesOf? (next? moody) (.new atMostNine 0)
      [.fill 2, .fill 2, .meanwhile 2, .fill 3, .fill 5]).any (fun r =>
        decide (r.2.calls.map (·.result) =
          [.ok ⟨["a", "b"], false⟩, .error (.unavailable "no answer"), .ok ⟨["d"], true⟩,
            .ok ⟨[], true⟩]) &&
        decide (r.2.calls.map Filling.gathered = [["a", "b"], ["c"], ["d"], []])) = true := by
    decide +kernel
  obtain ⟨⟨moves, u⟩, hmoves, hu⟩ := (Option.any_eq_true _ _).1 hcheck
  simp only [Bool.and_eq_true, decide_eq_true_eq] at hu
  obtain ⟨hresults, hgathered⟩ := hu
  have hrun : Run (next? moody) (.new atMostNine 0) moves u := .of_movesOf? hmoves
  obtain ⟨-, -, -, -, -, -, -, hproduced, -, horder, -⟩ := keeps_contract moody atMostNine 0 hrun
  refine ⟨moves, u, hrun, hresults, ?_, ?_⟩
  · have hhanded : u.calls.flatMap Filling.handed =
        (u.calls.map (·.result)).flatMap fun result => match result with
          | .ok chunk => chunk.ids
          | .error _ => [] := by
      rw [List.flatMap_map]
      rfl
    rw [hproduced, hhanded, hresults]
    rfl
  · rw [← hgathered, ← List.flatMap_def]
    exact horder

end Session

end Cursor

end BulkRun
