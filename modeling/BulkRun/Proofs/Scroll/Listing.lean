import BulkRun.InMemory.Sources
import BulkRun.Proofs.Text.Numeral
/-!
# Handing out a list

A cursor on a source that serves the pages of a list hands out the list itself, cut to the bound of
its command: whatever the pages are, each chunk holds the next records, as many as were asked for
while there are so many (`fill_eq`), and a chunk is the last one exactly when nothing is left behind
it.
-/

namespace BulkRun

open InMemory (pageOf)

/-- The part of a list that a draft allows to be taken. -/
def Draft.cut (d : Draft) (ids : List String) : List String :=
  match d.effectiveQueryLimit with
  | some n => ids.take n
  | none => ids

theorem Draft.length_cut_le (d : Draft) (ids : List String) : (d.cut ids).length ≤ ids.length := by
  unfold cut
  split
  · exact List.length_take_le' _ _
  · exact Nat.le_refl _

namespace Cursor

variable {σ : Type} {fetch : Fetch σ} {Good : σ → Prop} {ids : List String} {maxPage : Option Nat}

/-- Whether a source serves the pages of a list, while its memory is good. -/
structure Serves (fetch : Fetch σ) (Good : σ → Prop) (ids : List String) (maxPage : Option Nat) :
    Prop where
  page : ∀ position size s, Good s → (fetch position size s).1 = pageOf ids position size maxPage
  good : ∀ position size s, Good s → Good (fetch position size s).2
  /-- Every position in the list can be written down. -/
  fits : ids.length < wordCount
  page_pos : ∀ m, maxPage = some m → 0 < m

/-- Whether the next page of a cursor begins behind so many records of a list. -/
structure StandsAt (ids : List String) (place : Nat) (c : Cursor) : Prop where
  buffered : c.buffered = []
  goesOn : c.sourceDone = false
  position : c.position = none ∧ place = 0 ∨
    c.position = some (Text.ofNat place) ∧ place < ids.length

/-- Whether a cursor has seen the last page. -/
structure IsThrough (c : Cursor) : Prop where
  buffered : c.buffered = []
  done : c.sourceDone = true

/-- The page of a list that begins behind so many records and has room for so many. -/
def pageAt (ids : List String) (place room : Nat) : Page :=
  ⟨(ids.drop place).take room,
    if ids.length ≤ place + room then none else some (Text.ofNat (place + room))⟩

/-- The room on a page when so many records are asked for. -/
def roomFor (maxPage : Option Nat) (size : Nat) : Nat :=
  match maxPage with
  | none => size
  | some m => min size m

/-- The page of a cursor begins where the cursor stands, and has room for some record. -/
theorem exists_pageOf {place size : Nat} {c : Cursor} (h : Serves fetch Good ids maxPage)
    (hc : c.StandsAt ids place) (hsize : 0 < size) :
    ∃ room, 0 < room ∧ room ≤ size ∧
      pageOf ids c.position size maxPage = .ok (pageAt ids place room) := by
  -- a page is the last one when nothing is left behind it
  have hlast (k : Nat) : (((ids.drop place).drop k).isEmpty = true) = (ids.length ≤ place + k) := by
    rw [List.drop_drop, List.isEmpty_iff, List.drop_eq_nil_iff]
  have hpage : pageOf ids c.position size maxPage =
      .ok (pageAt ids place (roomFor maxPage size)) := by
    obtain ⟨hp, rfl⟩ | ⟨hp, hlt⟩ := hc.position
    · rw [hp]
      simp only [pageOf, pageAt, hlast]
      rfl
    · have hfits := h.fits
      have hread : Text.readWord (Text.ofNat place) = some place :=
        Text.readWord_ofNat (by unfold wordMax; omega)
      rw [hp]
      simp only [pageOf, pageAt, hread, hlast]
      rfl
  refine ⟨roomFor maxPage size, ?_, ?_, hpage⟩
  · cases maxPage with
    | none => exact hsize
    | some m =>
      have hm := h.page_pos m rfl
      show 0 < min size m
      omega
  · cases maxPage with
    | none => exact Nat.le_refl _
    | some m => exact Nat.min_le_left _ _

/-- The last page holds the rest of the list, which may be nothing. -/
theorem pull_last {need place room : Nat} {c : Cursor} {s s' : σ} (hneed : need ≠ 0)
    (hroom : room ≤ need) (hbuffered : c.buffered = [])
    (hfetch : fetch c.position need s = (.ok (pageAt ids place room), s'))
    (hend : ids.length ≤ place + room) :
    ∃ c', pull fetch need c s = (.ok ((ids.drop place).take need), c', s') ∧
      (c'.command = c.command ∧ c'.produced = c.produced) ∧ c'.IsThrough := by
  have hpage : (ids.drop place).take room = ids.drop place :=
    List.take_of_length_le (by rw [List.length_drop]; omega)
  have hshort : (ids.drop place).take need = ids.drop place :=
    List.take_of_length_le (by rw [List.length_drop]; omega)
  rw [pull, dif_neg hneed, hfetch, pageAt, if_pos hend, hpage, hshort]
  cases hrest : ids.drop place with
  | nil => exact ⟨{ c with position := none, sourceDone := true }, rfl, ⟨rfl, rfl⟩, hbuffered, rfl⟩
  | cons id rest =>
    have hdrop : (id :: rest).drop need = [] := by
      rw [← hrest, List.drop_drop, List.drop_eq_nil_iff]
      omega
    have htake : (id :: rest).take need = id :: rest := by rw [← hrest, hshort]
    refine ⟨{ c with position := none, sourceDone := true, buffered := [] }, ?_, ⟨rfl, rfl⟩, rfl,
      rfl⟩
    simp [hdrop, htake]

/-- A page before the last one is full, and what is missing is read from behind it. -/
theorem pull_next {need place room : Nat} {c c' : Cursor} {s s₁ s' : σ} (hneed : need ≠ 0)
    (hpos : 0 < room) (hroom : room ≤ need)
    (hfetch : fetch c.position need s = (.ok (pageAt ids place room), s₁))
    (hmore : ¬ids.length ≤ place + room)
    (hpull : pull fetch (need - room)
        { c with position := some (Text.ofNat (place + room)), sourceDone := false, buffered := [] }
        s₁ =
      (.ok ((ids.drop (place + room)).take (need - room)), c', s')) :
    pull fetch need c s = (.ok ((ids.drop place).take need), c', s') := by
  have hlength : ((ids.drop place).take room).length = room := by
    rw [List.length_take, List.length_drop]
    omega
  have htake : ((ids.drop place).take room).take need = (ids.drop place).take room :=
    List.take_of_length_le (by omega)
  have hdrop : ((ids.drop place).take room).drop need = [] :=
    List.drop_eq_nil_of_le (by omega)
  have hsplit : (ids.drop place).take need =
      (ids.drop place).take room ++ (ids.drop (place + room)).take (need - room) := by
    rw [← List.drop_drop, ← List.take_add, Nat.add_sub_cancel' hroom]
  rw [pull, dif_neg hneed, hfetch, pageAt, if_neg hmore]
  cases hids : (ids.drop place).take room with
  | nil =>
    rw [hids, List.length_nil] at hlength
    omega
  | cons id rest =>
    rw [hids] at htake hdrop hlength hsplit
    simp only [htake, hdrop, hlength, Option.isNone_some, hpull, hsplit]
    rfl

/-- Pulling reads on from where the cursor stands: it gathers the records that come next, and stops
behind them or at the end of the list. -/
theorem pull_eq (h : Serves fetch Good ids maxPage) (need : Nat) {place : Nat} {c : Cursor} {s : σ}
    (hs : Good s) (hc : c.StandsAt ids place) :
    ∃ c' s', pull fetch need c s = (.ok ((ids.drop place).take need), c', s') ∧ Good s' ∧
      (c'.command = c.command ∧ c'.produced = c.produced) ∧
      (c'.StandsAt ids (place + need) ∨ c'.IsThrough ∧ ids.length ≤ place + need) := by
  induction need using Nat.strongRecOn generalizing place c s with
  | ind need ih =>
    by_cases hneed : need = 0
    · subst hneed
      rw [pull, dif_pos rfl]
      exact ⟨c, s, by simp, hs, ⟨rfl, rfl⟩, .inl hc⟩
    obtain ⟨room, hpos, hroom, hpage⟩ := exists_pageOf h hc (Nat.pos_of_ne_zero hneed)
    have hfetch : fetch c.position need s =
        (.ok (pageAt ids place room), (fetch c.position need s).2) := by
      rw [← hpage, ← h.page c.position need s hs]
    have hgood := h.good c.position need s hs
    by_cases hend : ids.length ≤ place + room
    · obtain ⟨c', hpull, hsame, hthrough⟩ := pull_last hneed hroom hc.buffered hfetch hend
      exact ⟨c', _, hpull, hgood, hsame, .inr ⟨hthrough, by omega⟩⟩
    · -- the cursor stands behind the page, and fewer records are missing
      obtain ⟨c', s', hpull, hs', hsame, hstands⟩ := ih (need - room) (by omega)
        (c := { c with
          position := some (Text.ofNat (place + room)), sourceDone := false, buffered := [] })
        hgood ⟨rfl, rfl, .inr ⟨rfl, by omega⟩⟩
      have hplace : place + room + (need - room) = place + need := by omega
      rw [hplace] at hstands
      exact ⟨c', s', pull_next hneed hpos hroom hfetch hend hpull, hs', hsame, hstands⟩

/-! ## What a source remembers -/

section Memory

variable (hgood : ∀ position size s, Good s → Good (fetch position size s).2)
include hgood

theorem good_pull (need : Nat) (c : Cursor) {s : σ} (hs : Good s) :
    Good (pull fetch need c s).2.2 := by
  induction need using Nat.strongRecOn generalizing c s with
  | ind need ih =>
    have hfetch := hgood c.position need s hs
    rw [pull]
    split
    · exact hs
    · rename_i hneed
      generalize fetch c.position need s = r at hfetch
      obtain ⟨answer, s₁⟩ := r
      cases answer with
      | error err => exact hfetch
      | ok page =>
        obtain ⟨ids, next⟩ := page
        cases ids with
        | nil => cases next <;> exact hfetch
        | cons id rest =>
          cases next with
          | none => exact hfetch
          | some position =>
            have hless : need - ((id :: rest).take need).length < need := by
              rw [List.length_take, List.length_cons]
              omega
            have hmore := ih _ hless
              { c with
                position := some position, sourceDone := false
                buffered := (id :: rest).drop need } hfetch
            simp only [Option.isNone_some]
            rw [if_neg Bool.false_ne_true]
            split
            · rename_i heq
              rw [heq] at hmore
              exact hmore
            · rename_i heq
              rw [heq] at hmore
              exact hmore

/-- Whatever is asked for, a chunk leaves the memory of its source good. -/
theorem good_fill (maxCount : Nat) (c : Cursor) {s : σ} (hs : Good s) :
    Good (fill fetch maxCount c s).2.2 := by
  have hgather : Good (gather fetch (c.wanted maxCount) c s).2.2 := by
    unfold gather
    dsimp only
    split
    · exact hs
    · have hpull := good_pull hgood
        (c.wanted maxCount - (c.buffered.take (c.wanted maxCount)).length)
        { c with buffered := c.buffered.drop (c.wanted maxCount) } hs
      split <;> (rename_i heq; rw [heq] at hpull; exact hpull)
  unfold fill
  split
  · exact hs
  · split
    · exact hs
    · split <;> (rename_i heq; rw [heq] at hgather; exact hgather)

end Memory

/-! ## Chunks -/

/-- The records of a list that a cursor has yet to hand out. -/
def left (ids : List String) (c : Cursor) : List String := (c.command.cut ids).drop c.produced

/-- Whether a cursor is on its way through a list. -/
structure Lists (ids : List String) (c : Cursor) : Prop where
  stands : c.exhausted = false → c.StandsAt ids c.produced
  bounded : c.exhausted = false → c.remaining ≠ some 0
  exhausted : c.exhausted = true → c.left ids = []

theorem lists_new (ids : List String) (c : Command) : (Cursor.new c).Lists ids where
  stands _ := ⟨rfl, rfl, .inl ⟨rfl, rfl⟩⟩
  bounded _ := by
    show (c.effectiveQueryLimit.map (· - 0)) ≠ some 0
    unfold Draft.effectiveQueryLimit
    split <;> simp
  exhausted := nofun

/-- No chunk is to hold more than the first one may. -/
theorem reserved_le (c : Cursor) (maxCount : Nat) :
    c.reserved maxCount ≤ (Cursor.new c.command).wanted maxCount := by
  unfold reserved
  split
  · exact Nat.zero_le _
  · show wanted c maxCount ≤ match c.command.effectiveQueryLimit.map (· - 0) with
      | some n => min maxCount n
      | none => maxCount
    unfold wanted remaining limit
    cases c.command.effectiveQueryLimit with
    | none => exact Nat.le_refl _
    | some n =>
      show min maxCount (n - c.produced) ≤ min maxCount (n - 0)
      omega

/-- As many records as are wanted are as many of those that are left as were asked for. -/
theorem take_wanted (ids : List String) (c : Cursor) (maxCount : Nat) :
    (ids.drop c.produced).take (c.wanted maxCount) = (c.left ids).take maxCount := by
  unfold wanted remaining limit left Draft.cut
  cases c.command.effectiveQueryLimit with
  | none => rfl
  | some n =>
    show (ids.drop c.produced).take (min maxCount (n - c.produced)) = _
    rw [List.drop_take, List.take_take]

theorem wanted_pos {c : Cursor} {maxCount : Nat} (hmax : 0 < maxCount)
    (h : c.remaining ≠ some 0) : 0 < c.wanted maxCount := by
  unfold wanted
  split
  · rename_i n hn
    rw [hn] at h
    have : n ≠ 0 := fun h0 => h (by rw [h0])
    omega
  · exact hmax

/-- What a chunk leaves of the list. -/
theorem left_drop (ids : List String) {c c' : Cursor} {maxCount : Nat}
    (hcommand : c'.command = c.command)
    (hproduced : c'.produced = c.produced + ((c.left ids).take maxCount).length) :
    c'.left ids = (c.left ids).drop maxCount := by
  have hlength : (c.left ids).drop ((c.left ids).take maxCount).length =
      (c.left ids).drop maxCount := by
    rw [List.length_take]
    obtain h | h := Nat.le_total maxCount (c.left ids).length
    · rw [Nat.min_eq_left h]
    · rw [Nat.min_eq_right h, List.drop_length, List.drop_eq_nil_of_le h]
  rw [left, hcommand, hproduced, ← List.drop_drop]
  exact hlength

theorem left_eq_nil_of_remaining (ids : List String) {c : Cursor} (h : c.remaining = some 0) :
    c.left ids = [] := by
  obtain ⟨n, hn, hle⟩ := Option.map_eq_some_iff.1 h
  have hcut : c.command.cut ids = ids.take n := by
    unfold Draft.cut
    rw [show c.command.effectiveQueryLimit = some n from hn]
  rw [left, hcut, List.drop_eq_nil_iff]
  exact Nat.le_trans (List.length_take_le _ _) (Nat.le_of_sub_eq_zero hle)

theorem left_eq_nil_of_length_le {ids : List String} {c : Cursor} (h : ids.length ≤ c.produced) :
    c.left ids = [] := by
  rw [left, List.drop_eq_nil_iff]
  exact Nat.le_trans (Draft.length_cut_le _ _) h

/-- With more of the list and of the bound to come, something is left. -/
theorem left_ne_nil {ids : List String} {c : Cursor} (hlt : c.produced < ids.length)
    (h : c.remaining ≠ some 0) : c.left ids ≠ [] := by
  have hwanted : 0 < c.wanted 1 := wanted_pos Nat.one_pos h
  intro hnil
  have htake := take_wanted ids c 1
  rw [hnil, List.take_nil, List.take_eq_nil_iff, List.drop_eq_nil_iff] at htake
  omega

/-- What is gathered is what is left, as far as it is wanted. -/
theorem gather_eq (h : Serves fetch Good ids maxPage) (maxCount : Nat) {c : Cursor} {s : σ}
    (hs : Good s) (hc : c.StandsAt ids c.produced) :
    ∃ c' s', gather fetch (c.wanted maxCount) c s = (.ok ((c.left ids).take maxCount), c', s') ∧
      Good s' ∧ (c'.command = c.command ∧ c'.produced = c.produced) ∧
      (c'.StandsAt ids (c.produced + c.wanted maxCount) ∨
        c'.IsThrough ∧ ids.length ≤ c.produced + c.wanted maxCount) := by
  obtain ⟨c', s', hpull, hs', hsame, hplace⟩ := pull_eq h (c.wanted maxCount) hs hc
  refine ⟨c', s', ?_, hs', hsame, hplace⟩
  have hunbuffered : { c with buffered := [] } = c := by rw [← hc.buffered]
  unfold gather
  simp only [hc.buffered, List.take_nil, List.drop_nil, List.length_nil, Nat.sub_zero]
  rw [hunbuffered, hc.goesOn, if_neg Bool.false_ne_true, hpull, take_wanted]
  rfl

/-- A cursor that has handed out the records it gathered. -/
def handedOut (c : Cursor) (count : Nat) : Cursor :=
  let c := { c with produced := c.produced + count }
  { c with exhausted := c.remaining == some 0 || (c.sourceDone && c.buffered.isEmpty) }

theorem fill_of_gather {c c' : Cursor} {s s' : σ} {maxCount : Nat} {found : List String}
    (hmax : 0 < maxCount) (hopen : c.exhausted = false)
    (hgather : gather fetch (c.wanted maxCount) c s = (.ok found, c', s')) :
    fill fetch maxCount c s =
      (.ok ⟨found, (c'.handedOut found.length).exhausted⟩, c'.handedOut found.length, s') := by
  unfold fill
  rw [if_neg (Nat.ne_of_gt hmax), hopen, if_neg Bool.false_ne_true, hgather]
  rfl

/-- A cursor goes on behind the records it handed out, with something left of the list and of its
bound, or nothing is left. -/
theorem handedOut_cases {c : Cursor} {count : Nat}
    (hplace : c.StandsAt ids (c.produced + count) ∧ c.produced + count < ids.length ∨
      c.IsThrough ∧ ids.length ≤ c.produced + count) :
    (c.handedOut count).exhausted = false ∧ (c.handedOut count).remaining ≠ some 0 ∧
        (c.handedOut count).StandsAt ids (c.handedOut count).produced ∧
        (c.handedOut count).left ids ≠ [] ∨
      (c.handedOut count).exhausted = true ∧ (c.handedOut count).left ids = [] := by
  rcases hplace with ⟨hstands, hlt⟩ | ⟨hthrough, hend⟩
  · -- with a page to come, only the bound can end the scroll
    have hended : (c.handedOut count).exhausted = ((c.handedOut count).remaining == some 0) := by
      show (_ || (c.sourceDone && c.buffered.isEmpty)) = _
      rw [hstands.goesOn, Bool.false_and, Bool.or_false]
      rfl
    by_cases hzero : (c.handedOut count).remaining = some 0
    · refine .inr ⟨?_, left_eq_nil_of_remaining ids hzero⟩
      rw [hended, hzero]
      rfl
    · refine .inl ⟨?_, hzero, ⟨hstands.buffered, hstands.goesOn, hstands.position⟩, ?_⟩
      · rw [hended]
        exact beq_eq_false_iff_ne.2 hzero
      · exact left_ne_nil hlt hzero
  · refine .inr ⟨?_, left_eq_nil_of_length_le hend⟩
    show (_ || (c.sourceDone && c.buffered.isEmpty)) = true
    rw [hthrough.done, hthrough.buffered]
    exact Bool.or_true _

/-- A chunk is the next records of the list, as many as were asked for while there are so many, and
it is the last one exactly when nothing is left behind it. -/
theorem fill_eq (h : Serves fetch Good ids maxPage) {c : Cursor} {s : σ} {maxCount : Nat}
    (hs : Good s) (hc : c.Lists ids) (hopen : c.exhausted = false) (hmax : 0 < maxCount) :
    ∃ c' s', fill fetch maxCount c s =
        (.ok ⟨(c.left ids).take maxCount, c'.exhausted⟩, c', s') ∧ Good s' ∧
      c'.Lists ids ∧ c'.command = c.command ∧ c'.left ids = (c.left ids).drop maxCount ∧
      (c'.exhausted = false → c'.left ids ≠ []) := by
  have hwanted := wanted_pos hmax (hc.bounded hopen)
  obtain ⟨c₁, s₁, hgather, hs₁, ⟨hcommand, hproduced⟩, hplace⟩ :=
    gather_eq h maxCount hs (hc.stands hopen)
  have hlength : ((c.left ids).take maxCount).length =
      min (c.wanted maxCount) (ids.length - c.produced) := by
    rw [← take_wanted, List.length_take, List.length_drop]
  have hbehind : c₁.StandsAt ids (c₁.produced + ((c.left ids).take maxCount).length) ∧
        c₁.produced + ((c.left ids).take maxCount).length < ids.length ∨
      c₁.IsThrough ∧ ids.length ≤ c₁.produced + ((c.left ids).take maxCount).length := by
    rw [hlength, hproduced]
    rcases hplace with hstands | ⟨hthrough, hend⟩
    · -- behind the first page the cursor stands in the list
      have hlt : c.produced + c.wanted maxCount < ids.length := by
        rcases hstands.position with ⟨-, hzero⟩ | ⟨-, hlt⟩
        · omega
        · exact hlt
      rw [Nat.min_eq_left (by omega)]
      exact .inl ⟨hstands, hlt⟩
    · exact .inr ⟨hthrough, by omega⟩
  refine ⟨_, s₁, fill_of_gather hmax hopen hgather, hs₁, ?_, hcommand,
    left_drop ids hcommand (congrArg (· + _) hproduced), ?_⟩
  · rcases handedOut_cases hbehind with ⟨hgoes, hzero, hstands, -⟩ | ⟨hended, hleft⟩
    · constructor
      case stands => exact fun _ => hstands
      case bounded => exact fun _ => hzero
      case exhausted => exact fun hended => absurd (hgoes.symm.trans hended) (by simp)
    · constructor
      case stands => exact fun hgoes => absurd (hended.symm.trans hgoes) (by simp)
      case bounded => exact fun hgoes => absurd (hended.symm.trans hgoes) (by simp)
      case exhausted => exact fun _ => hleft
  · intro hgoes
    rcases handedOut_cases hbehind with ⟨-, -, -, hsome⟩ | ⟨hended, -⟩
    · exact hsome
    · exact absurd (hended.symm.trans hgoes) (by simp)

end Cursor

end BulkRun
