import BulkRun.Proofs.InMemory.Wiring
import BulkRun.Proofs.Scroll.Contract
/-!
# Enumerating lists in memory

A scroller is asked for chunks of any sizes, one after the other, and others may use its source
meanwhile.  The pages of the source are cut as the source likes, the chunks as their caller likes,
and the list ends where the limit of the command is, if not before.  Main statement: the chunks are
the list, cut where the caller cut it, and the last one is known as such when it is handed out
(`enumerates_lists`).  Only the room that is set aside for a chunk can keep a call from being
answered.
-/

namespace BulkRun

/-- A cursor in use, with what its source remembers and the calls so far. -/
structure Enumeration (σ : Type) where
  cursor : Cursor
  world : σ
  calls : List (Nat × Except Error Chunk)

namespace Enumeration

variable {σ : Type}

/-- What happens to an enumeration. -/
inductive Event (σ : Type) where
  /-- A chunk of at most so many records is asked for. -/
  | next (maxCount : Nat)
  /-- Others change what the source remembers. -/
  | meanwhile (world : σ)

/-- Whether an event asks for some record, or leaves the memory of the source good. -/
def Event.IsFair (Good : σ → Prop) : Event σ → Prop
  | .next maxCount => 0 < maxCount
  | .meanwhile world => Good world

/-- An enumeration before the first call. -/
def new (c : Command) (s : σ) : Enumeration σ := ⟨.new c, s, []⟩

/-- The machine of which the runs are all sequences of calls.  A call for which no room can be set
aside is the end of its caller. -/
def next? (x : Scroller σ) (u : Enumeration σ) : Event σ → Option (Enumeration σ)
  | .next maxCount =>
    if maxReserved < x.reserved u.cursor maxCount then none
    else
      let (result, cursor, world) := x.next u.cursor maxCount u.world
      some ⟨cursor, world, u.calls ++ [(maxCount, result)]⟩
  | .meanwhile world => some { u with world := world }

/-- How many records some calls asked for. -/
def asked (calls : List (Nat × Except Error Chunk)) : Nat := (calls.map Prod.fst).sum

/-- The records that some calls handed out. -/
def handed (calls : List (Nat × Except Error Chunk)) : List String :=
  calls.flatMap fun call => match call.2 with
    | .ok chunk => chunk.ids
    | .error _ => []

theorem asked_concat (calls : List (Nat × Except Error Chunk)) (call : Nat × Except Error Chunk) :
    asked (calls ++ [call]) = asked calls + call.1 := by
  simp [asked]

theorem handed_concat (calls : List (Nat × Except Error Chunk)) (maxCount : Nat) (chunk : Chunk) :
    handed (calls ++ [(maxCount, .ok chunk)]) = handed calls ++ chunk.ids := by
  simp [handed]

/-! ## Cutting a list -/

/-- The next records of a list behind so many, and whether nothing is left behind them. -/
def chunkAt (all : List String) (place maxCount : Nat) : Chunk :=
  ⟨(all.drop place).take maxCount, decide (all.length ≤ place + maxCount)⟩

/-- Whether calls have cut a list into chunks, each as large as it was asked for while the list
lasts. -/
structure Cuts (all : List String) (calls : List (Nat × Except Error Chunk)) : Prop where
  /-- Nothing is left out, repeated or put in another order. -/
  handed : handed calls = all.take (asked calls)
  each : ∀ front call rear, calls = front ++ call :: rear →
    call.2 = .ok (chunkAt all (asked front) call.1)

theorem cuts_nil (all : List String) : Cuts all [] where
  handed := rfl
  each front call rear h := absurd h.symm (by simp)

/-- A further chunk begins where the others end. -/
theorem Cuts.concat {all : List String} {calls : List (Nat × Except Error Chunk)}
    (h : Cuts all calls) (maxCount : Nat) :
    Cuts all (calls ++ [(maxCount, .ok (chunkAt all (asked calls) maxCount))]) where
  handed := by
    rw [handed_concat, asked_concat, h.handed, List.take_add]
    rfl
  each front call rear heq := by
    obtain rfl | ⟨rest, last, rfl⟩ := rear.eq_nil_or_concat
    · obtain ⟨rfl, hlast⟩ := List.append_inj' heq rfl
      obtain rfl := List.singleton_inj.1 hlast
      rfl
    · rw [List.concat_eq_append, ← List.cons_append, ← List.append_assoc] at heq
      exact h.each front call rest (List.append_inj' heq rfl).1

/-- A chunk holds as many records as were asked for, or all that were left. -/
theorem length_chunkAt (all : List String) (place maxCount : Nat) :
    (chunkAt all place maxCount).ids.length = min maxCount (all.length - place) := by
  rw [chunkAt, List.length_take, List.length_drop]

/-! ## Scrollers that list -/

/-- Whether a scroller hands out a list for a command, while the memory of its source is good. -/
structure Draws (x : Scroller σ) (c : Command) (Good : σ → Prop) (ids : List String) : Prop where
  reserved : x.reserved = Cursor.reserved
  next : ∃ fetch maxPage, Cursor.Serves fetch Good ids maxPage ∧
    ∀ (cursor : Cursor) maxCount s, cursor.command = c →
      x.next cursor maxCount s = Scroller.chunkOrError (cursor.fill fetch maxCount s)

section

variable {x : Scroller σ} {c : Command} {Good : σ → Prop} {ids : List String}

/-- A chunk is the next records that are left, and it is marked when nothing is left behind it. -/
theorem Draws.next_eq (h : Draws x c Good ids) {cursor : Cursor} {s : σ} {maxCount : Nat}
    (hs : Good s) (hlists : cursor.Lists ids) (hcommand : cursor.command = c)
    (hmax : 0 < maxCount) :
    ∃ cursor' s', x.next cursor maxCount s =
        (.ok ⟨(cursor.left ids).take maxCount, cursor'.exhausted⟩, cursor', s') ∧
      Good s' ∧ cursor'.Lists ids ∧ cursor'.command = c ∧
      cursor'.left ids = (cursor.left ids).drop maxCount ∧
      (cursor'.exhausted = true ↔ cursor'.left ids = []) := by
  obtain ⟨fetch, maxPage, hserves, hnext⟩ := h.next
  rw [hnext cursor maxCount s hcommand]
  cases hexhausted : cursor.exhausted with
  | true =>
    have hleft := hlists.exhausted hexhausted
    refine ⟨cursor, s, ?_, hs, hlists, hcommand, ?_, iff_of_true hexhausted hleft⟩
    · rw [Cursor.fill_of_exhausted hmax hexhausted, hleft, List.take_nil, hexhausted]
      rfl
    · rw [hleft, List.drop_nil]
  | false =>
    obtain ⟨cursor', s', hfill, hs', hlists', hsame, hleft, hmore⟩ :=
      Cursor.fill_eq hserves hs hlists hexhausted hmax
    refine ⟨cursor', s', ?_, hs', hlists', hsame.trans hcommand, hleft, hlists'.exhausted, ?_⟩
    · rw [hfill]
      rfl
    · intro hnil
      by_contra hopen
      exact hmore (Bool.not_eq_true _ ▸ hopen) hnil

/-- What holds of an enumeration after any calls. -/
structure Keeps (c : Command) (Good : σ → Prop) (ids : List String) (u : Enumeration σ) :
    Prop where
  good : Good u.world
  command : u.cursor.command = c
  lists : u.cursor.Lists ids
  left : u.cursor.left ids = (c.cut ids).drop (asked u.calls)
  exhausted : u.cursor.exhausted = true ↔
    u.calls ≠ [] ∧ (c.cut ids).length ≤ asked u.calls
  /-- While there is more to come, as many records were handed out as were asked for. -/
  produced : u.cursor.exhausted = false → u.cursor.produced = asked u.calls
  cuts : Cuts (c.cut ids) u.calls

theorem keeps_new (c : Command) {Good : σ → Prop} (ids : List String) {s : σ} (hs : Good s) :
    (new c s).Keeps c Good ids where
  good := hs
  command := rfl
  lists := Cursor.lists_new ids c
  left := rfl
  exhausted := by simp [new, Cursor.new]
  produced _ := rfl
  cuts := cuts_nil _

/-- A call keeps what holds of an enumeration. -/
theorem Keeps.next {u v : Enumeration σ} (h : u.Keeps c Good ids) (hx : Draws x c Good ids)
    {maxCount : Nat} (hmax : 0 < maxCount) (hnext : u.next? x (.next maxCount) = some v) :
    v.Keeps c Good ids := by
  obtain ⟨cursor, s, heq, hs, hlists, hcommand, hleft, hexhausted⟩ :=
    hx.next_eq h.good h.lists h.command hmax
  have hplace : cursor.left ids = (c.cut ids).drop (asked u.calls + maxCount) := by
    rw [hleft, h.left, List.drop_drop]
  -- the cursor is exhausted where the list ends
  have hend : cursor.exhausted = true ↔ (c.cut ids).length ≤ asked u.calls + maxCount := by
    rw [hexhausted, hplace, List.drop_eq_nil_iff]
  have hchunk : (⟨(u.cursor.left ids).take maxCount, cursor.exhausted⟩ : Chunk) =
      chunkAt (c.cut ids) (asked u.calls) maxCount := by
    rw [chunkAt, h.left, ← Bool.decide_coe cursor.exhausted]
    exact congrArg _ (decide_eq_decide.2 hend)
  rw [hchunk] at heq
  rw [next?, heq] at hnext
  split at hnext
  · exact absurd hnext nofun
  · obtain rfl := Option.some.inj hnext
    constructor
    case good => exact hs
    case command => exact hcommand
    case lists => exact hlists
    case left => rw [asked_concat]; exact hplace
    case exhausted =>
      rw [asked_concat, hend]
      exact (and_iff_right (List.concat_ne_nil _ _)).symm
    case produced =>
      intro hopen
      have hmore : ¬(c.cut ids).length ≤ asked u.calls + maxCount := by
        rw [← hend, hopen]
        exact Bool.false_ne_true
      have hlength := congrArg List.length hplace
      rw [Cursor.left, hcommand, List.length_drop, List.length_drop] at hlength
      rw [asked_concat]
      show cursor.produced = asked u.calls + maxCount
      omega
    case cuts => exact h.cuts.concat maxCount

theorem keeps_of_run (hx : Draws x c Good ids) {s : σ} (hs : Good s)
    {moves : List (Move (Enumeration σ) (Event σ))} {u : Enumeration σ}
    (hrun : Run (next? x) (.new c s) moves u) (hfair : ∀ m ∈ moves, m.event.IsFair Good) :
    u.Keeps c Good ids := by
  refine hrun.invariant hfair (keeps_new c ids hs) fun v event w hnext hevent hv => ?_
  cases event with
  | next maxCount => exact hv.next hx hevent hnext
  | meanwhile world =>
    obtain rfl := Option.some.inj hnext
    exact { hv with good := hevent }

/-- Room is wanted for as many records as the cursor may still hand out at once. -/
theorem Keeps.next?_eq_none {u : Enumeration σ} (h : u.Keeps c Good ids)
    (hx : Draws x c Good ids) (maxCount : Nat) :
    u.next? x (.next maxCount) = none ↔
      (u.calls = [] ∨ asked u.calls < (c.cut ids).length) ∧ maxReserved < maxCount ∧
      ∀ limit, c.effectiveQueryLimit = some limit → maxReserved + asked u.calls < limit := by
  have hrefused : u.next? x (.next maxCount) = none ↔
      maxReserved < u.cursor.reserved maxCount := by
    rw [next?, hx.reserved]
    split <;> simp_all
  have hopen : u.cursor.exhausted = false ↔
      (u.calls = [] ∨ asked u.calls < (c.cut ids).length) := by
    rw [← Bool.not_eq_true, h.exhausted, not_and_or, not_not, Nat.not_le]
  rw [hrefused, ← hopen, Cursor.reserved]
  cases hexhausted : u.cursor.exhausted with
  | true => simp
  | false =>
    have hproduced := h.produced hexhausted
    simp only [Bool.false_eq_true, if_false, true_and, Cursor.wanted, Cursor.remaining,
      Cursor.limit, h.command]
    cases c.effectiveQueryLimit with
    | none => simp
    | some limit =>
      simp only [Option.map_some, Option.some.injEq, forall_eq']
      omega

/-- What calls for chunks of a list come to, with its end where the limit of the command is. -/
structure Enumerates (x : Scroller σ) (c : Command) (ids : List String) (u : Enumeration σ) :
    Prop where
  /-- Nothing is left out, repeated or put in another order. -/
  handed : handed u.calls = (c.cut ids).take (asked u.calls)
  /-- A chunk is as long as was asked for while the list lasts, and the one that hands out the last
  record is marked, and so are all behind it. -/
  each : ∀ front maxCount result rear, u.calls = front ++ (maxCount, result) :: rear →
    ∃ chunk, result = .ok chunk ∧ chunk.ids = ((c.cut ids).drop (asked front)).take maxCount ∧
      chunk.ids.length = min maxCount ((c.cut ids).length - asked front) ∧
      (chunk.exhausted = true ↔ (c.cut ids).length ≤ asked front + maxCount)
  /-- A call is refused when more room than can be set aside is wanted for its chunk: no more than
  is asked for is wanted, nor than the limit leaves, nor anything behind the end of the list. -/
  refused : ∀ maxCount, u.next? x (.next maxCount) = none ↔
    (u.calls = [] ∨ asked u.calls < (c.cut ids).length) ∧ maxReserved < maxCount ∧
    ∀ limit, c.effectiveQueryLimit = some limit → maxReserved + asked u.calls < limit

theorem enumerates_of_run (hx : Draws x c Good ids) {s : σ} (hs : Good s)
    {moves : List (Move (Enumeration σ) (Event σ))} {u : Enumeration σ}
    (hrun : Run (next? x) (.new c s) moves u) (hfair : ∀ m ∈ moves, m.event.IsFair Good) :
    u.Enumerates x c ids := by
  have hu := keeps_of_run hx hs hrun hfair
  constructor
  case handed => exact hu.cuts.handed
  case refused => exact hu.next?_eq_none hx
  case each =>
    intro front maxCount result rear heq
    refine ⟨chunkAt (c.cut ids) (asked front) maxCount, ?_, rfl, length_chunkAt _ _ _, ?_⟩
    · exact hu.cuts.each front _ rear heq
    · exact decide_eq_true_iff

end

end Enumeration

namespace InMemory

open Enumeration

theorem draws_query {q : QueryLists} {c : Command} (h : q.Answers c.query) :
    Draws (.query QueryLists.source) c q.ServedFrom (q.found c.query) where
  reserved := rfl
  next := by
    refine ⟨_, _, QueryLists.serves (.of c) h, ?_⟩
    rintro cursor maxCount s rfl
    rfl

theorem draws_generic {l : NamedLists} {c : Command} {ids : List String}
    (hids : l.lists.lookup c.query = some ids) (hfits : ids.length < wordCount) :
    Draws (.generic NamedLists.source) c (· = l) ids where
  reserved := rfl
  next := by
    refine ⟨NamedLists.scan c.query c.params, none, ?_, ?_⟩
    · constructor
      case page =>
        rintro position size s rfl
        rw [NamedLists.scan, hids]
      case good =>
        rintro position size s rfl
        rw [NamedLists.scan, hids]
      case fits => exact hfits
      case page_pos => exact nofun
    · rintro cursor maxCount s rfl
      rfl

/-- Scrolling the lists in memory enumerates them.  Whatever the pages hold at most, whatever the
limit of the command is, and whatever chunks are asked for, one after the other: the records come in
the order of the list, up to the limit, and none is left out or comes twice; every chunk is as long
as was asked for while there are records left; the one with the last of them says so.  So both kinds
of scrollers enumerate a list in one way only.  A call that is not answered is one for which more
room than there can be would have to be set aside. -/
theorem enumerates_lists (c : Command) :
    (∀ q : QueryLists, q.Answers c.query →
      (Scroller.query QueryLists.source).start c q = (.ok (.new c), q) ∧
      ∀ moves u, Run (next? (.query QueryLists.source)) (.new c q) moves u →
        (∀ m ∈ moves, m.event.IsFair q.ServedFrom) →
        u.Enumerates (.query QueryLists.source) c (q.found c.query)) ∧
    (∀ (l : NamedLists) ids, l.lists.lookup c.query = some ids → ids.length < wordCount →
      (Scroller.generic NamedLists.source).start c l = (.ok (.new c), l) ∧
      ∀ moves u, Run (next? (.generic NamedLists.source)) (.new c l) moves u →
        (∀ m ∈ moves, m.event.IsFair (· = l)) →
        u.Enumerates (.generic NamedLists.source) c ids) := by
  constructor
  · intro q hq
    constructor
    · have haccepted : ¬q.rejected.contains c.query = true := by
        rw [hq.accepted]
        exact Bool.false_ne_true
      simp only [Scroller.query, QueryLists.source, QueryLists.validate, QueryRequest.of,
        if_neg haccepted]
    · exact fun moves u hrun hfair =>
        enumerates_of_run (draws_query hq) ⟨q.pagesServed, rfl⟩ hrun hfair
  · intro l ids hids hfits
    refine ⟨rfl, ?_⟩
    exact fun moves u hrun hfair => enumerates_of_run (draws_generic hids hfits) rfl hrun hfair

/-- A command for at most four records of a list of five. -/
def atMostFour : Command :=
  ⟨⟨"archive", "all", some 4, none, none, 2, 2, none, false, []⟩, ⟨7⟩⟩

/-- Five records, on pages of at most two. -/
def pagesOfTwo : QueryLists := ⟨[("all", ["a", "b", "c", "d", "e"])], [], [], some 2, 0⟩

/-- Chunks of three records from pages of two: the second is short, since the limit is reached, and
it is the last; the one behind it is empty.  Another scroller reads pages in between.  The whole list
on one page makes no difference. -/
theorem enumerates_lists_uneven :
    (∃ moves u, Run (next? (.query QueryLists.source)) (.new atMostFour pagesOfTwo) moves u ∧
      u.calls = [(3, .ok ⟨["a", "b", "c"], false⟩), (3, .ok ⟨["d"], true⟩), (1, .ok ⟨[], true⟩)] ∧
      u.Enumerates (.query QueryLists.source) atMostFour ["a", "b", "c", "d", "e"]) ∧
    ∃ moves u, Run (next? (.generic NamedLists.source)) (.new atMostFour
        ⟨pagesOfTwo.results⟩) moves u ∧
      u.calls = [(3, .ok ⟨["a", "b", "c"], false⟩), (3, .ok ⟨["d"], true⟩)] ∧
      u.Enumerates (.generic NamedLists.source) atMostFour ["a", "b", "c", "d", "e"] := by
  constructor
  · have hcheck : (movesOf? (next? (.query QueryLists.source)) (.new atMostFour pagesOfTwo)
        [.next 3, .meanwhile { pagesOfTwo with pagesServed := 9 }, .next 3, .next 1]).any
        (fun r => decide (r.2.calls = [(3, .ok ⟨["a", "b", "c"], false⟩), (3, .ok ⟨["d"], true⟩),
          (1, .ok ⟨[], true⟩)])) = true := by
      decide +kernel
    obtain ⟨⟨moves, u⟩, hmoves, hcalls⟩ := (Option.any_eq_true _ _).1 hcheck
    have hrun := Run.of_movesOf? hmoves
    have hanswers : pagesOfTwo.Answers atMostFour.query := ⟨rfl, rfl, by decide⟩
    obtain ⟨-, hall⟩ := (enumerates_lists atMostFour).1 pagesOfTwo hanswers
    refine ⟨moves, u, hrun, of_decide_eq_true hcalls, hall moves u hrun ?_⟩
    apply forall_of_movesOf? (P := Event.IsFair _) hmoves
    simp [Event.IsFair, QueryLists.ServedFrom]
  · have hcheck : (movesOf? (next? (.generic NamedLists.source))
        (.new atMostFour ⟨pagesOfTwo.results⟩) [.next 3, .next 3]).any
        (fun r => decide (r.2.calls = [(3, .ok ⟨["a", "b", "c"], false⟩),
          (3, .ok ⟨["d"], true⟩)])) = true := by
      decide +kernel
    obtain ⟨⟨moves, u⟩, hmoves, hcalls⟩ := (Option.any_eq_true _ _).1 hcheck
    have hrun := Run.of_movesOf? hmoves
    obtain ⟨-, hall⟩ := (enumerates_lists atMostFour).2 ⟨pagesOfTwo.results⟩ _ rfl (by decide)
    refine ⟨moves, u, hrun, of_decide_eq_true hcalls, hall moves u hrun ?_⟩
    apply forall_of_movesOf? (P := Event.IsFair _) hmoves
    simp [Event.IsFair]

end InMemory

end BulkRun
