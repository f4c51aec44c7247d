import BulkRun.Proofs.InMemory.Wiring
import Mathlib.Data.List.Induction
/-!
# Outages

A source of lists in memory can be told to become unavailable for a query after so many pages.  It
serves any number of scrolls at once, and keeps a single count of the pages that it was asked for.
Main statement: a request is refused when as many requests came before it as its query has pages,
no matter which queries those were for and what became of them (`outages_count_every_request`).  So
requests for other queries bring the outage of a query forward, unless it has had its pages before.
-/

namespace BulkRun.InMemory

/-- A request for a page. -/
structure PageRequest where
  request : QueryRequest
  position : Option String
  size : Nat
deriving DecidableEq, Repr

namespace PageRequest

/-- Whether a request is for a query. -/
def isFor (query : String) (r : PageRequest) : Bool := r.request.query == query

/-- Whether it can be read where the page begins. -/
def IsReadable (r : PageRequest) : Prop :=
  ∀ p, r.position = some p → (Text.readWord p).isSome = true

theorem isFor_iff {query : String} {r : PageRequest} :
    r.isFor query = true ↔ r.request.query = query := beq_iff_eq

theorem isFor_self (r : PageRequest) : r.isFor r.request.query = true := isFor_iff.2 rfl

/-- A page begins somewhere in a list, or behind it. -/
theorem IsReadable.exists_pageOf {r : PageRequest} (h : r.IsReadable) (ids : List String)
    (maxPage : Option Nat) : ∃ page, pageOf ids r.position r.size maxPage = .ok page := by
  unfold pageOf
  cases hposition : r.position with
  | none => exact ⟨_, rfl⟩
  | some p =>
    obtain ⟨offset, hoffset⟩ := Option.isSome_iff_exists.1 (h p hposition)
    simp only [hoffset]
    exact ⟨_, rfl⟩

end PageRequest

namespace QueryLists

/-- The source behind some requests. -/
def after (s : QueryLists) (requests : List PageRequest) : QueryLists :=
  requests.foldl (fun s r => (s.page r.request r.position r.size).2) s

/-- The answer to a request behind some others. -/
def answer (s : QueryLists) (earlier : List PageRequest) (r : PageRequest) :
    Except SourceError Page :=
  ((s.after earlier).page r.request r.position r.size).1

/-- The answers to the requests for a query, among others. -/
def answersFor (query : String) (s : QueryLists) : List PageRequest → List (Except SourceError Page)
  | [] => []
  | r :: rest =>
    (if r.isFor query then [s.answer [] r] else []) ++ answersFor query (s.after [r]) rest

/-- The page of a list that a request is about. -/
def pageFor (s : QueryLists) (r : PageRequest) : Except SourceError Page :=
  pageOf (s.found r.request.query) r.position r.size (s.maxPage.map (max 1))

/-- The error of a query that becomes unavailable after so many pages. -/
def outage (limit : Nat) : SourceError :=
  .unavailable ("source went away after " ++ Text.ofNat limit ++ " pages")

/-- Whether outages are a matter of each query alone: a request is answered when fewer requests for
its query came before it than that has pages, or when it has no outage. -/
def FailsPerQuery (s : QueryLists) (requests : List PageRequest) : Prop :=
  ∀ earlier r, earlier ++ [r] <+: requests →
    ((∃ page, s.answer earlier r = .ok page) ↔
      ∀ limit, s.failingAfter.lookup r.request.query = some limit →
        earlier.countP (·.isFor r.request.query) < limit)

/-- Whether a query has its pages before requests for others come in between: if a request for it
comes behind as many requests as it has pages, it comes behind as many for the query itself. -/
def GetsItsPages (s : QueryLists) (query : String) (requests : List PageRequest) : Prop :=
  ∀ limit, s.failingAfter.lookup query = some limit →
    ∀ earlier r, earlier ++ [r] <+: requests → r.isFor query = true →
      limit ≤ earlier.length → limit ≤ earlier.countP (·.isFor query)

variable {s : QueryLists} {query : String} {earlier requests : List PageRequest} {r : PageRequest}

/-! ## One request -/

/-- A request counts, whatever it is for and whatever becomes of it. -/
theorem after_eq (hfresh : s.pagesServed = 0) (requests : List PageRequest) :
    s.after requests = { s with pagesServed := requests.length % wordCount } := by
  induction requests using List.reverseRecOn with
  | nil =>
    rw [List.length_nil, Nat.zero_mod, ← hfresh]
    rfl
  | append_singleton requests r ih =>
    have hstep : s.after (requests ++ [r]) =
        ((s.after requests).page r.request r.position r.size).2 := by
      rw [after, List.foldl_append]
      rfl
    rw [hstep, ih, List.length_append, List.length_singleton, ← Nat.mod_add_mod]
    rfl

/-- A request is refused when there is an outage by then, and otherwise it is answered with the page
of the list. -/
theorem answer_cases (hfresh : s.pagesServed = 0) (earlier : List PageRequest)
    (hr : r.IsReadable) :
    (∃ limit, s.failingAfter.lookup r.request.query = some limit ∧
        limit ≤ earlier.length % wordCount ∧ s.answer earlier r = .error (outage limit)) ∨
      (∀ limit, s.failingAfter.lookup r.request.query = some limit →
        earlier.length % wordCount < limit) ∧
      ∃ page, s.pageFor r = .ok page ∧ s.answer earlier r = .ok page := by
  obtain ⟨page, hpage⟩ : ∃ page, s.pageFor r = .ok page := hr.exists_pageOf _ _
  rw [answer, after_eq hfresh, QueryLists.page]
  cases hlimit : s.failingAfter.lookup r.request.query with
  | none => exact .inr ⟨nofun, page, hpage, hpage⟩
  | some limit =>
    by_cases hout : limit ≤ earlier.length % wordCount
    · exact .inl ⟨limit, rfl, hout, if_pos hout⟩
    · refine .inr ⟨?_, page, hpage, (if_neg hout).trans hpage⟩
      intro other hother
      rw [← Option.some.inj hother]
      exact Nat.lt_of_not_le hout

/-- A request is answered while fewer requests came before it than its query has pages. -/
theorem exists_answer_iff (hfresh : s.pagesServed = 0) (earlier : List PageRequest)
    (hr : r.IsReadable) :
    (∃ page, s.answer earlier r = .ok page) ↔
      ∀ limit, s.failingAfter.lookup r.request.query = some limit →
        earlier.length % wordCount < limit := by
  obtain ⟨limit, hlimit, hout, herror⟩ | ⟨hserved, page, -, hok⟩ := answer_cases hfresh earlier hr
  · refine iff_of_false ?_ fun hserved => Nat.not_lt.2 hout (hserved limit hlimit)
    rintro ⟨page, hok⟩
    rw [herror] at hok
    exact absurd hok nofun
  · exact iff_of_true ⟨page, hok⟩ hserved

/-- What is answered is the page of the list. -/
theorem pageFor_of_answer (hfresh : s.pagesServed = 0) (hr : r.IsReadable) {page : Page}
    (h : s.answer earlier r = .ok page) : s.pageFor r = .ok page := by
  obtain ⟨limit, -, -, herror⟩ | ⟨-, page', hpage', hok⟩ := answer_cases hfresh earlier hr
  · rw [herror] at h
    exact absurd h nofun
  · rw [← Except.ok.inj (hok.symm.trans h)]
    exact hpage'

/-- What is refused is refused for the outage of the query. -/
theorem outage_of_answer (hfresh : s.pagesServed = 0) (hr : r.IsReadable) {e : SourceError}
    (h : s.answer earlier r = .error e) :
    ∃ limit, s.failingAfter.lookup r.request.query = some limit ∧ e = outage limit := by
  obtain ⟨limit, hlimit, -, herror⟩ | ⟨-, page, -, hok⟩ := answer_cases hfresh earlier hr
  · exact ⟨limit, hlimit, Except.error.inj (h.symm.trans herror)⟩
  · rw [hok] at h
    exact absurd h nofun

/-- What came before a request makes no difference to its answer but that it may be refused. -/
theorem answer_eq_iff (hfresh : s.pagesServed = 0) (earlier others : List PageRequest)
    (hr : r.IsReadable) :
    s.answer earlier r = s.answer others r ↔
      ((∃ page, s.answer earlier r = .ok page) ↔ ∃ page, s.answer others r = .ok page) := by
  constructor
  · intro h
    rw [h]
  · intro h
    cases hearlier : s.answer earlier r with
    | ok page =>
      obtain ⟨page', hothers⟩ := h.1 ⟨page, hearlier⟩
      rw [hothers, ← pageFor_of_answer hfresh hr hearlier, ← pageFor_of_answer hfresh hr hothers]
    | error e =>
      cases hothers : s.answer others r with
      | ok page =>
        obtain ⟨page', hok⟩ := h.2 ⟨page, hothers⟩
        rw [hearlier] at hok
        exact absurd hok nofun
      | error e' =>
        obtain ⟨limit, hlimit, rfl⟩ := outage_of_answer hfresh hr hearlier
        obtain ⟨limit', hlimit', rfl⟩ := outage_of_answer hfresh hr hothers
        rw [Option.some.inj (hlimit.symm.trans hlimit')]

/-! ## Many requests -/

/-- Until the count of the source overflows it is the number of requests. -/
theorem exists_answer_iff_of_lt (hfresh : s.pagesServed = 0) {earlier : List PageRequest}
    (hshort : earlier.length < wordCount) (hr : r.IsReadable) :
    (∃ page, s.answer earlier r = .ok page) ↔
      ∀ limit, s.failingAfter.lookup r.request.query = some limit → earlier.length < limit := by
  rw [exists_answer_iff hfresh earlier hr, Nat.mod_eq_of_lt hshort]

theorem length_lt_of_isPrefix (h : earlier ++ [r] <+: requests) :
    earlier.length < requests.length := by
  have hle := h.length_le
  rw [List.length_append, List.length_singleton] at hle
  exact hle

/-- A request is answered as it would be without the requests for other queries exactly if it does
not come too late on their account. -/
theorem answer_alone_iff (hfresh : s.pagesServed = 0) (hshort : earlier.length < wordCount)
    (hr : r.IsReadable) :
    s.answer earlier r = s.answer (earlier.filter (·.isFor r.request.query)) r ↔
      ∀ limit, s.failingAfter.lookup r.request.query = some limit →
        limit ≤ earlier.length → limit ≤ earlier.countP (·.isFor r.request.query) := by
  have hfewer : earlier.countP (·.isFor r.request.query) ≤ earlier.length := List.countP_le_length
  have hown : (earlier.filter (·.isFor r.request.query)).length =
      earlier.countP (·.isFor r.request.query) := List.countP_eq_length_filter.symm
  rw [answer_eq_iff hfresh _ _ hr, exists_answer_iff_of_lt hfresh hshort hr,
    exists_answer_iff_of_lt hfresh (by omega) hr, hown]
  constructor
  · intro hsame limit hlimit hcount
    by_contra hfew
    -- alone it would be answered, and so it was, behind too many requests
    refine Nat.not_lt.2 hcount (hsame.2 (fun other hother => ?_) limit hlimit)
    rw [← Option.some.inj (hlimit.symm.trans hother)]
    exact Nat.lt_of_not_le hfew
  · intro h
    constructor
    · exact fun hall limit hlimit => Nat.lt_of_le_of_lt hfewer (hall limit hlimit)
    · intro hfew limit hlimit
      by_contra hcount
      exact Nat.not_lt.2 (h limit hlimit (Nat.not_lt.1 hcount)) (hfew limit hlimit)

theorem answersFor_concat (query : String) (s : QueryLists) (requests : List PageRequest)
    (r : PageRequest) :
    s.answersFor query (requests ++ [r]) =
      s.answersFor query requests ++ if r.isFor query then [s.answer requests r] else [] := by
  induction requests generalizing s with
  | nil => exact List.append_nil _
  | cons first rest ih =>
    have hrest : s.answer (first :: rest) r = (s.after [first]).answer rest r := rfl
    rw [List.cons_append, answersFor, answersFor, hrest, ih, List.append_assoc]

theorem getsItsPages_nil (s : QueryLists) (query : String) : s.GetsItsPages query [] :=
  fun _ _ _ _ hbegins => absurd (length_lt_of_isPrefix hbegins) (Nat.not_lt_zero _)

theorem getsItsPages_concat (query : String) (requests : List PageRequest) (r : PageRequest) :
    s.GetsItsPages query (requests ++ [r]) ↔ s.GetsItsPages query requests ∧
      (r.isFor query = true → ∀ limit, s.failingAfter.lookup query = some limit →
        limit ≤ requests.length → limit ≤ requests.countP (·.isFor query)) := by
  constructor
  · intro h
    constructor
    · intro limit hlimit earlier q hbegins
      exact h limit hlimit earlier q (hbegins.trans (List.prefix_append requests [r]))
    · intro hfor limit hlimit
      exact h limit hlimit requests r (List.prefix_refl _) hfor
  · rintro ⟨hfront, hlast⟩ limit hlimit earlier q hbegins hfor
    obtain hwhole | hbegins := List.prefix_concat_iff.1 hbegins
    · obtain ⟨rfl, rfl⟩ := List.append_singleton_inj.1 hwhole
      exact hlast hfor limit hlimit
    · exact hfront limit hlimit earlier q hbegins hfor

/-- The requests for a query are answered as they would be without the others exactly if the query
gets its pages. -/
theorem answersFor_alone_iff (hfresh : s.pagesServed = 0)
    (hreadable : ∀ r ∈ requests, r.IsReadable) (hlength : requests.length ≤ wordCount)
    (query : String) :
    s.answersFor query requests = s.answersFor query (requests.filter (·.isFor query)) ↔
      s.GetsItsPages query requests := by
  -- from the back, since what matters to a request is what came before it
  induction requests using List.reverseRecOn with
  | nil => exact iff_of_true rfl (s.getsItsPages_nil query)
  | append_singleton requests r ih =>
    have hshort := Nat.lt_of_lt_of_le (length_lt_of_isPrefix (List.prefix_refl _)) hlength
    have hfront := ih (fun q hq => hreadable q (List.mem_append_left _ hq)) (Nat.le_of_lt hshort)
    rw [getsItsPages_concat, List.filter_append, answersFor_concat, ← hfront]
    cases hfor : r.isFor query with
    | false =>
      have hnone : [r].filter (·.isFor query) = [] := by simp [hfor]
      rw [hnone, List.append_nil]
      simp
    | true =>
      have hone : [r].filter (·.isFor query) = [r] := by simp [hfor]
      have hr := hreadable r (by simp)
      obtain rfl := PageRequest.isFor_iff.1 hfor
      rw [hone, answersFor_concat, hfor, if_pos rfl, if_pos rfl, List.append_singleton_inj,
        answer_alone_iff hfresh hshort hr, forall_prop_of_true rfl]

/-- Outages are a matter of each query alone exactly if every query gets its pages. -/
theorem failsPerQuery_iff (hfresh : s.pagesServed = 0) (hreadable : ∀ r ∈ requests, r.IsReadable)
    (hlength : requests.length ≤ wordCount) :
    s.FailsPerQuery requests ↔ ∀ query, s.GetsItsPages query requests := by
  -- what the law says of a request is that it is answered as it would be without the others
  have hown {earlier : List PageRequest} {r : PageRequest} (h : earlier ++ [r] <+: requests) :
      ((∃ page, s.answer earlier r = .ok page) ↔
          ∀ limit, s.failingAfter.lookup r.request.query = some limit →
            earlier.countP (·.isFor r.request.query) < limit) ↔
        ∀ limit, s.failingAfter.lookup r.request.query = some limit →
          limit ≤ earlier.length → limit ≤ earlier.countP (·.isFor r.request.query) := by
    have hr : r.IsReadable := hreadable r (h.mem (by simp))
    have hshort := Nat.lt_of_lt_of_le (length_lt_of_isPrefix h) hlength
    have hfewer : (earlier.filter (·.isFor r.request.query)).length < wordCount :=
      Nat.lt_of_le_of_lt (List.length_filter_le _ _) hshort
    rw [← answer_alone_iff hfresh hshort hr, answer_eq_iff hfresh _ _ hr,
      exists_answer_iff_of_lt hfresh hfewer hr, List.countP_eq_length_filter]
  constructor
  · rintro h query limit hlimit earlier r hbegins hfor
    obtain rfl := PageRequest.isFor_iff.1 hfor
    exact (hown hbegins).1 (h earlier r hbegins) limit hlimit
  · intro h earlier r hbegins
    refine (hown hbegins).2 fun limit hlimit => ?_
    exact h r.request.query limit hlimit earlier r hbegins r.isFor_self

/-! ## Main statement -/

/-- An outage does not ask for whom the pages were.  A request is answered exactly as long as fewer
requests came before it than its query has pages, where all requests count, of whatever queries and
whatever became of them; the source counts them in a word.  If it is answered it is with the page of
its own list, which nothing else makes a difference to, and if not for the outage of its query.

So, as far as the count reaches, outages are a matter of each query alone exactly if every query
gets its pages before requests for others come in between, and a query that does is answered as if
there were no others.  A query without an outage always does. -/
theorem outages_count_every_request (s : QueryLists) (hfresh : s.pagesServed = 0) :
    (∀ (earlier : List PageRequest) (r : PageRequest), r.IsReadable →
      ((∃ page, s.answer earlier r = .ok page) ↔
        ∀ limit, s.failingAfter.lookup r.request.query = some limit →
          earlier.length % wordCount < limit) ∧
      (∀ page, s.answer earlier r = .ok page → s.pageFor r = .ok page) ∧
      ∀ e, s.answer earlier r = .error e → ∃ limit,
        s.failingAfter.lookup r.request.query = some limit ∧ e = outage limit) ∧
    ∀ requests, (∀ r ∈ requests, r.IsReadable) → requests.length ≤ wordCount →
      (s.FailsPerQuery requests ↔ ∀ query, s.GetsItsPages query requests) ∧
      ∀ query, s.answersFor query requests = s.answersFor query (requests.filter (·.isFor query)) ↔
        s.GetsItsPages query requests := by
  constructor
  · intro earlier r hr
    exact ⟨exists_answer_iff hfresh earlier hr, fun _ => pageFor_of_answer hfresh hr,
      fun _ => outage_of_answer hfresh hr⟩
  · intro requests hreadable hlength
    exact ⟨failsPerQuery_iff hfresh hreadable hlength,
      answersFor_alone_iff hfresh hreadable hlength⟩

/-- A source of two lists, of which one is there for a single page. -/
def fleeting : QueryLists := ⟨[("old", ["a", "b"]), ("new", ["c"])], [], [("old", 1)], none, 0⟩

/-- A request for the first page of a query. -/
def firstPage (query : String) : PageRequest := ⟨⟨query, none, none⟩, none, 2⟩

/-- A page of the one list is all that it takes for the other to go away before its only page.  The
other way round both get theirs. -/
theorem outages_count_every_request_overtaken :
    fleeting.pagesServed = 0 ∧
      fleeting.answersFor "old" [firstPage "new", firstPage "old"] = [.error (outage 1)] ∧
      fleeting.answersFor "old" [firstPage "old"] = [.ok ⟨["a", "b"], none⟩] ∧
      ¬fleeting.FailsPerQuery [firstPage "new", firstPage "old"] ∧
      fleeting.FailsPerQuery [firstPage "old", firstPage "new"] := by
  have hfresh : fleeting.pagesServed = 0 := rfl
  have hlast : fleeting.answersFor "old" [firstPage "new", firstPage "old"] =
      [.error (outage 1)] := by decide +kernel
  have halone : fleeting.answersFor "old" [firstPage "old"] = [.ok ⟨["a", "b"], none⟩] := by
    decide +kernel
  have hlength : 2 ≤ wordCount := by decide
  obtain ⟨-, hall⟩ := outages_count_every_request fleeting hfresh
  obtain ⟨hlaw, hold⟩ := hall [firstPage "new", firstPage "old"]
    (by simp [firstPage, PageRequest.IsReadable]) hlength
  obtain ⟨hlaw', -⟩ := hall [firstPage "old", firstPage "new"]
    (by simp [firstPage, PageRequest.IsReadable]) hlength
  refine ⟨hfresh, hlast, halone, ?_, ?_⟩
  · intro hfails
    have hsame := (hold "old").2 (hlaw.1 hfails "old")
    have hothers :
        [firstPage "new", firstPage "old"].filter (·.isFor "old") = [firstPage "old"] := by
      decide +kernel
    rw [hlast, hothers, halone] at hsame
    exact absurd hsame (by simp)
  · refine hlaw'.2 fun query => (getsItsPages_concat query [firstPage "old"] _).2 ⟨?_, ?_⟩
    · refine (getsItsPages_concat query [] _).2 ⟨getsItsPages_nil _ query, ?_⟩
      exact fun _ _ _ hcount => hcount
    · intro hfor limit hlimit
      obtain rfl : "new" = query := PageRequest.isFor_iff.1 hfor
      have hnone : fleeting.failingAfter.lookup "new" = none := by decide +kernel
      exact absurd (hnone.symm.trans hlimit) nofun

end QueryLists

end BulkRun.InMemory
