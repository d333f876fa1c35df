import StreamFi.Listing
import StreamFi.Run.Latest

/-!
# A list that grows

`useStreamList` shows the pages of `list` one after another, as its caller asks for more.

* `ListHook`, `listHookStep`: the code;
* `Walked`: pages that follow each other;
* **`listHook_run`**: what is shown in every run, while the contracts change;
* **`listHook_complete`**: while they do not, it is the beginning of the whole list, and all of it when the hook
  says so.
-/

namespace StreamFi

open Js Run

deriving instance DecidableEq for ListStreamsParams

/-! ## The code -/

/-- A request, and what is done with its page. -/
structure ListRequest where
  params : ListStreamsParams
  append : Bool
  deriving DecidableEq

/-- The hook after a render; without `params` the client is not ready. -/
structure ListHook (ι : Type) where
  params : Option ListStreamsParams := none
  streams : List ι := []
  isLoading : Bool := false
  error : Option Thrown := none
  cursor : Option String := none
  hasMore : Bool := false
  requestId : ℕ := 0
  waiting : List (ℕ × ListRequest) := []
  deriving DecidableEq

/-- An answer is what `list` makes of the contracts at that time. -/
inductive ListHookEvent (ι : Type) where
  | effect (params : Option ListStreamsParams)
  | loadMore
  | answer (id : ℕ) (r : Reads ι)

variable {ι : Type}

namespace ListHook

def send (s : ListHook ι) (req : ListRequest) : ListHook ι :=
  { s with requestId := s.requestId + 1, isLoading := true, waiting := s.waiting ++ [(s.requestId + 1, req)] }

/-- The effect of the client and its parameters. -/
def effect (s : ListHook ι) (params : Option ListStreamsParams) : ListHook ι :=
  let s := { s with params := params, streams := [], cursor := none, hasMore := false }
  match params with
  | none => { s with requestId := s.requestId + 1 }
  | some params => { s.send ⟨params, false⟩ with error := none }

def loadMore (s : ListHook ι) : ListHook ι :=
  match s.params, truthyText s.cursor with
  | some params, some cursor =>
    if !s.hasMore || s.isLoading then s else s.send ⟨{ params with cursor := some cursor }, true⟩
  | _, _ => s

/-- The answer to the latest request. -/
def receive (s : ListHook ι) (req : ListRequest) : Except Thrown (PaginatedStreams ι) → ListHook ι
  | .ok page => { s with
      streams := if req.append then s.streams ++ page.streams else page.streams
      cursor := page.nextCursor
      hasMore := page.hasNextPage
      isLoading := false }
  | .error err => { s with error := some (toError err), isLoading := false }

def answer (s : ListHook ι) (id : ℕ) (req : ListRequest) (r : Reads ι) : ListHook ι :=
  let s' := { s with waiting := s.waiting.filter fun p => p.1 ≠ id }
  if s.requestId ≠ id then s' else s'.receive req (list r req.params false)

end ListHook

def listHookStep (s : ListHook ι) : ListHookEvent ι → Option (ListHook ι)
  | .effect params => some (s.effect params)
  | .loadMore => some s.loadMore
  | .answer id r => (s.waiting.lookup id).map fun req => s.answer id req r

/-! ## Pages that follow each other -/

/-- Each page but the first was asked for with the cursor of the one before; `R` are the contracts they were read
from. -/
inductive Walked (R : Reads ι → Prop) (params : ListStreamsParams) : List (PaginatedStreams ι) → Prop
  | first {r page} : R r → list r params false = .ok page → Walked R params [page]
  | more {r pages last cursor page} : Walked R params (pages ++ [last]) → last.hasNextPage = true →
      truthyText last.nextCursor = some cursor → R r →
      list r { params with cursor := some cursor } false = .ok page → Walked R params (pages ++ [last] ++ [page])

theorem Walked.mono {R R' : Reads ι → Prop} (hR : ∀ r, R r → R' r) {params : ListStreamsParams}
    {pages : List (PaginatedStreams ι)} (h : Walked R params pages) : Walked R' params pages := by
  induction h with
  | first hr hpage => exact .first (hR _ hr) hpage
  | more _ hnext hcursor hr hpage ih => exact .more ih hnext hcursor (hR _ hr) hpage

theorem truthyText_eq_some {s : Option String} {t : String} (h : truthyText s = some t) : s = some t :=
  (Option.filter_eq_some_iff.mp h).1

/-- Contracts that do not change have one walk: what comes next is what the rest of the pages starts with. -/
theorem Walked.rest {r : Reads ι} {params : ListStreamsParams} {pages pages' : List (PaginatedStreams ι)}
    (h : Walked (· = r) params pages) (h' : Pages r params pages') : ∃ front last rest, pages = front ++ [last] ∧
      pages' = pages ++ rest ∧ ∀ cursor, last.nextCursor = some cursor →
        Pages r { params with cursor := some cursor } rest := by
  induction h with
  | first hr hpage =>
    subst hr
    cases h' with
    | last hlast hnone =>
      cases hpage.symm.trans hlast
      exact ⟨[], _, [], rfl, rfl, by simp [hnone]⟩
    | next hnext hsome hrest =>
      cases hpage.symm.trans hnext
      refine ⟨[], _, _, rfl, rfl, ?_⟩
      intro cursor hcursor
      cases hsome.symm.trans hcursor
      exact hrest
  | @more r' front last cursor page _ hnext hcursor hr hpage ih =>
    subst hr
    obtain ⟨front', last', rest, heq, rfl, hrest⟩ := ih
    obtain ⟨rfl, hlast⟩ := List.append_inj' heq rfl
    cases hlast
    have hpages := hrest cursor (truthyText_eq_some hcursor)
    cases hpages with
    | last hlast' hnone =>
      cases hpage.symm.trans hlast'
      exact ⟨_, _, [], rfl, by simp, by simp [hnone]⟩
    | next hnext' hsome hrest' =>
      cases hpage.symm.trans hnext'
      refine ⟨_, _, _, rfl, List.append_cons _ _ _, ?_⟩
      intro cursor' hcursor'
      cases hsome.symm.trans hcursor'
      exact hrest'

/-- What may come after a page. -/
inductive FollowsOn (r : Reads ι) (params : ListStreamsParams) : Option String → List (PaginatedStreams ι) → Prop
  | stop : FollowsOn r params none []
  | next {cursor rest} : Pages r { params with cursor := some cursor } rest → FollowsOn r params (some cursor) rest

theorem Walked.pages {r : Reads ι} {params : ListStreamsParams} {pages : List (PaginatedStreams ι)}
    (h : Walked (· = r) params pages) : ∀ front last rest, pages = front ++ [last] →
      FollowsOn r params last.nextCursor rest → Pages r params (pages ++ rest) := by
  induction h with
  | @first r' page hr hpage =>
    intro front last rest heq hrest
    have hsplit : [] ++ [page] = front ++ [last] := heq
    obtain ⟨rfl, hlast⟩ := List.append_inj' hsplit rfl
    cases hlast
    subst hr
    generalize hcursor : page.nextCursor = cursor at hrest
    cases hrest with
    | stop => exact .last hpage hcursor
    | next hrest => exact .next hpage hcursor hrest
  | @more r' front last cursor page _ hnext hcursor hr hpage ih =>
    intro front' last' rest heq hrest
    obtain ⟨rfl, hlast⟩ := List.append_inj' heq rfl
    cases hlast
    subst hr
    have hpages : Pages r' { params with cursor := some cursor } (page :: rest) := by
      generalize hend : page.nextCursor = cursor' at hrest
      cases hrest with
      | stop => exact .last hpage hend
      | next hrest => exact .next hpage hend hrest
    rw [← List.append_cons]
    apply ih front last (page :: rest) rfl
    rw [truthyText_eq_some hcursor]
    exact .next hpages

theorem nextCursor_of_page {r : Reads ι} {offset limit : Number} {ids : List ℤ} {more : Option Bool}
    {page : PaginatedStreams ι} (h : pageFromFilteredIds r offset limit ids more = .ok page)
    (hlast : page.hasNextPage = false) : page.nextCursor = none := by
  simp only [pageFromFilteredIds, bind_eq_ok] at h
  obtain ⟨_, -, streams, -, h⟩ := h
  split at h
  · cases h
  · cases h
    exact if_neg (by simpa using hlast)

theorem nextCursor_of_list {r : Reads ι} {params : ListStreamsParams} {page : PaginatedStreams ι}
    (h : list r params false = .ok page) (hlast : page.hasNextPage = false) : page.nextCursor = none := by
  simp only [list, Bool.false_eq_true, if_false, bind_eq_ok] at h
  obtain ⟨offset, -, h⟩ := h
  split at h
  · simp only [bind_eq_ok] at h
    obtain ⟨_, -, _, -, h⟩ := h
    exact nextCursor_of_page h hlast
  · simp only [bind_eq_ok] at h
    obtain ⟨_, -, h⟩ := h
    exact nextCursor_of_page h hlast
  · simp only [bind_eq_ok] at h
    obtain ⟨_, -, h⟩ := h
    exact nextCursor_of_page h hlast
  · cases h
    rfl

/-- The last page has a cursor only if more are promised. -/
theorem Walked.nextCursor {R : Reads ι → Prop} {params : ListStreamsParams} {pages : List (PaginatedStreams ι)}
    {last : PaginatedStreams ι} (h : Walked R params pages) (hlast : pages.getLast? = some last)
    (hnext : last.hasNextPage = false) : last.nextCursor = none := by
  cases h with
  | first _ hpage =>
    cases hlast
    exact nextCursor_of_list hpage hnext
  | more _ _ _ _ hpage =>
    rw [List.getLast?_concat] at hlast
    cases hlast
    exact nextCursor_of_list hpage hnext

/-! ## What is shown -/

namespace ListHook

/-- The streams are those of pages that follow each other. -/
def Shows (R : Reads ι → Prop) (s : ListHook ι) : Prop :=
  ∃ params front last, s.params = some params ∧ Walked R params (front ++ [last]) ∧
    s.streams = (front ++ [last]).flatMap (·.streams) ∧ s.cursor = last.nextCursor ∧ s.hasMore = last.hasNextPage

def Blank (s : ListHook ι) : Prop := s.streams = [] ∧ s.cursor = none ∧ s.hasMore = false

/-- A request for the page that comes next. -/
def Asks (s : ListHook ι) (req : ListRequest) : Prop :=
  ∃ params, s.params = some params ∧ (req = ⟨params, false⟩ ∨
    ∃ cursor, req = ⟨{ params with cursor := some cursor }, true⟩ ∧ truthyText s.cursor = some cursor ∧
      s.hasMore = true)

structure Tidy (R : Reads ι → Prop) (s : ListHook ι) : Prop where
  numbered : ∀ p ∈ s.waiting, p.1 ≤ s.requestId
  shown : s.Blank ∨ s.Shows R
  current : ∀ req, s.waiting.lookup s.requestId = some req → s.Asks req
  settled : s.params ≠ none → s.isLoading = true ∨ s.error ≠ none ∨ s.Shows R

variable {R R' : Reads ι → Prop} {s : ListHook ι}

theorem Shows.mono (hR : ∀ r, R r → R' r) (h : s.Shows R) : s.Shows R' := by
  obtain ⟨params, front, last, hparams, hwalk, hshown⟩ := h
  exact ⟨params, front, last, hparams, hwalk.mono hR, hshown⟩

theorem Tidy.mono (hR : ∀ r, R r → R' r) (h : s.Tidy R) : s.Tidy R' where
  numbered := h.numbered
  shown := h.shown.imp id (Shows.mono hR)
  current := h.current
  settled hparams := (h.settled hparams).imp id (Or.imp id (Shows.mono hR))

/-- Sending a request for the page that comes next. -/
theorem Tidy.send (h : s.Tidy R) {req : ListRequest} (hasks : s.Asks req) : (s.send req).Tidy R where
  numbered := numbered_sent h.numbered req
  shown := h.shown
  current req' hreq' := by
    cases (lookup_sent h.numbered req).symm.trans hreq'
    exact hasks
  settled _ := .inl rfl

theorem Tidy.effect (h : s.Tidy R) (params : Option ListStreamsParams) : (s.effect params).Tidy R := by
  have hblank : (s.effect params).Blank := by cases params <;> exact ⟨rfl, rfl, rfl⟩
  cases params with
  | none =>
    refine ⟨fun p hp => Nat.le_succ_of_le (h.numbered p hp), .inl hblank, ?_, fun hne => absurd rfl hne⟩
    intro req hreq
    cases (lookup_next h.numbered).symm.trans hreq
  | some params =>
    refine ⟨numbered_sent h.numbered _, .inl hblank, ?_, fun _ => .inl rfl⟩
    intro req hreq
    cases (lookup_sent h.numbered _).symm.trans hreq
    exact ⟨params, rfl, .inl rfl⟩

theorem Tidy.loadMore (h : s.Tidy R) : s.loadMore.Tidy R := by
  unfold ListHook.loadMore
  split
  · rename_i params cursor hparams hcursor
    split_ifs with hguard
    · exact h
    · simp only [Bool.or_eq_true, Bool.not_eq_true', not_or, Bool.not_eq_false] at hguard
      exact h.send ⟨params, hparams, .inr ⟨cursor, rfl, hcursor, hguard.1⟩⟩
  · exact h

/-- A page that was asked for follows the ones that are shown. -/
theorem Tidy.page (h : s.Tidy R) {r : Reads ι} (hr : R r) {req : ListRequest} (hasks : s.Asks req)
    {page : PaginatedStreams ι} (hpage : list r req.params false = .ok page) (waiting : List (ℕ × ListRequest)) :
    ({ s with waiting := waiting }.receive req (.ok page)).Shows R := by
  obtain ⟨params, hparams, rfl | ⟨cursor, rfl, hcursor, hmore⟩⟩ := hasks
  · exact ⟨params, [], page, hparams, .first hr hpage, by simp [receive], rfl, rfl⟩
  · rcases h.shown with ⟨-, -, hnone⟩ | ⟨params', front, last, hparams', hwalk, hstreams, hlast, hnext⟩
    · simp [hmore] at hnone
    · cases hparams.symm.trans hparams'
      rw [hlast] at hcursor
      rw [hnext] at hmore
      refine ⟨params, front ++ [last], page, hparams, hwalk.more hmore hcursor hr hpage, ?_, rfl, rfl⟩
      simp [receive, hstreams]

theorem Tidy.answer (h : s.Tidy R) {r : Reads ι} (hr : R r) {id : ℕ} {req : ListRequest}
    (hreq : s.waiting.lookup id = some req) : (s.answer id req r).Tidy R := by
  have hnumbered : ∀ p ∈ s.waiting.filter fun p => p.1 ≠ id, p.1 ≤ s.requestId :=
    fun p hp => h.numbered p (List.mem_of_mem_filter hp)
  unfold ListHook.answer
  split_ifs with hid
  · exact ⟨hnumbered, h.shown, fun req' hreq' => h.current req' ((lookup_filter_ne hid _).symm.trans hreq'),
      h.settled⟩
  · obtain rfl := not_not.mp hid
    have hasks := h.current req hreq
    have hcurrent : ∀ req', (s.waiting.filter fun p => p.1 ≠ s.requestId).lookup s.requestId = some req' → False := by
      intro req' hreq'
      cases (lookup_filter_self s.requestId s.waiting).symm.trans hreq'
    cases hpage : list r req.params false with
    | error err =>
      exact ⟨hnumbered, h.shown, fun req' hreq' => (hcurrent req' hreq').elim, fun _ => .inr (.inl (by simp [receive]))⟩
    | ok page =>
      have hshows := h.page hr hasks hpage (s.waiting.filter fun p => p.1 ≠ s.requestId)
      exact ⟨hnumbered, .inr hshows, fun req' hreq' => (hcurrent req' hreq').elim, fun _ => .inr (.inr hshows)⟩

end ListHook

/-- The contracts that answered in a run. -/
def Answered (log : List (ListHookEvent ι)) (r : Reads ι) : Prop := ∃ id, .answer id r ∈ log

variable {s : ListHook ι} {log : List (ListHookEvent ι)}

theorem ListHook.tidy_run (h : run listHookStep {} log = some s) : s.Tidy (Answered log) := by
  refine run_induction (P := fun s log => s.Tidy (Answered log)) ?_ ?_ h
  · exact ⟨by simp, .inl ⟨rfl, rfl, rfl⟩, by simp, by simp⟩
  · intro s log e s' hs hstep
    have hmono : s.Tidy (Answered (log ++ [e])) := by
      apply hs.mono
      rintro r ⟨id, hid⟩
      exact ⟨id, List.mem_append_left _ hid⟩
    cases e with
    | effect params =>
      cases hstep
      exact hmono.effect params
    | loadMore =>
      cases hstep
      exact hmono.loadMore
    | answer id r =>
      obtain ⟨req, hreq, rfl⟩ := Option.map_eq_some_iff.mp hstep
      exact hmono.answer ⟨id, by simp⟩ hreq

def pagedParams : ListStreamsParams where
  sender := some "G"
  recipient := none
  offset := none
  limit := some (.fin 2)
  cursor := none

/-- Two effects, a page, a late answer, and the page after it. -/
def pagedLog : List (ListHookEvent ℤ) :=
  [.effect (some { pagedParams with limit := some (.fin 1) }), .effect (some pagedParams),
    .answer 2 (fixedReads [5, 6, 7] []), .loadMore, .answer 1 (fixedReads [5, 6, 7] []),
    .answer 3 (fixedReads [5, 6, 7] [])]

def paged : ListHook ℤ := { params := some pagedParams, streams := [5, 6, 7], requestId := 3 }

theorem run_paged : run listHookStep {} pagedLog = some paged := by decide +kernel

theorem answered_paged (r : Reads ℤ) (h : Answered pagedLog r) : r = fixedReads [5, 6, 7] [] := by
  obtain ⟨id, hid⟩ := h
  simp [pagedLog] at hid
  tauto

/-- **What the list shows**: nothing, or pages that follow each other from the first one on, for the parameters of the
last render. No answer comes in twice or at the wrong place, however late it is. -/
theorem listHook_run (h : run listHookStep {} log = some s) : s.Blank ∨ s.Shows (Answered log) :=
  (ListHook.tidy_run h).shown

theorem listHook_run_paged : paged.Blank ∨ paged.Shows (Answered pagedLog) := listHook_run run_paged

/-- **The whole list.** While the contracts answer alike, the streams are the beginning of what all pages hold; and if
no more are promised and nothing is on its way or went wrong, they are all of it. -/
theorem listHook_complete {r : Reads ι} {params : ListStreamsParams} (h : run listHookStep {} log = some s)
    (hsame : ∀ r', Answered log r' → r' = r) (hparams : s.params = some params) :
    (∀ pages, Pages r params pages → s.streams <+: pages.flatMap (·.streams)) ∧
      (s.hasMore = false → s.isLoading = false → s.error = none →
        ∃ pages, Pages r params pages ∧ s.streams = pages.flatMap (·.streams)) := by
  have htidy := (ListHook.tidy_run h).mono hsame
  constructor
  · intro pages hpages
    rcases htidy.shown with ⟨hnil, -⟩ | ⟨params', front, last, hparams', hwalk, hstreams, -⟩
    · rw [hnil]
      exact List.nil_prefix
    · cases hparams.symm.trans hparams'
      obtain ⟨-, -, rest, -, rfl, -⟩ := hwalk.rest hpages
      rw [hstreams]
      exact ⟨rest.flatMap (·.streams), List.flatMap_append.symm⟩
  · intro hmore hloading herror
    rcases htidy.settled (by simp [hparams]) with
      hload | herr | ⟨params', front, last, hparams', hwalk, hstreams, -, hnext⟩
    · simp [hloading] at hload
    · exact absurd herror herr
    · cases hparams.symm.trans hparams'
      refine ⟨front ++ [last], ?_, hstreams⟩
      have hnone := hwalk.nextCursor (by simp) (hnext.symm.trans hmore)
      simpa using hwalk.pages front last [] rfl (hnone ▸ .stop)

theorem listHook_complete_paged :
    (∀ pages, Pages (fixedReads [5, 6, 7] []) pagedParams pages → paged.streams <+: pages.flatMap (·.streams)) ∧
      (paged.hasMore = false → paged.isLoading = false → paged.error = none →
        ∃ pages, Pages (fixedReads [5, 6, 7] []) pagedParams pages ∧ paged.streams = pages.flatMap (·.streams)) :=
  listHook_complete run_paged answered_paged rfl

end StreamFi
