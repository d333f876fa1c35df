import StreamFi.Events.Decode

/-!
# Replaying the history of a stream

`replayEvents` pages through the events of a range of ledgers and hands each to the handlers.

* `readPage`, `replayLoop`, `replayEvents`: the code; the loop is followed for a number of requests, and has
  no result as long as it has neither returned nor thrown;
* `ServesHistory`: what is relied on of the server;
* `replayLoop_page`: one round, and **`replayLoop_run`**: any number of rounds;
* **`replays_iff`**: when the replay is complete and keeps to its number of pages; `replays_half` is one that
  does not, **`replayEvents_settles`** says that it ends.
-/

namespace StreamFi

open Js

/-! ## The code -/

/-- `DEFAULT_REPLAY_PAGE_SIZE`. -/
def defaultReplayPageSize : Number := .fin 200

/-- `DEFAULT_REPLAY_MAX_PAGES`. -/
def defaultReplayMaxPages : Number := .fin 1000

structure ReplayEventsOptions where
  toLedger : Option Number := none
  pageSize : Option Number := none
  maxPages : Option Number := none

namespace ReplayEventsOptions

variable (o : ReplayEventsOptions)

def size : Number := o.pageSize.getD defaultReplayPageSize

def limit : Number := o.maxPages.getD defaultReplayMaxPages

end ReplayEventsOptions

structure ReplayEventsResult where
  dispatched : ℕ
  lastLedger : Option Number
  deriving DecidableEq

/-- The variables of the replay, with the events that were handed to `dispatchIsolated` and the requests that
were made; there are as many of them as `pagesFetched` says. -/
structure ReplayState where
  seen : List (Option String) := []
  handed : List RawEvent := []
  dispatched : ℕ := 0
  lastLedger : Option Number := none
  requests : List EventsQuery := []

/-- A replay, with what it has come to. -/
abbrev Replay := ReplayState × Option (Except Thrown ReplayEventsResult)

/-- `event.ledger > toLedger`. -/
def RawEvent.past (toLedger : Number) (event : RawEvent) : Bool := event.ledger.any toLedger.lt

def ReplayState.hand (s : ReplayState) (event : RawEvent) : ReplayState :=
  { s with
    seen := s.seen ++ [event.id]
    handed := s.handed ++ [event]
    dispatched := s.dispatched + 1
    lastLedger := event.ledger }

/-- The loop over a page, and whether it has come to an event past the range. -/
def readPage (toLedger : Number) (s : ReplayState) : List RawEvent → ReplayState × Bool
  | [] => (s, false)
  | event :: events =>
    if event.past toLedger then (s, true)
    else if event.id ∈ s.seen then readPage toLedger s events
    else readPage toLedger (s.hand event) events

section Loop

variable (server : EventsServer) (streamAddress : String) (fromLedger toLedger pageSize maxPages : Number)

/-- The request for a page. -/
def replayQuery (cursor : Option String) : EventsQuery :=
  match truthyText cursor with
  | some cursor => { cursor := some cursor, contractId := streamAddress, limit := pageSize }
  | none => { startLedger := some fromLedger, contractId := streamAddress, limit := pageSize }

/-- The loop of `replayEvents`, for at most that many requests. -/
def replayLoop : ℕ → Option String → ReplayState → Replay
  | 0, _, s => (s, none)
  | fuel + 1, cursor, s =>
    if maxPages.le (.fin s.requests.length) then
      (s, some (throwNew (s!"replayEvents: exceeded maxPages ({numToText maxPages}) before reaching " ++
        s!"toLedger {numToText toLedger}")))
    else
      let query := replayQuery streamAddress fromLedger pageSize cursor
      let s := { s with requests := s.requests ++ [query] }
      match server.getEvents query with
      | .error err => (s, some (.error err))
      | .ok response =>
        let (s, pastRange) := readPage toLedger s response.events
        let result := some (.ok { dispatched := s.dispatched, lastLedger := s.lastLedger })
        if pastRange then (s, result)
        else
          match truthyText response.cursor with
          | none => (s, result)
          | some responseCursor =>
            if (Number.fin response.events.length).lt pageSize then (s, result)
            else replayLoop fuel (some responseCursor) s

end Loop

def replayEvents (server : EventsServer) (streamAddress : String) (fromLedger : Number)
    (options : ReplayEventsOptions) (fuel : ℕ) : Replay :=
  if ¬ fromLedger.isInteger ∨ fromLedger.lt (.fin 1) then
    ({}, some (throwNew s!"fromLedger must be a positive integer, got {numToText fromLedger}"))
  else
    match options.toLedger.filter fun toLedger => ¬ toLedger.isInteger ∨ toLedger.lt fromLedger with
    | some toLedger =>
      ({}, some (throwNew s!"toLedger must be an integer >= fromLedger, got {numToText toLedger}"))
    | none =>
      let pageSize := options.size
      if ¬ pageSize.isInteger ∨ pageSize.lt (.fin 1) ∨ maxHistoryPageSize.lt pageSize then
        ({}, some (throwNew (s!"pageSize must be an integer between 1 and {numToText maxHistoryPageSize}, " ++
          s!"got {numToText pageSize}")))
      else
        match options.toLedger.elim server.getLatestLedger .ok with
        | .error err => ({}, some (.error err))
        | .ok toLedger => replayLoop server streamAddress fromLedger toLedger pageSize options.limit fuel none {}

/-! ## The server -/

/-- A page of a server that still has `rest`: it is full as long as more follows, and then it has a cursor
that stands behind it. `ends` says that a last page has none though it is full. -/
structure ServesPage (limit : ℕ) (ends : Bool) (stands : String → List RawEvent → Prop) (rest : List RawEvent)
    (response : EventsResponse) : Prop where
  events : response.events = rest.take limit
  more : limit < rest.length ∨ limit = rest.length ∧ ends = false →
    ∃ cursor, truthyText response.cursor = some cursor ∧ stands cursor (rest.drop limit)
  last : limit = rest.length → ends = true → truthyText response.cursor = none

/-- A server with these events of the contract from that ledger on, in the order of their ledgers, with
distinct ids; `stands` says which events a cursor stands before. -/
structure ServesHistory (server : EventsServer) (streamAddress : String) (fromLedger : Number) (limit : ℕ)
    (ends : Bool) (stands : String → List RawEvent → Prop) (events : List RawEvent) : Prop where
  dated : ∀ event ∈ events, ∃ q, event.ledger = some (.fin q)
  since : ∀ event ∈ events, ∀ ledger, event.ledger = some ledger → fromLedger.le ledger = true
  ordered : events.Pairwise fun a b =>
    ∀ x y, a.ledger = some x → b.ledger = some y → x.le y = true
  distinct : (events.map RawEvent.id).Nodup
  first : ∃ response, server.getEvents (replayQuery streamAddress fromLedger (.fin limit) none) = .ok response ∧
    ServesPage limit ends stands events response
  next : ∀ cursor rest, stands cursor rest → ∃ response,
    server.getEvents (replayQuery streamAddress fromLedger (.fin limit) (some cursor)) = .ok response ∧
      ServesPage limit ends stands rest response

/-- The events that a replay is for. -/
def RawEvent.inRange (fromLedger toLedger : Number) (event : RawEvent) : Bool :=
  event.ledger.any fun ledger => fromLedger.le ledger && ledger.le toLedger

/-- The pages up to the first event past the range, or all of them, where `n` events of `total` are in
the range. -/
def pagesNeeded (limit n total : ℕ) (ends : Bool) : ℕ :=
  if n = total ∧ 0 < n ∧ limit ∣ n ∧ ends = true then n / limit else n / limit + 1

/-! ## One page -/

/-- The state after these requests, when these events have been handed over. -/
def replayed (requests : List EventsQuery) (events : List RawEvent) : ReplayState where
  seen := events.map RawEvent.id
  handed := events
  dispatched := events.length
  lastLedger := events.getLast?.bind RawEvent.ledger
  requests := requests

theorem hand_replayed (requests : List EventsQuery) (events : List RawEvent) (event : RawEvent) :
    (replayed requests events).hand event = replayed requests (events ++ [event]) := by
  simp [ReplayState.hand, replayed]

/-- **The loop over a page** hands over what is in the range. -/
theorem readPage_eq (toLedger : Number) (requests : List EventsQuery) (events page : List RawEvent)
    (h : ((events ++ page).map RawEvent.id).Nodup) :
    readPage toLedger (replayed requests events) page =
      (replayed requests (events ++ page.takeWhile fun event => !event.past toLedger),
        page.any (RawEvent.past toLedger)) := by
  induction page generalizing events with
  | nil => simp [readPage]
  | cons event page ih =>
    rw [readPage]
    by_cases hpast : event.past toLedger = true
    · simp [hpast]
    · have hfresh : event.id ∉ (replayed requests events).seen := by
        rw [List.map_append, List.map_cons, List.nodup_append] at h
        intro hmem
        exact h.2.2 _ hmem _ List.mem_cons_self rfl
      rw [if_neg hpast, if_neg hfresh, hand_replayed, ih (events ++ [event]) (by simpa using h)]
      simp [hpast]

/-! ## One round -/

section Rounds

variable {server : EventsServer} {streamAddress : String} {fromLedger toLedger maxPages : Number} {limit : ℕ}
  {ends : Bool} {stands : String → List RawEvent → Prop} {events : List RawEvent}

/-- The events before the first one past the range. -/
def before (toLedger : Number) (rest : List RawEvent) : List RawEvent :=
  rest.takeWhile fun event => !event.past toLedger

/-- The pages that a replay of `rest` needs. -/
def pagesOf (toLedger : Number) (limit : ℕ) (ends : Bool) (rest : List RawEvent) : ℕ :=
  pagesNeeded limit (before toLedger rest).length rest.length ends

/-- What the replay returns when it has handed over these events. -/
def summary (events : List RawEvent) : ReplayEventsResult where
  dispatched := events.length
  lastLedger := events.getLast?.bind RawEvent.ledger

theorem before_eq_self_iff : before toLedger events = events ↔ ¬ events.any (RawEvent.past toLedger) = true := by
  rw [before, List.takeWhile_eq_self_iff]
  simp

theorem length_before_le (toLedger : Number) (events : List RawEvent) :
    (before toLedger events).length ≤ events.length :=
  (List.takeWhile_prefix _).length_le

theorem length_before_eq_iff :
    (before toLedger events).length = events.length ↔ ¬ events.any (RawEvent.past toLedger) = true := by
  rw [← before_eq_self_iff]
  exact ⟨(List.takeWhile_prefix _).eq_of_length, congrArg List.length⟩

theorem before_append (toLedger : Number) (page rest : List RawEvent) :
    before toLedger (page ++ rest) =
      if (before toLedger page).length = page.length then page ++ before toLedger rest else before toLedger page :=
  List.takeWhile_append

theorem before_take (toLedger : Number) (limit : ℕ) (rest : List RawEvent) :
    before toLedger rest = if (rest.take limit).any (RawEvent.past toLedger) then
      before toLedger (rest.take limit) else rest.take limit ++ before toLedger (rest.drop limit) := by
  have hsplit := before_append toLedger (rest.take limit) (rest.drop limit)
  rwa [List.take_append_drop, if_congr length_before_eq_iff rfl rfl, ite_not] at hsplit

/-- A page with an event past the range is the last one that is needed. -/
theorem pagesOf_past {rest : List RawEvent} (h : (rest.take limit).any (RawEvent.past toLedger) = true) :
    pagesOf toLedger limit ends rest = 1 := by
  have hlt : (before toLedger (rest.take limit)).length < (rest.take limit).length :=
    (length_before_le toLedger _).lt_of_ne fun heq => length_before_eq_iff.mp heq h
  rw [List.length_take] at hlt
  rw [pagesOf, pagesNeeded, before_take toLedger limit, if_pos h, if_neg (by omega),
    Nat.div_eq_of_lt (by omega)]

/-- So is a page that is not full. -/
theorem pagesOf_short {rest : List RawEvent} (h : rest.length < limit) : pagesOf toLedger limit ends rest = 1 := by
  have hle := length_before_le toLedger rest
  rw [pagesOf, pagesNeeded, if_neg, Nat.div_eq_of_lt (by omega)]
  rintro ⟨-, hpos, hdvd, -⟩
  have := Nat.le_of_dvd hpos hdvd
  omega

/-- And a full page without a cursor. -/
theorem pagesOf_full (hlimit : 0 < limit) {rest : List RawEvent} (h : limit = rest.length)
    (hin : ¬ (rest.take limit).any (RawEvent.past toLedger) = true) : pagesOf toLedger limit true rest = 1 := by
  have hdrop : rest.drop limit = [] := List.drop_eq_nil_of_le h.ge
  have htake : rest.take limit = rest := List.take_of_length_le h.ge
  have hbefore := before_take toLedger limit rest
  rw [if_neg hin, hdrop, htake] at hbefore
  have hlen : (before toLedger rest).length = limit := by
    rw [hbefore, before, List.takeWhile_nil, List.append_nil, h]
  rw [pagesOf, pagesNeeded, hlen, if_pos ⟨h, hlimit, dvd_rfl, rfl⟩, Nat.div_self hlimit]

theorem ends_of_not_more {rest : List RawEvent} (h : ¬ (limit < rest.length ∨ limit = rest.length ∧ ends = false))
    (hfull : ¬ rest.length < limit) : limit = rest.length ∧ ends = true := by
  have hlimit : limit = rest.length := by omega
  refine ⟨hlimit, ?_⟩
  by_contra hends
  exact h (.inr ⟨hlimit, Bool.eq_false_of_not_eq_true hends⟩)

theorem pagesOf_last (hlimit : 0 < limit) {rest : List RawEvent}
    (hlast : ¬ (limit < rest.length ∨ limit = rest.length ∧ ends = false))
    (hin : ¬ (rest.take limit).any (RawEvent.past toLedger) = true) : pagesOf toLedger limit ends rest = 1 := by
  by_cases hshort : rest.length < limit
  · exact pagesOf_short hshort
  · obtain ⟨hfull, rfl⟩ := ends_of_not_more hlast hshort
    exact pagesOf_full hlimit hfull hin

/-- Such a page has no cursor, unless it is not full. -/
theorem ServesPage.short {rest : List RawEvent} {response : EventsResponse} {cursor : String}
    (h : ServesPage limit ends stands rest response)
    (hlast : ¬ (limit < rest.length ∨ limit = rest.length ∧ ends = false))
    (hcursor : truthyText response.cursor = some cursor) : rest.length < limit := by
  by_contra hshort
  obtain ⟨hfull, hends⟩ := ends_of_not_more hlast hshort
  rw [h.last hfull hends] at hcursor
  cases hcursor

/-- Behind any other page the rest is needed. -/
theorem pagesOf_more (hlimit : 0 < limit) {rest : List RawEvent}
    (hmore : limit < rest.length ∨ limit = rest.length ∧ ends = false)
    (hin : ¬ (rest.take limit).any (RawEvent.past toLedger) = true) :
    pagesOf toLedger limit ends rest = pagesOf toLedger limit ends (rest.drop limit) + 1 := by
  have hbefore := before_take toLedger limit rest
  rw [if_neg hin] at hbefore
  have hlen : (before toLedger rest).length = limit + (before toLedger (rest.drop limit)).length := by
    rw [hbefore, List.length_append, List.length_take, Nat.min_eq_left (by omega)]
  rw [pagesOf, pagesOf, pagesNeeded, pagesNeeded, hlen, List.length_drop, Nat.add_div_left _ hlimit]
  have hiff : (limit + (before toLedger (rest.drop limit)).length = rest.length ∧
        0 < limit + (before toLedger (rest.drop limit)).length ∧
        limit ∣ limit + (before toLedger (rest.drop limit)).length ∧ ends = true) ↔
      (before toLedger (rest.drop limit)).length = rest.length - limit ∧
        0 < (before toLedger (rest.drop limit)).length ∧
        limit ∣ (before toLedger (rest.drop limit)).length ∧ ends = true := by
    rw [Nat.dvd_add_right (dvd_refl limit)]
    constructor
    · rintro ⟨h₁, -, h₃, h₄⟩
      rw [h₄] at hmore
      refine ⟨by omega, ?_, h₃, h₄⟩
      rcases hmore with h | ⟨-, h⟩
      · omega
      · cases h
    · rintro ⟨h₁, h₂, h₃, h₄⟩
      exact ⟨by omega, by omega, h₃, h₄⟩
  rw [if_congr hiff rfl rfl]
  split_ifs <;> omega

/-- What the server answers to the request with that cursor. -/
def Answers (server : EventsServer) (streamAddress : String) (fromLedger : Number) (limit : ℕ) (ends : Bool)
    (stands : String → List RawEvent → Prop) (cursor : Option String) (rest : List RawEvent) : Prop :=
  ∃ response, server.getEvents (replayQuery streamAddress fromLedger (.fin limit) cursor) = .ok response ∧
    ServesPage limit ends stands rest response

theorem replayLoop_read {pageSize : Number} {cursor : Option String} {s s' : ReplayState} {response : EventsResponse}
    {pastRange : Bool} (hgo : ¬ maxPages.le (.fin s.requests.length) = true)
    (hresponse : server.getEvents (replayQuery streamAddress fromLedger pageSize cursor) = .ok response)
    (hread : readPage toLedger { s with
      requests := s.requests ++ [replayQuery streamAddress fromLedger pageSize cursor] } response.events =
        (s', pastRange)) (fuel : ℕ) :
    replayLoop server streamAddress fromLedger toLedger pageSize maxPages (fuel + 1) cursor s =
      if pastRange then (s', some (.ok { dispatched := s'.dispatched, lastLedger := s'.lastLedger }))
      else match truthyText response.cursor with
        | none => (s', some (.ok { dispatched := s'.dispatched, lastLedger := s'.lastLedger }))
        | some next =>
          if (Number.fin response.events.length).lt pageSize then
            (s', some (.ok { dispatched := s'.dispatched, lastLedger := s'.lastLedger }))
          else replayLoop server streamAddress fromLedger toLedger pageSize maxPages fuel (some next) s' := by
  rw [replayLoop, if_neg hgo]
  dsimp only
  rw [hresponse]
  dsimp only
  rw [hread]

variable (toLedger) in
/-- **One round** of the loop: it is the last one, or the next starts behind the page. -/
theorem replayLoop_page (hlimit : 0 < limit)
    (hnext : ∀ cursor rest, stands cursor rest →
      Answers server streamAddress fromLedger limit ends stands (some cursor) rest)
    {cursor : Option String} {requests : List EventsQuery} {given rest : List RawEvent}
    (hdistinct : ((given ++ rest).map RawEvent.id).Nodup)
    (hanswers : Answers server streamAddress fromLedger limit ends stands cursor rest)
    (hgo : ¬ maxPages.le (.fin requests.length) = true) (fuel : ℕ) :
    ∃ query,
      (pagesOf toLedger limit ends rest = 1 ∧
        replayLoop server streamAddress fromLedger toLedger (.fin limit) maxPages (fuel + 1) cursor
            (replayed requests given) =
          (replayed (requests ++ [query]) (given ++ before toLedger rest),
            some (.ok (summary (given ++ before toLedger rest))))) ∨
      ∃ next, pagesOf toLedger limit ends rest = pagesOf toLedger limit ends (rest.drop limit) + 1 ∧
        before toLedger rest = rest.take limit ++ before toLedger (rest.drop limit) ∧
        Answers server streamAddress fromLedger limit ends stands (some next) (rest.drop limit) ∧
        replayLoop server streamAddress fromLedger toLedger (.fin limit) maxPages (fuel + 1) cursor
            (replayed requests given) =
          replayLoop server streamAddress fromLedger toLedger (.fin limit) maxPages fuel (some next)
            (replayed (requests ++ [query]) (given ++ rest.take limit)) := by
  obtain ⟨response, hresponse, hpage⟩ := hanswers
  refine ⟨replayQuery streamAddress fromLedger (.fin limit) cursor, ?_⟩
  have hread := readPage_eq toLedger (requests ++ [replayQuery streamAddress fromLedger (.fin limit) cursor])
    given (rest.take limit) (by
      refine hdistinct.sublist ?_
      exact ((List.Sublist.refl given).append (List.take_sublist limit rest)).map _)
  have hbefore := before_take toLedger limit rest
  rw [replayLoop_read hgo hresponse ((congrArg (readPage toLedger _) hpage.events).trans hread) fuel]
  by_cases hpast : (rest.take limit).any (RawEvent.past toLedger) = true
  · rw [if_pos hpast] at hbefore ⊢
    rw [hbefore]
    exact .inl ⟨pagesOf_past hpast, rfl⟩
  · rw [if_neg hpast] at hbefore ⊢
    have hself : before toLedger (rest.take limit) = rest.take limit := before_eq_self_iff.mpr hpast
    have hstate : replayed (requests ++ [replayQuery streamAddress fromLedger (.fin limit) cursor])
        (given ++ (rest.take limit).takeWhile fun event => !event.past toLedger) =
        replayed (requests ++ [replayQuery streamAddress fromLedger (.fin limit) cursor])
          (given ++ rest.take limit) := congrArg (fun es => replayed _ (given ++ es)) hself
    rw [hstate, hpage.events]
    by_cases hmore : limit < rest.length ∨ limit = rest.length ∧ ends = false
    · obtain ⟨next, hcursor, hstands⟩ := hpage.more hmore
      have hfull : ¬ (Number.fin (rest.take limit).length).lt (.fin limit) = true := by
        rw [List.length_take, Nat.min_eq_left (by omega), Number.lt_fin, decide_eq_true_eq]
        exact lt_irrefl _
      rw [hcursor]
      dsimp only
      rw [if_neg hfull]
      exact .inr ⟨next, pagesOf_more hlimit hmore hpast, hbefore, hnext next _ hstands, rfl⟩
    · left
      refine ⟨pagesOf_last hlimit hmore hpast, ?_⟩
      have hall : rest.take limit = rest := List.take_of_length_le (by omega)
      rw [hall] at hself ⊢
      rw [hself]
      cases hcursor : truthyText response.cursor with
      | none => rfl
      | some next =>
        have hlt : (Number.fin rest.length).lt (.fin limit) = true := by
          rw [Number.lt_fin, decide_eq_true_eq]
          exact_mod_cast hpage.short hmore hcursor
        dsimp only
        rw [if_pos hlt]
        rfl

/-! ## A run -/

/-- A run of the loop, from a state in which `given` has been handed over and `rest` has not: what it
returns, how many requests it makes, and that it comes to an end. -/
structure ReplayRun (toLedger maxPages : Number) (limit : ℕ) (ends : Bool) (requests : List EventsQuery)
    (given rest : List RawEvent) (fuel : ℕ) (out : Replay) : Prop where
  returned : ∀ result, out.2 = some (.ok result) →
    out.1.handed = given ++ before toLedger rest ∧ result = summary (given ++ before toLedger rest)
  atMost : out.1.requests.length ≤ requests.length + pagesOf toLedger limit ends rest
  allowed : ∀ j, requests.length ≤ j → j < out.1.requests.length → ¬ maxPages.le (.fin j) = true
  atLeast : ∀ m ≤ fuel, m ≤ pagesOf toLedger limit ends rest →
    (∀ j, requests.length ≤ j → j < requests.length + m → ¬ maxPages.le (.fin j) = true) →
      requests.length + m ≤ out.1.requests.length
  settled : pagesOf toLedger limit ends rest < fuel → out.2.isSome = true

theorem replayRun_start (requests : List EventsQuery) (given rest : List RawEvent) :
    ReplayRun toLedger maxPages limit ends requests given rest 0 (replayed requests given, none) where
  returned _ h := by cases h
  atMost := Nat.le_add_right _ _
  allowed j h₁ h₂ := absurd h₂ (not_lt.mpr h₁)
  atLeast m hm _ _ := by
    rw [Nat.le_zero.mp hm]
    exact le_rfl
  settled h := absurd h (Nat.not_lt_zero _)

/-- The run that has no page left. -/
theorem replayRun_exceeded {requests : List EventsQuery} (given rest : List RawEvent) (fuel : ℕ)
    (h : maxPages.le (.fin requests.length) = true) (err : Thrown) :
    ReplayRun toLedger maxPages limit ends requests given rest (fuel + 1)
      (replayed requests given, some (.error err)) where
  returned _ h := by cases h
  atMost := Nat.le_add_right _ _
  allowed j h₁ h₂ := absurd h₂ (not_lt.mpr h₁)
  atLeast m _ _ hgo := by
    rcases Nat.eq_zero_or_pos m with rfl | hpos
    · exact le_rfl
    · exact absurd h (hgo _ le_rfl (by omega))
  settled _ := rfl

theorem replayRun_last {requests : List EventsQuery} (given rest : List RawEvent) (fuel : ℕ)
    (h : pagesOf toLedger limit ends rest = 1) (hgo : ¬ maxPages.le (.fin requests.length) = true)
    (query : EventsQuery) :
    ReplayRun toLedger maxPages limit ends requests given rest (fuel + 1)
      (replayed (requests ++ [query]) (given ++ before toLedger rest),
        some (.ok (summary (given ++ before toLedger rest)))) where
  returned result h := by
    cases h
    exact ⟨rfl, rfl⟩
  atMost := by
    rw [h]
    simp [replayed]
  allowed j h₁ h₂ := by
    have hj : j = requests.length := by
      simp only [replayed, List.length_append, List.length_singleton] at h₂
      omega
    rwa [hj]
  atLeast m _ hm _ := by
    simp only [replayed, List.length_append, List.length_singleton]
    omega
  settled _ := rfl

/-- One more round, before a run. -/
theorem ReplayRun.round {requests : List EventsQuery} {given rest : List RawEvent} {fuel : ℕ} {out : Replay}
    {query : EventsQuery} (hgo : ¬ maxPages.le (.fin requests.length) = true)
    (hpages : pagesOf toLedger limit ends rest = pagesOf toLedger limit ends (rest.drop limit) + 1)
    (hbefore : before toLedger rest = rest.take limit ++ before toLedger (rest.drop limit))
    (h : ReplayRun toLedger maxPages limit ends (requests ++ [query]) (given ++ rest.take limit)
      (rest.drop limit) fuel out) :
    ReplayRun toLedger maxPages limit ends requests given rest (fuel + 1) out := by
  have hlen : (requests ++ [query]).length = requests.length + 1 := by simp
  obtain ⟨hreturned, hatMost, hallowed, hatLeast, hsettled⟩ := h
  rw [hlen] at hatMost hallowed hatLeast
  refine ⟨fun result hr => ?_, by omega, fun j h₁ h₂ => ?_, fun m hm hm' hfree => ?_, fun hlt => ?_⟩
  · have := hreturned result hr
    rwa [List.append_assoc, ← hbefore] at this
  · rcases Nat.eq_or_lt_of_le h₁ with rfl | hlt
    · exact hgo
    · exact hallowed j hlt h₂
  · rcases Nat.eq_zero_or_pos m with rfl | hpos
    · have := hatLeast 0 (Nat.zero_le _) (Nat.zero_le _) (fun j h₁ h₂ => by omega)
      omega
    · have := hatLeast (m - 1) (by omega) (by omega) fun j h₁ h₂ => hfree j (by omega) (by omega)
      omega
  · exact hsettled (by omega)

/-- **Every run of the loop.** -/
theorem replayLoop_run (hlimit : 0 < limit)
    (hnext : ∀ cursor rest, stands cursor rest →
      Answers server streamAddress fromLedger limit ends stands (some cursor) rest) (fuel : ℕ) :
    ∀ {cursor : Option String} {requests : List EventsQuery} {given rest : List RawEvent},
      ((given ++ rest).map RawEvent.id).Nodup →
      Answers server streamAddress fromLedger limit ends stands cursor rest →
      ReplayRun toLedger maxPages limit ends requests given rest fuel
        (replayLoop server streamAddress fromLedger toLedger (.fin limit) maxPages fuel cursor
          (replayed requests given)) := by
  induction fuel with
  | zero =>
    intro cursor requests given rest _ _
    exact replayRun_start requests given rest
  | succ fuel ih =>
    intro cursor requests given rest hdistinct hanswers
    by_cases hgo : maxPages.le (.fin requests.length) = true
    · rw [replayLoop, if_pos (show maxPages.le (.fin (replayed requests given).requests.length) = true from hgo)]
      exact replayRun_exceeded given rest fuel hgo _
    · obtain ⟨query, ⟨hpages, hlast⟩ | ⟨next, hpages, hbefore, hanswers', hround⟩⟩ :=
        replayLoop_page toLedger hlimit hnext hdistinct hanswers hgo fuel
      · rw [hlast]
        exact replayRun_last given rest fuel hpages hgo query
      · rw [hround]
        refine (ih ?_ hanswers').round hgo hpages hbefore
        rwa [List.append_assoc, List.take_append_drop]

/-! ## The whole replay -/

/-- The arguments of a replay of a range of ledgers that are not rejected: `toLedger` is given, or the latest
ledger is taken. -/
structure AcceptsReplay (server : EventsServer) (fromLedger : Number) (options : ReplayEventsOptions)
    (toLedger : Number) (limit : ℕ) : Prop where
  start : fromLedger.isInteger = true ∧ fromLedger.lt (.fin 1) = false
  upTo : options.toLedger = some toLedger ∧ toLedger.lt fromLedger = false ∨
    options.toLedger = none ∧ server.getLatestLedger = .ok toLedger
  whole : toLedger.isInteger = true
  size : options.size = .fin limit
  sizes : 1 ≤ limit ∧ limit ≤ 200

theorem replayEvents_eq {options : ReplayEventsOptions}
    (h : AcceptsReplay server fromLedger options toLedger limit) (fuel : ℕ) :
    replayEvents server streamAddress fromLedger options fuel =
      replayLoop server streamAddress fromLedger toLedger (.fin limit) options.limit fuel none (replayed [] []) := by
  have hstart : ¬ (¬ fromLedger.isInteger = true ∨ fromLedger.lt (.fin 1) = true) := by
    simp [h.start.1, h.start.2]
  have hgiven : (options.toLedger.filter fun ledger => ¬ ledger.isInteger ∨ ledger.lt fromLedger) = none := by
    rcases h.upTo with ⟨hto, hle⟩ | ⟨hto, -⟩
    · simp [hto, h.whole, hle]
    · simp [hto]
  have hlatest : options.toLedger.elim server.getLatestLedger .ok = .ok toLedger := by
    rcases h.upTo with ⟨hto, -⟩ | ⟨hto, hlatest⟩
    · rw [hto, Option.elim_some]
    · rw [hto, Option.elim_none, hlatest]
  have hsize : ¬ (¬ options.size.isInteger = true ∨ options.size.lt (.fin 1) = true ∨
      maxHistoryPageSize.lt options.size = true) := by
    have hint : Number.isInteger (.fin limit) = true := by exact_mod_cast Number.isInteger_intCast limit
    have hsizes := h.sizes
    simp [h.size, hint, maxHistoryPageSize]
    omega
  rw [replayEvents, if_neg hstart, hgiven]
  dsimp only
  rw [if_neg hsize, hlatest, h.size]
  rfl

/-- In the order of the ledgers the events of the range come first. -/
theorem before_eq_filter (hwhole : toLedger.isInteger = true)
    (hdated : ∀ event ∈ events, ∃ q, event.ledger = some (.fin q))
    (hsince : ∀ event ∈ events, ∀ ledger, event.ledger = some ledger → fromLedger.le ledger = true)
    (hordered : events.Pairwise fun a b => ∀ x y, a.ledger = some x → b.ledger = some y → x.le y = true) :
    before toLedger events = events.filter (RawEvent.inRange fromLedger toLedger) := by
  obtain ⟨t, rfl⟩ := Number.isInteger_iff.mp hwhole
  have hrange : ∀ event ∈ events,
      event.inRange fromLedger (.fin t) = !event.past (.fin t) := by
    intro event hmem
    obtain ⟨q, hq⟩ := hdated event hmem
    have hfrom := hsince event hmem _ hq
    simp [RawEvent.inRange, RawEvent.past, hq, hfrom, Number.lt_fin, Number.le_fin, ← not_lt]
  rw [List.filter_congr hrange, before]
  clear hrange
  induction events with
  | nil => rfl
  | cons event events ih =>
    rw [List.pairwise_cons] at hordered
    have hrest := ih (fun e he => hdated e (List.mem_cons_of_mem _ he))
      (fun e he => hsince e (List.mem_cons_of_mem _ he)) hordered.2
    by_cases hpast : event.past (.fin t) = true
    · have hnone : events.filter (fun e => !e.past (.fin t)) = [] := by
        rw [List.filter_eq_nil_iff]
        intro e he
        obtain ⟨q, hq⟩ := hdated event List.mem_cons_self
        obtain ⟨r, hr⟩ := hdated e (List.mem_cons_of_mem _ he)
        have hle := hordered.1 e he _ _ hq hr
        simp only [RawEvent.past, hq, hr, Option.any_some, Number.lt_fin, Number.le_fin,
          decide_eq_true_eq] at hpast hle ⊢
        simpa using hpast.trans_le hle
      rw [List.takeWhile_cons_of_neg (by simp [hpast]), List.filter_cons_of_neg (by simp [hpast]), hnone]
    · rw [List.takeWhile_cons_of_pos (by simp [hpast]), List.filter_cons_of_pos (by simp [hpast]), hrest]

/-- **A replay that does what it is for**: it makes at most `maxPages` requests, and when it returns it has
handed over the events of the range, each once and in their order, and says how many they are and from which
ledger the last one is. -/
structure Replays (fromLedger toLedger maxPages : Number) (events : List RawEvent) (out : Replay) : Prop where
  bounded : out.1.requests = [] ∨ (Number.fin out.1.requests.length).le maxPages = true
  complete : ∀ result, out.2 = some (.ok result) →
    out.1.handed = events.filter (RawEvent.inRange fromLedger toLedger) ∧
      result.dispatched = out.1.handed.length ∧
      result.lastLedger = out.1.handed.getLast?.bind RawEvent.ledger

theorem pagesNeeded_pos (hlimit : 0 < limit) (n total : ℕ) : 0 < pagesNeeded limit n total ends := by
  rw [pagesNeeded]
  split_ifs with h
  · exact Nat.div_pos (Nat.le_of_dvd h.2.1 h.2.2.1) hlimit
  · exact Nat.succ_pos _

theorem ServesHistory.answers (h : ServesHistory server streamAddress fromLedger limit ends stands events) :
    (∀ cursor rest, stands cursor rest →
      Answers server streamAddress fromLedger limit ends stands (some cursor) rest) ∧
      Answers server streamAddress fromLedger limit ends stands none events :=
  ⟨h.next, h.first⟩

theorem replayEvents_run {options : ReplayEventsOptions}
    (h : AcceptsReplay server fromLedger options toLedger limit)
    (hserves : ServesHistory server streamAddress fromLedger limit ends stands events) (fuel : ℕ) :
    ReplayRun toLedger options.limit limit ends [] [] events fuel
      (replayEvents server streamAddress fromLedger options fuel) := by
  rw [replayEvents_eq h]
  exact replayLoop_run h.sizes.1 hserves.answers.1 fuel (by simpa using hserves.distinct) hserves.answers.2

/-- The limits that no run passes, when it needs that many pages. -/
def LimitKept (maxPages : Number) (pages : ℕ) : Prop :=
  maxPages.isInteger = true ∨ maxPages.le (.fin 0) = true ∨ (Number.fin pages).le maxPages = true

/-- A limit that is between two numbers of requests is passed. -/
theorem limitKept_of_requests {pages : ℕ} (hpos : 0 < pages)
    (h : ∀ k, 0 < k → k ≤ pages → (∀ j < k, ¬ maxPages.le (.fin (j : ℕ)) = true) →
      ∃ n : ℕ, k ≤ n ∧ (Number.fin n).le maxPages = true) : LimitKept maxPages pages := by
  by_contra hnot
  unfold LimitKept at hnot
  push Not at hnot
  obtain ⟨hint, hzero, hneeded⟩ := hnot
  cases maxPages with
  | nan =>
    obtain ⟨n, -, hn⟩ := h 1 one_pos hpos fun j _ hj => (by cases hj)
    cases hn
  | posInf => exact hneeded rfl
  | negInf => exact hzero rfl
  | fin q =>
    simp only [Number.le_fin, ne_eq, decide_eq_true_eq, not_le] at hint hzero hneeded h
    -- the limit is passed by less than one request
    obtain ⟨n, hkn, hnq⟩ := h ⌈q⌉₊ (Nat.ceil_pos.mpr hzero) (Nat.ceil_le.mpr hneeded.le)
      fun j hj => Nat.lt_ceil.mp hj
    have hceil : (⌈q⌉₊ : ℚ) = q := le_antisymm ((Nat.cast_le.mpr hkn).trans hnq) (Nat.le_ceil q)
    rw [← hceil] at hint
    exact hint (by exact_mod_cast Number.isInteger_intCast ⌈q⌉₊)

/-- **A run keeps to such a limit.** -/
theorem ReplayRun.bounded {fuel : ℕ} {out : Replay} (h : ReplayRun toLedger maxPages limit ends [] [] events fuel out)
    (hkept : LimitKept maxPages (pagesOf toLedger limit ends events)) :
    out.1.requests = [] ∨ (Number.fin out.1.requests.length).le maxPages = true := by
  rcases Nat.eq_zero_or_pos out.1.requests.length with hnone | hpos
  · exact .inl (List.eq_nil_of_length_eq_zero hnone)
  right
  rcases hkept with hint | hzero | hneeded
  · have hgo := h.allowed _ (Nat.zero_le _) (Nat.sub_lt hpos one_pos)
    obtain ⟨m, rfl⟩ := Number.isInteger_iff.mp hint
    rw [Number.le_fin, decide_eq_true_eq] at hgo ⊢
    have hlt : ¬ m ≤ ((out.1.requests.length - 1 : ℕ) : ℤ) := fun hle => hgo (by exact_mod_cast hle)
    exact_mod_cast (by omega : (out.1.requests.length : ℤ) ≤ m)
  · exact absurd (by exact_mod_cast hzero) (h.allowed 0 (Nat.zero_le _) hpos)
  · refine Number.le_trans ?_ hneeded
    have hle := h.atMost
    rw [List.length_nil, zero_add] at hle
    rw [Number.le_fin, decide_eq_true_eq]
    exact_mod_cast hle

/-- **The limits with which a replay does what it is for**: whole numbers, and what allows all the pages. -/
theorem replays_iff {options : ReplayEventsOptions}
    (h : AcceptsReplay server fromLedger options toLedger limit)
    (hserves : ServesHistory server streamAddress fromLedger limit ends stands events) :
    (∀ fuel, Replays fromLedger toLedger options.limit events
        (replayEvents server streamAddress fromLedger options fuel)) ↔
      options.limit.isInteger = true ∨ options.limit.le (.fin 0) = true ∨
        (Number.fin (pagesNeeded limit (events.filter (RawEvent.inRange fromLedger toLedger)).length
          events.length ends)).le options.limit = true := by
  have hbefore := before_eq_filter h.whole hserves.dated hserves.since hserves.ordered
  have hpages : pagesNeeded limit (events.filter (RawEvent.inRange fromLedger toLedger)).length events.length
      ends = pagesOf toLedger limit ends events := by rw [pagesOf, hbefore]
  have hrun := replayEvents_run h hserves
  rw [hpages]
  constructor
  · intro hall
    refine limitKept_of_requests (pagesNeeded_pos h.sizes.1 _ _) fun k hpos hk hfree => ?_
    have hleast := (hrun k).atLeast k le_rfl hk fun j _ hj => hfree j (by simpa using hj)
    rw [List.length_nil, zero_add] at hleast
    refine ⟨_, hleast, (hall k).bounded.resolve_left fun hnil => ?_⟩
    rw [hnil] at hleast
    exact absurd hleast (Nat.not_le.mpr hpos)
  · intro hkept fuel
    refine ⟨(hrun fuel).bounded hkept, fun result hresult => ?_⟩
    obtain ⟨hhanded, rfl⟩ := (hrun fuel).returned result hresult
    rw [List.nil_append, hbefore] at hhanded ⊢
    rw [hhanded]
    exact ⟨rfl, rfl, rfl⟩

/-- **A replay ends**, one way or the other. -/
theorem replayEvents_settles {options : ReplayEventsOptions}
    (h : AcceptsReplay server fromLedger options toLedger limit)
    (hserves : ServesHistory server streamAddress fromLedger limit ends stands events) :
    ∃ fuel, (replayEvents server streamAddress fromLedger options fuel).2.isSome = true :=
  ⟨_, (replayEvents_run h hserves _).settled (Nat.lt_succ_self _)⟩

end Rounds

/-! ### A server -/

/-- A cursor that is as long as what stands before it. -/
def tally (n : ℕ) : String := String.ofList (List.replicate n '|')

def tallyServer (events : List RawEvent) (limit : ℕ) : EventsServer where
  getLatestLedger := .ok (.fin 100)
  getEvents query :=
    let start := (query.cursor.map String.length).getD 0
    .ok { events := (events.drop start).take limit, cursor := some (tally (start + limit)) }

theorem truthyText_tally {n : ℕ} (h : 0 < n) : truthyText (some (tally n)) = some (tally n) := by
  have hne : tally n ≠ "" := by
    intro hempty
    have := congrArg String.length hempty
    rw [tally, String.length_ofList, List.length_replicate] at this
    exact absurd this h.ne'
  simp [truthyText, hne]

theorem servesPage_tally {limit : ℕ} (h : 0 < limit) (events : List RawEvent) (start : ℕ) :
    ServesPage limit false (fun cursor rest => cursor ≠ "" ∧ rest = events.drop cursor.length) (events.drop start)
      { events := (events.drop start).take limit, cursor := some (tally (start + limit)) } where
  events := rfl
  more _ := by
    have htruthy := truthyText_tally (n := start + limit) (by omega)
    refine ⟨tally (start + limit), htruthy, fun hempty => ?_, ?_⟩
    · rw [hempty] at htruthy
      cases htruthy
    · rw [List.drop_drop, tally, String.length_ofList, List.length_replicate]
  last _ h := by cases h

/-- A server that counts serves any history. -/
theorem servesHistory_tally {events : List RawEvent} {fromLedger : Number} {limit : ℕ} (hlimit : 0 < limit)
    (hdated : ∀ event ∈ events, ∃ q, event.ledger = some (.fin q))
    (hsince : ∀ event ∈ events, ∀ ledger, event.ledger = some ledger → fromLedger.le ledger = true)
    (hordered : events.Pairwise fun a b => ∀ x y, a.ledger = some x → b.ledger = some y → x.le y = true)
    (hdistinct : (events.map RawEvent.id).Nodup) (streamAddress : String) :
    ServesHistory (tallyServer events limit) streamAddress fromLedger limit false
      (fun cursor rest => cursor ≠ "" ∧ rest = events.drop cursor.length) events where
  dated := hdated
  since := hsince
  ordered := hordered
  distinct := hdistinct
  first := ⟨_, rfl, servesPage_tally hlimit events 0⟩
  next cursor rest h := by
    obtain ⟨hne, rfl⟩ := h
    have htext : truthyText (some cursor) = some cursor := by simp [truthyText, hne]
    refine ⟨_, ?_, servesPage_tally hlimit events cursor.length⟩
    rw [replayQuery, htext]
    rfl

def ledgerEvent (n : ℕ) : RawEvent where
  id := some (tally n)
  ledger := some (.fin n)
  ledgerClosedAt := ""
  txHash := ""
  topic := []
  value := .void

theorem servesHistory_three : ServesHistory (tallyServer [ledgerEvent 1, ledgerEvent 2, ledgerEvent 3] 1) "C"
    (.fin 1) 1 false
    (fun cursor rest => cursor ≠ "" ∧ rest = [ledgerEvent 1, ledgerEvent 2, ledgerEvent 3].drop cursor.length)
    [ledgerEvent 1, ledgerEvent 2, ledgerEvent 3] := by
  apply servesHistory_tally one_pos
  · simp [ledgerEvent]
  · simp [ledgerEvent]
  · simp [ledgerEvent]
    norm_num
  · decide

theorem acceptsReplay_three (maxPages : Option Number) :
    AcceptsReplay (tallyServer [ledgerEvent 1, ledgerEvent 2, ledgerEvent 3] 1) (.fin 1)
      { toLedger := some (.fin 3), pageSize := some (.fin 1), maxPages := maxPages } (.fin 3) 1 where
  start := ⟨by decide, by decide⟩
  upTo := .inl ⟨rfl, by decide⟩
  whole := by decide
  size := by simp [ReplayEventsOptions.size]
  sizes := by decide

theorem replays_iff_three : (∀ fuel, Replays (.fin 1) (.fin 3) (.fin 1000)
      [ledgerEvent 1, ledgerEvent 2, ledgerEvent 3]
      (replayEvents (tallyServer [ledgerEvent 1, ledgerEvent 2, ledgerEvent 3] 1) "C" (.fin 1)
        { toLedger := some (.fin 3), pageSize := some (.fin 1) } fuel)) ↔
    (Number.fin 1000).isInteger = true ∨ (Number.fin 1000).le (.fin 0) = true ∨
      (Number.fin (pagesNeeded 1 ([ledgerEvent 1, ledgerEvent 2, ledgerEvent 3].filter
        (RawEvent.inRange (.fin 1) (.fin 3))).length 3 false)).le (.fin 1000) = true :=
  replays_iff (acceptsReplay_three none) servesHistory_three

/-- One page and a half are two. -/
theorem replays_half : ¬ ∀ fuel, Replays (.fin 1) (.fin 3) (.fin (3 / 2))
    [ledgerEvent 1, ledgerEvent 2, ledgerEvent 3]
    (replayEvents (tallyServer [ledgerEvent 1, ledgerEvent 2, ledgerEvent 3] 1) "C" (.fin 1)
      { toLedger := some (.fin 3), pageSize := some (.fin 1), maxPages := some (.fin (3 / 2)) } fuel) := by
  intro h
  have hrun := replayEvents_run (acceptsReplay_three (some (.fin (3 / 2)))) servesHistory_three 2
  have hpages : pagesOf (.fin 3) 1 false [ledgerEvent 1, ledgerEvent 2, ledgerEvent 3] = 4 := by decide
  have hleast := hrun.atLeast 2 le_rfl (by rw [hpages]; decide) fun j _ hj => by
    have : (j : ℚ) ≤ 1 := by exact_mod_cast Nat.lt_succ_iff.mp (by simpa using hj)
    simp only [ReplayEventsOptions.limit, Option.getD_some, Number.le_fin, decide_eq_true_eq]
    linarith
  rw [List.length_nil, zero_add] at hleast
  rcases (h 2).bounded with hnone | hle
  · rw [hnone] at hleast
    exact absurd hleast (by decide)
  · rw [Number.le_fin, decide_eq_true_eq] at hle
    have hlt := hle.trans_lt (by norm_num : (3 / 2 : ℚ) < 2)
    exact absurd hleast (Nat.not_le.mpr (by exact_mod_cast hlt))

end StreamFi
