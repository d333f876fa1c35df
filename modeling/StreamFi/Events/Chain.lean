import StreamFi.Events.Recovery

/-!
# Polling a chain

A node closes one ledger after another, and answers the requests of a subscription from the events of the
contract in them.

* `EventChain`, `Watching.step`: a chain, and a subscription that is answered from it;
* `Subscription.inHand`, `Subscription.ahead`: the events that the poll still has of its page, and what it asks
  for next;
* **`polled_iff`**: the poll comes to every event from the first ledger on, once and in order, exactly when
  the node cuts no page short without a cursor;
* **`events_delivered`**: then they are all dispatched, and only they are.
-/

namespace StreamFi

open Js Run

/-! ## Chains -/

/-- The events of the contract in the ledgers up to `latest`. The number of a ledger has 32 bits. -/
structure EventChain where
  events : List EventResponse
  latest : ℕ
  bounded : latest < 2 ^ 32
  dated : ∀ event ∈ events, ∃ n : ℕ, n ≤ latest ∧ event.ledger = some (.fin n)
  ordered : events.Pairwise fun a b => ∀ x ∈ a.ledger, ∀ y ∈ b.ledger, x.le y = true

/-- `event.ledger < ledger`. -/
def EventResponse.earlier (ledger : Number) (event : EventResponse) : Bool := event.ledger.any (·.lt ledger)

namespace EventChain

/-- The events of the ledgers before this one. -/
def before (c : EventChain) (ledger : Number) : List EventResponse := c.events.takeWhile (·.earlier ledger)

/-- The events from a ledger on. -/
def since (c : EventChain) (ledger : Number) : List EventResponse := c.events.filter (!·.earlier ledger)

/-- The next ledger is closed, with these events. -/
def close (c : EventChain) (events : List EventResponse) : Option EventChain :=
  if h : c.latest + 1 < 2 ^ 32 ∧ ∀ event ∈ events, event.ledger = some (.fin (c.latest + 1 : ℕ)) then
    some {
      events := c.events ++ events
      latest := c.latest + 1
      bounded := h.1
      dated := by
        intro event hmem
        rcases List.mem_append.mp hmem with hold | hnew
        · obtain ⟨n, hn, hledger⟩ := c.dated event hold
          exact ⟨n, by omega, hledger⟩
        · exact ⟨_, le_rfl, h.2 event hnew⟩
      ordered := by
        rw [List.pairwise_append]
        refine ⟨c.ordered, List.pairwise_of_forall_mem_list ?_, ?_⟩
        · intro a ha b hb x hx y hy
          rw [h.2 a ha] at hx
          rw [h.2 b hb] at hy
          cases hx
          cases hy
          simp [Number.le_fin]
        · intro a ha b hb x hx y hy
          obtain ⟨n, hn, hledger⟩ := c.dated a ha
          rw [hledger] at hx
          rw [h.2 b hb] at hy
          cases hx
          cases hy
          simp only [Number.le_fin, decide_eq_true_eq, Nat.cast_le]
          omega }
  else none

end EventChain

/-! ## The poll -/

/-- What the poll has yet to deliver of its page. -/
def Task.inHand : Task → List EventResponse
  | .observe rest _ | .check _ rest _ => rest
  | .deliver event rest _ => event :: rest
  | .replay _ | .backfill _ => []

/-- The page that the poll is at. -/
def Task.page : Task → Option EventsPage
  | .observe _ page | .deliver _ _ page | .check _ _ page => some page
  | .replay _ | .backfill _ => none

/-- The request that the poll waits for. -/
def Polling.request : Polling → Option EventsRequest
  | .fetching request => some request
  | _ => none

namespace Subscription

def inHand (s : Subscription) : List EventResponse := s.running.elim [] Task.inHand

/-- The next request of the poll, from how things stand. -/
def ahead (s : Subscription) : EventsRequest :=
  match s.running.bind Task.page with
  | some page => (s.turnPage page).request
  | none => s.request

/-- The event that the poll delivers in a step. -/
def delivering (s : Subscription) : SubscriptionEvent → Option EventResponse
  | .next => match s.running with
    | some (.deliver event _ _) => some event
    | _ => none
  | _ => none

end Subscription

/-! ## The node -/

namespace EventChain

variable (c : EventChain) (position : String → ℕ)

/-- How many events there are before a request's start. -/
def start (request : EventsRequest) : ℕ :=
  match request.cursor with
  | some cursor => position cursor
  | none => (c.before (request.startLedger.getD (.fin 0))).length

/-- The events from a request's start on. -/
def rest (request : EventsRequest) : List EventResponse := c.events.drop (c.start position request)

/-- A page of the node. If it has a cursor, that stands behind the events of the page. -/
def Serves (request : EventsRequest) (page : EventsPage) : Prop :=
  page.events = (c.rest position request).take request.limit ∧
    (∀ cursor ∈ truthyText page.cursor, position cursor = c.start position request + page.events.length) ∧
    page.latestLedger = some (.fin c.latest)

instance (request : EventsRequest) (page : EventsPage) : Decidable (c.Serves position request page) :=
  inferInstanceAs (Decidable (_ ∧ _ ∧ _))

/-- The answers to the requests of a subscription; any of them may fail. -/
def Answers (s : Subscription) : SubscriptionEvent → Prop
  | .latestLedger (.ok sequence) => sequence = .fin c.latest
  | .page (.ok page) => ∀ request ∈ s.polling.request, c.Serves position request page
  | .replayed (.ok events) => ∀ replay ∈ s.replaying,
    events = (c.rest position replay.request).take replay.request.limit
  | .backfilled (.ok events) => ∀ backfill ∈ s.backfilling,
    events = (c.rest position backfill.request).take backfill.request.limit
  | .latestLedger (.error _) | .page (.error _) | .replayed (.error _) | .backfilled (.error _) => True
  | .poll | .next | .unsubscribe => True

instance (s : Subscription) : (e : SubscriptionEvent) → Decidable (c.Answers position s e)
  | .latestLedger (.ok _) => inferInstanceAs (Decidable (_ = _))
  | .page (.ok _) | .replayed (.ok _) | .backfilled (.ok _) => inferInstanceAs (Decidable (∀ _ ∈ _, _))
  | .latestLedger (.error _) | .page (.error _) | .replayed (.error _) | .backfilled (.error _) => .isTrue trivial
  | .poll | .next | .unsubscribe => .isTrue trivial

end EventChain

/-- A subscription and the chain. `seed` is the ledger that it begins with, and `polled` what the poll has
delivered. -/
structure Watching where
  chain : EventChain
  subscription : Subscription := {}
  seed : Option ℕ := none
  polled : List EventResponse := []

inductive WatchEvent where
  | close (events : List EventResponse)
  | act (e : SubscriptionEvent)

namespace Watching

def seedAfter (w : Watching) : SubscriptionEvent → Option ℕ
  | .latestLedger (.ok _) => some w.chain.latest
  | _ => w.seed

def act (handlers : StreamEventHandlers) (w : Watching) (e : SubscriptionEvent) : Option Watching :=
  (w.subscription.step handlers e).map fun s => { w with
    subscription := s
    seed := w.seedAfter e
    polled := w.polled ++ (w.subscription.delivering e).toList }

/-- `position` says what the cursors of the node stand for. -/
def step (handlers : StreamEventHandlers) (position : String → ℕ) (w : Watching) : WatchEvent → Option Watching
  | .close events => (w.chain.close events).map fun c => { w with chain := c }
  | .act e => if w.chain.Answers position w.subscription e then w.act handlers e else none

end Watching

/-! ## What a step does to the poll -/

/-- No answer that the poll goes on with. -/
def SubscriptionEvent.Quiet : SubscriptionEvent → Prop
  | .latestLedger (.ok _) | .page (.ok _) => False
  | _ => True

/-- The detector throws for no ledger of a chain. -/
theorem LedgerGapDetector.observe_ne_error (d : LedgerGapDetector) (n : ℕ) (err : Thrown) :
    d.observe (.fin n) ≠ .error err := by
  have hledger : IsLedger (.fin n) := isLedger_fin_iff.mpr ⟨⟨n, by simp⟩, by positivity⟩
  unfold observe
  rw [if_neg (by simp [hledger.1, hledger.2])]
  cases d.current <;> simp

namespace Subscription

variable {handlers : StreamEventHandlers} {s s' : Subscription} {e : SubscriptionEvent}

/-- The page that the poll is at, if it is at one. -/
def page (s : Subscription) : Option EventsPage := s.running.bind Task.page

/-- What the poll asks for is left alone. -/
structure SamePoll (s s' : Subscription) : Prop where
  cursor : s'.cursor = s.cursor
  startLedger : s'.startLedger = s.startLedger
  seeded : s'.ledgerSeeded = s.ledgerSeeded
  polling : s'.polling = s.polling

theorem SamePoll.refl (s : Subscription) : s.SamePoll s := ⟨rfl, rfl, rfl, rfl⟩

theorem samePoll_replayGap (s : Subscription) (expected actual : ℕ) : s.SamePoll (s.replayGap expected actual) := by
  unfold replayGap
  split_ifs <;> exact ⟨rfl, rfl, rfl, rfl⟩

theorem samePoll_backfillLedgerGap (s : Subscription) (gap : LedgerGap) : s.SamePoll (s.backfillLedgerGap gap) := by
  unfold backfillLedgerGap
  split_ifs <;> exact ⟨rfl, rfl, rfl, rfl⟩

theorem samePoll_dispatch (handlers : StreamEventHandlers) (s : Subscription) (via : Via) (event : EventResponse) :
    s.SamePoll ((s.dispatch handlers via event).getD s) := by
  rcases s.dispatch_getD_cases handlers via event with ⟨-, heq⟩ | ⟨ids, -, heq⟩ <;> rw [heq]
  · exact .refl s
  · exact ⟨rfl, rfl, rfl, rfl⟩

theorem samePoll_check (s : Subscription) (n : ℕ) : s.SamePoll (s.check n) := by
  rcases s.check_cases n with ⟨heq, -⟩ | ⟨last, -, -, heq⟩ <;> rw [heq]
  · exact ⟨rfl, rfl, rfl, rfl⟩
  · have h := samePoll_replayGap (s.note (.gap (last + 1) n)) last n
    exact ⟨h.cursor, h.startLedger, h.seeded, h.polling⟩

theorem request_congr (hcursor : s'.cursor = s.cursor) (hledger : s'.startLedger = s.startLedger) :
    s'.request = s.request := by
  rw [request, request, hcursor, hledger]

/-- The request after a page. -/
theorem request_turnPage (s : Subscription) (page : EventsPage) : (s.turnPage page).request =
    match truthyText page.cursor with
    | some cursor => { cursor := some cursor, limit := 100 }
    | none => { startLedger := some ((page.latestLedger.map (·.add (.fin 1))).getD s.startLedger), limit := 100 } := by
  unfold turnPage
  cases truthyText page.cursor with
  | some cursor => rfl
  | none => cases page.latestLedger <;> rfl

theorem ahead_congr (hcursor : s'.cursor = s.cursor) (hledger : s'.startLedger = s.startLedger)
    (hpage : s'.page = s.page) : s'.ahead = s.ahead := by
  rw [page, page] at hpage
  rw [ahead, ahead, hpage]
  cases s.running.bind Task.page with
  | none => exact request_congr hcursor hledger
  | some page =>
    change (s'.turnPage page).request = (s.turnPage page).request
    rw [request_turnPage, request_turnPage, hledger]

theorem SamePoll.ahead (h : s.SamePoll s') (hpage : s'.page = s.page) : s'.ahead = s.ahead :=
  ahead_congr h.cursor h.startLedger hpage

/-- The poll is at a page only while it processes one, waits for what it would ask for now, and does nothing
before it has a ledger to begin with. -/
structure Polls (s : Subscription) : Prop where
  page : s.page ≠ none → s.polling = .processing
  request : ∀ request ∈ s.polling.request, request = s.request
  seeding : s.polling = .seeding → s.ledgerSeeded = false
  unseeded : s.ledgerSeeded = false → s.cursor = none ∧ s.running = none ∧ s.polling.request = none ∧
    s.replaying = none ∧ s.backfilling = none

theorem polls_start : Polls {} where
  page := by simp [Subscription.page]
  request := by simp [Polling.request]
  seeding := by simp
  unseeded := by simp [Polling.request]

/-- There is nothing to do before the poll has begun. -/
theorem Polls.seeded (h : s.Polls) (hbusy : s.running ≠ none ∨ s.polling.request ≠ none ∨
    s.replaying ≠ none ∨ s.backfilling ≠ none) : s.ledgerSeeded = true := by
  by_contra hseeded
  obtain ⟨-, hrun, hrequest, hreplaying, hbackfilling⟩ := h.unseeded (Bool.eq_false_of_not_eq_true hseeded)
  simp [hrun, hrequest, hreplaying, hbackfilling] at hbusy

theorem Polls.of_same (h : s.Polls) (hsame : s.SamePoll s') (hpage : s'.page = s.page)
    (hseeded : s.ledgerSeeded = true) : s'.Polls where
  page := by
    rw [hsame.polling, hpage]
    exact h.page
  request := by
    rw [hsame.polling, request_congr hsame.cursor hsame.startLedger]
    exact h.request
  seeding := by
    rw [hsame.polling, hsame.seeded]
    exact h.seeding
  unseeded := by
    rw [hsame.seeded, hseeded]
    rintro ⟨⟩

theorem request_schedule (s : Subscription) : s.schedule.polling.request = none := by
  unfold schedule
  split_ifs <;> rfl

theorem seeding_schedule (s : Subscription) : s.schedule.polling ≠ .seeding := by
  unfold schedule
  split_ifs <;> simp

/-- The poll has come to its end, and is to begin anew. -/
theorem Polls.schedule (h : s.Polls) (hcursor : s.ledgerSeeded = false → s'.cursor = none)
    (hseeded : s'.ledgerSeeded = s.ledgerSeeded) (hreplaying : s'.replaying = s.replaying)
    (hbackfilling : s'.backfilling = s.backfilling) : s'.schedule.Polls where
  page := by simp [Subscription.page, Subscription.schedule]
  request := by simp [request_schedule]
  seeding := fun hseeding => absurd hseeding s'.seeding_schedule
  unseeded := by
    intro hs'
    change s'.ledgerSeeded = false at hs'
    rw [hseeded] at hs'
    obtain ⟨-, -, -, hr, hb⟩ := h.unseeded hs'
    exact ⟨hcursor hs', rfl, s'.request_schedule, hreplaying.trans hr, hbackfilling.trans hb⟩

theorem Polls.fail (h : s.Polls) (handlers : StreamEventHandlers) (err : Thrown) : (s.fail handlers err).Polls :=
  h.schedule (fun hseeded => (h.unseeded hseeded).1) rfl rfl rfl

theorem Polls.turnPage (h : s.Polls) (hseeded : s.ledgerSeeded = true) (page : EventsPage) :
    (s.turnPage page).Polls := by
  have hcursor (c : Option String) : s.ledgerSeeded = false → c = none := by
    rw [hseeded]
    rintro ⟨⟩
  unfold Subscription.turnPage
  cases truthyText page.cursor with
  | some cursor => exact h.schedule (hcursor _) rfl rfl rfl
  | none => cases page.latestLedger <;> exact h.schedule (hcursor _) rfl rfl rfl

/-- **What a step does to the poll.** An event is refused when its ledger is no number that a chain has. -/
inductive PollMove (s s' : Subscription) : SubscriptionEvent → Prop
  | aside {e : SubscriptionEvent} (hhand : s'.inHand = s.inHand) (hahead : s'.ahead = s.ahead)
      (hseeded : s'.ledgerSeeded = s.ledgerSeeded) (hdelivering : s.delivering e = none)
      (hquiet : e.Quiet) : PollMove s s' e
  | delivered {event : EventResponse} (hhand : s.inHand = event :: s'.inHand) (hahead : s'.ahead = s.ahead)
      (hseeded : s'.ledgerSeeded = s.ledgerSeeded) (hdelivering : s.delivering .next = some event) :
      PollMove s s' .next
  | answered {page : EventsPage} (hpolling : s.polling.request = some s.ahead) (hhand : s.inHand = [])
      (hhand' : s'.inHand = page.events) (hahead : s'.ahead = (s.turnPage page).request)
      (hseeded : s'.ledgerSeeded = s.ledgerSeeded) : PollMove s s' (.page (.ok page))
  | began {n : Number} (hunseeded : s.ledgerSeeded = false) (hhand : s'.inHand = [])
      (hahead : s'.ahead = { startLedger := some n, limit := 100 }) (hseeded : s'.ledgerSeeded = true) :
      PollMove s s' (.latestLedger (.ok n))
  | refused {event : EventResponse} (hmem : event ∈ s.inHand)
      (hledger : ∀ n : ℕ, event.ledger ≠ some (.fin n)) : PollMove s s' .next

/-- A step between two events of a page, or of a recovery. -/
theorem PollMove.of_same (hsame : s.SamePoll s') (hhand : s'.inHand = s.inHand) (hpage : s'.page = s.page)
    (hdelivering : s.delivering e = none) (hquiet : e.Quiet) : PollMove s s' e :=
  .aside hhand (hsame.ahead hpage) hsame.seeded hdelivering hquiet

theorem pollMove_observe (h : s.Polls) {event : EventResponse} {rest : List EventResponse} {page : EventsPage}
    (hrun : s.running = some (.observe (event :: rest) page)) :
    (s.observe handlers event rest page).Polls ∧ PollMove s (s.observe handlers event rest page) .next := by
  have hseeded := h.seeded (.inl (by simp [hrun]))
  have hdelivering : s.delivering .next = none := by simp [delivering, hrun]
  have hkeep {s' : Subscription} (hsame : s.SamePoll s') (hrun' : s'.running = some (.deliver event rest page)) :
      s'.Polls ∧ PollMove s s' .next := by
    have hpage : s'.page = s.page := by simp [Subscription.page, hrun, hrun', Task.page]
    refine ⟨h.of_same hsame hpage hseeded, .of_same hsame ?_ hpage hdelivering trivial⟩
    simp [inHand, hrun, hrun', Task.inHand]
  unfold observe
  cases hledger : event.ledger with
  | none => exact hkeep ⟨rfl, rfl, rfl, rfl⟩ rfl
  | some ledger =>
    cases hobserve : s.ledgerGapDetector.observe ledger with
    | error err =>
      simp only [hobserve]
      have hmem : event ∈ s.inHand := by simp [inHand, hrun, Task.inHand]
      refine ⟨h.fail handlers err, .refused hmem ?_⟩
      intro n hn
      rw [hledger] at hn
      cases hn
      exact s.ledgerGapDetector.observe_ne_error n err hobserve
    | ok r =>
      obtain ⟨d, gap⟩ := r
      cases gap with
      | none =>
        simp only [hobserve]
        exact hkeep ⟨rfl, rfl, rfl, rfl⟩ rfl
      | some gap =>
        simp only [hobserve]
        have hsame := samePoll_backfillLedgerGap ({ s with ledgerGapDetector := d }.note (.ledgerGap gap)) gap
        exact hkeep ⟨hsame.cursor, hsame.startLedger, hsame.seeded, hsame.polling⟩ rfl

@[simp] theorem running_turnPage (s : Subscription) (page : EventsPage) : (s.turnPage page).running = none := by
  unfold turnPage
  cases truthyText page.cursor with
  | some cursor => rfl
  | none => cases page.latestLedger <;> rfl

@[simp] theorem ledgerSeeded_turnPage (s : Subscription) (page : EventsPage) :
    (s.turnPage page).ledgerSeeded = s.ledgerSeeded := by
  unfold turnPage
  cases truthyText page.cursor with
  | some cursor => rfl
  | none => cases page.latestLedger <;> rfl

theorem pollMove_deliver (h : s.Polls) {event : EventResponse} {rest : List EventResponse} {page : EventsPage}
    (hrun : s.running = some (.deliver event rest page)) :
    (s.deliver handlers event rest page).Polls ∧ PollMove s (s.deliver handlers event rest page) .next := by
  have hkeep {s' : Subscription} (hsame : s.SamePoll s') (hpage : s'.page = some page) (hhand : s'.inHand = rest) :
      s'.Polls ∧ PollMove s s' .next := by
    have heq : s'.page = s.page := by
      rw [hpage]
      simp [Subscription.page, hrun, Task.page]
    have hcons : s.inHand = event :: s'.inHand := by simp [inHand, hrun, Task.inHand, ← hhand]
    exact ⟨h.of_same hsame heq (h.seeded (.inl (by simp [hrun]))),
      .delivered hcons (hsame.ahead heq) hsame.seeded (by simp [delivering, hrun])⟩
  have hsame := samePoll_dispatch handlers s .poll event
  unfold deliver
  cases hdispatch : s.dispatch handlers .poll event with
  | none => exact hkeep ⟨rfl, rfl, rfl, rfl⟩ rfl rfl
  | some s₁ =>
    rw [hdispatch] at hsame
    have hsame' (task : Option Task) : s.SamePoll { s₁ with running := task } :=
      ⟨hsame.cursor, hsame.startLedger, hsame.seeded, hsame.polling⟩
    cases hnumber : event.number with
    | none => exact hkeep (hsame' _) (by simp [Subscription.page, Task.page]) (by simp [inHand, Task.inHand])
    | some n => exact hkeep (hsame' _) (by simp [Subscription.page, Task.page]) (by simp [inHand, Task.inHand])

theorem pollMove_next (h : s.Polls) {task : Task} (hrun : s.running = some task) :
    (s.next handlers task).Polls ∧ PollMove s (s.next handlers task) .next := by
  have hseeded := h.seeded (.inl (by simp [hrun]))
  have hkeep {s' : Subscription} (hsame : s.SamePoll s') (hpage : s'.page = s.page) (hhand : s'.inHand = s.inHand)
      (hdelivering : s.delivering .next = none) : s'.Polls ∧ PollMove s s' .next :=
    ⟨h.of_same hsame hpage hseeded, .of_same hsame hhand hpage hdelivering trivial⟩
  have hsame {via : Via} {event : EventResponse} (task : Option Task) :
      s.SamePoll { (s.dispatch handlers via event).getD s with running := task } := by
    have hsame := samePoll_dispatch handlers s via event
    exact ⟨hsame.cursor, hsame.startLedger, hsame.seeded, hsame.polling⟩
  cases task with
  | observe rest page =>
    cases rest with
    | nil =>
      refine ⟨h.turnPage hseeded page, .aside ?_ ?_ (s.ledgerSeeded_turnPage page) ?_ trivial⟩
      · simp [inHand, next, hrun, Task.inHand]
      · simp [ahead, next, hrun, Task.page]
      · simp [delivering, hrun]
    | cons event rest => exact pollMove_observe h hrun
  | deliver event rest page => exact pollMove_deliver h hrun
  | check n rest page =>
    have hsame := s.samePoll_check n
    refine hkeep ⟨hsame.cursor, hsame.startLedger, hsame.seeded, hsame.polling⟩ ?_ ?_ ?_
    · simp [Subscription.page, next, hrun, Task.page]
    · simp [inHand, next, hrun, Task.inHand]
    · simp [delivering, hrun]
  | replay rest =>
    have hdelivering : s.delivering .next = none := by simp [delivering, hrun]
    cases rest with
    | nil =>
      refine hkeep ⟨rfl, rfl, rfl, rfl⟩ ?_ ?_ hdelivering
      · simp [Subscription.page, next, hrun, Task.page]
      · simp [inHand, next, hrun, Task.inHand]
    | cons event rest =>
      refine hkeep (hsame _) ?_ ?_ hdelivering
      · simp [Subscription.page, next, hrun, Task.page]
      · simp [inHand, next, hrun, Task.inHand]
  | backfill rest =>
    have hdelivering : s.delivering .next = none := by simp [delivering, hrun]
    cases rest with
    | nil =>
      refine hkeep ⟨rfl, rfl, rfl, rfl⟩ ?_ ?_ hdelivering
      · simp [Subscription.page, next, hrun, Task.page]
      · simp [inHand, next, hrun, Task.inHand]
    | cons event rest =>
      refine hkeep (hsame _) ?_ ?_ hdelivering
      · simp [Subscription.page, next, hrun, Task.page]
      · simp [inHand, next, hrun, Task.inHand]

/-- A step while no page is read, and only the phase of the poll changes. -/
theorem PollMove.of_idle (hrun : s.running = none) (hrun' : s'.running = none) (hcursor : s'.cursor = s.cursor)
    (hstart : s'.startLedger = s.startLedger) (hseeded : s'.ledgerSeeded = s.ledgerSeeded)
    (hdelivering : s.delivering e = none) (hquiet : e.Quiet) : PollMove s s' e := by
  refine .aside ?_ ?_ hseeded hdelivering hquiet
  · simp [inHand, hrun, hrun']
  · simp [ahead, hrun, hrun', request_congr hcursor hstart]

theorem Polls.unsubscribe (h : s.Polls) : s.unsubscribe.Polls := by
  by_cases hwaiting : s.polling = .waiting
  · have hended : s.unsubscribe.polling = .ended := by simp [Subscription.unsubscribe, hwaiting]
    refine ⟨fun hne => ?_, by simp [hended, Polling.request], by simp [hended], fun hseeded => ?_⟩
    · have hprocessing := h.page hne
      rw [hwaiting] at hprocessing
      cases hprocessing
    · obtain ⟨hcursor, hrun, -, hr, hb⟩ := h.unseeded hseeded
      exact ⟨hcursor, hrun, by simp [hended, Polling.request], hr, hb⟩
  · have hsame : s.unsubscribe.polling = s.polling := by simp [Subscription.unsubscribe, hwaiting]
    refine ⟨fun hne => ?_, ?_, ?_, fun hseeded => ?_⟩
    · rw [hsame]
      exact h.page hne
    · rw [hsame]
      exact h.request
    · rw [hsame]
      exact h.seeding
    · rw [hsame]
      exact h.unseeded hseeded

theorem pollMove_poll (h : s.Polls) (hrun : s.running = none) : s.poll.Polls ∧ PollMove s s.poll .poll := by
  have hpage (polling : Polling) : Subscription.page { s with polling := polling } ≠ none →
      polling = .processing := by
    simp [Subscription.page, hrun]
  have hmove (polling : Polling) : PollMove s { s with polling := polling } .poll :=
    .of_idle hrun hrun rfl rfl rfl rfl trivial
  unfold poll
  split_ifs with hstopped hseed
  · refine ⟨⟨hpage _, by simp [Polling.request], by simp, fun hseeded => ?_⟩, hmove _⟩
    obtain ⟨hcursor, -, -, hr, hb⟩ := h.unseeded hseeded
    exact ⟨hcursor, hrun, rfl, hr, hb⟩
  · refine ⟨⟨hpage _, by simp [Polling.request], ?_, fun hseeded => ?_⟩, hmove _⟩
    · simpa using hseed.1
    · obtain ⟨hcursor, -, -, hr, hb⟩ := h.unseeded hseeded
      exact ⟨hcursor, hrun, rfl, hr, hb⟩
  · refine ⟨⟨hpage _, by simp [Polling.request, request], by simp, fun hseeded => ?_⟩, hmove _⟩
    exact absurd ⟨by simpa using hseeded, (h.unseeded hseeded).1⟩ hseed

theorem pollMove_fail (h : s.Polls) (hrun : s.running = none) (err : Thrown) (hdelivering : s.delivering e = none)
    (hquiet : e.Quiet) :
    (s.fail handlers err).Polls ∧ PollMove s (s.fail handlers err) e :=
  ⟨h.fail handlers err, .of_idle hrun rfl rfl rfl rfl hdelivering hquiet⟩

theorem pollMove_answerPoll (h : s.Polls) (hrun : s.running = none) {request : EventsRequest}
    (hpolling : s.polling = .fetching request) (r : Except Thrown EventsPage) :
    (s.answerPoll handlers r).Polls ∧ PollMove s (s.answerPoll handlers r) (.page r) := by
  have hrequest : request = s.request := h.request request (by simp [hpolling, Polling.request])
  have hahead : s.ahead = s.request := by simp [ahead, hrun]
  have hseeded := h.seeded (.inr (.inl (by simp [hpolling, Polling.request])))
  cases r with
  | error err => exact pollMove_fail h hrun err rfl trivial
  | ok page =>
    refine ⟨⟨fun _ => rfl, ?_, by simp [answerPoll], ?_⟩, .answered ?_ ?_ rfl ?_ rfl⟩
    · simp [answerPoll, Polling.request]
    · intro hs'
      change s.ledgerSeeded = false at hs'
      rw [hseeded] at hs'
      cases hs'
    · rw [hahead, hpolling, hrequest]
      rfl
    · simp [inHand, hrun]
    · change (Subscription.turnPage _ page).request = _
      rw [request_turnPage, request_turnPage]
      rfl

theorem pollMove_seed (h : s.Polls) (hrun : s.running = none) (hpolling : s.polling = .seeding) (n : Number) :
    (s.seed n).Polls ∧ PollMove s (s.seed n) (.latestLedger (.ok n)) := by
  have hunseeded := h.seeding hpolling
  obtain ⟨hcursor, -⟩ := h.unseeded hunseeded
  refine ⟨⟨?_, ?_, by simp [seed], by simp [seed]⟩, .began hunseeded ?_ ?_ rfl⟩
  · simp [Subscription.page, seed, hrun]
  · simp [seed, Polling.request, request, hcursor]
  · simp [inHand, seed, hrun]
  · simp [ahead, seed, hrun, request, hcursor]

/-- The answer to a recovery. -/
theorem pollMove_recovery (h : s.Polls) (hrun : s.running = none) (hsame : s.SamePoll s')
    (hhand : s'.inHand = []) (hpage : s'.page = none) (hseeded : s.ledgerSeeded = true)
    (hdelivering : s.delivering e = none) (hquiet : e.Quiet) :
    s'.Polls ∧ PollMove s s' e := by
  have heq : s'.page = s.page := by
    rw [hpage]
    simp [Subscription.page, hrun]
  have hhand' : s'.inHand = s.inHand := by
    rw [hhand]
    simp [inHand, hrun]
  exact ⟨h.of_same hsame heq hseeded, .of_same hsame hhand' heq hdelivering hquiet⟩

/-- **Each step** does one of these. -/
theorem pollMove_step (h : s.Polls) (hs : s.step handlers e = some s') : s'.Polls ∧ PollMove s s' e := by
  cases e with
  | unsubscribe =>
    cases hs
    exact ⟨h.unsubscribe, .aside rfl (ahead_congr rfl rfl rfl) rfl rfl trivial⟩
  | next =>
    obtain ⟨task, hrun, rfl⟩ := Option.map_eq_some_iff.mp hs
    exact pollMove_next h hrun
  | poll =>
    rw [step] at hs
    split_ifs at hs with hidle
    cases hs
    exact pollMove_poll h hidle.1
  | latestLedger r =>
    simp only [step] at hs
    split_ifs at hs with hidle
    cases r with
    | ok n =>
      cases hs
      exact pollMove_seed h hidle.1 hidle.2 n
    | error err =>
      cases hs
      exact pollMove_fail h hidle.1 err rfl trivial
  | page r =>
    simp only [step] at hs
    split at hs
    · rename_i hrun hpolling
      cases hs
      exact pollMove_answerPoll h hrun hpolling r
    · cases hs
  | replayed r =>
    simp only [step] at hs
    split at hs
    · rename_i replay hrun hreplaying
      cases hs
      have hseeded := h.seeded (.inr (.inr (.inl (by simp [hreplaying]))))
      rcases s.answerReplay_cases replay r with ⟨_, _, -, -, heq⟩ | ⟨heq, -⟩ <;> rw [heq]
      · exact pollMove_recovery h hrun ⟨rfl, rfl, rfl, rfl⟩ rfl rfl hseeded rfl trivial
      · exact pollMove_recovery h hrun ⟨rfl, rfl, rfl, rfl⟩ (by simp [inHand, hrun])
          (by simp [Subscription.page, hrun]) hseeded rfl trivial
    · cases hs
  | backfilled r =>
    simp only [step] at hs
    split at hs
    · rename_i backfill hrun hbackfilling
      cases hs
      have hseeded := h.seeded (.inr (.inr (.inr (by simp [hbackfilling]))))
      cases r with
      | ok events => exact pollMove_recovery h hrun ⟨rfl, rfl, rfl, rfl⟩ rfl rfl hseeded rfl trivial
      | error err =>
        exact pollMove_recovery h hrun ⟨rfl, rfl, rfl, rfl⟩ (by simp [inHand, answerBackfill, hrun])
          (by simp [Subscription.page, answerBackfill, hrun]) hseeded rfl trivial
    · cases hs

theorem limit_request (s : Subscription) : s.request.limit = 100 := by
  unfold request
  cases s.cursor <;> rfl

theorem limit_ahead (s : Subscription) : s.ahead.limit = 100 := by
  unfold ahead
  cases s.running.bind Task.page <;> exact limit_request _

end Subscription

/-! ## Positions in a chain -/

theorem takeWhile_append_filter {α : Type*} {p : α → Bool} {l : List α}
    (h : l.Pairwise fun a b => p b = true → p a = true) : l.takeWhile p ++ l.filter (!p ·) = l := by
  induction l with
  | nil => rfl
  | cons a l ih =>
    obtain ⟨ha, hl⟩ := List.pairwise_cons.mp h
    by_cases hp : p a = true
    · simp [hp, ih hl]
    · have hnone : l.filter (!p ·) = l := List.filter_eq_self.mpr fun b hb => by
        simpa using fun hb' => hp (ha b hb hb')
      simp [hp, hnone]

namespace EventChain

variable {c c' : EventChain} {position : String → ℕ} {events : List EventResponse} {request : EventsRequest}

theorem close_eq (h : c.close events = some c') : c'.events = c.events ++ events ∧ c'.latest = c.latest + 1 ∧
    ∀ event ∈ events, event.ledger = some (.fin (c.latest + 1 : ℕ)) := by
  unfold close at h
  split_ifs at h with hok
  cases h
  exact ⟨rfl, rfl, hok.2⟩

theorem earlier_eq {event : EventResponse} {n : ℕ} (h : event.ledger = some (.fin n)) (m : ℕ) :
    event.earlier (.fin m) = decide (n < m) := by
  simp [EventResponse.earlier, h, Number.lt_fin]

theorem before_append_drop (c : EventChain) (ledger : Number) :
    c.before ledger ++ c.events.drop (c.before ledger).length = c.events :=
  List.prefix_iff_eq_append.mp (List.takeWhile_prefix _)

/-- The events from a ledger on come after the ones before it. -/
theorem before_append_since (c : EventChain) (ledger : ℕ) :
    c.before (.fin ledger) ++ c.since (.fin ledger) = c.events := by
  refine takeWhile_append_filter (c.ordered.imp_of_mem fun {a b} ha hb hle hb' => ?_)
  obtain ⟨n, -, hn⟩ := c.dated a ha
  obtain ⟨m, -, hm⟩ := c.dated b hb
  have hnm : n ≤ m := by simpa [Number.le_fin] using hle _ hn _ hm
  simp only [earlier_eq hn, earlier_eq hm, decide_eq_true_eq] at hb' ⊢
  omega

/-- All events are before the ledger that is closed next. -/
theorem before_next (c : EventChain) : c.before (.fin (c.latest + 1 : ℕ)) = c.events := by
  rw [before, List.takeWhile_eq_self_iff]
  intro event hmem
  obtain ⟨n, hn, hledger⟩ := c.dated event hmem
  simp only [earlier_eq hledger, decide_eq_true_eq]
  omega

theorem before_close (h : c.close events = some c') {m : ℕ} (hm : m ≤ c.latest + 1) :
    c'.before (.fin m) = c.before (.fin m) := by
  obtain ⟨hevents, -, hdated⟩ := close_eq h
  have hnone : events.takeWhile (·.earlier (.fin m)) = [] := by
    cases events with
    | nil => rfl
    | cons event events =>
      have hearlier := earlier_eq (hdated event List.mem_cons_self) m
      rw [List.takeWhile_cons_of_neg]
      simp only [hearlier, decide_eq_true_eq]
      omega
  rw [before, before, hevents, List.takeWhile_append, hnone, List.append_nil]
  split_ifs with hall
  · exact ((List.takeWhile_prefix _).eq_of_length hall).symm
  · rfl

/-- A request stands in the chain, or at the ledger that comes next. -/
def Stands (c : EventChain) (position : String → ℕ) (request : EventsRequest) : Prop :=
  (∀ cursor ∈ request.cursor, position cursor ≤ c.events.length) ∧
    (request.cursor = none → ∃ m : ℕ, m ≤ c.latest + 1 ∧ request.startLedger = some (.fin m))

theorem Stands.start_le (h : c.Stands position request) : c.start position request ≤ c.events.length := by
  unfold start
  cases hcursor : request.cursor with
  | some cursor => exact h.1 cursor hcursor
  | none => exact (List.takeWhile_prefix _).length_le

theorem Stands.start_close (h : c.Stands position request) (hclose : c.close events = some c') :
    c'.start position request = c.start position request := by
  unfold start
  cases hcursor : request.cursor with
  | some cursor => rfl
  | none =>
    obtain ⟨m, hm, hledger⟩ := h.2 hcursor
    rw [hledger, Option.getD_some, before_close hclose hm]

theorem Stands.close (h : c.Stands position request) (hclose : c.close events = some c') :
    c'.Stands position request := by
  obtain ⟨hevents, hlatest, -⟩ := close_eq hclose
  refine ⟨fun cursor hcursor => ?_, fun hcursor => ?_⟩
  · have hle := h.1 cursor hcursor
    rw [hevents, List.length_append]
    omega
  · obtain ⟨m, hm, hledger⟩ := h.2 hcursor
    exact ⟨m, by omega, hledger⟩

theorem Stands.rest_close (h : c.Stands position request) (hclose : c.close events = some c') :
    c'.rest position request = c.rest position request ++ events := by
  rw [rest, rest, h.start_close hclose, (close_eq hclose).1, List.drop_append_of_le_length h.start_le]

/-- What a page leaves for the next request, if it has a cursor. -/
theorem rest_of_cursor {page : EventsPage} (hserves : c.Serves position request page) {cursor : String}
    (hcursor : truthyText page.cursor = some cursor) (limit : ℕ) :
    page.events ++ c.rest position { cursor := some cursor, limit := limit } = c.rest position request := by
  obtain ⟨hevents, hposition, -⟩ := hserves
  have hstart : c.start position { cursor := some cursor, limit := limit } =
      c.start position request + page.events.length := hposition cursor hcursor
  rw [rest, hstart, ← List.drop_drop]
  exact List.prefix_iff_eq_append.mp (hevents ▸ List.take_prefix _ _)

theorem latest_add_one (c : EventChain) : (Number.fin c.latest).add (.fin 1) = .fin (c.latest + 1 : ℕ) := by
  have hbounded := c.bounded
  have hle : c.latest + 1 ≤ 2 ^ 53 := by omega
  simpa using Number.add_natCast hle

/-- And if it has none. -/
theorem rest_of_latest (c : EventChain) (position : String → ℕ) (limit : ℕ) :
    c.rest position { startLedger := some ((Number.fin c.latest).add (.fin 1)), limit := limit } = [] := by
  rw [rest, latest_add_one]
  change c.events.drop (c.before (.fin (c.latest + 1 : ℕ))).length = []
  rw [before_next, List.drop_length]

/-- A page leads to where the next request stands. -/
theorem Stands.turnPage {s : Subscription} {page : EventsPage} (h : c.Stands position request)
    (hserves : c.Serves position request page) : c.Stands position (s.turnPage page).request := by
  obtain ⟨hevents, hposition, hlatest⟩ := hserves
  rw [Subscription.request_turnPage]
  cases hcursor : truthyText page.cursor with
  | some cursor =>
    have hle : page.events.length ≤ c.events.length - c.start position request := by
      rw [hevents, rest, ← List.length_drop]
      exact (List.take_prefix _ _).length_le
    have hstart := h.start_le
    have hnext := hposition cursor hcursor
    refine ⟨?_, by simp⟩
    rintro _ ⟨⟩
    omega
  | none =>
    refine ⟨by simp, fun _ => ⟨c.latest + 1, le_rfl, ?_⟩⟩
    simp [hlatest, latest_add_one]

end EventChain

/-! ## What is polled -/

namespace Watching

variable {handlers : StreamEventHandlers} {position : String → ℕ} {w w' : Watching} {e : WatchEvent}

/-- From the first ledger on, the poll has delivered the events that it does not have in hand and will not
ask for. -/
def Complete (position : String → ℕ) (w : Watching) : Prop :=
  ∀ seed ∈ w.seed, w.chain.events = w.chain.before (.fin seed) ++ w.polled ++ w.subscription.inHand ++
    w.chain.rest position w.subscription.ahead

/-- A page without a cursor is not cut short. -/
def Uncut (position : String → ℕ) (w : Watching) : WatchEvent → Prop
  | .act (.page (.ok page)) => truthyText page.cursor = none →
    ∀ request ∈ w.subscription.polling.request, (w.chain.rest position request).length ≤ request.limit
  | _ => True

/-- The poll is where the chain says. -/
structure Watched (position : String → ℕ) (w : Watching) : Prop where
  polls : w.subscription.Polls
  seeded : w.seed.isSome = w.subscription.ledgerSeeded
  unseeded : w.seed = none → w.polled = []
  bounded : ∀ seed ∈ w.seed, seed ≤ w.chain.latest
  stands : w.seed.isSome = true → w.chain.Stands position w.subscription.ahead
  complete : w.Complete position

theorem watched_start (position : String → ℕ) (c : EventChain) : Watched position { chain := c } where
  polls := Subscription.polls_start
  seeded := rfl
  unseeded _ := rfl
  bounded := by simp
  stands := by simp
  complete := by simp [Complete]

theorem Watched.close (h : w.Watched position) {events : List EventResponse} {c : EventChain}
    (hclose : w.chain.close events = some c) : Watched position { w with chain := c } where
  polls := h.polls
  seeded := h.seeded
  unseeded := h.unseeded
  bounded := by
    intro seed hseed
    have hle := h.bounded seed hseed
    rw [(EventChain.close_eq hclose).2.1]
    omega
  stands hseeded := (h.stands hseeded).close hclose
  complete := by
    intro seed hseed
    have hle := h.bounded seed hseed
    have hstands := h.stands (Option.isSome_of_mem hseed)
    change c.events = c.before (.fin seed) ++ w.polled ++ w.subscription.inHand ++ c.rest position w.subscription.ahead
    rw [(EventChain.close_eq hclose).1, EventChain.before_close hclose (by omega), hstands.rest_close hclose,
      ← List.append_assoc, ← h.complete seed hseed]

theorem seedAfter_eq {e : SubscriptionEvent} (h : e.Quiet) : w.seedAfter e = w.seed := by
  cases e with
  | latestLedger r =>
    cases r with
    | ok n => exact h.elim
    | error err => rfl
  | poll | page _ | replayed _ | backfilled _ | next | unsubscribe => rfl

theorem uncut_of_quiet {e : SubscriptionEvent} (h : e.Quiet) : w.Uncut position (.act e) := by
  cases e with
  | page r =>
    cases r with
    | ok page => exact h.elim
    | error err => trivial
  | poll | latestLedger _ | replayed _ | backfilled _ | next | unsubscribe => trivial

/-- Nothing is in hand before there is a first ledger. -/
theorem Watched.inHand_eq_nil (h : w.Watched position) (hseed : w.seed = none) : w.subscription.inHand = [] := by
  have hunseeded : w.subscription.ledgerSeeded = false := by simpa [hseed] using h.seeded.symm
  simp [Subscription.inHand, (h.polls.unseeded hunseeded).2.1]

/-- The poll goes on in its page. -/
theorem Watched.pass (h : w.Watched position) {s : Subscription} {delivered : List EventResponse} (hpolls : s.Polls)
    (hhand : w.subscription.inHand = delivered ++ s.inHand) (hahead : s.ahead = w.subscription.ahead)
    (hseeded : s.ledgerSeeded = w.subscription.ledgerSeeded) :
    Watched position { w with subscription := s, polled := w.polled ++ delivered } where
  polls := hpolls
  seeded := by rw [hseeded, h.seeded]
  unseeded := by
    intro hseed
    rw [h.inHand_eq_nil hseed] at hhand
    simp [h.unseeded hseed, (List.append_eq_nil_iff.mp hhand.symm).1]
  bounded := h.bounded
  stands hseed := hahead ▸ h.stands hseed
  complete := by
    intro seed hseed
    change w.chain.events = w.chain.before (.fin seed) ++ (w.polled ++ delivered) ++ s.inHand ++
      w.chain.rest position s.ahead
    rw [hahead, ← List.append_assoc _ w.polled, List.append_assoc _ delivered, ← hhand]
    exact h.complete seed hseed

/-- The poll begins at the latest ledger. -/
theorem Watched.begin (h : w.Watched position) {s : Subscription} (hpolls : s.Polls)
    (hunseeded : w.subscription.ledgerSeeded = false) (hhand : s.inHand = [])
    (hahead : s.ahead = { startLedger := some (.fin w.chain.latest), limit := 100 }) (hseeded : s.ledgerSeeded = true) :
    Watched position { w with subscription := s, seed := some w.chain.latest } where
  polls := hpolls
  seeded := hseeded.symm
  unseeded := by simp
  bounded := by simp
  stands _ := by
    change w.chain.Stands position s.ahead
    rw [hahead]
    exact ⟨by simp, fun _ => ⟨w.chain.latest, by omega, rfl⟩⟩
  complete := by
    rintro seed ⟨⟩
    have hpolled : w.polled = [] := h.unseeded (by simpa [hunseeded] using h.seeded)
    change w.chain.events = w.chain.before (.fin w.chain.latest) ++ w.polled ++ s.inHand ++
      w.chain.rest position s.ahead
    rw [hahead, hpolled, hhand, List.append_nil, List.append_nil]
    exact (w.chain.before_append_drop _).symm

section Answered

variable {s : Subscription} {page : EventsPage}

/-- What a page does to what is next. -/
theorem page_append_rest_iff (hserves : w.chain.Serves position w.subscription.ahead page) :
    page.events ++ w.chain.rest position (w.subscription.turnPage page).request =
        w.chain.rest position w.subscription.ahead ↔
      (truthyText page.cursor = none → (w.chain.rest position w.subscription.ahead).length ≤ 100) := by
  rw [Subscription.request_turnPage]
  cases hcursor : truthyText page.cursor with
  | some cursor => simpa using EventChain.rest_of_cursor hserves hcursor 100
  | none =>
    simp only [hserves.2.2, Option.map_some, Option.getD_some, EventChain.rest_of_latest, List.append_nil, forall_const]
    rw [hserves.1, w.subscription.limit_ahead, List.take_eq_self_iff]

theorem complete_answer_iff (h : w.Watched position) (hseed : w.seed.isSome = true) (hhand : w.subscription.inHand = [])
    (hhand' : s.inHand = page.events) (hahead : s.ahead = (w.subscription.turnPage page).request)
    (hserves : w.chain.Serves position w.subscription.ahead page) :
    Complete position { w with subscription := s } ↔
      (truthyText page.cursor = none → (w.chain.rest position w.subscription.ahead).length ≤ 100) := by
  rw [← page_append_rest_iff hserves]
  obtain ⟨seed, hseed⟩ := Option.isSome_iff_exists.mp hseed
  have hcomplete := h.complete seed hseed
  rw [hhand, List.append_nil] at hcomplete
  constructor
  · intro hall
    have heq := (hall seed hseed).symm.trans hcomplete
    rw [List.append_assoc] at heq
    simpa [hhand', hahead] using List.append_cancel_left heq
  · intro heq seed' hseed'
    cases hseed.symm.trans hseed'
    change w.chain.events = w.chain.before (.fin seed) ++ w.polled ++ s.inHand ++ w.chain.rest position s.ahead
    rw [hhand', hahead, List.append_assoc, heq]
    exact hcomplete

/-- The poll gets a page. -/
theorem Watched.answer (h : w.Watched position) (hseed : w.seed.isSome = true) (hpolls : s.Polls)
    (hahead : s.ahead = (w.subscription.turnPage page).request)
    (hseeded : s.ledgerSeeded = w.subscription.ledgerSeeded)
    (hserves : w.chain.Serves position w.subscription.ahead page)
    (hcomplete : Complete position { w with subscription := s }) :
    Watched position { w with subscription := s } where
  polls := hpolls
  seeded := by rw [hseeded, h.seeded]
  unseeded := h.unseeded
  bounded := h.bounded
  stands _ := by
    change w.chain.Stands position s.ahead
    rw [hahead]
    exact (h.stands hseed).turnPage hserves
  complete := hcomplete

end Answered

/-- The events that the poll has in hand are the chain's. -/
theorem Watched.mem_events (h : w.Watched position) {event : EventResponse} (hmem : event ∈ w.subscription.inHand) :
    event ∈ w.chain.events := by
  cases hseed : w.seed with
  | none => simp [h.inHand_eq_nil hseed] at hmem
  | some seed =>
    rw [h.complete seed hseed]
    simp [hmem]

/-- **A step** leads to where the chain says if, and only if, it is not a page cut short. -/
theorem watched_act (h : w.Watched position) {e : SubscriptionEvent}
    (hanswers : w.chain.Answers position w.subscription e) (hs : w.act handlers e = some w') :
    (w.Uncut position (.act e) → w'.Watched position) ∧ (w'.Complete position → w.Uncut position (.act e)) := by
  obtain ⟨s, hstep, rfl⟩ := Option.map_eq_some_iff.mp hs
  obtain ⟨hpolls, hmove⟩ := Subscription.pollMove_step h.polls hstep
  cases hmove with
  | aside hhand hahead hseeded hdelivering hquiet =>
    refine ⟨fun _ => ?_, fun _ => uncut_of_quiet hquiet⟩
    rw [hdelivering, seedAfter_eq hquiet]
    exact h.pass hpolls hhand.symm hahead hseeded
  | delivered hhand hahead hseeded hdelivering =>
    refine ⟨fun _ => ?_, fun _ => trivial⟩
    rw [hdelivering]
    exact h.pass hpolls hhand hahead hseeded
  | @answered page hpolling hhand hhand' hahead hseeded =>
    have hserves := hanswers w.subscription.ahead hpolling
    have hseed : w.seed.isSome = true := by
      rw [h.seeded]
      exact h.polls.seeded (.inr (.inl (by simp [hpolling])))
    have hcomplete := complete_answer_iff h hseed hhand hhand' hahead hserves
    have huncut : w.Uncut position (.act (.page (.ok page))) ↔
        (truthyText page.cursor = none → (w.chain.rest position w.subscription.ahead).length ≤ 100) := by
      simp [Uncut, hpolling, w.subscription.limit_ahead]
    rw [huncut, ← hcomplete]
    simp only [seedAfter, Subscription.delivering, Option.toList_none, List.append_nil]
    exact ⟨h.answer hseed hpolls hahead hseeded hserves, id⟩
  | began hunseeded hhand hahead hseeded =>
    refine ⟨fun _ => ?_, fun _ => trivial⟩
    cases hanswers
    simpa [seedAfter, Subscription.delivering] using h.begin hpolls hunseeded hhand hahead hseeded
  | refused hmem hledger =>
    obtain ⟨n, -, hn⟩ := w.chain.dated _ (h.mem_events hmem)
    exact absurd hn (hledger n)

/-- **The poll comes to every event of the contract from its first ledger on**, once and in order, in every state
of a run, exactly when no page without a cursor was cut short by the limit of the request. Ledgers are closed,
requests fail, gaps are recovered and the subscription ends whenever they do. -/
theorem polled_iff {c : EventChain} {log : List WatchEvent}
    (h : run (step handlers position) { chain := c } log = some w) :
    Throughout (step handlers position) (Complete position) { chain := c } log ↔
      EachStep (step handlers position) (Uncut position) { chain := c } log := by
  refine throughout_iff_eachStep (fun _ hw => hw.complete) (watched_start position c) ?_ ?_ h
  · intro w e w' hw hok hs
    cases e with
    | close events =>
      obtain ⟨c, hclose, rfl⟩ := Option.map_eq_some_iff.mp hs
      exact hw.close hclose
    | act e =>
      obtain ⟨hanswers, hs⟩ := Option.ite_none_right_eq_some.mp hs
      exact (watched_act hw hanswers hs).1 hok
  · intro w e w' hw hbad hs hcomplete
    cases e with
    | close events => exact hbad trivial
    | act e =>
      obtain ⟨hanswers, hs⟩ := Option.ite_none_right_eq_some.mp hs
      exact hbad ((watched_act hw hanswers hs).2 hcomplete)

instance (w : Watching) : (e : WatchEvent) → Decidable (w.Uncut position e)
  | .act (.page (.ok page)) =>
    inferInstanceAs (Decidable (truthyText page.cursor = none → ∀ _ ∈ w.subscription.polling.request, _ ≤ _))
  | .close _ | .act (.page (.error _)) | .act .poll | .act (.latestLedger _) | .act (.replayed _)
  | .act (.backfilled _) | .act .next | .act .unsubscribe => .isTrue trivial

def chainEvent (id : String) (ledger : ℕ) : EventResponse := ⟨some id, some (.fin ledger), .absent⟩

def fiveLedgers : EventChain where
  events := [chainEvent "a" 4]
  latest := 5
  bounded := by decide
  dated := by
    intro event hmem
    cases List.mem_singleton.mp hmem
    exact ⟨4, by decide, rfl⟩
  ordered := List.pairwise_singleton _ _

/-- The cursor of the first page. -/
def behindC (cursor : String) : ℕ := if cursor = "c" then 3 else 0

/-- A page with a cursor, and one without. -/
def twoPolls : List WatchEvent :=
  [.act .poll, .act (.latestLedger (.ok (.fin 5))), .close [chainEvent "b" 6, chainEvent "c" 6],
    .act (.page (.ok {
      events := [chainEvent "b" 6, chainEvent "c" 6], cursor := some "c", latestLedger := some (.fin 6) }))] ++
  List.replicate 5 (.act .next) ++
  [.close [chainEvent "d" 7], .act .poll,
    .act (.page (.ok { events := [chainEvent "d" 7], latestLedger := some (.fin 7) }))] ++
  List.replicate 3 (.act .next)

theorem uncut_twoPolls : EachStep (step {} behindC) (Uncut behindC) { chain := fiveLedgers } twoPolls :=
  .of_allSteps (fun _ _ => of_decide_eq_true) (by decide +kernel)

theorem polled_iff_twoPolls : Throughout (step {} behindC) (Complete behindC) { chain := fiveLedgers } twoPolls := by
  obtain ⟨w, hw⟩ := Option.isSome_iff_exists.mp
    (by decide +kernel : (run (step {} behindC) { chain := fiveLedgers } twoPolls).isSome = true)
  exact (polled_iff hw).mpr uncut_twoPolls

end Watching

/-! ## What is dispatched -/

/-- What a recovery has yet to deliver. -/
def Task.recovery : Task → List EventResponse
  | .replay rest | .backfill rest => rest
  | .observe _ _ | .deliver _ _ _ | .check _ _ _ => []

namespace Subscription

variable {handlers : StreamEventHandlers} {s s' : Subscription} {e : SubscriptionEvent} {via : Via}
  {event : EventResponse}

def recovery (s : Subscription) : List EventResponse := s.running.elim [] Task.recovery

/-- The events of a recovery are those of its answer. -/
theorem Move.mem_recovery (hs : Move handlers s e s') (hmem : event ∈ s'.recovery) : event ∈ s.recovery ∨
    (∃ page, e = .replayed (.ok page) ∧ s.replaying.isSome = true ∧ event ∈ page) ∨
      ∃ page, e = .backfilled (.ok page) ∧ s.backfilling.isSome = true ∧ event ∈ page := by
  cases hs with
  | same h =>
    rcases h.running with heq | ⟨-, hrun | ⟨rest, page, hrun⟩⟩
    · exact .inl (by rwa [recovery, heq] at hmem)
    · simp [recovery, hrun] at hmem
    · simp [recovery, hrun, Task.recovery] at hmem
  | observed | ledgerGap | heldBack | checked => simp [recovery, Task.recovery] at hmem
  | @delivered first rest page s₁ hrun h =>
    cases hnumber : first.number <;> simp [recovery, Task.recovery, hnumber] at hmem
  | @replayAnswered replay r hrun h =>
    rcases s.answerReplay_cases replay r with ⟨page, events, rfl, hmissed, heq⟩ | ⟨heq, -⟩
    · rw [heq] at hmem
      exact .inr (.inl ⟨page, rfl, by simp [h], ((mem_missed hmissed).mp hmem).1⟩)
    · simp [heq, recovery, hrun] at hmem
  | replayed hrun => exact .inl (by simpa [recovery, hrun, Task.recovery] using .inr hmem)
  | replayDone | backfillDone => simp [recovery] at hmem
  | @backfillAnswered backfill r hrun h =>
    cases r with
    | ok page => exact .inr (.inr ⟨page, rfl, by simp [h], List.mem_of_mem_filter hmem⟩)
    | error err => simp [answerBackfill, recovery, hrun] at hmem
  | backfilled hrun => exact .inl (by simpa [recovery, hrun, Task.recovery] using .inr hmem)

theorem mem_notices_dispatch {via' : Via} {first : EventResponse}
    (hmem : .dispatched via event ∈ ((s.dispatch handlers via' first).getD s).notices) :
    .dispatched via event ∈ s.notices ∨ event = first := by
  rcases s.dispatch_getD_cases handlers via' first with ⟨-, heq⟩ | ⟨ids, -, heq⟩
  · exact .inl (heq ▸ hmem)
  · rw [heq] at hmem
    rcases List.mem_append.mp hmem with hold | hnew
    · exact .inl hold
    · cases List.mem_singleton.mp hnew
      exact .inr rfl

/-- What is dispatched was in the poll's hand, or in a recovery's. -/
theorem Move.mem_dispatched (hs : Move handlers s e s') (hmem : .dispatched via event ∈ s'.notices) :
    .dispatched via event ∈ s.notices ∨ event ∈ s.inHand ∨ event ∈ s.recovery := by
  cases hs with
  | same h =>
    obtain ⟨l, hl, hidle⟩ := h.notices
    rw [hl] at hmem
    rcases List.mem_append.mp hmem with hold | hnew
    · exact .inl hold
    · exact (hidle _ hnew).elim
  | observed | heldBack | replayDone | backfillDone => exact .inl hmem
  | ledgerGap => exact .inl (by simpa [note] using hmem)
  | @delivered first rest page s₁ hrun h =>
    have hmem' : .dispatched via event ∈ ((s.dispatch handlers .poll first).getD s).notices := by rwa [h]
    rcases mem_notices_dispatch hmem' with hold | rfl
    · exact .inl hold
    · exact .inr (.inl (by simp [inHand, hrun, Task.inHand]))
  | @checked n rest page hrun =>
    rcases s.check_cases n with ⟨heq, -⟩ | ⟨last, -, -, heq⟩ <;> rw [heq] at hmem
    · exact .inl hmem
    · exact .inl (by simpa [note] using hmem)
  | @replayAnswered replay r hrun h =>
    rcases s.answerReplay_cases replay r with ⟨_, _, -, -, heq⟩ | ⟨heq, -⟩ <;> exact .inl (by rwa [heq] at hmem)
  | @backfillAnswered backfill r hrun h => cases r <;> exact .inl hmem
  | replayed hrun | backfilled hrun =>
    rcases mem_notices_dispatch hmem with hold | rfl
    · exact .inl hold
    · exact .inr (.inr (by simp [recovery, hrun, Task.recovery]))

/-- What the poll delivers is dispatched, or was. -/
theorem delivered_of_delivering (hs : s.step handlers e = some s')
    (hrecorded : ∀ id ∈ s.recentIds, id ∈ dispatchedIds s.notices) (hdelivering : s.delivering e = some event) :
    Delivered s'.notices event := by
  have hdelivered : Delivered ((s.dispatch handlers .poll event).getD s).notices event :=
    delivered_dispatch hrecorded .poll event
  unfold delivering at hdelivering
  split at hdelivering
  · split at hdelivering
    · rename_i first rest page hrun
      cases hdelivering
      simp only [step, hrun, Option.map_some, Option.some.injEq, next] at hs
      subst hs
      unfold deliver
      cases hdispatch : s.dispatch handlers .poll event with
      | none => simpa [hdispatch] using hdelivered
      | some s₁ => simpa [hdispatch] using hdelivered
    · cases hdelivering
  · cases hdelivering

end Subscription

namespace Watching

variable {handlers : StreamEventHandlers} {position : String → ℕ} {w w' : Watching} {e : WatchEvent}

/-- What is asked of the subscription, in a run. -/
def acts (log : List WatchEvent) : List SubscriptionEvent := log.filterMap fun
  | .close _ => none
  | .act e => some e

/-- **The subscription runs** as it does anywhere. -/
theorem run_acts {c : EventChain} {log : List WatchEvent}
    (h : run (step handlers position) { chain := c } log = some w) :
    run (Subscription.step handlers) {} (acts log) = some w.subscription := by
  refine run_induction (P := fun w log => run (Subscription.step handlers) {} (acts log) = some w.subscription)
    rfl (fun w log e w' hrun hs => ?_) h
  cases e with
  | close events =>
    obtain ⟨c, -, rfl⟩ := Option.map_eq_some_iff.mp hs
    simpa [acts] using hrun
  | act e =>
    obtain ⟨-, hs⟩ := Option.ite_none_right_eq_some.mp hs
    obtain ⟨s, hstep, rfl⟩ := Option.map_eq_some_iff.mp hs
    have happend : acts (log ++ [.act e]) = acts log ++ [e] := by simp [acts]
    rw [happend]
    exact run_concat_iff.mpr ⟨_, hrun, hstep⟩

/-- What is dispatched, and what a recovery has yet to deliver, is the chain's; what the poll has delivered is
dispatched. -/
structure Told (w : Watching) : Prop where
  polled : ∀ event ∈ w.polled, Delivered w.subscription.notices event
  recovery : ∀ event ∈ w.subscription.recovery, event ∈ w.chain.events
  dispatched : ∀ via event, .dispatched via event ∈ w.subscription.notices → event ∈ w.chain.events
  recorded : ∀ id ∈ w.subscription.recentIds, id ∈ dispatchedIds w.subscription.notices

theorem told_start (c : EventChain) : Told { chain := c } where
  polled := by simp
  recovery := by simp [Subscription.recovery]
  dispatched := by simp
  recorded := by simp

theorem Told.close (h : w.Told) {events : List EventResponse} {c : EventChain}
    (hclose : w.chain.close events = some c) : Told { w with chain := c } where
  polled := h.polled
  recovery event hmem := by
    rw [(EventChain.close_eq hclose).1]
    exact List.mem_append_left _ (h.recovery event hmem)
  dispatched via event hmem := by
    rw [(EventChain.close_eq hclose).1]
    exact List.mem_append_left _ (h.dispatched via event hmem)
  recorded := h.recorded

theorem Told.act (h : w.Told) (hhand : ∀ event ∈ w.subscription.inHand, event ∈ w.chain.events)
    {e : SubscriptionEvent} (hanswers : w.chain.Answers position w.subscription e)
    (hs : w.act handlers e = some w') : w'.Told := by
  obtain ⟨s, hstep, rfl⟩ := Option.map_eq_some_iff.mp hs
  have hmove := Subscription.step_move hstep
  constructor
  · intro event hmem
    rcases List.mem_append.mp hmem with hold | hnew
    · exact Delivered.of_prefix hmove.notices_grow (h.polled event hold)
    · exact Subscription.delivered_of_delivering hstep h.recorded (Option.mem_toList.mp hnew)
  · intro event hmem
    rcases hmove.mem_recovery hmem with hold | ⟨page, rfl, hreplaying, hpage⟩ | ⟨page, rfl, hbackfilling, hpage⟩
    · exact h.recovery event hold
    · obtain ⟨replay, hreplay⟩ := Option.isSome_iff_exists.mp hreplaying
      rw [hanswers replay hreplay] at hpage
      exact List.mem_of_mem_drop (List.mem_of_mem_take hpage)
    · obtain ⟨backfill, hbackfill⟩ := Option.isSome_iff_exists.mp hbackfilling
      rw [hanswers backfill hbackfill] at hpage
      exact List.mem_of_mem_drop (List.mem_of_mem_take hpage)
  · intro via event hmem
    rcases hmove.mem_dispatched hmem with hold | hpoll | hrecovery
    · exact h.dispatched via event hold
    · exact hhand event hpoll
    · exact h.recovery event hrecovery
  · exact Subscription.recorded_move h.recorded hmove

theorem watched_run {c : EventChain} {log : List WatchEvent}
    (hcut : EachStep (step handlers position) (Uncut position) { chain := c } log)
    (h : run (step handlers position) { chain := c } log = some w) : w.Watched position ∧ w.Told := by
  refine run_induction_of (P := fun w _ => w.Watched position ∧ w.Told)
    ⟨watched_start position c, told_start c⟩ (fun w log e w' hw hok hs => ?_) hcut h
  cases e with
  | close events =>
    obtain ⟨c, hclose, rfl⟩ := Option.map_eq_some_iff.mp hs
    exact ⟨hw.1.close hclose, hw.2.close hclose⟩
  | act e =>
    obtain ⟨hanswers, hs⟩ := Option.ite_none_right_eq_some.mp hs
    exact ⟨(watched_act hw.1 hanswers hs).1 hok, hw.2.act (fun _ => hw.1.mem_events) hanswers hs⟩

theorem dispatchedIds_nodup {c : EventChain} {log : List WatchEvent} (htold : w.Told)
    (h : run (step handlers position) { chain := c } log = some w)
    (hwindow : Number.le (.fin w.chain.events.length) handlers.windowSize = true) :
    (dispatchedIds w.subscription.notices).Nodup := by
  have hsub : dispatchedIds w.subscription.notices ⊆ w.chain.events.filterMap EventResponse.key := by
    intro id hid
    obtain ⟨notice, hnotice, hkey⟩ := List.mem_filterMap.mp hid
    cases notice with
    | dispatched via event => exact List.mem_filterMap.mpr ⟨event, htold.dispatched via event hnotice, hkey⟩
    | gap _ _ | ledgerGap _ | error _ | unsubscribed => cases hkey
  cases hevents : w.chain.events with
  | nil =>
    rw [hevents] at hsub
    rw [List.eq_nil_of_subset_nil hsub]
    exact List.nodup_nil
  | cons first rest =>
    have hone : Number.le (.fin 1) handlers.windowSize = true := by
      refine Number.le_trans ?_ hwindow
      simp [hevents, Number.le_fin]
    refine (Subscription.windowed_run hone (run_acts h)).apart.nodup hsub fun n hn => ?_
    exact Subscription.room_of_le hwindow n (hn.trans (List.length_filterMap_le _ _))

/-- **What is dispatched.** Unless a page without a cursor was cut short, every event from the first ledger on
was dispatched, or one of its id, or the poll has it in hand or will ask for it. Nothing else is dispatched, and
with a window for all the events no id is dispatched twice. -/
theorem events_delivered {c : EventChain} {log : List WatchEvent}
    (hcut : EachStep (step handlers position) (Uncut position) { chain := c } log)
    (h : run (step handlers position) { chain := c } log = some w) :
    (∀ seed ∈ w.seed, ∀ event ∈ w.chain.since (.fin seed), event ∈ w.subscription.inHand ∨
        event ∈ w.chain.rest position w.subscription.ahead ∨ Delivered w.subscription.notices event) ∧
      (∀ via event, .dispatched via event ∈ w.subscription.notices → event ∈ w.chain.events) ∧
      (Number.le (.fin w.chain.events.length) handlers.windowSize = true →
        (dispatchedIds w.subscription.notices).Nodup) := by
  obtain ⟨hwatched, htold⟩ := watched_run hcut h
  refine ⟨fun seed hseed event hmem => ?_, htold.dispatched, fun hwindow => ?_⟩
  · have hcomplete := hwatched.complete seed hseed
    rw [List.append_assoc, List.append_assoc, ← w.chain.before_append_since seed] at hcomplete
    rw [List.append_cancel_left hcomplete] at hmem
    simp only [List.mem_append] at hmem
    rcases hmem with hpolled | hhand | hrest
    · exact .inr (.inr (htold.polled event hpolled))
    · exact .inl hhand
    · exact .inr (.inl hrest)
  · exact dispatchedIds_nodup htold h hwindow

theorem events_delivered_twoPolls : ∃ w, run (step {} behindC) { chain := fiveLedgers } twoPolls = some w ∧
    (∀ seed ∈ w.seed, ∀ event ∈ w.chain.since (.fin seed), event ∈ w.subscription.inHand ∨
        event ∈ w.chain.rest behindC w.subscription.ahead ∨ Delivered w.subscription.notices event) ∧
      (∀ via event, .dispatched via event ∈ w.subscription.notices → event ∈ w.chain.events) ∧
      (Number.le (.fin w.chain.events.length) (StreamEventHandlers.windowSize {}) = true →
        (dispatchedIds w.subscription.notices).Nodup) := by
  obtain ⟨w, hw⟩ := Option.isSome_iff_exists.mp
    (by decide +kernel : (run (step {} behindC) { chain := fiveLedgers } twoPolls).isSome = true)
  exact ⟨w, hw, events_delivered uncut_twoPolls hw⟩

end Watching

end StreamFi
