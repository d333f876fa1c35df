import StreamFi.Events.Dedup

/-!
# Recovery of gaps

A replay and a backfill are one request each, and there is one of each at a time.

* `Covered`: an event was dispatched, or a recovery in flight will come to it;
* `Recovers`: no gap opens while a recovery of its kind is in flight, and the one page that a
  recovery gets holds the events of its gap;
* **`gaps_recovered`**: then all events of all gaps are dispatched, once the recoveries are through.
-/

namespace StreamFi

open Js Run

/-- The event, or one of the same id, was dispatched. -/
def Delivered (notices : List Notice) (event : EventResponse) : Prop :=
  (∃ via, .dispatched via event ∈ notices) ∨
    ∃ id, event.key = some id ∧ id ∈ dispatchedIds notices

/-- The sequence of an event is from `first` up to `actual`. -/
def EventResponse.Between (event : EventResponse) (first actual : ℕ) : Prop :=
  ∃ n, event.number = some n ∧ first ≤ n ∧ n < actual

/-- The ledger of an event is in a gap. -/
def EventResponse.InLedgers (event : EventResponse) (gap : LedgerGap) : Prop :=
  ∃ ledger, event.ledger = some ledger ∧ gap.expected.le ledger = true ∧
    ledger.lt gap.actual = true

section Delivered

variable {notices notices' : List Notice} {event : EventResponse}

theorem Delivered.of_prefix (h : notices <+: notices') (hd : Delivered notices event) :
    Delivered notices' event := by
  obtain ⟨l, rfl⟩ := h
  rcases hd with ⟨via, hmem⟩ | ⟨id, hid, hmem⟩
  · exact .inl ⟨via, List.mem_append_left _ hmem⟩
  · refine .inr ⟨id, hid, ?_⟩
    rw [dispatchedIds_append]
    exact List.mem_append_left _ hmem

theorem delivered_concat (notices : List Notice) (via : Via) (event : EventResponse) :
    Delivered (notices ++ [.dispatched via event]) event :=
  .inl ⟨via, List.mem_append_right _ List.mem_cons_self⟩

end Delivered

theorem mem_of_seen {size : Number} {ids : List String} {id : Option String}
    (h : seen size ids id = none) : ∃ a, truthyText id = some a ∧ a ∈ ids := by
  unfold seen at h
  cases hid : truthyText id with
  | none =>
    rw [hid] at h
    cases h
  | some a =>
    refine ⟨a, rfl, ?_⟩
    simp only [hid, letIn] at h
    split_ifs at h with hzero hmem
    exact hmem

theorem mem_of_letIn {tooMany : ℕ → Bool} {ids ids' : List String} {a b : String}
    (h : letIn tooMany ids a = some ids') (hb : b ∈ ids') : b ∈ ids ∨ b = a := by
  unfold letIn at h
  split_ifs at h
  cases h
  have := (trim_suffix tooMany (ids ++ [a])).subset hb
  simpa using this

namespace Subscription

variable {handlers : StreamEventHandlers} {s s' : Subscription} {e : SubscriptionEvent}
  {event : EventResponse} {kept : EventResponse → Prop}

/-- The replay in flight will come to the event. -/
def InReplay (s : Subscription) (event : EventResponse) : Prop :=
  ∃ replay, s.replaying = some replay ∧ event.Between (replay.expected + 1) replay.actual ∧
    ∀ rest, s.running = some (.replay rest) → event ∈ rest

/-- The backfill in flight will come to the event. -/
def InBackfill (s : Subscription) (event : EventResponse) : Prop :=
  ∃ backfill, s.backfilling = some backfill ∧ event.InLedgers backfill.gap ∧
    ∀ rest, s.running = some (.backfill rest) → event ∈ rest

def Covered (s : Subscription) (event : EventResponse) : Prop :=
  Delivered s.notices event ∨ s.InReplay event ∨ s.InBackfill event

/-- Every event in a gap that was found is covered. -/
structure Recovered (kept : EventResponse → Prop) (s : Subscription) : Prop where
  recorded : ∀ id ∈ s.recentIds, id ∈ dispatchedIds s.notices
  sequences : ∀ expected actual, .gap expected actual ∈ s.notices →
    ∀ event, kept event → event.Between expected actual → s.Covered event
  ledgers : ∀ gap, .ledgerGap gap ∈ s.notices →
    ∀ event, kept event → event.InLedgers gap → s.Covered event

/-- A gap is found when its recovery can start, and the page of a recovery holds the events of its
gap; all but those that are covered otherwise. -/
structure Recovers (kept : EventResponse → Prop) (s : Subscription) (e : SubscriptionEvent) :
    Prop where
  gap : ∀ n rest page last, e = .next → s.running = some (.check n rest page) →
    s.lastSequence = some last → ∀ event, kept event → event.Between (last + 1) n →
      s.Covered event ∨ s.replaying = none ∧ s.lastStartLedger.le (.fin 0) = false
  ledgerGap : ∀ event rest page ledger d gap, e = .next →
    s.running = some (.observe (event :: rest) page) → event.ledger = some ledger →
    s.ledgerGapDetector.observe ledger = .ok (d, some gap) → ∀ event', kept event' →
      event'.InLedgers gap → s.Covered event' ∨ s.backfilling = none
  replay : ∀ replay r, e = .replayed r → s.replaying = some replay → ∀ event, kept event →
    event.Between (replay.expected + 1) replay.actual →
      Delivered s.notices event ∨ s.InBackfill event ∨
        ∃ page events, r = .ok page ∧ missed replay page = some events ∧ event ∈ page
  backfill : ∀ backfill r, e = .backfilled r → s.backfilling = some backfill → ∀ event, kept event →
    event.InLedgers backfill.gap →
      Delivered s.notices event ∨ s.InReplay event ∨ ∃ page, r = .ok page ∧ event ∈ page

/-! ## What stays covered -/

theorem recorded_move (h : ∀ id ∈ s.recentIds, id ∈ dispatchedIds s.notices)
    (hs : Move handlers s e s') : ∀ id ∈ s'.recentIds, id ∈ dispatchedIds s'.notices := by
  rcases hs.dispatches with ⟨hids, hnotices⟩ | ⟨event, hseen, hnotices⟩
  · rwa [hids, hnotices]
  · intro id hid
    rw [hnotices, List.mem_append]
    rcases seen_cases hseen with ⟨-, hids⟩ | ⟨a, hkey, ⟨-, hids⟩ | ⟨-, hin⟩⟩
    · exact .inl (h id (hids ▸ hid))
    · exact .inl (h id (hids ▸ hid))
    · rcases mem_of_letIn hin hid with hid | rfl
      · exact .inl (h id hid)
      · exact .inr (by rw [EventResponse.key, hkey]; exact List.mem_singleton_self _)

/-- An event that is come to is delivered: now, or it was before. -/
theorem delivered_dispatch (h : ∀ id ∈ s.recentIds, id ∈ dispatchedIds s.notices) (via : Via)
    (event : EventResponse) :
    Delivered ((s.dispatch handlers via event).getD s).notices event := by
  rcases s.dispatch_getD_cases handlers via event with ⟨hseen, heq⟩ | ⟨ids, -, heq⟩
  · obtain ⟨a, hkey, hmem⟩ := mem_of_seen hseen
    rw [heq]
    exact .inr ⟨a, hkey, h a hmem⟩
  · rw [heq]
    exact delivered_concat _ _ _

theorem InReplay.keep (h : s.InReplay event) (hreplaying : s'.replaying = s.replaying)
    (hrun : ∀ rest, s'.running = some (.replay rest) → s.running = some (.replay rest)) :
    s'.InReplay event := by
  obtain ⟨replay, hreplay, hbetween, hrest⟩ := h
  exact ⟨replay, by rw [hreplaying, hreplay], hbetween, fun rest hr => hrest rest (hrun rest hr)⟩

theorem InBackfill.keep (h : s.InBackfill event) (hbackfilling : s'.backfilling = s.backfilling)
    (hrun : ∀ rest, s'.running = some (.backfill rest) → s.running = some (.backfill rest)) :
    s'.InBackfill event := by
  obtain ⟨backfill, hbackfill, hledgers, hrest⟩ := h
  exact ⟨backfill, by rw [hbackfilling, hbackfill], hledgers,
    fun rest hr => hrest rest (hrun rest hr)⟩

theorem replaying_dispatch (handlers : StreamEventHandlers) (s : Subscription) (via : Via)
    (event : EventResponse) : ((s.dispatch handlers via event).getD s).replaying = s.replaying := by
  rcases s.dispatch_getD_cases handlers via event with ⟨-, heq⟩ | ⟨ids, -, heq⟩ <;> rw [heq]
  rfl

theorem backfilling_dispatch (handlers : StreamEventHandlers) (s : Subscription) (via : Via)
    (event : EventResponse) :
    ((s.dispatch handlers via event).getD s).backfilling = s.backfilling := by
  rcases s.dispatch_getD_cases handlers via event with ⟨-, heq⟩ | ⟨ids, -, heq⟩ <;> rw [heq]
  rfl

/-- A replay in flight is not replaced. -/
theorem InReplay.check (h : s.InReplay event) {n : ℕ} {rest : List EventResponse} {page : EventsPage} :
    InReplay { s.check n with running := some (.observe rest page) } event := by
  obtain ⟨replay, hreplay, hbetween, -⟩ := h
  refine ⟨replay, ?_, hbetween, by rintro _ ⟨⟩⟩
  rcases s.check_cases n with ⟨heq, -⟩ | ⟨last, -, -, heq⟩
  · rw [heq]
    exact hreplay
  · rw [heq]
    rcases (s.note (.gap (last + 1) n)).replayGap_cases last n with ⟨hsame, -⟩ | ⟨hnone, -⟩
    · rw [hsame]
      exact hreplay
    · cases hreplay.symm.trans hnone

theorem InBackfill.check (h : s.InBackfill event) {n : ℕ} {rest : List EventResponse}
    {page : EventsPage} :
    InBackfill { s.check n with running := some (.observe rest page) } event := by
  refine h.keep ?_ (by rintro _ ⟨⟩)
  rcases s.check_cases n with ⟨heq, -⟩ | ⟨last, -, -, heq⟩
  · rw [heq]
  · rw [heq]
    exact backfilling_replayGap _ _ _

/-- A backfill in flight is not replaced. -/
theorem InBackfill.ledgerGap (h : s.InBackfill event) {d : LedgerGapDetector} {gap : LedgerGap}
    {task : Task} (htask : ∀ rest, task ≠ .backfill rest) :
    InBackfill { ({ s with ledgerGapDetector := d }.note (.ledgerGap gap)).backfillLedgerGap gap with
      running := some task } event := by
  obtain ⟨backfill, hbackfill, hledgers, -⟩ := h
  refine ⟨backfill, ?_, hledgers, fun rest hr => absurd (Option.some.inj hr) (htask rest)⟩
  rcases ({ s with ledgerGapDetector := d }.note (.ledgerGap gap)).backfillLedgerGap_cases gap with
    ⟨hsame, -⟩ | ⟨hnone, -⟩
  · rw [hsame]
    exact hbackfill
  · cases hbackfill.symm.trans hnone

/-- The page of a replay holds the events of its gap. -/
theorem InReplay.answer (h : s.InReplay event) {replay : GapReplay}
    (hreplaying : s.replaying = some replay) {r : Except Thrown (List EventResponse)}
    (hok : s.Recovers kept (.replayed r)) (hkept : kept event) :
    (s.answerReplay replay r).Covered event := by
  obtain ⟨replay', hreplay', hbetween, -⟩ := h
  cases hreplaying.symm.trans hreplay'
  have hnotices : (s.answerReplay replay r).notices = s.notices := by
    rcases s.answerReplay_cases replay r with ⟨_, _, -, -, heq⟩ | ⟨heq, -⟩ <;> rw [heq]
  rcases hok.replay replay r rfl hreplaying event hkept hbetween with hd | hb |
    ⟨page, events, rfl, hmissed, hmem⟩
  · exact .inl (by rwa [hnotices])
  · refine .inr (.inr ?_)
    rcases s.answerReplay_cases replay r with ⟨_, _, -, -, heq⟩ | ⟨heq, -⟩
    · rw [heq]
      exact hb.keep rfl (by rintro _ ⟨⟩)
    · rw [heq]
      exact hb.keep rfl fun _ hr => hr
  · refine .inr (.inl ⟨replay, ?_, hbetween, ?_⟩)
    · simp only [answerReplay, hmissed]
      exact hreplaying
    · simp only [answerReplay, hmissed]
      rintro rest ⟨⟩
      obtain ⟨n, hn, hfirst, hactual⟩ := hbetween
      exact (mem_missed hmissed).mpr ⟨hmem, n, hn, hfirst, hactual⟩

theorem InBackfill.answer (h : s.InBackfill event)
    {backfill : LedgerBackfill} (hbackfilling : s.backfilling = some backfill)
    {r : Except Thrown (List EventResponse)} (hok : s.Recovers kept (.backfilled r))
    (hkept : kept event) : (s.answerBackfill backfill r).Covered event := by
  obtain ⟨backfill', hbackfill', hledgers, -⟩ := h
  cases hbackfilling.symm.trans hbackfill'
  rcases hok.backfill backfill r rfl hbackfilling event hkept hledgers with hd | hr |
    ⟨page, rfl, hmem⟩
  · refine .inl ?_
    cases r <;> exact hd
  · refine .inr (.inl ?_)
    cases r with
    | ok page => exact hr.keep rfl (by rintro _ ⟨⟩)
    | error err => exact hr.keep rfl fun _ hrest => hrest
  · refine .inr (.inr ⟨backfill, hbackfilling, hledgers, ?_⟩)
    rintro rest ⟨⟩
    obtain ⟨ledger, hledger, -, hlt⟩ := hledgers
    exact List.mem_filter.mpr ⟨hmem, by simp only [hledger, hlt]⟩

theorem InReplay.move (h : s.InReplay event) (hkept : kept event) (hok : s.Recovers kept e)
    (hrecorded : ∀ id ∈ s.recentIds, id ∈ dispatchedIds s.notices) (hs : Move handlers s e s') :
    s'.Covered event := by
  cases hs with
  | same hsame =>
    refine .inr (.inl (h.keep hsame.replaying fun rest hrest => ?_))
    rcases hsame.running with heq | ⟨-, hrun | ⟨_, _, hrun⟩⟩
    · exact heq ▸ hrest
    · cases hrest.symm.trans hrun
    · cases hrest.symm.trans hrun
  | observed | heldBack | backfillDone => exact .inr (.inl (h.keep rfl (by rintro _ ⟨⟩)))
  | ledgerGap => exact .inr (.inl (h.keep (replaying_backfillLedgerGap _ _) (by rintro _ ⟨⟩)))
  | @delivered first rest page s₁ hrun hdispatch =>
    obtain ⟨_, -, rfl⟩ := dispatch_eq hdispatch
    refine .inr (.inl (h.keep rfl fun rest hrest => ?_))
    cases hnumber : first.number <;> simp [hnumber] at hrest
  | checked => exact .inr (.inl h.check)
  | replayAnswered hrun hreplaying => exact h.answer hreplaying hok hkept
  | @replayed first rest hrun =>
    obtain ⟨replay, hreplay, hbetween, hrest⟩ := h
    rcases List.mem_cons.mp (hrest _ hrun) with rfl | hmem
    · exact .inl (delivered_dispatch hrecorded .replay event)
    · refine .inr (.inl ⟨replay, (replaying_dispatch _ _ _ _).trans hreplay, hbetween, ?_⟩)
      rintro _ ⟨⟩
      exact hmem
  | replayDone hrun =>
    obtain ⟨_, -, -, hrest⟩ := h
    cases hrest [] hrun
  | @backfillAnswered backfill r hrun hbackfilling =>
    refine .inr (.inl ?_)
    cases r with
    | ok page => exact h.keep rfl (by rintro _ ⟨⟩)
    | error err => exact h.keep rfl fun _ hrest => hrest
  | backfilled => exact .inr (.inl (h.keep (replaying_dispatch _ _ _ _) (by rintro _ ⟨⟩)))

theorem InBackfill.move (h : s.InBackfill event) (hkept : kept event) (hok : s.Recovers kept e)
    (hrecorded : ∀ id ∈ s.recentIds, id ∈ dispatchedIds s.notices) (hs : Move handlers s e s') :
    s'.Covered event := by
  cases hs with
  | same hsame =>
    refine .inr (.inr (h.keep hsame.backfilling fun rest hrest => ?_))
    rcases hsame.running with heq | ⟨-, hrun | ⟨_, _, hrun⟩⟩
    · exact heq ▸ hrest
    · cases hrest.symm.trans hrun
    · cases hrest.symm.trans hrun
  | observed | heldBack | replayDone => exact .inr (.inr (h.keep rfl (by rintro _ ⟨⟩)))
  | ledgerGap => exact .inr (.inr (h.ledgerGap (by rintro _ ⟨⟩)))
  | @delivered first rest page s₁ hrun hdispatch =>
    obtain ⟨_, -, rfl⟩ := dispatch_eq hdispatch
    refine .inr (.inr (h.keep rfl fun rest hrest => ?_))
    cases hnumber : first.number <;> simp [hnumber] at hrest
  | checked => exact .inr (.inr h.check)
  | @replayAnswered replay r hrun hreplaying =>
    refine .inr (.inr ?_)
    rcases s.answerReplay_cases replay r with ⟨_, _, -, -, heq⟩ | ⟨heq, -⟩
    · rw [heq]
      exact h.keep rfl (by rintro _ ⟨⟩)
    · rw [heq]
      exact h.keep rfl fun _ hrest => hrest
  | replayed => exact .inr (.inr (h.keep (backfilling_dispatch _ _ _ _) (by rintro _ ⟨⟩)))
  | backfillAnswered hrun hbackfilling => exact h.answer hbackfilling hok hkept
  | @backfilled first rest hrun =>
    obtain ⟨backfill, hbackfill, hledgers, hrest⟩ := h
    rcases List.mem_cons.mp (hrest _ hrun) with rfl | hmem
    · exact .inl (delivered_dispatch hrecorded .backfill event)
    · refine .inr (.inr ⟨backfill, (backfilling_dispatch _ _ _ _).trans hbackfill, hledgers, ?_⟩)
      rintro _ ⟨⟩
      exact hmem
  | backfillDone hrun =>
    obtain ⟨_, -, -, hrest⟩ := h
    cases hrest [] hrun

/-- **What is covered stays covered.** -/
theorem Covered.move (h : s.Covered event) (hkept : kept event) (hok : s.Recovers kept e)
    (hrecorded : ∀ id ∈ s.recentIds, id ∈ dispatchedIds s.notices) (hs : Move handlers s e s') :
    s'.Covered event := by
  rcases h with hd | hr | hb
  · exact .inl (hd.of_prefix hs.notices_grow)
  · exact hr.move hkept hok hrecorded hs
  · exact hb.move hkept hok hrecorded hs

/-! ## Gaps -/

/-- A gap of sequences that is found now starts its replay. -/
theorem covered_of_gap (hok : s.Recovers kept .next) (hkept : kept event) {n last : ℕ}
    {rest : List EventResponse} {page : EventsPage} (hrun : s.running = some (.check n rest page))
    (hlast : s.lastSequence = some last) (hbetween : event.Between (last + 1) n)
    (hrecorded : ∀ id ∈ s.recentIds, id ∈ dispatchedIds s.notices) :
    Covered { s.check n with running := some (.observe rest page) } event := by
  rcases hok.gap n rest page last rfl hrun hlast event hkept hbetween with hcovered | ⟨hfree, hpos⟩
  · exact hcovered.move hkept hok hrecorded (Move.checked hrun : Move {} s .next _)
  rcases s.check_cases n with ⟨-, hnext⟩ | ⟨last', hlast', -, heq⟩
  · obtain ⟨k, -, hfirst, hlt⟩ := hbetween
    have := hnext last hlast
    omega
  · cases hlast.symm.trans hlast'
    rw [heq]
    rcases (s.note (.gap (last + 1) n)).replayGap_cases last n with
      ⟨-, hbusy | hzero⟩ | ⟨-, -, request, hnew⟩
    · rw [note, hfree] at hbusy
      cases hbusy
    · rw [note, hpos] at hzero
      cases hzero
    · rw [hnew]
      exact .inr (.inl ⟨⟨last, n, request⟩, rfl, hbetween, by rintro _ ⟨⟩⟩)

/-- A gap of ledgers that is found now starts its backfill. -/
theorem covered_of_ledgerGap (hok : s.Recovers kept .next) (hkept : kept event)
    {first : EventResponse} {rest : List EventResponse} {page : EventsPage} {ledger : Number}
    {d : LedgerGapDetector} {gap : LedgerGap}
    (hrun : s.running = some (.observe (first :: rest) page)) (hledger : first.ledger = some ledger)
    (hgap : s.ledgerGapDetector.observe ledger = .ok (d, some gap)) (hin : event.InLedgers gap)
    (hrecorded : ∀ id ∈ s.recentIds, id ∈ dispatchedIds s.notices) :
    Covered { ({ s with ledgerGapDetector := d }.note (.ledgerGap gap)).backfillLedgerGap gap with
      running := some (.deliver first rest page) } event := by
  rcases hok.ledgerGap first rest page ledger d gap rfl hrun hledger hgap event hkept hin with
    hcovered | hfree
  · exact hcovered.move hkept hok hrecorded
      (Move.ledgerGap hrun hledger hgap : Move {} s .next _)
  · rcases ({ s with ledgerGapDetector := d }.note (.ledgerGap gap)).backfillLedgerGap_cases gap with
      ⟨-, hbusy⟩ | ⟨-, request, hnew⟩
    · rw [note, hfree] at hbusy
      cases hbusy
    · rw [hnew]
      exact .inr (.inr ⟨⟨gap, request⟩, rfl, hin, by rintro _ ⟨⟩⟩)

/-- What is called on the handlers in a step. -/
theorem Move.news (hs : Move handlers s e s') {notice : Notice} (hmem : notice ∈ s'.notices) :
    notice ∈ s.notices ∨ notice.Idle ∨ (∃ via event, notice = .dispatched via event) ∨
      (∃ n rest page last, e = .next ∧ s.running = some (.check n rest page) ∧
        s.lastSequence = some last ∧ notice = .gap (last + 1) n ∧
        s' = { s.check n with running := some (.observe rest page) }) ∨
      ∃ first rest page ledger d gap, e = .next ∧ s.running = some (.observe (first :: rest) page) ∧
        first.ledger = some ledger ∧ s.ledgerGapDetector.observe ledger = .ok (d, some gap) ∧
        notice = .ledgerGap gap ∧
        s' = { ({ s with ledgerGapDetector := d }.note (.ledgerGap gap)).backfillLedgerGap gap with
          running := some (.deliver first rest page) } := by
  have hdispatch (via : Via) (event : EventResponse)
      (h : notice ∈ ((s.dispatch handlers via event).getD s).notices) :
      notice ∈ s.notices ∨ ∃ via event, notice = .dispatched via event := by
    rcases s.dispatch_getD_cases handlers via event with ⟨-, heq⟩ | ⟨_, -, heq⟩
    · rw [heq] at h
      exact .inl h
    · rw [heq] at h
      exact (List.mem_append.mp h).imp_right fun h => ⟨via, event, List.mem_singleton.mp h⟩
  cases hs with
  | same h =>
    obtain ⟨l, hl, hidle⟩ := h.notices
    rw [hl, List.mem_append] at hmem
    exact hmem.imp_right fun h => .inl (hidle notice h)
  | observed | heldBack | replayDone | backfillDone => exact .inl hmem
  | @ledgerGap first rest page ledger d gap hrun hledger hgap =>
    simp only [notices_backfillLedgerGap, note, List.mem_append, List.mem_singleton] at hmem
    exact hmem.imp_right fun h =>
      .inr (.inr (.inr ⟨first, rest, page, ledger, d, gap, rfl, hrun, hledger, hgap, h, rfl⟩))
  | delivered hrun h =>
    have := hdispatch .poll _ (by rw [h]; exact hmem)
    exact this.imp_right fun h => .inr (.inl h)
  | @checked n rest page hrun =>
    rcases s.check_cases n with ⟨heq, -⟩ | ⟨last, hlast, -, heq⟩
    · rw [heq] at hmem
      exact .inl hmem
    · rw [heq] at hmem
      simp only [notices_replayGap, note, List.mem_append, List.mem_singleton] at hmem
      exact hmem.imp_right fun h => .inr (.inr (.inl ⟨n, rest, page, last, rfl, hrun, hlast, h, rfl⟩))
  | @replayAnswered replay r hrun h =>
    left
    rcases s.answerReplay_cases replay r with ⟨_, _, -, -, heq⟩ | ⟨heq, -⟩ <;> rwa [heq] at hmem
  | @backfillAnswered backfill r hrun h =>
    left
    cases r <;> exact hmem
  | replayed | backfilled => exact (hdispatch _ _ hmem).imp_right fun h => .inr (.inl h)

theorem Recovered.move (h : s.Recovered kept) (hok : s.Recovers kept e)
    (hs : Move handlers s e s') : s'.Recovered kept := by
  refine ⟨recorded_move h.recorded hs, ?_, ?_⟩
  · intro expected actual hmem event hkept hbetween
    rcases hs.news hmem with hmem | hidle | ⟨_, _, ⟨⟩⟩ |
      ⟨n, rest, page, last, rfl, hrun, hlast, hnotice, rfl⟩ | ⟨_, _, _, _, _, _, -, -, -, -, ⟨⟩, -⟩
    · exact (h.sequences expected actual hmem event hkept hbetween).move hkept hok h.recorded hs
    · exact hidle.elim
    · cases hnotice
      exact covered_of_gap hok hkept hrun hlast hbetween h.recorded
  · intro gap hmem event hkept hin
    rcases hs.news hmem with hmem | hidle | ⟨_, _, ⟨⟩⟩ | ⟨_, _, _, _, -, -, -, ⟨⟩, -⟩ |
      ⟨first, rest, page, ledger, d, gap', rfl, hrun, hledger, hgap, hnotice, rfl⟩
    · exact (h.ledgers gap hmem event hkept hin).move hkept hok h.recorded hs
    · exact hidle.elim
    · cases hnotice
      exact covered_of_ledgerGap hok hkept hrun hledger hgap hin h.recorded

/-- No recovery is in flight. -/
def Through (s : Subscription) : Prop := s.replaying = none ∧ s.backfilling = none

theorem Covered.delivered (h : s.Covered event) (hthrough : s.Through) :
    Delivered s.notices event := by
  rcases h with h | ⟨_, hreplay, -⟩ | ⟨_, hbackfill, -⟩
  · exact h
  · cases hthrough.1.symm.trans hreplay
  · cases hthrough.2.symm.trans hbackfill

/-- Once no recovery is in flight, every kept event in a gap that was found is delivered. -/
def Complete (kept : EventResponse → Prop) (s : Subscription) : Prop :=
  s.Through → ∀ event, kept event →
    (∀ expected actual, .gap expected actual ∈ s.notices → event.Between expected actual →
      Delivered s.notices event) ∧
    ∀ gap, .ledgerGap gap ∈ s.notices → event.InLedgers gap → Delivered s.notices event

/-- **Every event in a gap is dispatched**, as long as the RPC still serves it, in every run where no
gap opens while a recovery of its kind is in flight and every recovery gets a page that holds the
events of its gap. -/
theorem gaps_recovered {log : List SubscriptionEvent}
    (hok : EachStep (step handlers) (Recovers kept) {} log)
    (h : run (step handlers) {} log = some s) : s.Recovered kept ∧ s.Complete kept := by
  have hempty : Recovered kept {} := by
    refine ⟨?_, ?_, ?_⟩
    · rintro id ⟨⟩
    · rintro expected actual ⟨⟩
    · rintro gap ⟨⟩
  have hrecovered : s.Recovered kept := run_induction_of (P := fun s _ => s.Recovered kept) hempty
    (fun s _ e s' hP hok hs => hP.move hok (step_move hs)) hok h
  refine ⟨hrecovered, fun hthrough event hkept => ⟨?_, ?_⟩⟩
  · intro expected actual hmem hbetween
    exact (hrecovered.sequences expected actual hmem event hkept hbetween).delivered hthrough
  · intro gap hmem hin
    exact (hrecovered.ledgers gap hmem event hkept hin).delivered hthrough

/-- A check that asks for a page with everything, and for one recovery at a time. -/
def checkRecovers (served : List EventResponse) (s : Subscription) : SubscriptionEvent → Bool
  | .next => match s.running with
    | some (.check _ _ _) => s.replaying.isNone && !s.lastStartLedger.le (.fin 0)
    | some (.observe (_ :: _) _) => s.backfilling.isNone
    | _ => true
  | .replayed (.ok page) => served.all (· ∈ page) && s.replaying.all fun replay =>
    (missed replay page).isSome
  | .backfilled (.ok page) => served.all (· ∈ page)
  | .replayed (.error _) | .backfilled (.error _) => false
  | _ => true

theorem recovers_of_check {served : List EventResponse} (h : checkRecovers served s e = true) :
    s.Recovers (· ∈ served) e := by
  refine ⟨?_, ?_, ?_, ?_⟩
  · rintro n rest page last rfl hrun - event - -
    simp only [checkRecovers, hrun, Bool.and_eq_true, Option.isNone_iff_eq_none,
      Bool.not_eq_true'] at h
    exact .inr h
  · rintro event rest page ledger d gap rfl hrun - - event' - -
    simp only [checkRecovers, hrun, Option.isNone_iff_eq_none] at h
    exact .inr h
  · rintro replay r rfl hreplaying event hmem -
    cases r with
    | error err => cases h
    | ok page =>
      simp only [checkRecovers, hreplaying, Option.all_some, Bool.and_eq_true, List.all_eq_true,
        decide_eq_true_iff, Option.isSome_iff_exists] at h
      obtain ⟨events, hevents⟩ := h.2
      exact .inr (.inr ⟨page, events, rfl, hevents, h.1 event hmem⟩)
  · rintro backfill r rfl - event hmem -
    cases r with
    | error err => cases h
    | ok page =>
      simp only [checkRecovers, List.all_eq_true, decide_eq_true_iff] at h
      exact .inr (.inr ⟨page, rfl, h event hmem⟩)

/-- The first events from a ledger on that the RPC serves. -/
def getEvents (served : List EventResponse) (request : EventsRequest) : List EventResponse :=
  (served.filter fun event => match request.startLedger, event.ledger with
    | some start, some ledger => start.le ledger
    | _, _ => true).take request.limit

/-- The requests of the recoveries succeed. -/
structure Serves (served : List EventResponse) (s : Subscription) (e : SubscriptionEvent) : Prop where
  replay : ∀ replay r, e = .replayed r → s.replaying = some replay →
    r = .ok (getEvents served replay.request)
  backfill : ∀ backfill r, e = .backfilled r → s.backfilling = some backfill →
    r = .ok (getEvents served backfill.request)

/-- A poll gets some of these events, and the replay of its first gap gets them all. -/
def gapsIn (ns all : List ℕ) : List SubscriptionEvent :=
  pageOf ns ++ [.replayed (.ok (all.map sequenceEvent)), .next, .next]

theorem gaps_recovered_one : ∃ s, run (step {}) {} (gapsIn [1, 3] [1, 2, 3]) = some s ∧
    .gap 2 3 ∈ s.notices ∧ s.Recovered (· ∈ [1, 2, 3].map sequenceEvent) ∧
      s.Complete (· ∈ [1, 2, 3].map sequenceEvent) := by
  obtain ⟨s, hs, hgap⟩ := Option.map_eq_some_iff.mp (by decide +kernel :
    (run (step {}) {} (gapsIn [1, 3] [1, 2, 3])).map (fun s => decide (.gap 2 3 ∈ s.notices)) =
      some true)
  exact ⟨s, hs, of_decide_eq_true hgap,
    gaps_recovered (.of_allSteps (fun s e => recovers_of_check) (by decide +kernel)) hs⟩

def checkServes (served : List EventResponse) (s : Subscription) : SubscriptionEvent → Bool
  | .replayed (.ok page) => s.replaying.all fun replay => page = getEvents served replay.request
  | .replayed (.error _) | .backfilled _ => false
  | _ => true

/-- The second of two gaps in a page is not replayed. -/
theorem second_gap_lost : ¬ ∀ served log s, EachStep (step {}) (Serves served) {} log →
    run (step {}) {} log = some s → s.Complete (· ∈ served) := by
  intro h
  have hcheck : ∀ served s e, checkServes served s e = true → s.Serves served e := by
    intro served s e h
    refine ⟨?_, ?_⟩
    · rintro replay r rfl hreplaying
      cases r with
      | error err => cases h
      | ok page =>
        simp only [checkServes, hreplaying, Option.all_some, decide_eq_true_iff] at h
        rw [h]
    · rintro backfill r rfl -
      cases h
  obtain ⟨s, hs, hnotices⟩ := Option.map_eq_some_iff.mp (by decide +kernel :
    (run (step {}) {} (gapsIn [1, 3, 5] [1, 2, 3, 4, 5])).map
      (fun s => (s.replaying, s.backfilling, s.notices)) =
      some (none, none, [.dispatched .poll (sequenceEvent 1), .dispatched .poll (sequenceEvent 3),
        .gap 2 3, .dispatched .poll (sequenceEvent 5), .gap 4 5, .dispatched .replay (sequenceEvent 2)]))
  simp only [Prod.mk.injEq] at hnotices
  obtain ⟨hreplaying, hbackfilling, hnotices⟩ := hnotices
  have hserves : EachStep (step {}) (Serves ([1, 2, 3, 4, 5].map sequenceEvent)) {}
      (gapsIn [1, 3, 5] [1, 2, 3, 4, 5]) := .of_allSteps (hcheck _) (by decide +kernel)
  have hdelivered := (h _ _ s hserves hs ⟨hreplaying, hbackfilling⟩ (sequenceEvent 4)
    (by simp)).1 4 5 (by simp [hnotices]) ⟨4, rfl, le_rfl, by decide⟩
  rw [hnotices] at hdelivered
  rcases hdelivered with ⟨via, hmem⟩ | ⟨id, hid, hmem⟩
  · cases via <;> exact absurd hmem (by decide)
  · cases hid
    exact absurd hmem (by decide)

end Subscription

end StreamFi
