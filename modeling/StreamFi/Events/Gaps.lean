import StreamFi.Events.Subscription

/-!
# Reported gaps

The poll reports a gap where the sequence of an event is not the one after the last. It compares
with one number, which the recoveries do not move.

* `Truthful`: the events of every reported gap are missing when it is reported;
* `Tracked`: what is known of the sequences that were dispatched;
* **`gaps_truthful_iff`**: gaps are reported truthfully, and the last sequence never goes backwards,
  exactly when the poll gets its sequences in ascending order and no backfill gets ahead of it.
-/

namespace StreamFi

open Js Run

/-- No event of the sequences from `expected` up to `actual` has been dispatched. -/
def Missing (notices : List Notice) (expected actual : ℕ) : Prop :=
  ∀ via event n, .dispatched via event ∈ notices → event.number = some n → n < expected ∨ actual ≤ n

/-- Every gap is reported from below, when its events are missing. -/
def Truthful (notices : List Notice) : Prop :=
  ∀ before expected actual, before ++ [.gap expected actual] <+: notices →
    expected < actual ∧ Missing before expected actual

/-- A notice that neither dispatches an event nor reports a gap of sequences. -/
def Notice.Aside : Notice → Prop
  | .dispatched _ _ | .gap _ _ => False
  | _ => True

theorem Notice.Idle.aside {notice : Notice} (h : notice.Idle) : notice.Aside := by
  cases notice with
  | error _ | unsubscribed => trivial
  | dispatched _ _ | gap _ _ | ledgerGap _ => exact h.elim

section Truthful

variable {notices notices' : List Notice}

theorem truthful_nil : Truthful [] := by
  intro before expected actual h
  simp at h

theorem Truthful.of_prefix (h : notices <+: notices') (ht : Truthful notices') : Truthful notices :=
  fun before expected actual hgap => ht before expected actual (hgap.trans h)

theorem truthful_gap_iff {expected actual : ℕ} : Truthful (notices ++ [.gap expected actual]) ↔
    Truthful notices ∧ expected < actual ∧ Missing notices expected actual := by
  constructor
  · intro h
    exact ⟨h.of_prefix (List.prefix_append _ _), h notices expected actual List.prefix_rfl⟩
  · rintro ⟨h, hgap⟩ before a b hprefix
    rcases List.prefix_concat_iff.mp hprefix with heq | hprefix
    · obtain ⟨rfl, hab⟩ := List.append_inj' heq rfl
      cases hab
      exact hgap
    · exact h before a b hprefix

/-- A notice that is about no sequence gap. -/
theorem Truthful.concat (h : Truthful notices) {notice : Notice}
    (hnotice : ∀ expected actual, notice ≠ .gap expected actual) :
    Truthful (notices ++ [notice]) := by
  intro before a b hprefix
  rcases List.prefix_concat_iff.mp hprefix with heq | hprefix
  · obtain ⟨-, hab⟩ := List.append_inj' heq rfl
    cases hab
    exact absurd rfl (hnotice a b)
  · exact h before a b hprefix

theorem Truthful.append (h : Truthful notices) {l : List Notice}
    (hl : ∀ notice ∈ l, notice.Aside) : Truthful (notices ++ l) := by
  induction l using List.reverseRecOn with
  | nil => rwa [List.append_nil]
  | append_singleton l notice ih =>
    rw [← List.append_assoc]
    refine (ih fun n hn => hl n (List.mem_append_left _ hn)).concat ?_
    rintro a b rfl
    exact hl _ (List.mem_append_right _ List.mem_cons_self)

end Truthful

namespace Subscription

variable {handlers : StreamEventHandlers} {s s' : Subscription} {e : SubscriptionEvent}

/-- The last sequence has got this far. -/
def Reached (s : Subscription) (n : ℕ) : Prop := ∃ last, s.lastSequence = some last ∧ n ≤ last

/-- The last sequence does not go backwards. -/
def Forward (handlers : StreamEventHandlers) (s : Subscription) (e : SubscriptionEvent) : Prop :=
  ∀ s' n, s.step handlers e = some s' → s.Reached n → s'.Reached n

/-- The poll checks a sequence above the last one, and no backfill has dispatched any between. -/
def InOrder (s : Subscription) (e : SubscriptionEvent) : Prop :=
  ∀ n rest page last, e = .next → s.running = some (.check n rest page) →
    s.lastSequence = some last → last < n ∧
      ∀ event k, .dispatched .backfill event ∈ s.notices → event.number = some k →
        k ≤ last ∨ n ≤ k

/-- What was dispatched, but for backfills, is not above the last sequence. -/
structure Tracked (s : Subscription) : Prop where
  truthful : Truthful s.notices
  polled : ∀ event n, .dispatched .poll event ∈ s.notices → event.number = some n →
    s.Reached n ∨ ∃ rest page, s.running = some (.check n rest page)
  replayed : ∀ event n, .dispatched .replay event ∈ s.notices → event.number = some n → s.Reached n
  replaying : ∀ replay, s.replaying = some replay → s.Reached replay.actual
  running : ∀ rest, s.running = some (.replay rest) →
    ∀ event ∈ rest, ∀ n, event.number = some n → s.Reached n

theorem tracked_empty : Tracked {} := by
  refine ⟨truthful_nil, ?_, ?_, ?_, ?_⟩
  · rintro event n ⟨⟩
  · rintro event n ⟨⟩
  · rintro replay ⟨⟩
  · rintro rest ⟨⟩

/-- A move that checks no sequence. -/
theorem Tracked.of (h : s.Tracked) (hlast : s'.lastSequence = s.lastSequence)
    (htruthful : Truthful s'.notices)
    (hpolled : ∀ event n, .dispatched .poll event ∈ s'.notices → event.number = some n →
      .dispatched .poll event ∈ s.notices ∨ ∃ rest page, s'.running = some (.check n rest page))
    (hreplayed : ∀ event n, .dispatched .replay event ∈ s'.notices → event.number = some n →
      .dispatched .replay event ∈ s.notices ∨ s.Reached n)
    (hreplaying : ∀ replay, s'.replaying = some replay → s.replaying = some replay)
    (hcheck : ∀ n rest page, s.running = some (.check n rest page) → s'.running = s.running)
    (hrest : ∀ rest, s'.running = some (.replay rest) →
      ∀ event ∈ rest, ∀ n, event.number = some n → s.Reached n) : s'.Tracked := by
  have hreached {n : ℕ} (hn : s.Reached n) : s'.Reached n := by rwa [Reached, hlast]
  refine ⟨htruthful, ?_, ?_, ?_, ?_⟩
  · intro event n hmem hn
    rcases hpolled event n hmem hn with hmem | hrun
    · rcases h.polled event n hmem hn with hn | ⟨rest, page, hrun⟩
      · exact .inl (hreached hn)
      · exact .inr ⟨rest, page, by rw [hcheck n rest page hrun, hrun]⟩
    · exact .inr hrun
  · intro event n hmem hn
    rcases hreplayed event n hmem hn with hmem | hn
    · exact hreached (h.replayed event n hmem ‹_›)
    · exact hreached hn
  · intro replay hreplay
    exact hreached (h.replaying replay (hreplaying replay hreplay))
  · intro rest hrun event hmem n hn
    exact hreached (hrest rest hrun event hmem n hn)

/-- A move that neither dispatches nor checks anything, and goes on to no replay. -/
theorem Tracked.idle (h : s.Tracked) {l : List Notice} (hl : ∀ notice ∈ l, notice.Aside)
    (hnotices : s'.notices = s.notices ++ l) (hlast : s'.lastSequence = s.lastSequence)
    (hreplaying : ∀ replay, s'.replaying = some replay → s.replaying = some replay)
    (hcheck : ∀ n rest page, s.running = some (.check n rest page) → s'.running = s.running)
    (hrest : ∀ rest, s'.running = some (.replay rest) →
      ∀ event ∈ rest, ∀ n, event.number = some n → s.Reached n) : s'.Tracked := by
  have hmem {via : Via} {event : EventResponse} (h : Notice.dispatched via event ∈ s'.notices) :
      Notice.dispatched via event ∈ s.notices := by
    rw [hnotices, List.mem_append] at h
    exact h.resolve_right fun hm => hl _ hm
  exact h.of hlast (hnotices ▸ h.truthful.append hl) (fun _ _ h _ => .inl (hmem h))
    (fun _ _ h _ => .inl (hmem h)) hreplaying hcheck hrest

/-- A recovery comes to an event: it was dispatched before, or is now. -/
theorem Tracked.recover (h : s.Tracked) {via : Via} (hvia : via ≠ .poll) {event : EventResponse}
    {task : Task} (hrun : ∀ n rest page, s.running ≠ some (.check n rest page))
    (hevent : via = .replay → ∀ n, event.number = some n → s.Reached n)
    (hrest : ∀ rest, task = .replay rest →
      ∀ event ∈ rest, ∀ n, event.number = some n → s.Reached n) :
    Tracked { (s.dispatch handlers via event).getD s with running := some task } := by
  have hrest' (rest : List EventResponse) (heq : some task = some (.replay rest)) :=
    hrest rest (Option.some.inj heq)
  rcases s.dispatch_getD_cases handlers via event with ⟨-, heq⟩ | ⟨ids, -, heq⟩
  · rw [heq]
    exact h.idle (l := []) (by simp) (by simp) rfl (fun _ hr => hr)
      (fun n rest page hcheck => absurd hcheck (hrun n rest page)) hrest'
  · rw [heq]
    refine h.of rfl (h.truthful.concat (by rintro _ _ ⟨⟩)) ?_ ?_ (fun _ hr => hr)
      (fun n rest page hcheck => absurd hcheck (hrun n rest page)) hrest'
    · intro event' n hmem hn
      refine .inl ((List.mem_append.mp hmem).resolve_right ?_)
      rw [List.mem_singleton]
      rintro ⟨⟩
      exact hvia rfl
    · intro event' n hmem hn
      rcases List.mem_append.mp hmem with hmem | hmem
      · exact .inl hmem
      · rw [List.mem_singleton] at hmem
        cases hmem
        exact .inr (hevent rfl n hn)

/-- The check of a sequence above the last one. -/
theorem Tracked.check (h : s.Tracked) {n : ℕ} {rest : List EventResponse} {page : EventsPage}
    (hrun : s.running = some (.check n rest page)) (hok : s.InOrder .next) :
    Tracked { s.check n with running := some (.observe rest page) } := by
  have hforward {k : ℕ} (hk : s.Reached k) : k ≤ n := by
    obtain ⟨last, hlast, hle⟩ := hk
    exact hle.trans (hok n rest page last rfl hrun hlast).1.le
  have hpolled (event : EventResponse) (k : ℕ) (hmem : .dispatched .poll event ∈ s.notices)
      (hk : event.number = some k) : k ≤ n := by
    rcases h.polled event k hmem hk with hk | ⟨_, _, hrun'⟩
    · exact hforward hk
    · cases hrun.symm.trans hrun'
      exact le_rfl
  rcases s.check_cases n with ⟨heq, -⟩ | ⟨last, hlast, hne, heq⟩
  · rw [heq]
    refine ⟨h.truthful, ?_, ?_, ?_, by rintro _ ⟨⟩⟩
    · exact fun event k hmem hk => .inl ⟨n, rfl, hpolled event k hmem hk⟩
    · exact fun event k hmem hk => ⟨n, rfl, hforward (h.replayed event k hmem hk)⟩
    · exact fun replay hreplay => ⟨n, rfl, hforward (h.replaying replay hreplay)⟩
  · obtain ⟨hlt, hbackfilled⟩ := hok n rest page last rfl hrun hlast
    have hle {k : ℕ} (hk : s.Reached k) : k < last + 1 := by
      obtain ⟨_, hlast', hle⟩ := hk
      cases hlast.symm.trans hlast'
      omega
    have hmissing : Missing s.notices (last + 1) n := by
      intro via event k hmem hk
      cases via with
      | poll =>
        rcases h.polled event k hmem hk with hk | ⟨_, _, hrun'⟩
        · exact .inl (hle hk)
        · cases hrun.symm.trans hrun'
          exact .inr le_rfl
      | replay => exact .inl (hle (h.replayed event k hmem hk))
      | backfill =>
        have := hbackfilled event k hmem hk
        omega
    have hmem {via : Via} {event : EventResponse}
        (hm : Notice.dispatched via event ∈ s.notices ++ [.gap (last + 1) n]) :
        Notice.dispatched via event ∈ s.notices :=
      (List.mem_append.mp hm).resolve_right (by simp)
    have hnotices : ((s.note (.gap (last + 1) n)).replayGap last n).notices =
        s.notices ++ [.gap (last + 1) n] := notices_replayGap _ _ _
    rw [heq]
    refine ⟨?_, ?_, ?_, ?_, by rintro _ ⟨⟩⟩
    · simp only [hnotices]
      exact truthful_gap_iff.mpr ⟨h.truthful, by omega, hmissing⟩
    · simp only [hnotices]
      exact fun event k hm hk => .inl ⟨n, rfl, hpolled event k (hmem hm) hk⟩
    · simp only [hnotices]
      exact fun event k hm hk => ⟨n, rfl, hforward (h.replayed event k (hmem hm) hk)⟩
    · intro replay hreplay
      refine ⟨n, rfl, ?_⟩
      rcases (s.note (.gap (last + 1) n)).replayGap_cases last n with
        ⟨hsame, -⟩ | ⟨-, -, request, hnew⟩
      · simp only [hsame] at hreplay
        exact hforward (h.replaying replay hreplay)
      · simp only [hnew] at hreplay
        cases hreplay
        exact le_rfl

theorem not_check_of_atRest (h : AtRest s.running) (n : ℕ) (rest : List EventResponse)
    (page : EventsPage) : s.running ≠ some (.check n rest page) := by
  intro hrun
  rcases h with h | ⟨_, _, h⟩
  · cases hrun.symm.trans h
  · cases hrun.symm.trans h

theorem Tracked.move (h : s.Tracked) (hok : s.InOrder e) (hs : Move handlers s e s') :
    s'.Tracked := by
  cases hs with
  | same hsame =>
    obtain ⟨l, hl, hidle⟩ := hsame.notices
    refine h.idle (fun notice hn => (hidle notice hn).aside) hl hsame.sequence
      (fun replay hr => hsame.replaying ▸ hr) ?_ ?_
    · intro n rest page hcheck
      exact hsame.running.elim id fun hrest => absurd hcheck (not_check_of_atRest hrest.1 n rest page)
    · intro rest hreplay
      rcases hsame.running with heq | ⟨-, hrest | ⟨_, _, hrest⟩⟩
      · exact h.running rest (heq ▸ hreplay)
      · cases hreplay.symm.trans hrest
      · cases hreplay.symm.trans hrest
  | observed d hrun =>
    exact h.idle (l := []) (by simp) (by simp) rfl (fun _ hr => hr) (by simp [hrun]) (by simp)
  | @ledgerGap event rest page ledger d gap hrun hledger hgap =>
    refine h.idle (l := [.ledgerGap gap]) (by simp [Notice.Aside]) (notices_backfillLedgerGap _ _)
      (lastSequence_backfillLedgerGap _ _) ?_ (by simp [hrun]) (by simp)
    intro replay hreplay
    simpa [note] using hreplay
  | heldBack hrun hseen =>
    exact h.idle (l := []) (by simp) (by simp) rfl (fun _ hr => hr) (by simp [hrun]) (by simp)
  | @delivered event rest page s₁ hrun hdispatch =>
    obtain ⟨ids, -, rfl⟩ := dispatch_eq hdispatch
    refine h.of rfl (h.truthful.concat (by rintro _ _ ⟨⟩)) ?_ ?_ (fun _ hr => hr) (by simp [hrun]) ?_
    · intro event' n hmem hn
      rcases List.mem_append.mp hmem with hmem | hmem
      · exact .inl hmem
      · rw [List.mem_singleton] at hmem
        cases hmem
        exact .inr ⟨rest, page, by simp only [hn]⟩
    · intro event' n hmem hn
      exact .inl ((List.mem_append.mp hmem).resolve_right (by simp))
    · intro rest' hrest
      cases hnumber : event.number with
      | none => simp [hnumber] at hrest
      | some n => simp [hnumber] at hrest
  | checked hrun => exact h.check hrun hok
  | @replayAnswered replay r hrun hreplaying =>
    rcases s.answerReplay_cases replay r with ⟨page, events, -, hmissed, heq⟩ | ⟨heq, -⟩
    · rw [heq]
      refine h.idle (l := []) (by simp) (by simp) rfl (fun _ hr => hr) (by simp [hrun]) ?_
      rintro rest ⟨⟩ event hmem n hn
      obtain ⟨last, hlast, hle⟩ := h.replaying replay hreplaying
      obtain ⟨-, k, hk, -, hlt⟩ := (mem_missed hmissed).mp hmem
      cases hn.symm.trans hk
      exact ⟨last, hlast, hlt.le.trans hle⟩
    · rw [heq]
      exact h.idle (l := []) (by simp) (by simp) rfl (by simp) (by simp [hrun]) (by simp [hrun])
  | replayed hrun =>
    refine h.recover (by decide) (by simp [hrun]) (fun _ n hn => ?_) ?_
    · exact h.running _ hrun _ List.mem_cons_self n hn
    · rintro _ ⟨⟩ event hmem
      exact h.running _ hrun event (List.mem_cons_of_mem _ hmem)
  | replayDone hrun =>
    exact h.idle (l := []) (by simp) (by simp) rfl (by simp) (by simp [hrun]) (by simp)
  | @backfillAnswered backfill r hrun hbackfilling =>
    cases r with
    | ok page =>
      exact h.idle (l := []) (by simp) (by simp [answerBackfill]) rfl (fun _ hr => hr)
        (by simp [hrun]) (by simp [answerBackfill])
    | error err =>
      exact h.idle (l := []) (by simp) (by simp [answerBackfill]) rfl (fun _ hr => hr)
        (by simp [hrun]) (by simp [answerBackfill, hrun])
  | backfilled hrun => exact h.recover (by decide) (by simp [hrun]) (by rintro ⟨⟩) (by rintro _ ⟨⟩)
  | backfillDone hrun =>
    exact h.idle (l := []) (by simp) (by simp) rfl (fun _ hr => hr) (by simp [hrun]) (by simp)

/-- A gap that is reported out of order is reported falsely. -/
theorem not_truthful_of_disorder (hbad : ¬ s.InOrder e) (hs : s.step handlers e = some s') :
    ¬ Truthful s'.notices := by
  simp only [InOrder, not_forall] at hbad
  obtain ⟨n, rest, page, last, rfl, hrun, hlast, hbad⟩ := hbad
  have hnotices : s'.notices = (s.check n).notices := by
    rw [step, hrun] at hs
    cases hs
    rfl
  rw [hnotices]
  rcases s.check_cases n with ⟨-, hnext⟩ | ⟨last', hlast', -, heq⟩
  · refine absurd ⟨by have := hnext last hlast; omega, ?_⟩ hbad
    intro event k hmem hk
    have := hnext last hlast
    omega
  · cases hlast.symm.trans hlast'
    rw [heq]
    simp only [notices_replayGap]
    intro htruthful
    obtain ⟨-, hlt, hmissing⟩ := truthful_gap_iff.mp htruthful
    refine hbad ⟨by omega, fun event k hmem hk => ?_⟩
    have := hmissing .backfill event k hmem hk
    omega

/-- A sequence that is checked in order moves the last one forward, and nothing else moves it. -/
theorem forward_of_inOrder (hok : s.InOrder e) : s.Forward handlers e := by
  intro s' k hs hk
  have hsame (h : s'.lastSequence = s.lastSequence) : s'.Reached k := by rwa [Reached, h]
  cases step_move hs with
  | same h => exact hsame h.sequence
  | observed | heldBack | replayDone | backfillDone => exact hk
  | ledgerGap => exact hsame (lastSequence_backfillLedgerGap _ _)
  | delivered hrun h =>
    obtain ⟨_, -, rfl⟩ := dispatch_eq h
    exact hk
  | @checked n rest page hrun =>
    obtain ⟨last, hlast, hle⟩ := hk
    have hlt := (hok n rest page last rfl hrun hlast).1
    refine ⟨n, ?_, hle.trans hlt.le⟩
    rcases s.check_cases n with ⟨heq, -⟩ | ⟨_, -, -, heq⟩ <;> rw [heq]
  | @replayAnswered replay r hrun h =>
    rcases s.answerReplay_cases replay r with ⟨_, _, -, -, heq⟩ | ⟨heq, -⟩ <;> exact hsame (by rw [heq])
  | @backfillAnswered backfill r hrun h => cases r <;> exact hk
  | replayed | backfilled => exact hsame (lastSequence_dispatch _ _ _ _)

/-- **Gaps are reported truthfully**, and the last sequence never goes backwards, exactly when every
sequence that the poll checks is above the last one, and no backfill has dispatched one between. -/
theorem gaps_truthful_iff {log : List SubscriptionEvent} (h : run (step handlers) {} log = some s) :
    Truthful s.notices ∧ EachStep (step handlers) (Forward handlers) {} log ↔
      EachStep (step handlers) InOrder {} log := by
  have hiff := run_iff_eachStep (I := Tracked) (S := fun s => Truthful s.notices)
    (fun _ hs => hs.truthful) tracked_empty (fun _ _ _ hI hok hs => hI.move hok (step_move hs))
    (fun _ _ _ _ hbad hs => not_truthful_of_disorder hbad hs)
    (fun _ _ _ hbad hs ht => hbad (ht.of_prefix (step_move hs).notices_grow)) h
  constructor
  · intro hs
    exact hiff.mp hs.1
  · intro hok
    exact ⟨hiff.mpr hok, fun l e l' s₁ heq hs₁ => forward_of_inOrder (hok l e l' s₁ heq hs₁)⟩

def checkInOrder (s : Subscription) : SubscriptionEvent → Bool
  | .next => match s.running, s.lastSequence with
    | some (.check n _ _), some last => decide (last < n) && s.notices.all fun
      | .dispatched .backfill event => match event.number with
        | some k => decide (k ≤ last) || decide (n ≤ k)
        | none => true
      | _ => true
    | _, _ => true
  | _ => true

theorem gaps_truthful_page : ∃ s, run (step {}) {} (pageOf [1, 2, 5]) = some s ∧
    s.notices.getLast? = some (.gap 3 5) ∧
    Truthful s.notices ∧ EachStep (step {}) (Forward {}) {} (pageOf [1, 2, 5]) := by
  have hcheck : ∀ s e, checkInOrder s e = true → InOrder s e := by
    rintro s e h n rest page last rfl hrun hlast
    simp only [checkInOrder, hrun, hlast, Bool.and_eq_true, decide_eq_true_iff,
      List.all_eq_true] at h
    refine ⟨h.1, fun event k hmem hk => ?_⟩
    simpa [hk] using h.2 _ hmem
  obtain ⟨s, hs, hlast⟩ := Option.map_eq_some_iff.mp (by decide +kernel :
    (run (step {}) {} (pageOf [1, 2, 5])).map (fun s => s.notices.getLast?) = some (some (.gap 3 5)))
  exact ⟨s, hs, hlast, (gaps_truthful_iff hs).mpr (.of_allSteps hcheck (by decide +kernel))⟩

/-- An event that comes late is taken for a gap. -/
theorem late_event_reported : ¬ ∀ log s, run (step {}) {} log = some s →
    Truthful s.notices ∧ EachStep (step {}) (Forward {}) {} log := by
  intro h
  obtain ⟨s, hs, hnotices⟩ := Option.map_eq_some_iff.mp (by decide +kernel :
    (run (step {}) {} (pageOf [1, 3, 2])).map (fun s => s.notices) =
      some ([.dispatched .poll (sequenceEvent 1), .dispatched .poll (sequenceEvent 3), .gap 2 3,
        .dispatched .poll (sequenceEvent 2)] ++ [.gap 4 2]))
  have hlt := ((h _ s hs).1 _ 4 2 (by rw [hnotices])).1
  omega

end Subscription

end StreamFi
