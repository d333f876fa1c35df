import StreamFi.Events.Subscription
import StreamFi.Events.Decode

/-!
# Unsubscribing

`unsubscribe` puts `{}` in the place of the handlers of a subscription, and every routine reads them anew
for each call.

* `LiveSubscription.step`: a subscription with the variable `handlers` and what is called on it;
* `run_subscription`, **`acts_eq`**: it runs as the subscription does, and calls what its notices say, up to
  the first `unsubscribe`;
* **`quiet_after_unsubscribe`**: then nothing is called any more.
-/

namespace StreamFi

open Js Run

/-! ## The code -/

/-- The handlers that a subscription is given, with what a call of one of them is. -/
structure UserHandlers (ρ : Type) extends EventHandlers ρ where
  onGap : Option (ℕ → ℕ → ρ) := none
  onLedgerGap : Option (LedgerGap → ρ) := none
  onError : Option (Thrown → ρ) := none

/-- What happens on the side of the user: a handler is called, or `unsubscribe` returns. -/
inductive UserAction (ρ : Type) where
  | called (call : ρ)
  | unsubscribed
  deriving DecidableEq

section Acts

variable {ρ : Type} (content : EventResponse → RawEvent)

/-- The call that is made, on these handlers; `content` is an event with its topics and its value. -/
def callOf (handlers : UserHandlers ρ) : Notice → Option ρ
  | .dispatched _ event => called handlers.toEventHandlers (content event)
  | .gap expected actual => handlers.onGap.map fun onGap => onGap expected actual
  | .ledgerGap gap => handlers.onLedgerGap.map fun onLedgerGap => onLedgerGap gap
  | .error err => handlers.onError.map fun onError => onError err
  | .unsubscribed => none

/-- The variable `handlers` and the actions so far, after one more notice. -/
def actOn (s : UserHandlers ρ × List (UserAction ρ)) (notice : Notice) :
    UserHandlers ρ × List (UserAction ρ) :=
  if notice = .unsubscribed then ({}, s.2 ++ [.unsubscribed])
  else (s.1, s.2 ++ (callOf content s.1 notice).toList.map .called)

end Acts

structure LiveSubscription (ρ : Type) where
  subscription : Subscription := {}
  handlers : UserHandlers ρ
  actions : List (UserAction ρ) := []

namespace LiveSubscription

variable {ρ : Type} (options : StreamEventHandlers) (content : EventResponse → RawEvent)

/-- A step of the subscription. A handler that is called in it may unsubscribe, which is then the next. -/
def step (s : LiveSubscription ρ) (e : SubscriptionEvent) : Option (LiveSubscription ρ) :=
  (s.subscription.step options e).map fun subscription =>
    let news := subscription.notices.drop s.subscription.notices.length
    let acted := news.foldl (actOn content) (s.handlers, s.actions)
    { subscription := subscription, handlers := acted.1, actions := acted.2 }

/-! ## What is called -/

theorem run_subscription {handlers : UserHandlers ρ} {log : List SubscriptionEvent} {s : LiveSubscription ρ}
    (h : run (step options content) { handlers := handlers } log = some s) :
    run (Subscription.step options) {} log = some s.subscription := by
  refine run_induction (P := fun s l => run (Subscription.step options) {} l = some s.subscription) rfl ?_ h
  intro s l e s' hs he
  obtain ⟨subscription, hsub, rfl⟩ := Option.map_eq_some_iff.mp he
  exact run_concat_iff.mpr ⟨_, hs, hsub⟩

/-- **The calls are those of the notices**, on the handlers that were there. -/
theorem acts_eq {handlers : UserHandlers ρ} {log : List SubscriptionEvent} {s : LiveSubscription ρ}
    (h : run (step options content) { handlers := handlers } log = some s) :
    (s.handlers, s.actions) = s.subscription.notices.foldl (actOn content) (handlers, []) := by
  refine run_induction
    (P := fun s _ => (s.handlers, s.actions) = s.subscription.notices.foldl (actOn content) (handlers, [])) rfl ?_ h
  intro s l e s' hs he
  obtain ⟨subscription, hsub, rfl⟩ := Option.map_eq_some_iff.mp he
  obtain ⟨news, hnews⟩ := (Subscription.step_move hsub).notices_grow
  dsimp only
  rw [← hnews, List.foldl_append, ← hs, List.drop_left]

end LiveSubscription

/-! ## Nothing is called afterwards -/

section Quiet

variable {ρ : Type} {content : EventResponse → RawEvent}

/-- After `unsubscribe` has returned no handler is called. -/
def Quiet (actions : List (UserAction ρ)) : Prop :=
  actions.Pairwise fun earlier later => earlier = .unsubscribed → later = .unsubscribed

theorem callOf_empty (notice : Notice) : callOf content ({} : UserHandlers ρ) notice = none := by
  cases notice with
  | dispatched via event =>
    rw [callOf, called_eq, Option.bind_eq_none_iff]
    intro payload _
    cases payload <;> rfl
  | gap | ledgerGap | error | unsubscribed => rfl

/-- Once `unsubscribe` has returned the handlers are gone. -/
structure Released (s : UserHandlers ρ × List (UserAction ρ)) : Prop where
  empty : .unsubscribed ∈ s.2 → s.1 = {}
  quiet : Quiet s.2

theorem Released.act {s : UserHandlers ρ × List (UserAction ρ)} (h : Released s) (notice : Notice) :
    Released (actOn content s notice) := by
  by_cases hunsubscribe : notice = .unsubscribed
  · rw [actOn, if_pos hunsubscribe]
    refine ⟨fun _ => rfl, List.pairwise_append.mpr ⟨h.quiet, List.pairwise_singleton _ _, ?_⟩⟩
    intro earlier _ later hlater _
    exact List.mem_singleton.mp hlater
  · rw [actOn, if_neg hunsubscribe]
    by_cases hgone : .unsubscribed ∈ s.2
    · rw [h.empty hgone, callOf_empty, Option.toList_none, List.map_nil, List.append_nil]
      exact ⟨fun _ => rfl, h.quiet⟩
    · refine ⟨fun hmem => ?_, List.pairwise_append.mpr ⟨h.quiet, ?_, ?_⟩⟩
      · rcases List.mem_append.mp hmem with hmem | hmem
        · exact absurd hmem hgone
        · simp at hmem
      · cases callOf content s.1 notice with
        | none => exact List.Pairwise.nil
        | some call => exact List.pairwise_singleton _ _
      · intro earlier hearlier later _ heq
        exact absurd (heq ▸ hearlier) hgone

variable (content) in
theorem Released.acts {s : UserHandlers ρ × List (UserAction ρ)} (h : Released s) (notices : List Notice) :
    Released (notices.foldl (actOn content) s) := by
  induction notices generalizing s with
  | nil => exact h
  | cons notice notices ih => exact ih (h.act notice)

/-- **No handler is called after `unsubscribe` has returned**, in whatever order requests are answered and
timers run, and also if a handler unsubscribes. -/
theorem quiet_after_unsubscribe {options : StreamEventHandlers} {handlers : UserHandlers ρ}
    {log : List SubscriptionEvent} {s : LiveSubscription ρ}
    (h : run (LiveSubscription.step options content) { handlers := handlers } log = some s) :
    Quiet s.actions := by
  have hstart : Released (handlers, ([] : List (UserAction ρ))) := by
    refine ⟨fun hmem => ?_, List.Pairwise.nil⟩
    cases hmem
  have hacts := hstart.acts content s.subscription.notices
  rw [← LiveSubscription.acts_eq options content h] at hacts
  exact hacts.quiet

/-- The stream was paused. -/
def pausedContent (event : EventResponse) : RawEvent where
  id := event.id
  ledger := event.ledger
  ledgerClosedAt := ""
  txHash := ""
  topic := [.symbol "paused", .address "GA"] ++ (event.number.map fun n => ScVal.u64 (UInt64.ofNat n)).toList
  value := .vec [.u64 1500]

/-- A handler that unsubscribes at the first of two events is not called for the second. -/
theorem quiet_after_unsubscribe_pause : ∃ s,
    run (LiveSubscription.step {} pausedContent) { handlers := { onPause := some fun event => event.sequence } }
        [.poll, .latestLedger (.ok (.fin 100)), .page (.ok { events := [1, 2].map Subscription.sequenceEvent }),
          .next, .next, .unsubscribe, .next, .next, .next, .next, .next] = some s ∧
      s.subscription.notices.length = 3 ∧ s.actions = [.called (some 1), .unsubscribed] ∧ Quiet s.actions := by
  obtain ⟨s, hs, hfinal⟩ := Option.map_eq_some_iff.mp (by decide +kernel :
    (run (LiveSubscription.step {} pausedContent) { handlers := { onPause := some fun event => event.sequence } }
        [.poll, .latestLedger (.ok (.fin 100)), .page (.ok { events := [1, 2].map Subscription.sequenceEvent }),
          .next, .next, .unsubscribe, .next, .next, .next, .next, .next]).map
      (fun s => (s.subscription.notices.length, s.actions)) = some (3, [.called (some 1), .unsubscribed]))
  obtain ⟨hnotices, hactions⟩ := Prod.mk.inj hfinal
  exact ⟨s, hs, hnotices, hactions, quiet_after_unsubscribe hs⟩

end Quiet

end StreamFi
