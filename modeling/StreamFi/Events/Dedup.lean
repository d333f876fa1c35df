import StreamFi.Events.Subscription

/-!
# Deduplication

The poll, the replays and the backfills of a subscription dispatch through one window of recent ids.

* `Move.dispatches`: a step dispatches an event that the window admits, or none;
* **`dispatched_apart`**: between two dispatches of an id there are as many other ids as the window
  holds, and the window never holds more.
-/

namespace StreamFi

open Js Run

/-- What the window makes of an id. -/
theorem seen_cases {size : Number} {ids ids' : List String} {id : Option String}
    (h : seen size ids id = some ids') :
    truthyText id = none ∧ ids' = ids ∨ ∃ a, truthyText id = some a ∧
      (size.le (.fin 0) = true ∧ ids' = ids ∨
        size.le (.fin 0) = false ∧ letIn (tooMany size) ids a = some ids') := by
  unfold seen at h
  cases hid : truthyText id with
  | none =>
    rw [hid] at h
    cases h
    exact .inl ⟨rfl, rfl⟩
  | some a =>
    simp only [hid] at h
    refine .inr ⟨a, rfl, ?_⟩
    split_ifs at h with hsize
    · cases h
      exact .inl ⟨hsize, rfl⟩
    · exact .inr ⟨(Bool.not_eq_true _).mp hsize, h⟩

theorem dispatchedIds_append (l l' : List Notice) :
    dispatchedIds (l ++ l') = dispatchedIds l ++ dispatchedIds l' :=
  List.filterMap_append

theorem dispatchedIds_idle {l : List Notice} (h : ∀ notice ∈ l, notice.Idle) :
    dispatchedIds l = [] := by
  rw [dispatchedIds, List.filterMap_eq_nil_iff]
  intro notice hmem
  cases notice with
  | error _ | unsubscribed => rfl
  | dispatched _ _ | gap _ _ | ledgerGap _ => exact (h _ hmem).elim

theorem dispatchedIds_dispatched (via : Via) (event : EventResponse) :
    dispatchedIds [.dispatched via event] = event.key.toList := by
  cases h : event.key <;> simp [dispatchedIds, h]

namespace Subscription

variable {handlers : StreamEventHandlers} {s s' : Subscription} {e : SubscriptionEvent}

/-- The ids are left alone, or an event that was not seen is dispatched. -/
def Dispatches (handlers : StreamEventHandlers) (s s' : Subscription) : Prop :=
  s'.recentIds = s.recentIds ∧ dispatchedIds s'.notices = dispatchedIds s.notices ∨
    ∃ event : EventResponse, seen handlers.windowSize s.recentIds event.id = some s'.recentIds ∧
      dispatchedIds s'.notices = dispatchedIds s.notices ++ event.key.toList

theorem dispatches_of_getD {via : Via} {event : EventResponse}
    (hids : s'.recentIds = ((s.dispatch handlers via event).getD s).recentIds)
    (hnotices : s'.notices = ((s.dispatch handlers via event).getD s).notices) :
    s.Dispatches handlers s' := by
  rw [Dispatches, hids, hnotices]
  rcases s.dispatch_getD_cases handlers via event with ⟨-, heq⟩ | ⟨ids, hseen, heq⟩
  · rw [heq]
    exact .inl ⟨rfl, rfl⟩
  · rw [heq]
    refine .inr ⟨event, hseen, ?_⟩
    rw [note, dispatchedIds_append, dispatchedIds_dispatched]

/-- A notice that is no dispatch. -/
theorem dispatches_of_note {notice : Notice} (hnotice : dispatchedIds [notice] = [])
    (hids : s'.recentIds = s.recentIds) (hnotices : s'.notices = s.notices ++ [notice]) :
    s.Dispatches handlers s' :=
  .inl ⟨hids, by rw [hnotices, dispatchedIds_append, hnotice, List.append_nil]⟩

theorem Move.dispatches (h : Move handlers s e s') : s.Dispatches handlers s' := by
  cases h with
  | same h =>
    obtain ⟨l, hl, hidle⟩ := h.notices
    exact .inl ⟨h.ids, by rw [hl, dispatchedIds_append, dispatchedIds_idle hidle, List.append_nil]⟩
  | observed | heldBack | replayDone | backfillDone => exact .inl ⟨rfl, rfl⟩
  | ledgerGap =>
    refine dispatches_of_note ?_ (recentIds_backfillLedgerGap _ _) (notices_backfillLedgerGap _ _)
    rfl
  | delivered hrun h => exact dispatches_of_getD (by rw [h]; rfl) (by rw [h]; rfl)
  | @checked n rest page hrun =>
    obtain ⟨heq, -⟩ | ⟨last, -, -, heq⟩ := s.check_cases n
    · rw [heq]
      exact .inl ⟨rfl, rfl⟩
    · rw [heq]
      refine dispatches_of_note ?_ (recentIds_replayGap _ _ _) (notices_replayGap _ _ _)
      rfl
  | @replayAnswered replay r hrun h =>
    obtain ⟨_, _, -, -, heq⟩ | ⟨heq, -⟩ := s.answerReplay_cases replay r
    · rw [heq]
      exact .inl ⟨rfl, rfl⟩
    · rw [heq]
      exact .inl ⟨rfl, rfl⟩
  | @backfillAnswered backfill r hrun h =>
    cases r with
    | ok page => exact .inl ⟨rfl, rfl⟩
    | error err => exact .inl ⟨rfl, rfl⟩
  | replayed | backfilled => exact dispatches_of_getD rfl rfl

/-! ## The window -/

theorem room_of_le {size : Number} {k : ℕ} (hk : Number.le (.fin k) size = true) :
    Room (tooMany size) k := by
  intro n hn
  cases size with
  | nan => rfl
  | posInf => rfl
  | negInf => cases hk
  | fin q =>
    rw [Number.le_fin, decide_eq_true_iff] at hk
    rw [tooMany, Number.lt_fin, decide_eq_false_iff_not, not_lt]
    exact le_trans (by exact_mod_cast hn) hk

theorem le_of_not_tooMany {size : Number} {n : ℕ} (hsize : Number.le (.fin 1) size = true)
    (h : tooMany size n = false) : Number.le (.fin n) size = true := by
  cases size with
  | nan | negInf => cases hsize
  | posInf => rfl
  | fin q =>
    rw [tooMany, Number.lt_fin, decide_eq_false_iff_not, not_lt] at h
    rw [Number.le_fin, decide_eq_true_iff]
    exact h

/-- The window holds the ids that were dispatched last, and they were apart. -/
structure Windowed (handlers : StreamEventHandlers) (s : Subscription) : Prop where
  recent : Recent (tooMany handlers.windowSize) (dispatchedIds s.notices) s.recentIds
  apart : Apart (tooMany handlers.windowSize) (dispatchedIds s.notices)

theorem Windowed.move (h : s.Windowed handlers) (hsize : handlers.windowSize.le (.fin 0) = false)
    (hs : Move handlers s e s') : s'.Windowed handlers := by
  rcases hs.dispatches with ⟨hids, hnotices⟩ | ⟨event, hseen, hnotices⟩
  · exact ⟨by rw [hids, hnotices]; exact h.recent, by rw [hnotices]; exact h.apart⟩
  · rw [EventResponse.key] at hnotices
    rcases seen_cases hseen with ⟨hkey, hids⟩ | ⟨a, hkey, ⟨hzero, -⟩ | ⟨-, hin⟩⟩
    · rw [hkey, Option.toList_none, List.append_nil] at hnotices
      exact ⟨by rw [hids, hnotices]; exact h.recent, by rw [hnotices]; exact h.apart⟩
    · rw [hsize] at hzero
      cases hzero
    · rw [hkey, Option.toList_some] at hnotices
      exact ⟨by rw [hnotices]; exact h.recent.letIn hin,
        by rw [hnotices]; exact h.apart.letIn h.recent hin⟩

theorem not_le_zero {size : Number} (h : Number.le (.fin 1) size = true) :
    size.le (.fin 0) = false := by
  cases size with
  | nan | negInf => cases h
  | posInf => rfl
  | fin q =>
    rw [Number.le_fin, decide_eq_true_iff] at h
    rw [Number.le_fin, decide_eq_false_iff_not, not_le]
    exact lt_of_lt_of_le one_pos h

theorem windowed_run {log : List SubscriptionEvent}
    (hsize : Number.le (.fin 1) handlers.windowSize = true)
    (h : run (step handlers) {} log = some s) : s.Windowed handlers := by
  have hempty : tooMany handlers.windowSize 0 = false := room_of_le hsize 0 zero_le_one
  exact run_induction (P := fun s _ => s.Windowed handlers) ⟨recent_nil hempty, apart_nil⟩
    (fun s _ e s' hP hs => hP.move (not_le_zero hsize) (step_move hs)) h

/-- **Between two dispatches of an id** by a subscription, as many other ids are recorded as its
window holds, and the window never holds more, whatever the interleaving of polls, replays and
backfills. -/
theorem dispatched_apart {log : List SubscriptionEvent}
    (hsize : Number.le (.fin 1) handlers.windowSize = true)
    (h : run (step handlers) {} log = some s) :
    (∀ l₁ a l₂ l₃, dispatchedIds s.notices = l₁ ++ a :: l₂ ++ a :: l₃ →
        ∃ others : List String, others.Nodup ∧ a ∉ others ∧ others <:+ l₂ ∧
          ∀ k : ℕ, Number.le (.fin k) handlers.windowSize = true → k ≤ others.length) ∧
      Number.le (.fin s.recentIds.length) handlers.windowSize = true := by
  have hw := windowed_run hsize h
  refine ⟨?_, le_of_not_tooMany hsize hw.recent.bounded⟩
  intro l₁ a l₂ l₃ heq
  obtain ⟨others, hnodup, ha, hsuffix, hlength⟩ := hw.apart l₁ a l₂ l₃ heq
  exact ⟨others, hnodup, ha, hsuffix, fun k hk => hlength k (room_of_le hk)⟩

def windowOfTwo : StreamEventHandlers where
  dedupWindowSize := some (.fin 2)

def idEvent (id : String) : EventResponse := ⟨some id, some (.fin 100), .absent⟩

/-- One page with two ids repeated: one at once, one after two others. -/
def repeatedIds : List SubscriptionEvent :=
  [.poll, .latestLedger (.ok (.fin 100)),
    .page (.ok { events := ["a", "a", "b", "c", "a"].map idEvent })] ++ List.replicate 11 .next

theorem dispatched_apart_repeated : ∃ s, run (step windowOfTwo) {} repeatedIds = some s ∧
    dispatchedIds s.notices = ["a", "b", "c", "a"] ∧
    (∀ l₁ a l₂ l₃, dispatchedIds s.notices = l₁ ++ a :: l₂ ++ a :: l₃ →
        ∃ others : List String, others.Nodup ∧ a ∉ others ∧ others <:+ l₂ ∧
          ∀ k : ℕ, Number.le (.fin k) windowOfTwo.windowSize = true → k ≤ others.length) ∧
      Number.le (.fin s.recentIds.length) windowOfTwo.windowSize = true := by
  obtain ⟨s, hs, hids⟩ := Option.map_eq_some_iff.mp (by decide +kernel :
    (run (step windowOfTwo) {} repeatedIds).map (fun s => dispatchedIds s.notices) =
      some ["a", "b", "c", "a"])
  exact ⟨s, hs, hids, dispatched_apart (by decide) hs⟩

end Subscription

end StreamFi
