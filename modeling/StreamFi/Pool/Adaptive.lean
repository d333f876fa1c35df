import StreamFi.Js.Numeral
import StreamFi.Js.Value
import StreamFi.Run.Pool
import StreamFi.Run.Table

/-!
# Adaptive concurrency

`mapWithAdaptiveConcurrency` runs workers that take the items in turn. A worker parks in `acquire` while
the calls in flight reach the limit; `release` wakes everybody who is parked, to test again.

* `AdaptiveConcurrencyOptions.settings`: what the options stand for, with **`settings_bounds`**;
* `AdaptivePool.step`: the workers between their awaits, in any order;
* `Steady`: the invariant; `Steady.acquire`, `Steady.leave`: a slot is taken and given up;
* **`adaptive_steady`**: the limit keeps its bounds, no worker is parked without a call in flight, and
  each item is called once.
-/

namespace StreamFi

open Js Run

/-! ## Options -/

structure AdaptiveConcurrencyOptions where
  initial : Option Double := none
  min : Option Double := none
  max : Option Double := none
  targetLatencyMs : Option Double := none

def finiteOr (value : Option Double) (fallback : Number) : Number :=
  match value with
  | some x => if x.val.isFinite then x.val.trunc else fallback
  | none => fallback

/-- What is derived from the options before the first worker starts. -/
structure AdaptiveSettings where
  min : Number
  max : Number
  targetLatencyMs : Number
  limit : Number

def AdaptiveConcurrencyOptions.settings (options : AdaptiveConcurrencyOptions) : AdaptiveSettings :=
  let min := Number.max (.fin 1) (finiteOr options.min (.fin 1))
  let max := Number.max min (finiteOr options.max (.fin 8))
  let initial := finiteOr options.initial (.fin 2)
  { min := min
    max := max
    targetLatencyMs := finiteOr options.targetLatencyMs (.fin 1000)
    limit := Number.min max (Number.max min initial) }

theorem finiteOr_eq (value : Option Double) {m : ℤ} (hm : |m| ≤ 2 ^ 53) :
    ∃ n : ℤ, finiteOr value (.fin m) = .fin n ∧ Number.IsDouble (.fin n) := by
  have hfallback : ∃ n : ℤ, Number.fin m = .fin n ∧ Number.IsDouble (.fin n) :=
    ⟨m, rfl, Number.isDouble_intCast hm⟩
  cases value with
  | none => exact hfallback
  | some x =>
    obtain ⟨x, hx⟩ := x
    cases x with
    | nan | posInf | negInf => exact hfallback
    | fin q => exact ⟨_, rfl, Number.isDouble_trunc hx⟩

theorem max_eq_fin {a b : ℤ} (ha : Number.IsDouble (.fin a)) (hb : Number.IsDouble (.fin b)) :
    ∃ n : ℤ, Number.max (.fin a) (.fin b) = .fin n ∧ a ≤ n ∧ Number.IsDouble (.fin n) := by
  by_cases hle : a ≤ b
  · exact ⟨b, by simp [Number.max, hle], hle, hb⟩
  · exact ⟨a, by simp [Number.max, hle], le_rfl, ha⟩

/-- **The settings are integers in order**, and the first limit is between the other two. -/
theorem settings_bounds (options : AdaptiveConcurrencyOptions) :
    ∃ a b : ℤ, options.settings.min = .fin a ∧ options.settings.max = .fin b ∧
      1 ≤ a ∧ a ≤ b ∧ Number.IsDouble (.fin a) ∧ Number.IsDouble (.fin b) ∧
      ∃ q : ℚ, options.settings.limit = .fin q ∧ a ≤ q ∧ q ≤ b := by
  obtain ⟨m, hm, hmd⟩ := finiteOr_eq options.min (m := 1) (by norm_num)
  obtain ⟨M, hM, hMd⟩ := finiteOr_eq options.max (m := 8) (by norm_num)
  obtain ⟨i, hi, hid⟩ := finiteOr_eq options.initial (m := 2) (by norm_num)
  obtain ⟨a, ha, hone, had⟩ := max_eq_fin (Number.isDouble_intCast (n := 1) (by norm_num)) hmd
  obtain ⟨b, hb, hab, hbd⟩ := max_eq_fin had hMd
  obtain ⟨c, hc, hac, -⟩ := max_eq_fin had hid
  push_cast at hm hM hi ha
  have hmin : options.settings.min = .fin a := by
    rw [AdaptiveConcurrencyOptions.settings, hm, ha]
  have hmax : options.settings.max = .fin b := by
    rw [AdaptiveConcurrencyOptions.settings, hm, ha, hM, hb]
  obtain ⟨q, hq, haq, hqb⟩ := Number.min_fin_eq (a := a) (b := b) (x := .fin c)
    (by simpa using hac) (by exact_mod_cast hab)
  refine ⟨a, b, hmin, hmax, hone, hab, had, hbd, q, ?_, haq, hqb⟩
  rw [AdaptiveConcurrencyOptions.settings, hm, ha, hM, hb, hi, hc, hq]

/-! ## Workers -/

/-- Where a worker is suspended; an item is named by its position. A `free` worker tests whether there
are items left, a `woken` one whether there is a slot now, and an `acquired` one calls next. -/
inductive AdaptiveWorker where
  | free
  | waiting (i : ℕ)
  | woken (i : ℕ)
  | acquired (i : ℕ)
  | calling (i : ℕ) (startedAt : Number)
  | done
  | failed (i : ℕ) (err : Thrown)
  deriving DecidableEq

namespace AdaptiveWorker

/-- The worker has a slot. -/
def holds : AdaptiveWorker → Bool
  | .acquired _ | .calling _ _ => true
  | _ => false

/-- The call of the worker is in flight. -/
def inCall : AdaptiveWorker → Bool
  | .calling _ _ => true
  | _ => false

/-- The item that the worker has taken and not called. -/
def uncalled : AdaptiveWorker → Option ℕ
  | .waiting i | .woken i | .acquired i => some i
  | _ => none

/-- The item that the worker has taken, with no answer so far or a rejection. -/
def item : AdaptiveWorker → Option ℕ
  | .waiting i | .woken i | .acquired i | .calling i _ | .failed i _ => some i
  | .free | .done => none

/-- The worker goes on by itself. -/
def runs : AdaptiveWorker → Bool
  | .free | .woken _ | .acquired _ => true
  | _ => false

def wake : AdaptiveWorker → AdaptiveWorker
  | .waiting i => .woken i
  | p => p

theorem wake_cases (p : AdaptiveWorker) : p.wake = p ∨ ∃ i, p.wake = .woken i := by
  cases p with
  | waiting i => exact .inr ⟨i, rfl⟩
  | free | woken i | acquired i | calling i t | done | failed i err => exact .inl rfl

end AdaptiveWorker

/-- A call of `mapWithAdaptiveConcurrency`. `calls` are the items that `fn` was called on, `answers`
the results of these calls, `rejection` the first error of a worker. -/
structure AdaptivePool (R : Type) where
  limit : Number
  inFlight : ℤ := 0
  index : ℕ := 0
  waiters : List ℕ := []
  results : List (Option R)
  workers : List AdaptiveWorker
  calls : List ℕ := []
  answers : List (ℕ × R) := []
  rejection : Option Thrown := none
  deriving DecidableEq

inductive AdaptiveEvent (R : Type) where
  | run (w : ℕ)
  | call (w : ℕ) (now : Number) (threw : Option Thrown)
  | settle (w : ℕ) (now : Number) (r : Except Thrown R)

namespace AdaptivePool

variable {R : Type}

def init (c : AdaptiveSettings) (n : ℕ) : AdaptivePool R where
  limit := c.limit
  results := .replicate n none
  workers := .replicate (Number.min c.max (.fin n)).toNat .free

def acquire (s : AdaptivePool R) (w i : ℕ) : AdaptivePool R :=
  if s.limit.le (.fin s.inFlight) then
    { s with waiters := s.waiters ++ [w], workers := s.workers.set w (.waiting i) }
  else { s with inFlight := s.inFlight + 1, workers := s.workers.set w (.acquired i) }

def release (s : AdaptivePool R) : AdaptivePool R :=
  { s with
    inFlight := s.inFlight - 1
    waiters := []
    workers := s.workers.mapIdx fun w p => if w ∈ s.waiters then p.wake else p }

/-- The head of the loop of a worker, for `n` items. -/
def next (n : ℕ) (s : AdaptivePool R) (w : ℕ) : AdaptivePool R :=
  if s.index < n then acquire { s with index := s.index + 1 } w s.index
  else { s with workers := s.workers.set w .done }

/-- The limit after a call that took `elapsed`. -/
def adapt (c : AdaptiveSettings) (limit elapsed : Number) : Number :=
  if c.targetLatencyMs.lt elapsed then Number.max c.min (limit.div (.fin 2)).floor
  else Number.min c.max (limit.add (.fin 1))

/-- The slot is given up in `finally`, and the worker goes on as `p`. -/
def leave (s : AdaptivePool R) (w : ℕ) (p : AdaptiveWorker) : AdaptivePool R :=
  { s.release with workers := s.release.workers.set w p }

def fail (s : AdaptivePool R) (w i : ℕ) (err : Thrown) : AdaptivePool R :=
  leave { s with rejection := s.rejection <|> some err } w (.failed i err)

def answer (c : AdaptiveSettings) (s : AdaptivePool R) (w i : ℕ) (elapsed : Number) (v : R) :
    AdaptivePool R :=
  leave { s with
    results := s.results.set i (some v)
    answers := s.answers ++ [(i, v)]
    limit := adapt c s.limit elapsed } w .free

def step (c : AdaptiveSettings) (n : ℕ) (s : AdaptivePool R) : AdaptiveEvent R → Option (AdaptivePool R)
  | .run w => match s.workers[w]? with
    | some .free => some (s.next n w)
    | some (.woken i) => some (s.acquire w i)
    | _ => none
  | .call w now threw => match s.workers[w]? with
    | some (.acquired i) =>
      let s : AdaptivePool R :=
        { s with calls := s.calls ++ [i], workers := s.workers.set w (.calling i now) }
      match threw with
      | none => some s
      | some err => some (s.fail w i err)
    | _ => none
  | .settle w now r => match s.workers[w]? with
    | some (.calling i startedAt) =>
      match r with
      | .ok v => some ((s.answer c w i (now.sub startedAt) v).next n w)
      | .error err => some (s.fail w i err)
    | _ => none

/-- What `Promise.all` makes of the workers. -/
def outcome (s : AdaptivePool R) : Option (Except Thrown (List (Option R))) :=
  match s.rejection with
  | some err => some (.error err)
  | none => if ∀ p ∈ s.workers, p = .done then some (.ok s.results) else none

/-- No worker goes on by itself, and no call is in flight. -/
def Resting (s : AdaptivePool R) : Prop := ∀ p ∈ s.workers, p.runs = false ∧ p.inCall = false

/-! ## The invariant -/

/-- What holds between two steps, for `n` items and limits from `a` to `b`. -/
structure Steady (a b : ℤ) (n : ℕ) (s : AdaptivePool R) : Prop where
  limit : ∃ q : ℚ, s.limit = .fin q ∧ a ≤ q ∧ q ≤ b
  inFlight : s.inFlight = s.workers.countP AdaptiveWorker.holds
  bound : s.inFlight ≤ b
  parked : s.waiters ≠ [] → s.limit.le (.fin s.inFlight) = true
  waits : ∀ (w i : ℕ), s.workers[w]? = some (.waiting i) → w ∈ s.waiters
  called : (s.calls ++ s.workers.filterMap AdaptiveWorker.uncalled).Perm (List.range s.index)
  answered : (s.answers.map Prod.fst ++ s.workers.filterMap AdaptiveWorker.item).Perm
    (List.range s.index)
  index : s.index ≤ n
  ended : .done ∈ s.workers → s.index = n
  length : s.results.length = n
  results : ∀ (i : ℕ) v, s.results[i]? = some (some v) ↔ (i, v) ∈ s.answers
  failed : ∀ i err, .failed i err ∈ s.workers → s.rejection ≠ none
  staffed : s.workers = [] → n = 0

variable {c : AdaptiveSettings} {a b : ℤ} {n w i : ℕ} {s s' : AdaptivePool R} {p p' : AdaptiveWorker}

theorem Steady.waits_put (h : Steady a b n s) (hw : s.workers[w]? = some p)
    (hp' : ∀ i, p' ≠ .waiting i) {v i : ℕ} (hv : (s.workers.set w p')[v]? = some (.waiting i)) :
    v ∈ s.waiters := by
  rcases (put_iff (lt_of_entry hw)).mp hv with ⟨-, heq⟩ | ⟨-, hold⟩
  · exact absurd heq.symm (hp' i)
  · exact h.waits v i hold

theorem Steady.staffed_put (h : Steady a b n s) (hnil : s.workers.set w p' = []) : n = 0 :=
  h.staffed ((List.set_eq_nil_iff w p').mp hnil)

/-- A worker that goes on with the same item, and holds a slot if it did. -/
theorem Steady.inFlight_put (h : Steady a b n s) (hw : s.workers[w]? = some p)
    (hholds : p'.holds = p.holds) : s.inFlight = (s.workers.set w p').countP AdaptiveWorker.holds := by
  rw [h.inFlight, countP_put_same hw p' hholds]

theorem Steady.called_put (h : Steady a b n s) (hw : s.workers[w]? = some p)
    (huncalled : p'.uncalled = p.uncalled) :
    (s.calls ++ (s.workers.set w p').filterMap AdaptiveWorker.uncalled).Perm (List.range s.index) :=
  ((filterMap_put_same hw p' huncalled).append_left s.calls).trans h.called

theorem Steady.answered_put (h : Steady a b n s) (hw : s.workers[w]? = some p)
    (hitem : p'.item = p.item) :
    (s.answers.map Prod.fst ++ (s.workers.set w p').filterMap AdaptiveWorker.item).Perm
      (List.range s.index) :=
  ((filterMap_put_same hw p' hitem).append_left _).trans h.answered

theorem Steady.ended_put (h : Steady a b n s) (hp' : p' ≠ .done) (hdone : .done ∈ s.workers.set w p') :
    s.index = n :=
  h.ended (mem_of_mem_put hdone hp'.symm)

theorem Steady.failed_put (h : Steady a b n s) (hp' : ∀ i err, p' ≠ .failed i err) (i : ℕ)
    (err : Thrown) (hfail : .failed i err ∈ s.workers.set w p') : s.rejection ≠ none :=
  h.failed i err (mem_of_mem_put hfail (hp' i err).symm)

theorem Steady.acquire (h : Steady a b n s) (hw : s.workers[w]? = some (.woken i)) :
    Steady a b n (s.acquire w i) := by
  unfold AdaptivePool.acquire
  split_ifs with hle
  · refine ⟨h.limit, h.inFlight_put hw rfl, h.bound, fun _ => hle, ?_, h.called_put hw rfl,
      h.answered_put hw rfl, h.index, h.ended_put (by simp), h.length, h.results,
      h.failed_put (by simp), h.staffed_put⟩
    intro v j hv
    show v ∈ s.waiters ++ [w]
    rcases (put_iff (lt_of_entry hw)).mp hv with ⟨rfl, -⟩ | ⟨-, hold⟩
    · exact List.mem_append_right _ (List.mem_singleton_self v)
    · exact List.mem_append_left _ (h.waits v j hold)
  · have hcount := countP_put AdaptiveWorker.holds hw (.acquired i)
    obtain ⟨q, hq, -, hqb⟩ := h.limit
    rw [hq, Number.le_fin, decide_eq_true_eq, not_le] at hle
    have hlt : s.inFlight < b := by exact_mod_cast hle.trans_le hqb
    refine ⟨h.limit, ?_, hlt, ?_, fun v j => h.waits_put hw (by simp), h.called_put hw rfl,
      h.answered_put hw rfl, h.index, h.ended_put (by simp), h.length, h.results,
      h.failed_put (by simp), h.staffed_put⟩
    · show s.inFlight + 1 = _
      rw [h.inFlight]
      simp only [AdaptiveWorker.holds, if_true, if_false, Bool.false_eq_true] at hcount
      exact_mod_cast hcount.symm
    · -- with a waiter around, the test would have failed
      intro hne
      have hpark := h.parked hne
      rw [hq, Number.le_fin, decide_eq_true_eq] at hpark
      exact absurd hpark (not_le.mpr hle)

/-- A free worker takes the next item. -/
theorem Steady.take (h : Steady a b n s) (hw : s.workers[w]? = some .free) (hlt : s.index < n) :
    Steady a b n { s with index := s.index + 1, workers := s.workers.set w (.woken s.index) } := by
  refine ⟨h.limit, h.inFlight_put hw rfl, h.bound, h.parked, fun v j => h.waits_put hw (by simp), ?_,
    ?_, hlt, ?_, h.length, h.results, h.failed_put (by simp), h.staffed_put⟩
  · have hacc := account_put (f := AdaptiveWorker.uncalled) hw (.woken s.index)
      s.calls s.calls [s.index]
      (.of_eq (by simp [AdaptiveWorker.uncalled]))
    rw [List.range_succ]
    exact hacc.trans (h.called.append_right [s.index])
  · have hacc := account_put (f := AdaptiveWorker.item) hw (.woken s.index)
      (s.answers.map Prod.fst) (s.answers.map Prod.fst) [s.index]
      (.of_eq (by simp [AdaptiveWorker.item]))
    rw [List.range_succ]
    exact hacc.trans (h.answered.append_right [s.index])
  · intro hdone
    exact absurd (h.ended_put (by simp) hdone) hlt.ne

theorem Steady.next (h : Steady a b n s) (hw : s.workers[w]? = some .free) :
    Steady a b n (s.next n w) := by
  unfold AdaptivePool.next
  split_ifs with hlt
  · have hset : (s.workers.set w (.woken s.index))[w]? = some (.woken s.index) :=
      List.getElem?_set_self (lt_of_entry hw)
    have hacq := (h.take hw hlt).acquire hset
    unfold AdaptivePool.acquire at hacq ⊢
    simpa only [List.set_set] using hacq
  · refine ⟨h.limit, h.inFlight_put hw rfl, h.bound, h.parked, fun v j => h.waits_put hw (by simp),
      h.called_put hw rfl, h.answered_put hw rfl, h.index, ?_, h.length, h.results,
      h.failed_put (by simp), h.staffed_put⟩
    intro _
    exact le_antisymm h.index (not_lt.mp hlt)

theorem Steady.call (h : Steady a b n s) (hw : s.workers[w]? = some (.acquired i)) (now : Number) :
    Steady a b n { s with calls := s.calls ++ [i], workers := s.workers.set w (.calling i now) } := by
  refine ⟨h.limit, h.inFlight_put hw rfl, h.bound, h.parked, fun v j => h.waits_put hw (by simp), ?_,
    h.answered_put hw rfl, h.index, h.ended_put (by simp), h.length, h.results,
    h.failed_put (by simp), h.staffed_put⟩
  have hacc := account_put (f := AdaptiveWorker.uncalled) hw (.calling i now)
    s.calls (s.calls ++ [i]) [] (.of_eq rfl)
  rw [List.append_nil] at hacc
  exact hacc.trans h.called

/-! ## Slots given up -/

theorem map_release {α : Type} {f : AdaptiveWorker → α} (hf : ∀ p, f p.wake = f p) :
    s.release.workers.map f = s.workers.map f := by
  apply List.ext_getElem?
  intro v
  show ((s.workers.mapIdx _).map f)[v]? = _
  rw [List.getElem?_map, List.getElem?_mapIdx, List.getElem?_map, Option.map_map]
  congr 1
  funext p
  simp only [Function.comp_apply]
  split_ifs
  · exact hf p
  · rfl

theorem filterMap_release {f : AdaptiveWorker → Option ℕ} (hf : ∀ p, f p.wake = f p) :
    s.release.workers.filterMap f = s.workers.filterMap f := by
  have hmap := congrArg (List.filterMap id) (map_release (s := s) hf)
  rwa [List.filterMap_map, List.filterMap_map, Function.id_comp] at hmap

theorem countP_release {f : AdaptiveWorker → Bool} (hf : ∀ p, f p.wake = f p) :
    s.release.workers.countP f = s.workers.countP f := by
  have hmap := congrArg (List.countP id) (map_release (s := s) hf)
  rwa [List.countP_map, List.countP_map, Function.id_comp] at hmap

theorem getElem?_release (v : ℕ) : s.release.workers[v]? =
    (s.workers[v]?).map fun p => if v ∈ s.waiters then p.wake else p :=
  List.getElem?_mapIdx

theorem mem_release (h : p ∈ s.release.workers) (hp : ∀ i, p ≠ .woken i) : p ∈ s.workers := by
  obtain ⟨v, hv⟩ := List.mem_iff_getElem?.mp h
  rw [getElem?_release, Option.map_eq_some_iff] at hv
  obtain ⟨q, hq, hqp⟩ := hv
  split_ifs at hqp
  · rcases q.wake_cases with heq | ⟨i, heq⟩
    · rw [← hqp, heq]
      exact List.mem_of_getElem? hq
    · exact absurd (hqp.symm.trans heq) (hp i)
  · rw [← hqp]
    exact List.mem_of_getElem? hq

/-- Nobody is parked after a release. -/
theorem Steady.not_waiting (h : Steady a b n s) (v j : ℕ) :
    s.release.workers[v]? ≠ some (.waiting j) := by
  intro hv
  rw [getElem?_release, Option.map_eq_some_iff] at hv
  obtain ⟨q, hq, hqp⟩ := hv
  split_ifs at hqp with hmem
  · cases q <;> cases hqp
  · rw [hqp] at hq
    exact hmem (h.waits v j hq)

/-- **A slot is given up**, with what the call has changed. -/
theorem Steady.leave (h : Steady a b n s) (hw : s.workers[w]? = some p) (hwake : p.wake = p)
    (hp : p.holds = true) (hfree : p'.holds = false) (hgoes : ∀ i, p' ≠ .waiting i)
    (hdone : p' ≠ .done) {limit : Number} {results : List (Option R)} {answers : List (ℕ × R)}
    {rejection : Option Thrown} (hlimit : ∃ q : ℚ, limit = .fin q ∧ a ≤ q ∧ q ≤ b)
    (hcalled : p'.uncalled = p.uncalled)
    (hanswered : (answers.map Prod.fst ++ p'.item.toList).Perm
      (s.answers.map Prod.fst ++ p.item.toList))
    (hlength : results.length = n)
    (hresults : ∀ (i : ℕ) v, results[i]? = some (some v) ↔ (i, v) ∈ answers)
    (hkept : s.rejection ≠ none → rejection ≠ none)
    (hfailed : ∀ i err, p' = .failed i err → rejection ≠ none) :
    Steady a b n (AdaptivePool.leave { s with limit, results, answers, rejection } w p') := by
  have hw' : s.release.workers[w]? = some p := by
    rw [getElem?_release, hw, Option.map_some, hwake, ite_self]
  have hcount := countP_put AdaptiveWorker.holds hw' p'
  rw [hp, hfree, countP_release fun p => by cases p <;> rfl] at hcount
  refine ⟨hlimit, ?_, ?_, fun hne => absurd rfl hne, ?_, ?_, ?_, h.index, ?_, hlength, hresults, ?_, ?_⟩
  · show s.inFlight - 1 = ((s.release.workers.set w p').countP AdaptiveWorker.holds : ℤ)
    rw [h.inFlight]
    simp only [if_true, Bool.false_eq_true, if_false] at hcount
    omega
  · show s.inFlight - 1 ≤ b
    have hbound := h.bound
    omega
  · intro v j hv
    rcases (put_iff (lt_of_entry hw')).mp hv with ⟨-, heq⟩ | ⟨-, hold⟩
    · exact absurd heq.symm (hgoes j)
    · exact absurd hold (h.not_waiting v j)
  · have hsame := filterMap_put_same (f := AdaptiveWorker.uncalled) hw' p' hcalled
    rw [filterMap_release fun p => by cases p <;> rfl] at hsame
    exact (hsame.append_left s.calls).trans h.called
  · have hacc := account_put (f := AdaptiveWorker.item) hw' p' (s.answers.map Prod.fst)
      (answers.map Prod.fst) [] (by rwa [List.append_nil])
    rw [List.append_nil, filterMap_release fun p => by cases p <;> rfl] at hacc
    exact hacc.trans h.answered
  · intro hmem
    exact h.ended (mem_release (mem_of_mem_put hmem hdone.symm) (by simp))
  · intro j err hmem
    by_cases heq : AdaptiveWorker.failed j err = p'
    · exact hfailed j err heq.symm
    · exact hkept (h.failed j err (mem_release (mem_of_mem_put hmem heq) (by simp)))
  · intro hnil
    have hrelease : s.release.workers = [] := (List.set_eq_nil_iff w p').mp hnil
    exact h.staffed (List.mapIdx_eq_nil_iff.mp hrelease)

theorem Steady.fail (h : Steady a b n s) {t : Number} (hw : s.workers[w]? = some (.calling i t))
    (err : Thrown) : Steady a b n (s.fail w i err) := by
  have hrej : (s.rejection <|> some err) ≠ none := by
    cases s.rejection <;> exact Option.some_ne_none _
  exact h.leave hw rfl rfl rfl (by simp) (by simp) h.limit rfl (.of_eq rfl) h.length h.results
    (fun _ => hrej) fun _ _ _ => hrej

/-- The limit stays between its bounds, whatever a call took. -/
theorem adapt_bounds (hmin : c.min = .fin a) (hmax : c.max = .fin b) (ha : Number.IsDouble (.fin a))
    (hb : Number.IsDouble (.fin b)) (hone : 1 ≤ a) {q : ℚ} (haq : a ≤ q) (hqb : q ≤ b)
    (elapsed : Number) :
    ∃ r : ℚ, adapt c (.fin q) elapsed = .fin r ∧ a ≤ r ∧ r ≤ b := by
  have hpos : (1 : ℚ) ≤ q := (by exact_mod_cast hone : (1 : ℚ) ≤ a).trans haq
  have hab : (a : ℚ) ≤ b := haq.trans hqb
  rw [adapt, hmin, hmax]
  split_ifs
  · have hhalf : ((Number.fin q).div (.fin 2)).le (.fin b) = true := by
      rw [Number.div, if_pos two_ne_zero]
      exact Number.ofRat_le_fin hb (by linarith)
    exact Number.max_fin_eq (Number.floor_le_intCast hhalf) hab
  · exact Number.min_fin_eq (Number.fin_le_ofRat ha (by linarith)) hab

theorem Steady.answer (h : Steady a b n s) (hmin : c.min = .fin a) (hmax : c.max = .fin b)
    (ha : Number.IsDouble (.fin a)) (hb : Number.IsDouble (.fin b)) (hone : 1 ≤ a) {t : Number}
    (hw : s.workers[w]? = some (.calling i t)) (elapsed : Number) (v : R) :
    Steady a b n (s.answer c w i elapsed v) ∧
      (s.answer c w i elapsed v).workers[w]? = some .free := by
  have hitem : i ∈ s.workers.filterMap AdaptiveWorker.item :=
    List.mem_filterMap.mpr ⟨_, List.mem_of_getElem? hw, rfl⟩
  have hlt : i < s.results.length := by
    rw [h.length]
    have hmem := h.answered.subset (List.mem_append_right _ hitem)
    exact (List.mem_range.mp hmem).trans_le h.index
  have hnew (u : R) : (i, u) ∉ s.answers := by
    intro hmem
    have hnodup := h.answered.nodup_iff.mpr List.nodup_range
    exact (List.nodup_append.mp hnodup).2.2 i (List.mem_map_of_mem (f := Prod.fst) hmem) i hitem rfl
  constructor
  · obtain ⟨q, hq, haq, hqb⟩ := h.limit
    refine h.leave hw rfl rfl rfl (by simp) (by simp) ?_ rfl ?_ ?_ ?_ id (by simp)
    · rw [hq]
      exact adapt_bounds hmin hmax ha hb hone haq hqb elapsed
    · rw [List.map_append]
      exact .of_eq (List.append_nil _)
    · rw [List.length_set, h.length]
    · intro j u
      rw [put_iff hlt, List.mem_append, List.mem_singleton, h.results j u]
      constructor
      · rintro (⟨rfl, hu⟩ | ⟨-, hmem⟩)
        · exact .inr (by rw [Option.some.inj hu])
        · exact .inl hmem
      · rintro (hmem | heq)
        · refine .inr ⟨?_, hmem⟩
          rintro rfl
          exact hnew u hmem
        · cases heq
          exact .inl ⟨rfl, rfl⟩
  · apply List.getElem?_set_self
    show w < (s.workers.mapIdx _).length
    rw [List.length_mapIdx]
    exact lt_of_entry hw

/-! ## Runs -/

theorem Steady.step (h : Steady a b n s) (hmin : c.min = .fin a) (hmax : c.max = .fin b)
    (ha : Number.IsDouble (.fin a)) (hb : Number.IsDouble (.fin b)) (hone : 1 ≤ a)
    {e : AdaptiveEvent R} (hs : s.step c n e = some s') : Steady a b n s' := by
  cases e with
  | run w =>
    simp only [AdaptivePool.step] at hs
    split at hs
    · cases hs
      exact h.next ‹_›
    · cases hs
      exact h.acquire ‹_›
    · cases hs
  | call w now threw =>
    simp only [AdaptivePool.step] at hs
    split at hs
    · next i hw =>
      have hcall := h.call hw now
      cases threw with
      | none =>
        cases hs
        exact hcall
      | some err =>
        cases hs
        exact hcall.fail (List.getElem?_set_self (lt_of_entry hw)) err
    · cases hs
  | settle w now r =>
    simp only [AdaptivePool.step] at hs
    split at hs
    · next i t hw =>
      cases r with
      | ok v =>
        cases hs
        obtain ⟨hanswer, hfree⟩ := h.answer hmin hmax ha hb hone hw (now.sub t) v
        exact hanswer.next hfree
      | error err =>
        cases hs
        exact h.fail hw err
    · cases hs

theorem steady_init (hmax : c.max = .fin b) (hone : 1 ≤ b)
    (hlimit : ∃ q : ℚ, c.limit = .fin q ∧ a ≤ q ∧ q ≤ b) (n : ℕ) :
    Steady a b n (init c n : AdaptivePool R) := by
  have hmem : ∀ p ∈ (init c n : AdaptivePool R).workers, p = .free :=
    fun p hp => List.eq_of_mem_replicate hp
  have hnone {f : AdaptiveWorker → Option ℕ} (hf : f .free = none) :
      (init c n : AdaptivePool R).workers.filterMap f = [] := by
    rw [List.filterMap_eq_nil_iff]
    intro p hp
    rw [hmem p hp, hf]
  refine ⟨hlimit, ?_, zero_le_one.trans hone, fun hne => absurd rfl hne, ?_, ?_, ?_, Nat.zero_le n, ?_,
    List.length_replicate, ?_, ?_, ?_⟩
  · have hcount : (init c n : AdaptivePool R).workers.countP AdaptiveWorker.holds = 0 := by
      rw [List.countP_eq_zero]
      intro p hp
      rw [hmem p hp]
      exact Bool.false_ne_true
    rw [hcount]
    rfl
  · intro w i hw
    cases hmem _ (List.mem_of_getElem? hw)
  · rw [hnone rfl]
    exact .refl []
  · rw [hnone rfl]
    exact .refl []
  · intro hdone
    cases hmem _ hdone
  · intro i v
    constructor
    · intro hv
      cases List.eq_of_mem_replicate (List.mem_of_getElem? hv)
    · intro hv
      cases hv
  · intro i err hfail
    cases hmem _ hfail
  · intro hnil
    have hcount : (Number.min c.max (.fin n)).toNat = 0 := (List.replicate_eq_nil_iff _).mp hnil
    rw [hmax, Number.min, if_neg (by simp)] at hcount
    split_ifs at hcount
    · simp only [Number.toNat, Int.floor_intCast, Int.toNat_eq_zero] at hcount
      omega
    · simpa using hcount

theorem Steady.holder (h : Steady a b n s) (hone : 1 ≤ a) (hw : s.workers[w]? = some (.waiting i)) :
    ∃ p ∈ s.workers, p.holds = true := by
  have hpark := h.parked (List.ne_nil_of_mem (h.waits w i hw))
  obtain ⟨q, hq, haq, -⟩ := h.limit
  rw [hq, Number.le_fin, decide_eq_true_eq, h.inFlight] at hpark
  have hpos : (0 : ℚ) < s.workers.countP AdaptiveWorker.holds := by
    calc (0 : ℚ) < a := by exact_mod_cast hone
      _ ≤ q := haq
      _ ≤ _ := by exact_mod_cast hpark
  exact List.countP_pos_iff.mp (by exact_mod_cast hpos)

/-- Nobody is left over at rest. -/
theorem Steady.all_done (h : Steady a b n s) (hone : 1 ≤ a) (hrest : s.Resting)
    (hok : s.rejection = none) : ∀ p ∈ s.workers, p = .done := by
  intro p hp
  obtain ⟨hruns, hcall⟩ := hrest p hp
  cases p with
  | done => rfl
  | free | woken i | acquired i => cases hruns
  | calling i t => cases hcall
  | failed i err => exact absurd hok (h.failed i err hp)
  | waiting i =>
    obtain ⟨w, hw⟩ := List.mem_iff_getElem?.mp hp
    obtain ⟨q, hq, hholds⟩ := h.holder hone hw
    obtain ⟨hruns, hcall⟩ := hrest q hq
    cases q with
    | acquired j => cases hruns
    | calling j t => cases hcall
    | free | woken j | waiting j | done | failed j err => cases hholds

theorem outcome_ok_iff {results : List (Option R)} : s.outcome = some (.ok results) ↔
    s.rejection = none ∧ (∀ p ∈ s.workers, p = .done) ∧ s.results = results := by
  unfold outcome
  cases s.rejection with
  | some err => simp
  | none =>
    split_ifs with hdone
    · simp only [Option.some.injEq, Except.ok.injEq, true_and, iff_and_self]
      exact fun _ => hdone
    · simp [hdone]

/-- What has come of the items once all workers are through. -/
theorem Steady.complete (h : Steady a b n s) (hdone : ∀ p ∈ s.workers, p = .done) :
    s.calls.Perm (List.range n) ∧ (s.answers.map Prod.fst).Perm (List.range n) := by
  have hindex : s.index = n := by
    cases hw : s.workers with
    | nil =>
      have hzero := h.staffed hw
      have hle := h.index
      omega
    | cons p l =>
      have hp : p ∈ s.workers := by
        rw [hw]
        exact List.mem_cons_self
      apply h.ended
      rw [← hdone p hp]
      exact hp
  have hnone {f : AdaptiveWorker → Option ℕ} (hf : f .done = none) : s.workers.filterMap f = [] := by
    rw [List.filterMap_eq_nil_iff]
    intro p hp
    rw [hdone p hp, hf]
  have hcalled := h.called
  have hanswered := h.answered
  rw [hnone rfl, List.append_nil, hindex] at hcalled hanswered
  exact ⟨hcalled, hanswered⟩

/-- **In every state of every run**, the limit is between `min` and `max` and at most `max` calls are
in flight; a worker is parked only while another one has the slot of a call that is in flight or starts
next; no item is called twice. A pool at rest has called all items unless a call failed, and then the
results are the answers, by item. -/
theorem adaptive_steady {options : AdaptiveConcurrencyOptions} {n : ℕ} {log : List (AdaptiveEvent R)}
    (h : run (step options.settings n) (init options.settings n) log = some s) :
    (options.settings.min.le s.limit = true ∧ s.limit.le options.settings.max = true) ∧
      (Number.fin (s.workers.countP AdaptiveWorker.inCall)).le options.settings.max = true ∧
      (∀ (w i : ℕ), s.workers[w]? = some (.waiting i) → ∃ p ∈ s.workers, p.holds = true) ∧
      s.calls.Nodup ∧
      (s.Resting → s.rejection = none → s.outcome = some (.ok s.results)) ∧
      ∀ results, s.outcome = some (.ok results) →
        s.calls.Perm (List.range n) ∧ (s.answers.map Prod.fst).Perm (List.range n) ∧
          results.length = n ∧ ∀ (i : ℕ) v, results[i]? = some (some v) ↔ (i, v) ∈ s.answers := by
  obtain ⟨a, b, hmin, hmax, hone, hab, ha, hb, hlimit⟩ := settings_bounds options
  have hs : Steady a b n s := run_induction (P := fun s _ => Steady a b n s)
    (steady_init hmax (hone.trans hab) hlimit n)
    (fun _ _ _ _ h hs => h.step hmin hmax ha hb hone hs) h
  refine ⟨?_, ?_, fun w i => hs.holder hone, ?_, ?_, ?_⟩
  · obtain ⟨q, hq, haq, hqb⟩ := hs.limit
    rw [hmin, hmax, hq, Number.le_fin, Number.le_fin, decide_eq_true_eq, decide_eq_true_eq]
    exact ⟨haq, hqb⟩
  · have hle : s.workers.countP AdaptiveWorker.inCall ≤ s.workers.countP AdaptiveWorker.holds := by
      apply List.countP_mono_left
      intro p _ hp
      cases p <;> first | rfl | cases hp
    have hbound := hs.bound
    rw [hs.inFlight] at hbound
    rw [hmax, Number.le_fin, decide_eq_true_eq]
    exact_mod_cast (Int.ofNat_le.mpr hle).trans hbound
  · have hnodup := hs.called.nodup_iff.mpr List.nodup_range
    exact (List.nodup_append.mp hnodup).1
  · intro hrest hok
    exact outcome_ok_iff.mpr ⟨hok, hs.all_done hone hrest hok, rfl⟩
  · intro results hout
    obtain ⟨-, hdone, rfl⟩ := outcome_ok_iff.mp hout
    obtain ⟨hcalls, hanswers⟩ := hs.complete hdone
    exact ⟨hcalls, hanswers, hs.length, hs.results⟩

/-- Two workers and three items. A slow call halves the limit, and its worker parks with the last item
until the other call is through. -/
def slowCall : List (AdaptiveEvent ℕ) :=
  [.run 0, .run 1, .call 0 (.fin 0) none, .call 1 (.fin 4999) none, .settle 0 (.fin 5000) (.ok 10)]

theorem adaptive_steady_two :
    let c := AdaptiveConcurrencyOptions.settings { max := some (.ofInt 2) }
    (∃ s, run (step c 3) (init c 3) slowCall = some s ∧
      s.workers[0]? = some (.waiting 2) ∧ ∃ p ∈ s.workers, p.holds = true) ∧
    ∃ s, run (step c 3) (init c 3) (slowCall ++ [.settle 1 (.fin 5001) (.ok 11), .run 0,
        .call 0 (.fin 5002) none, .settle 0 (.fin 5003) (.ok 12)]) = some s ∧
      s.results = [some 10, some 11, some 12] ∧ s.outcome = some (.ok s.results) ∧
        s.calls.Perm (List.range 3) := by
  intro c
  constructor
  · obtain ⟨s, hs, hend⟩ := (Option.any_eq_true _ _).mp (by decide +kernel :
      (run (step c 3) (init c 3) slowCall).any fun s => s.workers[0]? = some (.waiting 2))
    have hw := of_decide_eq_true hend
    exact ⟨s, hs, hw, (adaptive_steady hs).2.2.1 0 2 hw⟩
  · obtain ⟨s, hs, hend⟩ := (Option.any_eq_true _ _).mp (by decide +kernel :
      (run (step c 3) (init c 3) (slowCall ++ [.settle 1 (.fin 5001) (.ok 11), .run 0,
        .call 0 (.fin 5002) none, .settle 0 (.fin 5003) (.ok 12)])).any fun s =>
          s.results = [some 10, some 11, some 12] ∧ s.workers = [.done, .done] ∧ s.rejection = none)
    obtain ⟨hresults, hworkers, hok⟩ := of_decide_eq_true hend
    have hdone : ∀ p ∈ s.workers, p = .done := by
      rw [hworkers]
      simp
    have hout : s.outcome = some (.ok s.results) := outcome_ok_iff.mpr ⟨hok, hdone, rfl⟩
    exact ⟨s, hs, hresults, hout, ((adaptive_steady hs).2.2.2.2.2 s.results hout).1⟩

end AdaptivePool

end StreamFi
