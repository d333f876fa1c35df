import StreamFi.Js.Map
import StreamFi.Js.Rounding
import StreamFi.Js.Value

/-!
# The fee estimator

`estimateFee` answers from an entry of its cache, shares the promise of a fetch in flight for the same
key, gives the base fee within the minimal interval between fetches, or starts a fetch. All keys share
the base fee, the last error and the time of the last fetch.

* `FeeEstimator.estimateFee`: a call up to its first await;
* `FeeEstimator.settle`: a fetch that comes back, with the value of its promise;
* `settle_ok`, `settle_error`, **`estimateFee_cases`**: where a fee comes from.
-/

namespace StreamFi

open Js

structure FeeEntry where
  fee : ℤ
  fetchedAt : Number
  deriving DecidableEq

/-- Promises are named by a number, in the order in which they were made. -/
structure FeeEstimator where
  baseFee : ℤ := 100
  minRefetchIntervalMs : Number := .fin 0
  lastSuccessfulFetchAt : Option Number := none
  lastError : Option Thrown := none
  cache : Map String FeeEntry := .empty
  currentPromises : Map String ℕ := .empty
  promises : ℕ := 0

/-- `method` and `args` only stand in for a missing key; `onErrorThrows` is what the handler of errors
throws. -/
structure FeeEstimateOptions where
  cacheKey : Option String
  onErrorThrows : Option Thrown := none
  deriving DecidableEq

/-- A call has its answer, or awaits a promise. -/
inductive FeeAnswer where
  | fee (fee : ℤ)
  | threw (err : Thrown)
  | shared (promise : ℕ)
  | started (promise : ℕ)
  deriving DecidableEq

/-- `error instanceof Error ? error : new Error(String(error))`. -/
def normalizedError (err : Thrown) : Thrown := if err.isError then err else errorOf "Error" err.text

def FeeEstimateOptions.promiseKey (options : FeeEstimateOptions) : String :=
  options.cacheKey.getD "__uncached__"

namespace FeeEstimator

/-- `cacheTtlMs`. -/
def cacheTtlMs : Number := .fin 3000

def cached (s : FeeEstimator) (options : FeeEstimateOptions) (now : Number) : Option ℤ := do
  let key ← truthyText options.cacheKey
  let entry ← s.cache.get key
  if (now.sub entry.fetchedAt).lt cacheTtlMs then some entry.fee else none

/-- The last fetch is too recent. -/
def throttled (s : FeeEstimator) (now : Number) : Bool :=
  (Number.fin 0).lt s.minRefetchIntervalMs &&
    (now.sub (s.lastSuccessfulFetchAt.getD (.fin 0))).lt s.minRefetchIntervalMs

/-- A call gets the base fee, or the last error, and does not wait. -/
def fallsBack (s : FeeEstimator) (options : FeeEstimateOptions) (now : Number) : Bool :=
  (s.cached options now).isNone && (s.currentPromises.get options.promiseKey).isNone &&
    s.throttled now

def estimateFee (s : FeeEstimator) (options : FeeEstimateOptions) (now : Number) :
    FeeAnswer × FeeEstimator :=
  match s.cached options now, s.currentPromises.get options.promiseKey with
  | some fee, _ => (.fee fee, s)
  | none, some promise => (.shared promise, s)
  | none, none =>
    if s.throttled now then match s.lastError with
      | some err => (.threw (options.onErrorThrows.getD err), s)
      | none => (.fee s.baseFee, s)
    else (.started s.promises, { s with
      promises := s.promises + 1
      currentPromises := s.currentPromises.set options.promiseKey s.promises })

/-- What `networkFetcher` came to, tested for a negative fee. -/
def validFee (answer : Except Thrown ℤ) : Except Thrown ℤ :=
  answer.bind fun fee => if fee < 0 then throwNew "Invalid network fee response" else .ok fee

def settle (s : FeeEstimator) (options : FeeEstimateOptions) (answer : Except Thrown ℤ) (now : Number) :
    Except Thrown ℤ × FeeEstimator :=
  let currentPromises := s.currentPromises.delete options.promiseKey
  match validFee answer with
  | .ok fee =>
    (.ok fee, { s with
      baseFee := fee
      lastSuccessfulFetchAt := some now
      lastError := none
      cache := match truthyText options.cacheKey with
        | some key => s.cache.set key ⟨fee, now⟩
        | none => s.cache
      currentPromises := currentPromises })
  | .error err =>
    let value := match options.onErrorThrows with
      | some err => .error err
      | none => .ok s.baseFee
    (value, { s with lastError := some (normalizedError err), currentPromises := currentPromises })

variable {s s' : FeeEstimator} {key : String} {options : FeeEstimateOptions} {now : Number}

/-- A key that is not empty is used for the cache. -/
theorem cached_eq_some (hkey : options.cacheKey = some key) {fee : ℤ}
    (h : s.cached options now = some fee) : ∃ entry, s.cache.get key = some entry ∧ entry.fee = fee := by
  obtain ⟨key', hkey', hget⟩ := Option.bind_eq_some_iff.mp h
  obtain ⟨entry, hentry, hfresh⟩ := Option.bind_eq_some_iff.mp hget
  obtain ⟨-, hfee⟩ := Option.ite_none_right_eq_some.mp hfresh
  rw [hkey, truthyText, Option.filter_eq_some_iff] at hkey'
  cases hkey'.1
  exact ⟨entry, hentry, Option.some.inj hfee⟩

/-- **Where the answer to a call comes from**; only a new fetch changes the estimator. -/
theorem estimateFee_cases (s : FeeEstimator) (options : FeeEstimateOptions) (now : Number) :
    (∃ fee, s.cached options now = some fee ∧ s.estimateFee options now = (.fee fee, s)) ∨
    (∃ promise, s.currentPromises.get options.promiseKey = some promise ∧
      s.estimateFee options now = (.shared promise, s)) ∨
    (s.fallsBack options now = true ∧ ((∃ err, s.estimateFee options now = (.threw err, s)) ∨
      s.estimateFee options now = (.fee s.baseFee, s))) ∨
    s.estimateFee options now = (.started s.promises, { s with
      promises := s.promises + 1
      currentPromises := s.currentPromises.set options.promiseKey s.promises }) := by
  unfold estimateFee
  cases hcached : s.cached options now with
  | some fee => exact .inl ⟨fee, rfl, rfl⟩
  | none =>
    cases hpromise : s.currentPromises.get options.promiseKey with
    | some promise => exact .inr (.inl ⟨promise, rfl, rfl⟩)
    | none =>
      simp only
      split_ifs with hthrottled
      · have hfalls : s.fallsBack options now = true := by
          rw [fallsBack, hcached, hpromise, hthrottled]
          rfl
        cases s.lastError with
        | some err => exact .inr (.inr (.inl ⟨hfalls, .inl ⟨_, rfl⟩⟩))
        | none => exact .inr (.inr (.inl ⟨hfalls, .inr rfl⟩))
      · exact .inr (.inr (.inr rfl))

/-- **A fetch that succeeds** sets the base fee and the entry of its key. -/
theorem settle_ok (s : FeeEstimator) (hkey : options.cacheKey = some key) (hne : key ≠ "")
    {answer : Except Thrown ℤ} {fee : ℤ} (h : validFee answer = .ok fee) (now : Number) :
    s.settle options answer now = (.ok fee, { s with
      baseFee := fee
      lastSuccessfulFetchAt := some now
      lastError := none
      cache := s.cache.set key ⟨fee, now⟩
      currentPromises := s.currentPromises.delete key }) := by
  have htruthy : truthyText (some key) = some key := by
    rw [truthyText, Option.filter_some, if_pos (decide_eq_true hne)]
  simp only [settle, h, htruthy, FeeEstimateOptions.promiseKey, hkey, Option.getD_some]

/-- **A fetch that fails** gives the base fee, unless the handler throws. -/
theorem settle_error (s : FeeEstimator) (hkey : options.cacheKey = some key)
    {answer : Except Thrown ℤ} {err : Thrown} (h : validFee answer = .error err) (now : Number) :
    ∃ value, s.settle options answer now = (value, { s with
      lastError := some (normalizedError err)
      currentPromises := s.currentPromises.delete key }) ∧
      ∀ fee, value = .ok fee → fee = s.baseFee := by
  simp only [settle, h, FeeEstimateOptions.promiseKey, hkey, Option.getD_some]
  refine ⟨_, rfl, ?_⟩
  intro fee hfee
  cases honError : options.onErrorThrows with
  | some err => simp [honError] at hfee
  | none =>
    simp only [honError, Except.ok.injEq] at hfee
    exact hfee.symm

end FeeEstimator

end StreamFi
