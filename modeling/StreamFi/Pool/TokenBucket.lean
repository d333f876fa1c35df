import StreamFi.Factory.Address
import StreamFi.Run.Rate

/-!
# The token bucket

`mapWithConcurrency` with `requestsPerSecond` takes a token for each call. The bucket is filled up by the
time since it was last used; a worker that finds less than one token sleeps, and then tests again. Times
are milliseconds, and arithmetic is exact.

* `TokenBucket.refill`, `TokenBucket.take`: one pass of the loop of `takeToken`;
* `ThrottledPool.step`: the workers between their awaits, in any order, at times that never go back;
  `move_of_perform`: what a worker can do;
* **`throttled_paced`**: how many tokens are taken and how many calls start in an interval.
-/

namespace StreamFi

open Js Run

structure TokenBucket where
  tokens : ℚ
  capacity : ℚ
  rate : ℚ
  last : ℚ
  deriving DecidableEq

def createTokenBucket (requestsPerSecond now : ℚ) : TokenBucket where
  tokens := max 1 requestsPerSecond
  capacity := max 1 requestsPerSecond
  rate := requestsPerSecond
  last := now

namespace TokenBucket

def refill (bucket : TokenBucket) (now : ℚ) : TokenBucket :=
  { bucket with
    tokens := min bucket.capacity (bucket.tokens + (now - bucket.last) / 1000 * bucket.rate)
    last := now }

/-- A pass of the loop of `takeToken`, with the time to sleep when there is no token. -/
def take (bucket : TokenBucket) (now : ℚ) : Option ℚ × TokenBucket :=
  let bucket := bucket.refill now
  if 1 ≤ bucket.tokens then (none, { bucket with tokens := bucket.tokens - 1 })
  else (some ((1 - bucket.tokens) / bucket.rate * 1000), bucket)

/-- The bucket after tokens were taken at some times. -/
structure Filled (r : ℚ) (times : List ℚ) (bucket : TokenBucket) : Prop where
  capacity : bucket.capacity = max 1 r
  rate : bucket.rate = r
  reserve : Reserve (max 1 r) (r / 1000) times bucket.tokens bucket.last

variable {r now : ℚ} {times : List ℚ} {bucket bucket' : TokenBucket}

theorem filled_init (r now : ℚ) : Filled r [] (createTokenBucket r now) where
  capacity := rfl
  rate := rfl
  reserve := reserve_full (zero_le_one.trans (le_max_left 1 r)) _ now

theorem Filled.refill (h : Filled r times bucket) (hr : 0 < r) (hnow : bucket.last ≤ now) :
    Filled r times (bucket.refill now) where
  capacity := h.capacity
  rate := h.rate
  reserve := by
    have hin : (now - bucket.last) / 1000 * bucket.rate = r / 1000 * (now - bucket.last) := by
      rw [h.rate]
      ring
    show Reserve _ _ _ (min bucket.capacity
      (bucket.tokens + (now - bucket.last) / 1000 * bucket.rate)) now
    rw [hin, h.capacity]
    exact h.reserve.refill (by positivity) hnow

/-- **A pass** takes a token now, or none. -/
theorem Filled.take (h : Filled r times bucket) (hr : 0 < r) (hnow : bucket.last ≤ now)
    {delay : Option ℚ} (ht : bucket.take now = (delay, bucket')) :
    Filled r (if delay = none then times ++ [now] else times) bucket' ∧ bucket'.last = now := by
  have hfull := h.refill hr hnow
  unfold TokenBucket.take at ht
  simp only at ht
  split_ifs at ht with hone
  · cases ht
    exact ⟨⟨hfull.capacity, hfull.rate, hfull.reserve.take hone⟩, rfl⟩
  · cases ht
    exact ⟨hfull, rfl⟩

end TokenBucket

/-! ## Workers -/

/-- Where a worker is suspended; an item is named by its position. A `granted` worker has the token of
a call, and calls when it goes on. -/
inductive ThrottledWorker where
  | free
  | sleeping (i : ℕ) (delay : ℚ)
  | granted (i call : ℕ)
  | calling (i : ℕ)
  | done
  | failed (err : Thrown)
  deriving DecidableEq

/-- A call of `fn`, from its token on. -/
structure ThrottledCall where
  item : ℕ
  takenAt : ℚ
  startedAt : Option ℚ := none
  deriving DecidableEq

/-- A call of `mapWithConcurrency`. `clock` is the time of the last step, `calls` are in the order of
their tokens. -/
structure ThrottledPool (R : Type) where
  bucket : Option TokenBucket
  clock : ℚ
  index : ℕ := 0
  workers : List ThrottledWorker
  results : List (Option R)
  calls : List ThrottledCall := []
  rejection : Option Thrown := none
  deriving DecidableEq

/-- A worker goes on at a time; `settle` is the end of its call. -/
inductive ThrottledEvent (R : Type) where
  | run (w : ℕ) (now : ℚ)
  | call (w : ℕ) (now : ℚ)
  | settle (w : ℕ) (now : ℚ) (r : Except Thrown R)

def ThrottledEvent.now {R : Type} : ThrottledEvent R → ℚ
  | .run _ now | .call _ now | .settle _ now _ => now

namespace ThrottledPool

variable {R : Type}

def init (n : ℕ) (concurrency : Number) (requestsPerSecond : Option ℚ) (now : ℚ) :
    ThrottledPool R where
  bucket := match requestsPerSecond with
    | some rps => if 0 < rps then some (createTokenBucket rps now) else none
    | none => none
  clock := now
  workers := .replicate (workerCount concurrency n) .free
  results := .replicate n none

/-- A worker with an item, up to its next await. -/
def enter (s : ThrottledPool R) (w i : ℕ) (now : ℚ) : ThrottledPool R :=
  match s.bucket with
  | none => { s with
      calls := s.calls ++ [{ item := i, takenAt := now, startedAt := some now }]
      workers := s.workers.set w (.calling i) }
  | some bucket => match bucket.take now with
    | (none, bucket) => { s with
        bucket := some bucket
        calls := s.calls ++ [{ item := i, takenAt := now }]
        workers := s.workers.set w (.granted i s.calls.length) }
    | (some delay, bucket) => { s with
        bucket := some bucket
        workers := s.workers.set w (.sleeping i delay) }

/-- The head of the loop of a worker, for `n` items. -/
def next (n : ℕ) (s : ThrottledPool R) (w : ℕ) (now : ℚ) : ThrottledPool R :=
  if s.index < n then enter { s with index := s.index + 1 } w s.index now
  else { s with workers := s.workers.set w .done }

def start (s : ThrottledPool R) (w i call : ℕ) (now : ℚ) : ThrottledPool R :=
  { s with
    calls := s.calls.modify call fun c => { c with startedAt := some now }
    workers := s.workers.set w (.calling i) }

def perform (n : ℕ) (s : ThrottledPool R) : ThrottledEvent R → Option (ThrottledPool R)
  | .run w now => match s.workers[w]? with
    | some .free => some (s.next n w now)
    | some (.sleeping i _) => some (s.enter w i now)
    | _ => none
  | .call w now => match s.workers[w]? with
    | some (.granted i call) => some (s.start w i call now)
    | _ => none
  | .settle w now r => match s.workers[w]? with
    | some (.calling i) => match r with
      | .ok v => some (next n { s with results := s.results.set i (some v) } w now)
      | .error err => some { s with
          workers := s.workers.set w (.failed err), rejection := s.rejection <|> some err }
    | _ => none

/-- The clock never goes back. -/
def step (n : ℕ) (s : ThrottledPool R) (e : ThrottledEvent R) : Option (ThrottledPool R) :=
  if s.clock ≤ e.now then perform n { s with clock := e.now } e else none

/-- What a worker can do. -/
inductive Move (n : ℕ) (s : ThrottledPool R) : ThrottledEvent R → ThrottledPool R → Prop
  | free {w : ℕ} {now : ℚ} (hw : s.workers[w]? = some .free) : Move n s (.run w now) (s.next n w now)
  | woken {w i : ℕ} {delay now : ℚ} (hw : s.workers[w]? = some (.sleeping i delay)) :
      Move n s (.run w now) (s.enter w i now)
  | granted {w i call : ℕ} {now : ℚ} (hw : s.workers[w]? = some (.granted i call)) :
      Move n s (.call w now) (s.start w i call now)
  | answered {w i : ℕ} {now : ℚ} (hw : s.workers[w]? = some (.calling i)) (v : R) :
      Move n s (.settle w now (.ok v)) (next n { s with results := s.results.set i (some v) } w now)
  | rejected {w i : ℕ} {now : ℚ} (hw : s.workers[w]? = some (.calling i)) (err : Thrown) :
      Move n s (.settle w now (.error err))
        { s with workers := s.workers.set w (.failed err), rejection := s.rejection <|> some err }

theorem move_of_perform {n : ℕ} {s s' : ThrottledPool R} {e : ThrottledEvent R}
    (hs : s.perform n e = some s') : Move n s e s' := by
  cases e with
  | run w now =>
    simp only [perform] at hs
    split at hs
    · cases hs
      exact .free ‹_›
    · cases hs
      exact .woken ‹_›
    · cases hs
  | call w now =>
    simp only [perform] at hs
    split at hs
    · cases hs
      exact .granted ‹_›
    · cases hs
  | settle w now r =>
    simp only [perform] at hs
    split at hs
    · cases r with
      | ok v =>
        cases hs
        exact .answered ‹_› v
      | error err =>
        cases hs
        exact .rejected ‹_› err
    · cases hs

/-! ## The invariant -/

/-- What holds between two steps. -/
structure Throttled (r : ℚ) (s : ThrottledPool R) : Prop where
  bucket : ∃ bucket, s.bucket = some bucket ∧
    TokenBucket.Filled r (s.calls.map ThrottledCall.takenAt) bucket ∧ bucket.last ≤ s.clock
  order : ∀ c ∈ s.calls, ∀ now, c.startedAt = some now → c.takenAt ≤ now
  taken : ∀ c ∈ s.calls, c.takenAt ≤ s.clock

variable {r now : ℚ} {n w i call : ℕ} {s s' : ThrottledPool R}

theorem throttled_init (hr : 0 < r) (n : ℕ) (concurrency : Number) (now : ℚ) :
    Throttled r (init n concurrency (some r) now : ThrottledPool R) where
  bucket := by
    refine ⟨createTokenBucket r now, ?_, TokenBucket.filled_init r now, le_rfl⟩
    simp only [init, if_pos hr]
  order c hc := by cases hc
  taken c hc := by cases hc

/-- Time passes. -/
theorem Throttled.wait (h : Throttled r s) (hnow : s.clock ≤ now) :
    Throttled r { s with clock := now } where
  bucket := by
    obtain ⟨bucket, hbucket, hfull, hlast⟩ := h.bucket
    exact ⟨bucket, hbucket, hfull, hlast.trans hnow⟩
  order := h.order
  taken c hc := (h.taken c hc).trans hnow

theorem Throttled.enter (h : Throttled r s) (hr : 0 < r) (w i : ℕ) :
    Throttled r (s.enter w i s.clock) := by
  obtain ⟨bucket, hbucket, hfull, hlast⟩ := h.bucket
  cases htake : bucket.take s.clock with
  | mk delay bucket' =>
    obtain ⟨hfull', hlast'⟩ := hfull.take hr hlast htake
    cases delay with
    | none =>
      simp only [ThrottledPool.enter, hbucket, htake]
      refine ⟨⟨bucket', rfl, ?_, hlast'.le⟩, ?_, ?_⟩
      · rw [List.map_append]
        exact hfull'
      · intro c hc now hstart
        rcases List.mem_append.mp hc with hc | hc
        · exact h.order c hc now hstart
        · rw [List.mem_singleton.mp hc] at hstart
          cases hstart
      · intro c hc
        rcases List.mem_append.mp hc with hc | hc
        · exact h.taken c hc
        · rw [List.mem_singleton.mp hc]
    | some delay =>
      simp only [ThrottledPool.enter, hbucket, htake]
      exact ⟨⟨bucket', rfl, hfull', hlast'.le⟩, h.order, h.taken⟩

theorem Throttled.next (h : Throttled r s) (hr : 0 < r) (n w : ℕ) :
    Throttled r (s.next n w s.clock) := by
  unfold ThrottledPool.next
  split_ifs
  · exact Throttled.enter (s := { s with index := s.index + 1 }) ⟨h.bucket, h.order, h.taken⟩ hr w
      s.index
  · exact ⟨h.bucket, h.order, h.taken⟩

theorem Throttled.start (h : Throttled r s) (w i call : ℕ) :
    Throttled r (s.start w i call s.clock) := by
  have htaken : (s.calls.modify call fun c => { c with startedAt := some s.clock }).map
      ThrottledCall.takenAt = s.calls.map ThrottledCall.takenAt := by
    apply map_modify_same
    intro c
    rfl
  refine ⟨?_, ?_, ?_⟩
  · obtain ⟨bucket, hbucket, hfull, hlast⟩ := h.bucket
    exact ⟨bucket, hbucket, htaken.symm ▸ hfull, hlast⟩
  · intro c hc now hstart
    rcases mem_modify hc with hc | ⟨d, hd, rfl⟩
    · exact h.order c hc now hstart
    · cases hstart
      exact h.taken d (List.mem_of_getElem? hd)
  · intro c hc
    rcases mem_modify hc with hc | ⟨d, hd, rfl⟩
    · exact h.taken c hc
    · exact h.taken d (List.mem_of_getElem? hd)

theorem Throttled.perform (h : Throttled r s) (hr : 0 < r) {e : ThrottledEvent R}
    (hnow : e.now = s.clock) (hs : s.perform n e = some s') : Throttled r s' := by
  cases move_of_perform hs with
  | @free w now hw =>
    obtain rfl : now = s.clock := hnow
    exact h.next hr n w
  | @woken w i delay now hw =>
    obtain rfl : now = s.clock := hnow
    exact h.enter hr w i
  | @granted w i call now hw =>
    obtain rfl : now = s.clock := hnow
    exact h.start w i call
  | @answered w i now hw v =>
    obtain rfl : now = s.clock := hnow
    exact Throttled.next (s := { s with results := s.results.set i (some v) })
      ⟨h.bucket, h.order, h.taken⟩ hr n w
  | rejected hw err => exact ⟨h.bucket, h.order, h.taken⟩

theorem Throttled.step (h : Throttled r s) (hr : 0 < r) {e : ThrottledEvent R}
    (hs : s.step n e = some s') : Throttled r s' := by
  obtain ⟨hnow, hs⟩ := Option.ite_none_right_eq_some.mp hs
  exact (h.wait hnow).perform hr rfl hs

/-- The tokens taken, and the calls started, between two times. -/
def takenIn (s : ThrottledPool R) (a b : ℚ) : ℕ :=
  s.calls.countP fun c => a ≤ c.takenAt ∧ c.takenAt ≤ b

def startedIn (s : ThrottledPool R) (a b : ℚ) : ℕ :=
  s.calls.countP fun c => c.startedAt.any fun now => a ≤ now ∧ now ≤ b

/-- No call started more than `δ` after its token was taken. -/
def Prompt (δ : ℚ) (s : ThrottledPool R) : Prop :=
  ∀ c ∈ s.calls, ∀ now, c.startedAt = some now → now ≤ c.takenAt + δ

instance (δ : ℚ) (s : ThrottledPool R) : Decidable (s.Prompt δ) :=
  inferInstanceAs (Decidable (∀ c ∈ s.calls, ∀ now ∈ c.startedAt, now ≤ c.takenAt + δ))

/-- **In every state of every run** with a rate `r`, the bucket holds from `0` to `max 1 r` tokens, and
in every interval of `d` seconds at most `max 1 r + r * d` are taken. At most `max 1 r + r * (d + δ)`
calls start in it, when each one starts within `δ` seconds after its token was taken. -/
theorem throttled_paced (hr : 0 < r) {concurrency : Number} {t₀ : ℚ} {log : List (ThrottledEvent R)}
    (h : run (step n) (init n concurrency (some r) t₀) log = some s) :
    (∃ bucket, s.bucket = some bucket ∧ 0 ≤ bucket.tokens ∧ bucket.tokens ≤ max 1 r) ∧
      ∀ a d : ℚ, 0 ≤ d →
        (s.takenIn a (a + 1000 * d) : ℚ) ≤ max 1 r + r * d ∧
        ∀ δ : ℚ, 0 ≤ δ → s.Prompt (1000 * δ) →
          (s.startedIn a (a + 1000 * d) : ℚ) ≤ max 1 r + r * (d + δ) := by
  have hs : Throttled r s := run_induction (P := fun s _ => Throttled r s)
    (throttled_init hr n concurrency t₀) (fun _ _ _ _ h hs => h.step hr hs) h
  obtain ⟨bucket, hbucket, hfull, -⟩ := hs.bucket
  have hpaced := hfull.reserve.paced
  have hcap : 0 ≤ max 1 r := zero_le_one.trans (le_max_left 1 r)
  have hrate : 0 ≤ r / 1000 := by positivity
  refine ⟨⟨bucket, hbucket, hfull.reserve.nonneg, hfull.reserve.le⟩, ?_⟩
  intro a d hd
  constructor
  · have hcount := hpaced.countP_le (a := a) (b := a + 1000 * d) hcap hrate (by linarith)
      (p := fun c => a ≤ c.takenAt ∧ c.takenAt ≤ a + 1000 * d) fun c _ hc => of_decide_eq_true hc
    refine hcount.trans (le_of_eq ?_)
    ring
  · intro δ hδ hprompt
    have hcount := hpaced.countP_le (a := a - 1000 * δ) (b := a + 1000 * d) hcap hrate (by linarith)
      (p := fun c => c.startedAt.any fun now => a ≤ now ∧ now ≤ a + 1000 * d) ?_
    · refine hcount.trans (le_of_eq ?_)
      ring
    · -- the token of a call that starts in the interval was taken at most `δ` earlier
      intro c hc hstart
      obtain ⟨now, hnow, hin⟩ := (Option.any_eq_true _ _).mp hstart
      obtain ⟨hlow, hup⟩ := of_decide_eq_true hin
      have hafter := hs.order c hc now hnow
      have hbefore := hprompt c hc now hnow
      constructor <;> linarith

/-- Two workers at one call a second, where the second one sleeps for a second. -/
theorem throttled_paced_two :
    ∃ s : ThrottledPool ℕ, run (step 2) (init 2 (.fin 2) (some 1) 0)
        [.run 0 0, .run 1 0, .call 0 0, .run 1 1000, .call 1 1000] = some s ∧
      s.startedIn 0 1000 = 2 ∧ (s.startedIn 0 1000 : ℚ) ≤ max 1 1 + 1 * (1 + 0) := by
  obtain ⟨s, hs, hend⟩ := (Option.any_eq_true _ _).mp (by decide +kernel :
    (run (step 2) (init 2 (.fin 2) (some 1) 0 : ThrottledPool ℕ)
      [.run 0 0, .run 1 0, .call 0 0, .run 1 1000, .call 1 1000]).any fun s =>
        s.startedIn 0 1000 = 2 ∧ s.Prompt 0)
  obtain ⟨hstarted, hprompt⟩ := of_decide_eq_true hend
  refine ⟨s, hs, hstarted, ?_⟩
  have hcount := ((throttled_paced one_pos hs).2 0 1 zero_le_one).2 0 le_rfl (by simpa using hprompt)
  simpa using hcount

/-- **A call that starts a second after its token was taken** starts together with the next one, at a
rate of one call a second: between its token and `fn` the worker awaits the return of `takeToken`. -/
theorem late_start :
    ∃ s : ThrottledPool ℕ, run (step 2) (init 2 (.fin 2) (some 1) 0)
        [.run 0 0, .run 1 0, .call 0 1000, .run 1 1000, .call 1 1000] = some s ∧
      max 1 1 + 1 * 0 < (s.startedIn 1000 1000 : ℚ) := by
  obtain ⟨s, hs, hend⟩ := (Option.any_eq_true _ _).mp (by decide +kernel :
    (run (step 2) (init 2 (.fin 2) (some 1) 0 : ThrottledPool ℕ)
      [.run 0 0, .run 1 0, .call 0 1000, .run 1 1000, .call 1 1000]).any fun s =>
        s.startedIn 1000 1000 = 2)
  refine ⟨s, hs, ?_⟩
  rw [of_decide_eq_true hend]
  norm_num

end ThrottledPool

end StreamFi
