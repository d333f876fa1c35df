import StreamFi.Errors
import StreamFi.Js.Map
import StreamFi.Js.Rounding
import StreamFi.Run.Pool
import StreamFi.Run.Table

/-!
# The latest ledger

`getLatestLedgerInfo` keeps what an endpoint answers for five seconds from the call that asked. Calls that find
nothing ask side by side, and each writes its answer over the last.

* `LedgerCache`, `LedgerCache.step`: calls, answers and clears, as time goes by;
* **`ledgerInfo_fresh`**: no caller is told a ledger that was old when it called;
* **`ledgerInfo_order`**: when no caller is told an older ledger than one before it.
-/

namespace StreamFi

open Js Run

/-! ## The code -/

/-- What `getLatestLedger` answers. -/
structure ClosedLedger where
  sequence : ℕ
  closedAt : String
  deriving DecidableEq

structure LedgerInfo where
  sequence : ℕ
  timestamp : Number
  closedAt : String
  deriving DecidableEq

structure CachedLedgerInfo extends LedgerInfo where
  cachedAt : ℕ
  deriving DecidableEq

def defaultLedgerCacheTtlMs : ℕ := 5000

/-- The info of a ledger; `dateParse` reads a date. -/
def ledgerInfoOf (dateParse : String → Number) (ledger : ClosedLedger) : LedgerInfo where
  sequence := ledger.sequence
  timestamp := ((dateParse ledger.closedAt).div (.fin 1000)).floor
  closedAt := ledger.closedAt

/-- A call, and what it returned or threw, and when. -/
structure LedgerCall where
  rpcUrl : String
  now : ℕ
  outcome : Option (ℕ × Except Thrown LedgerInfo) := none
  deriving DecidableEq

/-- The cache, every call so far, and the time of the last event. -/
structure LedgerCache where
  ledgerInfoCache : Map String CachedLedgerInfo := .empty
  calls : List LedgerCall := []
  clock : ℕ := 0
  deriving DecidableEq

/-- A call gets the latest ledger at some time after it asked, or an error. -/
inductive LedgerEvent where
  | getLatestLedgerInfo (rpcUrl : String) (now : ℕ)
  | served (call : ℕ) (time now : ℕ)
  | failed (call : ℕ) (err : Thrown) (now : ℕ)
  | clear (rpcUrl : Option String)

namespace LedgerCache

/-- The call, up to its request. -/
def getLatestLedgerInfo (s : LedgerCache) (rpcUrl : String) (now : ℕ) : LedgerCache :=
  let outcome := match s.ledgerInfoCache.get rpcUrl with
    | some cached =>
      if now - cached.cachedAt < defaultLedgerCacheTtlMs then some (now, .ok cached.toLedgerInfo) else none
    | none => none
  { s with calls := s.calls ++ [{ rpcUrl := rpcUrl, now := now, outcome := outcome }], clock := now }

def settle (s : LedgerCache) (i : ℕ) (call : LedgerCall) (now : ℕ) (r : Except Thrown LedgerInfo) : LedgerCache :=
  { s with calls := s.calls.set i { call with outcome := some (now, r) }, clock := now }

/-- The answer of the endpoint. -/
def receive (s : LedgerCache) (i : ℕ) (call : LedgerCall) (now : ℕ) (info : LedgerInfo) : LedgerCache :=
  { s.settle i call now (.ok info) with
    ledgerInfoCache := s.ledgerInfoCache.set call.rpcUrl { info with cachedAt := call.now } }

def clearLedgerInfoCache (s : LedgerCache) (rpcUrl : Option String) : LedgerCache :=
  { s with ledgerInfoCache := match truthyText rpcUrl with
    | some rpcUrl => s.ledgerInfoCache.delete rpcUrl
    | none => .empty }

/-- The call that waits for an answer. -/
def waiting (s : LedgerCache) (i : ℕ) : Option LedgerCall :=
  (s.calls[i]?).filter fun call => call.outcome.isNone

/-- `chain` is the latest ledger of an endpoint at a time. -/
def step (chain : String → ℕ → ClosedLedger) (dateParse : String → Number) (s : LedgerCache) :
    LedgerEvent → Option LedgerCache
  | .getLatestLedgerInfo rpcUrl now => if s.clock ≤ now then some (s.getLatestLedgerInfo rpcUrl now) else none
  | .served i time now => do
    let call ← s.waiting i
    if call.now ≤ time ∧ time ≤ now ∧ s.clock ≤ now then
      some (s.receive i call now (ledgerInfoOf dateParse (chain call.rpcUrl time)))
    else none
  | .failed i err now => do
    let call ← s.waiting i
    if s.clock ≤ now then
      some (s.settle i call now (.error (rpcError (catchNetworkError "getLatestLedger" err))))
    else none
  | .clear rpcUrl => some (s.clearLedgerInfoCache rpcUrl)

end LedgerCache

namespace LedgerCache

variable {chain : String → ℕ → ClosedLedger} {dateParse : String → Number} {s s' : LedgerCache}
  {e : LedgerEvent} {log : List LedgerEvent}

/-! ## Fresh answers -/

/-- What the cache holds was the latest ledger at some time since it was asked for, and so was what a caller was
told, up to five seconds before its call. -/
structure Fresh (chain : String → ℕ → ClosedLedger) (dateParse : String → Number) (s : LedgerCache) : Prop where
  began : ∀ call ∈ s.calls, call.now ≤ s.clock
  cached : ∀ rpcUrl cached, s.ledgerInfoCache.get rpcUrl = some cached → ∃ t, cached.cachedAt ≤ t ∧ t ≤ s.clock ∧
    cached.toLedgerInfo = ledgerInfoOf dateParse (chain rpcUrl t)
  told : ∀ call ∈ s.calls, ∀ time info, call.outcome = some (time, .ok info) → time ≤ s.clock ∧
    ∃ t, call.now < t + defaultLedgerCacheTtlMs ∧ t ≤ time ∧ info = ledgerInfoOf dateParse (chain call.rpcUrl t)

theorem waiting_iff {i : ℕ} {call : LedgerCall} :
    s.waiting i = some call ↔ s.calls[i]? = some call ∧ call.outcome = none := by
  simp [waiting, Option.filter_eq_some_iff]

theorem mem_put_iff {i : ℕ} {call c : LedgerCall} {l : List LedgerCall} (h : c ∈ l.set i call) : c = call ∨ c ∈ l :=
  (List.mem_or_eq_of_mem_set h).symm

/-- **What a call is told at once** is what the cache holds. -/
theorem told_getLatestLedgerInfo {rpcUrl : String} {now : ℕ} {call : LedgerCall}
    (hcall : call ∈ (s.getLatestLedgerInfo rpcUrl now).calls) : call ∈ s.calls ∨
      call.rpcUrl = rpcUrl ∧ call.now = now ∧ (call.outcome = none ∨ ∃ cached,
        s.ledgerInfoCache.get rpcUrl = some cached ∧ now - cached.cachedAt < defaultLedgerCacheTtlMs ∧
          call.outcome = some (now, .ok cached.toLedgerInfo)) := by
  simp only [getLatestLedgerInfo, List.mem_append, List.mem_singleton] at hcall
  refine hcall.imp id ?_
  rintro rfl
  refine ⟨rfl, rfl, ?_⟩
  cases hget : s.ledgerInfoCache.get rpcUrl with
  | none => exact .inl rfl
  | some cached =>
    by_cases hfresh : now - cached.cachedAt < defaultLedgerCacheTtlMs
    · exact .inr ⟨cached, rfl, hfresh, by simp [hfresh]⟩
    · exact .inl (by simp [hfresh])

theorem Fresh.call (h : s.Fresh chain dateParse) {rpcUrl : String} {now : ℕ} (hnow : s.clock ≤ now) :
    (s.getLatestLedgerInfo rpcUrl now).Fresh chain dateParse where
  began call hcall := by
    rcases told_getLatestLedgerInfo hcall with hcall | ⟨-, hcall, -⟩
    · exact (h.began call hcall).trans hnow
    · exact hcall.le
  cached url cached hget := by
    obtain ⟨t, hsince, htill, hinfo⟩ := h.cached url cached hget
    exact ⟨t, hsince, htill.trans hnow, hinfo⟩
  told call hcall time info htold := by
    rcases told_getLatestLedgerInfo hcall with hcall | ⟨rfl, rfl, hnone | ⟨cached, hget, hfresh, hsome⟩⟩
    · obtain ⟨hle, hold⟩ := h.told call hcall time info htold
      exact ⟨hle.trans hnow, hold⟩
    · cases hnone.symm.trans htold
    · cases hsome.symm.trans htold
      obtain ⟨t, hsince, htill, hinfo⟩ := h.cached _ cached hget
      exact ⟨le_rfl, t, by omega, htill.trans hnow, hinfo⟩

theorem Fresh.settle (h : s.Fresh chain dateParse) {i now : ℕ} {call : LedgerCall} {r : Except Thrown LedgerInfo}
    (hcall : s.calls[i]? = some call) (hnow : s.clock ≤ now)
    (hr : ∀ info, r = .ok info → ∃ t, call.now ≤ t ∧ t ≤ now ∧ info = ledgerInfoOf dateParse (chain call.rpcUrl t)) :
    (s.settle i call now r).Fresh chain dateParse where
  began c hc := by
    rcases mem_put_iff hc with rfl | hc
    · exact (h.began call (List.mem_of_getElem? hcall)).trans hnow
    · exact (h.began c hc).trans hnow
  cached url cached hget := by
    obtain ⟨t, hsince, htill, hinfo⟩ := h.cached url cached hget
    exact ⟨t, hsince, htill.trans hnow, hinfo⟩
  told c hc time info htold := by
    rcases mem_put_iff hc with rfl | hc
    · simp only [Option.some.injEq, Prod.mk.injEq] at htold
      obtain ⟨t, hsince, htill, hinfo⟩ := hr info htold.2
      have hpos : 0 < defaultLedgerCacheTtlMs := by decide
      exact ⟨htold.1.ge, t, hsince.trans_lt (Nat.lt_add_of_pos_right hpos), by omega, hinfo⟩
    · obtain ⟨hle, hold⟩ := h.told c hc time info htold
      exact ⟨hle.trans hnow, hold⟩

theorem Fresh.receive (h : s.Fresh chain dateParse) {i time now : ℕ} {call : LedgerCall}
    (hcall : s.calls[i]? = some call) (hnow : s.clock ≤ now) (hsince : call.now ≤ time) (htill : time ≤ now) :
    (s.receive i call now (ledgerInfoOf dateParse (chain call.rpcUrl time))).Fresh chain dateParse := by
  have hsettle := h.settle (r := .ok (ledgerInfoOf dateParse (chain call.rpcUrl time))) hcall hnow (by
    intro info hinfo
    cases hinfo
    exact ⟨time, hsince, htill, rfl⟩)
  refine ⟨hsettle.began, ?_, hsettle.told⟩
  intro url cached hget
  simp only [LedgerCache.receive, Map.get_set] at hget
  split_ifs at hget with hurl
  · cases hget
    rw [hurl]
    exact ⟨time, hsince, htill, rfl⟩
  · exact hsettle.cached url cached hget

theorem get_clear {rpcUrl : Option String} {url : String} {cached : CachedLedgerInfo}
    (h : (s.clearLedgerInfoCache rpcUrl).ledgerInfoCache.get url = some cached) :
    s.ledgerInfoCache.get url = some cached := by
  cases htext : truthyText rpcUrl with
  | none =>
    simp only [clearLedgerInfoCache, htext] at h
    cases h
  | some key =>
    simp only [clearLedgerInfoCache, htext, Map.get_delete] at h
    split_ifs at h
    exact h

/-- Everything one step can do. -/
inductive StepCase (chain : String → ℕ → ClosedLedger) (dateParse : String → Number) (s : LedgerCache) :
    LedgerEvent → LedgerCache → Prop
  | called {rpcUrl now} : s.clock ≤ now → StepCase chain dateParse s (.getLatestLedgerInfo rpcUrl now)
      (s.getLatestLedgerInfo rpcUrl now)
  | served {i time now call} : s.calls[i]? = some call → call.outcome = none → s.clock ≤ now → call.now ≤ time →
      time ≤ now → StepCase chain dateParse s (.served i time now)
        (s.receive i call now (ledgerInfoOf dateParse (chain call.rpcUrl time)))
  | failed {i err now call} : s.calls[i]? = some call → call.outcome = none → s.clock ≤ now →
      StepCase chain dateParse s (.failed i err now)
        (s.settle i call now (.error (rpcError (catchNetworkError "getLatestLedger" err))))
  | cleared {rpcUrl} : StepCase chain dateParse s (.clear rpcUrl) (s.clearLedgerInfoCache rpcUrl)

theorem step_cases (h : s.step chain dateParse e = some s') : StepCase chain dateParse s e s' := by
  cases e with
  | getLatestLedgerInfo rpcUrl now =>
    obtain ⟨hnow, rfl⟩ := (Option.ite_none_right_eq_some.mp h).imp id Option.some.inj
    exact .called hnow
  | served i time now =>
    obtain ⟨call, hcall, h⟩ := Option.bind_eq_some_iff.mp h
    obtain ⟨⟨hsince, htill, hnow⟩, rfl⟩ := (Option.ite_none_right_eq_some.mp h).imp id Option.some.inj
    exact .served (waiting_iff.mp hcall).1 (waiting_iff.mp hcall).2 hnow hsince htill
  | failed i err now =>
    obtain ⟨call, hcall, h⟩ := Option.bind_eq_some_iff.mp h
    obtain ⟨hnow, rfl⟩ := (Option.ite_none_right_eq_some.mp h).imp id Option.some.inj
    exact .failed (waiting_iff.mp hcall).1 (waiting_iff.mp hcall).2 hnow
  | clear rpcUrl =>
    cases h
    exact .cleared

theorem Fresh.step (h : s.Fresh chain dateParse) (hstep : s.step chain dateParse e = some s') :
    s'.Fresh chain dateParse := by
  cases step_cases hstep with
  | called hnow => exact h.call hnow
  | served hcall _ hnow hsince htill => exact h.receive hcall hnow hsince htill
  | failed hcall _ hnow => exact h.settle hcall hnow (by simp)
  | cleared => exact ⟨h.began, fun url cached hget => h.cached url cached (get_clear hget), h.told⟩

theorem fresh_init : Fresh chain dateParse {} := by
  refine ⟨by simp, ?_, by simp⟩
  intro url cached hget
  cases hget

/-- **No caller is told an old ledger**: what a call returns was the latest ledger of its endpoint less than five
seconds before the call, or later, however many calls ask side by side. -/
theorem ledgerInfo_fresh (h : run (step chain dateParse) {} log = some s) {call : LedgerCall} (hcall : call ∈ s.calls)
    {time : ℕ} {info : LedgerInfo} (htold : call.outcome = some (time, .ok info)) :
    ∃ t, call.now < t + defaultLedgerCacheTtlMs ∧ t ≤ time ∧
      info = ledgerInfoOf dateParse (chain call.rpcUrl t) :=
  have hfresh : s.Fresh chain dateParse :=
    run_induction (P := fun s _ => s.Fresh chain dateParse) fresh_init (fun _ _ _ _ hs => hs.step) h
  (hfresh.told call hcall time info htold).2

/-- A chain that closes a ledger a second. -/
def secondsChain (_ : String) (t : ℕ) : ClosedLedger := ⟨t / 1000, ""⟩

/-- Two calls side by side, their answers in order, and a call that finds the second. -/
def sideBySide : List LedgerEvent :=
  [.getLatestLedgerInfo "rpc" 1000, .getLatestLedgerInfo "rpc" 1500, .served 0 2000 2500, .served 1 3000 3500,
    .getLatestLedgerInfo "rpc" 4000]

def infoAt (sequence : ℕ) : LedgerInfo := ⟨sequence, .fin 0, ""⟩

def shared : LedgerCache where
  ledgerInfoCache := Map.empty.set "rpc" { infoAt 3 with cachedAt := 1500 }
  calls := [⟨"rpc", 1000, some (2500, .ok (infoAt 2))⟩, ⟨"rpc", 1500, some (3500, .ok (infoAt 3))⟩,
    ⟨"rpc", 4000, some (4000, .ok (infoAt 3))⟩]
  clock := 4000

theorem run_shared : run (step secondsChain fun _ => .fin 0) {} sideBySide = some shared := by
  decide +kernel

theorem ledgerInfo_fresh_shared : ∃ t, 4000 < t + defaultLedgerCacheTtlMs ∧ t ≤ 4000 ∧
    infoAt 3 = ledgerInfoOf (fun _ => .fin 0) (secondsChain "rpc" t) :=
  ledgerInfo_fresh run_shared
    (show ⟨"rpc", 4000, some (4000, .ok (infoAt 3))⟩ ∈ shared.calls by simp [shared]) rfl

/-! ## The order of answers -/

/-- The cache is not behind what callers were told. -/
def NotBehind (s : LedgerCache) : Prop :=
  ∀ call ∈ s.calls, ∀ time info, call.outcome = some (time, .ok info) → ∀ cached,
    s.ledgerInfoCache.get call.rpcUrl = some cached → info.sequence ≤ cached.sequence

/-- The answer is not older than what a caller was told before it. -/
def Timely (chain : String → ℕ → ClosedLedger) (s : LedgerCache) : LedgerEvent → Prop
  | .served i time _ => ∀ call, s.calls[i]? = some call → ∀ c ∈ s.calls, c.rpcUrl = call.rpcUrl →
      ∀ time' info, c.outcome = some (time', .ok info) → info.sequence ≤ (chain call.rpcUrl time).sequence
  | _ => True

/-- A call is told no older ledger than a call that had returned before it. -/
def NoneBack (s : LedgerCache) : Prop :=
  ∀ c ∈ s.calls, ∀ c' ∈ s.calls, c.rpcUrl = c'.rpcUrl → ∀ time info time' info',
    c.outcome = some (time, .ok info) → c'.outcome = some (time', .ok info') → time < c'.now →
      info.sequence ≤ info'.sequence

theorem NotBehind.call (h : s.NotBehind) {rpcUrl : String} {now : ℕ} :
    (s.getLatestLedgerInfo rpcUrl now).NotBehind := by
  intro call hcall time info htold cached hget
  rcases told_getLatestLedgerInfo hcall with hcall | ⟨rfl, rfl, hnone | ⟨cached', hget', -, hsome⟩⟩
  · exact h call hcall time info htold cached hget
  · cases hnone.symm.trans htold
  · cases hsome.symm.trans htold
    cases hget'.symm.trans hget
    exact le_rfl

theorem NotBehind.failed (h : s.NotBehind) {i now : ℕ} {call : LedgerCall} {err : Thrown} :
    (s.settle i call now (.error err)).NotBehind := by
  intro c hc time info htold cached hget
  rcases mem_put_iff hc with rfl | hc
  · simp at htold
  · exact h c hc time info htold cached hget

theorem NotBehind.step (h : s.NotBehind) (htimely : Timely chain s e) (hstep : s.step chain dateParse e = some s') :
    s'.NotBehind := by
  cases step_cases hstep with
  | called => exact h.call
  | failed => exact h.failed
  | cleared => exact fun call hcall time info htold cached hget => h call hcall time info htold cached (get_clear hget)
  | @served i time now call hcall _ _ _ _ =>
    intro c hc time' info htold cached hget
    simp only [receive, Map.get_set] at hget
    split_ifs at hget with hurl
    · cases hget
      rcases mem_put_iff hc with rfl | hc
      · simp only [Option.some.injEq, Prod.mk.injEq, Except.ok.injEq] at htold
        rw [← htold.2]
      · exact htimely call hcall c hc hurl time' info htold
    · rcases mem_put_iff hc with rfl | hc
      · exact absurd rfl hurl
      · exact h c hc time' info htold cached hget

/-- An answer that comes too late leaves the cache behind. -/
theorem not_notBehind (htimely : ¬ Timely chain s e) (hstep : s.step chain dateParse e = some s') : ¬ s'.NotBehind := by
  cases step_cases hstep with
  | called => exact absurd trivial htimely
  | failed => exact absurd trivial htimely
  | cleared => exact absurd trivial htimely
  | @served i time now call hcall hnone _ _ _ =>
    intro hbehind
    apply htimely
    intro call' hcall' c hc hurl time' info htold
    cases hcall.symm.trans hcall'
    have hne : c ≠ call := by
      rintro rfl
      cases hnone.symm.trans htold
    refine hbehind c (mem_put hcall hc hne _) time' info htold
      { ledgerInfoOf dateParse (chain call.rpcUrl time) with cachedAt := call.now } ?_
    simp [receive, Map.get_set, hurl]

theorem NoneBack.call (hfresh : s.Fresh chain dateParse) (hbehind : s.NotBehind) (h : s.NoneBack) {rpcUrl : String}
    {now : ℕ} (hnow : s.clock ≤ now) : (s.getLatestLedgerInfo rpcUrl now).NoneBack := by
  intro c hc c' hc' hurl time info time' info' htold htold' hlt
  rcases told_getLatestLedgerInfo hc with hold | ⟨-, -, hnone | ⟨cached, -, -, hsome⟩⟩
  · rcases told_getLatestLedgerInfo hc' with hold' | ⟨hkey, -, hnone | ⟨cached, hget, -, hsome⟩⟩
    · exact h c hold c' hold' hurl time info time' info' htold htold' hlt
    · cases hnone.symm.trans htold'
    · cases hsome.symm.trans htold'
      refine hbehind c hold time info htold cached ?_
      rwa [hurl, hkey]
  · cases hnone.symm.trans htold
  · -- it returns as it is called, and no other was called later
    cases hsome.symm.trans htold
    rcases told_getLatestLedgerInfo hc' with hc' | ⟨-, hcalled, -⟩
    · have := hfresh.began c' hc'
      omega
    · omega

theorem NoneBack.failed (h : s.NoneBack) {i now : ℕ} {call : LedgerCall} {err : Thrown} :
    (s.settle i call now (.error err)).NoneBack := by
  have hold {c : LedgerCall} {time : ℕ} {info : LedgerInfo} (hc : c ∈ (s.settle i call now (.error err)).calls)
      (htold : c.outcome = some (time, .ok info)) : c ∈ s.calls := by
    refine (mem_put_iff hc).resolve_left ?_
    rintro rfl
    simp at htold
  intro c hc c' hc' hurl time info time' info' htold htold' hlt
  exact h c (hold hc htold) c' (hold hc' htold') hurl time info time' info' htold htold' hlt

theorem NoneBack.served (hmono : ∀ rpcUrl, Monotone fun t => (chain rpcUrl t).sequence)
    (hfresh : s.Fresh chain dateParse) (h : s.NoneBack) {i time₀ now : ℕ} {call : LedgerCall}
    (hnow : s.clock ≤ now) (hsince : call.now ≤ time₀) (htill : time₀ ≤ now) :
    (s.receive i call now (ledgerInfoOf dateParse (chain call.rpcUrl time₀))).NoneBack := by
  intro c hc c' hc' hurl time info time' info' htold htold' hlt
  rcases mem_put_iff hc with rfl | hc
  · -- it returns now, and no other was called later
    simp only [Option.some.injEq, Prod.mk.injEq] at htold
    have hbegan : c'.now ≤ now := by
      rcases mem_put_iff hc' with rfl | hc'
      · exact hsince.trans htill
      · exact (hfresh.began c' hc').trans hnow
    omega
  · rcases mem_put_iff hc' with rfl | hc'
    · simp only [Option.some.injEq, Prod.mk.injEq, Except.ok.injEq] at htold'
      obtain ⟨-, t, -, hle, rfl⟩ := hfresh.told c hc time info htold
      rw [← htold'.2, hurl]
      exact hmono call.rpcUrl (hle.trans (hlt.le.trans hsince))
    · exact h c hc c' hc' hurl time info time' info' htold htold' hlt

theorem NoneBack.step (hmono : ∀ rpcUrl, Monotone fun t => (chain rpcUrl t).sequence)
    (hfresh : s.Fresh chain dateParse) (hbehind : s.NotBehind) (h : s.NoneBack)
    (hstep : s.step chain dateParse e = some s') : s'.NoneBack := by
  cases step_cases hstep with
  | called hnow => exact h.call hfresh hbehind hnow
  | served _ _ hnow hsince htill => exact h.served hmono hfresh hnow hsince htill
  | failed => exact h.failed
  | cleared => exact h

/-- **Nobody goes back in time**: the cache is never behind what callers were told exactly when no answer is older
than what was told before it, and then, as the chain only grows, a call is told no older ledger than one that had
returned before it. -/
theorem ledgerInfo_order (hmono : ∀ rpcUrl, Monotone fun t => (chain rpcUrl t).sequence)
    (h : run (step chain dateParse) {} log = some s) :
    (Throughout (step chain dateParse) NotBehind {} log ↔ EachStep (step chain dateParse) (Timely chain) {} log) ∧
      (EachStep (step chain dateParse) (Timely chain) {} log → s.NoneBack) := by
  have hinit : NotBehind {} := by simp [NotBehind]
  constructor
  · exact throughout_iff_eachStep (I := NotBehind) (fun _ hs => hs) hinit (fun _ _ _ hs => hs.step)
      (fun _ _ _ _ => not_notBehind) h
  · intro htimely
    have hinv : s.Fresh chain dateParse ∧ s.NotBehind ∧ s.NoneBack := by
      refine run_induction_of (P := fun s _ => s.Fresh chain dateParse ∧ s.NotBehind ∧ s.NoneBack)
        ⟨fresh_init, hinit, by simp [NoneBack]⟩ ?_ htimely h
      rintro s l e s' ⟨hfresh, hbehind, hback⟩ hok hstep
      exact ⟨hfresh.step hstep, hbehind.step hok hstep, hback.step hmono hfresh hbehind hstep⟩
    exact hinv.2.2

theorem ledgerInfo_order_shared :
    (Throughout (step secondsChain fun _ => .fin 0) NotBehind {} sideBySide ↔
      EachStep (step secondsChain fun _ => .fin 0) (Timely secondsChain) {} sideBySide) ∧
      (EachStep (step secondsChain fun _ => .fin 0) (Timely secondsChain) {} sideBySide → shared.NoneBack) :=
  ledgerInfo_order (fun _ _ _ h => Nat.div_le_div_right h) run_shared

end LedgerCache

end StreamFi
