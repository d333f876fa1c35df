import StreamFi.Js.Value

/-!
# A custom `fetch` for RPC requests

`registerCustomFetch` keeps a `fetch` for each RPC url and `fetchAdapter` makes the requests to that
url. A name that neither the function nor the module declares is looked up in the global scope.

* `retryGatewayErrors`: the loop, around any `send`; `gatewayRun`: what one run of it sends, and
  `retryGatewayErrors_length`: how often a `send` that makes one request makes it;
* `fetchAdapter`: the code; `PerformsThrough`: what it is for;
* **`fetchAdapter_never`**: it never does that. `fetchAdapter_sendTransaction` is one submissionRequest.
-/

namespace StreamFi

open Js

/-! ## The code -/

structure Registration (F : Type) where
  fetch : F
  timeoutMs : Number

/-- `registry`. -/
abbrev Registry (F : Type) := String → Option (Registration F)

structure RequestConfig (S : Type) where
  url : Option String := none
  method : Option String := none
  data : Value Empty := .undefined
  headers : List (String × Value Empty) := []
  signal : Option S := none

structure RequestInit (S : Type) where
  method : String
  headers : List (String × String)
  signal : S
  body : Option String

/-- One call of a `fetch`. -/
structure FetchCall (F S : Type) where
  fetch : F
  url : String
  init : RequestInit S

/-- What the caller receives. -/
structure AxiosResponse where
  data : Value Empty
  status : ℕ
  statusText : String
  headers : List (String × String)

/-- What is thrown, with its `response`. -/
structure RequestFailure where
  error : Thrown
  response : Option AxiosResponse := none

/-- A response; `text` is what `res.text()` comes to. -/
structure FetchResponse where
  status : ℕ
  statusText : String := ""
  headers : List (String × String) := []
  text : Except RequestFailure String

/-- How the calls are answered, and whether the signal is aborted when the attempt of that number has
failed or in the pause after it. -/
structure FetchWorld where
  answer : ℕ → Except RequestFailure FetchResponse
  aborted : ℕ → Bool := fun _ => false
  cutShort : ℕ → Bool := fun _ => false

/-- `JSON.parse`, where it does not throw, `JSON.stringify` and `toUpperCase`. -/
structure FetchRuntime where
  parse : String → Option (Value Empty)
  stringify : Value Empty → Except RequestFailure (Option String)
  toUpperCase : String → String

/-- The names that this module uses without a declaration: the value that each has in the global scope,
or whether it has one there. -/
structure GlobalScope (F S : Type) where
  customFetch : Option F := none
  controller : Option S := none
  registration : Option F := none
  timer : Bool := false
  onCallerAbort : Bool := false

/-- The calls that were made, the pauses between them and how it ended. -/
structure Sent (F S : Type) where
  calls : List (FetchCall F S) := []
  pauses : List ℕ := []
  result : Except RequestFailure AxiosResponse

/-- The `ReferenceError` of a name without a declaration. -/
def notDefined (name : String) : RequestFailure :=
  { error := errorOf "ReferenceError" s!"{name} is not defined" }

def stripTrailingSlash (url : String) : String :=
  if url.toList.getLast? = some '/' then String.ofList url.toList.dropLast else url

/-- The headers that are strings, numbers or booleans. -/
def headerRecord {S : Type} (config : RequestConfig S) : List (String × String) :=
  config.headers.filterMap fun (k, v) =>
    match v with
    | .string s => some (k, s)
    | .number x => some (k, numToText x)
    | .bool b => some (k, toString b)
    | _ => none

def retryableGatewayStatuses : List ℕ := [502, 503, 504]

def gatewayMaxRetries : ℕ := 3

def gatewayBaseDelayMs : ℕ := 250

def idempotentRpcMethods : List String :=
  ["getHealth", "getNetwork", "getVersionInfo", "getLatestLedger", "getLedgers", "getLedgerEntries",
    "getTransaction", "getTransactions", "getEvents", "getFeeStats", "simulateTransaction"]

def isIdempotentRequest {S : Type} (rt : FetchRuntime) (config : RequestConfig S) : Bool :=
  if rt.toUpperCase (config.method.getD "post") = "GET" then true
  else
    let body := match config.data with
      | .string text => rt.parse text
      | data => some data
    match body with
    | some (.object entries) =>
      match entries.lookup "method" with
      | some (.string method) => method ∈ idempotentRpcMethods
      | _ => false
    | _ => false

/-- `retryable`, by the status of the response of the error. -/
def RequestFailure.retryable (err : RequestFailure) : Prop :=
  ∃ response, err.response = some response ∧ response.status ∈ retryableGatewayStatuses

instance (err : RequestFailure) : Decidable err.retryable :=
  decidable_of_iff (err.response.any fun response => response.status ∈ retryableGatewayStatuses) (by
    rcases h : err.response with _ | response <;> simp [RequestFailure.retryable, h])

/-- The rejection of `sleep`. -/
def backoffAborted : RequestFailure :=
  { error := errorOf "Error" "RPC request aborted during gateway retry backoff" }

section Loop

variable {F S : Type} (send : ℕ → Sent F S) (signal : Option S) (world : FetchWorld)

/-- `retryGatewayErrors`, from attempt number `attempt` on; `send k` is what attempt `k` does. -/
def retryFrom (attempt : ℕ) : Sent F S :=
  match (send attempt).result with
  | .ok _ => send attempt
  | .error err =>
    if ¬ err.retryable ∨ gatewayMaxRetries ≤ attempt ∨ (signal.isSome ∧ world.aborted attempt) then
      send attempt
    else
      let pauses := (send attempt).pauses ++ [gatewayBaseDelayMs * 2 ^ attempt]
      if signal.isSome ∧ world.cutShort attempt then
        { calls := (send attempt).calls, pauses := pauses, result := .error backoffAborted }
      else
        let later := retryFrom (attempt + 1)
        { calls := (send attempt).calls ++ later.calls
          pauses := pauses ++ later.pauses
          result := later.result }
termination_by gatewayMaxRetries - attempt

def retryGatewayErrors : Sent F S := retryFrom send signal world 0

end Loop

section Adapter

variable {F S : Type} (scope : GlobalScope F S) (rt : FetchRuntime)

/-- `init.body`. -/
def requestBody (data : Value Empty) : Except RequestFailure (Option String) :=
  match data with
  | .undefined => .ok none
  | .string text => .ok (some text)
  | data => rt.stringify data

/-- The response that `sendOnce` returns or throws; the text of an error is parsed where it can be. -/
def settleResponse (res : FetchResponse) (text : String) : Except RequestFailure AxiosResponse :=
  let response : AxiosResponse := ⟨.string text, res.status, res.statusText, res.headers⟩
  if 200 ≤ res.status ∧ res.status < 300 then .ok response
  else .error {
    error := { errorOf "Error" s!"Request failed with status code {res.status}" with status := some res.status }
    response := some { response with data := (rt.parse text).getD (.string text) } }

/-- `sendOnce`. What its `finally` throws takes the place of what it had come to. -/
def sendOnce (config : RequestConfig S) (url : String) (answer : Except RequestFailure FetchResponse) :
    Sent F S :=
  match scope.controller, requestBody rt config.data with
  | none, _ => { result := .error (notDefined "controller") }
  | some _, .error err => { result := .error err }
  | some controller, .ok body =>
    let init : RequestInit S := {
      method := rt.toUpperCase (config.method.getD "post")
      headers := headerRecord config
      signal := controller
      body := body }
    let received : Except RequestFailure (FetchResponse × String) := match scope.registration with
      | none => .error (notDefined "registration")
      | some _ => do
        let res ← answer
        let text ← res.text
        return (res, text)
    { calls := (scope.registration.map fun fetch => FetchCall.mk fetch url init).toList
      result :=
        if scope.timer = false then .error (notDefined "timer")
        else if config.signal.isSome ∧ scope.onCallerAbort = false then .error (notDefined "onCallerAbort")
        else do
          let (res, text) ← received
          settleResponse rt res text }

/-- `send` of `fetchAdapter`, in attempt number `attempt`. -/
def adapterSend (config : RequestConfig S) (world : FetchWorld) (attempt : ℕ) : Sent F S :=
  match scope.customFetch with
  | none => { result := .error (notDefined "customFetch") }
  | some _ => sendOnce scope rt config (config.url.getD "") (world.answer attempt)

def fetchAdapter (registry : Registry F) (config : RequestConfig S) (world : FetchWorld) : Sent F S :=
  let url := config.url.getD ""
  match registry (stripTrailingSlash url) with
  | none => { result := .error { error := errorOf "Error" s!"No custom fetch registered for {url}" } }
  | some _ =>
    let send := adapterSend scope rt config world
    if isIdempotentRequest rt config then retryGatewayErrors send config.signal world else send 0

end Adapter

/-- `registerCustomFetch`; what is no function is `none`. -/
def registerCustomFetch {F : Type} (registry : Registry F) (rpcUrl : String) (customFetch : Option F)
    (timeoutMs : Number := .fin 15000) : Except Thrown (Registry F) :=
  match customFetch with
  | none => .error (errorOf "TypeError" "customFetch must be a function")
  | some fetch =>
    if timeoutMs.isFinite = false ∨ timeoutMs.lt (.fin 0) then
      .error (errorOf "RangeError" "timeoutMs must be a non-negative finite number")
    else .ok (Function.update registry (stripTrailingSlash rpcUrl) (some ⟨fetch, timeoutMs⟩))

/-! ## The loop -/

section Loop

variable {F S : Type} {send : ℕ → Sent F S} {signal : Option S} {world : FetchWorld}

/-- The failure of an attempt after which there is another. -/
structure TriesAgain (send : ℕ → Sent F S) (signal : Option S) (world : FetchWorld) (k : ℕ) : Prop where
  failed : ∃ err, (send k).result = .error err ∧ err.retryable
  within : k < gatewayMaxRetries
  present : ¬ (signal.isSome ∧ world.aborted k)
  unbroken : ¬ (signal.isSome ∧ world.cutShort k)

/-- A run of the loop that makes the attempts `first`, …, `first + n`. -/
structure GatewayRun (send : ℕ → Sent F S) (signal : Option S) (world : FetchWorld) (first n : ℕ)
    (out : Sent F S) : Prop where
  calls : out.calls = (List.range' first (n + 1)).flatMap fun k => (send k).calls
  again : ∀ k, first ≤ k → k < first + n → TriesAgain send signal world k
  result : out.result = (send (first + n)).result ∨
    out.result = .error backoffAborted ∧ signal.isSome ∧ world.cutShort (first + n)

theorem gatewayRun_once {k : ℕ} {out : Sent F S} (hcalls : out.calls = (send k).calls)
    (hresult : out.result = (send k).result ∨
      out.result = .error backoffAborted ∧ signal.isSome ∧ world.cutShort k) :
    GatewayRun send signal world k 0 out where
  calls := by simpa using hcalls
  again j h₁ h₂ := by omega
  result := hresult

/-- One attempt more, before a run. -/
theorem GatewayRun.before {k n : ℕ} {later out : Sent F S} (hagain : TriesAgain send signal world k)
    (h : GatewayRun send signal world (k + 1) n later) (hcalls : out.calls = (send k).calls ++ later.calls)
    (hresult : out.result = later.result) : GatewayRun send signal world k (n + 1) out where
  calls := by
    rw [hcalls, h.calls, List.range'_succ (s := k) (n := n + 1), List.flatMap_cons]
  again j h₁ h₂ := by
    rcases Nat.eq_or_lt_of_le h₁ with rfl | hlt
    · exact hagain
    · exact h.again j hlt (by omega)
  result := by
    rw [hresult, show k + (n + 1) = k + 1 + n by omega]
    exact h.result

theorem gatewayRun_from (k : ℕ) : ∃ n, GatewayRun send signal world k n (retryFrom send signal world k) := by
  induction hleft : gatewayMaxRetries - k generalizing k with
  | zero =>
    refine ⟨0, ?_⟩
    rw [retryFrom]
    cases hresult : (send k).result with
    | ok _ => exact gatewayRun_once rfl (.inl rfl)
    | error err =>
      dsimp only
      rw [if_pos (.inr (.inl (by omega)))]
      exact gatewayRun_once rfl (.inl rfl)
  | succ m ih =>
    rw [retryFrom]
    cases hresult : (send k).result with
    | ok _ => exact ⟨0, gatewayRun_once rfl (.inl rfl)⟩
    | error err =>
      dsimp only
      split_ifs with hstop hcut
      · exact ⟨0, gatewayRun_once rfl (.inl rfl)⟩
      · exact ⟨0, gatewayRun_once rfl (.inr ⟨rfl, hcut⟩)⟩
      · obtain ⟨n, hn⟩ := ih (k + 1) (by omega)
        have hagain : TriesAgain send signal world k := {
          failed := ⟨err, hresult, by tauto⟩
          within := by omega
          present := by tauto
          unbroken := hcut }
        exact ⟨n + 1, hn.before hagain rfl rfl⟩

variable (send signal world) in
theorem gatewayRun : ∃ n, GatewayRun send signal world 0 n (retryGatewayErrors send signal world) :=
  gatewayRun_from 0

/-- A `send` that makes one request makes at most four, and the ones before the last failed at the
gateway. -/
theorem retryGatewayErrors_length (hone : ∀ k, (send k).calls.length = 1) :
    ∃ n ≤ gatewayMaxRetries, (retryGatewayErrors send signal world).calls.length = n + 1 ∧
      ∀ k < n, TriesAgain send signal world k := by
  obtain ⟨n, hrun⟩ := gatewayRun send signal world
  refine ⟨n, ?_, ?_, fun k hk => hrun.again k (Nat.zero_le k) (by omega)⟩
  · by_contra hn
    exact absurd (hrun.again gatewayMaxRetries (Nat.zero_le _) (by omega)).within (lt_irrefl _)
  · rw [hrun.calls, List.length_flatMap]
    simp [hone]

end Loop

/-! ## What the adapter does -/

section Claim

variable {F S : Type}

/-- The status of an answer, of a response or of the response of an error. -/
def answerStatus (answer : Except RequestFailure FetchResponse) : Option ℕ :=
  match answer with
  | .ok res => some res.status
  | .error err => err.response.map AxiosResponse.status

/-- **A request that goes through `fetch`**: one that may not be replayed is made once; another is made
again only after a gateway answer, at most four times and never after an abort; the last response comes
back, as an error with its status if it is no success. -/
structure PerformsThrough (rt : FetchRuntime) (fetch : F) (config : RequestConfig S) (world : FetchWorld)
    (out : Sent F S) : Prop where
  through : ∀ call ∈ out.calls, call.fetch = fetch
  once : isIdempotentRequest rt config = false → out.calls.length = 1
  bounded : isIdempotentRequest rt config = true → 1 ≤ out.calls.length ∧ out.calls.length ≤ 4
  again : ∀ k, k + 1 < out.calls.length →
    (∃ status ∈ retryableGatewayStatuses, answerStatus (world.answer k) = some status) ∧
      ¬ (config.signal.isSome ∧ (world.aborted k ∨ world.cutShort k))
  success : ∀ res text, world.answer (out.calls.length - 1) = .ok res → res.text = .ok text →
    200 ≤ res.status → res.status < 300 →
    out.result = .ok ⟨.string text, res.status, res.statusText, res.headers⟩
  failure : ∀ res, world.answer (out.calls.length - 1) = .ok res → ¬ (200 ≤ res.status ∧ res.status < 300) →
    ∃ err response, out.result = .error err ∧ err.response = some response ∧ response.status = res.status

theorem PerformsThrough.pos {rt : FetchRuntime} {fetch : F} {config : RequestConfig S} {world : FetchWorld}
    {out : Sent F S} (h : PerformsThrough rt fetch config world out) : 0 < out.calls.length := by
  cases hidem : isIdempotentRequest rt config with
  | false =>
    rw [h.once hidem]
    exact one_pos
  | true => exact (h.bounded hidem).1

/-- No attempt comes to a call, as `customFetch` is declared nowhere. -/
theorem adapterSend_undeclared (rt : FetchRuntime) (config : RequestConfig S) (world : FetchWorld) (k : ℕ) :
    adapterSend ({} : GlobalScope F S) rt config world k = { result := .error (notDefined "customFetch") } :=
  rfl

/-- A request that is made is refused before its `fetch` is called. -/
theorem fetchAdapter_calls (rt : FetchRuntime) (registry : Registry F) (config : RequestConfig S)
    (world : FetchWorld) : (fetchAdapter {} rt registry config world).calls = [] := by
  rw [fetchAdapter]
  cases registry (stripTrailingSlash (config.url.getD "")) with
  | none => rfl
  | some registration =>
    dsimp only
    split_ifs
    · obtain ⟨n, hrun⟩ := gatewayRun (adapterSend ({} : GlobalScope F S) rt config world) config.signal world
      rw [hrun.calls, List.flatMap_eq_nil_iff]
      intro k _
      rw [adapterSend_undeclared]
    · rfl

/-- What a registration is found by. -/
theorem registerCustomFetch_get {registry registry' : Registry F} {rpcUrl url : String} {fetch : F}
    {timeoutMs : Number} (h : registerCustomFetch registry rpcUrl (some fetch) timeoutMs = .ok registry')
    (hurl : stripTrailingSlash url = stripTrailingSlash rpcUrl) :
    registry' (stripTrailingSlash url) = some ⟨fetch, timeoutMs⟩ := by
  rw [registerCustomFetch] at h
  split_ifs at h
  cases h
  rw [hurl, Function.update_self]

theorem fetchAdapter_result (rt : FetchRuntime) {registry : Registry F} {config : RequestConfig S}
    {registration : Registration F} (world : FetchWorld)
    (h : registry (stripTrailingSlash (config.url.getD "")) = some registration) :
    (fetchAdapter {} rt registry config world).result = .error (notDefined "customFetch") := by
  have hfinal : ¬ (notDefined "customFetch").retryable := by
    rintro ⟨response, hresponse, -⟩
    cases hresponse
  rw [fetchAdapter]
  dsimp only
  rw [h]
  dsimp only
  split_ifs
  · rw [retryGatewayErrors, retryFrom, adapterSend_undeclared]
    dsimp only
    rw [if_pos (.inl hfinal)]
  · rfl

/-- **No request goes through the registered `fetch`.** -/
theorem fetchAdapter_never (rt : FetchRuntime) {registry registry' : Registry F} {rpcUrl : String} {fetch : F}
    {timeoutMs : Number} (hreg : registerCustomFetch registry rpcUrl (some fetch) timeoutMs = .ok registry')
    {config : RequestConfig S} (hurl : stripTrailingSlash (config.url.getD "") = stripTrailingSlash rpcUrl)
    (world : FetchWorld) :
    ¬ PerformsThrough rt fetch config world (fetchAdapter {} rt registry' config world) ∧
      (fetchAdapter {} rt registry' config world).result = .error (notDefined "customFetch") := by
  refine ⟨fun h => ?_, fetchAdapter_result rt world (registerCustomFetch_get hreg hurl)⟩
  have hpos := h.pos
  rw [fetchAdapter_calls] at hpos
  exact lt_irrefl 0 hpos

/-- A runtime that reads the one body below. -/
def submissionRuntime : FetchRuntime where
  parse text := if text = "\x7b\"method\":\"sendTransaction\"\x7d" then
      some (.object [("method", .string "sendTransaction")])
    else none
  stringify _ := .ok none
  toUpperCase s := String.ofList (s.toList.map Char.toUpper)

/-- A submissionRequest to the url of a registration. -/
def submissionRequest : RequestConfig Unit where
  url := some "https://rpc.example/"
  data := .string "\x7b\"method\":\"sendTransaction\"\x7d"

/-- Every call succeeds. -/
def willing : FetchWorld where
  answer _ := .ok { status := 200, text := .ok "" }

/-- The registry that has one `fetch`. -/
def oneFetch : Registry Unit := Function.update (fun _ => none) "https://rpc.example" (some ⟨(), .fin 15000⟩)

theorem registerCustomFetch_oneFetch :
    registerCustomFetch (fun _ => none) "https://rpc.example" (some ()) = .ok oneFetch := by
  rfl

theorem fetchAdapter_never_submission :
    ¬ PerformsThrough submissionRuntime () submissionRequest willing
        (fetchAdapter {} submissionRuntime oneFetch submissionRequest willing) ∧
      (fetchAdapter {} submissionRuntime oneFetch submissionRequest willing).result =
        .error (notDefined "customFetch") :=
  fetchAdapter_never submissionRuntime registerCustomFetch_oneFetch (by decide) willing

/-- A submissionRequest that is registered for is not made. -/
theorem fetchAdapter_sendTransaction :
    registerCustomFetch (fun _ => none) "https://rpc.example" (some ()) = .ok oneFetch ∧
      isIdempotentRequest submissionRuntime submissionRequest = false ∧
      (fetchAdapter {} submissionRuntime oneFetch submissionRequest willing).calls = [] ∧
      ¬ PerformsThrough submissionRuntime () submissionRequest willing
        (fetchAdapter {} submissionRuntime oneFetch submissionRequest willing) := by
  refine ⟨registerCustomFetch_oneFetch, by decide, fetchAdapter_calls _ _ _ _, fun h => ?_⟩
  have hpos := h.pos
  rw [fetchAdapter_calls] at hpos
  exact lt_irrefl 0 hpos

end Claim

end StreamFi
