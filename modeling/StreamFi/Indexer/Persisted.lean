import StreamFi.Js.Map
import StreamFi.Js.Stringify

/-!
# Persisted queries

`GraphQLIndexer.query` sends the hash of a query in the place of its text. A server that does not know the
hash says so, and the text follows in a second request.

* `executeGraphQLRequest`, `isPersistedQueryNotFound`, `queryInternal`: the code. `fetchWithTimeout` is a
  parameter; the metrics that `query` emits are left out;
* `PersistedServer`, `Serves`: a server that runs operations and may know queries by their hashes. A request
  can be lost before it is run, and its answer after;
* `Once`: what such operations come to when each is run at most once; `QueryRun`: a run of calls, between
  which the server may forget hashes;
* **`queryRun_once`**: a run of calls is such a list of operations, whether the queries are persisted or not;
* **`queryRun_texts`**: how often the text of a query is sent.
-/

namespace StreamFi

open Js

/-! ## The code -/

/-- What is posted. The `version` of a persisted query is always `1`. -/
structure QueryPayload (ι : Type) where
  query : Option String
  queryVariables : Map String (Value ι)
  sha256Hash : Option String

/-- The part of a `Response` that is read. -/
structure HttpResponse where
  ok : Bool
  status : ℕ
  statusText : String
  json : Except Thrown Json

/-- `GraphQLQueryOptions`; the field `variables` is `queryVariables`. Headers, `timeoutMs` and `signal` only
matter to `fetchWithTimeout`. -/
structure GraphQLQueryOptions (ι : Type) where
  query : String
  queryVariables : Option (Map String (Value ι)) := none
  persist : Option Bool := none

def notFoundMark : String := "PERSISTED_QUERY_NOT_FOUND"

/-- `s.includes(part)` -/
def textIncludes (s part : String) : Bool := decide (part.toList <:+: s.toList)

/-- Whether an entry of `errors` says that the hash is not known. -/
def saysNotFound (error : Json) : Except Thrown Bool :=
  match error with
  | .object _ => match error.field "message" with
    | none | some .null => .ok false
    | some (.string message) => .ok (textIncludes message notFoundMark)
    | some (.array items) => .ok (items.any fun item => match item with
      | .string s => s = notFoundMark
      | _ => false)
    | some _ => .error (errorOf "TypeError" "(error.message ?? \"\").includes is not a function")
  | _ => .ok false

def isPersistedQueryNotFound (body : Json) : Except Thrown Bool :=
  match body.field "errors" with
  | some (.array errors) => errors.anyM saysNotFound
  | _ => .ok false

/-- The text of an entry of `errors`. -/
def errorMessage (error : Json) : String :=
  match error with
  | .object _ => match error.field "message" with
    | some (.string message) => if message ≠ "" then message else String.ofList error.stringify
    | some _ => String.ofList error.stringify
    | none => error.text
  | _ => error.text

/-- What `query` makes of a body: its data, or one error with all messages. -/
def unwrapBody (body : Json) : Except Thrown (Option Json) :=
  match body.field "errors" with
  | some (.array (error :: errors)) =>
    .error { errorOf "ConduitError" ("; ".intercalate (((error :: errors).map errorMessage).filter (· ≠ "")))
      with code := some (-1) }
  | _ => .ok (body.field "data")

/-- What a call of `query` came to, and the requests that it sent. -/
structure QueryCall (ι σ : Type) where
  result : Except Thrown (Option Json)
  requests : List (QueryPayload ι)
  state : σ

section Code

variable {ι σ : Type} (fetchWithTimeout : QueryPayload ι → σ → Except Thrown HttpResponse × σ)

def executeGraphQLRequest (payload : QueryPayload ι) (s : σ) : Except Thrown Json × σ :=
  ((fetchWithTimeout payload s).1.bind fun response =>
    if response.ok then response.json
    else throwNew s!"GraphQL query failed with status {response.status}: {response.statusText}",
    (fetchWithTimeout payload s).2)

/-- The hash in the place of the query. -/
def hashOnly (sha256hex : String → String) (options : GraphQLQueryOptions ι) : QueryPayload ι where
  query := none
  queryVariables := options.queryVariables.getD Map.empty
  sha256Hash := some (sha256hex options.query)

/-- The query, with its hash if it is persisted. -/
def fullText (sha256hex : String → String) (persist : Bool) (options : GraphQLQueryOptions ι) : QueryPayload ι where
  query := some options.query
  queryVariables := options.queryVariables.getD Map.empty
  sha256Hash := if persist then some (sha256hex options.query) else none

/-- One request, whose body is the answer. -/
def requestOnce (payload : QueryPayload ι) (s : σ) : QueryCall ι σ where
  result := (executeGraphQLRequest fetchWithTimeout payload s).1.bind unwrapBody
  requests := [payload]
  state := (executeGraphQLRequest fetchWithTimeout payload s).2

/-- The hash first, and the text if the hash is not known. -/
def requestPersisted (sha256hex : String → String) (options : GraphQLQueryOptions ι) (s : σ) : QueryCall ι σ :=
  let first := executeGraphQLRequest fetchWithTimeout (hashOnly sha256hex options) s
  match first.1.bind isPersistedQueryNotFound with
  | .error error => ⟨.error error, [hashOnly sha256hex options], first.2⟩
  | .ok false => ⟨first.1.bind unwrapBody, [hashOnly sha256hex options], first.2⟩
  | .ok true =>
    let second := requestOnce fetchWithTimeout (fullText sha256hex true options) first.2
    { second with requests := hashOnly sha256hex options :: second.requests }

def queryInternal (sha256hex : String → String) (isDestroyed : Bool) (options : GraphQLQueryOptions ι) (s : σ) :
    QueryCall ι σ :=
  if isDestroyed then ⟨throwNew "GraphQLIndexer has been destroyed", [], s⟩
  else if trim options.query.toList = [] then ⟨throwNew "GraphQL query string cannot be null or empty", [], s⟩
  else if options.persist = some false then requestOnce fetchWithTimeout (fullText sha256hex false options) s
  else requestPersisted fetchWithTimeout sha256hex options s

end Code

/-! ## Servers -/

/-- A query with its variables. -/
abbrev GraphQLOperation (ι : Type) := String × Map String (Value ι)

def GraphQLQueryOptions.operation {ι : Type} (options : GraphQLQueryOptions ι) : GraphQLOperation ι :=
  (options.query, options.queryVariables.getD Map.empty)

/-- A server: the operations that it has run, the queries that it knows by a hash, and its answer to an
operation after others. -/
structure PersistedServer (ι σ : Type) where
  executed : σ → List (GraphQLOperation ι)
  known : σ → String → Option String
  answer : List (GraphQLOperation ι) → GraphQLOperation ι → Json

section Protocol

variable {ι σ : Type} {fetchWithTimeout : QueryPayload ι → σ → Except Thrown HttpResponse × σ}
  {server : PersistedServer ι σ} {sha256hex : String → String} {isDestroyed : Bool} {queries : Set String}
  {options : GraphQLQueryOptions ι} {payload : QueryPayload ι} {operation : GraphQLOperation ι}
  {s s' : σ} {h h' : List (GraphQLOperation ι)}

/-- An operation that was asked for after others: it was not run, or run once; only then it is answered. -/
inductive Ran (server : PersistedServer ι σ) (operation : GraphQLOperation ι) (h : List (GraphQLOperation ι)) :
    Except Thrown Json → List (GraphQLOperation ι) → Prop where
  | answered : Ran server operation h (.ok (server.answer h operation)) (h ++ [operation])
  | unheard (error : Thrown) : Ran server operation h (.error error) (h ++ [operation])
  | lost (error : Thrown) : Ran server operation h (.error error) h

/-- A request for a hash that is not known. -/
inductive Refused : Except Thrown Json → Prop where
  | notFound (body : Json) (h : isPersistedQueryNotFound body = .ok true) : Refused (.ok body)
  | lost (error : Thrown) : Refused (.error error)

variable (fetchWithTimeout server) in
/-- The server takes the place of the network. It learns a hash only together with its query, and no answer
looks as if the hash of a query was not known. -/
structure Serves : Prop where
  text : ∀ query queryVariables hash s, Ran server (query, queryVariables) (server.executed s)
    (executeGraphQLRequest fetchWithTimeout ⟨some query, queryVariables, hash⟩ s).1
    (server.executed (executeGraphQLRequest fetchWithTimeout ⟨some query, queryVariables, hash⟩ s).2)
  known : ∀ query queryVariables hash s, server.known s hash = some query →
    Ran server (query, queryVariables) (server.executed s)
      (executeGraphQLRequest fetchWithTimeout ⟨none, queryVariables, some hash⟩ s).1
      (server.executed (executeGraphQLRequest fetchWithTimeout ⟨none, queryVariables, some hash⟩ s).2)
  unknown : ∀ queryVariables hash s, server.known s hash = none →
    Refused (executeGraphQLRequest fetchWithTimeout ⟨none, queryVariables, some hash⟩ s).1 ∧
      server.executed (executeGraphQLRequest fetchWithTimeout ⟨none, queryVariables, some hash⟩ s).2 =
        server.executed s
  learns : ∀ payload s hash query,
    server.known (executeGraphQLRequest fetchWithTimeout payload s).2 hash = some query →
      server.known s hash = some query ∨ payload.query = some query ∧ payload.sha256Hash = some hash
  answers : ∀ h operation, isPersistedQueryNotFound (server.answer h operation) = .ok false

variable (server sha256hex queries) in
/-- The server knows queries by their own hashes only. -/
def Honest (s : σ) : Prop :=
  ∀ hash query, server.known s hash = some query → sha256hex query = hash ∧ query ∈ queries

/-- What a call comes to: as `Ran`, with the body unwrapped. -/
inductive Settled (server : PersistedServer ι σ) (operation : GraphQLOperation ι) (h : List (GraphQLOperation ι)) :
    Except Thrown (Option Json) → List (GraphQLOperation ι) → Prop where
  | answered : Settled server operation h (unwrapBody (server.answer h operation)) (h ++ [operation])
  | unheard (error : Thrown) : Settled server operation h (.error error) (h ++ [operation])
  | lost (error : Thrown) : Settled server operation h (.error error) h

/-- Operations one after the other, each run at most once. -/
inductive Once (server : PersistedServer ι σ) (h : List (GraphQLOperation ι)) :
    List (GraphQLOperation ι × Except Thrown (Option Json)) → List (GraphQLOperation ι) → Prop where
  | nil : Once server h [] h
  | call {log operation result h' h''} : Once server h log h' → Settled server operation h' result h'' →
    Once server h (log ++ [(operation, result)]) h''

theorem Ran.settled {result : Except Thrown Json} (hran : Ran server operation h result h') :
    Settled server operation h (result.bind unwrapBody) h' := by
  cases hran with
  | answered => exact .answered
  | unheard error => exact .unheard error
  | lost error => exact .lost error

theorem Ran.eq_answer {body : Json} (hran : Ran server operation h (.ok body) h') :
    body = server.answer h operation := by
  cases hran
  rfl

theorem Serves.requestOnce (hserves : Serves fetchWithTimeout server) (persist : Bool) :
    Settled server options.operation (server.executed s)
      (requestOnce fetchWithTimeout (fullText sha256hex persist options) s).result
      (server.executed (requestOnce fetchWithTimeout (fullText sha256hex persist options) s).state) :=
  (hserves.text _ _ _ s).settled

/-- The hash is known: the first request is the only one. -/
theorem requestPersisted_known (hserves : Serves fetchWithTimeout server)
    (hknown : server.known s (sha256hex options.query) = some options.query) :
    (requestPersisted fetchWithTimeout sha256hex options s).requests = [hashOnly sha256hex options] ∧
      Settled server options.operation (server.executed s)
        (requestPersisted fetchWithTimeout sha256hex options s).result
        (server.executed (requestPersisted fetchWithTimeout sha256hex options s).state) := by
  have hran := hserves.known _ (options.queryVariables.getD Map.empty) _ s hknown
  simp only [requestPersisted, hashOnly]
  generalize executeGraphQLRequest fetchWithTimeout _ s = first at hran ⊢
  obtain ⟨result, s'⟩ := first
  cases result with
  | error error => exact ⟨rfl, hran.settled⟩
  | ok body =>
    have hbody : isPersistedQueryNotFound body = .ok false := by rw [hran.eq_answer, hserves.answers]
    simp only [Except.bind, hbody]
    exact ⟨trivial, hran.settled⟩

/-- **A call settles its operation**, whatever the server knows. -/
theorem settled_queryInternal (hserves : Serves fetchWithTimeout server) (hinj : Set.InjOn sha256hex queries)
    (hhonest : Honest server sha256hex queries s) (hquery : options.query ∈ queries) :
    Settled server options.operation (server.executed s)
      (queryInternal fetchWithTimeout sha256hex isDestroyed options s).result
      (server.executed (queryInternal fetchWithTimeout sha256hex isDestroyed options s).state) := by
  unfold queryInternal
  split_ifs
  · exact .lost _
  · exact .lost _
  · exact hserves.requestOnce false
  cases hknown : server.known s (sha256hex options.query) with
  | some query =>
    obtain ⟨hhash, hmem⟩ := hhonest _ _ hknown
    obtain rfl : query = options.query := hinj hmem hquery hhash
    exact (requestPersisted_known hserves hknown).2
  | none =>
    obtain ⟨hrefused, hexecuted⟩ := hserves.unknown (options.queryVariables.getD Map.empty) _ s hknown
    simp only [requestPersisted, hashOnly]
    generalize executeGraphQLRequest fetchWithTimeout _ s = first at hrefused hexecuted ⊢
    rw [← hexecuted]
    obtain ⟨result, s'⟩ := first
    simp only at hrefused ⊢
    cases hrefused with
    | notFound body hbody =>
      simp only [Except.bind, hbody]
      exact hserves.requestOnce true
    | lost error => exact .lost error

/-- The server learns nothing but the hash of the query. -/
theorem Honest.execute (hserves : Serves fetchWithTimeout server) (hhonest : Honest server sha256hex queries s)
    (hquery : ∀ query hash, payload.query = some query → payload.sha256Hash = some hash →
      sha256hex query = hash ∧ query ∈ queries) :
    Honest server sha256hex queries (executeGraphQLRequest fetchWithTimeout payload s).2 := by
  intro hash query hknown
  rcases hserves.learns payload s hash query hknown with h | ⟨htext, hhash⟩
  · exact hhonest hash query h
  · exact hquery query hash htext hhash

theorem Honest.fullText (hserves : Serves fetchWithTimeout server) (hhonest : Honest server sha256hex queries s)
    (hquery : options.query ∈ queries) (persist : Bool) :
    Honest server sha256hex queries
      (requestOnce fetchWithTimeout (fullText sha256hex persist options) s).state := by
  apply hhonest.execute hserves
  intro query hash htext hhash
  cases persist with
  | false => cases hhash
  | true =>
    cases htext
    cases hhash
    exact ⟨rfl, hquery⟩

theorem Honest.queryInternal (hserves : Serves fetchWithTimeout server)
    (hhonest : Honest server sha256hex queries s) (hquery : options.query ∈ queries) :
    Honest server sha256hex queries
      (queryInternal fetchWithTimeout sha256hex isDestroyed options s).state := by
  have hfirst : Honest server sha256hex queries
      (executeGraphQLRequest fetchWithTimeout (hashOnly sha256hex options) s).2 :=
    hhonest.execute hserves fun query hash htext _ => by cases htext
  unfold StreamFi.queryInternal
  split_ifs
  · exact hhonest
  · exact hhonest
  · exact hhonest.fullText hserves hquery false
  · simp only [requestPersisted]
    split
    · exact hfirst
    · exact hfirst
    · exact hfirst.fullText hserves hquery true

/-! ## Runs -/

variable (fetchWithTimeout server sha256hex) in
/-- Calls one after the other, each with what it came to. Between two calls the server may forget. -/
inductive QueryRun (s : σ) : List (GraphQLQueryOptions ι × QueryCall ι σ) → ℕ → σ → Prop where
  | nil : QueryRun s [] 0 s
  | call {calls forgets s'} (isDestroyed : Bool) (options : GraphQLQueryOptions ι) : QueryRun s calls forgets s' →
    QueryRun s (calls ++ [(options, queryInternal fetchWithTimeout sha256hex isDestroyed options s')]) forgets
      (queryInternal fetchWithTimeout sha256hex isDestroyed options s').state
  | forget {calls forgets s'} (s'' : σ) : QueryRun s calls forgets s' → server.executed s'' = server.executed s' →
    (∀ hash query, server.known s'' hash = some query → server.known s' hash = some query) →
    QueryRun s calls (forgets + 1) s''

/-- The operation of a call, with its result. -/
def callOutcome (call : GraphQLQueryOptions ι × QueryCall ι σ) :
    GraphQLOperation ι × Except Thrown (Option Json) := (call.1.operation, call.2.result)

/-- The hashes stay those of the queries. -/
theorem Honest.run {calls : List (GraphQLQueryOptions ι × QueryCall ι σ)} {forgets : ℕ}
    (hserves : Serves fetchWithTimeout server) (hhonest : Honest server sha256hex queries s)
    (hrun : QueryRun fetchWithTimeout server sha256hex s calls forgets s')
    (hqueries : ∀ call ∈ calls, call.1.query ∈ queries) : Honest server sha256hex queries s' := by
  induction hrun with
  | nil => exact hhonest
  | call isDestroyed options _ ih =>
    exact (ih fun call hcall => hqueries call (List.mem_append_left _ hcall)).queryInternal hserves
      (hqueries _ (List.mem_append_right _ List.mem_cons_self))
  | forget _ _ _ hkept ih => exact fun hash query hknown => ih hqueries hash query (hkept hash query hknown)

/-- Operations that were all answered with data were all run. -/
theorem Once.executed {log : List (GraphQLOperation ι × Except Thrown (Option Json))} (honce : Once server h log h')
    (hok : ∀ outcome ∈ log, outcome.2.isOk = true) : h' = h ++ log.map Prod.fst := by
  induction honce with
  | nil => simp
  | call _ hsettled ih =>
    rw [List.map_append, ← List.append_assoc, ← ih fun outcome h => hok outcome (List.mem_append_left _ h)]
    have hlast := hok _ (List.mem_append_right _ List.mem_cons_self)
    cases hsettled with
    | answered => rfl
    | unheard error => cases hlast
    | lost error => cases hlast

/-- **A run of calls** is a list of operations that are each run at most once and in order; a call that
is not lost gets the answer of its operation at its place. The hash in the place of the query changes nothing.
When all calls give data, each operation has been run exactly once. -/
theorem queryRun_once {calls : List (GraphQLQueryOptions ι × QueryCall ι σ)} {forgets : ℕ}
    (hserves : Serves fetchWithTimeout server) (hinj : Set.InjOn sha256hex queries)
    (hhonest : Honest server sha256hex queries s)
    (hrun : QueryRun fetchWithTimeout server sha256hex s calls forgets s')
    (hqueries : ∀ call ∈ calls, call.1.query ∈ queries) :
    Once server (server.executed s) (calls.map callOutcome) (server.executed s') ∧
      ((∀ call ∈ calls, call.2.result.isOk = true) →
        server.executed s' = server.executed s ++ calls.map fun call => call.1.operation) := by
  have honce : Once server (server.executed s) (calls.map callOutcome) (server.executed s') := by
    induction hrun with
    | nil => exact .nil
    | call isDestroyed options hrun ih =>
      have hbefore := fun call hcall => hqueries call (List.mem_append_left _ hcall)
      rw [List.map_append, List.map_singleton]
      exact .call (ih hbefore) (settled_queryInternal hserves hinj (hhonest.run hserves hrun hbefore)
        (hqueries _ (List.mem_append_right _ List.mem_cons_self)))
    | forget _ _ hexecuted _ ih =>
      rw [hexecuted]
      exact ih hqueries
  refine ⟨honce, fun hok => ?_⟩
  have hlog : ∀ outcome ∈ calls.map callOutcome, outcome.2.isOk = true := by
    intro outcome houtcome
    obtain ⟨call, hcall, rfl⟩ := List.mem_map.mp houtcome
    exact hok call hcall
  rw [honce.executed hlog, List.map_map]
  rfl

/-! ## Texts -/

variable (fetchWithTimeout server) in
/-- The server keeps the query of every hash that it got with its text, until it forgets. -/
structure Keeps : Prop where
  stores : ∀ query queryVariables hash s,
    (executeGraphQLRequest fetchWithTimeout ⟨some query, queryVariables, some hash⟩ s).1.isOk = true →
      server.known (executeGraphQLRequest fetchWithTimeout ⟨some query, queryVariables, some hash⟩ s).2 hash =
        some query
  keeps : ∀ payload s hash, (server.known s hash).isSome = true →
    (server.known (executeGraphQLRequest fetchWithTimeout payload s).2 hash).isSome = true

/-- A request that carries the text of a persisted query. -/
def carriesText (query : String) (payload : QueryPayload ι) : Bool :=
  payload.query = some query && payload.sha256Hash.isSome

def textsSent (query : String) (calls : List (GraphQLQueryOptions ι × QueryCall ι σ)) : ℕ :=
  (calls.map fun call => call.2.requests.countP (carriesText query)).sum

/-- The calls of a query that did not give data. -/
def callsFailed (query : String) (calls : List (GraphQLQueryOptions ι × QueryCall ι σ)) : ℕ :=
  calls.countP fun call => call.1.query = query && !call.2.result.isOk

variable (server sha256hex) in
/-- Whether the server knows the hash of a query, as a number. -/
def knownCount (query : String) (s : σ) : ℕ := (server.known s (sha256hex query)).isSome.toNat

variable (sha256hex) in
theorem Keeps.knownCount_le (hkeeps : Keeps fetchWithTimeout server) (query : String) (payload : QueryPayload ι)
    (s : σ) : knownCount server sha256hex query s ≤
      knownCount server sha256hex query (executeGraphQLRequest fetchWithTimeout payload s).2 :=
  Bool.toNat_le_toNat (Bool.le_iff_imp.mpr (hkeeps.keeps payload s _))

variable (sha256hex) in
/-- The text follows a hash that was not known; then the hash is known, or the call has failed. -/
theorem texts_second (hkeeps : Keeps fetchWithTimeout server) (options : GraphQLQueryOptions ι) (s : σ) :
    (requestOnce fetchWithTimeout (fullText sha256hex true options) s).requests.countP
        (carriesText options.query) ≤
      (!(requestOnce fetchWithTimeout (fullText sha256hex true options) s).result.isOk).toNat +
        knownCount server sha256hex options.query
          (requestOnce fetchWithTimeout (fullText sha256hex true options) s).state := by
  have hstores := hkeeps.stores options.query (options.queryVariables.getD Map.empty) (sha256hex options.query) s
  simp only [requestOnce, fullText, if_true, knownCount]
  cases hresult : (executeGraphQLRequest fetchWithTimeout ⟨some options.query,
      options.queryVariables.getD Map.empty, some (sha256hex options.query)⟩ s).1 with
  | error error => simp [Except.bind, Except.isOk, Except.toBool, carriesText]
  | ok body =>
    rw [hresult] at hstores
    rw [hstores rfl]
    simp [carriesText]

@[simp] theorem carriesText_hashOnly (query : String) :
    carriesText query (hashOnly sha256hex options) = false := by
  simp [carriesText, hashOnly]

variable (sha256hex options) in
theorem carriesText_fullText (query : String) (persist : Bool) :
    carriesText query (fullText sha256hex persist options) = (options.query = query && persist) := by
  cases persist <;> simp [carriesText, fullText]

variable (sha256hex options) in
/-- A persisted call forgets nothing. -/
theorem Keeps.knownCount_persisted (hkeeps : Keeps fetchWithTimeout server) (query : String) (s : σ) :
    knownCount server sha256hex query s ≤
      knownCount server sha256hex query (requestPersisted fetchWithTimeout sha256hex options s).state := by
  have hfirst := hkeeps.knownCount_le sha256hex query (hashOnly sha256hex options) s
  simp only [requestPersisted]
  split
  · exact hfirst
  · exact hfirst
  · exact hfirst.trans (hkeeps.knownCount_le sha256hex query _ _)

variable (isDestroyed options) in
/-- **A call sends the text** only where the hash is not known. -/
theorem texts_queryInternal (hserves : Serves fetchWithTimeout server) (hkeeps : Keeps fetchWithTimeout server)
    (hinj : Set.InjOn sha256hex queries) (hhonest : Honest server sha256hex queries s) {query : String}
    (hquery : query ∈ queries) :
    (queryInternal fetchWithTimeout sha256hex isDestroyed options s).requests.countP (carriesText query) +
        knownCount server sha256hex query s ≤
      (options.query = query && !(queryInternal fetchWithTimeout sha256hex isDestroyed options s).result.isOk).toNat +
        knownCount server sha256hex query
          (queryInternal fetchWithTimeout sha256hex isDestroyed options s).state := by
  unfold queryInternal
  split_ifs
  · simp
  · simp
  · have := hkeeps.knownCount_le sha256hex query (fullText sha256hex false options) s
    have hplain := carriesText_fullText sha256hex options query false
    simp only [requestOnce, List.countP_singleton, hplain, Bool.and_false, Bool.false_eq_true, if_false]
    omega
  have hkept := hkeeps.knownCount_persisted sha256hex options query s
  by_cases heq : options.query = query
  · subst heq
    cases hknown : server.known s (sha256hex options.query) with
    | some other =>
      -- the hash is that of no other query, and is all that is sent
      obtain ⟨hhash, hmem⟩ := hhonest _ _ hknown
      obtain rfl : other = options.query := hinj hmem hquery hhash
      rw [(requestPersisted_known hserves hknown).1]
      simp only [List.countP_singleton, carriesText_hashOnly, Bool.false_eq_true, if_false]
      omega
    | none =>
      have hzero : knownCount server sha256hex options.query s = 0 := by rw [knownCount, hknown]; rfl
      have hsecond := texts_second sha256hex hkeeps options
        (executeGraphQLRequest fetchWithTimeout (hashOnly sha256hex options) s).2
      rw [hzero, add_zero]
      simp only [requestPersisted, decide_true, Bool.true_and]
      split
      · simp
      · simp
      · rw [List.countP_cons_of_neg (by simp)]
        exact hsecond
  · have hnone : (requestPersisted fetchWithTimeout sha256hex options s).requests.countP (carriesText query) = 0 := by
      have hother := carriesText_fullText sha256hex options query true
      simp only [requestPersisted]
      split <;> simp [requestOnce, hother, heq]
    omega

/-- **The text of a persisted query is sent once**, and once more for each time that the server forgot
something or a call of the query failed. -/
theorem queryRun_texts {calls : List (GraphQLQueryOptions ι × QueryCall ι σ)} {forgets : ℕ}
    (hserves : Serves fetchWithTimeout server) (hkeeps : Keeps fetchWithTimeout server)
    (hinj : Set.InjOn sha256hex queries) (hhonest : Honest server sha256hex queries s)
    (hrun : QueryRun fetchWithTimeout server sha256hex s calls forgets s')
    (hqueries : ∀ call ∈ calls, call.1.query ∈ queries) {query : String} (hquery : query ∈ queries) :
    textsSent query calls ≤ forgets + callsFailed query calls + 1 := by
  have hle (s : σ) : knownCount server sha256hex query s ≤ 1 := Bool.toNat_le _
  suffices h : textsSent query calls ≤
      forgets + callsFailed query calls + knownCount server sha256hex query s' from
    h.trans (Nat.add_le_add_left (hle s') _)
  induction hrun with
  | nil => simp [textsSent]
  | call isDestroyed options hrun ih =>
    have hbefore := fun call hcall => hqueries call (List.mem_append_left _ hcall)
    have hcall := texts_queryInternal isDestroyed options hserves hkeeps hinj
      (hhonest.run hserves hrun hbefore) hquery
    have := ih hbefore
    have hfailed (b : Bool) : b.toNat = if b = true then 1 else 0 := by cases b <;> rfl
    rw [hfailed] at hcall
    simp only [textsSent, callsFailed, List.map_append, List.map_singleton, List.sum_append, List.sum_singleton,
      List.countP_append, List.countP_singleton] at this ⊢
    omega
  | @forget calls forgets before _ _ _ _ ih =>
    have := ih hqueries
    have := hle before
    omega

end Protocol

/-! ## A server in memory -/

/-- What such a server has run, and the queries by their hashes. -/
structure MemoryState where
  executed : List (GraphQLOperation Empty) := []
  queries : List (String × String) := []

/-- Each answer is the number of operations before it. -/
def memoryServer : PersistedServer Empty MemoryState where
  executed := MemoryState.executed
  known s hash := s.queries.lookup hash
  answer h _ := .object [("data", .number (.fin h.length))]

def MemoryState.run (s : MemoryState) (operation : GraphQLOperation Empty) :
    Except Thrown HttpResponse × MemoryState :=
  (.ok ⟨true, 200, "OK", .ok (memoryServer.answer s.executed operation)⟩,
    { s with executed := s.executed ++ [operation] })

def memoryFetch (payload : QueryPayload Empty) (s : MemoryState) : Except Thrown HttpResponse × MemoryState :=
  match payload.query, payload.sha256Hash with
  | some query, none => s.run (query, payload.queryVariables)
  | some query, some hash =>
    MemoryState.run { s with queries := (hash, query) :: s.queries } (query, payload.queryVariables)
  | none, some hash => match s.queries.lookup hash with
    | some query => s.run (query, payload.queryVariables)
    | none => (.ok ⟨true, 200, "OK", .ok (.object [("errors", .array [.object [("message", .string notFoundMark)]])])⟩,
        s)
  | none, none => (.ok ⟨false, 400, "Bad Request", throwNew "no body"⟩, s)

theorem memoryServer_serves : Serves memoryFetch memoryServer where
  text query queryVariables hash s := by cases hash <;> exact .answered
  known query queryVariables hash s hknown := by
    have hlookup : s.queries.lookup hash = some query := hknown
    simp only [executeGraphQLRequest, memoryFetch, hlookup]
    exact .answered
  unknown queryVariables hash s hknown := by
    have hlookup : s.queries.lookup hash = none := hknown
    simp only [executeGraphQLRequest, memoryFetch, hlookup]
    exact ⟨.notFound _ (by decide), trivial⟩
  learns payload s hash query hknown := by
    obtain ⟨text, queryVariables, sha256Hash⟩ := payload
    cases text with
    | some text => cases sha256Hash with
      | none => exact .inl hknown
      | some h =>
        have hlookup : List.lookup hash ((h, text) :: s.queries) = some query := hknown
        rw [List.lookup_cons] at hlookup
        split at hlookup
        · rename_i heq
          exact .inr ⟨hlookup, by rw [eq_of_beq heq]⟩
        · exact .inl hlookup
    | none => cases sha256Hash with
      | none => exact .inl hknown
      | some h =>
        cases hlookup : s.queries.lookup h <;>
          simp only [executeGraphQLRequest, memoryFetch, hlookup] at hknown <;> exact .inl hknown
  answers h operation := rfl

theorem memoryServer_keeps : Keeps memoryFetch memoryServer where
  stores query queryVariables hash s _ := by
    show List.lookup hash ((hash, query) :: s.queries) = some query
    simp
  keeps payload s hash hknown := by
    obtain ⟨text, queryVariables, sha256Hash⟩ := payload
    have hlookup : (s.queries.lookup hash).isSome = true := hknown
    cases text with
    | some text => cases sha256Hash with
      | none => exact hknown
      | some h =>
        show (List.lookup hash ((h, text) :: s.queries)).isSome = true
        rw [List.lookup_cons]
        split
        · rfl
        · exact hlookup
    | none => cases sha256Hash with
      | none => exact hknown
      | some h => cases hh : s.queries.lookup h <;> simp only [executeGraphQLRequest, memoryFetch, hh] <;> exact hknown

def askStreams : GraphQLQueryOptions Empty where
  query := "query { streams }"

def firstAnswer : QueryCall Empty MemoryState := queryInternal memoryFetch id false askStreams {}

def secondAnswer : QueryCall Empty MemoryState :=
  queryInternal memoryFetch id false askStreams { firstAnswer.state with queries := [] }

def twoCalls : List (GraphQLQueryOptions Empty × QueryCall Empty MemoryState) :=
  [(askStreams, firstAnswer), (askStreams, secondAnswer)]

/-- Two calls, and a server that forgets in between. -/
theorem memoryRun : QueryRun memoryFetch memoryServer id {} twoCalls 1 secondAnswer.state :=
  .call false askStreams (.forget { firstAnswer.state with queries := [] } (.call false askStreams .nil)
    rfl (by intro hash query h; cases h))

theorem memoryCalls (call : GraphQLQueryOptions Empty × QueryCall Empty MemoryState) (h : call ∈ twoCalls) :
    call.1.query ∈ ({askStreams.query} : Set String) := by
  simp only [twoCalls, List.mem_cons, List.not_mem_nil, or_false] at h
  rcases h with rfl | rfl <;> rfl

theorem queryRun_once_memory :
    Once memoryServer [] (twoCalls.map callOutcome) secondAnswer.state.executed ∧
      ((∀ call ∈ twoCalls, call.2.result.isOk = true) →
        secondAnswer.state.executed = [] ++ twoCalls.map fun call => call.1.operation) :=
  queryRun_once memoryServer_serves (Set.injOn_of_injective Function.injective_id)
    (by intro hash query h; cases h) memoryRun memoryCalls

theorem queryRun_texts_memory :
    textsSent askStreams.query twoCalls ≤ 1 + callsFailed askStreams.query twoCalls + 1 :=
  queryRun_texts memoryServer_serves memoryServer_keeps (Set.injOn_of_injective Function.injective_id)
    (by intro hash query h; cases h) memoryRun memoryCalls rfl

end StreamFi
