import StreamFi.Builder.Submit
import StreamFi.Indexer.Persisted
import StreamFi.Run.Pool

/-!
# The time a query may take

`query` waits for a hash, for a response and for its body, and perhaps for a second response and its body.
Each request has a timer and listens to the signal of the caller.

* `QueryState`, `QueryEvent`, `queryStep`: the code, one continuation at a time; `queryStart`: the call;
* `Tidy`: every request has its turn, timers and listeners are those of the request in flight;
* `queryReplay`, `resume`: `queryInternal` on given answers, and what is left of it; **`resume_run`**: every run
  follows it;
* **`query_run`**: what holds in every run of a call;
* **`reject_run`**: which error a failed request comes to, by what happened while it was in flight.
-/

namespace StreamFi

open Js Run

/-! ## The code -/

/-- `DEFAULT_INDEXER_TIMEOUT_MS`. -/
def defaultIndexerTimeoutMs : Number := .fin 15000

def indexerTimeoutError (endpoint : String) (timeoutMs : Number) : Thrown :=
  errorOf "IndexerTimeoutError"
    (s!"GraphQL indexer query to {endpoint} timed out after {numToText timeoutMs}ms. " ++
      "The query has been aborted.")

/-- What a call of `query` is made with. -/
structure QuerySettings (ι : Type) where
  endpoint : String
  isDestroyed : Bool
  options : GraphQLQueryOptions ι
  timeoutMs : Option Number
  hasSignal : Bool
  sha256hex : String → String

/-- What the call waits for. A request is the last one when no text can follow it. -/
inductive QueryPhase where
  | hashing
  | fetching (last : Bool)
  | reading (last : Bool) (response : HttpResponse)
  | settled (result : Except Thrown (Option Json))

/-- A call: the timer and the listener of `fetchWithTimeout`, `controller.signal.aborted` and
`callerSignal.aborted`, the requests that were sent and what became of them. -/
structure QueryState (ι : Type) where
  phase : QueryPhase
  timer : Bool := false
  listener : Bool := false
  aborted : Bool := false
  callerAborted : Bool
  requests : List (QueryPayload ι) := []
  answers : List (Except Thrown HttpResponse) := []

inductive QueryEvent where
  | hashed
  | timerFired
  | callerAbort
  | respond (response : HttpResponse)
  | reject (error : Thrown)
  | read

def QueryEvent.isTimer : QueryEvent → Bool
  | .timerFired => true
  | _ => false

def QueryEvent.isAbort : QueryEvent → Bool
  | .callerAbort => true
  | _ => false

section Code

variable {ι : Type} (c : QuerySettings ι)

def QuerySettings.effectiveTimeout : Number := c.timeoutMs.getD defaultIndexerTimeoutMs

def QuerySettings.useTimeout : Bool := c.effectiveTimeout.isFinite && (Number.fin 0).lt c.effectiveTimeout

def QuerySettings.persists : Bool := c.options.persist ≠ some false

def QuerySettings.payload (last : Bool) : QueryPayload ι :=
  if last then fullText c.sha256hex c.persists c.options else hashOnly c.sha256hex c.options

/-- `fetchWithTimeout`, up to its `await`. -/
def QueryState.issue (s : QueryState ι) (last : Bool) : QueryState ι :=
  if c.hasSignal && s.callerAborted then
    { s with
      phase := .settled (.error (operationAbortedError "GraphQLIndexer.query"))
      answers := s.answers ++ [.error (operationAbortedError "GraphQLIndexer.query")] }
  else
    { s with
      phase := .fetching last, timer := c.useTimeout, listener := c.hasSignal, aborted := false
      requests := s.requests ++ [c.payload last] }

/-- The `finally` of `fetchWithTimeout`, with what the request came to. -/
def QueryState.finish (s : QueryState ι) (answer : Except Thrown HttpResponse) : QueryState ι :=
  { s with timer := false, listener := false, answers := s.answers ++ [answer] }

/-- The `catch` of `fetchWithTimeout`. -/
def QueryState.caught (s : QueryState ι) (error : Thrown) : Thrown :=
  if c.useTimeout && s.aborted && !(c.hasSignal && s.callerAborted) then
    indexerTimeoutError c.endpoint c.effectiveTimeout
  else error

/-- What follows a body. -/
def QueryState.bodyRead (s : QueryState ι) (last : Bool) (body : Json) : QueryState ι :=
  if last then { s with phase := .settled (unwrapBody body) }
  else match isPersistedQueryNotFound body with
    | .error error => { s with phase := .settled (.error error) }
    | .ok false => { s with phase := .settled (unwrapBody body) }
    | .ok true => s.issue c true

/-- What the call does before it waits. -/
def queryStart (callerAborted : Bool) : QueryState ι :=
  if c.isDestroyed then
    { phase := .settled (throwNew "GraphQLIndexer has been destroyed"), callerAborted := callerAborted }
  else if trim c.options.query.toList = [] then
    { phase := .settled (throwNew "GraphQL query string cannot be null or empty"), callerAborted := callerAborted }
  else if c.persists then { phase := .hashing, callerAborted := callerAborted }
  else QueryState.issue c { phase := .hashing, callerAborted := callerAborted } true

/-- One continuation; `none` is one that cannot run now. -/
def queryStep (s : QueryState ι) : QueryEvent → Option (QueryState ι)
  | .hashed => match s.phase with
    | .hashing => some (s.issue c false)
    | _ => none
  | .timerFired => if s.timer then some { s with timer := false, aborted := true } else none
  | .callerAbort =>
    if c.hasSignal && !s.callerAborted then
      some { s with callerAborted := true, listener := false, aborted := s.aborted || s.listener }
    else none
  | .respond response => match s.phase with
    | .fetching last =>
      if response.ok then some { s.finish (.ok response) with phase := .reading last response }
      else some { s.finish (.ok response) with
        phase := .settled (throwNew s!"GraphQL query failed with status {response.status}: {response.statusText}") }
    | _ => none
  | .reject error => match s.phase with
    | .fetching _ => some { s.finish (.error (s.caught c error)) with phase := .settled (.error (s.caught c error)) }
    | _ => none
  | .read => match s.phase with
    | .reading last response => match response.json with
      | .error error => some { s with phase := .settled (.error error) }
      | .ok body => some (s.bodyRead c last body)
    | _ => none

end Code

section Runs

variable {ι : Type} {c : QuerySettings ι} {s s' : QueryState ι} {e : QueryEvent} {l : List QueryEvent}
  {callerAborted : Bool}

variable (c s) in
/-- The steps that can be taken. -/
inductive QueryMove : QueryEvent → QueryState ι → Prop where
  | hashed (h : s.phase = .hashing) : QueryMove .hashed (s.issue c false)
  | timerFired (h : s.timer = true) : QueryMove .timerFired { s with timer := false, aborted := true }
  | callerAbort (hsignal : c.hasSignal = true) (h : s.callerAborted = false) : QueryMove .callerAbort
      { s with callerAborted := true, listener := false, aborted := s.aborted || s.listener }
  | respond (last : Bool) (response : HttpResponse) (h : s.phase = .fetching last) (hok : response.ok = true) :
      QueryMove (.respond response) { s.finish (.ok response) with phase := .reading last response }
  | refuse (last : Bool) (response : HttpResponse) (h : s.phase = .fetching last) (hok : response.ok = false) :
      QueryMove (.respond response) { s.finish (.ok response) with
        phase := .settled (throwNew s!"GraphQL query failed with status {response.status}: {response.statusText}") }
  | reject (last : Bool) (error : Thrown) (h : s.phase = .fetching last) : QueryMove (.reject error)
      { s.finish (.error (s.caught c error)) with phase := .settled (.error (s.caught c error)) }
  | unreadable (last : Bool) (response : HttpResponse) (error : Thrown) (h : s.phase = .reading last response)
      (hjson : response.json = .error error) : QueryMove .read { s with phase := .settled (.error error) }
  | read (last : Bool) (response : HttpResponse) (body : Json) (h : s.phase = .reading last response)
      (hjson : response.json = .ok body) : QueryMove .read (s.bodyRead c last body)

theorem queryStep_move (h : queryStep c s e = some s') : QueryMove c s e s' := by
  cases e with
  | hashed =>
    simp only [queryStep] at h
    split at h
    · cases h
      exact .hashed ‹_›
    · cases h
  | timerFired =>
    rw [queryStep, Option.ite_none_right_eq_some] at h
    cases h.2
    exact .timerFired h.1
  | callerAbort =>
    rw [queryStep, Option.ite_none_right_eq_some, Bool.and_eq_true, Bool.not_eq_true'] at h
    cases h.2
    exact .callerAbort h.1.1 h.1.2
  | respond response =>
    simp only [queryStep] at h
    split at h
    · split_ifs at h <;> cases h
      · exact .respond _ response ‹_› ‹_›
      · exact .refuse _ response ‹_› (by simpa using ‹¬ response.ok = true›)
    · cases h
  | reject error =>
    simp only [queryStep] at h
    split at h
    · cases h
      exact .reject _ error ‹_›
    · cases h
  | read =>
    simp only [queryStep] at h
    split at h
    · split at h <;> cases h
      · exact .unreadable _ _ _ ‹_› ‹_›
      · exact .read _ _ _ ‹_› ‹_›
    · cases h

/-! ## The requests -/

variable (c) in
/-- The requests up to this one. -/
def QuerySettings.sent (last : Bool) : List (QueryPayload ι) :=
  if c.persists then if last then [c.payload false, c.payload true] else [c.payload false] else [c.payload true]

/-- The request whose response or body the call waits for. -/
def QueryPhase.request : QueryPhase → Option Bool
  | .fetching last | .reading last _ => some last
  | _ => none

variable (c s) in
/-- Every request has its turn; timers and listeners are those of the request in flight. -/
structure Tidy : Prop where
  hashing : s.phase = .hashing → c.persists = true ∧ s.requests = []
  waits : ∀ last, s.phase.request = some last → (last = false → c.persists = true) ∧ s.requests = c.sent last
  requests : s.requests <+: c.sent true
  timer : s.timer = true → ∃ last, s.phase = .fetching last
  listener : s.listener = true → ∃ last, s.phase = .fetching last

theorem sent_prefix (last : Bool) : c.sent last <+: c.sent true := by
  unfold QuerySettings.sent
  cases c.persists <;> cases last <;> simp

/-- After the hash, or after the body that asks for the text. -/
theorem Tidy.issue (htidy : Tidy c s) {last : Bool} (hlast : last = false → c.persists = true)
    (hsent : s.requests ++ [c.payload last] = c.sent last) (htimer : s.timer = false)
    (hlistener : s.listener = false) : Tidy c (s.issue c last) := by
  unfold QueryState.issue
  split_ifs
  · exact ⟨nofun, nofun, htidy.requests, by simp [htimer], by simp [hlistener]⟩
  · refine ⟨nofun, fun other h => ?_, hsent ▸ sent_prefix last, fun _ => ⟨last, rfl⟩, fun _ => ⟨last, rfl⟩⟩
    cases h
    exact ⟨hlast, hsent⟩

theorem Tidy.calm (htidy : Tidy c s) (h : ∀ last, s.phase ≠ .fetching last) :
    s.timer = false ∧ s.listener = false := by
  constructor
  · by_contra htimer
    obtain ⟨last, hlast⟩ := htidy.timer (by simpa using htimer)
    exact h last hlast
  · by_contra hlistener
    obtain ⟨last, hlast⟩ := htidy.listener (by simpa using hlistener)
    exact h last hlast

theorem Tidy.settle (htidy : Tidy c s) (h : ∀ last, s.phase ≠ .fetching last)
    (result : Except Thrown (Option Json)) : Tidy c { s with phase := .settled result } := by
  obtain ⟨htimer, hlistener⟩ := htidy.calm h
  exact ⟨nofun, nofun, htidy.requests, by simp [htimer], by simp [hlistener]⟩

theorem Tidy.bodyRead (htidy : Tidy c s) {last : Bool} {response : HttpResponse}
    (h : s.phase = .reading last response) (body : Json) : Tidy c (s.bodyRead c last body) := by
  have hphase (other : Bool) : s.phase ≠ .fetching other := by simp [h]
  unfold QueryState.bodyRead
  split_ifs with hlast
  · exact htidy.settle hphase _
  split
  · exact htidy.settle hphase _
  · exact htidy.settle hphase _
  · obtain ⟨hpersists, hsent⟩ := htidy.waits last (by rw [h]; rfl)
    simp only [Bool.not_eq_true] at hlast
    refine htidy.issue (by simp) ?_ (htidy.calm hphase).1 (htidy.calm hphase).2
    simp [hsent, QuerySettings.sent, hpersists hlast, hlast]

theorem tidy_queryStart : Tidy c (queryStart c callerAborted) := by
  unfold queryStart
  split_ifs with _ _ hpersists
  · exact ⟨nofun, nofun, List.nil_prefix, nofun, nofun⟩
  · exact ⟨nofun, nofun, List.nil_prefix, nofun, nofun⟩
  · exact ⟨fun _ => ⟨hpersists, rfl⟩, nofun, List.nil_prefix, nofun, nofun⟩
  · have hsent : c.sent true = [c.payload true] := by simp [QuerySettings.sent, hpersists]
    unfold QueryState.issue
    split_ifs
    · exact ⟨nofun, nofun, List.nil_prefix, nofun, nofun⟩
    · refine ⟨nofun, fun last h => ?_, by simp [hsent], fun _ => ⟨true, rfl⟩, fun _ => ⟨true, rfl⟩⟩
      cases h
      exact ⟨nofun, hsent.symm⟩

theorem Tidy.step (htidy : Tidy c s) (h : queryStep c s e = some s') : Tidy c s' := by
  cases queryStep_move h with
  | hashed hphase =>
    obtain ⟨hpersists, hnone⟩ := htidy.hashing hphase
    obtain ⟨htimer, hlistener⟩ := htidy.calm (by simp [hphase])
    exact htidy.issue (fun _ => hpersists) (by simp [hnone, QuerySettings.sent, hpersists]) htimer hlistener
  | timerFired _ => exact ⟨htidy.hashing, htidy.waits, htidy.requests, nofun, htidy.listener⟩
  | callerAbort _ _ => exact ⟨htidy.hashing, htidy.waits, htidy.requests, htidy.timer, nofun⟩
  | respond last response hphase _ =>
    refine ⟨nofun, fun other hother => ?_, htidy.requests, nofun, nofun⟩
    cases hother
    exact htidy.waits last (by rw [hphase]; rfl)
  | refuse last response hphase _ => exact ⟨nofun, nofun, htidy.requests, nofun, nofun⟩
  | reject last error hphase => exact ⟨nofun, nofun, htidy.requests, nofun, nofun⟩
  | unreadable last response error hphase _ => exact htidy.settle (by simp [hphase]) _
  | read last response body hphase _ => exact htidy.bodyRead hphase body

theorem tidy_run (h : run (queryStep c) (queryStart c callerAborted) l = some s) : Tidy c s :=
  run_induction (P := fun s _ => Tidy c s) tidy_queryStart (fun _ _ _ _ htidy => htidy.step) h

/-! ## The code in one piece -/

/-- The answers in their order, in the place of `fetchWithTimeout`. -/
def replayAnswer (_ : QueryPayload ι) (answers : List (Except Thrown HttpResponse)) :
    Except Thrown HttpResponse × List (Except Thrown HttpResponse) :=
  (answers.headD (throwNew "no answer"), answers.tail)

variable (c) in
/-- `queryInternal`, on given answers. -/
def queryReplay (answers : List (Except Thrown HttpResponse)) : Except Thrown (Option Json) :=
  (queryInternal replayAnswer c.sha256hex c.isDestroyed c.options answers).result

variable (c) in
/-- What is left of `queryInternal` while the call waits. -/
def resume : QueryPhase → List (Except Thrown HttpResponse) → Except Thrown (Option Json)
  | .hashing, answers | .fetching false, answers => (requestPersisted replayAnswer c.sha256hex c.options answers).result
  | .fetching true, answers => (requestOnce replayAnswer (c.payload true) answers).result
  | .reading true response, _ => response.json.bind unwrapBody
  | .reading false response, answers => response.json.bind fun body => (isPersistedQueryNotFound body).bind fun
    | true => (requestOnce replayAnswer (c.payload true) answers).result
    | false => unwrapBody body
  | .settled result, _ => result

theorem executeGraphQLRequest_replay (payload : QueryPayload ι) (answer : Except Thrown HttpResponse)
    (answers : List (Except Thrown HttpResponse)) :
    executeGraphQLRequest replayAnswer payload (answer :: answers) =
      (answer.bind fun response => if response.ok then response.json
        else throwNew s!"GraphQL query failed with status {response.status}: {response.statusText}", answers) := rfl

theorem resume_fetching_error (last : Bool) (error : Thrown) (answers : List (Except Thrown HttpResponse)) :
    resume c (.fetching last) (.error error :: answers) = .error error := by
  cases last <;> simp [resume, requestPersisted, requestOnce, executeGraphQLRequest_replay, Except.bind]

theorem resume_fetching_bad (last : Bool) {response : HttpResponse} (h : response.ok = false)
    (answers : List (Except Thrown HttpResponse)) :
    resume c (.fetching last) (.ok response :: answers) =
      throwNew s!"GraphQL query failed with status {response.status}: {response.statusText}" := by
  cases last <;>
    simp [resume, requestPersisted, requestOnce, executeGraphQLRequest_replay, Except.bind, h, throwNew]

/-- A response moves both on to its body. -/
theorem resume_fetching_ok (last : Bool) {response : HttpResponse} (h : response.ok = true)
    (hlast : last = false → c.persists = true) (answers : List (Except Thrown HttpResponse)) :
    resume c (.fetching last) (.ok response :: answers) = resume c (.reading last response) answers := by
  cases last with
  | true => simp [resume, requestOnce, executeGraphQLRequest_replay, Except.bind, h]
  | false =>
    have hpayload : c.payload true = fullText c.sha256hex true c.options := by
      rw [QuerySettings.payload, if_pos rfl, hlast rfl]
    simp only [resume, requestPersisted, executeGraphQLRequest_replay, Except.bind, h, if_true, hpayload]
    cases response.json with
    | error error => rfl
    | ok body =>
      simp only
      rcases isPersistedQueryNotFound body with error | (_ | _) <;> rfl

/-- What a step adds to the answers is what the rest of the code reads. -/
def Follows (c : QuerySettings ι) (s s' : QueryState ι) : Prop :=
  ∃ new, s'.answers = s.answers ++ new ∧ ∀ answers, resume c s.phase (new ++ answers) = resume c s'.phase answers

theorem follows_issue (last : Bool)
    (hphase : ∀ answers, resume c s.phase answers = resume c (.fetching last) answers) :
    Follows c s (s.issue c last) := by
  unfold QueryState.issue
  split_ifs
  · refine ⟨[_], rfl, fun answers => ?_⟩
    rw [hphase]
    exact resume_fetching_error last _ answers
  · exact ⟨[], (List.append_nil _).symm, hphase⟩

theorem follows_bodyRead {last : Bool} {response : HttpResponse} {body : Json}
    (h : s.phase = .reading last response) (hjson : response.json = .ok body) :
    Follows c s (s.bodyRead c last body) := by
  have hsettle (result : Except Thrown (Option Json)) (hresult : ∀ answers, resume c s.phase answers = result) :
      Follows c s { s with phase := .settled result } := ⟨[], (List.append_nil _).symm, hresult⟩
  unfold QueryState.bodyRead
  cases last with
  | true => exact hsettle _ fun answers => by simp [h, resume, hjson, Except.bind]
  | false =>
    simp only [Bool.false_eq_true, if_false]
    split
    case h_1 error hbody => exact hsettle _ fun answers => by simp [h, resume, hjson, hbody, Except.bind]
    case h_2 hbody => exact hsettle _ fun answers => by simp [h, resume, hjson, hbody, Except.bind]
    case h_3 hbody => exact follows_issue true fun answers => by simp [h, resume, hjson, hbody, Except.bind]

theorem follows_step (htidy : Tidy c s) (h : queryStep c s e = some s') : Follows c s s' := by
  cases queryStep_move h with
  | hashed hphase => exact follows_issue false fun answers => by rw [hphase]; rfl
  | timerFired _ => exact ⟨[], (List.append_nil _).symm, fun _ => rfl⟩
  | callerAbort _ _ => exact ⟨[], (List.append_nil _).symm, fun _ => rfl⟩
  | respond last response hphase hok =>
    refine ⟨[.ok response], rfl, fun answers => ?_⟩
    rw [hphase]
    exact resume_fetching_ok last hok (htidy.waits last (by rw [hphase]; rfl)).1 answers
  | refuse last response hphase hok =>
    refine ⟨[.ok response], rfl, fun answers => ?_⟩
    rw [hphase]
    exact resume_fetching_bad last hok answers
  | reject last error hphase =>
    refine ⟨[.error (s.caught c error)], rfl, fun answers => ?_⟩
    rw [hphase]
    exact resume_fetching_error last _ answers
  | unreadable last response error hphase hjson =>
    refine ⟨[], (List.append_nil _).symm, fun answers => ?_⟩
    cases last <;> simp [hphase, resume, hjson, Except.bind]
  | read last response body hphase hjson => exact follows_bodyRead hphase hjson

theorem follows_start (answers : List (Except Thrown HttpResponse)) :
    queryReplay c ((queryStart c callerAborted).answers ++ answers) =
      resume c (queryStart c callerAborted).phase answers := by
  have hpersists : c.persists = decide (c.options.persist ≠ some false) := rfl
  unfold queryReplay queryInternal queryStart
  split_ifs with hdestroyed hempty hplain hhash hhash
  · rfl
  · rfl
  · simp [hpersists, hplain] at hhash
  · have hpayload : c.payload true = fullText c.sha256hex false c.options := by
      rw [QuerySettings.payload, if_pos rfl, Bool.eq_false_iff.mpr hhash]
    unfold QueryState.issue
    split_ifs
    · rfl
    · simp [resume, hpayload]
  · rfl
  · simp [hpersists, hplain] at hhash

/-- **A run reads its answers as the code in one piece does.** -/
theorem resume_run (h : run (queryStep c) (queryStart c callerAborted) l = some s)
    (answers : List (Except Thrown HttpResponse)) :
    queryReplay c (s.answers ++ answers) = resume c s.phase answers := by
  have hrun : Tidy c s ∧ ∀ answers, queryReplay c (s.answers ++ answers) = resume c s.phase answers := by
    refine run_induction (P := fun s _ => Tidy c s ∧ ∀ answers, queryReplay c (s.answers ++ answers) =
      resume c s.phase answers) ⟨tidy_queryStart, follows_start⟩ ?_ h
    rintro s l e s' ⟨htidy, hresume⟩ hstep
    refine ⟨htidy.step hstep, fun answers => ?_⟩
    obtain ⟨new, hnew, hfollows⟩ := follows_step htidy hstep
    rw [hnew, List.append_assoc, hresume, hfollows]
  exact hrun.2 answers

/-! ## The caller's signal -/

/-- Once the caller has aborted, nothing more is sent. -/
theorem requests_step (hsignal : c.hasSignal = true) (haborted : s.callerAborted = true)
    (h : queryStep c s e = some s') : s'.callerAborted = true ∧ s'.requests = s.requests := by
  have hissue (last : Bool) : (s.issue c last).callerAborted = true ∧ (s.issue c last).requests = s.requests := by
    simp [QueryState.issue, hsignal, haborted]
  cases queryStep_move h with
  | hashed _ => exact hissue false
  | timerFired _ => exact ⟨haborted, rfl⟩
  | callerAbort _ hnot => exact absurd haborted (by simp [hnot])
  | respond _ _ _ _ => exact ⟨haborted, rfl⟩
  | refuse _ _ _ _ => exact ⟨haborted, rfl⟩
  | reject _ _ _ => exact ⟨haborted, rfl⟩
  | unreadable _ _ _ _ _ => exact ⟨haborted, rfl⟩
  | read last response body _ _ =>
    unfold QueryState.bodyRead
    split_ifs
    · exact ⟨haborted, rfl⟩
    split
    · exact ⟨haborted, rfl⟩
    · exact ⟨haborted, rfl⟩
    · exact hissue true

theorem requests_callerAbort (h : run (queryStep c) s (.callerAbort :: l) = some s') : s'.requests = s.requests := by
  obtain ⟨s₁, hfirst, hrest⟩ := Option.bind_eq_some_iff.mp h
  cases queryStep_move hfirst with
  | callerAbort hsignal _ =>
    refine (run_induction (P := fun s₂ _ => s₂.callerAborted = true ∧ s₂.requests = s.requests) ⟨rfl, rfl⟩
      ?_ hrest).2
    rintro s₂ l e s₃ ⟨haborted, hsame⟩ hstep
    obtain ⟨h₁, h₂⟩ := requests_step hsignal haborted hstep
    exact ⟨h₁, h₂.trans hsame⟩

/-- **A call of `query`.** It sends the hash and then the text, or the text alone, and stops there or before.
A timer or a listener is that of a request in flight: no body is under a deadline. The result is that of the code
in one piece on the same answers. After the caller has aborted, nothing is sent. -/
theorem query_run (h : run (queryStep c) (queryStart c callerAborted) l = some s) :
    s.requests <+: c.sent true ∧
      (s.timer = true ∨ s.listener = true → ∃ last, s.phase = .fetching last) ∧
      (∀ result, s.phase = .settled result → result = queryReplay c s.answers) ∧
      ∀ before after s₁, l = before ++ .callerAbort :: after →
        run (queryStep c) (queryStart c callerAborted) before = some s₁ → s.requests = s₁.requests := by
  have htidy := tidy_run h
  refine ⟨htidy.requests, ?_, fun result hresult => ?_, ?_⟩
  · rintro (htimer | hlistener)
    · exact htidy.timer htimer
    · exact htidy.listener hlistener
  · have hresume := resume_run h []
    rw [hresult, List.append_nil] at hresume
    exact hresume.symm
  · rintro before after s₁ rfl hbefore
    rw [run_append, hbefore] at h
    exact requests_callerAbort h

/-! ## Which error a failure is -/

/-- What happened to the signals since the request in flight was sent. -/
def inFlight (l : List QueryEvent) : List QueryEvent :=
  l.reverse.takeWhile fun e => e.isTimer || e.isAbort

/-- The timer of the request in flight fired, and the caller never aborted. -/
def timedOut (l : List QueryEvent) : Bool := (inFlight l).any QueryEvent.isTimer && !l.any QueryEvent.isAbort

theorem inFlight_concat (l : List QueryEvent) (e : QueryEvent) :
    inFlight (l ++ [e]) = if e.isTimer || e.isAbort then e :: inFlight l else [] := by
  simp [inFlight, List.takeWhile_cons]

variable (c s l callerAborted) in
/-- The signals of a call, by what happened to them. -/
structure Signalled : Prop where
  caller : (c.hasSignal && s.callerAborted) = (c.hasSignal && callerAborted || l.any QueryEvent.isAbort)
  waits : ∀ last, s.phase.request = some last → (c.hasSignal && callerAborted) = false
  listener : ∀ last, s.phase = .fetching last → s.listener = (c.hasSignal && !s.callerAborted)
  aborted : ∀ last, s.phase = .fetching last →
    s.aborted = ((inFlight l).any QueryEvent.isTimer || (inFlight l).any QueryEvent.isAbort)
  timer : ∀ last, s.phase = .fetching last → s.timer = true ∨ (inFlight l).any QueryEvent.isTimer = true →
    c.useTimeout = true

theorem Signalled.issue (hcaller : (c.hasSignal && s.callerAborted) =
    (c.hasSignal && callerAborted || l.any QueryEvent.isAbort)) (hcalm : inFlight l = []) (last : Bool) :
    Signalled c (s.issue c last) l callerAborted := by
  unfold QueryState.issue
  split_ifs with hstop
  · exact ⟨hcaller, nofun, nofun, nofun, nofun⟩
  · rw [Bool.not_eq_true] at hstop
    refine ⟨hcaller, fun _ _ => ?_, fun _ _ => ?_, fun _ _ => ?_, fun _ _ => ?_⟩
    · rw [hstop] at hcaller
      exact (Bool.or_eq_false_iff.mp hcaller.symm).1
    · cases hsignal : c.hasSignal
      · rfl
      · simpa [hsignal] using hstop
    · simp [hcalm]
    · simp [hcalm]

/-- What is no signal, and leads to no request. -/
theorem Signalled.quiet (hsig : Signalled c s l callerAborted) (he : e.isAbort = false)
    (haborted : s'.callerAborted = s.callerAborted)
    (hfetching : ∀ last, s'.phase ≠ .fetching last)
    (hrequest : ∀ last, s'.phase.request = some last → s.phase.request = some last) :
    Signalled c s' (l ++ [e]) callerAborted := by
  refine ⟨?_, fun last h => hsig.waits last (hrequest last h), fun last h => absurd h (hfetching last),
    fun last h => absurd h (hfetching last), fun last h => absurd h (hfetching last)⟩
  simp [haborted, hsig.caller, he]

theorem Signalled.step (hsig : Signalled c s l callerAborted) (h : queryStep c s e = some s') :
    Signalled c s' (l ++ [e]) callerAborted := by
  cases queryStep_move h with
  | hashed _ => exact .issue (by simp [hsig.caller, QueryEvent.isAbort]) (inFlight_concat l _) false
  | timerFired htimer =>
    refine ⟨by simp [hsig.caller, QueryEvent.isAbort], hsig.waits, hsig.listener, fun last hlast => ?_,
      fun last hlast _ => hsig.timer last hlast (.inl htimer)⟩
    simp [inFlight_concat, QueryEvent.isTimer]
  | callerAbort hsignal hnot =>
    refine ⟨by simp [hsignal, QueryEvent.isAbort], hsig.waits, fun last hlast => ?_, fun last hlast => ?_,
      fun last hlast htimer => ?_⟩
    · simp
    · have hlistener := hsig.listener last hlast
      simp [inFlight_concat, QueryEvent.isTimer, QueryEvent.isAbort, hlistener, hsignal, hnot]
    · have hflight : inFlight (l ++ [.callerAbort]) = .callerAbort :: inFlight l := inFlight_concat l _
      rw [hflight, List.any_cons] at htimer
      exact hsig.timer last hlast htimer
  | respond last response hphase _ =>
    refine hsig.quiet rfl rfl nofun fun other hother => ?_
    cases hother
    rw [hphase]
    rfl
  | refuse _ _ _ _ => exact hsig.quiet rfl rfl nofun nofun
  | reject _ _ _ => exact hsig.quiet rfl rfl nofun nofun
  | unreadable _ _ _ _ _ => exact hsig.quiet rfl rfl nofun nofun
  | read last response body _ _ =>
    unfold QueryState.bodyRead
    split_ifs
    · exact hsig.quiet rfl rfl nofun nofun
    split
    · exact hsig.quiet rfl rfl nofun nofun
    · exact hsig.quiet rfl rfl nofun nofun
    · exact .issue (by simp [hsig.caller, QueryEvent.isAbort]) (inFlight_concat l _) true

theorem signalled_queryStart : Signalled c (queryStart c callerAborted) [] callerAborted := by
  unfold queryStart
  split_ifs
  · exact ⟨by simp, nofun, nofun, nofun, nofun⟩
  · exact ⟨by simp, nofun, nofun, nofun, nofun⟩
  · exact ⟨by simp, nofun, nofun, nofun, nofun⟩
  · exact .issue (by simp) rfl true

theorem signalled_run (h : run (queryStep c) (queryStart c callerAborted) l = some s) :
    Signalled c s l callerAborted :=
  run_induction (P := fun s l => Signalled c s l callerAborted) signalled_queryStart
    (fun _ _ _ _ hsig => hsig.step) h

/-- **Which error a failed request is**: a timeout when its timer fired and the caller never aborted, and else
the error that the request failed with. -/
theorem reject_run {error : Thrown}
    (h : run (queryStep c) (queryStart c callerAborted) (l ++ [.reject error]) = some s) :
    s.phase = .settled (.error
      (if timedOut l then indexerTimeoutError c.endpoint c.effectiveTimeout else error)) := by
  obtain ⟨s₁, hrun, hstep⟩ := run_concat_iff.mp h
  have hsig := signalled_run hrun
  cases queryStep_move hstep with
  | reject last error hphase =>
    have hcaller := hsig.caller
    have haborted := hsig.aborted last hphase
    have htimer := hsig.timer last hphase
    rw [hsig.waits last (by rw [hphase]; rfl), Bool.false_or] at hcaller
    have hsub : (inFlight l).any QueryEvent.isAbort = true → l.any QueryEvent.isAbort = true := by
      simp only [List.any_eq_true]
      rintro ⟨e, he, habort⟩
      exact ⟨e, List.mem_reverse.mp (List.takeWhile_subset _ he), habort⟩
    simp only [QueryState.caught, timedOut, hcaller, haborted]
    congr 3
    cases hany : l.any QueryEvent.isAbort with
    | true => simp
    | false =>
      rw [hany] at hsub
      grind

end Runs

/-! ## A slow server -/

def slowQuery : QuerySettings Empty where
  endpoint := "https://indexer.example/graphql"
  isDestroyed := false
  options := askStreams
  timeoutMs := none
  hasSignal := true
  sha256hex := id

def notFoundResponse : HttpResponse :=
  ⟨true, 200, "OK", .ok (.object [("errors", .array [.object [("message", .string notFoundMark)]])])⟩

/-- The hash is not known, and the text takes too long. -/
def slowLog : List QueryEvent := [.hashed, .respond notFoundResponse, .read, .timerFired]

def slowState (l : List QueryEvent) : QueryState Empty :=
  (run (queryStep slowQuery) (queryStart slowQuery false) (slowLog ++ l)).getD (queryStart slowQuery false)

theorem slowRun {l : List QueryEvent}
    (h : (run (queryStep slowQuery) (queryStart slowQuery false) (slowLog ++ l)).isSome = true) :
    run (queryStep slowQuery) (queryStart slowQuery false) (slowLog ++ l) = some (slowState l) := by
  obtain ⟨s, hs⟩ := Option.isSome_iff_exists.mp h
  rw [slowState, hs, Option.getD_some]

theorem query_run_slow :
    let s := slowState [.callerAbort, .reject (errorOf "AbortError" "aborted")]
    s.requests <+: slowQuery.sent true ∧
      (s.timer = true ∨ s.listener = true → ∃ last, s.phase = .fetching last) ∧
      (∀ result, s.phase = .settled result → result = queryReplay slowQuery s.answers) ∧
      s.requests = (slowState []).requests := by
  intro s
  obtain ⟨h₁, h₂, h₃, h₄⟩ := query_run
    (slowRun (l := [.callerAbort, .reject (errorOf "AbortError" "aborted")]) (by decide))
  exact ⟨h₁, h₂, h₃, h₄ (slowLog ++ []) [.reject (errorOf "AbortError" "aborted")] _ rfl (slowRun (by decide))⟩

theorem reject_run_slow :
    (slowState [.reject (errorOf "AbortError" "aborted")]).phase =
      .settled (.error (indexerTimeoutError slowQuery.endpoint slowQuery.effectiveTimeout)) :=
  reject_run (slowRun (by decide))

end StreamFi
