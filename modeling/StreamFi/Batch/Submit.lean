import StreamFi.Batch.Build
import StreamFi.Run.Log

/-!
# Submitting a batch

`submitBatch` signs, sends and polls one transaction at a time and stops at the first that is not
confirmed. The environment is a script: what the signer, the node and the abort signal say at each
point where they are asked.

* `pollLoop`, `submitOne`, `submitBatch`: the code, with a log of what it did;
* `Confirms`: the answers under which one transaction is confirmed, and `submitOne_spec`;
* **`submitAll_invariant`**: what holds after every prefix of the batch;
* **`submitBatch_sequential`**: the shape of the outcomes and the order of the sends.
-/

namespace StreamFi

open Js Run

/-! ## Data -/

inductive BatchTxStatus where
  | success
  | failed
  | skipped
  | error
  deriving DecidableEq

structure BatchTxOutcome where
  index : ℕ
  method : String
  status : BatchTxStatus
  txHash : Option String := none
  error : Option String := none
  dryRun : Option Bool := none
  deriving DecidableEq

structure BatchSubmitResult where
  allSucceeded : Bool
  firstFailureIndex : ℤ
  outcomes : List BatchTxOutcome
  successCount : ℕ
  failureCount : ℕ
  deriving DecidableEq

structure BatchSubmitOptions where
  maxPollAttempts : Option ℕ := none
  networkPassphrase : Option String := none
  sign : Bool := false
  dryRun : Bool := false
  throwOnError : Bool := false
  throwOnPartial : Bool := false

def defaultSubmitMaxPollAttempts : ℕ := 30

/-- The node's answer to `sendTransaction`; `errorResult` as JSON text. -/
structure SendTransactionResponse where
  isError : Bool
  errorResult : Option String
  hash : String
  deriving DecidableEq

inductive GetTransactionStatus where
  | notFound
  | success
  | failed
  deriving DecidableEq

/-- What is answered for the transaction at a position, at each poll attempt. -/
structure SubmitAnswers where
  aborted : ℕ → Bool
  sign : ℕ → String → Except Thrown String
  sendTransaction : ℕ → Except Thrown SendTransactionResponse
  abortedPolling : ℕ → ℕ → Bool
  getTransaction : ℕ → ℕ → Except Thrown GetTransactionStatus

/-- What `submitBatch` does, by position. -/
inductive SubmitEvent where
  | sign (i : ℕ)
  | send (i : ℕ)
  | poll (i : ℕ) (status : Option GetTransactionStatus)
  | outcome (i : ℕ) (status : BatchTxStatus)
  deriving DecidableEq

/-! ## The code -/

inductive PollEnd where
  | success
  | failed
  | aborted
  | threw (err : Thrown)
  | exhausted

/-- The poll loop, with `n` attempts to go. -/
def pollLoop (answers : SubmitAnswers) (i : ℕ) : ℕ → ℕ → PollEnd × List SubmitEvent
  | 0, _ => (.exhausted, [])
  | n + 1, attempt =>
    if answers.abortedPolling i attempt then (.aborted, [])
    else match answers.getTransaction i attempt with
      | .error err => (.threw err, [.poll i none])
      | .ok .success => (.success, [.poll i (some .success)])
      | .ok .failed => (.failed, [.poll i (some .failed)])
      | .ok .notFound =>
        let rest := pollLoop answers i n (attempt + 1)
        (rest.1, .poll i (some .notFound) :: rest.2)

variable {Tx : Type}

/-- The body of the loop for a transaction that is not skipped for an earlier failure: its outcome,
the new `firstFailureIndex` and what was done. -/
def submitOne (sdk : Sdk Tx) (options : BatchSubmitOptions) (answers : SubmitAnswers) (i : ℕ)
    (built : BuiltBatchTransaction) : BatchTxOutcome × ℤ × List SubmitEvent :=
  let outcome (status : BatchTxStatus) (error : String) : BatchTxOutcome :=
    { index := built.index, method := built.method, status := status, error := some error }
  if answers.aborted i then (outcome .skipped "Aborted", built.index, [])
  else if options.dryRun then
    ({ index := built.index, method := built.method, status := .success,
       txHash := some s!"dry-run:{built.index}", dryRun := some true }, -1, [])
  else
    let signed := if options.sign then answers.sign i built.xdr else .ok built.xdr
    let signing := if options.sign then [SubmitEvent.sign i] else []
    match signed with
    | .error err => (outcome .error s!"Sign failed: {err.text}", built.index, signing)
    | .ok xdrToSubmit => match sdk.fromXDR xdrToSubmit (options.networkPassphrase.getD "") with
      | .error err => (outcome .error s!"Submit failed: {err.text}", built.index, signing)
      | .ok _ => match answers.sendTransaction i with
        | .error err =>
          (outcome .error s!"Submit failed: {err.text}", built.index, signing ++ [.send i])
        | .ok sent =>
          if sent.isError then
            (outcome .failed (sent.errorResult.getD "Transaction rejected by network"), built.index,
              signing ++ [.send i])
          else
            let maxPollAttempts := options.maxPollAttempts.getD defaultSubmitMaxPollAttempts
            let polled := pollLoop answers i maxPollAttempts 0
            let events := signing ++ .send i :: polled.2
            match polled.1 with
            | .aborted => (outcome .error "Aborted during polling", built.index, events)
            | .threw err => (outcome .error s!"Poll failed: {err.text}", built.index, events)
            | .success =>
              ({ index := built.index, method := built.method, status := .success,
                 txHash := some sent.hash }, -1, events)
            | .failed =>
              (outcome .failed s!"Transaction failed on-chain: {sent.hash}", built.index, events)
            | .exhausted =>
              (outcome .error
                s!"Transaction timed out after {maxPollAttempts} poll attempts: {sent.hash}",
                built.index, events)

structure SubmitState where
  outcomes : List BatchTxOutcome
  firstFailureIndex : ℤ
  log : List SubmitEvent

/-- One turn of the loop. -/
def submitStep (sdk : Sdk Tx) (options : BatchSubmitOptions) (answers : SubmitAnswers)
    (st : SubmitState) (p : BuiltBatchTransaction × ℕ) : SubmitState :=
  if st.firstFailureIndex ≠ -1 then
    { st with
      outcomes := st.outcomes ++
        [{ index := p.1.index, method := p.1.method, status := .skipped,
           error := some s!"Skipped because transaction {st.firstFailureIndex} failed" }],
      log := st.log ++ [.outcome p.2 .skipped] }
  else
    let (outcome, firstFailureIndex, events) := submitOne sdk options answers p.2 p.1
    { outcomes := st.outcomes ++ [outcome], firstFailureIndex := firstFailureIndex,
      log := st.log ++ (events ++ [.outcome p.2 outcome.status]) }

/-- The loop over the batch. -/
def submitAll (sdk : Sdk Tx) (options : BatchSubmitOptions) (answers : SubmitAnswers)
    (transactions : List BuiltBatchTransaction) : SubmitState :=
  transactions.zipIdx.foldl (submitStep sdk options answers) ⟨[], -1, []⟩

/-- The aggregate of the outcomes. -/
def toSubmitResult (st : SubmitState) : BatchSubmitResult :=
  let successCount := (st.outcomes.filter (·.status = .success)).length
  { allSucceeded := st.firstFailureIndex = -1
    firstFailureIndex := st.firstFailureIndex
    outcomes := st.outcomes
    successCount := successCount
    failureCount := st.outcomes.length - successCount }

structure BatchPartiallySubmittedError where
  result : BatchSubmitResult
  builtTransactions : List BuiltBatchTransaction

inductive SubmitError where
  | build (err : Thrown)
  | partially (err : BatchPartiallySubmittedError)

def submitBatch (sdk : Sdk Tx) (transactions : List BuiltBatchTransaction) (rpcUrl : String)
    (options : BatchSubmitOptions) (answers : SubmitAnswers) :
    Except SubmitError BatchSubmitResult :=
  if rpcUrl = "" then .error (.build (batchBuildError "submitBatch requires a valid rpcUrl"))
  else
    let result := toSubmitResult (submitAll sdk options answers transactions)
    if (options.throwOnError ∨ options.throwOnPartial) ∧ ¬ result.allSucceeded then
      .error (.partially { result := result, builtTransactions := transactions })
    else .ok result

/-! ## One transaction -/

/-- From attempt `a`, the node says `SUCCESS` within `n` polls, after nothing but `NOT_FOUND`. -/
def PollsSuccess (answers : SubmitAnswers) (i n a : ℕ) : Prop :=
  ∃ k < n, (∀ j < k, answers.abortedPolling i (a + j) = false ∧
      answers.getTransaction i (a + j) = .ok .notFound) ∧
    answers.abortedPolling i (a + k) = false ∧ answers.getTransaction i (a + k) = .ok .success

/-- The answers under which the transaction at position `i` is confirmed. -/
def Confirms (sdk : Sdk Tx) (options : BatchSubmitOptions) (answers : SubmitAnswers) (i : ℕ)
    (xdr : String) : Prop :=
  answers.aborted i = false ∧ ∃ signed tx sent,
    (if options.sign then answers.sign i xdr else .ok xdr) = .ok signed ∧
    sdk.fromXDR signed (options.networkPassphrase.getD "") = .ok tx ∧
    answers.sendTransaction i = .ok sent ∧ sent.isError = false ∧
    PollsSuccess answers i (options.maxPollAttempts.getD defaultSubmitMaxPollAttempts) 0

theorem not_pollsSuccess_zero (answers : SubmitAnswers) (i a : ℕ) :
    ¬ PollsSuccess answers i 0 a := by
  rintro ⟨k, hk, -⟩
  omega

theorem pollsSuccess_succ_iff {answers : SubmitAnswers} {i n a : ℕ} :
    PollsSuccess answers i (n + 1) a ↔ answers.abortedPolling i a = false ∧
      (answers.getTransaction i a = .ok .success ∨
        answers.getTransaction i a = .ok .notFound ∧ PollsSuccess answers i n (a + 1)) := by
  constructor
  · rintro ⟨k, hk, hbefore, ha, hs⟩
    cases k with
    | zero => exact ⟨ha, .inl hs⟩
    | succ k =>
      refine ⟨(hbefore 0 (by omega)).1, .inr ⟨(hbefore 0 (by omega)).2, k, by omega, ?_, ?_⟩⟩
      · intro j hj
        have := hbefore (j + 1) (by omega)
        rwa [← add_assoc, add_right_comm] at this
      · rw [add_right_comm]
        exact ⟨ha, hs⟩
  · rintro ⟨ha, hs | ⟨hn, k, hk, hbefore, h⟩⟩
    · exact ⟨0, by omega, by simp, ha, hs⟩
    · refine ⟨k + 1, by omega, ?_, ?_⟩
      · intro j hj
        cases j with
        | zero => exact ⟨ha, hn⟩
        | succ j =>
          have := hbefore j (by omega)
          rwa [add_right_comm] at this
      · rwa [add_right_comm] at h

theorem pollLoop_success_iff (answers : SubmitAnswers) (i n a : ℕ) :
    (pollLoop answers i n a).1 = .success ↔ PollsSuccess answers i n a := by
  induction n generalizing a with
  | zero => simp [pollLoop, not_pollsSuccess_zero]
  | succ n ih =>
    rw [pollsSuccess_succ_iff, pollLoop]
    by_cases ha : answers.abortedPolling i a = true
    · simp [ha]
    · rw [if_neg ha]
      rcases hg : answers.getTransaction i a with err | status
      · simp
      · cases status <;> simp [ha, ih]

theorem pollLoop_events (answers : SubmitAnswers) (i n a : ℕ) :
    ∀ e ∈ (pollLoop answers i n a).2, ∃ status, e = .poll i status := by
  induction n generalizing a with
  | zero => simp [pollLoop]
  | succ n ih =>
    rw [pollLoop]
    by_cases ha : answers.abortedPolling i a = true
    · simp [ha]
    · rw [if_neg ha]
      rcases hg : answers.getTransaction i a with err | status
      · simp
      · cases status with
        | success | failed => simp
        | notFound =>
          intro e he
          rcases List.mem_cons.mp he with rfl | he
          · exact ⟨_, rfl⟩
          · exact ih _ e he

theorem mem_pollLoop_of_success {answers : SubmitAnswers} {i n a : ℕ}
    (h : (pollLoop answers i n a).1 = .success) :
    .poll i (some .success) ∈ (pollLoop answers i n a).2 := by
  induction n generalizing a with
  | zero => cases h
  | succ n ih =>
    rw [pollLoop] at h ⊢
    by_cases ha : answers.abortedPolling i a = true
    · rw [if_pos ha] at h
      cases h
    · rw [if_neg ha] at h ⊢
      rcases hg : answers.getTransaction i a with err | status
      · rw [hg] at h
        cases h
      · rw [hg] at h
        cases status with
        | success => exact List.mem_singleton_self _
        | failed => cases h
        | notFound => exact List.mem_cons_of_mem _ (ih h)

/-- What `submitOne` may do and return at position `i`. -/
structure OneOutcome (sdk : Sdk Tx) (options : BatchSubmitOptions) (answers : SubmitAnswers) (i : ℕ)
    (built : BuiltBatchTransaction) (r : BatchTxOutcome × ℤ × List SubmitEvent) : Prop where
  index : r.1.index = built.index
  method : r.1.method = built.method
  verdict : (Confirms sdk options answers i built.xdr ∧ r.1.status = .success ∧ r.2.1 = -1 ∧
      .poll i (some .success) ∈ r.2.2) ∨
    (¬ Confirms sdk options answers i built.xdr ∧ r.1.status ≠ .success ∧ r.2.1 = built.index)
  skipped : r.1.status = .skipped ↔ answers.aborted i = true
  events : ∀ e ∈ r.2.2, e = .sign i ∨ e = .send i ∨ ∃ status, e = .poll i status

section One

variable {sdk : Sdk Tx} {options : BatchSubmitOptions} {answers : SubmitAnswers} {i : ℕ}
  {built : BuiltBatchTransaction}

/-- A transaction that is not confirmed, for whatever reason. -/
theorem OneOutcome.of_failure {status : BatchTxStatus} {text : String} {events : List SubmitEvent}
    (hc : ¬ Confirms sdk options answers i built.xdr) (hs : status ≠ .success)
    (hsk : status = .skipped ↔ answers.aborted i = true)
    (he : ∀ e ∈ events, e = .sign i ∨ e = .send i ∨ ∃ status, e = .poll i status) :
    OneOutcome sdk options answers i built
      ({ index := built.index, method := built.method, status := status, error := some text },
        built.index, events) where
  index := rfl
  method := rfl
  verdict := .inr ⟨hc, hs, rfl⟩
  skipped := hsk
  events := he

/-- **One transaction.** Its outcome says whether it was confirmed. -/
theorem submitOne_spec (hd : options.dryRun = false) :
    OneOutcome sdk options answers i built (submitOne sdk options answers i built) := by
  have hsigning : ∀ e ∈ (if options.sign then [SubmitEvent.sign i] else []), e = .sign i := by
    split_ifs <;> simp
  unfold submitOne
  by_cases ha : answers.aborted i = true
  · rw [if_pos ha]
    refine .of_failure (fun hc => ?_) (by decide) (by simp [ha]) (by simp)
    rw [hc.1] at ha
    cases ha
  rw [if_neg ha, if_neg (by simp [hd])]
  have hnot : ∀ status : BatchTxStatus, status ≠ .skipped →
      (status = .skipped ↔ answers.aborted i = true) := fun status hs => by simp [hs, ha]
  rcases hsign : (if options.sign then answers.sign i built.xdr else .ok built.xdr) with err | signed
  · refine .of_failure ?_ (by decide) (hnot _ (by decide)) fun e he => .inl (hsigning e he)
    rintro ⟨-, signed, tx, sent, h, -⟩
    rw [hsign] at h
    cases h
  simp only
  rcases htx : sdk.fromXDR signed (options.networkPassphrase.getD "") with err | tx
  · refine .of_failure ?_ (by decide) (hnot _ (by decide)) fun e he => .inl (hsigning e he)
    rintro ⟨-, signed', tx, sent, h, h', -⟩
    cases hsign.symm.trans h
    rw [htx] at h'
    cases h'
  have hsend : ∀ e ∈ (if options.sign then [SubmitEvent.sign i] else []) ++ [.send i],
      e = .sign i ∨ e = .send i ∨ ∃ status, e = .poll i status := fun e he => by
    rcases List.mem_append.mp he with he | he
    · exact .inl (hsigning e he)
    · exact .inr (.inl (List.mem_singleton.mp he))
  rcases hsent : answers.sendTransaction i with err | sent
  · refine .of_failure ?_ (by decide) (hnot _ (by decide)) hsend
    rintro ⟨-, signed', tx, sent, -, -, h, -⟩
    rw [hsent] at h
    cases h
  simp only
  by_cases herr : sent.isError = true
  · rw [if_pos herr]
    refine .of_failure ?_ (by decide) (hnot _ (by decide)) hsend
    rintro ⟨-, signed', tx, sent', -, -, h, h', -⟩
    cases hsent.symm.trans h
    rw [herr] at h'
    cases h'
  rw [if_neg herr]
  set n := options.maxPollAttempts.getD defaultSubmitMaxPollAttempts with hn
  have hevents : ∀ e ∈ (if options.sign then [SubmitEvent.sign i] else []) ++
      .send i :: (pollLoop answers i n 0).2,
      e = .sign i ∨ e = .send i ∨ ∃ status, e = .poll i status := fun e he => by
    rcases List.mem_append.mp he with he | he
    · exact .inl (hsigning e he)
    · rcases List.mem_cons.mp he with rfl | he
      · exact .inr (.inl rfl)
      · exact .inr (.inr (pollLoop_events answers i n 0 e he))
  have hconf : Confirms sdk options answers i built.xdr ↔ (pollLoop answers i n 0).1 = .success := by
    rw [pollLoop_success_iff]
    constructor
    · rintro ⟨-, -, -, -, -, -, -, -, h⟩
      exact h
    · intro h
      exact ⟨by simpa using ha, signed, tx, sent, hsign, htx, hsent, by simpa using herr, h⟩
  rcases hpoll : (pollLoop answers i n 0).1 with - | - | - | err | -
  · have hmem := mem_pollLoop_of_success hpoll
    exact {
      index := rfl
      method := rfl
      verdict := .inl ⟨hconf.mpr hpoll, rfl, rfl, by simp [hmem]⟩
      skipped := hnot .success (by decide)
      events := hevents }
  all_goals
    refine .of_failure (fun hc => ?_) (by decide) (hnot _ (by decide)) hevents
    have := hconf.mp hc
    rw [hpoll] at this
    cases this

end One

/-! ## The whole batch -/

/-- A later transaction is sent only after the one before it was seen confirmed. -/
def Needs (e d : SubmitEvent) : Prop := ∃ i, e = .send (i + 1) ∧ d = .poll i (some .success)

/-- An outcome other than `SUCCESS`. -/
def Stops (e : SubmitEvent) : Prop := ∃ i status, e = .outcome i status ∧ status ≠ .success

/-- Nothing is sent after a stop. -/
def NoSendAfter (e e' : SubmitEvent) : Prop := Stops e → ∀ i, e' ≠ .send i

/-- `SUCCESS*`, and then, if anything was not confirmed, one other outcome and only `SKIPPED`. -/
def OutcomeShape (outcomes : List BatchTxOutcome) (firstFailureIndex : ℤ) : Prop :=
  (firstFailureIndex = -1 ∧ ∀ o ∈ outcomes, o.status = .success) ∨
    ∃ before o after, outcomes = before ++ o :: after ∧ (∀ p ∈ before, p.status = .success) ∧
      o.status ≠ .success ∧ firstFailureIndex = o.index ∧ ∀ p ∈ after, p.status = .skipped

def outcomeKey (o : BatchTxOutcome) : ℕ × String := (o.index, o.method)

def builtKey (t : BuiltBatchTransaction) : ℕ × String := (t.index, t.method)

/-- What holds after the first `n` transactions. -/
structure Submitted (sdk : Sdk Tx) (options : BatchSubmitOptions) (answers : SubmitAnswers)
    (transactions : List BuiltBatchTransaction) (n : ℕ) (st : SubmitState) : Prop where
  aligned : st.outcomes.map outcomeKey = (transactions.take n).map builtKey
  shape : OutcomeShape st.outcomes st.firstFailureIndex
  verdict : ∀ (i : ℕ) t o, transactions[i]? = some t → st.outcomes[i]? = some o →
    (∀ j < i, ∀ p, st.outcomes[j]? = some p → p.status = .success) →
    (o.status = .success ↔ Confirms sdk options answers i t.xdr) ∧
      (o.status = .skipped ↔ answers.aborted i = true)
  going : st.firstFailureIndex = -1 →
    (∀ i < n, .poll i (some .success) ∈ st.log) ∧ ∀ e ∈ st.log, ¬ Stops e
  order : Preceded Needs st.log
  quiet : st.log.Pairwise NoSendAfter

theorem OutcomeShape.not_going {outcomes : List BatchTxOutcome} {f : ℤ} (h : OutcomeShape outcomes f)
    (hf : f ≠ -1) : ∃ before o after, outcomes = before ++ o :: after ∧
      (∀ p ∈ before, p.status = .success) ∧ o.status ≠ .success ∧ f = o.index ∧
      ∀ p ∈ after, p.status = .skipped :=
  h.resolve_left fun h => hf h.1

theorem OutcomeShape.going {outcomes : List BatchTxOutcome} {f : ℤ} (h : OutcomeShape outcomes f)
    (hf : f = -1) : ∀ o ∈ outcomes, o.status = .success := by
  rcases h with ⟨-, h⟩ | ⟨before, o, after, -, -, -, h, -⟩
  · exact h
  · omega

section Whole

variable {sdk : Sdk Tx} {options : BatchSubmitOptions} {answers : SubmitAnswers}
  {transactions : List BuiltBatchTransaction} {built : BuiltBatchTransaction} {st : SubmitState}
  {n : ℕ}

theorem Submitted.length (h : Submitted sdk options answers transactions n st)
    (hn : n ≤ transactions.length) : st.outcomes.length = n := by
  have := congrArg List.length h.aligned
  rw [List.length_map, List.length_map, List.length_take] at this
  omega

theorem Submitted.aligned_succ (h : Submitted sdk options answers transactions n st)
    (hn : transactions[n]? = some built)
    {o : BatchTxOutcome} (ho : outcomeKey o = builtKey built) :
    (st.outcomes ++ [o]).map outcomeKey = (transactions.take (n + 1)).map builtKey := by
  rw [List.take_add_one, hn, List.map_append, List.map_append, h.aligned]
  simp [ho]

/-- The verdicts so far, and one more. -/
theorem Submitted.verdict_succ (h : Submitted sdk options answers transactions n st)
    (hn : transactions[n]? = some built) {o : BatchTxOutcome}
    (ho : (∀ p ∈ st.outcomes, p.status = .success) →
      (o.status = .success ↔ Confirms sdk options answers n built.xdr) ∧
        (o.status = .skipped ↔ answers.aborted n = true)) :
    ∀ (i : ℕ) t o', transactions[i]? = some t → (st.outcomes ++ [o])[i]? = some o' →
      (∀ j < i, ∀ p, (st.outcomes ++ [o])[j]? = some p → p.status = .success) →
      (o'.status = .success ↔ Confirms sdk options answers i t.xdr) ∧
        (o'.status = .skipped ↔ answers.aborted i = true) := by
  intro i t o' ht ho' hall
  have hlen := h.length (List.getElem?_eq_some_iff.mp hn).1.le
  by_cases hi : i < n
  · rw [List.getElem?_append_left (by omega)] at ho'
    refine h.verdict i t o' ht ho' fun j hj p hp => hall j hj p ?_
    rw [List.getElem?_append_left (by omega), hp]
  · have hi' : i = n := by
      have := (List.getElem?_eq_some_iff.mp ho').1
      rw [List.length_append, List.length_singleton] at this
      omega
    subst hi'
    rw [List.getElem?_append_right (by omega), hlen, Nat.sub_self] at ho'
    cases ho'
    cases hn.symm.trans ht
    refine ho fun p hp => ?_
    obtain ⟨j, hj, rfl⟩ := List.mem_iff_getElem.mp hp
    exact hall j (by omega) _ (by rw [List.getElem?_append_left hj, List.getElem?_eq_getElem hj])

/-- After a failure, a transaction is only marked. -/
theorem Submitted.skip (h : Submitted sdk options answers transactions n st) (hn : transactions[n]? = some built)
    (hf : st.firstFailureIndex ≠ -1) :
    Submitted sdk options answers transactions (n + 1)
      (submitStep sdk options answers st (built, n)) := by
  rw [submitStep, if_pos hf]
  refine ⟨h.aligned_succ hn rfl, .inr ?_, h.verdict_succ hn fun hall => ?_, fun hg => absurd hg hf, ?_, ?_⟩
  · obtain ⟨before, o, after, ho, hb, hs, hi, ha⟩ := h.shape.not_going hf
    refine ⟨before, o, after ++ [_], by rw [ho, List.append_assoc, List.cons_append], hb, hs, hi, ?_⟩
    intro p hp
    rcases List.mem_append.mp hp with hp | hp
    · exact ha p hp
    · rw [List.mem_singleton.mp hp]
  · obtain ⟨before, o, after, ho, -, hs, -⟩ := h.shape.not_going hf
    exact absurd (hall o (by simp [ho])) hs
  · refine h.order.append_of_mem fun e he d ⟨i, hi, _⟩ => ?_
    rw [List.mem_singleton.mp he] at hi
    cases hi
  · refine List.pairwise_append.mpr ⟨h.quiet, List.pairwise_singleton _ _, fun e _ e' he' _ i hi => ?_⟩
    rw [List.mem_singleton.mp he'] at hi
    cases hi

/-- Before a failure, a transaction is tried. -/
theorem Submitted.try (hd : options.dryRun = false)
    (h : Submitted sdk options answers transactions n st) (hn : transactions[n]? = some built)
    (hf : st.firstFailureIndex = -1) :
    Submitted sdk options answers transactions (n + 1)
      (submitStep sdk options answers st (built, n)) := by
  have hone : OneOutcome sdk options answers n built _ := submitOne_spec hd
  obtain ⟨hconf, hcalm⟩ := h.going hf
  have hgood := h.shape.going hf
  rw [submitStep, if_neg (not_not.mpr hf)]
  rcases hr : submitOne sdk options answers n built with ⟨o, f, events⟩
  rw [hr] at hone
  obtain ⟨hindex, hmethod, hverdict, hskipped, hevents⟩ := hone
  simp only at hindex hmethod hverdict hskipped hevents ⊢
  have hnostop : ∀ e ∈ events, ¬ Stops e := by
    rintro e he ⟨i, status, rfl, -⟩
    rcases hevents _ he with h | h | ⟨_, h⟩ <;> cases h
  refine ⟨h.aligned_succ hn (by simp [outcomeKey, builtKey, hindex, hmethod]), ?_,
    h.verdict_succ hn fun _ => ⟨?_, hskipped⟩, ?_, ?_, ?_⟩
  · rcases hverdict with ⟨-, hs, hf', -⟩ | ⟨-, hs, hf'⟩
    · refine .inl ⟨hf', fun p hp => ?_⟩
      rcases List.mem_append.mp hp with hp | hp
      · exact hgood p hp
      · rw [List.mem_singleton.mp hp, hs]
    · exact .inr ⟨st.outcomes, o, [], rfl, hgood, hs, by rw [hf', hindex], by simp⟩
  · rcases hverdict with ⟨hc, hs, -⟩ | ⟨hc, hs, -⟩
    · exact iff_of_true hs hc
    · exact iff_of_false hs hc
  · intro hg
    rcases hverdict with ⟨-, hs, -, hpoll⟩ | ⟨-, -, hf'⟩
    · constructor
      · intro i hi
        rcases Nat.lt_succ_iff_lt_or_eq.mp hi with hi | rfl
        · exact List.mem_append_left _ (hconf i hi)
        · exact List.mem_append_right _ (List.mem_append_left _ hpoll)
      · intro e he
        rcases List.mem_append.mp he with he | he
        · exact hcalm e he
        rcases List.mem_append.mp he with he | he
        · exact hnostop e he
        · rw [List.mem_singleton.mp he]
          rintro ⟨i, status, heq, hne⟩
          cases heq
          exact hne hs
    · change f = -1 at hg
      omega
  · -- the only event here that needs anything is `send n`, and everything before `n` is confirmed
    refine h.order.append_of_mem fun e he d ⟨i, hi, hd⟩ => ?_
    rcases List.mem_append.mp he with he | he
    · rcases hevents e he with h | h | ⟨_, h⟩ <;> rw [h] at hi <;> cases hi
      exact hd ▸ hconf i (by omega)
    · rw [List.mem_singleton.mp he] at hi
      cases hi
  · refine List.pairwise_append.mpr ⟨h.quiet, List.pairwise_append.mpr ⟨?_, ?_, ?_⟩, ?_⟩
    · exact List.pairwise_of_forall_mem_list fun e he e' _ hs => absurd hs (hnostop e he)
    · exact List.pairwise_singleton _ _
    · exact fun e he e' _ hs => absurd hs (hnostop e he)
    · exact fun e he e' _ hs => absurd hs (hcalm e he)

theorem submitted_init (transactions : List BuiltBatchTransaction) :
    Submitted sdk options answers transactions 0 ⟨[], -1, []⟩ where
  aligned := rfl
  shape := .inl ⟨rfl, by simp⟩
  verdict _ _ _ _ ho := by simp at ho
  going _ := by simp
  order := preceded_nil
  quiet := .nil

/-- **The loop invariant**, after every prefix of the batch. -/
theorem submitAll_invariant (hd : options.dryRun = false) (n : ℕ) (hn : n ≤ transactions.length) :
    Submitted sdk options answers transactions n
      ((transactions.zipIdx.take n).foldl (submitStep sdk options answers) ⟨[], -1, []⟩) := by
  induction n with
  | zero => exact submitted_init transactions
  | succ n ih =>
    have hget : transactions[n]? = some transactions[n] := List.getElem?_eq_getElem hn
    have hzip : transactions.zipIdx[n]? = some (transactions[n], n) := by
      rw [List.getElem?_zipIdx, hget]
      simp
    rw [List.take_add_one, hzip, Option.toList_some, List.foldl_append]
    by_cases hf : ((transactions.zipIdx.take n).foldl (submitStep sdk options answers)
        ⟨[], -1, []⟩).firstFailureIndex = -1
    · exact (ih (by omega)).try hd hget hf
    · exact (ih (by omega)).skip hget hf

theorem submitAll_submitted (hd : options.dryRun = false) :
    Submitted sdk options answers transactions transactions.length
      (submitAll sdk options answers transactions) := by
  have : Submitted sdk options answers transactions _ _ :=
    submitAll_invariant hd transactions.length le_rfl
  rwa [List.take_of_length_le (by simp)] at this

end Whole

/-- The result that is returned, or carried by the error that is thrown. -/
def reported : Except SubmitError BatchSubmitResult → Option BatchSubmitResult
  | .ok r => some r
  | .error (.partially err) => some err.result
  | .error (.build _) => none

/-- What the submission of a batch reports, and what it did. -/
structure SequentialSubmission (transactions : List BuiltBatchTransaction) (r : BatchSubmitResult)
    (log : List SubmitEvent) : Prop where
  aligned : r.outcomes.map outcomeKey = transactions.map builtKey
  shape : OutcomeShape r.outcomes r.firstFailureIndex
  order : Preceded Needs log
  quiet : log.Pairwise NoSendAfter
  allSucceeded : r.allSucceeded = true ↔ ∀ o ∈ r.outcomes, o.status = .success
  counts : r.successCount + r.failureCount = transactions.length

theorem toSubmitResult_sequential {sdk : Sdk Tx} {options : BatchSubmitOptions}
    {answers : SubmitAnswers} {transactions : List BuiltBatchTransaction} {st : SubmitState}
    (h : Submitted sdk options answers transactions transactions.length st) :
    SequentialSubmission transactions (toSubmitResult st) st.log where
  aligned := by
    have := h.aligned
    rwa [List.take_length] at this
  shape := h.shape
  order := h.order
  quiet := h.quiet
  allSucceeded := by
    rw [toSubmitResult, decide_eq_true_eq]
    refine ⟨h.shape.going, fun hall => ?_⟩
    by_contra hf
    obtain ⟨before, o, after, ho, -, hs, -⟩ := h.shape.not_going hf
    exact hs (hall o (by simp [ho]))
  counts := by
    have hlen := congrArg List.length h.aligned
    simp only [List.length_map, List.take_length] at hlen
    have := List.length_filter_le (fun o : BatchTxOutcome => decide (o.status = .success)) st.outcomes
    simp only [toSubmitResult]
    omega

/-- Everything goes well up to position `n`, where the signal is aborted. -/
def abortAt (n : ℕ) : SubmitAnswers where
  aborted i := n ≤ i
  sign _ xdr := .ok xdr
  sendTransaction _ := .ok { isError := false, errorResult := none, hash := "hash" }
  abortedPolling _ _ := false
  getTransaction _ _ := .ok .success

example : (submitAll standIn {} (abortAt 1) twoBuilt).outcomes.map (·.status) =
    [.success, .skipped] := by decide

end StreamFi
