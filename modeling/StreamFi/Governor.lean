import StreamFi.Caller
import StreamFi.Confirm

/-!
# Executing proposals

`invokeContract` sends a transaction and waits for it; unless it is `strict`, it also resolves with
the hash of one that it could not see confirmed. `executeMultipleProposals` does so for one proposal
after the other. The environment's answers are given for each proposal.

* `invokeContract`, `executeMultipleProposals`: the code, with what became of each transaction;
* `getElem?_executeFrom`: what the loop does with each proposal;
* `Confirmed`, `Unsettled`: the transaction was seen to succeed; it was not seen to succeed or fail;
* **`execute_truthful_iff`**: when successes are confirmed, and nothing is sent after the first
  proposal that is not.
-/

namespace StreamFi

open Js

/-! ## One call -/

/-- `DEFAULT_CONFIRMATION_POLL_INTERVAL_MS`. -/
def defaultConfirmationPollIntervalMs : ℕ := 1000

structure ConfirmationPollingOptions where
  pollIntervalMs : Option ℕ := none
  maxAttempts : Option ℕ := none
  strict : Option Bool := none

/-- `new ConfirmationTimeoutError(…)`. -/
def confirmationTimeoutError (hash : String) (attempts timeoutMs : ℕ) : Thrown :=
  errorOf "ConfirmationTimeoutError"
    (s!"Transaction confirmation timed out after {attempts} attempts ({timeoutMs}ms): {hash}. " ++
      "The transaction was submitted and may still confirm on-chain.")

/-- What is answered during one call of `invokeContract`. -/
structure InvokeAnswers (Tx : Type) where
  /-- rejected, a simulation error, or a success -/
  simulateTransaction : Tx → Except Thrown (Except String Simulation)
  /-- the transaction that the signer returns, or the one that it was given, signed in place -/
  sign : Tx → Except Thrown Tx
  sendTransaction : Tx → Except Thrown SendTransactionResponse
  getTransaction : String → ℕ → Except Thrown GetTransactionResponse

/-- What becomes of a transaction that is sent. -/
inductive Submission where
  | refused (error : Thrown)
  | polled (outcome : ConfirmationPollOutcome)

namespace ConfirmationPollingOptions

variable (polling : ConfirmationPollingOptions)

def attempts : ℕ := polling.maxAttempts.getD defaultConfirmationMaxAttempts

def timedOut (hash : String) (attempts : ℕ) : Except Thrown String :=
  if polling.strict.getD false then .error (confirmationTimeoutError hash attempts
    (attempts * polling.pollIntervalMs.getD defaultConfirmationPollIntervalMs))
  else .ok hash

/-- The last step of `invokeContract`. -/
def settle (hash : String) : ConfirmationPollOutcome → Except Thrown String
  | .success _ => .ok hash
  | .failed => throwNew s!"Transaction failed: {hash}"
  | .pollError _ attempt => polling.timedOut hash attempt
  | .timeout _ => polling.timedOut hash polling.attempts

end ConfirmationPollingOptions

section Invoke

variable {Tx : Type} (sdk : Sdk Tx) (polling : ConfirmationPollingOptions)
  (answers : InvokeAnswers Tx) (tx : Tx)

/-- The first steps of `invokeContract`, until the transaction is signed. -/
def signedTx : Except Thrown Tx := do
  let sim ← match answers.simulateTransaction tx with
    | .error cause => .error (rpcError (catchNetworkError "simulateTransaction (invoke)" cause))
    | .ok (.error error) => throwNew s!"Simulation failed: {error}"
    | .ok (.ok sim) => .ok sim
  let assembled ← sdk.assembleTransaction tx sim
  answers.sign assembled

def invokeContract : Except Thrown String := do
  let signed ← signedTx sdk answers tx
  let hash ← sentHash (answers.sendTransaction signed)
  polling.settle hash (pollForConfirmation (answers.getTransaction hash) polling.attempts)

/-- For the record: whether `invokeContract` sends its transaction, and what becomes of that. -/
def submission : Option Submission :=
  match signedTx sdk answers tx with
  | .error _ => none
  | .ok signed => match sentHash (answers.sendTransaction signed) with
    | .error error => some (.refused error)
    | .ok hash =>
      some (.polled (pollForConfirmation (answers.getTransaction hash) polling.attempts))

end Invoke

/-- The transaction was seen to succeed. -/
def Confirmed (s : Option Submission) : Prop := ∃ v, s = some (.polled (.success v))

/-- The transaction was accepted, and not seen to succeed or fail. -/
def Unsettled (s : Option Submission) : Prop :=
  (∃ n, s = some (.polled (.timeout n))) ∨ ∃ e n, s = some (.polled (.pollError e n))

def seenSuccess : Option Submission → Bool
  | some (.polled (.success _)) => true
  | _ => false

theorem seenSuccess_iff {s : Option Submission} : seenSuccess s = true ↔ Confirmed s := by
  constructor
  · intro h
    unfold seenSuccess at h
    split at h
    · exact ⟨_, rfl⟩
    · cases h
  · rintro ⟨v, rfl⟩
    rfl

instance : DecidablePred Confirmed := fun _ => decidable_of_iff _ seenSuccess_iff

section Invoke

variable {Tx : Type} {sdk : Sdk Tx} {polling : ConfirmationPollingOptions}
  {answers : InvokeAnswers Tx} {tx : Tx}

theorem Confirmed.not_unsettled {s : Option Submission} (h : Confirmed s) : ¬ Unsettled s := by
  obtain ⟨v, rfl⟩ := h
  rintro (⟨n, hn⟩ | ⟨e, n, hn⟩)
  · cases hn
  · cases hn

/-- **When a hash is returned.** -/
theorem invokeContract_ok_iff : (∃ hash, invokeContract sdk polling answers tx = .ok hash) ↔
    Confirmed (submission sdk polling answers tx) ∨
      polling.strict.getD false = false ∧ Unsettled (submission sdk polling answers tx) := by
  unfold invokeContract submission
  cases signedTx sdk answers tx with
  | error e => simp [Confirmed, Unsettled]
  | ok signed =>
    rw [ok_seq]
    simp only
    cases sentHash (answers.sendTransaction signed) with
    | error e => simp [Confirmed, Unsettled]
    | ok hash =>
      rw [ok_seq]
      simp only
      cases pollForConfirmation (answers.getTransaction hash) polling.attempts with
      | success v => simp [ConfirmationPollingOptions.settle, Confirmed]
      | failed => simp [ConfirmationPollingOptions.settle, throwNew, Confirmed, Unsettled]
      | timeout n =>
        cases hstrict : polling.strict.getD false <;>
          simp [ConfirmationPollingOptions.settle, ConfirmationPollingOptions.timedOut, hstrict,
            Confirmed, Unsettled]
      | pollError e n =>
        cases hstrict : polling.strict.getD false <;>
          simp [ConfirmationPollingOptions.settle, ConfirmationPollingOptions.timedOut, hstrict,
            Confirmed, Unsettled]

/-- **A strict call** returns the hash of a transaction that was seen to succeed. -/
theorem invokeContract_strict (hstrict : polling.strict = some true) :
    (∃ hash, invokeContract sdk polling answers tx = .ok hash) ↔
      Confirmed (submission sdk polling answers tx) := by
  rw [invokeContract_ok_iff, hstrict]
  simp

end Invoke

/-! ## A list of proposals -/

structure GovernorModule extends StreamsConfig where
  governorAddress : Option String
  confirmationPollIntervalMs : Option ℕ := none

/-- `strict` is not set. -/
def GovernorModule.polling (module : GovernorModule) : ConfirmationPollingOptions where
  pollIntervalMs := module.confirmationPollIntervalMs
  maxAttempts := module.confirmationMaxAttempts

/-- What is answered for one proposal. -/
structure ExecuteAnswers (Tx : Type) extends InvokeAnswers Tx where
  aborted : Bool
  account : Except Thrown ℤ
  clock : Number

structure ExecuteProposalResult where
  proposalId : Number
  success : Bool
  txHash : Option String := none
  error : Option Thrown := none
  skipped : Bool := false

/-- `Number.isSafeInteger(id) && id >= 0`. -/
def validProposalId (id : Number) : Bool :=
  id.toBigInt.any fun n => 0 ≤ n ∧ n ≤ 2 ^ 53 - 1

def requireProposals (proposalIds : List Number) : Except Thrown Unit :=
  if proposalIds = [] then throwNew "proposalIds must be a non-empty array" else .ok ()

/-- The checks of the ids; `seen` are those before. -/
def checkProposalIds : List Number → List Number → Except Thrown Unit
  | _, [] => .ok ()
  | seen, id :: ids =>
    if !validProposalId id then
      throwNew s!"Invalid proposal id {numToText id}: must be a non-negative integer"
    else if id ∈ seen then throwNew s!"Duplicate proposal id {numToText id}"
    else checkProposalIds (id :: seen) ids

/-- What is kept of a thrown value. -/
def asError (err : Thrown) : Thrown := if err.isError then err else errorOf "Error" err.text

section Execute

variable {Tx : Type} (sdk : Sdk Tx) (module : GovernorModule) (governorId caller : String)
  (answers : ExecuteAnswers Tx) (proposalId : Number)

/-- The call of one proposal, until it is built; ids that were checked are integers. -/
def executeTx : Except Thrown Tx := do
  if answers.aborted then .error abortError
  let arg ← sdk.nativeToScVal (.bigint (proposalId.toBigInt.getD 0)) (some .u64)
  buildContractCallTx sdk module.toStreamsConfig answers.account answers.clock caller governorId
    "execute" [arg]

/-- The body of the `try`. -/
def executeProposal : Except Thrown String := do
  let tx ← executeTx sdk module governorId caller answers proposalId
  invokeContract sdk module.polling answers.toInvokeAnswers tx

/-- For the record: what becomes of the transaction. -/
def proposalSubmission : Option Submission :=
  match executeTx sdk module governorId caller answers proposalId with
  | .error _ => none
  | .ok tx => submission sdk module.polling answers.toInvokeAnswers tx

end Execute

def skippedError : Thrown := errorOf "Error" "Skipped after an earlier proposal failed"

def executedResult (proposalId : Number) : Except Thrown String → ExecuteProposalResult
  | .ok txHash => { proposalId := proposalId, success := true, txHash := some txHash }
  | .error err => { proposalId := proposalId, success := false, error := some (asError err) }

def skippedResult (proposalId : Number) : ExecuteProposalResult where
  proposalId := proposalId
  success := false
  skipped := true
  error := some skippedError

/-- The loop from proposal `i`, which pushes a result for each id; for the record, with what became
of its transaction. -/
def executeFrom (execute : ℕ → Number → Except Thrown String)
    (sent : ℕ → Number → Option Submission) (stopOnError : Bool) :
    ℕ → Bool → List Number → List (ExecuteProposalResult × Option Submission)
  | _, _, [] => []
  | i, true, id :: ids =>
    (skippedResult id, none) :: executeFrom execute sent stopOnError (i + 1) true ids
  | i, false, id :: ids =>
    (executedResult id (execute i id), sent i id) ::
      executeFrom execute sent stopOnError (i + 1) (stopOnError && !(execute i id).isOk) ids

def executeMultipleProposals {Tx : Type} (sdk : Sdk Tx) (module : GovernorModule)
    (caller : Except Thrown String) (answers : ℕ → ExecuteAnswers Tx) (proposalIds : List Number)
    (stopOnError : Bool) : Except Thrown (List (ExecuteProposalResult × Option Submission)) :=
  match truthyText module.governorAddress with
  | none => throwNew ("ConduitConfig.governorAddress is required (no default DripGovernor is known " ++
      s!"for network \"{module.network.text}\").")
  | some governorId => do
    requireProposals proposalIds
    checkProposalIds [] proposalIds
    ensureCanMutate module.toStreamsConfig
    let caller ← caller
    return executeFrom (fun i => executeProposal sdk module governorId caller (answers i))
      (fun i => proposalSubmission sdk module governorId caller (answers i)) stopOnError 0 false
      proposalIds

/-! ## What the loop does with each proposal -/

section Loop

variable {execute : ℕ → Number → Except Thrown String} {sent : ℕ → Number → Option Submission}
  {stopOnError : Bool} {i k : ℕ} {id : Number} {ids : List Number}

/-- No proposal before position `k` halts the loop that starts with proposal `i`. -/
def Reached (execute : ℕ → Number → Except Thrown String) (stopOnError : Bool) (i : ℕ)
    (ids : List Number) (k : ℕ) : Prop :=
  stopOnError = true → ∀ j < k, ∀ id, ids[j]? = some id → (execute (i + j) id).isOk = true

theorem reached_succ : Reached execute stopOnError i (id :: ids) (k + 1) ↔
    (stopOnError = true → (execute i id).isOk = true) ∧
      Reached execute stopOnError (i + 1) ids k := by
  constructor
  · intro h
    refine ⟨fun hstop => h hstop 0 (Nat.succ_pos k) id rfl, fun hstop j hj id' hid' => ?_⟩
    have hok := h hstop (j + 1) (Nat.succ_lt_succ hj) id' hid'
    rwa [show i + 1 + j = i + (j + 1) by omega]
  · rintro ⟨hfirst, hrest⟩ hstop j hj id' hid'
    cases j with
    | zero =>
      cases hid'
      exact hfirst hstop
    | succ j =>
      have hok := hrest hstop j (Nat.lt_of_succ_lt_succ hj) id' hid'
      rwa [show i + (j + 1) = i + 1 + j by omega]

theorem executeFrom_halted : executeFrom execute sent stopOnError i true ids =
    ids.map fun id => (skippedResult id, none) := by
  induction ids generalizing i with
  | nil => rfl
  | cons id ids ih => rw [executeFrom, ih, List.map_cons]

variable (sent) in
/-- **What the loop does with each proposal**: it executes those that it reaches, and skips the
others. -/
theorem getElem?_executeFrom (h : ids[k]? = some id) :
    (Reached execute stopOnError i ids k → (executeFrom execute sent stopOnError i false ids)[k]? =
      some (executedResult id (execute (i + k) id), sent (i + k) id)) ∧
    (¬ Reached execute stopOnError i ids k →
      (executeFrom execute sent stopOnError i false ids)[k]? = some (skippedResult id, none)) := by
  induction ids generalizing i k with
  | nil => cases h
  | cons id' ids ih =>
    cases k with
    | zero =>
      cases h
      refine ⟨fun _ => rfl, fun hnot => absurd ?_ hnot⟩
      exact fun _ j hj => absurd hj (Nat.not_lt_zero j)
    | succ k =>
      have hid : ids[k]? = some id := h
      rw [reached_succ, executeFrom, List.getElem?_cons_succ]
      cases hhalt : stopOnError && !(execute i id').isOk with
      | true =>
        rw [executeFrom_halted]
        have hnot : ¬ (stopOnError = true → (execute i id').isOk = true) := by
          simpa using hhalt
        refine ⟨fun hreach => absurd hreach.1 hnot, fun _ => ?_⟩
        rw [List.getElem?_map, hid, Option.map_some]
      | false =>
        have hfirst : stopOnError = true → (execute i id').isOk = true := by
          simpa using hhalt
        have hrest := ih (i := i + 1) hid
        rw [show i + 1 + k = i + (k + 1) by omega] at hrest
        exact ⟨fun hreach => hrest.1 hreach.2, fun hnot => hrest.2 fun hreach => hnot ⟨hfirst, hreach⟩⟩

theorem length_executeFrom (halted : Bool) :
    (executeFrom execute sent stopOnError i halted ids).length = ids.length := by
  induction ids generalizing i halted with
  | nil => cases halted <;> rfl
  | cons id ids ih => cases halted <;> rw [executeFrom, List.length_cons, ih, List.length_cons]

/-- An entry of the run, for the proposal at its position. -/
theorem executeFrom_entry {p : ExecuteProposalResult × Option Submission}
    (hp : (executeFrom execute sent stopOnError 0 false ids)[k]? = some p) :
    ∃ id, ids[k]? = some id ∧
      (Reached execute stopOnError 0 ids k → p = (executedResult id (execute k id), sent k id)) ∧
      (¬ Reached execute stopOnError 0 ids k → p = (skippedResult id, none)) := by
  obtain ⟨hk, -⟩ := List.getElem?_eq_some_iff.mp hp
  rw [length_executeFrom] at hk
  obtain ⟨hreached, hnot⟩ := getElem?_executeFrom (i := 0) sent
    (List.getElem?_eq_getElem hk)
  refine ⟨_, List.getElem?_eq_getElem hk, fun hreach => ?_, fun hreach => ?_⟩
  · have hentry := hp.symm.trans (hreached hreach)
    rw [Nat.zero_add] at hentry
    exact Option.some.inj hentry
  · exact Option.some.inj (hp.symm.trans (hnot hreach))

end Loop

/-- A proposal is reported as a success only if its transaction was seen to succeed. -/
def ReportsConfirmed (run : List (ExecuteProposalResult × Option Submission)) : Prop :=
  ∀ p ∈ run, p.1.success = true → Confirmed p.2

/-- Nothing is sent after the first proposal that was not confirmed. -/
def HaltsAtUnconfirmed (run : List (ExecuteProposalResult × Option Submission)) : Prop :=
  run.Pairwise fun p q => ¬ Confirmed p.2 → q.2 = none

instance (run : List (ExecuteProposalResult × Option Submission)) :
    Decidable (ReportsConfirmed run ∨ HaltsAtUnconfirmed run) :=
  inferInstanceAs (Decidable ((∀ p ∈ run, p.1.success = true → Confirmed p.2) ∨
    run.Pairwise fun p q => ¬ Confirmed p.2 → q.2 = none))

/-- No transaction stays unsettled; where the loop stops at errors, this is about those up to the
first that is not confirmed. -/
def AllSettle (sent : ℕ → Number → Option Submission) (stopOnError : Bool) (ids : List Number) :
    Prop :=
  ∀ (k : ℕ) id, ids[k]? = some id →
    (stopOnError = true → ∀ j < k, ∀ id', ids[j]? = some id' → Confirmed (sent j id')) →
      ¬ Unsettled (sent k id)

section Loop

variable {execute : ℕ → Number → Except Thrown String} {sent : ℕ → Number → Option Submission}
  {stopOnError : Bool} {k : ℕ} {id : Number} {ids : List Number}

/-- A hash is returned for what was confirmed or stayed unsettled. -/
def Resolves (execute : ℕ → Number → Except Thrown String) (sent : ℕ → Number → Option Submission) :
    Prop :=
  ∀ k id, (execute k id).isOk = true ↔ Confirmed (sent k id) ∨ Unsettled (sent k id)

/-- Whatever is reached was confirmed before. -/
theorem AllSettle.confirmed (hset : AllSettle sent stopOnError ids) (hres : Resolves execute sent)
    (hreach : Reached execute stopOnError 0 ids k) (hstop : stopOnError = true) :
    ∀ j < k, ∀ id, ids[j]? = some id → Confirmed (sent j id) := by
  intro j
  induction j using Nat.strong_induction_on with
  | _ j ih =>
    intro hj id hid
    have hok := hreach hstop j hj id hid
    rw [Nat.zero_add, hres] at hok
    refine hok.resolve_right (hset j id hid fun _ j' hj' id' hid' => ?_)
    exact ih j' hj' (hj'.trans hj) id' hid'

theorem isOk_iff {x : Except Thrown String} : x.isOk = true ↔ ∃ hash, x = .ok hash := by
  cases x with
  | error e => exact ⟨fun h => (nomatch h), fun ⟨_, h⟩ => nomatch h⟩
  | ok hash => exact ⟨fun _ => ⟨hash, rfl⟩, fun _ => rfl⟩

/-- **The loop.** -/
theorem executeFrom_truthful_iff (hres : Resolves execute sent) :
    ReportsConfirmed (executeFrom execute sent stopOnError 0 false ids) ∧
        (stopOnError = true →
          HaltsAtUnconfirmed (executeFrom execute sent stopOnError 0 false ids)) ↔
      AllSettle sent stopOnError ids := by
  constructor
  · rintro ⟨hreports, -⟩ k id hid hbefore hunsettled
    have hreach : Reached execute stopOnError 0 ids k := by
      intro hstop j hj id' hid'
      rw [Nat.zero_add, hres]
      exact .inl (hbefore hstop j hj id' hid')
    have hentry := (getElem?_executeFrom sent hid).1 hreach
    rw [Nat.zero_add] at hentry
    obtain ⟨hash, hok⟩ := isOk_iff.mp ((hres k id).mpr (.inr hunsettled))
    have hconfirmed := hreports _ (List.mem_of_getElem? hentry) (by rw [hok]; rfl)
    exact hconfirmed.not_unsettled hunsettled
  · intro hset
    -- What is reached is not unsettled, so a hash is returned for what was confirmed.
    have hverdict {k : ℕ} {id : Number} (hid : ids[k]? = some id)
        (hreach : Reached execute stopOnError 0 ids k) :
        (execute k id).isOk = true ↔ Confirmed (sent k id) := by
      rw [hres]
      exact or_iff_left (hset k id hid fun hstop => hset.confirmed hres hreach hstop)
    refine ⟨?_, fun hstop => ?_⟩
    · intro p hp hsuccess
      obtain ⟨k, hk⟩ := List.mem_iff_getElem?.mp hp
      obtain ⟨id, hid, hreached, hnot⟩ := executeFrom_entry hk
      by_cases hreach : Reached execute stopOnError 0 ids k
      · rw [hreached hreach] at hsuccess ⊢
        rw [← hverdict hid hreach]
        cases hexec : execute k id with
        | ok hash => rfl
        | error e =>
          rw [hexec] at hsuccess
          cases hsuccess
      · rw [hnot hreach] at hsuccess
        cases hsuccess
    · unfold HaltsAtUnconfirmed
      rw [List.pairwise_iff_getElem]
      intro i j hi hj hij hunconfirmed
      obtain ⟨id, hid, hreached, -⟩ := executeFrom_entry (List.getElem?_eq_getElem hi)
      obtain ⟨id', -, -, hnot⟩ := executeFrom_entry (List.getElem?_eq_getElem hj)
      rw [hnot]
      intro hreach
      have hbefore : Reached execute stopOnError 0 ids i :=
        fun hstop k hk => hreach hstop k (hk.trans hij)
      rw [hreached hbefore] at hunconfirmed
      have hok := hreach hstop i hij id hid
      rw [Nat.zero_add, hverdict hid hbefore] at hok
      exact hunconfirmed hok

end Loop

/-! ## Executing proposals -/

section Execute

variable {Tx : Type} {sdk : Sdk Tx} {module : GovernorModule} {caller : Except Thrown String}
  {answers : ℕ → ExecuteAnswers Tx} {proposalIds : List Number} {stopOnError : Bool}

/-- A run that is not refused is the loop. -/
theorem executeMultipleProposals_ok {run : List (ExecuteProposalResult × Option Submission)}
    (h : executeMultipleProposals sdk module caller answers proposalIds stopOnError = .ok run) :
    ∃ governorId callerAddr, module.governorAddress = some governorId ∧ caller = .ok callerAddr ∧
      run = executeFrom (fun i => executeProposal sdk module governorId callerAddr (answers i))
        (fun i => proposalSubmission sdk module governorId callerAddr (answers i)) stopOnError 0 false
        proposalIds := by
  unfold executeMultipleProposals at h
  cases haddr : module.governorAddress with
  | none =>
    rw [haddr] at h
    cases h
  | some governorId =>
    rw [haddr] at h
    by_cases hempty : governorId = ""
    · simp [truthyText, hempty] at h
      cases h
    · simp only [truthyText, Option.filter_some, hempty, ne_eq, not_false_eq_true, decide_true,
        if_true, seq_ok_iff] at h
      obtain ⟨-, -, -, -, -, -, callerAddr, hcaller, hrun⟩ := h
      cases hrun
      exact ⟨governorId, callerAddr, rfl, hcaller, rfl⟩

/-- A hash is returned for what was confirmed or stayed unsettled: `strict` is not set. -/
theorem executeProposal_resolves (governorId callerAddr : String) :
    Resolves (fun i => executeProposal sdk module governorId callerAddr (answers i))
      (fun i => proposalSubmission sdk module governorId callerAddr (answers i)) := by
  intro k id
  simp only [isOk_iff, executeProposal, proposalSubmission]
  cases executeTx sdk module governorId callerAddr (answers k) id with
  | error e => simp [Confirmed, Unsettled]
  | ok tx =>
    rw [ok_seq, invokeContract_ok_iff]
    simp [GovernorModule.polling]

/-- **When the report is truthful**: successes are confirmed, and nothing is sent after the first
proposal that is not, exactly when every transaction is seen to succeed or fail (where the loop stops
at errors, up to the first that is not confirmed). -/
theorem execute_truthful_iff {governorId callerAddr : String}
    {run : List (ExecuteProposalResult × Option Submission)}
    (haddr : module.governorAddress = some governorId) (hcaller : caller = .ok callerAddr)
    (h : executeMultipleProposals sdk module caller answers proposalIds stopOnError = .ok run) :
    ReportsConfirmed run ∧ (stopOnError = true → HaltsAtUnconfirmed run) ↔
      AllSettle (fun i => proposalSubmission sdk module governorId callerAddr (answers i)) stopOnError
        proposalIds := by
  obtain ⟨governorId', callerAddr', haddr', hcaller', rfl⟩ := executeMultipleProposals_ok h
  rw [haddr] at haddr'
  rw [hcaller] at hcaller'
  cases haddr'
  cases hcaller'
  exact executeFrom_truthful_iff (executeProposal_resolves governorId callerAddr)

end Execute

/-! A governor, and a node that does not know the transactions that it has accepted. -/

def governorStandIn : Sdk ℕ :=
  { standIn with
    nativeToScVal := fun v type => match v, type with
      | .bigint n, some .u64 =>
        if 0 ≤ n ∧ n < 2 ^ 64 then .ok (u64Of n.toNat) else throwNew "out of range"
      | v, type => standIn.nativeToScVal v type }

def testnetGovernor : GovernorModule :=
  { testnetConfig with
    confirmationMaxAttempts := some 2
    governorAddress := some "CDLZFC3SYJYDZT7K67VZ75HPJVIEUVNIXF47ZG2FB2RMQQVU2HHGCYSC" }

def executeAnswers (response : GetTransactionResponse) : ExecuteAnswers ℕ where
  simulateTransaction _ := .ok (.ok ⟨"data"⟩)
  sign tx := .ok tx
  sendTransaction _ := .ok { isError := false, errorResult := none, hash := "hash" }
  getTransaction _ _ := .ok response
  aborted := false
  account := .ok 100
  clock := .fin 0

def executeTwo (response : GetTransactionResponse) :
    Except Thrown (List (ExecuteProposalResult × Option Submission)) :=
  executeMultipleProposals governorStandIn testnetGovernor (.ok zeroAddr)
    (fun _ => executeAnswers response) [.fin 1, .fin 2] true

theorem execute_truthful_two : ∃ run, executeTwo (.success none) = .ok run ∧
    (ReportsConfirmed run ∧ (true = true → HaltsAtUnconfirmed run) ↔
      AllSettle (fun _ => proposalSubmission governorStandIn testnetGovernor
        "CDLZFC3SYJYDZT7K67VZ75HPJVIEUVNIXF47ZG2FB2RMQQVU2HHGCYSC" zeroAddr
        (executeAnswers (.success none))) true [.fin 1, .fin 2]) := by
  obtain ⟨run, hrun⟩ := ok_of_isOk (x := executeTwo (.success none)) (by decide)
  exact ⟨run, hrun, execute_truthful_iff rfl rfl hrun⟩

/-- **Unconfirmed proposals are reported as successes**, and the next one is sent. -/
theorem unconfirmed_reported : ∃ run, executeTwo .notFound = .ok run ∧
    ¬ ReportsConfirmed run ∧ ¬ HaltsAtUnconfirmed run := by
  have hrun : ((executeTwo .notFound).toOption.any fun run =>
      ¬ (ReportsConfirmed run ∨ HaltsAtUnconfirmed run)) = true := by
    decide
  cases hexec : executeTwo .notFound with
  | error e =>
    rw [hexec] at hrun
    cases hrun
  | ok run =>
    rw [hexec] at hrun
    exact ⟨run, rfl, not_or.mp (of_decide_eq_true hrun)⟩

end StreamFi
