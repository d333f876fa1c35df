import StreamFi.Confirm
import StreamFi.Run.Pool

/-!
# From signature to report

A built `create_stream` transaction is signed, sent, polled, and its stream's address is looked up.
Each answer arrives when it pleases; between two answers the code runs on its own. Beside the code
stands the ledger, which may take in the transaction once it is sent.

* `Phase`, `Chain.step`: where a transaction is, and what an answer makes of it;
* `step_cases`: everything one step can do;
* **`chain_reported`**: what is known of a chain after any run;
* `pollPhases_sendAndPoll`: the phases between send and look-up are `sendAndPoll`.
-/

namespace StreamFi

open Js Run

structure CreateStreamResult where
  streamId : ℤ
  streamAddress : String
  txHash : String
  deriving DecidableEq

/-- What the ledger made of a transaction. -/
inductive LedgerResult where
  | success (returnValue : Option ScVal)
  | failed

/-- Where a transaction is: at the signer, at the node, under poll attempt `i`, at the factory, or
settled. -/
inductive Phase where
  | signing
  | sending
  | polling (hash : String) (i : ℕ)
  | resolving (hash : String) (streamId : ℤ)
  | done (r : Except Thrown CreateStreamResult)

structure Chain where
  phase : Phase
  sent : Bool := false
  ledger : Option LedgerResult := none

/-- An answer to `getTransaction`: it fails, the node has not seen the transaction, or it reports
what the ledger says. -/
inductive PollEvent where
  | rejected (cause : Thrown)
  | notFound
  | final

inductive ChainEvent (Tx : Type) where
  | signed (r : Except Thrown Tx)
  | sendAnswer (r : Except Thrown SendTransactionResponse)
  | poll (p : PollEvent)
  | address (r : Except Thrown (Option String))
  | ledger (r : LedgerResult)

variable {Tx : Type}

/-! ## The code between two answers -/

/-- What follows a confirmation: the id is read from the return value. -/
def decode (hash : String) : Option ScVal → Phase
  | none => .done (throwNew s!"Transaction {hash} succeeded but returned no value")
  | some v => match scValToU64 v with
    | some streamId => .resolving hash streamId
    | none => .done (.error (errorOf "TypeError" "u64 not set"))

def settle (hash : String) (outcome : ConfirmationPollOutcome) : Phase :=
  match confirmed hash outcome with
  | .ok returnValue => decode hash returnValue
  | .error err => .done (.error err)

/-- The head of the poll loop. -/
def awaitPoll (maxAttempts : ℕ) (hash : String) (i : ℕ) : Phase :=
  if i < maxAttempts then .polling hash i else settle hash (.timeout i)

def afterSign : Except Thrown Tx → Phase
  | .ok _ => .sending
  | .error err => .done (.error err)

def afterSend (maxAttempts : ℕ) (sent : Except Thrown SendTransactionResponse) : Phase :=
  match sentHash sent with
  | .ok hash => awaitPoll maxAttempts hash 0
  | .error err => .done (.error err)

def afterPoll (maxAttempts : ℕ) (hash : String) (i : ℕ) :
    Except Thrown GetTransactionResponse → Phase
  | .error cause => settle hash (.pollError (catchNetworkError "getTransaction" cause) (i + 1))
  | .ok (.success returnValue) => settle hash (.success returnValue)
  | .ok .failed => settle hash .failed
  | .ok .notFound => awaitPoll maxAttempts hash (i + 1)

def afterAddress (hash : String) (streamId : ℤ) (r : Except Thrown (Option String)) :
    Except Thrown CreateStreamResult :=
  r.map fun address =>
    { streamId := streamId, streamAddress := address.getD "", txHash := hash }

/-- A truthful node. -/
def answerOf : Option LedgerResult → PollEvent → Option (Except Thrown GetTransactionResponse)
  | _, .rejected cause => some (.error cause)
  | _, .notFound => some (.ok .notFound)
  | some (.success returnValue), .final => some (.ok (.success returnValue))
  | some .failed, .final => some (.ok .failed)
  | none, .final => none

def Chain.step (maxAttempts : ℕ) (c : Chain) : ChainEvent Tx → Option Chain
  | .signed r => match c.phase with
    | .signing => some { c with phase := afterSign r, sent := r.isOk }
    | _ => none
  | .sendAnswer r => match c.phase with
    | .sending => some { c with phase := afterSend maxAttempts r }
    | _ => none
  | .poll p => match c.phase, answerOf c.ledger p with
    | .polling hash i, some r => some { c with phase := afterPoll maxAttempts hash i r }
    | _, _ => none
  | .address r => match c.phase with
    | .resolving hash streamId => some { c with phase := .done (afterAddress hash streamId r) }
    | _ => none
  | .ledger r => if c.sent ∧ c.ledger.isNone then some { c with ledger := some r } else none

section Step

variable {maxAttempts : ℕ} {c c' : Chain} {e : ChainEvent Tx}

/-- What one step can do. -/
theorem step_cases (h : c.step maxAttempts e = some c') :
    (∃ r, e = .signed r ∧ c.phase = .signing ∧
        c' = { c with phase := afterSign r, sent := r.isOk }) ∨
      (∃ r, e = .sendAnswer r ∧ c.phase = .sending ∧
        c' = { c with phase := afterSend maxAttempts r }) ∨
      (∃ p r hash i, e = .poll p ∧ c.phase = .polling hash i ∧ answerOf c.ledger p = some r ∧
        c' = { c with phase := afterPoll maxAttempts hash i r }) ∨
      (∃ r hash streamId, e = .address r ∧ c.phase = .resolving hash streamId ∧
        c' = { c with phase := .done (afterAddress hash streamId r) }) ∨
      (∃ r, e = .ledger r ∧ c.sent = true ∧ c.ledger = none ∧ c' = { c with ledger := some r }) := by
  cases e with
  | signed r =>
    simp only [Chain.step] at h
    split at h
    · cases h
      exact .inl ⟨r, rfl, ‹_›, rfl⟩
    · cases h
  | sendAnswer r =>
    simp only [Chain.step] at h
    split at h
    · cases h
      exact .inr (.inl ⟨r, rfl, ‹_›, rfl⟩)
    · cases h
  | poll p =>
    simp only [Chain.step] at h
    split at h
    · cases h
      exact .inr (.inr (.inl ⟨p, _, _, _, rfl, ‹_›, ‹_›, rfl⟩))
    · cases h
  | address r =>
    simp only [Chain.step] at h
    split at h
    · cases h
      exact .inr (.inr (.inr (.inl ⟨r, _, _, rfl, ‹_›, rfl⟩)))
    · cases h
  | ledger r =>
    simp only [Chain.step] at h
    split_ifs at h with hs
    cases h
    exact .inr (.inr (.inr (.inr ⟨r, rfl, hs.1, by simpa using hs.2, rfl⟩)))

end Step

/-! ## What is reported -/

/-- The ledger took the transaction in, and its return value is this id. -/
def Chain.HasId (c : Chain) (streamId : ℤ) : Prop :=
  ∃ v, c.ledger = some (.success (some v)) ∧ scValToU64 v = some streamId

/-- Confirmed on chain with a stream id. -/
def Chain.Confirmed (c : Chain) : Prop := ∃ streamId, c.HasId streamId

/-- Neither an id nor a result is known yet, or ever. -/
def Phase.Open : Phase → Prop
  | .resolving _ _ | .done (.ok _) => False
  | _ => True

theorem open_settle {hash : String} {outcome : ConfirmationPollOutcome}
    (h : ∀ returnValue, outcome ≠ .success returnValue) : (settle hash outcome).Open := by
  cases outcome with
  | success returnValue => exact absurd rfl (h returnValue)
  | failed | timeout _ | pollError _ _ => trivial

theorem open_awaitPoll (maxAttempts : ℕ) (hash : String) (i : ℕ) :
    (awaitPoll maxAttempts hash i).Open := by
  unfold awaitPoll
  split_ifs
  · trivial
  · apply open_settle
    intro returnValue h
    cases h

theorem open_afterSign (r : Except Thrown Tx) : (afterSign r).Open := by
  cases r <;> trivial

theorem open_afterSend (maxAttempts : ℕ) (sent : Except Thrown SendTransactionResponse) :
    (afterSend maxAttempts sent).Open := by
  unfold afterSend
  cases sentHash sent with
  | error err => trivial
  | ok hash => exact open_awaitPoll _ _ _

/-- After a poll there is an id only if the ledger has it. -/
theorem afterPoll_cases (maxAttempts : ℕ) (hash : String) (i : ℕ) {l : Option LedgerResult}
    {p : PollEvent} {r : Except Thrown GetTransactionResponse} (h : answerOf l p = some r) :
    (afterPoll maxAttempts hash i r).Open ∨
      ∃ v streamId, l = some (.success (some v)) ∧ scValToU64 v = some streamId ∧
        afterPoll maxAttempts hash i r = .resolving hash streamId := by
  cases r with
  | error cause => exact .inl trivial
  | ok answer =>
    cases answer with
    | notFound => exact .inl (open_awaitPoll _ _ _)
    | failed => exact .inl trivial
    | success returnValue =>
      have hl : l = some (.success returnValue) := by
        unfold answerOf at h
        split at h <;> cases h
        rfl
      cases returnValue with
      | none => exact .inl trivial
      | some v =>
        simp only [afterPoll, settle, confirmed, decode]
        cases hv : scValToU64 v with
        | none => exact .inl trivial
        | some streamId => exact .inr ⟨v, streamId, hl, hv, rfl⟩

/-- What is known of a chain and the answers it got. -/
structure Reported (c : Chain) (log : List (ChainEvent Tx)) : Prop where
  resolving : ∀ hash streamId, c.phase = .resolving hash streamId → c.HasId streamId
  done_ok : ∀ r, c.phase = .done (.ok r) → c.HasId r.streamId ∧ ∃ a, .address (.ok a) ∈ log
  address : ∀ a, .address (.ok a) ∈ log → ∃ r, c.phase = .done (.ok r)

section Run

variable {maxAttempts : ℕ} {c c' : Chain} {e : ChainEvent Tx} {log : List (ChainEvent Tx)}

/-- Before there is a result, no address has come. -/
theorem Reported.not_mem (h : Reported c log) (hp : ∀ r, c.phase ≠ .done (.ok r))
    (he : ∀ a, e ≠ .address (.ok a)) (a : Option String) :
    ChainEvent.address (.ok a) ∉ log ++ [e] := by
  intro ha
  rcases List.mem_append.mp ha with ha | ha
  · obtain ⟨r, hr⟩ := h.address a ha
    exact hp r hr
  · exact he a (List.mem_singleton.mp ha).symm

/-- A step to an open phase. -/
theorem Reported.of_open (h : Reported c log) (hp : ∀ r, c.phase ≠ .done (.ok r))
    (he : ∀ a, e ≠ .address (.ok a)) (hopen : c'.phase.Open) : Reported c' (log ++ [e]) where
  resolving hash streamId hp' := by
    rw [hp'] at hopen
    exact hopen.elim
  done_ok r hp' := by
    rw [hp'] at hopen
    exact hopen.elim
  address a ha := absurd ha (h.not_mem hp he a)

theorem Reported.step (h : Reported c log) (hs : c.step maxAttempts e = some c') :
    Reported c' (log ++ [e]) := by
  obtain ⟨r, rfl, hp, rfl⟩ | ⟨r, rfl, hp, rfl⟩ | ⟨p, r, hash, i, rfl, hp, hr, rfl⟩ |
    ⟨r, hash, streamId, rfl, hp, rfl⟩ | ⟨r, rfl, -, hl, rfl⟩ := step_cases hs
  · exact h.of_open (by simp [hp]) (by simp) (open_afterSign r)
  · exact h.of_open (by simp [hp]) (by simp) (open_afterSend maxAttempts r)
  · rcases afterPoll_cases maxAttempts hash i hr with hopen | ⟨v, streamId, hl, hv, heq⟩
    · exact h.of_open (by simp [hp]) (by simp) hopen
    · refine ⟨?_, ?_, fun a ha => absurd ha (h.not_mem (by simp [hp]) (by simp) a)⟩
      · intro hash' streamId' hp'
        cases heq.symm.trans hp'
        exact ⟨v, hl, hv⟩
      · intro r' hp'
        cases heq.symm.trans hp'
  · cases r with
    | error err => exact h.of_open (by simp [hp]) (by simp) trivial
    | ok a =>
      refine ⟨?_, ?_, fun a' _ => ⟨_, rfl⟩⟩
      · intro hash' streamId' hp'
        cases hp'
      · intro r' hp'
        cases hp'
        exact ⟨h.resolving hash streamId hp, a, by simp⟩
  · -- whoever knows an id has it from the ledger, which was empty
    have hno : ∀ streamId, ¬ c.HasId streamId := by
      rintro streamId ⟨v, hv, -⟩
      cases hl.symm.trans hv
    refine ⟨?_, ?_, ?_⟩
    · intro hash streamId hp
      exact absurd (h.resolving hash streamId hp) (hno streamId)
    · intro r' hp
      exact absurd (h.done_ok r' hp).1 (hno _)
    · intro a ha
      have ha : ChainEvent.address (.ok a) ∈ log := by simpa using ha
      exact h.address a ha

/-- **What is known after any run** of a chain that starts open. -/
theorem chain_reported {c₀ : Chain} (h₀ : c₀.phase.Open)
    (h : run (Chain.step maxAttempts) c₀ log = some c) : Reported c log := by
  refine run_induction (P := Reported) ⟨?_, ?_, ?_⟩ (fun _ _ _ _ hr hs => hr.step hs) h
  · intro hash streamId hp
    rw [hp] at h₀
    exact h₀.elim
  · intro r hp
    rw [hp] at h₀
    exact h₀.elim
  · intro a ha
    cases ha

/-- **When a settled chain is a success**: when its address was looked up. -/
theorem Reported.isOk_iff (h : Reported c log) {r : Except Thrown CreateStreamResult}
    (hp : c.phase = .done r) : r.isOk = true ↔ ∃ a, ChainEvent.address (.ok a) ∈ log := by
  constructor
  · intro hr
    cases r with
    | error err => cases hr
    | ok result => exact (h.done_ok result hp).2
  · rintro ⟨a, ha⟩
    obtain ⟨result, hresult⟩ := h.address a ha
    cases hp.symm.trans hresult
    rfl

/-- A success is confirmed on chain, under the id that is reported. -/
theorem Reported.hasId (h : Reported c log) {result : CreateStreamResult}
    (hp : c.phase = .done (.ok result)) : c.HasId result.streamId :=
  (h.done_ok result hp).1

end Run

/-! ## The functions in between -/

/-- The phases under a script of answers, for at most `n` polls. -/
def pollPhases (maxAttempts : ℕ) (getTransaction : ℕ → Except Thrown GetTransactionResponse) :
    ℕ → Phase → Phase
  | n + 1, .polling hash i =>
    pollPhases maxAttempts getTransaction n (afterPoll maxAttempts hash i (getTransaction i))
  | _, ph => ph

theorem pollPhases_of_not_polling {maxAttempts : ℕ}
    {getTransaction : ℕ → Except Thrown GetTransactionResponse} {ph : Phase}
    (h : ∀ hash i, ph ≠ .polling hash i) (n : ℕ) :
    pollPhases maxAttempts getTransaction n ph = ph := by
  cases n with
  | zero => cases ph <;> rfl
  | succ n =>
    cases ph with
    | polling hash i => exact absurd rfl (h hash i)
    | _ => rfl

theorem settle_not_polling (hash : String) (outcome : ConfirmationPollOutcome) (hash' : String)
    (i : ℕ) : settle hash outcome ≠ .polling hash' i := by
  cases outcome with
  | success returnValue =>
    cases returnValue with
    | none => exact Phase.noConfusion
    | some v =>
      simp only [settle, confirmed, decode]
      cases scValToU64 v <;> exact Phase.noConfusion
  | failed | timeout _ | pollError _ _ => exact Phase.noConfusion

/-- **The polls of a chain are `pollForConfirmation`.** -/
theorem pollPhases_awaitPoll (hash : String)
    (getTransaction : ℕ → Except Thrown GetTransactionResponse) (n i : ℕ) :
    pollPhases (i + n) getTransaction n (awaitPoll (i + n) hash i) =
      settle hash (pollFrom getTransaction n i) := by
  induction n generalizing i with
  | zero =>
    rw [awaitPoll, if_neg (by omega), pollFrom]
    exact pollPhases_of_not_polling (settle_not_polling hash _) 0
  | succ n ih =>
    have hfinal : ∀ outcome, pollPhases (i + (n + 1)) getTransaction n (settle hash outcome) =
        settle hash outcome :=
      fun outcome => pollPhases_of_not_polling (settle_not_polling hash outcome) n
    rw [awaitPoll, if_pos (by omega), pollPhases, pollFrom]
    cases getTransaction i with
    | error cause => exact hfinal (.pollError _ _)
    | ok answer =>
      cases answer with
      | notFound =>
        have := ih (i + 1)
        rw [show i + 1 + n = i + (n + 1) by omega] at this
        exact this
      | success returnValue => exact hfinal (.success returnValue)
      | failed => exact hfinal .failed

/-- **Between send and look-up a chain does what `sendAndPoll` does.** -/
theorem pollPhases_sendAndPoll (maxAttempts : ℕ) (sent : Except Thrown SendTransactionResponse)
    (getTransaction : String → ℕ → Except Thrown GetTransactionResponse) {hash : String}
    (h : sentHash sent = .ok hash) :
    pollPhases maxAttempts (getTransaction hash) maxAttempts (afterSend maxAttempts sent) =
      match sendAndPoll maxAttempts sent getTransaction with
      | .ok (hash, returnValue) => decode hash returnValue
      | .error err => .done (.error err) := by
  have hpoll := pollPhases_awaitPoll hash (getTransaction hash) maxAttempts 0
  rw [Nat.zero_add] at hpoll
  simp only [afterSend, sendAndPoll, h, hpoll, settle, pollForConfirmation, ok_seq]
  cases confirmed hash (pollFrom (getTransaction hash) maxAttempts 0) <;> rfl

end StreamFi
