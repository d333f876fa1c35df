import StreamFi.Confirm
import StreamFi.Listing

/-!
# Withdrawing

`withdraw` checks an amount against the balance and invokes the stream contract; `batchWithdraw`
does so for one item after the other. The environment's answers are given for each item.

* `withdraw`, `batchWithdrawFrom`: the code, with the loop's accumulators and its attempts;
* `AllReported`: every item attempted and reported, in order;
* **`batchWithdraw_allReported_iff`**: that is so exactly when every id is a number.
-/

namespace StreamFi

open Js

/-! ## One withdrawal -/

/-- A `bigint | string`. -/
inductive StreamIdArg where
  | bigint (n : ℤ)
  | string (s : String)
  deriving DecidableEq

/-- `BigInt(streamId)`. -/
def StreamIdArg.toBigInt : StreamIdArg → Except Thrown ℤ
  | .bigint n => .ok n
  | .string s => bigIntOf s

/-- What is answered during one withdrawal. -/
structure WithdrawAnswers (Tx : Type) where
  /-- the factory's address of a stream, at the first and at the second lookup -/
  streamAddress : ℕ → ℤ → Except Thrown (Option String)
  /-- the simulated value of `withdrawable` on a stream contract -/
  readWithdrawable : String → Except Thrown ScVal
  sender : Except Thrown String
  account : String → Except Thrown ℤ
  clock : Number
  /-- rejected, a contract error, or a success -/
  simulateTransaction : Tx → Except Thrown (Except Thrown Simulation)
  signTx : Tx → Except Thrown Tx
  sendTransaction : Tx → Except Thrown SendTransactionResponse
  getTransaction : String → ℕ → Except Thrown GetTransactionResponse

variable {Tx : Type}

def withdrawable (answers : WithdrawAnswers Tx) (id : ℤ) : Except Thrown ℤ := do
  let addr ← resolveAddr (answers.streamAddress 0) id
  let val ← answers.readWithdrawable addr
  i128OrThrow val

/-- `_invoke`. -/
def invoke (sdk : Sdk Tx) (config : StreamsConfig) (answers : WithdrawAnswers Tx)
    (contractId method : String) (args : List ScVal) : Except Thrown String := do
  let sender ← answers.sender
  let tx ← buildContractCallTx sdk config (answers.account sender) answers.clock sender contractId
    method args
  let sim ← simulated "simulateTransaction (invoke)" (answers.simulateTransaction tx)
  let assembled ← sdk.assembleTransaction tx sim
  let signed ← answers.signTx assembled
  let (hash, _) ← sendAndPoll config.maxAttempts (answers.sendTransaction signed)
    answers.getTransaction
  return hash

/-- An explicit amount must be positive. -/
def requirePositive : Option ℤ → Except Thrown Unit
  | some amount =>
    if amount ≤ 0 then throwNew "Invalid amount: must be greater than zero" else .ok ()
  | none => .ok ()

/-- An explicit amount must be available. -/
def requireAvailable (available : ℤ) : Option ℤ → Except Thrown Unit
  | some amount =>
    if available < amount then .error (amountExceedsWithdrawableError available amount) else .ok ()
  | none => .ok ()

def withdraw (sdk : Sdk Tx) (config : StreamsConfig) (answers : WithdrawAnswers Tx)
    (streamId : StreamIdArg) (amount : Option ℤ) : Except Thrown String := do
  ensureCanMutate config
  let id ← streamId.toBigInt
  requirePositive amount
  let available ← withdrawable answers id
  requireAvailable available amount
  let qty := amount.getD available
  let addr ← resolveAddr (answers.streamAddress 1) id
  let arg ← sdk.nativeToScVal (.bigint qty) (some .i128)
  invoke sdk config answers addr "withdraw" [arg]

/-! ## A list of withdrawals -/

structure BatchWithdrawPayload where
  streamId : StreamIdArg
  amount : Option ℤ := none
  deriving DecidableEq

structure BatchWithdrawResult where
  streamId : ℤ
  success : Bool
  txHash : Option String := none
  error : Option String := none
  deriving DecidableEq

/-- What is pushed for an attempt. -/
def withdrawResult (streamId : ℤ) : Except Thrown String → BatchWithdrawResult
  | .ok txHash => { streamId := streamId, success := true, txHash := some txHash }
  | .error err => { streamId := streamId, success := false, error := some err.text }

/-- The loop from item `i`, with what was pushed and, for the record, how each attempt ended. The
conversion of the id stands outside the `try`. -/
def batchWithdrawFrom (sdk : Sdk Tx) (config : StreamsConfig) (answers : ℕ → WithdrawAnswers Tx) :
    ℕ → List BatchWithdrawPayload → List BatchWithdrawResult → List (Except Thrown String) →
      Except Thrown (List BatchWithdrawResult) × List (Except Thrown String)
  | _, [], results, attempts => (.ok results, attempts)
  | i, w :: ws, results, attempts => match w.streamId.toBigInt with
    | .error err => (.error err, attempts)
    | .ok streamId =>
      let attempt := withdraw sdk config (answers i) w.streamId w.amount
      batchWithdrawFrom sdk config answers (i + 1) ws (results ++ [withdrawResult streamId attempt])
        (attempts ++ [attempt])

def batchWithdraw (sdk : Sdk Tx) (config : StreamsConfig) (answers : ℕ → WithdrawAnswers Tx)
    (withdrawals : List BatchWithdrawPayload) :
    Except Thrown (List BatchWithdrawResult) × List (Except Thrown String) :=
  match ensureCanMutate config with
  | .error err => (.error err, [])
  | .ok () => batchWithdrawFrom sdk config answers 0 withdrawals [] []

section Loop

variable {sdk : Sdk Tx} {config : StreamsConfig} {answers : ℕ → WithdrawAnswers Tx}

/-- How each item goes, from position `i` on. -/
def attemptsFrom (sdk : Sdk Tx) (config : StreamsConfig) (answers : ℕ → WithdrawAnswers Tx) (i : ℕ)
    (ws : List BatchWithdrawPayload) : List (Except Thrown String) :=
  (ws.zipIdx i).map fun (w, j) => withdraw sdk config (answers j) w.streamId w.amount

/-- The ids of a list of withdrawals. -/
def Identified (ws : List BatchWithdrawPayload) (ids : List ℤ) : Prop :=
  List.Forall₂ (fun w id => w.streamId.toBigInt = .ok id) ws ids

/-- **The loop to its end**: it attempts and reports every item that is left. -/
theorem batchWithdrawFrom_ok {ws : List BatchWithdrawPayload} {ids : List ℤ}
    (h : Identified ws ids) (i : ℕ) (results : List BatchWithdrawResult)
    (attempts : List (Except Thrown String)) :
    batchWithdrawFrom sdk config answers i ws results attempts =
      (.ok (results ++ ids.zipWith withdrawResult (attemptsFrom sdk config answers i ws)),
        attempts ++ attemptsFrom sdk config answers i ws) := by
  induction h generalizing i results attempts with
  | nil => simp [batchWithdrawFrom, attemptsFrom]
  | cons hid _ ih =>
    rw [batchWithdrawFrom, hid]
    simp only
    rw [ih]
    simp [attemptsFrom]

/-- An id that is not a number ends the loop. -/
theorem batchWithdrawFrom_error {ws : List BatchWithdrawPayload} {w : BatchWithdrawPayload}
    (hw : w ∈ ws) {err : Thrown} (herr : w.streamId.toBigInt = .error err) (i : ℕ)
    (results : List BatchWithdrawResult) (attempts : List (Except Thrown String)) :
    ∃ e, (batchWithdrawFrom sdk config answers i ws results attempts).1 = .error e := by
  induction ws generalizing i results attempts with
  | nil => cases hw
  | cons w' ws ih =>
    rw [batchWithdrawFrom]
    cases hid : w'.streamId.toBigInt with
    | error e => exact ⟨e, rfl⟩
    | ok id =>
      apply ih
      rcases List.mem_cons.mp hw with rfl | hw
      · cases herr.symm.trans hid
      · exact hw

/-- The call returns, every item was attempted, and each has its result at its own position: the
hash of an attempt that went through, and the text of what an attempt threw. -/
def AllReported (sdk : Sdk Tx) (config : StreamsConfig) (answers : ℕ → WithdrawAnswers Tx)
    (withdrawals : List BatchWithdrawPayload) : Prop :=
  let run := batchWithdraw sdk config answers withdrawals
  ∃ results, run.1 = .ok results ∧ results.length = withdrawals.length ∧
    run.2.length = withdrawals.length ∧ ∀ (i : ℕ) w, withdrawals[i]? = some w →
      ∃ streamId, w.streamId.toBigInt = .ok streamId ∧
        run.2[i]? = some (withdraw sdk config (answers i) w.streamId w.amount) ∧
        results[i]? = some
          (withdrawResult streamId (withdraw sdk config (answers i) w.streamId w.amount))

theorem getElem?_attemptsFrom {ws : List BatchWithdrawPayload} {i : ℕ} {w : BatchWithdrawPayload}
    (h : ws[i]? = some w) : (attemptsFrom sdk config answers 0 ws)[i]? =
      some (withdraw sdk config (answers i) w.streamId w.amount) := by
  simp [attemptsFrom, h]

theorem length_attemptsFrom (i : ℕ) (ws : List BatchWithdrawPayload) :
    (attemptsFrom sdk config answers i ws).length = ws.length := by
  simp [attemptsFrom]

theorem identified_of_forall {ws : List BatchWithdrawPayload}
    (h : ∀ w ∈ ws, ∃ id, w.streamId.toBigInt = .ok id) : ∃ ids, Identified ws ids := by
  induction ws with
  | nil => exact ⟨[], .nil⟩
  | cons w ws ih =>
    obtain ⟨id, hid⟩ := h w List.mem_cons_self
    obtain ⟨ids, hids⟩ := ih fun w' hw' => h w' (List.mem_cons_of_mem _ hw')
    exact ⟨id :: ids, .cons hid hids⟩

/-- **Everything is attempted and reported** exactly when every id is a number. -/
theorem batchWithdraw_allReported_iff (sdk : Sdk Tx) {config : StreamsConfig}
    (hc : config.canSign = true) (answers : ℕ → WithdrawAnswers Tx)
    (withdrawals : List BatchWithdrawPayload) :
    AllReported sdk config answers withdrawals ↔
      ∀ w ∈ withdrawals, ∃ id, w.streamId.toBigInt = .ok id := by
  have hrun : batchWithdraw sdk config answers withdrawals =
      batchWithdrawFrom sdk config answers 0 withdrawals [] [] := by
    rw [batchWithdraw, ensureCanMutate, if_pos hc]
  constructor
  · rintro ⟨results, hres, -⟩ w hw
    rw [hrun] at hres
    cases hid : w.streamId.toBigInt with
    | ok id => exact ⟨id, rfl⟩
    | error err =>
      obtain ⟨e, he⟩ : ∃ e, (batchWithdrawFrom sdk config answers 0 withdrawals [] []).1 = .error e :=
        batchWithdrawFrom_error hw hid 0 [] []
      cases hres.symm.trans he
  · intro h
    obtain ⟨ids, hids⟩ := identified_of_forall h
    have hlen := hids.length_eq
    have hwhole := hrun.trans (batchWithdrawFrom_ok hids 0 [] [])
    simp only [List.nil_append] at hwhole
    simp only [AllReported, hwhole]
    refine ⟨_, rfl, ?_, length_attemptsFrom 0 _, ?_⟩
    · rw [List.length_zipWith, length_attemptsFrom, hlen, min_self]
    · intro i w hw
      obtain ⟨hi, rfl⟩ := List.getElem?_eq_some_iff.mp hw
      have hi' : i < ids.length := hlen ▸ hi
      have htry : (attemptsFrom sdk config answers 0 withdrawals)[i]? = some _ :=
        getElem?_attemptsFrom hw
      refine ⟨ids[i], hids.get hi hi', htry, ?_⟩
      rw [List.getElem?_zipWith, List.getElem?_eq_getElem hi', htry]

end Loop

/-- Everything goes well, with a balance of 50. -/
def calmAnswers : WithdrawAnswers ℕ where
  streamAddress _ _ := .ok (some "CDLZFC3SYJYDZT7K67VZ75HPJVIEUVNIXF47ZG2FB2RMQQVU2HHGCYSC")
  readWithdrawable _ := .ok (i128Of 50)
  sender := .ok "GAAAAAAAAAAAAAAAAAAAAAAAAAAAAAAAAAAAAAAAAAAAAAAAAAAAAWHF"
  account _ := .ok 100
  clock := .fin 0
  simulateTransaction _ := .ok (.ok ⟨"data"⟩)
  signTx tx := .ok tx
  sendTransaction _ := .ok { isError := false, errorResult := none, hash := "hash" }
  getTransaction _ _ := .ok (.success none)

theorem batchWithdraw_allReported_two : AllReported standIn testnetConfig (fun _ => calmAnswers)
    [{ streamId := .string "7" }, { streamId := .bigint 8, amount := some 90 }] := by
  apply (batchWithdraw_allReported_iff standIn rfl _ _).mpr
  intro w hw
  simp only [List.mem_cons, List.not_mem_nil, or_false] at hw
  rcases hw with rfl | rfl
  · exact ⟨7, by decide⟩
  · exact ⟨8, rfl⟩

/-- The second id is not a number: the call throws, and with it goes the hash of the first. -/
theorem batchWithdraw_loses_hash :
    (batchWithdraw standIn testnetConfig (fun _ => calmAnswers)
        [{ streamId := .string "7" }, { streamId := .string "abc" }]).2 = [.ok "hash"] ∧
      ¬ AllReported standIn testnetConfig (fun _ => calmAnswers)
        [{ streamId := .string "7" }, { streamId := .string "abc" }] := by
  constructor
  · decide
  · rintro ⟨results, hres, -⟩
    have h : (batchWithdraw standIn testnetConfig (fun _ => calmAnswers)
        [{ streamId := .string "7" }, { streamId := .string "abc" }]).1.isOk = false := by
      decide
    rw [hres] at h
    cases h

end StreamFi
