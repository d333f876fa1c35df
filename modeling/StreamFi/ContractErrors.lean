import StreamFi.Amount

/-!
# Contract errors

A failed contract call is an error whose text has `Error(Contract, #n)` somewhere. `n` is looked for in
an error and its causes, and the typed error of that number is returned.

* `extractContractErrorCode`, `parseContractError`: the code;
* `Names`: the numbers a text has in it; **`contractCode_eq_none_iff`**;
* `ParsesRight`: what is said of an error; **`parsesRight_iff`**: when it is so;
  `parsesRight_abort` is an error that is none of a contract.
-/

namespace StreamFi

open Js

/-! ## The catalogue -/

inductive ConduitContract where
  | stream
  | factory
  | governor
  deriving DecidableEq

def ConduitContract.text : ConduitContract → String
  | .stream => "stream"
  | .factory => "factory"
  | .governor => "governor"

def messagesByContract : ConduitContract → List (ℕ × String)
  | .stream => [
    (1, "Caller is not the sender or recipient of this stream."),
    (2, "Stream not found."),
    (3, "This stream has been cancelled."),
    (4, "Stream has not started yet."),
    (5, "Stream has passed its end time."),
    (6, "Nothing to withdraw — balance is zero."),
    (7, "Deposit is too small for the requested stream duration."),
    (8, "end_time must be greater than start_time."),
    (9, "Stream is already paused."),
    (10, "Stream is not currently paused."),
    (11, "Clawback was not enabled when this stream was created."),
    (12, "Integer overflow in stream calculation."),
    (13, "force_cancel called before the 30-day pause threshold elapsed."),
    (14, "Stream has already been initialized."),
    (15, "Amount must be greater than zero.")]
  | .factory => [
    (1, "Factory has not been initialized."),
    (2, "Deposit must be greater than zero."),
    (3, "rate_per_sec must be greater than zero."),
    (4, "end_time must be greater than start_time."),
    (5, "Deposit doesn't cover rate_per_sec for at least one second, or the full declared duration."),
    (6, "start_time cannot be in the past."),
    (7, "Factory has already been initialized."),
    (8, "rate_per_sec exceeds the governor's max_rate_per_second."),
    (9, "Stream duration is below the governor's min_duration_seconds."),
    (10, "Integer overflow validating deposit against duration.")]
  | .governor => [
    (1, "Caller is not the current governor authority."),
    (2, "Parameter failed validation (e.g. fee_bps > 10_000, zero duration/rate)."),
    (3, "Governor has already been initialized.")]

def recoveryHintsByContract : ConduitContract → List (ℕ × String)
  | .stream => [
    (1, "Verify the calling account matches the stream’s sender or recipient; sign with the " ++
      "correct keypair, wallet, or signer for this operation."),
    (2, "Confirm the stream ID exists and was created on the network you’re currently connected to " ++
      "(mainnet vs. testnet IDs do not overlap)."),
    (3, "This stream was already cancelled — no further withdrawals, pauses, or resumes are " ++
      "possible. Create a new stream instead."),
    (4, "Wait until the stream’s startTime is reached before withdrawing or otherwise interacting with it."),
    (5, "The stream has passed its endTime. Withdraw any remaining balance; no further streaming " ++
      "will occur."),
    (6, "Call withdrawable() first — the balance may already be fully withdrawn, or the stream may " ++
      "not have accrued anything yet."),
    (7, "Increase depositAmount or shorten durationSeconds so the resulting rate covers at least " ++
      "one second of streaming."),
    (8, "Ensure endTime (or stopTime) is strictly greater than startTime."),
    (9, "The stream is already paused — call resume() before pausing it again."),
    (10, "The stream is not currently paused — pause() must be called before resume()."),
    (11, "This stream was created with clawbackEnabled: false. Clawback is only available on " ++
      "streams created with that flag set."),
    (12, "Reduce the amount, rate, or duration involved — the computation overflowed the contract’s " ++
      "128-bit integer range."),
    (13, "force_cancel requires the stream to have been paused for at least 30 days. Wait for the " ++
      "threshold to elapse, or use cancel() instead if you’re authorized to."),
    (14, "This stream contract has already been initialized — initialize() is a one-time setup call " ++
      "per deployment."),
    (15, "Provide an amount greater than zero.")]
  | .factory => [
    (1, "The factory has not been initialized yet — this is normally done once during protocol " ++
      "deployment/governance setup."),
    (2, "depositAmount must be greater than zero."),
    (3, "The computed ratePerSecond must be greater than zero — check your " ++
      "depositAmount/durationSeconds math."),
    (4, "Ensure endTime is strictly greater than startTime."),
    (5, "Increase the deposit so it covers at least one second of streaming at the given rate " ++
      "across the full declared duration."),
    (6, "startTime must be now or in the future — check for clock skew or a stale timestamp before " ++
      "building the transaction."),
    (7, "The factory has already been initialized — this is a one-time setup call."),
    (8, "Lower ratePerSecond below the governor’s configured max_rate_per_second, or ask " ++
      "governance to raise the limit."),
    (9, "Increase durationSeconds to at least the governor’s configured min_duration_seconds."),
    (10, "Reduce the deposit or duration involved — the validation computation overflowed.")]
  | .governor => [
    (1, "Only the current governor authority can perform this action — verify you’re signing with " ++
      "the configured governor address."),
    (2, "Check fee_bps (must be ≤ 10,000) and any duration/rate parameters passed to setConfig — " ++
      "one of them failed validation."),
    (3, "The governor has already been initialized — this is a one-time setup call.")]

def defaultRecoveryHint : String :=
  "No troubleshooting hint is available for this error code. Check the contract’s errors.rs and the " ++
    "Conduit protocol docs for its meaning."

/-- `table[code]`. -/
def entryOf (table : List (ℕ × String)) (code : Number) : Option String :=
  (table.find? fun entry => code = .fin entry.1).map Prod.snd

def getRecoveryHint (contract : ConduitContract) (code : Number) : String :=
  (entryOf (recoveryHintsByContract contract) code).getD defaultRecoveryHint

def stateByCode : List (ℕ × String) :=
  [(3, "cancelled"), (4, "not_started"), (5, "ended"), (9, "paused"), (10, "active")]

/-! ## Errors -/

/-- An error of a contract: a `ConduitError`, of some class, or a `ContractError`. -/
structure ContractFailure where
  name : String
  message : String
  contract : Option ConduitContract
  code : Number
  recoveryHint : String
  deriving DecidableEq

/-- `new ConduitError(contract, code, detail)`, or of a class below it. -/
def conduitError (name : String) (contract : ConduitContract) (code : Number) (detail : Option String) :
    ContractFailure where
  name := name
  message := (detail.or (entryOf (messagesByContract contract) code)).getD
    s!"ConduitError({contract.text}, #{numToText code})"
  contract := some contract
  code := code
  recoveryHint := getRecoveryHint contract code

def contractError (message : String) (contract : Option ConduitContract) (code : Number) :
    ContractFailure where
  name := "ContractError"
  message := message
  contract := contract
  code := code
  recoveryHint := (contract.map fun contract => getRecoveryHint contract code).getD defaultRecoveryHint

def governorInvalidParamError : ContractFailure :=
  conduitError "GovernorInvalidParamError" .governor (.fin 2) none

def rateExceedsMaxError : ContractFailure := conduitError "RateExceedsMaxError" .factory (.fin 8) none

def durationTooShortError : ContractFailure := conduitError "DurationTooShortError" .factory (.fin 9) none

def backdatedStreamError : ContractFailure := conduitError "BackdatedStreamError" .factory (.fin 6) none

def clawbackNotEnabledError : ContractFailure := conduitError "ClawbackNotEnabledError" .stream (.fin 11) none

def unauthorizedStreamActionError (operation caller : String) : ContractFailure :=
  conduitError "UnauthorizedStreamActionError" .stream (.fin 1)
    (some s!"'{caller}' is not authorized to perform '{operation}' on this stream.")

/-- `new StreamNotFoundError(streamId)`, which reads an id that is a text. -/
def newStreamNotFoundError (streamId : ℤ ⊕ String) : Except Thrown ContractFailure := do
  let id ← streamId.elim .ok bigIntOf
  .ok (conduitError "StreamNotFoundError" .stream (.fin 2) (some s!"Stream {id} not found"))

def invalidStreamStateError (operation : String) (code : Number) : ContractFailure :=
  conduitError "InvalidStreamStateError" .stream code (some (match entryOf stateByCode code with
    | some currentState => s!"Cannot {operation}: stream is {currentState}."
    | none => s!"Cannot {operation}: stream is in an invalid state for this action."))

/-! ## The code -/

/-- What can be asked of values that are not `null` or `undefined`: whether they are objects, the number
they have as `code`, the text they are, whether they are an `Error`, its message, and their `cause`.
A `ConduitError` has a number. -/
structure ErrorValues (α : Type) where
  isObject : α → Bool
  code : α → Option Number
  text : α → Option String
  isError : α → Bool
  message : α → String
  cause : α → Option α
  isConduitError : α → Bool
  asText : Option α → String
  code_of_conduitError : ∀ x, isConduitError x = true → (code x).isSome = true
  text_of_error : ∀ x, isError x = true → text x = none

/-- `/^Error\(Contract,\s*#(\d+)\)/.exec(text)?.[1]`. -/
def contractCodeHere (cs : List Char) : Option (List Char) :=
  if "Error(Contract,".toList <+: cs then
    match (cs.drop 15).dropWhile isSpace with
    | '#' :: rest =>
      let digits := rest.takeWhile Char.isDigit
      if digits ≠ [] ∧ (rest.drop digits.length).head? = some ')' then some digits else none
    | _ => none
  else none

/-- The first match, anywhere. -/
def contractCodeDigits : List Char → Option (List Char)
  | [] => none
  | c :: cs => (contractCodeHere (c :: cs)).or (contractCodeDigits cs)

def contractCode (text : String) : Option Number := (contractCodeDigits text.toList).map digitsToNum

section Parse

variable {α : Type} (v : ErrorValues α)

/-- The number that a value has. -/
def codeOfValue (current : α) : Option Number :=
  ((if v.isObject current then (v.code current).filter fun code =>
      code.isInteger && (Number.fin 0).lt code else none).or
    ((v.text current).bind contractCode)).or
    (if v.isError current then contractCode (v.message current) else none)

/-- The first number in a value and its causes. -/
def extractContractErrorCode : ℕ → Option α → Option Number
  | 0, _ | _, none => none
  | depth + 1, some current => (codeOfValue v current).or (extractContractErrorCode depth (v.cause current))

def contractsDefiningCode (code : Number) : List ConduitContract :=
  [.stream, .factory, .governor].filter fun contract => (entryOf (messagesByContract contract) code).isSome

structure ContractErrorContext where
  streamId : Option (ℤ ⊕ String) := none
  operation : Option String := none
  caller : Option String := none

/-- The contract whose catalogue is read, or the error that says it cannot be told. -/
def scopeOf (contract : Option ConduitContract) (code : Number) : Except ContractFailure ConduitContract :=
  match contract with
  | some contract => .ok contract
  | none => match contractsDefiningCode code with
    | [contract] => .ok contract
    | [] => .error (contractError s!"Unknown contract error code #{numToText code}." none code)
    | candidates =>
      let options := ", ".intercalate (candidates.map fun c =>
        c.text ++ " #" ++ numToText code ++ " (" ++ (entryOf (messagesByContract c) code).getD "" ++ ")")
      .error (contractError (s!"Contract error code #{numToText code} is ambiguous — it is defined by " ++
        s!"more than one contract: {options}. Pass the contract to disambiguate.") none code)

/-- The error of a number in a catalogue. -/
def typedError (scope : ConduitContract) (code : Number) (context : ContractErrorContext) :
    Except Thrown ContractFailure :=
  if (entryOf (messagesByContract scope) code).isNone then
    .ok (contractError s!"Unknown {scope.text} contract error code #{numToText code}." (some scope) code)
  else
    let other := conduitError "ConduitError" scope code none
    match scope with
    | .governor => .ok (if code = .fin 2 then governorInvalidParamError else other)
    | .factory => .ok (
        if code = .fin 8 then rateExceedsMaxError
        else if code = .fin 9 then durationTooShortError
        else if code = .fin 6 then backdatedStreamError
        else other)
    | .stream =>
      if code = .fin 11 then .ok clawbackNotEnabledError
      else match decide (code = .fin 1), truthyText context.operation, truthyText context.caller with
        | true, some operation, some caller => .ok (unauthorizedStreamActionError operation caller)
        | _, operation, _ => match decide (code = .fin 2), context.streamId with
          | true, some streamId => newStreamNotFoundError streamId
          | _, _ => match (entryOf stateByCode code).isSome, operation with
            | true, some operation => .ok (invalidStreamStateError operation code)
            | _, _ => .ok other

/-- What is returned: the value itself, a new `Error`, or one of a contract. -/
inductive ParsedError (α : Type) where
  | same (x : α)
  | plain (message : String)
  | failure (failure : ContractFailure)

def parseContractError (error : Option α) (contract : Option ConduitContract)
    (context : ContractErrorContext) : Except Thrown (ParsedError α) :=
  match error.filter v.isConduitError with
  | some error => .ok (.same error)
  | none => match extractContractErrorCode v 5 error with
    | none => .ok (((error.filter v.isError).map .same).getD (.plain (v.asText error)))
    | some code => match scopeOf contract code with
      | .error failure => .ok (.failure failure)
      | .ok scope => (typedError scope code context).map .failure

end Parse

/-! ## Numbers in a text -/

/-- The text has `Error(Contract, #n)` in it, with these digits. -/
def Names (text : List Char) (digits : List Char) : Prop :=
  (AllDigits digits ∧ digits ≠ []) ∧ ∃ pre blanks post, (∀ c ∈ blanks, isSpace c = true) ∧
    text = pre ++ ("Error(Contract,".toList ++ (blanks ++ '#' :: (digits ++ ')' :: post)))

theorem dropWhile_blanks {blanks : List Char} (h : ∀ c ∈ blanks, isSpace c = true) (rest : List Char) :
    (blanks ++ '#' :: rest).dropWhile isSpace = '#' :: rest := by
  rw [List.dropWhile_append_of_pos h]
  rfl

theorem takeWhile_digits_paren {digits : List Char} (h : AllDigits digits) (post : List Char) :
    (digits ++ ')' :: post).takeWhile Char.isDigit = digits := by
  rw [List.takeWhile_append_of_pos h]
  exact List.append_nil digits

theorem contractCodeHere_iff {cs digits : List Char} : contractCodeHere cs = some digits ↔
    (AllDigits digits ∧ digits ≠ []) ∧ ∃ blanks post, (∀ c ∈ blanks, isSpace c = true) ∧
      cs = "Error(Contract,".toList ++ (blanks ++ '#' :: (digits ++ ')' :: post)) := by
  unfold contractCodeHere
  constructor
  · intro h
    split_ifs at h with hprefix
    obtain ⟨rest, rfl⟩ := hprefix
    have hrest : ("Error(Contract,".toList ++ rest).drop 15 = rest := List.drop_left' (by decide)
    rw [hrest] at h
    split at h
    · rename_i rest' hdrop
      dsimp only at h
      split_ifs at h with hdigits
      obtain rfl := Option.some.inj h
      obtain ⟨hne, hclose⟩ := hdigits
      refine ⟨⟨fun c hc => List.mem_takeWhile_imp hc, hne⟩, rest.takeWhile isSpace,
        (rest'.drop (rest'.takeWhile Char.isDigit).length).tail, fun c hc => List.mem_takeWhile_imp hc, ?_⟩
      have htail : ')' :: (rest'.drop (rest'.takeWhile Char.isDigit).length).tail =
          rest'.drop (rest'.takeWhile Char.isDigit).length := List.cons_head?_tail hclose
      have hsplit : rest'.takeWhile Char.isDigit ++ rest'.drop (rest'.takeWhile Char.isDigit).length = rest' :=
        List.prefix_iff_eq_append.mp (List.takeWhile_prefix _)
      rw [htail, hsplit, ← hdrop, List.takeWhile_append_dropWhile]
    · cases h
  · rintro ⟨⟨hdigits, hne⟩, blanks, post, hblanks, rfl⟩
    have hrest (rest : List Char) : ("Error(Contract,".toList ++ rest).drop 15 = rest :=
      List.drop_left' (by decide)
    rw [if_pos (List.prefix_append _ _), hrest, dropWhile_blanks hblanks]
    simp only [takeWhile_digits_paren hdigits, List.drop_left]
    exact if_pos ⟨hne, rfl⟩

theorem names_cons_iff {c : Char} {cs digits : List Char} :
    Names (c :: cs) digits ↔ contractCodeHere (c :: cs) = some digits ∨ Names cs digits := by
  rw [contractCodeHere_iff]
  constructor
  · rintro ⟨hdigits, pre, blanks, post, hblanks, h⟩
    cases pre with
    | nil => exact .inl ⟨hdigits, blanks, post, hblanks, h⟩
    | cons d pre => exact .inr ⟨hdigits, pre, blanks, post, hblanks, (List.cons.inj h).2⟩
  · rintro (⟨hdigits, blanks, post, hblanks, h⟩ | ⟨hdigits, pre, blanks, post, hblanks, rfl⟩)
    · exact ⟨hdigits, [], blanks, post, hblanks, h⟩
    · exact ⟨hdigits, c :: pre, blanks, post, hblanks, rfl⟩

/-- **A text without a number** is one in which none is found. -/
theorem contractCodeDigits_eq_none_iff {cs : List Char} :
    contractCodeDigits cs = none ↔ ∀ digits, ¬ Names cs digits := by
  induction cs with
  | nil =>
    refine iff_of_true rfl ?_
    rintro digits ⟨-, pre, blanks, post, -, h⟩
    have hlength := congrArg List.length h
    simp at hlength
  | cons c cs ih =>
    rw [contractCodeDigits, Option.or_eq_none_iff, ih]
    simp only [names_cons_iff, not_or, forall_and]
    refine and_congr_left' ?_
    rw [Option.eq_none_iff_forall_ne_some]

/-! ## What is returned -/

section Returned

variable {α : Type} {v : ErrorValues α} {x : α} {scope : ConduitContract} {code : Number}
  {contract : Option ConduitContract} {context : ContractErrorContext} {f : ContractFailure}

/-- **The error of a number has it.** -/
theorem code_of_typedError (h : typedError scope code context = .ok f) : f.code = code := by
  unfold typedError at h
  by_cases hknown : (entryOf (messagesByContract scope) code).isNone = true
  · rw [if_pos hknown] at h
    obtain rfl := Except.ok.inj h
    rfl
  · rw [if_neg hknown] at h
    cases scope with
    | governor =>
      dsimp only at h
      split_ifs at h with hcode <;> obtain rfl := Except.ok.inj h
      · exact hcode.symm
      · rfl
    | factory =>
      dsimp only at h
      split_ifs at h with hcode hcode hcode <;> obtain rfl := Except.ok.inj h
      · exact hcode.symm
      · exact hcode.symm
      · exact hcode.symm
      · rfl
    | stream =>
      dsimp only at h
      split_ifs at h with hcode
      · obtain rfl := Except.ok.inj h
        exact hcode.symm
      · split at h
        · rename_i hone _ _
          obtain rfl := Except.ok.inj h
          exact (of_decide_eq_true hone).symm
        · split at h
          · rename_i htwo _
            obtain ⟨id, -, h⟩ := seq_ok_iff.mp h
            obtain rfl := Except.ok.inj h
            exact (of_decide_eq_true htwo).symm
          · split at h <;> obtain rfl := Except.ok.inj h <;> rfl

theorem code_of_scopeOf (h : scopeOf contract code = .error f) : f.code = code := by
  unfold scopeOf at h
  split at h
  · cases h
  · split at h
    · cases h
    · obtain rfl := Except.error.inj h
      rfl
    · obtain rfl := Except.error.inj h
      rfl

/-- An id of a stream that is a text, if it is read, is an integer. -/
def IdReadable (contract : Option ConduitContract) (context : ContractErrorContext) (code : Number) : Prop :=
  contract = some .stream → code = .fin 2 → ∀ s, context.streamId = some (.inr s) → (bigInt s).isSome = true

theorem contract_of_scopeOf (h : scopeOf contract (.fin 2) = .ok scope) : contract = some scope := by
  cases contract with
  | none => cases h
  | some contract => exact congrArg some (Except.ok.inj h)

theorem typedError_two {streamId : ℤ ⊕ String} (h : context.streamId = some streamId) :
    typedError .stream (.fin 2) context = newStreamNotFoundError streamId := by
  have hone : decide (Number.fin 2 = .fin 1) = false := by decide
  have htwo : decide (Number.fin 2 = .fin 2) = true := by decide
  unfold typedError
  rw [if_neg (by decide)]
  dsimp only
  rw [if_neg (by decide), hone, htwo, h]

/-- **The error of a number can be made** unless it takes an id that is none. -/
theorem exists_typedError (hscope : scopeOf contract code = .ok scope)
    (h : IdReadable contract context code) : ∃ f, typedError scope code context = .ok f := by
  unfold typedError
  by_cases hknown : (entryOf (messagesByContract scope) code).isNone = true
  · rw [if_pos hknown]
    exact ⟨_, rfl⟩
  · rw [if_neg hknown]
    cases scope with
    | governor => exact ⟨_, rfl⟩
    | factory => exact ⟨_, rfl⟩
    | stream =>
      dsimp only
      split_ifs
      · exact ⟨_, rfl⟩
      · split
        · exact ⟨_, rfl⟩
        · split
          · rename_i streamId htwo hid
            obtain rfl := of_decide_eq_true htwo
            cases streamId with
            | inl id => exact ⟨_, rfl⟩
            | inr s =>
              obtain ⟨id, hs⟩ := Option.isSome_iff_exists.mp (h (contract_of_scopeOf hscope) rfl s hid)
              simp only [newStreamNotFoundError, Sum.elim_inr, bigIntOf, hs, ok_seq]
              exact ⟨_, rfl⟩
          · split <;> exact ⟨_, rfl⟩

theorem idReadable_of_typedError (hscope : scopeOf contract code = .ok scope)
    (h : typedError scope code context = .ok f) : IdReadable contract context code := by
  rintro rfl rfl s hs
  obtain rfl := Except.ok.inj hscope
  rw [typedError_two hs] at h
  obtain ⟨id, hid, -⟩ := seq_ok_iff.mp h
  rw [Sum.elim_inr, bigIntOf] at hid
  cases hbig : bigInt s with
  | none =>
    rw [hbig] at hid
    cases hid
  | some n => rfl

/-- The `k`-th cause. -/
def causeAt (v : ErrorValues α) (x : α) : ℕ → Option α
  | 0 => some x
  | k + 1 => (causeAt v x k).bind v.cause

theorem causeAt_succ (k : ℕ) : causeAt v x (k + 1) = (v.cause x).bind fun y => causeAt v y k := by
  induction k with
  | zero => simp [causeAt]
  | succ k ih =>
    rw [causeAt, ih, Option.bind_assoc]
    rfl

/-- **A number is found** in one of the first values of a chain, or in none. -/
theorem extract_eq_none_iff (depth : ℕ) : extractContractErrorCode v depth (some x) = none ↔
    ∀ k < depth, ∀ y, causeAt v x k = some y → codeOfValue v y = none := by
  induction depth generalizing x with
  | zero => exact iff_of_true rfl fun k hk => absurd hk (Nat.not_lt_zero k)
  | succ depth ih =>
    rw [extractContractErrorCode, Option.or_eq_none_iff]
    constructor
    · rintro ⟨hx, hcause⟩ k hk y hy
      cases k with
      | zero =>
        obtain rfl := Option.some.inj hy
        exact hx
      | succ k =>
        rw [causeAt_succ] at hy
        obtain ⟨z, hz, hy⟩ := Option.bind_eq_some_iff.mp hy
        rw [hz] at hcause
        exact ih.mp hcause k (Nat.lt_of_succ_lt_succ hk) y hy
    · intro h
      refine ⟨h 0 (Nat.succ_pos depth) x rfl, ?_⟩
      cases hz : v.cause x with
      | none => cases depth <;> rfl
      | some z =>
        refine ih.mpr fun k hk y hy => h (k + 1) (Nat.succ_lt_succ hk) y ?_
        rw [causeAt_succ, hz]
        exact hy

theorem parse_same_iff (hx : v.isError x = true) :
    parseContractError v (some x) contract context = .ok (.same x) ↔
      v.isConduitError x = true ∨ extractContractErrorCode v 5 (some x) = none := by
  unfold parseContractError
  cases hconduit : v.isConduitError x with
  | true =>
    rw [Option.filter_some_pos hconduit]
    exact iff_of_true rfl (.inl rfl)
  | false =>
    rw [Option.filter_some_neg (by simp [hconduit])]
    cases hcode : extractContractErrorCode v 5 (some x) with
    | none =>
      rw [Option.filter_some_pos hx]
      exact iff_of_true rfl (.inr rfl)
    | some code =>
      refine iff_of_false ?_ (by simp)
      dsimp only
      cases scopeOf contract code with
      | error f => simp
      | ok scope =>
        dsimp only
        cases typedError scope code context with
        | error e => simp [Except.map]
        | ok f => simp [Except.map]

/-- **An error with a number** becomes one of that number. -/
theorem exists_failure_iff (hx : v.isConduitError x = false)
    (hcode : extractContractErrorCode v 5 (some x) = some code) {c : Number} :
    (∃ f, parseContractError v (some x) contract context = .ok (.failure f) ∧ f.code = c) ↔
      c = code ∧ IdReadable contract context code := by
  unfold parseContractError
  rw [Option.filter_some_neg (by simp [hx]), hcode]
  dsimp only
  cases hscope : scopeOf contract code with
  | error f =>
    have hreadable : IdReadable contract context code := by
      rintro rfl
      cases hscope
    constructor
    · rintro ⟨f', h, rfl⟩
      obtain rfl := ParsedError.failure.inj (Except.ok.inj h)
      exact ⟨code_of_scopeOf hscope, hreadable⟩
    · rintro ⟨rfl, -⟩
      exact ⟨f, rfl, code_of_scopeOf hscope⟩
  | ok scope =>
    constructor
    · rintro ⟨f, h, rfl⟩
      obtain ⟨f', hf, heq⟩ := map_ok_iff.mp h
      obtain rfl := ParsedError.failure.inj heq
      exact ⟨code_of_typedError hf, idReadable_of_typedError hscope hf⟩
    · rintro ⟨rfl, hreadable⟩
      obtain ⟨f, hf⟩ := exists_typedError hscope hreadable
      refine ⟨f, ?_, code_of_typedError hf⟩
      dsimp only
      rw [hf]
      rfl

end Returned

section Claim

variable {α : Type} (v : ErrorValues α) (isSorobanError : α → Prop) (contract : Option ConduitContract)
  (context : ContractErrorContext) (x : α)

/-- The error, or one of its causes, says that a contract failed. -/
def OfContract : Prop := ∃ k y, causeAt v x k = some y ∧
  (isSorobanError y ∨ v.isError y = true ∧ ∃ digits, Names (v.message y).toList digits)

structure ParsesRight : Prop where
  /-- An error that is of no contract is returned as it is, -/
  unchanged : ¬ OfContract v isSorobanError x → parseContractError v (some x) contract context = .ok (.same x)
  /-- and one that names a number in its message, and has none itself, becomes one of this number. -/
  named : ∀ digits, Names (v.message x).toList digits → v.code x = none →
    ∃ f, parseContractError v (some x) contract context = .ok (.failure f) ∧ f.code = .fin (digitsValue digits)

/-- It is not taken for a number, and is no text with one. -/
def Numberless (y : α) : Prop :=
  (∀ code, v.isObject y = true → v.code y = some code → ¬ (code.isInteger = true ∧ (Number.fin 0).lt code = true)) ∧
    ∀ text, v.text y = some text → ∀ digits, ¬ Names text.toList digits

structure Parsable : Prop where
  numberless : ¬ OfContract v isSorobanError x →
    v.isConduitError x = true ∨ ∀ k < 5, ∀ y, causeAt v x k = some y → Numberless v y
  /-- The message names one number, which is a double. -/
  one : ∀ digits, Names (v.message x).toList digits → v.code x = none →
    contractCode (v.message x) = some (.fin (digitsValue digits)) ∧
      IdReadable contract context (.fin (digitsValue digits))

variable {v isSorobanError contract context x}

theorem contractCode_eq_none_iff {text : String} :
    contractCode text = none ↔ ∀ digits, ¬ Names text.toList digits := by
  rw [contractCode, Option.map_eq_none_iff, contractCodeDigits_eq_none_iff]

theorem codeOfValue_eq_none_iff {y : α} : codeOfValue v y = none ↔
    Numberless v y ∧ (v.isError y = true → ∀ digits, ¬ Names (v.message y).toList digits) := by
  unfold codeOfValue Numberless
  rw [Option.or_eq_none_iff, Option.or_eq_none_iff]
  refine and_congr (and_congr ?_ ?_) ?_
  · cases v.isObject y with
    | false => simp
    | true => simp [Option.filter_eq_none_iff]
  · rw [Option.bind_eq_none_iff]
    exact forall₂_congr fun text _ => contractCode_eq_none_iff
  · rw [← contractCode_eq_none_iff]
    cases v.isError y <;> simp

/-- An error without a number of its own has that of its message. -/
theorem codeOfValue_of_error (hx : v.isError x = true) (hcode : v.code x = none) :
    codeOfValue v x = contractCode (v.message x) := by
  rw [codeOfValue, hcode, v.text_of_error x hx, if_pos hx]
  simp

end Claim

/-- **When an error is parsed right.** -/
theorem parsesRight_iff {α : Type} (v : ErrorValues α) (isSorobanError : α → Prop)
    (contract : Option ConduitContract) (context : ContractErrorContext) {x : α} (hx : v.isError x = true) :
    ParsesRight v isSorobanError contract context x ↔ Parsable v isSorobanError contract context x := by
  have hnamed {digits : List Char} (hnames : Names (v.message x).toList digits) (hcode : v.code x = none) :
      v.isConduitError x = false ∧ ∃ c, contractCode (v.message x) = some c ∧
        extractContractErrorCode v 5 (some x) = some c := by
    refine ⟨?_, ?_⟩
    · by_contra hconduit
      have hsome := v.code_of_conduitError x (by simpa using hconduit)
      rw [hcode] at hsome
      cases hsome
    · cases hc : contractCode (v.message x) with
      | none => exact absurd hnames (contractCode_eq_none_iff.mp hc digits)
      | some c =>
        refine ⟨c, rfl, ?_⟩
        rw [extractContractErrorCode, codeOfValue_of_error hx hcode, hc, Option.some_or]
  constructor
  · intro h
    refine ⟨fun hnot => ?_, fun digits hnames hcode => ?_⟩
    · rcases (parse_same_iff hx).mp (h.unchanged hnot) with hconduit | hnone
      · exact .inl hconduit
      · refine .inr fun k hk y hy => ?_
        exact (codeOfValue_eq_none_iff.mp ((extract_eq_none_iff 5).mp hnone k hk y hy)).1
    · obtain ⟨hconduit, c, hc, hextract⟩ := hnamed hnames hcode
      obtain ⟨rfl, hreadable⟩ := (exists_failure_iff hconduit hextract).mp (h.named digits hnames hcode)
      exact ⟨hc, hreadable⟩
  · intro h
    refine ⟨fun hnot => (parse_same_iff hx).mpr ?_, fun digits hnames hcode => ?_⟩
    · refine (h.numberless hnot).imp_right fun hnumberless => (extract_eq_none_iff 5).mpr fun k hk y hy => ?_
      refine codeOfValue_eq_none_iff.mpr ⟨hnumberless k hk y hy, fun herror digits hnames => ?_⟩
      exact hnot ⟨k, y, hy, .inr ⟨herror, digits, hnames⟩⟩
    · obtain ⟨hone, hreadable⟩ := h.one digits hnames hcode
      obtain ⟨hconduit, c, hc, hextract⟩ := hnamed hnames hcode
      obtain rfl := Option.some.inj (hone.symm.trans hc)
      exact (exists_failure_iff hconduit hextract).mpr ⟨rfl, hreadable⟩

/-- One error without a cause. -/
def singleError (message : String) (code : Option Number) : ErrorValues Unit where
  isObject _ := true
  code _ := code
  text _ := none
  isError _ := true
  message _ := message
  cause _ := none
  isConduitError _ := false
  asText _ := message
  code_of_conduitError _ h := (by cases h)
  text_of_error _ _ := rfl

theorem parsesRight_iff_network : ParsesRight (singleError "fetch failed" none) (fun _ => False) none {} () := by
  have hnone : contractCode "fetch failed" = none := by decide
  refine (parsesRight_iff _ _ _ _ rfl).mpr ⟨fun _ => .inr fun k _ y _ => ⟨?_, ?_⟩, fun digits h _ => ?_⟩
  · intro code _ h
    cases h
  · intro text h
    cases h
  · exact absurd h (contractCode_eq_none_iff.mp hnone digits)

/-- An aborted request has the number 20. -/
theorem parsesRight_abort : ¬ ParsesRight (singleError "This operation was aborted" (some (.fin 20)))
    (fun _ => False) none {} () := by
  intro h
  have hnone : contractCode "This operation was aborted" = none := by decide
  have hnot : ¬ OfContract (singleError "This operation was aborted" (some (.fin 20))) (fun _ => False) () := by
    rintro ⟨k, y, -, hsoroban | ⟨-, digits, hnames⟩⟩
    · exact hsoroban
    · exact contractCode_eq_none_iff.mp hnone digits hnames
  rcases (parse_same_iff rfl).mp (h.unchanged hnot) with hconduit | hextract
  · cases hconduit
  · revert hextract
    decide

end StreamFi
