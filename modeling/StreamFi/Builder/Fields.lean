import StreamFi.Batch.Execute
import StreamFi.Create.Args
import StreamFi.Js.Numeral
import StreamFi.Run.Pool

/-!
# The stream builder

`StreamBuilder` collects the fields of a stream with setters that check what they are given, and
turns them into a payload or into the arguments of `create_stream`.

* `positiveOf`: how an amount or a rate is read; `Setter`, `StreamBuilder.set`: the setters;
* `StreamBuilder.build`, `toContractArgs`, `toBatchOperation`: what they lead to;
* `StreamBuilder.Checked`: what the setters have made sure of, by **`checked_run`** after every
  sequence of them;
* **`toContractArgs_ok_iff`**: when there is a vector, and what it is.
-/

namespace StreamFi

open Js

/-! ## Numeric fields -/

/-- A `number | bigint | string`. -/
inductive NumericArg where
  | number (x : Double)
  | bigint (n : ℤ)
  | string (s : String)

/-- A `number | bigint`. -/
inductive Numeric where
  | number (x : Double)
  | bigint (n : ℤ)
  deriving DecidableEq

/-- `String(v)`. -/
def Numeric.text : Numeric → String
  | .number x => numToText x.val
  | .bigint n => toString n

def Numeric.value : Numeric → Value ScVal
  | .number x => .number x.val
  | .bigint n => .bigint n

/-- `/^-?\d+$/`. -/
def SignedDigits (cs : List Char) : Prop :=
  let ds := if cs.head? = some '-' then cs.tail else cs
  ds ≠ [] ∧ AllDigits ds

instance (cs : List Char) : Decidable (SignedDigits cs) := inferInstanceAs (Decidable (_ ∧ _))

/-- An integer in a string is kept as a bigint, anything else goes through `Number`. -/
def normalizeNumeric : NumericArg → Numeric
  | .number x => .number x
  | .bigint n => .bigint n
  | .string s =>
    let trimmed := trim s.toList
    if SignedDigits trimmed then
      match bigInt (String.ofList trimmed) with
      | some n => .bigint n
      | none => .number (.ofString (String.ofList trimmed))
    else .number (.ofString (String.ofList trimmed))

/-- The check of an amount or a rate. -/
def positiveOf (field : String) (val : NumericArg) : Except Thrown Numeric :=
  match normalizeNumeric val with
  | .bigint n =>
    if n ≤ 0 then throwNew s!"Invalid StreamBuilder parameter: {field} must be a positive value"
    else .ok (.bigint n)
  | .number x =>
    if ¬ x.val.isFinite ∨ x.val.le (.fin 0) then
      throwNew s!"Invalid StreamBuilder parameter: {field} must be a positive finite number"
    else .ok (.number x)

/-! ## The builder -/

inductive Memo where
  | none
  | text (s : String)
  | id (s : String)
  | hash (s : String)
  | return (s : String)
  deriving DecidableEq

inductive MemoArg where
  | string (s : String)
  | memo (m : Memo)

structure StreamBuilder where
  token : Option String := none
  sender : Option String := none
  recipient : Option String := none
  amount : Option Numeric := none
  ratePerSecond : Option Numeric := none
  startTime : Option Number := none
  endTime : Option Number := none
  clawbackEnabled : Option Bool := none
  cancelable : Option Bool := none
  clawbackable : Option Bool := none
  memo : Option Memo := none
  isDestroyed : Bool := false
  deriving DecidableEq

/-- `errors.ValidationError`. -/
def validationError (issues : List String) : Thrown :=
  errorOf "ValidationError" <|
    match issues with
    | [issue] => issue
    | issues => s!"{issues.length} validation issue(s): {joinErrors issues}"

variable {Tx : Type}

/-- `_validateAddress`, for a field that is to satisfy `valid`. -/
def validateAddress (valid : String → Bool) (field requirement address : String) :
    Except Thrown String :=
  if Blank address then
    throwNew s!"Invalid StreamBuilder parameter: {field} must be a non-empty string"
  else if valid address then .ok address
  else throwNew
    s!"Invalid StreamBuilder parameter: {field} must be {requirement}, got \"{address}\""

def contractRequirement : String := "a valid Soroban contract ID (C-address)"

def accountRequirement : String :=
  "a valid Stellar public key or contract address (G-address or C-address)"

/-- A call of a setter; the one for the start time also reads the clock, in seconds. -/
inductive Setter where
  | token (address : String)
  | sender (address : String)
  | recipient (address : String)
  | amount (val : NumericArg)
  | ratePerSecond (val : NumericArg)
  | startTime (val : Number) (now : ℕ)
  | endTime (val : Number)
  | clawbackEnabled (val : Bool)
  | setCancelable (cancelable : Bool)
  | setClawbackable (clawbackable : Bool)
  | withMemo (memo : MemoArg)

namespace StreamBuilder

/-- The check of a timestamp. -/
def requireTimestamp (field : String) (val : Number) : Except Thrown Unit :=
  if ¬ val.isInteger ∨ val.lt (.fin 0) then throwNew
    s!"Invalid StreamBuilder parameter: {field} must be a non-negative integer Unix timestamp"
  else .ok ()

def set (sdk : Sdk Tx) (b : StreamBuilder) : Setter → Except Thrown StreamBuilder
  | .token address => do
    let token ← validateAddress sdk.isValidContract "token" contractRequirement address
    return { b with token := some token }
  | .sender address => do
    let sender ← validateAddress (isValidAddress sdk) "sender" accountRequirement address
    return { b with sender := some sender }
  | .recipient address => do
    let recipient ← validateAddress (isValidAddress sdk) "recipient" accountRequirement address
    return { b with recipient := some recipient }
  | .amount val => do
    let amount ← positiveOf "amount" val
    return { b with amount := some amount }
  | .ratePerSecond val => do
    let rate ← positiveOf "ratePerSecond" val
    return { b with ratePerSecond := some rate }
  | .startTime val now => do
    requireTimestamp "startTime" val
    if val.lt (.fin now) then
      throwNew "Invalid StreamBuilder parameter: startTime cannot be in the past"
    else return { b with startTime := some val }
  | .endTime val => do
    requireTimestamp "endTime" val
    return { b with endTime := some val }
  | .clawbackEnabled val => .ok { b with clawbackEnabled := some val }
  | .setCancelable cancelable => .ok { b with cancelable := some cancelable }
  | .setClawbackable clawbackable =>
    .ok { b with clawbackable := some clawbackable, clawbackEnabled := some clawbackable }
  | .withMemo (.string s) =>
    if s.utf8ByteSize ≤ 28 then .ok { b with memo := some (.text s) }
    else .error (validationError
      ["memo is invalid: Expects string, array or buffer, max 28 bytes"])
  | .withMemo (.memo m) => .ok { b with memo := some m }

/-- A setter that throws leaves the builder as it was. -/
def after (sdk : Sdk Tx) (b : StreamBuilder) (s : Setter) : Option StreamBuilder :=
  match b.set sdk s with
  | .ok b' => some b'
  | .error _ => some b

/-- A builder that a sequence of setter calls leads to. -/
def Reachable (sdk : Sdk Tx) (b : StreamBuilder) : Prop :=
  ∃ setters, Run.run (after sdk) {} setters = some b

/-- `validate`. -/
def validate (b : StreamBuilder) : List String :=
  (if b.token = none then ["token is required"] else []) ++
  (if b.sender = none then ["sender is required"] else []) ++
  (if b.recipient = none then ["recipient is required"] else []) ++
  (if b.amount = none then ["amount is required"] else [])

end StreamBuilder

/-- What `build` returns, bigints as text. -/
structure StreamConfig where
  token : String
  sender : String
  recipient : String
  amount : String
  ratePerSecond : Option String
  startTime : Option Number
  endTime : Option Number
  clawbackEnabled : Option Bool
  cancelable : Option Bool
  clawbackable : Option Bool
  deriving DecidableEq

/-- The object, with the fields that are present. -/
def StreamConfig.toValue (config : StreamConfig) : Value ScVal :=
  .object <|
    [("token", .string config.token), ("sender", .string config.sender),
      ("recipient", .string config.recipient), ("amount", .string config.amount)] ++
    (config.ratePerSecond.map fun s => ("ratePerSecond", Value.string s)).toList ++
    (config.startTime.map fun x => ("startTime", Value.number x)).toList ++
    (config.endTime.map fun x => ("endTime", Value.number x)).toList ++
    (config.clawbackEnabled.map fun b => ("clawbackEnabled", Value.bool b)).toList ++
    (config.cancelable.map fun b => ("cancelable", Value.bool b)).toList ++
    (config.clawbackable.map fun b => ("clawbackable", Value.bool b)).toList

namespace StreamBuilder

def build (b : StreamBuilder) : Except Thrown StreamConfig :=
  if b.isDestroyed then throwNew "StreamBuilder has been destroyed"
  else match b.token, b.sender, b.recipient, b.amount with
    | some token, some sender, some recipient, some amount => .ok
        { token := token, sender := sender, recipient := recipient, amount := amount.text
          ratePerSecond := b.ratePerSecond.map Numeric.text
          startTime := b.startTime, endTime := b.endTime, clawbackEnabled := b.clawbackEnabled
          cancelable := b.cancelable, clawbackable := b.clawbackable }
    | _, _, _, _ => .error (validationError b.validate)

/-- `toContractArgs`, at the clock reading `now`, in seconds. -/
def toContractArgs (sdk : Sdk Tx) (b : StreamBuilder) (now : ℕ) : Except Thrown (List ScVal) := do
  let config ← b.build
  match b.ratePerSecond with
  | none => throwNew ("Invalid StreamBuilder parameter: ratePerSecond is required to build " ++
      "create_stream contract arguments")
  | some ratePerSecond =>
    let start := b.startTime.getD (.fin now)
    let stop := b.endTime.getD (.fin 0)
    let sender ← sdk.addressToScVal config.sender
    let recipient ← sdk.addressToScVal config.recipient
    let token ← sdk.addressToScVal config.token
    let amount ← sdk.nativeToScVal (.string config.amount) (some .i128)
    let rate ← sdk.nativeToScVal ratePerSecond.value (some .i128)
    let start ← sdk.nativeToScVal (.number start) (some .u64)
    let stop ← sdk.nativeToScVal (.number stop) (some .u64)
    return [sender, recipient, token, amount, rate, start, stop,
      boolToScVal (b.clawbackEnabled.getD false)]

def toBatchOperation (sdk : Sdk Tx) (b : StreamBuilder) (now : ℕ)
    (method : String := "create_stream") : Except Thrown BatchOperation := do
  let args ← b.toContractArgs sdk now
  return { method := method, params := some [], args := some (args.map .host) }

end StreamBuilder

/-! ## What the setters make sure of -/

/-- Positive and finite. -/
def Numeric.Positive : Numeric → Prop
  | .number x => ∃ q, x.val = .fin q ∧ 0 < q
  | .bigint n => 0 < n

theorem positiveOf_positive {field : String} {val : NumericArg} {v : Numeric}
    (h : positiveOf field val = .ok v) : v.Positive := by
  unfold positiveOf throwNew at h
  split at h
  · split_ifs at h with hn
    cases h
    exact not_le.mp hn
  · rename_i x _
    split_ifs at h with hx
    cases h
    obtain ⟨hfin, hpos⟩ := not_or.mp hx
    show ∃ q, x.val = .fin q ∧ 0 < q
    cases hval : x.val with
    | fin q =>
      rw [hval] at hpos
      exact ⟨q, rfl, by simpa using hpos⟩
    | nan | posInf | negInf =>
      rw [hval] at hfin
      exact absurd (by simp [Number.isFinite]) hfin

theorem validateAddress_ok {valid : String → Bool} {field requirement address a : String}
    (h : validateAddress valid field requirement address = .ok a) :
    a = address ∧ a ≠ "" ∧ valid a = true := by
  unfold validateAddress throwNew at h
  split_ifs at h with hb hv
  cases h
  refine ⟨rfl, ?_, hv⟩
  rintro rfl
  exact hb (by decide)

namespace StreamBuilder

/-- What the setters have made sure of. -/
structure Checked (sdk : Sdk Tx) (b : StreamBuilder) : Prop where
  token : ∀ a, b.token = some a → sdk.isValidContract a = true ∧ isValidAddress sdk a = true
  sender : ∀ a, b.sender = some a → isValidAddress sdk a = true
  recipient : ∀ a, b.recipient = some a → isValidAddress sdk a = true
  amount : ∀ v, b.amount = some v → v.Positive
  ratePerSecond : ∀ v, b.ratePerSecond = some v → v.Positive
  startTime : ∀ x, b.startTime = some x → ∃ n : ℕ, x = .fin n
  endTime : ∀ x, b.endTime = some x → ∃ n : ℕ, x = .fin n
  live : b.isDestroyed = false

section Checked

variable {sdk : Sdk Tx} {b b' : StreamBuilder} {s : Setter}

theorem requireTimestamp_ok {field : String} {val : Number}
    (h : requireTimestamp field val = .ok ()) : ∃ n : ℕ, val = .fin n := by
  unfold requireTimestamp throwNew at h
  split_ifs at h with hx
  obtain ⟨hint, hneg⟩ := not_or.mp hx
  obtain ⟨n, rfl⟩ := Number.isInteger_iff.mp (by simpa using hint)
  have hn : 0 ≤ n := by simpa using hneg
  lift n to ℕ using hn
  exact ⟨n, by norm_cast⟩

theorem checked_empty (sdk : Sdk Tx) : Checked sdk {} := by
  constructor <;> simp

/-- **A setter that returns has checked what it sets.** -/
theorem checked_set (hb : b.Checked sdk) (h : b.set sdk s = .ok b') : b'.Checked sdk := by
  cases s with
  | token address =>
    obtain ⟨a, ha, h⟩ := seq_ok_iff.mp h
    cases h
    obtain ⟨-, hne, hvalid⟩ := validateAddress_ok ha
    refine { hb with token := ?_ }
    intro a' ha'
    cases ha'
    exact ⟨hvalid, by simp [isValidAddress, hne, hvalid]⟩
  | sender address =>
    obtain ⟨a, ha, h⟩ := seq_ok_iff.mp h
    cases h
    refine { hb with sender := ?_ }
    intro a' ha'
    cases ha'
    exact (validateAddress_ok ha).2.2
  | recipient address =>
    obtain ⟨a, ha, h⟩ := seq_ok_iff.mp h
    cases h
    refine { hb with recipient := ?_ }
    intro a' ha'
    cases ha'
    exact (validateAddress_ok ha).2.2
  | amount val =>
    obtain ⟨v, hv, h⟩ := seq_ok_iff.mp h
    cases h
    refine { hb with amount := ?_ }
    intro v' hv'
    cases hv'
    exact positiveOf_positive hv
  | ratePerSecond val =>
    obtain ⟨v, hv, h⟩ := seq_ok_iff.mp h
    cases h
    refine { hb with ratePerSecond := ?_ }
    intro v' hv'
    cases hv'
    exact positiveOf_positive hv
  | startTime val now =>
    obtain ⟨⟨⟩, hval, h⟩ := seq_ok_iff.mp h
    unfold throwNew at h
    split_ifs at h
    cases h
    refine { hb with startTime := ?_ }
    intro x hx
    cases hx
    exact requireTimestamp_ok hval
  | endTime val =>
    obtain ⟨⟨⟩, hval, h⟩ := seq_ok_iff.mp h
    cases h
    refine { hb with endTime := ?_ }
    intro x hx
    cases hx
    exact requireTimestamp_ok hval
  | clawbackEnabled val | setCancelable val | setClawbackable val =>
    cases h
    exact { hb with }
  | withMemo memo =>
    cases memo with
    | memo m =>
      cases h
      exact { hb with }
    | string t =>
      simp only [set] at h
      split_ifs at h
      cases h
      exact { hb with }

/-- **Every builder that setters lead to is checked.** -/
theorem Reachable.checked (h : b.Reachable sdk) : b.Checked sdk := by
  obtain ⟨setters, hrun⟩ := h
  refine Run.run_induction (P := fun b _ => b.Checked sdk) (checked_empty sdk) ?_ hrun
  intro b _ s b' hb hstep
  unfold after at hstep
  cases hset : b.set sdk s with
  | ok b'' =>
    rw [hset] at hstep
    cases hstep
    exact checked_set hb hset
  | error e =>
    rw [hset] at hstep
    cases hstep
    exact hb

end Checked

end StreamBuilder

/-! ## The vector -/

/-- The value itself, if it is an integer. -/
def Numeric.reading : Numeric → Option ℤ
  | .number x => x.val.toBigInt
  | .bigint n => some n

/-- Where `BigInt` takes the text of a positive amount, that is a string of digits. -/
theorem Numeric.Positive.text_reads {v : Numeric} (hv : v.Positive) {N : ℤ}
    (h : bigInt v.text = some N) :
    AllDigits v.text.toList ∧ v.text.toList ≠ [] ∧ 0 < N ∧
      ∀ x, v = .number x → N < 10 ^ 21 ∧ Number.ofRat N = x.val := by
  cases v with
  | number x =>
    obtain ⟨q, hx, hq⟩ := hv
    have hdouble := x.isDouble
    simp only [Numeric.text, hx] at h ⊢
    rw [hx] at hdouble
    obtain ⟨hall, hne, hpos, hlt, hround⟩ := numToText_reads hq hdouble h
    refine ⟨hall, hne, hpos, ?_⟩
    rintro _ ⟨⟩
    exact ⟨hlt, hround.trans hx.symm⟩
  | bigint n =>
    have hn : 0 < n := hv
    have hN : n = N := Option.some.inj ((bigInt_toString n).symm.trans h)
    subst hN
    lift n to ℕ using hn.le
    have htext : (toString (n : ℤ)).toList = Nat.toDigits 10 n := by
      show (Nat.repr n).toList = _
      simp [Nat.repr]
    simp only [Numeric.text, htext]
    refine ⟨allDigits_toDigits n, Nat.toDigits_ne_nil, hn, ?_⟩
    rintro x ⟨⟩

/-- **Up to `2 ^ 53` a number is what its text says.** -/
theorem Numeric.Positive.bigInt_text {v : Numeric} (hv : v.Positive)
    (h : ∀ x, v = .number x → x.val.le (.fin (2 ^ 53)) = true) : bigInt v.text = v.reading := by
  cases v with
  | bigint n => exact bigInt_toString n
  | number x =>
    obtain ⟨q, hx, hq⟩ := hv
    have hle := h x rfl
    rw [hx, Number.le_fin, decide_eq_true_eq] at hle
    by_cases hint : q.isInt = true
    · obtain ⟨n, rfl⟩ := Number.isInt_iff.mp hint
      have hn : 0 ≤ n := by exact_mod_cast hq.le
      lift n to ℕ using hn
      have htext : numToText (.fin ((n : ℤ) : ℚ)) = String.ofList (Nat.toDigits 10 n) :=
        numToText_natCast (by exact_mod_cast hle)
      simp only [Numeric.text, Numeric.reading, hx, htext, Number.toBigInt_intCast]
      rw [bigInt_ofDigits (allDigits_toDigits n), Nat.ofDigitChars_ten_toDigits]
    · -- the text of a fraction is no integer literal
      have hnone : x.val.toBigInt = none := by simp [hx, Number.toBigInt, hint]
      show bigInt (Numeric.number x).text = x.val.toBigInt
      rw [hnone]
      cases hN : bigInt (Numeric.number x).text with
      | none => rfl
      | some N =>
        have hpos : (Numeric.number x).Positive := ⟨q, hx, hq⟩
        obtain ⟨-, -, -, hread⟩ := hpos.text_reads hN
        obtain ⟨n, hn⟩ := Number.integral_ofRat N q ((hread x rfl).2.trans hx)
        exact absurd (Number.isInt_iff.mpr ⟨n, hn⟩) hint

/-- The calls that encode a vector of `create_stream`. -/
def encodeStream (sdk : Sdk Tx) (sender recipient token : String) (amount rate : Value ScVal)
    (start stop : Number) (clawback : Bool) : Except Thrown (List ScVal) := do
  let sender ← sdk.addressToScVal sender
  let recipient ← sdk.addressToScVal recipient
  let token ← sdk.addressToScVal token
  let amount ← sdk.nativeToScVal amount (some .i128)
  let rate ← sdk.nativeToScVal rate (some .i128)
  let start ← sdk.nativeToScVal (.number start) (some .u64)
  let stop ← sdk.nativeToScVal (.number stop) (some .u64)
  return [sender, recipient, token, amount, rate, start, stop, boolToScVal clawback]

/-- A value that goes into an `i128` as the integer read from it. -/
def ReadAs (sdk : Sdk Tx) (value : Value ScVal) (reading : Option ℤ) : Prop :=
  ∀ v, sdk.nativeToScVal value (some .i128) = .ok v ↔
    ∃ n, reading = some n ∧ InI128 n ∧ v = i128Of n

section Vector

variable {sdk : Sdk Tx} {b : StreamBuilder} {v : List ScVal}

theorem readAs_string (hl : sdk.LawfulIntegers) (s : String) :
    ReadAs sdk (.string s) (bigInt s) := fun _ => hl.string_iff

theorem readAs_value (hl : sdk.LawfulIntegers) (v : Numeric) : ReadAs sdk v.value v.reading := by
  intro w
  cases v with
  | number x => exact hl.number_iff
  | bigint n =>
    show sdk.nativeToScVal (.bigint n) (some .i128) = .ok w ↔ _
    rw [hl.i128_iff]
    simp [Numeric.reading]

/-- **When a vector is encoded**, and what it is. -/
theorem encodeStream_ok_iff (hl : sdk.LawfulIntegers) {sender recipient token : String}
    {amount rate : Value ScVal} {readAmount readRate : Option ℤ} (ha : ReadAs sdk amount readAmount)
    (hr : ReadAs sdk rate readRate) {start stop : Number} {clawback : Bool} :
    encodeStream sdk sender recipient token amount rate start stop clawback = .ok v ↔
      ∃ D R, readAmount = some D ∧ readRate = some R ∧
        Encodable sdk sender recipient token ⟨D, R, start, stop⟩ ∧
        v = vectorOf sender recipient token ⟨D, R, start, stop⟩ clawback := by
  simp only [encodeStream, seq_ok_iff, hl.addressToScVal_iff, hl.u64_iff, ha _, hr _]
  constructor
  · rintro ⟨_, ⟨hs, rfl⟩, _, ⟨hrec, rfl⟩, _, ⟨ht, rfl⟩, _, ⟨D, hD, hDr, rfl⟩, _, ⟨R, hR, hRr, rfl⟩,
      _, ⟨a, ha, ha', rfl⟩, _, ⟨b, hb, hb', rfl⟩, h⟩
    cases h
    refine ⟨D, R, hD, hR, ⟨hs, hrec, ht, hDr, hRr, ⟨a, ha, ha'⟩, ⟨b, hb, hb'⟩⟩, ?_⟩
    rw [vectorOf, ha, hb, Number.toNat_natCast, Number.toNat_natCast, boolToScVal]
  · rintro ⟨D, R, hD, hR, ⟨hs, hrec, ht, hDr, hRr, ⟨a, ha, ha'⟩, ⟨b, hb, hb'⟩⟩, rfl⟩
    simp only at ha hb
    refine ⟨_, ⟨hs, rfl⟩, _, ⟨hrec, rfl⟩, _, ⟨ht, rfl⟩, _, ⟨D, hD, hDr, rfl⟩, _, ⟨R, hR, hRr, rfl⟩,
      _, ⟨a, ha, ha', rfl⟩, _, ⟨b, hb, hb', rfl⟩, ?_⟩
    rw [vectorOf, ha, hb, Number.toNat_natCast, Number.toNat_natCast]
    rfl

/-- The fields that a vector is made from. -/
structure Complete (b : StreamBuilder) (sender recipient token : String) (amount rate : Numeric) :
    Prop where
  live : b.isDestroyed = false
  sender : b.sender = some sender
  recipient : b.recipient = some recipient
  token : b.token = some token
  amount : b.amount = some amount
  rate : b.ratePerSecond = some rate

variable {sender recipient token : String} {amount rate : Numeric} {now : ℕ}

theorem Complete.build (hc : Complete b sender recipient token amount rate) : b.build = .ok
    { token := token, sender := sender, recipient := recipient, amount := amount.text
      ratePerSecond := some rate.text
      startTime := b.startTime, endTime := b.endTime, clawbackEnabled := b.clawbackEnabled
      cancelable := b.cancelable, clawbackable := b.clawbackable } := by
  simp [StreamBuilder.build, hc.live, hc.sender, hc.recipient, hc.token, hc.amount, hc.rate]

theorem Complete.toContractArgs (hc : Complete b sender recipient token amount rate) :
    b.toContractArgs sdk now = encodeStream sdk sender recipient token (.string amount.text)
      rate.value (b.startTime.getD (.fin now)) (b.endTime.getD (.fin 0))
      (b.clawbackEnabled.getD false) := by
  rw [StreamBuilder.toContractArgs, hc.build, ok_seq, hc.rate]
  rfl

/-- A vector is only made from complete fields. -/
theorem complete_of_toContractArgs (h : b.toContractArgs sdk now = .ok v) :
    ∃ sender recipient token amount rate, Complete b sender recipient token amount rate := by
  obtain ⟨config, hconfig, h⟩ := seq_ok_iff.mp h
  unfold StreamBuilder.build throwNew at hconfig
  split_ifs at hconfig with hlive
  split at hconfig
  · rename_i token sender recipient amount ht hs hr ha
    cases hrate : b.ratePerSecond with
    | none =>
      rw [hrate] at h
      cases h
    | some rate =>
      exact ⟨sender, recipient, token, amount, rate, by simpa using hlive, hs, hr, ht, ha, hrate⟩
  · cases hconfig

/-- **When the builder gives a vector**, and what it is. -/
theorem toContractArgs_ok_iff (hl : sdk.LawfulIntegers)
    (hc : Complete b sender recipient token amount rate) :
    b.toContractArgs sdk now = .ok v ↔ ∃ D R, bigInt amount.text = some D ∧
      rate.reading = some R ∧ Encodable sdk sender recipient token
        ⟨D, R, b.startTime.getD (.fin now), b.endTime.getD (.fin 0)⟩ ∧
      v = vectorOf sender recipient token
        ⟨D, R, b.startTime.getD (.fin now), b.endTime.getD (.fin 0)⟩
        (b.clawbackEnabled.getD false) := by
  rw [hc.toContractArgs]
  exact encodeStream_ok_iff hl (readAs_string hl amount.text) (readAs_value hl rate)

end Vector

/-! ## Addresses of the stand-in -/

theorem validateAddress_of_shape {valid : String → Bool} {address : String} {c : Char}
    (field requirement : String) (hshape : addressShape c address = true) (hc : isSpace c = false)
    (h : valid address = true) : validateAddress valid field requirement address = .ok address := by
  rw [addressShape, Bool.and_eq_true, decide_eq_true_eq, decide_eq_true_eq] at hshape
  rw [validateAddress, if_neg (not_blank_of_head hc hshape.2), if_pos h]

theorem isValidAddress_wide {address : String} {c : Char} (h : addressShape c address = true)
    (hc : c = 'G' ∨ c = 'C') : isValidAddress wideStandIn address = true :=
  isValidAddress_of_shape h hc

namespace StreamBuilder

/-! The three setters, on addresses of the right shape. -/

theorem set_token (b : StreamBuilder) {address : String} (h : addressShape 'C' address = true) :
    b.set wideStandIn (.token address) = .ok { b with token := some address } := by
  have hok : validateAddress wideStandIn.isValidContract "token" contractRequirement address =
      .ok address := validateAddress_of_shape _ _ h (by decide) h
  rw [set, hok]
  rfl

theorem set_sender (b : StreamBuilder) {address : String} (h : addressShape 'G' address = true) :
    b.set wideStandIn (.sender address) = .ok { b with sender := some address } := by
  have hok : validateAddress (isValidAddress wideStandIn) "sender" accountRequirement address =
      .ok address := validateAddress_of_shape _ _ h (by decide) (isValidAddress_wide h (.inl rfl))
  rw [set, hok]
  rfl

theorem set_recipient (b : StreamBuilder) {address : String} (h : addressShape 'G' address = true) :
    b.set wideStandIn (.recipient address) = .ok { b with recipient := some address } := by
  have hok : validateAddress (isValidAddress wideStandIn) "recipient" accountRequirement address =
      .ok address := validateAddress_of_shape _ _ h (by decide) (isValidAddress_wide h (.inl rfl))
  rw [set, hok]
  rfl

theorem set_amount (b : StreamBuilder) {val : NumericArg} {v : Numeric}
    (h : positiveOf "amount" val = .ok v) (sdk : Sdk Tx) :
    b.set sdk (.amount val) = .ok { b with amount := some v } := by
  rw [set, h]
  rfl

theorem set_ratePerSecond (b : StreamBuilder) {val : NumericArg} {v : Numeric}
    (h : positiveOf "ratePerSecond" val = .ok v) (sdk : Sdk Tx) :
    b.set sdk (.ratePerSecond val) = .ok { b with ratePerSecond := some v } := by
  rw [set, h]
  rfl

end StreamBuilder

end StreamFi
