import StreamFi.Batch.Sync
import StreamFi.Stroops

/-!
# What the synchronous batcher reports

`ConduitBatcher.execute` checks amounts as decimal text and encodes them as integers. Neither the
texts of the addresses nor the encoding is inside its `try`.

* `HasText`, `Readable`: the objects whose addresses have a text;
* `EncodesAs`, `Encodes`: the objects that are encoded, by their fields;
* `Reports`: the call returns, and reports an object that cannot be encoded;
* **`execute_reports_iff`**: when a call does.
-/

namespace StreamFi

open Js

/-! ## Texts -/

mutual

/-- Making text of the value does not throw. -/
def HasText : Value ScVal → Prop
  | .symbol => False
  | .array xs => HaveTexts xs
  | .object entries =>
    entries.lookup "toString" = none ∨ entries.lookup "toString" = some .function ∨
      entries.lookup "valueOf" = some .function
  | _ => True

/-- The elements that are there have a text. -/
def HaveTexts : List (Value ScVal) → Prop
  | [] => True
  | v :: vs => (isNullish v = true ∨ HasText v) ∧ HaveTexts vs

end

/-- The address fields of an object have a text; a symbol has one if it is asked for. -/
def Readable (stream : Value ScVal) : Prop :=
  ∀ key ∈ ["token", "sender", "recipient"], prop stream key = .symbol ∨ HasText (prop stream key)

theorem objectText_isOk_iff (entries : List (String × Value ScVal)) :
    (∃ text, objectText entries = .ok text) ↔ HasText (.object entries) := by
  unfold objectText HasText
  split
  · rename_i h
    simp [h]
  · rename_i h
    simp [h]
  · rename_i v hne h
    have hown : some v ≠ none ∧ some v ≠ some Value.function :=
      ⟨Option.some_ne_none v, fun hv => hne (Option.some.inj hv)⟩
    rw [h, or_iff_right hown.1, or_iff_right hown.2]
    split
    · rename_i h'
      exact iff_of_true ⟨_, rfl⟩ h'
    · rename_i h'
      exact iff_of_false (by simp) h'

mutual

theorem toText_isOk_iff : ∀ v, (∃ text, toText v = .ok text) ↔ HasText v
  | .symbol => by simp [toText, HasText]
  | .array xs => by
    rw [toText, HasText, ← elementTexts_isOk_iff xs]
    simp only [seq_ok_iff]
    constructor
    · rintro ⟨_, texts, h, -⟩
      exact ⟨texts, h⟩
    · rintro ⟨texts, h⟩
      exact ⟨_, texts, h, rfl⟩
  | .object entries => by
    rw [toText]
    exact objectText_isOk_iff entries
  | .undefined | .null | .bool _ | .number _ | .bigint _ | .string _ | .function | .host _ => by
    simp [toText, HasText]

theorem elementTexts_isOk_iff : ∀ vs, (∃ texts, elementTexts vs = .ok texts) ↔ HaveTexts vs
  | [] => by simp [elementTexts, HaveTexts]
  | v :: vs => by
    have hv : (∃ text, (if isNullish v then .ok "" else toText v) = .ok text) ↔
        isNullish v = true ∨ HasText v := by
      rw [← toText_isOk_iff v]
      cases isNullish v <;> simp
    rw [elementTexts, HaveTexts, ← hv, ← elementTexts_isOk_iff vs]
    simp only [seq_ok_iff]
    constructor
    · rintro ⟨_, text, h, texts, h', -⟩
      exact ⟨⟨text, h⟩, texts, h'⟩
    · rintro ⟨⟨text, h⟩, texts, h'⟩
      exact ⟨_, text, h, texts, h', rfl⟩

end

theorem presentText_isOk_iff (v : Value ScVal) :
    (∃ text, presentText v = .ok text) ↔ v = .symbol ∨ HasText v := by
  cases v with
  | undefined => simp [presentText, isNullish, HasText]
  | null => simp [presentText, isNullish, HasText]
  | symbol => exact iff_of_true ⟨_, rfl⟩ (.inl rfl)
  | _ =>
    rw [← toText_isOk_iff]
    simp [presentText, isNullish, valueText, map_ok_iff]

/-- **When the validation can read an object.** -/
theorem payloadItem_isOk_iff (stream : Value ScVal) :
    (∃ item, payloadItem stream = .ok item) ↔ Readable stream := by
  have hfields : (∃ item, (do
      let token ← presentText (prop stream "token")
      let sender ← presentText (prop stream "sender")
      let recipient ← presentText (prop stream "recipient")
      return PayloadItem.object
        { token := token, sender := sender, recipient := recipient
          amount := amountField (prop stream "amount") }) = Except.ok item) ↔ Readable stream := by
    simp only [Readable, List.forall_mem_cons, ← presentText_isOk_iff, seq_ok_iff]
    constructor
    · rintro ⟨_, token, ht, sender, hs, recipient, hr, -⟩
      exact ⟨⟨token, ht⟩, ⟨sender, hs⟩, ⟨recipient, hr⟩, by simp⟩
    · rintro ⟨⟨token, ht⟩, ⟨sender, hs⟩, ⟨recipient, hr⟩, -⟩
      exact ⟨_, token, ht, sender, hs, recipient, hr, rfl⟩
  cases stream with
  | object entries => exact hfields
  | array xs => exact hfields
  | host x => exact hfields
  | _ => exact iff_of_true ⟨_, rfl⟩ (by simp [Readable, prop, HasText])

/-! ## Fields -/

/-- In the range of a `u64`. -/
def IsU64 (n : ℤ) : Prop := 0 ≤ n ∧ n < 2 ^ 64

instance (n : ℤ) : Decidable (IsU64 n) := inferInstanceAs (Decidable (_ ∧ _))

theorem inU64_iff {x : Number} : InU64 x ↔ ∃ n, x.toBigInt = some n ∧ IsU64 n := by
  constructor
  · rintro ⟨n, rfl, hn⟩
    exact ⟨n, Number.toBigInt_natCast n, by positivity, by exact_mod_cast hn⟩
  · rintro ⟨n, hn, h₀, h₁⟩
    refine ⟨n.toNat, ?_, by omega⟩
    rw [Number.eq_of_toBigInt hn]
    exact congrArg Number.fin (by exact_mod_cast (Int.toNat_of_nonneg h₀).symm)

/-- What the code relies on where text is given without a type or as a `u64`. -/
structure Sdk.LawfulTexts {Tx : Type} (sdk : Sdk Tx) : Prop extends sdk.LawfulIntegers where
  empty_invalid : ¬ (sdk.isValidEd25519PublicKey "" = true ∨ sdk.isValidContract "" = true)
  text_ok : ∀ s, ∃ v, sdk.nativeToScVal (.string s) none = .ok v
  u64_text_iff : ∀ s, (∃ v, sdk.nativeToScVal (.string s) (some .u64) = .ok v) ↔
    ∃ n, bigInt s = some n ∧ IsU64 n

variable {Tx : Type}

/-- A field that is encoded as an integer of this range, or as itself. Of what is not read as an
integer the library decides. -/
def EncodesAs (sdk : Sdk Tx) (type : ScValType) (InRange : ℤ → Prop) : Value ScVal → Prop
  | .undefined | .null | .symbol | .function | .host _ => True
  | .string s => ∃ n, bigInt s = some n ∧ InRange n
  | .number x => ∃ n, x.toBigInt = some n ∧ InRange n
  | v => ∃ w, sdk.nativeToScVal v (some type) = .ok w

/-- A field that is encoded by what it is. -/
def EncodesFreely (sdk : Sdk Tx) : Value ScVal → Prop
  | .undefined | .null | .symbol | .function | .host _ | .string _ => True
  | v => ∃ w, sdk.nativeToScVal v none = .ok w

/-- **The objects that are encoded**, by their fields. -/
structure Encodes (sdk : Sdk Tx) (params : Value ScVal) : Prop where
  sender : EncodesFreely sdk (prop params "sender")
  recipient : EncodesFreely sdk (prop params "recipient")
  token : EncodesFreely sdk (prop params "token")
  amount : EncodesAs sdk .i128 InI128 (prop params "amount")
  ratePerSecond : EncodesAs sdk .i128 InI128 (prop params "ratePerSecond")
  startTime : EncodesAs sdk .u64 IsU64 (prop params "startTime")
  endTime : EncodesAs sdk .u64 IsU64 (prop params "endTime")

section Fields

variable {sdk : Sdk Tx}

/-- A bigint is encoded by its value. -/
theorem encodesAs_bigint {type : ScValType} {InRange : ℤ → Prop} {n : ℤ} :
    EncodesAs sdk type InRange (bigintSafeStringify sdk.stringifyHost (.bigint n)) ↔ InRange n := by
  rw [bigintSafeStringify, EncodesAs, bigInt_toString]
  simp

theorem paramToScVal_isOk_iff {type : ScValType} {InRange : ℤ → Prop}
    (hstring : ∀ s, (∃ w, sdk.nativeToScVal (.string s) (some type) = .ok w) ↔
      ∃ n, bigInt s = some n ∧ InRange n)
    (hnumber : ∀ x, (∃ w, sdk.nativeToScVal (.number x) (some type) = .ok w) ↔
      ∃ n, x.toBigInt = some n ∧ InRange n) (v : Value ScVal) :
    (∃ w, paramToScVal sdk v (some type) = .ok w) ↔ EncodesAs sdk type InRange v := by
  cases v with
  | string s => exact hstring s
  | number x => exact hnumber x
  | bool b => exact Iff.rfl
  | bigint n => exact Iff.rfl
  | array xs => exact Iff.rfl
  | object entries => exact Iff.rfl
  | _ => exact iff_of_true ⟨_, rfl⟩ trivial

theorem paramToScVal_i128_iff (hl : sdk.LawfulIntegers) (v : Value ScVal) :
    (∃ w, paramToScVal sdk v (some .i128) = .ok w) ↔ EncodesAs sdk .i128 InI128 v := by
  apply paramToScVal_isOk_iff
  · intro s
    simp only [hl.string_iff]
    constructor
    · rintro ⟨_, n, hn, hrange, -⟩
      exact ⟨n, hn, hrange⟩
    · rintro ⟨n, hn, hrange⟩
      exact ⟨_, n, hn, hrange, rfl⟩
  · intro x
    simp only [hl.number_iff]
    constructor
    · rintro ⟨_, n, hn, hrange, -⟩
      exact ⟨n, hn, hrange⟩
    · rintro ⟨n, hn, hrange⟩
      exact ⟨_, n, hn, hrange, rfl⟩

theorem paramToScVal_u64_iff (hl : sdk.LawfulTexts) (v : Value ScVal) :
    (∃ w, paramToScVal sdk (orZero v) (some .u64) = .ok w) ↔ EncodesAs sdk .u64 IsU64 v := by
  have hnumber : ∀ x, (∃ w, sdk.nativeToScVal (.number x) (some .u64) = .ok w) ↔
      ∃ n, x.toBigInt = some n ∧ IsU64 n := by
    intro x
    rw [← inU64_iff]
    simp only [hl.u64_iff]
    constructor
    · rintro ⟨_, n, hx, hn, -⟩
      exact ⟨n, hx, hn⟩
    · rintro ⟨n, hx, hn⟩
      exact ⟨_, n, hx, hn, rfl⟩
  have hzero : ∃ w, sdk.nativeToScVal (.number (.fin 0)) (some .u64) = .ok w :=
    (hnumber _).mpr ⟨0, rfl, by decide⟩
  cases v with
  | undefined => exact iff_of_true hzero trivial
  | null => exact iff_of_true hzero trivial
  | _ => exact paramToScVal_isOk_iff hl.u64_text_iff hnumber _

theorem paramToScVal_none_iff (hl : sdk.LawfulTexts) (v : Value ScVal) :
    (∃ w, paramToScVal sdk v none = .ok w) ↔ EncodesFreely sdk v := by
  cases v with
  | string s =>
    refine iff_of_true ?_ trivial
    by_cases hs : sdk.isValidEd25519PublicKey s = true ∨ sdk.isValidContract s = true
    · have hne : s ≠ "" := by
        rintro rfl
        exact hl.empty_invalid hs
      exact ⟨_, (if_pos hs).trans (hl.address_ok s (by simp [isValidAddress, hne, hs]))⟩
    · obtain ⟨w, hw⟩ := hl.text_ok s
      exact ⟨w, (if_neg hs).trans hw⟩
  | bool b => exact Iff.rfl
  | number x => exact Iff.rfl
  | bigint n => exact Iff.rfl
  | array xs => exact Iff.rfl
  | object entries => exact Iff.rfl
  | _ => exact iff_of_true ⟨_, rfl⟩ trivial

/-- **When an object is encoded.** -/
theorem streamOperation_isOk_iff (hl : sdk.LawfulTexts) (params : Value ScVal) :
    (∃ op, streamOperation sdk "create_stream" params = .ok op) ↔ Encodes sdk params := by
  have hi := paramToScVal_i128_iff hl.toLawfulIntegers
  have hu := paramToScVal_u64_iff hl
  have hf := paramToScVal_none_iff hl
  simp only [streamOperation, if_true, seq_ok_iff]
  constructor
  · rintro ⟨_, a, ha, b, hb, c, hc, d, hd, e, he, f, hf', g, hg, -⟩
    exact ⟨(hf _).mp ⟨a, ha⟩, (hf _).mp ⟨b, hb⟩, (hf _).mp ⟨c, hc⟩, (hi _).mp ⟨d, hd⟩,
      (hi _).mp ⟨e, he⟩, (hu _).mp ⟨f, hf'⟩, (hu _).mp ⟨g, hg⟩⟩
  · intro h
    obtain ⟨a, ha⟩ := (hf _).mpr h.sender
    obtain ⟨b, hb⟩ := (hf _).mpr h.recipient
    obtain ⟨c, hc⟩ := (hf _).mpr h.token
    obtain ⟨d, hd⟩ := (hi _).mpr h.amount
    obtain ⟨e, he⟩ := (hi _).mpr h.ratePerSecond
    obtain ⟨f, hf'⟩ := (hu _).mpr h.startTime
    obtain ⟨g, hg⟩ := (hu _).mpr h.endTime
    exact ⟨_, a, ha, b, hb, c, hc, d, hd, e, he, f, hf', g, hg, rfl⟩

/-! ### Amounts -/

/-- Of the display amounts `BigInt` takes the ones without a point. -/
theorem bigInt_amount_iff {amount : String} (h : AmountFormat amount) {n : ℤ} :
    bigInt amount = some n ↔ AllDigits amount.toList ∧ n = digitsValue amount.toList := by
  have hdigits (hall : AllDigits amount.toList) :
      bigInt amount = some (digitsValue amount.toList : ℤ) := by
    have := bigInt_ofDigits hall
    rwa [String.ofList_toList] at this
  obtain ⟨hchar, -, c, hc, -⟩ := amountFormat_iff.mp h
  constructor
  · intro hn
    have hall : AllDigits amount.toList := by
      obtain ⟨d, ds, hds⟩ := List.exists_cons_of_ne_nil (List.ne_nil_of_mem hc)
      rw [← String.ofList_toList (s := amount), hds] at hn
      rw [hds] at hchar ⊢
      refine allDigits_of_bigInt ?_ ?_ (fun d hd => (hchar d hd).imp_right .inl) hn
      all_goals
        rintro rfl
        rcases hchar _ List.mem_cons_self with h | h <;> cases h
    exact ⟨hall, Option.some.inj (hn.symm.trans (hdigits hall))⟩
  · rintro ⟨hall, rfl⟩
    exact hdigits hall

/-- **An amount that passes validation is encoded** if it has no point and fits. -/
theorem encodesAs_amount_iff {amount : String} {i : ℕ}
    (h : amountErrors i (some (.string amount)) = []) :
    EncodesAs sdk .i128 InI128 (.string amount) ↔
      AllDigits amount.toList ∧ digitsValue amount.toList < 2 ^ 127 := by
  have hf : AmountFormat amount := by
    by_contra hf
    obtain ⟨e, he⟩ := toStroops_eq_error hf 7
    simp [amountErrors, he] at h
  simp only [EncodesAs, bigInt_amount_iff hf]
  constructor
  · rintro ⟨n, ⟨hall, rfl⟩, -, hlt⟩
    exact ⟨hall, by exact_mod_cast hlt⟩
  · rintro ⟨hall, hlt⟩
    exact ⟨_, ⟨hall, rfl⟩, le_trans (by norm_num) (Int.natCast_nonneg _), by exact_mod_cast hlt⟩

end Fields

/-! ## The report -/

/-- The contract arguments of an object can be made. -/
def CanEncode (sdk : Sdk Tx) (method : String) (stream : Value ScVal) : Prop :=
  ∃ op args, streamOperation sdk method (bigintSafeStringify sdk.stringifyHost stream) = .ok op ∧
    operationToScVals sdk op = .ok args

/-- A failure, with errors. -/
def BatchResult.Failed (result : BatchResult) : Prop :=
  result.success = false ∧ ∃ errors, result.errors = some errors ∧ errors ≠ []

/-- The call returns, and reports an object that cannot be encoded. -/
def Reports (sdk : Sdk Tx) (streams : List (Value ScVal)) (options : BatchExecuteOptions)
    (clock : ℕ → Number) : Prop :=
  ∃ result, execute sdk false streams options clock = .ok result ∧
    ((∃ stream ∈ streams, ¬ CanEncode sdk (options.method.getD "create_stream") stream) →
      result.batch.Failed)

/-- The objects pass validation, and the options are such that they are encoded one by one. -/
structure ReachesEncoding (sdk : Sdk Tx) (streams : List (Value ScVal))
    (options : BatchExecuteOptions) : Prop where
  payload : ∃ items, streams.mapM payloadItem = .ok items ∧ validatePayload sdk items = []
  context : ∃ context, options.context = some context ∧ validateContext sdk context = [] ∧
    context.sequence ≠ none
  method : options.method.getD "create_stream" = "create_stream"

section Report

variable {sdk : Sdk Tx} {streams : List (Value ScVal)} {options : BatchExecuteOptions}
  {clock : ℕ → Number}

theorem failed_toFailure {errors : List String} (h : errors ≠ []) : (toFailure errors).Failed :=
  ⟨rfl, errors, rfl, h⟩

/-- What is built has been encoded. -/
theorem encoded_of_build {operations : List BuildableOperation} {context : BatchTransactionContext}
    {built : List BuiltBatchTransaction}
    (h : buildBatchTransactionsSync sdk operations context clock = .ok built)
    {op : BuildableOperation} (hop : op ∈ operations) :
    ∃ args, operationToScVals sdk op = .ok args := by
  unfold buildBatchTransactionsSync at h
  simp only at h
  split_ifs at h
  cases hseq : context.sequence with
  | none =>
    rw [hseq] at h
    cases h
  | some sequence =>
    simp only [hseq, seq_ok_iff] at h
    obtain ⟨passphrase, -, h⟩ := h
    obtain ⟨i, hi, rfl⟩ := List.mem_iff_getElem.mp hop
    have hmem : (operations[i], i) ∈ operations.zipIdx := by
      rw [List.mem_zipIdx_iff_getElem?]
      exact List.getElem?_eq_getElem hi
    obtain ⟨t, ht⟩ := exists_of_mapM h hmem
    obtain ⟨tx, htx, -⟩ := seq_ok_iff.mp ht
    unfold buildTransaction at htx
    split_ifs at htx
    simp only [seq_ok_iff] at htx
    obtain ⟨base, -, args, hargs, -⟩ := htx
    exact ⟨args, hargs⟩

/-- The operations of another method need no encoding yet. -/
theorem streamOperation_of_ne {method : String} (h : method ≠ "create_stream")
    (params : Value ScVal) : ∃ op, streamOperation sdk method params = .ok op :=
  ⟨_, if_neg h⟩

end Report

/-! ## A display amount -/

/-- A `u64` from what was read, if that is in range. -/
def u64Reading : Option ℤ → Except Thrown ScVal
  | some n => if IsU64 n then .ok (u64Of n.toNat) else throwNew "out of range"
  | none => throwNew "expected an integer"

/-- The stand-in, reading a `u64` from text, too. -/
def textStandIn : Sdk ℕ :=
  { wideStandIn with
    nativeToScVal := fun v type => match v, type with
      | .string s, some .u64 => u64Reading (bigInt s)
      | v, type => wideStandIn.nativeToScVal v type }

theorem u64Reading_isOk_iff (r : Option ℤ) :
    (∃ v, u64Reading r = .ok v) ↔ ∃ n, r = some n ∧ IsU64 n := by
  cases r with
  | none => simp [u64Reading, throwNew]
  | some n =>
    by_cases hn : IsU64 n
    · simp [u64Reading, hn]
    · simp [u64Reading, hn, throwNew]

theorem textStandIn_lawful : textStandIn.LawfulTexts where
  toLawful := wideStandIn_lawful.toLawful.with_native (fun _ => rfl) (fun _ => rfl)
  string_ok s n hn h := wideStandIn_lawful.string_ok s n hn h
  string_error s h := wideStandIn_lawful.string_error s h
  number_ok x n hn h := wideStandIn_lawful.number_ok x n hn h
  number_error x h := wideStandIn_lawful.number_error x h
  build_args := wideStandIn_lawful.build_args
  empty_invalid := by decide
  text_ok s := ⟨.string s, rfl⟩
  u64_text_iff s := u64Reading_isOk_iff (bigInt s)

/-- A stream at `5` stroops a second, with this amount. -/
def streamOf (amount : String) : Value ScVal := .object
  [("sender", .string "GAAAAAAAAAAAAAAAAAAAAAAAAAAAAAAAAAAAAAAAAAAAAAAAAAAAAWHF"),
   ("recipient", .string "GBBD47IF6LWK7P7MDEVSCWR7DPUWV3NY3DTQEVFL4NAT4AQH3ZLLFLA5"),
   ("token", .string "CDLZFC3SYJYDZT7K67VZ75HPJVIEUVNIXF47ZG2FB2RMQQVU2HHGCYSC"),
   ("amount", .string amount), ("ratePerSecond", .bigint 5)]

end StreamFi
