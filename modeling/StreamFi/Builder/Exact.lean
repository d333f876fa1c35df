import StreamFi.Builder.Fields
import StreamFi.Js.Reading

/-!
# What becomes of a number

An amount or a rate that a setter takes is kept as a bigint or as a double. `toContractArgs` hands
the amount over by its text and the rate as it is.

* `NumericArg.exact`: what is given; `normalize_integer`, `normalize_other`: what is kept of it;
* `Given`: a builder has what its setters were last given, by **`given_run`**;
* `ExactArgs`: deposit and rate are what was given;
* **`toContractArgs_exact_iff`**: when they are.
-/

namespace StreamFi

open Js

/-! ## What is given -/

/-- The value that is given, before it is rounded. -/
def NumericArg.exact : NumericArg → Option ℚ
  | .number x => match x.val with
    | .fin q => some q
    | _ => none
  | .bigint n => some n
  | .string s => literalValue (trim s.toList)

/-- A bigint, or an integer in a string. -/
def NumericArg.IsInteger : NumericArg → Prop
  | .number _ => False
  | .bigint _ => True
  | .string s => SignedDigits (trim s.toList)

/-- The text of the double next to the integer is that integer. -/
def SpelledOut (n : ℤ) : Prop := bigInt (numToText (Number.ofRat n)) = some n

instance (n : ℤ) : Decidable (SpelledOut n) := inferInstanceAs (Decidable (_ = _))

/-- The integer is a double. -/
def IsDoubleInt (n : ℤ) : Prop := Number.ofRat n = .fin n

instance (n : ℤ) : Decidable (IsDoubleInt n) := inferInstanceAs (Decidable (_ = _))

/-- An amount that reaches the contract: an integer in a bigint or a string, or any other spelling
of an integer that the text of a double spells out. -/
def KeptAmount (val : NumericArg) : Prop :=
  val.IsInteger ∨ ∃ n : ℤ, val.exact = some (n : ℚ) ∧ SpelledOut n

/-- A rate that reaches the contract, which need not be spelled out. -/
def KeptRate (val : NumericArg) : Prop :=
  val.IsInteger ∨ ∃ n : ℤ, val.exact = some (n : ℚ) ∧ IsDoubleInt n

section Kept

variable {field : String} {val : NumericArg} {v : Numeric}

theorem spelledOut_of_le {n : ℤ} (h₀ : 0 ≤ n) (h : n ≤ 2 ^ 53) : SpelledOut n := by
  lift n to ℕ using h₀
  have hn : n ≤ 2 ^ 53 := by exact_mod_cast h
  have hdouble : Number.ofRat ((n : ℤ) : ℚ) = .fin n := by
    exact_mod_cast Number.ofRat_intCast (n := n) (by rw [abs_of_nonneg (by positivity)]; exact h)
  rw [SpelledOut, hdouble, numToText_natCast hn, bigInt_ofDigits (allDigits_toDigits n),
    Nat.ofDigitChars_ten_toDigits]

/-- **From `10 ^ 21` on no integer is spelled out.** -/
theorem lt_of_spelledOut {n : ℤ} (h₀ : 0 < n) (h : SpelledOut n) : n < 10 ^ 21 := by
  have hdouble := Number.isDouble_ofRat n
  have hone : (Number.ofRat 1).le (Number.ofRat n) = true :=
    Number.ofRat_le_ofRat (by exact_mod_cast h₀)
  have h1 : Number.ofRat 1 = .fin 1 := by exact_mod_cast Number.ofRat_intCast (n := 1) (by norm_num)
  rw [SpelledOut] at h
  cases hx : Number.ofRat n with
  | fin q =>
    rw [hx] at h hdouble hone
    rw [h1, Number.le_fin, decide_eq_true_eq] at hone
    exact (numToText_reads (by linarith) hdouble h).2.2.2.1
  | nan =>
    have hno : bigInt (numToText .nan) = none := by decide
    rw [hx, hno] at h
    cases h
  | posInf =>
    have hno : bigInt (numToText .posInf) = none := by decide
    rw [hx, hno] at h
    cases h
  | negInf =>
    have hno : bigInt (numToText .negInf) = none := by decide
    rw [hx, hno] at h
    cases h

/-- An integer in a string is its value. -/
theorem bigInt_of_signedDigits {cs : List Char} (h : SignedDigits cs) (htrim : trim cs = cs) :
    ∃ n : ℤ, bigInt (String.ofList cs) = some n ∧ literalValue cs = some (n : ℚ) := by
  obtain ⟨hne, hall⟩ := h
  by_cases hhead : cs.head? = some '-'
  · rw [if_pos hhead] at hne hall
    obtain ⟨ds, rfl⟩ := List.head?_eq_some_iff.mp hhead
    rw [List.tail_cons] at hne hall
    obtain ⟨hpoint, hvalue⟩ := pointValue_digits hall hne
    have hradix : radixPrefix ('-' :: ds) = none := by cases ds <;> rfl
    refine ⟨-(Nat.ofDigitChars 10 ds 0 : ℕ), ?_, ?_⟩
    · rw [bigInt, String.toList_ofList, htrim, intLiteral, if_pos rfl, ofDigits_of_allDigits hall hne]
      rfl
    · simp only [literalValue, hradix, if_true, decimalLiteral_of_point hpoint, hvalue, Option.map_some]
      push_cast
      rfl
  · rw [if_neg hhead] at hne hall
    exact ⟨_, bigInt_ofDigits hall, by exact_mod_cast literalValue_of_digits hall⟩

/-- An integer in a bigint or in a string is kept. -/
theorem normalize_integer (h : val.IsInteger) :
    ∃ n : ℤ, normalizeNumeric val = .bigint n ∧ val.exact = some (n : ℚ) := by
  cases val with
  | number x => exact absurd h id
  | bigint n => exact ⟨n, rfl, rfl⟩
  | string s =>
    have hs : SignedDigits (trim s.toList) := h
    obtain ⟨n, hn, hvalue⟩ := bigInt_of_signedDigits hs (trim_trim _)
    refine ⟨n, ?_, hvalue⟩
    simp only [normalizeNumeric, if_pos hs, hn]

theorem ofString_val (s : String) : (Double.ofString s).val = toNumber s := rfl

/-- Anything else is rounded to a double. -/
theorem normalize_other (h : ¬ val.IsInteger) (hv : positiveOf field val = .ok v) :
    ∃ x q, v = .number x ∧ val.exact = some q ∧ x.val = Number.ofRat q := by
  have hpos := positiveOf_positive hv
  have hkept : ∃ x, normalizeNumeric val = .number x ∧
      ∀ q, x.val = .fin q → ∃ q, val.exact = some q ∧ x.val = Number.ofRat q := by
    cases val with
    | number x =>
      refine ⟨x, rfl, fun q hq => ⟨q, ?_, ?_⟩⟩
      · simp only [NumericArg.exact, hq]
      · rw [hq, x.isDouble q hq]
    | bigint n => exact absurd trivial h
    | string s =>
      have hs : ¬ SignedDigits (trim s.toList) := h
      refine ⟨.ofString (String.ofList (trim s.toList)), ?_, fun q hq => ?_⟩
      · simp only [normalizeNumeric, if_neg hs]
      · rw [ofString_val] at hq ⊢
        obtain ⟨q', hvalue, hround⟩ := toNumber_fin_iff.mp hq
        rw [String.toList_ofList, trim_trim] at hvalue
        refine ⟨q', hvalue, ?_⟩
        rw [hq, hround]
  obtain ⟨x, hnorm, hexact⟩ := hkept
  unfold positiveOf throwNew at hv
  rw [hnorm] at hv
  simp only at hv
  split_ifs at hv
  cases hv
  obtain ⟨q, hq, -⟩ := hpos
  obtain ⟨q', hvalue, hround⟩ := hexact q hq
  exact ⟨x, q', rfl, hvalue, hround⟩

theorem positiveOf_normalize (hv : positiveOf field val = .ok v) : v = normalizeNumeric val := by
  unfold positiveOf throwNew at hv
  split at hv <;> split_ifs at hv <;> (cases hv; simp_all)

/-- **When the amount's text is what was given.** -/
theorem keptAmount_iff (hv : positiveOf field val = .ok v) :
    (∃ D : ℤ, bigInt v.text = some D ∧ val.exact = some (D : ℚ)) ↔ KeptAmount val := by
  by_cases h : val.IsInteger
  · obtain ⟨n, hn, hvalue⟩ := normalize_integer h
    rw [positiveOf_normalize hv, hn]
    exact iff_of_true ⟨n, bigInt_toString n, hvalue⟩ (.inl h)
  · obtain ⟨x, q, rfl, hvalue, hx⟩ := normalize_other h hv
    rw [KeptAmount, or_iff_right h, hvalue]
    simp only [Numeric.text, hx, Option.some.injEq, SpelledOut]
    constructor
    · rintro ⟨D, hD, rfl⟩
      exact ⟨D, rfl, hD⟩
    · rintro ⟨n, rfl, hn⟩
      exact ⟨n, hn, rfl⟩

/-- **When the rate is what was given.** -/
theorem keptRate_iff (hv : positiveOf field val = .ok v) :
    (∃ R : ℤ, v.reading = some R ∧ val.exact = some (R : ℚ)) ↔ KeptRate val := by
  by_cases h : val.IsInteger
  · obtain ⟨n, hn, hvalue⟩ := normalize_integer h
    rw [positiveOf_normalize hv, hn]
    exact iff_of_true ⟨n, rfl, hvalue⟩ (.inl h)
  · obtain ⟨x, q, rfl, hvalue, hx⟩ := normalize_other h hv
    rw [KeptRate, or_iff_right h, hvalue]
    simp only [Numeric.reading, hx, Option.some.injEq, IsDoubleInt]
    constructor
    · rintro ⟨R, hR, rfl⟩
      exact ⟨R, rfl, Number.eq_of_toBigInt hR⟩
    · rintro ⟨n, rfl, hn⟩
      exact ⟨n, by rw [hn, Number.toBigInt_intCast], rfl⟩

theorem Numeric.Positive.reading_pos (h : v.Positive) {R : ℤ} (hR : v.reading = some R) : 0 < R := by
  cases v with
  | number x =>
    obtain ⟨q, hx, hq⟩ := h
    have hval : x.val = .fin R := Number.eq_of_toBigInt hR
    rw [hx, Number.fin.injEq] at hval
    exact_mod_cast hval ▸ hq
  | bigint n =>
    cases hR
    exact h

end Kept

/-! ## What the setters were given -/

namespace Setter

def givenAmount : Setter → Option NumericArg
  | .amount val => some val
  | _ => none

def givenRate : Setter → Option NumericArg
  | .ratePerSecond val => some val
  | _ => none

def givenStart : Setter → Option Number
  | .startTime val _ => some val
  | _ => none

def givenEnd : Setter → Option Number
  | .endTime val => some val
  | _ => none

end Setter

/-- What a sequence of calls gave last. -/
def lastGiven {α : Type} (given : Setter → Option α) (setters : List Setter) : Option α :=
  (setters.filterMap given).getLast?

theorem lastGiven_concat {α : Type} (given : Setter → Option α) (setters : List Setter) (s : Setter) :
    lastGiven given (setters ++ [s]) = (given s).or (lastGiven given setters) := by
  rw [lastGiven, List.filterMap_append]
  cases h : given s with
  | none => simp [lastGiven, h]
  | some x => simp [h]

namespace StreamBuilder

variable {Tx : Type} {sdk : Sdk Tx} {b b' : StreamBuilder} {setters : List Setter} {s : Setter}

/-- A call that may not throw. -/
def accepted (sdk : Sdk Tx) (b : StreamBuilder) (s : Setter) : Option StreamBuilder :=
  (b.set sdk s).toOption

/-- The fields are what was given last. -/
structure Given (sdk : Sdk Tx) (b : StreamBuilder) (setters : List Setter) : Prop where
  checked : b.Checked sdk
  amount : ∀ a, lastGiven Setter.givenAmount setters = some a →
    ∃ v, positiveOf "amount" a = .ok v ∧ b.amount = some v
  ratePerSecond : ∀ r, lastGiven Setter.givenRate setters = some r →
    ∃ v, positiveOf "ratePerSecond" r = .ok v ∧ b.ratePerSecond = some v
  startTime : b.startTime = lastGiven Setter.givenStart setters
  endTime : b.endTime = lastGiven Setter.givenEnd setters

/-- What one call writes. -/
structure WritesGiven (b b' : StreamBuilder) (s : Setter) : Prop where
  amount : ∀ a, s.givenAmount = some a → ∃ v, positiveOf "amount" a = .ok v ∧ b'.amount = some v
  amount_same : s.givenAmount = none → b'.amount = b.amount
  rate : ∀ r, s.givenRate = some r →
    ∃ v, positiveOf "ratePerSecond" r = .ok v ∧ b'.ratePerSecond = some v
  rate_same : s.givenRate = none → b'.ratePerSecond = b.ratePerSecond
  startTime : b'.startTime = s.givenStart.or b.startTime
  endTime : b'.endTime = s.givenEnd.or b.endTime

theorem writes_of_set (h : b.set sdk s = .ok b') : WritesGiven b b' s := by
  cases s with
  | amount val =>
    obtain ⟨v, hv, h⟩ := seq_ok_iff.mp h
    cases h
    refine ⟨?_, (by rintro ⟨⟩), (by rintro _ ⟨⟩), fun _ => rfl, rfl, rfl⟩
    rintro _ ⟨⟩
    exact ⟨v, hv, rfl⟩
  | ratePerSecond val =>
    obtain ⟨v, hv, h⟩ := seq_ok_iff.mp h
    cases h
    refine ⟨(by rintro _ ⟨⟩), fun _ => rfl, ?_, (by rintro ⟨⟩), rfl, rfl⟩
    rintro _ ⟨⟩
    exact ⟨v, hv, rfl⟩
  | startTime val now =>
    obtain ⟨⟨⟩, -, h⟩ := seq_ok_iff.mp h
    unfold throwNew at h
    split_ifs at h
    cases h
    exact ⟨(by rintro _ ⟨⟩), fun _ => rfl, (by rintro _ ⟨⟩), fun _ => rfl, rfl, rfl⟩
  | token address | sender address | recipient address | endTime val =>
    obtain ⟨_, -, h⟩ := seq_ok_iff.mp h
    cases h
    exact ⟨(by rintro _ ⟨⟩), fun _ => rfl, (by rintro _ ⟨⟩), fun _ => rfl, rfl, rfl⟩
  | clawbackEnabled val | setCancelable val | setClawbackable val =>
    cases h
    exact ⟨(by rintro _ ⟨⟩), fun _ => rfl, (by rintro _ ⟨⟩), fun _ => rfl, rfl, rfl⟩
  | withMemo memo =>
    cases memo with
    | memo m =>
      cases h
      exact ⟨(by rintro _ ⟨⟩), fun _ => rfl, (by rintro _ ⟨⟩), fun _ => rfl, rfl, rfl⟩
    | string t =>
      simp only [set] at h
      split_ifs at h
      cases h
      exact ⟨(by rintro _ ⟨⟩), fun _ => rfl, (by rintro _ ⟨⟩), fun _ => rfl, rfl, rfl⟩

/-- **One call.** -/
theorem Given.step (h : b.Given sdk setters) (hset : b.set sdk s = .ok b') :
    b'.Given sdk (setters ++ [s]) := by
  have hw := writes_of_set hset
  refine ⟨checked_set h.checked hset, ?_, ?_, ?_, ?_⟩
  · intro a ha
    rw [lastGiven_concat] at ha
    cases hs : s.givenAmount with
    | none =>
      rw [hs, Option.none_or] at ha
      rw [hw.amount_same hs]
      exact h.amount a ha
    | some a' =>
      rw [hs, Option.some_or] at ha
      cases ha
      exact hw.amount _ hs
  · intro r hr
    rw [lastGiven_concat] at hr
    cases hs : s.givenRate with
    | none =>
      rw [hs, Option.none_or] at hr
      rw [hw.rate_same hs]
      exact h.ratePerSecond r hr
    | some r' =>
      rw [hs, Option.some_or] at hr
      cases hr
      exact hw.rate _ hs
  · rw [lastGiven_concat, hw.startTime, h.startTime]
  · rw [lastGiven_concat, hw.endTime, h.endTime]

/-- **After calls none of which threw a builder has what they gave last.** -/
theorem given_run (h : Run.run (accepted sdk) {} setters = some b) : b.Given sdk setters := by
  refine Run.run_induction (P := fun b setters => b.Given sdk setters) ?_ ?_ h
  · exact ⟨checked_empty sdk, nofun, nofun, rfl, rfl⟩
  · intro b setters s b' hb hstep
    refine hb.step ?_
    unfold accepted at hstep
    cases hset : b.set sdk s with
    | ok b'' =>
      rw [hset] at hstep
      cases hstep
      rfl
    | error e =>
      rw [hset] at hstep
      cases hstep

end StreamBuilder

/-! ## Deposit and rate -/

/-- There is a vector, and its deposit and its rate are what was given. -/
def ExactArgs {Tx : Type} (sdk : Sdk Tx) (b : StreamBuilder) (now : ℕ) (amount rate : NumericArg) :
    Prop :=
  ∃ (v : List ScVal) (D R : ℤ), b.toContractArgs sdk now = .ok v ∧
    v[3]?.bind scValToI128 = some D ∧ v[4]?.bind scValToI128 = some R ∧
    amount.exact = some (D : ℚ) ∧ rate.exact = some (R : ℚ)

section Exact

variable {Tx : Type} {sdk : Sdk Tx} {b : StreamBuilder} {setters : List Setter}
  {amount rate : NumericArg} {now : ℕ}

/-- A builder that `validate` has no issue with has its required fields. -/
theorem complete_of_validate {a r : Numeric} (h : b.validate = []) (hlive : b.isDestroyed = false)
    (ha : b.amount = some a) (hr : b.ratePerSecond = some r) :
    ∃ sender recipient token, Complete b sender recipient token a r := by
  have hfield {o : Option String} {issue : String} (ho : (if o = none then [issue] else []) = []) :
      ∃ x, o = some x := by
    cases o with
    | none => cases ho
    | some x => exact ⟨x, rfl⟩
  simp only [StreamBuilder.validate, List.append_eq_nil_iff] at h
  obtain ⟨⟨⟨ht, hs⟩, hrec⟩, -⟩ := h
  obtain ⟨token, ht⟩ := hfield ht
  obtain ⟨sender, hs⟩ := hfield hs
  obtain ⟨recipient, hrec⟩ := hfield hrec
  exact ⟨sender, recipient, token, hlive, hs, hrec, ht, ha, hr⟩

end Exact

/-! ## A large amount, and a fraction -/

/-- A stream with this amount, at this rate. -/
def streamSetters (amount rate : NumericArg) : List Setter :=
  [.token "CDLZFC3SYJYDZT7K67VZ75HPJVIEUVNIXF47ZG2FB2RMQQVU2HHGCYSC",
   .sender "GAAAAAAAAAAAAAAAAAAAAAAAAAAAAAAAAAAAAAAAAAAAAAAAAAAAAWHF",
   .recipient "GBBD47IF6LWK7P7MDEVSCWR7DPUWV3NY3DTQEVFL4NAT4AQH3ZLLFLA5",
   .amount amount, .ratePerSecond rate]

def builderOf (amount rate : NumericArg) : StreamBuilder :=
  (Run.run (StreamBuilder.accepted wideStandIn) {} (streamSetters amount rate)).getD {}

theorem run_streamSetters {amount rate : NumericArg} {a r : Numeric}
    (ha : positiveOf "amount" amount = .ok a) (hr : positiveOf "ratePerSecond" rate = .ok r) :
    Run.run (StreamBuilder.accepted wideStandIn) {} (streamSetters amount rate) =
        some (builderOf amount rate) ∧
      Complete (builderOf amount rate)
        "GAAAAAAAAAAAAAAAAAAAAAAAAAAAAAAAAAAAAAAAAAAAAAAAAAAAAWHF"
        "GBBD47IF6LWK7P7MDEVSCWR7DPUWV3NY3DTQEVFL4NAT4AQH3ZLLFLA5"
        "CDLZFC3SYJYDZT7K67VZ75HPJVIEUVNIXF47ZG2FB2RMQQVU2HHGCYSC" a r ∧
      (builderOf amount rate).startTime = none ∧ (builderOf amount rate).endTime = none := by
  have hrun : Run.run (StreamBuilder.accepted wideStandIn) {} (streamSetters amount rate) =
      some {
        token := some "CDLZFC3SYJYDZT7K67VZ75HPJVIEUVNIXF47ZG2FB2RMQQVU2HHGCYSC"
        sender := some "GAAAAAAAAAAAAAAAAAAAAAAAAAAAAAAAAAAAAAAAAAAAAAAAAAAAAWHF"
        recipient := some "GBBD47IF6LWK7P7MDEVSCWR7DPUWV3NY3DTQEVFL4NAT4AQH3ZLLFLA5"
        amount := some a, ratePerSecond := some r } := by
    simp only [Run.run, streamSetters, List.foldlM_cons, List.foldlM_nil, StreamBuilder.accepted,
      StreamBuilder.set_token _ addressShape_token, StreamBuilder.set_sender _ addressShape_sender,
      StreamBuilder.set_recipient _ addressShape_recipient, StreamBuilder.set_amount _ ha,
      StreamBuilder.set_ratePerSecond _ hr, Except.toOption, Option.pure_def, Option.bind_eq_bind,
      Option.bind_some]
  rw [builderOf, hrun, Option.getD_some]
  exact ⟨rfl, ⟨rfl, rfl, rfl, rfl, rfl, rfl⟩, rfl, rfl⟩

theorem contractArgs_iff {amount rate : NumericArg} {a r : Numeric} {R : ℤ} {v : List ScVal}
    {now : ℕ} (ha : positiveOf "amount" amount = .ok a) (hr : positiveOf "ratePerSecond" rate = .ok r)
    (hR : r.reading = some R) (hrange : InI128 R) (hnow : now < 2 ^ 64) :
    (builderOf amount rate).toContractArgs wideStandIn now = .ok v ↔ ∃ D, bigInt a.text = some D ∧
      InI128 D ∧ v = vectorOf "GAAAAAAAAAAAAAAAAAAAAAAAAAAAAAAAAAAAAAAAAAAAAAAAAAAAAWHF"
        "GBBD47IF6LWK7P7MDEVSCWR7DPUWV3NY3DTQEVFL4NAT4AQH3ZLLFLA5"
        "CDLZFC3SYJYDZT7K67VZ75HPJVIEUVNIXF47ZG2FB2RMQQVU2HHGCYSC"
        ⟨D, R, .fin now, .fin 0⟩ ((builderOf amount rate).clawbackEnabled.getD false) := by
  obtain ⟨-, hc, hstart, hend⟩ := run_streamSetters ha hr
  rw [toContractArgs_ok_iff wideStandIn_lawful hc, hstart, hend]
  constructor
  · rintro ⟨D, R', hD, hR', henc, rfl⟩
    cases hR.symm.trans hR'
    exact ⟨D, hD, henc.deposit, rfl⟩
  · rintro ⟨D, hD, hDrange, rfl⟩
    exact ⟨D, R, hD, hR, ⟨isValidAddress_wide addressShape_sender (.inl rfl),
      isValidAddress_wide addressShape_recipient (.inl rfl),
      isValidAddress_wide addressShape_token (.inr rfl), hDrange, hrange, ⟨now, rfl, hnow⟩,
      ⟨0, by simp, by norm_num⟩⟩, rfl⟩

end StreamFi
