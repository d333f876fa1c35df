import StreamFi.Errors

/-!
# Amounts and rates

Display amounts are decimal strings; stroops and rates are integers.

* `toStroops`: an amount in the token's smallest unit; `calculateRate`: stroops per second;
* **`toStroops_eq_round`**: on an amount, the value times `10 ^ decimals`, rounded half up;
* **`calculateRate_eq`**: stroops over seconds, rounded half up.
-/

namespace StreamFi

open Js

/-- `BigInt(s)`. -/
def bigIntOf (s : String) : Except Thrown ℤ :=
  match bigInt s with
  | some n => .ok n
  | none => .error (errorOf "SyntaxError" s!"Cannot convert {s} to a BigInt")

/-- `BigInt(x)` on a number. -/
def bigIntOfNumber (x : Number) : Except Thrown ℤ :=
  match x.toBigInt with
  | some n => .ok n
  | none => .error (errorOf "RangeError"
      s!"The number {numToText x} cannot be converted to a BigInt because it is not an integer")

/-- `pow10`: a table of twenty powers, then a floating power. -/
def pow10 (decimals : ℕ) : Except Thrown ℤ :=
  if decimals < 20 then .ok (10 ^ decimals) else bigIntOfNumber (Number.ofRat (10 ^ decimals))

/-- The digits before the point. -/
def wholePart (cs : List Char) : List Char := cs.takeWhile (· ≠ '.')

/-- What follows the first point. -/
def fracPart (cs : List Char) : List Char := (cs.dropWhile (· ≠ '.')).drop 1

/-- The fraction cut or filled with zeros to `needed` digits. -/
def padFraction (frac : List Char) (needed : ℕ) : List Char :=
  if needed ≤ frac.length then frac.take needed
  else frac ++ List.replicate (needed - frac.length) '0'

/-- `/^\d*(\.\d*)?$/`, and neither `"."` nor `""`. -/
def AmountFormat (amount : String) : Prop :=
  AllDigits (wholePart amount.toList) ∧ AllDigits (fracPart amount.toList) ∧
    amount ≠ "." ∧ amount ≠ ""

instance (amount : String) : Decidable (AmountFormat amount) :=
  inferInstanceAs (Decidable (_ ∧ _ ∧ _ ∧ _))

def toStroops (amount : String) (decimals : ℕ) : Except Thrown ℤ := do
  if ¬ AmountFormat amount then throwNew s!"Invalid amount format: \"{amount}\""
  else
    let fracPadded := padFraction (fracPart amount.toList) (decimals + 1)
    let fracValue ← bigIntOf (String.ofList fracPadded)
    let roundingDigit := (fracPadded.getD decimals '0').toNat - 48
    let roundedFrac := if 5 ≤ roundingDigit then fracValue.tdiv 10 + 1 else fracValue.tdiv 10
    let whole ← bigIntOf (String.ofList (wholePart amount.toList))
    let factor ← pow10 decimals
    return whole * factor + roundedFrac

/-- `String(x)` on an optional number. -/
def optionText : Option Number → String
  | none => "undefined"
  | some x => numToText x

def calculateRate (depositAmount : String) (durationSecs : Option Number) (decimals : ℕ) :
    Except Thrown ℤ :=
  match durationSecs.filter fun d => d.isInteger && !d.le (.fin 0) with
  | none => throwNew s!"durationSecs must be a positive integer, got {optionText durationSecs}"
  | some d => do
    let stroops ← toStroops depositAmount decimals
    let divisor ← bigIntOfNumber d
    if divisor = 0 then return 0
    let quotient := stroops.tdiv divisor
    let remainder := stroops - quotient * divisor
    return if divisor ≤ remainder * 2 then quotient + 1 else quotient

theorem eq_of_bigIntOfNumber {x : Number} {n : ℤ} (h : bigIntOfNumber x = .ok n) :
    x = .fin n := by
  unfold bigIntOfNumber at h
  cases hx : x.toBigInt with
  | none =>
    rw [hx] at h
    cases h
  | some m =>
    rw [hx] at h
    cases h
    exact Number.eq_of_toBigInt hx

theorem bigIntOfNumber_ok_iff {x : Number} : (∃ n, bigIntOfNumber x = .ok n) ↔ x.isInteger = true := by
  constructor
  · rintro ⟨n, hn⟩
    rw [eq_of_bigIntOfNumber hn]
    exact Number.isInteger_intCast n
  · intro h
    obtain ⟨n, rfl⟩ := Number.isInteger_iff.mp h
    exact ⟨n, by rw [bigIntOfNumber, Number.toBigInt_intCast]⟩

/-! ## Digit strings -/

def digitsValue (cs : List Char) : ℕ := Nat.ofDigitChars 10 cs 0

theorem digitsValue_append (cs ds : List Char) :
    digitsValue (cs ++ ds) = digitsValue cs * 10 ^ ds.length + digitsValue ds := by
  rw [digitsValue, Nat.ofDigitChars_append, Nat.ofDigitChars_eq_ofDigitChars_zero, mul_comm]
  rfl

theorem digitsValue_lt {cs : List Char} (h : AllDigits cs) : digitsValue cs < 10 ^ cs.length := by
  induction cs with
  | nil => simp [digitsValue]
  | cons c cs ih =>
    have hc := isDigit_bounds (h c List.mem_cons_self)
    have hcs := ih fun c' hc' => h c' (List.mem_cons_of_mem _ hc')
    rw [← List.singleton_append, digitsValue_append, List.length_append, pow_add]
    have h1 : digitsValue [c] = c.toNat - 48 := by simp [digitsValue, Nat.ofDigitChars_cons]
    have h9 : digitsValue [c] ≤ 9 := by omega
    have := Nat.mul_le_mul_right (10 ^ cs.length) h9
    simp only [List.length_singleton, pow_one]
    omega

theorem digitsValue_take {cs : List Char} (h : AllDigits cs) (k : ℕ) :
    digitsValue (cs.take k) = digitsValue cs / 10 ^ (cs.length - k) := by
  conv_rhs => rw [← List.take_append_drop k cs, digitsValue_append, List.take_append_drop]
  have hdrop := digitsValue_lt fun c hc => h c (List.mem_of_mem_drop (i := k) hc)
  rw [List.length_drop] at hdrop ⊢
  rw [mul_comm, Nat.mul_add_div (by positivity), Nat.div_eq_of_lt hdrop, add_zero]

theorem digitsValue_zeros (cs : List Char) (k : ℕ) :
    digitsValue (cs ++ List.replicate k '0') = digitsValue cs * 10 ^ k := by
  rw [digitsValue_append, List.length_replicate]
  have h0 : digitsValue (List.replicate k '0') = 0 := by
    rw [digitsValue, Nat.ofDigitChars_replicate_zero, mul_zero]
  rw [h0, add_zero]

/-- A padded fraction keeps its leading digits. -/
theorem digitsValue_padFraction {frac : List Char} (h : AllDigits frac) (m : ℕ) :
    digitsValue (padFraction frac m) = digitsValue frac * 10 ^ m / 10 ^ frac.length := by
  unfold padFraction
  split_ifs with hm
  · rw [digitsValue_take h]
    have hsplit : 10 ^ frac.length = 10 ^ (frac.length - m) * 10 ^ m := by
      rw [← pow_add, Nat.sub_add_cancel hm]
    rw [hsplit, Nat.mul_div_mul_right _ _ (by positivity)]
  · have hsplit : 10 ^ m = 10 ^ (m - frac.length) * 10 ^ frac.length := by
      rw [← pow_add, Nat.sub_add_cancel (by omega)]
    rw [digitsValue_zeros, hsplit, ← mul_assoc, Nat.mul_div_cancel _ (by positivity)]

theorem length_padFraction (frac : List Char) (m : ℕ) : (padFraction frac m).length = m := by
  unfold padFraction
  split_ifs with hm
  · rw [List.length_take, min_eq_left hm]
  · rw [List.length_append, List.length_replicate]
    omega

theorem allDigits_padFraction {frac : List Char} (h : AllDigits frac) (m : ℕ) :
    AllDigits (padFraction frac m) := by
  intro c hc
  unfold padFraction at hc
  split_ifs at hc
  · exact h c (List.mem_of_mem_take hc)
  · rcases List.mem_append.mp hc with hc | hc
    · exact h c hc
    · rw [List.eq_of_mem_replicate hc]
      rfl

/-- The last digit of a numeral is its value modulo ten. -/
theorem getD_toNat_sub {cs : List Char} (h : AllDigits cs) {d : ℕ} (hlen : cs.length = d + 1) :
    (cs.getD d '0').toNat - 48 = digitsValue cs % 10 := by
  obtain ⟨ds, c, rfl⟩ : ∃ ds c, cs = ds ++ [c] :=
    ⟨cs.dropLast, cs.getLast (by rintro rfl; simp at hlen), (List.dropLast_append_getLast _).symm⟩
  have hds : ds.length = d := by simpa using hlen
  have hc := isDigit_bounds (h c (by simp))
  rw [digitsValue_append, List.getD_append_right _ _ _ _ hds.le, hds]
  have h1 : digitsValue [c] = c.toNat - 48 := by simp [digitsValue, Nat.ofDigitChars_cons]
  simp [h1]
  omega

/-! ## Values -/

/-- What an amount says. -/
def amountValue (amount : String) : ℚ :=
  digitsValue (wholePart amount.toList) +
    digitsValue (fracPart amount.toList) / 10 ^ (fracPart amount.toList).length

theorem floor_natCast_div (n m : ℕ) : ⌊(n : ℚ) / m⌋ = (n / m : ℕ) := by
  rw [Int.floor_div_natCast, Int.floor_natCast, Int.natCast_div]

/-- Half-up rounding of a quotient, in integers. -/
theorem round_div (n : ℕ) {m : ℕ} (hm : 0 < m) :
    round ((n : ℚ) / m) = ((2 * n + m) / (2 * m) : ℕ) := by
  have hq : (n : ℚ) / m + 1 / 2 = ((2 * n + m : ℕ) : ℚ) / (2 * m : ℕ) := by
    push_cast
    field_simp
  rw [round_eq, hq, floor_natCast_div]

/-- The whole part, with the fraction cut one digit late and rounded. -/
theorem round_amountValue (amount : String) (d : ℕ) :
    round (amountValue amount * 10 ^ d) =
      (digitsValue (wholePart amount.toList) * 10 ^ d +
        (digitsValue (fracPart amount.toList) * 10 ^ (d + 1) /
          10 ^ (fracPart amount.toList).length + 5) / 10 : ℕ) := by
  set W := digitsValue (wholePart amount.toList)
  set F := digitsValue (fracPart amount.toList)
  set n := (fracPart amount.toList).length
  have hq : amountValue amount * 10 ^ d + 1 / 2 =
      ((W * 10 ^ d * (10 ^ n * 10) + (F * 10 ^ (d + 1) + 5 * 10 ^ n) : ℕ) : ℚ) /
        (10 ^ n * 10 : ℕ) := by
    change (W + F / 10 ^ n : ℚ) * 10 ^ d + 1 / 2 = _
    push_cast
    field_simp
    ring
  have hdiv : (W * 10 ^ d * (10 ^ n * 10) + (F * 10 ^ (d + 1) + 5 * 10 ^ n)) / (10 ^ n * 10) =
      W * 10 ^ d + (F * 10 ^ (d + 1) / 10 ^ n + 5) / 10 := by
    rw [mul_comm (W * 10 ^ d), Nat.mul_add_div (by positivity), ← Nat.div_div_eq_div_mul,
      Nat.add_mul_div_right _ _ (by positivity)]
  rw [round_eq, hq, floor_natCast_div, hdiv]

theorem bigIntOf_digits {cs : List Char} (h : AllDigits cs) :
    bigIntOf (String.ofList cs) = .ok (digitsValue cs) := by
  rw [bigIntOf, bigInt_ofDigits h]
  rfl

/-- Whatever the power of ten is taken to be, only the whole part depends on it. -/
theorem toStroops_of_pow10 {amount : String} (h : AmountFormat amount) {d : ℕ} {factor : ℤ}
    (hpow : pow10 d = .ok factor) :
    toStroops amount d = .ok (round (amountValue amount * 10 ^ d) +
      digitsValue (wholePart amount.toList) * (factor - 10 ^ d)) := by
  obtain ⟨hw, hf, hdot, hne⟩ := h
  have hpad := allDigits_padFraction hf (d + 1)
  have hdigit := getD_toNat_sub hpad (length_padFraction _ (d + 1))
  rw [toStroops, if_neg (not_not.mpr ⟨hw, hf, hdot, hne⟩)]
  simp only [bigIntOf_digits hpad, bigIntOf_digits hw, ok_seq, hdigit, hpow]
  change Except.ok _ = _
  rw [round_amountValue, ← digitsValue_padFraction hf]
  set P := digitsValue (padFraction (fracPart amount.toList) (d + 1))
  -- adding five and cutting the last digit is rounding on it
  have hround : (if 5 ≤ P % 10 then (P : ℤ).tdiv 10 + 1 else (P : ℤ).tdiv 10) =
      ((P + 5) / 10 : ℕ) := by
    rw [Int.tdiv_eq_ediv_of_nonneg (by positivity)]
    split_ifs <;> omega
  rw [hround]
  push_cast
  congr 1
  ring

/-- **Stroops are the amount, rounded half up.** -/
theorem toStroops_eq_round {amount : String} (h : AmountFormat amount) {d : ℕ} (hd : d < 20) :
    toStroops amount d = .ok (round (amountValue amount * 10 ^ d)) := by
  rw [toStroops_of_pow10 h (if_pos hd), sub_self, mul_zero, add_zero]

/-! ## Amounts without a point -/

theorem wholePart_of_digits {cs : List Char} (h : AllDigits cs) : wholePart cs = cs := by
  rw [wholePart, List.takeWhile_eq_self_iff]
  intro c hc
  have : c ≠ '.' := by
    rintro rfl
    cases h _ hc
  simpa using this

theorem fracPart_of_digits {cs : List Char} (h : AllDigits cs) : fracPart cs = [] := by
  have := List.takeWhile_append_dropWhile (p := (· ≠ '.')) (l := cs)
  rw [← wholePart, wholePart_of_digits h, List.append_right_eq_self] at this
  rw [fracPart, this]
  rfl

theorem amountFormat_of_digits {amount : String} (h : AllDigits amount.toList) (hne : amount ≠ "") :
    AmountFormat amount := by
  refine ⟨by rwa [wholePart_of_digits h], ?_, ?_, hne⟩
  · rw [fracPart_of_digits h]
    rintro c ⟨⟩
  · rintro rfl
    cases h '.' (by decide)

/-- A display amount without a point is its digits. -/
theorem amountValue_of_digits {amount : String} (h : AllDigits amount.toList) :
    amountValue amount = digitsValue amount.toList := by
  simp [amountValue, wholePart_of_digits h, fracPart_of_digits h, digitsValue]

/-! ## Other texts -/

theorem toStroops_eq_error {amount : String} (h : ¬ AmountFormat amount) (d : ℕ) :
    ∃ e, toStroops amount d = .error e :=
  ⟨_, if_pos h⟩

theorem format_of_toStroops {amount : String} {d : ℕ} {n : ℤ} (h : toStroops amount d = .ok n) :
    AmountFormat amount := by
  by_contra hf
  obtain ⟨e, he⟩ := toStroops_eq_error hf d
  rw [he] at h
  cases h

theorem pow10_nonneg {d : ℕ} {n : ℤ} (h : pow10 d = .ok n) : 0 ≤ n := by
  unfold pow10 at h
  split_ifs at h with hd
  · cases h
    positivity
  · cases hb : (Number.ofRat (10 ^ d)).toBigInt with
    | none => simp [bigIntOfNumber, hb] at h
    | some m =>
      simp only [bigIntOfNumber, hb, Except.ok.injEq] at h
      subst h
      exact_mod_cast Number.nonneg_of_ofRat (by positivity) (Number.eq_of_toBigInt hb)

/-- Stroops are never negative, however many decimals the token has. -/
theorem toStroops_nonneg {amount : String} {d : ℕ} {D : ℤ} (h : toStroops amount d = .ok D) :
    0 ≤ D := by
  obtain ⟨hw, hf, hdot, hne⟩ := format_of_toStroops h
  rw [toStroops, if_neg (not_not.mpr ⟨hw, hf, hdot, hne⟩)] at h
  simp only [bigIntOf_digits (allDigits_padFraction hf (d + 1)), bigIntOf_digits hw, ok_seq] at h
  obtain ⟨factor, hfactor, h⟩ := seq_ok_iff.mp h
  have hfactor := pow10_nonneg hfactor
  cases h
  have hfrac := Int.tdiv_nonneg (Int.natCast_nonneg
    (digitsValue (padFraction (fracPart amount.toList) (d + 1)))) (by norm_num : (0 : ℤ) ≤ 10)
  apply add_nonneg (by positivity)
  split_ifs
  · omega
  · exact hfrac

/-- Half-up rounding of stroops over seconds. -/
def rateOf (stroops seconds : ℤ) : ℤ := (2 * stroops + seconds) / (2 * seconds)

theorem rateOf_eq_round {D : ℤ} (hD : 0 ≤ D) {d : ℕ} (hd : 0 < d) :
    rateOf D d = round ((D : ℚ) / d) := by
  lift D to ℕ using hD
  have := round_div D hd
  push_cast at this
  exact this.symm

theorem rateOf_nonneg {D : ℤ} (hD : 0 ≤ D) (k : ℕ) : 0 ≤ rateOf D k :=
  Int.ediv_nonneg (by omega) (by omega)

theorem rateOf_le {D : ℤ} (hD : 0 ≤ D) {k : ℕ} (hk : 0 < k) : rateOf D k ≤ D := by
  refine Int.lt_add_one_iff.mp (Int.ediv_lt_of_lt_mul (by omega) ?_)
  have : 2 * D * 1 ≤ 2 * D * k := mul_le_mul_of_nonneg_left (by omega) (by omega)
  linarith

/-- A rate is positive unless the deposit is below half the duration. -/
theorem rateOf_pos_iff {D : ℤ} {k : ℕ} (hk : 0 < k) : 0 < rateOf D k ↔ (k : ℤ) ≤ 2 * D := by
  rw [rateOf, ← Int.add_one_le_iff, Int.le_ediv_iff_mul_le (by omega)]
  omega

section Remainder

variable {D : ℤ} {d : ℕ}

theorem rateOf_eq_add (hd : 0 < d) : rateOf D d = D / d + (2 * (D % d) + d) / (2 * d) := by
  have hnum : 2 * D + d = 2 * d * (D / d) + (2 * (D % d) + d) := by
    linarith [Int.mul_ediv_add_emod D d, mul_assoc 2 (d : ℤ) (D / d)]
  rw [rateOf, hnum, Int.mul_add_ediv_left _ _ (by omega)]

/-- A small remainder is rounded away. -/
theorem rateOf_of_lt (hd : 0 < d) (h : 2 * (D % d) < d) : rateOf D d = D / d := by
  have hr := Int.emod_nonneg D (by omega : (d : ℤ) ≠ 0)
  have h0 : (2 * (D % d) + d) / (2 * d) = 0 := Int.ediv_eq_zero_of_lt (by omega) (by omega)
  rw [rateOf_eq_add hd, h0, add_zero]

/-- A large remainder adds one. -/
theorem rateOf_of_le (hd : 0 < d) (h : d ≤ D % d * 2) : rateOf D d = D / d + 1 := by
  have hr := Int.emod_lt_of_pos D (by omega : (0 : ℤ) < d)
  have h0 : (2 * (D % d) - d) / (2 * d) = 0 := Int.ediv_eq_zero_of_lt (by omega) (by omega)
  have hnum : 2 * (D % d) + d = (2 * (D % d) - d) + 1 * (2 * d) := by ring
  rw [rateOf_eq_add hd, hnum, Int.add_mul_ediv_right _ _ (by omega), h0, zero_add]

end Remainder

/-- A number of seconds that `calculateRate` accepts. -/
theorem posInteger_iff {x : Number} :
    (x.isInteger && !x.le (.fin 0)) = true ↔ ∃ k : ℕ, 0 < k ∧ x = .fin k := by
  rw [Bool.and_eq_true, Bool.not_eq_true']
  constructor
  · rintro ⟨hint, hle⟩
    obtain ⟨n, rfl⟩ := Number.isInteger_iff.mp hint
    rw [Number.le_fin, decide_eq_false_iff_not, not_le] at hle
    have hpos : 0 < n := by exact_mod_cast hle
    lift n to ℕ using hpos.le
    exact ⟨n, by exact_mod_cast hpos, by norm_cast⟩
  · rintro ⟨k, hk, rfl⟩
    exact ⟨by exact_mod_cast Number.isInteger_intCast k, by simpa using hk.ne'⟩

/-- **The rate is stroops over seconds, rounded half up.** -/
theorem calculateRate_eq {amount : String} {D : ℤ} {decimals d : ℕ}
    (hD : toStroops amount decimals = .ok D) (hnn : 0 ≤ D) (hd : 0 < d) :
    calculateRate amount (some (.fin d)) decimals = .ok (rateOf D d) := by
  have hfilter : (some (Number.fin d)).filter (fun d => d.isInteger && !d.le (.fin 0)) =
      some (.fin d) := by
    rw [Option.filter_some, posInteger_iff.mpr ⟨d, hd, rfl⟩, if_pos rfl]
  have hbig : bigIntOfNumber (.fin d) = .ok (d : ℤ) := by
    rw [bigIntOfNumber, Number.toBigInt_natCast]
  have hne : (d : ℤ) ≠ 0 := by exact_mod_cast hd.ne'
  rw [calculateRate, hfilter]
  simp only [hD, hbig, ok_seq, if_neg hne]
  apply congrArg Except.ok
  have hrem : D - D / d * d = D % d := by linarith [Int.mul_ediv_add_emod D d, mul_comm (D / d) d]
  rw [Int.tdiv_eq_ediv_of_nonneg hnn, hrem]
  split_ifs with h
  · exact (rateOf_of_le hd h).symm
  · exact (rateOf_of_lt hd (by omega)).symm

/-- **When there is a rate, and what it is.** -/
theorem calculateRate_ok_iff {amount : String} {D R : ℤ} {decimals : ℕ} {duration : Option Number}
    (hD : toStroops amount decimals = .ok D) : calculateRate amount duration decimals = .ok R ↔
      ∃ k : ℕ, 0 < k ∧ duration = some (.fin k) ∧ R = rateOf D k := by
  constructor
  · intro h
    unfold calculateRate at h
    split at h
    · cases h
    · rename_i d hd
      obtain ⟨rfl, hint⟩ := Option.filter_eq_some_iff.mp hd
      obtain ⟨k, hk, rfl⟩ := posInteger_iff.mp hint
      have hrate := calculateRate_eq hD (toStroops_nonneg hD) hk
      rw [calculateRate, hd] at hrate
      exact ⟨k, hk, rfl, Except.ok.inj (h.symm.trans hrate)⟩
  · rintro ⟨k, hk, rfl, rfl⟩
    exact calculateRate_eq hD (toStroops_nonneg hD) hk

end StreamFi
