import StreamFi.Stroops

/-!
# Displayed amounts

`formatTokenAmount` writes an amount in the smallest unit with a fixed number of places.

* `formatTokenAmount`: the code; `fixedText`: a number of last places, as it is written;
* **`formatTokenAmount_rounds`**: what is written is the amount, rounded half up to these places.
-/

namespace StreamFi

open Js

/-! ## The code -/

/-- An amount is given as a `bigint` or as a text. -/
inductive AmountInput where
  | bigint (n : ℤ)
  | string (s : String)
  deriving DecidableEq

def AmountInput.toBigInt : AmountInput → Except Thrown ℤ
  | .bigint n => .ok n
  | .string s => bigIntOf s

def formatTokenAmount (amount : AmountInput) (decimals : ℕ) (displayDecimals : Option ℕ) :
    Except Thrown String := do
  let displayDec := displayDecimals.getD decimals
  let factor ← pow10 decimals
  let displayFactor ← pow10 displayDec
  let amountBI ← amount.toBigInt
  let neg := decide (amountBI < 0)
  let absAmount := if neg then -amountBI else amountBI
  let sign := if neg then ['-'] else []
  let whole := absAmount.tdiv factor
  let rem := absAmount.tmod factor
  if displayDec = 0 then
    let rounded := if factor ≤ rem * 2 then whole + 1 else whole
    return String.ofList (sign ++ (toString rounded).toList)
  else
    let scaledRem := (rem * displayFactor + factor.tdiv 2).tdiv factor
    let cappedRem := if displayFactor ≤ scaledRem then 0 else scaledRem
    let carry := if displayFactor ≤ scaledRem then 1 else 0
    let wholeWithCarry := whole + carry
    let fracStr := padStart (toString cappedRem).toList displayDec
    return String.ofList (sign ++ (toString wholeWithCarry).toList ++ '.' :: fracStr)

/-! ## What is written -/

/-- The sign of an amount. -/
def signText (a : ℤ) : List Char := if a < 0 then ['-'] else []

/-- A fraction with its point, if there is one. -/
def pointed (frac : List Char) : List Char := if frac = [] then [] else '.' :: frac

/-- The digits behind the point of a number of last places. -/
def fixedFraction (N k : ℕ) : List Char := if k = 0 then [] else padStart (Nat.toDigits 10 (N % 10 ^ k)) k

def fixedText (N k : ℕ) : List Char := Nat.toDigits 10 (N / 10 ^ k) ++ pointed (fixedFraction N k)

/-- `n / 10 ^ d` in last places, rounded half up. -/
def lastPlaces (n d k : ℕ) : ℕ := (2 * (n * 10 ^ k) + 10 ^ d) / (2 * 10 ^ d)

/-- The whole part and the remainder are rounded apart. -/
theorem lastPlaces_eq (n d k : ℕ) :
    lastPlaces n d k = n / 10 ^ d * 10 ^ k + lastPlaces (n % 10 ^ d) d k := by
  have hn : 2 * (n * 10 ^ k) + 10 ^ d =
      2 * (n % 10 ^ d * 10 ^ k) + 10 ^ d + 2 * 10 ^ d * (n / 10 ^ d * 10 ^ k) := by
    conv_lhs => rw [← Nat.div_add_mod n (10 ^ d)]
    ring
  rw [lastPlaces, hn, Nat.add_mul_div_left _ _ (by positivity), add_comm]
  rfl

theorem lastPlaces_le {n d : ℕ} (h : n < 10 ^ d) (k : ℕ) : lastPlaces n d k ≤ 10 ^ k := by
  have hd : 0 < 10 ^ d := by positivity
  rw [lastPlaces, Nat.div_le_iff_le_mul_add_pred (by positivity)]
  have hle : n * 10 ^ k ≤ 10 ^ d * 10 ^ k := Nat.mul_le_mul_right _ h.le
  have hassoc : 2 * 10 ^ d * 10 ^ k = 2 * (10 ^ d * 10 ^ k) := mul_assoc ..
  omega

/-- Half of the factor is added, and the quotient is cut. -/
theorem lastPlaces_of_half (n d k : ℕ) : lastPlaces n d k = (n * 10 ^ k + 10 ^ d / 2) / 10 ^ d := by
  rw [lastPlaces]
  rcases d with _ | d
  · omega
  · have heven : 10 ^ (d + 1) = 2 * (5 * 10 ^ d) := by ring
    rw [heven, Nat.mul_div_cancel_left _ (by norm_num), ← Nat.mul_add, Nat.mul_div_mul_left _ _ (by norm_num)]

/-- Without places, a half is rounded up. -/
theorem lastPlaces_zero {n d : ℕ} (h : n < 10 ^ d) :
    lastPlaces n d 0 = if 10 ^ d ≤ n * 2 then 1 else 0 := by
  rw [lastPlaces, pow_zero, mul_one]
  split_ifs with hhalf
  · exact Nat.div_eq_of_lt_le (by omega) (by omega)
  · exact Nat.div_eq_of_lt (by omega)

theorem pow10_of_lt {d : ℕ} (hd : d < 20) : pow10 d = .ok ((10 ^ d : ℕ) : ℤ) := by
  rw [Nat.cast_pow]
  exact if_pos hd

/-- **The carry** goes into the whole part. -/
theorem lastPlaces_carry {n d k r : ℕ} (hr : lastPlaces (n % 10 ^ d) d k = r) :
    lastPlaces n d k / 10 ^ k = n / 10 ^ d + (if 10 ^ k ≤ r then 1 else 0) ∧
      lastPlaces n d k % 10 ^ k = if 10 ^ k ≤ r then 0 else r := by
  have hk : 0 < 10 ^ k := by positivity
  have hle : r ≤ 10 ^ k := hr ▸ lastPlaces_le (Nat.mod_lt _ (by positivity)) k
  rw [lastPlaces_eq, hr, Nat.add_comm, Nat.add_mul_div_right _ _ hk, Nat.add_mul_mod_self_right]
  split_ifs with hcarry
  · rw [le_antisymm hle hcarry, Nat.div_self hk, Nat.mod_self]
    exact ⟨add_comm .., rfl⟩
  · rw [Nat.div_eq_of_lt (not_le.mp hcarry), Nat.mod_eq_of_lt (not_le.mp hcarry)]
    exact ⟨add_comm .., rfl⟩

theorem formatTokenAmount_natAbs (a : ℤ) {d k : ℕ} (hd : d < 20) (hk : k < 20) :
    formatTokenAmount (.bigint a) d (some k) =
      .ok (String.ofList (signText a ++ fixedText (lastPlaces a.natAbs d k) k)) := by
  have habs : (if decide (a < 0) = true then -a else a) = (a.natAbs : ℤ) := by
    simp only [decide_eq_true_eq]
    split_ifs <;> omega
  have hsign : (if decide (a < 0) = true then ['-'] else []) = signText a := by
    simp only [decide_eq_true_eq, signText]
  set n := a.natAbs
  have hwhole : (n : ℤ).tdiv (10 ^ d : ℕ) = (n / 10 ^ d : ℕ) :=
    Int.tdiv_eq_ediv_of_nonneg (Int.natCast_nonneg n)
  have hmod : (n : ℤ).tmod (10 ^ d : ℕ) = (n % 10 ^ d : ℕ) :=
    Int.tmod_eq_emod_of_nonneg (Int.natCast_nonneg n)
  obtain ⟨hcarry, hcapped⟩ := lastPlaces_carry (n := n) (d := d) (k := k) rfl
  simp only [formatTokenAmount, Option.getD_some, pow10_of_lt hd, pow10_of_lt hk, ok_seq,
    AmountInput.toBigInt, habs, hsign, hwhole, hmod]
  rcases Nat.eq_zero_or_pos k with rfl | hpos
  · have hhalf : ((10 ^ d : ℕ) : ℤ) ≤ (n % 10 ^ d : ℕ) * 2 ↔ 10 ^ d ≤ n % 10 ^ d * 2 := by
      exact_mod_cast Iff.rfl
    have hrounded : (if ((10 ^ d : ℕ) : ℤ) ≤ (n % 10 ^ d : ℕ) * 2 then ((n / 10 ^ d : ℕ) : ℤ) + 1
        else (n / 10 ^ d : ℕ)) = (lastPlaces n d 0 : ℕ) := by
      rw [lastPlaces_eq, lastPlaces_zero (Nat.mod_lt _ (by positivity)), if_congr hhalf rfl rfl]
      split_ifs <;> simp
    rw [if_pos rfl, hrounded, toList_toString_natCast, fixedText, fixedFraction, if_pos rfl, pow_zero,
      Nat.div_one, pointed, if_pos rfl, List.append_nil]
    rfl
  · have hscaled : (((n % 10 ^ d : ℕ) : ℤ) * (10 ^ k : ℕ) + ((10 ^ d : ℕ) : ℤ).tdiv 2).tdiv
        (10 ^ d : ℕ) = (lastPlaces (n % 10 ^ d) d k : ℕ) := by
      rw [lastPlaces_of_half, Int.tdiv_eq_ediv_of_nonneg (Int.natCast_nonneg _),
        Int.tdiv_eq_ediv_of_nonneg (by positivity)]
      push_cast
      rfl
    simp only [hscaled, Nat.cast_le]
    have hlast : (if 10 ^ k ≤ lastPlaces (n % 10 ^ d) d k then (0 : ℤ)
        else (lastPlaces (n % 10 ^ d) d k : ℕ)) = (lastPlaces n d k % 10 ^ k : ℕ) := by
      rw [hcapped]
      split_ifs <;> rfl
    have hcarried : ((n / 10 ^ d : ℕ) : ℤ) + (if 10 ^ k ≤ lastPlaces (n % 10 ^ d) d k then 1 else 0) =
        (lastPlaces n d k / 10 ^ k : ℕ) := by
      rw [hcarry]
      split_ifs <;> simp
    rw [if_neg (by omega), hlast, hcarried, toList_toString_natCast, toList_toString_natCast, fixedText,
      fixedFraction, if_neg (by omega), pointed, if_neg]
    · exact congrArg (fun cs => Except.ok (String.ofList cs)) (List.append_assoc ..)
    · rw [← ne_eq, ← List.length_pos_iff, length_padStart]
      exact lt_max_of_lt_left hpos

theorem formatTokenAmount_string {s : String} {n : ℤ} (h : bigIntOf s = .ok n) (decimals : ℕ)
    (displayDecimals : Option ℕ) : formatTokenAmount (.string s) decimals displayDecimals =
      formatTokenAmount (.bigint n) decimals displayDecimals := by
  simp only [formatTokenAmount, AmountInput.toBigInt, h]

/-- With as many places as decimals, nothing is rounded. -/
theorem lastPlaces_self (n d : ℕ) : lastPlaces n d d = n := by
  have hpos : 0 < 10 ^ d := by positivity
  rw [lastPlaces]
  exact Nat.div_eq_of_lt_le (by nlinarith) (by nlinarith)

/-! ## What it stands for -/

theorem allDigits_fixedFraction (N k : ℕ) : AllDigits (fixedFraction N k) := by
  unfold fixedFraction
  split_ifs
  · intro c hc
    cases hc
  · exact allDigits_padStart (allDigits_toDigits _) k

theorem length_fixedFraction (N k : ℕ) : (fixedFraction N k).length = k := by
  unfold fixedFraction
  split_ifs with hk
  · exact hk.symm
  · have hlt : N % 10 ^ k < 10 ^ k := Nat.mod_lt _ (by positivity)
    have hdigits := (Nat.length_toDigits_le_iff (by norm_num : 1 < 10) (Nat.pos_of_ne_zero hk)).mpr hlt
    rw [length_padStart, Nat.max_eq_left hdigits]

theorem digitsValue_fixedFraction (N k : ℕ) : digitsValue (fixedFraction N k) = N % 10 ^ k := by
  unfold fixedFraction
  split_ifs with hk
  · rw [hk, pow_zero, Nat.mod_one]
    rfl
  · rw [digitsValue_padStart, digitsValue_toDigits]

theorem fixedText_value (N k : ℕ) :
    (digitsValue (Nat.toDigits 10 (N / 10 ^ k)) : ℚ) + digitsValue (fixedFraction N k) / 10 ^ k =
      N / 10 ^ k := by
  rw [digitsValue_toDigits, digitsValue_fixedFraction, eq_div_iff (by positivity), add_mul,
    div_mul_cancel₀ _ (by positivity)]
  exact_mod_cast Nat.div_add_mod' N (10 ^ k)

theorem round_lastPlaces (n d k : ℕ) : round ((n : ℚ) / 10 ^ d * 10 ^ k) = (lastPlaces n d k : ℤ) := by
  have hq : (n : ℚ) / 10 ^ d * 10 ^ k = ((n * 10 ^ k : ℕ) : ℚ) / (10 ^ d : ℕ) := by
    push_cast
    ring
  rw [hq, round_div _ (by positivity)]
  rfl

/-- **What is written is the amount, rounded half up**: its sign, the digits of the whole part, and
behind the point as many digits as are asked for. -/
theorem formatTokenAmount_rounds (a : ℤ) {d k : ℕ} (hd : d ≤ 19) (hk : k ≤ 19) :
    ∃ whole frac, formatTokenAmount (.bigint a) d (some k) =
        .ok (String.ofList (signText a ++ whole ++ pointed frac)) ∧
      AllDigits whole ∧ whole ≠ [] ∧ AllDigits frac ∧ frac.length = k ∧
      (digitsValue whole : ℚ) + digitsValue frac / 10 ^ k = round (|(a : ℚ)| / 10 ^ d * 10 ^ k) / 10 ^ k := by
  refine ⟨Nat.toDigits 10 (lastPlaces a.natAbs d k / 10 ^ k), fixedFraction (lastPlaces a.natAbs d k) k,
    ?_, allDigits_toDigits _, Nat.toDigits_ne_nil, allDigits_fixedFraction _ k,
    length_fixedFraction _ k, ?_⟩
  · rw [List.append_assoc]
    exact formatTokenAmount_natAbs a (by omega) (by omega)
  · have habs : |(a : ℚ)| = (a.natAbs : ℚ) := by rw [Nat.cast_natAbs, Int.cast_abs]
    rw [fixedText_value, habs, round_lastPlaces, Int.cast_natCast]

theorem formatTokenAmount_rounds_carry :
    formatTokenAmount (.bigint (-9996)) 3 (some 2) = .ok "-10.00" ∧
      ∃ whole frac, formatTokenAmount (.bigint (-9996)) 3 (some 2) =
          .ok (String.ofList (signText (-9996) ++ whole ++ pointed frac)) ∧
        AllDigits whole ∧ whole ≠ [] ∧ AllDigits frac ∧ frac.length = 2 ∧
        (digitsValue whole : ℚ) + digitsValue frac / 10 ^ 2 =
          round (|((-9996 : ℤ) : ℚ)| / 10 ^ 3 * 10 ^ 2) / 10 ^ 2 :=
  ⟨by decide, formatTokenAmount_rounds (-9996) (by norm_num) (by norm_num)⟩

end StreamFi
