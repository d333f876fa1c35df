import Mathlib

/-!
# JavaScript numbers

A `number` is an IEEE 754 double. It is kept by its value: `NaN`, the two infinities, or a
rational; the sign of zero is dropped. A sum is rounded to the nearest double, ties to even.

* `ulpExp`, `roundEven`, `ofRat`: rounding a rational to binary64;
* **`ofRat_intCast`**: integers of magnitude at most `2 ^ 53` are exact;
* `add`, `lt`, `le`, `min`, `trunc`, `isInteger`, `toBigInt`: the operators, with `NaN`.
-/

namespace Js

/-- A JavaScript number, by its value. -/
inductive Number where
  | nan
  | posInf
  | negInf
  | fin (q : ℚ)
  deriving DecidableEq

namespace Number

/-! ## Rounding -/

/-- The exponent of the last place of a double of the magnitude of `q`. -/
def ulpExp (q : ℚ) : ℤ := max (Int.log 2 |q| - 52) (-1074)

/-- The nearest integer, ties to even. -/
def roundEven (q : ℚ) : ℤ :=
  if q - ⌊q⌋ < 1 / 2 then ⌊q⌋
  else if 1 / 2 < q - ⌊q⌋ then ⌊q⌋ + 1
  else if ⌊q⌋ % 2 = 0 then ⌊q⌋ else ⌊q⌋ + 1

/-- The nearest double. -/
def ofRat (q : ℚ) : Number :=
  let r : ℚ := roundEven (q / 2 ^ ulpExp q) * 2 ^ ulpExp q
  if 2 ^ 1024 ≤ r then .posInf else if r ≤ -2 ^ 1024 then .negInf else .fin r

theorem roundEven_intCast (n : ℤ) : roundEven n = n := by
  simp [roundEven]

/-- An integral multiple of the last place is not moved by rounding. -/
theorem ofRat_eq_fin {q : ℚ} (m : ℤ) (hm : q / 2 ^ ulpExp q = m) (h₁ : q < 2 ^ 1024)
    (h₂ : -2 ^ 1024 < q) : ofRat q = .fin q := by
  have hr : (roundEven (q / 2 ^ ulpExp q) : ℚ) * 2 ^ ulpExp q = q := by
    rw [hm, roundEven_intCast, ← hm, div_mul_cancel₀ _ (by positivity)]
  simp only [ofRat, hr]
  rw [if_neg (not_le.mpr h₁), if_neg (not_le.mpr h₂)]

theorem ulpExp_le_of_lt {q : ℚ} {k : ℕ} (hq : q ≠ 0) (h : |q| < 2 ^ (53 + k)) :
    ulpExp q ≤ k := by
  have hlog : Int.log 2 |q| < (53 + k : ℕ) := by
    rw [← Int.lt_zpow_iff_log_lt Nat.one_lt_two (abs_pos.mpr hq)]
    exact_mod_cast h
  unfold ulpExp
  omega

/-- Dividing an integer by a last place of exponent at most `0` gives an integer. -/
theorem intCast_div_zpow {e : ℤ} (he : e ≤ 0) (n : ℤ) :
    (n : ℚ) / 2 ^ e = ((n * 2 ^ e.natAbs : ℤ) : ℚ) := by
  obtain ⟨k, rfl⟩ : ∃ k : ℕ, e = -(k : ℤ) := ⟨e.natAbs, by omega⟩
  simp

/-- **Integers up to `2 ^ 53` are doubles.** -/
theorem ofRat_intCast {n : ℤ} (hn : |n| ≤ 2 ^ 53) : ofRat n = .fin n := by
  have hq : |(n : ℚ)| ≤ 2 ^ 53 := by exact_mod_cast hn
  have hbig : (2 : ℚ) ^ 53 < 2 ^ 1024 := pow_lt_pow_right₀ one_lt_two (by norm_num)
  have h₁ : (n : ℚ) < 2 ^ 1024 := lt_of_le_of_lt ((le_abs_self _).trans hq) hbig
  have h₂ : -(2 : ℚ) ^ 1024 < n :=
    (neg_lt_neg hbig).trans_le (neg_le.mp ((neg_le_abs (n : ℚ)).trans hq))
  by_cases h0 : n = 0
  · subst h0
    exact ofRat_eq_fin 0 (by simp) (by positivity) (by simp)
  have hne : (n : ℚ) ≠ 0 := by exact_mod_cast h0
  rcases lt_or_eq_of_le hq with hlt | heq
  · exact ofRat_eq_fin _ (intCast_div_zpow (ulpExp_le_of_lt (k := 0) hne hlt) n) h₁ h₂
  · -- the boundary case: the last place may be `2`, and `2 ^ 53` is even
    have he : ulpExp (n : ℚ) ≤ 1 :=
      ulpExp_le_of_lt (k := 1) hne (heq.trans_lt (by norm_num))
    have hn' : n = 2 * (n / 2) := by
      have habs : |n| = 2 ^ 53 := by exact_mod_cast heq
      rcases abs_eq (by positivity) |>.mp habs with h | h <;> rw [h] <;> norm_num
    rcases he.lt_or_eq with hlt | he
    · exact ofRat_eq_fin _ (intCast_div_zpow (by omega) n) h₁ h₂
    · refine ofRat_eq_fin (n / 2) ?_ h₁ h₂
      rw [he, zpow_one, div_eq_iff (by norm_num), mul_comm]
      exact_mod_cast hn'

theorem roundEven_nonneg {q : ℚ} (h : 0 ≤ q) : 0 ≤ roundEven q := by
  have := Int.floor_nonneg.mpr h
  unfold roundEven
  split_ifs <;> omega

theorem nonneg_of_ofRat {q r : ℚ} (hq : 0 ≤ q) (h : ofRat q = .fin r) : 0 ≤ r := by
  have := roundEven_nonneg (div_nonneg hq (by positivity : (0 : ℚ) ≤ 2 ^ ulpExp q))
  unfold ofRat at h
  simp only at h
  split_ifs at h
  cases h
  positivity

/-! ## Operators -/

/-- `x + y`. -/
def add : Number → Number → Number
  | .nan, _ | _, .nan => .nan
  | .posInf, .negInf | .negInf, .posInf => .nan
  | .posInf, _ | _, .posInf => .posInf
  | .negInf, _ | _, .negInf => .negInf
  | .fin a, .fin b => ofRat (a + b)

/-- `x < y`; false when either is `NaN`. -/
def lt : Number → Number → Bool
  | .fin a, .fin b => a < b
  | .fin _, .posInf | .negInf, .fin _ | .negInf, .posInf => true
  | _, _ => false

/-- `x <= y`; false when either is `NaN`. -/
def le : Number → Number → Bool
  | .fin a, .fin b => a ≤ b
  | .nan, _ | _, .nan => false
  | .negInf, _ | _, .posInf => true
  | _, _ => false

/-- `Math.min(x, y)`. -/
def min (x y : Number) : Number :=
  if x = .nan ∨ y = .nan then .nan else if x.le y then x else y

/-- `Math.max(x, y)`. -/
def max (x y : Number) : Number :=
  if x = .nan ∨ y = .nan then .nan else if x.le y then y else x

/-- `Math.trunc(x)`. -/
def trunc : Number → Number
  | .fin q => .fin (if 0 ≤ q then ⌊q⌋ else ⌈q⌉ : ℤ)
  | x => x

/-- `Number.isFinite(x)`. -/
def isFinite : Number → Bool
  | .fin _ => true
  | _ => false

/-- `Number.isInteger(x)`. -/
def isInteger : Number → Bool
  | .fin q => q.isInt
  | _ => false

/-- A number is falsy when it is `0` or `NaN`. -/
def truthy (x : Number) : Bool := x ≠ .nan && x ≠ .fin 0

/-- `BigInt(x)`; `none` is the `RangeError` on a number that is not an integer. -/
def toBigInt : Number → Option ℤ
  | .fin q => if q.isInt then some q.num else none
  | _ => none

/-- The natural number a clamped argument stands for. -/
def toNat : Number → ℕ
  | .fin q => ⌊q⌋.toNat
  | _ => 0

/-- The position `xs.slice` reads from an argument, for a list of length `len`. -/
def relIndex (len : ℕ) : Number → ℕ
  | .nan | .negInf => 0
  | .posInf => len
  | .fin q =>
    let n : ℤ := if 0 ≤ q then ⌊q⌋ else ⌈q⌉
    if n < 0 then (len + n).toNat else n.toNat ⊓ len

theorem isInt_iff {q : ℚ} : q.isInt = true ↔ ∃ n : ℤ, q = n := by
  rw [Rat.isInt, beq_iff_eq]
  constructor
  · intro h
    exact ⟨q.num, (Rat.coe_int_num_of_den_eq_one h).symm⟩
  · rintro ⟨n, rfl⟩
    exact Rat.den_intCast n

theorem isInteger_iff {x : Number} : x.isInteger = true ↔ ∃ n : ℤ, x = .fin n := by
  cases x with
  | fin q => simp [isInteger, isInt_iff]
  | nan | posInf | negInf => simp [isInteger]

@[simp] theorem isInteger_intCast (n : ℤ) : isInteger (.fin n) = true := isInteger_iff.mpr ⟨n, rfl⟩

@[simp] theorem toBigInt_intCast (n : ℤ) : toBigInt (.fin n) = some n := by
  simp [toBigInt, isInt_iff]

@[simp] theorem toBigInt_natCast (n : ℕ) : toBigInt (.fin n) = some (n : ℤ) := by
  exact_mod_cast toBigInt_intCast n

theorem eq_of_toBigInt {x : Number} {n : ℤ} (h : x.toBigInt = some n) : x = .fin n := by
  cases x with
  | fin q =>
    simp only [toBigInt, Option.ite_none_right_eq_some, Option.some.injEq] at h
    obtain ⟨m, rfl⟩ := isInt_iff.mp h.1
    rw [← h.2, Rat.num_intCast]
  | nan | posInf | negInf => cases h

@[simp] theorem toNat_natCast (n : ℕ) : toNat (.fin n) = n := by
  simp [toNat]

theorem relIndex_natCast (len n : ℕ) : relIndex len (.fin n) = n ⊓ len := by
  simp [relIndex]

@[simp] theorem trunc_natCast (n : ℕ) : trunc (.fin n) = .fin n := by
  simp [trunc]

theorem min_natCast (a b : ℕ) : min (.fin a) (.fin b) = .fin (a ⊓ b : ℕ) := by
  rcases le_total a b with h | h
  · simp [min, le, h]
  · rcases h.eq_or_lt with h | h
    · simp [min, le, h]
    · simp [min, le, not_le.mpr h, h.le]

@[simp] theorem lt_fin (a b : ℚ) : lt (.fin a) (.fin b) = decide (a < b) := rfl

@[simp] theorem le_fin (a b : ℚ) : le (.fin a) (.fin b) = decide (a ≤ b) := rfl

/-- **Sums of integers are exact up to `2 ^ 53`.** -/
theorem add_intCast {a b : ℤ} (h : |a + b| ≤ 2 ^ 53) : add (.fin a) (.fin b) = .fin (a + b : ℤ) := by
  rw [← ofRat_intCast h, Int.cast_add]
  rfl

theorem add_natCast {a b : ℕ} (h : a + b ≤ 2 ^ 53) : add (.fin a) (.fin b) = .fin (a + b : ℕ) := by
  have := add_intCast (a := a) (b := b) (by rw [abs_of_nonneg (by positivity)]; exact_mod_cast h)
  exact_mod_cast this

end Number

end Js
