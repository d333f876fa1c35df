import StreamFi.Js.Rounding

/-!
# Quotients of whole numbers

* `rem`: the operator `%`, with `rem_natCast`;
* `isDouble_mul_two_pow`, **`two_pow_dvd_of_isDouble`**: the large whole numbers that are doubles;
* **`floor_div_natCast`**: a quotient of whole numbers that share the last places is cut off exactly.
-/

namespace Js.Number

/-! ## Remainders -/

/-- `x % y`, with the sign of `x`. -/
def rem : Number → Number → Number
  | .fin a, .fin b =>
    if b = 0 then .nan else .fin (a - b * if 0 ≤ a / b then (⌊a / b⌋ : ℚ) else (⌈a / b⌉ : ℚ))
  | .fin a, .posInf | .fin a, .negInf => .fin a
  | _, _ => .nan

theorem rem_natCast (n : ℕ) {m : ℕ} (hm : 0 < m) : rem (.fin n) (.fin m) = .fin (n % m : ℕ) := by
  have hm' : (m : ℚ) ≠ 0 := by exact_mod_cast hm.ne'
  have hfloor : ⌊(n : ℚ) / m⌋ = (n / m : ℕ) := by
    rw [Int.floor_div_natCast, Int.floor_natCast, Int.natCast_div]
  have hmod : (n : ℚ) = m * (n / m : ℕ) + (n % m : ℕ) := by
    exact_mod_cast (Nat.div_add_mod n m).symm
  rw [rem, if_neg hm', if_pos (by positivity), hfloor]
  congr 1
  rw [Int.cast_natCast]
  linarith

/-! ## Large whole numbers -/

/-- Far below the largest double nothing overflows. -/
theorem ofRat_eq_rounded {q : ℚ} (h0 : 0 ≤ rounded q) (h : rounded q ≤ 2 ^ 117) : ofRat q = .fin (rounded q) := by
  have hbig : (2 : ℚ) ^ 117 < 2 ^ 1024 := pow_lt_pow_right₀ one_lt_two (by norm_num)
  have hneg : -(2 : ℚ) ^ 1024 < 0 := neg_lt_zero.mpr (pow_pos two_pos _)
  rw [ofRat_def, if_neg (not_le.mpr (h.trans_lt hbig)), if_neg (not_le.mpr (hneg.trans_le h0))]

theorem isDouble_mul_two_pow {m k : ℕ} (hm : m ≤ 2 ^ 53) (hk : k ≤ 64) :
    IsDouble (.fin ((m * 2 ^ k : ℕ) : ℚ)) := by
  intro q hq
  cases hq
  have hround := rounded_eq_self (m := m) (k := k) (by rw [abs_of_nonneg (by positivity)]; exact_mod_cast hm)
    (by omega)
  have hcast : ((m * 2 ^ k : ℕ) : ℚ) = ((m : ℤ) : ℚ) * 2 ^ (k : ℤ) := by
    push_cast
    rw [zpow_natCast]
  have hle : ((m * 2 ^ k : ℕ) : ℚ) ≤ (2 : ℚ) ^ 117 := by
    have hpow : 2 ^ k ≤ 2 ^ 64 := Nat.pow_le_pow_right two_pos hk
    exact_mod_cast (Nat.mul_le_mul hm hpow).trans_eq (by rw [← pow_add])
  rw [← hcast] at hround
  rw [ofRat_eq_rounded (by rw [hround]; exact Nat.cast_nonneg _) (by rw [hround]; exact hle), hround]

/-- **A large whole number that is a double is divisible by the last place.** -/
theorem two_pow_dvd_of_isDouble {n k : ℕ} (hd : IsDouble (.fin n)) (hn : 2 ^ (52 + k) ≤ n) : 2 ^ k ∣ n := by
  have hround : rounded (n : ℚ) = n := rounded_of_ofRat (hd n rfl)
  have hpos : 0 < n := (Nat.two_pow_pos _).trans_le hn
  have hulp : (k : ℤ) ≤ ulpExp (n : ℚ) := by
    have hlog : ((52 + k : ℕ) : ℤ) ≤ Int.log 2 |(n : ℚ)| := by
      rw [← Int.zpow_le_iff_le_log Nat.one_lt_two (abs_pos.mpr (by exact_mod_cast hpos.ne')),
        abs_of_nonneg (by positivity), zpow_natCast]
      exact_mod_cast hn
    unfold ulpExp
    omega
  obtain ⟨e, he⟩ := Int.eq_ofNat_of_zero_le ((Int.natCast_nonneg k).trans hulp)
  have hint : (n : ℤ) = roundEven (n / 2 ^ ulpExp (n : ℚ)) * 2 ^ e := by
    rw [rounded, he] at hround
    rw [he]
    exact_mod_cast hround.symm
  have hdvd : (2 ^ e : ℤ) ∣ n := ⟨_, hint.trans (mul_comm _ _)⟩
  have hke : k ≤ e := by omega
  exact (pow_dvd_pow 2 hke).trans (by exact_mod_cast hdvd)

/-! ## Quotients -/

/-- Rounding adds less than one part in `2 ^ 53`. -/
theorem rounded_lt_of_lt {q : ℚ} {c : ℤ} (h0 : 0 ≤ q) (hc : 0 < c) (h : q + q / 2 ^ 53 < c) : rounded q < c := by
  rcases h0.eq_or_lt with rfl | hpos
  · rw [rounded_zero]
    exact_mod_cast hc
  · rcases (le_ulpExp q).lt_or_eq with hnormal | hleast
    · have hbits := zpow_ulpExp_le hnormal hpos.ne'
      rw [abs_of_pos hpos, zpow_add₀ two_ne_zero] at hbits
      have hhalf := rounded_le_add_half q
      have hlast : (2 : ℚ) ^ ulpExp q / 2 ≤ q / 2 ^ 53 := by
        rw [le_div_iff₀ (by positivity)]
        have : (2 : ℚ) ^ (52 : ℤ) = 2 ^ 52 := by norm_cast
        rw [this] at hbits
        linarith
      linarith
    · -- a subnormal number stays below one
      have hlt := abs_lt_zpow_ulpExp q
      rw [abs_of_pos hpos, ← hleast] at hlt
      have hle := rounded_le_of_le (q := q) (k := -1021) (m := 1) (by omega) (by
        rw [Int.cast_one, one_mul]
        exact hlt.le)
      have hone : (1 : ℚ) ≤ c := by exact_mod_cast hc
      have hsmall : (2 : ℚ) ^ (-1021 : ℤ) < 1 := zpow_lt_one_of_neg₀ one_lt_two (by norm_num)
      rw [Int.cast_one, one_mul] at hle
      linarith

/-- The next multiple of a divisor that has the last place is at least a last place away. -/
theorem add_le_mul_div_succ {n m k : ℕ} (hm : 0 < m) (hkn : 2 ^ k ∣ n) (hkm : 2 ^ k ∣ m) :
    n + 2 ^ k ≤ m * (n / m + 1) := by
  have hlt : n < m * (n / m + 1) := by
    rw [mul_add, mul_one]
    exact Nat.lt_mul_div_succ n hm
  obtain ⟨j, hj⟩ := hkn
  obtain ⟨i, hi⟩ := hkm.mul_right (n / m + 1)
  rw [hi, hj] at hlt ⊢
  rw [← Nat.mul_succ]
  exact Nat.mul_le_mul_left _ (Nat.lt_of_mul_lt_mul_left hlt)

/-- So a quotient is not rounded up to a whole number, -/
theorem rounded_div_lt {n m k : ℕ} (hm : 0 < m) (hn : n < 2 ^ (53 + k)) (hgap : n + 2 ^ k ≤ m * (n / m + 1)) :
    rounded (n / m : ℚ) < (n / m : ℕ) + 1 := by
  have hm0 : (0 : ℚ) < m := by exact_mod_cast hm
  have hcast : ((n / m : ℕ) : ℚ) + 1 = ((n / m + 1 : ℕ) : ℤ) := by norm_cast
  rw [hcast]
  apply rounded_lt_of_lt (by positivity) (by positivity)
  have hgap' : (n : ℚ) + 2 ^ k ≤ m * ((n / m + 1 : ℕ) : ℤ) := by exact_mod_cast hgap
  have hn' : (n : ℚ) / 2 ^ 53 < 2 ^ k := by
    rw [div_lt_iff₀ (by positivity), ← pow_add, add_comm]
    exact_mod_cast hn
  have hsplit : (n : ℚ) / m + n / m / 2 ^ 53 = (n + n / 2 ^ 53) / m := by
    field_simp
  rw [hsplit, div_lt_iff₀ hm0, mul_comm]
  linarith

/-- and never down past one. -/
theorem le_rounded_div {n m : ℕ} (h : (n / m : ℚ) < 2 ^ 53) : ((n / m : ℕ) : ℚ) ≤ rounded (n / m : ℚ) := by
  have hle : ((n / m : ℕ) : ℚ) ≤ n / m := Nat.cast_div_le
  have hq0 : (0 : ℚ) ≤ n / m := by positivity
  rcases hq0.eq_or_lt with hzero | hpos
  · rw [← hzero, rounded_zero]
    rw [← hzero] at hle
    exact hle
  · have hulp : ulpExp (n / m : ℚ) ≤ 0 := ulpExp_le_of_lt (k := 0) hpos.ne' (by rwa [abs_of_pos hpos])
    have hround := le_rounded_of_le (q := n / m) (k := 0) (m := (n / m : ℕ)) hulp (by
      rw [zpow_zero, mul_one]
      exact_mod_cast hle)
    rw [zpow_zero, mul_one] at hround
    exact_mod_cast hround

/-- **Quotients of whole numbers are cut off exactly**, if the divisor has the last place of the
dividend. -/
theorem floor_div_natCast {n m k : ℕ} (hm : 0 < m) (hn : n < 2 ^ (53 + k)) (hkn : 2 ^ k ∣ n) (hkm : 2 ^ k ∣ m) :
    floor (div (.fin n) (.fin m)) = .fin (n / m : ℕ) := by
  have hm0 : (0 : ℚ) < m := by exact_mod_cast hm
  have hquot : (n / m : ℚ) < 2 ^ 53 := by
    rw [div_lt_iff₀ hm0]
    have hkm' : ((2 ^ k : ℕ) : ℚ) ≤ m := by exact_mod_cast Nat.le_of_dvd hm hkm
    calc (n : ℚ) < 2 ^ (53 + k) := by exact_mod_cast hn
      _ = 2 ^ 53 * (2 ^ k : ℕ) := by rw [pow_add]; push_cast; rfl
      _ ≤ 2 ^ 53 * m := mul_le_mul_of_nonneg_left hkm' (by positivity)
  have hlow := le_rounded_div hquot
  have hup := rounded_div_lt hm hn (add_le_mul_div_succ hm hkn hkm)
  have hfin : ofRat (n / m : ℚ) = .fin (rounded (n / m)) := by
    apply ofRat_eq_rounded ((Nat.cast_nonneg _).trans hlow)
    have hle : ((n / m : ℕ) : ℚ) ≤ n / m := Nat.cast_div_le
    have hlarge : (2 : ℚ) ^ 53 + 1 ≤ 2 ^ 117 := by norm_num
    linarith
  have hfloor : ⌊rounded (n / m : ℚ)⌋ = (n / m : ℕ) := by
    rw [Int.floor_eq_iff]
    exact ⟨hlow, hup⟩
  rw [div, if_pos hm0.ne', hfin, floor, hfloor, Int.cast_natCast]

end Js.Number
