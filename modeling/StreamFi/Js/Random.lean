import StreamFi.Js.Rounding

/-!
# Random numbers

`Math.floor(Math.random() * (x + 1))` is a number up to `x`. The sum and the product are rounded, but
not so far that `x + 1` is reached.

* `Random`: the values of `Math.random()`;
* **`floor_random_mul`**: the bounds.
-/

namespace Js

/-- The values of `Math.random()`. -/
structure Random where
  value : ℚ
  nonneg : 0 ≤ value
  lt_one : value < 1
  double : Number.IsDouble (.fin value)

namespace Number

variable {q x u : ℚ}

/-- The greatest double below one. -/
theorem add_zpow_le_one (hu : IsDouble (.fin u)) (h : u < 1) : u + 2 ^ (-53 : ℤ) ≤ 1 := by
  by_contra hlt
  have hhalf : 1 / 2 ≤ u := by
    norm_num at hlt
    linarith
  have habs : |u| = u := abs_of_pos (by linarith)
  have hpos : 0 < |u| := by linarith
  have hlog : Int.log 2 |u| = -1 := by
    apply le_antisymm
    · rw [← Int.lt_add_one_iff, ← Int.lt_zpow_iff_log_lt Nat.one_lt_two hpos, habs]
      exact_mod_cast h
    · rw [← Int.zpow_le_iff_le_log Nat.one_lt_two hpos, habs]
      norm_num
      linarith
  have hulp : ulpExp u = -53 := by
    rw [ulpExp, hlog]
    rfl
  have hround := rounded_of_ofRat (hu u rfl)
  rw [rounded, hulp] at hround
  have hone : ((2 ^ 53 : ℤ) : ℚ) * 2 ^ (-53 : ℤ) = 1 := by norm_num
  have hgap := add_zpow_le (e := -53) (m := roundEven (u / 2 ^ (-53 : ℤ))) (n := 2 ^ 53)
    (by rw [hround, hone]; exact h)
  rw [hround, hone] at hgap
  exact hlt hgap

/-- **A product with less than one stays below.** -/
theorem rounded_mul_lt (hu : IsDouble (.fin u)) (hu' : u < 1) (hx : 1 ≤ x) : rounded (u * x) < x := by
  set p := (1 - 2 ^ (-53 : ℤ)) * x with hp
  have hle : u * x ≤ p := mul_le_mul_of_nonneg_right (by linarith [add_zpow_le_one hu hu']) (by linarith)
  have hhalf : 1 / 2 ≤ p := by
    rw [hp]
    norm_num
    linarith
  have hpos : 0 < |p| := abs_pos.mpr (by linarith)
  have hnormal : -1074 < ulpExp p := by
    have hlog : -1 ≤ Int.log 2 |p| := by
      rw [← Int.zpow_le_iff_le_log Nat.one_lt_two hpos, abs_of_pos (by linarith)]
      norm_num
      linarith
    unfold ulpExp
    omega
  have hlow := zpow_ulpExp_le hnormal (by linarith)
  rw [abs_of_pos (by linarith), zpow_add₀ two_ne_zero] at hlow
  calc rounded (u * x) ≤ rounded p := rounded_le_rounded hle
    _ ≤ p + 2 ^ ulpExp p / 2 := rounded_le_add_half p
    _ < x := by
        rw [hp] at hlow ⊢
        norm_num at hlow ⊢
        linarith

theorem floor_le_floor {x y : Number} (h : x.le y = true) : x.floor.le y.floor = true := by
  cases x <;> cases y <;> try exact h
  rw [le_fin, decide_eq_true_eq] at h
  rw [floor, floor, le_fin, decide_eq_true_eq]
  exact_mod_cast Int.floor_le_floor h

theorem eq_fin_of_between {a b : ℚ} {y : Number} (ha : (Number.fin a).le y = true)
    (hb : y.le (.fin b) = true) : ∃ x, y = .fin x ∧ a ≤ x ∧ x ≤ b := by
  cases y with
  | fin x =>
    rw [le_fin, decide_eq_true_eq] at ha hb
    exact ⟨x, rfl, ha, hb⟩
  | nan | posInf => cases hb
  | negInf => cases ha

/-- Between two doubles rounding stays. -/
theorem ofRat_between {a b : ℚ} (ha : IsDouble (.fin a)) (hb : IsDouble (.fin b)) (haq : a ≤ q)
    (hqb : q ≤ b) : ∃ x, ofRat q = .fin x ∧ a ≤ x ∧ x ≤ b :=
  eq_fin_of_between (fin_le_ofRat ha haq) (ofRat_le_fin hb hqb)

/-- The successor of an integer does not overflow. -/
theorem ofRat_succ {n : ℕ} (hn : IsDouble (.fin n)) : ∃ X, ofRat (n + 1) = .fin X := by
  rcases Nat.lt_or_ge (2 ^ 54) n with hlarge | hsmall
  · refine ⟨n, ofRat_eq_of_near (by positivity) (hn n rfl) ?_⟩
    rw [add_sub_cancel_left, abs_one, lt_div_iff₀ (by positivity), one_mul]
    exact_mod_cast hlarge
  · have hdouble : IsDouble (.fin (2 ^ 55 : ℚ)) := by
      intro q hq
      cases hq
      have hround := rounded_eq_self (k := 55) (m := 1) (by norm_num) (by norm_num)
      rw [Int.cast_one, one_mul, zpow_ofNat] at hround
      have hbound : (2 : ℚ) ^ 55 < 2 ^ 1024 := pow_lt_pow_right₀ one_lt_two (by norm_num)
      have hpos : (0 : ℚ) < 2 ^ 55 := by positivity
      rw [ofRat_def, hround, if_neg (not_le.mpr hbound),
        if_neg (not_le.mpr ((neg_lt_zero.mpr (by positivity)).trans hpos))]
    obtain ⟨X, hX, -⟩ := ofRat_between (a := 0) (isDouble_intCast (n := 0) (by norm_num)) hdouble
      (by positivity : (0 : ℚ) ≤ n + 1) (by exact_mod_cast (by omega : n + 1 ≤ 2 ^ 55))
    exact ⟨X, hX⟩

/-- **The floor of a random part of `x + 1`** is at most `n`, if `x` is. -/
theorem floor_random_mul (random : Random) {x : Number} {n : ℕ} (hn : IsDouble (.fin n))
    (hlow : (Number.fin (-1)).le x = true) (hhigh : x.le (.fin n) = true) :
    (Number.fin 0).le ((Number.fin random.value).mul (x.add (.fin 1))).floor = true ∧
      ((Number.fin random.value).mul (x.add (.fin 1))).floor.le (.fin n) = true := by
  obtain ⟨X, hX⟩ := ofRat_succ hn
  have hXd : IsDouble (.fin X) := hX ▸ isDouble_ofRat _
  have hzero : IsDouble (.fin 0) := isDouble_intCast (n := 0) (by norm_num)
  have hone : IsDouble (.fin 1) := isDouble_intCast (n := 1) (by norm_num)
  have hXone : 1 ≤ X := by
    have hle := fin_le_ofRat hone (by linarith [(Nat.cast_nonneg n : (0 : ℚ) ≤ n)] : (1 : ℚ) ≤ n + 1)
    rw [hX, le_fin, decide_eq_true_eq] at hle
    exact hle
  obtain ⟨q, rfl, hlow, hhigh⟩ := eq_fin_of_between hlow hhigh
  · have hle := ofRat_le_ofRat (by linarith : q + 1 ≤ n + 1)
    rw [hX] at hle
    obtain ⟨y, hy, hy₀, hyX⟩ := eq_fin_of_between (fin_le_ofRat hzero (by linarith : 0 ≤ q + 1)) hle
    have hprod : random.value * y ≤ random.value * X := mul_le_mul_of_nonneg_left hyX random.nonneg
    have hXX : random.value * X ≤ X := mul_le_of_le_one_left (by linarith) random.lt_one.le
    obtain ⟨z, hz, hz₀, hzX⟩ := ofRat_between hzero hXd (mul_nonneg random.nonneg hy₀) (hprod.trans hXX)
    have hzlt : z < X := by
      rw [← rounded_of_ofRat hz]
      exact (rounded_le_rounded hprod).trans_lt (rounded_mul_lt random.double random.lt_one hXone)
    have hzn : z < n + 1 := by
      by_contra hge
      have hle := ofRat_le_fin (hz ▸ isDouble_ofRat _) (not_lt.mp hge)
      rw [hX, le_fin, decide_eq_true_eq] at hle
      linarith
    have hfloor : ((fin random.value).mul ((fin q).add (.fin 1))).floor = .fin ⌊z⌋ := by
      rw [show (fin q).add (.fin 1) = ofRat (q + 1) from rfl, hy,
        show (fin random.value).mul (.fin y) = ofRat (random.value * y) from rfl, hz]
      rfl
    rw [hfloor, le_fin, le_fin, decide_eq_true_eq, decide_eq_true_eq]
    constructor
    · exact_mod_cast Int.floor_nonneg.mpr hz₀
    · have hlt : ⌊z⌋ < (n + 1 : ℤ) := Int.floor_lt.mpr (by exact_mod_cast hzn)
      exact_mod_cast Int.lt_add_one_iff.mp hlt

/-- Half of an integer is a double. -/
theorem ofRat_half {n : ℕ} (hn : IsDouble (.fin n)) : ofRat (n / 2) = .fin (n / 2) := by
  rcases Nat.eq_zero_or_pos n with rfl | hpos
  · rw [Nat.cast_zero, zero_div, ofRat_zero]
  have hone : (1 : ℚ) ≤ n := by exact_mod_cast hpos
  have habs : |(n : ℚ)| = n := abs_of_pos (by linarith)
  have hround := rounded_of_ofRat (hn n rfl)
  have hulp : -1073 ≤ ulpExp (n : ℚ) := by
    have hlog : 0 ≤ Int.log 2 |(n : ℚ)| := by
      rw [← Int.zpow_le_iff_le_log Nat.one_lt_two (by linarith), habs]
      norm_num
      exact hpos
    unfold ulpExp
    omega
  have hlt := abs_lt_zpow_ulpExp (n : ℚ)
  set e := ulpExp (n : ℚ) with he
  have hplace : (0 : ℚ) < 2 ^ e := by positivity
  have hm : (roundEven (n / 2 ^ e) : ℚ) * 2 ^ e = n := hround
  have hbits : |roundEven (n / 2 ^ e)| ≤ 2 ^ 53 := by
    rw [← hm, abs_mul, abs_of_pos hplace, add_comm, zpow_add₀ two_ne_zero,
      mul_lt_mul_iff_of_pos_right hplace] at hlt
    have hcast : |(roundEven (n / 2 ^ e) : ℚ)| < 2 ^ 53 := by exact_mod_cast hlt
    exact_mod_cast hcast.le
  have hhalf : (n : ℚ) / 2 = roundEven (n / 2 ^ e) * 2 ^ (e - 1) := by
    rw [zpow_sub_one₀ two_ne_zero, ← mul_assoc, hm, div_eq_mul_inv]
  have hself := rounded_eq_self (k := e - 1) hbits (by omega)
  rw [← hhalf] at hself
  have hn' := hn n rfl
  rw [ofRat_def, hround] at hn'
  have hbound : (n : ℚ) < 2 ^ 1024 := by
    by_contra hge
    rw [if_pos (not_lt.mp hge)] at hn'
    cases hn'
  have hhigh : ¬ (2 : ℚ) ^ 1024 ≤ n / 2 := not_le.mpr ((half_lt_self (by linarith)).trans hbound)
  have hlow : ¬ (n : ℚ) / 2 ≤ -2 ^ 1024 :=
    not_le.mpr ((neg_lt_zero.mpr (by positivity)).trans (half_pos (by linarith)))
  rw [ofRat_def, hself, if_neg hhigh, if_neg hlow]

/-- **A half and a random part of it** are not more than the whole. -/
theorem floor_random_half (random : Random) {x : Number} {n : ℕ} (hn : IsDouble (.fin n))
    (hlow : (Number.fin 0).le x = true) (hhigh : x.le (.fin n) = true) :
    let half := x.div (.fin 2)
    (Number.fin 0).le (half.add ((Number.fin random.value).mul half)).floor = true ∧
      (half.add ((Number.fin random.value).mul half)).floor.le (.fin n) = true := by
  obtain ⟨q, rfl, hq₀, hqn⟩ := eq_fin_of_between hlow hhigh
  have hzero : IsDouble (.fin 0) := isDouble_intCast (n := 0) (by norm_num)
  have hhalf : IsDouble (.fin ((n : ℚ) / 2)) := ofRat_half hn ▸ isDouble_ofRat _
  obtain ⟨h, hh, hh₀, hhn⟩ := ofRat_between (q := q / 2) hzero hhalf (by linarith) (by linarith)
  have hprod : random.value * h ≤ h := mul_le_of_le_one_left hh₀ random.lt_one.le
  obtain ⟨y, hy, hy₀, hyn⟩ := ofRat_between hzero hhalf (mul_nonneg random.nonneg hh₀) (hprod.trans hhn)
  obtain ⟨z, hz, hz₀, hzn⟩ := ofRat_between (q := h + y) hzero hn (by linarith) (by linarith)
  have hdiv : (fin q).div (fin 2) = fin h := by rw [← hh]; simp [div]
  dsimp only
  rw [hdiv, show (fin random.value).mul (.fin h) = ofRat (random.value * h) from rfl, hy,
    show (fin h).add (.fin y) = ofRat (h + y) from rfl, hz, floor, le_fin, le_fin, decide_eq_true_eq,
    decide_eq_true_eq]
  constructor
  · exact_mod_cast Int.floor_nonneg.mpr hz₀
  · exact_mod_cast (Int.floor_le z).trans hzn

end Number

end Js
