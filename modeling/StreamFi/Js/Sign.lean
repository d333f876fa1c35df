import StreamFi.Js.Rounding

/-!
# The sign of a difference

Doubles are multiples of the smallest one, so the difference of two of them is not rounded to zero unless they
are equal. The numbers that a sum of scores can be are doubles that are not negative, and infinity.

* **`sub_pos_iff`**: the sign of a difference of doubles is exact;
* `IsScore`: the doubles that are not negative, with infinity; `IsScore.add`, `IsScore.min`;
* `weight`: their order, with **`not_sub_pos_eq`**: sorting by differences is sorting by `weight`;
* `foldl_min`: the least of some scores.
-/

namespace Js.Number

/-- **The difference of a larger and a smaller double is positive.** -/
theorem sub_pos_iff {a b : ℚ} (ha : IsDouble (.fin a)) (hb : IsDouble (.fin b)) :
    (Number.fin 0).lt (sub (.fin a) (.fin b)) = true ↔ b < a := by
  have hmultiple {q : ℚ} (hq : IsDouble (.fin q)) : ∃ m : ℤ, q = m * 2 ^ (-1074 : ℤ) := by
    refine ⟨roundEven (q / 2 ^ ulpExp q) * 2 ^ (ulpExp q - -1074).toNat, ?_⟩
    rw [Int.cast_mul, mul_assoc, ← zpow_eq_mul (le_ulpExp q)]
    exact (rounded_of_ofRat (hq q rfl)).symm
  rw [sub_fin]
  constructor
  · intro h
    by_contra hle
    have hneg : (ofRat (a - b)).le (.fin 0) = true := by
      rw [← ofRat_zero]
      exact ofRat_le_ofRat (by linarith)
    have := lt_of_lt_of_le h hneg
    simp at this
  · intro h
    obtain ⟨m, rfl⟩ := hmultiple ha
    obtain ⟨n, rfl⟩ := hmultiple hb
    -- the difference is at least the smallest double
    have hstep := add_zpow_le h
    have hleast : IsDouble (.fin (2 ^ (-1074 : ℤ))) := by
      have := isDouble_mul_zpow (m := 1) (k := -1074) (by norm_num) le_rfl (by norm_num)
      rwa [Int.cast_one, one_mul] at this
    have hle := fin_le_ofRat hleast (r := m * 2 ^ (-1074 : ℤ) - n * 2 ^ (-1074 : ℤ)) (by linarith)
    refine lt_of_lt_of_le ?_ hle
    rw [lt_fin, decide_eq_true_eq]
    positivity

/-! ## Scores -/

/-- A double that is not negative, or infinity. -/
structure IsScore (x : Number) : Prop where
  isDouble : IsDouble x
  nonneg : (Number.fin 0).le x = true

theorem isScore_posInf : IsScore .posInf where
  isDouble _ hq := by cases hq
  nonneg := rfl

theorem isScore_natCast {n : ℕ} (h : n ≤ 2 ^ 53) : IsScore (.fin n) := by
  constructor
  · have := isDouble_intCast (n := n) (by rw [abs_of_nonneg (by positivity)]; exact_mod_cast h)
    exact_mod_cast this
  · simp

theorem isScore_zero : IsScore (.fin 0) := by
  exact_mod_cast isScore_natCast (n := 0) (by norm_num)

variable {x y : Number}

theorem IsScore.cases (h : IsScore x) : x = .posInf ∨ ∃ q : ℚ, x = .fin q ∧ 0 ≤ q := by
  have hle := h.nonneg
  cases x with
  | nan | negInf => cases hle
  | posInf => exact .inl rfl
  | fin q => exact .inr ⟨q, rfl, by simpa using hle⟩

theorem IsScore.add (hx : IsScore x) (hy : IsScore y) : IsScore (x.add y) := by
  refine ⟨isDouble_add x y, ?_⟩
  rcases hx.cases with rfl | ⟨a, rfl, ha⟩
  · rcases hy.cases with rfl | ⟨b, rfl, hb⟩
    · rfl
    · rfl
  · rcases hy.cases with rfl | ⟨b, rfl, hb⟩
    · rfl
    · exact fin_le_ofRat isScore_zero.isDouble (by linarith)

theorem IsScore.min (hx : IsScore x) (hy : IsScore y) : IsScore (x.min y) := by
  unfold Number.min
  split_ifs with hnan
  · rcases hnan with rfl | rfl
    · exact absurd hx.nonneg Bool.false_ne_true
    · exact absurd hy.nonneg Bool.false_ne_true
  · exact hx
  · exact hy

theorem IsScore.isFinite_min (hx : IsScore x) (hy : IsScore y) :
    (x.min y).isFinite = true ↔ x.isFinite = true ∨ y.isFinite = true := by
  rcases hx.cases with rfl | ⟨a, rfl, ha⟩
  · rcases hy.cases with rfl | ⟨b, rfl, hb⟩
    · simp [Number.min, isFinite]
    · simp [Number.min, isFinite, le]
  · rcases hy.cases with rfl | ⟨b, rfl, hb⟩
    · simp [Number.min, isFinite, le]
    · rw [Number.min, if_neg (by simp)]
      split_ifs <;> simp [isFinite]

theorem IsScore.zero_add (hx : IsScore x) : (Number.fin 0).add x = x := by
  rcases hx.cases with rfl | ⟨a, rfl, -⟩
  · rfl
  · show ofRat (0 + a) = .fin a
    rw [Rat.zero_add]
    exact hx.isDouble a rfl

theorem IsScore.posInf_min (hx : IsScore x) : Number.posInf.min x = x := by
  rcases hx.cases with rfl | ⟨a, rfl, -⟩
  · rfl
  · simp [Number.min, le]

/-- The order of the scores. -/
def weight : Number → WithTop ℚ
  | .fin q => q
  | _ => ⊤

/-- **Sorting by differences** is sorting by `weight`. -/
theorem not_sub_pos_eq (hx : IsScore x) (hy : IsScore y) :
    (!(Number.fin 0).lt (x.sub y)) = decide (weight x ≤ weight y) := by
  rcases hx.cases with rfl | ⟨a, rfl, -⟩
  · rcases hy.cases with rfl | ⟨b, rfl, -⟩
    · simp [sub, lt, weight]
    · simp [sub, lt, weight]
  · rcases hy.cases with rfl | ⟨b, rfl, -⟩
    · simp [sub, lt, weight]
    · rw [Bool.eq_iff_iff, Bool.not_eq_true', Bool.eq_false_iff, ne_eq,
        sub_pos_iff hx.isDouble hy.isDouble, not_lt, decide_eq_true_eq, weight, weight, WithTop.coe_le_coe]

/-- **The least of some scores** is one, and is finite when one of them is. -/
theorem foldl_min {α : Type} (score : α → Number) (l : List α) (h : ∀ a ∈ l, IsScore (score a))
    (hx : IsScore x) :
    IsScore (l.foldl (fun best a => best.min (score a)) x) ∧
      ((l.foldl (fun best a => best.min (score a)) x).isFinite = true ↔
        x.isFinite = true ∨ ∃ a ∈ l, (score a).isFinite = true) := by
  induction l generalizing x with
  | nil => simp [hx]
  | cons a l ih =>
    have ha := h a List.mem_cons_self
    obtain ⟨hscore, hfinite⟩ := ih (fun b hb => h b (List.mem_cons_of_mem a hb)) (hx.min ha)
    refine ⟨hscore, ?_⟩
    rw [List.foldl_cons, hfinite, hx.isFinite_min ha, or_assoc]
    simp

/-- A sum of scores is one. -/
theorem foldl_add {α : Type} (score : α → Number) (l : List α) (h : ∀ a ∈ l, IsScore (score a))
    (hx : IsScore x) : IsScore (l.foldl (fun sum a => sum.add (score a)) x) := by
  induction l generalizing x with
  | nil => exact hx
  | cons a l ih =>
    exact ih (fun b hb => h b (List.mem_cons_of_mem a hb)) (hx.add (h a List.mem_cons_self))

end Js.Number
