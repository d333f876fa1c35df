import StreamFi.Js.Numeral
import StreamFi.Js.Value

/-!
# The footprint of a batch

`estimateBatchFootprint` says how many of a transaction's instructions a batch takes, and how many items a
batch should have. The options are checked as numbers; what is computed from them is kept exact.

* `estimateBatchFootprint`: the code;
* `footprint_ok_iff`: the options that are accepted;
* `within_iff`: when a batch stays at or under the threshold;
* **`recommendedMaxItems_largest`**: the recommended number is the largest one that does, or it is one and
  nothing does.
-/

namespace StreamFi

open Js

/-! ## The code -/

/-- `DEFAULT_INSTRUCTIONS_PER_BATCH_ITEM`. -/
def defaultInstructionsPerBatchItem : Number := .fin 4000000

/-- `DEFAULT_BATCH_FIXED_OVERHEAD_INSTRUCTIONS`. -/
def defaultBatchFixedOverheadInstructions : Number := .fin 2000000

/-- `DEFAULT_CPU_INSTRUCTION_LIMIT`. -/
def defaultCpuInstructionLimit : Number := .fin 100000000

/-- `DEFAULT_BATCH_WARN_THRESHOLD`, the double nearest to `0.9`. -/
def defaultBatchWarnThreshold : Number := .fin (8106479329266893 / 2 ^ 53)

structure BatchFootprintOptions where
  instructionsPerItem : Option Number := none
  fixedOverheadInstructions : Option Number := none
  cpuInstructionLimit : Option Number := none
  warnThreshold : Option Number := none

namespace BatchFootprintOptions

variable (options : BatchFootprintOptions)

def perItem : Number := options.instructionsPerItem.getD defaultInstructionsPerBatchItem

def overhead : Number := options.fixedOverheadInstructions.getD defaultBatchFixedOverheadInstructions

def limit : Number := options.cpuInstructionLimit.getD defaultCpuInstructionLimit

def threshold : Number := options.warnThreshold.getD defaultBatchWarnThreshold

end BatchFootprintOptions

/-- The numbers of the estimate, exact. -/
structure ResourceEstimate where
  itemCount : ℚ
  cpuInstructions : ℚ
  cpuInstructionLimit : ℚ
  utilizationRatio : ℚ
  exceedsThreshold : Bool
  recommendedMaxItems : ℚ
  deriving DecidableEq

/-- The estimate for options that have passed their checks. -/
def footprint (itemCount instructionsPerItem fixedOverheadInstructions cpuInstructionLimit warnThreshold : ℚ) :
    ResourceEstimate :=
  let cpuInstructions := fixedOverheadInstructions + instructionsPerItem * itemCount
  let utilizationRatio := cpuInstructions / cpuInstructionLimit
  let usableInstructions := max 0 (cpuInstructionLimit * warnThreshold - fixedOverheadInstructions)
  { itemCount := itemCount
    cpuInstructions := cpuInstructions
    cpuInstructionLimit := cpuInstructionLimit
    utilizationRatio := utilizationRatio
    exceedsThreshold := warnThreshold < utilizationRatio
    recommendedMaxItems :=
      if 0 < instructionsPerItem then max 1 (⌊usableInstructions / instructionsPerItem⌋ : ℚ) else itemCount }

/-- A check of a number that has to be finite. -/
def checkedFinite (x : Number) (refused : ℚ → Prop) [DecidablePred refused] (message : String) : Except Thrown ℚ :=
  match x with
  | .fin q => if refused q then throwNew message else .ok q
  | _ => throwNew message

def estimateBatchFootprint (itemCount : Number) (options : BatchFootprintOptions) : Except Thrown ResourceEstimate := do
  let items ← checkedFinite itemCount (fun q => ¬ q.isInt = true ∨ q < 1)
    s!"itemCount must be a positive integer, got {numToText itemCount}"
  let instructionsPerItem ← checkedFinite options.perItem (· < 0)
    s!"instructionsPerItem must be a non-negative finite number, got {numToText options.perItem}"
  let fixedOverheadInstructions ← checkedFinite options.overhead (· < 0)
    s!"fixedOverheadInstructions must be a non-negative finite number, got {numToText options.overhead}"
  let cpuInstructionLimit ← checkedFinite options.limit (· ≤ 0)
    s!"cpuInstructionLimit must be a positive finite number, got {numToText options.limit}"
  let warnThreshold ← checkedFinite options.threshold (fun q => q ≤ 0 ∨ 1 < q)
    s!"warnThreshold must be a finite number in (0, 1], got {numToText options.threshold}"
  return footprint items instructionsPerItem fixedOverheadInstructions cpuInstructionLimit warnThreshold

/-! ## The options that are accepted -/

theorem checkedFinite_ok_iff {x : Number} {refused : ℚ → Prop} [DecidablePred refused] {message : String} {q : ℚ} :
    checkedFinite x refused message = .ok q ↔ x = .fin q ∧ ¬ refused q := by
  cases x with
  | fin r =>
    rw [checkedFinite]
    by_cases h : refused r
    · rw [if_pos h]
      refine iff_of_false (fun hok => by cases hok) ?_
      rintro ⟨hr, hq⟩
      cases hr
      exact hq h
    · rw [if_neg h]
      constructor
      · intro hok
        cases hok
        exact ⟨rfl, h⟩
      · rintro ⟨hr, -⟩
        cases hr
        rfl
  | nan | posInf | negInf => exact iff_of_false (fun hok => by cases hok) (fun h => by cases h.1)

/-- The settings that options come to. -/
structure FootprintSettings where
  perItem : ℚ
  overhead : ℚ
  limit : ℚ
  threshold : ℚ
  perItem_nonneg : 0 ≤ perItem
  overhead_nonneg : 0 ≤ overhead
  limit_pos : 0 < limit
  threshold_pos : 0 < threshold
  threshold_le_one : threshold ≤ 1

/-- The options are those of the settings. -/
structure FootprintSettings.Of (c : FootprintSettings) (options : BatchFootprintOptions) : Prop where
  perItem : options.perItem = .fin c.perItem
  overhead : options.overhead = .fin c.overhead
  limit : options.limit = .fin c.limit
  threshold : options.threshold = .fin c.threshold

/-- **What is accepted**, and the estimate of it. -/
theorem footprint_ok_iff {itemCount : Number} {options : BatchFootprintOptions} {e : ResourceEstimate} :
    estimateBatchFootprint itemCount options = .ok e ↔
      ∃ (k : ℕ) (c : FootprintSettings), 1 ≤ k ∧ itemCount = .fin k ∧ c.Of options ∧
        e = footprint k c.perItem c.overhead c.limit c.threshold := by
  simp only [estimateBatchFootprint, seq_ok_iff, checkedFinite_ok_iff]
  constructor
  · rintro ⟨items, ⟨rfl, hitems⟩, perItem, ⟨hper, hper0⟩, overhead, ⟨hover, hover0⟩, limit, ⟨hlimit, hlimit0⟩,
      threshold, ⟨hthreshold, hthreshold0⟩, he⟩
    rw [not_or, not_not, Number.isInt_iff, not_lt] at hitems
    obtain ⟨⟨n, rfl⟩, hn⟩ := hitems
    have hn : 1 ≤ n := by exact_mod_cast hn
    lift n to ℕ using by omega
    rw [not_or, not_le, not_lt] at hthreshold0
    cases he
    refine ⟨n, {
      perItem := perItem, overhead := overhead, limit := limit, threshold := threshold
      perItem_nonneg := not_lt.mp hper0
      overhead_nonneg := not_lt.mp hover0
      limit_pos := not_le.mp hlimit0
      threshold_pos := hthreshold0.1
      threshold_le_one := hthreshold0.2 }, by omega, by rw [Int.cast_natCast], ⟨hper, hover, hlimit, hthreshold⟩, ?_⟩
    rw [Int.cast_natCast]
  · rintro ⟨k, c, hk, rfl, hc, rfl⟩
    refine ⟨k, ⟨rfl, ?_⟩, c.perItem, ⟨hc.perItem, not_lt.mpr c.perItem_nonneg⟩, c.overhead,
      ⟨hc.overhead, not_lt.mpr c.overhead_nonneg⟩, c.limit, ⟨hc.limit, not_le.mpr c.limit_pos⟩, c.threshold,
      ⟨hc.threshold, ?_⟩, rfl⟩
    · rw [not_or, not_not, Number.isInt_iff, not_lt]
      exact ⟨⟨k, by rw [Int.cast_natCast]⟩, by exact_mod_cast hk⟩
    · rw [not_or, not_le, not_lt]
      exact ⟨c.threshold_pos, c.threshold_le_one⟩

/-! ## Which batches stay at or under the threshold -/

/-- The flag of a batch of `k` items. -/
def flag (options : BatchFootprintOptions) (k : ℕ) : Option Bool :=
  (estimateBatchFootprint (.fin k) options).toOption.map (·.exceedsThreshold)

namespace FootprintSettings

variable {c : FootprintSettings} {options : BatchFootprintOptions} {k : ℕ}

theorem Of.estimate (h : c.Of options) (hk : 1 ≤ k) : estimateBatchFootprint (.fin k) options =
    .ok (footprint k c.perItem c.overhead c.limit c.threshold) :=
  footprint_ok_iff.mpr ⟨k, c, hk, rfl, h, rfl⟩

/-- The number of items that the threshold has room for. -/
theorem Of.flag (h : c.Of options) (hper : 0 < c.perItem) (hk : 1 ≤ k) :
    flag options k = some (decide ((c.limit * c.threshold - c.overhead) / c.perItem < k)) := by
  rw [StreamFi.flag, h.estimate hk, Except.toOption, Option.map_some, footprint]
  congr 1
  apply decide_eq_decide.mpr
  rw [lt_div_iff₀ c.limit_pos, div_lt_iff₀ hper]
  constructor <;> intro hlt <;> linarith

end FootprintSettings

/-- **The recommended number is the largest one that stays at or under the threshold**, where one item does;
otherwise it is one, and every batch exceeds the threshold. -/
theorem recommendedMaxItems_largest (itemCount : Number) (options : BatchFootprintOptions)
    (e : ResourceEstimate) (h : estimateBatchFootprint itemCount options = .ok e)
    (hper : (Number.fin 0).lt options.perItem = true) :
    ∃ n : ℕ, 1 ≤ n ∧ e.recommendedMaxItems = n ∧
      (flag options 1 = some false → ∀ k, 1 ≤ k → flag options k = some (decide (n < k))) ∧
      (flag options 1 ≠ some false → n = 1 ∧ ∀ k, 1 ≤ k → flag options k = some true) := by
  obtain ⟨items, c, -, rfl, hc, rfl⟩ := footprint_ok_iff.mp h
  rw [hc.perItem, Number.lt_fin, decide_eq_true_eq] at hper
  have hflag {k : ℕ} (hk : 1 ≤ k) := hc.flag hper hk
  simp only [footprint, if_pos hper]
  set room := (c.limit * c.threshold - c.overhead) / c.perItem with hroom
  have husable : max 0 (c.limit * c.threshold - c.overhead) / c.perItem = max 0 room := by
    rw [hroom, ← max_div_div_right hper.le, zero_div]
  rw [husable]
  rcases lt_or_ge room 1 with hone | hone
  · -- nothing fits, and the floor is at most zero
    have hfloor : ⌊max 0 room⌋ ≤ 0 := by
      rw [← Int.lt_add_one_iff, Int.floor_lt]
      norm_num [hone]
    have hexceeds : ∀ k, 1 ≤ k → flag options k = some true := by
      intro k hk
      have hk' : (1 : ℚ) ≤ k := by exact_mod_cast hk
      rw [hflag hk, decide_eq_true (hone.trans_le hk')]
    refine ⟨1, le_rfl, ?_, fun hfits => ?_, fun _ => ⟨rfl, hexceeds⟩⟩
    · rw [Nat.cast_one, max_eq_left]
      exact_mod_cast hfloor.trans zero_le_one
    · rw [hexceeds 1 le_rfl] at hfits
      cases hfits
  · have hfloor : 1 ≤ ⌊room⌋ := by
      rw [Int.le_floor, Int.cast_one]
      exact hone
    obtain ⟨n, hn⟩ := Int.eq_ofNat_of_zero_le (zero_le_one.trans hfloor)
    have hlargest : ∀ k, 1 ≤ k → flag options k = some (decide (n < k)) := by
      intro k hk
      rw [hflag hk]
      congr 1
      apply decide_eq_decide.mpr
      have hlt : ⌊room⌋ < (k : ℤ) ↔ room < k := by rw [Int.floor_lt, Int.cast_natCast]
      rw [← hlt, hn, Nat.cast_lt]
    refine ⟨n, by omega, ?_, fun _ => hlargest, fun hnone => ?_⟩
    · rw [max_eq_right (zero_le_one.trans hone), max_eq_right (by exact_mod_cast hfloor), hn,
        Int.cast_natCast]
    · exfalso
      apply hnone
      rw [hlargest 1 le_rfl, decide_eq_false (by omega)]

/-- The options that are the settings. -/
def FootprintSettings.options (c : FootprintSettings) : BatchFootprintOptions where
  instructionsPerItem := some (.fin c.perItem)
  fixedOverheadInstructions := some (.fin c.overhead)
  cpuInstructionLimit := some (.fin c.limit)
  warnThreshold := some (.fin c.threshold)

theorem FootprintSettings.of_options (c : FootprintSettings) : c.Of c.options := ⟨rfl, rfl, rfl, rfl⟩

/-- Four items of a thousand instructions fit beside the overhead. -/
def calibrated : FootprintSettings where
  perItem := 1000
  overhead := 500
  limit := 10000
  threshold := 1 / 2
  perItem_nonneg := by norm_num
  overhead_nonneg := by norm_num
  limit_pos := by norm_num
  threshold_pos := by norm_num
  threshold_le_one := by norm_num

theorem recommendedMaxItems_calibrated :
    ∃ e, estimateBatchFootprint (.fin (4 : ℕ)) calibrated.options = .ok e ∧
      ∃ n : ℕ, 1 ≤ n ∧ e.recommendedMaxItems = n ∧
        (flag calibrated.options 1 = some false →
          ∀ k, 1 ≤ k → flag calibrated.options k = some (decide (n < k))) ∧
        (flag calibrated.options 1 ≠ some false →
          n = 1 ∧ ∀ k, 1 ≤ k → flag calibrated.options k = some true) := by
  have hok := calibrated.of_options.estimate (k := 4) (by decide)
  have hper : (Number.fin 0).lt calibrated.options.perItem = true := by
    show decide ((0 : ℚ) < 1000) = true
    norm_num
  exact ⟨_, hok, recommendedMaxItems_largest _ _ _ hok hper⟩

/-- An item that is too large. -/
def tooLarge : FootprintSettings where
  perItem := 1000000
  overhead := 0
  limit := 100
  threshold := 9 / 10
  perItem_nonneg := by norm_num
  overhead_nonneg := by norm_num
  limit_pos := by norm_num
  threshold_pos := by norm_num
  threshold_le_one := by norm_num

/-- One item is recommended where not one fits. -/
theorem one_recommended : ¬ ∀ (itemCount : Number) (options : BatchFootprintOptions) (e : ResourceEstimate),
    estimateBatchFootprint itemCount options = .ok e → (Number.fin 0).lt options.perItem = true →
    ∃ n : ℕ, e.recommendedMaxItems = n ∧ flag options n = some false ∧ flag options (n + 1) = some true := by
  intro h
  have hper : 0 < tooLarge.perItem := by norm_num [tooLarge]
  have hok := tooLarge.of_options.estimate (k := 1) le_rfl
  obtain ⟨n, hn, hfits, -⟩ := h _ tooLarge.options _ hok (decide_eq_true hper)
  obtain rfl : n = 1 := by
    norm_num [footprint, tooLarge] at hn
    exact_mod_cast hn.symm
  rw [tooLarge.of_options.flag hper le_rfl] at hfits
  norm_num [tooLarge] at hfits

end StreamFi
