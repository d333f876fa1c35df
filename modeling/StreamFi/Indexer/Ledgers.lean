import StreamFi.Js.Numeral
import StreamFi.Js.Quotient
import StreamFi.Js.Value
import StreamFi.Sorted.Records

/-!
# Gaps between ledgers

A `LedgerGapDetector` is told the ledgers that a poller has seen. It keeps the last one, and reports the
ledgers that were skipped as a gap, from `expected` up to and without `actual`.

* `LedgerGapDetector.observe`: the code, which throws for what is no ledger;
* `observeAll`: the detector after some calls, with the gaps that it has reported;
* `Ledger`, `Ledger.next`: the numbers that it accepts, and the sum with one, which is rounded;
* **`observeAll_watch`**: the detector is the watcher of `StreamFi.Sorted.Records`;
* **`ledgers_covered`**: its last ledger is the greatest one, and each ledger in between was observed as a
  new greatest one or is in exactly one gap.
-/

namespace StreamFi

open Js Sorted

/-! ## The code -/

structure LedgerGap where
  expected : Number
  actual : Number
  deriving DecidableEq

structure LedgerGapDetector where
  current : Option Number := none
  deriving DecidableEq

def LedgerGapDetector.observe (d : LedgerGapDetector) (ledger : Number) :
    Except Thrown (LedgerGapDetector × Option LedgerGap) :=
  if ¬ ledger.isInteger ∨ ledger.lt (.fin 0) then
    throwNew ("LedgerGapDetector.observe: ledger must be a non-negative integer, got " ++
      numToText ledger)
  else
    match d.current with
    | none => .ok (⟨some ledger⟩, none)
    | some current =>
      let expected := current.add (.fin 1)
      .ok (if current.lt ledger then ⟨some ledger⟩ else d,
        if expected.lt ledger then some ⟨expected, ledger⟩ else none)

def LedgerGapDetector.reset (_ : LedgerGapDetector) : LedgerGapDetector := {}

/-- A call of `observe`; one that throws reports nothing. -/
def observeNext (s : LedgerGapDetector × List LedgerGap) (ledger : Number) : LedgerGapDetector × List LedgerGap :=
  match s.1.observe ledger with
  | .ok (d, gap) => (d, s.2 ++ gap.toList)
  | .error _ => s

def observeAll (ledgers : List Number) : LedgerGapDetector × List LedgerGap :=
  ledgers.foldl observeNext ({}, [])

/-! ## Ledgers -/

/-- What `observe` does not throw for. -/
def IsLedger (x : Number) : Prop := x.isInteger = true ∧ x.lt (.fin 0) = false

instance : DecidablePred IsLedger := fun _ => inferInstanceAs (Decidable (_ ∧ _))

/-- A double that `observe` does not throw for. -/
abbrev Ledger := { q : ℚ // Number.IsDouble (.fin q) ∧ IsLedger (.fin q) }

theorem isLedger_fin_iff {q : ℚ} : IsLedger (.fin q) ↔ (∃ n : ℤ, q = n) ∧ 0 ≤ q := by
  rw [IsLedger, Number.isInteger, Number.isInt_iff, Number.lt_fin, decide_eq_false_iff_not, not_lt]

/-- A ledger and one more is finite: above `2 ^ 54` the sum is the ledger. -/
theorem ofRat_add_one {q : ℚ} (hd : Number.IsDouble (.fin q)) (h0 : 0 ≤ q) :
    ∃ r, Number.ofRat (q + 1) = .fin r := by
  by_cases hlarge : 2 ^ 54 < q
  · refine ⟨q, Number.ofRat_eq_of_near (by linarith) (hd q rfl) ?_⟩
    rw [add_sub_cancel_left, abs_one, lt_div_iff₀ (by positivity), one_mul]
    exact hlarge
  · have hpow : Number.rounded (2 ^ 55 : ℚ) = 2 ^ 55 := by
      have hdouble := Number.isDouble_mul_two_pow (m := 1) (k := 55) (by decide) (by decide)
      have hround := Number.rounded_of_ofRat (hdouble _ rfl)
      norm_num at hround ⊢
      exact hround
    have hle : Number.rounded (q + 1) ≤ 2 ^ 55 := by
      rw [← hpow]
      exact Number.rounded_le_rounded (by linarith)
    have hnonneg : 0 ≤ Number.rounded (q + 1) := by
      rw [← Number.rounded_zero]
      exact Number.rounded_le_rounded (by linarith)
    exact ⟨_, Number.ofRat_eq_rounded hnonneg (hle.trans (by norm_num))⟩

namespace Ledger

theorem add_one (l : Ledger) : (Number.fin l).add (.fin 1) = .fin (Number.rounded (l + 1)) := by
  obtain ⟨r, hr⟩ := ofRat_add_one l.2.1 (isLedger_fin_iff.mp l.2.2).2
  rw [Number.add, hr, Number.rounded_of_ofRat hr]

/-- `current + 1`. -/
def next (l : Ledger) : Ledger := ⟨Number.rounded (l + 1), by
  have hadd := add_one l
  obtain ⟨⟨n, hn⟩, h0⟩ := isLedger_fin_iff.mp l.2.2
  constructor
  · rw [← hadd]
    exact Number.isDouble_add _ _
  · rw [isLedger_fin_iff]
    constructor
    · apply Number.integral_ofRat (n + 1)
      rw [← hadd, Number.add, hn]
      push_cast
      rfl
    · rw [← Number.rounded_zero]
      exact Number.rounded_le_rounded (by linarith)⟩

theorem add_one_eq (l : Ledger) : (Number.fin l).add (.fin 1) = .fin (next l) := add_one l

theorem isNext : IsNext next where
  le l := by
    have hle := Number.fin_le_ofRat l.2.1 (le_add_of_nonneg_right zero_le_one : (l : ℚ) ≤ l + 1)
    rw [show Number.ofRat ((l : ℚ) + 1) = .fin (next l) from add_one l, Number.le_fin,
      decide_eq_true_eq] at hle
    exact hle
  least l m hlt := by
    obtain ⟨⟨a, ha⟩, -⟩ := isLedger_fin_iff.mp l.2.2
    obtain ⟨⟨b, hb⟩, -⟩ := isLedger_fin_iff.mp m.2.2
    have hone : (l : ℚ) + 1 ≤ m := by
      have hab : (l : ℚ) < m := hlt
      rw [ha, hb] at hab ⊢
      exact_mod_cast hab
    have hle := Number.ofRat_le_fin m.2.1 hone
    rw [show Number.ofRat ((l : ℚ) + 1) = .fin (next l) from add_one l, Number.le_fin,
      decide_eq_true_eq] at hle
    exact hle

/-- Below `2 ^ 53` the sum is exact. -/
theorem lt_next {l m : Ledger} (hlt : l < m) (hm : (m : ℚ) ≤ 2 ^ 53) : l < next l := by
  obtain ⟨⟨a, ha⟩, h0⟩ := isLedger_fin_iff.mp l.2.2
  obtain ⟨⟨b, hb⟩, -⟩ := isLedger_fin_iff.mp m.2.2
  have hlt : (l : ℚ) < m := hlt
  rw [ha] at h0
  rw [ha, hb] at hlt
  rw [hb] at hm
  have h0 : 0 ≤ a := by exact_mod_cast h0
  have hlt : a < b := by exact_mod_cast hlt
  have hm : b ≤ 2 ^ 53 := by exact_mod_cast hm
  have hadd := add_one_eq l
  rw [ha, ← Int.cast_one, Number.add_intCast (by rw [abs_of_nonneg] <;> omega)] at hadd
  have hnext : ((a + 1 : ℤ) : ℚ) = next l := Number.fin.inj hadd
  have hless : (l : ℚ) < next l := by
    rw [← hnext, ha]
    exact_mod_cast Int.lt_succ a
  exact hless

end Ledger

/-! ## The detector is a watcher -/

/-- The detector of a watcher, and the gaps that it has reported. -/
def shown : Option (Watcher Ledger) → LedgerGapDetector × List LedgerGap
  | none => ({}, [])
  | some w => ({ current := some (.fin w.current) }, w.gaps.map fun gap => ⟨.fin gap.1, .fin gap.2⟩)

/-- **One call.** -/
theorem observeNext_shown (w : Option (Watcher Ledger)) (l : Ledger) :
    observeNext (shown w) (.fin l) = shown (see Ledger.next w l) := by
  have haccepted : ¬ (¬ (Number.fin l).isInteger = true ∨ (Number.fin l).lt (.fin 0) = true) := by
    rw [not_or, not_not, Bool.not_eq_true]
    exact l.2.2
  cases w with
  | none =>
    rw [observeNext, shown, LedgerGapDetector.observe, if_neg haccepted]
    rfl
  | some w =>
    have hlt (a b : Ledger) : (Number.fin a).lt (.fin b) = decide (a < b) := Number.lt_fin _ _
    rw [observeNext, shown, LedgerGapDetector.observe, if_neg haccepted]
    simp only [Ledger.add_one_eq, hlt, decide_eq_true_eq]
    rw [see]
    by_cases hup : w.current < l
    · rw [if_pos hup, if_pos hup, shown]
      by_cases hgap : Ledger.next w.current < l
      · rw [if_pos hgap, if_pos hgap, List.map_append]
        rfl
      · rw [if_neg hgap, if_neg hgap, Option.toList_none, List.append_nil]
    · have hgap : ¬ Ledger.next w.current < l := fun hgap => hup ((Ledger.isNext.le _).trans_lt hgap)
      rw [if_neg hup, if_neg hup, if_neg hgap, shown, Option.toList_none, List.append_nil]

/-- A call that throws. -/
theorem observeNext_refused (s : LedgerGapDetector × List LedgerGap) {x : Number} (hx : ¬ IsLedger x) :
    observeNext s x = s := by
  rw [observeNext, LedgerGapDetector.observe, if_pos]
  · rfl
  · rwa [IsLedger, ← Bool.not_eq_true, not_and_or, not_not] at hx

theorem observeAll_concat (ledgers : List Number) (x : Number) :
    observeAll (ledgers ++ [x]) = observeNext (observeAll ledgers) x := by
  rw [observeAll, List.foldl_append, List.foldl_cons, List.foldl_nil, ← observeAll]

/-- **The detector watches the ledgers** among the numbers that it is told. -/
theorem observeAll_watch (ledgers : List Number) (hd : ∀ x ∈ ledgers, Number.IsDouble x) :
    ∃ ls : List Ledger, ledgers.filter (IsLedger ·) = ls.map (fun l : Ledger => .fin l) ∧
      observeAll ledgers = shown (watch Ledger.next ls) := by
  induction ledgers using List.reverseRecOn with
  | nil => exact ⟨[], rfl, rfl⟩
  | append_singleton ledgers x ih =>
    obtain ⟨ls, hls, hobserve⟩ := ih fun x hx => hd x (List.mem_append_left _ hx)
    rw [observeAll_concat, hobserve, List.filter_append, hls]
    by_cases hx : IsLedger x
    · obtain ⟨n, rfl⟩ := Number.isInteger_iff.mp hx.1
      have hdx := hd _ (List.mem_append_right _ (List.mem_singleton_self _))
      refine ⟨ls ++ [⟨n, hdx, hx⟩], ?_, ?_⟩
      · rw [List.map_append, List.filter_cons_of_pos (by simpa using hx)]
        rfl
      · rw [watch_concat, ← observeNext_shown]
    · exact ⟨ls, by rw [List.filter_cons_of_neg (by simpa using hx), List.filter_nil, List.append_nil],
        observeNext_refused _ hx⟩

/-! ## What the gaps cover -/

def LedgerGap.contains (gap : LedgerGap) (y : Number) : Bool := gap.expected.le y && y.lt gap.actual

/-- `y` was observed when it was a new maximum. -/
def Raised (observed : List Number) (y : Number) : Prop :=
  ∃ before after, observed = before ++ y :: after ∧ ∀ x ∈ before, x.lt y = true

theorem raised_iff {ls : List Ledger} {l : Ledger} :
    Raised (ls.map fun l : Ledger => .fin l) (.fin l) ↔ RaisedBy ls l := by
  constructor
  · rintro ⟨before, after, heq, hbefore⟩
    obtain ⟨before, after, rfl, rfl, hafter⟩ := List.map_eq_append_iff.mp heq
    obtain ⟨m, after, rfl, hm, rfl⟩ := List.map_eq_cons_iff.mp hafter
    obtain rfl : m = l := Subtype.ext (Number.fin.inj hm)
    refine ⟨before, after, rfl, fun k hk => ?_⟩
    exact of_decide_eq_true (hbefore _ (List.mem_map_of_mem hk))
  · rintro ⟨before, after, rfl, hbefore⟩
    refine ⟨before.map fun l : Ledger => .fin l, after.map fun l : Ledger => .fin l, ?_, ?_⟩
    · rw [List.map_append, List.map_cons]
    · intro x hx
      obtain ⟨k, hk, rfl⟩ := List.mem_map.mp hx
      exact decide_eq_true (hbefore k hk)

theorem countP_contains (gaps : List (Ledger × Ledger)) (l : Ledger) :
    (gaps.map fun gap => (⟨.fin gap.1, .fin gap.2⟩ : LedgerGap)).countP (·.contains (.fin l)) =
      gaps.countP (InGap l) := by
  rw [List.countP_map]
  congr 1
  funext gap
  rw [Function.comp_apply, LedgerGap.contains, Number.le_fin, Number.lt_fin, ← Bool.decide_and]
  rfl

/-- **The current ledger is the maximum**, and each ledger between the first one and it was observed as a
new maximum or is in exactly one gap: not both, as long as `current + 1` is exact. -/
theorem ledgers_covered (ledgers : List Number) (hd : ∀ x ∈ ledgers, Number.IsDouble x) :
    let observed := ledgers.filter (IsLedger ·)
    let s := observeAll ledgers
    (s.1.current = none ↔ observed = []) ∧ ∀ m, s.1.current = some m →
      (m ∈ observed ∧ ∀ x ∈ observed, x.le m = true) ∧
      ∀ first, observed.head? = some first →
        ∀ y, IsLedger y → Number.IsDouble y → first.lt y = true → y.lt m = true →
          (Raised observed y ∨ s.2.countP (·.contains y) = 1) ∧
          (m.le (.fin (2 ^ 53)) = true → Raised observed y → s.2.countP (·.contains y) = 0) := by
  obtain ⟨ls, hls, hwatch⟩ := observeAll_watch ledgers hd
  simp only [hls, hwatch]
  rcases watched_watch Ledger.isNext ls with ⟨rfl, hnone⟩ | ⟨w, hsome, hw⟩
  · rw [hnone]
    exact ⟨iff_of_true rfl rfl, fun m hm => by cases hm⟩
  · rw [hsome]
    refine ⟨iff_of_false (by simp [shown]) ?_, ?_⟩
    · rw [List.map_eq_nil_iff]
      exact List.ne_nil_of_mem hw.greatest.1
    · intro m hm
      cases hm
      refine ⟨⟨List.mem_map_of_mem hw.greatest.1, ?_⟩, ?_⟩
      · intro x hx
        obtain ⟨l, hl, rfl⟩ := List.mem_map.mp hx
        exact decide_eq_true (hw.greatest.2 hl)
      · intro first hfirst y hy hdy hlow hhigh
        obtain ⟨n, rfl⟩ := Number.isInteger_iff.mp hy.1
        obtain ⟨l, hl⟩ : ∃ l : Ledger, (l : ℚ) = n := ⟨⟨n, hdy, hy⟩, rfl⟩
        rw [← hl] at hlow hhigh ⊢
        rw [List.head?_map] at hfirst
        obtain ⟨a, ha, rfl⟩ := Option.map_eq_some_iff.mp hfirst
        rw [raised_iff, shown, countP_contains]
        constructor
        · exact hw.covered a ha l (of_decide_eq_true hlow) (of_decide_eq_true hhigh)
        · intro hexact hraised
          refine hw.apart (fun b _ hb => Ledger.lt_next hb ?_) l hraised
          rw [Number.le_fin, decide_eq_true_eq] at hexact
          exact hexact

theorem isDouble_small {n : ℕ} (h : n ≤ 2 ^ 53) : Number.IsDouble (.fin n) := by
  have hdouble := Number.isDouble_intCast (n := n) (by rw [abs_of_nonneg] <;> omega)
  exact_mod_cast hdouble

/-- A jump, a ledger that comes late, a call that throws, and a repeat: the ledger `7` was skipped. -/
theorem ledgers_covered_jump :
    let ledgers : List Number := [.fin 5, .fin 9, .fin 7, .nan, .fin 9]
    (observeAll ledgers).1.current = some (.fin 9) ∧
      (Raised (ledgers.filter (IsLedger ·)) (.fin 7) ∨
        (observeAll ledgers).2.countP (·.contains (.fin 7)) = 1) := by
  have hd : ∀ x ∈ ([.fin 5, .fin 9, .fin 7, .nan, .fin 9] : List Number), Number.IsDouble x := by
    have h5 := isDouble_small (n := 5) (by decide)
    have h7 := isDouble_small (n := 7) (by decide)
    have h9 := isDouble_small (n := 9) (by decide)
    have hnan : Number.IsDouble .nan := fun q hq => by cases hq
    norm_num at h5 h7 h9
    simp only [List.forall_mem_cons]
    exact ⟨h5, h9, h7, hnan, h9, fun x hx => by cases hx⟩
  have hcurrent : (observeAll [.fin 5, .fin 9, .fin 7, .nan, .fin 9]).1.current = some (.fin 9) := by decide
  exact ⟨hcurrent, (((ledgers_covered _ hd).2 (.fin 9) hcurrent).2 (.fin 5) rfl (.fin 7) (by decide)
    (hd _ (by decide)) (by decide) (by decide)).1⟩

end StreamFi
