import StreamFi.Js.Rounding

/-!
# Loops over chunks

A batch is processed in chunks of `batchChunkSize` items, which a constructor takes from its caller
unchecked:

    for (let i = 0; i < items.length; i += batchChunkSize)
      for (let j = i; j < Math.min(i + batchChunkSize, items.length); j++)

* `innerLoop`, `outerLoop`, `visits`: the two loops, and the positions at which there is an item;
* `AtIndex`, `atIndex_add`: where a loop is in a list;
* `visits_whole`, `visits_first`: chunks of a whole size, and a chunk that takes in the whole list;
* **`whole_of_suits`**, **`suits_of_whole`**: when every item is visited once, in order;
* **`visits_sorted`**: no size visits an item twice, or before one that comes earlier.
-/

namespace StreamFi

open Js

/-! ## The loops -/

/-- The values of `j`; none when there are more steps than `fuel`. -/
def innerLoop : ℕ → Number → Number → Option (List Number)
  | 0, _, _ => none
  | fuel + 1, j, chunkEnd =>
    if j.lt chunkEnd then (innerLoop fuel (j.add (.fin 1)) chunkEnd).map (j :: ·) else some []

def outerLoop (batchChunkSize length : Number) : ℕ → Number → Option (List Number)
  | 0, _ => none
  | fuel + 1, i =>
    if i.lt length then do
      let js ← innerLoop fuel i (Number.min (i.add batchChunkSize) length)
      let rest ← outerLoop batchChunkSize length fuel (i.add batchChunkSize)
      return js ++ rest
    else some []

/-- The position in a list of `n` items that `items[j]` reads, if it has an item there. -/
def position (n : ℕ) : Number → Option ℕ
  | .fin q => if q.isInt ∧ 0 ≤ q ∧ q.num.toNat < n then some q.num.toNat else none
  | _ => none

/-- The loop is at position `p`, or behind the list. -/
def AtIndex (i : Number) (p len : ℕ) : Prop :=
  (i = .fin p ∧ p < len) ∨ i.lt (.fin len) = false ∧ p = len

/-- **A chunk further**, or behind the list. -/
theorem atIndex_add (p c : ℕ) {len : ℕ} (hlen : len < 2 ^ 32) :
    AtIndex ((Number.fin p).add (.fin c)) (min (p + c) len) len := by
  have hlt := Number.add_lt_natCast p c hlen
  by_cases hin : p + c < len
  · rw [Nat.min_eq_left hin.le]
    exact .inl ⟨Number.add_natCast (by omega), hin⟩
  · rw [Nat.min_eq_right (not_lt.mp hin)]
    rw [decide_eq_false hin] at hlt
    exact .inr ⟨hlt, rfl⟩

/-- The positions of the items that are processed. -/
def visits (fuel : ℕ) (batchChunkSize : Number) (n : ℕ) : Option (List ℕ) :=
  (outerLoop batchChunkSize (.fin n) fuel (.fin 0)).map fun js => js.filterMap (position n)

theorem innerLoop_mono {fuel fuel' : ℕ} {j chunkEnd : Number} {js : List Number} (hle : fuel ≤ fuel')
    (h : innerLoop fuel j chunkEnd = some js) : innerLoop fuel' j chunkEnd = some js := by
  induction fuel generalizing fuel' j js with
  | zero => cases h
  | succ fuel ih =>
    obtain ⟨fuel', rfl⟩ : ∃ f, fuel' = f + 1 := ⟨fuel' - 1, by omega⟩
    rw [innerLoop] at h ⊢
    split_ifs at h ⊢
    · obtain ⟨js, hjs, rfl⟩ := Option.map_eq_some_iff.mp h
      rw [ih (by omega) hjs, Option.map_some]
    · exact h

theorem outerLoop_mono {fuel fuel' : ℕ} {batchChunkSize length i : Number} {js : List Number}
    (hle : fuel ≤ fuel') (h : outerLoop batchChunkSize length fuel i = some js) :
    outerLoop batchChunkSize length fuel' i = some js := by
  induction fuel generalizing fuel' i js with
  | zero => cases h
  | succ fuel ih =>
    obtain ⟨fuel', rfl⟩ : ∃ f, fuel' = f + 1 := ⟨fuel' - 1, by omega⟩
    rw [outerLoop] at h ⊢
    split_ifs at h ⊢
    · obtain ⟨js, hjs, h⟩ := Option.bind_eq_some_iff.mp h
      obtain ⟨rest, hrest, h⟩ := Option.bind_eq_some_iff.mp h
      rw [innerLoop_mono (by omega) hjs, ih (by omega) hrest]
      exact h
    · exact h

/-- **The fuel does not matter** where it suffices. -/
theorem visits_unique {fuel fuel' n : ℕ} {batchChunkSize : Number} {js js' : List ℕ}
    (h : visits fuel batchChunkSize n = some js) (h' : visits fuel' batchChunkSize n = some js') :
    js = js' := by
  obtain ⟨xs, hxs, rfl⟩ := Option.map_eq_some_iff.mp h
  obtain ⟨xs', hxs', rfl⟩ := Option.map_eq_some_iff.mp h'
  rcases le_total fuel fuel' with hle | hle
  · rw [outerLoop_mono hle hxs] at hxs'
    rw [Option.some.inj hxs']
  · rw [outerLoop_mono hle hxs'] at hxs
    rw [Option.some.inj hxs]

/-- The loops come to an end, and have processed every item once and in order. -/
def Whole (batchChunkSize : Number) (n : ℕ) : Prop :=
  ∃ fuel, visits fuel batchChunkSize n = some (List.range n)

/-! ## Chunks of a whole size -/

section Whole

variable {n : ℕ}

def naturals (js : List ℕ) : List Number := js.map fun j : ℕ => .fin j

/-- **The inner loop** over whole positions. -/
theorem innerLoop_range {chunkEnd : Number} {fuel a m : ℕ} (hsmall : a + m ≤ 2 ^ 53)
    (hin : ∀ k < m, (Number.fin ((a + k : ℕ) : ℚ)).lt chunkEnd = true)
    (hout : (Number.fin ((a + m : ℕ) : ℚ)).lt chunkEnd = false) (hfuel : m < fuel) :
    innerLoop fuel (.fin a) chunkEnd = some (naturals (List.range' a m)) := by
  induction fuel generalizing a m with
  | zero => exact absurd hfuel (Nat.not_lt_zero m)
  | succ fuel ih =>
    cases m with
    | zero =>
      rw [Nat.add_zero] at hout
      rw [innerLoop, hout, if_neg Bool.false_ne_true]
      rfl
    | succ m =>
      have hnext : (Number.fin a).add (.fin 1) = .fin ((a + 1 : ℕ) : ℚ) := by
        have := Number.add_natCast (a := a) (b := 1) (by omega)
        exact_mod_cast this
      have hfirst := hin 0 (Nat.succ_pos m)
      rw [Nat.add_zero] at hfirst
      rw [innerLoop, if_pos hfirst, hnext, ih (m := m) (by omega) ?_ ?_ (by omega)]
      · rw [List.range'_succ]
        rfl
      · intro k hk
        have := hin (k + 1) (by omega)
        rwa [show a + (k + 1) = a + 1 + k by omega] at this
      · rwa [show a + (m + 1) = a + 1 + m by omega] at hout

theorem position_natCast {j : ℕ} (h : j < n) : position n (.fin j) = some j := by
  have hint : (j : ℚ).isInt = true := Number.isInt_iff.mpr ⟨j, by simp⟩
  rw [position, if_pos ⟨hint, by positivity, by simpa using h⟩]
  simp

theorem filterMap_position :
    (naturals (List.range' 0 n)).filterMap (position n) = List.range n := by
  rw [naturals, List.filterMap_map, List.range_eq_range']
  refine (List.filterMap_congr fun j hj => ?_).trans List.filterMap_some
  exact position_natCast (by simpa using hj)

/-- The outer loop from position `i` on, in chunks of `m`. -/
theorem outerLoop_range {m fuel i : ℕ} (hm : 0 < m) (hmn : m ≤ n) (hn : n < 2 ^ 32)
    (hi : i ≤ n + m) (hfuel : n - i + 1 < fuel) :
    outerLoop (.fin m) (.fin n) fuel (.fin i) =
      some (naturals (List.range' i (n - i))) := by
  induction fuel generalizing i with
  | zero => exact absurd hfuel (Nat.not_lt_zero _)
  | succ fuel ih =>
    by_cases hlt : i < n
    · have hcond : (Number.fin (i : ℚ)).lt (.fin n) = true := by simpa using hlt
      have hnext : (Number.fin (i : ℚ)).add (.fin m) = .fin ((i + m : ℕ) : ℚ) :=
        Number.add_natCast (by omega)
      have hinner : innerLoop fuel (.fin i) (.fin ((i + m ⊓ (n - i) : ℕ) : ℚ)) =
          some (naturals (List.range' i (m ⊓ (n - i)))) := by
        apply innerLoop_range
        · omega
        · intro k hk
          rw [Number.lt_fin, decide_eq_true_eq]
          exact_mod_cast (by omega : i + k < i + m ⊓ (n - i))
        · rw [Number.lt_fin, decide_eq_false_iff_not]
          exact lt_irrefl _
        · omega
      have hmin : (i + m) ⊓ n = i + m ⊓ (n - i) := by omega
      rw [outerLoop, if_pos hcond, hnext, Number.min_natCast, hmin, hinner, Option.bind_eq_bind,
        Option.bind_some, ih (by omega) (by omega)]
      show some (naturals _ ++ naturals _) = _
      rw [naturals, naturals, ← List.map_append]
      refine congrArg (fun js => some (naturals js)) ?_
      by_cases hlast : n ≤ i + m
      · rw [Nat.sub_eq_zero_of_le hlast, show m ⊓ (n - i) = n - i by omega]
        exact List.append_nil _
      · rw [show m ⊓ (n - i) = m by omega, show n - i = m + (n - (i + m)) by omega,
          List.range'_append_1]
    · have hcond : ¬ (Number.fin (i : ℚ)).lt (.fin n) = true := by simpa using hlt
      rw [outerLoop, if_neg hcond, Nat.sub_eq_zero_of_le (not_lt.mp hlt)]
      rfl

/-- **Chunks of a whole size** below the length of the list. -/
theorem visits_whole {m : ℕ} (hm : 0 < m) (hmn : m ≤ n) (hn : n < 2 ^ 32) : Whole (.fin m) n := by
  refine ⟨n + 2, ?_⟩
  have hloop : outerLoop (.fin m) (.fin n) (n + 2) (.fin ((0 : ℕ) : ℚ)) = _ :=
    outerLoop_range hm hmn hn (by omega) (by omega)
  rw [Nat.cast_zero] at hloop
  rw [visits, hloop, Option.map_some, Nat.sub_zero, filterMap_position]

/-! ## A chunk that takes in the whole list -/

theorem min_eq_right {x y : Number} (h : y.le x = true) : x.min y = y := by
  cases x <;> cases y <;> simp_all [Number.min, Number.le]
  intro h'
  linarith

theorem lt_min_iff {a b : ℚ} {x : Number} (hx : x ≠ .nan) :
    (Number.fin a).lt (x.min (.fin b)) = true ↔ (Number.fin a).lt x = true ∧ a < b := by
  cases x with
  | nan => exact absurd rfl hx
  | posInf => simp [Number.min, Number.le, Number.lt]
  | negInf => simp [Number.min, Number.le, Number.lt]
  | fin q =>
    unfold Number.min
    rw [if_neg (by simp)]
    split_ifs with h
    · have : q ≤ b := by simpa using h
      simp only [Number.lt_fin, decide_eq_true_eq]
      exact ⟨fun h' => ⟨h', h'.trans_le this⟩, fun h' => h'.1⟩
    · have : b < q := by simpa using h
      simp only [Number.lt_fin, decide_eq_true_eq]
      exact ⟨fun h' => ⟨h'.trans this, h'⟩, fun h' => h'.2⟩

/-- A number that is rounded from `n` or more is not below `n`. -/
theorem ofRat_not_lt {x : ℚ} (hn : n < 2 ^ 32) (hx : (n : ℚ) ≤ x) :
    (Number.ofRat x).lt (.fin n) = false := by
  have hexact : Number.ofRat n = .fin n := by
    have habs : |(n : ℤ)| ≤ 2 ^ 53 := by
      rw [abs_of_nonneg (by positivity)]
      omega
    exact_mod_cast Number.ofRat_intCast habs
  have hle := Number.ofRat_le_ofRat hx
  rw [hexact] at hle
  cases hof : Number.ofRat x with
  | fin r =>
    rw [hof, Number.le_fin, decide_eq_true_eq] at hle
    simpa using hle
  | nan | posInf => rfl
  | negInf =>
    rw [hof] at hle
    cases hle

/-- Where the inner loop starts behind the last item but not behind the end of the list. -/
theorem outerLoop_rest {q : ℚ} (hone : 1 ≤ q) (hlow : (n : ℚ) < q + 1) (hn : n < 2 ^ 32) :
    ∃ js, (∀ fuel, outerLoop (.fin q) (.fin n) (fuel + 4) (.fin q) = some js) ∧
      js.filterMap (position n) = [] := by
  by_cases hlt : q < n
  · have hdouble : (Number.fin q).add (.fin q) = .ofRat (q + q) := rfl
    have hstep : (Number.fin q).add (.fin 1) = .ofRat (q + 1) := rfl
    have hmin : Number.min (.ofRat (q + q)) (.fin n) = .fin n := by
      have hnot := ofRat_not_lt (x := q + q) hn (by linarith)
      have hle : (Number.fin n).le (.ofRat (q + q)) = true := by
        apply Number.le_of_not_lt _ (by simp) hnot
        rw [Number.ofRat_def]
        split_ifs <;> simp
      exact min_eq_right hle
    refine ⟨[.fin q], ?_, ?_⟩
    · intro fuel
      have hinner : innerLoop (fuel + 3) (.fin q) (.fin n) = some [.fin q] := by
        rw [innerLoop, if_pos (by simpa using hlt), hstep, innerLoop, ofRat_not_lt hn hlow.le, if_neg Bool.false_ne_true]
        rfl
      rw [outerLoop, if_pos (by simpa using hlt), hdouble, hmin, hinner, outerLoop,
        ofRat_not_lt hn (by linarith),
        if_neg Bool.false_ne_true]
      rfl
    · have hnot : ¬ q.isInt = true := by
        rw [Number.isInt_iff]
        rintro ⟨z, rfl⟩
        have h₁ : z < n := by exact_mod_cast hlt
        have h₂ : (n : ℤ) < z + 1 := by exact_mod_cast hlow
        omega
      simp [position, hnot]
  · refine ⟨[], fun fuel => ?_, rfl⟩
    rw [outerLoop, if_neg (by simpa using hlt)]

/-- **A first chunk that takes in the whole list.** -/
theorem visits_first {c : Number} (hc : Number.IsDouble c) (hone : (Number.fin 1).le c = true)
    (hfirst : (Number.fin n).le c.ceil = true) (hn : n < 2 ^ 32) : Whole c n := by
  by_cases hzero : n = 0
  · subst hzero
    exact ⟨1, rfl⟩
  have hstart : (Number.fin 0).add c = c := by
    cases c with
    | fin q =>
      show Number.ofRat (0 + q) = _
      rw [zero_add, hc q rfl]
    | nan | negInf => cases hone
    | posInf => rfl
  have hbelow : ∀ j : ℕ, j < n → (Number.fin j).lt c = true := by
    intro j hj
    cases c with
    | fin q =>
      have hceil : (n : ℤ) ≤ ⌈q⌉ := by
        have : (n : ℚ) ≤ ⌈q⌉ := by simpa [Number.ceil] using hfirst
        exact_mod_cast this
      rw [Number.lt_fin, decide_eq_true_eq]
      exact_mod_cast Int.lt_ceil.mp (lt_of_lt_of_le (by exact_mod_cast hj : (j : ℤ) < n) hceil)
    | nan | negInf => cases hone
    | posInf => rfl
  have hnan : c ≠ .nan := (Number.ne_nan_of_le hone).2
  have hinner (fuel : ℕ) (hfuel : n < fuel) :
      innerLoop fuel (.fin ((0 : ℕ) : ℚ)) (c.min (.fin n)) = some (naturals (List.range' 0 n)) := by
    apply innerLoop_range (by omega) _ _ hfuel
    · intro k hk
      rw [Nat.zero_add, lt_min_iff hnan]
      exact ⟨hbelow k hk, by exact_mod_cast hk⟩
    · rw [Nat.zero_add, ← Bool.not_eq_true, lt_min_iff hnan]
      exact fun h => lt_irrefl _ h.2
  -- what is left of the loops finds no further item
  obtain ⟨js, hrest, hnone⟩ : ∃ js, (∀ fuel, outerLoop c (.fin n) (fuel + 4) c = some js) ∧
      js.filterMap (position n) = [] := by
    cases c with
    | fin q =>
      have hlast := hbelow (n - 1) (by omega)
      rw [Number.lt_fin, decide_eq_true_eq, Nat.cast_sub (by omega)] at hlast
      exact outerLoop_rest (by simpa using hone) (by push_cast at hlast; linarith) hn
    | nan | negInf => cases hone
    | posInf => exact ⟨[], fun _ => rfl, rfl⟩
  refine ⟨n + 5, ?_⟩
  rw [Nat.cast_zero] at hinner
  rw [visits, outerLoop, if_pos (by simpa using Nat.pos_of_ne_zero hzero), hstart,
    hinner _ (by omega), Option.bind_eq_bind, Option.bind_some, hrest n]
  show some ((naturals _ ++ js).filterMap _) = _
  rw [List.filterMap_append, filterMap_position, hnone, List.append_nil]

/-! ## Sizes that do not suit -/

theorem add_le_zero {x y : Number} (hx : x.le (.fin 0) = true) (hy : y.le (.fin 0) = true) :
    (x.add y).le (.fin 0) = true := by
  cases x with
  | nan | posInf => cases hx
  | negInf =>
    cases y with
    | nan | posInf => cases hy
    | negInf | fin b => rfl
  | fin a =>
    cases y with
    | nan | posInf => cases hy
    | negInf => rfl
    | fin b =>
      rw [Number.le_fin, decide_eq_true_eq] at hx hy
      show (Number.ofRat (a + b)).le (.fin 0) = true
      rw [← Number.ofRat_zero]
      exact Number.ofRat_le_ofRat (by linarith)

/-- **A size that is not positive** leads nowhere: the outer loop never ends. -/
theorem outerLoop_never {c i : Number} (hn : 0 < n) (hc : c.le (.fin 0) = true)
    (hi : i.le (.fin 0) = true) (fuel : ℕ) : outerLoop c (.fin n) fuel i = none := by
  induction fuel generalizing i with
  | zero => rfl
  | succ fuel ih =>
    have hlt : i.lt (.fin n) = true := Number.lt_of_le_of_lt hi (by simpa using hn)
    rw [outerLoop, if_pos hlt, ih (add_le_zero hi hc)]
    cases innerLoop fuel i ((i.add c).min (.fin n)) <;> rfl

/-- With `NaN` the loops end before the first item. -/
theorem visits_nan (hn : 0 < n) (fuel : ℕ) : visits fuel .nan n ≠ some (List.range n) := by
  intro h
  obtain ⟨js, hjs, hrange⟩ := Option.map_eq_some_iff.mp h
  have hnil : js = [] := by
    cases fuel with
    | zero => cases hjs
    | succ fuel =>
      rw [outerLoop, if_pos (by simpa using hn)] at hjs
      cases fuel with
      | zero => cases hjs
      | succ fuel =>
        cases hjs
        rfl
  rw [hnil] at hrange
  have hlen := congrArg List.length hrange
  rw [List.length_range] at hlen
  exact hn.ne hlen

/-- The list is empty, or the size is at least `1` and an integer, or at least `1` and its first
chunk takes in the whole list. -/
def Suits (batchChunkSize : Number) (n : ℕ) : Prop :=
  n = 0 ∨ (Number.fin 1).le batchChunkSize = true ∧
    (batchChunkSize.isInteger = true ∨ (Number.fin n).le batchChunkSize.ceil = true)

/-- A positive size with a fraction. -/
def Fractional (batchChunkSize : Number) : Prop :=
  ∃ q : ℚ, batchChunkSize = .fin q ∧ 0 < q ∧ q.isInt = false

theorem whole_of_suits {c : Number} (hc : Number.IsDouble c) (hn : n < 2 ^ 32) (h : Suits c n) :
    Whole c n := by
  rcases h with rfl | ⟨hone, hint | hfirst⟩
  · exact ⟨1, rfl⟩
  · obtain ⟨z, rfl⟩ := Number.isInteger_iff.mp hint
    have hz : 1 ≤ z := by
      have : (1 : ℚ) ≤ z := by simpa using hone
      exact_mod_cast this
    lift z to ℕ using by omega
    by_cases hlt : z ≤ n
    · exact_mod_cast visits_whole (m := z) (by omega) hlt hn
    · refine visits_first hc hone ?_ hn
      rw [Number.ceil, Int.ceil_intCast, Number.le_fin, decide_eq_true_eq]
      exact_mod_cast (not_le.mp hlt).le
  · exact visits_first hc hone hfirst hn

theorem suits_of_whole {c : Number} (h : Whole c n) : Suits c n ∨ Fractional c := by
  obtain ⟨fuel, hfuel⟩ := h
  rcases Nat.eq_zero_or_pos n with hzero | hn
  · exact .inl (.inl hzero)
  have hbad (hc : c.le (.fin 0) = true) : False := by
    rw [visits, outerLoop_never hn hc (by decide)] at hfuel
    cases hfuel
  cases c with
  | nan => exact absurd hfuel (visits_nan hn fuel)
  | negInf => exact (hbad rfl).elim
  | posInf => exact .inl (.inr ⟨rfl, .inr rfl⟩)
  | fin q =>
    have hpos : 0 < q := by
      by_contra hle
      exact hbad (by simpa using hle)
    cases hint : q.isInt with
    | false => exact .inr ⟨q, rfl, hpos, hint⟩
    | true =>
      obtain ⟨z, rfl⟩ := Number.isInt_iff.mp hint
      have hz : 1 ≤ z := by
        have : (0 : ℤ) < z := by exact_mod_cast hpos
        omega
      exact .inl (.inr ⟨by simpa using (by exact_mod_cast hz : (1 : ℚ) ≤ z), .inl hint⟩)

/-! ## Positions in their order -/

theorem le_add {x c : Number} (hx : Number.IsDouble x) (hc : (Number.fin 0).le c = true)
    (hnan : x.add c ≠ .nan) : x.le (x.add c) = true := by
  cases x with
  | nan => exact absurd rfl hnan
  | posInf => cases c <;> first | rfl | exact absurd rfl hnan
  | negInf => cases c <;> first | rfl | exact absurd rfl hnan
  | fin a =>
    cases c with
    | nan => exact absurd rfl hnan
    | posInf => rfl
    | negInf => cases hc
    | fin b =>
      have hb : 0 ≤ b := by simpa using hc
      exact Number.fin_le_ofRat hx (by linarith)

/-- A position that does not advance keeps the inner loop going. -/
theorem innerLoop_stuck {j chunkEnd : Number} (hj : j.lt chunkEnd = true)
    (hstuck : j.add (.fin 1) = j) (fuel : ℕ) : innerLoop fuel j chunkEnd = none := by
  induction fuel with
  | zero => rfl
  | succ fuel ih => rw [innerLoop, if_pos hj, hstuck, ih, Option.map_none]

/-- **The inner loop counts upwards**, from `j` to below `chunkEnd`. -/
theorem innerLoop_sorted {fuel : ℕ} {j chunkEnd : Number} {js : List Number}
    (hj : Number.IsDouble j) (h : innerLoop fuel j chunkEnd = some js) :
    js.Pairwise (fun x y => x.lt y = true) ∧
      ∀ x ∈ js, j.le x = true ∧ x.lt chunkEnd = true := by
  induction fuel generalizing j js with
  | zero => cases h
  | succ fuel ih =>
    by_cases hlt : j.lt chunkEnd = true
    · have hadvance : j.add (.fin 1) ≠ j := by
        intro hstuck
        rw [innerLoop_stuck hlt hstuck] at h
        cases h
      have hnan : j ≠ .nan := by
        rintro rfl
        cases hlt
      rw [innerLoop, if_pos hlt] at h
      obtain ⟨rest, hrest, rfl⟩ := Option.map_eq_some_iff.mp h
      obtain ⟨hsorted, hbounds⟩ := ih (Number.isDouble_add j _) hrest
      have hfirst : ∀ x ∈ rest, j.lt x = true := by
        intro x hx
        have hle := (hbounds x hx).1
        have hstep : j.le (j.add (.fin 1)) = true :=
          le_add hj (by decide) (Number.ne_nan_of_le hle).1
        have hstrict : j.lt (j.add (.fin 1)) = true := by
          by_contra hno
          exact hadvance (Number.eq_of_le_of_not_lt hstep (by simpa using hno)).symm
        exact Number.lt_of_lt_of_le hstrict hle
      refine ⟨List.pairwise_cons.mpr ⟨hfirst, hsorted⟩, ?_⟩
      intro x hx
      rcases List.mem_cons.mp hx with rfl | hx
      · have hself : x.le x = true := by
          cases x with
          | nan => cases hlt
          | posInf | negInf => rfl
          | fin q => exact Number.le_refl_fin q
        exact ⟨hself, hlt⟩
      · exact ⟨Number.le_of_lt (hfirst x hx), (hbounds x hx).2⟩
    · rw [innerLoop, if_neg hlt] at h
      cases h
      exact ⟨.nil, by simp⟩

/-- The chunks follow each other. -/
theorem outerLoop_sorted {c length : Number} (hc : c = .nan ∨ (Number.fin 0).le c = true)
    {fuel : ℕ} {i : Number} {js : List Number} (hi : Number.IsDouble i)
    (h : outerLoop c length fuel i = some js) :
    js.Pairwise (fun x y => x.lt y = true) ∧ ∀ x ∈ js, i.le x = true := by
  induction fuel generalizing i js with
  | zero => cases h
  | succ fuel ih =>
    rw [outerLoop] at h
    split_ifs at h with hlt
    · obtain ⟨chunk, hchunk, h⟩ := Option.bind_eq_some_iff.mp h
      obtain ⟨rest, hrest, h⟩ := Option.bind_eq_some_iff.mp h
      cases h
      obtain ⟨hsorted, hbounds⟩ := innerLoop_sorted hi hchunk
      obtain ⟨hsorted', hbounds'⟩ := ih (Number.isDouble_add i c) hrest
      have hend (x : Number) (hx : x ∈ chunk) : x.lt (i.add c) = true := by
        have hmin := (hbounds x hx).2
        unfold Number.min at hmin
        split_ifs at hmin with hnan hle
        · cases x <;> cases hmin
        · exact hmin
        · have hle' : length.le (i.add c) = true :=
            Number.le_of_not_le (not_or.mp hnan).1 (not_or.mp hnan).2 hle
          exact Number.lt_of_lt_of_le hmin hle'
      refine ⟨List.pairwise_append.mpr ⟨hsorted, hsorted', ?_⟩, ?_⟩
      · intro x hx y hy
        exact Number.lt_of_lt_of_le (hend x hx) (hbounds' y hy)
      · intro x hx
        rcases List.mem_append.mp hx with hx | hx
        · exact (hbounds x hx).1
        · have hle := hbounds' x hx
          have hnan := (Number.ne_nan_of_le hle).1
          rcases hc with rfl | hc
          · exact absurd (by cases i <;> rfl) hnan
          · exact Number.le_trans (le_add hi hc hnan) hle
    · cases h
      exact ⟨.nil, by simp⟩

theorem eq_of_position {x : Number} {j : ℕ} (h : position n x = some j) : x = .fin j ∧ j < n := by
  cases x with
  | nan | posInf | negInf => cases h
  | fin q =>
    rw [position] at h
    split_ifs at h with hq
    obtain ⟨hint, hnonneg, hlt⟩ := hq
    obtain ⟨z, rfl⟩ := Number.isInt_iff.mp hint
    have hz : 0 ≤ z := by exact_mod_cast hnonneg
    rw [Rat.num_intCast] at h hlt
    cases h
    lift z to ℕ using hz
    exact ⟨by simp, hlt⟩

/-- **The items are processed in their order**, none of them twice. -/
theorem visits_sorted {fuel : ℕ} {c : Number} {js : List ℕ} (h : visits fuel c n = some js) :
    js.Pairwise (· < ·) ∧ ∀ j ∈ js, j < n := by
  obtain ⟨xs, hxs, rfl⟩ := Option.map_eq_some_iff.mp h
  constructor
  · rcases Nat.eq_zero_or_pos n with rfl | hn
    · cases fuel with
      | zero => cases hxs
      | succ fuel =>
        cases hxs
        exact .nil
    · have hc : c = .nan ∨ (Number.fin 0).le c = true := by
        by_cases hnan : c = .nan
        · exact .inl hnan
        · refine .inr (Number.le_of_not_lt hnan (by simp) ?_)
          by_contra hneg
          rw [outerLoop_never hn (Number.le_of_lt (by simpa using hneg)) (by decide)] at hxs
          cases hxs
      have hzero : Number.IsDouble (.fin 0) := by
        exact_mod_cast Number.isDouble_intCast (n := 0) (by norm_num)
      refine (outerLoop_sorted hc hzero hxs).1.filterMap _ ?_
      intro x y hlt a ha b hb
      obtain ⟨rfl, -⟩ := eq_of_position ha
      obtain ⟨rfl, -⟩ := eq_of_position hb
      simpa using hlt
  · intro j hj
    obtain ⟨x, -, hx⟩ := List.mem_filterMap.mp hj
    exact (eq_of_position hx).2

/-- Where as many items are processed as there are, all are. -/
theorem visits_eq_range {fuel : ℕ} {c : Number} {js : List ℕ} (h : visits fuel c n = some js)
    (hlen : js.length = n) : js = List.range n := by
  obtain ⟨hsorted, hlt⟩ := visits_sorted h
  have hsub : js.Sublist (List.range n) := by
    apply List.sublist_of_subperm_of_sortedLE _ (hsorted.imp Nat.le_of_lt).sortedLE
      List.pairwise_le_range.sortedLE
    apply List.Nodup.subperm (hsorted.imp Nat.ne_of_lt)
    intro j hj
    exact List.mem_range.mpr (hlt j hj)
  exact hsub.eq_of_length (by rw [hlen, List.length_range])

end Whole

end StreamFi
