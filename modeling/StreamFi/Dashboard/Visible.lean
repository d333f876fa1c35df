import StreamFi.Dashboard.Pages
import StreamFi.Sorted.Heap
import StreamFi.Sorted.Window

/-!
# The rows of a page

Each page is cut from the newest `k` rows, which a heap selects anew for every page. Rows of the same
time are told by their position.

* `topKByTimestampDesc`, `selectVisibleTransactions`: the selection, and a page;
* `concatenated`: all pages, one after the other;
* **`topK_eq`**: the selection is the beginning of the sorted rows, for every `k`;
* **`cutPage_eq`**: a page is a piece of the sorted rows;
* **`concatenated_iff`**: when the pages together are the sorted rows.
-/

namespace StreamFi

open Js Run Sorted

/-! ## The selection -/

/-- A row `tx` with its position `idx`. -/
abbrev RankedTransaction := TransactionRecord × ℕ

def isLowerPriority (a b : RankedTransaction) : Bool :=
  if a.1.timestamp = .nan ∨ a.1.timestamp ≠ b.1.timestamp then a.1.timestamp.lt b.1.timestamp
  else b.2 < a.2

/-- `(i - 1) >> 1`, of a signed number of 32 bits. -/
def shiftedParent (i : ℕ) : ℤ := (BitVec.ofNat 32 (i - 1)).toInt >>> (1 : ℕ)

/-- A comparison with an item that is not there. -/
def readOfUndefined : Thrown := errorOf "TypeError" "Cannot read properties of undefined (reading 'tx')"

/-- The loop after `heap.push(candidate)`. -/
def siftUpTransaction : ℕ → List RankedTransaction → ℕ → Except Thrown (List RankedTransaction)
  | 0, heap, _ => .ok heap
  | fuel + 1, heap, i =>
    if i = 0 then .ok heap
    else
      let parent := shiftedParent i
      if parent < 0 then .error readOfUndefined
      else if lowerAt isLowerPriority heap parent.toNat i then .ok heap
      else siftUpTransaction fuel (swapItems heap i parent.toNat) parent.toNat

/-- The body of the loop over the rows. -/
def offerTransaction (k : Number) (heap : List RankedTransaction) (candidate : RankedTransaction) :
    Except Thrown (List RankedTransaction) :=
  if (Number.fin heap.length).lt k then
    siftUpTransaction (heap.length + 1) (heap ++ [candidate]) heap.length
  else match heap with
    | [] => .error readOfUndefined
    | root :: _ => .ok (if isLowerPriority root candidate then
        siftDown isLowerPriority heap.length (heap.set 0 candidate) 0 else heap)

def topKByTimestampDesc (transactions : List TransactionRecord) (k : Number) :
    Except Thrown (List TransactionRecord) :=
  if k.le (.fin 0) || transactions.isEmpty then .ok []
  else (transactions.zipIdx.foldlM (offerTransaction k) []).map fun heap =>
    (heap.mergeSort fun a b => !isLowerPriority a b).map Prod.fst

/-- A page of the rows that pass the filters. -/
def cutPage (filtered : List TransactionRecord) (pageSize page : Number) :
    Except Thrown (List TransactionRecord) :=
  let start := (clampNumber page (pageCount filtered.length pageSize)).mul pageSize
  let k := start.add pageSize
  (topKByTimestampDesc filtered k).map fun top =>
    slice top (start.relIndex top.length) ((start.add pageSize).relIndex top.length)

variable {ι : Type} (rt : DashboardRuntime ι)

def selectVisibleTransactions (cache : SelectorCache) (state : Option TransactionHistoryState) :
    Except Thrown (List TransactionRecord) × SelectorCache :=
  (cutPage (selectorEntry rt cache state).1.filtered (shownPageSize state)
    ((state.map TransactionHistoryState.page).getD (.fin 0)), (selectorEntry rt cache state).2)

/-! ## All pages -/

/-- The pages `0`, `1` and so on, below a number. -/
def pageNumbers : Number → List ℕ
  | .fin q => List.range ⌈q⌉.toNat
  | _ => []

/-- The given pages of a state, one after the other. -/
def visiblePages (s : TransactionHistoryState) :
    List ℕ → SelectorCache → Except Thrown (List TransactionRecord)
  | [], _ => .ok []
  | p :: ps, cache => do
    let page := selectVisibleTransactions rt cache (some { s with page := .fin p })
    let rows ← page.1
    let rest ← visiblePages s ps page.2
    return rows ++ rest

/-- The pages `0 .. selectTotalPages - 1`. -/
def concatenated (cache : SelectorCache) (s : TransactionHistoryState) :
    Except Thrown (List TransactionRecord) :=
  visiblePages rt s (pageNumbers (selectTotalPages rt cache (some s))) (selectorEntry rt cache (some s)).2

/-- The rows sorted newest first, and in their order where the time is the same. -/
def newestFirst (rows : List TransactionRecord) : List TransactionRecord :=
  rows.mergeSort fun a b => b.timestamp.le a.timestamp

/-! ## Priorities -/

/-- The time of a row, and its position the other way. -/
def priority (r : RankedTransaction) : ℚ ×ₗ ℕᵒᵈ :=
  toLex (match r.1.timestamp with | .fin q => q | _ => 0, OrderDual.toDual r.2)

variable {rows : List TransactionRecord} {ranked : List RankedTransaction}

/-- Rows with a time. -/
def Timed (rows : List TransactionRecord) : Prop := ∀ tx ∈ rows, tx.timestamp.isFinite = true

theorem isLowerPriority_iff {a b : RankedTransaction} (ha : a.1.timestamp.isFinite = true)
    (hb : b.1.timestamp.isFinite = true) : isLowerPriority a b = true ↔ priority a < priority b := by
  obtain ⟨q, hq⟩ := eq_fin_of_isFinite ha
  obtain ⟨r, hr⟩ := eq_fin_of_isFinite hb
  simp only [isLowerPriority, priority, hq, hr, reduceCtorEq, false_or, Prod.Lex.toLex_lt_toLex,
    OrderDual.toDual_lt_toDual, ne_eq, Number.fin.injEq, Number.lt_fin]
  by_cases h : q = r
  · simp [h]
  · simp [h]

theorem keyedOn_zipIdx (h : Timed rows) : KeyedOn isLowerPriority priority rows.zipIdx := by
  intro a ha b hb
  exact isLowerPriority_iff (h _ (List.fst_mem_of_mem_zipIdx ha)) (h _ (List.fst_mem_of_mem_zipIdx hb))

theorem priority_injective {a b : RankedTransaction} (ha : a ∈ rows.zipIdx) (hb : b ∈ rows.zipIdx)
    (h : priority a = priority b) : a = b := by
  rw [List.mem_zipIdx_iff_getElem?] at ha hb
  have hindex : a.2 = b.2 := congrArg (fun x : ℚ ×ₗ ℕᵒᵈ => OrderDual.ofDual (ofLex x).2) h
  rw [hindex, hb] at ha
  exact Prod.ext (Option.some.inj ha).symm hindex

/-- **Sorted with their positions**, rows are sorted stably. -/
theorem mergeSort_zipIdx_eq (h : Timed rows) :
    ((rows.zipIdx.mergeSort fun a b => !isLowerPriority a b).map Prod.fst) = newestFirst rows := by
  have hsame : (rows.zipIdx.mergeSort fun a b => !isLowerPriority a b) =
      rows.zipIdx.mergeSort (List.zipIdxLE fun a b => b.timestamp.le a.timestamp) := by
    refine mergeSort_congr fun a ha b hb => ?_
    obtain ⟨q, hq⟩ := eq_fin_of_isFinite (h _ (List.fst_mem_of_mem_zipIdx ha))
    obtain ⟨r, hr⟩ := eq_fin_of_isFinite (h _ (List.fst_mem_of_mem_zipIdx hb))
    simp only [isLowerPriority, List.zipIdxLE, hq, hr, reduceCtorEq, false_or, ne_eq, Number.fin.injEq,
      Number.lt_fin, Number.le_fin]
    rcases lt_trichotomy q r with hlt | heq | hgt
    · simp [hlt.ne, hlt, not_le.mpr hlt]
    · rw [Bool.eq_iff_iff]
      simp [heq]
    · simp [hgt.ne', hgt.le, not_lt.mpr hgt.le, not_le.mpr hgt]
  rw [hsame]
  exact List.mergeSort_zipIdx

/-! ## The heap of the selection -/

theorem shiftedParent_eq {i : ℕ} (hi : 0 < i) (h : i ≤ 2 ^ 31) : shiftedParent i = ((i - 1) / 2 : ℕ) := by
  rw [shiftedParent, BitVec.toInt_eq_toNat_bmod, BitVec.toNat_ofNat, Int.shiftRight_eq_div_pow,
    Int.bmod_def]
  split_ifs <;> omega

theorem shiftedParent_neg {i : ℕ} (h : 2 ^ 31 < i) (h' : i ≤ 2 ^ 32) : shiftedParent i < 0 := by
  rw [shiftedParent, BitVec.toInt_eq_toNat_bmod, BitVec.toNat_ofNat, Int.shiftRight_eq_div_pow,
    Int.bmod_def]
  split_ifs <;> omega

variable {heap : List RankedTransaction} {x : RankedTransaction} {k : Number} {K : ℕ}

theorem siftUpTransaction_eq {fuel i : ℕ} (h : i ≤ 2 ^ 31) :
    siftUpTransaction fuel heap i = .ok (siftUp isLowerPriority fuel heap i) := by
  induction fuel generalizing heap i with
  | zero => rfl
  | succ fuel ih =>
    rw [siftUpTransaction, siftUp]
    by_cases hi : i = 0
    · rw [if_pos hi, if_pos hi]
    · simp only [if_neg hi, shiftedParent_eq (Nat.pos_of_ne_zero hi) h, Int.toNat_natCast,
        if_neg (not_lt.mpr (Int.natCast_nonneg _))]
      split_ifs
      · rfl
      · exact ih (by omega)

/-- From the position `2 ^ 31 + 1` on, an item has no parent. -/
theorem siftUpTransaction_error {fuel i : ℕ} (h : 2 ^ 31 < i) (h' : i ≤ 2 ^ 32) :
    siftUpTransaction (fuel + 1) heap i = .error readOfUndefined := by
  rw [siftUpTransaction, if_neg (by omega)]
  exact if_pos (shiftedParent_neg h h')

/-- `k` bounds the lengths up to `n` as `K` does. -/
def Bounds (k : Number) (K n : ℕ) : Prop := ∀ j ≤ n, (Number.fin j).lt k = decide (j < K)

theorem offerTransaction_eq (hk : (Number.fin heap.length).lt k = decide (heap.length < K)) (hK : 0 < K)
    (hroom : heap.length < K → heap.length ≤ 2 ^ 31) :
    offerTransaction k heap x = .ok (offer isLowerPriority K heap x) := by
  unfold offerTransaction offer
  rw [hk]
  by_cases hlt : heap.length < K
  · rw [if_pos (decide_eq_true hlt), if_pos hlt]
    exact siftUpTransaction_eq (hroom hlt)
  · rw [if_neg (by rwa [decide_eq_true_eq]), if_neg hlt]
    cases heap with
    | nil => exact absurd hK hlt
    | cons root tail => rfl

/-- **The loop over the rows** keeps the newest of them. -/
theorem foldlM_offerTransaction {n : ℕ} (h : Timed rows) (hK : 0 < K) (hk : Bounds k K n)
    (hsub : ranked ⊆ rows.zipIdx) (hn : ranked.length ≤ n) (hroom : min K ranked.length ≤ 2 ^ 31 + 1) :
    ∃ heap, ranked.foldlM (offerTransaction k) [] = .ok heap ∧ Selected priority K ranked heap := by
  induction ranked using List.reverseRecOn with
  | nil => exact ⟨[], rfl, selected_nil priority K⟩
  | append_singleton ranked x ih =>
    rw [List.length_append, List.length_singleton] at hn hroom
    obtain ⟨heap, hheap, hselected⟩ := ih (List.Subset.trans (List.subset_append_left _ _) hsub)
      (by omega) (by omega)
    have hlen := hselected.length
    refine ⟨offer isLowerPriority K heap x, ?_, hselected.offer hK ((keyedOn_zipIdx h).subset hsub)⟩
    rw [List.foldlM_append, hheap]
    show [x].foldlM (offerTransaction k) heap = _
    rw [List.foldlM_cons, offerTransaction_eq (hk _ (by omega)) hK (by omega)]
    rfl

theorem not_le_zero_of_bounds {n : ℕ} (hk : Bounds k K n) (hK : 0 < K) : k.le (.fin 0) = false := by
  have hlt := hk 0 (Nat.zero_le n)
  rw [Nat.cast_zero, decide_eq_true hK] at hlt
  cases k with
  | nan | negInf => cases hlt
  | posInf => rfl
  | fin q =>
    rw [Number.lt_fin, decide_eq_true_eq] at hlt
    rw [Number.le_fin, decide_eq_false_iff_not, not_le]
    exact hlt

/-- **The selection is the beginning of the sorted rows.** -/
theorem topK_eq (h : Timed rows) (hK : 0 < K) (hk : Bounds k K rows.length)
    (hroom : min K rows.length ≤ 2 ^ 31 + 1) :
    topKByTimestampDesc rows k = .ok ((newestFirst rows).take K) := by
  rw [topKByTimestampDesc, not_le_zero_of_bounds hk hK, Bool.false_or]
  cases rows with
  | nil =>
    rw [newestFirst, List.mergeSort_nil, List.take_nil]
    rfl
  | cons tx txs =>
    obtain ⟨heap, hheap, hselected⟩ := foldlM_offerTransaction h hK hk (List.Subset.refl _)
      (by rw [List.length_zipIdx]) (by rw [List.length_zipIdx]; exact hroom)
    have hsorted := hselected.mergeSort_eq (keyedOn_zipIdx h) fun a ha b hb => priority_injective ha hb
    rw [hheap, List.isEmpty_cons, if_neg Bool.false_ne_true, ← mergeSort_zipIdx_eq h, ← List.map_take,
      ← hsorted]
    rfl

/-- The selection fails when it is to keep more rows. -/
theorem topK_error (h : Timed rows) (hk : Bounds k K rows.length) (hK : 2 ^ 31 + 1 < K)
    (hrows : 2 ^ 31 + 1 < rows.length) :
    topKByTimestampDesc rows k = .error readOfUndefined := by
  obtain ⟨before, x, after, hsplit, hbefore⟩ : ∃ before x after, rows.zipIdx = before ++ x :: after ∧
      before.length = 2 ^ 31 + 1 := by
    have hlt : 2 ^ 31 + 1 < rows.zipIdx.length := by
      rw [List.length_zipIdx]
      exact hrows
    refine ⟨rows.zipIdx.take (2 ^ 31 + 1), rows.zipIdx[2 ^ 31 + 1], rows.zipIdx.drop (2 ^ 31 + 2), ?_, ?_⟩
    · rw [← List.drop_eq_getElem_cons hlt, List.take_append_drop]
    · rw [List.length_take, Nat.min_eq_left hlt.le]
  have hpos : 0 < K := by omega
  have hsub : before ⊆ rows.zipIdx := by
    rw [hsplit]
    exact List.subset_append_left _ _
  obtain ⟨heap, hheap, hselected⟩ := foldlM_offerTransaction h hpos hk hsub (by omega) (by omega)
  have hlen := hselected.length
  have hnext : offerTransaction k heap x = .error readOfUndefined := by
    unfold offerTransaction
    rw [hk heap.length (by omega), if_pos (decide_eq_true (by omega))]
    exact siftUpTransaction_error (by omega) (by omega)
  have hnonempty : rows.isEmpty = false := by
    cases rows with
    | nil => exact absurd hrows (Nat.not_lt_zero _)
    | cons tx txs => rfl
  rw [topKByTimestampDesc, not_le_zero_of_bounds hk hpos, hnonempty, Bool.false_or,
    if_neg Bool.false_ne_true, hsplit, List.foldlM_append, hheap]
  show Except.map _ ((x :: after).foldlM (offerTransaction k) heap) = _
  rw [List.foldlM_cons, hnext]
  rfl

/-- A selection without a size fails at the first row. -/
theorem topK_nan (hrows : rows ≠ []) : topKByTimestampDesc rows .nan = .error readOfUndefined := by
  cases rows with
  | nil => exact absurd rfl hrows
  | cons tx txs => rfl

/-! ## One page -/

section Page

variable {n pageSize p : ℕ}

/-- The start of a page is a position of a row. -/
theorem mul_le_of_lt_pages (h : 0 < pageSize) (hp : p < pages n pageSize) : p * pageSize ≤ n := by
  by_cases hzero : p = 0
  · rw [hzero, zero_mul]
    exact Nat.zero_le n
  · have hlt : p < (n + pageSize - 1) / pageSize := by
      unfold pages at hp
      omega
    have hmul := (Nat.le_div_iff_mul_le h).mp hlt
    rw [Nat.succ_mul] at hmul
    omega

/-- The pages have room for all rows. -/
theorem le_pages_mul (h : 0 < pageSize) : n ≤ pages n pageSize * pageSize := by
  have hdiv := Nat.div_add_mod (n + pageSize - 1) pageSize
  have hmod := Nat.mod_lt (n + pageSize - 1) h
  have hle : (n + pageSize - 1) / pageSize * pageSize ≤ pages n pageSize * pageSize :=
    Nat.mul_le_mul_right pageSize (le_max_right 1 _)
  rw [mul_comm] at hdiv
  omega

theorem bounds_add (a m : ℕ) (hn : n < 2 ^ 32) :
    Bounds (Number.add (.fin a) (.fin m)) (a + m) n := by
  intro j hj
  rcases Number.add_lengths a m with hexact | ⟨hlarge, hle⟩
  · rw [hexact, Number.lt_fin]
    exact decide_eq_decide.mpr Nat.cast_lt
  · rw [decide_eq_true (by omega : j < a + m)]
    refine Number.lt_of_lt_of_le ?_ hle
    rw [Number.lt_fin, decide_eq_true_eq, Nat.cast_lt]
    omega

/-- The positions that a page is cut at. -/
theorem cutPage_eq_map (hm : 0 < pageSize) (hp : p < pages rows.length pageSize)
    (hn : rows.length < 2 ^ 32) :
    cutPage rows (.fin pageSize) (.fin p) =
      (topKByTimestampDesc rows (Number.add (.fin (p * pageSize : ℕ)) (.fin pageSize))).map fun top =>
        slice top ((Number.fin (p * pageSize : ℕ)).relIndex top.length)
          ((Number.add (.fin (p * pageSize : ℕ)) (.fin pageSize)).relIndex top.length) := by
  have htotal := pages_le (n := rows.length) hm
  have hstart := mul_le_of_lt_pages hm hp
  simp only [cutPage]
  rw [pageCount_natCast hm hn, clampNumber_natCast (pages_pos _ _) (by omega),
    Nat.min_eq_left (by omega : p ≤ pages rows.length pageSize - 1), Number.mul_natCast (by omega)]

/-- **A page is a piece of the sorted rows.** -/
theorem cutPage_eq (h : Timed rows) (hm : 0 < pageSize) (hp : p < pages rows.length pageSize)
    (hn : rows.length < 2 ^ 32) (hroom : rows.length ≤ 2 ^ 31 + 1) :
    cutPage rows (.fin pageSize) (.fin p) =
      .ok (((newestFirst rows).drop (p * pageSize)).take pageSize) := by
  have hstart := mul_le_of_lt_pages hm hp
  have hlen : (newestFirst rows).length = rows.length := List.length_mergeSort rows
  rw [cutPage_eq_map hm hp hn, topK_eq h (by omega) (bounds_add _ _ hn) (by omega)]
  have htop : ((newestFirst rows).take (p * pageSize + pageSize)).length =
      min (p * pageSize + pageSize) rows.length := by
    rw [List.length_take, hlen]
  show Except.ok (slice _ _ _) = _
  rw [htop, Number.relIndex_add _ _ (by omega), Number.relIndex_natCast, slice,
    List.take_of_length_le (by rw [htop]; omega), Nat.min_eq_left (by omega : p * pageSize ≤ _),
    List.drop_take, Nat.add_sub_cancel_left]

/-- The last page fails when there are too many rows for the heap. -/
theorem cutPage_error (h : Timed rows) (hm : 0 < pageSize) (hp : p < pages rows.length pageSize)
    (hn : rows.length < 2 ^ 32) (hlast : rows.length ≤ p * pageSize + pageSize)
    (hrows : 2 ^ 31 + 1 < rows.length) :
    cutPage rows (.fin pageSize) (.fin p) = .error readOfUndefined := by
  rw [cutPage_eq_map hm hp hn, topK_error h (bounds_add _ _ hn) (by omega) hrows]
  rfl

end Page

/-! ## All pages of a state -/

variable {rt} {cache : SelectorCache} {s : TransactionHistoryState}

theorem CachedFor.selectorEntry (h : CachedFor rt cache s.transactions) :
    CachedFor rt (selectorEntry rt cache (some s)).2 s.transactions := by
  intro entry hget
  rcases get_selectorEntry rt cache (some s) s.transactions.id with hsame | ⟨-, hnew⟩
  · rw [hsame] at hget
    exact h entry hget
  · rw [hnew] at hget
    cases hget
    exact ⟨s.filters, rfl, rfl⟩

/-- The pages, without the memo. -/
theorem visiblePages_eq (h : CachedFor rt cache s.transactions) (ps : List ℕ) :
    visiblePages rt s ps cache =
      (ps.mapM fun p : ℕ => cutPage (s.visibleRows rt) (shownPageSize (some s)) (.fin p)).map
        List.flatten := by
  induction ps generalizing cache with
  | nil => rfl
  | cons p ps ih =>
    have hpage : CachedFor rt cache { s with page := .fin p }.transactions := h
    have hrows : (StreamFi.selectorEntry rt cache (some { s with page := .fin p })).1.filtered =
        s.visibleRows rt := hpage.visibleRows_eq
    have hnext : CachedFor rt (StreamFi.selectorEntry rt cache (some { s with page := .fin p })).2
        s.transactions := hpage.selectorEntry
    rw [visiblePages, List.mapM_cons]
    simp only [selectVisibleTransactions, hrows, ih hnext]
    show cutPage (s.visibleRows rt) (shownPageSize (some s)) (.fin p) >>= _ = _
    cases cutPage (s.visibleRows rt) (shownPageSize (some s)) (.fin p) with
    | error e => rfl
    | ok rows =>
      cases ps.mapM fun p : ℕ => cutPage (s.visibleRows rt) (shownPageSize (some s)) (.fin p) with
      | error e => rfl
      | ok pages => rfl

theorem concatenated_eq (h : CachedFor rt cache s.transactions) :
    concatenated rt cache s = ((pageNumbers (pageCount (s.visibleRows rt).length
      (shownPageSize (some s)))).mapM fun p : ℕ =>
        cutPage (s.visibleRows rt) (shownPageSize (some s)) (.fin p)).map List.flatten := by
  rw [concatenated, visiblePages_eq h.selectorEntry, selectTotalPages, h.visibleRows_eq]

/-- The size that is shown is a positive integer, of most page sizes. -/
theorem exists_shownPageSize (hnan : s.pageSize ≠ .nan) (hinf : s.pageSize ≠ .posInf) :
    ∃ n : ℕ, 0 < n ∧ shownPageSize (some s) = .fin n := by
  have hone : Number.fin 1 = .fin ((1 : ℕ) : ℚ) := by rw [Nat.cast_one]
  rw [shownPageSize, Option.map_some, Option.getD_some]
  cases hs : s.pageSize with
  | nan => exact absurd hs hnan
  | posInf => exact absurd hs hinf
  | negInf => exact ⟨1, Nat.one_pos, hone⟩
  | fin q =>
    obtain ⟨z, hz⟩ : ∃ z : ℤ, Number.trunc (.fin q) = .fin z := ⟨_, rfl⟩
    rw [hz]
    by_cases hpos : 1 ≤ z
    · obtain ⟨n, rfl⟩ := Int.eq_ofNat_of_zero_le (zero_le_one.trans hpos)
      refine ⟨n, by omega, ?_⟩
      exact_mod_cast max_one_natCast (n := n) (by omega)
    · refine ⟨1, Nat.one_pos, ?_⟩
      have hlow : ¬ (1 : ℚ) ≤ z := by exact_mod_cast hpos
      rw [← hone]
      simp [Number.max, hlow]

theorem pageNumbers_natCast (n : ℕ) : pageNumbers (.fin n) = List.range n := by
  rw [pageNumbers, Int.ceil_natCast, Int.toNat_natCast]

/-- A list in pieces. -/
theorem flatten_pieces {α : Type*} (xs : List α) (size count : ℕ) :
    ((List.range count).map fun p => (xs.drop (p * size)).take size).flatten =
      xs.take (count * size) := by
  induction count with
  | zero => rw [zero_mul, List.range_zero, List.map_nil, List.flatten_nil, List.take_zero]
  | succ count ih =>
    rw [List.range_succ, List.map_append, List.flatten_append, ih, List.map_singleton,
      List.flatten_singleton, Nat.succ_mul, List.take_add]

theorem timed_visibleRows (rt : DashboardRuntime ι) (h : Timed s.transactions.records) :
    Timed (s.visibleRows rt) :=
  fun tx htx => h tx (List.mem_of_mem_filter htx)

/-- Pages of a whole size. -/
theorem concatenated_natCast {n : ℕ} (hcache : CachedFor rt cache s.transactions)
    (h : Timed s.transactions.records) (hn : 0 < n) (hs : shownPageSize (some s) = .fin n) :
    concatenated rt cache s = .ok (newestFirst (s.visibleRows rt)) ↔
      (s.visibleRows rt).length ≤ 2 ^ 31 + 1 := by
  have hlt := visibleRows_length_lt rt s
  have htimed := timed_visibleRows rt h
  rw [concatenated_eq hcache, hs, pageCount_natCast hn hlt, pageNumbers_natCast]
  constructor
  · intro hok
    by_contra hlarge
    rw [not_le] at hlarge
    obtain ⟨parts, hparts, -⟩ := map_ok_iff.mp hok
    have hpos := pages_pos (s.visibleRows rt).length n
    have hroom := le_pages_mul (n := (s.visibleRows rt).length) hn
    -- the last page is the one that fails
    have hlast : pages (s.visibleRows rt).length n - 1 ∈ List.range (pages (s.visibleRows rt).length n) :=
      List.mem_range.mpr (by omega)
    have hmul : (pages (s.visibleRows rt).length n - 1) * n + n =
        pages (s.visibleRows rt).length n * n := by
      rw [← Nat.succ_mul]
      congr 1
      omega
    obtain ⟨part, hpart⟩ := exists_of_mapM hparts hlast
    rw [cutPage_error htimed hn (List.mem_range.mp hlast) hlt (by omega) hlarge] at hpart
    cases hpart
  · intro hroom
    have hpieces : ∀ p ∈ List.range (pages (s.visibleRows rt).length n),
        cutPage (s.visibleRows rt) (.fin n) (.fin p) =
          .ok (((newestFirst (s.visibleRows rt)).drop (p * n)).take n) := by
      intro p hp
      exact cutPage_eq htimed hn (List.mem_range.mp hp) hlt hroom
    have hlen : (newestFirst (s.visibleRows rt)).length ≤ pages (s.visibleRows rt).length n * n := by
      rw [newestFirst, List.length_mergeSort]
      exact le_pages_mul hn
    rw [mapM_ok hpieces]
    show Except.ok _ = _
    rw [flatten_pieces, List.take_of_length_le hlen]

theorem newestFirst_eq_nil_iff : newestFirst rows = [] ↔ rows = [] := by
  rw [← List.length_eq_zero_iff, newestFirst, List.length_mergeSort, List.length_eq_zero_iff]

/-- Without a page size there are no pages. -/
theorem concatenated_nan (hcache : CachedFor rt cache s.transactions) (hs : s.pageSize = .nan) :
    concatenated rt cache s = .ok [] := by
  rw [concatenated_eq hcache, shownPageSize, Option.map_some, Option.getD_some, hs]
  rfl

/-- Of an infinite page size, the first page starts nowhere. -/
theorem concatenated_posInf (hcache : CachedFor rt cache s.transactions) (hs : s.pageSize = .posInf) :
    concatenated rt cache s =
      if s.visibleRows rt = [] then .ok [] else .error readOfUndefined := by
  have hshown : shownPageSize (some s) = .posInf := by
    rw [shownPageSize, Option.map_some, Option.getD_some, hs]
    rfl
  have hcount : pageCount (s.visibleRows rt).length .posInf = .fin (1 : ℕ) := by
    simp [pageCount, Number.div, Number.ceil, Number.max]
  have hcut : cutPage (s.visibleRows rt) .posInf (.fin (0 : ℕ)) =
      (topKByTimestampDesc (s.visibleRows rt) .nan).map fun top =>
        slice top (Number.relIndex top.length .nan) (Number.relIndex top.length .nan) := by
    simp only [cutPage]
    rw [hcount, clampNumber_natCast Nat.one_pos (by norm_num)]
    rfl
  rw [concatenated_eq hcache, hshown, hcount, pageNumbers_natCast, List.range_one, List.mapM_cons, hcut]
  split_ifs with hnil
  · rw [hnil]
    rfl
  · rw [topK_nan hnil]
    rfl

namespace HistorySession

/-- **All pages together are the sorted rows**, for the states of every session, exactly where no rows
pass the filters, or the page size is neither `NaN` nor infinite and the heap has room for the rows. -/
theorem concatenated_iff {m : HistorySession} {log : List (HistoryEvent ι)}
    (h : run (step rt) {} log = some m) (hs : s ∈ m.states) (htimed : Timed s.transactions.records) :
    concatenated rt m.cache s = .ok (newestFirst (s.visibleRows rt)) ↔ s.visibleRows rt = [] ∨
      s.pageSize ≠ .nan ∧ s.pageSize ≠ .posInf ∧ (s.visibleRows rt).length ≤ 2 ^ 31 + 1 := by
  have hcache := cachedFor (coherent_of_run h) hs
  by_cases hnan : s.pageSize = .nan
  · rw [concatenated_nan hcache hnan, Except.ok.injEq, eq_comm, newestFirst_eq_nil_iff]
    simp [hnan]
  · by_cases hinf : s.pageSize = .posInf
    · rw [concatenated_posInf hcache hinf]
      split_ifs with hnil
      · simp [hnil, newestFirst]
      · simp [hnil, hinf]
    · obtain ⟨n, hn, hshown⟩ := exists_shownPageSize hnan hinf
      rw [concatenated_natCast hcache htimed hn hshown]
      constructor
      · exact fun hroom => .inr ⟨hnan, hinf, hroom⟩
      · rintro (hnil | ⟨-, -, hroom⟩)
        · rw [hnil]
          exact Nat.zero_le _
        · exact hroom

/-- Rows with these times. -/
def timedRows (times : List ℤ) : Value Empty :=
  .array (times.zipIdx.map fun p =>
    .object [("id", .string (toString p.2)), ("timestamp", .number (.fin p.1))])

theorem concatenated_iff_two :
    let log : List (HistoryEvent Empty) := [
      .dispatch none (.loadSuccess (timedRows [5, 7, 5, 5, 9]) .undefined .undefined .nan),
      .dispatch (some 0) (.setPageSize (.number (.fin 2)))]
    ∃ m s, run (step asciiRuntime) {} log = some m ∧ s ∈ m.states ∧ s.pageSize = .fin 2 ∧
      (s.visibleRows asciiRuntime).map TransactionRecord.timestamp = [.fin 5, .fin 7, .fin 5, .fin 5, .fin 9] ∧
      concatenated asciiRuntime m.cache s = .ok (newestFirst (s.visibleRows asciiRuntime)) := by
  intro log
  obtain ⟨m, hm, hend⟩ := (Option.any_eq_true _ _).mp (by decide :
    (run (step asciiRuntime) {} log).any fun m => ∃ s ∈ m.states, s.pageSize = .fin 2 ∧
      (s.visibleRows asciiRuntime).map TransactionRecord.timestamp =
        [.fin 5, .fin 7, .fin 5, .fin 5, .fin 9] ∧
      (∀ tx ∈ s.transactions.records, tx.timestamp.isFinite = true) ∧
      (s.visibleRows asciiRuntime).length ≤ 2 ^ 31 + 1)
  obtain ⟨s, hs, hsize, htimes, htimed, hroom⟩ := of_decide_eq_true hend
  refine ⟨m, s, hm, hs, hsize, htimes, (concatenated_iff hm hs htimed).mpr (.inr ⟨?_, ?_, hroom⟩)⟩
  · rw [hsize]
    exact nofun
  · rw [hsize]
    exact nofun

/-- **Rows are lost** with the page size `NaN`, and **a page fails** with an infinite one. -/
theorem not_concatenated :
    let log (pageSize : Number) : List (HistoryEvent Empty) := [
      .dispatch none (.loadSuccess (timedRows [5]) .undefined .undefined .nan),
      .create (some 0) { transactions := .empty 0, pageSize }]
    (∃ m s, run (step asciiRuntime) {} (log .nan) = some m ∧ s ∈ m.states ∧
      (s.visibleRows asciiRuntime).length = 1 ∧
      concatenated asciiRuntime m.cache s ≠ .ok (newestFirst (s.visibleRows asciiRuntime))) ∧
    ∃ m s, run (step asciiRuntime) {} (log .posInf) = some m ∧ s ∈ m.states ∧
      (s.visibleRows asciiRuntime).length = 1 ∧
      concatenated asciiRuntime m.cache s ≠ .ok (newestFirst (s.visibleRows asciiRuntime)) := by
  intro log
  constructor
  · obtain ⟨m, hm, hend⟩ := (Option.any_eq_true _ _).mp (by decide +kernel :
      (run (step asciiRuntime) {} (log .nan)).any fun m => ∃ s ∈ m.states,
        (s.visibleRows asciiRuntime).length = 1 ∧
          (concatenated asciiRuntime m.cache s).toOption = some [])
    obtain ⟨s, hs, hlen, hnil⟩ := of_decide_eq_true hend
    refine ⟨m, s, hm, hs, hlen, fun hall => ?_⟩
    rw [hall] at hnil
    rw [newestFirst_eq_nil_iff.mp (Option.some.inj hnil)] at hlen
    cases hlen
  · obtain ⟨m, hm, hend⟩ := (Option.any_eq_true _ _).mp (by decide +kernel :
      (run (step asciiRuntime) {} (log .posInf)).any fun m => ∃ s ∈ m.states,
        (s.visibleRows asciiRuntime).length = 1 ∧
          (concatenated asciiRuntime m.cache s).toOption = none)
    obtain ⟨s, hs, hlen, hnone⟩ := of_decide_eq_true hend
    refine ⟨m, s, hm, hs, hlen, fun hall => ?_⟩
    rw [hall] at hnone
    cases hnone

end HistorySession

end StreamFi
