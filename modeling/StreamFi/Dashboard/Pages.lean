import StreamFi.Dashboard.History

/-!
# Pages of the transaction history

The reducer keeps a page and a page size, both from numbers that a caller gives. The page is cut off at
the number of pages.

* `selectTotalPages`: the number of pages that is shown;
* `pages`: the same for a whole page size, with `pageCount_natCast`, `clampNumber_natCast`;
* `Paged`: the invariant of a state; `ActionFits`: the actions that keep it;
* **`visible_iff`**: when every state of a run has a whole page size and a page that is shown.
-/

namespace StreamFi

open Js Run

variable {ι : Type} (rt : DashboardRuntime ι)

/-- `Math.max(1, Math.trunc(state?.pageSize ?? DEFAULT_PAGE_SIZE))`. -/
def shownPageSize (state : Option TransactionHistoryState) : Number :=
  Number.max (.fin 1) ((state.map TransactionHistoryState.pageSize).getD defaultPageSize).trunc

def selectTotalPages (cache : SelectorCache) (state : Option TransactionHistoryState) : Number :=
  pageCount (selectorEntry rt cache state).1.filtered.length (shownPageSize state)

/-! ## Whole page sizes -/

/-- The number of pages for `n` rows; there is at least one. -/
def pages (n pageSize : ℕ) : ℕ := 1 ⊔ ((n + pageSize - 1) / pageSize)

theorem pages_pos (n pageSize : ℕ) : 0 < pages n pageSize := by
  unfold pages
  omega

theorem pages_le {n pageSize : ℕ} (h : 0 < pageSize) : pages n pageSize ≤ n + 1 := by
  refine Nat.max_le.mpr ⟨by omega, ?_⟩
  rw [Nat.div_le_iff_le_mul_add_pred h]
  have hmul := Nat.le_mul_of_pos_left (n + 1) h
  omega

theorem max_one_natCast {n : ℕ} (h : 0 < n) : Number.max (.fin 1) (.fin n) = .fin n := by
  have hone : (1 : ℚ) ≤ n := by exact_mod_cast h
  simp [Number.max, hone]

theorem pageCount_natCast {n pageSize : ℕ} (h : 0 < pageSize) (hn : n < 2 ^ 32) :
    pageCount n (.fin pageSize) = .fin (pages n pageSize : ℕ) :=
  Number.max_ceil_div_natCast h hn

theorem max_zero_sub_one {total : ℕ} (h : 0 < total) (hsmall : total ≤ 2 ^ 53) :
    Number.max (.fin 0) (Number.sub (.fin total) (.fin 1)) = .fin (total - 1 : ℕ) := by
  have hsub := Number.sub_intCast (a := total) (b := 1) (by rw [abs_of_nonneg] <;> omega)
  have hcast : ((total : ℤ) - 1 : ℤ) = ((total - 1 : ℕ) : ℤ) := by omega
  rw [hcast] at hsub
  norm_cast at hsub ⊢
  rw [hsub]
  simp [Number.max]

/-- **A page is cut off** at the last one. -/
theorem clampNumber_natCast {p total : ℕ} (h : 0 < total) (hsmall : total ≤ 2 ^ 53) :
    clampNumber (.fin p) (.fin total) = .fin (min p (total - 1) : ℕ) := by
  have hfloored : (Number.fin (p : ℚ)).lt (.fin 0) = false := by
    rw [Number.lt_fin, decide_eq_false_iff_not, not_lt]
    positivity
  simp only [clampNumber, Number.isFinite, Bool.not_true, Bool.false_eq_true, if_false,
    Number.trunc_natCast, hfloored, max_zero_sub_one h hsmall]
  by_cases hle : p ≤ total - 1
  · rw [Nat.min_eq_left hle, if_neg]
    rw [Number.lt_fin, decide_eq_true_eq, not_lt]
    exact_mod_cast hle
  · rw [Nat.min_eq_right (by omega), if_pos]
    rw [Number.lt_fin, decide_eq_true_eq]
    exact_mod_cast not_le.mp hle

/-- Whatever the number, a page comes of it. -/
theorem clampNumber_lt (x : Number) {total : ℕ} (h : 0 < total) (hsmall : total ≤ 2 ^ 53) :
    ∃ p : ℕ, clampNumber x (.fin total) = .fin p ∧ p < total := by
  cases x with
  | nan | posInf | negInf => exact ⟨0, by simp [clampNumber, Number.isFinite], h⟩
  | fin q =>
    by_cases hq : 0 ≤ q
    · obtain ⟨n, hn⟩ := Int.eq_ofNat_of_zero_le (Int.floor_nonneg.mpr hq)
      have htrunc : Number.trunc (.fin q) = .fin n := by
        rw [Number.trunc, if_pos hq, hn, Int.cast_natCast]
      have hsame : clampNumber (.fin q) (.fin total) = clampNumber (.fin n) (.fin total) := by
        simp only [clampNumber, Number.isFinite, htrunc, Number.trunc_natCast]
      rw [hsame, clampNumber_natCast h hsmall]
      exact ⟨_, rfl, by omega⟩
    · refine ⟨0, ?_, h⟩
      have hceil : ⌈q⌉ ≤ 0 := by
        rw [Int.ceil_le, Int.cast_zero]
        exact (not_le.mp hq).le
      simp only [clampNumber, Number.isFinite, Bool.not_true, Bool.false_eq_true, if_false,
        Number.trunc, if_neg hq, max_zero_sub_one h hsmall]
      split_ifs with hneg hpos
      · simp
      · rw [Number.lt_fin, decide_eq_true_eq] at hpos
        have hceil' : ((⌈q⌉ : ℤ) : ℚ) ≤ 0 := by exact_mod_cast hceil
        exact absurd (hpos.trans_le hceil') (not_lt.mpr (by positivity))
      · rw [Number.lt_fin, decide_eq_true_eq, not_lt] at hneg
        have hzero : ⌈q⌉ = 0 := le_antisymm hceil (by exact_mod_cast hneg)
        rw [hzero]
        simp

/-! ## States with a page that is shown -/

variable {rt} {cache : SelectorCache} {s s' : TransactionHistoryState}

/-- The page size is a positive integer, and the page is one of those that are shown. -/
def Visible (rt : DashboardRuntime ι) (cache : SelectorCache) (s : TransactionHistoryState) : Prop :=
  (∃ n : ℕ, 0 < n ∧ s.pageSize = .fin n) ∧
    (Number.fin 0).le s.page = true ∧ s.page.lt (selectTotalPages rt cache (some s)) = true

/-- The rows that the filters of a state leave. -/
def TransactionHistoryState.visibleRows (rt : DashboardRuntime ι) (s : TransactionHistoryState) :
    List TransactionRecord :=
  filteredRows rt s.filters s.transactions.records

/-- The same by whole numbers, and without the memo. -/
def Paged (rt : DashboardRuntime ι) (s : TransactionHistoryState) : Prop :=
  ∃ pageSize page : ℕ, 0 < pageSize ∧ s.pageSize = .fin pageSize ∧ s.page = .fin page ∧
    page < pages (s.visibleRows rt).length pageSize

theorem visibleRows_length_lt (rt : DashboardRuntime ι) (s : TransactionHistoryState) :
    (s.visibleRows rt).length < 2 ^ 32 :=
  (List.length_filter_le _ _).trans_lt s.transactions.length_lt

/-- What a selector gives for a state. -/
theorem CachedFor.visibleRows_eq (h : CachedFor rt cache s.transactions) :
    (selectorEntry rt cache (some s)).1.filtered = s.visibleRows rt := by
  have hfiltered : CachedFor rt cache (rowsOf (some s)) := h
  exact hfiltered.filtered_eq

theorem shownPageSize_natCast {n : ℕ} (h : 0 < n) (hs : s.pageSize = .fin n) :
    shownPageSize (some s) = .fin n := by
  rw [shownPageSize, Option.map_some, Option.getD_some, hs, Number.trunc_natCast, max_one_natCast h]

theorem selectTotalPages_natCast {n : ℕ} (h : 0 < n) (hs : s.pageSize = .fin n)
    (hcache : CachedFor rt cache s.transactions) :
    selectTotalPages rt cache (some s) = .fin (pages (s.visibleRows rt).length n : ℕ) := by
  rw [selectTotalPages, hcache.visibleRows_eq, shownPageSize_natCast h hs,
    pageCount_natCast h (visibleRows_length_lt rt s)]

theorem visible_iff_paged (hcache : CachedFor rt cache s.transactions) {pageSize page : ℕ}
    (h : 0 < pageSize) (hs : s.pageSize = .fin pageSize) (hpage : s.page = .fin page) :
    Visible rt cache s ↔ page < pages (s.visibleRows rt).length pageSize := by
  rw [Visible, selectTotalPages_natCast h hs hcache, hpage, Number.le_fin, Number.lt_fin,
    decide_eq_true_eq, decide_eq_true_eq, Nat.cast_lt]
  constructor
  · exact fun hvisible => hvisible.2.2
  · exact fun hlt => ⟨⟨pageSize, h, hs⟩, by positivity, hlt⟩

theorem Paged.visible (h : Paged rt s) (hcache : CachedFor rt cache s.transactions) :
    Visible rt cache s := by
  obtain ⟨pageSize, page, hpos, hs, hpage, hlt⟩ := h
  exact (visible_iff_paged hcache hpos hs hpage).mpr hlt

theorem paged_initial (rt : DashboardRuntime ι) (id : ℕ) :
    Paged rt (createInitialTransactionHistoryState id) :=
  ⟨10, 0, by norm_num, rfl, rfl, pages_pos _ _⟩

/-- The first page is shown. -/
theorem Paged.first (h : Paged rt s) (hsize : s'.pageSize = s.pageSize) (hpage : s'.page = .fin 0) :
    Paged rt s' := by
  obtain ⟨pageSize, page, hpos, hs, -, -⟩ := h
  exact ⟨pageSize, 0, hpos, hsize.trans hs, by rw [hpage, Nat.cast_zero], pages_pos _ _⟩

theorem Paged.congr (h : Paged rt s) (hsize : s'.pageSize = s.pageSize) (hpage : s'.page = s.page)
    (hrows : s'.visibleRows rt = s.visibleRows rt) : Paged rt s' := by
  obtain ⟨pageSize, page, hpos, hs, hp, hlt⟩ := h
  exact ⟨pageSize, page, hpos, hsize.trans hs, hpage.trans hp, by rw [hrows]; exact hlt⟩

/-! ## Actions -/

/-- A page size that is given is not between `0` and `1`; and rows that are loaded have the page among
the pages that pass the filters, unless there are no more pages without the filters. -/
def FitsState (rt : DashboardRuntime ι) (current : TransactionHistoryState) :
    TransactionHistoryAction ι → Prop
  | .setPageSize pageSize => ∀ q, numberOf rt pageSize = .ok (.fin q) → 0 < q → 1 ≤ q
  | .loadSuccess payload _ walletAddress _ =>
    let rows := normalizeTransactions rt payload walletAddress
    let visible := filteredRows rt current.filters rows
    rows.length < 2 ^ 32 →
      current.page.lt (pageCount visible.length current.pageSize) = true ∨
        (pageCount rows.length current.pageSize).le (pageCount visible.length current.pageSize) = true
  | _ => True

/-- The same for the state that an action is for. -/
def ActionFits (rt : DashboardRuntime ι) (m : HistorySession)
    (e : Option ℕ × TransactionHistoryAction ι) : Prop :=
  ∀ state, m.stateAt e.1 = some state →
    FitsState rt (state.getD (createInitialTransactionHistoryState m.next)) e.2

/-- A session of actions only. -/
def act (rt : DashboardRuntime ι) (m : HistorySession) (e : Option ℕ × TransactionHistoryAction ι) :
    Option HistorySession :=
  m.step rt (.dispatch e.1 e.2)

section Load

variable {payload receivedAt walletAddress : Value ι} {now : Number} {id pageSize page : ℕ}

/-- What `LOAD_SUCCESS` makes of the page. -/
theorem page_loadSuccess (hpos : 0 < pageSize) (hs : s.pageSize = .fin pageSize)
    (hpage : s.page = .fin page)
    (hload : (reduce rt cache id s (.loadSuccess payload receivedAt walletAddress now)).1 = .ok s') :
    s'.transactions.records = normalizeTransactions rt payload walletAddress ∧
      s'.filters = s.filters ∧ s'.pageSize = .fin pageSize ∧
      s'.page = .fin (min page (pages s'.transactions.records.length pageSize - 1) : ℕ) := by
  simp only [reduce] at hload
  split_ifs at hload with hlt
  · cases hload
    refine ⟨rfl, rfl, hs, ?_⟩
    simp only
    have hle := pages_le (n := (normalizeTransactions rt payload walletAddress).length) hpos
    rw [hs, max_one_natCast hpos, pageCount_natCast hpos hlt, hpage,
      clampNumber_natCast (pages_pos _ _) (by omega)]

theorem fitsState_loadSuccess_iff (hpos : 0 < pageSize) (hs : s.pageSize = .fin pageSize)
    (hpage : s.page = .fin page)
    (hload : (reduce rt cache id s (.loadSuccess payload receivedAt walletAddress now)).1 = .ok s') :
    FitsState rt s (.loadSuccess payload receivedAt walletAddress now) ↔
      min page (pages s'.transactions.records.length pageSize - 1) <
        pages (s'.visibleRows rt).length pageSize := by
  obtain ⟨hrecords, hfilters, -, -⟩ := page_loadSuccess hpos hs hpage hload
  have hlt := s'.transactions.length_lt
  have hvisible := visibleRows_length_lt rt s'
  have htotal := pages_pos s'.transactions.records.length pageSize
  rw [TransactionHistoryState.visibleRows, hfilters] at hvisible ⊢
  rw [hrecords] at hlt htotal hvisible ⊢
  rw [FitsState, hs, hpage, pageCount_natCast hpos hlt, pageCount_natCast hpos hvisible, Number.lt_fin,
    Number.le_fin, decide_eq_true_eq, decide_eq_true_eq, Nat.cast_lt, Nat.cast_le]
  constructor
  · intro hfits
    have hfits := hfits hlt
    omega
  · intro hmin _
    omega

end Load

theorem pageSizeOf_iff (x : Number) :
    (∃ n : ℕ, 0 < n ∧ pageSizeOf x = .fin n) ↔ ∀ q, x = .fin q → 0 < q → 1 ≤ q := by
  have hdefault : pageSizeOf x = defaultPageSize → ∃ n : ℕ, 0 < n ∧ pageSizeOf x = .fin n := by
    intro h
    exact ⟨10, by norm_num, h⟩
  cases x with
  | nan | posInf | negInf => exact ⟨fun _ q hq => (by cases hq), fun _ => hdefault rfl⟩
  | fin q =>
    by_cases hq : 0 < q
    · have htrunc : pageSizeOf (.fin q) = .fin ⌊q⌋ := by
        rw [pageSizeOf, if_pos (by simp [Number.isFinite, hq]), Number.trunc, if_pos hq.le]
      rw [htrunc]
      constructor
      · rintro ⟨n, hn, heq⟩ r hr _
        cases hr
        have hfloor : ((⌊q⌋ : ℤ) : ℚ) = n := Number.fin.inj heq
        have hone : (1 : ℚ) ≤ n := by exact_mod_cast hn
        exact (hone.trans_eq hfloor.symm).trans (Int.floor_le q)
      · intro h
        have hfloor : 1 ≤ ⌊q⌋ := by
          rw [Int.le_floor, Int.cast_one]
          exact h q rfl hq
        obtain ⟨n, hn⟩ := Int.eq_ofNat_of_zero_le (zero_le_one.trans hfloor)
        exact ⟨n, by omega, by rw [hn, Int.cast_natCast]⟩
    · constructor
      · intro _ r hr hr'
        cases hr
        exact absurd hr' hq
      · intro _
        refine hdefault ?_
        rw [pageSizeOf, if_neg (by simp [Number.isFinite, hq])]

/-- **What the reducer keeps**: the page and the page size, when the action fits. -/
theorem paged_reduce {id : ℕ} {action : TransactionHistoryAction ι} (h : Paged rt s)
    (hcache : CachedFor rt cache s.transactions) (hfits : FitsState rt s action)
    (hs : (reduce rt cache id s action).1 = .ok s') : Paged rt s' := by
  cases action with
  | loadStart =>
    cases hs
    exact h.congr rfl rfl rfl
  | loadSuccess payload receivedAt walletAddress now =>
    obtain ⟨pageSize, page, hpos, hsize, hpage, -⟩ := h
    obtain ⟨-, -, hsize', hpage'⟩ := page_loadSuccess hpos hsize hpage hs
    have hlt := (fitsState_loadSuccess_iff hpos hsize hpage hs).mp hfits
    exact ⟨pageSize, _, hpos, hsize', hpage', hlt⟩
  | loadFailure error =>
    obtain ⟨message, -, rfl⟩ := map_ok_iff.mp hs
    exact h.congr rfl rfl rfl
  | setFilter filter =>
    cases hs
    exact h.first rfl rfl
  | setPage page =>
    obtain ⟨pageSize, old, hpos, hsize, -, -⟩ := h
    obtain ⟨clamped, hclamped, rfl⟩ := map_ok_iff.mp hs
    obtain ⟨numeric, -, rfl⟩ := map_ok_iff.mp hclamped
    have hvisible : selectFilteredTransactions rt cache (some s) = s.visibleRows rt :=
      hcache.visibleRows_eq
    have hlt := visibleRows_length_lt rt s
    have hle := pages_le (n := (s.visibleRows rt).length) hpos
    obtain ⟨p, hp, hpt⟩ := clampNumber_lt numeric (pages_pos (s.visibleRows rt).length pageSize)
      (by omega)
    refine ⟨pageSize, p, hpos, hsize, ?_, hpt⟩
    simp only
    rw [hvisible, hsize, max_one_natCast hpos, pageCount_natCast hpos hlt, hp]
  | setPageSize pageSize =>
    obtain ⟨numeric, hnumeric, rfl⟩ := map_ok_iff.mp hs
    obtain ⟨n, hn, hsize⟩ := (pageSizeOf_iff numeric).mpr fun q hq => hfits q (hq ▸ hnumeric)
    exact ⟨n, 0, hn, hsize, by rw [Nat.cast_zero], pages_pos _ _⟩
  | reset =>
    cases hs
    exact paged_initial rt id
  | other =>
    cases hs
    exact h

/-- An action that does not fit leaves a state whose page is not shown, or whose page size is `0`. -/
theorem not_visible_reduce {id : ℕ} {action : TransactionHistoryAction ι} (h : Paged rt s)
    (hfits : ¬ FitsState rt s action) : ∃ s', (reduce rt cache id s action).1 = .ok s' ∧
      ∀ cache', CachedFor rt cache' s'.transactions → ¬ Visible rt cache' s' := by
  cases action with
  | loadSuccess payload receivedAt walletAddress now =>
    obtain ⟨pageSize, page, hpos, hsize, hpage, -⟩ := h
    have hlt : (normalizeTransactions rt payload walletAddress).length < 2 ^ 32 := by
      by_contra hlong
      exact hfits fun hshort => absurd hshort hlong
    obtain ⟨s', hs⟩ : ∃ s', (reduce rt cache id s
        (.loadSuccess payload receivedAt walletAddress now)).1 = .ok s' := by
      simp only [reduce]
      rw [dif_pos hlt]
      exact ⟨_, rfl⟩
    obtain ⟨-, -, hsize', hpage'⟩ := page_loadSuccess hpos hsize hpage hs
    rw [fitsState_loadSuccess_iff hpos hsize hpage hs] at hfits
    refine ⟨s', hs, fun cache' hcache' hvisible => hfits ?_⟩
    exact (visible_iff_paged hcache' hpos hsize' hpage').mp hvisible
  | setPageSize pageSize =>
    simp only [FitsState, not_forall] at hfits
    obtain ⟨q, hq, hpos, hlow⟩ := hfits
    refine ⟨{ s with pageSize := pageSizeOf (.fin q), page := .fin 0 }, ?_, ?_⟩
    · simp only [reduce, hq]
      rfl
    · intro cache' _ hvisible
      exact hlow ((pageSizeOf_iff (.fin q)).mp hvisible.1 q rfl hpos)
  | loadStart => exact absurd trivial hfits
  | loadFailure error => exact absurd trivial hfits
  | setFilter filter => exact absurd trivial hfits
  | setPage page => exact absurd trivial hfits
  | reset => exact absurd trivial hfits
  | other => exact absurd trivial hfits

/-! ## Runs -/

namespace HistorySession

variable {m m' : HistorySession} {e : Option ℕ × TransactionHistoryAction ι}

/-- Every state has a page size and a page that are in order. -/
def AllVisible (rt : DashboardRuntime ι) (m : HistorySession) : Prop :=
  ∀ s ∈ m.states, Visible rt m.cache s

/-- The invariant of a session of actions. -/
structure AllPaged (rt : DashboardRuntime ι) (m : HistorySession) : Prop where
  coherent : Coherent rt m.cache m.next m.arrays
  paged : ∀ s ∈ m.states, Paged rt s

theorem cachedFor (h : Coherent rt m.cache m.next m.arrays) (hs : s ∈ m.states) :
    CachedFor rt m.cache s.transactions :=
  h.cached _ (List.mem_cons_of_mem _ (List.mem_map_of_mem hs))

theorem AllPaged.allVisible (h : AllPaged rt m) : m.AllVisible rt :=
  fun s hs => (h.paged s hs).visible (cachedFor h.coherent hs)

/-- The state that an action is for. -/
theorem AllPaged.current (h : AllPaged rt m) {i : Option ℕ} {state : Option TransactionHistoryState}
    (hstate : m.stateAt i = some state) :
    Paged rt (state.getD (createInitialTransactionHistoryState m.next)) ∧
      CachedFor rt m.cache (state.getD (createInitialTransactionHistoryState m.next)).transactions := by
  cases i with
  | none =>
    cases hstate
    exact ⟨paged_initial rt m.next, (h.coherent.fresh rfl).cached _ List.mem_cons_self⟩
  | some i =>
    obtain ⟨s, hs, rfl⟩ := Option.map_eq_some_iff.mp hstate
    have hmem := List.mem_of_getElem? hs
    exact ⟨h.paged s hmem, cachedFor h.coherent hmem⟩

theorem AllPaged.act (h : AllPaged rt m) (hfits : ActionFits rt m e) (he : act rt m e = some m') :
    AllPaged rt m' := by
  refine ⟨coherent_step h.coherent he, ?_⟩
  obtain ⟨state, hstate, rfl⟩ := Option.map_eq_some_iff.mp he
  obtain ⟨hpaged, hcache⟩ := h.current hstate
  intro s hs
  simp only [reduced] at hs
  split at hs
  · rename_i new hnew
    rw [List.mem_append, List.mem_singleton] at hs
    rcases hs with hold | rfl
    · exact h.paged s hold
    · exact paged_reduce hpaged hcache (hfits state hstate) hnew
  · exact h.paged s hs

theorem AllPaged.not_allVisible (h : AllPaged rt m) (hfits : ¬ ActionFits rt m e)
    (he : StreamFi.act rt m e = some m') : ¬ m'.AllVisible rt := by
  have hcoherent := coherent_step h.coherent he
  obtain ⟨state, hstate, rfl⟩ := Option.map_eq_some_iff.mp he
  obtain ⟨hpaged, -⟩ := h.current hstate
  have hbad : ¬ FitsState rt (state.getD (createInitialTransactionHistoryState m.next)) e.2 := by
    intro hfit
    apply hfits
    intro state' hstate'
    cases hstate.symm.trans hstate'
    exact hfit
  obtain ⟨s', hs', hnot⟩ := not_visible_reduce hpaged hbad
  have hmem : s' ∈ (m.reduced rt state e.2).states := by
    have hresult : (transactionHistoryReducer rt m.cache m.next state e.2).1 = .ok s' := hs'
    simp only [reduced, hresult]
    exact List.mem_append_right _ List.mem_cons_self
  intro hall
  exact hnot _ (cachedFor hcoherent hmem) (hall s' hmem)

/-- **The page is always shown**, of a page size that is a positive integer, exactly in the runs whose
actions all fit. -/
theorem visible_iff {log : List (Option ℕ × TransactionHistoryAction ι)}
    (h : run (StreamFi.act rt) {} log = some m) :
    Throughout (StreamFi.act rt) (AllVisible rt) {} log ↔
      EachStep (StreamFi.act rt) (ActionFits rt) {} log :=
  throughout_iff_eachStep (I := AllPaged rt) (fun _ hm => hm.allVisible)
    ⟨coherent_init, fun _ hs => absurd hs List.not_mem_nil⟩ (fun _ _ _ hm hfits he => hm.act hfits he)
    (fun _ _ _ hm hfits he => hm.not_allVisible hfits he) h

/-- A test for `ActionFits`. -/
def actionFitsCheck (rt : DashboardRuntime ι) (m : HistorySession)
    (e : Option ℕ × TransactionHistoryAction ι) : Bool :=
  (m.stateAt e.1).all fun state =>
    let current := state.getD (createInitialTransactionHistoryState m.next)
    match e.2 with
    | .setPageSize pageSize => match numberOf rt pageSize with
      | .ok (.fin q) => q ≤ 0 || 1 ≤ q
      | _ => true
    | .loadSuccess payload _ walletAddress _ =>
      let rows := normalizeTransactions rt payload walletAddress
      let visible := filteredRows rt current.filters rows
      current.page.lt (pageCount visible.length current.pageSize) ||
        (pageCount rows.length current.pageSize).le (pageCount visible.length current.pageSize)
    | _ => true

theorem actionFits_of_check (h : actionFitsCheck rt m e = true) : ActionFits rt m e := by
  intro state hstate
  obtain ⟨i, action⟩ := e
  simp only [actionFitsCheck, hstate, Option.all_some] at h
  cases action with
  | setPageSize pageSize =>
    intro q hq hpos
    simp only [hq, Bool.or_eq_true, decide_eq_true_eq] at h
    exact h.resolve_left (not_le.mpr hpos)
  | loadSuccess payload receivedAt walletAddress now =>
    intro _
    exact Bool.or_eq_true_iff.mp h
  | loadStart => trivial
  | loadFailure error => trivial
  | setFilter filter => trivial
  | setPage page => trivial
  | reset => trivial
  | other => trivial

/-- Rows with these statuses. -/
def statusRows (statuses : List String) : Value Empty :=
  .array (statuses.zipIdx.map fun p =>
    .object [("id", .string (toString p.2)), ("status", .string p.1)])

theorem visible_iff_two :
    let load (statuses : List String) : TransactionHistoryAction Empty :=
      .loadSuccess (statusRows statuses) .undefined .undefined .nan
    let log : List (Option ℕ × TransactionHistoryAction Empty) := [(none, .setPageSize (.string "1.5")),
      (some 0, load ["PENDING", "FAILED", "PENDING"]),
      (some 1, .setFilter (.object [("status", .string "PENDING")])), (some 2, .setPage (.number (.fin 7))),
      (some 3, load ["PENDING", "PENDING", "FAILED", "FAILED"])]
    ∃ m, run (StreamFi.act asciiRuntime) {} log = some m ∧
      m.states.map TransactionHistoryState.page = [.fin 0, .fin 0, .fin 0, .fin 1, .fin 1] ∧
      Throughout (StreamFi.act asciiRuntime) (AllVisible asciiRuntime) {} log := by
  intro load log
  obtain ⟨m, hm, hend⟩ := (Option.any_eq_true _ _).mp (by decide +kernel :
    (run (StreamFi.act asciiRuntime) {} log).any fun m =>
      m.states.map TransactionHistoryState.page = [.fin 0, .fin 0, .fin 0, .fin 1, .fin 1])
  exact ⟨m, hm, of_decide_eq_true hend,
    (visible_iff hm).mpr (.of_allSteps (fun _ _ => actionFits_of_check) (by decide +kernel))⟩

/-- **A page size of `0`**, and **a page behind the last one**: the rows that are loaded are counted
without the filter. -/
theorem not_allVisible :
    let load (statuses : List String) : TransactionHistoryAction Empty :=
      .loadSuccess (statusRows statuses) .undefined .undefined .nan
    (∃ m, run (StreamFi.act asciiRuntime) {} [(none, .setPageSize (.number (.fin (1 / 2))))] = some m ∧
      ¬ m.AllVisible asciiRuntime) ∧
    ∃ m, run (StreamFi.act asciiRuntime) {} [(none, .setPageSize (.number (.fin 1))),
        (some 0, load ["PENDING", "PENDING", "PENDING"]),
        (some 1, .setFilter (.object [("status", .string "PENDING")])),
        (some 2, .setPage (.number (.fin 2))), (some 3, load ["PENDING", "FAILED", "FAILED"])] = some m ∧
      ¬ m.AllVisible asciiRuntime := by
  intro load
  constructor
  · obtain ⟨m, hm, hend⟩ := (Option.any_eq_true _ _).mp (by decide +kernel :
      (run (StreamFi.act asciiRuntime) {} [(none, .setPageSize (.number (.fin (1 / 2))))]).any fun m =>
        ∃ s ∈ m.states, s.pageSize = .fin 0)
    obtain ⟨s, hs, hsize⟩ := of_decide_eq_true hend
    refine ⟨m, hm, fun hall => ?_⟩
    obtain ⟨⟨n, hn, hn'⟩, -⟩ := hall s hs
    have hzero : (0 : ℚ) = n := Number.fin.inj (hsize.symm.trans hn')
    exact absurd (by exact_mod_cast hzero.symm : n = 0) hn.ne'
  · obtain ⟨m, hm, hend⟩ := (Option.any_eq_true _ _).mp (by decide +kernel :
      (run (StreamFi.act asciiRuntime) {} [(none, .setPageSize (.number (.fin 1))),
        (some 0, load ["PENDING", "PENDING", "PENDING"]),
        (some 1, .setFilter (.object [("status", .string "PENDING")])),
        (some 2, .setPage (.number (.fin 2))), (some 3, load ["PENDING", "FAILED", "FAILED"])]).any fun m =>
          ∃ s ∈ m.states, s.page.lt (selectTotalPages asciiRuntime m.cache (some s)) = false)
    obtain ⟨s, hs, hpage⟩ := of_decide_eq_true hend
    refine ⟨m, hm, fun hall => ?_⟩
    exact absurd (hpage.symm.trans (hall s hs).2.2) Bool.false_ne_true

end HistorySession

end StreamFi
