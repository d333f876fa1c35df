import StreamFi.Dashboard.Records
import StreamFi.Js.Rounding
import StreamFi.Js.Reading
import StreamFi.Js.Map
import StreamFi.Run.Pool

/-!
# The transaction history

A reducer takes the state of the view through actions with payloads of unknown type. The selectors share
a memo of the filtered rows: a `WeakMap` whose keys are the arrays of rows, by identity, with the
signature of the filters.

* `transactionHistoryReducer`, `selectorEntry`: the reducer, and the filter with its memo;
* `HistorySession.step`: states that are made and reduced, and read by selectors, in any order;
* **`signature_injective`**: the signature tells filters apart;
* `Coherent`: the invariant of the memo; **`filtered_eq_filteredRows`**: what the memo gives.
-/

namespace StreamFi

open Js Run

/-! ## States -/

/-- The filters; `none` is `'ALL'`. -/
structure TransactionFilters where
  status : Option TransactionStatus := none
  kind : Option TransactionKind := none
  direction : Option TransactionDirection := none
  search : String := ""
  deriving DecidableEq

def initialTransactionFilters : TransactionFilters := {}

/-- An array of rows: its identity, and its items, of which an array has less than `2 ^ 32`. -/
structure TransactionRows where
  id : ℕ
  records : List TransactionRecord
  length_lt : records.length < 2 ^ 32
  deriving DecidableEq

def TransactionRows.empty (id : ℕ) : TransactionRows := ⟨id, [], Nat.two_pow_pos 32⟩

def defaultPageSize : Number := .fin 10

structure TransactionHistoryState where
  transactions : TransactionRows
  filters : TransactionFilters := initialTransactionFilters
  page : Number := .fin 0
  pageSize : Number := defaultPageSize
  loading : Bool := false
  error : Option String := none
  lastUpdated : Number := .fin 0
  deriving DecidableEq

/-- `createInitialTransactionHistoryState()`, where `id` is the identity of the new array. -/
def createInitialTransactionHistoryState (id : ℕ) : TransactionHistoryState where
  transactions := .empty id

/-- `NO_TRANSACTIONS`, the array that selectors read when there is no state. -/
def noTransactions : TransactionRows := .empty 0

variable {ι : Type} (rt : DashboardRuntime ι)

/-! ## The filter -/

def filterText {τ : Type} (text : τ → String) : Option τ → String
  | none => "ALL"
  | some t => text t

/-- The text that is searched for. -/
def TransactionFilters.searchText (f : TransactionFilters) : String :=
  rt.toLowerCase (String.ofList (trim f.search.toList))

def signature (f : TransactionFilters) : String :=
  filterText TransactionStatus.text f.status ++ " " ++ filterText TransactionKind.text f.kind ++ " " ++
    filterText TransactionDirection.text f.direction ++ " " ++ f.searchText rt

/-- Whether a row passes the filters. -/
def passes (f : TransactionFilters) (tx : TransactionRecord) : Bool :=
  let search := f.searchText rt
  if f.status.any fun status => tx.status ≠ status then false
  else if f.kind.any fun kind => tx.kind ≠ kind then false
  else if f.direction.any fun direction => tx.direction ≠ direction then false
  else if search = "" then true
  else [tx.hash, tx.streamId, tx.counterparty, tx.asset].any fun field =>
    search.toList <:+: (rt.toLowerCase field).toList

/-- The rows that pass the filters, from scratch. -/
def filteredRows (f : TransactionFilters) (records : List TransactionRecord) : List TransactionRecord :=
  records.filter (passes rt f)

structure SelectorCacheEntry where
  signature : String
  filtered : List TransactionRecord
  deriving DecidableEq

abbrev SelectorCache := Map ℕ SelectorCacheEntry

/-- The array that selectors read. -/
def rowsOf (state : Option TransactionHistoryState) : TransactionRows :=
  (state.map TransactionHistoryState.transactions).getD noTransactions

def filtersOf (state : Option TransactionHistoryState) : TransactionFilters :=
  (state.map TransactionHistoryState.filters).getD initialTransactionFilters

def selectorEntry (cache : SelectorCache) (state : Option TransactionHistoryState) :
    SelectorCacheEntry × SelectorCache :=
  let entry : SelectorCacheEntry := {
    signature := signature rt (filtersOf state)
    filtered := filteredRows rt (filtersOf state) (rowsOf state).records }
  match cache.get (rowsOf state).id with
  | some cached =>
    if cached.signature = entry.signature then (cached, cache)
    else (entry, cache.set (rowsOf state).id entry)
  | none => (entry, cache.set (rowsOf state).id entry)

def selectFilteredTransactions (cache : SelectorCache) (state : Option TransactionHistoryState) :
    List TransactionRecord :=
  (selectorEntry rt cache state).1.filtered

/-! ## The reducer -/

/-- A page that a number stands for. -/
def clampNumber (numeric totalPages : Number) : Number :=
  if !numeric.isFinite then .fin 0
  else
    let floored := numeric.trunc
    if floored.lt (.fin 0) then .fin 0
    else
      let maxPage := Number.max (.fin 0) (totalPages.sub (.fin 1))
      if maxPage.lt floored then maxPage else floored

def clampPage (page : Value ι) (totalPages : Number) : Except Thrown Number :=
  (numberOf rt page).map fun numeric => clampNumber numeric totalPages

/-- `Math.max(1, Math.ceil(length / pageSize))`. -/
def pageCount (length : ℕ) (pageSize : Number) : Number :=
  Number.max (.fin 1) (Number.ceil (Number.div (.fin length) pageSize))

/-- The message of what was thrown, or is an error to somebody. -/
def toErrorMessage (error : Value ι) (fallback : String) : Except Thrown String :=
  let ofObject : String := match property rt error "message" with
    | .string m => if trim m.toList ≠ [] then m else fallback
    | _ => fallback
  match error with
  | .string s => .ok (if trim s.toList ≠ [] then s else fallback)
  | .host x =>
    if rt.isError x then match rt.read x "message" with
      | .string m => .ok (if trim m.toList ≠ [] then m else fallback)
      | _ => .error (errorOf "TypeError" "error.message.trim is not a function")
    else .ok ofObject
  | .object _ => .ok ofObject
  | _ => .ok fallback

/-- An action. `now` is the time when it is reduced; `other` is no action, or one of another type. -/
inductive TransactionHistoryAction (ι : Type) where
  | loadStart
  | loadSuccess (payload receivedAt walletAddress : Value ι) (now : Number)
  | loadFailure (error : Value ι)
  | setFilter (filter : Value ι)
  | setPage (page : Value ι)
  | setPageSize (pageSize : Value ι)
  | reset
  | other

/-- The filters, with the valid ones of `raw`. -/
def mergeFilters (f : TransactionFilters) (raw : Value ι) : TransactionFilters :=
  let merge {τ : Type} (text : τ → String) (allowed : List τ) (old : Option τ) (key : String) : Option τ :=
    match property rt raw key with
    | .undefined => old
    | value => asEnum rt (filterText text) value (allowed.map some) none
  { status := merge TransactionStatus.text validStatuses f.status "status"
    kind := merge TransactionKind.text validKinds f.kind "kind"
    direction := merge TransactionDirection.text validDirections f.direction "direction"
    search := match property rt raw "search" with
      | .undefined => f.search
      | value => asString value "" }

/-- The page size that a number stands for. -/
def pageSizeOf (numeric : Number) : Number :=
  if numeric.isFinite && (Number.fin 0).lt numeric then numeric.trunc else defaultPageSize

/-- The reducer on a state; `id` is the identity of an array that it makes. -/
def reduce (cache : SelectorCache) (id : ℕ) (current : TransactionHistoryState) :
    TransactionHistoryAction ι → Except Thrown TransactionHistoryState × SelectorCache
  | .loadStart => (.ok { current with loading := true, error := none }, cache)
  | .loadSuccess payload receivedAt walletAddress now =>
    let transactions := normalizeTransactions rt payload walletAddress
    let totalPages := pageCount transactions.length (Number.max (.fin 1) current.pageSize)
    if h : transactions.length < 2 ^ 32 then
      (.ok { current with
        transactions := ⟨id, transactions, h⟩
        loading := false
        error := none
        page := clampNumber current.page totalPages
        lastUpdated := match receivedAt with
          | .number (.fin q) => .fin q
          | _ => now }, cache)
    else (.error (errorOf "RangeError" "Invalid array length"), cache)
  | .loadFailure error =>
    ((toErrorMessage rt error "Failed to load transaction history.").map fun message =>
      { current with loading := false, error := some message }, cache)
  | .setFilter filter =>
    (.ok { current with
      filters := mergeFilters rt current.filters (nullish filter (.object [])), page := .fin 0 }, cache)
  | .setPage page =>
    let visible := selectFilteredTransactions rt cache (some current)
    let totalPages := pageCount visible.length (Number.max (.fin 1) current.pageSize)
    ((clampPage rt page totalPages).map fun page => { current with page },
      (selectorEntry rt cache (some current)).2)
  | .setPageSize pageSize =>
    ((numberOf rt pageSize).map fun numeric =>
      { current with pageSize := pageSizeOf numeric, page := .fin 0 }, cache)
  | .reset => (.ok (createInitialTransactionHistoryState id), cache)
  | .other => (.ok current, cache)

def transactionHistoryReducer (cache : SelectorCache) (id : ℕ) (state : Option TransactionHistoryState)
    (action : TransactionHistoryAction ι) : Except Thrown TransactionHistoryState × SelectorCache :=
  reduce rt cache (id + 1) (state.getD (createInitialTransactionHistoryState id)) action

/-! ## Sessions -/

/-- The states so far, the memo, and the identity of the next array. -/
structure HistorySession where
  states : List TransactionHistoryState := []
  cache : SelectorCache := Map.empty
  next : ℕ := 1

/-- What happens: a state is made, with an array of its own or that of another state; a state, or
`undefined`, is reduced, or read by a selector. -/
inductive HistoryEvent (ι : Type) where
  | create (source : Option ℕ) (state : TransactionHistoryState)
  | dispatch (i : Option ℕ) (action : TransactionHistoryAction ι)
  | select (i : Option ℕ)

namespace HistorySession

def stateAt (m : HistorySession) : Option ℕ → Option (Option TransactionHistoryState)
  | none => some none
  | some i => m.states[i]?.map some

/-- The reducer on a state; nothing comes of it when it throws. -/
def reduced (m : HistorySession) (state : Option TransactionHistoryState)
    (action : TransactionHistoryAction ι) : HistorySession where
  states := match (transactionHistoryReducer rt m.cache m.next state action).1 with
    | .ok s => m.states ++ [s]
    | .error _ => m.states
  cache := (transactionHistoryReducer rt m.cache m.next state action).2
  next := m.next + 2

def step (m : HistorySession) : HistoryEvent ι → Option HistorySession
  | .create none s =>
    let transactions := { s.transactions with id := m.next }
    some { m with states := m.states ++ [{ s with transactions }], next := m.next + 1 }
  | .create (some i) s =>
    (m.states[i]?).map fun t =>
      { m with states := m.states ++ [{ s with transactions := t.transactions }] }
  | .dispatch i action => (m.stateAt i).map fun state => m.reduced rt state action
  | .select i => (m.stateAt i).map fun state => { m with cache := (selectorEntry rt m.cache state).2 }

end HistorySession

/-! ## Signatures -/

variable {rt}

/-- The texts of an enumeration can be told, from each other and from `'ALL'`, and have no blanks. -/
structure Plain {τ : Type} (text : τ → String) : Prop where
  injective : Function.Injective text
  ne_all : ∀ t, text t ≠ "ALL"
  no_space : ∀ t, ' ' ∉ (text t).toList

theorem plain_status : Plain TransactionStatus.text where
  injective x y h := by
    cases x <;> cases y <;> first | rfl | simp [TransactionStatus.text] at h
  ne_all x := by cases x <;> decide
  no_space x := by cases x <;> decide

theorem plain_kind : Plain TransactionKind.text where
  injective x y h := by
    cases x <;> cases y <;> first | rfl | simp [TransactionKind.text] at h
  ne_all x := by cases x <;> decide
  no_space x := by cases x <;> decide

theorem plain_direction : Plain TransactionDirection.text where
  injective x y h := by
    cases x <;> cases y <;> first | rfl | simp [TransactionDirection.text] at h
  ne_all x := by cases x <;> decide
  no_space x := by cases x <;> decide

section Plain

variable {τ : Type} {text : τ → String}

theorem Plain.filterText_no_space (h : Plain text) (x : Option τ) : ' ' ∉ (filterText text x).toList := by
  cases x with
  | none =>
    show ' ' ∉ "ALL".toList
    decide
  | some t => exact h.no_space t

theorem Plain.filterText_injective (h : Plain text) : Function.Injective (filterText text) := by
  intro x y hxy
  cases x with
  | none => cases y with
    | none => rfl
    | some t => exact absurd hxy.symm (h.ne_all t)
  | some t => cases y with
    | none => exact absurd hxy (h.ne_all t)
    | some u => exact congrArg some (h.injective hxy)

end Plain

theorem toList_signature (f : TransactionFilters) : (signature rt f).toList =
    (filterText TransactionStatus.text f.status).toList ++ ' ' ::
      ((filterText TransactionKind.text f.kind).toList ++ ' ' ::
        ((filterText TransactionDirection.text f.direction).toList ++ ' ' ::
          (f.searchText rt).toList)) := by
  have hspace : " ".toList = [' '] := rfl
  simp only [signature, String.toList_append, hspace, List.append_assoc, List.cons_append,
    List.nil_append]

/-- **The signature tells filters apart**, up to the text that is searched for. -/
theorem signature_injective {f g : TransactionFilters} (h : signature rt f = signature rt g) :
    f.status = g.status ∧ f.kind = g.kind ∧ f.direction = g.direction ∧
      f.searchText rt = g.searchText rt := by
  have hlist := congrArg String.toList h
  rw [toList_signature, toList_signature] at hlist
  obtain ⟨hstatus, hlist⟩ := cons_append_inj (plain_status.filterText_no_space _)
    (plain_status.filterText_no_space _) hlist
  obtain ⟨hkind, hlist⟩ := cons_append_inj (plain_kind.filterText_no_space _)
    (plain_kind.filterText_no_space _) hlist
  obtain ⟨hdirection, hsearch⟩ := cons_append_inj (plain_direction.filterText_no_space _)
    (plain_direction.filterText_no_space _) hlist
  exact ⟨plain_status.filterText_injective (String.toList_inj.mp hstatus),
    plain_kind.filterText_injective (String.toList_inj.mp hkind),
    plain_direction.filterText_injective (String.toList_inj.mp hdirection),
    String.toList_inj.mp hsearch⟩

/-- What the signature determines. -/
theorem filteredRows_congr {f g : TransactionFilters} (h : signature rt f = signature rt g)
    (records : List TransactionRecord) : filteredRows rt f records = filteredRows rt g records := by
  obtain ⟨hstatus, hkind, hdirection, hsearch⟩ := signature_injective h
  refine List.filter_congr fun tx _ => ?_
  simp only [passes, hstatus, hkind, hdirection, hsearch]

/-! ## The memo -/

variable {cache : SelectorCache} {rows : TransactionRows} {state : Option TransactionHistoryState}
  {known : List TransactionRows} {next : ℕ}

/-- The memo's entry for an array, if there is one, was computed from its items. -/
def CachedFor (rt : DashboardRuntime ι) (cache : SelectorCache) (rows : TransactionRows) : Prop :=
  ∀ entry, cache.get rows.id = some entry → ∃ f : TransactionFilters,
    entry.signature = signature rt f ∧ entry.filtered = filteredRows rt f rows.records

theorem CachedFor.filtered_eq (h : CachedFor rt cache (rowsOf state)) :
    (selectorEntry rt cache state).1.filtered =
      filteredRows rt (filtersOf state) (rowsOf state).records := by
  simp only [selectorEntry]
  split
  · rename_i cached hget
    obtain ⟨f, hsignature, hfiltered⟩ := h cached hget
    split_ifs with hsame
    · rw [hfiltered]
      exact filteredRows_congr (hsignature.symm.trans hsame) _
    · rfl
  · rfl

/-- What the memo has after a selector. -/
theorem get_selectorEntry (rt : DashboardRuntime ι) (cache : SelectorCache)
    (state : Option TransactionHistoryState) (id : ℕ) :
    (selectorEntry rt cache state).2.get id = cache.get id ∨
      id = (rowsOf state).id ∧ (selectorEntry rt cache state).2.get id = some {
      signature := signature rt (filtersOf state)
      filtered := filteredRows rt (filtersOf state) (rowsOf state).records } := by
  have hset (entry : SelectorCacheEntry) : (cache.set (rowsOf state).id entry).get id = cache.get id ∨
      id = (rowsOf state).id ∧ (cache.set (rowsOf state).id entry).get id = some entry := by
    by_cases hid : id = (rowsOf state).id
    · exact .inr ⟨hid, by rw [Map.get_set, if_pos hid]⟩
    · exact .inl (by rw [Map.get_set, if_neg hid])
  simp only [selectorEntry]
  split
  · split_ifs
    · exact .inl rfl
    · exact hset _
  · exact hset _

/-- The memo is sound for the arrays that are known, of which no two have the same identity. -/
structure Coherent (rt : DashboardRuntime ι) (cache : SelectorCache) (next : ℕ)
    (known : List TransactionRows) : Prop where
  cached : ∀ rows ∈ known, CachedFor rt cache rows
  same : ∀ rows ∈ known, ∀ rows' ∈ known, rows.id = rows'.id → rows.records = rows'.records
  old : ∀ rows ∈ known, rows.id < next
  unused : ∀ id, next ≤ id → cache.get id = none

theorem Coherent.mono {next' : ℕ} {known' : List TransactionRows} (h : Coherent rt cache next known)
    (hnext : next ≤ next') (hsub : known' ⊆ known) : Coherent rt cache next' known' where
  cached rows hrows := h.cached rows (hsub hrows)
  same rows hrows rows' hrows' := h.same rows (hsub hrows) rows' (hsub hrows')
  old rows hrows := (h.old rows (hsub hrows)).trans_le hnext
  unused id hid := h.unused id (hnext.trans hid)

/-- A new array. -/
theorem Coherent.fresh (h : Coherent rt cache next known) (hid : rows.id = next) :
    Coherent rt cache (next + 1) (rows :: known) where
  cached rows' hrows' entry hget := by
    cases hrows' with
    | head =>
      rw [h.unused rows.id hid.ge] at hget
      cases hget
    | tail _ hknown => exact h.cached rows' hknown entry hget
  same rows₁ h₁ rows₂ h₂ heq := by
    cases h₁ with
    | head => cases h₂ with
      | head => rfl
      | tail _ h₂ => exact absurd (h.old rows₂ h₂) (by omega)
    | tail _ h₁ => cases h₂ with
      | head => exact absurd (h.old rows₁ h₁) (by omega)
      | tail _ h₂ => exact h.same rows₁ h₁ rows₂ h₂ heq
  old rows' hrows' := by
    cases hrows' with
    | head => exact hid ▸ Nat.lt_succ_self rows.id
    | tail _ hknown => exact (h.old rows' hknown).trans (Nat.lt_succ_self next)
  unused id hnext := h.unused id (by omega)

/-- A selector, on a known array. -/
theorem Coherent.select (h : Coherent rt cache next known) (hknown : rowsOf state ∈ known) :
    Coherent rt (selectorEntry rt cache state).2 next known where
  cached rows hrows entry hget := by
    rcases get_selectorEntry rt cache state rows.id with hsame | ⟨hid, hnew⟩
    · rw [hsame] at hget
      exact h.cached rows hrows entry hget
    · rw [hnew] at hget
      cases hget
      exact ⟨filtersOf state, rfl, by rw [h.same rows hrows _ hknown hid]⟩
  same := h.same
  old := h.old
  unused id hid := by
    rcases get_selectorEntry rt cache state id with hsame | ⟨heq, -⟩
    · rw [hsame]
      exact h.unused id hid
    · exact absurd (h.old _ hknown) (by omega)

/-! ## Sessions and the memo -/

theorem Coherent.again (h : Coherent rt cache next known) (hrows : rows ∈ known) :
    Coherent rt cache (next + 1) (rows :: known) :=
  h.mono (Nat.le_succ next) (List.cons_subset.mpr ⟨hrows, List.Subset.refl known⟩)

/-- What the reducer leaves: the memo, and the array of the state that it returns. -/
theorem Coherent.reduce {current : TransactionHistoryState} (h : Coherent rt cache next known)
    (hcurrent : current.transactions ∈ known) (action : TransactionHistoryAction ι) :
    Coherent rt (reduce rt cache next current action).2 (next + 1) known ∧
      ∀ s, (reduce rt cache next current action).1 = .ok s →
        Coherent rt (reduce rt cache next current action).2 (next + 1) (s.transactions :: known) := by
  have hsame := h.mono (Nat.le_succ next) (List.Subset.refl known)
  cases action with
  | loadStart =>
    refine ⟨hsame, fun s hs => ?_⟩
    cases hs
    exact h.again hcurrent
  | loadSuccess payload receivedAt walletAddress now =>
    simp only [StreamFi.reduce]
    split_ifs
    · refine ⟨hsame, fun s hs => ?_⟩
      cases hs
      exact h.fresh rfl
    · exact ⟨hsame, fun s hs => by cases hs⟩
  | loadFailure error =>
    refine ⟨hsame, fun s hs => ?_⟩
    obtain ⟨_, -, rfl⟩ := map_ok_iff.mp hs
    exact h.again hcurrent
  | setFilter filter =>
    refine ⟨hsame, fun s hs => ?_⟩
    cases hs
    exact h.again hcurrent
  | setPage page =>
    have hselect : Coherent rt (selectorEntry rt cache (some current)).2 next known :=
      h.select hcurrent
    refine ⟨hselect.mono (Nat.le_succ next) (List.Subset.refl known), fun s hs => ?_⟩
    obtain ⟨_, -, rfl⟩ := map_ok_iff.mp hs
    exact hselect.again hcurrent
  | setPageSize pageSize =>
    refine ⟨hsame, fun s hs => ?_⟩
    obtain ⟨_, -, rfl⟩ := map_ok_iff.mp hs
    exact h.again hcurrent
  | reset =>
    refine ⟨hsame, fun s hs => ?_⟩
    cases hs
    exact h.fresh rfl
  | other =>
    refine ⟨hsame, fun s hs => ?_⟩
    cases hs
    exact h.again hcurrent

namespace HistorySession

/-- The arrays that a selector can meet. -/
def arrays (m : HistorySession) : List TransactionRows :=
  noTransactions :: m.states.map TransactionHistoryState.transactions

variable {m m' : HistorySession}

theorem rowsOf_mem_arrays {i : Option ℕ} (h : m.stateAt i = some state) : rowsOf state ∈ m.arrays := by
  cases i with
  | none =>
    cases h
    exact List.mem_cons_self
  | some i =>
    obtain ⟨s, hs, rfl⟩ := Option.map_eq_some_iff.mp h
    exact List.mem_cons_of_mem _ (List.mem_map_of_mem (List.mem_of_getElem? hs))

theorem coherent_init : Coherent rt Map.empty 1 [noTransactions] where
  cached _ _ _ hget := by cases hget
  same rows hrows rows' hrows' _ := by
    rw [List.mem_singleton.mp hrows, List.mem_singleton.mp hrows']
  old rows hrows := by
    rw [List.mem_singleton.mp hrows]
    exact Nat.one_pos
  unused _ _ := rfl

/-- A state is added at the end. -/
theorem arrays_append_subset (states : List TransactionHistoryState) (s : TransactionHistoryState) :
    noTransactions :: (states ++ [s]).map TransactionHistoryState.transactions ⊆
      s.transactions :: noTransactions :: states.map TransactionHistoryState.transactions := by
  intro rows hrows
  simp only [List.map_append, List.map_cons, List.map_nil, List.mem_cons, List.mem_append,
    List.not_mem_nil, or_false] at hrows ⊢
  tauto

theorem coherent_reduced (h : Coherent rt m.cache m.next m.arrays) (hstate : rowsOf state ∈ m.arrays)
    (action : TransactionHistoryAction ι) :
    Coherent rt (m.reduced rt state action).cache (m.reduced rt state action).next
      (m.reduced rt state action).arrays := by
  -- without a state, the initial one comes with an array of its own
  obtain ⟨known, hknown, hsub, hcurrent⟩ : ∃ known, Coherent rt m.cache (m.next + 1) known ∧
      m.arrays ⊆ known ∧
        (state.getD (createInitialTransactionHistoryState m.next)).transactions ∈ known := by
    cases state with
    | none => exact ⟨_, h.fresh rfl, List.subset_cons_self _ _, List.mem_cons_self⟩
    | some s => exact ⟨_, h.mono (Nat.le_succ _) (List.Subset.refl _), List.Subset.refl _, hstate⟩
  obtain ⟨hcache, hstates⟩ := hknown.reduce hcurrent action
  cases hresult : (transactionHistoryReducer rt m.cache m.next state action).1 with
  | error e =>
    have hsame : (m.reduced rt state action).arrays = m.arrays := by
      simp only [HistorySession.arrays, reduced, hresult]
    rw [hsame]
    exact hcache.mono le_rfl hsub
  | ok s =>
    have hsame : (m.reduced rt state action).arrays =
        noTransactions :: (m.states ++ [s]).map TransactionHistoryState.transactions := by
      simp only [HistorySession.arrays, reduced, hresult]
    rw [hsame]
    refine (hstates s hresult).mono le_rfl (List.Subset.trans (arrays_append_subset m.states s) ?_)
    exact List.cons_subset_cons _ hsub

/-- **One step keeps the memo sound.** -/
theorem coherent_step {e : HistoryEvent ι} (h : Coherent rt m.cache m.next m.arrays)
    (he : m.step rt e = some m') : Coherent rt m'.cache m'.next m'.arrays := by
  cases e with
  | create source s =>
    cases source with
    | none =>
      cases he
      exact (h.fresh rfl).mono le_rfl (arrays_append_subset m.states _)
    | some i =>
      obtain ⟨t, ht, rfl⟩ := Option.map_eq_some_iff.mp he
      have hmem : t.transactions ∈ m.arrays :=
        List.mem_cons_of_mem _ (List.mem_map_of_mem (List.mem_of_getElem? ht))
      refine h.mono le_rfl (List.Subset.trans (arrays_append_subset m.states _) ?_)
      exact List.cons_subset.mpr ⟨hmem, List.Subset.refl _⟩
  | dispatch i action =>
    obtain ⟨state, hstate, rfl⟩ := Option.map_eq_some_iff.mp he
    exact coherent_reduced h (rowsOf_mem_arrays hstate) action
  | select i =>
    obtain ⟨state, hstate, rfl⟩ := Option.map_eq_some_iff.mp he
    exact h.select (rowsOf_mem_arrays hstate)

theorem coherent_of_run {log : List (HistoryEvent ι)} (h : run (step rt) {} log = some m) :
    Coherent rt m.cache m.next m.arrays :=
  run_induction (P := fun m _ => Coherent rt m.cache m.next m.arrays) coherent_init
    (fun _ _ _ _ hm he => coherent_step hm he) h

/-- **The memo is not seen**: after every run, a state is filtered as if from scratch. -/
theorem filtered_eq_filteredRows {log : List (HistoryEvent ι)} {i : Option ℕ}
    (h : run (step rt) {} log = some m) (hstate : m.stateAt i = some state) :
    selectFilteredTransactions rt m.cache state =
      filteredRows rt (filtersOf state) (rowsOf state).records :=
  ((coherent_of_run h).cached _ (rowsOf_mem_arrays hstate)).filtered_eq

/-- A runtime for ASCII text, without host objects. -/
def asciiRuntime : DashboardRuntime Empty where
  toUpperCase s := String.ofList (s.toList.map Char.toUpper)
  toLowerCase s := String.ofList (s.toList.map Char.toLower)
  dateParse _ := .nan
  read x := x.elim
  isError x := x.elim
  getTime x := x.elim
  objectToNumber _ := .ok .nan

theorem filtered_eq_filteredRows_two :
    let payload : Value Empty := .array [
      .object [("id", .string "a"), ("hash", .string "h1"), ("status", .string "pending")],
      .object [("id", .string "b"), ("hash", .string "h2"), ("status", .string "confirmed")]]
    let log : List (HistoryEvent Empty) := [.dispatch none (.loadSuccess payload .undefined .undefined .nan),
      .dispatch (some 0) (.setFilter (.object [("status", .string " pending ")])), .select (some 1),
      .select (some 0), .dispatch (some 1) (.setPage (.number (.fin 3)))]
    ∃ m s, run (step asciiRuntime) {} log = some m ∧ m.stateAt (some 2) = some s ∧
      selectFilteredTransactions asciiRuntime m.cache s =
        filteredRows asciiRuntime (filtersOf s) (rowsOf s).records ∧
      (filteredRows asciiRuntime (filtersOf s) (rowsOf s).records).map TransactionRecord.hash = ["h1"] := by
  intro payload log
  obtain ⟨m, hm, hend⟩ := (Option.any_eq_true _ _).mp (by decide :
    (run (step asciiRuntime) {} log).any fun m => (m.stateAt (some 2)).any fun s =>
      (filteredRows asciiRuntime (filtersOf s) (rowsOf s).records).map TransactionRecord.hash = ["h1"])
  obtain ⟨s, hs, hhash⟩ := (Option.any_eq_true _ _).mp hend
  exact ⟨m, s, hm, hs, filtered_eq_filteredRows hm hs, of_decide_eq_true hhash⟩

end HistorySession

end StreamFi
