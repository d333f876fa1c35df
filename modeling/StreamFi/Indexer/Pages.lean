import StreamFi.Builder.Semaphore
import StreamFi.Js.Map
import StreamFi.Js.Numeral
import StreamFi.Js.Value

/-!
# All pages of a query

`GraphQLIndexer.fetchAll` calls `query` for one page after the other, with the cursor that the last page
gave, until a page gives none. It throws an `IndexerMaxPagesExceededError` when `maxPages` pages were not
enough.

* `fetchPages`, `fetchAll`: the code; the loop is followed for a number of rounds;
* `pageLimit`: the number of pages that `maxPages` allows;
* `Linked`: a server with pages that are linked by their cursors;
* **`fetchPages_linked`**: the loop from any page on;
* **`fetchAll_linked`**: all pages, or the error after as many requests as the limit says.
-/

namespace StreamFi

open Js

/-! ## The code -/

/-- `DEFAULT_INDEXER_MAX_PAGES`. -/
def defaultIndexerMaxPages : Number := .fin 1000

/-- `FetchAllOptions<TPage>`; the field `variables` is `queryVariables`. -/
structure FetchAllOptions (ι TPage : Type) where
  query : String
  queryVariables : Option (Map String (Value ι)) := none
  headers : Option (Map String String) := none
  getNextCursor : TPage → Option String
  maxPages : Option Number := none

/-- What `query` is called with. -/
structure PageRequest (ι : Type) where
  query : String
  queryVariables : Map String (Value ι)
  headers : Option (Map String String)

inductive FetchAllError where
  | maxPagesExceeded (attemptedPages : ℕ) (maxPages : Number)
  | thrown (error : Thrown)
  deriving DecidableEq

/-- The message of the error. -/
def FetchAllError.text : FetchAllError → String
  | .maxPagesExceeded attemptedPages maxPages =>
    s!"GraphQLIndexer.fetchAll exceeded the maximum page limit of {numToText maxPages} " ++
    s!"(fetched {attemptedPages} pages). " ++
    "Refine your query filters or increase the limit via fetchAllOptions.maxPages."
  | .thrown error => error.text

section Code

variable {ι TPage : Type} (options : FetchAllOptions ι TPage)

def pageRequest (cursor : Option String) : PageRequest ι where
  query := options.query
  queryVariables := match cursor with
    | none => options.queryVariables.getD Map.empty
    | some cursor => (options.queryVariables.getD Map.empty).set "cursor" (.string cursor)
  headers := options.headers

/-- The loop, with the requests that were made; `query n` answers the request after `n` others. -/
def fetchPages (query : ℕ → PageRequest ι → Except Thrown TPage) (maxPages : Number) :
    ℕ → Option String → List TPage → List (PageRequest ι) →
      Option (List (PageRequest ι) × Except FetchAllError (List TPage))
  | 0, _, _, _ => none
  | fuel + 1, cursor, pages, requests =>
    if maxPages.le (.fin pages.length) then
      some (requests, .error (.maxPagesExceeded pages.length maxPages))
    else
      match query requests.length (pageRequest options cursor) with
      | .error error => some (requests ++ [pageRequest options cursor], .error (.thrown error))
      | .ok result =>
        match options.getNextCursor result with
        | none => some (requests ++ [pageRequest options cursor], .ok (pages ++ [result]))
        | some next =>
          fetchPages query maxPages fuel (some next) (pages ++ [result])
            (requests ++ [pageRequest options cursor])

def fetchAll (query : ℕ → PageRequest ι → Except Thrown TPage) (fuel : ℕ) :
    Option (List (PageRequest ι) × Except FetchAllError (List TPage)) :=
  fetchPages options query (options.maxPages.getD defaultIndexerMaxPages) fuel none [] []

end Code

/-! ## The limit -/

/-- The number of pages that are allowed; nothing is too much for `NaN` and `Infinity`. -/
def pageLimit (maxPages : Number) : Option ℕ := if maxPages = .nan then none else Semaphore.slots maxPages

/-- **The comparison with `maxPages`** counts pages. -/
theorem maxPages_le_iff {maxPages : Number} (k : ℕ) :
    maxPages.le (.fin k) = true ↔ ∃ n, pageLimit maxPages = some n ∧ n ≤ k := by
  cases maxPages with
  | nan => simp [pageLimit, Number.le]
  | posInf => simp [pageLimit, Number.le, Semaphore.slots]
  | negInf => simp [pageLimit, Number.le, Semaphore.slots]
  | fin q =>
    have hceil : q ≤ k ↔ ⌈q⌉.toNat ≤ k := by
      rw [Int.toNat_le, Int.ceil_le, Int.cast_natCast]
    simp [pageLimit, Semaphore.slots, hceil]

@[simp] theorem pageLimit_natCast (n : ℕ) : pageLimit (.fin n) = some n := by
  rw [pageLimit, if_neg (by simp), Semaphore.slots_natCast]

/-! ## Linked pages -/

section Linked

variable {ι TPage : Type} {options : FetchAllOptions ι TPage}
  {query : ℕ → PageRequest ι → Except Thrown TPage} {pages : List TPage} {maxPages : Number}

variable (options) in
/-- The cursor with which a page is asked for: that of the page before it. -/
def cursorFor (pages : List TPage) : ℕ → Option String
  | 0 => none
  | i + 1 => pages[i]?.bind options.getNextCursor

variable (options) in
/-- The first `n` requests. -/
def pageRequests (pages : List TPage) (n : ℕ) : List (PageRequest ι) :=
  (List.range n).map fun i => pageRequest options (cursorFor options pages i)

variable (options query) in
/-- A server with pages that are linked by their cursors. -/
structure Linked (pages : List TPage) : Prop where
  nonempty : 0 < pages.length
  served : ∀ i (h : i < pages.length), query i (pageRequest options (cursorFor options pages i)) = .ok pages[i]
  last : ∀ i (h : i < pages.length), options.getNextCursor pages[i] = none ↔ i + 1 = pages.length

variable (options query maxPages) in
/-- The loop when `i` pages have been fetched. -/
def fetchFrom (pages : List TPage) (fuel i : ℕ) :
    Option (List (PageRequest ι) × Except FetchAllError (List TPage)) :=
  fetchPages options query maxPages fuel (cursorFor options pages i) (pages.take i)
    (pageRequests options pages i)

theorem length_pageRequests (n : ℕ) : (pageRequests options pages n).length = n := by
  rw [pageRequests, List.length_map, List.length_range]

theorem pageRequests_succ (n : ℕ) : pageRequests options pages (n + 1) =
    pageRequests options pages n ++ [pageRequest options (cursorFor options pages n)] := by
  rw [pageRequests, List.range_succ, List.map_append, List.map_singleton, ← pageRequests]

/-- The error when the limit is reached. -/
theorem fetchFrom_limit {i : ℕ} (hi : i ≤ pages.length) (hlimit : maxPages.le (.fin i) = true) (fuel : ℕ) :
    fetchFrom options query maxPages pages (fuel + 1) i =
      some (pageRequests options pages i, .error (.maxPagesExceeded i maxPages)) := by
  rw [fetchFrom, fetchPages, List.length_take, Nat.min_eq_left hi, if_pos hlimit]

/-- **A page.** -/
theorem fetchFrom_succ (h : Linked options query pages) {i : ℕ} (hi : i < pages.length)
    (hlimit : ¬ maxPages.le (.fin i) = true) (fuel : ℕ) :
    fetchFrom options query maxPages pages (fuel + 1) i =
      if i + 1 = pages.length then some (pageRequests options pages pages.length, .ok pages)
      else fetchFrom options query maxPages pages fuel (i + 1) := by
  have hpage : pages.take i ++ [pages[i]] = pages.take (i + 1) := (List.take_concat_get' _ _ _)
  have hcursor : cursorFor options pages (i + 1) = options.getNextCursor pages[i] := by
    rw [cursorFor, List.getElem?_eq_getElem hi, Option.bind_some]
  rw [fetchFrom, fetchPages, List.length_take, Nat.min_eq_left hi.le, if_neg hlimit, length_pageRequests,
    h.served i hi]
  simp only
  rw [hpage, ← pageRequests_succ]
  by_cases hlast : i + 1 = pages.length
  · rw [(h.last i hi).mpr hlast, if_pos hlast, hlast, List.take_length]
  · obtain ⟨next, hnext⟩ := Option.ne_none_iff_exists'.mp fun hnone => hlast ((h.last i hi).mp hnone)
    rw [if_neg hlast, hnext, fetchFrom, hcursor, hnext]

/-- All pages, where the limit allows them. -/
theorem fetchFrom_all (h : Linked options query pages)
    (hallowed : ∀ i < pages.length, ¬ maxPages.le (.fin i) = true) (left : ℕ) :
    ∀ i fuel, i + left + 1 = pages.length → left < fuel →
      fetchFrom options query maxPages pages fuel i =
        some (pageRequests options pages pages.length, .ok pages) := by
  induction left with
  | zero =>
    intro i fuel hi hfuel
    obtain ⟨fuel, rfl⟩ : ∃ f, fuel = f + 1 := ⟨fuel - 1, by omega⟩
    rw [fetchFrom_succ h (by omega) (hallowed i (by omega)), if_pos (by omega)]
  | succ left ih =>
    intro i fuel hi hfuel
    obtain ⟨fuel, rfl⟩ : ∃ f, fuel = f + 1 := ⟨fuel - 1, by omega⟩
    rw [fetchFrom_succ h (by omega) (hallowed i (by omega)), if_neg (by omega),
      ih (i + 1) fuel (by omega) (by omega)]

/-- The error, where there are more pages than the limit allows. -/
theorem fetchFrom_exceeded (h : Linked options query pages) {n : ℕ} (hn : n < pages.length)
    (hallowed : ∀ i < n, ¬ maxPages.le (.fin i) = true) (hlimit : maxPages.le (.fin n) = true) (left : ℕ) :
    ∀ i fuel, i + left = n → left < fuel →
      fetchFrom options query maxPages pages fuel i =
        some (pageRequests options pages n, .error (.maxPagesExceeded n maxPages)) := by
  induction left with
  | zero =>
    intro i fuel hi hfuel
    obtain ⟨fuel, rfl⟩ : ∃ f, fuel = f + 1 := ⟨fuel - 1, by omega⟩
    obtain rfl : i = n := by omega
    exact fetchFrom_limit hn.le hlimit fuel
  | succ left ih =>
    intro i fuel hi hfuel
    obtain ⟨fuel, rfl⟩ : ∃ f, fuel = f + 1 := ⟨fuel - 1, by omega⟩
    rw [fetchFrom_succ h (by omega) (hallowed i (by omega)), if_neg (by omega),
      ih (i + 1) fuel (by omega) (by omega)]

/-- **All pages or the error**: the pages in order after one request for each of them, or the error after as
many requests as the limit says. Each request after the first carries the cursor of the page before. -/
theorem fetchAll_linked (options : FetchAllOptions ι TPage)
    (query : ℕ → PageRequest ι → Except Thrown TPage) (pages : List TPage) (h : Linked options query pages)
    (fuel : ℕ) (hfuel : pages.length < fuel) :
    fetchAll options query fuel =
      match pageLimit (options.maxPages.getD defaultIndexerMaxPages) with
      | none => some (pageRequests options pages pages.length, .ok pages)
      | some n =>
        if pages.length ≤ n then some (pageRequests options pages pages.length, .ok pages)
        else some (pageRequests options pages n,
          .error (.maxPagesExceeded n (options.maxPages.getD defaultIndexerMaxPages))) := by
  have hpos := h.nonempty
  have hstart (maxPages : Number) : fetchPages options query maxPages fuel none [] [] =
    fetchFrom options query maxPages pages fuel 0 := rfl
  rw [fetchAll, hstart]
  generalize hmax : options.maxPages.getD defaultIndexerMaxPages = maxPages
  cases hlimit : pageLimit maxPages with
  | none =>
    refine fetchFrom_all h (fun i _ hle => ?_) (pages.length - 1) 0 fuel (by omega) (by omega)
    obtain ⟨n, hn, -⟩ := (maxPages_le_iff i).mp hle
    rw [hlimit] at hn
    cases hn
  | some n =>
    have hallowed {i : ℕ} (hi : i < n) : ¬ maxPages.le (.fin i) = true := by
      rw [maxPages_le_iff]
      rintro ⟨m, hm, hmi⟩
      rw [hlimit] at hm
      cases hm
      omega
    simp only
    by_cases hn : pages.length ≤ n
    · rw [if_pos hn]
      exact fetchFrom_all h (fun i hi => hallowed (by omega)) (pages.length - 1) 0 fuel (by omega) (by omega)
    · rw [if_neg hn]
      exact fetchFrom_exceeded h (by omega) (fun i hi => hallowed hi)
        ((maxPages_le_iff n).mpr ⟨n, hlimit, le_rfl⟩) n 0 fuel (by omega) (by omega)

/-- Two pages, the first with the cursor `a`. -/
def twoPages (maxPages : Option Number) : FetchAllOptions Empty ℕ where
  query := "query Transfers($cursor: String) { transfers(after: $cursor) { id } }"
  getNextCursor page := if page = 0 then some "a" else none
  maxPages := maxPages

def servesTwo (n : ℕ) (_ : PageRequest Empty) : Except Thrown ℕ := .ok n

theorem linked_twoPages (maxPages : Option Number) : Linked (twoPages maxPages) servesTwo [0, 1] where
  nonempty := by decide
  served := by
    intro i hi
    obtain rfl | rfl : i = 0 ∨ i = 1 := by
      rw [List.length_cons, List.length_singleton] at hi
      omega
    · rfl
    · rfl
  last := by
    intro i hi
    obtain rfl | rfl : i = 0 ∨ i = 1 := by
      rw [List.length_cons, List.length_singleton] at hi
      omega
    · exact iff_of_false (by simp [twoPages]) (by decide)
    · exact iff_of_true rfl rfl

/-- A limit of one page, and one page too many. -/
theorem fetchAll_linked_one : fetchAll (twoPages (some (.fin 1))) servesTwo 3 =
    some (pageRequests (twoPages (some (.fin 1))) [0, 1] 1, .error (.maxPagesExceeded 1 (.fin 1))) := by
  rw [fetchAll_linked _ _ _ (linked_twoPages _) 3 (by decide)]
  rfl

/-- A `maxPages` between two whole numbers allows one page more. -/
theorem one_and_a_half_pages : ¬ ∀ (options : FetchAllOptions Empty ℕ)
    (query : ℕ → PageRequest Empty → Except Thrown ℕ) (pages : List ℕ), Linked options query pages →
    ∀ maxPages, options.maxPages = some maxPages → ∀ fuel, pages.length < fuel →
      ∃ requests result, fetchAll options query fuel = some (requests, result) ∧
        if (Number.fin pages.length).le maxPages then result = .ok pages ∧ requests.length = pages.length
        else (∃ n, result = .error (.maxPagesExceeded n maxPages)) ∧ .fin requests.length = maxPages := by
  intro h
  obtain ⟨requests, result, hrun, hclaim⟩ := h _ _ _ (linked_twoPages (some (.fin (3 / 2)))) _ rfl 3 (by decide)
  rw [if_neg (by norm_num)] at hclaim
  obtain ⟨⟨n, hresult⟩, -⟩ := hclaim
  have hfirst : (Number.fin (3 / 2)).le (.fin 0) = false := by norm_num
  have hsecond : (Number.fin (3 / 2)).le (.fin 1) = false := by norm_num
  have hpages : (fetchAll (twoPages (some (.fin (3 / 2)))) servesTwo 3).map Prod.snd = some (.ok [0, 1]) := by
    simp [fetchAll, fetchPages, twoPages, servesTwo, hfirst, hsecond, -Number.le_fin]
  rw [hrun, hresult] at hpages
  cases hpages

end Linked

end StreamFi
