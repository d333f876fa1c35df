import StreamFi.Indexer.Pages
import StreamFi.Js.Json

/-!
# Pages that are found

`fetchAllAuto` is the older form of `fetchAll`: it looks for the collection in each answer by itself, reads the
cursor from it and puts the items together.

* `findPaginatedCollection`, `fetchAutoPages`, `fetchAllAuto`: the code;
* `descendants`: the values below a document in the order of the text;
  **`findPaginatedCollection_eq`**: the first one that is a collection is found;
* `typed`: the options of `fetchAll` that ask for the same; `Advancing`: cursors that move on;
* **`fetchAllAuto_iff`**: the older form gives items exactly where `fetchAll` gives pages with collections whose
  cursors move on, by the same requests.
-/

namespace StreamFi

open Js

/-! ## The code -/

structure PaginatedCollection where
  items : List Json
  hasNextPage : Bool
  endCursor : Option String

/-- A value with an array of items and a `pageInfo`. -/
def asCollection (candidate : Json) : Option PaginatedCollection :=
  let items := ["items", "nodes", "results"].findSome? fun key => match candidate.field key with
    | some (.array items) => some items
    | _ => none
  match items, candidate.field "pageInfo" with
  | some items, some (.array _) => some ⟨items, false, none⟩
  | some items, some (.object info) => some {
      items := items
      hasNextPage := match Json.field "hasNextPage" (.object info) with
        | some (.bool true) => true
        | _ => false
      endCursor := match Json.field "endCursor" (.object info) with
        | some (.string cursor) => some cursor
        | _ => none }
  | _, _ => none

mutual

/-- The properties of an object have the order in which `Object.values` lists them. -/
def findPaginatedCollection : Json → Option PaginatedCollection
  | .array items => findInItems items
  | .object fields => findInFields fields
  | _ => none

def findInItems : List Json → Option PaginatedCollection
  | [] => none
  | entry :: items => (asCollection entry).or ((findPaginatedCollection entry).or (findInItems items))

def findInFields : List (String × Json) → Option PaginatedCollection
  | [] => none
  | (_, entry) :: fields => (asCollection entry).or ((findPaginatedCollection entry).or (findInFields fields))

end

/-- The `GraphQLQueryOptions` of `fetchAllAuto`; the field `variables` is `queryVariables`. The other options are
handed on to `query`. -/
structure AutoOptions (ι : Type) where
  query : String
  queryVariables : Option (Map String (Value ι)) := none
  headers : Option (Map String String) := none

/-- `cursor === text` -/
def isCursor {ι : Type} (cursor : Value ι) (text : String) : Bool :=
  match cursor with
  | .string s => s = text
  | _ => false

section Code

variable {ι : Type} (options : AutoOptions ι) (query : ℕ → PageRequest ι → Except Thrown (Option Json))

def AutoOptions.request (cursor : Value ι) : PageRequest ι where
  query := options.query
  queryVariables := (options.queryVariables.getD Map.empty).set "cursor" cursor
  headers := options.headers

def AutoOptions.initialCursor : Value ι := (((options.queryVariables.getD Map.empty).get "cursor").getD .undefined)

/-- The loop with the number of pages that are left, and the requests that were made. -/
def fetchAutoPages : ℕ → Value ι → List Json → List (PageRequest ι) →
    List (PageRequest ι) × Except FetchAllError (List Json)
  | 0, _, _, requests => (requests, .error (.maxPagesExceeded 1000 defaultIndexerMaxPages))
  | left + 1, cursor, results, requests =>
    let request := options.request cursor
    match query requests.length request with
    | .error error => (requests ++ [request], .error (.thrown error))
    | .ok data => match data.bind findPaginatedCollection with
      | none => (requests ++ [request], .error (.thrown (errorOf "Error"
          "GraphQLIndexer.fetchAllAuto expected a paginated collection response")))
      | some collection =>
        if collection.hasNextPage = false then (requests ++ [request], .ok (results ++ collection.items))
        else match collection.endCursor with
          | none | some "" => (requests ++ [request], .error (.thrown (errorOf "Error"
              "GraphQLIndexer.fetchAllAuto received a page with no next cursor")))
          | some next =>
            if isCursor cursor next then (requests ++ [request], .error (.thrown (errorOf "Error"
              "GraphQLIndexer.fetchAllAuto received an unchanged pagination cursor")))
            else fetchAutoPages left (.string next) (results ++ collection.items) (requests ++ [request])

def fetchAllAuto : List (PageRequest ι) × Except FetchAllError (List Json) :=
  fetchAutoPages options query 1000 options.initialCursor [] []

end Code

/-! ## The collection that is found -/

mutual

/-- The values below a document, in the order of its text. -/
def descendants : Json → List Json
  | .array items => itemDescendants items
  | .object fields => fieldDescendants fields
  | _ => []

def itemDescendants : List Json → List Json
  | [] => []
  | entry :: items => entry :: (descendants entry ++ itemDescendants items)

def fieldDescendants : List (String × Json) → List Json
  | [] => []
  | (_, entry) :: fields => entry :: (descendants entry ++ fieldDescendants fields)

end

theorem findSome_entry (entry : Json) (below rest : List Json) :
    (entry :: (below ++ rest)).findSome? asCollection =
      (asCollection entry).or ((below.findSome? asCollection).or (rest.findSome? asCollection)) := by
  rw [List.findSome?_cons, List.findSome?_append]
  cases asCollection entry <;> rfl

mutual

/-- **The first collection in the order of the text** is found. -/
theorem findPaginatedCollection_eq : ∀ value : Json,
    findPaginatedCollection value = (descendants value).findSome? asCollection
  | .null | .bool _ | .number _ | .string _ => rfl
  | .array items => by rw [findPaginatedCollection, descendants, findInItems_eq]
  | .object fields => by rw [findPaginatedCollection, descendants, findInFields_eq]

theorem findInItems_eq : ∀ items : List Json,
    findInItems items = (itemDescendants items).findSome? asCollection
  | [] => rfl
  | entry :: items => by
    rw [findInItems, itemDescendants, findSome_entry, findPaginatedCollection_eq entry, findInItems_eq items]

theorem findInFields_eq : ∀ fields : List (String × Json),
    findInFields fields = (fieldDescendants fields).findSome? asCollection
  | [] => rfl
  | (_, entry) :: fields => by
    rw [findInFields, fieldDescendants, findSome_entry, findPaginatedCollection_eq entry, findInFields_eq fields]

end

/-! ## The two forms -/

def nextCursor (data : Option Json) : Option String :=
  (data.bind findPaginatedCollection).bind fun collection =>
    if collection.hasNextPage then collection.endCursor else none

def pageItems (data : Option Json) : List Json :=
  ((data.bind findPaginatedCollection).map PaginatedCollection.items).getD []

section Forms

variable {ι : Type} {options : AutoOptions ι} {query : ℕ → PageRequest ι → Except Thrown (Option Json)}

variable (options) in
/-- The options of `fetchAll` that ask for the same. -/
def AutoOptions.typed : FetchAllOptions ι (Option Json) where
  query := options.query
  queryVariables := options.queryVariables
  headers := options.headers
  getNextCursor := nextCursor

/-- A request with a `cursor` among its variables, which may be `undefined`. -/
def withCursor (request : PageRequest ι) : PageRequest ι :=
  if request.queryVariables.has "cursor" then request
  else { request with queryVariables := request.queryVariables.set "cursor" .undefined }

variable (options) in
/-- The cursor of the older form. -/
def AutoOptions.cursorValue : Option String → Value ι
  | none => options.initialCursor
  | some cursor => .string cursor

/-- Each page has a collection; a page that has another after it gives a cursor, not that of its own request. -/
def Advancing : Value ι → List (Option Json) → Prop
  | _, [] => True
  | cursor, data :: pages => ∃ collection, data.bind findPaginatedCollection = some collection ∧
      (collection.hasNextPage = true →
        ∃ next, collection.endCursor = some next ∧ next ≠ "" ∧ isCursor cursor next = false) ∧
      Advancing (.string (collection.endCursor.getD "")) pages

theorem withCursor_pageRequest (cursor : Option String) :
    withCursor (pageRequest options.typed cursor) = options.request (options.cursorValue cursor) := by
  cases cursor with
  | some cursor =>
    have hhas : ((options.queryVariables.getD Map.empty).set "cursor" (Value.string cursor)).has "cursor" = true :=
      Map.has_set_iff.mpr (.inl rfl)
    simp [withCursor, pageRequest, AutoOptions.typed, AutoOptions.request, AutoOptions.cursorValue, hhas]
  | none =>
    cases hget : (options.queryVariables.getD Map.empty).get "cursor" with
    | some v =>
      have hhas : (options.queryVariables.getD Map.empty).has "cursor" = true := by
        rw [← Map.get_isSome, hget, Option.isSome_some]
      simp [withCursor, pageRequest, AutoOptions.typed, AutoOptions.request, AutoOptions.cursorValue,
        AutoOptions.initialCursor, hget, hhas, Map.set_get hget]
    | none =>
      have hhas := Map.get_eq_none_iff.mp hget
      simp [withCursor, pageRequest, AutoOptions.typed, AutoOptions.request, AutoOptions.cursorValue,
        AutoOptions.initialCursor, hget, hhas]

/-- Pages are only added. -/
theorem fetchPages_prefix {TPage : Type} {typed : FetchAllOptions ι TPage}
    {query : ℕ → PageRequest ι → Except Thrown TPage} {maxPages : Number} {fuel : ℕ} :
    ∀ {cursor : Option String} {pages result : List TPage} {requests requests' : List (PageRequest ι)},
      fetchPages typed query maxPages fuel cursor pages requests = some (requests', .ok result) →
        pages <+: result := by
  induction fuel with
  | zero => intro _ _ _ _ _ h; cases h
  | succ fuel ih =>
    intro cursor pages result requests requests' h
    rw [fetchPages] at h
    split at h
    · cases h
    split at h
    · cases h
    split at h
    · cases h
      exact List.prefix_append _ _
    · exact (List.prefix_append _ _).trans (ih h)

theorem nextCursor_of_found {data : Option Json} {collection : PaginatedCollection}
    (h : data.bind findPaginatedCollection = some collection) :
    nextCursor data = if collection.hasNextPage then collection.endCursor else none := by
  rw [nextCursor, h, Option.bind_some]

theorem pageItems_of_found {data : Option Json} {collection : PaginatedCollection}
    (h : data.bind findPaginatedCollection = some collection) : pageItems data = collection.items := by
  rw [pageItems, h, Option.map_some, Option.getD_some]

variable (options query) in
/-- `fetchAll` goes on to pages whose cursors move on, and the items are those of all pages. -/
def GoesOn (fuel : ℕ) (cursor : Option String) (pages : List (Option Json)) (requests : List (PageRequest ι))
    (all : List (PageRequest ι)) (items : List Json) : Prop :=
  ∃ more sent, fetchPages options.typed (fun n request => query n (withCursor request)) defaultIndexerMaxPages
      fuel cursor pages requests = some (sent, .ok (pages ++ more)) ∧
    all = sent.map withCursor ∧ items = (pages ++ more).flatMap pageItems ∧
    Advancing (options.cursorValue cursor) more

/-- A page with another after it. -/
theorem goesOn_next {fuel : ℕ} {pages : List (Option Json)} {requests all : List (PageRequest ι)}
    {items : List Json} {v : Value ι} {data : Option Json} {collection : PaginatedCollection} {next : String}
    (hfound : data.bind findPaginatedCollection = some collection) (hmore : collection.hasNextPage = true)
    (hend : collection.endCursor = some next) :
    (∃ more sent, fetchPages options.typed (fun n request => query n (withCursor request)) defaultIndexerMaxPages
        fuel (some next) (pages ++ [data]) requests = some (sent, .ok (pages ++ more)) ∧
      all = sent.map withCursor ∧ items = (pages ++ more).flatMap pageItems ∧ Advancing v more) ↔
      (next ≠ "" ∧ isCursor v next = false) ∧
        GoesOn options query fuel (some next) (pages ++ [data]) requests all items := by
  have hadvancing (more : List (Option Json)) : Advancing v (data :: more) ↔
      (next ≠ "" ∧ isCursor v next = false) ∧ Advancing (Value.string next : Value ι) more := by
    simp [Advancing, hfound, hmore, hend]
  constructor
  · rintro ⟨more, sent, hsent, hall, hitems, hmoves⟩
    obtain ⟨rest, hrest⟩ := fetchPages_prefix hsent
    obtain rfl : data :: rest = more := by
      rw [List.append_assoc, List.append_cancel_left_eq] at hrest
      exact hrest
    obtain ⟨hcursor, hmoves⟩ := (hadvancing rest).mp hmoves
    refine ⟨hcursor, rest, sent, ?_, hall, ?_, hmoves⟩
    · rw [hsent, List.append_assoc, List.singleton_append]
    · rw [hitems, List.append_assoc, List.singleton_append]
  · rintro ⟨hcursor, rest, sent, hsent, hall, hitems, hmoves⟩
    rw [List.append_assoc, List.singleton_append] at hsent hitems
    exact ⟨data :: rest, sent, hsent, hall, hitems, (hadvancing rest).mpr ⟨hcursor, hmoves⟩⟩

/-- **The two loops.** -/
theorem fetchAutoPages_iff (left : ℕ) : ∀ (fuel : ℕ) (cursor : Option String) (pages : List (Option Json))
    (requests all : List (PageRequest ι)) (items : List Json), left < fuel → pages.length + left = 1000 →
    (fetchAutoPages options query left (options.cursorValue cursor) (pages.flatMap pageItems)
      (requests.map withCursor) = (all, .ok items) ↔
        GoesOn options query fuel cursor pages requests all items) := by
  induction left with
  | zero =>
    intro fuel cursor pages requests all items hfuel hleft
    obtain ⟨fuel, rfl⟩ : ∃ f, fuel = f + 1 := ⟨fuel - 1, by omega⟩
    have hlimit : defaultIndexerMaxPages.le (.fin pages.length) = true := by
      rw [show pages.length = 1000 by omega]
      decide
    simp [GoesOn, fetchAutoPages, fetchPages, hlimit]
  | succ left ih =>
    intro fuel cursor pages requests all items hfuel hleft
    obtain ⟨fuel, rfl⟩ : ∃ f, fuel = f + 1 := ⟨fuel - 1, by omega⟩
    have hlimit : ¬ defaultIndexerMaxPages.le (.fin pages.length) = true := by
      rw [show defaultIndexerMaxPages = .fin ((1000 : ℕ) : ℚ) by norm_num [defaultIndexerMaxPages]]
      rw [Number.le_fin, decide_eq_true_iff]
      exact_mod_cast (by omega : ¬ 1000 ≤ pages.length)
    unfold GoesOn
    rw [fetchAutoPages, fetchPages, if_neg hlimit, withCursor_pageRequest, List.length_map]
    cases hquery : query requests.length (options.request (options.cursorValue cursor)) with
    | error error => simp
    | ok data =>
      simp only
      cases hfound : data.bind findPaginatedCollection with
      | none =>
        have hnext : options.typed.getNextCursor data = none := by simp [AutoOptions.typed, nextCursor, hfound]
        simp only [hnext, Option.some.injEq, Prod.mk.injEq, Except.ok.injEq, List.append_cancel_left_eq, reduceCtorEq,
          and_false, false_iff]
        rintro ⟨more, sent, ⟨-, rfl⟩, -, -, hadvancing⟩
        obtain ⟨collection, hsome, -⟩ := hadvancing
        rw [hfound] at hsome
        cases hsome
      | some collection =>
        have hnext : options.typed.getNextCursor data =
          if collection.hasNextPage then collection.endCursor else none := nextCursor_of_found hfound
        have hitems : (pages ++ [data]).flatMap pageItems = pages.flatMap pageItems ++ collection.items := by
          rw [List.flatMap_append, List.flatMap_singleton, pageItems_of_found hfound]
        simp only
        by_cases hlast : collection.hasNextPage = false
        · rw [if_pos hlast, hnext, hlast, if_neg Bool.false_ne_true]
          constructor
          · intro h
            cases h
            refine ⟨[data], _, rfl, ?_, hitems.symm, collection, hfound, by simp [hlast], trivial⟩
            rw [List.map_append, List.map_singleton, withCursor_pageRequest]
          · rintro ⟨more, sent, hsent, rfl, rfl, -⟩
            simp only [Option.some.injEq, Prod.mk.injEq, Except.ok.injEq, List.append_cancel_left_eq] at hsent
            rw [← hsent.1, ← hsent.2, hitems, List.map_append, List.map_singleton, withCursor_pageRequest]
        · have hmore : collection.hasNextPage = true := by simpa using hlast
          rw [if_neg hlast, hnext, if_pos hmore]
          cases hend : collection.endCursor with
          | none =>
            simp only [Prod.mk.injEq, reduceCtorEq, and_false, false_iff]
            rintro ⟨more, sent, hsent, -, -, hmoves⟩
            simp only [Option.some.injEq, Prod.mk.injEq, Except.ok.injEq, List.append_cancel_left_eq] at hsent
            rw [← hsent.2, Advancing] at hmoves
            simp [hfound, hmore, hend] at hmoves
          | some next =>
            simp only
            rw [goesOn_next hfound hmore hend]
            split
            case h_1 h => cases h
            case h_2 h =>
              cases h
              simp
            case h_3 other hempty h =>
              cases h
              by_cases hstall : isCursor (options.cursorValue cursor) next = true
              · simp [hstall]
              · have hsent : requests.map withCursor ++ [options.request (options.cursorValue cursor)] =
                  (requests ++ [pageRequest options.typed cursor]).map withCursor := by
                  rw [List.map_append, List.map_singleton, withCursor_pageRequest]
                rw [if_neg hstall, hsent, ← hitems]
                refine (ih fuel (some next) (pages ++ [data]) _ all items (by omega) ?_).trans ?_
                · rw [List.length_append, List.length_singleton]
                  omega
                · exact (and_iff_right ⟨hempty, by simpa using hstall⟩).symm

theorem fetchAutoPages_requests (left : ℕ) : ∀ (cursor : Value ι) (results : List Json)
    (requests : List (PageRequest ι)),
    (fetchAutoPages options query left cursor results requests).1.length ≤ requests.length + left := by
  induction left with
  | zero => simp [fetchAutoPages]
  | succ left ih =>
    intro cursor results requests
    have hone : (requests ++ [options.request cursor]).length ≤ requests.length + (left + 1) := by
      rw [List.length_append, List.length_singleton]
      omega
    rw [fetchAutoPages]
    split
    · exact hone
    split
    · exact hone
    split_ifs
    · exact hone
    split
    · exact hone
    · exact hone
    split_ifs
    · exact hone
    · refine (ih _ _ _).trans ?_
      rw [List.length_append, List.length_singleton]
      omega

/-- **The older form.** It makes 1000 requests or fewer, and gives items exactly where `fetchAll` gives pages with
collections whose cursors move on: the items of these pages, by the same requests. -/
theorem fetchAllAuto_iff (options : AutoOptions ι) (query : ℕ → PageRequest ι → Except Thrown (Option Json)) :
    (fetchAllAuto options query).1.length ≤ 1000 ∧ ∀ all items, fetchAllAuto options query = (all, .ok items) ↔
      ∃ pages sent, fetchAll options.typed (fun n request => query n (withCursor request)) 1001 =
          some (sent, .ok pages) ∧
        all = sent.map withCursor ∧ items = pages.flatMap pageItems ∧ Advancing options.initialCursor pages := by
  constructor
  · exact (fetchAutoPages_requests 1000 _ _ _).trans (by simp)
  · intro all items
    exact fetchAutoPages_iff 1000 1001 none [] [] all items (by omega) rfl

end Forms

end StreamFi
