import StreamFi.Js.Encoding
import StreamFi.Errors
import StreamFi.Sorted.Window
import StreamFi.Constants

/-!
# Listing streams

`list` pages through the streams of a sender, of a recipient, or of both. With both filters a
page re-reads a window of each index, merges the windows and slices the merge.

* `Pages`: the pages of a caller who feeds each `nextCursor` back;
* **`list_both`**: one page with both filters, as a slice of the two windows' merge;
* **`pages_both`**: the pages always end, and concatenate to the merge of the first
  `maxListLimit` ids of each index;
* `pages_complete_iff`: they hold the whole union exactly when each id is among the first
  `maxListLimit` of an index.
-/

namespace StreamFi

open Js Sorted

/-! ## Factory queries -/

/-- What the factory contract and the stream contracts answer. -/
structure Reads (ι : Type) where
  streamsBySender : String → ℕ → ℕ → Except Thrown (List ℤ)
  streamsByRecipient : String → ℕ → ℕ → Except Thrown (List ℤ)
  streamAddress : ℤ → Except Thrown (Option String)
  fetchInfo : ℤ → Except Thrown ι

structure FactoryStreamListResult where
  ids : List ℤ
  hasMore : Bool
  deriving DecidableEq

/-- `FactoryModule.streamsBySender` and its twin, over the contract query. -/
def streamsBy (query : String → ℕ → ℕ → Except Thrown (List ℤ)) (address : String)
    (offset limit : Number) : Except Thrown FactoryStreamListResult := do
  let clampedLimit := clampListLimit limit
  let ids ← query address (clampOffset offset).toNat clampedLimit.toNat
  return { ids := ids, hasMore := Number.fin ids.length = clampedLimit }

variable {ι : Type}

def streamsBySender (r : Reads ι) := streamsBy r.streamsBySender

def streamsByRecipient (r : Reads ι) := streamsBy r.streamsByRecipient

/-- `_resolveAddr`. -/
def resolveAddr (streamAddress : ℤ → Except Thrown (Option String)) (id : ℤ) :
    Except Thrown String := do
  match ← streamAddress id with
  | some addr =>
    if addr = "" then .error (streamNotFoundError id) else pure addr
  | none => .error (streamNotFoundError id)

/-! ## One page -/

structure ListStreamsParams where
  sender : Option String
  recipient : Option String
  offset : Option Number
  limit : Option Number
  cursor : Option String

structure PaginatedStreams (ι : Type) where
  streams : List ι
  hasNextPage : Bool
  totalCount : ℤ
  offset : Number
  limit : Number
  nextCursor : Option String
  deriving DecidableEq

/-- The offset a cursor stands for; `none` when it is not one. -/
def decodeCursor (cursor : String) : Option Number :=
  let decoded := utf8Decode (fromBase64 cursor.toList)
  if decoded ≠ [] ∧ AllDigits decoded then some (digitsToNum decoded) else none

def encodeCursor (nextOffset : Number) : String :=
  String.ofList (toBase64 (asciiBytes (numToText nextOffset).toList))

/-- `ids.slice(offset, offset + limit)`. -/
def slicePage (ids : List ℤ) (i j : Number) : List ℤ :=
  slice ids (i.relIndex ids.length) (j.relIndex ids.length)

/-- `pageFromFilteredIds`. -/
def pageFromFilteredIds (r : Reads ι) (offset limit : Number) (ids : List ℤ)
    (hasNextPageOverride : Option Bool) : Except Thrown (PaginatedStreams ι) := do
  let _ ← ids.mapM (resolveAddr r.streamAddress)
  let streams ← ids.mapM r.fetchInfo
  let hasNextPage := hasNextPageOverride.getD (Number.fin ids.length = limit)
  let seen := offset.add (.fin ids.length)
  match seen.toBigInt with
  | none => .error (errorOf "RangeError" s!"The number {numToText seen} cannot be converted to a BigInt because it is not an integer")
  | some totalCount =>
    return { streams := streams, hasNextPage := hasNextPage, totalCount := totalCount,
             offset := offset, limit := limit,
             nextCursor := if hasNextPage then some (encodeCursor (offset.add limit)) else none }

/-- A cursor takes precedence over an offset. -/
def startOffset (params : ListStreamsParams) : Except Thrown Number :=
  match params.cursor with
  | none => pure (params.offset.getD (.fin 0))
  | some cursor => match decodeCursor cursor with
    | none => throwNew s!"Invalid cursor: \"{cursor}\""
    | some offset => pure offset

/-- `StreamsModule.list`. -/
def list (r : Reads ι) (params : ListStreamsParams) (aborted : Bool) :
    Except Thrown (PaginatedStreams ι) := do
  if aborted then .error abortError
  let limit := clampListLimit (params.limit.getD (.fin defaultListLimit))
  let offset ← startOffset params
  match truthyText params.sender, truthyText params.recipient with
  | some sender, some recipient =>
    let window := clampListLimit ((offset.add limit).add (.fin 1))
    let rawSender ← streamsBySender r sender (.fin 0) window
    let rawRecipient ← streamsByRecipient r recipient (.fin 0) window
    let merged := merge rawSender.ids rawRecipient.ids
    let hasNextPage := (offset.add limit).lt (.fin merged.length)
    pageFromFilteredIds r offset limit (slicePage merged offset (offset.add limit)) (some hasNextPage)
  | some sender, none =>
    let raw ← streamsBySender r sender offset limit
    pageFromFilteredIds r offset limit raw.ids (some raw.hasMore)
  | none, some recipient =>
    let raw ← streamsByRecipient r recipient offset limit
    pageFromFilteredIds r offset limit raw.ids (some raw.hasMore)
  | none, none =>
    return { streams := [], hasNextPage := false, totalCount := 0, offset := offset,
             limit := limit, nextCursor := none }

/-! ## The pages of a caller -/

/-- The pages a caller gets by passing each `nextCursor` back until there is none. -/
inductive Pages (r : Reads ι) : ListStreamsParams → List (PaginatedStreams ι) → Prop
  | last {params page} : list r params false = .ok page → page.nextCursor = none →
      Pages r params [page]
  | next {params page cursor pages} : list r params false = .ok page →
      page.nextCursor = some cursor → Pages r { params with cursor := some cursor } pages →
      Pages r params (page :: pages)

theorem Pages.unique {r : Reads ι} {params : ListStreamsParams} {pages pages' : List _}
    (h : Pages r params pages) (h' : Pages r params pages') : pages = pages' := by
  induction h generalizing pages' with
  | last hl hn =>
    cases h' with
    | last hl' hn' => rw [hl] at hl'; cases hl'; rfl
    | next hl' hn' _ => rw [hl] at hl'; cases hl'; rw [hn] at hn'; cases hn'
  | next hl hn _ ih =>
    cases h' with
    | last hl' hn' => rw [hl] at hl'; cases hl'; rw [hn] at hn'; cases hn'
    | next hl' hn' hp' =>
      rw [hl] at hl'
      cases hl'
      rw [hn] at hn'
      cases hn'
      rw [ih hp']

theorem decodeCursor_encodeCursor {n : ℕ} (hn : n ≤ 2 ^ 53) :
    decodeCursor (encodeCursor (.fin n)) = some (.fin n) := by
  have hd := allDigits_toDigits n
  have hascii : ∀ c ∈ Nat.toDigits 10 n, c.toNat < 128 := fun c hc => by
    have := isDigit_bounds (hd c hc)
    omega
  have hne : Nat.toDigits 10 n ≠ [] := Nat.toDigits_ne_nil
  rw [decodeCursor, encodeCursor, numToText_natCast hn]
  simp only [String.toList_ofList, text_roundTrip hascii]
  rw [if_pos ⟨hne, hd⟩, digitsToNum_toDigits hn]

/-! ## Both filters -/

/-- The queries return slices of two fixed ascending id lists, and every id resolves. -/
structure Indexed (r : Reads ι) (sender recipient : String) (S R : List ℤ) (info : ℤ → ι) :
    Prop where
  bySender : ∀ o l, r.streamsBySender sender o l = .ok (slice S o (o + l))
  byRecipient : ∀ o l, r.streamsByRecipient recipient o l = .ok (slice R o (o + l))
  sortedS : S.SortedLT
  sortedR : R.SortedLT
  address : ∀ id, id ∈ S ∨ id ∈ R → ∃ a, a ≠ "" ∧ r.streamAddress id = .ok (some a)
  fetch : ∀ id, id ∈ S ∨ id ∈ R → r.fetchInfo id = .ok (info id)

theorem streamsBy_slice {query : String → ℕ → ℕ → Except Thrown (List ℤ)} {address : String}
    {L : List ℤ} (h : ∀ o l, query address o l = .ok (slice L o (o + l))) {w : ℕ} (hw : 0 < w)
    (hw' : w ≤ maxListLimit) :
    ∃ b, streamsBy query address (.fin 0) (.fin w) = .ok { ids := L.take w, hasMore := b } := by
  have hc : clampListLimit (.fin w) = .fin w := by
    rw [clampListLimit_natCast hw]
    exact congrArg (fun n : ℕ => Number.fin n) (Nat.min_eq_left hw')
  have h0 : (Number.fin 0).toNat = 0 := by simpa using Number.toNat_natCast 0
  simp only [streamsBy, hc, clampOffset_zero, h0, Number.toNat_natCast, h]
  exact ⟨_, by simp [slice]; rfl⟩

section Both

variable {r : Reads ι} {sender recipient : String} {S R : List ℤ} {info : ℤ → ι}

theorem Indexed.resolve (h : Indexed r sender recipient S R info) {id : ℤ} (hid : id ∈ S ∨ id ∈ R) :
    ∃ a, resolveAddr r.streamAddress id = .ok a := by
  obtain ⟨a, hne, ha⟩ := h.address id hid
  refine ⟨a, ?_⟩
  simp only [resolveAddr, ha]
  exact if_neg hne

theorem Indexed.page (h : Indexed r sender recipient S R info) {ids : List ℤ}
    (hids : ∀ id ∈ ids, id ∈ S ∨ id ∈ R) {o l : ℕ} (hb : o + ids.length ≤ 2 ^ 53) (b : Bool) :
    pageFromFilteredIds r (.fin o) (.fin l) ids (some b) = .ok
      { streams := ids.map info, hasNextPage := b, totalCount := (o + ids.length : ℕ),
        offset := .fin o, limit := .fin l,
        nextCursor := if b then some (encodeCursor ((Number.fin o).add (.fin l))) else none } := by
  have hres : ids.mapM (resolveAddr r.streamAddress) =
      .ok (ids.map fun id => (resolveAddr r.streamAddress id).toOption.getD "") := by
    apply mapM_ok
    intro id hid
    obtain ⟨a, ha⟩ := h.resolve (hids id hid)
    rw [ha]
    rfl
  have hinfo : ids.mapM r.fetchInfo = .ok (ids.map info) :=
    mapM_ok fun id hid => h.fetch id (hids id hid)
  simp only [pageFromFilteredIds, hres, hinfo, Number.add_natCast hb, Number.toBigInt_natCast,
    Option.getD_some]
  rfl

/-- What paging with both filters can ever see. -/
def firsts (S R : List ℤ) : List ℤ := merge (S.take maxListLimit) (R.take maxListLimit)

theorem mem_of_mem_firsts {id : ℤ} (h : id ∈ firsts S R) : id ∈ S ∨ id ∈ R :=
  (mem_merge.mp h).imp List.mem_of_mem_take List.mem_of_mem_take

theorem length_firsts_le (S R : List ℤ) : (firsts S R).length ≤ 2 * maxListLimit := by
  have hsub : firsts S R ⊆ S.take maxListLimit ++ R.take maxListLimit := fun x hx => by
    rw [List.mem_append]
    exact mem_merge.mp hx
  have := (List.subperm_of_subset (sortedLT_merge _ _).nodup hsub).length_le
  rw [List.length_append] at this
  have hS := List.length_take_le maxListLimit S
  have hR := List.length_take_le maxListLimit R
  unfold firsts
  omega

/-- A window for a page that ends at `m - 1` agrees with `firsts` up to `m`. -/
theorem window_take (hS : S.SortedLT) (hR : R.SortedLT) (m : ℕ) :
    (merge (S.take (m ⊓ maxListLimit)) (R.take (m ⊓ maxListLimit))).take m =
      (firsts S R).take m := by
  rcases le_total m maxListLimit with hm | hm
  · have hmin : m ⊓ maxListLimit = m := Nat.min_eq_left hm
    have ht : ∀ L : List ℤ, L.take m = (L.take maxListLimit).take m := fun L => by
      rw [List.take_take, hmin]
    rw [hmin, ht S, ht R]
    exact take_merge (sortedLT_take hS _) (sortedLT_take hR _) le_rfl
  · rw [Nat.min_eq_right hm]
    rfl

theorem slicePage_natCast (L : List ℤ) (i j : ℕ) : slicePage L (.fin i) (.fin j) = slice L i j := by
  rw [slicePage, Number.relIndex_natCast, Number.relIndex_natCast, slice, slice]
  have hj : L.take (j ⊓ L.length) = L.take j := by
    rcases le_total j L.length with h | h
    · rw [Nat.min_eq_left h]
    · rw [Nat.min_eq_right h, List.take_of_length_le h, List.take_length]
  rw [hj]
  rcases le_total i L.length with h | h
  · rw [Nat.min_eq_left h]
  · rw [Nat.min_eq_right h, List.drop_of_length_le, List.drop_of_length_le]
    · exact (List.length_take_le' _ _).trans h
    · exact List.length_take_le' _ _

theorem slice_congr {α : Type} {A B : List α} {i j : ℕ} (h : A.take (j + 1) = B.take (j + 1)) :
    slice A i j = slice B i j := by
  have hj : A.take j = B.take j := by
    have := congrArg (List.take j) h
    rwa [List.take_take, List.take_take, Nat.min_eq_left (Nat.le_succ j)] at this
  rw [slice, slice, hj]

theorem lt_length_congr {α : Type} {A B : List α} {j : ℕ} (h : A.take (j + 1) = B.take (j + 1)) :
    j < A.length ↔ j < B.length := by
  have := congrArg List.length h
  rw [List.length_take, List.length_take] at this
  omega

/-- A call with both filters that starts at `o`. -/
structure AskBoth (sender recipient : String) (params : ListStreamsParams) (o l : ℕ) : Prop where
  sender : truthyText params.sender = some sender
  recipient : truthyText params.recipient = some recipient
  start : startOffset params = .ok (.fin o)
  limit : clampListLimit (params.limit.getD (.fin defaultListLimit)) = .fin l
  limit_pos : 1 ≤ l
  limit_le : l ≤ maxListLimit

/-- **One page with both filters** is a slice of `firsts`. -/
theorem list_both (h : Indexed r sender recipient S R info) {params : ListStreamsParams} {o l : ℕ}
    (ha : AskBoth sender recipient params o l) (ho : o ≤ 2 * maxListLimit) :
    list r params false = .ok
      { streams := (slice (firsts S R) o (o + l)).map info,
        hasNextPage := decide (o + l < (firsts S R).length),
        totalCount := (o + (slice (firsts S R) o (o + l)).length : ℕ),
        offset := .fin o, limit := .fin l,
        nextCursor :=
          if o + l < (firsts S R).length then some (encodeCursor (.fin (o + l : ℕ))) else none } := by
  have hl := ha.limit_le
  have hcap : maxListLimit = 100 := rfl
  have hol : (Number.fin o).add (.fin l) = .fin (o + l : ℕ) := Number.add_natCast (by omega)
  have hol1 : (Number.fin (o + l : ℕ)).add (.fin 1) = .fin (o + l + 1 : ℕ) := by
    simpa using Number.add_natCast (a := o + l) (b := 1) (by omega)
  have hmin : (o + l + 1) ⊓ maxListLimit ≤ maxListLimit := Nat.min_le_right _ _
  have hminpos : 0 < (o + l + 1) ⊓ maxListLimit := Nat.lt_min.mpr ⟨by omega, by omega⟩
  obtain ⟨b, hb⟩ := streamsBy_slice h.bySender hminpos hmin
  obtain ⟨b', hb'⟩ := streamsBy_slice h.byRecipient hminpos hmin
  have hw := window_take h.sortedS h.sortedR (o + l + 1)
  set M := merge (S.take ((o + l + 1) ⊓ maxListLimit))
    (R.take ((o + l + 1) ⊓ maxListLimit)) with hM
  have hpage : slicePage M (.fin o) (.fin (o + l : ℕ)) = slice (firsts S R) o (o + l) := by
    rw [slicePage_natCast, slice_congr hw]
  have hnext : Number.lt (.fin (o + l : ℕ)) (.fin M.length) =
      decide (o + l < (firsts S R).length) := by
    rw [Number.lt_fin, decide_eq_decide, Nat.cast_lt, lt_length_congr hw]
  have hids : ∀ id ∈ slice (firsts S R) o (o + l), id ∈ S ∨ id ∈ R := fun id hid =>
    mem_of_mem_firsts (List.mem_of_mem_take (List.mem_of_mem_drop hid))
  have hlen : (slice (firsts S R) o (o + l)).length ≤ l := by
    rw [slice, List.length_drop, List.length_take]
    omega
  have := h.page hids (o := o) (l := l) (by omega) (decide (o + l < (firsts S R).length))
  simp only [list, ha.start, ha.limit, ha.sender, ha.recipient, hol, hol1, streamsBySender,
    streamsByRecipient, Bool.false_eq_true, if_false, decide_eq_true_eq,
    clampListLimit_natCast (Nat.succ_pos (o + l)), ok_seq, hb, hb'] at this ⊢
  change pageFromFilteredIds r (.fin o) (.fin l) (slicePage M (.fin o) (.fin (o + l : ℕ)))
    (some ((Number.fin (o + l : ℕ)).lt (.fin M.length))) = _
  rw [hpage, hnext, this]

theorem AskBoth.next {params : ListStreamsParams} {o l : ℕ}
    (ha : AskBoth sender recipient params o l) (ho : o + l ≤ 2 ^ 53) :
    AskBoth sender recipient
      { params with cursor := some (encodeCursor (.fin (o + l : ℕ))) } (o + l) l where
  sender := ha.sender
  recipient := ha.recipient
  start := by
    unfold startOffset
    simp only [decodeCursor_encodeCursor ho]
    rfl
  limit := ha.limit
  limit_pos := ha.limit_pos
  limit_le := ha.limit_le

theorem pages_from (h : Indexed r sender recipient S R info) {params : ListStreamsParams} {o l : ℕ}
    (ha : AskBoth sender recipient params o l) (ho : o ≤ 2 * maxListLimit) :
    ∃ pages, Pages r params pages ∧
      pages.flatMap (·.streams) = ((firsts S R).drop o).map info := by
  -- each page moves the offset on by at least one, and stops at the end of `firsts`
  induction hn : (firsts S R).length - o using Nat.strong_induction_on generalizing params o with
  | _ n ih =>
    have hlist := list_both h ha ho
    have hcap : maxListLimit = 100 := rfl
    have hl := ha.limit_le
    by_cases hnext : o + l < (firsts S R).length
    · have hlen := length_firsts_le S R
      have hpos := ha.limit_pos
      obtain ⟨pages, hpages, hcat⟩ :=
        ih _ (by omega) (ha.next (by omega)) (by omega) (rfl : (firsts S R).length - (o + l) = _)
      rw [if_pos hnext] at hlist
      refine ⟨_, .next hlist rfl hpages, ?_⟩
      rw [List.flatMap_cons, hcat, ← List.map_append, slice_append_drop _ (Nat.le_add_right o l)]
    · rw [if_neg hnext] at hlist
      refine ⟨_, .last hlist rfl, ?_⟩
      rw [List.flatMap_cons, List.flatMap_nil, List.append_nil, slice_eq_drop (not_lt.mp hnext)]

/-- A listing with both filters from the start. -/
def bothFrom (sender recipient : String) (limit : Option Number) : ListStreamsParams where
  sender := some sender
  recipient := some recipient
  offset := some (.fin 0)
  limit := limit
  cursor := none

/-- **Paging with both filters ends**, and shows the first `maxListLimit` ids of each index. -/
theorem pages_both (h : Indexed r sender recipient S R info) (hs : sender ≠ "") (ht : recipient ≠ "")
    (limit : Option Number) : ∃ pages, Pages r (bothFrom sender recipient limit) pages ∧
      pages.flatMap (·.streams) = (firsts S R).map info := by
  obtain ⟨l, hl, hpos, hle⟩ := clampListLimit_range (limit.getD (.fin defaultListLimit))
  have ha : AskBoth sender recipient (bothFrom sender recipient limit) 0 l := {
    sender := by simp [truthyText, bothFrom, hs]
    recipient := by simp [truthyText, bothFrom, ht]
    start := by simp [startOffset, bothFrom]; rfl
    limit := hl
    limit_pos := hpos
    limit_le := hle }
  simpa using pages_from h ha (Nat.zero_le _)

/-- The caller's pages are the ascending union of the two indices, each id once. -/
def ListsUnion (r : Reads ι) (sender recipient : String) (S R : List ℤ) (info : ℤ → ι)
    (limit : Option Number) : Prop :=
  ∃ (pages : List (PaginatedStreams ι)) (U : List ℤ), Pages r (bothFrom sender recipient limit) pages ∧
    U.SortedLT ∧ (∀ id, id ∈ U ↔ id ∈ S ∨ id ∈ R) ∧ pages.flatMap (·.streams) = U.map info

theorem firsts_of_listsUnion (h : Indexed r sender recipient S R info) (hs : sender ≠ "")
    (ht : recipient ≠ "") {limit : Option Number}
    (hu : ListsUnion r sender recipient S R info limit) {id : ℤ} (hid : id ∈ S ∨ id ∈ R) :
    id ∈ firsts S R := by
  obtain ⟨pages, U, hpages, hU, hmem, hcat⟩ := hu
  obtain ⟨pages', hpages', hcat'⟩ := pages_both h hs ht limit
  rw [hpages'.unique hpages, hcat] at hcat'
  have hlen : U.length = (firsts S R).length := by simpa using congrArg List.length hcat'
  have hsub : (firsts S R).Subperm U :=
    List.subperm_of_subset (sortedLT_merge _ _).nodup fun x hx => (hmem x).mpr (mem_of_mem_firsts hx)
  exact (hsub.perm_of_length_le hlen.le).mem_iff.mpr ((hmem id).mpr hid)

/-- **Paging with both filters lists the union** exactly when each id is among the first
`maxListLimit` of one of the two indices. -/
theorem pages_complete_iff (h : Indexed r sender recipient S R info) (hs : sender ≠ "")
    (ht : recipient ≠ "") (limit : Option Number) :
    ListsUnion r sender recipient S R info limit ↔
      ∀ id, id ∈ S ∨ id ∈ R → id ∈ S.take maxListLimit ∨ id ∈ R.take maxListLimit := by
  constructor
  · intro hu id hid
    exact mem_merge.mp (firsts_of_listsUnion h hs ht hu hid)
  · intro hall
    obtain ⟨pages, hpages, hcat⟩ := pages_both h hs ht limit
    exact ⟨pages, firsts S R, hpages, sortedLT_merge _ _,
      fun id => ⟨mem_of_mem_firsts, fun hid => mem_merge.mpr (hall id hid)⟩, hcat⟩

end Both

/-- Reads over two fixed id lists, where every id resolves to itself. -/
def fixedReads (S R : List ℤ) : Reads ℤ where
  streamsBySender _ o l := .ok (slice S o (o + l))
  streamsByRecipient _ o l := .ok (slice R o (o + l))
  streamAddress _ := .ok (some "C")
  fetchInfo id := .ok id

theorem indexed_fixedReads {S R : List ℤ} (hS : S.SortedLT) (hR : R.SortedLT)
    (sender recipient : String) : Indexed (fixedReads S R) sender recipient S R id where
  bySender _ _ := rfl
  byRecipient _ _ := rfl
  sortedS := hS
  sortedR := hR
  address _ _ := ⟨"C", by decide, rfl⟩
  fetch _ _ := rfl

theorem pages_complete_three : ListsUnion (fixedReads [1, 2] [2, 3]) "G" "H" [1, 2] [2, 3] id
      (some (.fin 1)) ↔
    ∀ id, id ∈ [1, 2] ∨ id ∈ [2, 3] →
      id ∈ ([1, 2] : List ℤ).take maxListLimit ∨ id ∈ ([2, 3] : List ℤ).take maxListLimit :=
  pages_complete_iff (indexed_fixedReads (by simp [List.sortedLT_iff_pairwise])
    (by simp [List.sortedLT_iff_pairwise]) "G" "H") (by decide) (by decide) (some (.fin 1))

/-- The ids from `0` up to `n - 1`. -/
def idsBelow (n : ℕ) : List ℤ := (List.range n).map Int.ofNat

theorem sortedLT_idsBelow (n : ℕ) : (idsBelow n).SortedLT := by
  rw [List.sortedLT_iff_pairwise, idsBelow, List.pairwise_map]
  exact List.pairwise_lt_range.imp fun h => by simpa using h

/-- Of `101` ids of a sender, the last one is on no page. -/
theorem not_listsUnion_101 : ¬ ListsUnion (fixedReads (idsBelow 101) []) "G" "H" (idsBelow 101) []
    id (some (.fin 100)) := by
  intro hu
  have hi := indexed_fixedReads (sortedLT_idsBelow 101) (R := []) (by simp [List.sortedLT_iff_pairwise]) "G" "H"
  have : 100 ∈ firsts (idsBelow 101) [] :=
    firsts_of_listsUnion hi (by decide) (by decide) hu (.inl (by decide))
  rw [firsts, mem_merge] at this
  revert this
  decide

end StreamFi
