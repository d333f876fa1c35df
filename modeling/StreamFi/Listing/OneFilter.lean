import StreamFi.Factory.Paging
import StreamFi.Amount

/-!
# Listing by one filter

With one filter `list` reads its page from the clamped offset, and counts on from the offset that
was given.

* `FilteredBy`: one filter, whose index is a fixed list of ids;
* `ListsSuffix`: the pages of a caller hold the ids from the first page on;
* **`listsSuffix_iff`**: for which offsets they do.
-/

namespace StreamFi

open Js Sorted

variable {ι : Type}

/-- A call with one filter, whose query returns slices of a fixed list. -/
def FilteredBy (r : Reads ι) (params : ListStreamsParams) (L : List ℤ) : Prop :=
  (∃ sender, truthyText params.sender = some sender ∧ truthyText params.recipient = none ∧
    ∀ o l, r.streamsBySender sender o l = .ok (slice L o (o + l))) ∨
  ∃ recipient, truthyText params.sender = none ∧ truthyText params.recipient = some recipient ∧
    ∀ o l, r.streamsByRecipient recipient o l = .ok (slice L o (o + l))

/-- Every id of a list has an address and a stream. -/
structure Resolvable (r : Reads ι) (L : List ℤ) (info : ℤ → ι) : Prop where
  address : ∀ id ∈ L, ∃ a, a ≠ "" ∧ r.streamAddress id = .ok (some a)
  fetch : ∀ id ∈ L, r.fetchInfo id = .ok (info id)

/-- The pages end, and hold the streams from the first position on. -/
def ListsSuffix (r : Reads ι) (params : ListStreamsParams) (L : List ℤ) (info : ℤ → ι)
    (offset : Number) : Prop :=
  ∃ pages, Pages r params pages ∧ pages.flatMap (·.streams) = (L.drop (readFrom offset)).map info

section Page

variable {r : Reads ι} {L : List ℤ} {info : ℤ → ι}

/-- **One page of resolvable ids** fails exactly when the total cannot be a `BigInt`. -/
theorem Resolvable.page (h : Resolvable r L info) {ids : List ℤ} (hids : ∀ id ∈ ids, id ∈ L)
    (offset limit : Number) (more : Bool) :
    pageFromFilteredIds r offset limit ids (some more) =
      (bigIntOfNumber (offset.add (.fin ids.length))).map fun totalCount =>
        { streams := ids.map info, hasNextPage := more, totalCount := totalCount, offset := offset,
          limit := limit,
          nextCursor := if more then some (encodeCursor (offset.add limit)) else none } := by
  have hres : ids.mapM (resolveAddr r.streamAddress) =
      .ok (ids.map fun id => (resolveAddr r.streamAddress id).toOption.getD "") := by
    apply mapM_ok
    intro id hid
    obtain ⟨a, hne, ha⟩ := h.address id (hids id hid)
    have hok : resolveAddr r.streamAddress id = .ok a := by
      simp only [resolveAddr, ha]
      exact if_neg hne
    rw [hok]
    rfl
  have hinfo : ids.mapM r.fetchInfo = .ok (ids.map info) :=
    mapM_ok fun id hid => h.fetch id (hids id hid)
  simp only [pageFromFilteredIds, hres, hinfo, ok_seq, Option.getD_some, bigIntOfNumber]
  cases (offset.add (.fin ids.length)).toBigInt <;> rfl

/-- **One page with one filter.** -/
theorem list_one (h : Resolvable r L info) {params : ListStreamsParams} (hf : FilteredBy r params L)
    {offset : Number} (hstart : startOffset params = .ok offset) {l : ℕ}
    (hl : clampListLimit (params.limit.getD (.fin defaultListLimit)) = .fin l) (hpos : 1 ≤ l)
    (hle : l ≤ maxListLimit) :
    list r params false =
      (bigIntOfNumber (offset.add (.fin (min l (L.length - readFrom offset) : ℕ)))).map
        fun totalCount =>
          { streams := (slice L (readFrom offset) (readFrom offset + l)).map info
            hasNextPage := decide (l ≤ L.length - readFrom offset)
            totalCount := totalCount
            offset := offset
            limit := .fin l
            nextCursor := if l ≤ L.length - readFrom offset then some (encodeCursor (offset.add (.fin l)))
              else none } := by
  have hclamp : clampListLimit (.fin l) = .fin l := by
    rw [clampListLimit_natCast hpos]
    exact congrArg (fun n : ℕ => Number.fin n) (Nat.min_eq_left hle)
  have hids : ∀ id ∈ slice L (readFrom offset) (readFrom offset + l), id ∈ L :=
    fun id hid => List.mem_of_mem_take (List.mem_of_mem_drop hid)
  have hpage := h.page hids offset (.fin l) (decide (l ≤ L.length - readFrom offset))
  simp only [length_slice, decide_eq_true_eq] at hpage
  have hmore : ((slice L (readFrom offset) (readFrom offset + l)).length = l) ↔
      l ≤ L.length - readFrom offset := by
    rw [length_slice]
    exact min_eq_left_iff
  rcases hf with ⟨sender, hs, hr, hq⟩ | ⟨recipient, hs, hr, hq⟩
  all_goals
    have hread := streamsBy_eq hq hclamp offset
    simp only [hmore] at hread
    simp only [list, hstart, hl, hs, hr, ok_seq, Bool.false_eq_true, if_false, streamsBySender,
      streamsByRecipient, hread]
    exact hpage

/-! ## Whole offsets -/

theorem drop_readFrom (hL : L.length < 2 ^ 32) (n : ℕ) :
    L.drop (readFrom (.fin n)) = L.drop n ∧ L.length - readFrom (.fin n) = L.length - n := by
  rcases lt_or_ge n (2 ^ 32) with hn | hn
  · rw [readFrom_natCast hn]
    exact ⟨rfl, rfl⟩
  · -- the offset is clamped to the largest position, behind every list
    rw [readFrom_of_trunc (Number.trunc_natCast n), Nat.min_eq_right (by omega),
      List.drop_of_length_le (by omega), List.drop_of_length_le (by omega)]
    exact ⟨rfl, by omega⟩

theorem startOffset_encode {params : ListStreamsParams} {n : ℕ} (hn : n ≤ 2 ^ 53) :
    startOffset { params with cursor := some (encodeCursor (.fin n)) } = .ok (.fin n) := by
  unfold startOffset
  simp only [decodeCursor_encodeCursor hn]
  rfl

/-- **From a whole offset on, nothing is lost or repeated.** -/
theorem pages_of_natural (h : Resolvable r L info) (hL : L.length < 2 ^ 32)
    {params : ListStreamsParams} (hf : FilteredBy r params L) {n : ℕ} (hn : n ≤ 2 ^ 53)
    (hstart : startOffset params = .ok (.fin n)) :
    ∃ pages, Pages r params pages ∧ pages.flatMap (·.streams) = (L.drop n).map info := by
  obtain ⟨l, hl, hpos, hle⟩ := clampListLimit_range (params.limit.getD (.fin defaultListLimit))
  -- each full page moves the offset on by at least one id, and not past the end
  induction hrest : L.length - n using Nat.strong_induction_on generalizing params n with
  | _ rest ih =>
    obtain ⟨hdrop, hlen⟩ := drop_readFrom hL n
    have hpage := list_one h hf hstart hl hpos hle
    have hcap : maxListLimit = 100 := rfl
    have hadd : (Number.fin n).add (.fin (min l (L.length - n) : ℕ)) =
        .fin (n + min l (L.length - n) : ℕ) := Number.add_natCast (by omega)
    rw [hlen, hadd, bigIntOfNumber, Number.toBigInt_natCast] at hpage
    by_cases hmore : l ≤ L.length - n
    · have hnext : (Number.fin n).add (.fin l) = .fin (n + l : ℕ) := Number.add_natCast (by omega)
      simp only [hmore, if_true, hnext] at hpage
      have hf' : FilteredBy r { params with cursor := some (encodeCursor (.fin (n + l : ℕ))) } L := hf
      obtain ⟨pages, hpages, hcat⟩ := ih (L.length - (n + l)) (by omega) hf' (by omega)
        (startOffset_encode (by omega)) hl rfl
      refine ⟨_, .next hpage rfl hpages, ?_⟩
      rw [readFrom_natCast (by omega), List.flatMap_cons, hcat, ← List.map_append,
        slice_append_drop L (Nat.le_add_right n l)]
    · simp only [hmore, if_false] at hpage
      refine ⟨_, .last hpage rfl, ?_⟩
      rw [List.flatMap_cons, List.flatMap_nil, List.append_nil, slice_eq_drop (by omega), hdrop]

/-- From a cursor on, too. -/
theorem pages_of_cursor (h : Resolvable r L info) (hL : L.length < 2 ^ 32)
    {params : ListStreamsParams} (hf : FilteredBy r params L) {c : ℕ} (hc : c ≤ 2 ^ 53) :
    ∃ pages, Pages r { params with cursor := some (encodeCursor (.fin c)) } pages ∧
      pages.flatMap (·.streams) = (L.drop c).map info := by
  have hf' : FilteredBy r { params with cursor := some (encodeCursor (.fin c)) } L := hf
  exact pages_of_natural h hL hf' hc (startOffset_encode hc)

/-! ## Other offsets -/

theorem toNat_lt_of_numeralChar {c : Char} (h : NumeralChar c) : c.toNat < 128 := by
  rcases h with (hc | rfl | rfl | rfl | rfl) | hc
  · have := isDigit_bounds hc
    omega
  · decide
  · decide
  · decide
  · decide
  · fin_cases hc <;> decide

/-- **The cursor of a negative offset is refused.** -/
theorem decodeCursor_negative {x : Number} (hx : Number.IsDouble x) (hneg : x.lt (.fin 0) = true) :
    decodeCursor (encodeCursor x) = none := by
  have hascii : ∀ c ∈ (numToText x).toList, c.toNat < 128 :=
    fun c hc => toNat_lt_of_numeralChar (numeralChar_numToText hx c hc)
  have hhead : '-' ∈ (numToText x).toList := by
    cases x with
    | nan | posInf => cases hneg
    | negInf => decide
    | fin q =>
      have hq : q < 0 := by simpa using hneg
      rw [numToText, String.toList_ofList, if_pos hq]
      exact List.mem_cons_self
  rw [decodeCursor, encodeCursor]
  simp only [String.toList_ofList, text_roundTrip hascii]
  rw [if_neg]
  rintro ⟨-, hdigits⟩
  cases hdigits '-' hhead

/-- An offset below the largest one is clamped to at least its integer part. -/
theorem lt_readFrom_add_one {q : ℚ} (hlt : readFrom (.fin q) < 0xFFFFFFFF) :
    q < readFrom (.fin q) + 1 := by
  rcases lt_or_ge q 0 with hneg | hq
  · have : (0 : ℚ) ≤ readFrom (.fin q) := by positivity
    linarith
  · have htrunc : Number.trunc (.fin q) = .fin (⌊q⌋.toNat : ℕ) := by
      have hfloor := Int.toNat_of_nonneg (Int.floor_nonneg.mpr hq)
      rw [Number.trunc, if_pos hq]
      exact_mod_cast congrArg (fun z : ℤ => Number.fin z) hfloor.symm
    rw [readFrom_of_trunc htrunc] at hlt ⊢
    rw [Nat.min_eq_left (by omega)]
    have hfloor := Nat.lt_floor_add_one q
    rwa [← Int.floor_toNat] at hfloor

def pageSize (params : ListStreamsParams) : ℕ :=
  (clampListLimit (params.limit.getD (.fin defaultListLimit))).toNat

/-- The offset and the ids of the first page make a whole number. If the page is full, the offset
behind it is a natural number: the position behind the page, or, when the page was the last one, any
position behind it. -/
def Continues (L : List ℤ) (offset : Number) (l : ℕ) : Prop :=
  (offset.add (.fin (min l (L.length - readFrom offset) : ℕ))).isInteger = true ∧
    (l ≤ L.length - readFrom offset → ∃ c : ℕ, offset.add (.fin l) = .fin c ∧
      (c = readFrom offset + l ∨ L.length = readFrom offset + l ∧ L.length ≤ c))

/-- The offset behind a full page is at most one more than the position behind it. -/
theorem next_le (hL : L.length < 2 ^ 32) {q : ℚ} {l c : ℕ} (hle : l ≤ maxListLimit) (hpos : 1 ≤ l)
    (hmore : l ≤ L.length - readFrom (.fin q)) (hc : (Number.fin q).add (.fin l) = .fin c) :
    c ≤ readFrom (.fin q) + l + 1 := by
  have hlt := lt_readFrom_add_one (q := q) (by omega)
  have hcap : maxListLimit = 100 := rfl
  have hbound : q + l ≤ ((readFrom (.fin q) + l + 1 : ℕ) : ℚ) := by
    push_cast
    linarith
  have hdouble : Number.IsDouble (.fin ((readFrom (.fin q) + l + 1 : ℕ) : ℚ)) := by
    have habs : |((readFrom (.fin q) + l + 1 : ℕ) : ℤ)| ≤ 2 ^ 53 := by
      rw [abs_of_nonneg (by positivity)]
      exact_mod_cast (by omega : readFrom (.fin q) + l + 1 ≤ 2 ^ 53)
    exact_mod_cast Number.isDouble_intCast habs
  have hsum := Number.ofRat_le_fin hdouble hbound
  change ((Number.fin q).add (.fin l)).le _ = true at hsum
  rw [hc, Number.le_fin, decide_eq_true_eq] at hsum
  exact_mod_cast hsum

theorem fin_of_isInteger_add {offset x : Number} (h : (offset.add x).isInteger = true) :
    ∃ q, offset = .fin q := by
  cases offset with
  | fin q => exact ⟨q, rfl⟩
  | nan | posInf | negInf => cases x <;> cases h

theorem startOffset_of_pages {params : ListStreamsParams} {pages : List (PaginatedStreams ι)}
    (h : Pages r params pages) : ∃ offset, startOffset params = .ok offset := by
  obtain ⟨page, hpage⟩ : ∃ page, list r params false = .ok page := by
    cases h with
    | last hok _ | next hok _ _ => exact ⟨_, hok⟩
  simp only [list, Bool.false_eq_true, if_false] at hpage
  obtain ⟨offset, hstart, -⟩ := seq_ok_iff.mp hpage
  exact ⟨offset, hstart⟩

/-- The cursor behind a full page, where it is accepted, is of a natural number. -/
theorem cursor_natural {params : ListStreamsParams} {x : Number} (hx : Number.IsDouble x)
    (hint : x.isInteger = true) {pages : List (PaginatedStreams ι)}
    (h : Pages r { params with cursor := some (encodeCursor x) } pages) : ∃ c : ℕ, x = .fin c := by
  obtain ⟨z, rfl⟩ := Number.isInteger_iff.mp hint
  obtain ⟨offset, hstart⟩ := startOffset_of_pages h
  have hz : 0 ≤ z := by
    by_contra hneg
    have hlt : (Number.fin z).lt (.fin 0) = true := by simpa using hneg
    unfold startOffset at hstart
    simp only [decodeCursor_negative hx hlt] at hstart
    cases hstart
  lift z to ℕ using hz
  exact ⟨z, by simp⟩

/-- **For which offsets a listing by one filter is complete.** -/
theorem listsSuffix_iff (h : Resolvable r L info) (hL : L.length < 2 ^ 32) {params : ListStreamsParams}
    (hf : FilteredBy r params L) {offset : Number} (hstart : startOffset params = .ok offset) :
    (ListsSuffix r params L info offset ↔ Continues L offset (pageSize params)) ∧
      ∀ n : ℕ, offset = .fin n → n ≤ 2 ^ 53 → ListsSuffix r params L info offset := by
  obtain ⟨l, hl, hpos, hle⟩ := clampListLimit_range (params.limit.getD (.fin defaultListLimit))
  have hsize : pageSize params = l := by rw [pageSize, hl, Number.toNat_natCast]
  have hcap : maxListLimit = 100 := rfl
  have hpage := list_one h hf hstart hl hpos hle
  rw [hsize]
  refine ⟨⟨?_, ?_⟩, ?_⟩
  · rintro ⟨pages, hpages, hcat⟩
    have hfirst : (offset.add (.fin (min l (L.length - readFrom offset) : ℕ))).isInteger = true := by
      rw [← bigIntOfNumber_ok_iff]
      cases hpages with
      | last hok _ | next hok _ _ =>
        rw [hpage] at hok
        obtain ⟨n, hn, -⟩ := map_ok_iff.mp hok
        exact ⟨n, hn⟩
    refine ⟨hfirst, ?_⟩
    intro hmore
    rw [Nat.min_eq_left hmore] at hfirst hpage
    obtain ⟨q, rfl⟩ := fin_of_isInteger_add hfirst
    obtain ⟨z, hz⟩ := Number.isInteger_iff.mp hfirst
    obtain ⟨total, htotal⟩ := bigIntOfNumber_ok_iff.mpr hfirst
    rw [htotal] at hpage
    simp only [hmore, if_true, Except.map] at hpage
    cases hpages with
    | last hok hnone =>
      rw [hpage] at hok
      cases hok
      cases hnone
    | next hok hsome hrest =>
      rw [hpage] at hok
      cases hok
      cases hsome
      obtain ⟨c, hc⟩ := cursor_natural (Number.isDouble_add _ _) hfirst hrest
      have hcle := next_le hL hle hpos hmore hc
      rw [hc] at hrest
      obtain ⟨pages, hpages, hcat'⟩ := pages_of_cursor h hL hf (c := c) (by omega)
      rw [List.flatMap_cons, hrest.unique hpages, hcat'] at hcat
      have hlen := congrArg List.length hcat
      simp only [List.length_append, List.length_map, List.length_drop, length_slice] at hlen
      exact ⟨c, hc, by omega⟩
  · rintro ⟨hfirst, hnext⟩
    obtain ⟨total, htotal⟩ := bigIntOfNumber_ok_iff.mpr hfirst
    rw [htotal] at hpage
    by_cases hmore : l ≤ L.length - readFrom offset
    · obtain ⟨c, hc, hcase⟩ := hnext hmore
      obtain ⟨q, rfl⟩ := fin_of_isInteger_add hfirst
      have hcle := next_le hL hle hpos hmore hc
      simp only [hmore, if_true, Except.map, hc] at hpage
      obtain ⟨pages, hpages, hcat⟩ := pages_of_cursor h hL hf (c := c) (by omega)
      have hdrop : L.drop c = L.drop (readFrom (.fin q) + l) := by
        rcases hcase with rfl | ⟨hend, hbehind⟩
        · rfl
        · rw [List.drop_of_length_le hbehind, List.drop_of_length_le hend.le]
      refine ⟨_, .next hpage rfl hpages, ?_⟩
      rw [List.flatMap_cons, hcat, hdrop, ← List.map_append,
        slice_append_drop L (Nat.le_add_right _ l)]
    · simp only [hmore, if_false, Except.map] at hpage
      refine ⟨_, .last hpage rfl, ?_⟩
      rw [List.flatMap_cons, List.flatMap_nil, List.append_nil, slice_eq_drop (by omega)]
  · rintro n rfl hn
    have hpages := pages_of_natural h hL hf hn hstart
    rwa [← (drop_readFrom hL n).1] at hpages

end Page

/-- A listing of a sender's streams in pages of two. -/
def twoBySender (offset : Number) : ListStreamsParams where
  sender := some "G"
  recipient := none
  offset := some offset
  limit := some (.fin 2)
  cursor := none

theorem resolvable_fixedReads (S R L : List ℤ) : Resolvable (fixedReads S R) L id where
  address _ _ := ⟨"C", by decide, rfl⟩
  fetch _ _ := rfl

theorem filteredBy_twoBySender (S R : List ℤ) (offset : Number) :
    FilteredBy (fixedReads S R) (twoBySender offset) S :=
  .inl ⟨"G", by simp [twoBySender, truthyText], rfl, fun _ _ => rfl⟩

theorem listsSuffix_three :
    ListsSuffix (fixedReads [5, 6, 7] []) (twoBySender (.fin 1)) [5, 6, 7] id (.fin 1) :=
  (listsSuffix_iff (resolvable_fixedReads _ _ _) (by decide) (filteredBy_twoBySender _ _ _) rfl).2 1
    (by simp [twoBySender]) (by norm_num)

/-- **From `-1` an id is listed twice**, and from `1 / 2` the listing throws. -/
theorem negative_offset_repeats :
    (∃ pages, Pages (fixedReads [5, 6, 7] []) (twoBySender (.fin (-1))) pages ∧
      pages.flatMap (·.streams) = [5, 6, 6, 7]) ∧
    ¬ ListsSuffix (fixedReads [5, 6, 7] []) (twoBySender (.fin (-1))) [5, 6, 7] id (.fin (-1)) ∧
    (list (fixedReads [5, 6, 7] []) (twoBySender (.fin (1 / 2))) false).isOk = false := by
  have hpages : Pages (fixedReads [5, 6, 7] []) (twoBySender (.fin (-1)))
      [{ streams := [5, 6], hasNextPage := true, totalCount := 1, offset := .fin (-1),
         limit := .fin 2, nextCursor := some "MQ==" },
       { streams := [6, 7], hasNextPage := true, totalCount := 3, offset := .fin 1,
         limit := .fin 2, nextCursor := some "Mw==" },
       { streams := [], hasNextPage := false, totalCount := 3, offset := .fin 3,
         limit := .fin 2, nextCursor := none }] := by
    refine .next (by decide +kernel) rfl (.next (by decide +kernel) rfl (.last (by decide +kernel) rfl))
  refine ⟨⟨_, hpages, rfl⟩, ?_, by decide +kernel⟩
  rintro ⟨pages, hlist, hcat⟩
  rw [hlist.unique hpages] at hcat
  have hfrom : readFrom (.fin (-1)) = 0 := by decide
  rw [hfrom] at hcat
  exact absurd hcat (by decide)

end StreamFi
