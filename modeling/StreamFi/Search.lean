import StreamFi.Js.Quotient
import StreamFi.Js.Sign
import StreamFi.Js.Value
import StreamFi.Sorted.Heap
import StreamFi.Sorted.Stable

/-!
# Searching streams

`useStreamSearch` filters a list of streams by status and by the terms of a query. Each match has a score, and
the matches are sorted by it.

* `fieldValues`, `scoreMatch`, `fuzzyScore`, `scoreTerms`, `useStreamSearch`: the code, on strings as UTF-16
  code units where it counts them;
* `StatusFilter.labels`: the labels that a status filter asks for, with `searchStatuses_eq`;
* `indexOf_isSome_iff`, `isSubsequence_iff`: what the two ways to match find;
* `selects`, `hasEveryTerm`: which streams are selected, and which of them have every term as it stands;
* **`scoreStream_eq`**: a stream is scored when it is selected, and its score is `cost`;
* **`useStreamSearch_results`**: the results are the selected streams, sorted by `cost`;
* **`search_documented_iff`**: when they stand in the documented order.
-/

namespace StreamFi

open Js Sorted

/-! ## The code -/

/-- Metadata is listed by its own entries. -/
structure SearchableStream (ι : Type) where
  id : Value ι := .undefined
  address : Option String := none
  sender : Option String := none
  recipient : Option String := none
  token : Option String := none
  status : Option String := none
  memo : Option String := none
  note : Option String := none
  txHash : Option String := none
  metadata : List (String × Value ι) := []

inductive StatusFilter where
  | absent
  | one (status : String)
  | many (statuses : List String)

structure UseStreamSearchOptions where
  status : StatusFilter := .absent
  fuzzy : Option Bool := none
  limit : Option Number := none

structure UseStreamSearchResult (τ : Type) where
  results : List τ
  total : ℕ

/-- The loop over the haystack; `i` counts the characters that were found. -/
def isSubsequence (needle haystack : List ℕ) : Bool :=
  haystack.foldl (fun i c => if needle[i]? = some c then i + 1 else i) 0 = needle.length

structure FieldValue where
  value : String
  hash : Bool

/-- `String(v)` of what is searched; other values are not. -/
def searchText {ι : Type} : Value ι → Option String
  | .string s => some s
  | .number x => some (numToText x)
  | .bigint n => some (toString n)
  | _ => none

/-- A field that may be missing. -/
def fieldOf {ι : Type} (field : Option String) : Value ι := field.elim .undefined .string

/-- `DEFAULT_FIELDS` of a stream, with whether they are in `HASH_FIELDS`, and its metadata. -/
def searchedFields {ι : Type} (stream : SearchableStream ι) : List (Value ι × Bool) :=
  [(stream.id, false), (fieldOf stream.address, false), (fieldOf stream.sender, false),
    (fieldOf stream.recipient, false), (fieldOf stream.token, false), (fieldOf stream.memo, false),
    (fieldOf stream.note, false), (fieldOf stream.txHash, true)] ++
    stream.metadata.map fun entry => (entry.2, false)

/-- `s.indexOf(term)`, with `none` for `-1`. -/
def indexOf (term s : List ℕ) : Option ℕ := s.tails.findIdx? fun rest => term.isPrefixOf rest

/-- The double `0.01`. -/
def hundredth : Number := .fin (5764607523034235 / 2 ^ 59)

/-- The character that separates the labels of a key. -/
def nul : Char := '\x00'

def statusFilterKey : StatusFilter → List Char
  | .absent => []
  | .one status => status.toList
  | .many statuses => [nul].intercalate (statuses.map String.toList)

section Code

variable {ι τ : Type} (toLowerCase : String → String) (view : τ → SearchableStream ι)

def fieldValues (stream : SearchableStream ι) : List FieldValue :=
  (searchedFields stream).filterMap fun field =>
    (searchText field.1).map fun text => { value := toLowerCase text, hash := field.2 }

def scoreMatch (term value : String) : Number :=
  match indexOf (utf16 term) (utf16 (toLowerCase value)) with
  | some idx => (Number.fin idx).add ((Number.fin (utf16 term).length).mul hundredth)
  | none => .posInf

def fuzzyScore (term value : String) : Number :=
  if isSubsequence (utf16 term) (utf16 value) then .fin (utf16 term).length else .posInf

/-- The best score of a term as it stands. -/
def substringScore (values : List FieldValue) (term : String) : Number :=
  values.foldl (fun best field => best.min (scoreMatch toLowerCase term field.value)) .posInf

/-- The best score of a term with gaps. -/
def fuzzyMatchScore (values : List FieldValue) (term : String) : Number :=
  values.foldl (fun best field => if field.hash then best else best.min (fuzzyScore term field.value)) .posInf

/-- The loop over the terms; `none` is a term that does not match. -/
def scoreTerms (fuzzy : Bool) (values : List FieldValue) : List String → Number → Option Number
  | [], score => some score
  | term :: terms, score =>
    if (substringScore toLowerCase values term).isFinite then
      scoreTerms fuzzy values terms (score.add (substringScore toLowerCase values term))
    else if fuzzy && (fuzzyMatchScore values term).isFinite then
      scoreTerms fuzzy values terms (score.add ((fuzzyMatchScore values term).add (.fin 1000)))
    else none

def searchStatuses (filter : StatusFilter) : List String :=
  if statusFilterKey filter = [] then []
  else ((statusFilterKey filter).splitOn nul).map fun label => toLowerCase (String.ofList label)

def searchTerms (query : String) : List String :=
  (((toLowerCase query).toList.splitOnP isSpace).filter (· ≠ [])).map String.ofList

/-- The body of the loop over the streams; `none` is a stream that is passed over. -/
def scoreStream (fuzzy : Bool) (statuses terms : List String) (stream : SearchableStream ι) : Option Number :=
  if statuses ≠ [] ∧ toLowerCase (stream.status.getD "") ∉ statuses then none
  else if terms = [] then some (.fin 0)
  else scoreTerms toLowerCase fuzzy (fieldValues toLowerCase stream) terms (.fin 0)

structure ScoredStream (τ : Type) where
  stream : τ
  score : Number

def useStreamSearch (streams : List τ) (query : String) (options : UseStreamSearchOptions) :
    UseStreamSearchResult τ :=
  let statuses := searchStatuses toLowerCase options.status
  let terms := searchTerms toLowerCase query
  let scored := streams.filterMap fun stream =>
    (scoreStream toLowerCase (options.fuzzy.getD true) statuses terms (view stream)).map fun score =>
      ({ stream, score } : ScoredStream τ)
  let all := (scored.mergeSort fun a b => !(Number.fin 0).lt (a.score.sub b.score)).map ScoredStream.stream
  { results := match options.limit with
      | some limit => all.take (limit.relIndex all.length)
      | none => all
    total := all.length }

end Code

/-! ## Labels -/

/-- The labels that a filter gives. -/
def StatusFilter.given : StatusFilter → List String
  | .absent => []
  | .one status => [status]
  | .many statuses => statuses

/-- The labels that a filter asks for. A NUL separates two labels, and nothing but an empty one is no filter. -/
def StatusFilter.labels (filter : StatusFilter) : List String :=
  if filter.given = [] ∨ filter.given = [""] then []
  else filter.given.flatMap fun status => (status.toList.splitOn nul).map String.ofList

theorem statusKey_eq (filter : StatusFilter) :
    statusFilterKey filter = [nul].intercalate (filter.given.map String.toList) := by
  cases filter with
  | absent => rfl
  | one status => simp [statusFilterKey, StatusFilter.given]
  | many statuses => rfl

theorem splitOn_intercalate_flatMap {α : Type} [DecidableEq α] (sep : α) {parts : List (List α)}
    (h : parts ≠ []) : ([sep].intercalate parts).splitOn sep = parts.flatMap fun part => part.splitOn sep := by
  induction parts with
  | nil => exact absurd rfl h
  | cons part parts ih =>
    cases parts with
    | nil => simp
    | cons next parts =>
      rw [List.intercalate_cons_cons, List.append_assoc, List.singleton_append, List.splitOn_append_cons_self,
        ih (List.cons_ne_nil next parts)]
      rfl

theorem intercalate_eq_nil_iff {α : Type} (sep : α) (parts : List (List α)) :
    [sep].intercalate parts = [] ↔ parts = [] ∨ parts = [[]] := by
  cases parts with
  | nil => simp
  | cons part parts =>
    cases parts with
    | nil => simp
    | cons next parts => simp [List.intercalate_cons_cons]

theorem searchStatuses_eq (toLowerCase : String → String) (filter : StatusFilter) :
    searchStatuses toLowerCase filter = filter.labels.map toLowerCase := by
  have hempty : filter.given.map String.toList = [[]] ↔ filter.given = [""] := by
    rw [List.map_eq_singleton_iff]
    constructor
    · rintro ⟨s, hs, htext⟩
      rw [hs, String.toList_eq_nil_iff.mp htext]
    · intro h
      exact ⟨"", h, rfl⟩
  rw [searchStatuses, StatusFilter.labels, statusKey_eq]
  by_cases hnone : filter.given = [] ∨ filter.given = [""]
  · rw [if_pos hnone, if_pos, List.map_nil]
    rwa [intercalate_eq_nil_iff, List.map_eq_nil_iff, hempty]
  · rw [if_neg hnone, if_neg]
    · rw [splitOn_intercalate_flatMap nul (by simpa using (not_or.mp hnone).1), List.flatMap_map,
        List.map_flatMap, List.map_flatMap]
      simp only [List.map_map]
      rfl
    · rwa [intercalate_eq_nil_iff, List.map_eq_nil_iff, hempty]

/-- **Labels without a NUL** are asked for as they are given. -/
theorem labels_eq_given {filter : StatusFilter} (h : ∀ s ∈ filter.given, nul ∉ s.toList)
    (hempty : filter.given ≠ [""]) : filter.labels = filter.given := by
  rw [StatusFilter.labels]
  split_ifs with hnone
  · exact (hnone.resolve_right hempty).symm
  · have hself : ∀ s ∈ filter.given, (s.toList.splitOn nul).map String.ofList = [s] := by
      intro s hs
      rw [List.splitOn_eq_singleton (h s hs), List.map_singleton, String.ofList_toList]
    rw [List.flatMap_congr hself, List.flatMap_singleton']

/-! ## Positions and subsequences -/

theorem indexOf_isSome_iff (term s : List ℕ) : (indexOf term s).isSome = true ↔ term <:+: s := by
  rw [indexOf, List.findIdx?_isSome, List.any_eq_true, List.infix_iff_prefix_suffix]
  constructor
  · rintro ⟨rest, hrest, hterm⟩
    exact ⟨rest, List.isPrefixOf_iff_prefix.mp hterm, (List.mem_tails _ _).mp hrest⟩
  · rintro ⟨rest, hterm, hrest⟩
    exact ⟨rest, (List.mem_tails _ _).mpr hrest, List.isPrefixOf_iff_prefix.mpr hterm⟩

theorem indexOf_le {term s : List ℕ} {idx : ℕ} (h : indexOf term s = some idx) : idx ≤ s.length := by
  obtain ⟨hlt, -⟩ := List.findIdx?_eq_some_iff_getElem.mp h
  rw [List.length_tails] at hlt
  omega

/-- **The loop finds what is left of the needle** when the rest of it is a subsequence. -/
theorem foldl_subsequence (needle haystack : List ℕ) {i : ℕ} (hi : i ≤ needle.length) :
    haystack.foldl (fun i c => if needle[i]? = some c then i + 1 else i) i = needle.length ↔
      (needle.drop i).Sublist haystack := by
  induction haystack generalizing i with
  | nil =>
    rw [List.foldl_nil, List.sublist_nil, List.drop_eq_nil_iff]
    omega
  | cons c haystack ih =>
    rw [List.foldl_cons]
    rcases hi.eq_or_lt with rfl | hlt
    · rw [if_neg (by simp), ih le_rfl, List.drop_length]
      simp
    · rw [List.drop_eq_getElem_cons hlt, List.getElem?_eq_getElem hlt]
      by_cases hc : needle[i] = c
      · rw [if_pos (congrArg some hc), ih hlt, hc, List.cons_sublist_cons]
      · rw [if_neg (by simpa using hc), ih hi, List.drop_eq_getElem_cons hlt, List.sublist_cons_iff]
        constructor
        · exact .inl
        · rintro (h | ⟨rest, heq, -⟩)
          · exact h
          · exact absurd (List.cons.inj heq).1 hc

theorem isSubsequence_iff (needle haystack : List ℕ) :
    isSubsequence needle haystack = true ↔ needle.Sublist haystack := by
  rw [isSubsequence, decide_eq_true_eq, foldl_subsequence needle haystack (Nat.zero_le _), List.drop_zero]

/-! ## Selection -/

section Selection

variable {ι τ : Type} (toLowerCase : String → String) (view : τ → SearchableStream ι)

/-- A term is in a field as it stands. -/
def AsItStands (stream : SearchableStream ι) (term : String) : Prop :=
  ∃ field ∈ fieldValues toLowerCase stream, utf16 term <:+: utf16 field.value

/-- The characters of a term are in a field in their order, other than in a hash. -/
def WithGaps (stream : SearchableStream ι) (term : String) : Prop :=
  ∃ field ∈ fieldValues toLowerCase stream, field.hash = false ∧ (utf16 term).Sublist (utf16 field.value)

instance (stream : SearchableStream ι) : DecidablePred (AsItStands toLowerCase stream) := fun term =>
  inferInstanceAs (Decidable (∃ field ∈ fieldValues toLowerCase stream, utf16 term <:+: utf16 field.value))

instance (stream : SearchableStream ι) : DecidablePred (WithGaps toLowerCase stream) := fun term =>
  inferInstanceAs (Decidable (∃ field ∈ fieldValues toLowerCase stream,
    field.hash = false ∧ (utf16 term).Sublist (utf16 field.value)))

/-- The stream has one of the labels, where there are any. -/
def PassesStatus (labels : List String) (stream : SearchableStream ι) : Prop :=
  labels = [] ∨ toLowerCase (stream.status.getD "") ∈ labels.map toLowerCase

instance (labels : List String) : DecidablePred (PassesStatus (ι := ι) toLowerCase labels) := fun stream =>
  inferInstanceAs (Decidable (labels = [] ∨ toLowerCase (stream.status.getD "") ∈ labels.map toLowerCase))

/-- The streams that pass the filter and match every term. -/
def selects (query : String) (options : UseStreamSearchOptions) (stream : SearchableStream ι) : Bool :=
  PassesStatus toLowerCase options.status.labels stream ∧
    ∀ term ∈ searchTerms toLowerCase query, AsItStands toLowerCase stream term ∨
      options.fuzzy.getD true = true ∧ WithGaps toLowerCase stream term

/-- The streams that have every term as it stands. -/
def hasEveryTerm (query : String) (stream : SearchableStream ι) : Bool :=
  ∀ term ∈ searchTerms toLowerCase query, AsItStands toLowerCase stream term

def selected (streams : List τ) (query : String) (options : UseStreamSearchOptions) : List τ :=
  streams.filter fun stream => selects toLowerCase query options (view stream)

/-- The score that a term adds. -/
def termScore (values : List FieldValue) (term : String) : Number :=
  if (substringScore toLowerCase values term).isFinite then substringScore toLowerCase values term
  else (fuzzyMatchScore values term).add (.fin 1000)

/-- The sum of the scores of the terms. -/
def cost (query : String) (stream : SearchableStream ι) : Number :=
  (searchTerms toLowerCase query).foldl
    (fun sum term => sum.add (termScore toLowerCase (fieldValues toLowerCase stream) term)) (.fin 0)

theorem scoreTerms_eq (fuzzy : Bool) (values : List FieldValue) (terms : List String) (score : Number) :
    scoreTerms toLowerCase fuzzy values terms score =
      if ∀ term ∈ terms, (substringScore toLowerCase values term).isFinite = true ∨
          fuzzy = true ∧ (fuzzyMatchScore values term).isFinite = true then
        some (terms.foldl (fun sum term => sum.add (termScore toLowerCase values term)) score)
      else none := by
  induction terms generalizing score with
  | nil => simp [scoreTerms]
  | cons term terms ih =>
    simp only [scoreTerms, List.forall_mem_cons, List.foldl_cons]
    by_cases hsub : (substringScore toLowerCase values term).isFinite = true
    · rw [if_pos hsub, ih]
      simp [termScore, hsub]
    · rw [if_neg hsub]
      by_cases hfuzzy : fuzzy = true ∧ (fuzzyMatchScore values term).isFinite = true
      · rw [if_pos (by simpa using hfuzzy), ih]
        simp [termScore, hsub, hfuzzy]
      · rw [if_neg (by simpa using hfuzzy), if_neg]
        rintro ⟨hterm, -⟩
        exact hterm.elim hsub hfuzzy

/-! ## Scores -/

/-- Strings have fewer than `2 ^ 53` code units. -/
def Sized (stream : SearchableStream ι) : Prop :=
  ∀ field ∈ fieldValues toLowerCase stream, (utf16 field.value).length < 2 ^ 53

variable {toLowerCase} {stream : SearchableStream ι} {term : String} {field : FieldValue}

theorem toLowerCase_value (hlower : ∀ s, toLowerCase (toLowerCase s) = toLowerCase s)
    (hfield : field ∈ fieldValues toLowerCase stream) : toLowerCase field.value = field.value := by
  obtain ⟨source, -, hsource⟩ := List.mem_filterMap.mp hfield
  obtain ⟨text, -, rfl⟩ := Option.map_eq_some_iff.mp hsource
  exact hlower text

/-- The score of a match is finite: neither the product nor the sum is too large for a double. -/
theorem isScore_match {idx len : ℕ} (hidx : idx ≤ 2 ^ 53) (hlen : len ≤ 2 ^ 53) :
    ((Number.fin idx).add ((Number.fin len).mul hundredth)).IsScore ∧
      ((Number.fin idx).add ((Number.fin len).mul hundredth)).isFinite = true := by
  have hlenq : (len : ℚ) ≤ (2 ^ 53 : ℕ) := by exact_mod_cast hlen
  have hidxq : (idx : ℚ) ≤ (2 ^ 53 : ℕ) := by exact_mod_cast hidx
  have hproduct : ((Number.fin len).mul hundredth).le (.fin (2 ^ 53 : ℕ)) = true := by
    apply Number.ofRat_le_fin (Number.isScore_natCast le_rfl).isDouble
    calc (len : ℚ) * (5764607523034235 / 2 ^ 59) ≤ (2 ^ 53 : ℕ) * 1 := by gcongr; norm_num
      _ = (2 ^ 53 : ℕ) := mul_one _
  have hscore : ((Number.fin len).mul hundredth).IsScore :=
    ⟨Number.isDouble_ofRat _, Number.fin_le_ofRat Number.isScore_zero.isDouble (by positivity)⟩
  have hsum := (Number.isScore_natCast hidx).add hscore
  refine ⟨hsum, ?_⟩
  rcases hscore.cases with hinf | ⟨q, hq, -⟩
  · rw [hinf] at hproduct
    cases hproduct
  · rw [hq, Number.le_fin, decide_eq_true_eq] at hproduct
    have hle : ((Number.fin idx).add (.fin q)).le (.fin (2 ^ 54 : ℕ)) = true := by
      have hdouble : Number.IsDouble (.fin (2 ^ 54 : ℕ)) := by
        have := Number.isDouble_mul_two_pow (m := 1) (k := 54) (by norm_num) (by norm_num)
        simpa using this
      apply Number.ofRat_le_fin hdouble
      push_cast at *
      linarith
    rw [hq] at hsum ⊢
    rcases hsum.cases with hinf | ⟨r, hr, -⟩
    · rw [hinf] at hle
      cases hle
    · rw [hr]
      rfl

/-- **The score of a match is finite**, and without one it is infinite. -/
theorem scoreMatch_spec {value : String} (hvalue : toLowerCase value = value)
    (hlen : (utf16 value).length < 2 ^ 53) :
    (scoreMatch toLowerCase term value).IsScore ∧
      ((scoreMatch toLowerCase term value).isFinite = true ↔ utf16 term <:+: utf16 value) := by
  rw [← indexOf_isSome_iff, scoreMatch, hvalue]
  cases hidx : indexOf (utf16 term) (utf16 value) with
  | none => exact ⟨Number.isScore_posInf, by simp [Number.isFinite]⟩
  | some idx =>
    have hfound := (indexOf_isSome_iff (utf16 term) (utf16 value)).mp (by rw [hidx]; rfl)
    have hmatch := isScore_match ((indexOf_le hidx).trans hlen.le) (hfound.length_le.trans hlen.le)
    exact ⟨hmatch.1, iff_of_true hmatch.2 rfl⟩

theorem substringScore_spec (hlower : ∀ s, toLowerCase (toLowerCase s) = toLowerCase s)
    (hsized : Sized toLowerCase stream) :
    (substringScore toLowerCase (fieldValues toLowerCase stream) term).IsScore ∧
      ((substringScore toLowerCase (fieldValues toLowerCase stream) term).isFinite = true ↔
        AsItStands toLowerCase stream term) := by
  have hspec : ∀ field ∈ fieldValues toLowerCase stream, (scoreMatch toLowerCase term field.value).IsScore ∧
      ((scoreMatch toLowerCase term field.value).isFinite = true ↔ utf16 term <:+: utf16 field.value) :=
    fun field hfield => scoreMatch_spec (toLowerCase_value hlower hfield) (hsized field hfield)
  obtain ⟨hscore, hfinite⟩ := Number.foldl_min (fun field : FieldValue => scoreMatch toLowerCase term field.value)
    _ (fun field hfield => (hspec field hfield).1) Number.isScore_posInf
  refine ⟨hscore, hfinite.trans ?_⟩
  rw [or_iff_right (by simp [Number.isFinite])]
  exact exists_congr fun field => and_congr_right fun hfield => (hspec field hfield).2

theorem fuzzyScore_spec {value : String} (hlen : (utf16 value).length < 2 ^ 53) :
    (fuzzyScore term value).IsScore ∧
      ((fuzzyScore term value).isFinite = true ↔ (utf16 term).Sublist (utf16 value)) := by
  rw [← isSubsequence_iff, fuzzyScore]
  split_ifs with h
  · have hle := ((isSubsequence_iff _ _).mp h).length_le
    exact ⟨Number.isScore_natCast (by omega), by simp [Number.isFinite, h]⟩
  · exact ⟨Number.isScore_posInf, by simp [Number.isFinite, h]⟩

theorem fuzzyMatchScore_spec (hsized : Sized toLowerCase stream) :
    (fuzzyMatchScore (fieldValues toLowerCase stream) term).IsScore ∧
      ((fuzzyMatchScore (fieldValues toLowerCase stream) term).isFinite = true ↔
        WithGaps toLowerCase stream term) := by
  have hfilter : fuzzyMatchScore (fieldValues toLowerCase stream) term =
      ((fieldValues toLowerCase stream).filter fun field => !field.hash).foldl
        (fun best field => best.min (fuzzyScore term field.value)) .posInf := by
    rw [List.foldl_filter, fuzzyMatchScore]
    congr 1
    funext best field
    cases field.hash <;> rfl
  have hspec : ∀ field ∈ (fieldValues toLowerCase stream).filter fun field => !field.hash,
      (fuzzyScore term field.value).IsScore ∧
        ((fuzzyScore term field.value).isFinite = true ↔ (utf16 term).Sublist (utf16 field.value)) :=
    fun field hfield => fuzzyScore_spec (hsized field (List.mem_of_mem_filter hfield))
  obtain ⟨hscore, hfinite⟩ := Number.foldl_min (fun field : FieldValue => fuzzyScore term field.value) _
    (fun field hfield => (hspec field hfield).1) Number.isScore_posInf
  rw [hfilter]
  refine ⟨hscore, hfinite.trans ?_⟩
  rw [or_iff_right (by simp [Number.isFinite])]
  apply exists_congr
  intro field
  constructor
  · rintro ⟨hfield, h⟩
    rw [(hspec field hfield).2] at h
    rw [List.mem_filter, Bool.not_eq_true'] at hfield
    exact ⟨hfield.1, hfield.2, h⟩
  · rintro ⟨hfield, hhash, h⟩
    have hmem : field ∈ (fieldValues toLowerCase stream).filter fun field => !field.hash :=
      List.mem_filter.mpr ⟨hfield, by rw [hhash]; rfl⟩
    exact ⟨hmem, (hspec field hmem).2.mpr h⟩

theorem isScore_cost (hlower : ∀ s, toLowerCase (toLowerCase s) = toLowerCase s)
    (hsized : Sized toLowerCase stream) (query : String) : (cost toLowerCase query stream).IsScore := by
  refine Number.foldl_add _ _ (fun term _ => ?_) Number.isScore_zero
  rw [termScore]
  split_ifs
  · exact (substringScore_spec hlower hsized).1
  · exact (fuzzyMatchScore_spec hsized).1.add (Number.isScore_natCast (n := 1000) (by norm_num))

/-- **A stream is scored when it is selected.** -/
theorem scoreStream_eq (hlower : ∀ s, toLowerCase (toLowerCase s) = toLowerCase s)
    (hsized : Sized toLowerCase stream) (query : String) (options : UseStreamSearchOptions) :
    scoreStream toLowerCase (options.fuzzy.getD true) (searchStatuses toLowerCase options.status)
        (searchTerms toLowerCase query) stream =
      if selects toLowerCase query options stream then some (cost toLowerCase query stream) else none := by
  have hterms : (∀ term ∈ searchTerms toLowerCase query,
      (substringScore toLowerCase (fieldValues toLowerCase stream) term).isFinite = true ∨
        options.fuzzy.getD true = true ∧
          (fuzzyMatchScore (fieldValues toLowerCase stream) term).isFinite = true) ↔
      ∀ term ∈ searchTerms toLowerCase query, AsItStands toLowerCase stream term ∨
        options.fuzzy.getD true = true ∧ WithGaps toLowerCase stream term := by
    refine forall₂_congr fun term _ => ?_
    rw [(substringScore_spec hlower hsized).2, (fuzzyMatchScore_spec hsized).2]
  rw [scoreStream, searchStatuses_eq]
  by_cases hpass : PassesStatus toLowerCase options.status.labels stream
  · rw [if_neg]
    · by_cases hnone : searchTerms toLowerCase query = []
      · simp [selects, cost, hnone, hpass]
      · rw [if_neg hnone, scoreTerms_eq]
        simp only [hterms, selects, hpass, true_and, decide_eq_true_eq]
        rfl
    · rintro ⟨hlabels, hnot⟩
      rcases hpass with h | h
      · exact hlabels (by rw [h, List.map_nil])
      · exact hnot h
  · rw [if_pos, if_neg]
    · simp [selects, hpass]
    · rw [PassesStatus, not_or] at hpass
      exact ⟨by simpa using hpass.1, hpass.2⟩

end Selection

/-! ## Results -/

section Results

variable {ι τ : Type} (toLowerCase : String → String) (view : τ → SearchableStream ι)

/-- How many of `n` results a limit leaves. -/
def kept (limit : Option Number) (n : ℕ) : ℕ := match limit with
  | some limit => limit.relIndex n
  | none => n

/-- The order of the results is by the sum of the scores. -/
def costOf (query : String) (stream : τ) : WithTop ℚ := (cost toLowerCase query (view stream)).weight

variable {toLowerCase view} {streams : List τ}

theorem scored_eq (hlower : ∀ s, toLowerCase (toLowerCase s) = toLowerCase s)
    (hsized : ∀ stream ∈ streams, Sized toLowerCase (view stream)) (query : String)
    (options : UseStreamSearchOptions) :
    (streams.filterMap fun stream =>
      (scoreStream toLowerCase (options.fuzzy.getD true) (searchStatuses toLowerCase options.status)
        (searchTerms toLowerCase query) (view stream)).map fun score => ({ stream, score } : ScoredStream τ)) =
      (selected toLowerCase view streams query options).map fun stream =>
        { stream, score := cost toLowerCase query (view stream) } := by
  rw [selected, ← List.filterMap_eq_map, List.filterMap_filter]
  refine List.filterMap_congr fun stream hmem => ?_
  rw [scoreStream_eq hlower (hsized stream hmem)]
  split_ifs <;> rfl

/-- **The results are the selected streams**, sorted by their scores and cut off at the limit. -/
theorem useStreamSearch_results (hlower : ∀ s, toLowerCase (toLowerCase s) = toLowerCase s)
    (hsized : ∀ stream ∈ streams, Sized toLowerCase (view stream)) (query : String)
    (options : UseStreamSearchOptions) :
    useStreamSearch toLowerCase view streams query options =
      { results := (sortOn (costOf toLowerCase view query) (selected toLowerCase view streams query options)).take
          (kept options.limit (selected toLowerCase view streams query options).length)
        total := (selected toLowerCase view streams query options).length } := by
  have hsort : (((selected toLowerCase view streams query options).map fun stream =>
      ({ stream, score := cost toLowerCase query (view stream) } : ScoredStream τ)).mergeSort
        fun a b => !(Number.fin 0).lt (a.score.sub b.score)).map ScoredStream.stream =
      sortOn (costOf toLowerCase view query) (selected toLowerCase view streams query options) := by
    have hscore : ∀ stream ∈ selected toLowerCase view streams query options,
        (cost toLowerCase query (view stream)).IsScore := fun stream hmem =>
      isScore_cost hlower (hsized stream (List.mem_of_mem_filter hmem)) query
    rw [sortOn, ← List.map_mergeSort (r := fun a b =>
      decide (costOf toLowerCase view query a ≤ costOf toLowerCase view query b)), List.map_map]
    · exact List.map_id _
    · intro a ha b hb
      exact (Number.not_sub_pos_eq (hscore a ha) (hscore b hb)).symm
  simp only [useStreamSearch, scored_eq hlower hsized, hsort, sortOn, List.length_mergeSort]
  congr 1
  cases options.limit with
  | none => rw [kept, List.take_of_length_le (by rw [List.length_mergeSort])]
  | some limit => rfl

variable (toLowerCase view streams) in
/-- What the search is documented to do: substring hits rank above fuzzy-only hits, and input order is kept
within a rank. -/
def Documented (query : String) (options : UseStreamSearchOptions) : Prop :=
  (useStreamSearch toLowerCase view streams query options).total =
      (selected toLowerCase view streams query options).length ∧
    (useStreamSearch toLowerCase view streams query options).results =
      (ranked (fun stream => hasEveryTerm toLowerCase query (view stream))
        (selected toLowerCase view streams query options)).take
          (kept options.limit (selected toLowerCase view streams query options).length)

/-- **The documented order** is met when the scores go up along it, as far as the limit goes. -/
theorem search_documented_iff (hlower : ∀ s, toLowerCase (toLowerCase s) = toLowerCase s)
    (hsized : ∀ stream ∈ streams, Sized toLowerCase (view stream)) (query : String)
    (options : UseStreamSearchOptions) :
    Documented toLowerCase view streams query options ↔
      Leads (Before (costOf toLowerCase view query))
        (kept options.limit (selected toLowerCase view streams query options).length)
        (rankedPositions (fun stream => hasEveryTerm toLowerCase query (view stream))
          (selected toLowerCase view streams query options)) := by
  rw [Documented, useStreamSearch_results hlower hsized, ← take_sortOn_iff]
  exact and_iff_right rfl

/-! ## Two streams -/

/-- The score of a stream with one field, for one term that is in it. -/
theorem cost_eq_of_single {stream : SearchableStream ι} {query term value : String} {idx : ℕ}
    (hquery : searchTerms toLowerCase query = [term])
    (hfields : fieldValues toLowerCase stream = [{ value, hash := false }])
    (hidx : indexOf (utf16 term) (utf16 (toLowerCase value)) = some idx)
    (hidxle : idx ≤ 2 ^ 53) (hlen : (utf16 term).length ≤ 2 ^ 53) :
    cost toLowerCase query stream = (Number.fin idx).add ((Number.fin (utf16 term).length).mul hundredth) := by
  obtain ⟨hscore, hfinite⟩ := isScore_match hidxle hlen
  have hsub : substringScore toLowerCase (fieldValues toLowerCase stream) term =
      (Number.fin idx).add ((Number.fin (utf16 term).length).mul hundredth) := by
    rw [hfields, substringScore, List.foldl_cons, List.foldl_nil, scoreMatch, hidx]
    exact hscore.posInf_min
  rw [cost, hquery, List.foldl_cons, List.foldl_nil, termScore, hsub, if_pos hfinite]
  exact hscore.zero_add

end Results

/-- The case of ASCII letters. -/
def asciiLower (s : String) : String := String.ofList (s.toList.map Char.toLower)

theorem asciiLower_asciiLower (s : String) : asciiLower (asciiLower s) = asciiLower s := by
  simp [asciiLower, Function.comp_def]

/-- The term `ga` is at index `1`. -/
def laterHit : SearchableStream Empty := { sender := some "xga" }

/-- The term `ga` is at index `0`. -/
def earlierHit : SearchableStream Empty := { sender := some "gab" }

theorem sized_hits : ∀ stream ∈ [laterHit, earlierHit], Sized asciiLower (id stream) := by
  intro stream hstream field hfield
  have hvalue : fieldValues asciiLower stream = [{ value := "xga", hash := false }] ∨
      fieldValues asciiLower stream = [{ value := "gab", hash := false }] := by
    simp only [List.mem_cons, List.not_mem_nil, or_false] at hstream
    rcases hstream with rfl | rfl
    · exact .inl rfl
    · exact .inr rfl
  rcases hvalue with h | h
  · rw [id, h, List.mem_singleton] at hfield
    rw [hfield]
    decide
  · rw [id, h, List.mem_singleton] at hfield
    rw [hfield]
    decide

theorem costOf_earlierHit_lt : costOf asciiLower id "ga" earlierHit < costOf asciiLower id "ga" laterHit := by
  have hterm : (Number.fin (utf16 "ga").length).mul hundredth = .ofRat (2 * (5764607523034235 / 2 ^ 59)) := rfl
  have hhalf : Number.IsDouble (.fin (1 / 2)) := by
    have := Number.isDouble_mul_zpow (m := 1) (k := -1) (by norm_num) (by norm_num) (by norm_num)
    rw [Int.cast_one, one_mul] at this
    simpa using this
  have hsmall : (Number.ofRat (2 * (5764607523034235 / 2 ^ 59))).le (.fin (1 / 2)) = true :=
    Number.ofRat_le_fin hhalf (by norm_num)
  have hscore : (Number.ofRat (2 * (5764607523034235 / 2 ^ 59))).IsScore :=
    ⟨Number.isDouble_ofRat _, Number.fin_le_ofRat Number.isScore_zero.isDouble (by norm_num)⟩
  have hquery : searchTerms asciiLower "ga" = ["ga"] := by decide
  have hearlier : indexOf (utf16 "ga") (utf16 (asciiLower "gab")) = some 0 := by decide
  have hlater : indexOf (utf16 "ga") (utf16 (asciiLower "xga")) = some 1 := by decide
  rw [costOf, costOf, id, id, cost_eq_of_single hquery rfl hearlier (by norm_num) (by decide),
    cost_eq_of_single hquery rfl hlater (by norm_num) (by decide), hterm, Nat.cast_zero, hscore.zero_add]
  rcases hscore.cases with hinf | ⟨q, hq, hq0⟩
  · rw [hinf] at hsmall
    cases hsmall
  · rw [hq, Number.le_fin, decide_eq_true_eq] at hsmall
    have hdouble : Number.IsScore (.fin (1 : ℕ)) := Number.isScore_natCast (by norm_num)
    have hone := Number.fin_le_ofRat hdouble.isDouble (r := (1 : ℕ) + q) (by linarith)
    rw [hq]
    rcases (hdouble.add (hq ▸ hscore)).cases with hinf | ⟨r, hr, -⟩
    · rw [hinf]
      exact WithTop.coe_lt_top q
    · have hr' : Number.ofRat ((1 : ℕ) + q) = .fin r := hr
      rw [hr', Number.le_fin, decide_eq_true_eq] at hone
      rw [hr]
      push_cast at hone
      exact WithTop.coe_lt_coe.mpr (by linarith)

theorem search_documented_in_order :
    (∀ s, asciiLower (asciiLower s) = asciiLower s) ∧
      (∀ stream ∈ [earlierHit, laterHit], Sized asciiLower (id stream)) ∧
      Documented asciiLower id [earlierHit, laterHit] "ga" {} := by
  have hsized : ∀ stream ∈ [earlierHit, laterHit], Sized asciiLower (id stream) := fun stream hstream =>
    sized_hits stream (List.mem_pair.mpr (List.mem_pair.mp hstream).symm)
  refine ⟨asciiLower_asciiLower, hsized, (search_documented_iff asciiLower_asciiLower hsized "ga" {}).mpr ?_⟩
  have hpositions : rankedPositions (fun stream => hasEveryTerm asciiLower "ga" (id stream))
      (selected asciiLower id [earlierHit, laterHit] "ga" {}) = [(earlierHit, 0), (laterHit, 1)] := rfl
  have hbefore : Before (costOf asciiLower id "ga") (earlierHit, 0) (laterHit, 1) := .inl costOf_earlierHit_lt
  rw [hpositions]
  show Leads _ 2 _
  simpa [leads_succ_cons] using hbefore

/-- Two streams that have the term as it stands do not keep their order. -/
theorem earlier_hit_first : ¬ Documented asciiLower id [laterHit, earlierHit] "ga" {} := by
  rintro ⟨-, hresults⟩
  rw [useStreamSearch_results asciiLower_asciiLower sized_hits] at hresults
  have hleads := (take_sortOn_iff _ _ _ _).mp hresults
  have hpositions : rankedPositions (fun stream => hasEveryTerm asciiLower "ga" (id stream))
      (selected asciiLower id [laterHit, earlierHit] "ga" {}) = [(laterHit, 0), (earlierHit, 1)] := rfl
  rw [hpositions] at hleads
  have hbefore : Before (costOf asciiLower id "ga") (laterHit, 0) (earlierHit, 1) :=
    hleads.1 _ List.mem_cons_self
  exact not_before_of_before _ hbefore (.inl costOf_earlierHit_lt)

end StreamFi
