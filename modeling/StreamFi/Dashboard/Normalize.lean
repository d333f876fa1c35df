import StreamFi.Dashboard.History

/-!
# Normalisation

Which entries of a payload have a row, and what becomes of rows that are normalised again.

* `Usable`: an object with some identity; `Kept`: the entries that have a row, which are the first
  usable ones of their `id`; **`normalizeTransactions_kept`**;
* `ReadAgain`: a date next to the epoch, whose milliseconds are ten digits; these are read as seconds;
* **`normalizeTransactions_again_iff`**: rows stay as they are unless an entry has such a date;
  `normalizeTransactions_moved` is one that does not.
-/

namespace StreamFi

open Js

section Kept

variable {ι : Type} (rt : DashboardRuntime ι) (walletAddress : Value ι)

/-- The entries of a payload. -/
def payloadEntries (payload : Value ι) : List (Value ι) :=
  match payloadList rt payload with
  | .array entries => entries
  | _ => []

/-- It is an object and not an array, and `id`, `hash` or `streamId` can be read off it. -/
def Usable (entry : Value ι) : Prop :=
  (match entry with
    | .object _ | .host _ => True
    | _ => False) ∧
  (asString (nullish (property rt entry "id") (property rt entry "hash")) "" ≠ "" ∨
    asString (nullish (nullish (property rt entry "hash") (property rt entry "txHash"))
      (property rt entry "id")) "" ≠ "" ∨
    asString (nullish (property rt entry "streamId") (property rt entry "stream_id")) "" ≠ "")

/-- The row of an entry of the list. -/
def rowAt (entries : List (Value ι)) (i : ℕ) : Option TransactionRecord :=
  entries[i]?.bind fun entry => normalizeTransaction rt entry walletAddress

/-- No entry before it has its `id`. -/
def FirstAt (entries : List (Value ι)) (i : ℕ) (row : TransactionRecord) : Prop :=
  rowAt rt walletAddress entries i = some row ∧
    ∀ j < i, ∀ row', rowAt rt walletAddress entries j = some row' → row'.id ≠ row.id

/-- The entries `kept` have a row. -/
structure Kept (entries : List (Value ι)) (rows : List TransactionRecord) (kept : List ℕ) : Prop where
  /-- They stand in the order of the list, -/
  order : kept.Pairwise (· < ·)
  rows_eq : rows.map some = kept.map (rowAt rt walletAddress entries)
  /-- they are those that come first with their `id`, -/
  first : ∀ i, i ∈ kept ↔ ∃ row, FirstAt rt walletAddress entries i row
  /-- and another one is unusable or has the `id` of one that was kept before. -/
  dropped : ∀ i entry, entries[i]? = some entry → i ∉ kept → ¬ Usable rt entry ∨
    ∃ j ∈ kept, j < i ∧ ∃ row row', rowAt rt walletAddress entries j = some row ∧
      rowAt rt walletAddress entries i = some row' ∧ row.id = row'.id

variable {rt walletAddress} {entries : List (Value ι)} {entry : Value ι} {row : TransactionRecord}

variable (walletAddress) in
theorem normalizeRecord_isSome_iff : (normalizeRecord rt entry walletAddress).isSome ↔
    asString (nullish (property rt entry "id") (property rt entry "hash")) "" ≠ "" ∨
      asString (nullish (nullish (property rt entry "hash") (property rt entry "txHash"))
        (property rt entry "id")) "" ≠ "" ∨
      asString (nullish (property rt entry "streamId") (property rt entry "stream_id")) "" ≠ "" := by
  unfold normalizeRecord
  dsimp only
  by_cases h : asString (nullish (property rt entry "id") (property rt entry "hash")) "" = "" ∧
      asString (nullish (nullish (property rt entry "hash") (property rt entry "txHash"))
        (property rt entry "id")) "" = "" ∧
      asString (nullish (property rt entry "streamId") (property rt entry "stream_id")) "" = ""
  · rw [if_pos h]
    simp [h]
  · rw [if_neg h]
    simp only [Option.isSome_some, true_iff]
    tauto

variable (walletAddress) in
theorem normalizeTransaction_isSome_iff :
    (normalizeTransaction rt entry walletAddress).isSome ↔ Usable rt entry := by
  unfold Usable
  rw [← normalizeRecord_isSome_iff walletAddress]
  cases entry <;> simp [normalizeTransaction]

theorem id_ne_of_normalizeRecord (h : normalizeRecord rt entry walletAddress = some row) : row.id ≠ "" := by
  unfold normalizeRecord at h
  dsimp only at h
  rw [Option.ite_none_left_eq_some] at h
  obtain rfl := Option.some.inj h.2
  dsimp only
  split_ifs with hid hhash
  · exact hid
  · exact hhash
  · intro hempty
    have hlength := congrArg String.length hempty
    simp only [String.length_append] at hlength
    have hcolon : ":".length = 1 := rfl
    have hnil : "".length = 0 := rfl
    omega

theorem id_ne_of_normalize (h : normalizeTransaction rt entry walletAddress = some row) : row.id ≠ "" := by
  cases entry with
  | object entries => exact id_ne_of_normalizeRecord h
  | host x => exact id_ne_of_normalizeRecord h
  | _ => cases h

theorem rowAt_zero : rowAt rt walletAddress (entry :: entries) 0 =
    normalizeTransaction rt entry walletAddress := rfl

theorem rowAt_succ (i : ℕ) :
    rowAt rt walletAddress (entry :: entries) (i + 1) = rowAt rt walletAddress entries i := rfl

theorem firstAt_zero : FirstAt rt walletAddress (entry :: entries) 0 row ↔
    normalizeTransaction rt entry walletAddress = some row :=
  ⟨fun h => h.1, fun h => ⟨h, fun j hj => absurd hj (Nat.not_lt_zero j)⟩⟩

theorem firstAt_succ (i : ℕ) : FirstAt rt walletAddress (entry :: entries) (i + 1) row ↔
    FirstAt rt walletAddress entries i row ∧
      ∀ row', normalizeTransaction rt entry walletAddress = some row' → row'.id ≠ row.id := by
  unfold FirstAt
  rw [rowAt_succ]
  constructor
  · rintro ⟨hrow, hbefore⟩
    exact ⟨⟨hrow, fun j hj => hbefore (j + 1) (Nat.succ_lt_succ hj)⟩, hbefore 0 (Nat.succ_pos i)⟩
  · rintro ⟨⟨hrow, hbefore⟩, hzero⟩
    refine ⟨hrow, fun j hj => ?_⟩
    cases j with
    | zero => exact hzero
    | succ j => exact hbefore j (Nat.lt_of_succ_lt_succ hj)

theorem pairwise_map_succ {kept : List ℕ} (h : kept.Pairwise (· < ·)) :
    (kept.map (· + 1)).Pairwise (· < ·) :=
  List.pairwise_map.mpr (h.imp Nat.succ_lt_succ)

theorem mem_map_succ {kept : List ℕ} {i : ℕ} : i + 1 ∈ kept.map (· + 1) ↔ i ∈ kept := by
  simp

theorem map_rowAt_succ (kept : List ℕ) : (kept.map (· + 1)).map (rowAt rt walletAddress (entry :: entries)) =
    kept.map (rowAt rt walletAddress entries) := by
  rw [List.map_map]
  rfl

/-- The entry has no row, or one with an `id` that was seen. -/
def Passed (rt : DashboardRuntime ι) (walletAddress : Value ι) (seen : List String) (entry : Value ι) : Prop :=
  ∀ row, normalizeTransaction rt entry walletAddress = some row → row.id ∈ seen

theorem firstAt_succ_passed {seen : List String} (h : Passed rt walletAddress seen entry) (i : ℕ) :
    (∃ row, FirstAt rt walletAddress (entry :: entries) (i + 1) row ∧ row.id ∉ seen) ↔
      ∃ row, FirstAt rt walletAddress entries i row ∧ row.id ∉ seen := by
  constructor
  · rintro ⟨row, hrow, hnew⟩
    exact ⟨row, ((firstAt_succ i).mp hrow).1, hnew⟩
  · rintro ⟨row, hrow, hnew⟩
    refine ⟨row, (firstAt_succ i).mpr ⟨hrow, fun row' h' heq => ?_⟩, hnew⟩
    exact hnew (heq ▸ h row' h')

theorem firstAt_succ_new {seen : List String} {record : TransactionRecord}
    (h : normalizeTransaction rt entry walletAddress = some record) (i : ℕ) :
    (∃ row, FirstAt rt walletAddress (entry :: entries) (i + 1) row ∧ row.id ∉ seen) ↔
      ∃ row, FirstAt rt walletAddress entries i row ∧ row.id ∉ record.id :: seen := by
  constructor
  · rintro ⟨row, hrow, hnew⟩
    obtain ⟨hfirst, hzero⟩ := (firstAt_succ i).mp hrow
    refine ⟨row, hfirst, fun hmem => ?_⟩
    rcases List.mem_cons.mp hmem with heq | hmem
    · exact hzero record h heq.symm
    · exact hnew hmem
  · rintro ⟨row, hrow, hnew⟩
    obtain ⟨hid, hold⟩ := not_or.mp fun h => hnew (List.mem_cons.mpr h)
    refine ⟨row, (firstAt_succ i).mpr ⟨hrow, fun row' h' heq => ?_⟩, hold⟩
    obtain rfl := Option.some.inj (h.symm.trans h')
    exact hid heq.symm

/-- The entries `kept` have these rows, and they are those that come first with an `id` that was not
seen before. -/
def KeptAfter (rt : DashboardRuntime ι) (walletAddress : Value ι) (seen : List String) (entries : List (Value ι))
    (rows : List TransactionRecord) (kept : List ℕ) : Prop :=
  kept.Pairwise (· < ·) ∧ rows.map some = kept.map (rowAt rt walletAddress entries) ∧
    ∀ i, i ∈ kept ↔ ∃ row, FirstAt rt walletAddress entries i row ∧ row.id ∉ seen

theorem KeptAfter.pass {seen : List String} {rows : List TransactionRecord} {kept : List ℕ}
    (h : KeptAfter rt walletAddress seen entries rows kept) (hpassed : Passed rt walletAddress seen entry) :
    KeptAfter rt walletAddress seen (entry :: entries) rows (kept.map (· + 1)) := by
  obtain ⟨horder, hrows, hfirst⟩ := h
  refine ⟨pairwise_map_succ horder, hrows.trans (map_rowAt_succ kept).symm, fun i => ?_⟩
  cases i with
  | zero =>
    refine iff_of_false (by simp) ?_
    rintro ⟨row, hrow, hnew⟩
    exact hnew (hpassed row (firstAt_zero.mp hrow))
  | succ i => rw [mem_map_succ, hfirst, firstAt_succ_passed hpassed]

theorem KeptAfter.keep {seen : List String} {rows : List TransactionRecord} {kept : List ℕ}
    {record : TransactionRecord} (h : KeptAfter rt walletAddress (record.id :: seen) entries rows kept)
    (hentry : normalizeTransaction rt entry walletAddress = some record) (hnew : record.id ∉ seen) :
    KeptAfter rt walletAddress seen (entry :: entries) (record :: rows) (0 :: kept.map (· + 1)) := by
  obtain ⟨horder, hrows, hfirst⟩ := h
  refine ⟨List.pairwise_cons.mpr ⟨fun j hj => ?_, pairwise_map_succ horder⟩, ?_, fun i => ?_⟩
  · obtain ⟨i, -, rfl⟩ := List.mem_map.mp hj
    exact Nat.succ_pos i
  · rw [List.map_cons, List.map_cons, map_rowAt_succ, rowAt_zero, hentry, hrows]
  · cases i with
    | zero => exact iff_of_true List.mem_cons_self ⟨record, firstAt_zero.mpr hentry, hnew⟩
    | succ i =>
      rw [List.mem_cons, or_iff_right (Nat.succ_ne_zero i), mem_map_succ, hfirst, firstAt_succ_new hentry]

variable (rt walletAddress) in
/-- **What the loop keeps**, if it has seen some `id`s. -/
theorem exists_kept (entries : List (Value ι)) (seen : List String) :
    ∃ kept, KeptAfter rt walletAddress seen entries (normalizeList rt walletAddress seen entries) kept := by
  induction entries generalizing seen with
  | nil =>
    refine ⟨[], .nil, rfl, fun i => ?_⟩
    simp [FirstAt, rowAt]
  | cons entry entries ih =>
    rw [normalizeList]
    cases hentry : normalizeTransaction rt entry walletAddress with
    | none =>
      obtain ⟨kept, hkept⟩ := ih seen
      exact ⟨_, hkept.pass fun row hrow => (by cases hentry.symm.trans hrow)⟩
    | some record =>
      dsimp only
      split_ifs with hseen
      · obtain ⟨kept, hkept⟩ := ih seen
        refine ⟨_, hkept.pass fun row hrow => ?_⟩
        obtain rfl := Option.some.inj (hentry.symm.trans hrow)
        exact hseen
      · obtain ⟨kept, hkept⟩ := ih (record.id :: seen)
        exact ⟨_, hkept.keep hentry hseen⟩

theorem normalizeTransactions_eq (payload : Value ι) : normalizeTransactions rt payload walletAddress =
    normalizeList rt walletAddress [] (payloadEntries rt payload) := by
  unfold normalizeTransactions payloadEntries
  cases payloadList rt payload <;> rfl

/-- **A row is that of an entry that comes first** with its `id`. -/
theorem mem_normalizeTransactions_iff {payload : Value ι} :
    row ∈ normalizeTransactions rt payload walletAddress ↔
      ∃ i, FirstAt rt walletAddress (payloadEntries rt payload) i row := by
  obtain ⟨kept, -, hrows, hfirst⟩ := exists_kept rt walletAddress (payloadEntries rt payload) []
  rw [normalizeTransactions_eq, ← List.mem_map_of_injective (Option.some_injective _), hrows, List.mem_map]
  constructor
  · rintro ⟨i, hi, hrow⟩
    obtain ⟨row', hfirst', -⟩ := (hfirst i).mp hi
    obtain rfl := Option.some.inj (hfirst'.1.symm.trans hrow)
    exact ⟨i, hfirst'⟩
  · rintro ⟨i, hfirst'⟩
    exact ⟨i, (hfirst i).mpr ⟨row, hfirst', List.not_mem_nil⟩, hfirst'.1⟩

/-- Every usable entry has the `id` of the first that has it. -/
theorem exists_firstAt {i : ℕ} (h : rowAt rt walletAddress entries i = some row) :
    ∃ j ≤ i, ∃ row', FirstAt rt walletAddress entries j row' ∧ row'.id = row.id := by
  induction i using Nat.strong_induction_on generalizing row with
  | _ i ih =>
    by_cases hfirst : FirstAt rt walletAddress entries i row
    · exact ⟨i, le_rfl, row, hfirst, rfl⟩
    · obtain ⟨j, hj, row', hrow', hid⟩ : ∃ j < i, ∃ row', rowAt rt walletAddress entries j = some row' ∧
          row'.id = row.id := by
        by_contra hnone
        exact hfirst ⟨h, fun j hj row' hrow' hid => hnone ⟨j, hj, row', hrow', hid⟩⟩
      obtain ⟨k, hk, row'', hfirst', hid'⟩ := ih j hj hrow'
      exact ⟨k, hk.trans hj.le, row'', hfirst', hid'.trans hid⟩

end Kept

/-- **The rows of a payload** have distinct nonempty `id`s and are those of the entries that are kept. -/
theorem normalizeTransactions_kept {ι : Type} (rt : DashboardRuntime ι) (payload walletAddress : Value ι) :
    (∀ row ∈ normalizeTransactions rt payload walletAddress, row.id ≠ "") ∧
      ((normalizeTransactions rt payload walletAddress).map TransactionRecord.id).Nodup ∧
      ∃ kept, Kept rt walletAddress (payloadEntries rt payload)
        (normalizeTransactions rt payload walletAddress) kept := by
  obtain ⟨kept, horder, hrows, hfirst⟩ := exists_kept rt walletAddress (payloadEntries rt payload) []
  simp only [List.not_mem_nil, not_false_eq_true, and_true] at hfirst
  rw [← normalizeTransactions_eq] at hrows
  refine ⟨fun row hrow => ?_, nodup_normalizeTransactions payload, kept, horder, hrows, hfirst, ?_⟩
  · obtain ⟨i, hi, -⟩ := mem_normalizeTransactions_iff.mp hrow
    obtain ⟨entry, -, hentry⟩ := Option.bind_eq_some_iff.mp hi
    exact id_ne_of_normalize hentry
  · intro i entry hentry hdropped
    have hrow : rowAt rt walletAddress (payloadEntries rt payload) i =
        normalizeTransaction rt entry walletAddress := by
      rw [rowAt, hentry, Option.bind_some]
    cases hnormal : normalizeTransaction rt entry walletAddress with
    | none =>
      left
      rw [← normalizeTransaction_isSome_iff walletAddress, hnormal]
      exact Bool.false_ne_true
    | some row =>
      right
      rw [hnormal] at hrow
      obtain ⟨j, hj, row', hfirst', hid⟩ := exists_firstAt hrow
      have hkept := (hfirst j).mpr ⟨row', hfirst'⟩
      have hne : j ≠ i := fun h => hdropped (h ▸ hkept)
      exact ⟨j, hkept, lt_of_le_of_ne hj hne, row', row, hfirst'.1, hrow, hid⟩

/-! ## Once more -/

section Again

variable {ι : Type}

/-- What the runtime is known to do: capital letters stay as they are, and times are whole milliseconds. -/
structure RuntimeLaws (rt : DashboardRuntime ι) : Prop where
  upper : ∀ s, (∀ c ∈ s.toList, c.isUpper = true ∨ c = '_') → rt.toUpperCase s = s
  parsed : ∀ s, rt.dateParse s = .nan ∨ ∃ n : ℤ, rt.dateParse s = .fin n
  time : ∀ x t, rt.getTime x = some t → t = .nan ∨ ∃ n : ℤ, t = .fin n

/-- A row as a value. -/
def rowValue (row : TransactionRecord) : Value ι :=
  .object [("id", .string row.id), ("hash", .string row.hash), ("streamId", .string row.streamId),
    ("kind", .string row.kind.text), ("direction", .string row.direction.text),
    ("status", .string row.status.text), ("amount", .string row.amount), ("asset", .string row.asset),
    ("counterparty", .string row.counterparty), ("timestamp", .number row.timestamp)]

/-- Ten digits. -/
def TenDigits (x : Number) : Prop :=
  (Number.fin 1000000000).le x.abs = true ∧ x.abs.lt (.fin 10000000000) = true

instance (x : Number) : Decidable (TenDigits x) := inferInstanceAs (Decidable (_ ∧ _))

/-- A date whose milliseconds are ten digits. -/
def ReadAgain (rt : DashboardRuntime ι) (value : Value ι) : Prop :=
  match value with
  | .string s => (toNumber (String.ofList (trim s.toList))).isFinite = false ∧ trim s.toList ≠ [] ∧
      TenDigits (rt.dateParse (toIso8601 (trim s.toList)))
  | .host x => ∃ t, rt.getTime x = some t ∧ TenDigits t
  | _ => False

variable {rt : DashboardRuntime ι} {walletAddress : Value ι} {row : TransactionRecord}

theorem tenDigits_intCast {n : ℤ} : TenDigits (.fin n) ↔ 1000000000 ≤ |n| ∧ |n| < 10000000000 := by
  unfold TenDigits
  rw [Number.abs, Number.le_fin, Number.lt_fin, decide_eq_true_eq, decide_eq_true_eq]
  norm_cast

theorem exists_trunc (q : ℚ) :
    ∃ n : ℤ, (Number.fin q).trunc = .fin n ∧ ((|n| : ℤ) : ℚ) ≤ |q| ∧ |q| < (|n| : ℤ) + 1 := by
  by_cases hq : 0 ≤ q
  · have hfloor : (0 : ℚ) ≤ ⌊q⌋ := by exact_mod_cast Int.floor_nonneg.mpr hq
    refine ⟨⌊q⌋, by simp [Number.trunc, hq], ?_⟩
    rw [Int.cast_abs, abs_of_nonneg hfloor, abs_of_nonneg hq]
    exact ⟨Int.floor_le q, Int.lt_floor_add_one q⟩
  · have hq' : q ≤ 0 := (not_le.mp hq).le
    have hceil : (⌈q⌉ : ℚ) ≤ 0 := by exact_mod_cast Int.ceil_le.mpr (by exact_mod_cast hq')
    refine ⟨⌈q⌉, by simp [Number.trunc, hq], ?_⟩
    rw [Int.cast_abs, abs_of_nonpos hceil, abs_of_nonpos hq']
    constructor
    · linarith [Int.le_ceil q]
    · linarith [Int.ceil_lt_add_one q]

theorem asNumericTimestamp_of_trunc {q : ℚ} {n : ℤ} (h : (Number.fin q).trunc = .fin n) :
    asNumericTimestamp (.fin q) = if TenDigits (.fin q) then (Number.fin n).mul (.fin 1000) else .fin n := by
  unfold asNumericTimestamp TenDigits
  simp only [h, Bool.and_eq_true, ite_self]
  congr

theorem mul_thousand {n : ℤ} (h : |n| < 10000000000) :
    (Number.fin n).mul (.fin 1000) = .fin (n * 1000 : ℤ) := by
  rw [show (Number.fin n).mul (.fin 1000) = Number.ofRat (n * 1000) from rfl]
  exact_mod_cast Number.ofRat_intCast (n := n * 1000) (by rw [abs_mul]; norm_num; omega)

/-- A number is read as a time once. -/
theorem exists_asNumericTimestamp (q : ℚ) :
    ∃ n : ℤ, asNumericTimestamp (.fin q) = .fin n ∧ ¬ TenDigits (.fin n) := by
  obtain ⟨n, htrunc, hle, hlt⟩ := exists_trunc q
  rw [asNumericTimestamp_of_trunc htrunc]
  have hiff : TenDigits (.fin q) ↔ TenDigits (.fin n) := by
    rw [tenDigits_intCast]
    unfold TenDigits
    rw [Number.abs, Number.le_fin, Number.lt_fin, decide_eq_true_eq, decide_eq_true_eq]
    constructor
    · rintro ⟨hlow, hhigh⟩
      have hlow' : (1000000000 : ℤ) < |n| + 1 := by exact_mod_cast hlow.trans_lt hlt
      have hhigh' : |n| < (10000000000 : ℤ) := by exact_mod_cast hle.trans_lt hhigh
      exact ⟨by omega, hhigh'⟩
    · rintro ⟨hlow, hhigh⟩
      have hlow' : (1000000000 : ℚ) ≤ (|n| : ℤ) := by exact_mod_cast hlow
      have hhigh' : ((|n| : ℤ) : ℚ) + 1 ≤ 10000000000 := by exact_mod_cast hhigh
      exact ⟨hlow'.trans hle, hlt.trans_le hhigh'⟩
  by_cases hten : TenDigits (.fin n)
  · obtain ⟨hlow, hhigh⟩ := tenDigits_intCast.mp hten
    refine ⟨n * 1000, by rw [if_pos (hiff.mpr hten), mul_thousand hhigh], fun h => ?_⟩
    have hten' := (tenDigits_intCast.mp h).2
    rw [abs_mul] at hten'
    norm_num at hten'
    omega
  · exact ⟨n, if_neg fun h => hten (hiff.mp h), hten⟩

theorem asNumericTimestamp_intCast (n : ℤ) :
    asNumericTimestamp (.fin n) = .fin n ↔ ¬ TenDigits (.fin n) := by
  have htrunc : (Number.fin n).trunc = .fin n := by
    simp [Number.trunc]
  rw [asNumericTimestamp_of_trunc htrunc]
  by_cases hten : TenDigits (.fin n)
  · obtain ⟨hlow, hhigh⟩ := tenDigits_intCast.mp hten
    rw [if_pos hten, mul_thousand hhigh]
    refine iff_of_false (fun h => ?_) (not_not.mpr hten)
    have heq : n * 1000 = n := by exact_mod_cast Number.fin.inj h
    obtain rfl : n = 0 := by omega
    rw [abs_zero] at hlow
    omega
  · rw [if_neg hten]
    exact iff_of_true rfl hten

theorem asTimestamp_string (s : String) : asTimestamp rt (.string s) =
    if trim s.toList = [] then .fin 0
    else if (toNumber (String.ofList (trim s.toList))).isFinite = true then
      asNumericTimestamp (toNumber (String.ofList (trim s.toList)))
    else if rt.dateParse (toIso8601 (trim s.toList)) ≠ .nan then rt.dateParse (toIso8601 (trim s.toList))
    else .fin 0 := rfl

theorem asTimestamp_host (x : ι) : asTimestamp rt (.host x) =
    ((rt.getTime x).map fun time => if time ≠ .nan then time else .fin 0).getD (.fin 0) := by
  unfold asTimestamp
  dsimp only
  cases rt.getTime x with
  | none => rfl
  | some time => simp only [ite_not, Option.map_some, Option.getD_some]

/-- **A time that was read is read as itself** unless it is a date of ten digits. -/
theorem asTimestamp_again_iff (hrt : RuntimeLaws rt) (value : Value ι) :
    asTimestamp rt (.number (asTimestamp rt value)) = asTimestamp rt value ↔ ¬ ReadAgain rt value := by
  have hnumber (q : ℚ) : asTimestamp rt (.number (asNumericTimestamp (.fin q))) =
      asNumericTimestamp (.fin q) := by
    obtain ⟨n, hn, hten⟩ := exists_asNumericTimestamp q
    rw [hn]
    exact (asNumericTimestamp_intCast n).mpr hten
  have hzero : asTimestamp rt (.number (.fin 0)) = .fin 0 := by
    have h := (asNumericTimestamp_intCast 0).mpr (by decide)
    exact_mod_cast h
  have hdate (t : Number) (ht : t = .nan ∨ ∃ n : ℤ, t = .fin n) :
      asTimestamp rt (.number (if t ≠ .nan then t else .fin 0)) = (if t ≠ .nan then t else .fin 0) ↔
        ¬ TenDigits t := by
    rcases ht with rfl | ⟨n, rfl⟩
    · exact iff_of_true hzero (by decide)
    · exact asNumericTimestamp_intCast n
  cases value with
  | number x =>
    cases x with
    | fin q => exact iff_of_true (hnumber q) not_false
    | nan | posInf | negInf => exact iff_of_true hzero not_false
  | string s =>
    rw [asTimestamp_string]
    by_cases htrim : trim s.toList = []
    · rw [if_pos htrim]
      exact iff_of_true hzero fun h => h.2.1 htrim
    · rw [if_neg htrim]
      cases hfinite : (toNumber (String.ofList (trim s.toList))).isFinite with
      | true =>
        obtain ⟨q, hq⟩ := eq_fin_of_isFinite hfinite
        rw [if_pos rfl, hq]
        exact iff_of_true (hnumber q) fun h => Bool.false_ne_true (h.1.symm.trans hfinite)
      | false =>
        rw [if_neg Bool.false_ne_true]
        exact (hdate _ (hrt.parsed _)).trans (not_congr ⟨fun h => ⟨hfinite, htrim, h⟩, fun h => h.2.2⟩)
  | host x =>
    rw [asTimestamp_host]
    cases htime : rt.getTime x with
    | none => exact iff_of_true hzero fun ⟨t, ht, h⟩ => (by simp [htime] at ht)
    | some t =>
      refine (hdate t (hrt.time x t htime)).trans (not_congr ⟨fun h => ⟨t, htime, h⟩, ?_⟩)
      rintro ⟨t', ht', h⟩
      obtain rfl := Option.some.inj (htime.symm.trans ht')
      exact h
  | _ => exact iff_of_true hzero not_false

theorem not_isSpace_of_isUpper {c : Char} (h : c.isUpper = true ∨ c = '_') : isSpace c = false := by
  have hbounds : 65 ≤ c.toNat ∧ c.toNat ≤ 95 := by
    rcases h with h | rfl
    · simp only [Char.isUpper, decide_eq_true_eq, UInt32.le_iff_toNat_le] at h
      exact ⟨h.1, h.2.trans (by decide)⟩
    · decide
  simp only [isSpace, List.mem_cons, List.not_mem_nil, or_false, Bool.or_eq_false_iff, decide_eq_false_iff_not,
    Bool.and_eq_false_iff]
  omega

theorem mem_validKinds (kind : TransactionKind) : kind ∈ validKinds := by
  cases kind <;> simp [validKinds]

theorem mem_validStatuses (status : TransactionStatus) : status ∈ validStatuses := by
  cases status <;> simp [validStatuses]

theorem mem_validDirections (direction : TransactionDirection) : direction ∈ validDirections := by
  cases direction <;> simp [validDirections]

theorem asEnum_text (hrt : RuntimeLaws rt) {τ : Type} {text : τ → String} (hplain : Plain text)
    (hupper : ∀ t, ∀ c ∈ (text t).toList, c.isUpper = true ∨ c = '_') {allowed : List τ} {t : τ}
    (ht : t ∈ allowed) (fallback : τ) : asEnum rt text (.string (text t)) allowed fallback = t := by
  have htrim : trim (text t).toList = (text t).toList :=
    trim_of_forall fun c hc => not_isSpace_of_isUpper (hupper t c hc)
  unfold asEnum
  dsimp only
  rw [htrim, String.ofList_toList, hrt.upper _ (hupper t)]
  cases hfind : allowed.find? fun t' => text t' = text t with
  | none => exact absurd (decide_eq_true rfl) (List.find?_eq_none.mp hfind t ht)
  | some t' =>
    have hsame := List.find?_some hfind
    exact hplain.injective (of_decide_eq_true hsame)

theorem asString_string (s fallback : String) : asString (.string s : Value ι) fallback = s := rfl

variable (walletAddress) in
/-- **A row is normalised to itself**, up to its time. -/
theorem normalizeTransaction_rowValue (hrt : RuntimeLaws rt) (hid : row.id ≠ "")
    (hdirection : row.direction = .unknown →
      deriveTransactionDirection row.kind (asString walletAddress "") = .unknown) :
    normalizeTransaction rt (rowValue row) walletAddress =
      some { row with timestamp := asTimestamp rt (.number row.timestamp) } := by
  have hkind := asEnum_text hrt plain_kind
    (by intro t; cases t <;> simp [TransactionKind.text, Char.isUpper])
    (mem_validKinds row.kind) .unknown
  have hstatus := asEnum_text hrt plain_status
    (by intro t; cases t <;> simp [TransactionStatus.text, Char.isUpper])
    (mem_validStatuses row.status) .unknown
  have hdir := asEnum_text hrt plain_direction
    (by intro t; cases t <;> simp [TransactionDirection.text, Char.isUpper])
    (mem_validDirections row.direction) .unknown
  have hderive : (if row.direction ≠ .unknown then row.direction
      else deriveTransactionDirection row.kind (asString walletAddress "")) = row.direction := by
    split_ifs with h
    · rfl
    · rw [not_not] at h
      exact (hdirection h).trans h.symm
  simp [normalizeTransaction, normalizeRecord, rowValue, property, List.lookup, nullish, asString_string, hid,
    hkind, hstatus, hdir, hderive]

theorem normalizeRecord_of_normalize {entry : Value ι}
    (h : normalizeTransaction rt entry walletAddress = some row) :
    normalizeRecord rt entry walletAddress = some row := by
  cases entry with
  | object entries => exact h
  | host x => exact h
  | _ => cases h

/-- A row says itself which way it goes, or its kind does not. -/
theorem direction_of_normalize {entry : Value ι}
    (h : normalizeTransaction rt entry walletAddress = some row) (hunknown : row.direction = .unknown) :
    deriveTransactionDirection row.kind (asString walletAddress "") = .unknown := by
  have hrecord := normalizeRecord_of_normalize h
  unfold normalizeRecord at hrecord
  dsimp only at hrecord
  rw [Option.ite_none_left_eq_some] at hrecord
  obtain rfl := Option.some.inj hrecord.2
  dsimp only at hunknown ⊢
  split_ifs at hunknown with hexplicit
  · exact absurd hunknown hexplicit
  · exact hunknown

/-- **Rows are normalised one by one.** -/
theorem normalizeList_map_rowValue (hrt : RuntimeLaws rt) (rows : List TransactionRecord)
    (seen : List String) (hnodup : (rows.map TransactionRecord.id).Nodup)
    (hseen : ∀ row ∈ rows, row.id ∉ seen)
    (hrows : ∀ row ∈ rows, ∃ entry, normalizeTransaction rt entry walletAddress = some row) :
    normalizeList rt walletAddress seen (rows.map rowValue) =
      rows.map fun row => { row with timestamp := asTimestamp rt (.number row.timestamp) } := by
  induction rows generalizing seen with
  | nil => rfl
  | cons row rows ih =>
    obtain ⟨entry, hentry⟩ := hrows row List.mem_cons_self
    have hrow := normalizeTransaction_rowValue walletAddress hrt (id_ne_of_normalize hentry)
      (direction_of_normalize hentry)
    rw [List.map_cons, List.nodup_cons] at hnodup
    rw [List.map_cons, normalizeList, hrow]
    dsimp only
    rw [if_neg (hseen row List.mem_cons_self), List.map_cons]
    congr 1
    refine ih _ hnodup.2 (fun row' hrow' hmem => ?_) fun row' hrow' => hrows row' (List.mem_cons_of_mem _ hrow')
    rcases List.mem_cons.mp hmem with heq | hmem
    · exact hnodup.1 (heq ▸ List.mem_map_of_mem hrow')
    · exact hseen row' (List.mem_cons_of_mem _ hrow') hmem

theorem timestamp_of_normalize {entry : Value ι}
    (h : normalizeTransaction rt entry walletAddress = some row) : row.timestamp =
      asTimestamp rt (nullish (property rt entry "timestamp") (property rt entry "createdAt")) := by
  have hrecord := normalizeRecord_of_normalize h
  unfold normalizeRecord at hrecord
  dsimp only at hrecord
  rw [Option.ite_none_left_eq_some] at hrecord
  rw [← Option.some.inj hrecord.2]

end Again

/-- **Normalised rows stay as they are**, and their times, exactly when no entry that is kept has a date of
ten digits. -/
theorem normalizeTransactions_again_iff {ι : Type} {rt : DashboardRuntime ι} (hrt : RuntimeLaws rt)
    (payload walletAddress : Value ι) :
    let rows := normalizeTransactions rt payload walletAddress
    (normalizeTransactions rt (.array (rows.map rowValue)) walletAddress = rows ∧
      ∀ row ∈ rows, asTimestamp rt (.number row.timestamp) = row.timestamp) ↔
    ∀ i entry row, (payloadEntries rt payload)[i]? = some entry →
      FirstAt rt walletAddress (payloadEntries rt payload) i row →
      ¬ ReadAgain rt (nullish (property rt entry "timestamp") (property rt entry "createdAt")) := by
  intro rows
  have hrows : ∀ row ∈ rows, ∃ entry, normalizeTransaction rt entry walletAddress = some row := by
    intro row hrow
    obtain ⟨i, hi, -⟩ := mem_normalizeTransactions_iff.mp hrow
    obtain ⟨entry, -, hentry⟩ := Option.bind_eq_some_iff.mp hi
    exact ⟨entry, hentry⟩
  have hlist : normalizeTransactions rt (.array (rows.map rowValue)) walletAddress =
      rows.map fun row => { row with timestamp := asTimestamp rt (.number row.timestamp) } :=
    normalizeList_map_rowValue hrt rows [] (nodup_normalizeTransactions payload)
      (fun _ _ => List.not_mem_nil) hrows
  have htimes : (∀ row ∈ rows, asTimestamp rt (.number row.timestamp) = row.timestamp) ↔
      ∀ i entry row, (payloadEntries rt payload)[i]? = some entry →
        FirstAt rt walletAddress (payloadEntries rt payload) i row →
        ¬ ReadAgain rt (nullish (property rt entry "timestamp") (property rt entry "createdAt")) := by
    have hentry {i : ℕ} {entry : Value ι} {row : TransactionRecord}
        (h : (payloadEntries rt payload)[i]? = some entry)
        (hfirst : FirstAt rt walletAddress (payloadEntries rt payload) i row) :
        asTimestamp rt (.number row.timestamp) = row.timestamp ↔
          ¬ ReadAgain rt (nullish (property rt entry "timestamp") (property rt entry "createdAt")) := by
      have hrow := hfirst.1
      rw [rowAt, h, Option.bind_some] at hrow
      rw [timestamp_of_normalize hrow]
      exact asTimestamp_again_iff hrt _
    constructor
    · intro h i entry row hi hfirst
      exact (hentry hi hfirst).mp (h row (mem_normalizeTransactions_iff.mpr ⟨i, hfirst⟩))
    · intro h row hrow
      obtain ⟨i, hfirst⟩ := mem_normalizeTransactions_iff.mp hrow
      obtain ⟨entry, hi, -⟩ := Option.bind_eq_some_iff.mp hfirst.1
      exact (hentry hi hfirst).mpr (h i entry row hi hfirst)
  rw [← htimes, hlist, and_iff_right_iff_imp]
  intro h
  calc rows.map (fun row => { row with timestamp := asTimestamp rt (.number row.timestamp) })
      = rows.map id := List.map_congr_left fun row hrow => by rw [h row hrow]; rfl
    _ = rows := List.map_id rows

/-- A runtime that knows one date. -/
def isoRuntime : DashboardRuntime Empty where
  __ := HistorySession.asciiRuntime
  dateParse s := if s = "1970-01-12T13:46:40Z" then .fin 1000000000 else .nan

theorem isoRuntime_laws : RuntimeLaws isoRuntime where
  upper s h := by
    have hchar : ∀ c ∈ s.toList, c.toUpper = id c := by
      intro c hc
      have hbound : ¬ c.val ≥ 'a'.val := by
        rcases h c hc with hupper | rfl
        · simp only [Char.isUpper, decide_eq_true_eq] at hupper
          exact fun hge => absurd (UInt32.le_trans hge hupper.2) (by decide)
        · decide
      exact dif_neg fun hge => hbound hge.1
    have hmap : s.toList.map Char.toUpper = s.toList := (List.map_congr_left hchar).trans (List.map_id _)
    show String.ofList (s.toList.map Char.toUpper) = s
    rw [hmap, String.ofList_toList]
  parsed s := by
    unfold isoRuntime
    dsimp only
    split_ifs
    · exact .inr ⟨1000000000, by norm_num⟩
    · exact .inl rfl
  time x := x.elim

theorem normalizeTransactions_again_iff_one :
    let payload : Value Empty := .array [.object [("id", .string "a"), ("createdAt", .number (.fin 1700000000))]]
    let rows := normalizeTransactions isoRuntime payload .undefined
    (normalizeTransactions isoRuntime (.array (rows.map rowValue)) .undefined = rows ∧
      ∀ row ∈ rows, asTimestamp isoRuntime (.number row.timestamp) = row.timestamp) ∧
    rows.map TransactionRecord.id = ["a"] := by
  intro payload rows
  refine ⟨(normalizeTransactions_again_iff isoRuntime_laws payload .undefined).mpr ?_, by decide⟩
  intro i entry row hi _
  cases i with
  | zero =>
    obtain rfl := Option.some.inj hi
    exact not_false
  | succ i => cases hi

/-- A date of January 1970 is a later one the second time. -/
theorem normalizeTransactions_moved :
    let payload : Value Empty :=
      .array [.object [("id", .string "a"), ("timestamp", .string "1970-01-12T13:46:40Z")]]
    let rows := normalizeTransactions isoRuntime payload .undefined
    normalizeTransactions isoRuntime (.array (rows.map rowValue)) .undefined ≠ rows := by
  intro payload rows h
  have htimes := congrArg (List.map TransactionRecord.timestamp) h
  have hrows : rows.map TransactionRecord.timestamp = [.fin 1000000000] := by decide
  have hagain : (normalizeTransactions isoRuntime (.array (rows.map rowValue)) .undefined).map
      TransactionRecord.timestamp = [(Number.fin 1000000000).trunc.mul (.fin 1000)] := rfl
  have hmul : (Number.fin 1000000000).trunc.mul (.fin 1000) = .fin 1000000000000 := by
    have htrunc : (Number.fin 1000000000).trunc = .fin (1000000000 : ℤ) := by decide
    rw [htrunc, mul_thousand (by norm_num)]
    norm_num
  rw [hagain, hrows, hmul] at htimes
  exact absurd htimes (by decide)

end StreamFi
