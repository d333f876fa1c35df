import StreamFi.Batch.Build
import StreamFi.Memo.Chunks
import StreamFi.Sorted.Window

/-!
# Chunks of operations

`chunkBatchOperations` cuts a list of operations into chunks that fit into a transaction.

* `chunkBatchOperations`: the code; the loop is followed for a number of rounds, and has no result as long
  as it has not come to its end;
* `Chunked`: a list in chunks of one size, with `Chunked.cons`;
* **`chunkBatchOperations_chunked`**: the whole sizes from one on cut every list so, and no other size is
  accepted.
-/

namespace StreamFi

open Js Sorted

/-! ## The code -/

section Code

variable {T : Type}

/-- The loop of `chunkBatchOperations` from position `i` on. -/
def chunkLoop (items : List T) (maxChunkSize : Number) : ℕ → Number → Option (List (List T))
  | 0, _ => none
  | fuel + 1, i =>
    if i.lt (.fin items.length) then
      (chunkLoop items maxChunkSize fuel (i.add maxChunkSize)).map fun chunks =>
        slice items (i.relIndex items.length) ((i.add maxChunkSize).relIndex items.length) :: chunks
    else some []

def chunkBatchOperations (items : List T) (size : Option Number) (fuel : ℕ) :
    Option (Except Thrown (List (List T))) :=
  let maxChunkSize := size.getD (.fin 50)
  if ¬ maxChunkSize.isInteger ∨ maxChunkSize.lt (.fin 1) then
    some (.error (batchBuildError s!"maxChunkSize must be a positive integer, got {numToText maxChunkSize}"))
  else if items = [] then some (.ok [])
  else (chunkLoop items maxChunkSize fuel (.fin 0)).map .ok

end Code

/-! ## Chunks -/

section Chunked

variable {T : Type*} {c : ℕ} {items : List T} {chunks : List (List T)}

/-- The chunks of a list, of `c` items each except the last. -/
structure Chunked (c : ℕ) (items : List T) (chunks : List (List T)) : Prop where
  nonempty : ∀ chunk ∈ chunks, chunk ≠ []
  flatten : chunks.flatten = items
  size : ∀ chunk ∈ chunks, chunk.length ≤ c
  full : ∀ chunk ∈ chunks.dropLast, chunk.length = c
  length : chunks.length = ⌈(items.length : ℚ) / c⌉₊

theorem chunked_nil (c : ℕ) : Chunked c ([] : List T) [] where
  nonempty := by simp
  flatten := rfl
  size := by simp
  full := by simp
  length := by simp

/-- A chunk less is one less of what a number is divided into. -/
theorem ceil_sub_div {n : ℕ} (hc : 0 < c) (hn : 0 < n) : ⌈((n - c : ℕ) : ℚ) / c⌉₊ + 1 = ⌈(n : ℚ) / c⌉₊ := by
  have hc' : (0 : ℚ) < c := by exact_mod_cast hc
  rcases le_total c n with hle | hle
  · rw [← Nat.ceil_add_one (by positivity), Nat.cast_sub hle]
    congr 1
    field_simp
    ring
  · rw [Nat.sub_eq_zero_of_le hle, Nat.cast_zero, zero_div, Nat.ceil_zero, zero_add]
    symm
    rw [Nat.ceil_eq_iff one_ne_zero]
    constructor
    · rw [Nat.sub_self, Nat.cast_zero]
      exact div_pos (by exact_mod_cast hn) hc'
    · rw [Nat.cast_one, div_le_one hc']
      exact_mod_cast hle

/-- **One chunk more**, before the chunks of what follows it. -/
theorem Chunked.cons (hc : 0 < c) (hne : items ≠ []) (h : Chunked c (items.drop c) chunks) :
    Chunked c items (items.take c :: chunks) := by
  have hpos : 0 < items.length := List.length_pos_iff.mpr hne
  refine ⟨?_, ?_, ?_, ?_, ?_⟩
  · rintro chunk (_ | ⟨_, hchunk⟩)
    · rw [← List.length_pos_iff, List.length_take]
      omega
    · exact h.nonempty chunk hchunk
  · rw [List.flatten_cons, h.flatten, List.take_append_drop]
  · rintro chunk (_ | ⟨_, hchunk⟩)
    · rw [List.length_take]
      omega
    · exact h.size chunk hchunk
  · intro chunk hchunk
    cases hchunks : chunks with
    | nil =>
      rw [hchunks] at hchunk
      cases hchunk
    | cons next rest =>
      have hnext := h.nonempty next (by rw [hchunks]; exact List.mem_cons_self)
      have hfull := h.full
      -- something follows the first chunk, so it is not cut short
      have hmore : c < items.length := by
        by_contra hle
        have hflatten := h.flatten
        rw [List.drop_eq_nil_of_le (not_lt.mp hle), hchunks, List.flatten_cons] at hflatten
        exact hnext (List.append_eq_nil_iff.mp hflatten).1
      rw [hchunks] at hchunk hfull
      rw [List.dropLast_cons_of_ne_nil (by simp)] at hchunk
      rcases List.mem_cons.mp hchunk with rfl | hchunk
      · rw [List.length_take]
        omega
      · exact hfull chunk hchunk
  · rw [List.length_cons, h.length, List.length_drop, ceil_sub_div hc hpos]

end Chunked

/-! ## The loop -/

section Loop

variable {T : Type} {c : ℕ} {items : List T}

theorem slice_chunk (p c : ℕ) (items : List T) :
    slice items p (min (p + c) items.length) = (items.drop p).take c := by
  rcases le_total (p + c) items.length with hle | hle
  · rw [Nat.min_eq_left hle, slice, List.drop_take, Nat.add_sub_cancel_left]
  · rw [Nat.min_eq_right hle, slice_eq_drop (Nat.le_refl _)]
    symm
    apply List.take_of_length_le
    rw [List.length_drop]
    omega

/-- **The loop from a position on** cuts what follows it. -/
theorem chunkLoop_chunked (hc : 0 < c) (hlen : items.length < 2 ^ 32) (n : ℕ) :
    ∀ (i : Number) (p : ℕ), AtIndex i p items.length → items.length - p ≤ n →
      ∃ chunks, (∀ fuel, n < fuel → chunkLoop items (.fin c) fuel i = some chunks) ∧
        Chunked c (items.drop p) chunks := by
  induction n with
  | zero =>
    rintro i p (⟨rfl, hp⟩ | ⟨hstop, rfl⟩) hn
    · omega
    · refine ⟨[], fun fuel hfuel => ?_, by rw [List.drop_length]; exact chunked_nil c⟩
      obtain ⟨fuel, rfl⟩ := Nat.exists_eq_add_one.mpr hfuel
      rw [chunkLoop, hstop, if_neg Bool.false_ne_true]
  | succ n ih =>
    rintro i p (⟨rfl, hp⟩ | ⟨hstop, rfl⟩) hn
    · obtain ⟨chunks, hrun, hchunks⟩ := ih _ _ (atIndex_add p c hlen) (by omega)
      refine ⟨(items.drop p).take c :: chunks, fun fuel hfuel => ?_, ?_⟩
      · obtain ⟨fuel, rfl⟩ : ∃ f, fuel = f + 1 := ⟨fuel - 1, by omega⟩
        have hgo : (Number.fin p).lt (.fin items.length) = true := by
          rw [Number.lt_fin, decide_eq_true_eq]
          exact_mod_cast hp
        rw [chunkLoop, if_pos hgo, hrun fuel (by omega), Option.map_some, Number.relIndex_natCast,
          Number.relIndex_add p c hlen, Nat.min_eq_left hp.le, slice_chunk]
      · apply Chunked.cons hc
        · rw [← List.length_pos_iff, List.length_drop]
          omega
        · rw [List.drop_drop]
          convert hchunks using 1
          rcases le_total (p + c) items.length with hle | hle
          · rw [Nat.min_eq_left hle]
          · rw [Nat.min_eq_right hle, List.drop_length, List.drop_eq_nil_of_le hle]
    · refine ⟨[], fun fuel hfuel => ?_, by rw [List.drop_length]; exact chunked_nil c⟩
      obtain ⟨fuel, rfl⟩ : ∃ f, fuel = f + 1 := ⟨fuel - 1, by omega⟩
      rw [chunkLoop, hstop, if_neg Bool.false_ne_true]

/-- The sizes that are accepted. -/
theorem accepted_size_iff {x : Number} :
    ¬ (¬ x.isInteger ∨ x.lt (.fin 1)) ↔ ∃ c : ℕ, 0 < c ∧ x = .fin c := by
  rw [not_or, not_not]
  constructor
  · rintro ⟨hint, hlarge⟩
    obtain ⟨z, rfl⟩ := Number.isInteger_iff.mp hint
    rw [Number.lt_fin, decide_eq_true_eq, not_lt] at hlarge
    have hz : 1 ≤ z := by exact_mod_cast hlarge
    lift z to ℕ using by omega
    exact ⟨z, by omega, by rw [Int.cast_natCast]⟩
  · rintro ⟨c, hc, rfl⟩
    refine ⟨Number.isInteger_iff.mpr ⟨c, by rw [Int.cast_natCast]⟩, ?_⟩
    rw [Number.lt_fin, decide_eq_true_eq, not_lt]
    exact_mod_cast hc

/-- **Every whole size from one on cuts the list into chunks**; every other size throws. -/
theorem chunkBatchOperations_chunked (items : List T) (hlen : items.length < 2 ^ 32)
    (size : Option Number) :
    (∀ c : ℕ, 0 < c → size.getD (.fin 50) = .fin c → ∃ chunks, Chunked c items chunks ∧
      ∀ fuel, items.length < fuel → chunkBatchOperations items size fuel = some (.ok chunks)) ∧
    ((∀ c : ℕ, 0 < c → size.getD (.fin 50) ≠ .fin c) →
      ∀ fuel, chunkBatchOperations items size fuel = some (.error (batchBuildError
        s!"maxChunkSize must be a positive integer, got {numToText (size.getD (.fin 50))}"))) := by
  constructor
  · intro c hc hsize
    have haccepted := accepted_size_iff.mpr ⟨c, hc, rfl⟩
    obtain ⟨chunks, hrun, hchunks⟩ :=
      chunkLoop_chunked hc hlen items.length (.fin 0) 0
        (by
          rcases Nat.eq_zero_or_pos items.length with h0 | hpos
          · exact .inr ⟨by rw [h0]; rfl, h0.symm⟩
          · exact .inl ⟨by rw [Nat.cast_zero], hpos⟩)
        (Nat.sub_le _ _)
    rw [List.drop_zero] at hchunks
    refine ⟨chunks, hchunks, fun fuel hfuel => ?_⟩
    simp only [chunkBatchOperations, hsize]
    rw [if_neg haccepted, hrun fuel hfuel, Option.map_some]
    split_ifs with hnil
    · subst hnil
      have hzero := hchunks.length
      rw [List.length_nil, Nat.cast_zero, zero_div, Nat.ceil_zero] at hzero
      rw [List.eq_nil_of_length_eq_zero hzero]
    · rfl
  · intro hother fuel
    simp only [chunkBatchOperations]
    rw [if_pos]
    by_contra hok
    obtain ⟨c, hc, hsize⟩ := accepted_size_iff.mp hok
    exact hother c hc hsize

/-- Five operations in chunks of two. -/
theorem chunkBatchOperations_five :
    ([1, 2, 3, 4, 5] : List ℕ).length < 2 ^ 32 ∧
    ∃ chunks, Chunked 2 [1, 2, 3, 4, 5] chunks ∧ ∀ fuel, 5 < fuel →
      chunkBatchOperations [1, 2, 3, 4, 5] (some (.fin 2)) fuel = some (.ok chunks) :=
  ⟨by decide, (chunkBatchOperations_chunked [1, 2, 3, 4, 5] (by decide) (some (.fin 2))).1 2
    (by decide) (by rfl)⟩

end Loop

end StreamFi
