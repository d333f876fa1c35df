import Mathlib

/-!
# Windows of merged ascending lists

Two strictly ascending lists are merged by concatenating, dropping repeats and sorting.

* `slice`, `slice_append_drop`: pages;
* `merge`: the merge, with **`sortedLT_merge`** and `mem_merge`;
* **`take_merge`**: the first `m` merged elements only need the first `w ≥ m` of each list.
-/

namespace Sorted

/-! ## Pages -/

section Slice

variable {α : Type*}

/-- The elements from position `i` up to position `j`. -/
def slice (l : List α) (i j : ℕ) : List α := (l.take j).drop i

theorem slice_append_drop (l : List α) {i j : ℕ} (h : i ≤ j) :
    slice l i j ++ l.drop j = l.drop i := by
  rw [slice, List.drop_take]
  conv_rhs => rw [← List.take_append_drop (j - i) (l.drop i)]
  rw [List.drop_drop, Nat.add_sub_cancel' h]

theorem slice_eq_drop {l : List α} {i j : ℕ} (h : l.length ≤ j) : slice l i j = l.drop i := by
  rw [slice, List.take_of_length_le h]

theorem length_slice (l : List α) (i w : ℕ) : (slice l i (i + w)).length = min w (l.length - i) := by
  rw [slice, List.length_drop, List.length_take]
  omega

end Slice

variable {α : Type*} [LinearOrder α]

/-! ## Merging -/

/-- Concatenate, drop repeats, sort ascending. -/
def merge (A B : List α) : List α := (A ++ B).eraseDups.mergeSort (fun a b => decide (a ≤ b))

theorem nodup_eraseDups (l : List α) : l.eraseDups.Nodup := by
  induction h : l.length using Nat.strong_induction_on generalizing l with
  | _ n ih =>
    cases l with
    | nil => simp
    | cons a l =>
      rw [List.eraseDups_cons, List.nodup_cons]
      refine ⟨by simp, ih _ ?_ _ rfl⟩
      subst h
      exact Nat.lt_succ_of_le (List.length_filter_le _ _)

@[simp] theorem mem_merge {A B : List α} {x : α} : x ∈ merge A B ↔ x ∈ A ∨ x ∈ B := by
  simp [merge]

/-- **The merge is strictly ascending.** -/
theorem sortedLT_merge (A B : List α) : (merge A B).SortedLT := by
  rw [List.sortedLT_iff_nodup_and_sortedLE]
  constructor
  · exact (List.mergeSort_perm _ _).nodup_iff.mpr (nodup_eraseDups _)
  · have : (merge A B).Pairwise fun a b => decide (a ≤ b) = true :=
      List.pairwise_mergeSort
        (fun a b c hab hbc => by simpa using (le_trans (by simpa using hab) (by simpa using hbc)))
        (fun a b => by simpa using le_total a b) (A ++ B).eraseDups
    exact List.Pairwise.sortedLE (this.imp (fun h => by simpa using h))

/-! ## Windows -/

/-- How many elements are below `x`. -/
def below (x : α) (l : List α) : ℕ := l.countP (· < x)

theorem below_cons_self {x : α} {l : List α} (h : (x :: l).SortedLT) : below x (x :: l) = 0 := by
  rw [below, List.countP_eq_zero]
  intro y hy
  rcases List.mem_cons.mp hy with rfl | hy
  · simp
  · simpa using (List.rel_of_pairwise_cons h.pairwise hy).le

/-- A window holds the elements with fewer than `m` below them. -/
theorem mem_take_iff {l : List α} (hl : l.SortedLT) {x : α} {m : ℕ} :
    x ∈ l.take m ↔ x ∈ l ∧ below x l < m := by
  induction l generalizing m with
  | nil => simp
  | cons a l ih =>
    have hl' : l.SortedLT := (List.pairwise_cons.mp hl.pairwise).2.sortedLT
    cases m with
    | zero => simp
    | succ m =>
      rw [List.take_succ_cons, List.mem_cons, ih hl', List.mem_cons]
      by_cases hx : x = a
      · subst hx
        simp [below_cons_self hl]
      · by_cases hm : x ∈ l
        · have hlt : a < x := List.rel_of_pairwise_cons hl.pairwise hm
          simp [hx, hm, below, hlt]
        · simp [hx, hm]

theorem below_le_of_subset {A B : List α} (hA : A.Nodup) (h : A ⊆ B) (x : α) :
    below x A ≤ below x B := by
  simp only [below, List.countP_eq_length_filter]
  refine List.Subperm.length_le (List.subperm_of_subset (hA.filter _) fun y hy => ?_)
  rw [List.mem_filter] at hy ⊢
  exact ⟨h hy.1, hy.2⟩

theorem sortedLT_take {l : List α} (hl : l.SortedLT) (m : ℕ) : (l.take m).SortedLT :=
  (hl.pairwise.sublist (List.take_sublist m l)).sortedLT

theorem below_eq_length_take {l : List α} (hl : l.SortedLT) {x : α} {m : ℕ} (h : m ≤ below x l) :
    below x (l.take m) = m := by
  have hlen : m ≤ l.length := h.trans List.countP_le_length
  rw [below, List.countP_eq_length.mpr, List.length_take, min_eq_left hlen]
  intro y hy
  by_contra hxy
  have hxy : x ≤ y := by simpa using hxy
  have hlt := ((mem_take_iff hl).mp hy).2
  have : below x l ≤ below y l :=
    List.countP_mono_left fun z _ hz => by simpa using lt_of_lt_of_le (by simpa using hz) hxy
  omega

section

variable {A B : List α} {m w : ℕ}

theorem mem_windows_of_mem_take (hA : A.SortedLT) (hB : B.SortedLT) (hmw : m ≤ w) {x : α}
    (h : x ∈ (merge A B).take m) : x ∈ merge (A.take w) (B.take w) := by
  obtain ⟨hx, hlt⟩ := (mem_take_iff (sortedLT_merge A B)).mp h
  have hA' : below x A ≤ below x (merge A B) :=
    below_le_of_subset hA.nodup (fun y hy => mem_merge.mpr (.inl hy)) x
  have hB' : below x B ≤ below x (merge A B) :=
    below_le_of_subset hB.nodup (fun y hy => mem_merge.mpr (.inr hy)) x
  rw [mem_merge] at hx ⊢
  rw [mem_take_iff hA, mem_take_iff hB]
  exact hx.imp (fun h => ⟨h, by omega⟩) fun h => ⟨h, by omega⟩

theorem windows_subset : merge (A.take w) (B.take w) ⊆ merge A B := by
  intro x hx
  rw [mem_merge] at hx ⊢
  exact hx.imp List.mem_of_mem_take List.mem_of_mem_take

/-- **Windowed merge.** The first `m` merged elements only need the first `w ≥ m` of each. -/
theorem take_merge (hA : A.SortedLT) (hB : B.SortedLT) (hmw : m ≤ w) :
    (merge (A.take w) (B.take w)).take m = (merge A B).take m := by
  have hU := sortedLT_merge A B
  have hV := sortedLT_merge (A.take w) (B.take w)
  refine (sortedLT_take hV m).eq_of_mem_iff (sortedLT_take hU m) fun x => ?_
  constructor
  · intro hx
    obtain ⟨hxV, hlt⟩ := (mem_take_iff hV).mp hx
    refine (mem_take_iff hU).mpr ⟨windows_subset hxV, ?_⟩
    by_contra hge
    -- the first `m` elements are all below `x`, and they are all in the windows
    have hm : below x ((merge A B).take m) = m := below_eq_length_take hU (not_lt.mp hge)
    have hle := below_le_of_subset (sortedLT_take hU m).nodup
      (fun y hy => mem_windows_of_mem_take hA hB hmw hy) x
    omega
  · intro hx
    refine (mem_take_iff hV).mpr ⟨mem_windows_of_mem_take hA hB hmw hx, ?_⟩
    have hlt := ((mem_take_iff hU).mp hx).2
    have hle := below_le_of_subset hV.nodup (windows_subset (A := A) (B := B) (w := w)) x
    omega

end

end Sorted
