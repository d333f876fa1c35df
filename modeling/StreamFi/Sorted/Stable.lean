import Mathlib

/-!
# Two ranks and a stable sort

A list can be put in two ranks, the items that pass a test before those that do not, with the order of the
list kept in each. A stable sort by a key keeps the order of the list between items of one key. The two are
compared here on the beginning of the list, by the positions of the items.

* `ranked`: the two ranks;
* `sortOn`: the stable sort;
* `Before`: the order that `sortOn` follows, on items with their positions;
* `Leads`: each of the first items of a list stands in a relation to all that follow it;
* **`take_eq_take_iff`**: a sorted list and a rearrangement of it begin alike when the latter is sorted so far;
* `take_eq_of_map_fst`: items at the same places have the same positions;
* **`take_sortOn_iff`**: when the sort begins with the items that the ranks begin with.
-/

namespace Sorted

/-! ## The beginning of a list -/

section Leads

variable {β : Type*} {r : β → β → Prop}

/-- Each of the first `n` items is related to all items after it. -/
def Leads (r : β → β → Prop) : ℕ → List β → Prop
  | 0, _ | _, [] => True
  | n + 1, a :: l => (∀ b ∈ l, r a b) ∧ Leads r n l

@[simp] theorem leads_zero (l : List β) : Leads r 0 l := by
  cases l <;> exact trivial

@[simp] theorem leads_nil (n : ℕ) : Leads r n [] := by
  cases n <;> exact trivial

theorem leads_succ_cons {n : ℕ} {a : β} {l : List β} :
    Leads r (n + 1) (a :: l) ↔ (∀ b ∈ l, r a b) ∧ Leads r n l := Iff.rfl

/-- **A sorted list and a rearrangement of it** begin alike when the rearrangement is sorted so far. -/
theorem take_eq_take_iff (hasymm : ∀ a b, r a b → ¬ r b a) {sorted l : List β} (hsorted : sorted.Pairwise r)
    (hperm : l.Perm sorted) (n : ℕ) : l.take n = sorted.take n ↔ Leads r n l := by
  induction n generalizing l sorted with
  | zero => simp
  | succ n ih =>
    cases l with
    | nil =>
      rw [hperm.symm.eq_nil]
      simp
    | cons a l =>
      cases sorted with
      | nil => exact absurd hperm.symm (List.not_perm_nil_cons a l)
      | cons b sorted =>
        rw [List.pairwise_cons] at hsorted
        rw [List.take_succ_cons, List.take_succ_cons, List.cons.injEq, leads_succ_cons]
        constructor
        · rintro ⟨rfl, htake⟩
          have htail := hperm.cons_inv
          exact ⟨fun c hc => hsorted.1 c (htail.subset hc), (ih hsorted.2 htail).mp htake⟩
        · rintro ⟨hfirst, hleads⟩
          have hab : a = b := by
            by_contra hne
            have ha : a ∈ sorted := (List.mem_cons.mp (hperm.subset List.mem_cons_self)).resolve_left hne
            have hb : b ∈ l :=
              (List.mem_cons.mp (hperm.symm.subset List.mem_cons_self)).resolve_left (Ne.symm hne)
            exact hasymm a b (hfirst b hb) (hsorted.1 a ha)
          subst hab
          exact ⟨rfl, (ih hsorted.2 hperm.cons_inv).mpr hleads⟩

end Leads

/-! ## Positions -/

section Positions

variable {α : Type*}

/-- Equal items have ascending positions. -/
def Ascending (l : List (α × ℕ)) : Prop := l.Pairwise fun p q => p.1 = q.1 → p.2 < q.2

/-- **Items tell their positions**, where equal items have them in ascending order. -/
theorem take_eq_of_map_fst {l m : List (α × ℕ)} (hl : Ascending l) (hm : Ascending m) (hperm : l.Perm m) {n : ℕ}
    (h : (l.take n).map Prod.fst = (m.take n).map Prod.fst) : l.take n = m.take n := by
  induction n generalizing l m with
  | zero => simp
  | succ n ih =>
    cases l with
    | nil => rw [hperm.symm.eq_nil]
    | cons p l =>
      cases m with
      | nil => exact absurd hperm.symm (List.not_perm_nil_cons p l)
      | cons q m =>
        rw [Ascending, List.pairwise_cons] at hl hm
        rw [List.take_succ_cons, List.take_succ_cons, List.map_cons, List.map_cons, List.cons.injEq] at h
        have hpq : p = q := by
          by_contra hne
          have hp : p ∈ m := (List.mem_cons.mp (hperm.subset List.mem_cons_self)).resolve_left hne
          have hq : q ∈ l :=
            (List.mem_cons.mp (hperm.symm.subset List.mem_cons_self)).resolve_left (Ne.symm hne)
          have := hl.1 q hq h.1
          have := hm.1 p hp h.1.symm
          omega
        subst hpq
        rw [List.take_succ_cons, List.take_succ_cons, ih hl.2 hm.2 hperm.cons_inv h.2]

theorem pairwise_zipIdx (l : List α) (k : ℕ) : (l.zipIdx k).Pairwise fun p q => p.2 < q.2 := by
  have hrange : ((l.zipIdx k).map Prod.snd).Pairwise (· < ·) := by
    rw [List.zipIdx_map_snd]
    exact List.pairwise_lt_range'
  exact List.pairwise_map.mp hrange

end Positions

/-! ## Ranks and keys -/

section Ranks

variable {α κ : Type*} [LinearOrder κ] (first : α → Bool) (key : α → κ)

/-- The items that pass `first`, and then the others. -/
def ranked (l : List α) : List α := l.filter first ++ l.filter fun a => !first a

/-- The stable sort by `key`. -/
def sortOn (l : List α) : List α := l.mergeSort fun a b => key a ≤ key b

/-- A smaller key, or the same key at an earlier position. -/
def Before (p q : α × ℕ) : Prop := key p.1 < key q.1 ∨ key p.1 = key q.1 ∧ p.2 < q.2

theorem ranked_perm (l : List α) : (ranked first l).Perm l := List.filter_append_perm first l

/-- The items of the list in their ranks, with their positions in it. -/
def rankedPositions (l : List α) : List (α × ℕ) := ranked (fun p => first p.1) l.zipIdx

theorem map_rankedPositions (l : List α) : (rankedPositions first l).map Prod.fst = ranked first l := by
  have hfilter (test : α → Bool) :
      (l.zipIdx.filter fun p => test p.1).map Prod.fst = l.filter test := by
    have := List.filter_map (f := Prod.fst) (p := test) (l := l.zipIdx)
    rw [List.zipIdx_map_fst] at this
    exact this.symm
  rw [rankedPositions, ranked, ranked, List.map_append, hfilter first, hfilter fun a => !first a]

theorem ascending_rankedPositions (l : List α) : Ascending (rankedPositions first l) := by
  have hpart (test : α × ℕ → Bool) : Ascending (l.zipIdx.filter test) := by
    refine ((pairwise_zipIdx l 0).sublist List.filter_sublist).imp ?_
    intro p q h _
    exact h
  refine List.pairwise_append.mpr ⟨hpart _, hpart _, ?_⟩
  intro p hp q hq heq
  have h₁ := (List.mem_filter.mp hp).2
  have h₂ := (List.mem_filter.mp hq).2
  rw [heq] at h₁
  simp [h₁] at h₂

/-- The items sorted by `key`, with their positions in the list. -/
def sortedPositions (l : List α) : List (α × ℕ) :=
  l.zipIdx.mergeSort (List.zipIdxLE fun a b => key a ≤ key b)

theorem map_sortedPositions (l : List α) : (sortedPositions key l).map Prod.fst = sortOn key l :=
  List.mergeSort_zipIdx

variable {key} in
theorem zipIdxLE_iff {p q : α × ℕ} :
    List.zipIdxLE (fun a b => key a ≤ key b) p q = true ↔
      key p.1 < key q.1 ∨ key p.1 = key q.1 ∧ p.2 ≤ q.2 := by
  rcases lt_trichotomy (key p.1) (key q.1) with h | h | h
  · simp [List.zipIdxLE, h, h.le, not_le.mpr h]
  · simp [List.zipIdxLE, h]
  · simp [List.zipIdxLE, not_le.mpr h, not_lt.mpr h.le, h.ne']

/-- **The sort follows** `Before`. -/
theorem pairwise_sortedPositions (l : List α) : (sortedPositions key l).Pairwise (Before key) := by
  have hle : (sortedPositions key l).Pairwise fun p q =>
      List.zipIdxLE (fun a b => key a ≤ key b) p q = true := by
    refine List.pairwise_mergeSort ?_ ?_ _
    · intro p q s hpq hqs
      rw [zipIdxLE_iff] at *
      rcases hpq with h | ⟨h, hi⟩
      · rcases hqs with h' | ⟨h', -⟩
        · exact .inl (h.trans h')
        · exact .inl (h'.symm ▸ h)
      · rcases hqs with h' | ⟨h', hj⟩
        · exact .inl (h ▸ h')
        · exact .inr ⟨h.trans h', hi.trans hj⟩
    · intro p q
      rw [Bool.or_eq_true, zipIdxLE_iff, zipIdxLE_iff]
      rcases lt_trichotomy (key p.1) (key q.1) with h | h | h
      · exact .inl (.inl h)
      · rcases le_total p.2 q.2 with hi | hi
        · exact .inl (.inr ⟨h, hi⟩)
        · exact .inr (.inr ⟨h.symm, hi⟩)
      · exact .inr (.inl h)
  have hne : (sortedPositions key l).Pairwise fun p q => p.2 ≠ q.2 := by
    have hall : l.zipIdx.Pairwise fun p q => p.2 ≠ q.2 := (pairwise_zipIdx l 0).imp fun h => h.ne
    exact (List.mergeSort_perm _ _).symm.pairwise hall fun h => h.symm
  refine hle.imp₂ (fun p q h hpos => ?_) hne
  rcases zipIdxLE_iff.mp h with hlt | ⟨heq, hi⟩
  · exact .inl hlt
  · exact .inr ⟨heq, lt_of_le_of_ne hi hpos⟩

theorem not_before_of_before {p q : α × ℕ} (h : Before key p q) : ¬ Before key q p := by
  rintro (h' | ⟨h', hj⟩)
  · rcases h with h | ⟨h, -⟩
    · exact lt_asymm h h'
    · exact h'.ne h.symm
  · rcases h with h | ⟨-, hi⟩
    · exact h.ne h'.symm
    · omega

/-- **The sort begins with the items that the ranks begin with** when the ranks follow the keys so far. -/
theorem take_sortOn_iff (l : List α) (n : ℕ) :
    (sortOn key l).take n = (ranked first l).take n ↔ Leads (Before key) n (rankedPositions first l) := by
  have hperm : (rankedPositions first l).Perm (sortedPositions key l) :=
    (ranked_perm _ _).trans (List.mergeSort_perm _ _).symm
  have hascending : Ascending (sortedPositions key l) := by
    refine (pairwise_sortedPositions key l).imp fun {p q} h heq => ?_
    rcases h with h | ⟨-, hi⟩
    · exact absurd (congrArg key heq) h.ne
    · exact hi
  rw [← take_eq_take_iff (fun p q h => not_before_of_before key h) (pairwise_sortedPositions key l) hperm n,
    ← map_sortedPositions, ← map_rankedPositions, ← List.map_take, ← List.map_take]
  constructor
  · intro h
    exact take_eq_of_map_fst (ascending_rankedPositions first l) hascending hperm h.symm
  · intro h
    rw [h]

end Ranks

end Sorted
