import Mathlib

/-!
# Selection with a heap

The `k` items of highest priority are kept in a binary heap, with the lowest of them at the root. A heap
is a list: the item at position `i` has its children at `2 * i + 1` and `2 * i + 2`.

* `UpOrder`, `DownOrder`: what `siftUp` and `siftDown` need, as facts about the keys by position;
* `IsHeap`: the order of a heap, with `IsHeap.siftUp` and `IsHeap.siftDown`;
* `Selected`: the items that are kept, and **`Selected.offer`**: the next item;
* **`Selected.mergeSort_eq`**: the kept items, sorted, are the first of all items, sorted.
-/

namespace Sorted

/-! ## Orders by position -/

section Order

variable {κ : Type*} [LinearOrder κ]

/-- A parent is not above its children. -/
def HeapOrder (f : ℕ → κ) : Prop := ∀ i, 0 < i → f ((i - 1) / 2) ≤ f i

/-- In order but for position `i` and its parent. -/
structure UpOrder (f : ℕ → κ) (i : ℕ) : Prop where
  except : ∀ j, 0 < j → j ≠ i → f ((j - 1) / 2) ≤ f j
  grand : 0 < i → ∀ j, 0 < j → (j - 1) / 2 = i → f ((i - 1) / 2) ≤ f j

/-- In order but for position `i` and its children. -/
structure DownOrder (f : ℕ → κ) (i : ℕ) : Prop where
  except : ∀ j, 0 < j → (j - 1) / 2 ≠ i → f ((j - 1) / 2) ≤ f j
  grand : 0 < i → ∀ j, 0 < j → (j - 1) / 2 = i → f ((i - 1) / 2) ≤ f j

variable {f : ℕ → κ} {i s : ℕ}

theorem HeapOrder.root_le (h : HeapOrder f) (i : ℕ) : f 0 ≤ f i := by
  induction i using Nat.strong_induction_on with
  | _ i ih =>
    by_cases hi : i = 0
    · rw [hi]
    · exact (ih ((i - 1) / 2) (by omega)).trans (h i (by omega))

theorem UpOrder.move (h : UpOrder f i) (hi : 0 < i) (hle : f i ≤ f ((i - 1) / 2)) :
    UpOrder (f ∘ Equiv.swap i ((i - 1) / 2)) ((i - 1) / 2) := by
  have hlt : (i - 1) / 2 < i := by omega
  constructor
  · intro j hj hne
    simp only [Function.comp_apply]
    by_cases hji : j = i
    · rw [hji, Equiv.swap_apply_left, Equiv.swap_apply_right]
      exact hle
    · rw [Equiv.swap_apply_of_ne_of_ne hji hne]
      by_cases hchild : (j - 1) / 2 = i
      · rw [hchild, Equiv.swap_apply_left]
        exact h.grand hi j hj hchild
      · by_cases hsibling : (j - 1) / 2 = (i - 1) / 2
        · have hj' := h.except j hj hji
          rw [hsibling] at hj' ⊢
          rw [Equiv.swap_apply_right]
          exact hle.trans hj'
        · rw [Equiv.swap_apply_of_ne_of_ne hchild hsibling]
          exact h.except j hj hji
  · intro hpos j hj hparent
    simp only [Function.comp_apply]
    have habove := h.except ((i - 1) / 2) hpos (by omega)
    have hi' : ((i - 1) / 2 - 1) / 2 ≠ i := by omega
    have hself : ((i - 1) / 2 - 1) / 2 ≠ (i - 1) / 2 := by omega
    have hj' : j ≠ (i - 1) / 2 := by omega
    rw [Equiv.swap_apply_of_ne_of_ne hi' hself]
    by_cases hji : j = i
    · rw [hji, Equiv.swap_apply_left]
      exact habove
    · rw [Equiv.swap_apply_of_ne_of_ne hji hj']
      have hbelow := h.except j hj hji
      rw [hparent] at hbelow
      exact habove.trans hbelow

theorem UpOrder.finish (h : UpOrder f i) (hi : 0 < i → f ((i - 1) / 2) ≤ f i) : HeapOrder f := by
  intro j hj
  by_cases hji : j = i
  · subst hji
    exact hi hj
  · exact h.except j hj hji

theorem DownOrder.move (h : DownOrder f i) (hs : 0 < s) (hchild : (s - 1) / 2 = i) (hle : f s ≤ f i)
    (hmin : ∀ j, 0 < j → (j - 1) / 2 = i → f s ≤ f j) : DownOrder (f ∘ Equiv.swap i s) s := by
  constructor
  · intro j hj hne
    simp only [Function.comp_apply]
    by_cases hjs : j = s
    · rw [hjs, hchild, Equiv.swap_apply_left, Equiv.swap_apply_right]
      exact hle
    · by_cases hparent : (j - 1) / 2 = i
      · have hji : j ≠ i := by omega
        rw [hparent, Equiv.swap_apply_left, Equiv.swap_apply_of_ne_of_ne hji hjs]
        exact hmin j hj hparent
      · rw [Equiv.swap_apply_of_ne_of_ne hparent hne]
        by_cases hji : j = i
        · rw [hji, Equiv.swap_apply_left]
          exact h.grand (by omega) s hs hchild
        · rw [Equiv.swap_apply_of_ne_of_ne hji hjs]
          exact h.except j hj hparent
  · intro _ j hj hparent
    simp only [Function.comp_apply]
    have hji : j ≠ i := by omega
    have hjs : j ≠ s := by omega
    have hbelow := h.except j hj (by omega)
    rw [hparent] at hbelow
    rw [hchild, Equiv.swap_apply_left, Equiv.swap_apply_of_ne_of_ne hji hjs]
    exact hbelow

theorem DownOrder.finish (h : DownOrder f i) (hmin : ∀ j, 0 < j → (j - 1) / 2 = i → f i ≤ f j) :
    HeapOrder f := by
  intro j hj
  by_cases hparent : (j - 1) / 2 = i
  · rw [hparent]
    exact hmin j hj hparent
  · exact h.except j hj hparent

end Order

/-! ## Heaps -/

section Heap

variable {α κ : Type*} [LinearOrder κ]

/-- The items at `i` and `j` change places. -/
def swapItems (h : List α) (i j : ℕ) : List α :=
  match h[i]?, h[j]? with
  | some a, some b => (h.set i b).set j a
  | _, _ => h

/-- Whether the item at `i` has a lower priority than the one at `j`. -/
def lowerAt (lower : α → α → Bool) (h : List α) (i j : ℕ) : Bool :=
  match h[i]?, h[j]? with
  | some a, some b => lower a b
  | _, _ => false

/-- The item at `i` moves up until its parent has a lower priority. -/
def siftUp (lower : α → α → Bool) : ℕ → List α → ℕ → List α
  | 0, h, _ => h
  | fuel + 1, h, i =>
    if i = 0 then h
    else if lowerAt lower h ((i - 1) / 2) i then h
    else siftUp lower fuel (swapItems h i ((i - 1) / 2)) ((i - 1) / 2)

/-- Position `c`, if there is an item of lower priority than at `s`, and `s` otherwise. -/
def pick (lower : α → α → Bool) (h : List α) (c s : ℕ) : ℕ :=
  if c < h.length && lowerAt lower h c s then c else s

/-- The item at `i` moves down until no child has a lower priority. -/
def siftDown (lower : α → α → Bool) : ℕ → List α → ℕ → List α
  | 0, h, _ => h
  | fuel + 1, h, i =>
    let smallest := pick lower h (2 * i + 2) (pick lower h (2 * i + 1) i)
    if smallest = i then h else siftDown lower fuel (swapItems h i smallest) smallest

def push (lower : α → α → Bool) (h : List α) (x : α) : List α :=
  siftUp lower (h.length + 1) (h ++ [x]) h.length

/-- The next item, where at most `k` are kept. -/
def offer (lower : α → α → Bool) (k : ℕ) (h : List α) (x : α) : List α :=
  if h.length < k then push lower h x
  else if (h[0]?).any fun root => lower root x then siftDown lower h.length (h.set 0 x) 0
  else h

/-- On the items of `l`, priorities go by a key. -/
def KeyedOn (lower : α → α → Bool) (key : α → κ) (l : List α) : Prop :=
  ∀ a ∈ l, ∀ b ∈ l, lower a b = true ↔ key a < key b

/-- The key at position `i`; positions without an item are below all others. -/
def keyAt (key : α → κ) (h : List α) (i : ℕ) : WithTop κ := (h[i]?).elim ⊤ fun a => (key a : WithTop κ)

variable {lower : α → α → Bool} {key : α → κ} {h xs : List α} {i j k : ℕ} {a x : α}

theorem KeyedOn.subset {l : List α} (hl : KeyedOn lower key l) (hsub : h ⊆ l) : KeyedOn lower key h :=
  fun a ha b hb => hl a (hsub ha) b (hsub hb)

omit [LinearOrder κ] in
theorem keyAt_getElem (hi : i < h.length) : keyAt key h i = key h[i] := by
  rw [keyAt, List.getElem?_eq_getElem hi]
  rfl

omit [LinearOrder κ] in
theorem keyAt_of_length_le (hi : h.length ≤ i) : keyAt key h i = ⊤ := by
  rw [keyAt, List.getElem?_eq_none hi]
  rfl

theorem swapItems_eq (hi : i < h.length) (hj : j < h.length) :
    swapItems h i j = (h.set i h[j]).set j h[i] := by
  rw [swapItems, List.getElem?_eq_getElem hi, List.getElem?_eq_getElem hj]

theorem swapItems_perm (hi : i < h.length) (hj : j < h.length) : (swapItems h i j).Perm h := by
  rw [swapItems_eq hi hj]
  exact List.set_set_perm hi hj

omit [LinearOrder κ] in
theorem keyAt_swapItems (hi : i < h.length) (hj : j < h.length) :
    keyAt key (swapItems h i j) = keyAt key h ∘ Equiv.swap i j := by
  funext n
  rw [swapItems_eq hi hj, Function.comp_apply]
  by_cases hnj : n = j
  · subst hnj
    rw [Equiv.swap_apply_right, keyAt, List.getElem?_set_self (by rwa [List.length_set]),
      keyAt_getElem hi]
    rfl
  · rw [keyAt, List.getElem?_set_ne (Ne.symm hnj)]
    by_cases hni : n = i
    · subst hni
      rw [Equiv.swap_apply_left, List.getElem?_set_self hi, keyAt_getElem hj]
      rfl
    · rw [Equiv.swap_apply_of_ne_of_ne hni hnj, List.getElem?_set_ne (Ne.symm hni)]
      rfl

theorem lowerAt_iff (hkey : KeyedOn lower key h) (hi : i < h.length) (hj : j < h.length) :
    lowerAt lower h i j = true ↔ keyAt key h i < keyAt key h j := by
  rw [lowerAt, List.getElem?_eq_getElem hi, List.getElem?_eq_getElem hj, keyAt_getElem hi,
    keyAt_getElem hj, WithTop.coe_lt_coe]
  exact hkey _ (List.getElem_mem hi) _ (List.getElem_mem hj)

/-! ## Sifting -/

theorem siftUp_spec {fuel : ℕ} (hkey : KeyedOn lower key h) (hi : i < h.length) (hfuel : i < fuel)
    (ho : UpOrder (keyAt key h) i) :
    (siftUp lower fuel h i).Perm h ∧ HeapOrder (keyAt key (siftUp lower fuel h i)) := by
  induction fuel generalizing h i with
  | zero => exact absurd hfuel (Nat.not_lt_zero i)
  | succ fuel ih =>
    rw [siftUp]
    split_ifs with hzero hlower
    · subst hzero
      exact ⟨.refl h, ho.finish fun hpos => absurd hpos (lt_irrefl 0)⟩
    · rw [lowerAt_iff hkey (by omega) hi] at hlower
      exact ⟨.refl h, ho.finish fun _ => hlower.le⟩
    · have hparent : (i - 1) / 2 < h.length := by omega
      rw [lowerAt_iff hkey hparent hi, not_lt] at hlower
      have hperm := swapItems_perm hi hparent
      have hmove := ho.move (by omega) hlower
      rw [← keyAt_swapItems hi hparent] at hmove
      have hrest := ih (hkey.subset hperm.subset) (by rw [hperm.length_eq]; exact hparent) (by omega)
        hmove
      exact ⟨hrest.1.trans hperm, hrest.2⟩

theorem pick_lt (lower : α → α → Bool) (c : ℕ) {s : ℕ} (hs : s < h.length) :
    pick lower h c s < h.length := by
  unfold pick
  split_ifs with hc
  · rw [Bool.and_eq_true, decide_eq_true_eq] at hc
    exact hc.1
  · exact hs

theorem pick_eq (lower : α → α → Bool) (h : List α) (c s : ℕ) :
    pick lower h c s = c ∨ pick lower h c s = s := by
  unfold pick
  split_ifs
  · exact .inl rfl
  · exact .inr rfl

theorem keyAt_pick_le {c s : ℕ} (hkey : KeyedOn lower key h) (hs : s < h.length) :
    keyAt key h (pick lower h c s) ≤ keyAt key h c ∧ keyAt key h (pick lower h c s) ≤ keyAt key h s := by
  unfold pick
  split_ifs with hc
  · rw [Bool.and_eq_true, decide_eq_true_eq] at hc
    exact ⟨le_rfl, ((lowerAt_iff hkey hc.1 hs).mp hc.2).le⟩
  · refine ⟨?_, le_rfl⟩
    by_cases hlt : c < h.length
    · rw [Bool.and_eq_true, decide_eq_true_eq, lowerAt_iff hkey hlt hs] at hc
      exact not_lt.mp fun hlower => hc ⟨hlt, hlower⟩
    · rw [keyAt_of_length_le (not_lt.mp hlt)]
      exact le_top

theorem siftDown_spec {fuel : ℕ} (hkey : KeyedOn lower key h) (hi : i < h.length)
    (hfuel : h.length ≤ i + fuel) (ho : DownOrder (keyAt key h) i) :
    (siftDown lower fuel h i).Perm h ∧ HeapOrder (keyAt key (siftDown lower fuel h i)) := by
  induction fuel generalizing h i with
  | zero => omega
  | succ fuel ih =>
    obtain ⟨hleft, hself⟩ := keyAt_pick_le (c := 2 * i + 1) hkey hi
    have hlt := pick_lt lower (2 * i + 1) hi
    obtain ⟨hright, hpick⟩ := keyAt_pick_le (c := 2 * i + 2) hkey hlt
    have hsmallest := pick_lt lower (2 * i + 2) hlt
    have hmin : ∀ j, 0 < j → (j - 1) / 2 = i →
        keyAt key h (pick lower h (2 * i + 2) (pick lower h (2 * i + 1) i)) ≤ keyAt key h j := by
      intro j hj hparent
      obtain rfl | rfl : j = 2 * i + 1 ∨ j = 2 * i + 2 := by omega
      · exact hpick.trans hleft
      · exact hright
    rw [siftDown]
    split_ifs with hstop
    · rw [hstop] at hmin
      exact ⟨.refl h, ho.finish hmin⟩
    · have hchild : pick lower h (2 * i + 2) (pick lower h (2 * i + 1) i) = 2 * i + 1 ∨
          pick lower h (2 * i + 2) (pick lower h (2 * i + 1) i) = 2 * i + 2 := by
        have h₁ := pick_eq lower h (2 * i + 2) (pick lower h (2 * i + 1) i)
        have h₂ := pick_eq lower h (2 * i + 1) i
        omega
      have hperm := swapItems_perm hi hsmallest
      have hmove := ho.move (by omega) (by omega) (hpick.trans hself) hmin
      rw [← keyAt_swapItems hi hsmallest] at hmove
      have hrest := ih (hkey.subset hperm.subset) (by rw [hperm.length_eq]; exact hsmallest)
        (by rw [hperm.length_eq]; omega) hmove
      exact ⟨hrest.1.trans hperm, hrest.2⟩

/-! ## The items that are kept -/

/-- `h` keeps `k` items of `xs`, or all of them, and what it does not keep has no higher priority. -/
structure Selected (key : α → κ) (k : ℕ) (xs h : List α) : Prop where
  order : HeapOrder (keyAt key h)
  length : h.length = min k xs.length
  rest : ∃ rest, (h ++ rest).Perm xs ∧ ∀ a ∈ h, ∀ b ∈ rest, key b ≤ key a

theorem selected_nil (key : α → κ) (k : ℕ) : Selected key k [] [] where
  order _ _ := le_rfl
  length := (Nat.min_zero k).symm
  rest := ⟨[], .refl _, fun _ ha => absurd ha List.not_mem_nil⟩

theorem Selected.subset (hs : Selected key k xs h) : h ⊆ xs := by
  obtain ⟨rest, hperm, -⟩ := hs.rest
  exact List.Subset.trans (List.subset_append_left h rest) hperm.subset

/-- The root has the lowest priority of the items that are kept. -/
theorem Selected.root_le {root : α} {tail : List α} (hs : Selected key k xs (root :: tail)) {a : α}
    (ha : a ∈ root :: tail) : key root ≤ key a := by
  obtain ⟨i, hi, rfl⟩ := List.getElem_of_mem ha
  have hle := hs.order.root_le i
  rwa [keyAt_getElem hi, keyAt_getElem (Nat.zero_lt_succ tail.length), WithTop.coe_le_coe] at hle

theorem push_spec (hkey : KeyedOn lower key (h ++ [x])) (ho : HeapOrder (keyAt key h)) :
    (push lower h x).Perm (h ++ [x]) ∧ HeapOrder (keyAt key (push lower h x)) := by
  refine siftUp_spec hkey (by simp) (Nat.lt_succ_self _) ⟨?_, ?_⟩
  · intro j hj hne
    by_cases hlt : j < h.length
    · have hold := ho j hj
      rw [keyAt, keyAt, List.getElem?_append_left (by omega), List.getElem?_append_left hlt]
      exact hold
    · rw [keyAt_of_length_le (i := j) (by simp; omega)]
      exact le_top
  · intro _ j _ hparent
    rw [keyAt_of_length_le (i := j) (by simp; omega)]
    exact le_top

theorem replace_spec {root : α} {tail : List α} (hkey : KeyedOn lower key (x :: tail))
    (ho : HeapOrder (keyAt key (root :: tail))) :
    (siftDown lower (root :: tail).length (x :: tail) 0).Perm (x :: tail) ∧
      HeapOrder (keyAt key (siftDown lower (root :: tail).length (x :: tail) 0)) := by
  refine siftDown_spec hkey (Nat.zero_lt_succ _) (by simp) ⟨?_, fun hpos => absurd hpos (lt_irrefl 0)⟩
  intro j hj hne
  have hsame (n : ℕ) (hn : 0 < n) : keyAt key (x :: tail) n = keyAt key (root :: tail) n := by
    obtain ⟨m, rfl⟩ : ∃ m, n = m + 1 := ⟨n - 1, by omega⟩
    rfl
  rw [hsame j hj, hsame ((j - 1) / 2) (by omega)]
  exact ho j hj

/-- **The next item** is kept, or what is kept stays, according to the root. -/
theorem Selected.offer (hs : Selected key k xs h) (hk : 0 < k) (hkey : KeyedOn lower key (xs ++ [x])) :
    Selected key k (xs ++ [x]) (offer lower k h x) := by
  obtain ⟨rest, hperm, hrest⟩ := hs.rest
  have hlen := hs.length
  have htotal := hperm.length_eq
  rw [List.length_append] at htotal
  unfold Sorted.offer
  by_cases hroom : h.length < k
  · rw [if_pos hroom]
    have hall : rest = [] := List.eq_nil_of_length_eq_zero (by omega)
    rw [hall, List.append_nil] at hperm
    have hsub : h ++ [x] ⊆ xs ++ [x] := (hperm.append_right [x]).subset
    obtain ⟨hpush, horder⟩ := push_spec (hkey.subset hsub) hs.order
    refine ⟨horder, ?_, [], ?_, fun _ _ _ hb => absurd hb List.not_mem_nil⟩
    · rw [hpush.length_eq, List.length_append, List.length_append, List.length_singleton]
      omega
    · rw [List.append_nil]
      exact hpush.trans (hperm.append_right [x])
  · rw [if_neg hroom]
    cases h with
    | nil => exact absurd hk hroom
    | cons root tail =>
      have hmem : root ∈ xs ++ [x] := List.mem_append_left _ (hs.subset List.mem_cons_self)
      have hx : x ∈ xs ++ [x] := List.mem_append_right _ List.mem_cons_self
      have hroot := hkey root hmem x hx
      rw [List.getElem?_cons_zero, Option.any_some]
      split_ifs with hlower
      · have hlt := hroot.mp hlower
        have hsub : x :: tail ⊆ xs ++ [x] := by
          refine List.cons_subset.mpr ⟨hx, fun b hb => List.mem_append_left _ (hs.subset ?_)⟩
          exact List.mem_cons_of_mem root hb
        obtain ⟨hdown, horder⟩ := replace_spec (hkey.subset hsub) hs.order
        refine ⟨horder, ?_, root :: rest, ?_, ?_⟩
        · rw [List.set_cons_zero, hdown.length_eq, List.length_append, List.length_singleton]
          simp only [List.length_cons] at hlen hroom ⊢
          omega
        · have hmove : (x :: tail ++ root :: rest).Perm (root :: tail ++ rest ++ [x]) :=
            (List.perm_append_singleton x _).symm.trans (List.perm_middle.append_right [x])
          exact ((hdown.append_right _).trans hmove).trans (hperm.append_right [x])
        · intro a ha b hb
          have ha' := hdown.subset ha
          have habove : key root ≤ key a := by
            cases ha' with
            | head => exact hlt.le
            | tail _ htail => exact hs.root_le (List.mem_cons_of_mem root htail)
          cases hb with
          | head => exact habove
          | tail _ hb => exact (hrest root List.mem_cons_self b hb).trans habove
      · rw [hroot, not_lt] at hlower
        refine ⟨hs.order, ?_, x :: rest, ?_, ?_⟩
        · rw [List.length_append, List.length_singleton]
          omega
        · have hmove : (root :: tail ++ x :: rest).Perm (root :: tail ++ rest ++ [x]) :=
            List.perm_middle.trans (List.perm_append_singleton x _).symm
          exact hmove.trans (hperm.append_right [x])
        · intro a ha b hb
          cases hb with
          | head => exact hlower.trans (hs.root_le ha)
          | tail _ hb => exact hrest a ha b hb

omit [LinearOrder κ] in
/-- Only the order of the items matters. -/
theorem mergeSort_congr {r s : α → α → Bool} {l : List α} (hrs : ∀ a ∈ l, ∀ b ∈ l, r a b = s a b) :
    l.mergeSort r = l.mergeSort s := by
  have hmap := List.map_mergeSort (f := id) hrs
  rwa [List.map_id, List.map_id] at hmap

/-- **The kept items, sorted**, are the first of all items, sorted. -/
theorem Selected.mergeSort_eq (hs : Selected key k xs h) (hkey : KeyedOn lower key xs)
    (hinj : ∀ a ∈ xs, ∀ b ∈ xs, key a = key b → a = b) :
    (h.mergeSort fun a b => !lower a b) = (xs.mergeSort fun a b => !lower a b).take k := by
  have hle {l : List α} (hl : l ⊆ xs) : (l.mergeSort fun a b => !lower a b) =
      l.mergeSort fun a b => decide (key b ≤ key a) := by
    refine mergeSort_congr fun a ha b hb => ?_
    rw [Bool.eq_iff_iff, Bool.not_eq_true', Bool.eq_false_iff, ne_eq, hkey a (hl ha) b (hl hb), not_lt,
      decide_eq_true_eq]
  have hsorted (l : List α) : (l.mergeSort fun a b => decide (key b ≤ key a)).Pairwise fun a b =>
      decide (key b ≤ key a) = true := by
    refine List.pairwise_mergeSort ?_ ?_ l
    · intro a b c hab hbc
      rw [decide_eq_true_eq] at *
      exact hbc.trans hab
    · intro a b
      rw [Bool.or_eq_true, decide_eq_true_eq, decide_eq_true_eq]
      exact le_total _ _
  obtain ⟨rest, hperm, hrest⟩ := hs.rest
  rw [hle hs.subset, hle (List.Subset.refl xs)]
  have hwhole : (h.mergeSort fun a b => decide (key b ≤ key a)) ++
      (rest.mergeSort fun a b => decide (key b ≤ key a)) =
        xs.mergeSort fun a b => decide (key b ≤ key a) := by
    refine List.Perm.eq_of_pairwise ?_ (List.pairwise_append.mpr ⟨hsorted h, hsorted rest, ?_⟩)
      (hsorted xs) ?_
    · intro a b ha hb hab hba
      rw [decide_eq_true_eq] at hab hba
      have ha' : a ∈ xs := hperm.subset (by simpa using ha)
      exact hinj a ha' b (List.mem_mergeSort.mp hb) (le_antisymm hba hab)
    · intro a ha b hb
      rw [decide_eq_true_eq]
      exact hrest a (List.mem_mergeSort.mp ha) b (List.mem_mergeSort.mp hb)
    · exact (((List.mergeSort_perm h _).append (List.mergeSort_perm rest _)).trans hperm).trans
        (List.mergeSort_perm xs _).symm
  have hlen := hs.length
  have htotal := hperm.length_eq
  rw [List.length_append] at htotal
  rw [← hwhole]
  by_cases hk : k ≤ xs.length
  · rw [List.take_append_of_le_length (by rw [List.length_mergeSort]; omega),
      List.take_of_length_le (by rw [List.length_mergeSort]; omega)]
  · have hall : rest = [] := List.eq_nil_of_length_eq_zero (by omega)
    rw [hall, List.mergeSort_nil, List.append_nil, List.take_of_length_le]
    rw [List.length_mergeSort]
    omega

end Heap

end Sorted
