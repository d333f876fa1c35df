import Mathlib

/-!
# Tables

A table gives its entries their positions as names: entries are added at the end and changed in
place, and none is ever removed.

* **`add_iff`**, **`put_iff`**: what is at a position after an addition and after a change;
* `mem_modify`: an entry after a change by a function; `kept_put`, `kept_modify`: what it keeps;
* **`put_perm`**: a change exchanges one entry for another, with `filterMap_put`, **`account_put`**,
  `countP_put` and `sum_put`.
-/

namespace Run

variable {α : Type*} {l : List α} {a b : α} {i j : ℕ}

/-- **An addition** keeps every entry and takes the next position. -/
theorem add_iff : (l ++ [a])[i]? = some b ↔ l[i]? = some b ∨ i = l.length ∧ b = a := by
  rcases lt_trichotomy i l.length with h | h | h
  · rw [List.getElem?_append_left h]
    simp [h.ne]
  · subst h
    simp [eq_comm]
  · rw [List.getElem?_eq_none (by simp; omega), List.getElem?_eq_none h.le]
    simp [h.ne']

/-- **A change** is at its position only. -/
theorem put_iff (h : i < l.length) :
    (l.set i a)[j]? = some b ↔ j = i ∧ b = a ∨ j ≠ i ∧ l[j]? = some b := by
  rcases eq_or_ne j i with rfl | hne
  · rw [List.getElem?_set_self h]
    simp [eq_comm]
  · rw [List.getElem?_set_ne hne.symm]
    simp [hne]

theorem mem_modify {f : α → α} (h : b ∈ l.modify i f) :
    b ∈ l ∨ ∃ a, l[i]? = some a ∧ b = f a := by
  obtain ⟨j, hj⟩ := List.mem_iff_getElem?.mp h
  rw [List.getElem?_modify, Option.map_eq_map, Option.map_eq_some_iff] at hj
  obtain ⟨a, ha, rfl⟩ := hj
  split_ifs with hij
  · subst hij
    exact .inr ⟨a, ha, rfl⟩
  · exact .inl (List.mem_of_getElem? ha)

theorem lt_of_entry (h : l[i]? = some a) : i < l.length := (List.getElem?_eq_some_iff.mp h).1

theorem mem_of_mem_put (h : b ∈ l.set i a) (hne : b ≠ a) : b ∈ l :=
  (List.mem_or_eq_of_mem_set h).resolve_right hne

theorem mem_put (h : l[i]? = some a) (hb : b ∈ l) (hne : b ≠ a) (c : α) : b ∈ l.set i c := by
  obtain ⟨j, hj⟩ := List.mem_iff_getElem?.mp hb
  refine List.mem_of_getElem? ((put_iff (lt_of_entry h)).mpr (.inr ⟨?_, hj⟩))
  rintro rfl
  exact hne (Option.some.inj (hj.symm.trans h))

/-- Every entry keeps what a change at a position leaves alone. -/
theorem kept_put {β : Type*} {f : α → β} {c : α} (h : l[i]? = some a) (hf : f c = f a)
    (hj : l[j]? = some b) : ∃ b', (l.set i c)[j]? = some b' ∧ f b' = f b := by
  by_cases hji : j = i
  · subst hji
    cases h.symm.trans hj
    exact ⟨c, (put_iff (lt_of_entry h)).mpr (.inl ⟨rfl, rfl⟩), hf⟩
  · exact ⟨b, (put_iff (lt_of_entry h)).mpr (.inr ⟨hji, hj⟩), rfl⟩

theorem kept_modify {β : Type*} {f : α → β} {g : α → α} (hf : ∀ a, f (g a) = f a) (i : ℕ)
    (hj : l[j]? = some b) : ∃ b', (l.modify i g)[j]? = some b' ∧ f b' = f b := by
  rw [List.getElem?_modify, hj]
  split_ifs
  · exact ⟨g b, rfl, hf b⟩
  · exact ⟨b, rfl, rfl⟩

/-- A change that a function does not see. -/
theorem map_modify_same {β : Type*} {f : α → β} {g : α → α} (hf : ∀ a, f (g a) = f a) (l : List α)
    (i : ℕ) : (l.modify i g).map f = l.map f := by
  apply List.ext_getElem?
  intro j
  rw [List.getElem?_map, List.getElem?_map, List.getElem?_modify]
  split_ifs
  · cases l[j]? with
    | none => rfl
    | some a => exact congrArg some (hf a)
  · cases l[j]? <;> rfl

/-! ## What a change exchanges -/

/-- **An exchange**, up to the order. -/
theorem put_perm (h : l[i]? = some a) (b : α) : (a :: l.set i b).Perm (b :: l) := by
  induction l generalizing i with
  | nil => cases h
  | cons c l ih =>
    cases i with
    | zero =>
      cases h
      exact .swap b a l
    | succ i =>
      calc (a :: c :: l.set i b).Perm (c :: a :: l.set i b) := .swap c a _
        _ |>.Perm (c :: b :: l) := (ih h).cons c
        _ |>.Perm (b :: c :: l) := .swap b c l

theorem filterMap_put {β : Type*} (f : α → Option β) (h : l[i]? = some a) (b : α) :
    ((f a).toList ++ (l.set i b).filterMap f).Perm ((f b).toList ++ l.filterMap f) := by
  have hcons (c : α) (m : List α) : (c :: m).filterMap f = (f c).toList ++ m.filterMap f := by
    rw [List.filterMap_cons]
    cases f c <;> rfl
  rw [← hcons, ← hcons]
  exact (put_perm h b).filterMap f

/-- **Accounts.** What is in the table or has left it, when something new comes in as well. -/
theorem account_put {β : Type*} [DecidableEq β] {f : α → Option β} (h : l[i]? = some a) (b : α)
    (out out' new : List β)
    (hout : (out' ++ (f b).toList).Perm (out ++ (f a).toList ++ new)) :
    (out' ++ (l.set i b).filterMap f).Perm (out ++ l.filterMap f ++ new) := by
  rw [List.perm_iff_count] at hout ⊢
  intro x
  have hput := (filterMap_put f h b).count_eq x
  have hx := hout x
  simp only [List.count_append] at hput hx ⊢
  omega

theorem filterMap_put_same {β : Type*} {f : α → Option β} (h : l[i]? = some a) (b : α)
    (hf : f b = f a) : ((l.set i b).filterMap f).Perm (l.filterMap f) := by
  have hput := filterMap_put f h b
  rw [hf] at hput
  exact (List.perm_append_left_iff _).mp hput

theorem countP_put (p : α → Bool) (h : l[i]? = some a) (b : α) :
    (l.set i b).countP p + (if p a then 1 else 0) = l.countP p + if p b then 1 else 0 := by
  rw [← List.countP_cons, ← List.countP_cons]
  exact (put_perm h b).countP_eq p

theorem countP_put_same {p : α → Bool} (h : l[i]? = some a) (b : α) (hp : p b = p a) :
    (l.set i b).countP p = l.countP p := by
  have hput := countP_put p h b
  rw [hp] at hput
  exact Nat.add_right_cancel hput

/-- What a change adds to a total. -/
theorem sum_put (f : α → ℕ) (h : l[i]? = some a) (b : α) :
    f a + ((l.set i b).map f).sum = f b + (l.map f).sum := by
  rw [← List.sum_cons, ← List.sum_cons, ← List.map_cons, ← List.map_cons]
  exact ((put_perm h b).map f).sum_eq

end Run
