import StreamFi.Run.Table

/-!
# Rates

A reserve of `c` units is filled up at the rate `ρ`; one unit is taken at a time.

* `Reserve`: the units that are left after units were taken at some times, with `Reserve.refill` and
  `Reserve.take`;
* `Paced`: how close together the times are, with **`Paced.countP_le`**: how many of them an interval
  holds.
-/

namespace Run

variable {α : Type*} {c ρ : ℚ} {times : List ℚ}

/-- From any time to any later one, no more is taken than a full reserve and what comes in. -/
def Paced (c ρ : ℚ) (times : List ℚ) : Prop :=
  ∀ (j m : ℕ) x y, times[j]? = some x → times[m]? = some y → j ≤ m →
    (m : ℚ) - j + 1 ≤ c + ρ * (y - x)

/-- `tokens` are left at the time `last`. -/
structure Reserve (c ρ : ℚ) (times : List ℚ) (tokens last : ℚ) : Prop where
  nonneg : 0 ≤ tokens
  le : tokens ≤ c
  left : ∀ (j : ℕ) x, times[j]? = some x → (times.length : ℚ) - j + tokens ≤ c + ρ * (last - x)
  paced : Paced c ρ times

theorem reserve_full (hc : 0 ≤ c) (ρ now : ℚ) : Reserve c ρ [] c now where
  nonneg := hc
  le := le_rfl
  left j x hx := by simp at hx
  paced j m x y hx := by simp at hx

variable {tokens last now : ℚ}

theorem Reserve.refill (h : Reserve c ρ times tokens last) (hρ : 0 ≤ ρ) (hnow : last ≤ now) :
    Reserve c ρ times (min c (tokens + ρ * (now - last))) now where
  nonneg := by
    have hin : 0 ≤ ρ * (now - last) := mul_nonneg hρ (sub_nonneg.mpr hnow)
    exact le_min (h.nonneg.trans h.le) (add_nonneg h.nonneg hin)
  le := min_le_left _ _
  left j x hx := by
    calc (times.length : ℚ) - j + min c (tokens + ρ * (now - last))
        ≤ times.length - j + tokens + ρ * (now - last) := by
          rw [add_assoc]
          exact add_le_add_right (min_le_right _ _) _
      _ ≤ c + ρ * (last - x) + ρ * (now - last) := by
          exact add_le_add (h.left j x hx) le_rfl
      _ = c + ρ * (now - x) := by ring
  paced := h.paced

theorem Reserve.take (h : Reserve c ρ times tokens last) (hone : 1 ≤ tokens) :
    Reserve c ρ (times ++ [last]) (tokens - 1) last := by
  have hentry {j : ℕ} {x : ℚ} (hx : (times ++ [last])[j]? = some x) :
      (times.length : ℚ) - j + tokens ≤ c + ρ * (last - x) := by
    rcases add_iff.mp hx with hx | ⟨rfl, rfl⟩
    · exact h.left j x hx
    · simpa using h.le
  refine ⟨sub_nonneg.mpr hone, (sub_le_self _ zero_le_one).trans h.le, ?_, ?_⟩
  · intro j x hx
    have hleft := hentry hx
    rw [List.length_append, List.length_singleton, Nat.cast_succ]
    linarith
  · intro j m x y hx hy hjm
    rcases add_iff.mp hy with hy | ⟨rfl, rfl⟩
    · have hm := lt_of_entry hy
      rw [List.getElem?_append_left (hjm.trans_lt hm)] at hx
      exact h.paced j m x y hx hy hjm
    · have hleft := hentry hx
      linarith

/-- The entries that meet a condition lie between the first and the last of them. -/
theorem exists_span (p : α → Bool) (l : List α) :
    l.countP p = 0 ∨ ∃ (j m : ℕ) (x y : α), l[j]? = some x ∧ l[m]? = some y ∧ p x = true ∧
      p y = true ∧ j ≤ m ∧ l.countP p + j ≤ m + 1 := by
  induction l using List.reverseRecOn with
  | nil => exact .inl rfl
  | append_singleton l z ih =>
    by_cases hz : p z = true
    · have hlast : (l ++ [z])[l.length]? = some z := List.getElem?_concat_length
      have hcount : (l ++ [z]).countP p = l.countP p + 1 := by
        rw [List.countP_append, List.countP_singleton, if_pos hz]
      right
      rcases ih with h | ⟨j, m, x, y, hx, hy, hpx, -, hjm, hle⟩
      · exact ⟨l.length, l.length, z, z, hlast, hlast, hz, hz, le_rfl, by omega⟩
      · have hm := lt_of_entry hy
        exact ⟨j, l.length, x, z, add_iff.mpr (.inl hx), hlast, hpx, hz, by omega, by omega⟩
    · have hcount : (l ++ [z]).countP p = l.countP p := by
        rw [List.countP_append, List.countP_singleton, if_neg hz, add_zero]
      rw [hcount]
      rcases ih with h | ⟨j, m, x, y, hx, hy, h⟩
      · exact .inl h
      · exact .inr ⟨j, m, x, y, add_iff.mpr (.inl hx), add_iff.mpr (.inl hy), h⟩

/-- **An interval holds at most a full reserve and what comes in meanwhile**, for entries that come
with a time. -/
theorem Paced.countP_le {f : α → ℚ} {l : List α} (h : Paced c ρ (l.map f)) (hc : 0 ≤ c)
    (hρ : 0 ≤ ρ) {a b : ℚ} (hab : a ≤ b) {p : α → Bool}
    (hp : ∀ x ∈ l, p x = true → a ≤ f x ∧ f x ≤ b) :
    (l.countP p : ℚ) ≤ c + ρ * (b - a) := by
  rcases exists_span p l with hzero | ⟨j, m, x, y, hx, hy, hpx, hpy, hjm, hcount⟩
  · rw [hzero, Nat.cast_zero]
    exact add_nonneg hc (mul_nonneg hρ (sub_nonneg.mpr hab))
  · have hfx := (hp x (List.mem_of_getElem? hx) hpx).1
    have hfy := (hp y (List.mem_of_getElem? hy) hpy).2
    have hcount' : (l.countP p : ℚ) + j ≤ m + 1 := by exact_mod_cast hcount
    calc (l.countP p : ℚ) ≤ m - j + 1 := by linarith
      _ ≤ c + ρ * (f y - f x) := h j m (f x) (f y) (by rw [List.getElem?_map, hx]; rfl)
          (by rw [List.getElem?_map, hy]; rfl) hjm
      _ ≤ c + ρ * (b - a) := by gcongr

end Run
