import Mathlib

/-!
# Windows of recent items

A window remembers the items it last let through, oldest first. An item that it remembers is held
back; any other is let through and remembered, and the oldest is forgotten when there are too many.

* `letIn tooMany window a`: the window after `a`, none when `a` is held back;
* `Recent`: the window is what was let through last, as far as there is room, with
  **`Recent.letIn`** and `Recent.between`;
* `Apart`, **`Apart.letIn`**: an item that is let through again is separated from the last time by as
  many others as there is room for; `Apart.nodup` is the case of room for all.
-/

namespace Run

variable {α : Type*}

/-- Drop the oldest item if there are too many. -/
def trim (tooMany : ℕ → Bool) (window : List α) : List α :=
  if tooMany window.length then window.tail else window

def letIn [DecidableEq α] (tooMany : ℕ → Bool) (window : List α) (a : α) : Option (List α) :=
  if a ∈ window then none else some (trim tooMany (window ++ [a]))

/-- There is room for `k` items. -/
def Room (tooMany : ℕ → Bool) (k : ℕ) : Prop := ∀ n ≤ k, tooMany n = false

variable {tooMany : ℕ → Bool} {passed window window' : List α} {a : α}

/-- The window holds the items that were let through last: as many as there is room for. -/
structure Recent (tooMany : ℕ → Bool) (passed window : List α) : Prop where
  suffix : window <:+ passed
  nodup : window.Nodup
  bounded : tooMany window.length = false
  full : ∀ k ≤ passed.length, Room tooMany k → k ≤ window.length

theorem recent_nil (h : tooMany 0 = false) : Recent tooMany ([] : List α) [] :=
  ⟨List.suffix_rfl, List.nodup_nil, h, fun _ hk _ => hk⟩

theorem trim_suffix (tooMany : ℕ → Bool) (window : List α) : trim tooMany window <:+ window := by
  unfold trim
  split_ifs
  · exact List.tail_suffix window
  · exact List.suffix_rfl

/-- **An item that is let through** is remembered. -/
theorem Recent.letIn [DecidableEq α] (h : Recent tooMany passed window)
    (ha : letIn tooMany window a = some window') : Recent tooMany (passed ++ [a]) window' := by
  unfold Run.letIn at ha
  split_ifs at ha with hmem
  cases ha
  have hsuffix : window ++ [a] <:+ passed ++ [a] := by
    obtain ⟨l, hl⟩ := h.suffix
    exact ⟨l, by rw [← hl, List.append_assoc]⟩
  have hnodup : (window ++ [a]).Nodup := by
    rw [List.nodup_append_comm]
    exact List.nodup_cons.mpr ⟨hmem, h.nodup⟩
  refine ⟨(trim_suffix _ _).trans hsuffix, hnodup.sublist (trim_suffix _ _).sublist, ?_, ?_⟩
  · unfold trim
    split_ifs with hmany
    · simpa using h.bounded
    · rwa [Bool.not_eq_true] at hmany
  · intro k hk hroom
    rw [List.length_append, List.length_singleton] at hk
    unfold trim
    split_ifs with hmany
    · -- the window was full: it keeps its length, and there is no room for more
      rw [List.length_tail, List.length_append, List.length_singleton, Nat.add_sub_cancel]
      by_contra hlt
      rw [hroom _ (by simp; omega)] at hmany
      cases hmany
    · rw [List.length_append, List.length_singleton]
      by_cases hpassed : k ≤ passed.length
      · exact (h.full k hpassed hroom).trans (Nat.le_succ _)
      · have := h.full (k - 1) (by omega) fun n hn => hroom n (by omega)
        omega

/-- An item that is not in the window was let through before all that is. -/
theorem Recent.between {l₁ l₂ : List α} (h : Recent tooMany (l₁ ++ a :: l₂) window)
    (ha : a ∉ window) : window <:+ l₂ ∧ ∀ k, Room tooMany k → k ≤ window.length := by
  have hshort : window.length ≤ l₂.length := by
    by_contra hlong
    have hin : a :: l₂ <:+ window := List.suffix_of_suffix_length_le (List.suffix_append l₁ _) h.suffix
      (by rw [List.length_cons]; omega)
    exact ha (hin.subset List.mem_cons_self)
  have hl₂ : l₂ <:+ l₁ ++ a :: l₂ := (List.suffix_cons a l₂).trans (List.suffix_append l₁ _)
  refine ⟨List.suffix_of_suffix_length_le h.suffix hl₂ hshort, fun k hroom => ?_⟩
  by_cases hk : k ≤ (l₁ ++ a :: l₂).length
  · exact h.full k hk hroom
  · -- there is room for everything that was let through, and the item is not in the window
    have hall := h.full _ le_rfl fun n hn => hroom n (by omega)
    rw [List.length_append, List.length_cons] at hall
    omega

/-- Between two passages of an item, as many others are let through as there is room for. -/
def Apart (tooMany : ℕ → Bool) (passed : List α) : Prop :=
  ∀ l₁ a l₂ l₃, passed = l₁ ++ a :: l₂ ++ a :: l₃ → ∃ others : List α,
    others.Nodup ∧ a ∉ others ∧ others <:+ l₂ ∧ ∀ k, Room tooMany k → k ≤ others.length

theorem apart_nil : Apart tooMany ([] : List α) := by
  intro l₁ a l₂ l₃ h
  simp at h

/-- **Items stay apart**, whatever is let through. -/
theorem Apart.letIn [DecidableEq α] (h : Apart tooMany passed) (hr : Recent tooMany passed window)
    (ha : letIn tooMany window a = some window') : Apart tooMany (passed ++ [a]) := by
  intro l₁ b l₂ l₃ heq
  rcases List.eq_nil_or_concat l₃ with rfl | ⟨l, c, rfl⟩
  · -- the item itself: it was not in the window
    obtain ⟨hpassed, hb⟩ := List.append_inj' heq rfl
    cases hb
    have hmem : a ∉ window := by
      unfold Run.letIn at ha
      split_ifs at ha with hmem
      exact hmem
    rw [hpassed] at hr
    exact ⟨window, hr.nodup, hmem, hr.between hmem⟩
  · rw [List.concat_eq_append, ← List.cons_append, ← List.append_assoc] at heq
    exact h l₁ b l₂ l (List.append_inj' heq rfl).1

/-- With room for all the items that there are, no item is let through twice. -/
theorem Apart.nodup (h : Apart tooMany passed) {items : List α} (hsub : passed ⊆ items)
    (hroom : Room tooMany items.length) : passed.Nodup := by
  rw [List.nodup_iff_sublist]
  intro a hsublist
  obtain ⟨r, r', rfl, har, har'⟩ := List.cons_sublist_iff.mp hsublist
  obtain ⟨l₁, l, rfl⟩ := List.append_of_mem har
  obtain ⟨l', l₃, rfl⟩ := List.append_of_mem (List.singleton_sublist.mp har')
  obtain ⟨others, hnodup, hother, hsuffix, hfull⟩ := h l₁ a (l ++ l') l₃ (by simp)
  have hothers : a :: others ⊆ items := by
    refine List.cons_subset.mpr ⟨hsub (by simp), fun b hb => hsub ?_⟩
    have := hsuffix.subset hb
    simp only [List.mem_append, List.mem_cons] at this ⊢
    tauto
  have hle := ((List.nodup_cons.mpr ⟨hother, hnodup⟩).subperm hothers).length_le
  have hfull := hfull _ hroom
  simp only [List.length_cons] at hle
  omega

end Run
