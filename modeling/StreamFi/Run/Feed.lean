import Mathlib

/-!
# Input in pieces

A machine takes items one at a time and writes a list for each.

* `feedAll`: what it writes for a list of items, with **`feedAll_append`**;
* `lineFeed`: text cut into the lines before a separator and the rest behind the last one, with
  **`cutLines_append`**: it may be cut as it comes in, from the rest on.
-/

namespace Run

variable {σ α β : Type*} {feed : σ → α → List β × σ}

def feedAll (feed : σ → α → List β × σ) : σ → List α → List β × σ
  | s, [] => ([], s)
  | s, a :: l => ((feed s a).1 ++ (feedAll feed (feed s a).2 l).1, (feedAll feed (feed s a).2 l).2)

/-- **What is written does not depend on the cut.** -/
theorem feedAll_append (s : σ) (l l' : List α) :
    feedAll feed s (l ++ l') =
      ((feedAll feed s l).1 ++ (feedAll feed (feedAll feed s l).2 l').1,
        (feedAll feed (feedAll feed s l).2 l').2) := by
  induction l generalizing s with
  | nil => rfl
  | cons a l ih => rw [List.cons_append, feedAll, ih, feedAll, List.append_assoc]

/-! ## Lines -/

section Lines

variable [DecidableEq α] {sep : α}

/-- A separator ends the line that came in so far. -/
def lineFeed (sep : α) (line : List α) (a : α) : List (List α) × List α :=
  if a = sep then ([line], []) else ([], line ++ [a])

/-- The lines that end with a separator, and the rest. -/
def cutLines (sep : α) (l : List α) : List (List α) × List α := feedAll (lineFeed sep) [] l

/-- No line ends where there is no separator. -/
theorem feedAll_line {l : List α} (h : sep ∉ l) (line : List α) :
    feedAll (lineFeed sep) line l = ([], line ++ l) := by
  induction l generalizing line with
  | nil => rw [feedAll, List.append_nil]
  | cons a l ih =>
    rw [List.mem_cons, not_or] at h
    rw [feedAll, lineFeed, if_neg (Ne.symm h.1), ih h.2, List.append_assoc]
    rfl

theorem cutLines_of_not_mem {l : List α} (h : sep ∉ l) : cutLines sep l = ([], l) :=
  feedAll_line h []

theorem not_mem_feedAll {line : List α} (h : sep ∉ line) (l : List α) :
    sep ∉ (feedAll (lineFeed sep) line l).2 := by
  induction l generalizing line with
  | nil => exact h
  | cons a l ih =>
    rw [feedAll]
    apply ih
    rw [lineFeed]
    split_ifs with ha
    · exact List.not_mem_nil
    · rw [List.mem_append, List.mem_singleton, not_or]
      exact ⟨h, Ne.symm ha⟩

/-- The rest holds no separator. -/
theorem not_mem_rest (sep : α) (l : List α) : sep ∉ (cutLines sep l).2 :=
  not_mem_feedAll List.not_mem_nil l

/-- **Text may be cut into lines as it comes in**, from the rest on. -/
theorem cutLines_append (sep : α) (l l' : List α) :
    cutLines sep (l ++ l') =
      ((cutLines sep l).1 ++ (cutLines sep ((cutLines sep l).2 ++ l')).1,
        (cutLines sep ((cutLines sep l).2 ++ l')).2) := by
  have hrest : cutLines sep ((cutLines sep l).2 ++ l') = feedAll (lineFeed sep) (cutLines sep l).2 l' := by
    have hline := cutLines_of_not_mem (not_mem_rest sep l)
    rw [cutLines] at hline
    rw [cutLines, feedAll_append, hline]
    rfl
  rw [hrest]
  exact feedAll_append [] l l'

end Lines

end Run
