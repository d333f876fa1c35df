import Mathlib

/-!
# Records of a sequence

A watcher keeps the greatest value that it has seen, and reports a gap when a value comes that is more than
the next one after it.

* `Watcher`, `watch`: the watcher over a list, for a function `next`;
* `IsNext`: `next` skips no value, and may stay where it is;
* `RaisedBy`: a value that was the greatest when it came, with `raisedBy_concat`;
* `Watched`: what holds after some values, with `Watched.stay` and `Watched.rise`: every value between the
  first one and the greatest one raised it, or is in exactly one of the gaps, and not both where `next` goes
  up;
* **`watched_watch`**: it holds after any values.
-/

namespace Sorted

variable {α : Type*} [LinearOrder α]

/-! ## Watching -/

structure Watcher (α : Type*) where
  current : α
  gaps : List (α × α) := []

/-- A value comes. -/
def see (next : α → α) : Option (Watcher α) → α → Option (Watcher α)
  | none, x => some { current := x }
  | some w, x =>
    if w.current < x then
      some {
        current := x
        gaps := if next w.current < x then w.gaps ++ [(next w.current, x)] else w.gaps }
    else some w

def watch (next : α → α) (xs : List α) : Option (Watcher α) := xs.foldl (see next) none

/-- A gap takes in what it starts with, and not what it ends with. -/
def InGap (y : α) (gap : α × α) : Prop := gap.1 ≤ y ∧ y < gap.2

instance (y : α) : DecidablePred (InGap y) := fun gap => inferInstanceAs (Decidable (gap.1 ≤ y ∧ y < gap.2))

/-- No value is between `m` and `next m`. -/
structure IsNext (next : α → α) : Prop where
  le : ∀ m, m ≤ next m
  least : ∀ m x, m < x → next m ≤ x

/-- `y` was greater than everything before it when it came. -/
def RaisedBy (xs : List α) (y : α) : Prop := ∃ before after, xs = before ++ y :: after ∧ ∀ x ∈ before, x < y

theorem raisedBy_concat {xs : List α} {x y : α} :
    RaisedBy (xs ++ [x]) y ↔ RaisedBy xs y ∨ y = x ∧ ∀ z ∈ xs, z < x := by
  constructor
  · rintro ⟨before, after, heq, hbefore⟩
    rcases List.eq_nil_or_concat after with rfl | ⟨after, last, rfl⟩
    · obtain ⟨rfl, hlast⟩ := List.append_inj' heq rfl
      cases hlast
      exact .inr ⟨rfl, hbefore⟩
    · rw [List.concat_eq_append, ← List.cons_append, ← List.append_assoc] at heq
      exact .inl ⟨before, after, (List.append_inj' heq rfl).1, hbefore⟩
  · rintro (⟨before, after, rfl, hbefore⟩ | ⟨rfl, hall⟩)
    · exact ⟨before, after ++ [x], by rw [List.append_assoc, List.cons_append], hbefore⟩
    · exact ⟨xs, [], rfl, hall⟩

theorem RaisedBy.mem {xs : List α} {y : α} (h : RaisedBy xs y) : y ∈ xs := by
  obtain ⟨before, after, rfl, -⟩ := h
  exact List.mem_append_right _ List.mem_cons_self

section Watch

variable {next : α → α} {xs : List α} {w : Watcher α} {x y : α}

theorem watch_concat (next : α → α) (xs : List α) (x : α) :
    watch next (xs ++ [x]) = see next (watch next xs) x := by
  rw [watch, List.foldl_append, List.foldl_cons, List.foldl_nil, ← watch]

/-- What the watcher knows of the values `xs`. -/
structure Watched (next : α → α) (xs : List α) (w : Watcher α) : Prop where
  greatest : IsGreatest { x | x ∈ xs } w.current
  raised : RaisedBy xs w.current
  closed : ∀ gap ∈ w.gaps, gap.2 ≤ w.current
  covered : ∀ first, xs.head? = some first → ∀ y, first < y → y < w.current →
    RaisedBy xs y ∨ w.gaps.countP (InGap y) = 1
  apart : (∀ m ∈ xs, m < w.current → m < next m) → ∀ y, RaisedBy xs y → w.gaps.countP (InGap y) = 0

theorem Watched.not_inGap (h : Watched next xs w) (hy : w.current ≤ y) : w.gaps.countP (InGap y) = 0 := by
  rw [List.countP_eq_zero]
  intro gap hgap hin
  exact absurd ((of_decide_eq_true hin).2.trans_le (h.closed gap hgap)) (not_lt.mpr hy)

theorem watched_singleton (next : α → α) (x : α) : Watched next [x] { current := x } where
  greatest := ⟨List.mem_singleton_self x, fun z hz => (List.mem_singleton.mp hz).le⟩
  raised := ⟨[], [], rfl, fun z hz => by cases hz⟩
  closed := fun gap hgap => by cases hgap
  covered := by
    intro first hfirst y hy hy'
    cases hfirst
    exact absurd (hy.trans hy') (lt_irrefl _)
  apart := fun _ _ _ => rfl

/-- A value that is not greater changes nothing. -/
theorem Watched.stay (h : Watched next xs w) (hx : x ≤ w.current) : Watched next (xs ++ [x]) w where
  greatest := by
    refine ⟨List.mem_append_left _ h.greatest.1, fun z hz => ?_⟩
    rcases List.mem_append.mp hz with hz | hz
    · exact h.greatest.2 hz
    · rwa [List.mem_singleton.mp hz]
  raised := raisedBy_concat.mpr (.inl h.raised)
  closed := h.closed
  covered := by
    intro first hfirst y hy hy'
    have hne : xs ≠ [] := List.ne_nil_of_mem h.greatest.1
    rw [List.head?_append_of_ne_nil _ hne] at hfirst
    rcases h.covered first hfirst y hy hy' with hraised | hgap
    · exact .inl (raisedBy_concat.mpr (.inl hraised))
    · exact .inr hgap
  apart := by
    intro hnext y hy
    rcases raisedBy_concat.mp hy with hy | ⟨rfl, hall⟩
    · exact h.apart (fun m hm => hnext m (List.mem_append_left _ hm)) y hy
    · exact absurd (hall _ h.greatest.1) (not_lt.mpr hx)

/-- A greater value takes the place of the greatest, with a gap where it is not the next one. -/
theorem Watched.rise (hnext : IsNext next) (h : Watched next xs w) (hx : w.current < x) :
    Watched next (xs ++ [x]) {
      current := x
      gaps := if next w.current < x then w.gaps ++ [(next w.current, x)] else w.gaps } where
  greatest := by
    refine ⟨List.mem_append_right _ (List.mem_singleton_self x), fun z hz => ?_⟩
    rcases List.mem_append.mp hz with hz | hz
    · exact (h.greatest.2 hz).trans hx.le
    · exact (List.mem_singleton.mp hz).le
  raised := raisedBy_concat.mpr (.inr ⟨rfl, fun z hz => (h.greatest.2 hz).trans_lt hx⟩)
  closed := by
    intro gap hgap
    split_ifs at hgap
    · rcases List.mem_append.mp hgap with hgap | hgap
      · exact (h.closed gap hgap).trans hx.le
      · rw [List.mem_singleton.mp hgap]
    · exact (h.closed gap hgap).trans hx.le
  covered := by
    intro first hfirst y hy hyx
    rw [List.head?_append_of_ne_nil _ (List.ne_nil_of_mem h.greatest.1)] at hfirst
    rcases lt_trichotomy y w.current with hlt | rfl | hgt
    · rcases h.covered first hfirst y hy hlt with hraised | hgap
      · exact .inl (raisedBy_concat.mpr (.inl hraised))
      · right
        have hout : ¬ InGap y (next w.current, x) := fun hin =>
          absurd (hlt.trans_le (hnext.le _)) (not_lt.mpr hin.1)
        split_ifs
        · rw [List.countP_append, hgap, List.countP_singleton, if_neg (by simpa using hout)]
        · exact hgap
    · exact .inl (raisedBy_concat.mpr (.inl h.raised))
    · -- above what was the greatest: only the new gap has it
      right
      have hle := hnext.least _ _ hgt
      rw [if_pos (hle.trans_lt hyx), List.countP_append, h.not_inGap hgt.le, List.countP_singleton,
        if_pos (decide_eq_true ⟨hle, hyx⟩)]
  apart := by
    intro hup y hy
    have hout : ¬ InGap y (next w.current, x) := by
      rintro ⟨hle, hlt⟩
      rcases raisedBy_concat.mp hy with hy | ⟨rfl, -⟩
      · have hcurrent := hup _ (List.mem_append_left _ h.greatest.1) hx
        exact absurd ((h.greatest.2 hy.mem).trans_lt hcurrent) (not_lt.mpr hle)
      · exact lt_irrefl _ hlt
    have hold : w.gaps.countP (InGap y) = 0 := by
      rcases raisedBy_concat.mp hy with hy | ⟨rfl, -⟩
      · exact h.apart (fun m hm hlt => hup m (List.mem_append_left _ hm) (hlt.trans hx)) y hy
      · exact h.not_inGap hx.le
    split_ifs
    · rw [List.countP_append, hold, List.countP_singleton, if_neg (by simpa using hout)]
    · exact hold

/-- **What is known after any values.** -/
theorem watched_watch (hnext : IsNext next) (xs : List α) :
    (xs = [] ∧ watch next xs = none) ∨ ∃ w, watch next xs = some w ∧ Watched next xs w := by
  induction xs using List.reverseRecOn with
  | nil => exact .inl ⟨rfl, rfl⟩
  | append_singleton xs x ih =>
    right
    rw [watch_concat]
    rcases ih with ⟨rfl, hnone⟩ | ⟨w, hsome, hw⟩
    · rw [hnone]
      exact ⟨_, rfl, watched_singleton next x⟩
    · rw [hsome]
      by_cases hx : w.current < x
      · exact ⟨_, if_pos hx, hw.rise hnext hx⟩
      · exact ⟨w, if_neg hx, hw.stay (not_lt.mp hx)⟩

end Watch

end Sorted
