import StreamFi.Run.Pool

/-!
# Comma-separated values

Rows of cells as RFC 4180 has them, with line feeds between the rows. A reader takes one unit of the
text at a time.

* `Marks`: the four units that are not text; `Reader`, `Reader.next`: what was read so far; `parse`;
* `Written`: the ways to write a cell, as it is or in quotes; **`run_written`**: the reader has the
  cell after it;
* **`parse_rows`**: the rows that were written are read.
-/

namespace Csv

open Run

variable {α : Type*} [DecidableEq α]

structure Marks (α : Type*) where
  comma : α
  quote : α
  lineFeed : α
  carriageReturn : α
  distinct : [comma, quote, lineFeed, carriageReturn].Nodup

/-- Where the reader is: at the start of a row, of another cell, in text, between quotes, or behind the
second quote, which may be the first of two. -/
inductive Mode where
  | row
  | cell
  | plain
  | quoted
  | closed
  deriving DecidableEq

structure Reader (α : Type*) where
  mode : Mode := .row
  rows : List (List (List α)) := []
  cells : List (List α) := []
  cell : List α := []

namespace Reader

/-- The next unit. Quotes only stand around a cell, and doubled in it. -/
def next (marks : Marks α) (m : Reader α) (c : α) : Option (Reader α) :=
  if m.mode = .quoted then
    if c = marks.quote then some { m with mode := .closed } else some { m with cell := m.cell ++ [c] }
  else if c = marks.comma then some { m with mode := .cell, cells := m.cells ++ [m.cell], cell := [] }
  else if c = marks.lineFeed then some { rows := m.rows ++ [m.cells ++ [m.cell]] }
  else if c = marks.quote then
    match m.mode with
    | .closed => some { m with mode := .quoted, cell := m.cell ++ [c] }
    | .plain => none
    | _ => some { m with mode := .quoted }
  else if c = marks.carriageReturn ∨ m.mode = .closed then none
  else some { m with mode := .plain, cell := m.cell ++ [c] }

/-- The end of the text. The line feed of the last row may be missing. -/
def finish (m : Reader α) : Option (List (List (List α))) :=
  match m.mode with
  | .row => some m.rows
  | .quoted => none
  | _ => some (m.rows ++ [m.cells ++ [m.cell]])

end Reader

open Reader

def parse (marks : Marks α) (text : List α) : Option (List (List (List α))) :=
  (run (next marks) {} text).bind finish

/-! ## Cells -/

/-- A cell between quotes. -/
def quoted (marks : Marks α) (cell : List α) : List α :=
  marks.quote :: (cell.flatMap fun c => if c = marks.quote then [c, c] else [c]) ++ [marks.quote]

/-- No unit of it has a meaning. -/
def PlainText (marks : Marks α) (cell : List α) : Prop :=
  marks.comma ∉ cell ∧ marks.quote ∉ cell ∧ marks.lineFeed ∉ cell ∧ marks.carriageReturn ∉ cell

def Written (marks : Marks α) (text cell : List α) : Prop :=
  PlainText marks cell ∧ text = cell ∨ text = quoted marks cell

section Read

variable {marks : Marks α} {m : Reader α} {text cell : List α}

omit [DecidableEq α] in
theorem Marks.ne (marks : Marks α) : marks.quote ≠ marks.comma ∧ marks.quote ≠ marks.lineFeed ∧
    marks.lineFeed ≠ marks.comma := by
  have h := marks.distinct
  simp only [List.nodup_cons, List.mem_cons, List.not_mem_nil, or_false, not_or] at h
  exact ⟨Ne.symm h.1.1, h.2.1.1, Ne.symm h.1.2.1⟩

theorem read_comma (h : m.mode ≠ .quoted) : next marks m marks.comma =
    some { m with mode := .cell, cells := m.cells ++ [m.cell], cell := [] } := by
  rw [next, if_neg h, if_pos rfl]

theorem read_lineFeed (h : m.mode ≠ .quoted) :
    next marks m marks.lineFeed = some { rows := m.rows ++ [m.cells ++ [m.cell]] } := by
  rw [next, if_neg h, if_neg marks.ne.2.2, if_pos rfl]

theorem read_open (h : m.mode = .row ∨ m.mode = .cell) :
    next marks m marks.quote = some { m with mode := .quoted } := by
  rcases h with h | h <;> simp [next, h, marks.ne]

theorem read_close (h : m.mode = .quoted) : next marks m marks.quote = some { m with mode := .closed } := by
  rw [next, if_pos h, if_pos rfl]

theorem read_again (h : m.mode = .closed) :
    next marks m marks.quote = some { m with mode := .quoted, cell := m.cell ++ [marks.quote] } := by
  simp [next, h, marks.ne]

theorem read_inner {c : α} (h : m.mode = .quoted) (hc : c ≠ marks.quote) :
    next marks m c = some { m with cell := m.cell ++ [c] } := by
  rw [next, if_pos h, if_neg hc]

theorem read_plain {c : α} (h : PlainText marks (c :: text)) (hmode : m.mode ≠ .quoted ∧ m.mode ≠ .closed) :
    next marks m c = some { m with mode := .plain, cell := m.cell ++ [c] } := by
  have hne {d : α} (hd : d ∉ c :: text) : c ≠ d := fun heq => hd (heq ▸ List.mem_cons_self)
  obtain ⟨hcomma, hquote, hline, hreturn⟩ := h
  rw [next, if_neg hmode.1, if_neg (hne hcomma), if_neg (hne hline), if_neg (hne hquote),
    if_neg (not_or.mpr ⟨hne hreturn, hmode.2⟩)]

theorem run_cons (c : α) (text : List α) :
    run (next marks) m (c :: text) = (next marks m c).bind fun m' => run (next marks) m' text := rfl

/-- The reader has read a cell and stands behind it. -/
structure Behind (m m' : Reader α) (cell : List α) : Prop where
  open_ended : m'.mode ≠ .quoted
  rows_eq : m'.rows = m.rows
  cells_eq : m'.cells = m.cells
  cell_eq : m'.cell = cell
  row : m'.mode = .row → m.mode = .row

theorem run_plain (h : PlainText marks text) (hmode : m.mode ≠ .quoted ∧ m.mode ≠ .closed) :
    ∃ m', run (next marks) m text = some m' ∧ Behind m m' (m.cell ++ text) := by
  induction text generalizing m with
  | nil => exact ⟨m, rfl, hmode.1, rfl, rfl, (List.append_nil _).symm, id⟩
  | cons c text ih =>
    have htext : PlainText marks text := by
      obtain ⟨hcomma, hquote, hline, hreturn⟩ := h
      exact ⟨fun hmem => hcomma (.tail c hmem), fun hmem => hquote (.tail c hmem),
        fun hmem => hline (.tail c hmem), fun hmem => hreturn (.tail c hmem)⟩
    obtain ⟨m', hrun, hbehind⟩ := ih (m := { m with mode := .plain, cell := m.cell ++ [c] }) htext
      ⟨(by simp), (by simp)⟩
    rw [run_cons, read_plain h hmode, Option.bind_some]
    refine ⟨m', hrun, hbehind.open_ended, hbehind.rows_eq, hbehind.cells_eq, ?_, fun hrow => ?_⟩
    · rw [hbehind.cell_eq, List.append_assoc, List.singleton_append]
    · cases hbehind.row hrow

/-- Between quotes everything is text. -/
theorem run_doubled (hmode : m.mode = .quoted) (cell : List α) :
    run (next marks) m (cell.flatMap fun c => if c = marks.quote then [c, c] else [c]) =
      some { m with cell := m.cell ++ cell } := by
  induction cell generalizing m with
  | nil =>
    rw [List.append_nil]
    rfl
  | cons c cell ih =>
    rw [List.flatMap_cons, run_append]
    split_ifs with hc
    · subst hc
      rw [run_cons, read_close hmode, Option.bind_some, run_singleton, read_again rfl, Option.bind_some,
        ih rfl]
      simp [hmode]
    · have hrest := ih (m := { m with cell := m.cell ++ [c] }) hmode
      rw [run_singleton, read_inner hmode hc, Option.bind_some, hrest]
      simp

/-- **A written cell is read**, from the start of a cell. -/
theorem run_written (h : Written marks text cell) (hmode : m.mode = .row ∨ m.mode = .cell)
    (hempty : m.cell = []) : ∃ m', run (next marks) m text = some m' ∧ Behind m m' cell := by
  rcases h with ⟨hplain, rfl⟩ | rfl
  · have h := run_plain hplain (m := m) (by rcases hmode with hmode | hmode <;> rw [hmode] <;> decide)
    rwa [hempty, List.nil_append] at h
  · have hinner : run (next marks) { m with mode := .quoted }
        (cell.flatMap fun c => if c = marks.quote then [c, c] else [c]) =
          some { m with mode := .quoted, cell := m.cell ++ cell } :=
      run_doubled rfl cell
    refine ⟨{ m with mode := .closed, cell := cell }, ?_, (by simp), rfl, rfl, rfl, fun hrow => (by cases hrow)⟩
    rw [quoted, List.cons_append, run_cons, read_open hmode, Option.bind_some, run_append, hinner,
      Option.bind_some, run_singleton, read_close rfl]
    simp [hempty]

end Read

/-! ## Rows -/

section Rows

variable {marks : Marks α} {m : Reader α}

/-- **The cells of a row are read**, from its start. -/
theorem run_row {texts row : List (List α)} (h : List.Forall₂ (Written marks) texts row) (hne : row ≠ [])
    (hmode : m.mode = .row ∨ m.mode = .cell) (hempty : m.cell = []) :
    ∃ m', run (next marks) m (List.intercalate [marks.comma] texts) = some m' ∧ m'.mode ≠ .quoted ∧
      m'.rows = m.rows ∧ m'.cells ++ [m'.cell] = m.cells ++ row ∧
      (m'.mode = .row → m.mode = .row ∧ row.length = 1) := by
  induction h generalizing m with
  | nil => exact absurd rfl hne
  | @cons text cell texts row hcell hrest ih =>
    obtain ⟨m₁, hrun, hbehind⟩ := run_written hcell hmode hempty
    cases hrest with
    | nil =>
      rw [List.intercalate_singleton]
      refine ⟨m₁, hrun, hbehind.open_ended, hbehind.rows_eq, ?_, fun hrow => ⟨hbehind.row hrow, rfl⟩⟩
      rw [hbehind.cells_eq, hbehind.cell_eq]
    | cons hcell' hrest =>
      obtain ⟨m₂, hrun', hended, hrows, hcells, hrow⟩ := ih (List.cons_ne_nil _ _)
        (m := { m₁ with mode := .cell, cells := m₁.cells ++ [m₁.cell], cell := [] }) (.inr rfl) rfl
      refine ⟨m₂, ?_, hended, hrows.trans hbehind.rows_eq, ?_, fun hmode' => (by cases (hrow hmode').1)⟩
      · rw [List.intercalate_cons_cons, run_append, run_append, hrun, Option.bind_some, run_singleton,
          read_comma hbehind.open_ended, Option.bind_some, hrun']
      · rw [hcells]
        dsimp only
        rw [hbehind.cells_eq, hbehind.cell_eq, List.append_assoc, List.singleton_append]

theorem finish_rows {rows : List (List (List α))} {texts : List (List (List α))}
    (h : List.Forall₂ (List.Forall₂ (Written marks)) texts rows) (hlength : ∀ row ∈ rows, 2 ≤ row.length)
    (done : List (List (List α))) :
    (run (next marks) { rows := done }
      (List.intercalate [marks.lineFeed] (texts.map (List.intercalate [marks.comma])))).bind finish =
      some (done ++ rows) := by
  induction h generalizing done with
  | nil =>
    rw [List.append_nil]
    rfl
  | @cons text row texts rows hrow hrest ih =>
    have htwo := hlength row List.mem_cons_self
    obtain ⟨m, hrun, hended, hrows, hcells, hstart⟩ := run_row (m := { rows := done }) hrow
      (List.length_pos_iff.mp (by omega)) (.inl rfl) rfl
    rw [List.nil_append] at hcells
    cases hrest with
    | nil =>
      rw [List.map_singleton, List.intercalate_singleton, hrun, Option.bind_some]
      unfold finish
      cases hmode : m.mode with
      | row =>
        have hone := (hstart hmode).2
        omega
      | quoted => exact absurd hmode hended
      | cell | plain | closed => rw [hcells, hrows]
    | cons hrow' hrest =>
      have hnext := ih (fun row' hmem => hlength row' (List.mem_cons_of_mem _ hmem)) (done ++ [row])
      rw [List.map_cons, List.map_cons, List.intercalate_cons_cons, run_append, run_append, hrun,
        Option.bind_some, run_singleton, read_lineFeed hended, Option.bind_some, hcells, hrows]
      rw [List.map_cons] at hnext
      rw [hnext, List.append_assoc, List.singleton_append]

/-- **Rows of at least two cells are read** as they were written. -/
theorem parse_rows {rows : List (List (List α))} {texts : List (List (List α))}
    (h : List.Forall₂ (List.Forall₂ (Written marks)) texts rows) (hlength : ∀ row ∈ rows, 2 ≤ row.length) :
    parse marks (List.intercalate [marks.lineFeed] (texts.map (List.intercalate [marks.comma]))) = some rows :=
  finish_rows h hlength []

end Rows

end Csv
