import StreamFi.Js.Decoder
import StreamFi.Js.Value

/-!
# The event stream of a subscription

Without a `WebSocket`, `subscribe` reads the body of a response chunk by chunk. It keeps the line that is
not complete, and hands the payloads of the complete data lines to `onData`; a `[DONE]` line ends the
lines of its chunk.

* `readLine`, `SseReader.read`: one line, and one chunk; `delivered`: a whole body;
* `beforeDone`, `bodyPayloads`: the payloads before the first `[DONE]` line of a body;
* **`delivered_iff`**: which chunks deliver these.
-/

namespace StreamFi

open Js Run

variable {ι : Type}

/-! ## The reader -/

/-- What a line is to the reader. -/
inductive SseLine (ι : Type) where
  | done
  | data (payload : Value ι)
  | other

namespace SseLine

def isDone : SseLine ι → Bool
  | .done => true
  | _ => false

def payload : SseLine ι → Option (Value ι)
  | .data payload => some payload
  | _ => none

end SseLine

/-- `inner ?? parsed`. -/
def payloadOf (parsed : Value ι) : Value ι :=
  let inner := match parsed with
    | .object entries => entries.lookup "data"
    | _ => none
  match inner with
  | none | some .undefined | some .null => parsed
  | some inner => inner

/-- A line of the body; `parse` is `JSON.parse`, `none` where it throws. -/
def readLine (parse : String → Option (Value ι)) (line : List Char) : SseLine ι :=
  let trimmed := trim line
  if "data:".toList.isPrefixOf trimmed then
    let dataStr := trim (trimmed.drop 5)
    if dataStr = "[DONE]".toList then .done
    else match parse (String.ofList dataStr) with
      | some parsed => .data (payloadOf parsed)
      | none => .other
  else .other

/-- The payloads that the inner loop hands over. -/
def dispatch : List (SseLine ι) → List (Value ι)
  | [] => []
  | .done :: _ => []
  | .data payload :: lines => payload :: dispatch lines
  | .other :: lines => dispatch lines

structure SseReader where
  decoder : TextDecoder := {}
  buffer : List Char := []
  deriving DecidableEq

/-- A chunk: the lines that it completes. -/
def SseReader.read (r : SseReader) (value : List UInt8) : List (List Char) × SseReader where
  fst := (cutLines '\n' (r.buffer ++ (r.decoder.decode value).1)).1
  snd := {
    decoder := (r.decoder.decode value).2
    buffer := (cutLines '\n' (r.buffer ++ (r.decoder.decode value).1)).2 }

def delivered (parse : String → Option (Value ι)) (r : SseReader) : List (List UInt8) → List (Value ι)
  | [] => []
  | value :: values =>
    dispatch ((r.read value).1.map (readLine parse)) ++ delivered parse (r.read value).2 values

/-! ## The payloads of a body -/

/-- The lines before the first `[DONE]` line. -/
def beforeDone (lines : List (SseLine ι)) : List (SseLine ι) := lines.takeWhile fun line => !line.isDone

/-- The lines of a body; the last one does not end with a separator. -/
def bodyLines (body : List UInt8) : List (List Char) :=
  (cutLines '\n' (textOf body)).1 ++ [(cutLines '\n' (textOf body)).2]

/-- The payloads of the parseable data lines that precede the first `[DONE]` line of a body. -/
def bodyPayloads (parse : String → Option (Value ι)) (body : List UInt8) : List (Value ι) :=
  (beforeDone ((bodyLines body).map (readLine parse))).filterMap SseLine.payload

/-- The lines that each chunk completes. -/
def chunkLines (r : SseReader) : List (List UInt8) → List (List (List Char))
  | [] => []
  | value :: values => (r.read value).1 :: chunkLines (r.read value).2 values

/-- After the chunk that completes the first `[DONE]` line, no chunk completes a parseable data line
before a `[DONE]` line of its own; and if there is no such line, the rest behind the last line is not a
parseable data line. -/
structure EndsAtDone (parse : String → Option (Value ι)) (values : List (List UInt8)) : Prop where
  after : ∀ before lines after, chunkLines {} values = before ++ lines :: after →
    (∃ line ∈ before.flatten, (readLine parse line).isDone = true) →
      ∀ line ∈ beforeDone (lines.map (readLine parse)), line.payload = none
  rest : (∀ line ∈ (chunkLines {} values).flatten, (readLine parse line).isDone = false) →
    (readLine parse (cutLines '\n' (textOf values.flatten)).2).payload = none

/-! ## Chunks -/

/-- **Two chunks complete the lines that they complete together.** -/
theorem SseReader.read_append (r : SseReader) (value value' : List UInt8) :
    r.read (value ++ value') =
      ((r.read value).1 ++ ((r.read value).2.read value').1, ((r.read value).2.read value').2) := by
  simp only [SseReader.read, TextDecoder.decode_append]
  rw [← List.append_assoc, cutLines_append]

theorem SseReader.read_nil {r : SseReader} (h : '\n' ∉ r.buffer) : r.read [] = ([], r) := by
  have hnil : r.decoder.decode [] = ([], r.decoder) := rfl
  rw [SseReader.read, hnil, List.append_nil, cutLines_of_not_mem h]

theorem flatten_chunkLines {r : SseReader} (h : '\n' ∉ r.buffer) (values : List (List UInt8)) :
    (chunkLines r values).flatten = (r.read values.flatten).1 := by
  induction values generalizing r with
  | nil =>
    rw [List.flatten_nil, SseReader.read_nil h]
    rfl
  | cons value values ih =>
    have hrest : '\n' ∉ (r.read value).2.buffer := not_mem_rest '\n' _
    rw [chunkLines, List.flatten_cons, ih hrest, List.flatten_cons, SseReader.read_append]

/-- The complete lines of a body do not depend on the chunks. -/
theorem bodyLines_eq (values : List (List UInt8)) :
    bodyLines values.flatten =
      (chunkLines {} values).flatten ++ [(cutLines '\n' (textOf values.flatten)).2] := by
  have hlines : (cutLines '\n' (textOf values.flatten)).1 = (chunkLines {} values).flatten := by
    rw [flatten_chunkLines List.not_mem_nil, textOf_eq, cutLines_append]
    have hflush : '\n' ∉ (cutLines '\n' (TextDecoder.decode {} values.flatten).1).2 ++
        (TextDecoder.decode {} values.flatten).2.utf8.flush := by
      rw [List.mem_append, not_or]
      exact ⟨not_mem_rest '\n' _, Utf8.newline_not_mem_flush _⟩
    rw [cutLines_of_not_mem hflush, List.append_nil]
    rfl
  rw [bodyLines, hlines]

theorem delivered_eq (parse : String → Option (Value ι)) (r : SseReader) (values : List (List UInt8)) :
    delivered parse r values =
      ((chunkLines r values).map (List.map (readLine parse))).flatMap dispatch := by
  induction values generalizing r with
  | nil => rfl
  | cons value values ih => rw [delivered, chunkLines, List.map_cons, List.flatMap_cons, ih]

/-! ## Lines after the end -/

theorem dispatch_eq (lines : List (SseLine ι)) :
    dispatch lines = (beforeDone lines).filterMap SseLine.payload := by
  unfold beforeDone
  induction lines with
  | nil => rfl
  | cons line lines ih =>
    cases line with
    | done => rfl
    | data payload => exact congrArg (payload :: ·) ih
    | other => exact ih

theorem dispatch_append (lines lines' : List (SseLine ι)) :
    dispatch (lines ++ lines') =
      dispatch lines ++ if lines.any SseLine.isDone then [] else dispatch lines' := by
  induction lines with
  | nil => rfl
  | cons line lines ih =>
    cases line with
    | done => rfl
    | data payload => exact congrArg (payload :: ·) ih
    | other => exact ih

theorem dispatch_eq_nil_iff (lines : List (SseLine ι)) :
    dispatch lines = [] ↔ ∀ line ∈ beforeDone lines, line.payload = none := by
  rw [dispatch_eq, List.filterMap_eq_nil_iff]

/-- The splits of a list at one of its members. -/
theorem forall_split_cons {α : Type} {a : α} {l : List α} {P : List α → α → Prop} :
    (∀ before x after, a :: l = before ++ x :: after → P before x) ↔
      P [] a ∧ ∀ before x after, l = before ++ x :: after → P (a :: before) x := by
  constructor
  · intro h
    refine ⟨h [] a l rfl, ?_⟩
    rintro before x after rfl
    exact h (a :: before) x after rfl
  · rintro ⟨hhead, htail⟩ before x after heq
    cases before with
    | nil =>
      cases heq
      exact hhead
    | cons b before =>
      obtain ⟨rfl, hl⟩ := List.cons.inj heq
      exact htail before x after hl

/-- **Chunk by chunk is all at once** exactly when nothing is handed over after the first `[DONE]` line
and nothing is left at the end. -/
theorem flatMap_dispatch_iff (chunks : List (List (SseLine ι))) (rest : SseLine ι) :
    chunks.flatMap dispatch = dispatch (chunks.flatten ++ [rest]) ↔
      (∀ before lines after, chunks = before ++ lines :: after →
        before.flatten.any SseLine.isDone = true → dispatch lines = []) ∧
      (chunks.flatten.any SseLine.isDone = false → rest.payload = none) := by
  induction chunks with
  | nil => cases rest <;> simp [dispatch, SseLine.payload]
  | cons lines chunks ih =>
    have hsplit := forall_split_cons (a := lines) (l := chunks)
      (P := fun before lines => before.flatten.any SseLine.isDone = true → dispatch lines = [])
    rw [hsplit, List.flatMap_cons, List.flatten_cons, List.append_assoc, dispatch_append,
      List.append_cancel_left_eq, List.any_append]
    by_cases hdone : lines.any SseLine.isDone = true
    · -- nothing may follow
      have hmem : (∀ before ls after, chunks = before ++ ls :: after →
          (lines :: before).flatten.any SseLine.isDone = true → dispatch ls = []) ↔
            ∀ ls ∈ chunks, dispatch ls = [] := by
        constructor
        · intro h ls hls
          obtain ⟨before, after, heq⟩ := List.append_of_mem hls
          exact h before ls after heq (by rw [List.flatten_cons, List.any_append, hdone, Bool.true_or])
        · rintro h before ls after rfl -
          exact h ls (List.mem_append_right before List.mem_cons_self)
      rw [if_pos hdone, hmem, hdone, List.flatMap_eq_nil_iff]
      simp
    · rw [Bool.not_eq_true] at hdone
      rw [if_neg (by rw [hdone]; exact Bool.false_ne_true), ih, hdone, Bool.false_or]
      simp [hdone]

/-- **A body is delivered as a whole**, whatever its chunks, exactly when they end at `[DONE]`. -/
theorem delivered_iff (parse : String → Option (Value ι)) (values : List (List UInt8)) :
    delivered parse {} values = bodyPayloads parse values.flatten ↔ EndsAtDone parse values := by
  have hany (lines : List (List Char)) : (lines.map (readLine parse)).any SseLine.isDone = true ↔
      ∃ line ∈ lines, (readLine parse line).isDone = true := by
    rw [List.any_map, List.any_eq_true]
    rfl
  have hflatten (chunks : List (List (List Char))) :
      (chunks.map (List.map (readLine parse))).flatten = chunks.flatten.map (readLine parse) :=
    List.map_flatten.symm
  rw [delivered_eq, bodyPayloads, ← dispatch_eq, bodyLines_eq, List.map_append, List.map_singleton,
    ← hflatten, flatMap_dispatch_iff, hflatten]
  constructor
  · rintro ⟨hafter, hrest⟩
    refine ⟨?_, ?_⟩
    · intro before lines after heq hdone
      rw [← dispatch_eq_nil_iff]
      refine hafter (before.map (List.map (readLine parse))) _ (after.map (List.map (readLine parse))) ?_ ?_
      · rw [heq, List.map_append, List.map_cons]
      · rw [hflatten]
        exact (hany _).mpr hdone
    · intro hnone
      apply hrest
      rw [Bool.eq_false_iff, ne_eq, hany]
      rintro ⟨line, hline, hdone⟩
      rw [hnone line hline] at hdone
      cases hdone
  · rintro ⟨hafter, hrest⟩
    refine ⟨?_, ?_⟩
    · intro before lines after heq hdone
      obtain ⟨before', tail, hchunks, rfl, htail⟩ := List.map_eq_append_iff.mp heq
      obtain ⟨lines', after', rfl, rfl, rfl⟩ := List.map_eq_cons_iff.mp htail
      rw [hflatten] at hdone
      rw [dispatch_eq_nil_iff]
      exact hafter before' lines' after' hchunks ((hany _).mp hdone)
    · intro hnone
      apply hrest
      intro line hline
      rw [Bool.eq_false_iff]
      intro hdone
      rw [(hany _).mpr ⟨line, hline, hdone⟩] at hnone
      cases hnone

/-- **What is delivered depends on the chunks**: a line behind `[DONE]` is handed over when it comes in a
chunk of its own. A body without a final separator loses its last line. -/
theorem delivered_after_done :
    let parse (s : String) : Option (Value Empty) := (bigInt s).map fun n => .number (.fin n)
    let head := asciiBytes "data: 1\ndata: [DONE]\n".toList
    let tail := asciiBytes "data: 2\n".toList
    (delivered parse {} [head ++ tail]).length = 1 ∧ (delivered parse {} [head, tail]).length = 2 ∧
      (bodyPayloads parse (head ++ tail)).length = 1 ∧
      (delivered parse {} [asciiBytes "data: 1".toList]).length = 0 ∧
      (bodyPayloads parse (asciiBytes "data: 1".toList)).length = 1 := by
  decide

end StreamFi
