import Mathlib
import StreamFi.Js.Text

/-!
# Base64 and UTF-8 of Node buffers

* `toBase64`, `fromBase64`: `buf.toString('base64')` and `Buffer.from(s, 'base64')`. The decoder
  takes both alphabets, skips every other character and stops at the first `=`.
  **`fromBase64_toBase64`**: decoding an encoded buffer gives it back.
* `atob`: `atob(s)`, which refuses what is not base64; **`atob_toBase64`**: the same for it.
* `utf8Decode`: `buf.toString('utf8')`, with a replacement character for every ill-formed part.
* **`text_roundTrip`**: ASCII text survives the way through UTF-8 and base64.
-/

namespace Js

/-! ## Base64 -/

/-- The digit of a sextet. -/
def char64 (n : ℕ) : Char :=
  if n < 26 then Char.ofNat (65 + n)
  else if n < 52 then Char.ofNat (71 + n)
  else if n < 62 then Char.ofNat (n - 4)
  else if n = 62 then '+' else '/'

/-- The sextet of a digit, in the standard or the URL-safe alphabet. -/
def val64 (c : Char) : Option ℕ :=
  if c.isUpper then some (c.toNat - 65)
  else if c.isLower then some (c.toNat - 71)
  else if c.isDigit then some (c.toNat + 4)
  else if c = '+' ∨ c = '-' then some 62
  else if c = '/' ∨ c = '_' then some 63
  else none

/-- The base64 digits of a byte sequence. -/
def toBase64 : List UInt8 → List Char
  | [] => []
  | [a] => [char64 (a.toNat / 4), char64 (a.toNat % 4 * 16), '=', '=']
  | [a, b] =>
    [char64 (a.toNat / 4), char64 (a.toNat % 4 * 16 + b.toNat / 16), char64 (b.toNat % 16 * 4), '=']
  | a :: b :: c :: bs =>
    char64 (a.toNat / 4) :: char64 (a.toNat % 4 * 16 + b.toNat / 16) ::
      char64 (b.toNat % 16 * 4 + c.toNat / 64) :: char64 (c.toNat % 64) :: toBase64 bs

/-- Bytes of a sextet sequence; a lone last sextet is dropped. -/
def ofSextets : List ℕ → List UInt8
  | a :: b :: c :: d :: ns =>
    UInt8.ofNat (a * 4 + b / 16) :: UInt8.ofNat (b % 16 * 16 + c / 4) ::
      UInt8.ofNat (c % 4 * 64 + d) :: ofSextets ns
  | [a, b, c] => [UInt8.ofNat (a * 4 + b / 16), UInt8.ofNat (b % 16 * 16 + c / 4)]
  | [a, b] => [UInt8.ofNat (a * 4 + b / 16)]
  | _ => []

/-- The sextets before the first `=`. -/
def sextets (cs : List Char) : List ℕ := (cs.takeWhile (· ≠ '=')).filterMap val64

/-- `Buffer.from(s, 'base64')`. -/
def fromBase64 (cs : List Char) : List UInt8 := ofSextets (sextets cs)

theorem val64_char64 {n : ℕ} (hn : n < 64) : val64 (char64 n) = some n := by
  have h : ∀ n : Fin 64, val64 (char64 n) = some n := by decide
  exact h ⟨n, hn⟩

theorem char64_ne {n : ℕ} (hn : n < 64) : char64 n ≠ '=' := by
  have h : ∀ n : Fin 64, char64 n ≠ '=' := by decide
  exact h ⟨n, hn⟩

theorem sextets_char64 {n : ℕ} (hn : n < 64) (cs : List Char) :
    sextets (char64 n :: cs) = n :: sextets cs := by
  rw [sextets, List.takeWhile_cons_of_pos (by simpa using char64_ne hn),
    List.filterMap_cons_some (val64_char64 hn)]
  rfl

@[simp] theorem sextets_pad (cs : List Char) : sextets ('=' :: cs) = [] := rfl

theorem byte_eq {n : ℕ} {a : UInt8} (h : n = a.toNat) : UInt8.ofNat n = a := by
  rw [h, UInt8.ofNat_toNat]

/-- **Decoding undoes encoding.** -/
theorem fromBase64_toBase64 (bs : List UInt8) : fromBase64 (toBase64 bs) = bs := by
  unfold fromBase64
  induction bs using toBase64.induct with
  | case1 => rfl
  | case2 a =>
    have ha := a.toNat_lt
    rw [toBase64, sextets_char64 (by omega), sextets_char64 (by omega), sextets_pad, ofSextets,
      byte_eq (a := a) (by omega)]
  | case3 a b =>
    have ha := a.toNat_lt
    have hb := b.toNat_lt
    rw [toBase64, sextets_char64 (by omega), sextets_char64 (by omega), sextets_char64 (by omega),
      sextets_pad, ofSextets, byte_eq (a := a) (by omega), byte_eq (a := b) (by omega)]
  | case4 a b c bs ih =>
    have ha := a.toNat_lt
    have hb := b.toNat_lt
    have hc := c.toNat_lt
    rw [toBase64, sextets_char64 (by omega), sextets_char64 (by omega), sextets_char64 (by omega),
      sextets_char64 (by omega), ofSextets, ih, byte_eq (a := a) (by omega),
      byte_eq (a := b) (by omega), byte_eq (a := c) (by omega)]

/-- What `atob` skips. -/
def isAsciiSpace (c : Char) : Bool := c = '\t' || c = '\n' || c = Char.ofNat 12 || c = '\r' || c = ' '

/-- One or two `=` at the end are taken off. -/
def stripPads (cs : List Char) : List Char :=
  match cs.reverse with
  | '=' :: '=' :: rest => rest.reverse
  | '=' :: rest => rest.reverse
  | _ => cs

def isDigit64 (c : Char) : Bool := (val64 c).isSome && c ≠ '-' && c ≠ '_'

/-- `atob(s)`: none where it throws. -/
def atob (text : List Char) : Option (List UInt8) :=
  let cs := text.filter fun c => !isAsciiSpace c
  let cs := if cs.length % 4 = 0 then stripPads cs else cs
  if cs.length % 4 = 1 then none
  else if cs.all isDigit64 then some (ofSextets (cs.filterMap val64))
  else none

/-- The digits of a byte sequence, and their padding. -/
theorem toBase64_shape (bs : List UInt8) : ∃ ns pads, toBase64 bs = ns.map char64 ++ List.replicate pads '=' ∧
    (∀ n ∈ ns, n < 64) ∧ (ns.length + pads) % 4 = 0 ∧ pads ≤ 2 ∧ ofSextets ns = bs := by
  induction bs using toBase64.induct with
  | case1 => exact ⟨[], 0, rfl, by simp, rfl, by omega, rfl⟩
  | case2 a =>
    have ha := a.toNat_lt
    refine ⟨[a.toNat / 4, a.toNat % 4 * 16], 2, rfl, ?_, by simp, le_rfl, ?_⟩
    · simp
      omega
    · rw [ofSextets, byte_eq (a := a) (by omega)]
  | case3 a b =>
    have ha := a.toNat_lt
    have hb := b.toNat_lt
    refine ⟨[a.toNat / 4, a.toNat % 4 * 16 + b.toNat / 16, b.toNat % 16 * 4], 1, rfl, ?_, by simp,
      by omega, ?_⟩
    · simp
      omega
    · rw [ofSextets, byte_eq (a := a) (by omega), byte_eq (a := b) (by omega)]
  | case4 a b c bs ih =>
    have ha := a.toNat_lt
    have hb := b.toNat_lt
    have hc := c.toNat_lt
    obtain ⟨ns, pads, htext, hlt, hlen, hpads, hbytes⟩ := ih
    refine ⟨a.toNat / 4 :: (a.toNat % 4 * 16 + b.toNat / 16) :: (b.toNat % 16 * 4 + c.toNat / 64) ::
      c.toNat % 64 :: ns, pads, by rw [toBase64, htext]; rfl, ?_, ?_, hpads, ?_⟩
    · simp only [List.forall_mem_cons]
      exact ⟨by omega, by omega, by omega, by omega, hlt⟩
    · simp only [List.length_cons]
      omega
    · rw [ofSextets, hbytes, byte_eq (a := a) (by omega), byte_eq (a := b) (by omega), byte_eq (a := c) (by omega)]

theorem digit64_char64 {n : ℕ} (hn : n < 64) :
    isDigit64 (char64 n) = true ∧ isAsciiSpace (char64 n) = false := by
  have h : ∀ n : Fin 64, isDigit64 (char64 n) = true ∧ isAsciiSpace (char64 n) = false := by decide
  exact h ⟨n, hn⟩

theorem stripPads_append {cs : List Char} (h : ∀ c ∈ cs, c ≠ '=') {pads : ℕ} (hpads : pads ≤ 2) :
    stripPads (cs ++ List.replicate pads '=') = cs := by
  have hhead : ∀ c ∈ cs.reverse.head?, c ≠ '=' := fun c hc =>
    h c (List.mem_reverse.mp (List.mem_of_head? hc))
  unfold stripPads
  rw [List.reverse_append, List.reverse_replicate]
  interval_cases pads <;> cases hrev : cs.reverse with
  | nil => simp_all
  | cons c rest => simp_all

/-- **Decoding undoes encoding**, also for `atob`. -/
theorem atob_toBase64 (bs : List UInt8) : atob (toBase64 bs) = some bs := by
  obtain ⟨ns, pads, htext, hlt, hlen, hpads, hbytes⟩ := toBase64_shape bs
  have hdigits : ∀ c ∈ ns.map char64, isDigit64 c = true ∧ isAsciiSpace c = false ∧ c ≠ '=' := by
    simp only [List.forall_mem_map]
    exact fun n hn => ⟨(digit64_char64 (hlt n hn)).1, (digit64_char64 (hlt n hn)).2, char64_ne (hlt n hn)⟩
  have hspace : (toBase64 bs).filter (fun c => !isAsciiSpace c) = toBase64 bs := by
    rw [List.filter_eq_self, htext]
    intro c hc
    rcases List.mem_append.mp hc with hc | hc
    · simp [(hdigits c hc).2.1]
    · simp [(List.mem_replicate.mp hc).2, isAsciiSpace]
  have hvals : (ns.map char64).filterMap val64 = ns := by
    rw [List.filterMap_map]
    have hsome : ∀ n ∈ ns, (val64 ∘ char64) n = some n := fun n hn => val64_char64 (hlt n hn)
    rw [List.filterMap_congr hsome, List.filterMap_some]
  have hlength : (toBase64 bs).length % 4 = 0 := by
    rw [htext]
    simpa using hlen
  have hall : (ns.map char64).all isDigit64 = true := List.all_eq_true.mpr fun c hc => (hdigits c hc).1
  simp only [atob, hspace, hlength, if_true]
  rw [htext, stripPads_append (fun c hc => (hdigits c hc).2.2) hpads, if_neg (by rw [List.length_map]; omega),
    if_pos hall, hvals, hbytes]

/-! ## UTF-8 -/

/-- The decoder between bytes: the continuation bytes still owed, the bounds of the next one and
the bits so far. -/
structure Utf8 where
  owed : ℕ := 0
  lo : ℕ := 0x80
  hi : ℕ := 0xBF
  bits : ℕ := 0
  deriving DecidableEq

/-- What is written for an ill-formed part. -/
def replacement : Char := Char.ofNat 0xFFFD

/-- The first byte of a character. -/
def Utf8.lead (b : ℕ) : List Char × Utf8 :=
  if b < 0x80 then ([Char.ofNat b], {})
  else if 0xC2 ≤ b ∧ b ≤ 0xDF then ([], { owed := 1, bits := b - 0xC0 })
  else if 0xE0 ≤ b ∧ b ≤ 0xEF then
    ([], { owed := 2, lo := if b = 0xE0 then 0xA0 else 0x80, hi := if b = 0xED then 0x9F else 0xBF,
           bits := b - 0xE0 })
  else if 0xF0 ≤ b ∧ b ≤ 0xF4 then
    ([], { owed := 3, lo := if b = 0xF0 then 0x90 else 0x80, hi := if b = 0xF4 then 0x8F else 0xBF,
           bits := b - 0xF0 })
  else ([replacement], {})

/-- One byte: the characters written and the decoder after it. -/
def Utf8.feed (u : Utf8) (b : ℕ) : List Char × Utf8 :=
  if u.owed = 0 then lead b
  else if u.lo ≤ b ∧ b ≤ u.hi then
    let bits := u.bits * 64 + (b - 0x80)
    if u.owed = 1 then ([Char.ofNat bits], {}) else ([], { owed := u.owed - 1, bits := bits })
  else (replacement :: (lead b).1, (lead b).2)

/-- Decoding from a state; an unfinished character at the end is ill-formed. -/
def Utf8.decode : Utf8 → List UInt8 → List Char
  | u, [] => if u.owed = 0 then [] else [replacement]
  | u, b :: bs => (u.feed b.toNat).1 ++ (u.feed b.toNat).2.decode bs

/-- `buf.toString('utf8')`. -/
def utf8Decode (bs : List UInt8) : List Char := Utf8.decode {} bs

/-- The bytes of ASCII text, `Buffer.from(s, 'utf8')`. -/
def asciiBytes (cs : List Char) : List UInt8 := cs.map fun c => UInt8.ofNat c.toNat

theorem utf8Decode_asciiBytes {cs : List Char} (h : ∀ c ∈ cs, c.toNat < 128) :
    utf8Decode (asciiBytes cs) = cs := by
  unfold utf8Decode
  induction cs with
  | nil => rfl
  | cons c cs ih =>
    have hc := h c List.mem_cons_self
    have hb : (UInt8.ofNat c.toNat).toNat = c.toNat := by
      rw [UInt8.toNat_ofNat', Nat.mod_eq_of_lt (by omega)]
    have hfeed : Utf8.feed {} (UInt8.ofNat c.toNat).toNat = ([c], {}) := by
      simp [Utf8.feed, Utf8.lead, hb, hc]
    rw [asciiBytes, List.map_cons, Utf8.decode, hfeed]
    exact congrArg (c :: ·) (ih fun c' hc' => h c' (List.mem_cons_of_mem _ hc'))

/-- **ASCII text survives UTF-8 and base64.** -/
theorem text_roundTrip {cs : List Char} (h : ∀ c ∈ cs, c.toNat < 128) :
    utf8Decode (fromBase64 (toBase64 (asciiBytes cs))) = cs := by
  rw [fromBase64_toBase64, utf8Decode_asciiBytes h]

end Js
