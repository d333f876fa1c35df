import StreamFi.Stroops
import StreamFi.Wire.Der

/-!
# Signatures of passkeys

An authenticator returns a signature as a DER sequence of two integers; a contract wants the integers
in 32 bytes each.

* `derToRawSignature`: the code; `ReadsDer`: what it reads on the way;
* **`derToRawSignature_pairSequence`**: it converts every signature;
* `Strict`: what it does not check; **`derToRawSignature_only_iff`**: it takes nothing but signatures
  where this holds anyway; `derToRawSignature_trailing` is one more.
-/

namespace StreamFi

open Js Der

/-! ## The code -/

/-- `buf[i]`. -/
def byteAt (buf : List UInt8) (i : ℤ) : Option UInt8 := if i < 0 then none else buf[i.toNat]?

/-- The position that `i` is in `buf.slice`. -/
def slicePosition (buf : List UInt8) (i : ℤ) : ℕ :=
  if i < 0 then (buf.length + i).toNat else i.toNat ⊓ buf.length

/-- `buf.slice(start, stop)`. -/
def sliceBytes (buf : List UInt8) (start stop : ℤ) : List UInt8 :=
  (buf.take (slicePosition buf stop)).drop (slicePosition buf start)

def describeByte : Option UInt8 → String
  | none => "<nothing>"
  | some b => "0x" ++ String.ofList (padStart (Nat.toDigits 16 b.toNat) 2)

structure DerLength where
  length : ℤ
  next : ℤ

structure DerInteger where
  value : List UInt8
  next : ℤ

/-- The shifts are those of 32-bit integers with a sign. -/
def readDerLength (buf : List UInt8) (offset : ℤ) : Except Thrown DerLength :=
  match byteAt buf offset with
  | none => throwNew "Malformed DER signature: unexpected end of input while reading a length"
  | some first =>
    if first &&& 0x80 = 0 then .ok { length := first.toNat, next := offset + 1 }
    else
      let numBytes := (first &&& 0x7f).toNat
      if numBytes = 0 ∨ 4 < numBytes then throwNew "Malformed DER signature: unsupported length encoding"
      else do
        let length ← (List.range numBytes).foldlM (fun (length : BitVec 32) i =>
          match byteAt buf (offset + 1 + i) with
          | none => throwNew "Malformed DER signature: unexpected end of input while reading a length"
          | some b => .ok (length <<< 8 ||| b.toBitVec.setWidth 32)) 0
        .ok { length := length.toInt, next := offset + 1 + numBytes }

def readDerInteger (buf : List UInt8) (offset : ℤ) : Except Thrown DerInteger :=
  let tag := byteAt buf offset
  if tag ≠ some 0x02 then
    throwNew s!"Malformed DER signature: expected an INTEGER (0x02), got {describeByte tag}"
  else do
    let l ← readDerLength buf (offset + 1)
    if l.length = 0 ∨ buf.length < l.next + l.length then
      throwNew "Malformed DER signature: INTEGER has an invalid length"
    else .ok { value := sliceBytes buf l.next (l.next + l.length), next := l.next + l.length }

/-- Zeros in front go as long as there are too many bytes. -/
def dropPadding (width : ℕ) : List UInt8 → List UInt8
  | [] => []
  | b :: bytes => if width < (b :: bytes).length ∧ b = 0 then dropPadding width bytes else b :: bytes

def derIntegerToFixedWidth (value : List UInt8) (width : ℕ) : Except Thrown (List UInt8) :=
  let trimmed := dropPadding width value
  if width < trimmed.length then
    throwNew s!"Malformed DER signature: INTEGER is {trimmed.length} bytes, expected at most {width}"
  else .ok (List.replicate (width - trimmed.length) 0 ++ trimmed)

def derToRawSignature (der : List UInt8) : Except Thrown (List UInt8) :=
  if der.length < 8 ∨ byteAt der 0 ≠ some 0x30 then
    throwNew s!"Malformed DER signature: expected a SEQUENCE (0x30) of at least 8 bytes, got {describeByte (byteAt der 0)} ({der.length} bytes)"
  else do
    let seq ← readDerLength der 1
    let r ← readDerInteger der seq.next
    let s ← readDerInteger der r.next
    let rRaw ← derIntegerToFixedWidth r.value 32
    let sRaw ← derIntegerToFixedWidth s.value 32
    .ok (rRaw ++ sRaw)

/-! ## What is read -/

/-- The parts that are read. -/
structure ReadsDer (der : List UInt8) (seq : DerLength) (r s : DerInteger) : Prop where
  long : 8 ≤ der.length
  tag : byteAt der 0 = some 0x30
  header : readDerLength der 1 = .ok seq
  first : readDerInteger der seq.next = .ok r
  second : readDerInteger der r.next = .ok s

variable {der buf : List UInt8} {seq : DerLength} {r s : DerInteger}

theorem derToRawSignature_ok_iff {raw : List UInt8} : derToRawSignature der = .ok raw ↔
    ∃ seq r s rRaw sRaw, ReadsDer der seq r s ∧ derIntegerToFixedWidth r.value 32 = .ok rRaw ∧
      derIntegerToFixedWidth s.value 32 = .ok sRaw ∧ raw = rRaw ++ sRaw := by
  unfold derToRawSignature
  constructor
  · intro h
    split_ifs at h with hbad
    · cases h
    · obtain ⟨hlong, htag⟩ := not_or.mp hbad
      obtain ⟨seq, hseq, h⟩ := seq_ok_iff.mp h
      obtain ⟨r, hr, h⟩ := seq_ok_iff.mp h
      obtain ⟨s, hs, h⟩ := seq_ok_iff.mp h
      obtain ⟨rRaw, hrRaw, h⟩ := seq_ok_iff.mp h
      obtain ⟨sRaw, hsRaw, h⟩ := seq_ok_iff.mp h
      exact ⟨seq, r, s, rRaw, sRaw, ⟨not_lt.mp hlong, not_not.mp htag, hseq, hr, hs⟩, hrRaw, hsRaw,
        (Except.ok.inj h).symm⟩
  · rintro ⟨seq, r, s, rRaw, sRaw, h, hr, hs, rfl⟩
    rw [if_neg (not_or.mpr ⟨not_lt.mpr h.long, not_not.mpr h.tag⟩), h.header, ok_seq, h.first, ok_seq,
      h.second, ok_seq, hr, ok_seq, hs, ok_seq]

theorem and_128_eq_zero_iff (b : UInt8) : b &&& 0x80 = 0 ↔ b < 128 := by
  have hand := Nat.and_two_pow b.toNat 7
  have hb : b.toNat < 256 := b.toNat_lt
  have h128 : UInt8.toNat 128 = 2 ^ 7 := rfl
  rw [← UInt8.toNat_inj, UInt8.lt_iff_toNat_lt, UInt8.toNat_and, h128, hand,
    Nat.testBit_eq_decide_div_mod_eq]
  simp
  omega

/-- **A length in the short form.** -/
theorem readDerLength_short {offset : ℤ} {b : UInt8} (h : byteAt buf offset = some b) (hb : b < 128) :
    readDerLength buf offset = .ok { length := b.toNat, next := offset + 1 } := by
  rw [readDerLength, h]
  exact if_pos ((and_128_eq_zero_iff b).mpr hb)

theorem byteAt_append (pre : List UInt8) (b : UInt8) (post : List UInt8) :
    byteAt (pre ++ b :: post) pre.length = some b := by
  simp [byteAt]

theorem sliceBytes_append (pre content post : List UInt8) :
    sliceBytes (pre ++ (content ++ post)) pre.length (pre.length + content.length) = content := by
  have hstart : slicePosition (pre ++ (content ++ post)) pre.length = pre.length := by
    simp [slicePosition]
  have hstop : slicePosition (pre ++ (content ++ post)) (pre.length + content.length) =
      (pre ++ content).length := by
    have hneg : ¬ ((pre.length : ℤ) + content.length < 0) := by omega
    rw [slicePosition, if_neg hneg]
    simp only [List.length_append]
    omega
  rw [sliceBytes, hstart, hstop, ← List.append_assoc, List.take_left, List.drop_left]

theorem element_short (tag : UInt8) {content : List UInt8} (h : content.length < 128) :
    element tag content = tag :: UInt8.ofNat content.length :: content := by
  rw [element, derLength, if_pos h, List.cons_append, List.singleton_append]

theorem toNat_ofNat_short {n : ℕ} (h : n < 128) : (UInt8.ofNat n).toNat = n ∧ UInt8.ofNat n < 128 := by
  have hn : (UInt8.ofNat n).toNat = n := by
    rw [UInt8.toNat_ofNat', Nat.mod_eq_of_lt (by omega)]
  refine ⟨hn, ?_⟩
  rw [UInt8.lt_iff_toNat_lt, hn]
  exact h

/-- **An integer that stands somewhere is read.** -/
theorem readDerInteger_element (pre : List UInt8) {content : List UInt8} (post : List UInt8)
    (hne : content ≠ []) (hlength : content.length < 128) :
    readDerInteger (pre ++ (element 2 content ++ post)) pre.length =
      .ok { value := content, next := pre.length + 2 + content.length } := by
  obtain ⟨hvalue, hshort⟩ := toNat_ofNat_short hlength
  have htag : byteAt (pre ++ (element 2 content ++ post)) pre.length = some 2 := by
    rw [element_short 2 hlength]
    exact byteAt_append pre 2 _
  have hpre : pre ++ (element 2 content ++ post) =
      (pre ++ [2]) ++ UInt8.ofNat content.length :: (content ++ post) := by
    rw [element_short 2 hlength]
    simp
  have hread : readDerLength (pre ++ (element 2 content ++ post)) (pre.length + 1) =
      .ok { length := content.length, next := pre.length + 1 + 1 } := by
    have hbyte := byteAt_append (pre ++ [2]) (UInt8.ofNat content.length) (content ++ post)
    rw [List.length_append, List.length_singleton] at hbyte
    have h := readDerLength_short (by exact_mod_cast hbyte) hshort
    rw [hvalue] at h
    rw [hpre]
    exact_mod_cast h
  have hslice : sliceBytes (pre ++ (element 2 content ++ post)) (pre.length + 1 + 1)
      (pre.length + 1 + 1 + content.length) = content := by
    have h := sliceBytes_append (pre ++ [2, UInt8.ofNat content.length]) content post
    rw [List.length_append, List.length_cons, List.length_singleton] at h
    rw [element_short 2 hlength]
    simpa [add_assoc] using h
  have hpos : 0 < content.length := List.length_pos_iff.mpr hne
  have hfits : ¬ ((content.length : ℤ) = 0 ∨ ((pre ++ (element 2 content ++ post)).length : ℤ) <
      pre.length + 1 + 1 + content.length) := by
    rw [element_short 2 hlength]
    simp only [List.length_append, List.length_cons]
    omega
  unfold readDerInteger
  dsimp only
  rw [htag, if_neg (not_not.mpr rfl), hread, ok_seq]
  dsimp only
  rw [if_neg hfits, hslice, add_assoc (pre.length : ℤ) 1 1, one_add_one_eq_two]

theorem dropPadding_of_le {width : ℕ} {value : List UInt8} (h : value.length ≤ width) :
    dropPadding width value = value := by
  cases value with
  | nil => rfl
  | cons b bytes => exact if_neg fun hb => absurd hb.1 (not_lt.mpr h)

theorem integerLength_le {n : ℕ} (h : n < 2 ^ 256) : integerLength n ≤ 33 := by
  have hsize := Nat.size_le.mpr h
  unfold integerLength
  omega

theorem derIntegerToFixedWidth_bigEndian {n : ℕ} (h : n < 2 ^ 256) :
    derIntegerToFixedWidth (bigEndian (integerLength n) n) 32 = .ok (bigEndian 32 n) := by
  have hpow : n < 256 ^ 32 := h.trans_eq (by norm_num)
  have htrimmed : List.replicate (32 - (dropPadding 32 (bigEndian (integerLength n) n)).length) 0 ++
      dropPadding 32 (bigEndian (integerLength n) n) = bigEndian 32 n ∧
      ¬ 32 < (dropPadding 32 (bigEndian (integerLength n) n)).length := by
    rcases (integerLength_le h).lt_or_eq with hlt | heq
    · have hlength : (bigEndian (integerLength n) n).length ≤ 32 := by
        rw [length_bigEndian]
        omega
      rw [dropPadding_of_le hlength, length_bigEndian, ← bigEndian_add (lt_pow_integerLength n),
        Nat.sub_add_cancel (by omega)]
      exact ⟨rfl, by omega⟩
    · have hzero : n / 256 ^ 32 = 0 := Nat.div_eq_of_lt hpow
      have hdrop : dropPadding 32 (bigEndian 33 n) = bigEndian 32 n := by
        rw [bigEndian, hzero, dropPadding, if_pos ⟨by simp, rfl⟩]
        exact dropPadding_of_le (length_bigEndian 32 n).le
      rw [heq, hdrop, length_bigEndian]
      exact ⟨rfl, by omega⟩
  unfold derIntegerToFixedWidth
  dsimp only
  rw [if_neg htrimmed.2, htrimmed.1]

/-! ## Every signature is converted -/

theorem bigEndian_ne_nil (n : ℕ) : bigEndian (integerLength n) n ≠ [] := by
  intro h
  have hlength := congrArg List.length h
  rw [length_bigEndian] at hlength
  exact absurd hlength (Nat.succ_ne_zero _)

theorem length_element (tag : UInt8) {content : List UInt8} (h : content.length < 128) :
    (element tag content).length = content.length + 2 := by
  rw [element_short tag h, List.length_cons, List.length_cons]

theorem length_bigEndian_lt {n : ℕ} (h : n < 2 ^ 256) : (bigEndian (integerLength n) n).length < 128 := by
  rw [length_bigEndian]
  exact (integerLength_le h).trans_lt (by norm_num)

theorem length_derInteger {n : ℕ} (h : n < 2 ^ 256) : (derInteger n).length = integerLength n + 2 := by
  rw [derInteger, length_element 2 (length_bigEndian_lt h), length_bigEndian]

/-- A signature of two numbers of 256 bits has lengths in the short form. -/
theorem pairSequence_eq {m n : ℕ} (hm : m < 2 ^ 256) (hn : n < 2 ^ 256) :
    pairSequence m n = [0x30, UInt8.ofNat (integerLength m + integerLength n + 4)] ++
      (derInteger m ++ derInteger n) ∧ integerLength m + integerLength n + 4 < 128 := by
  have hlength : (derInteger m ++ derInteger n).length = integerLength m + integerLength n + 4 := by
    rw [List.length_append, length_derInteger hm, length_derInteger hn]
    omega
  have hm' := integerLength_le hm
  have hn' := integerLength_le hn
  have hshort : integerLength m + integerLength n + 4 < 128 := by omega
  refine ⟨?_, hshort⟩
  rw [pairSequence, element_short _ (hlength ▸ hshort), hlength]
  rfl

theorem length_pairSequence {m n : ℕ} (hm : m < 2 ^ 256) (hn : n < 2 ^ 256) :
    (pairSequence m n).length = integerLength m + integerLength n + 6 := by
  rw [(pairSequence_eq hm hn).1, List.length_append, List.length_append, length_derInteger hm,
    length_derInteger hn, List.length_cons, List.length_singleton]
  omega

/-- **What is read of a signature.** -/
theorem reads_pairSequence {m n : ℕ} (hm : m < 2 ^ 256) (hn : n < 2 ^ 256) :
    ReadsDer (pairSequence m n)
      { length := (integerLength m + integerLength n + 4 : ℕ), next := 2 }
      { value := bigEndian (integerLength m) m, next := 4 + integerLength m }
      { value := bigEndian (integerLength n) n, next := (pairSequence m n).length } := by
  obtain ⟨heq, hshort⟩ := pairSequence_eq hm hn
  obtain ⟨hvalue, hbyte⟩ := toNat_ofNat_short hshort
  have hlength := length_pairSequence hm hn
  have hone (k : ℕ) : 1 ≤ integerLength k := Nat.succ_pos _
  refine ⟨?_, ?_, ?_, ?_, ?_⟩
  · rw [hlength]
    linarith [hone m, hone n]
  · rw [heq]
    rfl
  · have hfirst : byteAt (pairSequence m n) 1 = some (UInt8.ofNat (integerLength m + integerLength n + 4)) := by
      rw [heq]
      rfl
    have hread := readDerLength_short hfirst hbyte
    rwa [hvalue] at hread
  · have hread := readDerInteger_element [0x30, UInt8.ofNat (integerLength m + integerLength n + 4)]
      (derInteger n) (bigEndian_ne_nil m) (length_bigEndian_lt hm)
    rw [length_bigEndian] at hread
    rw [heq]
    exact hread
  · have hread := readDerInteger_element
      ([0x30, UInt8.ofNat (integerLength m + integerLength n + 4)] ++ derInteger m) [] (bigEndian_ne_nil n)
      (length_bigEndian_lt hn)
    rw [length_bigEndian, List.append_nil, List.append_assoc, List.length_append, length_derInteger hm] at hread
    have hoffset : (([0x30, UInt8.ofNat (integerLength m + integerLength n + 4)].length +
        (integerLength m + 2) : ℕ) : ℤ) = 4 + integerLength m := by
      rw [List.length_cons, List.length_singleton]
      omega
    have hnext : (4 + integerLength m : ℤ) + 2 + integerLength n =
        (integerLength m + integerLength n + 6 : ℕ) := by omega
    rw [hoffset, hnext] at hread
    rw [hlength, heq]
    exact hread

/-- **Every signature of two numbers of 256 bits** is converted. -/
theorem derToRawSignature_pairSequence {r s : ℕ} (hr : r < 2 ^ 256) (hs : s < 2 ^ 256) :
    derToRawSignature (pairSequence r s) = .ok (bigEndian 32 r ++ bigEndian 32 s) :=
  derToRawSignature_ok_iff.mpr ⟨_, _, _, _, _, reads_pairSequence hr hs,
    derIntegerToFixedWidth_bigEndian hr, derIntegerToFixedWidth_bigEndian hs, rfl⟩

theorem derToRawSignature_pairSequence_sign :
    derToRawSignature (pairSequence 128 1) = .ok (bigEndian 32 128 ++ bigEndian 32 1) ∧
      pairSequence 128 1 = [0x30, 7, 2, 2, 0, 128, 2, 1, 1] :=
  ⟨derToRawSignature_pairSequence (by norm_num) (by norm_num), by decide⟩

/-! ## Nothing else is converted -/

/-- At most 32 bytes are left without padding. -/
def FitsRaw (value : List UInt8) : Prop := (dropPadding 32 value).length ≤ 32

/-- What the code does not check of the parts it reads. -/
structure Strict (der : List UInt8) (seq : DerLength) (r s : DerInteger) : Prop where
  /-- The three lengths are in the short form, -/
  short : ∀ offset ∈ [1, seq.next + 1, r.next + 1], ∃ b, byteAt der offset = some b ∧ b < 128
  /-- that of the sequence covers the rest of the bytes, -/
  covers : seq.length + 2 = der.length
  /-- which end with the second integer, -/
  ends : s.next = der.length
  /-- and both integers are minimal and not negative. -/
  minimal : Minimal r.value ∧ Minimal s.value

theorem ofBytes_dropPadding (width : ℕ) (value : List UInt8) :
    ofBytes (dropPadding width value) = ofBytes value := by
  induction value with
  | nil => rfl
  | cons b bytes ih =>
    rw [dropPadding]
    split_ifs with h
    · rw [ih, ofBytes_cons, h.2]
      simp
    · rfl

theorem FitsRaw.lt {value : List UInt8} (h : FitsRaw value) : ofBytes value < 2 ^ 256 := by
  have hlt := ofBytes_lt (dropPadding 32 value)
  rw [ofBytes_dropPadding] at hlt
  exact hlt.trans_le ((Nat.pow_le_pow_right (by norm_num) h).trans_eq (by norm_num))

theorem fits_iff {value : List UInt8} :
    FitsRaw value ↔ ∃ raw, derIntegerToFixedWidth value 32 = .ok raw := by
  unfold FitsRaw derIntegerToFixedWidth
  dsimp only
  constructor
  · intro h
    exact ⟨_, if_neg (not_lt.mpr h)⟩
  · rintro ⟨raw, h⟩
    by_contra hlt
    rw [if_pos (not_le.mp hlt)] at h
    cases h

/-- Minimal bytes are the content of an integer. -/
theorem element_of_minimal {value : List UInt8} (h : Minimal value) :
    element 2 value = derInteger (ofBytes value) := by
  rw [derInteger, (minimal_iff value).mp h, bigEndian_ofBytes]

theorem drop_of_byteAt {b : UInt8} {i : ℕ} (h : byteAt buf i = some b) :
    buf.drop i = b :: buf.drop (i + 1) := by
  have hget : buf[i]? = some b := by
    rwa [byteAt, if_neg (by omega), Int.toNat_natCast] at h
  obtain ⟨hlt, hb⟩ := List.getElem?_eq_some_iff.mp hget
  rw [List.drop_eq_getElem_cons hlt, hb]

theorem sliceBytes_eq {i n : ℕ} (h : i + n ≤ buf.length) :
    sliceBytes buf i (i + n) = (buf.drop i).take n := by
  have hstart : slicePosition buf i = i := by
    rw [slicePosition, if_neg (by omega), Int.toNat_natCast, Nat.min_eq_left (by omega)]
  have hstop : slicePosition buf (i + n) = i + n := by
    rw [slicePosition, if_neg (by omega)]
    omega
  rw [sliceBytes, hstart, hstop, List.drop_take, Nat.add_sub_cancel_left]

/-- **Where an integer is read there is one**, if its length is in the short form. -/
theorem drop_of_readDerInteger {i : ℕ} {e : DerInteger} {b : UInt8} (h : readDerInteger buf i = .ok e)
    (hb : byteAt buf (i + 1) = some b) (hshort : b < 128) :
    buf.drop i = element 2 e.value ++ buf.drop (i + 2 + e.value.length) ∧ e.value.length < 128 ∧
      e.next = (i + 2 + e.value.length : ℕ) := by
  unfold readDerInteger at h
  dsimp only at h
  split_ifs at h with htag
  · cases h
  · rw [readDerLength_short hb hshort, ok_seq] at h
    dsimp only at h
    split_ifs at h with hlength
    · cases h
    · obtain rfl := Except.ok.inj h
      obtain ⟨hpos, hfits⟩ := not_or.mp hlength
      have hvalue := sliceBytes_eq (show i + 2 + b.toNat ≤ buf.length by omega)
      have hstart : ((i + 2 : ℕ) : ℤ) = i + 1 + 1 := by omega
      rw [hstart] at hvalue
      have hcontent : ((buf.drop (i + 2)).take b.toNat).length = b.toNat := by
        rw [List.length_take, List.length_drop]
        omega
      have hb128 : b.toNat < 128 := UInt8.lt_iff_toNat_lt.mp hshort
      have hbyte : byteAt buf (i + 1 : ℕ) = some b := by exact_mod_cast hb
      have hsplit : buf.drop (i + 2) = (buf.drop (i + 2)).take b.toNat ++ buf.drop (i + 2 + b.toNat) := by
        have htake := List.take_append_drop b.toNat (buf.drop (i + 2))
        rw [List.drop_drop] at htake
        exact htake.symm
      dsimp only
      rw [hvalue, hcontent, element_short 2 (hcontent.trans_lt hb128), hcontent, UInt8.ofNat_toNat]
      refine ⟨?_, hb128, by omega⟩
      calc buf.drop i = 2 :: b :: buf.drop (i + 2) := by
            rw [drop_of_byteAt (not_not.mp htag), drop_of_byteAt hbyte]
        _ = 2 :: b :: ((buf.drop (i + 2)).take b.toNat ++ buf.drop (i + 2 + b.toNat)) := by rw [← hsplit]

/-- A signature meets all that is not checked. -/
theorem strict_of_reads {m n : ℕ} (hm : m < 2 ^ 256) (hn : n < 2 ^ 256)
    (h : ReadsDer (pairSequence m n) seq r s) : Strict (pairSequence m n) seq r s := by
  have hreads := reads_pairSequence hm hn
  obtain rfl := Except.ok.inj (h.header.symm.trans hreads.header)
  obtain rfl := Except.ok.inj (h.first.symm.trans hreads.first)
  obtain rfl := Except.ok.inj (h.second.symm.trans hreads.second)
  obtain ⟨heq, hshort⟩ := pairSequence_eq hm hn
  have hbyte {k : ℕ} (hk : k < 2 ^ 256) : derInteger k =
      2 :: UInt8.ofNat (integerLength k) :: bigEndian (integerLength k) k := by
    rw [derInteger, element_short 2 (length_bigEndian_lt hk), length_bigEndian]
  have hlow {k : ℕ} (hk : k < 2 ^ 256) : UInt8.ofNat (integerLength k) < 128 :=
    (toNat_ofNat_short ((integerLength_le hk).trans_lt (by norm_num))).2
  refine ⟨fun offset hoffset => ?_, ?_, rfl, minimal_bigEndian m, minimal_bigEndian n⟩
  · simp only [List.mem_cons, List.not_mem_nil, or_false] at hoffset
    rcases hoffset with rfl | rfl | rfl
    · exact ⟨_, (by rw [heq]; rfl), (toNat_ofNat_short hshort).2⟩
    · exact ⟨_, (by rw [heq, hbyte hm]; rfl), hlow hm⟩
    · refine ⟨_, ?_, hlow hn⟩
      have hat := byteAt_append ([0x30, UInt8.ofNat (integerLength m + integerLength n + 4)] ++
        (derInteger m ++ [2])) (UInt8.ofNat (integerLength n)) (bigEndian (integerLength n) n)
      have hoffset : ((([0x30, UInt8.ofNat (integerLength m + integerLength n + 4)] ++
          (derInteger m ++ [2])).length : ℕ) : ℤ) = 4 + integerLength m + 1 := by
        rw [List.length_append, List.length_append, length_derInteger hm, List.length_cons,
          List.length_singleton, List.length_singleton]
        omega
      rw [hoffset] at hat
      rw [heq, hbyte hn, ← hat]
      simp
  · rw [length_pairSequence hm hn]
    dsimp only
    omega

/-- **What is read is all there is**, if all that is not checked holds. -/
theorem eq_of_strict (h : ReadsDer der seq r s) (hstrict : Strict der seq r s) :
    der = pairSequence (ofBytes r.value) (ofBytes s.value) := by
  obtain ⟨b, hb, hb128⟩ := hstrict.short 1 List.mem_cons_self
  obtain rfl := Except.ok.inj (h.header.symm.trans (readDerLength_short hb hb128))
  obtain ⟨br, hbr, hbr128⟩ := hstrict.short _ (List.mem_cons_of_mem _ List.mem_cons_self)
  obtain ⟨bs, hbs, hbs128⟩ := hstrict.short _ (List.mem_cons_of_mem _ (List.mem_cons_of_mem _ List.mem_cons_self))
  obtain ⟨hfirst, hr128, hrnext⟩ := drop_of_readDerInteger (i := 2) h.first hbr hbr128
  have hsecond := h.second
  rw [hrnext] at hsecond hbs
  obtain ⟨hsecond, hs128, hsnext⟩ := drop_of_readDerInteger hsecond hbs hbs128
  have hends := hstrict.ends
  have hcovers := hstrict.covers
  rw [hsnext] at hends
  dsimp only at hcovers
  have hcontent : der.drop 2 = element 2 r.value ++ element 2 s.value := by
    rw [hfirst, hsecond, List.drop_eq_nil_of_le (by omega), List.append_nil]
  have hlength : (element 2 r.value ++ element 2 s.value).length = b.toNat := by
    rw [List.length_append, length_element 2 hr128, length_element 2 hs128]
    omega
  have hb' : b.toNat < 128 := UInt8.lt_iff_toNat_lt.mp hb128
  rw [pairSequence, ← element_of_minimal hstrict.minimal.1, ← element_of_minimal hstrict.minimal.2,
    element_short _ (hlength.trans_lt hb'), hlength, UInt8.ofNat_toNat, ← hcontent]
  calc der = der.drop 0 := rfl
    _ = 0x30 :: der.drop 1 := drop_of_byteAt h.tag
    _ = 0x30 :: b :: der.drop 2 := by rw [drop_of_byteAt (i := 1) hb]

/-- **Only signatures are converted** exactly when what is not checked holds of all that is read. -/
theorem derToRawSignature_only_iff (der : List UInt8) :
    ((derToRawSignature der).isOk = true → ∃ r < 2 ^ 256, ∃ s < 2 ^ 256, der = pairSequence r s) ↔
      ∀ seq r s, ReadsDer der seq r s → FitsRaw r.value → FitsRaw s.value → Strict der seq r s := by
  constructor
  · intro h seq r s hreads hr hs
    obtain ⟨rRaw, hrRaw⟩ := fits_iff.mp hr
    obtain ⟨sRaw, hsRaw⟩ := fits_iff.mp hs
    have hok := derToRawSignature_ok_iff.mpr ⟨seq, r, s, rRaw, sRaw, hreads, hrRaw, hsRaw, rfl⟩
    obtain ⟨m, hm, n, hn, rfl⟩ := h (by rw [hok]; rfl)
    exact strict_of_reads hm hn hreads
  · intro h hok
    obtain ⟨raw, hraw⟩ := ok_of_isOk hok
    obtain ⟨seq, r, s, rRaw, sRaw, hreads, hr, hs, -⟩ := derToRawSignature_ok_iff.mp hraw
    have hrfits := fits_iff.mpr ⟨rRaw, hr⟩
    have hsfits := fits_iff.mpr ⟨sRaw, hs⟩
    exact ⟨_, hrfits.lt, _, hsfits.lt, eq_of_strict hreads (h seq r s hreads hrfits hsfits)⟩

/-- Bytes behind the signature are ignored. -/
theorem derToRawSignature_trailing :
    ¬ ((derToRawSignature [0x30, 6, 2, 1, 1, 2, 1, 1, 0]).isOk = true →
      ∃ r < 2 ^ 256, ∃ s < 2 ^ 256, [0x30, 6, 2, 1, 1, 2, 1, 1, 0] = pairSequence r s) := by
  intro h
  obtain ⟨m, hm, n, hn, heq⟩ := h (by decide)
  obtain ⟨hpair, hshort⟩ := pairSequence_eq hm hn
  have hlength := congrArg List.length heq
  rw [length_pairSequence hm hn] at hlength
  have hseven : integerLength m + integerLength n + 4 = 7 := by
    simp only [List.length_cons, List.length_nil] at hlength
    omega
  rw [hpair, hseven] at heq
  have hbyte : (6 : UInt8) = UInt8.ofNat 7 := (List.cons.inj (List.cons.inj heq).2).1
  exact absurd hbyte (by decide)

end StreamFi
