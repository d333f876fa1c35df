import Mathlib

/-!
# DER

The distinguished encoding of natural numbers and of pairs of them.

* `bigEndian`, `ofBytes`: the bytes of a number, and the number of some bytes;
  **`bigEndian_ofBytes`**, `ofBytes_bigEndian`;
* `integerLength`: how many bytes a number has as an `INTEGER`, with its sign;
  `Minimal`: bytes none of which can go; **`exists_of_minimal`**, `minimal_integer`;
* `derLength`, `element`, `derInteger`, `pairSequence`: the encodings.
-/

namespace Der

/-! ## Bytes -/

/-- The last `width` bytes of a number, the first one first. -/
def bigEndian : ℕ → ℕ → List UInt8
  | 0, _ => []
  | width + 1, n => UInt8.ofNat (n / 256 ^ width) :: bigEndian width n

def ofBytes (bytes : List UInt8) : ℕ := bytes.foldl (fun n b => n * 256 + b.toNat) 0

@[simp] theorem length_bigEndian (width n : ℕ) : (bigEndian width n).length = width := by
  induction width with
  | zero => rfl
  | succ width ih => rw [bigEndian, List.length_cons, ih]

/-- Bytes in front of the number are zero. -/
theorem bigEndian_add {width n : ℕ} (h : n < 256 ^ width) (k : ℕ) :
    bigEndian (k + width) n = List.replicate k 0 ++ bigEndian width n := by
  induction k with
  | zero => rw [Nat.zero_add, List.replicate_zero, List.nil_append]
  | succ k ih =>
    have hzero : n / 256 ^ (k + width) = 0 :=
      Nat.div_eq_of_lt (h.trans_le (Nat.pow_le_pow_right (by norm_num) (Nat.le_add_left width k)))
    rw [Nat.succ_add, bigEndian, hzero, ih, List.replicate_succ, List.cons_append]
    rfl

/-- Only the last bytes count. -/
theorem bigEndian_add_mul (width n k : ℕ) : bigEndian width (n + k * 256 ^ width) = bigEndian width n := by
  induction width generalizing k with
  | zero => rfl
  | succ width ih =>
    have hpos : 0 < 256 ^ width := Nat.pow_pos (by norm_num)
    have hsum : n + k * 256 ^ (width + 1) = n + k * 256 * 256 ^ width := by
      rw [pow_succ]
      ring
    have hbyte : UInt8.ofNat (n / 256 ^ width + k * 256) = UInt8.ofNat (n / 256 ^ width) := by
      apply UInt8.toNat_inj.mp
      rw [UInt8.toNat_ofNat', UInt8.toNat_ofNat']
      exact Nat.add_mul_mod_self_right _ _ _
    rw [bigEndian, bigEndian, hsum, Nat.add_mul_div_right _ _ hpos, hbyte, ih]

theorem ofBytes_cons (b : UInt8) (bytes : List UInt8) :
    ofBytes (b :: bytes) = b.toNat * 256 ^ bytes.length + ofBytes bytes := by
  have hfold (n : ℕ) : bytes.foldl (fun n b => n * 256 + b.toNat) n =
      n * 256 ^ bytes.length + ofBytes bytes := by
    unfold ofBytes
    induction bytes generalizing n with
    | nil => simp
    | cons c bytes ih =>
      rw [List.foldl_cons, List.foldl_cons, ih, ih (0 * 256 + c.toNat), List.length_cons, pow_succ]
      ring
  rw [ofBytes, List.foldl_cons, hfold]
  ring

theorem ofBytes_lt (bytes : List UInt8) : ofBytes bytes < 256 ^ bytes.length := by
  induction bytes with
  | nil => exact Nat.one_pos
  | cons b bytes ih =>
    have hb : b.toNat < 256 := b.toNat_lt
    rw [ofBytes_cons, List.length_cons, pow_succ]
    nlinarith

/-- **Bytes are those of their number.** -/
theorem bigEndian_ofBytes (bytes : List UInt8) : bigEndian bytes.length (ofBytes bytes) = bytes := by
  induction bytes with
  | nil => rfl
  | cons b bytes ih =>
    have hpos : 0 < 256 ^ bytes.length := Nat.pow_pos (by norm_num)
    rw [List.length_cons, bigEndian, ofBytes_cons, Nat.add_comm, bigEndian_add_mul, ih,
      Nat.add_mul_div_right _ _ hpos, Nat.div_eq_of_lt (ofBytes_lt bytes), Nat.zero_add, UInt8.ofNat_toNat]

theorem ofBytes_bigEndian (width n : ℕ) : ofBytes (bigEndian width n) = n % 256 ^ width := by
  induction width with
  | zero => rw [pow_zero, Nat.mod_one]; rfl
  | succ width ih =>
    rw [bigEndian, ofBytes_cons, length_bigEndian, ih, pow_succ, Nat.mod_mul, UInt8.toNat_ofNat']
    ring

/-! ## Integers -/

/-- The bytes of a number with a sign bit in front of it. -/
def integerLength (n : ℕ) : ℕ := n.size / 8 + 1

/-- Not negative, and no byte too many. -/
def Minimal : List UInt8 → Prop
  | [] => False
  | [b] => b < 128
  | b :: c :: _ => b < 128 ∧ (b = 0 → 128 ≤ c)

instance : DecidablePred Minimal
  | [] => inferInstanceAs (Decidable False)
  | [b] => inferInstanceAs (Decidable (b < 128))
  | b :: c :: _ => inferInstanceAs (Decidable (b < 128 ∧ (b = 0 → 128 ≤ c)))

theorem lt_pow_integerLength (n : ℕ) : n < 256 ^ integerLength n := by
  have hsize : n < 2 ^ n.size := Nat.lt_size_self n
  have hpow : (256 : ℕ) ^ integerLength n = 2 ^ (8 * integerLength n) := by
    rw [pow_mul]
    norm_num
  rw [hpow]
  exact hsize.trans_le (Nat.pow_le_pow_right (by norm_num) (by unfold integerLength; omega))

theorem integerLength_eq_succ_iff {n k : ℕ} :
    integerLength n = k + 2 ↔ 128 * 256 ^ k ≤ n ∧ n < 128 * (256 * 256 ^ k) := by
  have hpow (j : ℕ) : 2 ^ (8 * k + j) = 256 ^ k * 2 ^ j := by
    rw [pow_add, pow_mul]
    norm_num
  have hlow : 128 * 256 ^ k ≤ n ↔ 8 * k + 7 < n.size := by
    rw [Nat.lt_size, hpow]
    norm_num [mul_comm]
  have hhigh : n < 128 * (256 * 256 ^ k) ↔ n.size ≤ 8 * k + 15 := by
    rw [Nat.size_le, hpow, ← mul_assoc, mul_comm]
    norm_num
  rw [hlow, hhigh, integerLength]
  omega

theorem integerLength_eq_one_iff {n : ℕ} : integerLength n = 1 ↔ n < 128 := by
  have hsize : n < 128 ↔ n.size ≤ 7 := by
    rw [Nat.size_le]
  rw [hsize, integerLength]
  omega

/-- **Bytes are minimal** when their number has no fewer. -/
theorem minimal_iff (bytes : List UInt8) : Minimal bytes ↔ integerLength (ofBytes bytes) = bytes.length := by
  rcases bytes with _ | ⟨b, _ | ⟨c, bytes⟩⟩
  · unfold integerLength
    simp [Minimal]
  · rw [List.length_singleton, integerLength_eq_one_iff, ofBytes_cons]
    simp [Minimal, ofBytes, UInt8.lt_iff_toNat_lt]
  · have hrest := ofBytes_lt bytes
    rw [List.length_cons, List.length_cons, integerLength_eq_succ_iff, ofBytes_cons, ofBytes_cons,
      List.length_cons, pow_succ, Minimal, UInt8.lt_iff_toNat_lt, UInt8.le_iff_toNat_le,
      ← UInt8.toNat_inj]
    have hc : c.toNat < 256 := c.toNat_lt
    set P := 256 ^ bytes.length with hP
    have hpos : 0 < P := Nat.pow_pos (by norm_num)
    have hdiv : (b.toNat * (P * 256) + (c.toNat * P + ofBytes bytes)) / P = b.toNat * 256 + c.toNat := by
      rw [show b.toNat * (P * 256) + (c.toNat * P + ofBytes bytes) =
          ofBytes bytes + (b.toNat * 256 + c.toNat) * P by ring,
        Nat.add_mul_div_right _ _ hpos, Nat.div_eq_of_lt hrest, Nat.zero_add]
    rw [← Nat.le_div_iff_mul_le hpos, ← Nat.mul_assoc 128 256 P, ← Nat.div_lt_iff_lt_mul hpos, hdiv]
    have hnum : (128 : UInt8).toNat = 128 ∧ (0 : UInt8).toNat = 0 := ⟨rfl, rfl⟩
    rw [hnum.1, hnum.2]
    omega

theorem minimal_bigEndian (n : ℕ) : Minimal (bigEndian (integerLength n) n) := by
  rw [minimal_iff, length_bigEndian, ofBytes_bigEndian, Nat.mod_eq_of_lt (lt_pow_integerLength n)]

/-! ## Encodings -/

/-- A length, in one byte if it fits into seven bits. -/
def derLength (n : ℕ) : List UInt8 :=
  if n < 128 then [UInt8.ofNat n]
  else UInt8.ofNat (128 + (n.size + 7) / 8) :: bigEndian ((n.size + 7) / 8) n

/-- Tag, length and content. -/
def element (tag : UInt8) (content : List UInt8) : List UInt8 :=
  tag :: derLength content.length ++ content

def derInteger (n : ℕ) : List UInt8 := element 2 (bigEndian (integerLength n) n)

/-- `SEQUENCE { r INTEGER, s INTEGER }`. -/
def pairSequence (r s : ℕ) : List UInt8 := element 0x30 (derInteger r ++ derInteger s)

end Der
