import StreamFi.Js.Encoding
import StreamFi.Run.Feed

/-!
# The text decoder

A `TextDecoder` decodes UTF-8 bytes as they come in. An unfinished character waits for its last bytes,
and a byte order mark at the very start is dropped.

* `TextDecoder.decode`: the next bytes, with **`TextDecoder.decode_append`**;
* `textOf`: the text of a whole body, with `textOf_eq`.
-/

namespace Js

open Run

structure TextDecoder where
  utf8 : Utf8 := {}
  bomSeen : Bool := false
  deriving DecidableEq

/-- The first character is dropped if it is a byte order mark. -/
def stripBom (bomSeen : Bool) (c : Char) : List Char × Bool :=
  (if bomSeen = false ∧ c = Char.ofNat 0xFEFF then [] else [c], true)

def Utf8.feedByte (u : Utf8) (b : UInt8) : List Char × Utf8 := u.feed b.toNat

/-- What is written for an unfinished character at the end. -/
def Utf8.flush (u : Utf8) : List Char := if u.owed = 0 then [] else [replacement]

/-- `decoder.decode(value, { stream: true })`. -/
def TextDecoder.decode (d : TextDecoder) (value : List UInt8) : List Char × TextDecoder where
  fst := (feedAll stripBom d.bomSeen (feedAll Utf8.feedByte d.utf8 value).1).1
  snd := {
    utf8 := (feedAll Utf8.feedByte d.utf8 value).2
    bomSeen := (feedAll stripBom d.bomSeen (feedAll Utf8.feedByte d.utf8 value).1).2 }

/-- `new TextDecoder().decode(body)`. -/
def textOf (body : List UInt8) : List Char := (feedAll stripBom false (utf8Decode body)).1

/-- **The text does not depend on where the bytes are cut.** -/
theorem TextDecoder.decode_append (d : TextDecoder) (bs bs' : List UInt8) :
    d.decode (bs ++ bs') =
      ((d.decode bs).1 ++ ((d.decode bs).2.decode bs').1, ((d.decode bs).2.decode bs').2) := by
  simp only [TextDecoder.decode, feedAll_append]

theorem Utf8.decode_eq (u : Utf8) (bs : List UInt8) :
    u.decode bs = (feedAll Utf8.feedByte u bs).1 ++ (feedAll Utf8.feedByte u bs).2.flush := by
  induction bs generalizing u with
  | nil => rfl
  | cons b bs ih =>
    rw [Utf8.decode, ih, feedAll, List.append_assoc]
    rfl

theorem Utf8.flush_eq (u : Utf8) : u.flush = [] ∨ u.flush = [replacement] := by
  rw [Utf8.flush]
  split_ifs
  · exact .inl rfl
  · exact .inr rfl

theorem Utf8.newline_not_mem_flush (u : Utf8) : '\n' ∉ u.flush := by
  rcases u.flush_eq with h | h <;> rw [h] <;> decide

theorem stripBom_flush (bomSeen : Bool) (u : Utf8) :
    (feedAll stripBom bomSeen u.flush).1 = u.flush := by
  rcases u.flush_eq with h | h <;> rw [h] <;> cases bomSeen <;> decide

/-- The text of a body is what is decoded as it comes in, and what is left at its end. -/
theorem textOf_eq (body : List UInt8) :
    textOf body = (TextDecoder.decode {} body).1 ++ (TextDecoder.decode {} body).2.utf8.flush := by
  rw [textOf, utf8Decode, Utf8.decode_eq, feedAll_append, stripBom_flush]
  rfl

end Js
