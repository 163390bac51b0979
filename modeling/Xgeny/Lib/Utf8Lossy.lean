import Xgeny.Lib.Utf8

set_option autoImplicit false

/-!
# Lenient decoding

Bytes that are not a text are decoded all the same. Where no character can be read, the longest run of
bytes that begins one, or a single byte, becomes one replacement character.

* `decodeLossy`: the decoding; `brokenLength`: the bytes that become one replacement character;
* **`decodeLossy_encode`**: the bytes of a text are decoded to it.
-/

namespace Utf8

/-- The replacement character. -/
def replacement : Char := '\ufffd'

def isContinuation (b : UInt8) : Bool := 0x80 ≤ b && b ≤ 0xBF

/-- The second byte may follow the first one in a character of three or four bytes. -/
def startsWide (first second : UInt8) : Bool :=
  if first == 0xE0 then 0xA0 ≤ second && second ≤ 0xBF
  else if first == 0xED then 0x80 ≤ second && second ≤ 0x9F
  else if first == 0xF0 then 0x90 ≤ second && second ≤ 0xBF
  else if first == 0xF4 then 0x80 ≤ second && second ≤ 0x8F
  else 0xE1 ≤ first && first ≤ 0xF3 && isContinuation second

/-- The bytes at the front of a text, which no character is read from, that are replaced together. -/
def brokenLength : List UInt8 → ℕ
  | first :: second :: third :: _ =>
    if startsWide first second then if 0xF0 ≤ first && isContinuation third then 3 else 2 else 1
  | [first, second] => if startsWide first second then 2 else 1
  | _ => 1

/-- The decoding after a few bytes that have been read already. -/
def lossyFrom : ℕ → List UInt8 → List Char
  | _, [] => []
  | skip + 1, _ :: rest => lossyFrom skip rest
  | 0, b :: rest =>
    match (b :: rest).toByteArray.utf8DecodeChar? 0 with
    | some c => c :: lossyFrom (c.utf8Size - 1) rest
    | none => replacement :: lossyFrom (brokenLength (b :: rest) - 1) rest

/-- `String::from_utf8_lossy`. -/
def decodeLossy (bytes : List UInt8) : List Char := lossyFrom 0 bytes

theorem lossyFrom_append {a b : List UInt8} : lossyFrom a.length (a ++ b) = lossyFrom 0 b := by
  induction a with
  | nil => rfl
  | cons x a ih => exact ih

/-- **Nothing is replaced in a text.** -/
theorem decodeLossy_encode (cs : List Char) : decodeLossy (encode cs) = cs := by
  induction cs with
  | nil => rfl
  | cons c cs ih =>
    obtain ⟨b, bytes, hc⟩ := List.exists_cons_of_ne_nil (String.utf8EncodeChar_ne_nil (c := c))
    have hdecode : (b :: (bytes ++ encode cs)).toByteArray.utf8DecodeChar? 0 = some c := by
      rw [← List.cons_append, ← hc, List.toByteArray_append]
      exact ByteArray.utf8DecodeChar?_utf8EncodeChar_append
    have hlength : c.utf8Size - 1 = bytes.length := by
      rw [← String.length_utf8EncodeChar, hc]
      rfl
    rw [decodeLossy, encode_cons, hc, List.cons_append, lossyFrom, hdecode]
    dsimp only
    rw [hlength, lossyFrom_append]
    exact congrArg _ ih

end Utf8
