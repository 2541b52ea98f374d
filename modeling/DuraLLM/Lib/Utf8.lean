import Mathlib.Data.String.Basic

/-! # Texts as bytes

UTF-8 with bytes in a list.  Only well-formed bytes decode: no overlong form,
no surrogate, nothing past the last code point.
-/

namespace Utf8

abbrev Bytes := List UInt8

/-- `text.encode("utf-8")` -/
def encode (text : String) : Bytes := text.toList.flatMap String.utf8EncodeChar

/-- `bytes.decode("utf-8")`, when that does not raise. -/
def decode (bytes : Bytes) : Option String := String.fromUTF8? bytes.toByteArray

@[simp] theorem encode_empty : encode "" = [] := rfl

@[simp] theorem encode_append (s t : String) : encode (s ++ t) = encode s ++ encode t := by
  simp [encode]

theorem toByteArray_encode (text : String) : (encode text).toByteArray = text.toByteArray := by
  have whole : (String.ofList text.toList).toByteArray = text.toList.utf8Encode :=
    String.toByteArray_ofList
  rw [String.ofList_toList] at whole
  rw [whole, List.utf8Encode, encode]

theorem toByteArray_inj {a b : Bytes} (same : a.toByteArray = b.toByteArray) : a = b := by
  have data := congrArg ByteArray.data same
  simpa [List.data_toByteArray] using data

theorem decode_eq_some_iff (bytes : Bytes) (text : String) :
    decode bytes = some text ↔ bytes = encode text := by
  simp only [decode, String.fromUTF8?]
  split
  · next valid =>
    rw [Option.some.injEq, ← String.toByteArray_inj]
    constructor
    · intro same
      exact toByteArray_inj (same.trans (toByteArray_encode text).symm)
    · rintro rfl
      exact toByteArray_encode text
  · next invalid =>
    simp only [reduceCtorEq, false_iff]
    rintro rfl
    exact invalid (toByteArray_encode text ▸ text.isValidUTF8)

@[simp] theorem decode_encode (text : String) : decode (encode text) = some text :=
  (decode_eq_some_iff _ _).mpr rfl

theorem encode_injective : Function.Injective encode :=
  fun s t same => by simpa using congrArg decode same

theorem decode_append {a b : Bytes} {s t : String} (first : decode a = some s)
    (second : decode b = some t) : decode (a ++ b) = some (s ++ t) := by
  rw [decode_eq_some_iff] at first second ⊢
  rw [first, second, encode_append]

/-- The encoding of a character has the byte of an ASCII character only when it
    is that character. -/
theorem mem_utf8EncodeChar {byte : UInt8} (ascii : byte.toNat < 128) (c : Char) :
    byte ∈ String.utf8EncodeChar c ↔ c.toNat = byte.toNat := by
  have value : c.val.toNat = c.toNat := rfl
  simp only [String.utf8EncodeChar, value]
  split_ifs <;> simp only [List.mem_cons, List.not_mem_nil, or_false, ← UInt8.toNat_inj,
    UInt8.toNat_ofNat'] <;> omega

theorem mem_encode {byte : UInt8} (ascii : byte.toNat < 128) (text : String) :
    byte ∈ encode text ↔ ∃ c ∈ text.toList, c.toNat = byte.toNat := by
  simp only [encode, List.mem_flatMap, mem_utf8EncodeChar ascii]

end Utf8
