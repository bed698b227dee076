import Mathlib.Data.List.Basic

/-!
# UTF-8

Texts and their bytes, as lists.  A text decodes to itself (`decode_encode`),
nothing else is decoded to it (`encode_of_decode`), and what the first bytes of
a text decode to, if they decode at all, is the beginning of the text
(`prefix_of_decode`).
-/

namespace Utf8

/-- `text.encode()` -/
def encode (text : List Char) : List UInt8 := text.flatMap String.utf8EncodeChar

/-- `data.decode()` -/
def decode (bytes : List UInt8) : Option (List Char) :=
  bytes.toByteArray.utf8Decode?.map Array.toList

theorem toByteArray_encode (text : List Char) : (encode text).toByteArray = text.utf8Encode := rfl

theorem toByteArray_inj {bytes bytes' : List UInt8} (h : bytes.toByteArray = bytes'.toByteArray) :
    bytes = bytes' := by
  have hdata := congrArg (fun array => array.data.toList) h
  simpa using hdata

theorem decode_encode (text : List Char) : decode (encode text) = some text := by
  rw [decode, toByteArray_encode, List.utf8Decode?_utf8Encode]
  simp

theorem encode_injective {text text' : List Char} (h : encode text = encode text') :
    text = text' := by
  have hdecode := congrArg decode h
  rw [decode_encode, decode_encode] at hdecode
  exact Option.some.inj hdecode

theorem encode_of_decode {bytes : List UInt8} {text : List Char} (h : decode bytes = some text) :
    encode text = bytes := by
  obtain ⟨chars, hchars, rfl⟩ := Option.map_eq_some_iff.mp h
  have hsome : bytes.toByteArray.utf8Decode?.isSome := by simp [hchars]
  have hbytes := ByteArray.utf8Encode_get_utf8Decode? (h := hsome)
  simp only [hchars, Option.get_some] at hbytes
  exact toByteArray_inj hbytes

theorem encode_append (first second : List Char) :
    encode (first ++ second) = encode first ++ encode second :=
  List.flatMap_append

theorem encode_ne_nil {text : List Char} (h : text ≠ []) : encode text ≠ [] := by
  intro hnil
  cases text with
  | nil => exact h rfl
  | cons c rest => exact String.utf8EncodeChar_ne_nil (List.append_eq_nil_iff.mp hnil).1

/-- A character takes four bytes at most. -/
theorem length_encode_le (text : List Char) : (encode text).length ≤ 4 * text.length := by
  induction text with
  | nil => exact Nat.le_refl 0
  | cons c rest ih =>
      have hc := c.utf8Size_le_four
      have hlength : (encode (c :: rest)).length = c.utf8Size + (encode rest).length := by
        rw [← String.length_utf8EncodeChar]
        exact List.length_append
      rw [hlength, List.length_cons]
      omega

/-- What the beginning of a text's bytes decodes to is the beginning of the text. -/
theorem prefix_of_decode {first rest : List UInt8} {text whole : List Char}
    (h : decode first = some text) (hwhole : encode whole = first ++ rest) :
    ∃ tail, whole = text ++ tail ∧ encode tail = rest := by
  obtain rfl := encode_of_decode h
  have hbytes : text.utf8Encode ++ rest.toByteArray = whole.utf8Encode := by
    rw [← toByteArray_encode whole, hwhole, List.toByteArray_append]
    rfl
  obtain ⟨tail, rfl⟩ := List.isPrefix_of_utf8Encode_append_eq_utf8Encode _ hbytes
  rw [encode_append] at hwhole
  exact ⟨tail, rfl, List.append_cancel_left hwhole⟩

end Utf8
