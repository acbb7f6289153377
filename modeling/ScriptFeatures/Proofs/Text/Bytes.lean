import ScriptFeatures.Text.Lines

/-! The bytes of a text. A string gives its bytes as an array that is turned into a list one index
at a time; the list is the encodings of its characters in order. -/

namespace ScriptFeatures.Text

theorem toList_loop (bytes : ByteArray) (i : Nat) (read : List UInt8) :
    ByteArray.toList.loop bytes i read = read.reverse ++ bytes.data.toList.drop i := by
  induction i, read using ByteArray.toList.loop.induct bytes with
  | case1 i read h ih =>
    have hlt : i < bytes.data.toList.length := h
    have hget : bytes.get! i = bytes.data.toList[i] := getElem!_pos bytes.data i h
    rw [ByteArray.toList.loop, if_pos h, ih, List.reverse_cons, List.append_assoc, hget,
      List.drop_eq_getElem_cons hlt]
    rfl
  | case2 i read h =>
    have hle : bytes.data.toList.length ≤ i := Nat.not_lt.mp h
    rw [ByteArray.toList.loop, if_neg h, List.drop_eq_nil_of_le hle, List.append_nil]

theorem toList_eq_data (bytes : ByteArray) : bytes.toList = bytes.data.toList := by
  rw [ByteArray.toList, toList_loop]
  rfl

theorem length_toUTF8 (text : String) : text.toUTF8.toList.length = text.utf8ByteSize := by
  rw [toList_eq_data]
  rfl

/-- The bytes of a text are the encodings of its characters. -/
theorem toUTF8_ofList (text : List Char) :
    (String.ofList text).toUTF8.toList = text.flatMap String.utf8EncodeChar := by
  rw [toList_eq_data, String.toUTF8_eq_toByteArray, String.toByteArray_ofList, List.utf8Encode,
    List.toList_data_toByteArray]

theorem decode?_encode (text : String) : decode? (encode text) = some text := by
  have hbytes : (⟨(encode text).toArray⟩ : ByteArray) = text.toByteArray := by
    rw [encode, toList_eq_data, Array.toArray_toList]
    rfl
  rw [decode?, hbytes, String.fromUTF8?, dif_pos text.isValidUTF8]
  rfl

theorem encode_of_decode? {bytes : List UInt8} {text : String} (h : decode? bytes = some text) :
    encode text = bytes := by
  rw [decode?, String.fromUTF8?] at h
  split at h
  · cases h
    rw [encode, toList_eq_data]
    rfl
  · cases h

end ScriptFeatures.Text
