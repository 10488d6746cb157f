import PacketLayer.Text.Utf8

/-! # Text in octets

Reading the octets of a text gives the text back. Each character has octets of its own, and
those of a line feed occur in no other.
-/

namespace PacketLayer.Text.Utf8

/-- Octets that begin with those of a character are read as beginning with it. -/
theorem first?_encoded (c : Char) (rest : Bytes) :
    first? (String.utf8EncodeChar c ++ rest) = some c := by
  have hlength : (String.utf8EncodeChar c).length ≤ 4 :=
    String.length_utf8EncodeChar c ▸ Char.utf8Size_le_four c
  rw [first?, List.take_append, List.take_of_length_le hlength, List.toByteArray_append]
  exact ByteArray.utf8DecodeChar?_utf8EncodeChar_append

theorem decode_encoded (c : Char) (rest : Bytes) :
    decode (String.utf8EncodeChar c ++ rest) = c :: decode rest := by
  have hfirst := first?_encoded c rest
  have hlength := String.length_utf8EncodeChar c
  have hpositive := Char.utf8Size_pos c
  cases hencoded : String.utf8EncodeChar c with
  | nil =>
      rw [hencoded, List.length_nil] at hlength
      omega
  | cons lead tail =>
      rw [hencoded] at hfirst hlength
      have htail : c.utf8Size - 1 = tail.length := by
        rw [List.length_cons] at hlength
        omega
      rw [List.cons_append] at hfirst ⊢
      rw [decode, hfirst]
      dsimp only
      rw [htail, List.drop_left]

/-- Reading undoes writing. -/
@[simp] theorem read_encode (text : String) : read (encode text) = text := by
  have hdecode (chars : List Char) : decode (chars.flatMap String.utf8EncodeChar) = chars := by
    induction chars with
    | nil => rw [List.flatMap_nil, decode]
    | cons c chars ih => rw [List.flatMap_cons, decode_encoded, ih]
  rw [read, encode, hdecode, String.ofList_toList]

theorem length_encode (text : String) : (encode text).length = text.utf8ByteSize := by
  have hoctets := String.toByteArray_ofList (l := text.toList)
  rw [String.ofList_toList] at hoctets
  rw [String.utf8ByteSize, hoctets, List.utf8Encode, List.size_toByteArray, encode]

theorem encode_append (first second : String) :
    encode (first ++ second) = encode first ++ encode second := by
  rw [encode, String.toList_append, List.flatMap_append, encode, encode]

/-- The octet of a line feed occurs in no other character. -/
theorem mem_utf8EncodeChar_iff (c : Char) : 10 ∈ String.utf8EncodeChar c ↔ c = '\n' := by
  have hother {number : Nat} (hlarge : 128 ≤ number) (hsmall : number < 256) :
      ¬(10 : UInt8) = UInt8.ofNat number := by
    intro heq
    have hnumber := congrArg UInt8.toNat heq
    rw [UInt8.toNat_ofNat_of_lt' hsmall] at hnumber
    change 10 = number at hnumber
    omega
  constructor
  · intro hmem
    unfold String.utf8EncodeChar at hmem
    dsimp only at hmem
    split at hmem
    next hsingle =>
      have hnumber := congrArg UInt8.toNat (List.mem_singleton.mp hmem)
      rw [UInt8.toNat_ofNat_of_lt' (by change _ < 256; omega)] at hnumber
      exact Char.ext (UInt32.toNat.inj hnumber.symm)
    next =>
      -- all octets of a character that has several are large
      split at hmem
      · simp only [List.mem_cons, List.not_mem_nil, or_false] at hmem
        rcases hmem with heq | heq <;> exact absurd heq (hother (by omega) (by omega))
      split at hmem
      · simp only [List.mem_cons, List.not_mem_nil, or_false] at hmem
        rcases hmem with heq | heq | heq <;> exact absurd heq (hother (by omega) (by omega))
      · simp only [List.mem_cons, List.not_mem_nil, or_false] at hmem
        rcases hmem with heq | heq | heq | heq <;>
          exact absurd heq (hother (by omega) (by omega))
  · rintro rfl
    decide

theorem lineFeed_mem_encode_iff (text : String) : 10 ∈ encode text ↔ '\n' ∈ text.toList := by
  simp only [encode, List.mem_flatMap, mem_utf8EncodeChar_iff, exists_eq_right]

end PacketLayer.Text.Utf8
