import TacBench.Text.Utf8

/-! Reading back what has been written: the bytes of a text are decoded to that text. -/
namespace TacBench.Utf8

variable {position count low high value v : Nat} {b : UInt8} {rest : List UInt8}

theorem toList_loop (bs : ByteArray) (i : Nat) (taken : List UInt8) :
    ByteArray.toList.loop bs i taken = taken.reverse ++ bs.data.toList.drop i := by
  fun_induction ByteArray.toList.loop bs i taken with
  | case1 i taken inside ih =>
    have size : i < bs.data.toList.length := inside
    have byte : bs.get! i = bs.data.toList[i] := by
      rw [Array.getElem_toList]
      exact getElem!_pos bs.data i inside
    rw [ih, List.drop_eq_getElem_cons size, byte, List.reverse_cons, List.append_assoc]
    rfl
  | case2 i taken outside =>
    have size : bs.data.toList.length ≤ i := Nat.le_of_not_lt outside
    rw [List.drop_eq_nil_of_le size, List.append_nil]

theorem encode_eq (s : String) : encode s = s.toList.flatMap String.utf8EncodeChar := by
  have same : s.toUTF8 = s.toList.utf8Encode := String.utf8Encode_toList.symm
  rw [encode, same, ByteArray.toList, toList_loop]
  exact List.toList_data_toByteArray

theorem continued_cons (inside : low ≤ b.toNat ∧ b.toNat ≤ high)
    (more : continued count 0x80 0xBF (value * 64 + b.toNat % 64) rest = .ok v) :
    continued (count + 1) low high value (b :: rest) = .ok v := by
  rw [continued, if_pos inside, more]

theorem decodeFrom_ascii (ascii : b.toNat < 0x80) :
    decodeFrom position (b :: rest) = (decodeFrom (position + 1) rest).map
    (Char.ofNat b.toNat :: ·) := by
  rw [decodeFrom, if_pos ascii]

theorem decodeFrom_sequence (wide : 0x80 ≤ b.toNat) (asks : demand? b = some (count, low, high))
    (read : continued count low high (leadBits count b) rest = .ok v) :
    decodeFrom position (b :: rest) =
      (decodeFrom (position + 1 + count) (rest.drop count)).map (Char.ofNat v :: ·) := by
  rw [decodeFrom, if_neg (by omega)]
  simp only [asks, read]

theorem toNat_ofNat (n : Nat) (small : n < 256) : (UInt8.ofNat n).toNat = n :=
  UInt8.toNat_ofNat_of_lt small

theorem decodeFrom_two (first : 127 < v) (last : v ≤ 2047) :
    decodeFrom position (UInt8.ofNat (v / 64 % 32 + 192) :: UInt8.ofNat (v % 64 + 128) :: rest) =
      (decodeFrom (position + 2) rest).map (Char.ofNat v :: ·) := by
  have lead := toNat_ofNat (v / 64 % 32 + 192) (by omega)
  have second := toNat_ofNat (v % 64 + 128) (by omega)
  generalize UInt8.ofNat (v / 64 % 32 + 192) = a at lead ⊢
  generalize UInt8.ofNat (v % 64 + 128) = b at second ⊢
  have asks : demand? a = some (1, 0x80, 0xBF) := by
    simp only [demand?]
    rw [if_neg (by omega), if_pos (by omega)]
  have bits : leadBits 1 a = a.toNat % 32 := rfl
  have whole : leadBits 1 a * 64 + b.toNat % 64 = v := by omega
  refine decodeFrom_sequence (by omega) asks (continued_cons (by omega) ?_)
  rw [whole, continued]

-- The bounds of the second byte shut out the codes of halves, which are no characters.
theorem decodeFrom_three (first : 2047 < v) (last : v ≤ 65535) (valid : v < 0xD800 ∨ 0xDFFF < v) :
    decodeFrom position (UInt8.ofNat (v / 4096 % 16 + 224) :: UInt8.ofNat (v / 64 % 64 + 128) ::
        UInt8.ofNat (v % 64 + 128) :: rest) =
      (decodeFrom (position + 3) rest).map (Char.ofNat v :: ·) := by
  have lead := toNat_ofNat (v / 4096 % 16 + 224) (by omega)
  have second := toNat_ofNat (v / 64 % 64 + 128) (by omega)
  have third := toNat_ofNat (v % 64 + 128) (by omega)
  generalize UInt8.ofNat (v / 4096 % 16 + 224) = a at lead ⊢
  generalize UInt8.ofNat (v / 64 % 64 + 128) = b at second ⊢
  generalize UInt8.ofNat (v % 64 + 128) = c at third ⊢
  have asks : demand? a =
      some (2, if a.toNat = 0xE0 then 0xA0 else 0x80, if a.toNat = 0xED then 0x9F else 0xBF) := by
    simp only [demand?]
    rw [if_neg (by omega), if_neg (by omega), if_pos (by omega)]
  have bits : leadBits 2 a = a.toNat % 16 := rfl
  have whole : (leadBits 2 a * 64 + b.toNat % 64) * 64 + c.toNat % 64 = v := by omega
  refine decodeFrom_sequence (by omega) asks (continued_cons ?_ (continued_cons (by omega) ?_))
  · constructor <;> split <;> omega
  · rw [whole, continued]

theorem decodeFrom_four (first : 65535 < v) (last : v < 0x110000) :
    decodeFrom position (UInt8.ofNat (v / 262144 % 8 + 240) :: UInt8.ofNat (v / 4096 % 64 + 128) ::
        UInt8.ofNat (v / 64 % 64 + 128) :: UInt8.ofNat (v % 64 + 128) :: rest) =
      (decodeFrom (position + 4) rest).map (Char.ofNat v :: ·) := by
  have lead := toNat_ofNat (v / 262144 % 8 + 240) (by omega)
  have second := toNat_ofNat (v / 4096 % 64 + 128) (by omega)
  have third := toNat_ofNat (v / 64 % 64 + 128) (by omega)
  have fourth := toNat_ofNat (v % 64 + 128) (by omega)
  generalize UInt8.ofNat (v / 262144 % 8 + 240) = a at lead ⊢
  generalize UInt8.ofNat (v / 4096 % 64 + 128) = b at second ⊢
  generalize UInt8.ofNat (v / 64 % 64 + 128) = c at third ⊢
  generalize UInt8.ofNat (v % 64 + 128) = d at fourth ⊢
  have asks : demand? a =
      some (3, if a.toNat = 0xF0 then 0x90 else 0x80, if a.toNat = 0xF4 then 0x8F else 0xBF) := by
    simp only [demand?]
    rw [if_neg (by omega), if_neg (by omega), if_neg (by omega), if_pos (by omega)]
  have bits : leadBits 3 a = a.toNat % 8 := rfl
  have whole : ((leadBits 3 a * 64 + b.toNat % 64) * 64 + c.toNat % 64) * 64 +
      d.toNat % 64 = v := by
    omega
  refine decodeFrom_sequence (by omega) asks
    (continued_cons ?_ (continued_cons (by omega) (continued_cons (by omega) ?_)))
  · constructor <;> split <;> omega
  · rw [whole, continued]

/-- One character is read from its bytes, whatever follows. -/
theorem decodeFrom_char (c : Char) (position : Nat) (rest : List UInt8) :
    decodeFrom position (String.utf8EncodeChar c ++ rest) =
      (decodeFrom (position + (String.utf8EncodeChar c).length) rest).map (c :: ·) := by
  have valid : c.toNat < 0xD800 ∨ 0xDFFF < c.toNat ∧ c.toNat < 0x110000 := c.valid
  have whole : Char.ofNat c.toNat = c := Char.ofNat_toNat c
  have code : c.val.toNat = c.toNat := rfl
  unfold String.utf8EncodeChar
  dsimp only
  rw [code]
  generalize c.toNat = v at valid whole
  subst whole
  split
  · have byte := toNat_ofNat v (by omega)
    rw [List.singleton_append, decodeFrom_ascii (by omega), byte]
    rfl
  · split
    · exact decodeFrom_two (by omega) (by omega)
    · split
      · exact decodeFrom_three (by omega) (by omega) (by omega)
      · exact decodeFrom_four (by omega) (by omega)

theorem decodeFrom_flatMap (s : List Char) (position : Nat) :
    decodeFrom position (s.flatMap String.utf8EncodeChar) = .ok s := by
  induction s generalizing position with
  | nil => rw [List.flatMap_nil, decodeFrom]
  | cons c s ih => rw [List.flatMap_cons, decodeFrom_char, ih, Except.map]

theorem decode_encode (s : String) : decode (encode s) = .ok s := by
  rw [decode, encode_eq, decodeFrom_flatMap, Except.map, String.ofList_toList]

theorem encode_append (s t : String) : encode (s ++ t) = encode s ++ encode t := by
  simp only [encode_eq, String.toList_append, List.flatMap_append]

theorem encodeText_ok {s : Text} {bytes : List UInt8} (encoded : encodeText s = .ok bytes) :
    bytes = encode s.shown := by
  unfold encodeText at encoded
  split at encoded
  · exact (Except.ok.inj encoded).symm
  · contradiction

end TacBench.Utf8
