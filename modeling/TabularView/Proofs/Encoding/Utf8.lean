import TabularView.Encoding.Decode

set_option autoImplicit false

/-! # Written texts are decoded

A text is written in UTF-8, one to four bytes for each character. Decoding finds each character
again and goes on behind its last byte, so it gives the whole text back (`decodeUtf8?_toUTF8`). -/

namespace TabularView.Encoding

/-! ## Bytes of a text -/

theorem toList_loop_eq (bytes : ByteArray) (i : Nat) (acc : List UInt8) :
    ByteArray.toList.loop bytes i acc = acc.reverse ++ bytes.data.toList.drop i := by
  fun_induction ByteArray.toList.loop bytes i acc with
  | case1 i acc hlt ih =>
      have hlength : i < bytes.data.toList.length := by simpa using hlt
      have hget : bytes.get! i = bytes.data[i]! := by cases bytes; rfl
      rw [ih, List.drop_eq_getElem_cons hlength, hget, getElem!_pos bytes.data i hlt]
      simp
  | case2 i acc hge =>
      rw [List.drop_eq_nil_of_le (by simpa using Nat.le_of_not_lt hge)]
      simp

/-- The bytes of a text are those of its characters. -/
theorem toList_toUTF8 (s : String) :
    s.toUTF8.toList = s.toList.flatMap String.utf8EncodeChar := by
  rw [String.toUTF8_eq_toByteArray, ← String.utf8Encode_toList, ByteArray.toList, toList_loop_eq,
    List.utf8Encode, List.toList_data_toByteArray]
  rfl

/-! ## Characters -/

theorem toNat_ofNat {n : Nat} (h : n < 256) : (UInt8.ofNat n).toNat = n := by
  rw [UInt8.toNat_ofNat']
  exact Nat.mod_eq_of_lt h

theorem isTail_ofNat (n : Nat) : isTail (UInt8.ofNat (n % 64 + 128)) = true := by
  simp only [isTail, UInt8.le_iff_toNat_le, toNat_ofNat (show n % 64 + 128 < 256 by omega),
    UInt8.reduceToNat, Bool.and_eq_true, decide_eq_true_eq]
  omega

theorem tailBits_ofNat (n : Nat) : tailBits (UInt8.ofNat (n % 64 + 128)) = n % 64 := by
  rw [tailBits, toNat_ofNat (by omega)]
  omega

theorem firstUtf8?_one {v : Nat} (h : v ≤ 127) (rest : Bytes) :
    firstUtf8? (UInt8.ofNat v :: rest) = some (Char.ofNat v, 1) := by
  have hfirst : UInt8.ofNat v < 0x80 := by
    simp only [UInt8.lt_iff_toNat_lt, toNat_ofNat (show v < 256 by omega), UInt8.reduceToNat]
    omega
  unfold firstUtf8?
  dsimp only
  rw [if_pos hfirst, toNat_ofNat (by omega)]

theorem firstUtf8?_two {v : Nat} (h : 127 < v) (hmax : v ≤ 2047) (rest : Bytes) :
    firstUtf8? (UInt8.ofNat (v / 64 % 32 + 192) :: UInt8.ofNat (v % 64 + 128) :: rest) =
      some (Char.ofNat v, 2) := by
  have hvalue : (v / 64 % 32 + 192) % 32 * 64 + v % 64 = v := by omega
  have hfirst : (UInt8.ofNat (v / 64 % 32 + 192)).toNat = v / 64 % 32 + 192 :=
    toNat_ofNat (by omega)
  simp only [firstUtf8?, UInt8.lt_iff_toNat_lt, hfirst, UInt8.reduceToNat, isTail_ofNat,
    tailBits_ofNat, hvalue, if_true]
  rw [if_neg (by omega), if_neg (by omega), if_pos (by omega)]

theorem firstUtf8?_three {v : Nat} (h : 2047 < v) (hmax : v ≤ 65535)
    (hvalid : v < 0xD800 ∨ 0xDFFF < v) (rest : Bytes) :
    firstUtf8? (UInt8.ofNat (v / 4096 % 16 + 224) :: UInt8.ofNat (v / 64 % 64 + 128) ::
      UInt8.ofNat (v % 64 + 128) :: rest) = some (Char.ofNat v, 3) := by
  have hvalue : ((v / 4096 % 16 + 224) % 16 * 64 + v / 64 % 64) * 64 + v % 64 = v := by omega
  have hfirst : (UInt8.ofNat (v / 4096 % 16 + 224)).toNat = v / 4096 % 16 + 224 :=
    toNat_ofNat (by omega)
  have hsecond : (UInt8.ofNat (v / 64 % 64 + 128)).toNat = v / 64 % 64 + 128 :=
    toNat_ofNat (by omega)
  -- the shortest form and the gap of the surrogates bound the second byte
  have hbounds : (secondOfThree (UInt8.ofNat (v / 4096 % 16 + 224))).1 ≤
      UInt8.ofNat (v / 64 % 64 + 128) ∧ UInt8.ofNat (v / 64 % 64 + 128) ≤
      (secondOfThree (UInt8.ofNat (v / 4096 % 16 + 224))).2 := by
    unfold secondOfThree
    simp only [← UInt8.toNat_inj, hfirst, UInt8.reduceToNat]
    split
    · simp only [UInt8.le_iff_toNat_le, hsecond, UInt8.reduceToNat]
      omega
    · split <;> simp only [UInt8.le_iff_toNat_le, hsecond, UInt8.reduceToNat] <;> omega
  simp only [firstUtf8?, UInt8.lt_iff_toNat_lt, hfirst, UInt8.reduceToNat, isTail_ofNat,
    tailBits_ofNat, hvalue, hbounds, and_self, if_true]
  rw [if_neg (by omega), if_neg (by omega), if_neg (by omega), if_pos (by omega)]

theorem firstUtf8?_four {v : Nat} (h : 65535 < v) (hmax : v < 0x110000) (rest : Bytes) :
    firstUtf8? (UInt8.ofNat (v / 262144 % 8 + 240) :: UInt8.ofNat (v / 4096 % 64 + 128) ::
      UInt8.ofNat (v / 64 % 64 + 128) :: UInt8.ofNat (v % 64 + 128) :: rest) =
        some (Char.ofNat v, 4) := by
  have hvalue : (((v / 262144 % 8 + 240) % 8 * 64 + v / 4096 % 64) * 64 + v / 64 % 64) * 64 +
      v % 64 = v := by omega
  have hfirst : (UInt8.ofNat (v / 262144 % 8 + 240)).toNat = v / 262144 % 8 + 240 :=
    toNat_ofNat (by omega)
  have hsecond : (UInt8.ofNat (v / 4096 % 64 + 128)).toNat = v / 4096 % 64 + 128 :=
    toNat_ofNat (by omega)
  -- the shortest form and the last code point bound the second byte
  have hbounds : (secondOfFour (UInt8.ofNat (v / 262144 % 8 + 240))).1 ≤
      UInt8.ofNat (v / 4096 % 64 + 128) ∧ UInt8.ofNat (v / 4096 % 64 + 128) ≤
      (secondOfFour (UInt8.ofNat (v / 262144 % 8 + 240))).2 := by
    unfold secondOfFour
    simp only [← UInt8.toNat_inj, hfirst, UInt8.reduceToNat]
    split
    · simp only [UInt8.le_iff_toNat_le, hsecond, UInt8.reduceToNat]
      omega
    · split <;> simp only [UInt8.le_iff_toNat_le, hsecond, UInt8.reduceToNat] <;> omega
  simp only [firstUtf8?, UInt8.lt_iff_toNat_lt, hfirst, UInt8.reduceToNat, isTail_ofNat,
    tailBits_ofNat, hvalue, hbounds, and_self, if_true]
  rw [if_neg (by omega), if_neg (by omega), if_neg (by omega), if_neg (by omega),
    if_pos (by omega)]

theorem firstUtf8?_utf8EncodeChar (c : Char) (rest : Bytes) :
    firstUtf8? (String.utf8EncodeChar c ++ rest) =
      some (c, (String.utf8EncodeChar c).length) := by
  have hvalid : c.val.toNat < 0xD800 ∨ 0xDFFF < c.val.toNat ∧ c.val.toNat < 0x110000 := c.valid
  have hwidth : firstUtf8? (String.utf8EncodeChar c ++ rest) =
      some (Char.ofNat c.toNat, (String.utf8EncodeChar c).length) := by
    unfold String.utf8EncodeChar
    by_cases h1 : c.val.toNat ≤ 127
    · simp only [if_pos h1]
      exact firstUtf8?_one h1 rest
    · by_cases h2 : c.val.toNat ≤ 2047
      · simp only [if_neg h1, if_pos h2]
        exact firstUtf8?_two (by omega) h2 rest
      · by_cases h3 : c.val.toNat ≤ 65535
        · simp only [if_neg h1, if_neg h2, if_pos h3]
          exact firstUtf8?_three (by omega) h3 (by omega) rest
        · simp only [if_neg h1, if_neg h2, if_neg h3]
          exact firstUtf8?_four (by omega) (by omega) rest
  rwa [Char.ofNat_toNat] at hwidth

/-! ## Texts -/

theorem decodeUtf8From_eq (skip : Nat) (bytes : Bytes) :
    decodeUtf8From skip bytes = decodeUtf8From 0 (bytes.drop skip) := by
  induction bytes generalizing skip with
  | nil =>
      rw [List.drop_nil]
      cases skip <;> rfl
  | cons a rest ih =>
      cases skip with
      | zero => rfl
      | succ skip => exact ih skip

theorem decodeUtf8From_utf8EncodeChar (c : Char) (rest : Bytes) :
    decodeUtf8From 0 (String.utf8EncodeChar c ++ rest) =
      (decodeUtf8From 0 rest).map (c :: ·) := by
  have hfirst := firstUtf8?_utf8EncodeChar c rest
  cases hbytes : String.utf8EncodeChar c with
  | nil => exact absurd hbytes String.utf8EncodeChar_ne_nil
  | cons a tail =>
      rw [hbytes, List.cons_append] at hfirst
      rw [List.cons_append, decodeUtf8From, hfirst]
      dsimp only
      rw [decodeUtf8From_eq, List.length_cons, Nat.add_sub_cancel, List.drop_left]

/-- The bytes of a text are decoded to it. -/
theorem decodeUtf8?_toUTF8 (s : String) : decodeUtf8? s.toUTF8.toList = some s.toList := by
  rw [toList_toUTF8, decodeUtf8?]
  induction s.toList with
  | nil => rfl
  | cons c rest ih =>
      rw [List.flatMap_cons, decodeUtf8From_utf8EncodeChar, ih]
      rfl

end TabularView.Encoding
