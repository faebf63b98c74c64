import VoipBackend.Asterisk.Exec

/-!
# The codec of the Asterisk module

`include/asterisk/msgpuck.h`, the copy of the codec that the Asterisk module carries, against the
copy of the OpenSIPS and the RTPEngine driver.  The encoders here write byte by byte where the
others run a loop, and the decoders return in every branch where the others go on to a common
end; a pointer may be null.

The copies write the same bytes.  They read the same values from them, too, except that
`mp_decode_uint` of this one gives 32-bit numbers and takes a 64-bit number for a zero of one
byte (`codecsAgree_iff`).
-/

namespace VoipBackend

open Library

namespace Asterisk

namespace Codec

/-! ## Encoders -/

/-- `(char)(num >> 8)` and `(char)num`. -/
def bytes16 (num : UInt64) : Bytes := [(num >>> 8).toUInt8, num.toUInt8]

/-- The four low bytes of a number. -/
def bytes32 (num : UInt64) : Bytes :=
  [(num >>> 24).toUInt8, (num >>> 16).toUInt8, (num >>> 8).toUInt8, num.toUInt8]

/-- The eight bytes of a number. -/
def bytes64 (num : UInt64) : Bytes :=
  [(num >>> 56).toUInt8, (num >>> 48).toUInt8, (num >>> 40).toUInt8, (num >>> 32).toUInt8] ++
    bytes32 num

/-- `mp_encode_uint`. -/
def mpEncodeUint (num : UInt64) : Bytes :=
  if num ≤ 0x7f then [num.toUInt8]
  else if num ≤ 0xff then [0xcc, num.toUInt8]
  else if num ≤ 0xffff then 0xcd :: bytes16 num
  else if num ≤ 0xffffffff then 0xce :: bytes32 num
  else 0xcf :: bytes64 num

/-- `mp_encode_str`. -/
def mpEncodeStr (str : Bytes) (len : UInt32) : Bytes :=
  (if len ≤ 31 then [0xa0 ||| len.toUInt8]
    else if len ≤ 0xff then [0xd9, len.toUInt8]
    else if len ≤ 0xffff then 0xda :: bytes16 len.toUInt64
    else 0xdb :: bytes32 len.toUInt64) ++ if 0 < len then str.take len.toNat else []

/-- `mp_encode_bin`. -/
def mpEncodeBin (bin : Bytes) (len : UInt32) : Bytes :=
  (if len ≤ 0xff then [0xc4, len.toUInt8]
    else if len ≤ 0xffff then 0xc5 :: bytes16 len.toUInt64
    else 0xc6 :: bytes32 len.toUInt64) ++ if 0 < len then bin.take len.toNat else []

/-- `mp_encode_array`. -/
def mpEncodeArray (size : UInt32) : Bytes :=
  if size ≤ 15 then [0x90 ||| size.toUInt8]
  else if size ≤ 0xffff then 0xdc :: bytes16 size.toUInt64
  else 0xdd :: bytes32 size.toUInt64

/-- `mp_encode_map`. -/
def mpEncodeMap (size : UInt32) : Bytes :=
  if size ≤ 15 then [0x80 ||| size.toUInt8]
  else if size ≤ 0xffff then 0xde :: bytes16 size.toUInt64
  else 0xdf :: bytes32 size.toUInt64

/-! ## Decoders -/

/-- `*c++`. -/
def read8 : Bytes → Option (UInt32 × Bytes)
  | c0 :: c => some (c0.toUInt32, c)
  | [] => none

/-- `((uint32_t)c[0] << 8) | c[1]`, with the pointer behind it. -/
def read16 : Bytes → Option (UInt32 × Bytes)
  | c0 :: c1 :: c => some ((c0.toUInt32 <<< 8) ||| c1.toUInt32, c)
  | _ => none

/-- The four bytes at a pointer as a number, with the pointer behind it. -/
def read32 : Bytes → Option (UInt32 × Bytes)
  | c0 :: c1 :: c2 :: c3 :: c =>
      some ((c0.toUInt32 <<< 24) ||| (c1.toUInt32 <<< 16) ||| (c2.toUInt32 <<< 8) |||
        c3.toUInt32, c)
  | _ => none

/-- What `mp_decode_str` returns: a pointer, which may be null, and a length. -/
structure StrPtr where
  s : Option Bytes
  len : UInt32
  deriving DecidableEq

/-- The string of a length that has been read, with the pointer behind it. -/
def strAt (x : UInt32 × Bytes) : StrPtr × Bytes := (⟨some x.2, x.1⟩, x.2.drop x.1.toNat)

/-- `mp_decode_str`. -/
def mpDecodeStr : Bytes → Option (StrPtr × Bytes)
  | [] => none
  | tag :: c =>
      if tag &&& 0xe0 = 0xa0 then some (strAt ((tag &&& 0x1f).toUInt32, c))
      else if tag = 0xd9 then (read8 c).map strAt
      else if tag = 0xda then (read16 c).map strAt
      else if tag = 0xdb then (read32 c).map strAt
      else some (⟨none, 0⟩, c)

/-- The count of an array or a map. -/
def mpDecodeCount (fix tag16 tag32 : UInt8) : Bytes → Option (UInt32 × Bytes)
  | [] => none
  | tag :: c =>
      if tag &&& 0xf0 = fix then some ((tag &&& 0x0f).toUInt32, c)
      else if tag = tag16 then read16 c
      else if tag = tag32 then read32 c
      else some (0, c)

/-- `mp_decode_array`. -/
def mpDecodeArray : Bytes → Option (UInt32 × Bytes) := mpDecodeCount 0x90 0xdc 0xdd

/-- `mp_decode_map`. -/
def mpDecodeMap : Bytes → Option (UInt32 × Bytes) := mpDecodeCount 0x80 0xde 0xdf

/-! ## The bytes of a number -/

theorem toUInt8_eq (num : UInt64) : num.toUInt8 = UInt8.ofNat num.toNat := by
  rw [← UInt8.toNat_inj]
  simp

theorem toUInt8_shiftRight (num : UInt64) {k : ℕ} (hk : k < 64) :
    (num >>> UInt64.ofNat k).toUInt8 = UInt8.ofNat (num.toNat >>> k) := by
  have hcount : (UInt64.ofNat k).toNat = k := UInt64.toNat_ofNat_of_lt' (by show k < 2 ^ 64; omega)
  rw [← UInt8.toNat_inj, UInt64.toNat_toUInt8, UInt64.toNat_shiftRight, hcount,
    Nat.mod_eq_of_lt hk]
  simp

theorem bytes16_eq (num : UInt64) : bytes16 num = bigEndian 2 num.toNat := by
  have h8 := toUInt8_shiftRight num (k := 8) (by norm_num)
  simp only [bytes16, bigEndian, toUInt8_eq num]
  exact congrArg (· :: _) h8

theorem bytes32_eq (num : UInt64) : bytes32 num = bigEndian 4 num.toNat := by
  have h24 := toUInt8_shiftRight num (k := 24) (by norm_num)
  have h16 := toUInt8_shiftRight num (k := 16) (by norm_num)
  have h8 := toUInt8_shiftRight num (k := 8) (by norm_num)
  show (num >>> UInt64.ofNat 24).toUInt8 :: (num >>> UInt64.ofNat 16).toUInt8 ::
    (num >>> UInt64.ofNat 8).toUInt8 :: num.toUInt8 :: [] = _
  rw [h24, h16, h8, toUInt8_eq]
  rfl

theorem bytes64_eq (num : UInt64) : bytes64 num = bigEndian 8 num.toNat := by
  have h56 := toUInt8_shiftRight num (k := 56) (by norm_num)
  have h48 := toUInt8_shiftRight num (k := 48) (by norm_num)
  have h40 := toUInt8_shiftRight num (k := 40) (by norm_num)
  have h32 := toUInt8_shiftRight num (k := 32) (by norm_num)
  show (num >>> UInt64.ofNat 56).toUInt8 :: (num >>> UInt64.ofNat 48).toUInt8 ::
    (num >>> UInt64.ofNat 40).toUInt8 :: (num >>> UInt64.ofNat 32).toUInt8 :: bytes32 num = _
  rw [h56, h48, h40, h32, bytes32_eq]
  rfl

/-! ## The encoders agree -/

theorem mpEncodeUint_eq (num : UInt64) : mpEncodeUint num = Msgpuck.mpEncodeUint num.toNat := by
  simp only [mpEncodeUint, Msgpuck.mpEncodeUint, UInt64.le_iff_toNat_le, toUInt8_eq, bytes16_eq,
    bytes32_eq, bytes64_eq]
  rfl

theorem toUInt8_len (len : UInt32) : len.toUInt8 = UInt8.ofNat len.toNat := by
  rw [← UInt8.toNat_inj]
  simp

theorem toNat_length {str : Bytes} (h : str.length < 2 ^ 32) :
    (UInt32.ofNat str.length).toNat = str.length := UInt32.toNat_ofNat_of_lt' h

/-- The `memcpy` behind the length copies the whole string, also when it is left out. -/
theorem copied_eq {str : Bytes} (h : str.length < 2 ^ 32) :
    (if 0 < UInt32.ofNat str.length then str.take (UInt32.ofNat str.length).toNat else []) =
      str := by
  split_ifs with hpos
  · rw [toNat_length h, List.take_length]
  · rw [UInt32.lt_iff_toNat_lt, toNat_length h] at hpos
    exact (List.length_eq_zero_iff.1 (Nat.eq_zero_of_not_pos hpos)).symm

theorem mpEncodeStr_eq {str : Bytes} (h : str.length < 2 ^ 32) :
    mpEncodeStr str (UInt32.ofNat str.length) = Msgpuck.mpEncodeStr str := by
  rw [mpEncodeStr, copied_eq h]
  simp only [Msgpuck.mpEncodeStr, UInt32.le_iff_toNat_le, toUInt8_len, bytes16_eq, bytes32_eq,
    UInt32.toNat_toUInt64, toNat_length h]
  rfl

theorem mpEncodeBin_eq {bin : Bytes} (h : bin.length < 2 ^ 32) :
    mpEncodeBin bin (UInt32.ofNat bin.length) = Msgpuck.mpEncodeBin bin := by
  rw [mpEncodeBin, copied_eq h]
  simp only [Msgpuck.mpEncodeBin, UInt32.le_iff_toNat_le, toUInt8_len, bytes16_eq, bytes32_eq,
    UInt32.toNat_toUInt64, toNat_length h]
  rfl

theorem mpEncodeArray_eq (size : UInt32) :
    mpEncodeArray size = Msgpuck.mpEncodeArray size.toNat := by
  simp only [mpEncodeArray, Msgpuck.mpEncodeArray, UInt32.le_iff_toNat_le, toUInt8_len, bytes16_eq,
    bytes32_eq, UInt32.toNat_toUInt64]
  rfl

theorem mpEncodeMap_eq (size : UInt32) : mpEncodeMap size = Msgpuck.mpEncodeMap size.toNat := by
  simp only [mpEncodeMap, Msgpuck.mpEncodeMap, UInt32.le_iff_toNat_le, toUInt8_len, bytes16_eq,
    bytes32_eq, UInt32.toNat_toUInt64]
  rfl

/-! ## The decoders agree -/

/-- A number of this copy as one of the other. -/
def widen (x : UInt32 × Bytes) : ℕ × Bytes := (x.1.toNat, x.2)

theorem toNat_shiftLeft_byte (b : UInt8) {k : ℕ} (hk : k ≤ 24) :
    (b.toUInt32 <<< UInt32.ofNat k).toNat = b.toNat <<< k := by
  have hb := b.toNat_lt
  have hcount : (UInt32.ofNat k).toNat = k := UInt32.toNat_ofNat_of_lt' (by show k < 2 ^ 32; omega)
  have hfits : b.toNat * 2 ^ k < 2 ^ 32 :=
    calc b.toNat * 2 ^ k < 2 ^ 8 * 2 ^ k := by gcongr
      _ ≤ 2 ^ 8 * 2 ^ 24 := by gcongr; norm_num
  rw [UInt32.toNat_shiftLeft, hcount, Nat.mod_eq_of_lt (by omega : k < 32), UInt8.toNat_toUInt32,
    Nat.shiftLeft_eq, Nat.mod_eq_of_lt hfits]

theorem read8_eq (p : Bytes) : (read8 p).map widen = Msgpuck.readUint 1 p := by
  cases p with
  | nil => rfl
  | cons c0 p =>
    rw [Msgpuck.readUint, if_pos (by simp)]
    simp [read8, widen, ofBigEndian]

theorem read16_eq (p : Bytes) : (read16 p).map widen = Msgpuck.readUint 2 p := by
  match p with
  | [] => rfl
  | [_] => rfl
  | c0 :: c1 :: p =>
    have h1 := c1.toNat_lt
    have hhigh := toNat_shiftLeft_byte c0 (k := 8) (by norm_num)
    have hor : ((c0.toUInt32 <<< 8) ||| c1.toUInt32).toNat = c0.toNat * 256 + c1.toNat := by
      rw [UInt32.toNat_or, UInt8.toNat_toUInt32]
      refine (congrArg (· ||| _) hhigh).trans ?_
      rw [← Nat.shiftLeft_add_eq_or_of_lt (by omega), Nat.shiftLeft_eq]
    rw [Msgpuck.readUint, if_pos (by simp)]
    simp [read16, widen, hor, ofBigEndian]

theorem read32_eq (p : Bytes) : (read32 p).map widen = Msgpuck.readUint 4 p := by
  match p with
  | [] => rfl
  | [_] => rfl
  | [_, _] => rfl
  | [_, _, _] => rfl
  | c0 :: c1 :: c2 :: c3 :: p =>
    have h1 := c1.toNat_lt
    have h2 := c2.toNat_lt
    have h3 := c3.toNat_lt
    have hor : ((c0.toUInt32 <<< 24) ||| (c1.toUInt32 <<< 16) ||| (c2.toUInt32 <<< 8) |||
        c3.toUInt32).toNat = ((c0.toNat * 256 + c1.toNat) * 256 + c2.toNat) * 256 + c3.toNat := by
      have hc0 : (c0.toUInt32 <<< 24).toNat = c0.toNat <<< 24 :=
        toNat_shiftLeft_byte c0 (k := 24) (by norm_num)
      have hc1 : (c1.toUInt32 <<< 16).toNat = c1.toNat <<< 16 :=
        toNat_shiftLeft_byte c1 (k := 16) (by norm_num)
      have hc2 : (c2.toUInt32 <<< 8).toNat = c2.toNat <<< 8 :=
        toNat_shiftLeft_byte c2 (k := 8) (by norm_num)
      have hsplit : c0.toNat <<< 24 ||| c1.toNat <<< 16 = (c0.toNat * 256 + c1.toNat) <<< 16 := by
        rw [← Nat.shiftLeft_add_eq_or_of_lt (by rw [Nat.shiftLeft_eq]; omega)]
        simp only [Nat.shiftLeft_eq]
        omega
      have hsplit2 : (c0.toNat * 256 + c1.toNat) <<< 16 ||| c2.toNat <<< 8 =
          ((c0.toNat * 256 + c1.toNat) * 256 + c2.toNat) <<< 8 := by
        rw [← Nat.shiftLeft_add_eq_or_of_lt (by rw [Nat.shiftLeft_eq]; omega)]
        simp only [Nat.shiftLeft_eq]
        omega
      rw [UInt32.toNat_or, UInt32.toNat_or, UInt32.toNat_or, hc0, hc1, hc2, UInt8.toNat_toUInt32,
        hsplit, hsplit2, ← Nat.shiftLeft_add_eq_or_of_lt (by omega), Nat.shiftLeft_eq]
    rw [Msgpuck.readUint, if_pos (by simp)]
    simp [read32, widen, hor, ofBigEndian]

/-- A count is read as the other copy reads it, whatever is there. -/
theorem mpDecodeCount_eq (fix tag16 tag32 : UInt8) (p : Bytes) :
    (mpDecodeCount fix tag16 tag32 p).map widen = Msgpuck.mpDecodeCount fix tag16 tag32 p := by
  cases p with
  | nil => rfl
  | cons tag p =>
    rw [mpDecodeCount, Msgpuck.mpDecodeCount]
    split_ifs
    · simp [widen]
    · exact read16_eq p
    · exact read32_eq p
    · rfl

/-- A string of the other copy as one of this copy: the pointer is never null there. -/
def ofRef (x : Msgpuck.StrRef × Bytes) : StrPtr × Bytes := (⟨some x.1.s, UInt32.ofNat x.1.len⟩, x.2)

/-- The first byte of a string. -/
def IsStrTag (tag : UInt8) : Prop := tag &&& 0xe0 = 0xa0 ∨ tag = 0xd9 ∨ tag = 0xda ∨ tag = 0xdb

/-- Behind a length that is read alike the string is read alike. -/
theorem strAt_eq (o : Option (UInt32 × Bytes)) : o.map strAt =
    ((o.map widen).bind fun x => some (⟨x.2, x.1⟩, x.2.drop x.1)).map ofRef := by
  cases o with
  | none => rfl
  | some x => simp [strAt, widen, ofRef]

theorem mpDecodeStr_eq {tag : UInt8} (h : IsStrTag tag) (p : Bytes) :
    mpDecodeStr (tag :: p) = (Msgpuck.mpDecodeStr (tag :: p)).map ofRef := by
  rw [mpDecodeStr, Msgpuck.mpDecodeStr, Msgpuck.mpDecodeStrLen]
  split_ifs with hfix h8 h16 h32
  · simp [strAt, ofRef]
  · rw [strAt_eq, read8_eq]
    rfl
  · rw [strAt_eq, read16_eq]
    rfl
  · rw [strAt_eq, read32_eq]
    rfl
  · exact absurd h (by simp [IsStrTag, hfix, h8, h16, h32])

theorem mpEncodeStr_tag (str : Bytes) :
    ∃ tag p, Msgpuck.mpEncodeStr str = tag :: p ∧ IsStrTag tag := by
  unfold Msgpuck.mpEncodeStr
  split_ifs with h31 h8 h16
  · exact ⟨_, str, rfl, Or.inl (Msgpuck.fixstr_byte h31).1⟩
  · exact ⟨0xd9, _, rfl, by simp [IsStrTag]⟩
  · exact ⟨0xda, _, rfl, by simp [IsStrTag]⟩
  · exact ⟨0xdb, _, rfl, by simp [IsStrTag]⟩

/-! ## Where they differ -/

/-- Numbers are read alike unless they have the one format this copy does not know. -/
theorem mpDecodeUint_eq {tag : UInt8} (h : tag ≠ 0xcf) (p : Bytes) :
    mpDecodeUint (tag :: p) = Msgpuck.mpDecodeUint (tag :: p) := by
  rw [mpDecodeUint, Msgpuck.mpDecodeUint, if_neg h]

theorem mpEncodeUint_tag {n : ℕ} (h : n < 2 ^ 32) :
    ∃ tag p, Msgpuck.mpEncodeUint n = tag :: p ∧ tag ≠ 0xcf := by
  unfold Msgpuck.mpEncodeUint
  split_ifs with h7 h8 h16 h32
  · refine ⟨UInt8.ofNat n, [], rfl, fun heq => ?_⟩
    have hnat := congrArg UInt8.toNat heq
    rw [UInt8.toNat_ofNat_of_lt' (by show n < 256; omega)] at hnat
    exact absurd (hnat.symm.trans_le h7) (by decide)
  · exact ⟨0xcc, _, rfl, by decide⟩
  · exact ⟨0xcd, _, rfl, by decide⟩
  · exact ⟨0xce, _, rfl, by decide⟩
  · exact absurd h (by omega)

/-- A number from `2 ^ 32` on is read as 0, and eight bytes too few. -/
theorem mpDecodeUint_large {num : UInt64} (h : 2 ^ 32 ≤ num.toNat) (rest : Bytes) :
    mpDecodeUint (mpEncodeUint num ++ rest) = some (0, bytes64 num ++ rest) := by
  have hnot : ∀ m : UInt64, m.toNat < 2 ^ 32 → ¬ num ≤ m := by
    intro m hm
    rw [UInt64.le_iff_toNat_le, not_le]
    exact hm.trans_le h
  rw [mpEncodeUint, if_neg (hnot 0x7f (by decide)), if_neg (hnot 0xff (by decide)),
    if_neg (hnot 0xffff (by decide)), if_neg (hnot 0xffffffff (by decide))]
  rfl

/-- The two copies write the same bytes, and read the same from these bytes whatever follows. -/
structure CodecsAgree (num : UInt64) (str : Bytes) (size : UInt32) (rest : Bytes) : Prop where
  encodeUint : mpEncodeUint num = Msgpuck.mpEncodeUint num.toNat
  encodeStr : mpEncodeStr str (UInt32.ofNat str.length) = Msgpuck.mpEncodeStr str
  encodeBin : mpEncodeBin str (UInt32.ofNat str.length) = Msgpuck.mpEncodeBin str
  encodeArray : mpEncodeArray size = Msgpuck.mpEncodeArray size.toNat
  encodeMap : mpEncodeMap size = Msgpuck.mpEncodeMap size.toNat
  decodeUint : mpDecodeUint (mpEncodeUint num ++ rest) =
    Msgpuck.mpDecodeUint (mpEncodeUint num ++ rest)
  decodeStr : mpDecodeStr (mpEncodeStr str (UInt32.ofNat str.length) ++ rest) =
    (Msgpuck.mpDecodeStr (mpEncodeStr str (UInt32.ofNat str.length) ++ rest)).map ofRef
  decodeArray : (mpDecodeArray (mpEncodeArray size ++ rest)).map widen =
    Msgpuck.mpDecodeArray (mpEncodeArray size ++ rest)
  decodeMap : (mpDecodeMap (mpEncodeMap size ++ rest)).map widen =
    Msgpuck.mpDecodeMap (mpEncodeMap size ++ rest)

/-- **When the copies agree.**  On all strings, array and map headers, and on the numbers below
`2 ^ 32`. -/
theorem codecsAgree_iff {num : UInt64} {str : Bytes} (hstr : str.length < 2 ^ 32) (size : UInt32)
    (rest : Bytes) : CodecsAgree num str size rest ↔ num.toNat < 2 ^ 32 := by
  constructor
  · intro h
    by_contra hlarge
    have hread := h.decodeUint
    rw [mpDecodeUint_large (not_lt.1 hlarge), mpEncodeUint_eq,
      Msgpuck.mpDecodeUint_encode num.toNat_lt] at hread
    have hzero : 0 = num.toNat := congrArg Prod.fst (Option.some.inj hread)
    omega
  · intro hsmall
    obtain ⟨tag, p, hnum, htag⟩ := mpEncodeUint_tag hsmall
    obtain ⟨strTag, q, hstrBytes, hstrTag⟩ := mpEncodeStr_tag str
    exact {
      encodeUint := mpEncodeUint_eq num
      encodeStr := mpEncodeStr_eq hstr
      encodeBin := mpEncodeBin_eq hstr
      encodeArray := mpEncodeArray_eq size
      encodeMap := mpEncodeMap_eq size
      decodeUint := by
        rw [mpEncodeUint_eq, hnum]
        exact mpDecodeUint_eq htag (p ++ rest)
      decodeStr := by
        rw [mpEncodeStr_eq hstr, hstrBytes]
        exact mpDecodeStr_eq hstrTag (q ++ rest)
      decodeArray := mpDecodeCount_eq 0x90 0xdc 0xdd _
      decodeMap := mpDecodeCount_eq 0x80 0xde 0xdf _ }

/-- The largest number that both copies read. -/
theorem codecsAgree_max : CodecsAgree 0xffffffff (ascii "id") 3 [] :=
  (codecsAgree_iff (by decide) 3 []).2 (by decide)

/-- **A number that is lost.**  The smallest one with nine bytes. -/
theorem not_codecsAgree_33bits : ¬ CodecsAgree 0x100000000 [] 0 [] := by
  intro h
  exact absurd h.decodeUint (by decide)

end Codec

end Asterisk

end VoipBackend
