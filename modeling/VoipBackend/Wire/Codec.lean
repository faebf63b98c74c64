import VoipBackend.Wire.Msgpuck

/-!
# What was encoded is what is decoded

The encoders of `msgpuck.h` pick one of up to five widths for a number, a length or a
count, and the decoders work the width out again from the first byte.  This file proves
each decoder to be the inverse of its encoder, whatever follows in the buffer
(`mpDecodeUint_encode` and its siblings), and puts them together for sequences: a list
of numbers, strings, array and map headers, encoded one after another, is decoded by
the matching calls to the same list, and the read pointer stops right behind the last
byte (`decodeTokens_encodeTokens`).
-/

namespace VoipBackend

open Library

namespace Msgpuck

/-! ## First bytes -/

/-- The first byte of a short string keeps its length apart from the mark. -/
theorem fixstr_byte {n : ℕ} (h : n ≤ 31) :
    (0xa0 ||| UInt8.ofNat n) &&& 0xe0 = 0xa0 ∧ ((0xa0 ||| UInt8.ofNat n) &&& 0x1f).toNat = n := by
  have hall : ∀ n < 32, (0xa0 ||| UInt8.ofNat n) &&& 0xe0 = 0xa0 ∧
      ((0xa0 ||| UInt8.ofNat n) &&& 0x1f).toNat = n := by decide
  exact hall n (by omega)

/-- The first byte of a short array or map keeps its count apart from the mark. -/
theorem count_byte {mark : UInt8} (hmark : mark ∈ [0x80, 0x90]) {n : ℕ} (h : n ≤ 15) :
    (mark ||| UInt8.ofNat n) &&& 0xf0 = mark ∧ ((mark ||| UInt8.ofNat n) &&& 0x0f).toNat = n := by
  have hall : ∀ mark ∈ [(0x80 : UInt8), 0x90], ∀ n < 16, (mark ||| UInt8.ofNat n) &&& 0xf0 = mark ∧
      ((mark ||| UInt8.ofNat n) &&& 0x0f).toNat = n := by decide +kernel
  exact hall mark hmark n (by omega)

/-- The tag of a short string, as the specification has it. -/
theorem fixstr_tag {n : ℕ} (h : n < 32) : UInt8.ofNat (0xa0 + n) = 0xa0 ||| UInt8.ofNat n := by
  have hall : ∀ n < 32, UInt8.ofNat (0xa0 + n) = 0xa0 ||| UInt8.ofNat n := by decide
  exact hall n h

/-- The tag of a short array, as the specification has it. -/
theorem fixarray_tag {n : ℕ} (h : n < 16) : UInt8.ofNat (0x90 + n) = 0x90 ||| UInt8.ofNat n := by
  have hall : ∀ n < 16, UInt8.ofNat (0x90 + n) = 0x90 ||| UInt8.ofNat n := by decide
  exact hall n h

/-- The tag of a short map, as the specification has it. -/
theorem fixmap_tag {n : ℕ} (h : n < 16) : UInt8.ofNat (0x80 + n) = 0x80 ||| UInt8.ofNat n := by
  have hall : ∀ n < 16, UInt8.ofNat (0x80 + n) = 0x80 ||| UInt8.ofNat n := by decide
  exact hall n h

/-! ## One item -/

/-- A number that fits `w` bytes is read back from the `w` bytes written for it. -/
theorem readUint_bigEndian {w n : ℕ} (h : n < 256 ^ w) (rest : Bytes) :
    readUint w (bigEndian w n ++ rest) = some (n, rest) := by
  have hlen : (bigEndian w n).length = w := length_bigEndian w n
  rw [readUint, if_pos (by simp), List.take_left' hlen, List.drop_left' hlen,
    ofBigEndian_bigEndian h]

theorem mpDecodeUint_encode {n : ℕ} (h : n < 2 ^ 64) (rest : Bytes) :
    mpDecodeUint (mpEncodeUint n ++ rest) = some (n, rest) := by
  unfold mpEncodeUint
  split_ifs with h1 h2 h3 h4
  · have hnat : (UInt8.ofNat n).toNat = n := UInt8.toNat_ofNat_of_lt' (by show n < 256; omega)
    have hle : UInt8.ofNat n ≤ 0x7f := by
      rw [UInt8.le_iff_toNat_le, hnat]
      exact h1
    rw [List.singleton_append, mpDecodeUint, if_pos hle, hnat]
  · exact readUint_bigEndian (w := 1) (by norm_num; omega) rest
  · exact readUint_bigEndian (w := 2) (by norm_num; omega) rest
  · exact readUint_bigEndian (w := 4) (by norm_num; omega) rest
  · exact readUint_bigEndian (w := 8) (by norm_num; omega) rest

theorem mpDecodeStr_encode {s : Bytes} (h : s.length < 2 ^ 32) (rest : Bytes) :
    mpDecodeStr (mpEncodeStr s ++ rest) = some (⟨s ++ rest, s.length⟩, rest) := by
  have hlen : ∀ head : Bytes,
      mpDecodeStrLen (head ++ (s ++ rest)) = some (s.length, s ++ rest) →
      mpDecodeStr ((head ++ s) ++ rest) = some (⟨s ++ rest, s.length⟩, rest) := by
    intro head hhead
    rw [mpDecodeStr, List.append_assoc, hhead]
    simp
  unfold mpEncodeStr
  refine hlen _ ?_
  split_ifs with h1 h2 h3
  · obtain ⟨hmark, hcount⟩ := fixstr_byte h1
    rw [List.singleton_append, mpDecodeStrLen, if_pos hmark, hcount]
  · exact readUint_bigEndian (w := 1) (by norm_num; omega) (s ++ rest)
  · exact readUint_bigEndian (w := 2) (by norm_num; omega) (s ++ rest)
  · exact readUint_bigEndian (w := 4) (by norm_num; omega) (s ++ rest)

/-- The string handed out is the one that was written. -/
theorem bytes_strRef (s rest : Bytes) : (⟨s ++ rest, s.length⟩ : StrRef).bytes = some s := by
  rw [StrRef.bytes, if_pos (by simp), List.take_left]

/-- A count in the first byte. -/
theorem mpDecodeCount_fix {fix tag16 tag32 : UInt8} (hfix : fix ∈ [0x80, 0x90]) {n : ℕ}
    (h : n ≤ 15) (rest : Bytes) :
    mpDecodeCount fix tag16 tag32 ((fix ||| UInt8.ofNat n) :: rest) = some (n, rest) := by
  obtain ⟨hmark, hcount⟩ := count_byte hfix h
  rw [mpDecodeCount, if_pos hmark, hcount]

theorem mpDecodeArray_encode {size : ℕ} (h : size < 2 ^ 32) (rest : Bytes) :
    mpDecodeArray (mpEncodeArray size ++ rest) = some (size, rest) := by
  unfold mpEncodeArray
  split_ifs with h1 h2
  · exact mpDecodeCount_fix (by decide) h1 rest
  · exact readUint_bigEndian (w := 2) (by norm_num; omega) rest
  · exact readUint_bigEndian (w := 4) (by norm_num; omega) rest

theorem mpDecodeMap_encode {size : ℕ} (h : size < 2 ^ 32) (rest : Bytes) :
    mpDecodeMap (mpEncodeMap size ++ rest) = some (size, rest) := by
  unfold mpEncodeMap
  split_ifs with h1 h2
  · exact mpDecodeCount_fix (by decide) h1 rest
  · exact readUint_bigEndian (w := 2) (by norm_num; omega) rest
  · exact readUint_bigEndian (w := 4) (by norm_num; omega) rest

/-! ## Sequences -/

/-- Something one call of an encoder writes. -/
inductive Token where
  | uint (num : ℕ)
  | str (s : Bytes)
  | array (size : ℕ)
  | map (size : ℕ)
  deriving DecidableEq

/-- The call that reads it back. -/
inductive Call where
  | uint
  | str
  | array
  | map
  deriving DecidableEq

namespace Token

/-- The arguments are of the types of the encoders: a number of 64 bits, a length or a
count of 32. -/
def Fits : Token → Prop
  | .uint num => num < 2 ^ 64
  | .str s => s.length < 2 ^ 32
  | .array size => size < 2 ^ 32
  | .map size => size < 2 ^ 32

instance (t : Token) : Decidable t.Fits := by
  cases t <;> exact inferInstanceAs (Decidable (_ < _))

def encode : Token → Bytes
  | .uint num => mpEncodeUint num
  | .str s => mpEncodeStr s
  | .array size => mpEncodeArray size
  | .map size => mpEncodeMap size

def call : Token → Call
  | .uint _ => .uint
  | .str _ => .str
  | .array _ => .array
  | .map _ => .map

end Token

/-- One decoding call: what it returns, a string with its bytes, and the read pointer it
leaves. -/
def Call.decode (data : Bytes) : Call → Option (Token × Bytes)
  | .uint => (mpDecodeUint data).map fun (num, p) => (.uint num, p)
  | .str => (mpDecodeStr data).bind fun (r, p) => r.bytes.map fun s => (.str s, p)
  | .array => (mpDecodeArray data).map fun (size, p) => (.array size, p)
  | .map => (mpDecodeMap data).map fun (size, p) => (.map size, p)

/-- The items, encoded one after another. -/
def encodeTokens (l : List Token) : Bytes := l.flatMap Token.encode

/-- The calls, made one after another. -/
def decodeTokens : List Call → Bytes → Option (List Token × Bytes)
  | [], data => some ([], data)
  | call :: calls, data =>
      (call.decode data).bind fun (t, p) =>
        (decodeTokens calls p).map fun (l, p) => (t :: l, p)

theorem decode_encode {t : Token} (h : t.Fits) (rest : Bytes) :
    t.call.decode (t.encode ++ rest) = some (t, rest) := by
  cases t with
  | uint num =>
    show (mpDecodeUint (mpEncodeUint num ++ rest)).map _ = _
    rw [mpDecodeUint_encode h]
    rfl
  | str s =>
    show (mpDecodeStr (mpEncodeStr s ++ rest)).bind _ = _
    rw [mpDecodeStr_encode h, Option.bind_some]
    simp only
    rw [bytes_strRef]
    rfl
  | array size =>
    show (mpDecodeArray (mpEncodeArray size ++ rest)).map _ = _
    rw [mpDecodeArray_encode h]
    rfl
  | map size =>
    show (mpDecodeMap (mpEncodeMap size ++ rest)).map _ = _
    rw [mpDecodeMap_encode h]
    rfl

end Msgpuck

open Msgpuck

/-- **The round trip.**  Whatever numbers, strings, array and map headers are encoded one
after another, the matching decoding calls return them, and leave the read pointer at
the bytes behind. -/
theorem decodeTokens_encodeTokens {l : List Token} (h : ∀ t ∈ l, t.Fits) (rest : Bytes) :
    decodeTokens (l.map Token.call) (encodeTokens l ++ rest) = some (l, rest) := by
  induction l with
  | nil => rfl
  | cons t l ih =>
    obtain ⟨ht, hl⟩ := List.forall_mem_cons.1 h
    have hsplit : encodeTokens (t :: l) ++ rest = t.encode ++ (encodeTokens l ++ rest) := by
      rw [encodeTokens, List.flatMap_cons, List.append_assoc]
      rfl
    rw [hsplit, List.map_cons, decodeTokens, decode_encode ht, Option.bind_some]
    simp only
    rw [ih hl]
    rfl

/-- The largest number, a string just too long for one byte, and headers at the limits of
their widths. -/
theorem decodeTokens_encodeTokens_limits :
    decodeTokens [.map, .uint, .str, .array]
        (encodeTokens [.map 16, .uint (2 ^ 64 - 1), .str (List.replicate 32 65), .array 65536] ++
          [0xc0]) =
      some ([.map 16, .uint (2 ^ 64 - 1), .str (List.replicate 32 65), .array 65536], [0xc0]) :=
  decodeTokens_encodeTokens
    (l := [.map 16, .uint (2 ^ 64 - 1), .str (List.replicate 32 65), .array 65536])
    (by decide) [0xc0]

end VoipBackend
