import VoipBackend.Lib.MessagePack

/-!
# The MessagePack codec of the drivers

`msgpuck.h`, which the OpenSIPS and the RTPEngine driver carry in identical copies.
An encoder of the source writes at a pointer and returns the pointer behind what it
wrote; here it returns the bytes it writes.  Numbers are taken as naturals and cut
off to bytes where the source casts to `char`.

A decoder reads at a pointer and moves it.  A pointer into a buffer is the list of the
bytes from there to the end of the buffer, and a read at the end of the buffer has no
result.  Moving a pointer past the end is not a read: it leaves no bytes to read.
-/

namespace VoipBackend

open Library

namespace Msgpuck

/-- `mp_encode_uint`. -/
def mpEncodeUint (num : ℕ) : Bytes :=
  if num ≤ 0x7f then [UInt8.ofNat num]
  else if num ≤ 0xff then 0xcc :: bigEndian 1 num
  else if num ≤ 0xffff then 0xcd :: bigEndian 2 num
  else if num ≤ 0xffffffff then 0xce :: bigEndian 4 num
  else 0xcf :: bigEndian 8 num

/-- `mp_encode_str`. -/
def mpEncodeStr (str : Bytes) : Bytes :=
  (if str.length ≤ 31 then [0xa0 ||| UInt8.ofNat str.length]
    else if str.length ≤ 0xff then 0xd9 :: bigEndian 1 str.length
    else if str.length ≤ 0xffff then 0xda :: bigEndian 2 str.length
    else 0xdb :: bigEndian 4 str.length) ++ str

/-- `mp_encode_bin`. -/
def mpEncodeBin (bin : Bytes) : Bytes :=
  (if bin.length ≤ 0xff then 0xc4 :: bigEndian 1 bin.length
    else if bin.length ≤ 0xffff then 0xc5 :: bigEndian 2 bin.length
    else 0xc6 :: bigEndian 4 bin.length) ++ bin

/-- `mp_encode_array`. -/
def mpEncodeArray (size : ℕ) : Bytes :=
  if size ≤ 15 then [0x90 ||| UInt8.ofNat size]
  else if size ≤ 0xffff then 0xdc :: bigEndian 2 size
  else 0xdd :: bigEndian 4 size

/-- `mp_encode_map`. -/
def mpEncodeMap (size : ℕ) : Bytes :=
  if size ≤ 15 then [0x80 ||| UInt8.ofNat size]
  else if size ≤ 0xffff then 0xde :: bigEndian 2 size
  else 0xdf :: bigEndian 4 size

/-! ## Decoders -/

/-- `w` bytes read at `p` as one number, the most significant byte first. -/
def readUint (w : ℕ) (p : Bytes) : Option (ℕ × Bytes) :=
  if w ≤ p.length then some (ofBigEndian (p.take w), p.drop w) else none

/-- `mp_decode_uint`.  A byte that starts no unsigned number is skipped and read as 0. -/
def mpDecodeUint : Bytes → Option (ℕ × Bytes)
  | [] => none
  | c :: p =>
      if c ≤ 0x7f then some (c.toNat, p)
      else if c = 0xcc then readUint 1 p
      else if c = 0xcd then readUint 2 p
      else if c = 0xce then readUint 4 p
      else if c = 0xcf then readUint 8 p
      else some (0, p)

/-- A string in the buffer: the pointer and the length `mp_decode_str` hands out.  The
bytes themselves are not read yet. -/
structure StrRef where
  s : Bytes
  len : ℕ
  deriving DecidableEq

/-- The bytes of a string, as a `memcpy` reads them. -/
def StrRef.bytes (r : StrRef) : Option Bytes :=
  if r.len ≤ r.s.length then some (r.s.take r.len) else none

/-- The length of the string at `p`; a byte that starts no string is read as an empty
one. -/
def mpDecodeStrLen : Bytes → Option (ℕ × Bytes)
  | [] => none
  | c :: p =>
      if c &&& 0xe0 = 0xa0 then some ((c &&& 0x1f).toNat, p)
      else if c = 0xd9 then readUint 1 p
      else if c = 0xda then readUint 2 p
      else if c = 0xdb then readUint 4 p
      else some (0, p)

/-- `mp_decode_str`. -/
def mpDecodeStr (data : Bytes) : Option (StrRef × Bytes) := do
  let (l, p) ← mpDecodeStrLen data
  return (⟨p, l⟩, p.drop l)

/-- The count of an array or a map; a byte that starts none is read as an empty one. -/
def mpDecodeCount (fix tag16 tag32 : UInt8) : Bytes → Option (ℕ × Bytes)
  | [] => none
  | c :: p =>
      if c &&& 0xf0 = fix then some ((c &&& 0x0f).toNat, p)
      else if c = tag16 then readUint 2 p
      else if c = tag32 then readUint 4 p
      else some (0, p)

/-- `mp_decode_array`. -/
def mpDecodeArray : Bytes → Option (ℕ × Bytes) := mpDecodeCount 0x90 0xdc 0xdd

/-- `mp_decode_map`. -/
def mpDecodeMap : Bytes → Option (ℕ × Bytes) := mpDecodeCount 0x80 0xde 0xdf

/-- The loop `for (i = 0; i < count; i++) f(&p)`. -/
def repeatRead (f : Bytes → Option Bytes) : ℕ → Bytes → Option Bytes
  | 0, p => some p
  | count + 1, p => (f p).bind (repeatRead f count)

/-- `mp_next`, for values nested up to `depth` times.  Every level reads a byte of its
own, so the length of the buffer is depth enough.  Lengths and counts are 32-bit
numbers and wrap around as such. -/
def mpNextUpTo : ℕ → Bytes → Option Bytes
  | 0, _ => none
  | _ + 1, [] => none
  | depth + 1, c :: p =>
      if c ≤ 0x7f ∨ 0xe0 ≤ c then some p
      else if c &&& 0xe0 = 0xa0 then some (p.drop (c &&& 0x1f).toNat)
      else if c &&& 0xf0 = 0x90 then repeatRead (mpNextUpTo depth) (c &&& 0x0f).toNat p
      else if c &&& 0xf0 = 0x80 then repeatRead (mpNextUpTo depth) ((c &&& 0x0f).toNat * 2) p
      else if c = 0xc0 ∨ c = 0xc2 ∨ c = 0xc3 then some p
      else if c = 0xcc ∨ c = 0xd0 then some (p.drop 1)
      else if c = 0xcd ∨ c = 0xd1 then some (p.drop 2)
      else if c = 0xce ∨ c = 0xd2 then some (p.drop 4)
      else if c = 0xcf ∨ c = 0xd3 then some (p.drop 8)
      else if c = 0xd9 ∨ c = 0xc4 then (readUint 1 p).map fun (n, _) => p.drop (1 + n)
      else if c = 0xda ∨ c = 0xc5 then (readUint 2 p).map fun (n, _) => p.drop (2 + n)
      else if c = 0xdb ∨ c = 0xc6 then (readUint 4 p).map fun (n, _) => p.drop ((4 + n) % 2 ^ 32)
      else if c = 0xdc then (readUint 2 p).bind fun (n, p) => repeatRead (mpNextUpTo depth) n p
      else if c = 0xdd then (readUint 4 p).bind fun (n, p) => repeatRead (mpNextUpTo depth) n p
      else if c = 0xde then
        (readUint 2 p).bind fun (n, p) => repeatRead (mpNextUpTo depth) (n * 2) p
      else if c = 0xdf then
        (readUint 4 p).bind fun (n, p) => repeatRead (mpNextUpTo depth) (n * 2 % 2 ^ 32) p
      else some p

/-- `mp_next`. -/
def mpNext (data : Bytes) : Option Bytes := mpNextUpTo data.length data

end Msgpuck

/-! ## IProto -/

/-- `IPROTO_REQUEST_TYPE`. -/
def iprotoRequestType : ℕ := 0x00

/-- `IPROTO_SYNC`. -/
def iprotoSync : ℕ := 0x01

/-- `IPROTO_SPACE_ID`. -/
def iprotoSpaceId : ℕ := 0x10

/-- `IPROTO_INDEX_ID`. -/
def iprotoIndexId : ℕ := 0x11

/-- `IPROTO_LIMIT`. -/
def iprotoLimit : ℕ := 0x12

/-- `IPROTO_OFFSET`. -/
def iprotoOffset : ℕ := 0x13

/-- `IPROTO_ITERATOR`. -/
def iprotoIterator : ℕ := 0x14

/-- `IPROTO_KEY`. -/
def iprotoKey : ℕ := 0x20

/-- `IPROTO_TUPLE`. -/
def iprotoTuple : ℕ := 0x21

/-- `IPROTO_FUNCTION_NAME`. -/
def iprotoFunctionName : ℕ := 0x22

/-- `IPROTO_USER_NAME`. -/
def iprotoUserName : ℕ := 0x23

/-- `IPROTO_EXPR`. -/
def iprotoExpr : ℕ := 0x27

/-- `IPROTO_DATA`. -/
def iprotoData : ℕ := 0x30

/-- `IPROTO_OK`. -/
def iprotoOk : ℕ := 0x00

/-- `IPROTO_SELECT`. -/
def iprotoSelect : ℕ := 0x01

/-- `IPROTO_REPLACE`. -/
def iprotoReplace : ℕ := 0x03

/-- `IPROTO_DELETE`. -/
def iprotoDelete : ℕ := 0x05

/-- `IPROTO_CALL`. -/
def iprotoCall : ℕ := 0x06

/-- `TNT_IPROTO_CALL`: the Kamailio driver calls a procedure with another type. -/
def tntIprotoCall : ℕ := 0x0a

/-- `IPROTO_AUTH`. -/
def iprotoAuth : ℕ := 0x07

/-- `IPROTO_EVAL`. -/
def iprotoEval : ℕ := 0x08

/-- A payload behind its length: the tag `MP_UINT32` and four bytes. -/
def frame (payload : Bytes) : Bytes := 0xce :: bigEndian 4 payload.length ++ payload

/-! ## Sizes -/

/-- `(int)size`. -/
def toInt (size : ℕ) : ℤ := (Int32.ofNat size).toInt

theorem toInt_of_lt {n : ℕ} (h : n < 2 ^ 31) : toInt n = n := by
  rw [toInt, Int32.toInt_ofNat_of_lt h]

theorem toInt_neg {n : ℕ} (h : 2 ^ 31 ≤ n) (hlt : n < 2 ^ 32) : toInt n < 0 := by
  rw [toInt, Int32.toInt_ofNat']
  simp only [Int.bmod, Int32.size]
  omega

end VoipBackend
