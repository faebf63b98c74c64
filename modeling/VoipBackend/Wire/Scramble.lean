import VoipBackend.Wire.Msgpuck

/-!
# The CHAP-SHA1 scramble

What the OpenSIPS and the RTPEngine driver compute before they send `IPROTO_AUTH`:
the salt of the greeting is decoded from base64, the password is hashed with the
embedded SHA-1, and the scramble travels in the request.  The two drivers carry
identical copies of this code.
-/

namespace VoipBackend

open Library Msgpuck

/-! ## Base64 -/

/-- `tnt_b64_table`. -/
def tntB64Table : List ℤ :=
  [-1, -1, -1, -1, -1, -1, -1, -1, -1, -1, -1, -1, -1, -1, -1, -1,
    -1, -1, -1, -1, -1, -1, -1, -1, -1, -1, -1, -1, -1, -1, -1, -1,
    -1, -1, -1, -1, -1, -1, -1, -1, -1, -1, -1, 62, -1, -1, -1, 63,
    52, 53, 54, 55, 56, 57, 58, 59, 60, 61, -1, -1, -1, -1, -1, -1,
    -1, 0, 1, 2, 3, 4, 5, 6, 7, 8, 9, 10, 11, 12, 13, 14,
    15, 16, 17, 18, 19, 20, 21, 22, 23, 24, 25, -1, -1, -1, -1, -1,
    -1, 26, 27, 28, 29, 30, 31, 32, 33, 34, 35, 36, 37, 38, 39, 40,
    41, 42, 43, 44, 45, 46, 47, 48, 49, 50, 51, -1, -1, -1, -1, -1] ++ List.replicate 128 (-1)

/-- The local variables of `tnt_base64_decode`, with the `j` bytes written so far. -/
structure Base64State where
  buf : UInt32
  bits : ℕ
  dst : Bytes

/-- The body of the loop, for a destination of `dlen` bytes. -/
def Base64State.step (dlen : ℕ) (s : Base64State) (c : UInt8) : Base64State :=
  let val := tntB64Table.getD c.toNat (-1)
  if val < 0 then s
  else
    let buf := (s.buf <<< 6) ||| UInt32.ofNat val.toNat
    if 8 ≤ s.bits + 6 then
      let bits := s.bits + 6 - 8
      ⟨buf, bits, if s.dst.length < dlen then s.dst ++ [(buf >>> UInt32.ofNat bits).toUInt8]
        else s.dst⟩
    else ⟨buf, s.bits + 6, s.dst⟩

/-- `tnt_base64_decode`: the bytes it writes; their number is what it returns.  The loop
stops at a padding character or a NUL byte. -/
def tntBase64Decode (src : Bytes) (dlen : ℕ) : Bytes :=
  ((src.takeWhile fun c => decide (c ≠ 0 ∧ c ≠ 61)).foldl (Base64State.step dlen) ⟨0, 0, []⟩).dst

/-! ## SHA-1 -/

/-- `context->state`. -/
structure Sha1State where
  a : UInt32
  b : UInt32
  c : UInt32
  d : UInt32
  e : UInt32
  deriving DecidableEq

/-- `tnt_sha1_ctx_t`. -/
structure Sha1Ctx where
  state : Sha1State
  count0 : UInt32
  count1 : UInt32
  buffer : Bytes

/-- `TNT_SHA1_ROL`. -/
def tntSha1Rol (value bits : UInt32) : UInt32 := (value <<< bits) ||| (value >>> (32 - bits))

/-- The first sixteen words of `block`. -/
def sha1Words : ℕ → Bytes → List UInt32
  | 0, _ => []
  | n + 1, buffer => UInt32.ofNat (ofBigEndian (buffer.take 4)) :: sha1Words n (buffer.drop 4)

/-- The words of `block` after `n` more of them are computed.  The list is kept in
reverse, so that the word `k` steps back is at position `k - 1`. -/
def sha1Schedule : ℕ → List UInt32 → List UInt32
  | 0, block => block
  | n + 1, block =>
      let w := tntSha1Rol
        (block.getD 2 0 ^^^ block.getD 7 0 ^^^ block.getD 13 0 ^^^ block.getD 15 0) 1
      sha1Schedule n (w :: block)

/-- The function and the constant of round `i`. -/
def sha1Round (i : ℕ) (b c d : UInt32) : UInt32 × UInt32 :=
  if i < 20 then ((b &&& c) ||| (~~~b &&& d), 0x5a827999)
  else if i < 40 then (b ^^^ c ^^^ d, 0x6ed9eba1)
  else if i < 60 then ((b &&& c) ||| (b &&& d) ||| (c &&& d), 0x8f1bbcdc)
  else (b ^^^ c ^^^ d, 0xca62c1d6)

/-- The rounds from `i` on, with the words that are left. -/
def sha1Rounds : ℕ → List UInt32 → Sha1State → Sha1State
  | _, [], s => s
  | i, w :: ws, s =>
      let (f, k) := sha1Round i s.b s.c s.d
      let temp := tntSha1Rol s.a 5 + f + s.e + w + k
      sha1Rounds (i + 1) ws ⟨temp, s.a, tntSha1Rol s.b 30, s.c, s.d⟩

/-- `tnt_sha1_transform`. -/
def tntSha1Transform (state : Sha1State) (buffer : Bytes) : Sha1State :=
  let s := sha1Rounds 0 (sha1Schedule 64 (sha1Words 16 buffer).reverse).reverse state
  ⟨state.a + s.a, state.b + s.b, state.c + s.c, state.d + s.d, state.e + s.e⟩

/-- `tnt_sha1_init`; the buffer is not set. -/
def tntSha1Init : Sha1Ctx :=
  ⟨⟨0x67452301, 0xefcdab89, 0x98badcfe, 0x10325476, 0xc3d2e1f0⟩, 0, 0, List.replicate 64 0⟩

/-- `memcpy(&buffer[j], data, data.length)`. -/
def copyInto (buffer : Bytes) (j : ℕ) (data : Bytes) : Bytes :=
  buffer.take j ++ data ++ buffer.drop (j + data.length)

/-- The loop of `tnt_sha1_update` over the whole blocks of `data`, from index `i` on, with
the index it ends at.  The fuel is the length of the data. -/
def sha1Blocks (data : Bytes) (len : UInt32) : ℕ → Sha1State → UInt32 → Sha1State × UInt32
  | 0, state, i => (state, i)
  | fuel + 1, state, i =>
      if i + 63 < len then
        sha1Blocks data len fuel (tntSha1Transform state ((data.drop i.toNat).take 64)) (i + 64)
      else (state, i)

/-- `tnt_sha1_update`. -/
def tntSha1Update (ctx : Sha1Ctx) (data : Bytes) : Sha1Ctx :=
  let len := UInt32.ofNat data.length
  let j := (ctx.count0 >>> 3) &&& 63
  let count0 := ctx.count0 + (len <<< 3)
  let count1 := (if count0 < len <<< 3 then ctx.count1 + 1 else ctx.count1) + (len >>> 29)
  if 63 < j + len then
    let buffer := copyInto ctx.buffer j.toNat (data.take (64 - j).toNat)
    let loop := sha1Blocks data len data.length (tntSha1Transform ctx.state buffer) (64 - j)
    ⟨loop.1, count0, count1, copyInto buffer 0 (data.drop loop.2.toNat)⟩
  else ⟨ctx.state, count0, count1, copyInto ctx.buffer j.toNat data⟩

/-- The loop that pads with zero bytes.  A block has 64 bytes, so it stops within 64
rounds. -/
def sha1Pad : ℕ → Sha1Ctx → Sha1Ctx
  | 0, ctx => ctx
  | fuel + 1, ctx =>
      if ctx.count0 &&& 504 ≠ 448 then sha1Pad fuel (tntSha1Update ctx [0]) else ctx

/-- `tnt_sha1_final`. -/
def tntSha1Final (ctx : Sha1Ctx) : Bytes :=
  let finalcount := bigEndian 4 ctx.count1.toNat ++ bigEndian 4 ctx.count0.toNat
  let ctx := tntSha1Update (sha1Pad 64 (tntSha1Update ctx [0x80])) finalcount
  bigEndian 4 ctx.state.a.toNat ++ bigEndian 4 ctx.state.b.toNat ++
    bigEndian 4 ctx.state.c.toNat ++ bigEndian 4 ctx.state.d.toNat ++
    bigEndian 4 ctx.state.e.toNat

/-- `tnt_sha1`. -/
def tntSha1 (data : Bytes) : Bytes := tntSha1Final (tntSha1Update tntSha1Init data)

/-! ## The request -/

/-- `TNT_SHA1_DIGEST_SIZE`. -/
def tntSha1DigestSize : ℕ := 20

/-- `scramble`: `h1 XOR SHA1(salt + SHA1(h1))` with `h1 = SHA1(password)`. -/
def scramble (password rawSalt : Bytes) : Bytes :=
  let h1 := tntSha1 password
  let h2 := tntSha1 h1
  let h3 := tntSha1 (rawSalt.take tntSha1DigestSize ++ h2)
  List.zipWith (· ^^^ ·) h1 h3

/-- The packet `tnt_auth_scramble` builds. -/
def authPacket (user password rawSalt : Bytes) (syncId : ℕ) : Bytes :=
  frame
    (mpEncodeMap 2 ++
      mpEncodeUint iprotoRequestType ++ mpEncodeUint iprotoAuth ++
      mpEncodeUint iprotoSync ++ mpEncodeUint syncId ++
    mpEncodeMap 2 ++
      mpEncodeUint iprotoUserName ++ mpEncodeStr user ++
      mpEncodeUint iprotoTuple ++ mpEncodeArray 2 ++
        mpEncodeStr (ascii "chap-sha1") ++ mpEncodeBin (scramble password rawSalt))

end VoipBackend
