import VoipBackend.Lib.Blocks
import VoipBackend.Lib.Bytes

/-!
# SHA-1

The secure hash of RFC 3174 for messages that are whole bytes, written down as the
standard has it: the message is padded as a whole, and the compression function is folded
over its blocks of 64 bytes.  Nothing here depends on the program it is used for.

* `S`, `f`, `k` — the circular shift, the functions and the constants of the eighty rounds.
* `W` — the words of a block, sixteen taken from it and sixty-four computed.
* `compress` — what a block makes of the five words of the hash.
* `pad` — the message with its padding, a whole number of blocks.
-/

namespace Library

namespace Sha1

/-- The five words of a hash. -/
structure Hash where
  a : UInt32
  b : UInt32
  c : UInt32
  d : UInt32
  e : UInt32
  deriving DecidableEq

/-- The hash of no blocks. -/
def Hash.init : Hash := ⟨0x67452301, 0xefcdab89, 0x98badcfe, 0x10325476, 0xc3d2e1f0⟩

/-- The bytes of a hash. -/
def Hash.bytes (h : Hash) : Bytes :=
  bigEndian 4 h.a.toNat ++ bigEndian 4 h.b.toNat ++ bigEndian 4 h.c.toNat ++
    bigEndian 4 h.d.toNat ++ bigEndian 4 h.e.toNat

/-- The circular left shift by `n` bits. -/
def S (n x : UInt32) : UInt32 := (x <<< n) ||| (x >>> (32 - n))

/-- The function of round `t`. -/
def f (t : ℕ) (b c d : UInt32) : UInt32 :=
  if t < 20 then (b &&& c) ||| (~~~b &&& d)
  else if t < 40 then b ^^^ c ^^^ d
  else if t < 60 then (b &&& c) ||| (b &&& d) ||| (c &&& d)
  else b ^^^ c ^^^ d

/-- The constant of round `t`. -/
def k (t : ℕ) : UInt32 :=
  if t < 20 then 0x5a827999
  else if t < 40 then 0x6ed9eba1
  else if t < 60 then 0x8f1bbcdc
  else 0xca62c1d6

/-- The sixteen words a block consists of. -/
def words (block : Bytes) : List UInt32 :=
  (List.range 16).map fun t => UInt32.ofNat (ofBigEndian ((block.drop (4 * t)).take 4))

/-- Word `t`, from those before it. -/
def nextWord (w : List UInt32) (t : ℕ) : UInt32 :=
  S 1 (w.getD (t - 3) 0 ^^^ w.getD (t - 8) 0 ^^^ w.getD (t - 14) 0 ^^^ w.getD (t - 16) 0)

/-- The eighty words of a block. -/
def W (block : Bytes) : List UInt32 :=
  (List.range' 16 64).foldl (fun w t => w ++ [nextWord w t]) (words block)

theorem length_foldl_nextWord (ts : List ℕ) (w : List UInt32) :
    (ts.foldl (fun w t => w ++ [nextWord w t]) w).length = w.length + ts.length := by
  induction ts generalizing w with
  | nil => rfl
  | cons t ts ih =>
    rw [List.foldl_cons, ih, List.length_append, List.length_singleton, List.length_cons,
      Nat.add_assoc, Nat.add_comm 1]

theorem length_W (block : Bytes) : (W block).length = 80 := by
  rw [W, length_foldl_nextWord, words, List.length_map, List.length_range, List.length_range']

/-- Round `t`. -/
def round (w : List UInt32) (h : Hash) (t : ℕ) : Hash :=
  ⟨S 5 h.a + f t h.b h.c h.d + h.e + w.getD t 0 + k t, h.a, S 30 h.b, h.c, h.d⟩

/-- What a block makes of the hash of the blocks before it. -/
def compress (h : Hash) (block : Bytes) : Hash :=
  let h' := (List.range' 0 80).foldl (round (W block)) h
  ⟨h.a + h'.a, h.b + h'.b, h.c + h'.c, h.d + h'.d, h.e + h'.e⟩

/-- The number of zero bytes in the padding of a message of `n` bytes. -/
def zeros (n : ℕ) : ℕ := (119 - n % 64) % 64

/-- The message, a one bit, zeros, and the number of bits of the message. -/
def pad (m : Bytes) : Bytes :=
  m ++ [0x80] ++ List.replicate (zeros m.length) 0 ++ bigEndian 8 (8 * m.length)

end Sha1

/-- The SHA-1 digest of a message. -/
def sha1 (m : Bytes) : Bytes :=
  (absorb Sha1.compress 64 Sha1.Hash.init (Sha1.pad m)).bytes

-- the first test of the standard
example : sha1 (ascii "abc") =
    [0xa9, 0x99, 0x3e, 0x36, 0x47, 0x06, 0x81, 0x6a, 0xba, 0x3e, 0x25, 0x71, 0x78, 0x50,
      0xc2, 0x6c, 0x9c, 0xd0, 0xd8, 0x9d] := by
  decide +kernel

end Library
