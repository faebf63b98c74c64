import VoipBackend.Lib.Sha1
import VoipBackend.Wire.Scramble

/-!
# The embedded SHA-1

The drivers compute the digest piece by piece: `tnt_sha1_update` keeps the bytes that do
not fill a block in a buffer and counts the bits in two words, and `tnt_sha1_final` feeds
the padding one byte at a time through the same function.

`Represents` says what the context holds after the bytes that were fed so far; every
update keeps it (`represents_update`), so the digest is the one of the standard, in
whatever pieces the message is fed (`tntSha1_eq_sha1`).
-/

namespace VoipBackend

open Library

/-- The words of the state. -/
def Sha1State.hash (s : Sha1State) : Sha1.Hash := ⟨s.a, s.b, s.c, s.d, s.e⟩

/-! ## The transformation -/

theorem sha1Words_eq (n : ℕ) (block : Bytes) :
    sha1Words n block =
      (List.range n).map fun t => UInt32.ofNat (ofBigEndian ((block.drop (4 * t)).take 4)) := by
  induction n generalizing block with
  | zero => rfl
  | succ n ih =>
    rw [sha1Words, ih, List.range_succ_eq_map, List.map_cons, List.map_map]
    congr 1
    refine List.map_congr_left fun t _ => ?_
    rw [List.drop_drop, Function.comp_apply, Nat.mul_succ, Nat.add_comm 4]

/-- The words that are computed, the list being kept in reverse. -/
theorem sha1Schedule_eq (n : ℕ) {w : List UInt32} (hw : 16 ≤ w.length) :
    (sha1Schedule n w.reverse).reverse =
      (List.range' w.length n).foldl (fun w t => w ++ [Sha1.nextWord w t]) w := by
  induction n generalizing w with
  | zero => rw [sha1Schedule, List.reverse_reverse]; rfl
  | succ n ih =>
    have hback : ∀ i, i < 16 → w.reverse.getD i 0 = w.getD (w.length - (i + 1)) 0 := by
      intro i hi
      rw [List.getD_reverse i (by omega), Nat.sub_sub, Nat.add_comm 1]
    have hword : tntSha1Rol (w.reverse.getD 2 0 ^^^ w.reverse.getD 7 0 ^^^ w.reverse.getD 13 0 ^^^
        w.reverse.getD 15 0) 1 = Sha1.nextWord w w.length := by
      rw [hback 2 (by omega), hback 7 (by omega), hback 13 (by omega), hback 15 (by omega)]
      rfl
    have hcons : Sha1.nextWord w w.length :: w.reverse =
        (w ++ [Sha1.nextWord w w.length]).reverse := by
      rw [List.reverse_append]
      rfl
    rw [sha1Schedule, hword, hcons, ih (by rw [List.length_append]; omega), List.range'_succ,
      List.foldl_cons, List.length_append]
    rfl

theorem sha1Round_eq (t : ℕ) (b c d : UInt32) :
    sha1Round t b c d = (Sha1.f t b c d, Sha1.k t) := by
  rw [sha1Round, Sha1.f, Sha1.k]
  split_ifs <;> rfl

/-- The rounds, those of the words `done` being over. -/
theorem sha1Rounds_eq (done ws : List UInt32) (s : Sha1State) :
    (sha1Rounds done.length ws s).hash =
      (List.range' done.length ws.length).foldl (Sha1.round (done ++ ws)) s.hash := by
  induction ws generalizing done s with
  | nil => rfl
  | cons w ws ih =>
    have hword : (done ++ w :: ws).getD done.length 0 = w := by
      rw [List.getD_append_right _ _ _ _ le_rfl, Nat.sub_self]
      rfl
    have hround : Sha1.round (done ++ w :: ws) s.hash done.length =
        Sha1State.hash ⟨tntSha1Rol s.a 5 + Sha1.f done.length s.b s.c s.d + s.e + w +
          Sha1.k done.length, s.a, tntSha1Rol s.b 30, s.c, s.d⟩ := by
      rw [Sha1.round, hword]
      rfl
    have hdone : done ++ w :: ws = (done ++ [w]) ++ ws := by simp
    have hlen : done.length + 1 = (done ++ [w]).length := by simp
    rw [sha1Rounds, sha1Round_eq, List.length_cons, List.range'_succ, List.foldl_cons, hround,
      hdone, hlen]
    exact ih _ _

/-- `tnt_sha1_transform` is the compression function of the standard. -/
theorem hash_tntSha1Transform (s : Sha1State) (block : Bytes) :
    (tntSha1Transform s block).hash = Sha1.compress s.hash block := by
  have hwords : (sha1Schedule 64 (sha1Words 16 block).reverse).reverse = Sha1.W block := by
    have hlen : (sha1Words 16 block).length = 16 := by simp [sha1Words_eq]
    rw [sha1Schedule_eq 64 hlen.ge, hlen, sha1Words_eq]
    rfl
  have hrounds := sha1Rounds_eq [] (Sha1.W block) s
  rw [List.length_nil, Sha1.length_W, List.nil_append] at hrounds
  rw [tntSha1Transform, hwords, Sha1.compress, ← hrounds]
  generalize sha1Rounds 0 (Sha1.W block) s = s'
  rfl

/-! ## An update -/

/-- Indices into a piece that begins `j` bytes into a block do not wrap around. -/
theorem toNat_add_63 {i : UInt32} {n j : ℕ} (hj : (i.toNat + j) % 64 = 0) (hi : i.toNat ≤ n)
    (hn : n + j < 2 ^ 32) : (i + 63).toNat = i.toNat + 63 := by
  have h63 : (63 : UInt32).toNat = 63 := rfl
  rw [UInt32.toNat_add, h63]
  omega

/-- **The loop over the whole blocks.**  It absorbs what there is from index `i` on, and
ends where less than a block is left. -/
theorem sha1Blocks_eq {data : Bytes} {j : ℕ} (hn : data.length + j < 2 ^ 32) (fuel : ℕ)
    (s : Sha1State) {i : UInt32} (hj : (i.toNat + j) % 64 = 0) (hi : i.toNat ≤ data.length)
    (hfuel : data.length < i.toNat + 64 * fuel) :
    (sha1Blocks data (.ofNat data.length) fuel s i).1.hash =
        absorb Sha1.compress 64 s.hash (data.drop i.toNat) ∧
      data.drop (sha1Blocks data (.ofNat data.length) fuel s i).2.toNat =
        leftover 64 (data.drop i.toNat) := by
  induction fuel generalizing s i with
  | zero => omega
  | succ fuel ih =>
    have hlen := UInt32.toNat_ofNat_of_lt' (show data.length < 2 ^ 32 by omega)
    have hrest : (data.drop i.toNat).length = data.length - i.toNat := List.length_drop
    have htest : i + 63 < UInt32.ofNat data.length ↔ i.toNat + 63 < data.length := by
      rw [UInt32.lt_iff_toNat_lt, hlen, toNat_add_63 hj hi hn]
    rw [sha1Blocks]
    split_ifs with hblock <;> rw [htest] at hblock
    · have h64 : (64 : UInt32).toNat = 64 := rfl
      have hnext : (i + 64).toNat = i.toNat + 64 := by
        rw [UInt32.toNat_add, h64]
        omega
      have hb : ((data.drop i.toNat).take 64).length = 64 := by
        rw [List.length_take, hrest]
        omega
      have hsplit : data.drop i.toNat =
          (data.drop i.toNat).take 64 ++ data.drop (i.toNat + 64) := by
        rw [← List.drop_drop, List.take_append_drop]
      obtain ⟨hstate, hindex⟩ := ih (tntSha1Transform s ((data.drop i.toNat).take 64))
        (i := i + 64) (by omega) (by omega) (by omega)
      rw [hnext] at hstate hindex
      rw [hstate, hindex, hash_tntSha1Transform]
      constructor
      · conv_rhs => rw [hsplit]
        rw [absorb_block_append (by norm_num) _ hb]
      · conv_rhs => rw [hsplit]
        rw [leftover_block_append (by norm_num) hb]
    · have hshort : (data.drop i.toNat).length < 64 := by omega
      exact ⟨(absorb_of_length_lt _ hshort).symm, (leftover_of_length_lt hshort).symm⟩

/-- The two words of the bit counter, as one number. -/
def Sha1Ctx.bits (ctx : Sha1Ctx) : ℕ := 2 ^ 32 * ctx.count1.toNat + ctx.count0.toNat

/-- The carry between the words. -/
theorem bits_add (count0 count1 : UInt32) {n : ℕ} (hn : n < 2 ^ 32) :
    2 ^ 32 * ((if count0 + (UInt32.ofNat n <<< 3) < UInt32.ofNat n <<< 3 then count1 + 1
        else count1) + (UInt32.ofNat n >>> 29)).toNat + (count0 + (UInt32.ofNat n <<< 3)).toNat =
      (2 ^ 32 * count1.toNat + count0.toNat + 8 * n) % 2 ^ 64 := by
  have hlen : (UInt32.ofNat n).toNat = n := UInt32.toNat_ofNat_of_lt' hn
  have hshl : (UInt32.ofNat n <<< 3).toNat = 8 * n % 2 ^ 32 := by
    rw [UInt32.toNat_shiftLeft, hlen, Nat.shiftLeft_eq]
    have h3 : (3 : UInt32).toNat % 32 = 3 := rfl
    rw [h3]
    omega
  have hshr : (UInt32.ofNat n >>> 29).toNat = n / 2 ^ 29 := by
    rw [UInt32.toNat_shiftRight, hlen, Nat.shiftRight_eq_div_pow]
    rfl
  have hone : (1 : UInt32).toNat = 1 := rfl
  have h0 := count0.toNat_lt
  have h1 := count1.toNat_lt
  have hlow : (count0 + (UInt32.ofNat n <<< 3)).toNat =
      (count0.toNat + 8 * n % 2 ^ 32) % 2 ^ 32 := by
    rw [UInt32.toNat_add, hshl]
  -- the sum of the low words wraps around exactly when it comes out below an addend
  split_ifs with hcarry <;> rw [UInt32.lt_iff_toNat_lt, hlow, hshl] at hcarry
  · rw [UInt32.toNat_add, UInt32.toNat_add, hone, hshr, hlow]
    omega
  · rw [UInt32.toNat_add, hshr, hlow]
    omega

/-- What the context holds after the bytes `m`. -/
structure Represents (ctx : Sha1Ctx) (m : Bytes) : Prop where
  /-- The whole blocks are in the state, -/
  state : ctx.state.hash = absorb Sha1.compress 64 .init m
  /-- the number of bits is in the counter, -/
  bits : ctx.bits = 8 * m.length % 2 ^ 64
  /-- and the rest is in the buffer. -/
  rest : ctx.buffer.take (m.length % 64) = leftover 64 m
  length_buffer : ctx.buffer.length = 64

/-- Before any byte, whatever is in the buffer. -/
theorem represents_init {buffer : Bytes} (h : buffer.length = 64) :
    Represents { tntSha1Init with buffer := buffer } [] :=
  ⟨rfl, rfl, rfl, h⟩

/-- `j` is where in its block the next byte goes. -/
theorem Represents.index {ctx : Sha1Ctx} {m : Bytes} (h : Represents ctx m) :
    ((ctx.count0 >>> 3) &&& 63).toNat = m.length % 64 := by
  have h0 := ctx.count0.toNat_lt
  have hbits : 2 ^ 32 * ctx.count1.toNat + ctx.count0.toNat = 8 * m.length % 2 ^ 64 := h.bits
  have h63 : (63 : UInt32).toNat = 2 ^ 6 - 1 := rfl
  have h3 : (3 : UInt32).toNat % 32 = 3 := rfl
  rw [UInt32.toNat_and, UInt32.toNat_shiftRight, h63, h3, Nat.and_two_pow_sub_one_eq_mod,
    Nat.shiftRight_eq_div_pow]
  omega

theorem length_copyInto {buffer data : Bytes} {j : ℕ} (h : j + data.length ≤ buffer.length) :
    (copyInto buffer j data).length = buffer.length := by
  rw [copyInto, List.length_append, List.length_append, List.length_take, List.length_drop]
  omega

theorem take_copyInto {buffer data : Bytes} {j : ℕ} (h : j + data.length ≤ buffer.length) :
    (copyInto buffer j data).take (j + data.length) = buffer.take j ++ data := by
  refine List.take_left' ?_
  rw [List.length_append, List.length_take]
  omega

/-- An update counts the bits of the piece. -/
theorem bits_tntSha1Update (ctx : Sha1Ctx) {data : Bytes} (h : data.length < 2 ^ 32) :
    (tntSha1Update ctx data).bits = (ctx.bits + 8 * data.length) % 2 ^ 64 := by
  have hadd := bits_add ctx.count0 ctx.count1 h
  rw [tntSha1Update, Sha1Ctx.bits, Sha1Ctx.bits, ← hadd]
  dsimp only
  split_ifs <;> rfl

/-- **What an update absorbs.**  The piece comes behind what the buffer holds. -/
theorem tntSha1Update_spec {ctx : Sha1Ctx} (data : Bytes) {held : Bytes}
    (hj : ((ctx.count0 >>> 3) &&& 63).toNat = held.length) (hheld : held.length < 64)
    (hbuffer : ctx.buffer.take held.length = held) (hlength : ctx.buffer.length = 64)
    (hn : data.length + held.length < 2 ^ 32) :
    (tntSha1Update ctx data).state.hash =
        absorb Sha1.compress 64 ctx.state.hash (held ++ data) ∧
      (tntSha1Update ctx data).buffer.take (leftover 64 (held ++ data)).length =
        leftover 64 (held ++ data) ∧
      (tntSha1Update ctx data).buffer.length = 64 := by
  have hlen := UInt32.toNat_ofNat_of_lt' (show data.length < 2 ^ 32 by omega)
  rw [tntSha1Update]
  dsimp only
  generalize (ctx.count0 >>> 3) &&& 63 = j at hj ⊢
  have htest : 63 < j + UInt32.ofNat data.length ↔ 63 < held.length + data.length := by
    rw [UInt32.lt_iff_toNat_lt, UInt32.toNat_add, hj, hlen, Nat.mod_eq_of_lt (by omega)]
    rfl
  by_cases hfull : 63 < held.length + data.length
  · have h64 : (64 - j).toNat = 64 - held.length := by
      rw [UInt32.toNat_sub_of_le, hj]
      · rfl
      · rw [UInt32.le_iff_toNat_le, hj]
        exact hheld.le
    rw [if_pos (htest.2 hfull), hj, h64]
    dsimp only
    have hpiece : (data.take (64 - held.length)).length = 64 - held.length := by
      rw [List.length_take]
      omega
    -- the buffer is full, with the first block in it
    have hblock : copyInto ctx.buffer held.length (data.take (64 - held.length)) =
        held ++ data.take (64 - held.length) := by
      have hfits : held.length + (data.take (64 - held.length)).length ≤ ctx.buffer.length := by
        omega
      have htake := take_copyInto hfits
      rwa [List.take_of_length_le, hbuffer] at htake
      rw [length_copyInto hfits, hlength, hpiece]
      omega
    have hfirst : (held ++ data.take (64 - held.length)).length = 64 := by
      rw [List.length_append, hpiece]
      omega
    have hsplit : held ++ data =
        (held ++ data.take (64 - held.length)) ++ data.drop (64 - held.length) := by
      rw [List.append_assoc, List.take_append_drop]
    obtain ⟨hstate, hindex⟩ := sha1Blocks_eq hn data.length
      (tntSha1Transform ctx.state (held ++ data.take (64 - held.length))) (i := 64 - j)
      (by omega) (by omega) (by omega)
    rw [h64] at hstate hindex
    rw [hblock, hstate, hindex, hash_tntSha1Transform, hsplit,
      absorb_block_append (by norm_num) _ hfirst, leftover_block_append (by norm_num) hfirst]
    have hshort : 0 + (leftover 64 (data.drop (64 - held.length))).length ≤
        (held ++ data.take (64 - held.length)).length := by
      rw [length_leftover, hfirst]
      omega
    refine ⟨rfl, ?_, (length_copyInto hshort).trans hfirst⟩
    simpa using take_copyInto hshort
  · rw [if_neg (mt htest.1 hfull), hj]
    have hfits : held.length + data.length ≤ ctx.buffer.length := by omega
    have hshort : (held ++ data).length < 64 := by
      rw [List.length_append]
      omega
    rw [leftover_of_length_lt hshort, absorb_of_length_lt _ hshort]
    refine ⟨rfl, ?_, (length_copyInto hfits).trans hlength⟩
    rw [List.length_append, take_copyInto hfits, hbuffer]

/-- **Updates keep what the context represents.** -/
theorem represents_update {ctx : Sha1Ctx} {m : Bytes} (h : Represents ctx m) {data : Bytes}
    (hn : data.length + m.length % 64 < 2 ^ 32) :
    Represents (tntSha1Update ctx data) (m ++ data) := by
  have hheld : (leftover 64 m).length = m.length % 64 := length_leftover m
  rw [← hheld] at hn
  obtain ⟨hstate, hrest, hlength⟩ := tntSha1Update_spec data
    (h.index.trans hheld.symm) (by omega) (by rw [hheld, h.rest]) h.length_buffer hn
  refine ⟨?_, ?_, ?_, hlength⟩
  · rw [hstate, h.state, absorb_append (by norm_num) _ m data]
  · rw [bits_tntSha1Update ctx (by omega), h.bits, List.length_append]
    omega
  · rw [← length_leftover, leftover_append (by norm_num)]
    exact hrest

/-- The message may come in any pieces. -/
theorem represents_foldl_update {ctx : Sha1Ctx} {m : Bytes} (h : Represents ctx m)
    {pieces : List Bytes} (hn : m.length + pieces.flatten.length < 2 ^ 32) :
    Represents (pieces.foldl tntSha1Update ctx) (m ++ pieces.flatten) := by
  induction pieces generalizing ctx m with
  | nil => rwa [List.flatten_nil, List.append_nil]
  | cons data pieces ih =>
    rw [List.flatten_cons, List.length_append] at hn
    have hmod := Nat.mod_le m.length 64
    rw [List.foldl_cons, List.flatten_cons, ← List.append_assoc]
    refine ih (represents_update h (by omega)) ?_
    rw [List.length_append]
    omega

/-! ## The padding -/

/-- The test of the padding loop. -/
theorem Represents.padded_iff {ctx : Sha1Ctx} {m : Bytes} (h : Represents ctx m) :
    ctx.count0 &&& 504 = 448 ↔ m.length % 64 = 56 := by
  have h0 := ctx.count0.toNat_lt
  have hbits : 2 ^ 32 * ctx.count1.toNat + ctx.count0.toNat = 8 * m.length % 2 ^ 64 := h.bits
  have hcount : ctx.count0.toNat = (m.length % 2 ^ 29) <<< 3 := by
    rw [Nat.shiftLeft_eq]
    omega
  have hand : (ctx.count0 &&& 504).toNat = 8 * (m.length % 64) := by
    have h504 : (504 : UInt32).toNat = (2 ^ 6 - 1) <<< 3 := rfl
    rw [UInt32.toNat_and, hcount, h504, ← Nat.shiftLeft_and_distrib,
      Nat.and_two_pow_sub_one_eq_mod, Nat.shiftLeft_eq]
    omega
  have h448 : (448 : UInt32).toNat = 448 := rfl
  rw [← UInt32.toNat_inj, hand, h448]
  omega

/-- **The padding loop.**  It stops eight bytes before the end of a block. -/
theorem represents_sha1Pad (fuel : ℕ) {ctx : Sha1Ctx} {m : Bytes} (h : Represents ctx m)
    (hfuel : (120 - m.length % 64) % 64 ≤ fuel) :
    Represents (sha1Pad fuel ctx) (m ++ List.replicate ((120 - m.length % 64) % 64) 0) := by
  induction fuel generalizing ctx m with
  | zero =>
    rw [Nat.le_zero.1 hfuel, List.replicate_zero, List.append_nil]
    exact h
  | succ fuel ih =>
    rw [sha1Pad]
    split_ifs with hpadded
    · have hmore : (120 - m.length % 64) % 64 =
          (120 - (m ++ [(0 : UInt8)]).length % 64) % 64 + 1 := by
        have hne := mt h.padded_iff.2 hpadded
        rw [List.length_append, List.length_singleton]
        omega
      have hone : [(0 : UInt8)].length + m.length % 64 < 2 ^ 32 := by
        rw [List.length_singleton]
        omega
      have hnext := ih (represents_update h hone) (by omega)
      rwa [List.append_assoc, List.singleton_append, ← List.replicate_succ, ← hmore] at hnext
    · have hnone : (120 - m.length % 64) % 64 = 0 := by
        have hpad := h.padded_iff.1 (not_not.1 hpadded)
        omega
      rw [hnone, List.replicate_zero, List.append_nil]
      exact h

/-- **The digest.** -/
theorem Represents.tntSha1Final_eq {ctx : Sha1Ctx} {m : Bytes} (h : Represents ctx m)
    (hm : m.length < 2 ^ 32) : tntSha1Final ctx = sha1 m := by
  have hbits : 2 ^ 32 * ctx.count1.toNat + ctx.count0.toNat = 8 * m.length := by
    have := h.bits
    rw [Sha1Ctx.bits] at this
    omega
  have hcount : bigEndian 4 ctx.count1.toNat ++ bigEndian 4 ctx.count0.toNat =
      bigEndian 8 (8 * m.length) := by
    have h32 : 2 ^ 32 = 256 ^ 4 := by norm_num
    rw [bigEndian_append ctx.count1.toNat_lt ctx.count0.toNat_lt, ← hbits, h32, Nat.mul_comm]
  have hone : [(0x80 : UInt8)].length + m.length % 64 < 2 ^ 32 := by
    rw [List.length_singleton]
    omega
  have hmark := represents_update h hone
  have hzeros := represents_sha1Pad 64 hmark (by omega)
  have height : ∀ n, (bigEndian 8 (8 * m.length)).length + n % 64 < 2 ^ 32 := by
    intro n
    rw [length_bigEndian]
    omega
  have hpad := represents_update hzeros (height _)
  have hlen : (120 - (m ++ [(0x80 : UInt8)]).length % 64) % 64 = Sha1.zeros m.length := by
    rw [List.length_append, List.length_singleton, Sha1.zeros]
    omega
  rw [hlen] at hpad
  rw [tntSha1Final, hcount]
  show (Sha1State.hash _).bytes = _
  rw [hpad.state]
  rfl

/-- A message that is fed in pieces. -/
theorem tntSha1Final_pieces {buffer : Bytes} (hbuffer : buffer.length = 64) {pieces : List Bytes}
    (h : pieces.flatten.length < 2 ^ 32) :
    tntSha1Final (pieces.foldl tntSha1Update { tntSha1Init with buffer := buffer }) =
      sha1 pieces.flatten :=
  (represents_foldl_update (represents_init hbuffer) (by simpa using h)).tntSha1Final_eq h

/-- A message that is fed in one piece. -/
theorem tntSha1_eq {data : Bytes} (h : data.length < 2 ^ 32) : tntSha1 data = sha1 data := by
  have hdata : [data].flatten = data := by simp
  have hshort : [data].flatten.length < 2 ^ 32 := by rwa [hdata]
  have hbuffer : (List.replicate 64 (0 : UInt8)).length = 64 := List.length_replicate
  have hpiece := tntSha1Final_pieces hbuffer hshort
  rwa [hdata] at hpiece

/-- **SHA-1.**  The digest of a message is the one of the standard, and it depends neither
on the pieces in which the message is fed nor on what the buffer holds before. -/
theorem tntSha1_eq_sha1 (data : Bytes) (h : data.length < 2 ^ 32) :
    tntSha1 data = sha1 data ∧
      ∀ (buffer : Bytes) (pieces : List Bytes), buffer.length = 64 → pieces.flatten = data →
        tntSha1Final (pieces.foldl tntSha1Update { tntSha1Init with buffer := buffer }) =
          tntSha1 data := by
  refine ⟨tntSha1_eq h, ?_⟩
  rintro buffer pieces hbuffer rfl
  rw [tntSha1Final_pieces hbuffer h, tntSha1_eq h]

theorem tntSha1_eq_sha1_abc :
    tntSha1 (ascii "abc") = sha1 (ascii "abc") ∧
      tntSha1Final ([ascii "a", ascii "bc"].foldl tntSha1Update
        { tntSha1Init with buffer := List.replicate 64 0xff }) = tntSha1 (ascii "abc") := by
  have habc := tntSha1_eq_sha1 (ascii "abc") (by decide)
  exact ⟨habc.1, habc.2 _ [ascii "a", ascii "bc"] List.length_replicate rfl⟩

end VoipBackend
