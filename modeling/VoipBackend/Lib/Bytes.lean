import Mathlib

/-!
# Byte strings

Strings of the modelled programs are sequences of bytes, compared byte by byte.
The order of `UInt8` is declared here so that byte strings are linearly ordered
lexicographically, as `memcmp` orders them.  Numbers travel in network byte order:
`bigEndian` writes one, `ofBigEndian` reads one back (`ofBigEndian_bigEndian`).
-/

namespace Library

instance byteOrder : LinearOrder UInt8 where
  le_refl := UInt8.le_refl
  le_trans _ _ _ := UInt8.le_trans
  lt_iff_le_not_ge a b := by
    simp only [UInt8.lt_iff_toNat_lt, UInt8.le_iff_toNat_le]
    omega
  le_antisymm _ _ := UInt8.le_antisymm
  le_total := UInt8.le_total
  toDecidableLE := inferInstance

/-- A byte string. -/
abbrev Bytes := List UInt8

/-- The bytes of a text of ASCII characters. -/
def ascii (s : String) : Bytes := s.toList.map fun c => c.toNat.toUInt8

/-! ## Network byte order -/

/-- The `w` low bytes of a number, the most significant one first. -/
def bigEndian : ℕ → ℕ → Bytes
  | 0, _ => []
  | w + 1, n => UInt8.ofNat (n >>> (8 * w)) :: bigEndian w n

/-- The number whose bytes these are. -/
def ofBigEndian (s : Bytes) : ℕ := s.foldl (fun n b => n * 256 + b.toNat) 0

@[simp] theorem length_bigEndian (w n : ℕ) : (bigEndian w n).length = w := by
  induction w with
  | zero => rfl
  | succ w ih => simp [bigEndian, ih]

theorem foldl_bigEndian (w n m : ℕ) :
    (bigEndian w n).foldl (fun n b => n * 256 + b.toNat) m = m * 256 ^ w + n % 256 ^ w := by
  induction w generalizing m with
  | zero => simp [bigEndian, Nat.mod_one]
  | succ w ih =>
    have hbyte : (UInt8.ofNat (n >>> (8 * w))).toNat = n / 256 ^ w % 256 := by
      rw [Nat.shiftRight_eq_div_pow, pow_mul]
      rfl
    have hsplit : n % 256 ^ (w + 1) = n % 256 ^ w + 256 ^ w * (n / 256 ^ w % 256) := by
      rw [pow_succ, Nat.mod_mul]
    rw [bigEndian, List.foldl_cons, ih, hbyte, hsplit, pow_succ]
    ring

/-- Reading back what was written. -/
theorem ofBigEndian_bigEndian {w n : ℕ} (h : n < 256 ^ w) : ofBigEndian (bigEndian w n) = n := by
  rw [ofBigEndian, foldl_bigEndian, Nat.zero_mul, Nat.zero_add, Nat.mod_eq_of_lt h]

theorem foldl_eq_ofBigEndian (s : Bytes) (m : ℕ) :
    s.foldl (fun n b => n * 256 + b.toNat) m = m * 256 ^ s.length + ofBigEndian s := by
  induction s generalizing m with
  | nil => simp [ofBigEndian]
  | cons b s ih =>
    rw [ofBigEndian, List.foldl_cons, List.foldl_cons, ih, ih (0 * 256 + b.toNat),
      List.length_cons, pow_succ]
    ring

theorem ofBigEndian_cons (b : UInt8) (s : Bytes) :
    ofBigEndian (b :: s) = b.toNat * 256 ^ s.length + ofBigEndian s := by
  rw [ofBigEndian, List.foldl_cons, foldl_eq_ofBigEndian, Nat.zero_mul, Nat.zero_add]

theorem ofBigEndian_lt (s : Bytes) : ofBigEndian s < 256 ^ s.length := by
  induction s with
  | nil => simp [ofBigEndian]
  | cons b s ih =>
    have hb : b.toNat + 1 ≤ 256 := b.toNat_lt
    rw [ofBigEndian_cons, List.length_cons, pow_succ]
    calc b.toNat * 256 ^ s.length + ofBigEndian s
        < b.toNat * 256 ^ s.length + 256 ^ s.length := by omega
      _ = 256 ^ s.length * (b.toNat + 1) := by ring
      _ ≤ 256 ^ s.length * 256 := Nat.mul_le_mul_left _ hb

/-- Bytes of one length that are the same number are the same. -/
theorem eq_of_ofBigEndian_eq {s s' : Bytes} (hlen : s.length = s'.length)
    (h : ofBigEndian s = ofBigEndian s') : s = s' := by
  induction s generalizing s' with
  | nil => exact (List.length_eq_zero_iff.1 hlen.symm).symm
  | cons b s ih =>
    cases s' with
    | nil => cases hlen
    | cons b' s' =>
      have hlen' : s.length = s'.length := Nat.succ.inj hlen
      have hs := ofBigEndian_lt s
      have hs' := ofBigEndian_lt s'
      rw [ofBigEndian_cons, ofBigEndian_cons, hlen', Nat.mul_comm, Nat.mul_comm b'.toNat] at h
      rw [hlen'] at hs
      have hpos : 0 < 256 ^ s'.length := Nat.pow_pos (by norm_num)
      have hbyte : b.toNat = b'.toNat := by
        have hdiv := congrArg (· / 256 ^ s'.length) h
        simpa [Nat.mul_add_div hpos, Nat.div_eq_of_lt hs, Nat.div_eq_of_lt hs'] using hdiv
      rw [hbyte, Nat.add_left_cancel_iff] at h
      rw [UInt8.toNat_inj.1 hbyte, ih hlen' h]

theorem ofBigEndian_append (s s' : Bytes) :
    ofBigEndian (s ++ s') = ofBigEndian s * 256 ^ s'.length + ofBigEndian s' := by
  rw [ofBigEndian, List.foldl_append, foldl_eq_ofBigEndian s']
  rfl

/-- Two numbers one after the other are one number. -/
theorem bigEndian_append {w w' n n' : ℕ} (hn : n < 256 ^ w) (hn' : n' < 256 ^ w') :
    bigEndian w n ++ bigEndian w' n' = bigEndian (w + w') (n * 256 ^ w' + n') := by
  have hsum : n * 256 ^ w' + n' < 256 ^ (w + w') := by
    rw [pow_add]
    calc n * 256 ^ w' + n' < n * 256 ^ w' + 256 ^ w' := by omega
      _ = (n + 1) * 256 ^ w' := by ring
      _ ≤ 256 ^ w * 256 ^ w' := Nat.mul_le_mul_right _ hn
  apply eq_of_ofBigEndian_eq
  · simp only [List.length_append, length_bigEndian]
  · rw [ofBigEndian_append, ofBigEndian_bigEndian hn, ofBigEndian_bigEndian hn',
      ofBigEndian_bigEndian hsum, length_bigEndian]

/-- Writing back what was read. -/
theorem bigEndian_ofBigEndian (s : Bytes) : bigEndian s.length (ofBigEndian s) = s :=
  eq_of_ofBigEndian_eq (length_bigEndian _ _) (ofBigEndian_bigEndian (ofBigEndian_lt s))

end Library
