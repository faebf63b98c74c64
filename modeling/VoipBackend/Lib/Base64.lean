import VoipBackend.Lib.Bytes

/-!
# Base64

The encoding of bytes in characters: three bytes are four digits of six bits, and a last group that
is not complete is filled up with `=`.
-/

namespace Library

namespace Base64

/-- The digits, in the order of their values. -/
def alphabet : Bytes := ascii "ABCDEFGHIJKLMNOPQRSTUVWXYZabcdefghijklmnopqrstuvwxyz0123456789+/"

/-- The character of a digit. -/
def char (v : ℕ) : UInt8 := alphabet.getD v 0x3d

/-- The digits of some bytes. -/
def digits : Bytes → List ℕ
  | a :: b :: c :: s =>
      a.toNat / 4 :: (a.toNat % 4 * 16 + b.toNat / 16) :: (b.toNat % 16 * 4 + c.toNat / 64) ::
        c.toNat % 64 :: digits s
  | [a, b] => [a.toNat / 4, a.toNat % 4 * 16 + b.toNat / 16, b.toNat % 16 * 4]
  | [a] => [a.toNat / 4, a.toNat % 4 * 16]
  | [] => []

/-- The encoding of some bytes. -/
def encode (s : Bytes) : Bytes :=
  (digits s).map char ++ List.replicate ((3 - s.length % 3) % 3) 0x3d

theorem length_encode (s : Bytes) : (encode s).length = 4 * ((s.length + 2) / 3) := by
  rw [encode, List.length_append, List.length_map, List.length_replicate]
  fun_induction digits s with
  | case1 a b c s ih =>
    simp only [List.length_cons] at ih ⊢
    omega
  | case2 => simp only [List.length_cons, List.length_nil]
  | case3 => simp only [List.length_cons, List.length_nil]
  | case4 => rfl

theorem digits_lt {s : Bytes} {v : ℕ} (hv : v ∈ digits s) : v < 64 := by
  have hbyte : ∀ a : UInt8, a.toNat < 256 := fun a => a.toNat_lt
  fun_induction digits s with
  | case1 a b c s ih =>
    have ha := hbyte a
    have hb := hbyte b
    have hc := hbyte c
    simp only [List.mem_cons] at hv
    rcases hv with rfl | rfl | rfl | rfl | hv
    · omega
    · omega
    · omega
    · omega
    · exact ih hv
  | case2 a b =>
    have ha := hbyte a
    have hb := hbyte b
    simp only [List.mem_cons, List.not_mem_nil, or_false] at hv
    omega
  | case3 a =>
    have ha := hbyte a
    simp only [List.mem_cons, List.not_mem_nil, or_false] at hv
    omega
  | case4 => exact absurd hv List.not_mem_nil

-- the tests of the standard
example : encode (ascii "foob") = ascii "Zm9vYg==" := by decide
example : encode (ascii "foobar") = ascii "Zm9vYmFy" := by decide

end Base64

end Library
