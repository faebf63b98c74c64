import VoipBackend.Wire.Login

/-!
# Base64 with other characters in it

`tnt_base64_decode` passes over every character that is no digit, and stops at the first `=` or
NUL.  So line breaks and the like may stand anywhere in the text, and the padding may be missing
(`tntBase64Decode_inserted`).  The number of bytes is returned as an `int`, which cannot count
2 GiB (`tntBase64DecodeReturn_full`).
-/

namespace VoipBackend

open Library Msgpuck

/-- What `tnt_base64_decode` returns, `(int)j`. -/
def tntBase64DecodeReturn (src : Bytes) (dlen : ℕ) : ℤ := toInt (tntBase64Decode src dlen).length

/-- A character of an encoding: a digit, or padding. -/
def IsBase64 (c : UInt8) : Prop := c ∈ Base64.alphabet ∨ c = 61

instance : DecidablePred IsBase64 := fun c =>
  inferInstanceAs (Decidable (c ∈ Base64.alphabet ∨ c = 61))

/-- The encoding of some bytes, with or without its padding, and with other characters than digits,
`=` and NUL inserted anywhere. -/
def IsEncoding (t x : Bytes) : Prop :=
  (t.filter fun c => decide (IsBase64 c)) ∈
    [Base64.encode x, (Base64.digits x).map Base64.char] ∧ (0 : UInt8) ∉ t

/-! ## Writing -/

/-- A step that finds the destination full writes nothing. -/
theorem length_step_le {dlen : ℕ} {s : Base64State} (h : s.dst.length ≤ dlen) (c : UInt8) :
    (s.step dlen c).dst.length ≤ dlen := by
  unfold Base64State.step
  simp only
  split_ifs with hval hbits hroom
  · exact h
  · rw [List.length_append, List.length_singleton]
    exact hroom
  · exact h
  · exact h

theorem length_foldl_step_le {dlen : ℕ} (src : Bytes) {s : Base64State} (h : s.dst.length ≤ dlen) :
    (src.foldl (Base64State.step dlen) s).dst.length ≤ dlen := by
  induction src generalizing s with
  | nil => exact h
  | cons c src ih => exact ih (length_step_le h c)

/-- Never more than `dlen` bytes are written. -/
theorem length_tntBase64Decode_le (src : Bytes) (dlen : ℕ) :
    (tntBase64Decode src dlen).length ≤ dlen := length_foldl_step_le _ (Nat.zero_le dlen)

/-! ## Passing over -/

/-- The digits are the letters, the figures, `+` and `/`. -/
theorem mem_alphabet_iff {c : UInt8} :
    c ∈ Base64.alphabet ↔ (65 ≤ c.toNat ∧ c.toNat < 91) ∨ (97 ≤ c.toNat ∧ c.toNat < 123) ∨
      (48 ≤ c.toNat ∧ c.toNat < 58) ∨ c.toNat = 43 ∨ c.toNat = 47 := by
  have hall : Base64.alphabet.map UInt8.toNat =
      List.range' 65 26 ++ List.range' 97 26 ++ List.range' 48 10 ++ [43, 47] := by
    simp [Base64.alphabet, ascii, List.range'_succ]
  have hmem : c ∈ Base64.alphabet ↔ c.toNat ∈ Base64.alphabet.map UInt8.toNat :=
    (List.mem_map_of_injective fun _ _ => UInt8.toNat_inj.1).symm
  rw [hmem, hall]
  simp only [List.mem_append, List.mem_range'_1, List.mem_cons, List.not_mem_nil, or_false]
  omega

/-- The table marks every character that is no digit. -/
theorem tntB64Table_other {c : UInt8} (h : c ∉ Base64.alphabet) :
    tntB64Table.getD c.toNat (-1) < 0 := by
  have hall : ∀ p ∈ tntB64Table.zipIdx, p.1 < 0 ∨ (65 ≤ p.2 ∧ p.2 < 91) ∨
      (97 ≤ p.2 ∧ p.2 < 123) ∨ (48 ≤ p.2 ∧ p.2 < 58) ∨ p.2 = 43 ∨ p.2 = 47 := by
    decide +kernel
  rw [List.getD_eq_getElem?_getD]
  cases hentry : tntB64Table[c.toNat]? with
  | none => exact (by decide : (-1 : ℤ) < 0)
  | some val =>
    have hrange := hall (val, c.toNat) (List.mem_zipIdx_iff_getElem?.2 hentry)
    exact hrange.resolve_right (mt mem_alphabet_iff.2 h)

theorem step_other (dlen : ℕ) (s : Base64State) {c : UInt8} (h : c ∉ Base64.alphabet) :
    s.step dlen c = s := by
  unfold Base64State.step
  exact if_pos (tntB64Table_other h)

/-- Only the digits count. -/
theorem foldl_step_filter (dlen : ℕ) (src : Bytes) (s : Base64State) :
    src.foldl (Base64State.step dlen) s =
      (src.filter fun c => decide (c ∈ Base64.alphabet)).foldl (Base64State.step dlen) s := by
  induction src generalizing s with
  | nil => rfl
  | cons c src ih =>
    by_cases h : c ∈ Base64.alphabet
    · simp only [List.filter_cons, decide_eq_true h, if_true, List.foldl_cons, ih]
    · simp only [List.filter_cons, decide_eq_false h, Bool.false_eq_true, if_false, List.foldl_cons,
        step_other dlen s h, ih]

theorem alphabet_ne {c : UInt8} (h : c ∈ Base64.alphabet) : c ≠ 0 ∧ c ≠ 61 := by
  have hrange := mem_alphabet_iff.1 h
  constructor
  · rintro rfl
    simp at hrange
  · rintro rfl
    simp at hrange

/-- The digits up to the first padding are those in front of it once everything else is gone. -/
theorem filter_takeWhile {t : Bytes} (h : (0 : UInt8) ∉ t) :
    (t.takeWhile fun c => decide (c ≠ 0 ∧ c ≠ 61)).filter (fun c => decide (c ∈ Base64.alphabet)) =
      (t.filter fun c => decide (IsBase64 c)).takeWhile fun c => decide (c ≠ 61) := by
  induction t with
  | nil => rfl
  | cons c t ih =>
    obtain ⟨hc, ht⟩ := not_or.1 (mt List.mem_cons.2 h)
    by_cases hdigit : c ∈ Base64.alphabet
    · have hne := alphabet_ne hdigit
      simpa [IsBase64, hdigit, hne] using ih ht
    · by_cases hpad : c = 61
      · simp [IsBase64, hpad]
      · simpa [IsBase64, hdigit, hpad, Ne.symm hc] using ih ht

/-- The digits of an encoding end where its padding starts. -/
theorem takeWhile_encoding {e x : Bytes}
    (he : e ∈ [Base64.encode x, (Base64.digits x).map Base64.char]) :
    (e.takeWhile fun c => decide (c ≠ 61)) = (Base64.digits x).map Base64.char := by
  have hdigits : ∀ c ∈ (Base64.digits x).map Base64.char, decide (c ≠ 61) = true := by
    intro c hc
    obtain ⟨v, hv, rfl⟩ := List.mem_map.1 hc
    exact decide_eq_true (tntB64Table_char (Base64.digits_lt hv)).2.2
  simp only [List.mem_cons, List.not_mem_nil, or_false] at he
  rcases he with rfl | rfl
  · rw [Base64.encode, List.takeWhile_append_of_pos hdigits]
    cases (3 - x.length % 3) % 3 with
    | zero => simp
    | succ n => simp [List.replicate_succ]
  · exact List.takeWhile_eq_self_iff.2 hdigits

theorem tntBase64Decode_eq {t x : Bytes} {dlen : ℕ} (ht : IsEncoding t x) (hx : x.length ≤ dlen) :
    tntBase64Decode t dlen = x := by
  rw [tntBase64Decode, foldl_step_filter, filter_takeWhile ht.2, takeWhile_encoding ht.1,
    foldl_digits x 0 [] (by simpa using hx), List.nil_append]

/-- **What is decoded.**  An encoding is decoded whatever is inserted into it, and its length is
returned as long as an `int` can hold it.  No input makes the decoder write behind its
destination. -/
theorem tntBase64Decode_inserted {t x : Bytes} {dlen : ℕ} (ht : IsEncoding t x)
    (hx : x.length ≤ dlen) :
    tntBase64Decode t dlen = x ∧
      (x.length < 2 ^ 31 → tntBase64DecodeReturn t dlen = x.length) ∧
      ∀ src dlen', (tntBase64Decode src dlen').length ≤ dlen' := by
  refine ⟨tntBase64Decode_eq ht hx, fun hint => ?_, length_tntBase64Decode_le⟩
  rw [tntBase64DecodeReturn, tntBase64Decode_eq ht hx, toInt_of_lt hint]

/-- Two line breaks, and no padding. -/
theorem tntBase64Decode_inserted_lines :
    tntBase64Decode (ascii "Zm\n9v\nYg") 8 = ascii "foob" ∧
      ((ascii "foob").length < 2 ^ 31 →
        tntBase64DecodeReturn (ascii "Zm\n9v\nYg") 8 = (ascii "foob").length) ∧
      ∀ src dlen', (tntBase64Decode src dlen').length ≤ dlen' :=
  tntBase64Decode_inserted (by unfold IsEncoding; decide +kernel) (by decide)

/-- **A length that is lost.**  Of 2 GiB a negative number of bytes is returned. -/
theorem tntBase64DecodeReturn_full :
    tntBase64DecodeReturn (Base64.encode (List.replicate (2 ^ 31) 0)) (2 ^ 31) ≠
      ((List.replicate (2 ^ 31) (0 : UInt8)).length : ℤ) := by
  have hlen : (List.replicate (2 ^ 31) (0 : UInt8)).length = 2 ^ 31 := List.length_replicate
  rw [tntBase64DecodeReturn, tntBase64Decode_encode hlen.le, hlen]
  have hneg : toInt (2 ^ 31) < 0 := toInt_neg (le_refl _) (by norm_num)
  intro h
  rw [h] at hneg
  exact absurd hneg (by norm_num)

end VoipBackend
