import VoipBackend.Lib.CString

/-!
# Scanning C strings

What `strcasestr` and `sscanf` make of a C string, in the C locale.  A conversion of `sscanf` that
takes nothing fails, and the variable keeps its value.
-/

namespace Library

namespace CString

/-- `tolower`. -/
def tolower (c : UInt8) : UInt8 := if 0x41 ≤ c ∧ c ≤ 0x5a then c + 0x20 else c

/-- `strcasestr(s, t)`: what is in `s` from the first `t` on, in capitals or not. -/
def strcasestr (t : Bytes) : Bytes → Option Bytes
  | [] => if t = [] then some [] else none
  | b :: s =>
      if t.map tolower <+: (b :: s).map tolower then some (b :: s) else strcasestr t s

/-- The conversion `%width[..]` for these characters: what it takes, and what is behind it. -/
def scanSet (p : UInt8 → Bool) (width : ℕ) (s : Bytes) : Option (Bytes × Bytes) :=
  let x := (s.takeWhile p).take width
  if x = [] then none else some (x, s.drop x.length)

/-- The conversion `%widths`: white space is skipped before it. -/
def scanString (width : ℕ) (s : Bytes) : Option (Bytes × Bytes) :=
  scanSet (fun c => !isspace c) width (s.dropWhile isspace)

/-! ## What a conversion takes -/

variable {p : UInt8 → Bool} {width : ℕ}

/-- Characters of the set, up to one that is not in it. -/
theorem scanSet_append {x : Bytes} (hx : ∀ c ∈ x, p c = true) (hne : x ≠ []) (hlen : x.length ≤ width)
    {c : UInt8} (hc : p c = false) (s : Bytes) :
    scanSet p width (x ++ c :: s) = some (x, c :: s) := by
  have htake : ((x ++ c :: s).takeWhile p).take width = x := by
    rw [List.takeWhile_append_of_pos hx, List.takeWhile_cons_of_neg (by simp [hc]), List.append_nil,
      List.take_of_length_le hlen]
  rw [scanSet, htake, if_neg hne, List.drop_left]

/-- What is behind a character that is not in the set does not matter. -/
theorem scanSet_stop {x : Bytes} (hlen : x.length ≤ width) {c : UInt8} (hc : p c = false)
    (s : Bytes) : (scanSet p width (x ++ c :: s)).map Prod.fst =
      if x.takeWhile p = [] then none else some (x.takeWhile p) := by
  have htake : (x ++ c :: s).takeWhile p = x.takeWhile p := by
    rw [List.takeWhile_append, List.takeWhile_cons_of_neg (by simp [hc]), List.append_nil]
    split_ifs with hall
    · exact ((List.takeWhile_prefix p).eq_of_length hall).symm
    · rfl
  rw [scanSet, htake,
    List.take_of_length_le ((List.takeWhile_prefix p).length_le.trans hlen)]
  split_ifs <;> rfl

/-- A word, up to the white space behind it. -/
theorem scanString_append {x : Bytes} (hx : ∀ c ∈ x, isspace c = false) (hne : x ≠ [])
    (hlen : x.length ≤ width) {c : UInt8} (hc : isspace c = true) (s : Bytes) :
    scanString width (x ++ c :: s) = some (x, c :: s) := by
  have hword : ∀ c ∈ x, (!isspace c) = true := fun c hc => by rw [hx c hc]; rfl
  have hstart : (x ++ c :: s).dropWhile isspace = x ++ c :: s := by
    cases x with
    | nil => exact absurd rfl hne
    | cons b x =>
      have hb := hx b List.mem_cons_self
      exact List.dropWhile_cons_of_neg (by rw [hb]; exact Bool.false_ne_true)
  rw [scanString, hstart]
  exact scanSet_append hword hne hlen (by rw [hc]; rfl) s

/-- White space in front of a word is skipped. -/
theorem scanString_space {c : UInt8} (hc : isspace c = true) (s : Bytes) :
    scanString width (c :: s) = scanString width s := by
  rw [scanString, List.dropWhile_cons_of_pos hc, scanString]

/-! ## The first occurrence -/

/-- Behind a beginning that does not run into it, the first `t` is found. -/
theorem strstr_first {t x : Bytes} (ht : t ≠ []) (h : ¬ t <:+: x ++ t.dropLast) (y : Bytes) :
    strstr t (x ++ t ++ y) = some (x, y) := by
  induction x with
  | nil =>
    cases t with
    | nil => exact absurd rfl ht
    | cons c t => exact strstr_append (List.not_mem_nil) y
  | cons b x ih =>
    have hlen : t.length ≤ (b :: x ++ t.dropLast).length := by
      rw [List.length_append, List.length_cons, List.length_dropLast]
      omega
    have hpart : b :: x ++ t.dropLast <+: b :: x ++ t ++ y :=
      ((List.prefix_append_right_inj _).2 (List.dropLast_prefix t)).trans (List.prefix_append _ y)
    have hnot : ¬ t <+: b :: (x ++ t ++ y) := fun hstart =>
      h (List.prefix_of_prefix_length_le hstart hpart hlen).isInfix
    rw [List.cons_append, List.cons_append, strstr, if_neg hnot,
      ih fun hinner => h (List.infix_cons hinner)]
    rfl

/-- A part without the first character of what is looked for is passed over. -/
theorem strcasestr_append {c : UInt8} {t x : Bytes} (hx : ∀ b ∈ x, tolower b ≠ tolower c) (y : Bytes) :
    strcasestr (c :: t) (x ++ y) = strcasestr (c :: t) y := by
  induction x with
  | nil => rfl
  | cons b x ih =>
    obtain ⟨hb, hx⟩ := List.forall_mem_cons.1 hx
    have hnot : ¬ (c :: t).map tolower <+: (b :: (x ++ y)).map tolower := fun h =>
      hb (List.cons_prefix_cons.1 h).1.symm
    rw [List.cons_append, strcasestr, if_neg hnot, ih hx]

theorem strcasestr_start (c : UInt8) (t y : Bytes) : strcasestr (c :: t) (c :: t ++ y) = some (c :: t ++ y) := by
  have hstart : (c :: t).map tolower <+: (c :: (t ++ y)).map tolower := by
    rw [← List.cons_append, List.map_append]
    exact List.prefix_append _ _
  rw [List.cons_append, strcasestr, if_pos hstart]
/-- What `strcasestr` finds is the end of the string. -/
theorem strcasestr_suffix {t s p : Bytes} (h : strcasestr t s = some p) : p <:+ s := by
  induction s with
  | nil =>
    rw [strcasestr] at h
    split_ifs at h
    rw [← Option.some.inj h]
  | cons b s ih =>
    rw [strcasestr] at h
    split_ifs at h
    · rw [← Option.some.inj h]
    · exact (ih h).trans (List.suffix_cons b s)

theorem strchr_suffix {c : UInt8} {s x y : Bytes} (h : strchr c s = some (x, y)) : y <:+ s := by
  induction s generalizing x with
  | nil => cases h
  | cons b s ih =>
    rw [strchr] at h
    split_ifs at h
    · cases h
      exact List.suffix_cons b y
    · obtain ⟨⟨x', y'⟩, hrest, heq⟩ := Option.map_eq_some_iff.1 h
      cases heq
      exact (ih hrest).trans (List.suffix_cons b s)

end CString

end Library
