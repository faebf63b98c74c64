import VoipBackend.Lib.Json

/-!
# C strings

What some functions of the C library do with strings, which are taken without their NUL.  A search
that finds its character cuts the string there, into what is before it and what is behind it.
Numbers are read in base ten as `strtol` reads them where a `long` has 64 bits.
-/

namespace Library

namespace CString

/-- The C string at the start of a buffer. -/
def ofBuffer (buf : Bytes) : Bytes := buf.takeWhile fun b => decide (b ≠ 0)

theorem ofBuffer_start (buf : Bytes) : ofBuffer buf <+: buf := List.takeWhile_prefix _

theorem ofBuffer_eq_self {s : Bytes} (hs : 0 ∉ s) : ofBuffer s = s := by
  rw [ofBuffer, List.takeWhile_eq_self_iff]
  intro b hb
  exact decide_eq_true (ne_of_mem_of_not_mem hb hs)

/-! ## Searching -/

/-- `strchr(s, c)`: what is before the first `c`, and what is behind it. -/
def strchr (c : UInt8) : Bytes → Option (Bytes × Bytes)
  | [] => none
  | b :: s => if b = c then some ([], s) else (strchr c s).map fun (x, y) => (b :: x, y)

theorem strchr_append {c : UInt8} {x : Bytes} (hx : c ∉ x) (y : Bytes) :
    strchr c (x ++ c :: y) = some (x, y) := by
  induction x with
  | nil => exact if_pos rfl
  | cons b x ih =>
    obtain ⟨hb, hx⟩ := not_or.1 (mt List.mem_cons.2 hx)
    rw [List.cons_append, strchr, if_neg (Ne.symm hb), ih hx]
    rfl

theorem strchr_eq_none {c : UInt8} {s : Bytes} (hs : c ∉ s) : strchr c s = none := by
  induction s with
  | nil => rfl
  | cons b s ih =>
    obtain ⟨hb, hs⟩ := not_or.1 (mt List.mem_cons.2 hs)
    rw [strchr, if_neg (Ne.symm hb), ih hs]
    rfl

theorem strchr_isSome_iff {c : UInt8} {s : Bytes} : (strchr c s).isSome ↔ c ∈ s := by
  induction s with
  | nil => simp [strchr]
  | cons b s ih =>
    rw [strchr, List.mem_cons, eq_comm, ← ih]
    split_ifs with hb
    · simp [hb]
    · simp [Ne.symm hb]

/-- `strstr(s, t)`: what is before the first `t`, and what is behind it. -/
def strstr (t : Bytes) : Bytes → Option (Bytes × Bytes)
  | [] => if t = [] then some ([], []) else none
  | b :: s =>
      if t <+: b :: s then some ([], (b :: s).drop t.length)
      else (strstr t s).map fun (x, y) => (b :: x, y)

theorem strstr_append {c : UInt8} {t x : Bytes} (hx : c ∉ x) (y : Bytes) :
    strstr (c :: t) (x ++ c :: t ++ y) = some (x, y) := by
  induction x with
  | nil =>
    have hstart : c :: t <+: c :: (t ++ y) := List.prefix_append (c :: t) y
    rw [List.nil_append, List.cons_append, strstr, if_pos hstart, List.length_cons,
      List.drop_succ_cons, List.drop_left]
  | cons b x ih =>
    obtain ⟨hb, hx⟩ := not_or.1 (mt List.mem_cons.2 hx)
    have hnot : ¬ c :: t <+: b :: (x ++ c :: t ++ y) := fun h => hb (List.cons_prefix_cons.1 h).1
    rw [List.cons_append, List.cons_append, strstr, if_neg hnot, ih hx]
    rfl

theorem strstr_eq_none {t s : Bytes} (hs : ¬ t <:+: s) : strstr t s = none := by
  induction s with
  | nil => exact if_neg fun ht => hs (by rw [ht])
  | cons b s ih =>
    rw [strstr, if_neg fun h => hs h.isInfix, ih fun h => hs (List.infix_cons h)]
    rfl

/-! ## Cutting up -/

/-- The tokens `strtok_r` finds between the characters `c`: no token is empty. -/
def strtok (c : UInt8) (s : Bytes) : List Bytes := (s.splitOn c).filter fun t => decide (t ≠ [])

theorem strtok_intercalate {c : UInt8} {ts : List Bytes} (hc : ∀ t ∈ ts, c ∉ t)
    (hne : ∀ t ∈ ts, t ≠ []) : strtok c ([c].intercalate ts) = ts := by
  cases ts with
  | nil => rfl
  | cons t ts =>
    rw [strtok, List.splitOn_intercalate c hc (List.cons_ne_nil t ts), List.filter_eq_self]
    intro t' ht'
    exact decide_eq_true (hne t' ht')

/-! ## Numbers -/

/-- `isspace`. -/
def isspace (c : UInt8) : Bool := decide (c = 0x20 ∨ 9 ≤ c ∧ c ≤ 13)

/-- The digits at the start of a string. -/
def leading (s : Bytes) : ℕ := Json.ofDecimal (s.takeWhile Json.isDigit)

/-- The number at the start of a string: white space, a sign, and digits. -/
def number (s : Bytes) : ℤ :=
  match s.dropWhile isspace with
  | 0x2d :: s => -(leading s : ℤ)
  | 0x2b :: s => leading s
  | s => leading s

/-- The closest number to `n` that a `long` can be. -/
def toLong (n : ℤ) : ℤ := max (-2 ^ 63) (min (2 ^ 63 - 1) n)

/-- `strtol(s, NULL, 10)`. -/
def strtol (s : Bytes) : ℤ := toLong (number s)

/-- `(int)n`. -/
def toInt32 (n : ℤ) : ℤ := n.bmod (2 ^ 32)

/-- `atoi(s)`. -/
def atoi (s : Bytes) : ℤ := toInt32 (strtol s)

theorem not_special_of_isDigit {c : UInt8} (hc : Json.isDigit c = true) :
    isspace c = false ∧ c ≠ 0x2d ∧ c ≠ 0x2b := by
  simp only [Json.isDigit, Bool.and_eq_true, decide_eq_true_eq, UInt8.le_iff_toNat_le] at hc
  have hlow : 48 ≤ c.toNat := hc.1
  refine ⟨decide_eq_false ?_, ?_, ?_⟩
  · rintro (rfl | ⟨-, hle⟩)
    · exact absurd hlow (by decide)
    · have hsmall : c.toNat ≤ 13 := UInt8.le_iff_toNat_le.1 hle
      omega
  · rintro rfl
    exact absurd hlow (by decide)
  · rintro rfl
    exact absurd hlow (by decide)

theorem number_digits {ds : Bytes} (hds : ∀ c ∈ ds, Json.isDigit c = true) :
    number ds = Json.ofDecimal ds := by
  have hleading : leading ds = Json.ofDecimal ds := by
    rw [leading, List.takeWhile_eq_self_iff.2 hds]
  cases ds with
  | nil => rfl
  | cons c ds =>
    obtain ⟨hspace, hminus, hplus⟩ := not_special_of_isDigit (hds c List.mem_cons_self)
    rw [number, List.dropWhile_cons_of_neg (by rw [hspace]; exact Bool.false_ne_true)]
    split
    · next heq => exact absurd (List.cons.inj heq).1 hminus
    · next heq => exact absurd (List.cons.inj heq).1 hplus
    · rw [hleading]

theorem toInt32_eq_self {n : ℤ} (hlow : -2 ^ 31 ≤ n) (hhigh : n < 2 ^ 31) : toInt32 n = n := by
  rw [toInt32, Int.bmod]
  split_ifs <;> omega

theorem toInt32_range (n : ℤ) : -2 ^ 31 ≤ toInt32 n ∧ toInt32 n < 2 ^ 31 := by
  rw [toInt32, Int.bmod]
  split_ifs <;> omega

/-- A number survives being read into an `int` when it fits. -/
theorem toInt32_toLong_eq_iff {n : ℤ} : toInt32 (toLong n) = n ↔ -2 ^ 31 ≤ n ∧ n < 2 ^ 31 := by
  constructor
  · intro h
    have hrange := toInt32_range (toLong n)
    rwa [h] at hrange
  · rintro ⟨hlow, hhigh⟩
    have hlong : toLong n = n := by
      rw [toLong, min_eq_right (by omega), max_eq_right (by omega)]
    rw [hlong, toInt32_eq_self hlow hhigh]

theorem atoi_digits {ds : Bytes} (hds : ∀ c ∈ ds, Json.isDigit c = true)
    (hlt : Json.ofDecimal ds < 2 ^ 31) : atoi ds = Json.ofDecimal ds := by
  rw [atoi, strtol, number_digits hds, toInt32_toLong_eq_iff]
  omega

end CString

end Library
