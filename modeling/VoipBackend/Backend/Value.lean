import VoipBackend.Lib.Bytes

/-!
# Lua values of the stored procedures

The numbers, strings and clock readings that `tarantool_backend/app` computes
with.  Amounts of money and durations are exact rationals; the two values a
division by zero adds to them in Lua, an infinity and NaN, are kept in
`LuaNumber`, because the grant of a zero-rated call is computed through one.
-/

namespace VoipBackend

open Library

/-- A Lua string: bytes, compared with the binary collation of an index. -/
abbrev LuaString := Bytes

/-! ## The clock -/

/-- A reading of `fiber.time()`: seconds since the epoch, with a fractional
part.  The event loop's clock does not move while a fiber is running, so one
reading serves a whole stretch between two suspension points. -/
structure Clock where
  /-- The reading, in seconds. -/
  time : ℚ
  /-- The clock counts from the epoch. -/
  nonneg : 0 ≤ time
  /-- The seconds fit an `unsigned` field. -/
  lt : time < 2 ^ 63

/-- `math.floor(fiber.time())`. -/
def Clock.epoch (now : Clock) : ℕ := ⌊now.time⌋₊

theorem Clock.epoch_lt (now : Clock) : now.epoch < 2 ^ 63 := by
  have h : now.time < ((2 ^ 63 : ℕ) : ℚ) := by exact_mod_cast now.lt
  exact (Nat.floor_lt now.nonneg).2 h

/-- The clock at a whole second. -/
def Clock.ofSeconds (sec : ℕ) (h : sec < 2 ^ 63) : Clock :=
  ⟨sec, Nat.cast_nonneg sec, by exact_mod_cast h⟩

/-! ## Numbers -/

/-- A Lua number: an exact finite one, or one of the values a division by zero
produces. -/
inductive LuaNumber where
  | fin (q : ℚ)
  | inf
  | negInf
  | nan
  deriving DecidableEq

namespace LuaNumber

/-- Division: a non-zero number over zero is an infinity, zero over zero is NaN. -/
def div (a b : ℚ) : LuaNumber :=
  if b ≠ 0 then .fin (a / b)
  else if 0 < a then .inf
  else if a < 0 then .negInf
  else .nan

/-- Multiplication by a positive constant. -/
def scale (x : LuaNumber) (k : ℚ) : LuaNumber :=
  match x with
  | .fin q => .fin (q * k)
  | x => x

/-- Addition of a finite number. -/
def add (x : LuaNumber) (k : ℚ) : LuaNumber :=
  match x with
  | .fin q => .fin (q + k)
  | x => x

/-- `math.floor`. -/
def floor : LuaNumber → LuaNumber
  | .fin q => .fin ⌊q⌋
  | x => x

/-- `x > k`; a comparison with NaN is false. -/
def gt (x : LuaNumber) (k : ℚ) : Bool :=
  match x with
  | .fin q => decide (k < q)
  | .inf => true
  | .negInf => false
  | .nan => false

end LuaNumber

/-- The value of a number in a field of type `unsigned`: whole, not negative and
below `2 ^ 64`; anything else is stored as another type and does not fit. -/
def unsigned? (q : ℚ) : Option ℕ :=
  if q.den = 1 ∧ 0 ≤ q.num ∧ q.num < 2 ^ 64 then some q.num.toNat else none

/-- The value of a Lua number in a field of type `unsigned`. -/
def LuaNumber.unsigned? : LuaNumber → Option ℕ
  | .fin q => VoipBackend.unsigned? q
  | _ => none

theorem unsigned?_natCast {n : ℕ} (h : n < 2 ^ 64) : unsigned? (n : ℚ) = some n := by
  rw [unsigned?, if_pos]
  · rfl
  · refine ⟨rfl, Int.natCast_nonneg n, ?_⟩
    rw [Rat.num_natCast]
    exact_mod_cast h

theorem eq_natCast_of_unsigned? {q : ℚ} {n : ℕ} (h : unsigned? q = some n) : q = n := by
  rw [unsigned?] at h
  split_ifs at h with hq
  obtain ⟨hden, hnum, -⟩ := hq
  have hn : q.num.toNat = n := Option.some.inj h
  have hq : q = (q.num : ℚ) := (Rat.den_eq_one_iff q).1 hden ▸ rfl
  rw [hq, ← hn, ← Int.toNat_of_nonneg hnum]
  norm_cast

theorem lt_of_unsigned? {q : ℚ} {n : ℕ} (h : unsigned? q = some n) : n < 2 ^ 64 := by
  rw [unsigned?] at h
  split_ifs at h with hq
  have hn : q.num.toNat = n := Option.some.inj h
  omega

/-- A number fits an `unsigned` field exactly when it is a natural number below
`2 ^ 64`. -/
theorem unsigned?_isSome_iff (q : ℚ) :
    (unsigned? q).isSome ↔ ∃ n : ℕ, n < 2 ^ 64 ∧ q = n := by
  constructor
  · intro h
    obtain ⟨n, hn⟩ := Option.isSome_iff_exists.1 h
    exact ⟨n, lt_of_unsigned? hn, eq_natCast_of_unsigned? hn⟩
  · rintro ⟨n, hn, rfl⟩
    rw [unsigned?_natCast hn]
    rfl

/-! ## Argument values -/

/-- A value a caller may pass for an argument, or a field of type `any` may hold.  A 64-bit integer
that is `cdata` is no number to `type`. -/
inductive LuaValue where
  | nil
  | boolean (b : Bool)
  | number (q : ℚ)
  | cdata (z : ℤ)
  | string (s : LuaString)
  | table (entries : List (LuaValue × LuaValue))

namespace LuaValue

/-- `v or d`. -/
def or (v d : LuaValue) : LuaValue :=
  match v with
  | .nil => d
  | .boolean false => d
  | v => v

/-- `v == nil`. -/
def isNil : LuaValue → Bool
  | .nil => true
  | _ => false

/-- The value in a field of type `number`. -/
def number? : LuaValue → Option ℚ
  | .number q => some q
  | .cdata z => some z
  | _ => none

/-- The value in a field of type `string`. -/
def string? : LuaValue → Option LuaString
  | .string s => some s
  | _ => none

/-- An unsigned integer of a request, as Tarantool hands it to a procedure: from `10 ^ 14` on it is
`cdata`. -/
def ofUint (n : ℕ) : LuaValue := if n < 10 ^ 14 then .number n else .cdata n

end LuaValue

/-- What a write raises when a field does not have the type its space format
gives it, or is not there; the statement then stores nothing. -/
inductive LuaError where
  | fieldType (space field : String)
  | fieldMissing (space field : String)
  deriving DecidableEq

end VoipBackend
