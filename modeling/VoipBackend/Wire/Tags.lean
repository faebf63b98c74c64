import VoipBackend.Lib.Grammar
import VoipBackend.Wire.Msgpuck

/-!
# The tags the decoders know

The decoders of `msgpuck.h` for numbers, strings, arrays and maps as tables of tags.  A byte that is
in none of them is a zero, an empty string or an empty container.
-/

namespace VoipBackend

open Library

namespace Msgpuck

/-! ## The tables -/

/-- Numbers. -/
def numberTags : Tags where
  own c := if c ≤ 0x7f then some c.toNat else none
  wide c := if c = 0xcc then some 1 else if c = 0xcd then some 2 else if c = 0xce then some 4
    else if c = 0xcf then some 8 else none

/-- The lengths of strings. -/
def strTags : Tags where
  own c := if c &&& 0xe0 = 0xa0 then some (c &&& 0x1f).toNat else none
  wide c := if c = 0xd9 then some 1 else if c = 0xda then some 2 else if c = 0xdb then some 4
    else none

/-- The counts of arrays or maps. -/
def countTags (fix tag16 tag32 : UInt8) : Tags where
  own c := if c &&& 0xf0 = fix then some (c &&& 0x0f).toNat else none
  wide c := if c = tag16 then some 2 else if c = tag32 then some 4 else none

def arrayTags : Tags := countTags 0x90 0xdc 0xdd

def mapTags : Tags := countTags 0x80 0xde 0xdf

/-! ## The decoders -/

theorem mpDecodeUint_eq_read (p : Bytes) : mpDecodeUint p = numberTags.read p := by
  cases p with
  | nil => rfl
  | cons c p =>
    simp only [mpDecodeUint, Tags.read, numberTags]
    split_ifs <;> rfl

theorem mpDecodeStr_eq_read (p : Bytes) :
    mpDecodeStr p = (strTags.read p).map fun (len, q) => (⟨q, len⟩, q.drop len) := by
  have hlen : mpDecodeStrLen p = strTags.read p := by
    cases p with
    | nil => rfl
    | cons c p =>
      simp only [mpDecodeStrLen, Tags.read, strTags]
      split_ifs <;> rfl
  rw [mpDecodeStr, hlen]
  cases strTags.read p <;> rfl

theorem mpDecodeCount_eq_read (fix tag16 tag32 : UInt8) (p : Bytes) :
    mpDecodeCount fix tag16 tag32 p = (countTags fix tag16 tag32).read p := by
  cases p with
  | nil => rfl
  | cons c p =>
    simp only [mpDecodeCount, Tags.read, countTags]
    split_ifs <;> rfl

theorem mpDecodeStr_eq_some_iff {p q : Bytes} {str : StrRef} :
    mpDecodeStr p = some (str, q) ↔ strTags.At p str.len str.s ∧ q = str.s.drop str.len := by
  rw [mpDecodeStr_eq_read, Option.map_eq_some_iff]
  constructor
  · rintro ⟨⟨len, s⟩, hread, heq⟩
    cases heq
    exact ⟨Tags.read_eq_some_iff.1 hread, rfl⟩
  · rintro ⟨hat, rfl⟩
    exact ⟨(str.len, str.s), Tags.read_eq_some_iff.2 hat, rfl⟩

theorem mpDecodeArray_eq_some_iff {p q : Bytes} {n : ℕ} :
    mpDecodeArray p = some (n, q) ↔ arrayTags.At p n q := by
  rw [mpDecodeArray, mpDecodeCount_eq_read]
  exact Tags.read_eq_some_iff

theorem mpDecodeMap_eq_some_iff {p q : Bytes} {n : ℕ} :
    mpDecodeMap p = some (n, q) ↔ mapTags.At p n q := by
  rw [mpDecodeMap, mpDecodeCount_eq_read]
  exact Tags.read_eq_some_iff

section Bind

variable {α β : Type} {p : Bytes}

theorem bind_number {f : ℕ × Bytes → Option β} : (mpDecodeUint p).bind f ≠ none ↔
    ∃ n q, numberTags.At p n q ∧ f (n, q) ≠ none := by
  rw [mpDecodeUint_eq_read, Tags.bind_read_ne_none]

theorem bind_array {f : ℕ × Bytes → Option β} : (mpDecodeArray p).bind f ≠ none ↔
    ∃ n q, arrayTags.At p n q ∧ f (n, q) ≠ none := by
  rw [mpDecodeArray, mpDecodeCount_eq_read]
  exact Tags.bind_read_ne_none

theorem bind_map {f : ℕ × Bytes → Option β} : (mpDecodeMap p).bind f ≠ none ↔
    ∃ n q, mapTags.At p n q ∧ f (n, q) ≠ none := by
  rw [mpDecodeMap, mpDecodeCount_eq_read]
  exact Tags.bind_read_ne_none

theorem bind_string {f : StrRef × Bytes → Option β} : (mpDecodeStr p).bind f ≠ none ↔
    ∃ len q, strTags.At p len q ∧ f (⟨q, len⟩, q.drop len) ≠ none := by
  rw [mpDecodeStr_eq_read, Option.bind_map]
  exact Tags.bind_read_ne_none

end Bind

end Msgpuck

end VoipBackend
