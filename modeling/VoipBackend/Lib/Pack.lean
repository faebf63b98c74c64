import VoipBackend.Lib.Unpack

/-!
# Writing MessagePack

A value of the data model has an encoding if its numbers fit 64 bits and its lengths 32
(`Value.Representable`).  The shortest one is `Value.shortest`: it is valid, and it stands for the
value (`valid_shortest`, `value_shortest`).  Whichever encoding a packer chooses, what it packs is
what is read (`unpack_pack`).
-/

namespace Library

namespace MsgPack

/-! ## Values that can be written -/

mutual

/-- Numbers fit 64 bits, and lengths and counts 32. -/
def Value.Representable : Value → Prop
  | .nil => True
  | .bool _ => True
  | .int z => -2 ^ 63 ≤ z ∧ z < 2 ^ 64
  | .float32 bits => bits < 2 ^ 32
  | .float64 bits => bits < 2 ^ 64
  | .str s => s.length < 2 ^ 32
  | .bin s => s.length < 2 ^ 32
  | .array vs => vs.length < 2 ^ 32 ∧ ValuesRepresentable vs
  | .map entries => entries.length < 2 ^ 32 ∧ EntriesRepresentable entries
  | .ext _ data => data.length < 2 ^ 32

def ValuesRepresentable : List Value → Prop
  | [] => True
  | v :: vs => v.Representable ∧ ValuesRepresentable vs

def EntriesRepresentable : List (Value × Value) → Prop
  | [] => True
  | (key, val) :: entries => (key.Representable ∧ val.Representable) ∧ EntriesRepresentable entries

end

/-! ## The shortest encoding -/

/-- A number that is not negative. -/
def shortestNat (n : ℕ) : Item :=
  if n < 128 then .fixint n
  else if n < 2 ^ 8 then .uint .w8 n
  else if n < 2 ^ 16 then .uint .w16 n
  else if n < 2 ^ 32 then .uint .w32 n
  else .uint .w64 n

/-- The number `-n`. -/
def shortestNeg (n : ℕ) : Item :=
  if n ≤ 32 then .negFixint n
  else if n ≤ 2 ^ 7 then .int .w8 (2 ^ 8 - n)
  else if n ≤ 2 ^ 15 then .int .w16 (2 ^ 16 - n)
  else if n ≤ 2 ^ 31 then .int .w32 (2 ^ 32 - n)
  else .int .w64 (2 ^ 64 - n)

def shortestStr (s : Bytes) : Item :=
  if s.length < 32 then .fixstr s
  else if s.length < 2 ^ 8 then .str .w8 s
  else if s.length < 2 ^ 16 then .str .w16 s
  else .str .w32 s

def shortestBin (s : Bytes) : Item :=
  if s.length < 2 ^ 8 then .bin .w8 s
  else if s.length < 2 ^ 16 then .bin .w16 s
  else .bin .w32 s

def shortestExt (type : UInt8) (data : Bytes) : Item :=
  if data.length = 1 then .fixext .e1 type data
  else if data.length = 2 then .fixext .e2 type data
  else if data.length = 4 then .fixext .e4 type data
  else if data.length = 8 then .fixext .e8 type data
  else if data.length = 16 then .fixext .e16 type data
  else if data.length < 2 ^ 8 then .ext .w8 type data
  else if data.length < 2 ^ 16 then .ext .w16 type data
  else .ext .w32 type data

def shortestArray (items : List Item) : Item :=
  if items.length < 16 then .fixarray items
  else if items.length < 2 ^ 16 then .array .w16 items
  else .array .w32 items

def shortestMap (entries : List (Item × Item)) : Item :=
  if entries.length < 16 then .fixmap entries
  else if entries.length < 2 ^ 16 then .map .w16 entries
  else .map .w32 entries

mutual

/-- The shortest encoding of a value. -/
def Value.shortest : Value → Item
  | .nil => .nil
  | .bool b => .bool b
  | .int z => if 0 ≤ z then shortestNat z.toNat else shortestNeg (-z).toNat
  | .float32 bits => .float32 bits
  | .float64 bits => .float64 bits
  | .str s => shortestStr s
  | .bin s => shortestBin s
  | .array vs => shortestArray (shortestItems vs)
  | .map entries => shortestMap (shortestEntries entries)
  | .ext type data => shortestExt type data

def shortestItems : List Value → List Item
  | [] => []
  | v :: vs => v.shortest :: shortestItems vs

def shortestEntries : List (Value × Value) → List (Item × Item)
  | [] => []
  | (key, val) :: entries => (key.shortest, val.shortest) :: shortestEntries entries

end

/-! ## It stands for the value -/

theorem value_shortestNat (n : ℕ) : (shortestNat n).value = .int n := by
  unfold shortestNat
  split_ifs <;> rfl

theorem value_shortestNeg {n : ℕ} (hpos : 0 < n) (h : n ≤ 2 ^ 63) :
    (shortestNeg n).value = .int (-n) := by
  have hneg : ∀ w bits : ℕ, bits + n = 256 ^ w → 256 ^ w / 2 ≤ bits →
      ofTwosComplement w bits = -n := by
    intro w bits hsum hhigh
    rw [ofTwosComplement, if_neg (by omega)]
    have hcast : (bits : ℤ) + n = 256 ^ w := by exact_mod_cast hsum
    omega
  unfold shortestNeg
  split_ifs with h₁ h₂ h₃ h₄
  · rfl
  · exact congrArg Value.int (hneg 1 _ (by omega) (by omega))
  · exact congrArg Value.int (hneg 2 _ (by omega) (by omega))
  · exact congrArg Value.int (hneg 4 _ (by omega) (by omega))
  · exact congrArg Value.int (hneg 8 _ (by omega) (by omega))

theorem value_shortestStr (s : Bytes) : (shortestStr s).value = .str s := by
  unfold shortestStr
  split_ifs <;> rfl

theorem value_shortestBin (s : Bytes) : (shortestBin s).value = .bin s := by
  unfold shortestBin
  split_ifs <;> rfl

theorem value_shortestExt (type : UInt8) (data : Bytes) :
    (shortestExt type data).value = .ext type data := by
  unfold shortestExt
  split_ifs <;> rfl

theorem value_shortestArray (items : List Item) :
    (shortestArray items).value = .array (itemValues items) := by
  unfold shortestArray
  split_ifs <;> rw [Item.value]

theorem value_shortestMap (entries : List (Item × Item)) :
    (shortestMap entries).value = .map (entryValues entries) := by
  unfold shortestMap
  split_ifs <;> rw [Item.value]

mutual

theorem value_shortest {v : Value} (h : v.Representable) : v.shortest.value = v := by
  cases v with
  | int z =>
    rw [Value.Representable] at h
    rw [Value.shortest]
    split_ifs with hz
    · rw [value_shortestNat, Int.toNat_of_nonneg hz]
    · rw [value_shortestNeg (by omega) (by omega), Int.toNat_of_nonneg (by omega), neg_neg]
  | str s => exact value_shortestStr s
  | bin s => exact value_shortestBin s
  | ext type data => exact value_shortestExt type data
  | array vs =>
    rw [Value.Representable] at h
    rw [Value.shortest, value_shortestArray, itemValues_shortestItems h.2]
  | map entries =>
    rw [Value.Representable] at h
    rw [Value.shortest, value_shortestMap, entryValues_shortestEntries h.2]
  | _ => rfl

theorem itemValues_shortestItems {vs : List Value} (h : ValuesRepresentable vs) :
    itemValues (shortestItems vs) = vs := by
  cases vs with
  | nil => rfl
  | cons v vs =>
    rw [ValuesRepresentable] at h
    rw [shortestItems, itemValues, value_shortest h.1, itemValues_shortestItems h.2]

theorem entryValues_shortestEntries {entries : List (Value × Value)}
    (h : EntriesRepresentable entries) : entryValues (shortestEntries entries) = entries := by
  cases entries with
  | nil => rfl
  | cons e entries =>
    obtain ⟨key, val⟩ := e
    rw [EntriesRepresentable] at h
    rw [shortestEntries, entryValues, value_shortest h.1.1, value_shortest h.1.2,
      entryValues_shortestEntries h.2]

end

/-! ## It is valid -/

theorem valid_shortestNat {n : ℕ} (h : n < 2 ^ 64) : (shortestNat n).Valid := by
  unfold shortestNat
  split_ifs <;> simp only [Item.Valid, NumWidth.bytes] <;> omega

theorem valid_shortestNeg {n : ℕ} (hpos : 0 < n) (h : n ≤ 2 ^ 63) : (shortestNeg n).Valid := by
  unfold shortestNeg
  split_ifs <;> simp only [Item.Valid, NumWidth.bytes] <;> omega

theorem valid_shortestStr {s : Bytes} (h : s.length < 2 ^ 32) : (shortestStr s).Valid := by
  unfold shortestStr
  split_ifs <;> simp only [Item.Valid, LenWidth.bytes] <;> omega

theorem valid_shortestBin {s : Bytes} (h : s.length < 2 ^ 32) : (shortestBin s).Valid := by
  unfold shortestBin
  split_ifs <;> simp only [Item.Valid, LenWidth.bytes] <;> omega

theorem valid_shortestExt (type : UInt8) {data : Bytes} (h : data.length < 2 ^ 32) :
    (shortestExt type data).Valid := by
  unfold shortestExt
  split_ifs <;> simp only [Item.Valid, LenWidth.bytes, FixExt.bytes] <;> omega

theorem valid_shortestArray {items : List Item} (h : items.length < 2 ^ 32)
    (hitems : ItemsValid items) : (shortestArray items).Valid := by
  unfold shortestArray
  split_ifs <;> simp only [Item.Valid, CountWidth.bytes] <;> exact ⟨by omega, hitems⟩

theorem valid_shortestMap {entries : List (Item × Item)} (h : entries.length < 2 ^ 32)
    (hentries : EntriesValid entries) : (shortestMap entries).Valid := by
  unfold shortestMap
  split_ifs <;> simp only [Item.Valid, CountWidth.bytes] <;> exact ⟨by omega, hentries⟩

theorem length_shortestItems (vs : List Value) : (shortestItems vs).length = vs.length := by
  induction vs with
  | nil => rfl
  | cons v vs ih => rw [shortestItems, List.length_cons, ih, List.length_cons]

theorem length_shortestEntries (entries : List (Value × Value)) :
    (shortestEntries entries).length = entries.length := by
  induction entries with
  | nil => rfl
  | cons e entries ih => rw [shortestEntries, List.length_cons, ih, List.length_cons]

mutual

theorem valid_shortest {v : Value} (h : v.Representable) : v.shortest.Valid := by
  cases v with
  | nil => trivial
  | bool b => trivial
  | int z =>
    rw [Value.Representable] at h
    rw [Value.shortest]
    split_ifs with hz
    · exact valid_shortestNat (by omega)
    · exact valid_shortestNeg (by omega) (by omega)
  | float32 bits =>
    rw [Value.Representable] at h
    rw [Value.shortest, Item.Valid]
    omega
  | float64 bits =>
    rw [Value.Representable] at h
    rw [Value.shortest, Item.Valid]
    omega
  | str s =>
    rw [Value.Representable] at h
    exact valid_shortestStr h
  | bin s =>
    rw [Value.Representable] at h
    exact valid_shortestBin h
  | ext type data =>
    rw [Value.Representable] at h
    exact valid_shortestExt type h
  | array vs =>
    rw [Value.Representable] at h
    rw [Value.shortest]
    exact valid_shortestArray (by rw [length_shortestItems]; exact h.1) (valid_shortestItems h.2)
  | map entries =>
    rw [Value.Representable] at h
    rw [Value.shortest]
    exact valid_shortestMap (by rw [length_shortestEntries]; exact h.1) (valid_shortestEntries h.2)

theorem valid_shortestItems {vs : List Value} (h : ValuesRepresentable vs) :
    ItemsValid (shortestItems vs) := by
  cases vs with
  | nil => trivial
  | cons v vs =>
    rw [ValuesRepresentable] at h
    rw [shortestItems, ItemsValid]
    exact ⟨valid_shortest h.1, valid_shortestItems h.2⟩

theorem valid_shortestEntries {entries : List (Value × Value)} (h : EntriesRepresentable entries) :
    EntriesValid (shortestEntries entries) := by
  cases entries with
  | nil => trivial
  | cons e entries =>
    obtain ⟨key, val⟩ := e
    rw [EntriesRepresentable] at h
    rw [shortestEntries, EntriesValid]
    exact ⟨⟨valid_shortest h.1.1, valid_shortest h.1.2⟩, valid_shortestEntries h.2⟩

end

/-! ## Packers -/

/-- A packer follows the specification: what it writes for a value that has an encoding is one. -/
def Packs (pack : Value → Bytes) : Prop :=
  ∀ v : Value, v.Representable → ∃ item : Item, item.Valid ∧ item.value = v ∧ pack v = item.bytes

/-- The packer of shortest encodings. -/
def packShortest (v : Value) : Bytes := v.shortest.bytes

theorem packs_packShortest : Packs packShortest := fun v h =>
  ⟨v.shortest, valid_shortest h, value_shortest h, rfl⟩

section Packer

variable {pack : Value → Bytes} (hpack : Packs pack)

include hpack

/-- **What is packed is what is read.** -/
theorem unpack_pack {v : Value} (h : v.Representable) (rest : Bytes) :
    unpack (pack v ++ rest) = some (v, rest) := by
  obtain ⟨item, hvalid, hvalue, hbytes⟩ := hpack v h
  rw [hbytes, unpack_bytes hvalid, hvalue]

/-- Different values are packed differently. -/
theorem pack_injective {v w : Value} (hv : v.Representable) (hw : w.Representable)
    (h : pack v = pack w) : v = w := by
  have hread := unpack_pack hpack hv []
  rw [h, unpack_pack hpack hw, Option.some.injEq, Prod.mk.injEq] at hread
  exact hread.1.symm

end Packer

end MsgPack

end Library
