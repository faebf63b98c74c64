import VoipBackend.Lib.Bytes

/-!
# MessagePack

The serialisation format, independent of any program that reads or writes it.  A
value of the data model (`Value`) has many encodings: an integer may be written in
any width that holds it, a string with a length of one, two or four bytes.  An
`Item` is one encoding written out as a tree, with the format chosen at every node;
`Item.bytes` are its bytes and `Item.value` is the value they stand for.  The widths
are types of their own, so that a format the specification does not have cannot be
chosen; that numbers and lengths fit their fields is `Item.Valid`.
-/

namespace Library

namespace MsgPack

/-- A value of the data model.  Floating-point numbers are kept as their bits. -/
inductive Value where
  | nil
  | bool (b : Bool)
  | int (z : ℤ)
  | float32 (bits : ℕ)
  | float64 (bits : ℕ)
  | str (s : Bytes)
  | bin (s : Bytes)
  | array (vs : List Value)
  | map (entries : List (Value × Value))
  | ext (type : UInt8) (data : Bytes)

/-- The widths of a number. -/
inductive NumWidth where
  | w8
  | w16
  | w32
  | w64
  deriving DecidableEq

/-- The widths of the length of a string. -/
inductive LenWidth where
  | w8
  | w16
  | w32
  deriving DecidableEq

/-- The widths of the count of an array or a map. -/
inductive CountWidth where
  | w16
  | w32
  deriving DecidableEq

/-- The sizes of an extension that needs no length. -/
inductive FixExt where
  | e1
  | e2
  | e4
  | e8
  | e16
  deriving DecidableEq

def NumWidth.bytes : NumWidth → ℕ
  | .w8 => 1
  | .w16 => 2
  | .w32 => 4
  | .w64 => 8

def LenWidth.bytes : LenWidth → ℕ
  | .w8 => 1
  | .w16 => 2
  | .w32 => 4

def CountWidth.bytes : CountWidth → ℕ
  | .w16 => 2
  | .w32 => 4

def FixExt.bytes : FixExt → ℕ
  | .e1 => 1
  | .e2 => 2
  | .e4 => 4
  | .e8 => 8
  | .e16 => 16

/-- An encoding. -/
inductive Item where
  /-- One byte for a number up to 127. -/
  | fixint (n : ℕ)
  /-- One byte for the number `-n`, `n` up to 32. -/
  | negFixint (n : ℕ)
  | nil
  | bool (b : Bool)
  | uint (w : NumWidth) (n : ℕ)
  /-- A signed number, by the bits of its two's complement. -/
  | int (w : NumWidth) (bits : ℕ)
  | float32 (bits : ℕ)
  | float64 (bits : ℕ)
  /-- A string of up to 31 bytes, its length in the first byte. -/
  | fixstr (s : Bytes)
  | str (w : LenWidth) (s : Bytes)
  | bin (w : LenWidth) (s : Bytes)
  /-- An array of up to 15 items, its count in the first byte. -/
  | fixarray (items : List Item)
  | array (w : CountWidth) (items : List Item)
  /-- A map of up to 15 entries, its count in the first byte. -/
  | fixmap (entries : List (Item × Item))
  | map (w : CountWidth) (entries : List (Item × Item))
  | fixext (e : FixExt) (type : UInt8) (data : Bytes)
  | ext (w : LenWidth) (type : UInt8) (data : Bytes)

/-! ## First bytes -/

def NumWidth.uintTag : NumWidth → UInt8
  | .w8 => 0xcc
  | .w16 => 0xcd
  | .w32 => 0xce
  | .w64 => 0xcf

def NumWidth.intTag : NumWidth → UInt8
  | .w8 => 0xd0
  | .w16 => 0xd1
  | .w32 => 0xd2
  | .w64 => 0xd3

def LenWidth.strTag : LenWidth → UInt8
  | .w8 => 0xd9
  | .w16 => 0xda
  | .w32 => 0xdb

def LenWidth.binTag : LenWidth → UInt8
  | .w8 => 0xc4
  | .w16 => 0xc5
  | .w32 => 0xc6

def LenWidth.extTag : LenWidth → UInt8
  | .w8 => 0xc7
  | .w16 => 0xc8
  | .w32 => 0xc9

def CountWidth.arrayTag : CountWidth → UInt8
  | .w16 => 0xdc
  | .w32 => 0xdd

def CountWidth.mapTag : CountWidth → UInt8
  | .w16 => 0xde
  | .w32 => 0xdf

def FixExt.tag : FixExt → UInt8
  | .e1 => 0xd4
  | .e2 => 0xd5
  | .e4 => 0xd6
  | .e8 => 0xd7
  | .e16 => 0xd8

/-- The first byte of an encoding. -/
def Item.tag : Item → UInt8
  | .fixint n => UInt8.ofNat n
  | .negFixint n => UInt8.ofNat (256 - n)
  | .nil => 0xc0
  | .bool false => 0xc2
  | .bool true => 0xc3
  | .uint w _ => w.uintTag
  | .int w _ => w.intTag
  | .float32 _ => 0xca
  | .float64 _ => 0xcb
  | .fixstr s => UInt8.ofNat (0xa0 + s.length)
  | .str w _ => w.strTag
  | .bin w _ => w.binTag
  | .fixarray items => UInt8.ofNat (0x90 + items.length)
  | .array w _ => w.arrayTag
  | .fixmap entries => UInt8.ofNat (0x80 + entries.length)
  | .map w _ => w.mapTag
  | .fixext e _ _ => e.tag
  | .ext w _ _ => w.extTag

/-! ## Bytes and values -/

mutual

/-- The bytes of an encoding after the first. -/
def Item.payload : Item → Bytes
  | .fixint _ => []
  | .negFixint _ => []
  | .nil => []
  | .bool _ => []
  | .uint w n => bigEndian w.bytes n
  | .int w bits => bigEndian w.bytes bits
  | .float32 bits => bigEndian 4 bits
  | .float64 bits => bigEndian 8 bits
  | .fixstr s => s
  | .str w s => bigEndian w.bytes s.length ++ s
  | .bin w s => bigEndian w.bytes s.length ++ s
  | .fixarray items => itemsBytes items
  | .array w items => bigEndian w.bytes items.length ++ itemsBytes items
  | .fixmap entries => entriesBytes entries
  | .map w entries => bigEndian w.bytes entries.length ++ entriesBytes entries
  | .fixext _ type data => type :: data
  | .ext w type data => bigEndian w.bytes data.length ++ type :: data

/-- The items of an array, one after another. -/
def itemsBytes : List Item → Bytes
  | [] => []
  | item :: items => item.tag :: item.payload ++ itemsBytes items

/-- The entries of a map, one after another, each key before its value. -/
def entriesBytes : List (Item × Item) → Bytes
  | [] => []
  | (key, val) :: entries =>
      key.tag :: key.payload ++ val.tag :: val.payload ++ entriesBytes entries

end

/-- The bytes of an encoding. -/
def Item.bytes (item : Item) : Bytes := item.tag :: item.payload

/-- The number with this two's complement of `8 * bytes` bits. -/
def ofTwosComplement (bytes bits : ℕ) : ℤ :=
  if bits < 256 ^ bytes / 2 then bits else (bits : ℤ) - 256 ^ bytes

mutual

/-- The value an encoding stands for. -/
def Item.value : Item → Value
  | .fixint n => .int n
  | .negFixint n => .int (-n)
  | .nil => .nil
  | .bool b => .bool b
  | .uint _ n => .int n
  | .int w bits => .int (ofTwosComplement w.bytes bits)
  | .float32 bits => .float32 bits
  | .float64 bits => .float64 bits
  | .fixstr s => .str s
  | .str _ s => .str s
  | .bin _ s => .bin s
  | .fixarray items => .array (itemValues items)
  | .array _ items => .array (itemValues items)
  | .fixmap entries => .map (entryValues entries)
  | .map _ entries => .map (entryValues entries)
  | .fixext _ type data => .ext type data
  | .ext _ type data => .ext type data

def itemValues : List Item → List Value
  | [] => []
  | item :: items => item.value :: itemValues items

def entryValues : List (Item × Item) → List (Value × Value)
  | [] => []
  | (key, val) :: entries => (key.value, val.value) :: entryValues entries

end

mutual

/-- Numbers and lengths fit their fields, at every node. -/
def Item.Valid : Item → Prop
  | .fixint n => n < 128
  | .negFixint n => 0 < n ∧ n ≤ 32
  | .nil => True
  | .bool _ => True
  | .uint w n => n < 256 ^ w.bytes
  | .int w bits => bits < 256 ^ w.bytes
  | .float32 bits => bits < 256 ^ 4
  | .float64 bits => bits < 256 ^ 8
  | .fixstr s => s.length < 32
  | .str w s => s.length < 256 ^ w.bytes
  | .bin w s => s.length < 256 ^ w.bytes
  | .fixarray items => items.length < 16 ∧ ItemsValid items
  | .array w items => items.length < 256 ^ w.bytes ∧ ItemsValid items
  | .fixmap entries => entries.length < 16 ∧ EntriesValid entries
  | .map w entries => entries.length < 256 ^ w.bytes ∧ EntriesValid entries
  | .fixext e _ data => data.length = e.bytes
  | .ext w _ data => data.length < 256 ^ w.bytes

def ItemsValid : List Item → Prop
  | [] => True
  | item :: items => item.Valid ∧ ItemsValid items

def EntriesValid : List (Item × Item) → Prop
  | [] => True
  | (key, val) :: entries => (key.Valid ∧ val.Valid) ∧ EntriesValid entries

end

/-! ## What an encoding holds -/

/-- The number an encoding stands for, if it is one of those for numbers that are not
negative. -/
def Item.number : Item → Option ℕ
  | .fixint n => some n
  | .uint _ n => some n
  | _ => none

/-- The bytes of a string. -/
def Item.text : Item → Option Bytes
  | .fixstr s => some s
  | .str _ s => some s
  | _ => none

/-- The items of an array. -/
def Item.elements : Item → Option (List Item)
  | .fixarray items => some items
  | .array _ items => some items
  | _ => none

/-- The entries of a map. -/
def Item.pairs : Item → Option (List (Item × Item))
  | .fixmap entries => some entries
  | .map _ entries => some entries
  | _ => none

theorem Item.value_of_number {item : Item} {n : ℕ} (h : item.number = some n) :
    item.value = .int n := by
  cases item <;> cases h <;> rfl

theorem Item.text_of_value {item : Item} {s : Bytes} (h : item.value = .str s) :
    item.text = some s := by
  cases item <;> simp [Item.value] at h <;> rw [← h] <;> rfl

theorem Item.pairs_of_value {item : Item} {vs : List (Value × Value)} (h : item.value = .map vs) :
    ∃ entries, item.pairs = some entries ∧ entryValues entries = vs := by
  cases item <;> simp [Item.value] at h <;> exact ⟨_, rfl, h⟩

theorem Item.Valid.elements {item : Item} (h : item.Valid) {items : List Item}
    (hitems : item.elements = some items) : ItemsValid items := by
  cases item <;> cases hitems <;> rw [Item.Valid] at h <;> exact h.2

theorem Item.Valid.pairs {item : Item} (h : item.Valid) {entries : List (Item × Item)}
    (hentries : item.pairs = some entries) : EntriesValid entries := by
  cases item <;> cases hentries <;> rw [Item.Valid] at h <;> exact h.2

theorem itemsValid_iff {items : List Item} : ItemsValid items ↔ ∀ item ∈ items, item.Valid := by
  induction items with
  | nil => simp [ItemsValid]
  | cons item items ih => rw [ItemsValid, ih, List.forall_mem_cons]

theorem entriesValid_iff {entries : List (Item × Item)} :
    EntriesValid entries ↔ ∀ e ∈ entries, e.1.Valid ∧ e.2.Valid := by
  induction entries with
  | nil => simp [EntriesValid]
  | cons e entries ih =>
    obtain ⟨key, val⟩ := e
    rw [EntriesValid, ih, List.forall_mem_cons]

theorem itemsBytes_nil : itemsBytes [] = [] := rfl

theorem entriesBytes_nil : entriesBytes [] = [] := rfl

theorem itemsBytes_cons (item : Item) (items : List Item) :
    itemsBytes (item :: items) = item.bytes ++ itemsBytes items := by
  simp [itemsBytes, Item.bytes]

theorem entriesBytes_cons (e : Item × Item) (entries : List (Item × Item)) :
    entriesBytes (e :: entries) = e.1.bytes ++ (e.2.bytes ++ entriesBytes entries) := by
  simp [entriesBytes, Item.bytes]

/-- A key and its value before the other entries and what follows. -/
theorem entriesBytes_cons_append (e : Item × Item) (entries : List (Item × Item)) (rest : Bytes) :
    entriesBytes (e :: entries) ++ rest =
      e.1.bytes ++ (e.2.bytes ++ (entriesBytes entries ++ rest)) := by
  rw [entriesBytes_cons, List.append_assoc, List.append_assoc]

theorem entryValues_eq_map (entries : List (Item × Item)) :
    entryValues entries = entries.map fun e => (e.1.value, e.2.value) := by
  induction entries with
  | nil => rfl
  | cons e entries ih =>
    obtain ⟨key, val⟩ := e
    rw [entryValues, ih]
    rfl

/-! ## The values in a value -/

/-- The values an encoding is made of: the elements of an array, the keys and values of a map. -/
def Item.children : Item → List Item
  | .fixarray items => items
  | .array _ items => items
  | .fixmap entries => entries.flatMap fun e => [e.1, e.2]
  | .map _ entries => entries.flatMap fun e => [e.1, e.2]
  | _ => []

/-- The bytes between the first one and the values an encoding is made of. -/
def Item.own : Item → Bytes
  | .fixarray _ => []
  | .array w items => bigEndian w.bytes items.length
  | .fixmap _ => []
  | .map w entries => bigEndian w.bytes entries.length
  | item => item.payload

/-- A value in a value, or that value itself. -/
inductive Item.Within (part : Item) : Item → Prop
  | refl : Within part part
  | child {item child : Item} (hchild : child ∈ item.children) (h : Within part child) :
      Within part item

theorem entriesBytes_eq (entries : List (Item × Item)) :
    entriesBytes entries = itemsBytes (entries.flatMap fun e => [e.1, e.2]) := by
  induction entries with
  | nil => rfl
  | cons e entries ih =>
    rw [entriesBytes_cons, ih, List.flatMap_cons, List.cons_append, List.cons_append,
      List.nil_append, itemsBytes_cons, itemsBytes_cons]

theorem itemsBytes_append (items items' : List Item) :
    itemsBytes (items ++ items') = itemsBytes items ++ itemsBytes items' := by
  induction items with
  | nil => rfl
  | cons item items ih =>
    rw [List.cons_append, itemsBytes_cons, ih, itemsBytes_cons, List.append_assoc]

theorem itemsBytes_eq_nil_iff {items : List Item} : itemsBytes items = [] ↔ items = [] := by
  cases items with
  | nil => simp [itemsBytes]
  | cons item items => simp [itemsBytes]

theorem length_le_itemsBytes {items : List Item} {item : Item} (h : item ∈ items) :
    item.bytes.length ≤ (itemsBytes items).length := by
  obtain ⟨before, behind, rfl⟩ := List.append_of_mem h
  rw [itemsBytes_append, itemsBytes_cons, List.length_append, List.length_append]
  omega

theorem Item.payload_eq (item : Item) : item.payload = item.own ++ itemsBytes item.children := by
  cases item with
  | fixmap entries => rw [Item.payload, entriesBytes_eq, Item.own, Item.children, List.nil_append]
  | map w entries => rw [Item.payload, entriesBytes_eq, Item.own, Item.children]
  | fixarray items => rw [Item.payload, Item.own, Item.children, List.nil_append]
  | array w items => rw [Item.payload, Item.own, Item.children]
  | _ => exact (List.append_nil _).symm

/-- What is in a value is shorter than the value. -/
theorem Item.length_children {item child : Item} (h : child ∈ item.children) :
    child.bytes.length ≤ item.payload.length := by
  rw [Item.payload_eq, List.length_append]
  exact (length_le_itemsBytes h).trans (Nat.le_add_left _ _)

theorem Item.Valid.child {item child : Item} (hvalid : item.Valid) (h : child ∈ item.children) :
    child.Valid := by
  have hitems : ∀ {items : List Item}, ItemsValid items → child ∈ items → child.Valid :=
    fun hitems hmem => itemsValid_iff.1 hitems child hmem
  have hentries : ∀ {entries : List (Item × Item)}, EntriesValid entries →
      child ∈ entries.flatMap (fun e => [e.1, e.2]) → child.Valid := by
    intro entries hentries hmem
    obtain ⟨e, he, hmem⟩ := List.mem_flatMap.1 hmem
    obtain ⟨hkey, hval⟩ := entriesValid_iff.1 hentries e he
    rcases List.mem_pair.1 hmem with rfl | rfl
    · exact hkey
    · exact hval
  cases item with
  | fixarray items =>
    rw [Item.Valid] at hvalid
    exact hitems hvalid.2 h
  | array w items =>
    rw [Item.Valid] at hvalid
    exact hitems hvalid.2 h
  | fixmap entries =>
    rw [Item.Valid] at hvalid
    exact hentries hvalid.2 h
  | map w entries =>
    rw [Item.Valid] at hvalid
    exact hentries hvalid.2 h
  | _ => cases h

theorem Item.Valid.within {item part : Item} (hvalid : item.Valid) (hpart : part.Within item) :
    part.Valid := by
  induction hpart with
  | refl => exact hvalid
  | child hchild _ ih => exact ih (hvalid.child hchild)

theorem Item.Within.trans {item part part' : Item} (hpart : part.Within item)
    (hpart' : part'.Within part) : part'.Within item := by
  induction hpart with
  | refl => exact hpart'
  | child hchild _ ih => exact .child hchild ih

theorem Item.forall_within_iff {motive : Item → Prop} {item : Item} :
    (∀ part : Item, part.Within item → motive part) ↔
      motive item ∧ ∀ child ∈ item.children, ∀ part : Item, part.Within child → motive part := by
  constructor
  · intro h
    exact ⟨h item .refl, fun child hchild part hpart => h part (.child hchild hpart)⟩
  · rintro ⟨hitem, hchildren⟩ part hpart
    cases hpart with
    | refl => exact hitem
    | child hchild hpart => exact hchildren _ hchild part hpart

/-- Induction from the values in a value. -/
theorem Item.children_induction {motive : Item → Prop}
    (step : ∀ item : Item, (∀ child ∈ item.children, motive child) → motive item) (item : Item) :
    motive item := by
  induction hlen : item.bytes.length using Nat.strong_induction_on generalizing item with
  | _ len ih =>
    refine step item fun child hchild => ih _ ?_ child rfl
    rw [← hlen, Item.bytes, List.length_cons]
    exact Nat.lt_succ_of_le (Item.length_children hchild)

/-! ## Reading the first byte -/

/-- The first and the last of the tags of a format. -/
def Item.tagRange : Item → ℕ × ℕ
  | .fixint _ => (0x00, 0x7f)
  | .fixmap _ => (0x80, 0x8f)
  | .fixarray _ => (0x90, 0x9f)
  | .fixstr _ => (0xa0, 0xbf)
  | .nil => (0xc0, 0xc0)
  | .bool _ => (0xc2, 0xc3)
  | .bin _ _ => (0xc4, 0xc6)
  | .ext _ _ _ => (0xc7, 0xc9)
  | .float32 _ => (0xca, 0xca)
  | .float64 _ => (0xcb, 0xcb)
  | .uint _ _ => (0xcc, 0xcf)
  | .int _ _ => (0xd0, 0xd3)
  | .fixext _ _ _ => (0xd4, 0xd8)
  | .str _ _ => (0xd9, 0xdb)
  | .array _ _ => (0xdc, 0xdd)
  | .map _ _ => (0xde, 0xdf)
  | .negFixint _ => (0xe0, 0xff)

/-- The tag of an encoding is one of its format. -/
theorem tag_mem_tagRange {item : Item} (h : item.Valid) :
    item.tagRange.1 ≤ item.tag.toNat ∧ item.tag.toNat ≤ item.tagRange.2 := by
  have hbyte : ∀ n, n < 256 → (UInt8.ofNat n).toNat = n := fun n hn => UInt8.toNat_ofNat_of_lt' hn
  cases item with
  | fixint n =>
    rw [Item.Valid] at h
    simp only [Item.tag, Item.tagRange, hbyte n (by omega)]
    omega
  | negFixint n =>
    rw [Item.Valid] at h
    simp only [Item.tag, Item.tagRange, hbyte (256 - n) (by omega)]
    omega
  | fixstr s =>
    rw [Item.Valid] at h
    simp only [Item.tag, Item.tagRange, hbyte (0xa0 + s.length) (by omega)]
    omega
  | fixarray items =>
    rw [Item.Valid] at h
    simp only [Item.tag, Item.tagRange, hbyte (0x90 + items.length) (by omega)]
    omega
  | fixmap entries =>
    rw [Item.Valid] at h
    simp only [Item.tag, Item.tagRange, hbyte (0x80 + entries.length) (by omega)]
    omega
  | bool b => cases b <;> simp [Item.tag, Item.tagRange]
  | uint w n => cases w <;> simp [Item.tag, Item.tagRange, NumWidth.uintTag]
  | int w n => cases w <;> simp [Item.tag, Item.tagRange, NumWidth.intTag]
  | str w s => cases w <;> simp [Item.tag, Item.tagRange, LenWidth.strTag]
  | bin w s => cases w <;> simp [Item.tag, Item.tagRange, LenWidth.binTag]
  | array w items => cases w <;> simp [Item.tag, Item.tagRange, CountWidth.arrayTag]
  | map w entries => cases w <;> simp [Item.tag, Item.tagRange, CountWidth.mapTag]
  | fixext e type data => cases e <;> simp [Item.tag, Item.tagRange, FixExt.tag]
  | ext w type data => cases w <;> simp [Item.tag, Item.tagRange, LenWidth.extTag]
  | _ => simp [Item.tag, Item.tagRange]

/-- Only the one-byte encoding of zero starts with a zero byte. -/
theorem tag_eq_zero_iff {item : Item} (h : item.Valid) : item.tag = 0 ↔ item = .fixint 0 := by
  constructor
  · intro htag
    have hrange := (tag_mem_tagRange h).1
    rw [htag] at hrange
    cases item with
    | fixint n =>
      rw [Item.Valid] at h
      have hnat := congrArg UInt8.toNat htag
      rw [Item.tag, UInt8.toNat_ofNat_of_lt' (lt_trans h (by decide))] at hnat
      rw [hnat]
      rfl
    | _ => exact absurd hrange (by simp [Item.tagRange])
  · rintro rfl
    rfl

end MsgPack

end Library
