import VoipBackend.Wire.Codec

/-!
# Does `mp_next` skip exactly one value?

The `switch` of `mp_next` has no case for floating-point numbers and extensions: their tag
is skipped, and what is behind it is taken for the next value.  The lengths of strings and
the counts of maps are added up and doubled in 32 bits, so that a string of nearly 4 GiB or a
map of 2^31 entries is cut short as well.

Every value is skipped exactly that is made of other values only (`skipsExactly_iff`).
-/

namespace VoipBackend

open Library MsgPack

namespace Msgpuck

/-! ## What `mp_next` makes of a tag -/

/-- What belongs to the tag `c`, with `p` behind it: so many bytes, and so many values behind
them. -/
def valueShape (c : UInt8) (p : Bytes) : Option (ℕ × ℕ) :=
  if c ≤ 0x7f ∨ 0xe0 ≤ c then some (0, 0)
  else if c &&& 0xe0 = 0xa0 then some ((c &&& 0x1f).toNat, 0)
  else if c &&& 0xf0 = 0x90 then some (0, (c &&& 0x0f).toNat)
  else if c &&& 0xf0 = 0x80 then some (0, (c &&& 0x0f).toNat * 2)
  else if c = 0xcc ∨ c = 0xd0 then some (1, 0)
  else if c = 0xcd ∨ c = 0xd1 then some (2, 0)
  else if c = 0xce ∨ c = 0xd2 then some (4, 0)
  else if c = 0xcf ∨ c = 0xd3 then some (8, 0)
  else if c = 0xd9 ∨ c = 0xc4 then (readUint 1 p).map fun (n, _) => (1 + n, 0)
  else if c = 0xda ∨ c = 0xc5 then (readUint 2 p).map fun (n, _) => (2 + n, 0)
  else if c = 0xdb ∨ c = 0xc6 then (readUint 4 p).map fun (n, _) => ((4 + n) % 2 ^ 32, 0)
  else if c = 0xdc then (readUint 2 p).map fun (n, _) => (2, n)
  else if c = 0xdd then (readUint 4 p).map fun (n, _) => (4, n)
  else if c = 0xde then (readUint 2 p).map fun (n, _) => (2, n * 2)
  else if c = 0xdf then (readUint 4 p).map fun (n, _) => (4, n * 2 % 2 ^ 32)
  else some (0, 0)

/-- The two chains of tests run side by side. -/
theorem ite_eq_bind {α β : Type} {P : Prop} [Decidable P] {a b : Option β} {x y : Option α}
    {f : α → Option β} (ha : a = x.bind f) (hb : b = y.bind f) :
    (if P then a else b) = (if P then x else y).bind f := by
  split_ifs
  · exact ha
  · exact hb

/-- **One step of `mp_next`.**  It skips what belongs to the tag and then the values behind it. -/
theorem mpNextUpTo_succ (depth : ℕ) (c : UInt8) (p : Bytes) :
    mpNextUpTo (depth + 1) (c :: p) =
      (valueShape c p).bind fun (skip, count) =>
        repeatRead (mpNextUpTo depth) count (p.drop skip) := by
  have hcount : ∀ (w : ℕ) (f : ℕ → ℕ),
      ((readUint w p).bind fun (n, p) => repeatRead (mpNextUpTo depth) (f n) p) =
        ((readUint w p).map fun (n, _) => (w, f n)).bind fun (skip, count) =>
          repeatRead (mpNextUpTo depth) count (p.drop skip) := by
    intro w f
    unfold readUint
    split_ifs <;> rfl
  have hskip : ∀ (w : ℕ) (f : ℕ → ℕ),
      ((readUint w p).map fun (n, _) => p.drop (f n)) =
        ((readUint w p).map fun (n, _) => (f n, 0)).bind fun (skip, count) =>
          repeatRead (mpNextUpTo depth) count (p.drop skip) := by
    intro w f
    cases readUint w p <;> rfl
  by_cases hbare : c = 0xc0 ∨ c = 0xc2 ∨ c = 0xc3
  · rcases hbare with rfl | rfl | rfl <;> rfl
  · rw [mpNextUpTo, valueShape, if_neg hbare]
    repeat' apply ite_eq_bind
    all_goals first
      | rfl
      | exact hskip 1 (1 + ·)
      | exact hskip 2 (2 + ·)
      | exact hskip 4 fun n => (4 + n) % 2 ^ 32
      | exact hcount 2 fun n => n
      | exact hcount 4 fun n => n
      | exact hcount 2 (· * 2)
      | exact hcount 4 fun n => n * 2 % 2 ^ 32

/-! ## The formats the `switch` knows -/

/-- The `switch` has a case for the format, and the length of a string or the number of keys and
values of a map does not wrap around. -/
def Known : Item → Prop
  | .float32 _ => False
  | .float64 _ => False
  | .fixext _ _ _ => False
  | .ext _ _ _ => False
  | .str w s => w.bytes + s.length < 2 ^ 32
  | .bin w s => w.bytes + s.length < 2 ^ 32
  | .map _ entries => entries.length * 2 < 2 ^ 32
  | _ => True

instance (item : Item) : Decidable (Known item) := by
  cases item <;> unfold Known <;> infer_instance

theorem length_flatMap_pair (entries : List (Item × Item)) :
    (entries.flatMap fun e => [e.1, e.2]).length = entries.length * 2 := by
  induction entries with
  | nil => rfl
  | cons e entries ih =>
    simp only [List.flatMap_cons, List.length_append, ih, List.length_cons, List.length_nil]
    omega

/-- The length of a string, and the string. -/
theorem valueShape_blob {w : LenWidth} {tag : UInt8} (htag : tag = w.strTag ∨ tag = w.binTag)
    {s : Bytes} (h : s.length < 256 ^ w.bytes) (rest : Bytes) :
    valueShape tag (bigEndian w.bytes s.length ++ rest) =
      some ((w.bytes + s.length) % 2 ^ 32, 0) := by
  have hread := readUint_bigEndian h rest
  have hshape : valueShape tag (bigEndian w.bytes s.length ++ rest) =
      (readUint w.bytes (bigEndian w.bytes s.length ++ rest)).map fun (n, _) =>
        ((if w = .w32 then (4 + n) % 2 ^ 32 else w.bytes + n), 0) := by
    rcases htag with rfl | rfl <;> cases w <;> rfl
  rw [hshape, hread, Option.map_some]
  simp only [Option.some.injEq, Prod.mk.injEq, and_true]
  split_ifs with hwide
  · rw [hwide]
    rfl
  · refine (Nat.mod_eq_of_lt ?_).symm
    cases w <;> simp only [LenWidth.bytes] at h ⊢
    · omega
    · omega
    · exact absurd rfl hwide

theorem valueShape_array {w : CountWidth} {n : ℕ} (h : n < 256 ^ w.bytes) (rest : Bytes) :
    valueShape w.arrayTag (bigEndian w.bytes n ++ rest) = some (w.bytes, n) := by
  have hread := readUint_bigEndian h rest
  cases w <;> exact congrArg (Option.map fun r : ℕ × Bytes => (_, r.1)) hread

theorem valueShape_map {w : CountWidth} {n : ℕ} (h : n < 256 ^ w.bytes) (rest : Bytes) :
    valueShape w.mapTag (bigEndian w.bytes n ++ rest) = some (w.bytes, n * 2 % 2 ^ 32) := by
  have hread := readUint_bigEndian h rest
  have hshape : valueShape w.mapTag (bigEndian w.bytes n ++ rest) =
      (readUint w.bytes (bigEndian w.bytes n ++ rest)).map fun (n, _) =>
        (w.bytes, if w = .w32 then n * 2 % 2 ^ 32 else n * 2) := by
    cases w <;> rfl
  rw [hshape, hread, Option.map_some]
  simp only [Option.some.injEq, Prod.mk.injEq, true_and]
  split_ifs with hwide
  · rfl
  · refine (Nat.mod_eq_of_lt ?_).symm
    cases w <;> simp only [CountWidth.bytes] at h ⊢
    · omega
    · exact absurd rfl hwide

/-- What belongs to a known tag: its own bytes, and the values in it. -/
theorem valueShape_known {item : Item} (hvalid : item.Valid) (hknown : Known item) (rest : Bytes) :
    valueShape item.tag (item.payload ++ rest) = some (item.own.length, item.children.length) := by
  rw [Item.payload_eq, List.append_assoc]
  cases item with
  | fixint n =>
    rw [Item.Valid] at hvalid
    have hall : ∀ n < 128, UInt8.ofNat n ≤ 0x7f ∨ 0xe0 ≤ UInt8.ofNat n := by decide
    exact if_pos (hall n hvalid)
  | negFixint n =>
    rw [Item.Valid] at hvalid
    have hall : ∀ n < 33, 0 < n → 0xe0 ≤ UInt8.ofNat (256 - n) := by decide
    exact if_pos (Or.inr (hall n (by omega) hvalid.1))
  | fixstr s =>
    rw [Item.Valid] at hvalid
    have hall : ∀ n < 32, ∀ p, valueShape (UInt8.ofNat (0xa0 + n)) p = some (n, 0) := by
      intro n hn p
      interval_cases n <;> rfl
    exact hall s.length hvalid _
  | fixarray items =>
    rw [Item.Valid] at hvalid
    have hall : ∀ n < 16, ∀ p, valueShape (UInt8.ofNat (0x90 + n)) p = some (0, n) := by
      intro n hn p
      interval_cases n <;> rfl
    exact hall items.length hvalid.1 _
  | fixmap entries =>
    rw [Item.Valid] at hvalid
    have hall : ∀ n < 16, ∀ p, valueShape (UInt8.ofNat (0x80 + n)) p = some (0, n * 2) := by
      intro n hn p
      interval_cases n <;> rfl
    rw [Item.children, length_flatMap_pair]
    exact hall entries.length hvalid.1 _
  | nil => rfl
  | bool b => cases b <;> rfl
  | uint w n =>
    rw [Item.tag]
    cases w <;> rw [NumWidth.uintTag] <;> rfl
  | int w n =>
    rw [Item.tag]
    cases w <;> rw [NumWidth.intTag] <;> rfl
  | str w s =>
    rw [Item.Valid] at hvalid
    rw [Known] at hknown
    show valueShape w.strTag ((bigEndian w.bytes s.length ++ s) ++ _) = some (List.length (_ ++ s), 0)
    rw [List.append_assoc, List.length_append, length_bigEndian, ← Nat.mod_eq_of_lt hknown]
    exact valueShape_blob (Or.inl rfl) hvalid _
  | bin w s =>
    rw [Item.Valid] at hvalid
    rw [Known] at hknown
    show valueShape w.binTag ((bigEndian w.bytes s.length ++ s) ++ _) = some (List.length (_ ++ s), 0)
    rw [List.append_assoc, List.length_append, length_bigEndian, ← Nat.mod_eq_of_lt hknown]
    exact valueShape_blob (Or.inr rfl) hvalid _
  | array w items =>
    rw [Item.Valid] at hvalid
    rw [Item.own, length_bigEndian]
    exact valueShape_array hvalid.1 _
  | map w entries =>
    rw [Item.Valid] at hvalid
    rw [Known] at hknown
    rw [Item.own, length_bigEndian, Item.children, length_flatMap_pair, ← Nat.mod_eq_of_lt hknown]
    exact valueShape_map hvalid.1 _
  | _ => cases hknown

/-! ## Values that are skipped exactly -/

/-- A reader stops right behind each of these values, whatever follows. -/
def SkipsAll (read : Bytes → Option Bytes) (items : List Item) : Prop :=
  ∀ item ∈ items, ∀ rest, read (item.bytes ++ rest) = some rest

/-- `mp_next` stops right behind a value, whatever follows. -/
def SkipsExactly (item : Item) : Prop := ∀ rest, mpNext (item.bytes ++ rest) = some rest

/-- The first `m` of the values are skipped. -/
theorem repeatRead_itemsBytes {read : Bytes → Option Bytes} {items : List Item}
    (h : SkipsAll read items) {m : ℕ} (hm : m ≤ items.length) (rest : Bytes) :
    repeatRead read m (itemsBytes items ++ rest) = some (itemsBytes (items.drop m) ++ rest) := by
  induction m generalizing items with
  | zero => rfl
  | succ m ih =>
    cases items with
    | nil => simp at hm
    | cons item items =>
      obtain ⟨hitem, hitems⟩ := List.forall_mem_cons.1 h
      rw [repeatRead, itemsBytes_cons, List.append_assoc, hitem, Option.bind_some,
        ih hitems (Nat.le_of_succ_le_succ hm), List.drop_succ_cons]

/-- Known tags all the way down are skipped, with a budget of the length of the encoding. -/
theorem mpNextUpTo_known {item : Item} (hvalid : item.Valid)
    (hknown : ∀ part : Item, part.Within item → Known part) {depth : ℕ}
    (hdepth : item.bytes.length ≤ depth) (rest : Bytes) :
    mpNextUpTo depth (item.bytes ++ rest) = some rest := by
  induction item using Item.children_induction generalizing depth rest with
  | step item ih =>
    cases depth with
    | zero =>
      rw [Item.bytes, List.length_cons] at hdepth
      omega
    | succ depth =>
      have hchildren : SkipsAll (mpNextUpTo depth) item.children := by
        intro child hchild rest
        have hlen := Item.length_children hchild
        rw [Item.bytes, List.length_cons] at hdepth
        exact ih child hchild (hvalid.child hchild) (fun part hpart => hknown part (.child hchild hpart))
          (by omega) rest
      rw [Item.bytes, List.cons_append, mpNextUpTo_succ,
        valueShape_known hvalid (hknown item .refl), Option.bind_some]
      simp only
      rw [Item.payload_eq, List.append_assoc, List.drop_left,
        repeatRead_itemsBytes hchildren le_rfl, List.drop_length, itemsBytes_nil, List.nil_append]

/-- Known tags all the way down are skipped exactly. -/
theorem skipsExactly_of_known {item : Item} (hvalid : item.Valid)
    (hknown : ∀ part : Item, part.Within item → Known part) : SkipsExactly item := fun rest =>
  mpNextUpTo_known hvalid hknown (by simp) rest

/-- A value of which `mp_next` takes less than there is behind the tag is not skipped exactly. -/
theorem not_skipsExactly {item : Item} {skip : ℕ}
    (hshape : valueShape item.tag item.payload = some (skip, 0))
    (hskip : skip < item.payload.length) : ¬ SkipsExactly item := by
  intro h
  have hnext := h []
  rw [List.append_nil, Item.bytes, mpNext, List.length_cons, mpNextUpTo_succ, hshape,
    Option.bind_some] at hnext
  have hdrop : item.payload.drop skip = [] := Option.some.inj hnext
  have := List.drop_eq_nil_iff.1 hdrop
  omega

/-- A length that wraps around is less than the string. -/
theorem not_skipsExactly_blob {item : Item} {w : LenWidth} {s : Bytes}
    (htag : item.tag = w.strTag ∨ item.tag = w.binTag)
    (hpayload : item.payload = bigEndian w.bytes s.length ++ s) (hlen : s.length < 256 ^ w.bytes)
    (hwrap : ¬ w.bytes + s.length < 2 ^ 32) : ¬ SkipsExactly item := by
  have hshape := valueShape_blob htag hlen s
  rw [← hpayload] at hshape
  refine not_skipsExactly hshape ?_
  rw [hpayload, List.length_append, length_bigEndian]
  have := Nat.mod_lt (w.bytes + s.length) (show 0 < 2 ^ 32 by norm_num)
  omega

/-- A value with an unknown tag, or one whose length or count wraps around, is not skipped exactly,
even if everything in it is. -/
theorem known_of_skipsExactly {item : Item} (hvalid : item.Valid)
    (hchildren : ∀ child ∈ item.children, ∀ part : Item, part.Within child → Known part)
    (h : SkipsExactly item) : Known item := by
  by_contra hknown
  cases item with
  | float32 bits =>
    have hshape : valueShape 0xca (bigEndian 4 bits) = some (0, 0) := rfl
    exact absurd h (not_skipsExactly hshape (by simp [Item.payload]))
  | float64 bits =>
    have hshape : valueShape 0xcb (bigEndian 8 bits) = some (0, 0) := rfl
    exact absurd h (not_skipsExactly hshape (by simp [Item.payload]))
  | fixext e type data =>
    have hshape : valueShape e.tag (type :: data) = some (0, 0) := by cases e <;> rfl
    exact absurd h (not_skipsExactly hshape (by simp [Item.payload]))
  | ext w type data =>
    have hshape : valueShape w.extTag (bigEndian w.bytes data.length ++ type :: data) =
        some (0, 0) := by cases w <;> rfl
    exact absurd h (not_skipsExactly hshape (by simp [Item.payload]))
  | str w s =>
    rw [Item.Valid] at hvalid
    exact not_skipsExactly_blob (Or.inl rfl) (by rw [Item.payload]) hvalid hknown h
  | bin w s =>
    rw [Item.Valid] at hvalid
    exact not_skipsExactly_blob (Or.inr rfl) (by rw [Item.payload]) hvalid hknown h
  | map w entries =>
    -- The keys and values behind the count that wraps around are left.
    have hcount := length_flatMap_pair entries
    set items := (Item.map w entries).children with hitems
    have hskips : SkipsAll (mpNextUpTo (Item.map w entries).payload.length) items := by
      intro child hchild rest
      exact mpNextUpTo_known (hvalid.child hchild) (hchildren child hchild)
        (Item.length_children hchild) rest
    rw [Item.Valid] at hvalid
    rw [Known, not_lt] at hknown
    have hlt := Nat.mod_lt (entries.length * 2) (show 0 < 2 ^ 32 by norm_num)
    have hle : entries.length * 2 % 2 ^ 32 ≤ items.length := by
      rw [hitems, Item.children, hcount]
      omega
    have hnext := h []
    have hshape : valueShape (Item.map w entries).tag (Item.map w entries).payload =
        some (w.bytes, entries.length * 2 % 2 ^ 32) := by
      rw [Item.payload_eq]
      exact valueShape_map hvalid.1 _
    have hbehind : (Item.map w entries).payload.drop w.bytes = itemsBytes items ++ [] := by
      rw [Item.payload_eq, List.append_nil]
      exact List.drop_left' (length_bigEndian _ _)
    rw [List.append_nil, Item.bytes, mpNext, List.length_cons, mpNextUpTo_succ, hshape,
      Option.bind_some] at hnext
    simp only at hnext
    rw [hbehind, repeatRead_itemsBytes hskips hle, List.append_nil, Option.some.injEq,
      itemsBytes_eq_nil_iff, List.drop_eq_nil_iff, hitems, Item.children, hcount] at hnext
    omega
  | _ => exact hknown trivial

theorem skipsExactly_within {item : Item} (hvalid : item.Valid)
    (h : ∀ part : Item, part.Within item → SkipsExactly part) :
    ∀ part : Item, part.Within item → Known part := by
  induction item using Item.children_induction with
  | step item ih =>
    have hchildren : ∀ child ∈ item.children, ∀ part : Item, part.Within child → Known part :=
      fun child hchild => ih child hchild (hvalid.child hchild) fun part hpart =>
        h part (.child hchild hpart)
    exact Item.forall_within_iff.2 ⟨known_of_skipsExactly hvalid hchildren (h item .refl), hchildren⟩

end Msgpuck

open Msgpuck

/-- **When does `mp_next` skip exactly one value?**  It skips a value and every value in it, each
followed by any bytes, if and only if all of them are of formats its `switch` knows, their
lengths and counts far enough below 2^32. -/
theorem skipsExactly_iff {item : Item} (hvalid : item.Valid) :
    (∀ part : Item, part.Within item → SkipsExactly part) ↔
      ∀ part : Item, part.Within item → Known part := by
  constructor
  · exact skipsExactly_within hvalid
  · intro hknown part hpart
    exact skipsExactly_of_known (hvalid.within hpart) fun part' hpart' =>
      hknown part' (hpart.trans hpart')

/-- A string and a negative number in an array. -/
theorem skipsExactly_array :
    SkipsExactly (.array .w16 [.str .w8 [97], .negFixint 1]) := by
  have hvalid : (Item.array .w16 [.str .w8 [97], .negFixint 1]).Valid := by
    simp [Item.Valid, ItemsValid, LenWidth.bytes, CountWidth.bytes]
  refine (skipsExactly_iff hvalid).2 (Item.forall_within_iff.2 ⟨trivial, ?_⟩) _ .refl
  intro child hchild
  have hleaf : child.children = [] ∧ Known child := by
    rcases List.mem_pair.1 hchild with rfl | rfl <;> exact ⟨rfl, by decide⟩
  exact Item.forall_within_iff.2 ⟨hleaf.2, by simp [hleaf.1]⟩

-- A value may also be skipped exactly by accident: the payload of the number in this array looks
-- like a string that ends where the array does.
example : mpNext (Item.fixarray [.float32 0xa4000000, .nil]).bytes = some [] := by decide

/-- The payload of a call may be a floating-point number. -/
theorem not_skipsExactly_float64 :
    ¬ ∀ item : Item, item.Valid → ∀ rest, mpNext (item.bytes ++ rest) = some rest := by
  intro h
  have hvalid : (Item.float64 0).Valid := by rw [Item.Valid]; norm_num
  exact absurd (h (.float64 0) hvalid []) (by decide)

end VoipBackend
