import VoipBackend.Wire.SaveRestore
import VoipBackend.Wire.Skipping

/-!
# The variables of the restore decoder

The decoder of `rtpe_tarantool_restore_calls` reads a value into a variable: a string into a buffer,
a number into a port.  It does not look whether the value has the type it expects.  A `Slot` is a
variable with the way a value is read into it and with what the value means; it knows which values
are read as they are meant, which leave the variable as it is, and which mean nothing.
-/

namespace VoipBackend

open Library MsgPack Msgpuck

namespace RtpEngine

/-! ## Values of another type -/

/-- The first byte of a value that is no number, or a number in a signed format. -/
theorem tag_of_number_none {item : Item} (hvalid : item.Valid) (h : item.number = none) :
    ¬ item.tag ≤ 0x7f ∧ item.tag ≠ 0xcc ∧ item.tag ≠ 0xcd ∧ item.tag ≠ 0xce ∧ item.tag ≠ 0xcf := by
  have hrange := tag_mem_tagRange hvalid
  have hother : ¬ item.tag.toNat ≤ 0x7f ∧ ¬ (0xcc ≤ item.tag.toNat ∧ item.tag.toNat ≤ 0xcf) := by
    generalize item.tag = tag at hrange
    cases item with
    | fixint n => cases h
    | uint w n => cases h
    | _ =>
      simp only [Item.tagRange] at hrange
      omega
  refine ⟨fun hfix => hother.1 (UInt8.le_iff_toNat_le.1 hfix), fun htag => hother.2 ?_,
    fun htag => hother.2 ?_, fun htag => hother.2 ?_, fun htag => hother.2 ?_⟩
  all_goals
    rw [htag]
    decide

/-- Only a small map starts like one. -/
theorem tag_fixmap_iff {item : Item} (hvalid : item.Valid) :
    item.tag &&& 0xf0 = 0x80 ↔ ∃ entries, item = .fixmap entries := by
  have hrange := tag_mem_tagRange hvalid
  rw [(and_eq_range_iff _).2]
  generalize item.tag = tag at hrange
  cases item with
  | fixmap entries =>
    simp only [Item.tagRange] at hrange
    exact iff_of_true (by omega) ⟨entries, rfl⟩
  | _ =>
    simp only [Item.tagRange] at hrange
    exact iff_of_false (by omega) (by simp)

/-- A value that is no unsigned number is read as 0. -/
theorem readPort_of_number_none {item : Item} (hvalid : item.Valid) (h : item.number = none)
    (rest : Bytes) : readPort (item.bytes ++ rest) = some (0, item.payload ++ rest) := by
  obtain ⟨hfix, h8, h16, h32, h64⟩ := tag_of_number_none hvalid h
  rw [readPort, Item.bytes, List.cons_append, mpDecodeUint, if_neg hfix, if_neg h8, if_neg h16,
    if_neg h32, if_neg h64]
  rfl

/-! ## Variables of the decoder -/

/-- A variable that is read from a value. -/
structure Slot where
  Val : Type
  get : RestoredCall → Val
  set : RestoredCall → Val → RestoredCall
  get_set : ∀ call x, get (set call x) = x
  set_get : ∀ call, set call (get call) = call
  /-- How the decoder reads a value into the variable. -/
  read : Val → Bytes → Option (Val × Bytes)
  /-- What a value means for the variable. -/
  update : Item → Val → Val
  /-- The values of its type. -/
  Typed : Item → Prop
  /-- The values that the decoder does not put into it. -/
  Ignored : Item → Prop
  /-- The values that mean nothing for it. -/
  Void : Item → Prop
  read_iff : ∀ {item : Item}, item.Valid →
    ((∀ x rest, read x (item.bytes ++ rest) = some (update item x, rest)) ↔ Typed item)
  ignored_iff : ∀ {item : Item}, item.Valid →
    ((∀ x rest, read x (item.bytes ++ rest) = some (x, rest)) ↔ Ignored item)
  void_iff : ∀ item, (∀ x, update item x = x) ↔ Void item

/-- The text in a buffer of `size` bytes after a value is put into it. -/
def textOf (size : ℕ) (old : Bytes) (item : Option Item) : Bytes :=
  match item.bind Item.text with
  | some x => fit size old x
  | none => old

/-- The port after a value is put into it. -/
def portOf (old : Int32) (item : Option Item) : Int32 :=
  match item.map Item.value with
  | some (.int (.ofNat n)) => Int32.ofNat n
  | _ => old

theorem readInto_of_text_none {size : ℕ} (hsize : 0 < size) (old : Bytes) {item : Item}
    (hvalid : item.Valid) (h : item.text = none) (rest : Bytes) :
    readInto size old (item.bytes ++ rest) = some ([], item.payload ++ rest) := by
  rw [readInto, mpDecodeStr_of_text_none hvalid h]
  simp [copyInto, hsize, StrRef.bytes]

/-- A string that is too long leaves every buffer as it is, and no other one does. -/
theorem fit_eq_old_iff {size : ℕ} {x : Bytes} :
    (∀ old, fit size old x = old) ↔ size ≤ x.length := by
  constructor
  · intro h
    by_contra hfits
    have hold := h (0 :: x.takeWhile fun b => b ≠ 0)
    rw [fit, if_pos (not_le.1 hfits)] at hold
    exact List.cons_ne_self _ _ hold.symm
  · intro hlong old
    rw [fit, if_neg (not_lt.2 hlong)]

theorem readInto_iff {size : ℕ} (hsize : 0 < size) {item : Item} (hvalid : item.Valid) :
    (∀ old rest, readInto size old (item.bytes ++ rest) = some (textOf size old item, rest)) ↔
      item.text.isSome := by
  cases h : item.text with
  | none =>
    refine iff_of_false (fun hall => ?_) (by simp)
    have hread := hall [1] []
    rw [readInto_of_text_none hsize _ hvalid h, textOf, Option.bind_some, h] at hread
    cases congrArg Prod.fst (Option.some.inj hread)
  | some x =>
    refine iff_of_true (fun old rest => ?_) rfl
    rw [readInto_text size old hvalid h, textOf, Option.bind_some, h]

theorem readInto_ignored_iff {size : ℕ} (hsize : 0 < size) {item : Item} (hvalid : item.Valid) :
    (∀ old rest, readInto size old (item.bytes ++ rest) = some (old, rest)) ↔
      ∃ x, item.text = some x ∧ size ≤ x.length := by
  cases h : item.text with
  | none =>
    refine iff_of_false (fun hall => ?_) (by simp)
    have hread := hall [1] []
    rw [readInto_of_text_none hsize _ hvalid h] at hread
    cases congrArg Prod.fst (Option.some.inj hread)
  | some x =>
    have hread : ∀ old rest, readInto size old (item.bytes ++ rest) = some (fit size old x, rest) :=
      fun old rest => readInto_text size old hvalid h rest
    simp only [hread, Option.some.injEq, Prod.mk.injEq, and_true, forall_const, exists_eq_left']
    exact fit_eq_old_iff

theorem textOf_eq_old_iff {size : ℕ} (item : Item) :
    (∀ old, textOf size old item = old) ↔ ∀ x, item.text = some x → size ≤ x.length := by
  unfold textOf
  rw [Option.bind_some]
  cases item.text with
  | none => simp
  | some x => simpa using fit_eq_old_iff

/-- A buffer of `size` bytes. -/
def textSlot (size : ℕ) (hsize : 0 < size) (get : RestoredCall → Bytes)
    (set : RestoredCall → Bytes → RestoredCall) (get_set : ∀ call x, get (set call x) = x)
    (set_get : ∀ call, set call (get call) = call) : Slot where
  Val := Bytes
  get := get
  set := set
  get_set := get_set
  set_get := set_get
  read := readInto size
  update := fun item old => textOf size old item
  Typed := fun item => item.text.isSome
  Ignored := fun item => ∃ x, item.text = some x ∧ size ≤ x.length
  Void := fun item => ∀ x, item.text = some x → size ≤ x.length
  read_iff := readInto_iff hsize
  ignored_iff := readInto_ignored_iff hsize
  void_iff := textOf_eq_old_iff

theorem Int32.exists_ne (n : Int32) : ∃ old, old ≠ n := by
  by_cases h : n = 0
  · exact ⟨1, by rw [h]; decide⟩
  · exact ⟨0, Ne.symm h⟩

/-- A port is overwritten by every value. -/
theorem not_readPort_ignored (item : Item) :
    ¬ ∀ (old : Int32) (rest : Bytes), readPort (item.bytes ++ rest) = some (old, rest) := by
  intro hall
  obtain ⟨p, hp⟩ := Option.isSome_iff_exists.1 (Option.isSome_of_eq_some (hall 0 []))
  obtain ⟨old, hold⟩ := Int32.exists_ne p.1
  rw [hall old []] at hp
  exact hold (congrArg Prod.fst (Option.some.inj hp))

theorem portOf_eq_old_iff (item : Item) :
    (∀ old, portOf old item = old) ↔ ∀ n : ℕ, item.value ≠ .int n := by
  unfold portOf
  rw [Option.map_some]
  constructor
  · intro h n hvalue
    obtain ⟨old, hold⟩ := Int32.exists_ne (Int32.ofNat n)
    have hsame := h old
    rw [hvalue] at hsame
    exact hold hsame.symm
  · intro h old
    split
    · next n hvalue => exact absurd (Option.some.inj hvalue) (h n)
    · rfl

theorem readPort_iff {item : Item} (hvalid : item.Valid) :
    (∀ old rest, readPort (item.bytes ++ rest) = some (portOf old item, rest)) ↔
      item.number.isSome := by
  cases h : item.number with
  | none =>
    refine iff_of_false (fun hall => ?_) (by simp)
    have hread : ∀ old, (0, item.payload) = (portOf old item, ([] : Bytes)) := by
      intro old
      have hold := hall old []
      rw [readPort_of_number_none hvalid h, List.append_nil] at hold
      exact Option.some.inj hold
    have hpayload : item.payload = [] := congrArg Prod.snd (hread 0)
    -- a number that is not negative has bytes behind its tag
    have hvalue : ∀ n : ℕ, item.value ≠ .int n := by
      intro n hvalue
      cases item with
      | fixint k => cases h
      | uint w k => cases h
      | negFixint k =>
        rw [Item.Valid] at hvalid
        have := Value.int.inj hvalue
        omega
      | int w bits =>
        have hlength := congrArg List.length hpayload
        rw [Item.payload, length_bigEndian] at hlength
        cases w <;> cases hlength
      | _ => cases hvalue
    have hold := (portOf_eq_old_iff item).2 hvalue 1
    have hzero : 0 = portOf 1 item := congrArg Prod.fst (hread 1)
    rw [hold] at hzero
    exact absurd hzero (by decide)
  | some n =>
    refine iff_of_true (fun old rest => ?_) rfl
    rw [readPort_number hvalid h, portOf, Option.map_some, Item.value_of_number h]

/-- A port. -/
def portSlot (get : RestoredCall → Int32) (set : RestoredCall → Int32 → RestoredCall)
    (get_set : ∀ call x, get (set call x) = x) (set_get : ∀ call, set call (get call) = call) :
    Slot where
  Val := Int32
  get := get
  set := set
  get_set := get_set
  set_get := set_get
  read := fun _ => readPort
  update := fun item old => portOf old item
  Typed := fun item => item.number.isSome
  Ignored := fun _ => False
  Void := fun item => ∀ n : ℕ, item.value ≠ .int n
  read_iff := readPort_iff
  ignored_iff := fun {item} _ => iff_of_false (not_readPort_ignored item) id
  void_iff := portOf_eq_old_iff

end RtpEngine

end VoipBackend
