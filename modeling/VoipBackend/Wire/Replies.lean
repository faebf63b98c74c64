import VoipBackend.Wire.Auth
import VoipBackend.Wire.CallInfo
import VoipBackend.Wire.Codec

/-!
# Reading replies

The decoders of `msgpuck.h` on what Tarantool sends: numbers, strings, arrays and maps, in any
width.  `headerSync_bytes` says that the loop of `rtpe_tarantool_restore_calls` finds
the sync id of a header whose keys and values are numbers, and stops behind it.
-/

namespace VoipBackend

open Library MsgPack

namespace Msgpuck

/-- A number of one byte. -/
theorem fixint_tag {n : ℕ} (h : n < 128) :
    UInt8.ofNat n ≤ 0x7f ∧ (UInt8.ofNat n).toNat = n := by
  have hnat : (UInt8.ofNat n).toNat = n := UInt8.toNat_ofNat_of_lt' (by show n < 256; omega)
  refine ⟨?_, hnat⟩
  rw [UInt8.le_iff_toNat_le, hnat]
  show n ≤ 127
  omega

theorem mpDecodeUint_number {item : Item} {n : ℕ} (hvalid : item.Valid)
    (h : item.number = some n) (rest : Bytes) :
    mpDecodeUint (item.bytes ++ rest) = some (n, rest) := by
  cases item with
  | fixint k =>
    cases h
    rw [Item.Valid] at hvalid
    obtain ⟨hle, hnat⟩ := fixint_tag hvalid
    show mpDecodeUint (UInt8.ofNat n :: rest) = _
    rw [mpDecodeUint, if_pos hle, hnat]
  | uint w k =>
    cases h
    rw [Item.Valid] at hvalid
    cases w
    all_goals exact readUint_bigEndian hvalid rest
  | _ => cases h

theorem mpNext_number {item : Item} {n : ℕ} (hvalid : item.Valid) (h : item.number = some n)
    (rest : Bytes) : mpNext (item.bytes ++ rest) = some rest := by
  cases item with
  | fixint k =>
    cases h
    rw [Item.Valid] at hvalid
    show mpNextUpTo _ (UInt8.ofNat n :: rest) = _
    exact if_pos (Or.inl (fixint_tag hvalid).1)
  | uint w k =>
    cases h
    have hdrop : (bigEndian w.bytes n ++ rest).drop w.bytes = rest :=
      List.drop_left' (length_bigEndian w.bytes n)
    rw [Item.bytes, List.cons_append, mpNext, List.length_cons, mpNextUpTo, Item.payload]
    cases w
    all_goals
      simp only [NumWidth.bytes] at hdrop
      simp [Item.tag, NumWidth.uintTag, NumWidth.bytes, hdrop]
      rfl
  | _ => cases h

theorem mpDecodeStr_text {item : Item} {x : Bytes} (hvalid : item.Valid)
    (h : item.text = some x) (rest : Bytes) :
    mpDecodeStr (item.bytes ++ rest) = some (⟨x ++ rest, x.length⟩, rest) := by
  have hlen : mpDecodeStrLen (item.bytes ++ rest) = some (x.length, x ++ rest) := by
    cases item with
    | fixstr s =>
      cases h
      rw [Item.Valid] at hvalid
      obtain ⟨hmark, hcount⟩ := fixstr_byte (Nat.le_of_lt_succ hvalid)
      show mpDecodeStrLen (UInt8.ofNat (0xa0 + x.length) :: (x ++ rest)) = _
      rw [fixstr_tag hvalid, mpDecodeStrLen, if_pos hmark, hcount]
    | str w s =>
      cases h
      rw [Item.Valid] at hvalid
      have hread := readUint_bigEndian hvalid (x ++ rest)
      have hmark : w.strTag &&& 0xe0 ≠ 0xa0 := by cases w <;> decide
      rw [← List.append_assoc] at hread
      rw [Item.bytes, Item.payload, List.cons_append, mpDecodeStrLen, Item.tag, if_neg hmark]
      cases w
      all_goals exact hread
    | _ => cases h
  rw [mpDecodeStr, hlen]
  simp

/-- The count of an array or a map: in the first byte, or in a field of its own. -/
theorem mpDecodeCount_width {fix tag16 tag32 : UInt8} {w : CountWidth} {tag : UInt8} {n : ℕ}
    (hn : n < 256 ^ w.bytes) (hmark : tag &&& 0xf0 ≠ fix)
    (htag : tag = match w with | .w16 => tag16 | .w32 => tag32) (hne : tag16 ≠ tag32)
    (rest : Bytes) :
    mpDecodeCount fix tag16 tag32 (tag :: (bigEndian w.bytes n ++ rest)) = some (n, rest) := by
  have hread := readUint_bigEndian hn rest
  rw [mpDecodeCount, if_neg hmark]
  cases w with
  | w16 => rw [if_pos htag]; exact hread
  | w32 => rw [if_neg (by rw [htag]; exact hne.symm), if_pos htag]; exact hread

theorem mpDecodeArray_elements {item : Item} {items : List Item} (hvalid : item.Valid)
    (h : item.elements = some items) (rest : Bytes) :
    mpDecodeArray (item.bytes ++ rest) = some (items.length, itemsBytes items ++ rest) := by
  cases item with
  | fixarray items' =>
    cases h
    rw [Item.Valid] at hvalid
    show mpDecodeCount _ _ _ (UInt8.ofNat (0x90 + items.length) :: (itemsBytes items ++ rest)) = _
    rw [fixarray_tag hvalid.1]
    exact mpDecodeCount_fix (by decide) (Nat.le_of_lt_succ hvalid.1) _
  | array w items' =>
    cases h
    rw [Item.Valid] at hvalid
    rw [Item.bytes, Item.payload, List.cons_append, List.append_assoc, Item.tag]
    exact mpDecodeCount_width hvalid.1 (by cases w <;> decide) (by cases w <;> rfl) (by decide) _
  | _ => cases h

theorem mpDecodeMap_pairs {item : Item} {entries : List (Item × Item)} (hvalid : item.Valid)
    (h : item.pairs = some entries) (rest : Bytes) :
    mpDecodeMap (item.bytes ++ rest) = some (entries.length, entriesBytes entries ++ rest) := by
  cases item with
  | fixmap entries' =>
    cases h
    rw [Item.Valid] at hvalid
    rw [Item.bytes, Item.payload, List.cons_append, Item.tag, fixmap_tag hvalid.1]
    exact mpDecodeCount_fix (by decide) (Nat.le_of_lt_succ hvalid.1) _
  | map w entries' =>
    cases h
    rw [Item.Valid] at hvalid
    rw [Item.bytes, Item.payload, List.cons_append, List.append_assoc, Item.tag]
    exact mpDecodeCount_width hvalid.1 (by cases w <;> decide) (by cases w <;> rfl) (by decide) _
  | _ => cases h

/-! ## Values that are no strings -/

theorem and_eq_range_iff (c : UInt8) :
    (c &&& 0xe0 = 0xa0 ↔ 0xa0 ≤ c.toNat ∧ c.toNat < 0xc0) ∧
      (c &&& 0xf0 = 0x80 ↔ 0x80 ≤ c.toNat ∧ c.toNat < 0x90) := by
  have hall : ∀ n < 256, (UInt8.ofNat n &&& 0xe0 = 0xa0 ↔ 0xa0 ≤ n ∧ n < 0xc0) ∧
      (UInt8.ofNat n &&& 0xf0 = 0x80 ↔ 0x80 ≤ n ∧ n < 0x90) := by decide +kernel
  have hc := hall c.toNat c.toNat_lt
  rwa [UInt8.ofNat_toNat] at hc

/-- The first byte of a value that is no string. -/
theorem tag_of_text_none {item : Item} (hvalid : item.Valid) (h : item.text = none) :
    item.tag &&& 0xe0 ≠ 0xa0 ∧ item.tag ≠ 0xd9 ∧ item.tag ≠ 0xda ∧ item.tag ≠ 0xdb := by
  have hrange := tag_mem_tagRange hvalid
  have hother : ¬ (0xa0 ≤ item.tag.toNat ∧ item.tag.toNat < 0xc0) ∧
      ¬ (0xd9 ≤ item.tag.toNat ∧ item.tag.toNat ≤ 0xdb) := by
    generalize item.tag = tag at hrange
    cases item with
    | fixstr s => cases h
    | str w s => cases h
    | _ =>
      simp only [Item.tagRange] at hrange
      omega
  refine ⟨fun hmark => hother.1 ((and_eq_range_iff _).1.1 hmark), fun htag => hother.2 ?_,
    fun htag => hother.2 ?_, fun htag => hother.2 ?_⟩
  all_goals
    rw [htag]
    decide

/-- A value that is no string is read as an empty one; only its first byte is behind the pointer. -/
theorem mpDecodeStr_of_text_none {item : Item} (hvalid : item.Valid) (h : item.text = none)
    (rest : Bytes) :
    mpDecodeStr (item.bytes ++ rest) = some (⟨item.payload ++ rest, 0⟩, item.payload ++ rest) := by
  obtain ⟨hmark, h8, h16, h32⟩ := tag_of_text_none hvalid h
  have hlen : mpDecodeStrLen (item.bytes ++ rest) = some (0, item.payload ++ rest) := by
    rw [Item.bytes, List.cons_append, mpDecodeStrLen, if_neg hmark, if_neg h8, if_neg h16,
      if_neg h32]
  rw [mpDecodeStr, hlen]
  rfl

end Msgpuck

open Msgpuck

theorem pairs_mapItem (count : Option CountWidth) (entries : List (Item × Item)) :
    (mapItem count entries).pairs = some entries := by
  cases count <;> rfl

theorem Header.entriesValid (h : Header) : EntriesValid h.entries :=
  h.valid.pairs (pairs_mapItem h.count h.entries)

/-- The map of a header is read up to its entries. -/
theorem mpDecodeMap_header (h : Header) (rest : Bytes) :
    mpDecodeMap (h.bytes ++ rest) = some (h.entries.length, entriesBytes h.entries ++ rest) :=
  mpDecodeMap_pairs h.valid (pairs_mapItem h.count h.entries) rest

namespace RtpEngine

/-- The header Tarantool sends: `IPROTO_OK`, the sync id and the schema version 80. -/
def okHeader (sync : UInt64) : Header where
  count := none
  entries := [(.fixint 0, .uint .w32 0), (.fixint 1, .uint .w64 sync.toNat),
    (.fixint 5, .uint .w32 80)]
  valid := by
    have hsync : sync.toNat < 2 ^ 64 := sync.toNat_lt
    norm_num [mapItem, Item.Valid, EntriesValid, NumWidth.bytes] at hsync ⊢
    exact hsync
  distinct := by simp [Item.value]

/-- Keys and values are numbers. -/
def Numeric (entries : List (Item × Item)) : Prop :=
  ∀ e ∈ entries, ∃ k v, e.1.number = some k ∧ e.2.number = some v

theorem numeric_okHeader (sync : UInt64) : Numeric (okHeader sync).entries := by
  simp [Numeric, okHeader, Item.number]

/-- The value of the last entry under `key`. -/
def lastUnder (key : ℕ) : ℕ → List (Item × Item) → ℕ
  | last, [] => last
  | last, (k, val) :: entries =>
      lastUnder key (if k.number = some key then val.number.getD 0 else last) entries

theorem lastUnder_eq_self {key : ℕ} {entries : List (Item × Item)}
    (h : ∀ e ∈ entries, e.1.value ≠ .int key) (last : ℕ) : lastUnder key last entries = last := by
  induction entries with
  | nil => rfl
  | cons e entries ih =>
    obtain ⟨hfirst, h⟩ := List.forall_mem_cons.1 h
    have hkey : e.1.number ≠ some key := fun hk => hfirst (Item.value_of_number hk)
    rw [lastUnder, if_neg hkey]
    exact ih h

/-- With distinct keys, the last value under a key is the only one. -/
theorem lastUnder_of_mem {key : ℕ} {entries : List (Item × Item)} (hnumeric : Numeric entries)
    (hdistinct : (entries.map fun e => e.1.value).Nodup) {e : Item × Item} (he : e ∈ entries)
    {n : ℕ} (hkey : e.1.value = .int key) (hval : e.2.value = .int n) (last : ℕ) :
    lastUnder key last entries = n := by
  induction entries generalizing last with
  | nil => cases he
  | cons e' entries ih =>
    obtain ⟨⟨k, v, hk, hv⟩, hnumeric'⟩ := List.forall_mem_cons.1 hnumeric
    rw [List.map_cons, List.nodup_cons] at hdistinct
    rw [lastUnder]
    rcases List.mem_cons.1 he with rfl | he
    · rw [Item.value_of_number hk, Value.int.injEq, Nat.cast_inj] at hkey
      rw [Item.value_of_number hv, Value.int.injEq, Nat.cast_inj] at hval
      rw [hk, hv, if_pos (by rw [hkey]), Option.getD_some, hval]
      refine lastUnder_eq_self (fun e' he' hkey' => hdistinct.1 ?_) n
      rw [Item.value_of_number hk, hkey]
      exact List.mem_map.2 ⟨e', he', hkey'⟩
    · exact ih hnumeric' hdistinct.2 he _

/-- The value of the last entry for `IPROTO_SYNC`. -/
def lastSync : ℕ → List (Item × Item) → ℕ
  | msgSync, [] => msgSync
  | msgSync, (key, val) :: entries =>
      lastSync (if key.number = some iprotoSync then val.number.getD 0 else msgSync) entries

theorem headerLoop_entries {entries : List (Item × Item)} (hvalid : EntriesValid entries)
    (hnumeric : Numeric entries) (msgSync : ℕ) (rest : Bytes) :
    headerLoop msgSync entries.length (entriesBytes entries ++ rest) =
      some (lastSync msgSync entries, rest) := by
  induction entries generalizing msgSync with
  | nil => rfl
  | cons e entries ih =>
    obtain ⟨key, val⟩ := e
    rw [EntriesValid] at hvalid
    obtain ⟨⟨hkey, hval⟩, hvalid⟩ := hvalid
    obtain ⟨⟨k, v, hk, hv⟩, hnumeric⟩ := List.forall_mem_cons.1 hnumeric
    rw [entriesBytes_cons_append, List.length_cons, headerLoop, mpDecodeUint_number hkey hk]
    simp only [Option.bind_eq_bind, Option.bind_some, lastSync, hk, hv, Option.some.injEq,
      Option.getD_some]
    by_cases hsync : k = iprotoSync
    · rw [if_pos hsync, if_pos hsync, mpDecodeUint_number hval hv, Option.bind_some]
      exact ih hvalid hnumeric v
    · rw [if_neg hsync, if_neg hsync, mpNext_number hval hv, Option.bind_some]
      exact ih hvalid hnumeric msgSync

theorem lastSync_eq_lastUnder (msgSync : ℕ) (entries : List (Item × Item)) :
    lastSync msgSync entries = lastUnder iprotoSync msgSync entries := by
  induction entries generalizing msgSync with
  | nil => rfl
  | cons e entries ih => exact ih _

/-- **The sync id of a reply is found**, and the pointer is left behind its header. -/
theorem headerSync_bytes {h : Header} (hnumeric : Numeric h.entries) {e : Item × Item}
    (he : e ∈ h.entries) {sync : ℕ} (hkey : e.1.value = .int iprotoSync)
    (hval : e.2.value = .int sync) (rest : Bytes) :
    headerSync (h.bytes ++ rest) = some (sync, rest) := by
  rw [headerSync, mpDecodeMap_header, Option.bind_some]
  simp only
  rw [headerLoop_entries h.entriesValid hnumeric, lastSync_eq_lastUnder,
    lastUnder_of_mem hnumeric h.distinct he hkey hval]

/-! ## Comparing keys

`strncmp(key, name, klen)` compares no more than the key is long, so that every beginning of a name
equals it. -/

/-- The key is a beginning of the name, or goes on behind the name and its zero byte. -/
def prefixMatch (key name : Bytes) : Bool :=
  key.isPrefixOf name || (name ++ [0]).isPrefixOf key

/-- `strncmp` over the length of a key. -/
theorem strncmpEq_prefixMatch (key name rest : Bytes) :
    strncmpEq (key ++ rest) name key.length = some (prefixMatch key name) := by
  induction key generalizing name with
  | nil => cases rest <;> cases name <;> rfl
  | cons a key ih =>
    cases name with
    | nil =>
      show some (decide (a = 0)) = some (prefixMatch (a :: key) [])
      by_cases ha : a = 0
      · simp [prefixMatch, List.isPrefixOf, ha]
      · simp [prefixMatch, List.isPrefixOf, ha, Ne.symm ha]
    | cons b name =>
      show (if a = b then strncmpEq (key ++ rest) name key.length else some false) = _
      by_cases hab : a = b
      · rw [if_pos hab, ih]
        simp [prefixMatch, List.isPrefixOf, hab]
      · rw [if_neg hab]
        simp [prefixMatch, List.isPrefixOf, hab, Ne.symm hab]

end RtpEngine

end VoipBackend
