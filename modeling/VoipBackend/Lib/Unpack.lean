import VoipBackend.Lib.MessagePack

/-!
# Reading MessagePack

A decoder that follows the specification: the first byte gives the format, and the format says
what comes behind it.  `unpack_bytes` says that it reads every encoding of a value, whatever
follows it.

Values are nested, and the decoder has a budget for the depth.  Every level has a byte of
its own, so the length of the input is enough.
-/

namespace Library

namespace MsgPack

/-! ## The decoder -/

/-- The first `n` bytes, and the others. -/
def takeBytes (n : ℕ) (s : Bytes) : Option (Bytes × Bytes) :=
  if n ≤ s.length then some (s.take n, s.drop n) else none

/-- A number of `w` bytes. -/
def takeNumber (w : ℕ) (s : Bytes) : Option (ℕ × Bytes) :=
  (takeBytes w s).map fun (x, s) => (ofBigEndian x, s)

/-- Bytes behind a length of `w` bytes. -/
def takeBlob (w : ℕ) (s : Bytes) : Option (Bytes × Bytes) :=
  (takeNumber w s).bind fun (n, s) => takeBytes n s

/-- An extension: its type and `n` bytes. -/
def takeExt (n : ℕ) (s : Bytes) : Option (Value × Bytes) :=
  match s with
  | [] => none
  | type :: s => (takeBytes n s).map fun (data, s) => (.ext type data, s)

/-- Values, one after another. -/
def unpackItems (dec : Bytes → Option (Value × Bytes)) : ℕ → Bytes → Option (List Value × Bytes)
  | 0, s => some ([], s)
  | n + 1, s =>
      (dec s).bind fun (v, s) => (unpackItems dec n s).map fun (vs, s) => (v :: vs, s)

/-- Pairs of values, one after another. -/
def unpackEntries (dec : Bytes → Option (Value × Bytes)) :
    ℕ → Bytes → Option (List (Value × Value) × Bytes)
  | 0, s => some ([], s)
  | n + 1, s =>
      (dec s).bind fun (k, s) =>
        (dec s).bind fun (v, s) => (unpackEntries dec n s).map fun (es, s) => ((k, v) :: es, s)

/-- An array of `n` values. -/
def unpackArray (dec : Bytes → Option (Value × Bytes)) (n : ℕ) (s : Bytes) :
    Option (Value × Bytes) :=
  (unpackItems dec n s).map fun (vs, s) => (.array vs, s)

/-- A map of `n` entries. -/
def unpackMap (dec : Bytes → Option (Value × Bytes)) (n : ℕ) (s : Bytes) :
    Option (Value × Bytes) :=
  (unpackEntries dec n s).map fun (es, s) => (.map es, s)

/-- A value of a format with a tag of its own. -/
def unpackTagged (dec : Bytes → Option (Value × Bytes)) (tag : UInt8) (s : Bytes) :
    Option (Value × Bytes) :=
  if tag = 0xc0 then some (.nil, s)
  else if tag = 0xc2 then some (.bool false, s)
  else if tag = 0xc3 then some (.bool true, s)
  else if tag = 0xc4 then (takeBlob 1 s).map fun (x, s) => (.bin x, s)
  else if tag = 0xc5 then (takeBlob 2 s).map fun (x, s) => (.bin x, s)
  else if tag = 0xc6 then (takeBlob 4 s).map fun (x, s) => (.bin x, s)
  else if tag = 0xc7 then (takeNumber 1 s).bind fun (n, s) => takeExt n s
  else if tag = 0xc8 then (takeNumber 2 s).bind fun (n, s) => takeExt n s
  else if tag = 0xc9 then (takeNumber 4 s).bind fun (n, s) => takeExt n s
  else if tag = 0xca then (takeNumber 4 s).map fun (n, s) => (.float32 n, s)
  else if tag = 0xcb then (takeNumber 8 s).map fun (n, s) => (.float64 n, s)
  else if tag = 0xcc then (takeNumber 1 s).map fun (n, s) => (.int n, s)
  else if tag = 0xcd then (takeNumber 2 s).map fun (n, s) => (.int n, s)
  else if tag = 0xce then (takeNumber 4 s).map fun (n, s) => (.int n, s)
  else if tag = 0xcf then (takeNumber 8 s).map fun (n, s) => (.int n, s)
  else if tag = 0xd0 then (takeNumber 1 s).map fun (n, s) => (.int (ofTwosComplement 1 n), s)
  else if tag = 0xd1 then (takeNumber 2 s).map fun (n, s) => (.int (ofTwosComplement 2 n), s)
  else if tag = 0xd2 then (takeNumber 4 s).map fun (n, s) => (.int (ofTwosComplement 4 n), s)
  else if tag = 0xd3 then (takeNumber 8 s).map fun (n, s) => (.int (ofTwosComplement 8 n), s)
  else if tag = 0xd4 then takeExt 1 s
  else if tag = 0xd5 then takeExt 2 s
  else if tag = 0xd6 then takeExt 4 s
  else if tag = 0xd7 then takeExt 8 s
  else if tag = 0xd8 then takeExt 16 s
  else if tag = 0xd9 then (takeBlob 1 s).map fun (x, s) => (.str x, s)
  else if tag = 0xda then (takeBlob 2 s).map fun (x, s) => (.str x, s)
  else if tag = 0xdb then (takeBlob 4 s).map fun (x, s) => (.str x, s)
  else if tag = 0xdc then (takeNumber 2 s).bind fun (n, s) => unpackArray dec n s
  else if tag = 0xdd then (takeNumber 4 s).bind fun (n, s) => unpackArray dec n s
  else if tag = 0xde then (takeNumber 2 s).bind fun (n, s) => unpackMap dec n s
  else if tag = 0xdf then (takeNumber 4 s).bind fun (n, s) => unpackMap dec n s
  else none

/-- A value nested up to `depth` times. -/
def unpackUpTo : ℕ → Bytes → Option (Value × Bytes)
  | 0, _ => none
  | _ + 1, [] => none
  | depth + 1, tag :: s =>
      if tag.toNat < 0x80 then some (.int tag.toNat, s)
      else if tag.toNat < 0x90 then unpackMap (unpackUpTo depth) (tag.toNat - 0x80) s
      else if tag.toNat < 0xa0 then unpackArray (unpackUpTo depth) (tag.toNat - 0x90) s
      else if tag.toNat < 0xc0 then (takeBytes (tag.toNat - 0xa0) s).map fun (x, s) => (.str x, s)
      else if 0xe0 ≤ tag.toNat then some (.int (tag.toNat - 256), s)
      else unpackTagged (unpackUpTo depth) tag s

/-- The value at the start of `s`, with the bytes behind it. -/
def unpack (s : Bytes) : Option (Value × Bytes) := unpackUpTo s.length s

/-! ## It reads every encoding -/

theorem takeBytes_append (x rest : Bytes) : takeBytes x.length (x ++ rest) = some (x, rest) := by
  rw [takeBytes, if_pos (by simp), List.take_left, List.drop_left]

theorem takeNumber_bigEndian {w n : ℕ} (h : n < 256 ^ w) (rest : Bytes) :
    takeNumber w (bigEndian w n ++ rest) = some (n, rest) := by
  have htake := takeBytes_append (bigEndian w n) rest
  rw [length_bigEndian] at htake
  rw [takeNumber, htake]
  simp only [Option.map_some, ofBigEndian_bigEndian h]

theorem takeBlob_append {w : ℕ} {x : Bytes} (h : x.length < 256 ^ w) (rest : Bytes) :
    takeBlob w (bigEndian w x.length ++ (x ++ rest)) = some (x, rest) := by
  rw [takeBlob, takeNumber_bigEndian h]
  simp only [Option.bind_some, takeBytes_append]

theorem takeExt_append (type : UInt8) (data rest : Bytes) :
    takeExt data.length (type :: (data ++ rest)) = some (.ext type data, rest) := by
  rw [takeExt, takeBytes_append]
  rfl

/-! ## Children -/

/-- A decoder reads the encodings of `item`. -/
def Reads (dec : Bytes → Option (Value × Bytes)) (item : Item) : Prop :=
  ∀ rest, dec (item.bytes ++ rest) = some (item.value, rest)

/-- A decoder reads what is in `item`. -/
def ReadsChildren (dec : Bytes → Option (Value × Bytes)) : Item → Prop
  | .fixarray items => ∀ item ∈ items, Reads dec item
  | .array _ items => ∀ item ∈ items, Reads dec item
  | .fixmap entries => ∀ e ∈ entries, Reads dec e.1 ∧ Reads dec e.2
  | .map _ entries => ∀ e ∈ entries, Reads dec e.1 ∧ Reads dec e.2
  | _ => True

section Children

variable {dec : Bytes → Option (Value × Bytes)}

theorem unpackItems_bytes {items : List Item} (h : ∀ item ∈ items, Reads dec item)
    (rest : Bytes) :
    unpackItems dec items.length (itemsBytes items ++ rest) = some (itemValues items, rest) := by
  induction items with
  | nil => rfl
  | cons item items ih =>
    obtain ⟨hitem, hitems⟩ := List.forall_mem_cons.1 h
    rw [itemsBytes_cons, List.append_assoc, List.length_cons, unpackItems, hitem, Option.bind_some]
    simp only
    rw [ih hitems]
    rfl

theorem unpackEntries_bytes {entries : List (Item × Item)}
    (h : ∀ e ∈ entries, Reads dec e.1 ∧ Reads dec e.2) (rest : Bytes) :
    unpackEntries dec entries.length (entriesBytes entries ++ rest) =
      some (entryValues entries, rest) := by
  induction entries with
  | nil => rfl
  | cons e entries ih =>
    obtain ⟨he, hentries⟩ := List.forall_mem_cons.1 h
    rw [entriesBytes_cons_append, List.length_cons, unpackEntries,
      he.1, Option.bind_some]
    simp only
    rw [he.2, Option.bind_some]
    simp only
    rw [ih hentries]
    rfl

theorem unpackArray_bytes {items : List Item} (h : ∀ item ∈ items, Reads dec item)
    (rest : Bytes) : unpackArray dec items.length (itemsBytes items ++ rest) =
      some (.array (itemValues items), rest) := by
  rw [unpackArray, unpackItems_bytes h]
  rfl

theorem unpackMap_bytes {entries : List (Item × Item)}
    (h : ∀ e ∈ entries, Reads dec e.1 ∧ Reads dec e.2) (rest : Bytes) :
    unpackMap dec entries.length (entriesBytes entries ++ rest) =
      some (.map (entryValues entries), rest) := by
  rw [unpackMap, unpackEntries_bytes h]
  rfl

theorem length_le_entriesBytes {entries : List (Item × Item)} {e : Item × Item}
    (h : e ∈ entries) :
    e.1.bytes.length ≤ (entriesBytes entries).length ∧
      e.2.bytes.length ≤ (entriesBytes entries).length := by
  induction entries with
  | nil => cases h
  | cons e' entries ih =>
    rw [entriesBytes_cons, List.length_append, List.length_append]
    rcases List.mem_cons.1 h with rfl | h
    · omega
    · have := ih h
      omega

/-- What reads every short item reads the children of an item that is one byte longer. -/
theorem readsChildren_of_length_le {depth : ℕ}
    (h : ∀ {item : Item}, item.Valid → item.bytes.length ≤ depth → Reads dec item)
    {item : Item} (hvalid : item.Valid) (hlen : item.payload.length ≤ depth) :
    ReadsChildren dec item := by
  have hitems : ∀ {items : List Item}, ItemsValid items → (itemsBytes items).length ≤ depth →
      ∀ item ∈ items, Reads dec item := fun hitems hle item hitem =>
    h (itemsValid_iff.1 hitems item hitem) ((length_le_itemsBytes hitem).trans hle)
  have hentries : ∀ {entries : List (Item × Item)}, EntriesValid entries →
      (entriesBytes entries).length ≤ depth → ∀ e ∈ entries, Reads dec e.1 ∧ Reads dec e.2 :=
    fun hentries hle e he =>
      ⟨h (entriesValid_iff.1 hentries e he).1 ((length_le_entriesBytes he).1.trans hle),
        h (entriesValid_iff.1 hentries e he).2 ((length_le_entriesBytes he).2.trans hle)⟩
  cases item with
  | fixarray items =>
    rw [Item.Valid] at hvalid
    exact hitems hvalid.2 hlen
  | array w items =>
    rw [Item.Valid] at hvalid
    rw [Item.payload, List.length_append] at hlen
    exact hitems hvalid.2 (by omega)
  | fixmap entries =>
    rw [Item.Valid] at hvalid
    exact hentries hvalid.2 hlen
  | map w entries =>
    rw [Item.Valid] at hvalid
    rw [Item.payload, List.length_append] at hlen
    exact hentries hvalid.2 (by omega)
  | _ => trivial

end Children

/-! ## The round trip -/

theorem unpackUpTo_tagged {depth : ℕ} {tag : UInt8} (h : 0xc0 ≤ tag.toNat ∧ tag.toNat < 0xe0)
    (s : Bytes) : unpackUpTo (depth + 1) (tag :: s) = unpackTagged (unpackUpTo depth) tag s := by
  obtain ⟨hge, hlt⟩ := h
  rw [unpackUpTo, if_neg (by omega), if_neg (by omega), if_neg (by omega), if_neg (by omega),
    if_neg (by omega)]

/-- One level: what is in an item is read with the budget that is left. -/
theorem unpackUpTo_succ_bytes {item : Item} (hvalid : item.Valid) {depth : ℕ}
    (hchildren : ReadsChildren (unpackUpTo depth) item) : Reads (unpackUpTo (depth + 1)) item := by
  intro rest
  rw [Item.bytes, List.cons_append]
  have hnat : ∀ {n : ℕ}, n < 256 → (UInt8.ofNat n).toNat = n := fun h =>
    UInt8.toNat_ofNat_of_lt' h
  cases item with
  | fixint n =>
    rw [Item.Valid] at hvalid
    rw [Item.tag, unpackUpTo, hnat (by omega), if_pos (by omega)]
    rfl
  | negFixint n =>
    rw [Item.Valid] at hvalid
    rw [Item.tag, unpackUpTo, hnat (by omega), if_neg (by omega), if_neg (by omega),
      if_neg (by omega), if_neg (by omega), if_pos (by omega), Item.value]
    have hval : ((256 - n : ℕ) : ℤ) - 256 = -n := by omega
    rw [hval]
    rfl
  | fixstr x =>
    rw [Item.Valid] at hvalid
    rw [Item.tag, unpackUpTo, hnat (by omega), if_neg (by omega), if_neg (by omega),
      if_neg (by omega), if_pos (by omega), Nat.add_sub_cancel_left, Item.payload,
      takeBytes_append]
    rfl
  | fixarray items =>
    rw [Item.Valid] at hvalid
    rw [Item.tag, unpackUpTo, hnat (by omega), if_neg (by omega), if_neg (by omega),
      if_pos (by omega), Nat.add_sub_cancel_left, Item.payload, unpackArray_bytes hchildren]
    rfl
  | fixmap entries =>
    rw [Item.Valid] at hvalid
    rw [Item.tag, unpackUpTo, hnat (by omega), if_neg (by omega), if_pos (by omega),
      Nat.add_sub_cancel_left, Item.payload, unpackMap_bytes hchildren]
    rfl
  | nil => rfl
  | bool b => cases b <;> rfl
  | float32 bits =>
    rw [Item.Valid] at hvalid
    rw [Item.tag, unpackUpTo_tagged ⟨by decide, by decide⟩]
    exact congrArg (Option.map fun p => (Value.float32 p.1, p.2)) (takeNumber_bigEndian hvalid rest)
  | float64 bits =>
    rw [Item.Valid] at hvalid
    rw [Item.tag, unpackUpTo_tagged ⟨by decide, by decide⟩]
    exact congrArg (Option.map fun p => (Value.float64 p.1, p.2)) (takeNumber_bigEndian hvalid rest)
  | uint w n =>
    rw [Item.Valid] at hvalid
    rw [Item.tag, unpackUpTo_tagged (by cases w <;> decide)]
    have hread := takeNumber_bigEndian hvalid rest
    cases w
    all_goals exact congrArg (Option.map fun p => (Value.int p.1, p.2)) hread
  | int w bits =>
    rw [Item.Valid] at hvalid
    rw [Item.tag, unpackUpTo_tagged (by cases w <;> decide)]
    have hread := takeNumber_bigEndian hvalid rest
    cases w
    all_goals
      exact congrArg (Option.map fun p => (Value.int (ofTwosComplement _ p.1), p.2)) hread
  | str w x =>
    rw [Item.Valid] at hvalid
    rw [Item.tag, unpackUpTo_tagged (by cases w <;> decide)]
    have hread := takeBlob_append hvalid rest
    rw [← List.append_assoc] at hread
    cases w
    all_goals exact congrArg (Option.map fun p => (Value.str p.1, p.2)) hread
  | bin w x =>
    rw [Item.Valid] at hvalid
    rw [Item.tag, unpackUpTo_tagged (by cases w <;> decide)]
    have hread := takeBlob_append hvalid rest
    rw [← List.append_assoc] at hread
    cases w
    all_goals exact congrArg (Option.map fun p => (Value.bin p.1, p.2)) hread
  | array w items =>
    rw [Item.Valid] at hvalid
    rw [Item.tag, unpackUpTo_tagged (by cases w <;> decide), Item.payload, List.append_assoc]
    have hread := takeNumber_bigEndian hvalid.1 (itemsBytes items ++ rest)
    have hall := unpackArray_bytes hchildren rest
    cases w
    all_goals
      exact (congrArg (fun r : Option (ℕ × Bytes) => r.bind fun p =>
        unpackArray (unpackUpTo depth) p.1 p.2) hread).trans hall
  | map w entries =>
    rw [Item.Valid] at hvalid
    rw [Item.tag, unpackUpTo_tagged (by cases w <;> decide), Item.payload, List.append_assoc]
    have hread := takeNumber_bigEndian hvalid.1 (entriesBytes entries ++ rest)
    have hall := unpackMap_bytes hchildren rest
    cases w
    all_goals
      exact (congrArg (fun r : Option (ℕ × Bytes) => r.bind fun p =>
        unpackMap (unpackUpTo depth) p.1 p.2) hread).trans hall
  | fixext e type data =>
    rw [Item.Valid] at hvalid
    rw [Item.tag, unpackUpTo_tagged (by cases e <;> decide)]
    have hread := takeExt_append type data rest
    rw [hvalid] at hread
    cases e
    all_goals exact hread
  | ext w type data =>
    rw [Item.Valid] at hvalid
    rw [Item.tag, unpackUpTo_tagged (by cases w <;> decide), Item.payload, List.append_assoc]
    have hread := takeNumber_bigEndian hvalid (type :: (data ++ rest))
    have hext := takeExt_append type data rest
    cases w
    all_goals
      exact (congrArg (fun r : Option (ℕ × Bytes) => r.bind fun p =>
        takeExt p.1 p.2) hread).trans hext

/-- A budget of the length of the encoding is enough. -/
theorem unpackUpTo_bytes {depth : ℕ} {item : Item} (hvalid : item.Valid)
    (hdepth : item.bytes.length ≤ depth) : Reads (unpackUpTo depth) item := by
  induction depth generalizing item with
  | zero =>
    rw [Item.bytes, List.length_cons] at hdepth
    cases hdepth
  | succ depth ih =>
    rw [Item.bytes, List.length_cons, Nat.add_le_add_iff_right] at hdepth
    exact unpackUpTo_succ_bytes hvalid (readsChildren_of_length_le ih hvalid hdepth)

/-- **The round trip.**  Every encoding is read as the value it stands for, and the bytes behind
it are left. -/
theorem unpack_bytes {item : Item} (h : item.Valid) (rest : Bytes) :
    unpack (item.bytes ++ rest) = some (item.value, rest) :=
  unpackUpTo_bytes h (by simp) rest

end MsgPack

end Library
