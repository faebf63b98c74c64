import VoipBackend.Wire.Requests
import VoipBackend.Wire.Status

/-!
# What `tarantool_get` returns

The OpenSIPS driver reads a tuple of `rtpe_calls` field by field, each with the decoder of the
type it expects, and returns the last one, the payload.  RTPEngine keeps its calls in the same
space, with a map for a payload.  `mp_decode_str` takes anything that is not a string for an
empty one, so that such a call is read as an empty string, and successfully
(`readsExactly_iff`).
-/

namespace VoipBackend

open Library MsgPack

namespace OpenSips

open Msgpuck

/-! ## The decoder -/

/-- The value in a tuple, without its bytes: the seventh field of a call, the second one of a
shorter tuple. -/
def tupleValue (tupleLen : ℕ) (p : Bytes) : Option (Option StrRef × Bytes) :=
  if 7 ≤ tupleLen then do
    let (_, p) ← mpDecodeStr p
    let (_, p) ← mpDecodeStr p
    let (_, p) ← mpDecodeStr p
    let (_, p) ← mpDecodeUint p
    let (_, p) ← mpDecodeUint p
    let (_, p) ← mpDecodeUint p
    let (vstr, p) ← mpDecodeStr p
    return (some vstr, p)
  else if 2 ≤ tupleLen then do
    let (_, p) ← mpDecodeStr p
    let (vstr, p) ← mpDecodeStr p
    return (some vstr, p)
  else return (none, p)

/-- `val->s` after the value in a tuple: a copy, a null pointer if there is no memory for one,
and what was there if there is no value. -/
def copyValue (memory : Bool) (val : Option Bytes) : Option StrRef → Option (Option Bytes)
  | none => some val
  | some vstr => if memory then vstr.bytes.map some else some none

/-- The loop over the body map.  `pkgMalloc` says whether there is memory for a copy when so many
entries are left. -/
def getLoop (pkgMalloc : ℕ → Bool) : ℕ → Option Bytes → Bytes → Option (Option Bytes)
  | 0, val, _ => some val
  | entries + 1, val, p => do
      let (k, p) ← mpDecodeUint p
      if k = iprotoData then
        let (arrLen, p) ← mpDecodeArray p
        if 0 < arrLen then
          let (tupleLen, p) ← mpDecodeArray p
          let (vstr, p) ← tupleValue tupleLen p
          let val ← copyValue (pkgMalloc entries) val vstr
          getLoop pkgMalloc entries val p
        else getLoop pkgMalloc entries val p
      else
        let p ← mpNext p
        getLoop pkgMalloc entries val p

/-- One entry of the header, skipped. -/
def skipEntry (p : Bytes) : Option Bytes := do
  let (_, p) ← mpDecodeUint p
  mpNext p

/-- The decoding in `tarantool_get`: `val->s`. -/
def decodeGet (pkgMalloc : ℕ → Bool) (frame : Bytes) : Option (Option Bytes) := do
  let (headerMap, p) ← mpDecodeMap frame
  let p ← repeatRead skipEntry headerMap p
  let (bodyMap, p) ← mpDecodeMap p
  getLoop pkgMalloc bodyMap none p

/-- `tarantool_get`, from the frame that has arrived: what it returns and the value it leaves.  A
read beyond the end of the frame has no result. -/
def tarantoolGet (pkgMalloc : ℕ → Bool) (syncId : ℕ) (frame : Bytes) :
    Option (ℤ × Option Bytes) := do
  let rc ← checkIprotoStatus frame syncId
  if rc < 0 then return (-1, none)
  else
    let val ← decodeGet pkgMalloc frame
    return (if val.isSome then 0 else -2, val)

/-! ## The answer to a `SELECT` -/

/-- The header of a reply that succeeded: numbers under numbers, `IPROTO_OK`, and no sync id but
that of the request. -/
structure OkHeader (syncId : ℕ) where
  header : Header
  numeric : RtpEngine.Numeric header.entries
  ok : header.Ok
  synced : ∀ e ∈ header.entries, e.1.value = .int iprotoSync → e.2.value = .int syncId

/-- The answer with one tuple: these fields, numbers in the formats for unsigned ones. -/
structure Selected (syncId : ℕ) (fields : List Value) where
  head : OkHeader syncId
  items : List Item
  values : itemValues items = fields
  unsigned : ∀ item ∈ items, ∀ n : ℕ, item.value = .int n → item.number = some n
  tuple : Item
  elements : tuple.elements = some items
  data : Item
  single : data.elements = some [tuple]
  key : Item
  isData : key.number = some iprotoData
  body : Item
  pairs : body.pairs = some [(key, data)]
  valid : body.Valid

/-- The frame of the answer. -/
def Selected.frame {syncId : ℕ} {fields : List Value} (a : Selected syncId fields) : Bytes :=
  a.head.header.bytes ++ a.body.bytes

/-! ## The header -/

theorem repeatRead_skipEntry {entries : List (Item × Item)} (hvalid : EntriesValid entries)
    (hnumeric : RtpEngine.Numeric entries) (rest : Bytes) :
    repeatRead skipEntry entries.length (entriesBytes entries ++ rest) = some rest := by
  induction entries with
  | nil => rfl
  | cons e entries ih =>
    obtain ⟨key, val⟩ := e
    rw [EntriesValid] at hvalid
    obtain ⟨⟨hkey, hval⟩, hvalid⟩ := hvalid
    obtain ⟨⟨k, v, hk, hv⟩, hnumeric⟩ := List.forall_mem_cons.1 hnumeric
    have hskip : skipEntry (key.bytes ++ (val.bytes ++ (entriesBytes entries ++ rest))) =
        some (entriesBytes entries ++ rest) := by
      rw [skipEntry, mpDecodeUint_number hkey hk]
      exact mpNext_number hval hv _
    rw [entriesBytes_cons_append, List.length_cons, repeatRead, hskip, Option.bind_some]
    exact ih hvalid hnumeric

theorem readable_of_numeric {entries : List (Item × Item)} (hvalid : EntriesValid entries)
    (hnumeric : RtpEngine.Numeric entries) : ∀ e ∈ entries, Readable e := by
  intro e he
  obtain ⟨k, v, hk, hv⟩ := hnumeric e he
  have hval := (entriesValid_iff.1 hvalid e he).2
  exact ⟨k, hk, mpNext_number hval hv, fun _ => ⟨v, hv⟩⟩

theorem OkHeader.agreeing {syncId : ℕ} (h : OkHeader syncId) :
    Agreeing syncId h.header.entries := by
  obtain ⟨ok, hmem, hkey, hval⟩ := h.ok
  intro e he
  obtain ⟨k, v, hk, hv⟩ := h.numeric e he
  have hvalue := Item.value_of_number hv
  constructor
  · intro hcode
    have hsame : e = ok := List.inj_on_of_nodup_map h.header.distinct he hmem (by
      rw [hkey, Item.value_of_number hcode])
    rw [hsame] at hvalue hv ⊢
    rw [hv, Nat.cast_inj.1 (Value.int.inj (hvalue.symm.trans hval))]
  · intro hsync
    have hval := h.synced e he (Item.value_of_number hsync)
    rw [hv, Nat.cast_inj.1 (Value.int.inj (hvalue.symm.trans hval))]

/-- The status of the reply is good, and `tarantool_get` goes on to the body. -/
theorem checkIprotoStatus_ok {syncId : ℕ} (h : OkHeader syncId) (rest : Bytes) :
    checkIprotoStatus (h.header.bytes ++ rest) syncId = some 0 := by
  have hcons : h.header.bytes ++ rest ≠ [] := by simp [Header.bytes, Item.bytes]
  rw [checkIprotoStatus, if_neg hcons, mpDecodeMap_header, Option.bind_some]
  have hread := readable_of_numeric h.header.entriesValid h.numeric
  simp only
  rw [statusLoop_verdict h.header.entriesValid hread, (verdict_eq_zero_iff syncId _).2 h.agreeing]

/-- The header is skipped. -/
theorem decodeGet_ok {syncId : ℕ} (h : OkHeader syncId) (pkgMalloc : ℕ → Bool) (rest : Bytes) :
    decodeGet pkgMalloc (h.header.bytes ++ rest) =
      (mpDecodeMap rest).bind fun (bodyMap, p) => getLoop pkgMalloc bodyMap none p := by
  rw [decodeGet, mpDecodeMap_header]
  simp only [Option.bind_eq_bind, Option.bind_some]
  rw [repeatRead_skipEntry h.header.entriesValid h.numeric]
  rfl

/-! ## The tuple -/

/-- A tuple as the writers make it: three strings, three numbers and the payload. -/
def callFields (callId nodeId state : Bytes) (createdAt updatedAt expiresAt : ℕ) (payload : Value) :
    List Value :=
  [.str callId, .str nodeId, .str state, .int createdAt, .int updatedAt, .int expiresAt, payload]

theorem itemValues_eq_map (items : List Item) : itemValues items = items.map Item.value := by
  induction items with
  | nil => rfl
  | cons item items ih => rw [itemValues, ih, List.map_cons]

/-- The fields before the payload are read as they are meant. -/
theorem tupleValue_fields {items : List Item} {callId nodeId state : Bytes}
    {createdAt updatedAt expiresAt : ℕ} {payload : Value}
    (hvalues : itemValues items =
      callFields callId nodeId state createdAt updatedAt expiresAt payload)
    (hvalid : ItemsValid items)
    (hunsigned : ∀ item ∈ items, ∀ n : ℕ, item.value = .int n → item.number = some n)
    (rest : Bytes) :
    ∃ item : Item, item.value = payload ∧ item.Valid ∧
      tupleValue items.length (itemsBytes items ++ rest) =
        (mpDecodeStr (item.bytes ++ rest)).map fun (vstr, p) => (some vstr, p) := by
  simp only [itemValues_eq_map, callFields, List.map_eq_cons_iff, List.map_eq_nil_iff] at hvalues
  obtain ⟨i₁, _, rfl, h₁, i₂, _, rfl, h₂, i₃, _, rfl, h₃, i₄, _, rfl, h₄, i₅, _, rfl, h₅, i₆, _, rfl,
    h₆, i₇, _, rfl, h₇, rfl⟩ := hvalues
  simp only [ItemsValid] at hvalid
  obtain ⟨hv₁, hv₂, hv₃, hv₄, hv₅, hv₆, hv₇, -⟩ := hvalid
  refine ⟨i₇, h₇, hv₇, ?_⟩
  rw [tupleValue, if_pos (by simp)]
  simp only [itemsBytes_cons, itemsBytes_nil, List.append_assoc, List.nil_append, Option.bind_eq_bind]
  rw [mpDecodeStr_text hv₁ (Item.text_of_value h₁), Option.bind_some,
    mpDecodeStr_text hv₂ (Item.text_of_value h₂), Option.bind_some,
    mpDecodeStr_text hv₃ (Item.text_of_value h₃), Option.bind_some,
    mpDecodeUint_number hv₄ (hunsigned _ (by simp) _ h₄), Option.bind_some,
    mpDecodeUint_number hv₅ (hunsigned _ (by simp) _ h₅), Option.bind_some,
    mpDecodeUint_number hv₆ (hunsigned _ (by simp) _ h₆), Option.bind_some]
  cases mpDecodeStr (i₇.bytes ++ rest) <;> rfl

/-! ## Every payload -/

/-- The string a payload is read as. -/
def readAs (payload : Value) : Bytes :=
  match payload with
  | .str s => s
  | _ => []

theorem readAs_of_text {item : Item} {s : Bytes} (h : item.text = some s) :
    readAs item.value = s := by
  cases item <;> cases h <;> rfl

theorem readAs_of_text_eq_none {item : Item} (h : item.text = none) : readAs item.value = [] := by
  unfold readAs
  split
  · next s hvalue =>
    rw [Item.text_of_value hvalue] at h
    cases h
  · rfl

theorem copyValue_payload {item : Item} (hvalid : item.Valid) (memory : Bool) (val : Option Bytes)
    (rest : Bytes) :
    ∃ vstr p, mpDecodeStr (item.bytes ++ rest) = some (vstr, p) ∧
      copyValue memory val (some vstr) =
        some (if memory then some (readAs item.value) else none) := by
  have hcopy : ∀ vstr : StrRef, vstr.bytes = some (readAs item.value) →
      copyValue memory val (some vstr) =
        some (if memory then some (readAs item.value) else none) := by
    intro vstr hbytes
    rw [copyValue, hbytes]
    cases memory <;> rfl
  cases htext : item.text with
  | some s =>
    refine ⟨_, _, mpDecodeStr_text hvalid htext rest, hcopy _ ?_⟩
    rw [bytes_strRef, readAs_of_text htext]
  | none =>
    refine ⟨_, _, mpDecodeStr_of_text_none hvalid htext rest, hcopy _ ?_⟩
    rw [readAs_of_text_eq_none htext]
    rfl

/-- **What `tarantool_get` makes of a call**: it returns 0 and the payload, or an empty string if
the payload is none. -/
theorem tarantoolGet_selected {syncId : ℕ} {callId nodeId state : Bytes}
    {createdAt updatedAt expiresAt : ℕ} {payload : Value}
    (a : Selected syncId (callFields callId nodeId state createdAt updatedAt expiresAt payload))
    (pkgMalloc : ℕ → Bool) :
    tarantoolGet pkgMalloc syncId a.frame =
      some (if pkgMalloc 0 then (0, some (readAs payload)) else (-2, none)) := by
  have hentries := a.valid.pairs a.pairs
  rw [EntriesValid] at hentries
  obtain ⟨⟨hkey, hdata⟩, -⟩ := hentries
  have htuple := hdata.elements a.single
  rw [ItemsValid] at htuple
  have hitems := htuple.1.elements a.elements
  have hbody : getLoop pkgMalloc 1 none (a.key.bytes ++ (a.data.bytes ++ [])) =
      some (if pkgMalloc 0 then some (readAs payload) else none) := by
    obtain ⟨item, hpayload, hitem, hread⟩ := tupleValue_fields a.values hitems a.unsigned []
    obtain ⟨vstr, p, hvstr, hcopy⟩ := copyValue_payload hitem (pkgMalloc 0) none []
    rw [hvstr, Option.map_some] at hread
    rw [hpayload] at hcopy
    rw [getLoop, mpDecodeUint_number hkey a.isData]
    simp only [Option.bind_eq_bind, Option.bind_some, if_true]
    rw [mpDecodeArray_elements hdata a.single, Option.bind_some]
    simp only [List.length_singleton, Nat.lt_one_iff, if_true, itemsBytes_cons, itemsBytes_nil,
      List.append_assoc]
    rw [List.nil_append, mpDecodeArray_elements htuple.1 a.elements, Option.bind_some]
    simp only
    rw [hread, Option.bind_some]
    simp only
    rw [hcopy, Option.bind_some]
    rfl
  have hmap := mpDecodeMap_pairs a.valid a.pairs []
  rw [List.append_nil, List.append_nil, entriesBytes_cons, entriesBytes_nil] at hmap
  rw [tarantoolGet, Selected.frame, checkIprotoStatus_ok a.head]
  simp only [Option.bind_eq_bind, Option.bind_some, lt_irrefl, if_false]
  rw [decodeGet_ok, hmap, Option.bind_some]
  simp only [List.length_singleton]
  rw [hbody]
  cases pkgMalloc 0 <;> rfl

/-! ## Two writers -/

/-- The tuples the writers of the repository store, with their payloads: the `REPLACE` of
`tarantool_set`, and `rtpe_call_upsert` called by RTPEngine.  A Lua table may keep the entries of
a map in any order. -/
inductive Written : Value → List Value → Prop
  | set (attr val : Bytes) (expires now : ℤ) :
      Written (.str val) (callFields attr (ascii "opensips") (ascii "active") (toU64 now) (toU64 now)
        (toU64 (if 0 < expires then now + expires else now + 3600)) (.str val))
  | upsert (callId nodeId : Bytes) (info : RtpEngine.CallInfo) (createdAt updatedAt expiresAt : ℕ)
      (payload : List (Value × Value)) (hpayload : payload.Perm info.payloadMap) :
      Written (.map payload) (callFields callId nodeId (ascii "active") createdAt updatedAt expiresAt
        (.map payload))

/-- The tuple in a packet of `tarantool_set` is one of them. -/
theorem written_packSet (attr val : Bytes) (expires now : ℤ) (spaceId : ℕ) :
    ∃ fields, Written (.str val) fields ∧
      fieldOf iprotoTuple ((Request.set attr val expires).body spaceId now) =
        some (.array fields) := by
  refine ⟨_, .set attr val expires now, ?_⟩
  simp [fieldOf, Request.body, iprotoTuple, iprotoSpaceId, callFields, cast_toU64]

/-- `tarantool_get` returns 0 only with the payload, which is a string. -/
def ReadsExactly {syncId : ℕ} {fields : List Value} (pkgMalloc : ℕ → Bool)
    (a : Selected syncId fields) (payload : Value) : Prop :=
  ∃ rc val, tarantoolGet pkgMalloc syncId a.frame = some (rc, val) ∧
    (rc = 0 → ∃ s, payload = .str s ∧ val = some s)

theorem readsExactly_callFields {syncId : ℕ} {callId nodeId state : Bytes}
    {createdAt updatedAt expiresAt : ℕ} {payload : Value}
    (a : Selected syncId (callFields callId nodeId state createdAt updatedAt expiresAt payload))
    (pkgMalloc : ℕ → Bool) :
    ReadsExactly pkgMalloc a payload ↔ (∃ s, payload = .str s) ∨ pkgMalloc 0 = false := by
  rw [ReadsExactly, tarantoolGet_selected]
  cases pkgMalloc 0 with
  | false =>
    refine iff_of_true ⟨-2, none, rfl, ?_⟩ (Or.inr rfl)
    intro h
    cases h
  | true =>
    constructor
    · rintro ⟨rc, val, hget, hexact⟩
      obtain ⟨s, hs, -⟩ := hexact (congrArg Prod.fst (Option.some.inj hget)).symm
      exact Or.inl ⟨s, hs⟩
    · rintro (⟨s, rfl⟩ | h)
      · exact ⟨0, some s, rfl, fun _ => ⟨s, rfl, rfl⟩⟩
      · cases h

/-- **Are calls read as they were written?**  Exactly if the payload is a string, unless there is no
memory for a copy of it. -/
theorem readsExactly_iff {syncId : ℕ} {fields : List Value} {payload : Value}
    (hwritten : Written payload fields) (a : Selected syncId fields) (pkgMalloc : ℕ → Bool) :
    ReadsExactly pkgMalloc a payload ↔ (∃ s, payload = .str s) ∨ pkgMalloc 0 = false := by
  cases hwritten with
  | set attr val expires now => exact readsExactly_callFields a pkgMalloc
  | upsert callId nodeId info createdAt updatedAt expiresAt payload hpayload =>
    exact readsExactly_callFields a pkgMalloc

/-- A tuple as Tarantool sends it. -/
def callItems (callId nodeId : Bytes) (createdAt updatedAt expiresAt : ℕ) (payload : Item) :
    List Item :=
  [strItem callId, strItem nodeId, strItem (ascii "active"), uintItem createdAt, uintItem updatedAt,
    uintItem expiresAt, payload]

/-- What Tarantool sends for a `SELECT` that finds a call. -/
def selectedCall (sync : UInt64) (callId nodeId : Bytes) (createdAt updatedAt expiresAt : ℕ)
    (payload : Item) (hpayload : ∀ n : ℕ, payload.value ≠ .int n)
    (hvalid : ∀ item ∈ callItems callId nodeId createdAt updatedAt expiresAt payload, item.Valid) :
    Selected sync.toNat
      (callFields callId nodeId (ascii "active") createdAt updatedAt expiresAt payload.value) where
  head :=
    { header := RtpEngine.okHeader sync
      numeric := RtpEngine.numeric_okHeader sync
      ok := ⟨(.fixint 0, .uint .w32 0), by simp [RtpEngine.okHeader], rfl, rfl⟩
      synced := by simp [RtpEngine.okHeader, Item.value, iprotoSync] }
  items := callItems callId nodeId createdAt updatedAt expiresAt payload
  values := by simp [callItems, callFields, itemValues]
  unsigned := by
    simp [callItems, number_uintItem, hpayload]
  tuple := .fixarray (callItems callId nodeId createdAt updatedAt expiresAt payload)
  elements := rfl
  data := .array .w32 [.fixarray (callItems callId nodeId createdAt updatedAt expiresAt payload)]
  single := rfl
  key := .fixint 0x30
  isData := rfl
  body := .fixmap [(.fixint 0x30,
    .array .w32 [.fixarray (callItems callId nodeId createdAt updatedAt expiresAt payload)])]
  pairs := rfl
  valid := by
    have hitems := itemsValid_iff.2 hvalid
    simp [Item.Valid, EntriesValid, ItemsValid, hitems, CountWidth.bytes]
    simp [callItems]

theorem valid_callItems {callId nodeId : Bytes} {createdAt updatedAt expiresAt : ℕ}
    {payload : Item} (hcall : callId.length < 2 ^ 32) (hnode : nodeId.length < 2 ^ 32)
    (hcreated : createdAt < 2 ^ 64) (hupdated : updatedAt < 2 ^ 64) (hexpires : expiresAt < 2 ^ 64)
    (hpayload : payload.Valid) :
    ∀ item ∈ callItems callId nodeId createdAt updatedAt expiresAt payload, item.Valid := by
  have hstate : (strItem (ascii "active")).Valid := valid_strItem (by decide)
  simp [callItems, hstate, hpayload, valid_strItem hcall, valid_strItem hnode,
    valid_uintItem hcreated, valid_uintItem hupdated, valid_uintItem hexpires]

/-- The answer for the string `v` that OpenSIPS stored. -/
def storedString : Selected 1 (callFields (ascii "c") (ascii "opensips") (ascii "active") 1000 1000
    1060 (.str (ascii "v"))) :=
  selectedCall 1 (ascii "c") (ascii "opensips") 1000 1000 1060 (strItem (ascii "v"))
    (by simp) (valid_callItems (by decide) (by decide) (by decide) (by decide) (by decide)
      (valid_strItem (by decide)))

theorem readsExactly_storedString :
    ReadsExactly (fun _ => true) storedString (.str (ascii "v")) :=
  (readsExactly_iff (.set (ascii "c") (ascii "v") 60 1000) storedString fun _ => true).2
    (Or.inl ⟨_, rfl⟩)

/-- A call of RTPEngine without addresses. -/
def bareCall : RtpEngine.CallInfo := ⟨some (ascii "c"), none, 0, none, 0, none, 0⟩

theorem value_bareCall :
    (Item.fixmap bareCall.payloadItems).value = .map bareCall.payloadMap := by
  rw [Item.value, RtpEngine.entryValues_payloadItems, RtpEngine.payloadValues_eq (by decide)]

/-- The answer for a call that RTPEngine stored. -/
def storedCallAnswer : Selected 1 (callFields (ascii "c") (ascii "n") (ascii "active") 1000 1000 4600
    (Item.fixmap bareCall.payloadItems).value) :=
  selectedCall 1 (ascii "c") (ascii "n") 1000 1000 4600 (.fixmap bareCall.payloadItems)
    (by simp [value_bareCall]) (valid_callItems (by decide) (by decide) (by decide) (by decide)
      (by decide) (RtpEngine.valid_payloadItems bareCall))

/-- A call that RTPEngine stored is returned as an empty string, and successfully. -/
theorem not_readsExactly_upsert :
    ¬ ∀ (syncId : ℕ) (fields : List Value) (payload : Value), Written payload fields →
      ∀ (a : Selected syncId fields) (pkgMalloc : ℕ → Bool), ReadsExactly pkgMalloc a payload := by
  intro h
  have hwritten : Written (Item.fixmap bareCall.payloadItems).value
      (callFields (ascii "c") (ascii "n") (ascii "active") 1000 1000 4600
        (Item.fixmap bareCall.payloadItems).value) := by
    rw [value_bareCall]
    exact .upsert _ _ bareCall _ _ _ _ (List.Perm.refl _)
  obtain ⟨rc, val, hget, hexact⟩ := h _ _ _ hwritten storedCallAnswer fun _ => true
  rw [tarantoolGet_selected] at hget
  obtain ⟨s, hs, -⟩ := hexact (congrArg Prod.fst (Option.some.inj hget)).symm
  rw [value_bareCall] at hs
  cases hs

end OpenSips

end VoipBackend
