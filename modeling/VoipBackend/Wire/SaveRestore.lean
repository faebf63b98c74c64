import VoipBackend.Wire.Acknowledgements
import VoipBackend.Wire.Packets

/-!
# Is what was saved restored?

A call is packed for `rtpe_call_upsert`; the server stores its Call-ID, its node and its payload
map, and lists them in the answer of `rtpe_call_restore`, the keys of its maps in any
order.  `rtpe_tarantool_restore_calls` walks over that answer and hands every call to a
callback.

The decoder copies strings into buffers of fixed size and leaves a buffer as it was if a
string does not fit.  So calls come back as they were saved if and only if their strings
fit and the answer is not larger than a mebibyte (`restoredCalls_iff`); a call with a
longer Call-ID does not come back at all (`lost_call`).
-/

namespace VoipBackend

open Library MsgPack Msgpuck

namespace RtpEngine

/-! ## Calls that are saved -/

/-- A call that `rtpe_tarantool_pack_call_upsert` packs: its Call-ID is not empty, and its strings
have no zero byte. -/
structure SavedCall where
  syncId : UInt64
  nodeId : Option Bytes
  info : CallInfo
  callId : Bytes
  callId_eq : info.callId = some callId
  nonempty : callId ≠ []
  noNul : ∀ s ∈ callId :: (nodeId.toList ++ info.callerIp.toList ++ info.calleeIp.toList ++
    info.srtpSuite.toList), (0 : UInt8) ∉ s

namespace SavedCall

/-- The packet of the call. -/
def packet (s : SavedCall) : Option Bytes := packCallUpsert s.syncId.toNat s.nodeId s.info

/-- The call as it was saved, with the defaults of the packer. -/
def saved (s : SavedCall) : RestoredCall where
  callId := s.callId
  nodeId := s.nodeId.getD (ascii "rtpe-01")
  callerIp := s.info.callerIp.getD (ascii "0.0.0.0")
  callerPort := s.info.callerPort
  calleeIp := s.info.calleeIp.getD (ascii "0.0.0.0")
  calleePort := s.info.calleePort
  srtpSuite := s.info.srtpSuite.getD (ascii "NONE")

/-- Its strings fit the buffers of the decoder. -/
def Fits (s : SavedCall) : Prop :=
  s.saved.callId.length < 128 ∧ s.saved.nodeId.length < 64 ∧ s.saved.callerIp.length < 64 ∧
    s.saved.calleeIp.length < 64 ∧ s.saved.srtpSuite.length < 32

end SavedCall

/-! ## The answer of the server -/

/-- A map has its count in the first byte, and the numbers in it that are not negative are
written as such: the formats Tarantool picks for a payload. -/
def SmallMap (item : Item) : Prop :=
  ∀ entries, item.pairs = some entries →
    item = .fixmap entries ∧ ∀ e ∈ entries, ∀ n : ℕ, e.2.value = .int n → e.2.number = some n

/-- The map of a stored call, the keys of both maps in any order. -/
def IsCallMap (stored : StoredCall) (item : Item) : Prop :=
  ∃ fields payload, item.pairs = some fields ∧ payload.Perm stored.payload ∧
    (entryValues fields).Perm [(.str (ascii "call_id"), .str stored.callId),
      (.str (ascii "node_id"), .str stored.nodeId), (.str (ascii "payload"), .map payload)] ∧
    ∀ e ∈ fields, SmallMap e.2

/-- The body of the answer: `IPROTO_DATA` with one list of maps, one for each stored call. -/
def IsRestoreBody (stored : List StoredCall) (body : Item) : Prop :=
  ∃ key data list maps, body.pairs = some [(key, data)] ∧ key.number = some iprotoData ∧
    data.elements = some [list] ∧ list.elements = some maps ∧ List.Forall₂ IsCallMap stored maps

/-- A connected client and the answer it gets: the server has stored what it read in the packets
of the calls, and lists them in this order. -/
structure RestoreReply (calls : List SavedCall) where
  client : Client
  healthy : client.Healthy
  answer : Ack
  sync_eq : answer.sync = client.syncId
  stored : List StoredCall
  stored_eq : calls.map (fun s => s.packet.bind storedCall) = stored.map some
  body : Item
  valid : body.Valid
  lists : IsRestoreBody stored body
  rest_eq : answer.rest = body.bytes

/-- `rtpe_tarantool_restore_calls` to its end: the calls the callback is handed, in order, if it
does not fail. -/
def restoredCalls (config : Config) (net : Net) (nodeId : Bytes)
    (restoreCb : List RestoredCall → ℤ) (c : Client) : Option (List RestoredCall) :=
  (restoreCalls config net nodeId c).2.2.bind fun reading =>
    match reading.own with
    | .ok (_, p) => decodeCalls restoreCb p
    | .error _ => none

/-- `restored_count`, which it returns: one more with every call the callback is handed. -/
def restoredCount (config : Config) (net : Net) (nodeId : Bytes)
    (restoreCb : List RestoredCall → ℤ) (c : Client) : Option ℕ :=
  (restoredCalls config net nodeId restoreCb c).map List.length

/-- The calls are all handed to a callback that returns 0, as they were saved, and their number is
returned. -/
def RestoreReply.Restores {calls : List SavedCall} (reply : RestoreReply calls) (config : Config)
    (stray : Bytes → ℕ × Bytes) (nodeId : Bytes) : Prop :=
  let net := healthyNet [] (frame reply.answer.body) stray
  restoredCalls config net nodeId (fun _ => 0) reply.client =
      some (calls.map SavedCall.saved) ∧
    restoredCount config net nodeId (fun _ => 0) reply.client = some calls.length

/-! ## Buffers -/

/-- What a buffer of `size` bytes holds after a string is copied into it. -/
def fit (size : ℕ) (old s : Bytes) : Bytes :=
  if s.length < size then s.takeWhile (fun b => b ≠ 0) else old

theorem takeWhile_of_noNul {s : Bytes} (h : (0 : UInt8) ∉ s) :
    s.takeWhile (fun b => decide (b ≠ 0)) = s := by
  rw [List.takeWhile_eq_self_iff]
  intro b hb
  rw [decide_eq_true_eq]
  rintro rfl
  exact h hb

/-- A string comes back from its buffer if and only if it fits. -/
theorem fit_cut_eq_iff {size : ℕ} (hsize : size ≤ 2 ^ 32) {old s : Bytes} (hold : old.length < size)
    (hs : (0 : UInt8) ∉ s) : fit size old (cut s) = s ↔ s.length < size := by
  have hnul : (0 : UInt8) ∉ cut s := fun h => hs (List.mem_of_mem_take h)
  unfold fit
  constructor
  · intro h
    split_ifs at h with hlen
    · rw [takeWhile_of_noNul hnul] at h
      rwa [h] at hlen
    · rwa [h] at hold
  · intro hlen
    have hcut : cut s = s := by
      rw [cut, Nat.mod_eq_of_lt (by omega), List.take_length]
    rw [hcut, if_pos hlen, takeWhile_of_noNul hs]

theorem ofNat_portToU64 (port : Int32) : Int32.ofNat (portToU64 port) = port := by
  have hlow := port.le_toInt
  have hhigh := port.toInt_lt
  rw [← Int32.toInt_inj, Int32.toInt_ofNat', portToU64, Int.toNat_of_nonneg (by omega)]
  show Int.bmod _ (2 ^ 32) = _
  rw [Int.bmod_def]
  omega

/-! ## Reading an entry -/

theorem copyInto_eq (size : ℕ) (old x rest : Bytes) :
    copyInto size old ⟨x ++ rest, x.length⟩ = some (fit size old x) := by
  rw [copyInto, bytes_strRef, fit]
  split_ifs <;> rfl

theorem readInto_text (size : ℕ) (old : Bytes) {x : Bytes} {item : Item} (hvalid : item.Valid)
    (h : item.text = some x) (rest : Bytes) :
    readInto size old (item.bytes ++ rest) = some (fit size old x, rest) := by
  rw [readInto, mpDecodeStr_text hvalid h]
  simp [copyInto_eq]

theorem readPort_number {n : ℕ} {item : Item} (hvalid : item.Valid) (h : item.number = some n)
    (rest : Bytes) : readPort (item.bytes ++ rest) = some (Int32.ofNat n, rest) := by
  rw [readPort, mpDecodeUint_number hvalid h]
  rfl

/-- What an entry of a payload map does to a call. -/
def applyPayload (call : RestoredCall) : Value × Value → RestoredCall
  | (.str key, .str x) =>
      if key = ascii "caller_ip" then { call with callerIp := fit 64 call.callerIp x }
      else if key = ascii "callee_ip" then { call with calleeIp := fit 64 call.calleeIp x }
      else if key = ascii "srtp_suite" then { call with srtpSuite := fit 32 call.srtpSuite x }
      else call
  | (.str key, .int n) =>
      if key = ascii "caller_port" then { call with callerPort := Int32.ofNat n.toNat }
      else if key = ascii "callee_port" then { call with calleePort := Int32.ofNat n.toNat }
      else call
  | _ => call

section Apply

variable (call : RestoredCall) (x : Bytes) (n : ℕ)

theorem applyPayload_callerIp : applyPayload call (.str (ascii "caller_ip"), .str x) =
    { call with callerIp := fit 64 call.callerIp x } := rfl

theorem applyPayload_calleeIp : applyPayload call (.str (ascii "callee_ip"), .str x) =
    { call with calleeIp := fit 64 call.calleeIp x } := rfl

theorem applyPayload_srtpSuite : applyPayload call (.str (ascii "srtp_suite"), .str x) =
    { call with srtpSuite := fit 32 call.srtpSuite x } := rfl

theorem applyPayload_callerPort : applyPayload call (.str (ascii "caller_port"), .int n) =
    { call with callerPort := Int32.ofNat n } := rfl

theorem applyPayload_calleePort : applyPayload call (.str (ascii "callee_port"), .int n) =
    { call with calleePort := Int32.ofNat n } := rfl

end Apply

/-- A key that is found in a map. -/
theorem mpDecodeStr_key {item : Item} {key : Bytes} (hvalid : item.Valid)
    (h : item.value = .str key) (rest : Bytes) :
    mpDecodeStr (item.bytes ++ rest) = some (⟨key ++ rest, key.length⟩, rest) :=
  mpDecodeStr_text hvalid (Item.text_of_value h) rest

theorem payloadEntry_bytes (info : CallInfo) {e : Item × Item} (hkey : e.1.Valid)
    (hval : e.2.Valid) (hnumber : ∀ n : ℕ, e.2.value = .int n → e.2.number = some n)
    (h : (e.1.value, e.2.value) ∈ info.payloadValues) (call : RestoredCall) (rest : Bytes) :
    payloadEntry call (e.1.bytes ++ (e.2.bytes ++ rest)) =
      some (applyPayload call (e.1.value, e.2.value), rest) := by
  simp only [CallInfo.payloadValues, List.mem_cons, List.not_mem_nil, or_false,
    Prod.mk.injEq] at h
  unfold payloadEntry
  rcases h with ⟨hk, hv⟩ | ⟨hk, hv⟩ | ⟨hk, hv⟩ | ⟨hk, hv⟩ | ⟨hk, hv⟩
  · rw [hk, hv, mpDecodeStr_key hkey hk]
    simp only [Option.bind_eq_bind, Option.bind_some]
    rw [strncmpEq_prefixMatch, readInto_text 64 call.callerIp hval (Item.text_of_value hv)]
    rfl
  · rw [hk, hv, mpDecodeStr_key hkey hk]
    simp only [Option.bind_eq_bind, Option.bind_some]
    rw [strncmpEq_prefixMatch, strncmpEq_prefixMatch, strncmpEq_prefixMatch,
      readPort_number hval (hnumber _ hv)]
    rfl
  · rw [hk, hv, mpDecodeStr_key hkey hk]
    simp only [Option.bind_eq_bind, Option.bind_some]
    rw [strncmpEq_prefixMatch, strncmpEq_prefixMatch,
      readInto_text 64 call.calleeIp hval (Item.text_of_value hv)]
    rfl
  · rw [hk, hv, mpDecodeStr_key hkey hk]
    simp only [Option.bind_eq_bind, Option.bind_some]
    rw [strncmpEq_prefixMatch, strncmpEq_prefixMatch, strncmpEq_prefixMatch,
      strncmpEq_prefixMatch, readPort_number hval (hnumber _ hv)]
    rfl
  · rw [hk, hv, mpDecodeStr_key hkey hk]
    simp only [Option.bind_eq_bind, Option.bind_some]
    rw [strncmpEq_prefixMatch, strncmpEq_prefixMatch, strncmpEq_prefixMatch,
      strncmpEq_prefixMatch, strncmpEq_prefixMatch,
      readInto_text 32 call.srtpSuite hval (Item.text_of_value hv)]
    rfl

/-- A loop over entries that are read one by one. -/
theorem entriesLoop_items {entry : RestoredCall → Bytes → Option (RestoredCall × Bytes)}
    (take : RestoredCall → Item × Item → RestoredCall) {entries : List (Item × Item)}
    (h : ∀ e ∈ entries, ∀ call rest, entry call (e.1.bytes ++ (e.2.bytes ++ rest)) =
      some (take call e, rest)) (call : RestoredCall) (rest : Bytes) :
    entriesLoop entry entries.length call (entriesBytes entries ++ rest) =
      some (entries.foldl take call, rest) := by
  induction entries generalizing call with
  | nil => rfl
  | cons e entries ih =>
    obtain ⟨he, hentries⟩ := List.forall_mem_cons.1 h
    rw [entriesBytes_cons_append, List.length_cons, entriesLoop, he,
      Option.bind_some]
    simp only
    rw [ih hentries, List.foldl_cons]

/-- A loop over entries that each do what their values say. -/
theorem entriesLoop_bytes {entry : RestoredCall → Bytes → Option (RestoredCall × Bytes)}
    (apply : RestoredCall → Value × Value → RestoredCall) {entries : List (Item × Item)}
    (h : ∀ e ∈ entries, ∀ call rest, entry call (e.1.bytes ++ (e.2.bytes ++ rest)) =
      some (apply call (e.1.value, e.2.value), rest)) (call : RestoredCall) (rest : Bytes) :
    entriesLoop entry entries.length call (entriesBytes entries ++ rest) =
      some ((entryValues entries).foldl apply call, rest) := by
  rw [entriesLoop_items _ h, entryValues_eq_map, List.foldl_map]

/-- What the payload of a call does to a call, in any order. -/
def CallInfo.applyAll (info : CallInfo) (call : RestoredCall) : RestoredCall :=
  { call with
    callerIp := fit 64 call.callerIp (cut (info.callerIp.getD (ascii "0.0.0.0")))
    callerPort := info.callerPort
    calleeIp := fit 64 call.calleeIp (cut (info.calleeIp.getD (ascii "0.0.0.0")))
    calleePort := info.calleePort
    srtpSuite := fit 32 call.srtpSuite (cut (info.srtpSuite.getD (ascii "NONE"))) }

theorem foldl_applyPayload {info : CallInfo} {payload : List (Value × Value)}
    (h : payload.Perm info.payloadValues) (call : RestoredCall) :
    payload.foldl applyPayload call = info.applyAll call := by
  have hcomm : ∀ v ∈ info.payloadValues, ∀ w ∈ info.payloadValues, ∀ call,
      applyPayload (applyPayload call v) w = applyPayload (applyPayload call w) v := by
    intro v hv w hw call
    simp only [CallInfo.payloadValues, List.mem_cons, List.not_mem_nil, or_false] at hv hw
    rcases hv with rfl | rfl | rfl | rfl | rfl <;>
      rcases hw with rfl | rfl | rfl | rfl | rfl <;>
      simp only [applyPayload_callerIp, applyPayload_calleeIp, applyPayload_srtpSuite,
        applyPayload_callerPort, applyPayload_calleePort]
  rw [h.foldl_eq' (fun v hv w hw call => hcomm v (h.subset hv) w (h.subset hw) call)]
  simp only [CallInfo.payloadValues, List.foldl_cons, List.foldl_nil, applyPayload_callerIp,
    applyPayload_calleeIp, applyPayload_srtpSuite, applyPayload_callerPort,
    applyPayload_calleePort, ofNat_portToU64]
  rfl

/-! ## Reading a call -/

/-- What the server stores of a call. -/
def SavedCall.stored (s : SavedCall) : StoredCall :=
  ⟨cut s.callId, cut (s.nodeId.getD (ascii "rtpe-01")), s.info.payloadValues⟩

/-- What the entries of the map of a call do to a call. -/
def applyField (info : CallInfo) (call : RestoredCall) : Value × Value → RestoredCall
  | (.str key, .str x) =>
      if key = ascii "call_id" then { call with callId := fit 128 call.callId x }
      else if key = ascii "node_id" then { call with nodeId := fit 64 call.nodeId x }
      else call
  | (.str key, .map _) => if key = ascii "payload" then info.applyAll call else call
  | _ => call

theorem applyField_callId (info : CallInfo) (call : RestoredCall) (x : Bytes) :
    applyField info call (.str (ascii "call_id"), .str x) =
      { call with callId := fit 128 call.callId x } := rfl

theorem applyField_nodeId (info : CallInfo) (call : RestoredCall) (x : Bytes) :
    applyField info call (.str (ascii "node_id"), .str x) =
      { call with nodeId := fit 64 call.nodeId x } := rfl

theorem applyField_payload (info : CallInfo) (call : RestoredCall)
    (payload : List (Value × Value)) :
    applyField info call (.str (ascii "payload"), .map payload) = info.applyAll call := rfl

/-- The fields of the map of a call. -/
def callFields (stored : StoredCall) (payload : List (Value × Value)) : List (Value × Value) :=
  [(.str (ascii "call_id"), .str stored.callId), (.str (ascii "node_id"), .str stored.nodeId),
    (.str (ascii "payload"), .map payload)]

/-- A payload map is read. -/
theorem entriesLoop_payload {info : CallInfo} {item : Item} (hvalid : item.Valid)
    (hsmall : SmallMap item) {payload : List (Value × Value)}
    (hpayload : payload.Perm info.payloadValues) (h : item.value = .map payload)
    (call : RestoredCall) (rest : Bytes) :
    peek (item.bytes ++ rest) = some item.tag ∧ item.tag &&& 0xf0 = 0x80 ∧
      ∃ size p, mpDecodeMap (item.bytes ++ rest) = some (size, p) ∧
        entriesLoop payloadEntry size call p = some (info.applyAll call, rest) := by
  obtain ⟨entries, hpairs, hvalues⟩ := Item.pairs_of_value h
  obtain ⟨hfixmap, hnumbers⟩ := hsmall entries hpairs
  have hentries := entriesValid_iff.1 (hvalid.pairs hpairs)
  refine ⟨rfl, ?_, _, _, mpDecodeMap_pairs hvalid hpairs rest, ?_⟩
  · rw [hfixmap, Item.Valid] at hvalid
    rw [hfixmap, Item.tag, fixmap_tag hvalid.1]
    exact (count_byte (by decide) (Nat.le_of_lt_succ hvalid.1)).1
  · rw [entriesLoop_bytes applyPayload, hvalues, foldl_applyPayload hpayload]
    intro e he call rest
    refine payloadEntry_bytes info (hentries e he).1 (hentries e he).2 (hnumbers e he) ?_ call rest
    apply hpayload.subset
    rw [← hvalues, entryValues_eq_map]
    exact List.mem_map_of_mem he

theorem callEntry_bytes (stored : StoredCall) {info : CallInfo} {payload : List (Value × Value)}
    (hpayload : payload.Perm info.payloadValues) {e : Item × Item} (hkey : e.1.Valid)
    (hval : e.2.Valid) (hsmall : SmallMap e.2)
    (h : (e.1.value, e.2.value) ∈ callFields stored payload) (call : RestoredCall) (rest : Bytes) :
    callEntry call (e.1.bytes ++ (e.2.bytes ++ rest)) =
      some (applyField info call (e.1.value, e.2.value), rest) := by
  simp only [callFields, List.mem_cons, List.not_mem_nil, or_false, Prod.mk.injEq] at h
  unfold callEntry
  rcases h with ⟨hk, hv⟩ | ⟨hk, hv⟩ | ⟨hk, hv⟩
  · rw [hk, hv, mpDecodeStr_key hkey hk]
    simp only [Option.bind_eq_bind, Option.bind_some]
    rw [strncmpEq_prefixMatch, readInto_text 128 call.callId hval (Item.text_of_value hv)]
    rfl
  · rw [hk, hv, mpDecodeStr_key hkey hk]
    simp only [Option.bind_eq_bind, Option.bind_some]
    rw [strncmpEq_prefixMatch, strncmpEq_prefixMatch,
      readInto_text 64 call.nodeId hval (Item.text_of_value hv)]
    rfl
  · obtain ⟨hpeek, hmark, size, p, hmap, hloop⟩ :=
      entriesLoop_payload hval hsmall hpayload hv call rest
    rw [hk, hv, mpDecodeStr_key hkey hk]
    simp only [Option.bind_eq_bind, Option.bind_some]
    rw [strncmpEq_prefixMatch, strncmpEq_prefixMatch, strncmpEq_prefixMatch,
      hpeek, applyField_payload]
    have hstarts : prefixMatch (ascii "payload") (ascii "call_id") = false ∧
        prefixMatch (ascii "payload") (ascii "node_id") = false ∧
        prefixMatch (ascii "payload") (ascii "payload") = true := by decide
    simp only [hstarts.1, hstarts.2.1, hstarts.2.2, hmark, hmap, hloop, Option.bind_some,
      Option.map_some, Bool.false_eq_true, if_false, if_true, decide_true]

/-- The call the decoder finds in the map of a saved call. -/
def SavedCall.restored (s : SavedCall) : RestoredCall :=
  s.info.applyAll { RestoredCall.blank with
    callId := fit 128 [] s.stored.callId
    nodeId := fit 64 [] s.stored.nodeId }

theorem foldl_applyField {s : SavedCall} {payload fields : List (Value × Value)}
    (h : fields.Perm (callFields s.stored payload)) :
    fields.foldl (applyField s.info) .blank = s.restored := by
  have hcomm : ∀ v ∈ callFields s.stored payload, ∀ w ∈ callFields s.stored payload, ∀ call,
      applyField s.info (applyField s.info call v) w =
        applyField s.info (applyField s.info call w) v := by
    intro v hv w hw call
    simp only [callFields, List.mem_cons, List.not_mem_nil, or_false] at hv hw
    rcases hv with rfl | rfl | rfl <;> rcases hw with rfl | rfl | rfl <;>
      simp only [applyField_callId, applyField_nodeId, applyField_payload, CallInfo.applyAll]
  rw [h.foldl_eq' (fun v hv w hw call => hcomm v (h.subset hv) w (h.subset hw) call)]
  rfl

theorem isMapTag_tag {item : Item} {entries : List (Item × Item)} (hvalid : item.Valid)
    (h : item.pairs = some entries) : isMapTag item.tag = true := by
  cases item with
  | fixmap entries' =>
    cases h
    rw [Item.Valid] at hvalid
    rw [Item.tag, fixmap_tag hvalid.1]
    exact decide_eq_true (Or.inl (count_byte (by decide) (Nat.le_of_lt_succ hvalid.1)).1)
  | map w entries' =>
    have hall : ∀ w : CountWidth, isMapTag w.mapTag = true := by
      intro w
      cases w <;> decide
    exact hall w
  | _ => cases h

theorem isArrayTag_tag {item : Item} {items : List Item} (hvalid : item.Valid)
    (h : item.elements = some items) : isArrayTag item.tag = true := by
  cases item with
  | fixarray items' =>
    cases h
    rw [Item.Valid] at hvalid
    rw [Item.tag, fixarray_tag hvalid.1]
    exact decide_eq_true (Or.inl (count_byte (by decide) (Nat.le_of_lt_succ hvalid.1)).1)
  | array w items' =>
    have hall : ∀ w : CountWidth, isArrayTag w.arrayTag = true := by
      intro w
      cases w <;> decide
    exact hall w
  | _ => cases h

theorem callItem_bytes {s : SavedCall} {item : Item} (hvalid : item.Valid)
    (h : IsCallMap s.stored item) (rest : Bytes) :
    callItem (item.bytes ++ rest) = some (s.restored, rest) := by
  obtain ⟨fields, payload, hpairs, hpayload, hfields, hsmall⟩ := h
  have hentries := entriesValid_iff.1 (hvalid.pairs hpairs)
  have hpeek : peek (item.bytes ++ rest) = some item.tag := rfl
  rw [callItem, hpeek]
  simp only [Option.bind_eq_bind, Option.bind_some, isMapTag_tag hvalid hpairs, if_true]
  rw [mpDecodeMap_pairs hvalid hpairs, Option.bind_some]
  simp only
  rw [entriesLoop_bytes (applyField s.info), foldl_applyField hfields]
  intro e he call rest
  have hmem : (e.1.value, e.2.value) ∈ callFields s.stored payload := by
    apply hfields.subset
    rw [entryValues_eq_map]
    exact List.mem_map_of_mem he
  exact callEntry_bytes s.stored hpayload (hentries e he).1 (hentries e he).2 (hsmall e he) hmem
    call rest

/-! ## Reading the answer -/

/-- The calls the callback is handed: those that have a Call-ID. -/
def handed (calls : List SavedCall) : List RestoredCall :=
  (calls.map SavedCall.restored).filter fun call => call.callId ≠ []

theorem callsLoop_bytes {calls : List SavedCall} {maps : List Item} (hvalid : ItemsValid maps)
    (h : List.Forall₂ (fun s item => IsCallMap (SavedCall.stored s) item) calls maps)
    (before : List RestoredCall) (rest : Bytes) :
    callsLoop (fun _ => 0) maps.length before (itemsBytes maps ++ rest) =
      some (before ++ handed calls, rest) := by
  induction h generalizing before with
  | nil => simp [callsLoop, handed, itemsBytes_nil]
  | @cons s item calls maps hitem htail ih =>
    rw [ItemsValid] at hvalid
    rw [itemsBytes_cons, List.append_assoc, List.length_cons, callsLoop,
      callItem_bytes hvalid.1 hitem]
    simp only [Option.bind_eq_bind, Option.bind_some]
    by_cases hempty : s.restored.callId = []
    · rw [if_pos hempty, ih hvalid.2]
      simp [handed, hempty]
    · rw [if_neg hempty, if_neg (by simp), ih hvalid.2]
      simp [handed, hempty]

/-- An answer with one list: the loop over its elements makes the result. -/
theorem decodeCalls_list {restoreCb : List RestoredCall → ℤ} {body key data list : Item}
    {items : List Item} (hvalid : body.Valid) (hbody : body.pairs = some [(key, data)])
    (hkey : key.number = some iprotoData) (hdata : data.elements = some [list])
    (hlist : list.elements = some items) {found : List RestoredCall × Bytes}
    (hcalls : callsLoop restoreCb items.length [] (itemsBytes items) = some found) :
    decodeCalls restoreCb body.bytes = some found.1 := by
  have hentries := entriesValid_iff.1 (hvalid.pairs hbody)
  obtain ⟨hkeyValid, hdataValid⟩ := hentries (key, data) (by simp)
  have hlistValid : list.Valid := itemsValid_iff.1 (hdataValid.elements hdata) list (by simp)
  have hpeek : peek list.bytes = some list.tag := rfl
  have hmap := mpDecodeMap_pairs hvalid hbody []
  rw [List.append_nil] at hmap
  rw [decodeCalls, hmap]
  simp only [Option.bind_eq_bind, Option.bind_some, List.length_cons, List.length_nil, bodyLoop,
    entriesBytes_cons, entriesBytes_nil, List.append_nil, mpDecodeUint_number hkeyValid hkey,
    if_true]
  have harray := mpDecodeArray_elements hdataValid hdata []
  rw [List.append_nil] at harray
  rw [harray]
  have hread := mpDecodeArray_elements hlistValid hlist []
  rw [List.append_nil] at hread
  simp only [Option.bind_some, List.length_cons, List.length_nil, dataLoop, Option.bind_eq_bind,
    itemsBytes_cons, itemsBytes_nil, List.append_nil, hpeek, isArrayTag_tag hlistValid hlist,
    if_true, hread, hcalls]
  rfl

/-- **The decoder on the answer.** -/
theorem decodeCalls_bytes {calls : List SavedCall} {body : Item} (hvalid : body.Valid)
    (h : IsRestoreBody (calls.map SavedCall.stored) body) :
    decodeCalls (fun _ => 0) body.bytes = some (handed calls) := by
  obtain ⟨key, data, list, maps, hbody, hkey, hdata, hlist, hmaps⟩ := h
  have hdataValid := (entriesValid_iff.1 (hvalid.pairs hbody) (key, data) (by simp)).2
  have hlistValid : list.Valid := itemsValid_iff.1 (hdataValid.elements hdata) list (by simp)
  rw [List.forall₂_map_left_iff] at hmaps
  have hcalls := callsLoop_bytes (hlistValid.elements hlist) hmaps [] []
  rw [List.append_nil] at hcalls
  exact decodeCalls_list hvalid hbody hkey hdata hlist hcalls

/-! ## What is restored -/

theorem RestoreReply.stored_eq_map {calls : List SavedCall} (reply : RestoreReply calls) :
    reply.stored = calls.map SavedCall.stored := by
  have hpacket : ∀ s : SavedCall, s.packet.bind storedCall = some s.stored := fun s =>
    storedCall_packCallUpsert s.syncId.toNat_lt s.nodeId s.callId_eq
  have hstored := reply.stored_eq
  have hmap : calls.map (fun s => s.packet.bind storedCall) =
      (calls.map SavedCall.stored).map some := by
    rw [List.map_map]
    exact List.map_congr_left fun s _ => hpacket s
  rw [hmap, List.map_inj_right fun _ _ => Option.some.inj] at hstored
  exact hstored.symm

/-- A frame that is larger than a mebibyte is refused. -/
theorem readFrame_of_lt {body : Bytes} (hshort : body.length < 2 ^ 32)
    (h : 1048576 < body.length) : readFrame true (frame body) = .error .receiveFailed := by
  have hheader := recvAll_header body []
  rw [List.append_nil, List.append_nil] at hheader
  have hlen := ofBigEndian_header hshort
  rw [readFrame, hheader]
  simp only [List.head?_cons, ne_eq, not_true_eq_false, if_false, hlen]
  rw [if_pos (Or.inr h)]

/-- **What the callback is handed.**  An answer that is too large is not read. -/
theorem RestoreReply.restoredCalls_eq {calls : List SavedCall} (reply : RestoreReply calls)
    (config : Config) (stray : Bytes → ℕ × Bytes) (nodeId : Bytes) :
    restoredCalls config (healthyNet [] (frame reply.answer.body) stray) nodeId (fun _ => 0)
        reply.client =
      if reply.answer.body.length ≤ 1048576 then some (handed calls) else none := by
  have hseen : seen stray reply.answer.body = (reply.client.syncId.toNat, reply.answer.rest) := by
    rw [seen_ack, reply.sync_eq]
  rw [restoredCalls, Session.restoreCalls_reading reply.healthy, Option.bind_some]
  split_ifs with hlen
  · have hloop := @readLoop_frames _ stray [] (by simp) _ ((readable_ack_iff _).2 hlen)
      (congrArg Prod.fst hseen) _ (Nat.succ_pos (frame reply.answer.body).length) []
    rw [frames_nil, List.nil_append, List.append_nil, hseen] at hloop
    have hlists := reply.lists
    rw [reply.stored_eq_map] at hlists
    rw [hloop, reply.rest_eq]
    exact decodeCalls_bytes reply.valid hlists
  · have hread : readFrame true (frame reply.answer.body) = .error .receiveFailed :=
      readFrame_of_lt reply.answer.short (not_le.1 hlen)
    rw [readLoop]
    simp only [List.headD_nil, hread]

theorem noNul_getD {o : Option Bytes} (h : ∀ s ∈ o.toList, (0 : UInt8) ∉ s) {default : Bytes}
    (hdefault : (0 : UInt8) ∉ default) : (0 : UInt8) ∉ o.getD default := by
  cases o with
  | none => exact hdefault
  | some s => exact h s (by simp)

/-- A call comes back as it was saved if and only if its strings fit. -/
theorem SavedCall.restored_eq_saved_iff (s : SavedCall) : s.restored = s.saved ↔ s.Fits := by
  have hnul := s.noNul
  simp only [List.mem_cons, List.mem_append, or_imp, forall_and, forall_eq] at hnul
  obtain ⟨hcallId, ⟨⟨hnodeId, hcallerIp⟩, hcalleeIp⟩, hsrtpSuite⟩ := hnul
  have hfits : s.Fits ↔ fit 128 [] (cut s.saved.callId) = s.saved.callId ∧
      fit 64 [] (cut s.saved.nodeId) = s.saved.nodeId ∧
      fit 64 (ascii "0.0.0.0") (cut s.saved.callerIp) = s.saved.callerIp ∧
      fit 64 (ascii "0.0.0.0") (cut s.saved.calleeIp) = s.saved.calleeIp ∧
      fit 32 (ascii "NONE") (cut s.saved.srtpSuite) = s.saved.srtpSuite := by
    have hiff := fun size hsize old hold x hx => (@fit_cut_eq_iff size hsize old x hold hx).symm
    refine and_congr (hiff 128 (by norm_num) [] (by decide) _ hcallId) (and_congr ?_ (and_congr ?_
      (and_congr ?_ ?_)))
    · exact hiff 64 (by norm_num) [] (by decide) _ (noNul_getD hnodeId (by decide))
    · exact hiff 64 (by norm_num) _ (by decide) _ (noNul_getD hcallerIp (by decide))
    · exact hiff 64 (by norm_num) _ (by decide) _ (noNul_getD hcalleeIp (by decide))
    · exact hiff 32 (by norm_num) _ (by decide) _ (noNul_getD hsrtpSuite (by decide))
  rw [hfits]
  simp [SavedCall.restored, SavedCall.saved, CallInfo.applyAll, SavedCall.stored,
    RestoredCall.blank]

/-- All calls are handed over as they were saved if and only if their strings fit. -/
theorem handed_eq_iff (calls : List SavedCall) :
    handed calls = calls.map SavedCall.saved ↔ ∀ s ∈ calls, s.Fits := by
  have hall : (∀ s ∈ calls, s.Fits) ↔
      calls.map SavedCall.restored = calls.map SavedCall.saved := by
    simp only [List.map_inj_left, SavedCall.restored_eq_saved_iff]
  rw [hall]
  constructor
  · intro h
    have hfilter : handed calls = calls.map SavedCall.restored := by
      apply List.filter_sublist.eq_of_length
      rw [← handed, h, List.length_map, List.length_map]
    rw [← hfilter, h]
  · intro h
    rw [handed, h, List.filter_eq_self]
    intro call hcall
    obtain ⟨s, -, rfl⟩ := List.mem_map.1 hcall
    exact decide_eq_true s.nonempty

/-- **When what was saved is restored**: if and only if the answer is not too large and all
strings fit. -/
theorem restoredCalls_iff {calls : List SavedCall} (reply : RestoreReply calls) (config : Config)
    (stray : Bytes → ℕ × Bytes) (nodeId : Bytes) :
    reply.Restores config stray nodeId ↔
      reply.answer.body.length ≤ 1048576 ∧ ∀ s ∈ calls, s.Fits := by
  have hcount : ∀ net, restoredCalls config net nodeId (fun _ => 0) reply.client =
      some (calls.map SavedCall.saved) →
      restoredCount config net nodeId (fun _ => 0) reply.client = some calls.length := by
    intro net h
    rw [restoredCount, h, Option.map_some, List.length_map]
  rw [RestoreReply.Restores, and_iff_left_of_imp (hcount _),
    reply.restoredCalls_eq config stray nodeId]
  by_cases hlen : reply.answer.body.length ≤ 1048576
  · rw [if_pos hlen, Option.some_inj, handed_eq_iff]
    exact (and_iff_right hlen).symm
  · rw [if_neg hlen]
    exact ⟨fun h => (nomatch h), fun h => absurd h.1 hlen⟩

/-! ## A long Call-ID -/

/-- The map of a call as Tarantool writes it. -/
def callMapItem (s : SavedCall) : Item :=
  .fixmap [(strItem (ascii "call_id"), strItem s.stored.callId),
    (strItem (ascii "node_id"), strItem s.stored.nodeId),
    (strItem (ascii "payload"), .fixmap s.info.payloadItems)]

/-- The body of the answer for one call. -/
def restoreBodyItem (s : SavedCall) : Item :=
  .fixmap [(uintItem iprotoData, .fixarray [.fixarray [callMapItem s]])]

theorem pairs_strItem (s : Bytes) : (strItem s).pairs = none := by
  unfold strItem
  split_ifs <;> rfl

theorem isCallMap_callMapItem (s : SavedCall) : IsCallMap s.stored (callMapItem s) := by
  have hstr : ∀ x, SmallMap (strItem x) := by
    intro x entries h
    rw [pairs_strItem] at h
    cases h
  have hpayload : SmallMap (.fixmap s.info.payloadItems) := by
    intro entries h
    cases h
    refine ⟨rfl, fun e he n hn => ?_⟩
    simp only [CallInfo.payloadItems, List.mem_cons, List.not_mem_nil, or_false] at he
    rcases he with rfl | rfl | rfl | rfl | rfl <;>
      simp [number_uintItem] at hn ⊢
    all_goals omega
  refine ⟨_, s.info.payloadValues, rfl, List.Perm.refl _, ?_, ?_⟩
  · simp [entryValues, Item.value, entryValues_payloadItems]
  · simp [hstr, hpayload]

theorem valid_restoreBodyItem (s : SavedCall) : (restoreBodyItem s).Valid := by
  have hstr : ∀ x, (strItem (cut x)).Valid := fun x => valid_strItem (length_cut_lt x)
  have hkey : ∀ x : Bytes, x.length < 2 ^ 32 → (strItem x).Valid := fun _ => valid_strItem
  have hmap : (callMapItem s).Valid := by
    rw [callMapItem, Item.Valid]
    refine ⟨by simp, entriesValid_iff.2 ?_⟩
    simp [hkey, valid_payloadItems, SavedCall.stored, hstr, ascii]
  rw [restoreBodyItem, Item.Valid]
  refine ⟨by simp, entriesValid_iff.2 ?_⟩
  simp [Item.Valid, ItemsValid, hmap, valid_uintItem, iprotoData]

/-- The answer to a client that is connected, for one call that is stored. -/
def restoreReply (s : SavedCall)
    (short : ((okHeader 1).bytes ++ (restoreBodyItem s).bytes).length < 2 ^ 32) :
    RestoreReply [s] where
  client := connectedClient
  healthy := ⟨by decide, rfl⟩
  answer := okAnswer 1 (restoreBodyItem s).bytes short
  sync_eq := rfl
  stored := [s.stored]
  stored_eq := by
    rw [List.map_singleton, List.map_singleton, SavedCall.packet,
      storedCall_packCallUpsert s.syncId.toNat_lt s.nodeId s.callId_eq]
    rfl
  body := restoreBodyItem s
  valid := valid_restoreBodyItem s
  lists := ⟨_, _, _, _, rfl, number_uintItem iprotoData, rfl, rfl,
    List.Forall₂.cons (isCallMap_callMapItem s) List.Forall₂.nil⟩
  rest_eq := rfl

/-- A call with a Call-ID of 128 bytes. -/
def longCall : SavedCall where
  syncId := 1
  nodeId := none
  info := ⟨some (List.replicate 128 0x61), none, 0, none, 0, none, 0⟩
  callId := List.replicate 128 0x61
  callId_eq := rfl
  nonempty := by decide
  noNul := by decide

/-- **A call that is lost**: the buffer for its Call-ID is too small, and the callback is not
called. -/
theorem lost_call : ¬ ∀ (calls : List SavedCall), (calls.map SavedCall.callId).Nodup →
    ∀ (reply : RestoreReply calls) (config : Config) (stray : Bytes → ℕ × Bytes) (nodeId : Bytes),
      reply.Restores config stray nodeId := by
  intro h
  obtain ⟨-, hcount⟩ := h [longCall] (by simp) (restoreReply longCall (by decide +kernel))
    sampleConfig (fun p => (0, p)) (ascii "n")
  revert hcount
  decide +kernel

end RtpEngine

end VoipBackend
