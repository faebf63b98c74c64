import VoipBackend.Lib.Unpack
import VoipBackend.Wire.CallInfo
import VoipBackend.Wire.Codec

/-!
# What the packets say

A server reads a packet by the specification of MessagePack: behind the length there are two
values, a header and a body.  This file reads what the encoders of `msgpuck.h` write as
encodings of the specification (`uintItem`, `strItem`), and with them the packet of
`rtpe_tarantool_pack_call_upsert` (`storedCall_packCallUpsert`).
-/

namespace VoipBackend

open Library MsgPack

namespace Msgpuck

/-! ## What the encoders write -/

/-- The format `mp_encode_uint` picks. -/
def uintItem (num : ℕ) : Item :=
  if num ≤ 0x7f then .fixint num
  else if num ≤ 0xff then .uint .w8 num
  else if num ≤ 0xffff then .uint .w16 num
  else if num ≤ 0xffffffff then .uint .w32 num
  else .uint .w64 num

/-- The format `mp_encode_str` picks. -/
def strItem (str : Bytes) : Item :=
  if str.length ≤ 31 then .fixstr str
  else if str.length ≤ 0xff then .str .w8 str
  else if str.length ≤ 0xffff then .str .w16 str
  else .str .w32 str

theorem bytes_uintItem (num : ℕ) : (uintItem num).bytes = mpEncodeUint num := by
  unfold uintItem mpEncodeUint
  split_ifs <;> rfl

@[simp] theorem value_uintItem (num : ℕ) : (uintItem num).value = .int num := by
  unfold uintItem
  split_ifs <;> rfl

theorem number_uintItem (num : ℕ) : (uintItem num).number = some num := by
  unfold uintItem
  split_ifs <;> rfl

theorem valid_uintItem {num : ℕ} (h : num < 2 ^ 64) : (uintItem num).Valid := by
  unfold uintItem
  split_ifs <;> simp only [Item.Valid, NumWidth.bytes] <;> omega

theorem bytes_strItem (str : Bytes) : (strItem str).bytes = mpEncodeStr str := by
  unfold strItem mpEncodeStr
  split_ifs with h
  · show UInt8.ofNat (0xa0 + str.length) :: str = _
    rw [fixstr_tag (by omega)]
    rfl
  all_goals rfl

@[simp] theorem value_strItem (str : Bytes) : (strItem str).value = .str str := by
  unfold strItem
  split_ifs <;> rfl

theorem valid_strItem {str : Bytes} (h : str.length < 2 ^ 32) : (strItem str).Valid := by
  unfold strItem
  split_ifs <;> simp only [Item.Valid, LenWidth.bytes] <;> omega

theorem bytes_fixarray {items : List Item} (h : items.length ≤ 15) :
    (Item.fixarray items).bytes = mpEncodeArray items.length ++ itemsBytes items := by
  rw [Item.bytes, Item.tag, Item.payload, fixarray_tag (by omega), mpEncodeArray, if_pos h]
  rfl

theorem bytes_fixmap {entries : List (Item × Item)} (h : entries.length ≤ 15) :
    (Item.fixmap entries).bytes = mpEncodeMap entries.length ++ entriesBytes entries := by
  rw [Item.bytes, Item.tag, Item.payload, fixmap_tag (by omega), mpEncodeMap, if_pos h]
  rfl

end Msgpuck

open Msgpuck

/-! ## A server reads a packet -/

/-- The value under a number in a map. -/
def fieldOf (key : ℕ) (entries : List (Value × Value)) : Option Value :=
  entries.findSome? fun e =>
    match e.1 with
    | .int k => if k = key then some e.2 else none
    | _ => none

/-- What a packet says: the entries of its header and of its body. -/
abbrev Maps := List (Value × Value) × List (Value × Value)

/-- The two maps behind the length. -/
def mapsOf (packet : Bytes) : Option Maps :=
  match unpack (packet.drop 5) with
  | some (.map header, s) =>
      match unpack s with
      | some (.map body, _) => some (header, body)
      | _ => none
  | _ => none

/-- The procedure that is called, with its arguments.  The server takes both types of a call. -/
def calledIn (maps : Maps) : Option (Bytes × List Value) :=
  match fieldOf iprotoRequestType maps.1, fieldOf iprotoFunctionName maps.2,
      fieldOf iprotoTuple maps.2 with
  | some (.int type), some (.str function), some (.array args) =>
      if type = iprotoCall ∨ type = tntIprotoCall then some (function, args) else none
  | _, _, _ => none

/-- The procedure a packet calls, whatever its length says. -/
def readCall (packet : Bytes) : Option (Bytes × List Value) := (mapsOf packet).bind calledIn

/-- A call with this type and this sync id. -/
theorem calledIn_call {requestType : ℕ}
    (htype : requestType = iprotoCall ∨ requestType = tntIprotoCall) (syncId : ℕ)
    (function : Bytes) (args : List Value) :
    calledIn ([(.int iprotoRequestType, .int requestType), (.int iprotoSync, .int syncId)],
      [(.int iprotoFunctionName, .str function), (.int iprotoTuple, .array args)]) =
      some (function, args) := by
  simpa [calledIn, fieldOf, iprotoRequestType, iprotoFunctionName, iprotoTuple, or_iff_not_imp_left]
    using htype

namespace RtpEngine

/-- What `rtpe_call_upsert` stores of its arguments. -/
structure StoredCall where
  callId : Bytes
  nodeId : Bytes
  payload : List (Value × Value)

/-- The call a packet stores. -/
def storedCall (packet : Bytes) : Option StoredCall :=
  match readCall packet with
  | some (function, [.str callId, .str nodeId, .map payload, .int _]) =>
      if function = ascii "rtpe_call_upsert" then some ⟨callId, nodeId, payload⟩ else none
  | _ => none

/-! ## The packet of a call -/

/-- The part of a string whose length fits a `uint32_t`. -/
def cut (s : Bytes) : Bytes := s.take (s.length % 2 ^ 32)

theorem length_cut_lt (s : Bytes) : (cut s).length < 2 ^ 32 :=
  lt_of_le_of_lt (List.length_take_le _ _) (Nat.mod_lt _ (by norm_num))

theorem portToU64_lt (port : Int32) : portToU64 port < 2 ^ 64 := by
  unfold portToU64
  omega

/-- The header of a call. -/
def callHeaderItem (syncId : ℕ) : Item :=
  .fixmap [(uintItem iprotoRequestType, uintItem iprotoCall), (uintItem iprotoSync, uintItem syncId)]

/-- The body of a call. -/
def callBodyItem (function : Bytes) (args : List Item) : Item :=
  .fixmap [(uintItem iprotoFunctionName, strItem function), (uintItem iprotoTuple, .fixarray args)]

/-- The payload map of a call, as an encoding. -/
def CallInfo.payloadItems (info : CallInfo) : List (Item × Item) :=
  [(strItem (ascii "caller_ip"), strItem (cut (info.callerIp.getD (ascii "0.0.0.0")))),
    (strItem (ascii "caller_port"), uintItem (portToU64 info.callerPort)),
    (strItem (ascii "callee_ip"), strItem (cut (info.calleeIp.getD (ascii "0.0.0.0")))),
    (strItem (ascii "callee_port"), uintItem (portToU64 info.calleePort)),
    (strItem (ascii "srtp_suite"), strItem (cut (info.srtpSuite.getD (ascii "NONE"))))]

/-- The payload map of a call. -/
def CallInfo.payloadValues (info : CallInfo) : List (Value × Value) :=
  [(.str (ascii "caller_ip"), .str (cut (info.callerIp.getD (ascii "0.0.0.0")))),
    (.str (ascii "caller_port"), .int (portToU64 info.callerPort)),
    (.str (ascii "callee_ip"), .str (cut (info.calleeIp.getD (ascii "0.0.0.0")))),
    (.str (ascii "callee_port"), .int (portToU64 info.calleePort)),
    (.str (ascii "srtp_suite"), .str (cut (info.srtpSuite.getD (ascii "NONE"))))]

theorem entryValues_payloadItems (info : CallInfo) :
    entryValues info.payloadItems = info.payloadValues := by
  simp [CallInfo.payloadItems, CallInfo.payloadValues, entryValues]

theorem valid_payloadItems (info : CallInfo) : (Item.fixmap info.payloadItems).Valid := by
  have hkey : ∀ key : Bytes, key.length < 2 ^ 32 → (strItem key).Valid := fun _ => valid_strItem
  have hstr : ∀ s, (strItem (cut s)).Valid := fun s => valid_strItem (length_cut_lt s)
  have hport : ∀ port, (uintItem (portToU64 port)).Valid := fun port =>
    valid_uintItem (portToU64_lt port)
  simp only [Item.Valid, CallInfo.payloadItems, EntriesValid]
  exact ⟨by simp, ⟨hkey _ (by decide), hstr _⟩, ⟨hkey _ (by decide), hport _⟩,
    ⟨hkey _ (by decide), hstr _⟩, ⟨hkey _ (by decide), hport _⟩, ⟨hkey _ (by decide), hstr _⟩,
    trivial⟩

theorem bytes_payloadItems (info : CallInfo) :
    (Item.fixmap info.payloadItems).bytes = info.packPayload := by
  rw [bytes_fixmap (by simp [CallInfo.payloadItems])]
  simp [CallInfo.payloadItems, entriesBytes_cons, entriesBytes_nil, bytes_strItem, bytes_uintItem,
    CallInfo.packPayload, encodeStr, cut]

/-- The two values of a call. -/
theorem bytes_call (syncId : ℕ) (function : Bytes) {args : List Item} (h : args.length ≤ 15) :
    (callHeaderItem syncId).bytes ++ (callBodyItem function args).bytes =
      callHeader syncId function args.length ++ itemsBytes args := by
  rw [callHeaderItem, callBodyItem, bytes_fixmap (by simp), bytes_fixmap (by simp)]
  simp only [entriesBytes_cons, entriesBytes_nil, bytes_uintItem, bytes_strItem, bytes_fixarray h]
  simp [callHeader]

theorem valid_callHeaderItem {syncId : ℕ} (h : syncId < 2 ^ 64) :
    (callHeaderItem syncId).Valid := by
  have hsmall : ∀ n, n < 128 → (uintItem n).Valid := fun n hn => valid_uintItem (by omega)
  simp only [callHeaderItem, Item.Valid, EntriesValid]
  exact ⟨by simp, ⟨hsmall _ (by decide), hsmall _ (by decide)⟩,
    ⟨hsmall _ (by decide), valid_uintItem h⟩, trivial⟩

theorem valid_callBodyItem {function : Bytes} (hfunction : function.length < 2 ^ 32)
    {args : List Item} (hlen : args.length < 16) (hargs : ∀ arg ∈ args, arg.Valid) :
    (callBodyItem function args).Valid := by
  have hsmall : ∀ n, n < 128 → (uintItem n).Valid := fun n hn => valid_uintItem (by omega)
  simp only [callBodyItem, Item.Valid, EntriesValid]
  exact ⟨by simp, ⟨hsmall _ (by decide), valid_strItem hfunction⟩,
    ⟨hsmall _ (by decide), hlen, itemsValid_iff.2 hargs⟩, trivial⟩

/-- **A server reads the call that was packed.** -/
theorem readCall_call {syncId : ℕ} (hsync : syncId < 2 ^ 64) {function : Bytes}
    (hfunction : function.length < 2 ^ 32) {args : List Item} (hlen : args.length < 16)
    (hargs : ∀ arg ∈ args, arg.Valid) :
    readCall (frame (callHeader syncId function args.length ++ itemsBytes args)) =
      some (function, itemValues args) := by
  have hpayload : (frame (callHeader syncId function args.length ++ itemsBytes args)).drop 5 =
      (callHeaderItem syncId).bytes ++ ((callBodyItem function args).bytes ++ []) := by
    rw [List.append_nil, bytes_call syncId function (by omega)]
    exact List.drop_left' (by simp)
  have hmaps : mapsOf (frame (callHeader syncId function args.length ++ itemsBytes args)) =
      some ([(.int iprotoRequestType, .int iprotoCall), (.int iprotoSync, .int syncId)],
        [(.int iprotoFunctionName, .str function), (.int iprotoTuple, .array (itemValues args))]) := by
    rw [mapsOf, hpayload, unpack_bytes (valid_callHeaderItem hsync)]
    simp only [callHeaderItem, Item.value]
    rw [unpack_bytes (valid_callBodyItem hfunction hlen hargs)]
    simp [callBodyItem, Item.value, entryValues]
  rw [readCall, hmaps, Option.bind_some, calledIn_call (Or.inl rfl)]

/-- The arguments of `rtpe_call_upsert`. -/
def upsertArgs (callId nodeId : Bytes) (info : CallInfo) : List Item :=
  [strItem (cut callId), strItem (cut nodeId), .fixmap info.payloadItems,
    uintItem (if 0 < info.ttlSec then info.ttlSec.toNat else 3600)]

theorem valid_upsertArgs (callId nodeId : Bytes) (info : CallInfo) :
    ∀ arg ∈ upsertArgs callId nodeId info, arg.Valid := by
  have httl : (if 0 < info.ttlSec then info.ttlSec.toNat else 3600) < 2 ^ 64 := by
    have hlt := info.ttlSec.toNat_lt
    split_ifs <;> omega
  have hstr : ∀ s, (strItem (cut s)).Valid := fun s => valid_strItem (length_cut_lt s)
  simp [upsertArgs, hstr, valid_payloadItems, valid_uintItem httl]

theorem itemsBytes_upsertArgs (callId nodeId : Bytes) (info : CallInfo) :
    itemsBytes (upsertArgs callId nodeId info) = encodeStr callId ++ (encodeStr nodeId ++
      (info.packPayload ++ mpEncodeUint (if 0 < info.ttlSec then info.ttlSec.toNat else 3600))) := by
  simp only [upsertArgs, itemsBytes_cons, itemsBytes_nil, bytes_strItem, bytes_uintItem,
    bytes_payloadItems, List.append_nil, encodeStr, cut]

/-- **The packet of a call stores its fields**, in as far as their lengths fit a `uint32_t`. -/
theorem storedCall_packCallUpsert {syncId : ℕ} (hsync : syncId < 2 ^ 64) (nodeId : Option Bytes)
    {info : CallInfo} {callId : Bytes} (hcallId : info.callId = some callId) :
    (packCallUpsert syncId nodeId info).bind storedCall =
      some ⟨cut callId, cut (nodeId.getD (ascii "rtpe-01")), info.payloadValues⟩ := by
  have hname : (ascii "rtpe_call_upsert").length < 2 ^ 32 := by decide
  have hlen : (upsertArgs callId (nodeId.getD (ascii "rtpe-01")) info).length = 4 := rfl
  have hread := readCall_call hsync hname (lt_of_eq_of_lt hlen (by norm_num))
    (valid_upsertArgs callId (nodeId.getD (ascii "rtpe-01")) info)
  rw [hlen, itemsBytes_upsertArgs] at hread
  rw [packCallUpsert, hcallId, Option.map_some, Option.bind_some, storedCall]
  simp only [List.append_assoc]
  rw [hread]
  simp [upsertArgs, itemValues, Item.value, entryValues_payloadItems]

end RtpEngine

end VoipBackend
