import VoipBackend.Wire.OpenSips
import VoipBackend.Wire.Packets
import VoipBackend.Wire.Stream

/-!
# Packets are two maps and nothing more

The builders write the count of every map and array by hand, apart from the fields that
follow it, and patch the length in at the end.  A reader that takes nothing on trust checks
the length, and that the payload is a header map and a body map up to the last byte
(`readPacket`).

Such a reader finds in every packet the header and the body its builder means
(`readPacket_built`).
-/

namespace VoipBackend

open Library MsgPack Msgpuck

/-! ## A strict reader -/

/-- Exactly two maps. -/
def readMaps (payload : Bytes) : Option Maps :=
  match unpack payload with
  | some (.map header, s) =>
      match unpack s with
      | some (.map body, []) => some (header, body)
      | _ => none
  | _ => none

/-- A packet: the tag, the length of what follows, and two maps. -/
def readPacket : Bytes → Option Maps
  | 0xce :: s =>
      if 4 ≤ s.length ∧ ofBigEndian (s.take 4) = (s.drop 4).length then readMaps (s.drop 4)
      else none
  | _ => none

/-- What the strict reader takes: the tag, four bytes with the length of the payload, two maps,
and nothing behind them. -/
theorem readPacket_eq_some_iff {packet : Bytes} {header body : List (Value × Value)} :
    readPacket packet = some (header, body) ↔
      ∃ payload s, packet = frame payload ∧ payload.length < 2 ^ 32 ∧
        unpack payload = some (.map header, s) ∧ unpack s = some (.map body, []) := by
  constructor
  · intro h
    unfold readPacket at h
    split at h
    · next s =>
      split_ifs at h with hlen
      obtain ⟨hfour, hlen⟩ := hlen
      have htake : (s.take 4).length = 4 := List.length_take_of_le hfour
      have hlt := ofBigEndian_lt (s.take 4)
      have hback := bigEndian_ofBigEndian (s.take 4)
      rw [htake] at hlt hback
      refine ⟨s.drop 4, ?_⟩
      unfold readMaps at h
      split at h
      · next header' s' hheader =>
        split at h
        · next body' hbody =>
          cases h
          refine ⟨s', ?_, ?_, hheader, hbody⟩
          · rw [frame, ← hlen, hback, List.cons_append, List.take_append_drop]
          · rw [← hlen]
            exact hlt.trans_le (by norm_num)
        · cases h
      · cases h
    · cases h
  · rintro ⟨payload, s, rfl, hlen, hheader, hbody⟩
    have hnumber := length_bigEndian 4 payload.length
    rw [frame, List.cons_append, readPacket, List.take_left' hnumber, List.drop_left' hnumber,
      ofBigEndian_bigEndian (by norm_num; omega), if_pos (by simp), readMaps, hheader]
    simp only [hbody]

/-- A request with this type, this sync id and this body. -/
def requestMaps (requestType syncId : ℕ) (body : List (Value × Value)) : Maps :=
  ([(.int iprotoRequestType, .int requestType), (.int iprotoSync, .int syncId)], body)

/-- The header of a request, as an encoding. -/
def headerItems (requestType syncId : ℕ) : List (Item × Item) :=
  [(uintItem iprotoRequestType, uintItem requestType), (uintItem iprotoSync, uintItem syncId)]

/-- What two maps encode behind their length is what is read. -/
theorem readPacket_frame {header body : List (Item × Item)} (hheader : (Item.fixmap header).Valid)
    (hbody : (Item.fixmap body).Valid)
    (hlen : ((Item.fixmap header).bytes ++ (Item.fixmap body).bytes).length < 2 ^ 32) :
    readPacket (frame ((Item.fixmap header).bytes ++ (Item.fixmap body).bytes)) =
      some (entryValues header, entryValues body) := by
  have hsecond := unpack_bytes hbody []
  rw [List.append_nil] at hsecond
  exact readPacket_eq_some_iff.2
    ⟨_, _, rfl, hlen, unpack_bytes hheader (Item.fixmap body).bytes, hsecond⟩

theorem valid_headerItems {requestType syncId : ℕ} (htype : requestType < 128)
    (hsync : syncId < 2 ^ 64) : (Item.fixmap (headerItems requestType syncId)).Valid := by
  simp only [headerItems, Item.Valid, EntriesValid]
  exact ⟨by simp, ⟨valid_uintItem (by decide), valid_uintItem (by omega)⟩,
    ⟨valid_uintItem (by decide), valid_uintItem hsync⟩, trivial⟩

/-- **A request is read as it is meant.** -/
theorem readPacket_request {requestType syncId : ℕ} (htype : requestType < 128)
    (hsync : syncId < 2 ^ 64) {body : List (Item × Item)} (hbody : (Item.fixmap body).Valid)
    (hlen : ((Item.fixmap (headerItems requestType syncId)).bytes ++
      (Item.fixmap body).bytes).length < 2 ^ 32) :
    readPacket (frame ((Item.fixmap (headerItems requestType syncId)).bytes ++
        (Item.fixmap body).bytes)) =
      some (requestMaps requestType syncId (entryValues body)) := by
  rw [readPacket_frame (valid_headerItems htype hsync) hbody hlen]
  simp [requestMaps, headerItems, entryValues]

theorem length_le_mpEncodeStr (str : Bytes) : str.length ≤ (mpEncodeStr str).length := by
  rw [mpEncodeStr, List.length_append]
  omega

/-! ## The packets of RTPEngine -/

namespace RtpEngine

/-- The strings of a call. -/
def CallInfo.strings (info : CallInfo) : List Bytes :=
  [info.callerIp.getD (ascii "0.0.0.0"), info.calleeIp.getD (ascii "0.0.0.0"),
    info.srtpSuite.getD (ascii "NONE")]

/-- The payload map of a call. -/
def CallInfo.payloadMap (info : CallInfo) : List (Value × Value) :=
  [(.str (ascii "caller_ip"), .str (info.callerIp.getD (ascii "0.0.0.0"))),
    (.str (ascii "caller_port"), .int (info.callerPort.toInt % 2 ^ 64)),
    (.str (ascii "callee_ip"), .str (info.calleeIp.getD (ascii "0.0.0.0"))),
    (.str (ascii "callee_port"), .int (info.calleePort.toInt % 2 ^ 64)),
    (.str (ascii "srtp_suite"), .str (info.srtpSuite.getD (ascii "NONE")))]

/-- The body of a call of `rtpe_call_upsert`. -/
def upsertBody (callId nodeId : Bytes) (info : CallInfo) : List (Value × Value) :=
  [(.int iprotoFunctionName, .str (ascii "rtpe_call_upsert")),
    (.int iprotoTuple, .array [.str callId, .str nodeId, .map info.payloadMap,
      .int (if 0 < info.ttlSec then info.ttlSec.toNat else 3600 : ℕ)])]

/-- The body of a call of `rtpe_call_delete`. -/
def deleteBody (callId : Bytes) : List (Value × Value) :=
  [(.int iprotoFunctionName, .str (ascii "rtpe_call_delete")),
    (.int iprotoTuple, .array [.str callId])]

theorem cut_eq_self {s : Bytes} (h : s.length < 2 ^ 32) : cut s = s := by
  rw [cut, Nat.mod_eq_of_lt h, List.take_length]

theorem payloadValues_eq {info : CallInfo} (h : ∀ s ∈ info.strings, s.length < 2 ^ 32) :
    info.payloadValues = info.payloadMap := by
  have hport : ∀ port : Int32, ((portToU64 port : ℕ) : ℤ) = port.toInt % 2 ^ 64 := fun port =>
    Int.toNat_of_nonneg (Int.emod_nonneg _ (by norm_num))
  simp only [CallInfo.strings, List.mem_cons, List.not_mem_nil, or_false, forall_eq_or_imp,
    forall_eq] at h
  obtain ⟨hcaller, hcallee, hsuite⟩ := h
  simp only [CallInfo.payloadValues, CallInfo.payloadMap, cut_eq_self hcaller,
    cut_eq_self hcallee, cut_eq_self hsuite, hport]

/-- A call is read as it is meant. -/
theorem readPacket_call {syncId : ℕ} (hsync : syncId < 2 ^ 64) {function : Bytes}
    (hfunction : function.length < 2 ^ 32) {args : List Item} (hcount : args.length < 16)
    (hargs : ∀ arg ∈ args, arg.Valid)
    (hlen : (frame (callHeader syncId function args.length ++ itemsBytes args)).length <
      2 ^ 32 + 5) :
    readPacket (frame (callHeader syncId function args.length ++ itemsBytes args)) =
      some (requestMaps iprotoCall syncId
        [(.int iprotoFunctionName, .str function), (.int iprotoTuple, .array (itemValues args))]) := by
  have hbytes : (callHeaderItem syncId).bytes ++ (callBodyItem function args).bytes =
      callHeader syncId function args.length ++ itemsBytes args :=
    bytes_call syncId function (by omega)
  rw [length_frame, ← hbytes] at hlen
  rw [← hbytes]
  have htype : iprotoCall < 128 := by decide
  refine (readPacket_request htype hsync (valid_callBodyItem hfunction hcount hargs)
    (Nat.lt_of_add_lt_add_left hlen)).trans ?_
  simp [entryValues, Item.value]

theorem readPacket_upsert {syncId : ℕ} (hsync : syncId < 2 ^ 64) {nodeId callId : Bytes}
    {info : CallInfo} (hnode : nodeId.length < 2 ^ 32) (hcall : callId.length < 2 ^ 32)
    (hinfo : ∀ s ∈ info.strings, s.length < 2 ^ 32)
    (hlen : (frame (callHeader syncId (ascii "rtpe_call_upsert") 4 ++
      itemsBytes (upsertArgs callId nodeId info))).length < 2 ^ 32 + 5) :
    readPacket (frame (callHeader syncId (ascii "rtpe_call_upsert") 4 ++
        itemsBytes (upsertArgs callId nodeId info))) =
      some (requestMaps iprotoCall syncId (upsertBody callId nodeId info)) := by
  have hargs : itemValues (upsertArgs callId nodeId info) = [.str callId, .str nodeId,
      .map info.payloadMap, .int (if 0 < info.ttlSec then info.ttlSec.toNat else 3600 : ℕ)] := by
    simp [upsertArgs, itemValues, Item.value, entryValues_payloadItems, payloadValues_eq hinfo,
      cut_eq_self hnode, cut_eq_self hcall]
  have hname : (ascii "rtpe_call_upsert").length < 2 ^ 32 := by decide
  have hcount : (upsertArgs callId nodeId info).length < 16 := by simp [upsertArgs]
  have hread := readPacket_call hsync hname hcount (valid_upsertArgs callId nodeId info) hlen
  rw [hargs] at hread
  exact hread

theorem readPacket_delete {syncId : ℕ} (hsync : syncId < 2 ^ 64) {callId : Bytes}
    (hcall : callId.length < 2 ^ 32)
    (hlen : (frame (callHeader syncId (ascii "rtpe_call_delete") 1 ++
      itemsBytes [strItem callId])).length < 2 ^ 32 + 5) :
    readPacket (frame (callHeader syncId (ascii "rtpe_call_delete") 1 ++
        itemsBytes [strItem callId])) =
      some (requestMaps iprotoCall syncId (deleteBody callId)) := by
  have hname : (ascii "rtpe_call_delete").length < 2 ^ 32 := by decide
  have hread := readPacket_call hsync hname (by simp)
    (List.forall_mem_singleton.2 (valid_strItem hcall)) hlen
  rw [itemValues, value_strItem] at hread
  exact hread

end RtpEngine

/-! ## The packets of OpenSIPS -/

namespace OpenSips

/-- The type of a request. -/
def Request.type : Request → ℕ
  | .get _ => iprotoSelect
  | .set _ _ _ => iprotoReplace
  | .remove _ => iprotoDelete
  | .rawQuery _ => iprotoEval
  | .callProc _ _ => iprotoCall

/-- The arguments of `tarantool_call_proc`: a text that is not empty is the only one. -/
def procArgs (args : Option Bytes) : List Bytes :=
  match args.getD [] with
  | [] => []
  | args => [args]

/-- The body of a request, made at the time `now`. -/
def Request.body (spaceId : ℕ) (now : ℤ) : Request → List (Value × Value)
  | .get attr =>
      [(.int iprotoSpaceId, .int spaceId), (.int iprotoIndexId, .int 0), (.int iprotoLimit, .int 1),
        (.int iprotoOffset, .int 0), (.int iprotoIterator, .int 0),
        (.int iprotoKey, .array [.str attr])]
  | .set attr val expires =>
      [(.int iprotoSpaceId, .int spaceId),
        (.int iprotoTuple, .array [.str attr, .str (ascii "opensips"), .str (ascii "active"),
          .int (now % 2 ^ 64), .int (now % 2 ^ 64),
          .int ((if 0 < expires then now + expires else now + 3600) % 2 ^ 64), .str val])]
  | .remove attr =>
      [(.int iprotoSpaceId, .int spaceId), (.int iprotoIndexId, .int 0),
        (.int iprotoKey, .array [.str attr])]
  | .rawQuery query => [(.int iprotoExpr, .str query), (.int iprotoTuple, .array [])]
  | .callProc proc args =>
      [(.int iprotoFunctionName, .str proc),
        (.int iprotoTuple, .array ((procArgs args).map Value.str))]

/-- The body of a request, as an encoding. -/
def Request.bodyItems (spaceId : ℕ) (now : ℤ) : Request → List (Item × Item)
  | .get attr =>
      [(uintItem iprotoSpaceId, uintItem spaceId), (uintItem iprotoIndexId, uintItem 0),
        (uintItem iprotoLimit, uintItem 1), (uintItem iprotoOffset, uintItem 0),
        (uintItem iprotoIterator, uintItem 0), (uintItem iprotoKey, .fixarray [strItem attr])]
  | .set attr val expires =>
      [(uintItem iprotoSpaceId, uintItem spaceId),
        (uintItem iprotoTuple, .fixarray [strItem attr, strItem (ascii "opensips"),
          strItem (ascii "active"), uintItem (toU64 now), uintItem (toU64 now),
          uintItem (toU64 (if 0 < expires then now + expires else now + 3600)), strItem val])]
  | .remove attr =>
      [(uintItem iprotoSpaceId, uintItem spaceId), (uintItem iprotoIndexId, uintItem 0),
        (uintItem iprotoKey, .fixarray [strItem attr])]
  | .rawQuery query => [(uintItem iprotoExpr, strItem query), (uintItem iprotoTuple, .fixarray [])]
  | .callProc proc args =>
      [(uintItem iprotoFunctionName, strItem proc),
        (uintItem iprotoTuple, .fixarray ((procArgs args).map strItem))]

/-- The strings of a request. -/
def Request.strings : Request → List Bytes
  | .get attr => [attr]
  | .set attr val _ => [attr, val]
  | .remove attr => [attr]
  | .rawQuery query => [query]
  | .callProc proc args => proc :: procArgs args

theorem toU64_lt (x : ℤ) : toU64 x < 2 ^ 64 := by
  unfold toU64
  omega

theorem cast_toU64 (x : ℤ) : ((toU64 x : ℕ) : ℤ) = x % 2 ^ 64 :=
  Int.toNat_of_nonneg (Int.emod_nonneg _ (by norm_num))

theorem length_procArgs (args : Option Bytes) : (procArgs args).length ≤ 1 := by
  unfold procArgs
  split <;> simp

/-- The two maps of a request. -/
theorem pack_eq_frame (req : Request) (syncId spaceId : ℕ) (now : ℤ) :
    req.pack syncId spaceId now =
      frame ((Item.fixmap (headerItems req.type syncId)).bytes ++
        (Item.fixmap (req.bodyItems spaceId now)).bytes) := by
  have hheader : ∀ type, (Item.fixmap (headerItems type syncId)).bytes =
      requestHeader type syncId := by
    intro type
    rw [headerItems, bytes_fixmap (by simp)]
    simp [entriesBytes_cons, entriesBytes_nil, bytes_uintItem, requestHeader]
  rw [hheader]
  cases req with
  | callProc proc args =>
    have hargs : (Item.fixarray ((procArgs args).map strItem)).bytes =
        match args.getD [] with
        | [] => mpEncodeArray 0
        | args => mpEncodeArray 1 ++ mpEncodeStr args := by
      rw [bytes_fixarray (by simpa using (length_procArgs args).trans (by norm_num))]
      unfold procArgs
      split <;> simp [itemsBytes_nil, itemsBytes_cons, bytes_strItem]
    rw [Request.bodyItems, bytes_fixmap (by simp)]
    simp only [entriesBytes_cons, entriesBytes_nil, bytes_uintItem, bytes_strItem, hargs]
    simp only [Request.pack, packCallProc, Request.type, List.append_assoc, List.append_nil]
    rfl
  | _ =>
    rw [Request.bodyItems, bytes_fixmap (by simp)]
    simp [entriesBytes_cons, entriesBytes_nil, itemsBytes_cons, itemsBytes_nil, bytes_uintItem,
      bytes_strItem, bytes_fixarray, Request.pack, packGet, packSet, packRemove, packRawQuery,
      Request.type]

theorem itemValues_map_strItem (l : List Bytes) : itemValues (l.map strItem) = l.map .str := by
  induction l with
  | nil => rfl
  | cons s l ih => rw [List.map_cons, itemValues, value_strItem, ih, List.map_cons]

theorem entryValues_bodyItems (req : Request) (spaceId : ℕ) (now : ℤ) :
    entryValues (req.bodyItems spaceId now) = req.body spaceId now := by
  cases req with
  | callProc proc args =>
    simp [Request.bodyItems, Request.body, entryValues, Item.value, itemValues_map_strItem]
  | _ =>
    simp [Request.bodyItems, Request.body, entryValues, itemValues, Item.value, cast_toU64]

/-- Numbers and strings that fit their fields, in small maps and arrays. -/
theorem valid_bodyItems {req : Request} {spaceId : ℕ} (now : ℤ) (hspace : spaceId < 2 ^ 32)
    (hstrings : ∀ s ∈ req.strings, s.length < 2 ^ 32) :
    (Item.fixmap (req.bodyItems spaceId now)).Valid := by
  have hnumber : ∀ n ∈ [0, 1, iprotoSpaceId, iprotoIndexId, iprotoLimit, iprotoOffset,
      iprotoIterator, iprotoKey, iprotoTuple, iprotoFunctionName, iprotoExpr],
      (uintItem n).Valid := fun n hn => valid_uintItem (by revert n; decide)
  have htime : ∀ x, (uintItem (toU64 x)).Valid := fun x => valid_uintItem (toU64_lt x)
  have hspaceId : (uintItem spaceId).Valid := valid_uintItem (by omega)
  have hname : ∀ s ∈ [ascii "opensips", ascii "active"], (strItem s).Valid := fun s hs =>
    valid_strItem (by revert s; decide)
  have hstr : ∀ s ∈ req.strings, (strItem s).Valid := fun s hs => valid_strItem (hstrings s hs)
  simp only [List.mem_cons, List.not_mem_nil, or_false, forall_eq_or_imp, forall_eq] at hnumber hname
  cases req with
  | callProc proc args =>
    have hargs : ItemsValid ((procArgs args).map strItem) := by
      rw [itemsValid_iff]
      intro item hitem
      obtain ⟨s, hs, rfl⟩ := List.mem_map.1 hitem
      exact hstr s (List.mem_cons_of_mem _ hs)
    have hcount := length_procArgs args
    have hproc := hstr proc List.mem_cons_self
    simp only [Request.bodyItems, Item.Valid, EntriesValid, List.length_map]
    simp [hnumber, hproc, hargs]
    omega
  | _ =>
    simp only [Request.strings, List.mem_cons, List.not_mem_nil, or_false, forall_eq_or_imp,
      forall_eq] at hstr
    simp [Request.bodyItems, Item.Valid, EntriesValid, ItemsValid, hnumber, htime, hspaceId, hname,
      hstr]

/-- The strings of a packet are not longer than the packet. -/
theorem length_le_pack {req : Request} {s : Bytes} (h : s ∈ req.strings) (syncId spaceId : ℕ)
    (now : ℤ) : s.length + 5 ≤ (req.pack syncId spaceId now).length := by
  have hs := length_le_mpEncodeStr s
  cases req with
  | callProc proc args =>
    simp only [Request.pack, packCallProc, length_frame, List.length_append]
    rcases List.mem_cons.1 h with rfl | h
    · omega
    · unfold procArgs at h
      split at h
      · cases h
      · rw [List.mem_singleton.1 h] at hs ⊢
        simp only [List.length_append]
        omega
  | set attr val expires =>
    simp only [Request.pack, packSet, length_frame, List.length_append]
    rcases List.mem_pair.1 h with rfl | rfl <;> omega
  | _ =>
    rw [List.mem_singleton.1 h] at hs ⊢
    simp only [Request.pack, packGet, packRemove, packRawQuery, length_frame, List.length_append]
    omega

/-- **A request is read as it is meant.** -/
theorem readPacket_pack (req : Request) {syncId spaceId : ℕ} (now : ℤ) (hsync : syncId < 2 ^ 64)
    (hspace : spaceId < 2 ^ 32) (hlen : (req.pack syncId spaceId now).length < 2 ^ 32 + 5) :
    readPacket (req.pack syncId spaceId now) =
      some (requestMaps req.type syncId (req.body spaceId now)) := by
  have hstrings : ∀ s ∈ req.strings, s.length < 2 ^ 32 := by
    intro s hs
    have := length_le_pack hs syncId spaceId now
    omega
  have hvalid := valid_bodyItems now hspace hstrings
  have htype : req.type < 128 := by cases req <;> simp [Request.type, iprotoSelect,
    iprotoReplace, iprotoDelete, iprotoEval, iprotoCall]
  rw [pack_eq_frame, length_frame] at hlen
  rw [pack_eq_frame, readPacket_request htype hsync hvalid (by omega), entryValues_bodyItems]

end OpenSips

/-! ## All packets -/

open RtpEngine

/-- **Every packet is exactly the request that was meant.**  The strings of a call and the payload
are shorter than 4 GiB, so that no length is cut. -/
theorem readPacket_built {syncId spaceId : ℕ} (hsync : syncId < 2 ^ 64)
    (hspace : spaceId < 2 ^ 32) :
    (∀ (nodeId : Option Bytes) (info : CallInfo) (callId packet : Bytes),
      info.callId = some callId → packCallUpsert syncId nodeId info = some packet →
      (∀ s ∈ callId :: nodeId.getD (ascii "rtpe-01") :: info.strings, s.length < 2 ^ 32) →
      packet.length < 2 ^ 32 + 5 →
      readPacket packet = some (requestMaps iprotoCall syncId
        (upsertBody callId (nodeId.getD (ascii "rtpe-01")) info))) ∧
    (∀ callId packet : Bytes, packCallDelete syncId (some callId) = some packet →
      callId.length < 2 ^ 32 → packet.length < 2 ^ 32 + 5 →
      readPacket packet = some (requestMaps iprotoCall syncId (deleteBody callId))) ∧
    ∀ (req : OpenSips.Request) (now : ℤ), (req.pack syncId spaceId now).length < 2 ^ 32 + 5 →
      readPacket (req.pack syncId spaceId now) =
        some (requestMaps req.type syncId (req.body spaceId now)) := by
  refine ⟨?_, ?_, fun req now => OpenSips.readPacket_pack req now hsync hspace⟩
  · intro nodeId info callId packet hcallId hpack hstrings hlen
    obtain ⟨hcall, hstrings⟩ := List.forall_mem_cons.1 hstrings
    obtain ⟨hnode, hinfo⟩ := List.forall_mem_cons.1 hstrings
    have hpacket : packet = frame (callHeader syncId (ascii "rtpe_call_upsert") 4 ++
        itemsBytes (upsertArgs callId (nodeId.getD (ascii "rtpe-01")) info)) := by
      rw [packCallUpsert, hcallId, Option.map_some, Option.some.injEq] at hpack
      rw [← hpack, itemsBytes_upsertArgs]
      simp only [List.append_assoc]
    rw [hpacket] at hlen ⊢
    exact readPacket_upsert hsync hnode hcall hinfo hlen
  · intro callId packet hpack hcall hlen
    have hpacket : packet = frame (callHeader syncId (ascii "rtpe_call_delete") 1 ++
        itemsBytes [strItem callId]) := by
      rw [packCallDelete, Option.map_some, Option.some.injEq] at hpack
      rw [← hpack, itemsBytes_cons, itemsBytes_nil, bytes_strItem, List.append_nil, encodeStr,
        Nat.mod_eq_of_lt hcall, List.take_length]
    rw [hpacket] at hlen ⊢
    exact readPacket_delete hsync hcall hlen

/-- The largest sync id and a key of two length bytes. -/
theorem readPacket_built_limits :
    readPacket (OpenSips.packRemove (2 ^ 64 - 1) 512 (List.replicate 256 97)) =
      some (requestMaps iprotoDelete (2 ^ 64 - 1)
        (OpenSips.Request.body 512 0 (.remove (List.replicate 256 97)))) :=
  (readPacket_built (by norm_num) (by norm_num)).2.2 (.remove (List.replicate 256 97)) 0
    (by decide +kernel)

end VoipBackend
