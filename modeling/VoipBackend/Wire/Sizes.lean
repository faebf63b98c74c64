import VoipBackend.Wire.Requests

/-!
# Do the packets fit their buffers?

The drivers build a packet in a buffer on the stack, and never compare what they write with the size
of the buffer.  The length of a packet is a sum over the widths of its numbers and strings
(`uintSize`, `strSize`), so there is a bound on the strings up to which it fits.

* `request_fits_iff`: the buffers of the OpenSIPS driver have 256, 1024 and 4096 bytes.
* `pack_fits_iff`: the packers of the RTPEngine driver are told the size of the buffer, and compare
  it with a constant.
-/

set_option maxRecDepth 4000

namespace VoipBackend

open Library Msgpuck

/-! ## The lengths of the encodings -/

/-- The length of a number. -/
def uintSize (num : ℕ) : ℕ :=
  if num ≤ 0x7f then 1
  else if num ≤ 0xff then 2
  else if num ≤ 0xffff then 3
  else if num ≤ 0xffffffff then 5
  else 9

/-- The length of a string of `len` bytes. -/
def strSize (len : ℕ) : ℕ :=
  (if len ≤ 31 then 1 else if len ≤ 0xff then 2 else if len ≤ 0xffff then 3 else 5) + len

@[simp] theorem length_mpEncodeUint (num : ℕ) : (mpEncodeUint num).length = uintSize num := by
  unfold mpEncodeUint uintSize
  split_ifs <;> simp

@[simp] theorem length_mpEncodeStr (str : Bytes) :
    (mpEncodeStr str).length = strSize str.length := by
  rw [mpEncodeStr, strSize, List.length_append]
  split_ifs <;> simp

theorem uintSize_fixint {num : ℕ} (h : num ≤ 0x7f) : uintSize num = 1 := if_pos h

theorem length_mpEncodeArray {size : ℕ} (h : size ≤ 15) : (mpEncodeArray size).length = 1 := by
  rw [mpEncodeArray, if_pos h]
  rfl

theorem length_mpEncodeMap {size : ℕ} (h : size ≤ 15) : (mpEncodeMap size).length = 1 := by
  rw [mpEncodeMap, if_pos h]
  rfl

theorem uintSize_le (num : ℕ) : uintSize num ≤ 9 := by
  unfold uintSize
  split_ifs <;> omega

theorem strSize_le (len : ℕ) : strSize len ≤ 5 + len := by
  unfold strSize
  split_ifs <;> omega

/-! ## The requests of the OpenSIPS driver -/

namespace OpenSips

/-- The size of the buffer a request is built in. -/
def Request.bufSize : Request → ℕ
  | .get _ => 1024
  | .set _ _ _ => 256
  | .remove _ => 1024
  | .rawQuery _ => 4096
  | .callProc _ _ => 4096

/-- The packet that a request is encoded to, if there is a connection for it. -/
def Request.encoded (tcon : Cluster) (net : Net) (req : Request) (c : Conn) : Option Bytes :=
  let (r, c, spaceId) := tntGetConn tcon net c
  if r.exit ≠ .completed then none
  else some (req.pack (c.syncCounter + 1).toNat spaceId net.packTime)

/-- The packet is what the request sends. -/
theorem sent_request (tcon : Cluster) (net : Net) (req : Request) (c : Conn) :
    (request tcon net req c).1.sent =
      (tntGetConn tcon net c).1.sent ++ (req.encoded tcon net c).toList := by
  unfold request Request.encoded
  simp only
  split_ifs with hexit
  · simp
  · unfold query
    simp only
    split_ifs
    · rfl
    · split
      · rfl
      · split_ifs <;> rfl

/-- The length of the packet of a request. -/
def Request.size (syncId spaceId : ℕ) (now : ℤ) : Request → ℕ
  | .get attr => 21 + uintSize syncId + uintSize spaceId + strSize attr.length
  | .set attr val expires =>
      29 + uintSize syncId + uintSize spaceId + strSize attr.length + 2 * uintSize (toU64 now) +
        uintSize (toU64 (if 0 < expires then now + expires else now + 3600)) + strSize val.length
  | .remove attr => 15 + uintSize syncId + uintSize spaceId + strSize attr.length
  | .rawQuery query => 13 + uintSize syncId + strSize query.length
  | .callProc proc args =>
      13 + uintSize syncId + strSize proc.length +
        if args.getD [] = [] then 0 else strSize (args.getD []).length

theorem length_requestHeader {requestType : ℕ} (h : requestType ≤ 0x7f) (syncId : ℕ) :
    (requestHeader requestType syncId).length = 4 + uintSize syncId := by
  simp (disch := decide) only [requestHeader, List.length_append, length_mpEncodeUint,
    uintSize_fixint h, uintSize_fixint, length_mpEncodeMap]

theorem length_pack (syncId spaceId : ℕ) (now : ℤ) (req : Request) :
    (req.pack syncId spaceId now).length = req.size syncId spaceId now := by
  cases req with
  | get attr =>
    simp (disch := decide) only [Request.pack, packGet, Request.size, length_frame,
      List.length_append, length_requestHeader, length_mpEncodeUint, length_mpEncodeStr,
      length_mpEncodeMap, length_mpEncodeArray, uintSize_fixint]
    omega
  | set attr val expires =>
    have hopensips : strSize (ascii "opensips").length = 9 := rfl
    have hactive : strSize (ascii "active").length = 7 := rfl
    simp (disch := decide) only [Request.pack, packSet, Request.size, length_frame,
      List.length_append, length_requestHeader, length_mpEncodeUint, length_mpEncodeStr,
      length_mpEncodeMap, length_mpEncodeArray, uintSize_fixint, hopensips, hactive]
    omega
  | remove attr =>
    simp (disch := decide) only [Request.pack, packRemove, Request.size, length_frame,
      List.length_append, length_requestHeader, length_mpEncodeUint, length_mpEncodeStr,
      length_mpEncodeMap, length_mpEncodeArray, uintSize_fixint]
    omega
  | rawQuery query =>
    simp (disch := decide) only [Request.pack, packRawQuery, Request.size, length_frame,
      List.length_append, length_requestHeader, length_mpEncodeUint, length_mpEncodeStr,
      length_mpEncodeMap, length_mpEncodeArray, uintSize_fixint]
    omega
  | callProc proc args =>
    cases hargs : args.getD [] with
    | nil =>
      simp (disch := decide) only [Request.pack, packCallProc, Request.size, length_frame, hargs,
        List.length_append, length_requestHeader, length_mpEncodeUint, length_mpEncodeStr,
        length_mpEncodeMap, length_mpEncodeArray, uintSize_fixint, if_true]
      omega
    | cons b args =>
      simp (disch := decide) only [Request.pack, packCallProc, Request.size, length_frame, hargs,
        List.length_append, length_requestHeader, length_mpEncodeUint, length_mpEncodeStr,
        length_mpEncodeMap, length_mpEncodeArray, uintSize_fixint, reduceCtorEq, if_false]
      omega

/-- A request is built only in a buffer that holds it. -/
def Request.StaysIn (tcon : Cluster) (net : Net) (req : Request) (c : Conn) : Prop :=
  ∀ packet ∈ req.encoded tcon net c, packet.length ≤ req.bufSize

/-- **When a request fits its buffer.**  There is no connection for it, or the widths of its numbers
and strings add up to what the buffer has. -/
theorem request_fits_iff (tcon : Cluster) (net : Net) (req : Request) (c : Conn) :
    req.StaysIn tcon net c ↔ (tntGetConn tcon net c).1.exit ≠ .completed ∨
      req.size ((tntGetConn tcon net c).2.1.syncCounter + 1).toNat (tntGetConn tcon net c).2.2
        net.packTime ≤ req.bufSize := by
  unfold Request.StaysIn Request.encoded
  simp only
  by_cases hexit : (tntGetConn tcon net c).1.exit ≠ .completed
  · simp [hexit]
  · rw [if_neg hexit, or_iff_right hexit, ← length_pack]
    simp

/-- A connection that is logged in. -/
def Conn.ready : Conn := ⟨7, .authenticated, 0, 0, 0⟩

/-- A handle with the space 512, in November 2023. -/
def Net.calm : Net where
  dial := ⟨1700000000, none, true, true, [], ⟨true, [], true⟩, 0⟩
  resolve := ⟨true, [], true⟩
  straySpaceId := 0
  answer := ⟨true, [], true⟩
  strayStatus := 0
  packTime := 1700000000
  errorTime := 1700000000
  spaceId := 512

/-- A value of 300 bytes is written over the end of 256. -/
theorem not_request_fits_long :
    ¬ (Request.set (ascii "call") (List.replicate 300 0x76) 60).StaysIn ⟨[], [], [], 10, 3⟩ .calm
      .ready := by
  intro h
  have hfits := h _ rfl
  rw [length_pack] at hfits
  exact absurd hfits (by decide)

end OpenSips

/-! ## The packers of the RTPEngine driver -/

namespace RtpEngine

/-- What a packer returns, and what it writes into the buffer. -/
structure Packed where
  ret : ℕ
  written : Bytes

/-- What a packer does with a buffer of `bufSize` bytes, which has to have at least `least`. -/
def packInto (least bufSize : ℕ) (packet : Option Bytes) : Packed :=
  if bufSize < least then ⟨0, []⟩
  else
    match packet with
    | none => ⟨0, []⟩
    | some packet => ⟨5 + (packet.length - 5) % 2 ^ 32, packet⟩

/-- `rtpe_tarantool_pack_call_upsert`. -/
def rtpeTarantoolPackCallUpsert (bufSize syncId : ℕ) (nodeId : Option Bytes) (info : CallInfo) :
    Packed :=
  packInto 512 bufSize (packCallUpsert syncId nodeId info)

/-- `rtpe_tarantool_pack_call_delete`. -/
def rtpeTarantoolPackCallDelete (bufSize syncId : ℕ) (callId : Option Bytes) : Packed :=
  packInto 128 bufSize (packCallDelete syncId callId)

/-- The packer returns 0, or a length the buffer has, and writes nothing behind the buffer. -/
def Packed.StaysIn (bufSize : ℕ) (p : Packed) : Prop :=
  p.ret = 0 ∨ p.ret ≤ bufSize ∧ p.written.length ≤ bufSize

/-- The length of a string whose length is passed as a `uint32_t`. -/
def cutSize (s : Bytes) : ℕ := strSize (s.length % 2 ^ 32)

/-- The length of the packet of a call. -/
def upsertSize (syncId : ℕ) (nodeId : Option Bytes) (callId : Bytes) (info : CallInfo) : ℕ :=
  86 + uintSize syncId + cutSize callId + cutSize (nodeId.getD (ascii "rtpe-01")) +
    cutSize (info.callerIp.getD (ascii "0.0.0.0")) + uintSize (portToU64 info.callerPort) +
    cutSize (info.calleeIp.getD (ascii "0.0.0.0")) + uintSize (portToU64 info.calleePort) +
    cutSize (info.srtpSuite.getD (ascii "NONE")) +
    uintSize (if 0 < info.ttlSec then info.ttlSec.toNat else 3600)

/-- The length of the packet that deletes a call. -/
def deleteSize (syncId : ℕ) (callId : Bytes) : ℕ := 30 + uintSize syncId + cutSize callId

theorem length_encodeStr (s : Bytes) : (encodeStr s).length = cutSize s := by
  rw [encodeStr, length_mpEncodeStr, List.length_take_of_le (Nat.mod_le _ _), cutSize]

theorem length_callHeader (syncId : ℕ) {function : Bytes} (h : function.length = 16) (args : ℕ)
    (hargs : args ≤ 15) : (callHeader syncId function args).length = 25 + uintSize syncId := by
  have hname : strSize function.length = 17 := by rw [h]; rfl
  simp (disch := decide) only [callHeader, List.length_append, length_mpEncodeUint,
    length_mpEncodeStr, length_mpEncodeMap, length_mpEncodeArray hargs, uintSize_fixint, hname]
  omega

theorem staysIn_packInto {least bufSize : ℕ} {packet : Bytes} (h : 5 ≤ packet.length) :
    (packInto least bufSize (some packet)).StaysIn bufSize ↔
      bufSize < least ∨ packet.length ≤ bufSize := by
  unfold packInto
  by_cases hleast : bufSize < least
  · simp [hleast, Packed.StaysIn]
  · simp only [hleast, if_false, Packed.StaysIn, false_or]
    omega

theorem length_packPayload (info : CallInfo) : info.packPayload.length =
    56 + cutSize (info.callerIp.getD (ascii "0.0.0.0")) + uintSize (portToU64 info.callerPort) +
      cutSize (info.calleeIp.getD (ascii "0.0.0.0")) + uintSize (portToU64 info.calleePort) +
      cutSize (info.srtpSuite.getD (ascii "NONE")) := by
  have hip : strSize (ascii "caller_ip").length = 10 ∧ strSize (ascii "callee_ip").length = 10 :=
    ⟨rfl, rfl⟩
  have hport : strSize (ascii "caller_port").length = 12 ∧
      strSize (ascii "callee_port").length = 12 := ⟨rfl, rfl⟩
  have hsuite : strSize (ascii "srtp_suite").length = 11 := rfl
  simp (disch := decide) only [CallInfo.packPayload, List.length_append, length_mpEncodeMap,
    length_mpEncodeStr, length_mpEncodeUint, length_encodeStr, hip.1, hip.2, hport.1, hport.2,
    hsuite]
  omega

theorem length_packCallUpsert (syncId : ℕ) (nodeId : Option Bytes) {callId : Bytes}
    {info : CallInfo} (h : info.callId = some callId) :
    ∃ packet, packCallUpsert syncId nodeId info = some packet ∧
      packet.length = upsertSize syncId nodeId callId info := by
  refine ⟨_, by rw [packCallUpsert, h, Option.map_some], ?_⟩
  have hname : (ascii "rtpe_call_upsert").length = 16 := rfl
  have hheader := length_callHeader syncId hname 4 (by norm_num)
  simp only [length_frame, List.length_append, hheader, length_encodeStr, length_packPayload,
    length_mpEncodeUint, upsertSize]
  omega

theorem length_packCallDelete (syncId : ℕ) (callId : Bytes) :
    ∃ packet, packCallDelete syncId (some callId) = some packet ∧
      packet.length = deleteSize syncId callId := by
  refine ⟨_, rfl, ?_⟩
  have hname : (ascii "rtpe_call_delete").length = 16 := rfl
  have hheader := length_callHeader syncId hname 1 (by norm_num)
  simp only [length_frame, List.length_append, hheader, length_encodeStr, deleteSize]
  omega

theorem staysIn_packInto_none (least bufSize : ℕ) :
    (packInto least bufSize none).StaysIn bufSize := by
  refine Or.inl ?_
  unfold packInto
  split_ifs <;> rfl

/-- **When a packet stays in the buffer.**  The buffer is too small even for the test, there is no
Call-ID, or the widths of the numbers and strings add up to what the buffer has. -/
theorem pack_fits_iff (bufSize syncId : ℕ) :
    (∀ (nodeId : Option Bytes) (info : CallInfo),
      (rtpeTarantoolPackCallUpsert bufSize syncId nodeId info).StaysIn bufSize ↔
        bufSize < 512 ∨ ∀ callId ∈ info.callId, upsertSize syncId nodeId callId info ≤ bufSize) ∧
    ∀ callId : Option Bytes, (rtpeTarantoolPackCallDelete bufSize syncId callId).StaysIn bufSize ↔
      bufSize < 128 ∨ ∀ id ∈ callId, deleteSize syncId id ≤ bufSize := by
  constructor
  · intro nodeId info
    rw [rtpeTarantoolPackCallUpsert]
    cases hcall : info.callId with
    | none =>
      have hnone : packCallUpsert syncId nodeId info = none := by
        rw [packCallUpsert, hcall, Option.map_none]
      rw [hnone]
      exact iff_of_true (staysIn_packInto_none _ _) (Or.inr (by simp))
    | some callId =>
      obtain ⟨packet, hpacket, hlen⟩ := length_packCallUpsert syncId nodeId hcall
      rw [hpacket, staysIn_packInto (by rw [hlen, upsertSize]; omega), hlen]
      simp
  · intro callId
    rw [rtpeTarantoolPackCallDelete]
    cases callId with
    | none => exact iff_of_true (staysIn_packInto_none _ _) (Or.inr (by simp))
    | some callId =>
      obtain ⟨packet, hpacket, hlen⟩ := length_packCallDelete syncId callId
      rw [hpacket, staysIn_packInto (by rw [hlen, deleteSize]; omega), hlen]
      simp

/-- A call without addresses. -/
def wideCall : CallInfo := ⟨some (List.replicate 500 0x61), none, 0, none, 0, none, 0⟩

/-- A Call-ID of 500 bytes in a buffer of 512, and one of 128 bytes in a buffer of 128. -/
theorem not_pack_fits_long :
    ¬ (rtpeTarantoolPackCallUpsert 512 1 none wideCall).StaysIn 512 ∧
      ¬ (rtpeTarantoolPackCallDelete 128 1 (some (List.replicate 128 0x61))).StaysIn 128 := by
  have hcall : wideCall.callId = some (List.replicate 500 0x61) := rfl
  obtain ⟨packet, hpacket, hlen⟩ := length_packCallUpsert 1 none hcall
  obtain ⟨packet', hpacket', hlen'⟩ := length_packCallDelete 1 (List.replicate 128 0x61)
  constructor
  · rw [rtpeTarantoolPackCallUpsert, hpacket, staysIn_packInto (by rw [hlen, upsertSize]; omega),
      hlen]
    decide
  · rw [rtpeTarantoolPackCallDelete, hpacket', staysIn_packInto (by rw [hlen', deleteSize]; omega),
      hlen']
    decide

end RtpEngine

end VoipBackend
