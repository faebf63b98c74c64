import VoipBackend.Wire.Msgpuck

/-!
# Calls on the wire

How the RTPEngine driver packs a call for `rtpe_call_upsert` and how it reads the answer of
`rtpe_call_restore` back (`src/tarantool.c`).

A C string is the list of its bytes without the terminating zero.  The decoder walks over
the answer with the decoders of `msgpuck.h`; a read beyond the end of the frame has no
result.  It copies what it finds into buffers of fixed size (`copyInto`) and recognises keys
with `strncmp` over the length of the key it finds (`strncmpEq`).
-/

namespace VoipBackend

open Library

namespace RtpEngine

open Msgpuck

/-! ## Packing -/

/-- `rtpe_call_info_t` as the packers read it; `none` is a null pointer.  The Call-ID is the
`call_id_len` bytes at `call_id`, or the C string there if that length is zero. -/
structure CallInfo where
  callId : Option Bytes
  callerIp : Option Bytes
  callerPort : Int32
  calleeIp : Option Bytes
  calleePort : Int32
  srtpSuite : Option Bytes
  ttlSec : UInt32

/-- `mp_encode_str` of a string whose length is passed as a `uint32_t`. -/
def encodeStr (s : Bytes) : Bytes := mpEncodeStr (s.take (s.length % 2 ^ 32))

/-- `(uint64_t)port`. -/
def portToU64 (port : Int32) : ℕ := (port.toInt % 2 ^ 64).toNat

/-- The header map of a `CALL`, the function name and the count of its arguments. -/
def callHeader (syncId : ℕ) (function : Bytes) (args : ℕ) : Bytes :=
  mpEncodeMap 2 ++ mpEncodeUint iprotoRequestType ++ mpEncodeUint iprotoCall ++
    mpEncodeUint iprotoSync ++ mpEncodeUint syncId ++
    mpEncodeMap 2 ++ mpEncodeUint iprotoFunctionName ++ mpEncodeStr function ++
    mpEncodeUint iprotoTuple ++ mpEncodeArray args

/-- The payload map of `rtpe_tarantool_pack_call_upsert`. -/
def CallInfo.packPayload (info : CallInfo) : Bytes :=
  mpEncodeMap 5 ++
    mpEncodeStr (ascii "caller_ip") ++ encodeStr (info.callerIp.getD (ascii "0.0.0.0")) ++
    mpEncodeStr (ascii "caller_port") ++ mpEncodeUint (portToU64 info.callerPort) ++
    mpEncodeStr (ascii "callee_ip") ++ encodeStr (info.calleeIp.getD (ascii "0.0.0.0")) ++
    mpEncodeStr (ascii "callee_port") ++ mpEncodeUint (portToU64 info.calleePort) ++
    mpEncodeStr (ascii "srtp_suite") ++ encodeStr (info.srtpSuite.getD (ascii "NONE"))

/-- `rtpe_tarantool_pack_call_upsert`, in a buffer that is large enough. -/
def packCallUpsert (syncId : ℕ) (nodeId : Option Bytes) (info : CallInfo) : Option Bytes :=
  info.callId.map fun callId =>
    frame (callHeader syncId (ascii "rtpe_call_upsert") 4 ++
      encodeStr callId ++ encodeStr (nodeId.getD (ascii "rtpe-01")) ++ info.packPayload ++
      mpEncodeUint (if 0 < info.ttlSec then info.ttlSec.toNat else 3600))

/-- `rtpe_tarantool_pack_call_delete`, in a buffer that is large enough. -/
def packCallDelete (syncId : ℕ) (callId : Option Bytes) : Option Bytes :=
  callId.map fun callId =>
    frame (callHeader syncId (ascii "rtpe_call_delete") 1 ++ encodeStr callId)

/-- The request of `rtpe_tarantool_restore_calls`. -/
def packCallRestore (syncId : ℕ) (nodeId : Bytes) : Bytes :=
  frame (callHeader syncId (ascii "rtpe_call_restore") 1 ++ encodeStr nodeId)

/-! ## Reading back -/

/-- A call as the callback of `rtpe_tarantool_restore_calls` gets it. -/
structure RestoredCall where
  callId : Bytes
  nodeId : Bytes
  callerIp : Bytes
  callerPort : Int32
  calleeIp : Bytes
  calleePort : Int32
  srtpSuite : Bytes
  deriving DecidableEq

/-- The buffers before an entry is decoded. -/
def RestoredCall.blank : RestoredCall :=
  ⟨[], [], ascii "0.0.0.0", 0, ascii "0.0.0.0", 0, ascii "NONE"⟩

/-- `strncmp(s, literal, n) == 0`, reading no further than it has to. -/
def strncmpEq : Bytes → Bytes → ℕ → Option Bool
  | _, _, 0 => some true
  | [], _, _ + 1 => none
  | a :: _, [], _ + 1 => some (decide (a = 0))
  | a :: s, b :: literal, n + 1 => if a = b then strncmpEq s literal n else some false

/-- The C string in a buffer of `size` bytes after `if (len < size) memcpy(..)`. -/
def copyInto (size : ℕ) (old : Bytes) (str : StrRef) : Option Bytes :=
  if str.len < size then str.bytes.map (List.takeWhile fun b => b ≠ 0) else some old

/-- A value that is copied into a buffer of `size` bytes. -/
def readInto (size : ℕ) (old p : Bytes) : Option (Bytes × Bytes) := do
  let (str, p) ← mpDecodeStr p
  let new ← copyInto size old str
  return (new, p)

/-- A value of a port. -/
def readPort (p : Bytes) : Option (Int32 × Bytes) := do
  let (n, p) ← mpDecodeUint p
  return (Int32.ofNat n, p)

/-- `(uint8_t)*rptr`. -/
def peek (p : Bytes) : Option UInt8 := p.head?

/-- The test for the start of an array. -/
def isArrayTag (tag : UInt8) : Bool := decide (tag &&& 0xf0 = 0x90 ∨ tag = 0xdc ∨ tag = 0xdd)

/-- The test for the start of a map. -/
def isMapTag (tag : UInt8) : Bool := decide (tag &&& 0xf0 = 0x80 ∨ tag = 0xde ∨ tag = 0xdf)

/-- One entry of a payload map. -/
def payloadEntry (call : RestoredCall) (p : Bytes) : Option (RestoredCall × Bytes) := do
  let (key, p) ← mpDecodeStr p
  if ← strncmpEq key.s (ascii "caller_ip") key.len then
    let (ip, p) ← readInto 64 call.callerIp p
    return ({ call with callerIp := ip }, p)
  else if ← strncmpEq key.s (ascii "callee_ip") key.len then
    let (ip, p) ← readInto 64 call.calleeIp p
    return ({ call with calleeIp := ip }, p)
  else if ← strncmpEq key.s (ascii "caller_port") key.len then
    let (port, p) ← readPort p
    return ({ call with callerPort := port }, p)
  else if ← strncmpEq key.s (ascii "callee_port") key.len then
    let (port, p) ← readPort p
    return ({ call with calleePort := port }, p)
  else if ← strncmpEq key.s (ascii "srtp_suite") key.len then
    let (suite, p) ← readInto 32 call.srtpSuite p
    return ({ call with srtpSuite := suite }, p)
  else
    let p ← mpNext p
    return (call, p)

/-- The entries of a map, decoded one after another. -/
def entriesLoop (entry : RestoredCall → Bytes → Option (RestoredCall × Bytes)) :
    ℕ → RestoredCall → Bytes → Option (RestoredCall × Bytes)
  | 0, call, p => some (call, p)
  | n + 1, call, p => (entry call p).bind fun (call, p) => entriesLoop entry n call p

/-- One entry of the map of a call.  A payload that is not a small map is skipped. -/
def callEntry (call : RestoredCall) (p : Bytes) : Option (RestoredCall × Bytes) := do
  let (key, p) ← mpDecodeStr p
  if ← strncmpEq key.s (ascii "call_id") key.len then
    let (callId, p) ← readInto 128 call.callId p
    return ({ call with callId := callId }, p)
  else if ← strncmpEq key.s (ascii "node_id") key.len then
    let (nodeId, p) ← readInto 64 call.nodeId p
    return ({ call with nodeId := nodeId }, p)
  else
    let isPayload ← strncmpEq key.s (ascii "payload") key.len
    let isSmallMap ← if isPayload then (peek p).map fun tag => decide (tag &&& 0xf0 = 0x80)
      else some false
    if isSmallMap then
      let (size, p) ← mpDecodeMap p
      entriesLoop payloadEntry size call p
    else
      let p ← mpNext p
      return (call, p)

/-- One element of the list of calls: the call it describes, if it is a map. -/
def callItem (p : Bytes) : Option (RestoredCall × Bytes) := do
  let tag ← peek p
  if isMapTag tag then
    let (size, p) ← mpDecodeMap p
    entriesLoop callEntry size .blank p
  else
    let p ← mpNext p
    return (.blank, p)

/-- The loop over a list of calls.  `restoreCb` is what the callback returns, given all calls
it has been handed so far; a number that is not zero ends the loop. -/
def callsLoop (restoreCb : List RestoredCall → ℤ) :
    ℕ → List RestoredCall → Bytes → Option (List RestoredCall × Bytes)
  | 0, calls, p => some (calls, p)
  | n + 1, calls, p => do
      let (call, p) ← callItem p
      if call.callId = [] then callsLoop restoreCb n calls p
      else if restoreCb (calls ++ [call]) ≠ 0 then some (calls ++ [call], p)
      else callsLoop restoreCb n (calls ++ [call]) p

/-- The loop over the elements of `IPROTO_DATA`. -/
def dataLoop (restoreCb : List RestoredCall → ℤ) :
    ℕ → List RestoredCall → Bytes → Option (List RestoredCall × Bytes)
  | 0, calls, p => some (calls, p)
  | n + 1, calls, p => do
      let tag ← peek p
      if isArrayTag tag then
        let (subCount, p) ← mpDecodeArray p
        let (calls, p) ← callsLoop restoreCb subCount calls p
        dataLoop restoreCb n calls p
      else
        let p ← mpNext p
        dataLoop restoreCb n calls p

/-- The loop over the body map. -/
def bodyLoop (restoreCb : List RestoredCall → ℤ) :
    ℕ → List RestoredCall → Bytes → Option (List RestoredCall × Bytes)
  | 0, calls, p => some (calls, p)
  | n + 1, calls, p => do
      let (key, p) ← mpDecodeUint p
      if key = iprotoData then
        let (dataArrLen, p) ← mpDecodeArray p
        let (calls, p) ← dataLoop restoreCb dataArrLen calls p
        bodyLoop restoreCb n calls p
      else
        let p ← mpNext p
        bodyLoop restoreCb n calls p

/-- The body of the answer: the calls the callback is handed, in order.  `restored_count` is
their number. -/
def decodeCalls (restoreCb : List RestoredCall → ℤ) (p : Bytes) : Option (List RestoredCall) := do
  let (bodyMap, p) ← mpDecodeMap p
  let (calls, _) ← bodyLoop restoreCb bodyMap [] p
  return calls

/-! ## Headers -/

/-- The loop over the header map: the last `IPROTO_SYNC` counts. -/
def headerLoop : ℕ → ℕ → Bytes → Option (ℕ × Bytes)
  | msgSync, 0, p => some (msgSync, p)
  | msgSync, n + 1, p => do
      let (key, p) ← mpDecodeUint p
      if key = iprotoSync then
        let (sync, p) ← mpDecodeUint p
        headerLoop sync n p
      else
        let p ← mpNext p
        headerLoop msgSync n p

/-- The sync id of a frame, with the pointer behind its header. -/
def headerSync (body : Bytes) : Option (ℕ × Bytes) :=
  (mpDecodeMap body).bind fun (headerMap, p) => headerLoop 0 headerMap p

end RtpEngine

end VoipBackend
