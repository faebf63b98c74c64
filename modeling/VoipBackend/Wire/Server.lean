import VoipBackend.Wire.SaveCall
import VoipBackend.Wire.Sizes

/-!
# The server behind the RTPEngine driver

`init.lua` exports `rtpe_call_upsert` and `rtpe_call_delete`.  A packet is read with nothing taken on
trust (`readPacket`); if it is a call of one of the two, the procedure runs with the arguments of the
packet (`servePacket`).

What the driver packs for a call, the procedure stores (`serve_packCallUpsert`,
`serve_packCallDelete`).
-/

namespace VoipBackend

open Library MsgPack Kamailio

/-- How Tarantool hands the values to a procedure that the driver sends: a number that is exact in a
Lua number is one, and a map is a table. -/
structure LuaValues extends LuaArgs where
  lua_int : ∀ n : ℕ, n < 10 ^ 14 → lua (.int n) = .number n
  lua_map : ∀ entries, lua (.map entries) = .table (entries.map fun e => (lua e.1, lua e.2))

/-- The procedure a packet calls, with its arguments. -/
def calledBy (packet : Bytes) : Option (Bytes × List Value) := (readPacket packet).bind calledIn

/-- What a packet does to the spaces, if it calls one of the two procedures. -/
def servePacket (l : LuaValues) (now : Clock) (packet : Bytes) (b : Box) : Box :=
  match calledBy packet with
  | some (function, args) =>
      if function = ascii "rtpe_call_upsert" then (serveUpsert l.toLuaArgs now args b).2
      else if function = ascii "rtpe_call_delete" then (callDelete (l.at args 0) b).2
      else b
  | none => b

namespace RtpEngine

/-- The arguments `rtpe_call_upsert` gets for a call. -/
def CallInfo.luaArgs (l : LuaValues) (callId nodeId : Bytes) (info : CallInfo) : CallUpsertArgs where
  callId := .string callId
  nodeId := .string nodeId
  payload := l.lua (.map info.payloadMap)
  ttlSec := .number (if 0 < info.ttlSec then info.ttlSec.toNat else 3600 : ℕ)

variable {l : LuaValues} {syncId : ℕ} {callId nodeId packet : Bytes} {info : CallInfo}

theorem calledBy_of_readPacket {function : Bytes} {args : List Value}
    (h : readPacket packet = some (requestMaps iprotoCall syncId
      [(.int iprotoFunctionName, .str function), (.int iprotoTuple, .array args)])) :
    calledBy packet = some (function, args) := by
  rw [calledBy, h, Option.bind_some, requestMaps, calledIn_call (Or.inl rfl)]

/-- **The call that is packed is the call that is registered.** -/
theorem serve_packCallUpsert (l : LuaValues) (hsync : syncId < 2 ^ 64)
    (hpack : packCallUpsert syncId (some nodeId) info = some packet)
    (hcallId : info.callId = some callId)
    (hstrings : ∀ s ∈ callId :: nodeId :: info.strings, s.length < 2 ^ 32)
    (hlen : packet.length < 2 ^ 32 + 5) (now : Clock) (b : Box) :
    servePacket l now packet b = (callUpsert now (info.luaArgs l callId nodeId) b).2 := by
  obtain ⟨hcall, hstrings⟩ := List.forall_mem_cons.1 hstrings
  obtain ⟨hnode, hinfo⟩ := List.forall_mem_cons.1 hstrings
  have hpacket : packet = frame (callHeader syncId (ascii "rtpe_call_upsert") 4 ++
      itemsBytes (upsertArgs callId nodeId info)) := by
    rw [packCallUpsert, hcallId, Option.map_some, Option.some.injEq] at hpack
    rw [← hpack, itemsBytes_upsertArgs]
    simp only [List.append_assoc, Option.getD_some]
  subst hpacket
  have hread := calledBy_of_readPacket (readPacket_upsert hsync hnode hcall hinfo hlen)
  have httl : (if 0 < info.ttlSec then info.ttlSec.toNat else 3600) < 10 ^ 14 := by
    have hlt := info.ttlSec.toNat_lt
    split_ifs <;> omega
  rw [servePacket, hread]
  simp only [if_true, serveUpsert, LuaArgs.at, CallInfo.luaArgs, List.getElem?_cons_zero,
    List.getElem?_cons_succ, Option.map_some, Option.getD_some, l.lua_str]
  rw [l.lua_int _ httl]

theorem serve_packCallDelete (l : LuaValues) (hsync : syncId < 2 ^ 64)
    (hpack : packCallDelete syncId (some callId) = some packet) (hcall : callId.length < 2 ^ 32)
    (hlen : packet.length < 2 ^ 32 + 5) (now : Clock) (b : Box) :
    servePacket l now packet b = (callDelete (.string callId) b).2 := by
  have hpacket : packet = frame (callHeader syncId (ascii "rtpe_call_delete") 1 ++
      itemsBytes [Msgpuck.strItem callId]) := by
    rw [packCallDelete, Option.map_some, Option.some.injEq] at hpack
    rw [← hpack, itemsBytes_cons, itemsBytes_nil, Msgpuck.bytes_strItem, List.append_nil, encodeStr,
      Nat.mod_eq_of_lt hcall, List.take_length]
  subst hpacket
  have hread := calledBy_of_readPacket (readPacket_delete hsync hcall hlen)
  have hother : ascii "rtpe_call_delete" ≠ ascii "rtpe_call_upsert" := by decide
  rw [servePacket, hread]
  simp only [if_neg hother, if_true, LuaArgs.at, List.getElem?_cons_zero, Option.map_some,
    Option.getD_some, l.lua_str]

end RtpEngine

end VoipBackend
