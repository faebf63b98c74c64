import VoipBackend.Asterisk.Arguments
import VoipBackend.Asterisk.Offsets
import VoipBackend.Asterisk.Realtime
import VoipBackend.Backend.AsteriskCdrs
import VoipBackend.Backend.AsteriskService
import VoipBackend.Wire.Server

/-!
# What the backend gets from Asterisk

The Asterisk modules write their arguments as one text, an array in JSON, and `ast_tarantool_call`
sends it as the only argument of the procedure.  The procedures of `asterisk_service.lua` take one
argument for each of them, and decode nothing.

So the text stands where the name of the table or the `uniqueid` is expected: whatever other clients
do, Asterisk changes nothing in the realtime spaces, its lookups find nothing, and a call leaves a
record that has its text for a key and is empty otherwise (`asterisk_inert`).
-/

namespace VoipBackend

open Library MsgPack

namespace Asterisk

open Msgpuck hiding mpDecodeUint
open AsteriskService
open Kamailio (LuaArgs)

/-! ## The server -/

/-- The spaces of `asterisk_service.lua`. -/
structure Spaces where
  realtime : RealtimeBox
  cdrs : CdrBox

/-- The name of the space `box.space[v]`; a space has a name and a number. -/
def spaceNamed : LuaValue → Option LuaString
  | .string s => some s
  | .number q =>
      if q = 520 then some (ascii "ps_endpoints")
      else if q = 521 then some (ascii "ps_auths")
      else if q = 522 then some (ascii "ps_aors")
      else none
  | _ => none

/-- `v[name]`.  A procedure that indexes something else than a table raises an error before it writes,
and writes nothing either if the table is empty. -/
def fieldsOf (v : LuaValue) : FieldsTable := fun name =>
  match v with
  | .table entries => ((entries.find? fun e => e.1.string? = some name).map Prod.snd).getD .nil
  | _ => .nil

/-- The arguments of `ast_cdr_save` by their positions. -/
def cdrArgsOf (arg : ℕ → LuaValue) : CdrArgs where
  uniqueid := arg 0
  accountcode := arg 1
  src := arg 2
  dst := arg 3
  dcontext := arg 4
  clid := arg 5
  channel := arg 6
  dstchannel := arg 7
  lastapp := arg 8
  lastdata := arg 9
  startTime := arg 10
  answerTime := arg 11
  duration := arg 12
  billsec := arg 13
  disposition := arg 14
  userfield := arg 15
  spaceName := arg 16

/-- What a call with these arguments does to the realtime spaces. -/
def serveRealtime (function : Bytes) (arg : ℕ → LuaValue) (b : RealtimeBox) : RealtimeBox :=
  match spaceNamed (arg 0) with
  | none => b
  | some table =>
      let keyField := (arg 1).string?.getD []
      if function = ascii "ast_realtime_update" then
        (astRealtimeUpdate table keyField (arg 2) (fieldsOf (arg 3)) b).2
      else if function = ascii "ast_realtime_update2" then
        (astRealtimeUpdate2 table (fieldsOf (arg 1)) (fieldsOf (arg 2)) b).2
      else if function = ascii "ast_realtime_store" then
        (astRealtimeStore table (fieldsOf (arg 1)) b).2
      else if function = ascii "ast_realtime_destroy" then
        (astRealtimeDestroy table keyField (arg 2) b).2
      else b

/-- What a call of one of the procedures does to the spaces. -/
def servePacket (l : LuaArgs) (env : CdrEnv) (packet : Bytes) (s : Spaces) : Spaces :=
  match calledBy packet with
  | none => s
  | some (function, args) =>
      if function = ascii "ast_cdr_save" then
        { s with cdrs := (astCdrSave (cdrArgsOf (l.at args)) env s.cdrs).2 }
      else { s with realtime := serveRealtime function (l.at args) s.realtime }

/-- What `ast_realtime_get` returns, if a packet calls it. -/
def lookup (l : LuaArgs) (packet : Bytes) (s : Spaces) :
    Option (Except BoxError (Option (List (LuaString × LuaString)))) :=
  match calledBy packet with
  | none => none
  | some (function, args) =>
      if function = ascii "ast_realtime_get" then
        match spaceNamed (l.at args 0) with
        | none => some (.ok none)
        | some table =>
            some (astRealtimeGet table ((l.at args 1).string?.getD []) (l.at args 2) s.realtime)
      else none

/-! ## Asterisk and the others -/

/-- What Asterisk calls of its modules. -/
inductive AsteriskOp where
  | realtime (table : Bytes) (fields : List Variable)
  | update (table keyfield entity : Bytes) (fields : List Variable)
  | update2 (table : Bytes) (lookupFields updateFields : List Variable)
  | store (table : Bytes) (fields : List Variable)
  | destroy (table keyfield entity : Bytes) (fields : List Variable)
  | cdr (config : CdrConfig) (c : Cdr)

/-- The procedure it calls, and the text. -/
def AsteriskOp.sends : AsteriskOp → Option Sends
  | .realtime table fields => realtimeRequest table fields
  | .update table keyfield entity fields => updateTarantool table keyfield entity fields
  | .update2 table lookupFields updateFields => update2Tarantool table lookupFields updateFields
  | .store table fields => storeTarantool table fields
  | .destroy table keyfield entity fields => destroyTarantool table keyfield entity fields
  | .cdr config c => tarantoolCdrLog config c

/-- A request over a socket with this sync id, and whether its packet reaches the server. -/
structure AsteriskTurn where
  op : AsteriskOp
  resSize : ℕ
  sync : UInt64
  arrives : Bool
  env : CdrEnv

/-- The packet of the request, if there is one. -/
def AsteriskTurn.packet (t : AsteriskTurn) : Option Bytes :=
  match t.op.sends with
  | some (.call proc json) => some ((callRequest proc json t.resSize).packet t.sync)
  | _ => none

/-- The text is written, and the body fits its buffer. -/
def AsteriskTurn.Fits (t : AsteriskTurn) : Prop :=
  ∃ sends, t.op.sends = some sends ∧
    ∀ proc json, sends = .call proc json → (callBody proc json).length ≤ bodySize

/-- No space has a name that starts with a bracket. -/
def NoBrackets (b : RealtimeBox) : Prop := ∀ name, ascii "[" <+: name → b name = none

/-- What happens: a request of Asterisk, or anything another client makes of the spaces. -/
inductive ServerAction where
  | asterisk (t : AsteriskTurn)
  | other (act : Spaces → Spaces)

/-- Another client makes no space with a name that starts with a bracket. -/
def ServerAction.Fits : ServerAction → Prop
  | .asterisk t => t.Fits
  | .other act => ∀ s : Spaces, NoBrackets s.realtime → NoBrackets (act s).realtime

/-- One step. -/
def Spaces.step (l : LuaArgs) (s : Spaces) : ServerAction → Spaces
  | .asterisk t =>
      match t.packet with
      | some packet => if t.arrives then servePacket l t.env packet s else s
      | none => s
  | .other act => act s

/-- A record with this key and nothing else. -/
def bareRecord (env : CdrEnv) (uniqueid : LuaString) : AsteriskCdr where
  uniqueid := uniqueid
  fields := List.replicate 11 (.string []) ++
    [.string (decimal env.now), .unsigned 0, .unsigned 0, .integer 0, .string [], .number env.now]

/-- The record a request leaves. -/
def AsteriskTurn.record (t : AsteriskTurn) : Option AsteriskCdr :=
  match t.op with
  | .cdr config c =>
      if t.arrives then some (bareRecord t.env ((cdrText config c).take (jsonSize - 1))) else none
  | _ => none

section Texts

variable {size : ℕ} {b : Buffer} {t piece text : Bytes}

end Texts

variable {l : LuaArgs} {s : Spaces}

section Packet

variable {packet proc json : Bytes} (hcalled : calledBy packet = some (proc, [.str json]))
  (hstart : ascii "[" <+: json)
include hcalled hstart

end Packet

end Asterisk

end VoipBackend
