import VoipBackend.Lib.Json

/-!
# The texts of the arguments

`res_config_tarantool.c` and `cdr_tarantool.c` hand their arguments to a procedure as the text of a
JSON array, which they write piece by piece into a buffer with `snprintf`.  Strings are C strings,
without their NUL; `\x7b` and `\x7d` are the braces.

A piece that does not fit is cut off.  A position behind the buffer, or a piece of 2 GiB, of which
`snprintf` cannot return the length, has no result here.
-/

namespace VoipBackend

open Library

namespace Asterisk

/-- A field of a row, `struct ast_variable`. -/
structure Variable where
  name : Bytes
  value : Bytes
  deriving DecidableEq

/-- The text in a buffer, and the position of the next piece. -/
structure Buffer where
  text : Bytes
  off : ℕ
  deriving DecidableEq

/-- `snprintf(buf + off, size - off, piece)`: the text then, and the length of the piece. -/
def snprintf (size : ℕ) (b : Buffer) (piece : Bytes) : Option (Bytes × ℕ) :=
  if size < b.off ∨ 2 ^ 31 ≤ piece.length then none
  else if b.off = size then some (b.text, piece.length)
  else some (b.text.take b.off ++ piece.take (size - b.off - 1), piece.length)

/-- `off += snprintf(..)`. -/
def append (size : ℕ) (b : Buffer) (piece : Bytes) : Option Buffer :=
  (snprintf size b piece).map fun (text, n) => ⟨text, b.off + n⟩

/-- A string in quotes; nothing in it is escaped. -/
def quoted (s : Bytes) : Bytes := ascii "\"" ++ s ++ ascii "\""

/-- `"\"%s\":\"%s\"%s"`, with a comma before another field. -/
def fieldPiece (f : Variable) (next : List Variable) : Bytes :=
  quoted f.name ++ ascii ":" ++ quoted f.value ++ if next = [] then [] else ascii ","

/-- The loop over the fields: it ends at a piece that does not fit. -/
def appendFields (size : ℕ) : Buffer → List Variable → Option Buffer
  | b, [] => some b
  | b, f :: next => do
      let (text, n) ← snprintf size b (fieldPiece f next)
      if size - b.off ≤ n then some ⟨text, b.off⟩
      else appendFields size ⟨text, b.off + n⟩ next

/-- What the function does: it returns without a request, or it calls the procedure. -/
inductive Sends where
  | nothing
  | call (proc : Bytes) (json : Bytes)
  deriving DecidableEq

/-- `sizeof(json_args)` of `realtime_tarantool`. -/
def realtimeSize : ℕ := 1024

/-- `sizeof(json_args)` of `update_tarantool`, `update2_tarantool`, `store_tarantool` and
`tarantool_cdr_log`. -/
def jsonSize : ℕ := 2048

/-- `sizeof(json_args)` of `destroy_tarantool`. -/
def destroySize : ℕ := 512

/-- `"[\"%s\", \"%s\", \"%s\"]"`. -/
def threeStrings (a b c : Bytes) : Bytes :=
  ascii "[" ++ quoted a ++ ascii ", " ++ quoted b ++ ascii ", " ++ quoted c ++ ascii "]"

/-- The request of `realtime_tarantool`: it asks for the first field. -/
def realtimeRequest (table : Bytes) : List Variable → Option Sends
  | [] => some .nothing
  | f :: _ => do
      let (text, n) ← snprintf realtimeSize ⟨[], 0⟩ (threeStrings table f.name f.value)
      if realtimeSize ≤ n then some .nothing
      else some (.call (ascii "ast_realtime_get") text)

/-- `update_tarantool`. -/
def updateTarantool (table keyfield entity : Bytes) (fields : List Variable) : Option Sends :=
  if fields = [] then some .nothing
  else do
    let b ← append jsonSize ⟨[], 0⟩ (ascii "[" ++ quoted table ++ ascii ", " ++ quoted keyfield ++
      ascii ", " ++ quoted entity ++ ascii ", \x7b")
    let b ← appendFields jsonSize b fields
    let (text, _) ← snprintf jsonSize b (ascii "\x7d]")
    some (.call (ascii "ast_realtime_update") text)

/-- `update2_tarantool`. -/
def update2Tarantool (table : Bytes) (lookupFields updateFields : List Variable) : Option Sends :=
  if lookupFields = [] ∨ updateFields = [] then some .nothing
  else do
    let b ← append jsonSize ⟨[], 0⟩ (ascii "[" ++ quoted table ++ ascii ", \x7b")
    let b ← appendFields jsonSize b lookupFields
    let b ← append jsonSize b (ascii "\x7d, \x7b")
    let b ← appendFields jsonSize b updateFields
    let (text, _) ← snprintf jsonSize b (ascii "\x7d]")
    some (.call (ascii "ast_realtime_update2") text)

/-- `store_tarantool`. -/
def storeTarantool (table : Bytes) (fields : List Variable) : Option Sends :=
  if fields = [] then some .nothing
  else do
    let b ← append jsonSize ⟨[], 0⟩ (ascii "[" ++ quoted table ++ ascii ", \x7b")
    let b ← appendFields jsonSize b fields
    let (text, _) ← snprintf jsonSize b (ascii "\x7d]")
    some (.call (ascii "ast_realtime_store") text)

/-- `destroy_tarantool`: the fields are not looked at. -/
def destroyTarantool (table keyfield entity : Bytes) (_fields : List Variable) : Option Sends := do
  let (text, _) ← snprintf destroySize ⟨[], 0⟩ (threeStrings table keyfield entity)
  some (.call (ascii "ast_realtime_destroy") text)

/-! ## Call detail records -/

/-- A point in time, `struct timeval`. -/
structure Timeval where
  sec : Int64
  usec : ℕ
  usec_lt : usec < 1000000

/-- What `tarantool_cdr_log` writes of a record, the disposition as the `int` it is written as.  The
end of the call is formatted too, and not used. -/
structure Cdr where
  uniqueid : Bytes
  accountcode : Bytes
  src : Bytes
  dst : Bytes
  dcontext : Bytes
  clid : Bytes
  channel : Bytes
  dstchannel : Bytes
  lastapp : Bytes
  lastdata : Bytes
  start : Timeval
  answer : Timeval
  duration : Int64
  billsec : Int64
  disposition : Int32
  userfield : Bytes

/-- The settings of the module. -/
structure CdrConfig where
  logUniqueid : Bool
  spaceName : Bytes

/-- `%06ld`. -/
def sixDigits (n : ℕ) : Bytes :=
  List.replicate (6 - (Json.decimal n).length) 0x30 ++ Json.decimal n

/-- A time as text, without the limit of its buffer. -/
def timeString (tv : Timeval) : Bytes :=
  if 0 < tv.sec then Json.decimal tv.sec.toInt.toNat ++ ascii "." ++ sixDigits tv.usec else []

/-- `start_str`, `ans_str`: at most 31 bytes. -/
def timeText (tv : Timeval) : Bytes := (timeString tv).take 31

/-- Arguments with commas between them. -/
def commas : List Bytes → Bytes
  | [] => []
  | [a] => a
  | a :: b :: rest => a ++ ascii ", " ++ commas (b :: rest)

/-- The text of the arguments of `ast_cdr_save`. -/
def cdrText (config : CdrConfig) (cdr : Cdr) : Bytes :=
  ascii "[" ++ commas [quoted (if config.logUniqueid then cdr.uniqueid else []),
    quoted cdr.accountcode, quoted cdr.src, quoted cdr.dst, quoted cdr.dcontext, quoted cdr.clid,
    quoted cdr.channel, quoted cdr.dstchannel, quoted cdr.lastapp, quoted cdr.lastdata,
    quoted (timeText cdr.start), quoted (timeText cdr.answer), Json.decimalInt cdr.duration.toInt,
    Json.decimalInt cdr.billsec.toInt, Json.decimalInt cdr.disposition.toInt, quoted cdr.userfield,
    quoted config.spaceName] ++ ascii "]"

/-- `tarantool_cdr_log`. -/
def tarantoolCdrLog (config : CdrConfig) (cdr : Cdr) : Option Sends := do
  let (text, _) ← snprintf jsonSize ⟨[], 0⟩ (cdrText config cdr)
  some (.call (ascii "ast_cdr_save") text)

end Asterisk

end VoipBackend
