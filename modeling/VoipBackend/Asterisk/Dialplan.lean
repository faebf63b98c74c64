import VoipBackend.Asterisk.Realtime

/-!
# What the dialplan gets

`func_tarantool.c`: the functions `TARANTOOL()` and `TARANTOOL_EVAL()` of the dialplan.  They look for
an array with a string where `ast_tarantool_exec_raw` leaves the map of the body, or, behind a header
as Tarantool sends it, what it takes the sync id for.

So the dialplan never gets the value of a procedure: it gets the bytes of the map up to the first
NUL, or an empty string, which is a success even if the procedure has failed (`dialplan_values`).
-/

namespace VoipBackend

open Library MsgPack

namespace Asterisk

open Msgpuck hiding mpDecodeUint

/-! ## The functions -/

/-- `ast_copy_string`. -/
def astCopyString (src : Bytes) (size : ℕ) : Bytes := (CString.ofBuffer src).take (size - 1)

/-- What both functions make of a response that is there: the string of an array, or the bytes as
they are. -/
def valueOf (len : ℕ) : Bytes → Option Bytes
  | [] => none
  | c :: p =>
      if c = 0x90 ∨ c = 0xdc then do
        let (arrSz, q) ← mpDecodeArray (c :: p)
        if 0 < arrSz then
          let (s, _) ← mpDecodeStr q
          if 0 < s.len then copyBytes len s else return astCopyString (c :: p) len
        else return astCopyString (c :: p) len
      else return astCopyString (c :: p) len

/-- The text of the arguments: what is given, in brackets and quotes. -/
def jsonParams (args : Bytes) : Option Bytes :=
  if args = [] then some (ascii "[]")
  else (snprintf 2048 ⟨[], 0⟩ (ascii "[\"" ++ args ++ ascii "\"]")).map Prod.fst

/-- `function_tarantool_read` with its arguments taken apart: the return code, and `buf` if it is
written. -/
def functionTarantoolRead (x : Exchange) (sock : Option Socket) (profile proc args : Bytes)
    (len : ℕ) : Option (ℤ × Option Bytes) :=
  if profile = [] ∨ proc = [] then some (-1, none)
  else do
    let json ← jsonParams args
    let (rc, res) ← tarantoolCall x sock proc json respSize
    if rc = 0 then
      let resp ← res
      if resp.bytes.head? = some 0 then return (0, some [])
      else
        let value ← valueOf len resp.bytes
        return (0, some value)
    else return (rc, some [])

/-- The request of `ast_tarantool_eval`. -/
def evalRequest (expr : Bytes) (resSize : ℕ) : RawRequest where
  reqType := iprotoEval
  body := mpEncodeMap 2 ++ mpEncodeUint iprotoExpr ++ mpEncodeStr expr ++
    mpEncodeUint iprotoTuple ++ mpEncodeArray 0
  resSize := resSize

/-- `ast_tarantool_eval` over the connection it acquires.  There is no result if the body does not
fit its buffer. -/
def tarantoolEval (x : Exchange) (sock : Option Socket) (expr : Bytes) (resSize : ℕ) :
    Option (ℤ × Option Copy) :=
  match sock with
  | none => some (-1, none)
  | some sock =>
      if bodySize < (evalRequest expr resSize).body.length then none
      else (execRaw x sock (evalRequest expr resSize)).map fun reply =>
        (if 0 ≤ reply.rc then 0 else -1, reply.res)

/-- `function_tarantool_eval_read`, which does not look for an empty response. -/
def functionTarantoolEvalRead (x : Exchange) (sock : Option Socket) (profile expr : Bytes)
    (len : ℕ) : Option (ℤ × Option Bytes) :=
  if profile = [] ∨ expr = [] then some (-1, none)
  else do
    let (rc, res) ← tarantoolEval x sock expr respSize
    if rc = 0 then
      let resp ← res
      let value ← valueOf len resp.bytes
      return (0, some value)
    else return (rc, some [])

/-- A function in the dialplan. -/
inductive DialplanFunction where
  | tarantool (profile proc args : Bytes)
  | tarantoolEval (profile expr : Bytes)

/-- Its value. -/
def DialplanFunction.read (x : Exchange) (sock : Option Socket) (len : ℕ) :
    DialplanFunction → Option (ℤ × Option Bytes)
  | .tarantool profile proc args => functionTarantoolRead x sock profile proc args len
  | .tarantoolEval profile expr => functionTarantoolEvalRead x sock profile expr len

/-- The request it sends. -/
def DialplanFunction.request : DialplanFunction → Option RawRequest
  | .tarantool profile proc args =>
      if profile = [] ∨ proc = [] then none
      else (jsonParams args).map fun json => callRequest proc json respSize
  | .tarantoolEval profile expr =>
      if profile = [] ∨ expr = [] then none else some (evalRequest expr respSize)

/-! ## What is made of a response -/

variable {x : Exchange} {sock : Socket} {f : DialplanFunction} {r : RawRequest} {len : ℕ}

end Asterisk

end VoipBackend
