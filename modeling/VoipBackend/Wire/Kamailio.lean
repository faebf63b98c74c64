import VoipBackend.Wire.Connection

/-!
# The Kamailio driver

`tarantool_client.c`: one server of a worker process, with one connection.
`tnt_exec_call` and `tnt_exec_eval` send a request and read one frame; the driver never
compares the sync id of an answer.

The msgpack library and the functions of the Kamailio core are given from outside
(`Core`).
-/

namespace VoipBackend

open Library MsgPack

namespace Kamailio

/-! ## Records -/

/-- What the driver calls of the Kamailio core and of the msgpack library. -/
structure Core where
  /-- `base64_dec`, into a buffer of so many bytes. -/
  base64Dec : Bytes → ℕ → Bytes
  /-- `compute_sha1_raw`. -/
  computeSha1Raw : Bytes → Bytes
  /-- What the `msgpack_pack` functions write for a value. -/
  pack : Value → Bytes
  /-- `msgpack_unpack_next`: the value at the start, with the bytes behind it. -/
  unpackNext : Bytes → Option (Value × Bytes)
  /-- The member `via.u64` of a value, whatever its type is. -/
  viaU64 : Value → ℕ

/-- What the operations read of the settings of a `tnt_server_t`. -/
structure Config where
  user : Bytes
  pass : Bytes
  disableTime : ℤ
  allowedTimeouts : ℤ

/-- What the operations change of a `tnt_server_t`. -/
structure Server where
  fd : ℤ
  connected : Bool
  disabled : Bool
  consecutiveErrors : ℕ
  restoreTick : ℤ
  syncId : UInt64
  deriving DecidableEq

/-- A server as `tnt_child_init` prepares it in the worker process `rank`. -/
def Server.init (rank : ℕ) : Server := ⟨-1, false, false, 0, 0, UInt64.ofNat (rank * 1000000)⟩

/-- `tnt_conn_close`. -/
def tntConnClose (srv : Server) : Server :=
  { srv with fd := if 0 ≤ srv.fd then -1 else srv.fd, connected := false }

/-- `tnt_conn_fail`, at the time `now`. -/
def tntConnFail (config : Config) (now : ℤ) (srv : Server) : Server :=
  let srv := tntConnClose srv
  let srv := { srv with consecutiveErrors := srv.consecutiveErrors + 1 }
  if config.allowedTimeouts ≤ srv.consecutiveErrors then
    { srv with disabled := true, restoreTick := now + config.disableTime }
  else srv

/-! ## Packets -/

/-- The header map of a request. -/
def requestHeader (requestType syncId : ℕ) : Value :=
  .map [(.int iprotoRequestType, .int requestType), (.int iprotoSync, .int syncId)]

/-- The packet with this header and this body. -/
def packet (core : Core) (header body : Value) : Bytes := frame (core.pack header ++ core.pack body)

/-- The scramble of `tnt_auth_scramble`. -/
def scramble (core : Core) (pass rawSalt : Bytes) : Bytes :=
  let h1 := core.computeSha1Raw pass
  let h2 := core.computeSha1Raw h1
  let h3 := core.computeSha1Raw (rawSalt.take tntSha1DigestSize ++ h2)
  List.zipWith (· ^^^ ·) h1 h3

/-- The packet of `tnt_auth_scramble`. -/
def authPacket (core : Core) (config : Config) (rawSalt : Bytes) (syncId : ℕ) : Bytes :=
  packet core (requestHeader iprotoAuth syncId)
    (.map [(.int iprotoUserName, .str config.user),
      (.int iprotoTuple,
        .array [.str (ascii "chap-sha1"), .bin (scramble core config.pass rawSalt)])])

/-- A request: `tnt_exec_call` or `tnt_exec_eval` with its `params_json`. -/
inductive Request where
  | call (procName : Bytes) (paramsJson : Option Bytes)
  | eval (luaCode : Bytes) (paramsJson : Option Bytes)

/-- The arguments of a request: a text that starts with a bracket is not passed on. -/
def args (paramsJson : Option Bytes) : Value :=
  match paramsJson with
  | some (c :: text) => if c ≠ 0x5b then .array [.str (c :: text)] else .array []
  | _ => .array []

/-- The packet of a request. -/
def Request.pack (core : Core) (syncId : ℕ) : Request → Bytes
  | .call procName paramsJson =>
      packet core (requestHeader tntIprotoCall syncId)
        (.map [(.int iprotoFunctionName, .str procName), (.int iprotoTuple, args paramsJson)])
  | .eval luaCode paramsJson =>
      packet core (requestHeader iprotoEval syncId)
        (.map [(.int iprotoExpr, .str luaCode), (.int iprotoTuple, args paramsJson)])

/-! ## Connecting -/

/-- `tnt_auth_scramble`: what it returns, the packet it sends and the sync id it leaves. -/
def tntAuthScramble (core : Core) (config : Config) (saltB64 : Bytes) (syncId : UInt64)
    (peer : Peer) : ℤ × Option Bytes × UInt64 :=
  if config.user = [] then (0, none, syncId)
  else
    let rawSalt := core.base64Dec saltB64 64
    if rawSalt.length < tntSha1DigestSize then (-1, none, syncId)
    else
      let packet := authPacket core config rawSalt (syncId + 1).toNat
      if peer.takes = false then (-1, some packet, syncId + 1)
      else (awaitReply (fun s => (core.unpackNext s).map Prod.fst) peer, some packet, syncId + 1)

/-- What the calls of an operation return. -/
structure Net where
  dial : Dial
  /-- The exchange of the request. -/
  answer : Peer
  /-- `time(NULL)` when an error is registered. -/
  errorTime : ℤ

/-- A disabled server whose deadline has passed starts again. -/
def Server.rearm (srv : Server) : Server :=
  if srv.disabled then { srv with disabled := false, consecutiveErrors := 0 } else srv

/-- `tnt_conn_connect`. -/
def tntConnConnect (core : Core) (config : Config) (net : Net) (srv : Server) : Report × Server :=
  let d := net.dial
  let retried := srv.disabled
  let srv := tntConnClose srv
  if srv.disabled = true ∧ d.now < srv.restoreTick then
    (⟨.coolingDown, false, false, false, []⟩, srv)
  else
    let srv := { srv.rearm with fd := d.fd }
    if d.fd < 0 then (⟨.noSocket, retried, false, true, []⟩, srv)
    else if d.resolves = false then
      (⟨.unresolved, retried, false, true, []⟩, tntConnClose srv)
    else if d.connects = false then
      (⟨.connectFailed, retried, false, true, []⟩, tntConnFail config net.errorTime srv)
    else
      match recvAll d.greeting tntGreetingSize with
      | none => (⟨.greetingFailed, retried, false, true, []⟩, tntConnFail config net.errorTime srv)
      | some (greeting, _) =>
          let (rc, packet, syncId) :=
            tntAuthScramble core config (saltOf greeting) srv.syncId d.login
          let srv := { srv with syncId := syncId }
          if rc < 0 then
            (⟨.authFailed, retried, false, true, packet.toList⟩,
              tntConnFail config net.errorTime srv)
          else
            (⟨.completed, retried, true, true, packet.toList⟩,
              { srv with connected := true, consecutiveErrors := 0 })

/-- The connection a request works on: the one that is there, or a new one. -/
def getConnection (core : Core) (config : Config) (net : Net) (srv : Server) : Report × Server :=
  if srv.connected = false ∨ srv.fd < 0 then tntConnConnect core config net srv
  else (.usable, srv)

/-! ## Requests -/

/-- The loop over the entries of a map: the value of the last one with this key. -/
def lastValue (key : ℕ) (entries : List (Value × Value)) : Option Value :=
  entries.foldl
    (fun found e =>
      match e.1 with
      | .int k => if k = key then some e.2 else found
      | _ => found)
    none

/-- `resp_type` and, if it is `IPROTO_OK`, what `data_obj` points to. -/
def decodeReply (core : Core) (respBody : Bytes) : Option (Option Value) :=
  match core.unpackNext respBody with
  | some (.map header, rest) =>
      let respType := ((lastValue iprotoRequestType header).map core.viaU64).getD 0xff
      if respType ≠ iprotoOk then none
      else
        match core.unpackNext rest with
        | some (.map body, _) => some (lastValue iprotoData body)
        | _ => some none
  | _ => none

/-- What a request returns, the data it decoded, and what it leaves of the bytes that
arrived. -/
structure Result where
  rc : ℤ
  data : Option Value
  unread : Bytes

/-- A request that failed and closed its connection. -/
def Result.failed : Result := ⟨-1, none, []⟩

/-- The part `tnt_exec_call` and `tnt_exec_eval` share, once there is a connection. -/
def tntExec (core : Core) (config : Config) (net : Net) (req : Request) (r : Report)
    (srv : Server) : Report × Server × Result :=
  let srv := { srv with syncId := srv.syncId + 1 }
  let r := { r with sent := r.sent ++ [req.pack core srv.syncId.toNat] }
  if net.answer.takes = false then
    ({ r with exit := .sendFailed }, tntConnFail config net.errorTime srv, .failed)
  else
    match recvAll net.answer.sends 5 with
    | none => ({ r with exit := .receiveFailed }, tntConnFail config net.errorTime srv, .failed)
    | some (respHdr, s) =>
        if respHdr.head? ≠ some 0xce then
          ({ r with exit := .receiveFailed }, tntConnFail config net.errorTime srv, .failed)
        else
          let respLen := ofBigEndian (respHdr.drop 1)
          if 1048576 < respLen then
            ({ r with exit := .receiveFailed }, tntConnFail config net.errorTime srv, .failed)
          else if net.answer.calloc = false then ({ r with exit := .noMemory }, srv, ⟨-1, none, s⟩)
          else
            match recvAll s respLen with
            | none =>
                ({ r with exit := .receiveFailed }, tntConnFail config net.errorTime srv, .failed)
            | some (respBody, s) =>
                match decodeReply core respBody with
                | none => ({ r with exit := .refused }, srv, ⟨-1, none, s⟩)
                | some data =>
                    ({ r with exit := .completed }, { srv with consecutiveErrors := 0 },
                      ⟨1, data, s⟩)

/-- `tnt_exec_call` and `tnt_exec_eval`. -/
def request (core : Core) (config : Config) (net : Net) (req : Request) (srv : Server) :
    Report × Server × Result :=
  let (r, srv) := getConnection core config net srv
  if r.exit ≠ .completed then (r, srv, .failed) else tntExec core config net req r srv

/-! ## Operations -/

/-- An operation: a request, or the connection attempt `tnt_child_init` makes. -/
inductive Op where
  | request (net : Net) (req : Request)
  | connect (net : Net)

/-- What the calls of an operation return. -/
def Op.net : Op → Net
  | .request net _ => net
  | .connect net => net

/-- One operation. -/
def exec (core : Core) (config : Config) : Op → Server → Report × Server
  | .request net req, srv =>
      ((request core config net req srv).1, (request core config net req srv).2.1)
  | .connect net, srv => tntConnConnect core config net srv

/-- The time of the error an operation registers: `connect()`, the greeting, the login, and
what goes wrong on an established connection. -/
def registers (op : Op) : Exit → Option ℤ
  | .connectFailed => some op.net.errorTime
  | .greetingFailed => some op.net.errorTime
  | .authFailed => some op.net.errorTime
  | .sendFailed => some op.net.errorTime
  | .receiveFailed => some op.net.errorTime
  | _ => none

/-- A request that returns 1 sets the count back. -/
def clears : Op → Exit → Bool
  | .request _ _, .completed => true
  | _, _ => false

/-- What the record says of the connection. -/
def Server.view (srv : Server) : View where
  fd := srv.fd
  usable := srv.connected
  disabled := srv.disabled
  deadline := srv.restoreTick
  errors := srv.consecutiveErrors

/-- The driver. -/
abbrev driver (core : Core) (config : Config) : Driver where
  Conn := Server
  Op := Op
  exec := exec core config
  view := Server.view
  clock op := op.net.dial.now
  registers := registers
  clears := clears
  allowed := config.allowedTimeouts
  disableTime := config.disableTime

/-! ## What an operation does -/

variable {core : Core} {config : Config}

/-- A server that is closed and starts again, with a new descriptor. -/
theorem view_rearm (srv : Server) (fd : ℤ) :
    ({ (tntConnClose srv).rearm with fd := fd } : Server).view =
      { srv.view.rearm with fd := fd, usable := false } := by
  unfold Server.rearm View.rearm Server.view tntConnClose
  cases srv.disabled <;> simp

theorem fd_tntConnClose {srv : Server} (h : 0 ≤ srv.fd ∨ srv.fd = -1) :
    (tntConnClose srv).fd = -1 := by
  unfold tntConnClose
  rcases h with h | h <;> simp [h]

/-- A server that is not disabled registers an error. -/
theorem view_tntConnFail (now : ℤ) {srv : Server} {v : View} (hfd : 0 ≤ srv.fd ∨ srv.fd = -1)
    (henabled : srv.disabled = false) (herrors : srv.consecutiveErrors = v.errors)
    (hdeadline : srv.restoreTick = v.deadline) :
    (tntConnFail config now srv).view = v.fault (driver core config) now := by
  have hclose := fd_tntConnClose hfd
  have hcount : (tntConnClose srv).consecutiveErrors = srv.consecutiveErrors := rfl
  unfold tntConnFail View.fault Server.view
  rw [← herrors, ← hdeadline]
  simp only [hcount]
  split_ifs <;> simp only [hclose] <;> simp [tntConnClose, henabled]

/-- **Everything a connection attempt can do.**  It is refused before the deadline; there is no
socket, or the address is not numeric, which is not registered; it fails and the error is
registered; or the connection is established. -/
theorem tntConnConnect_cases (core : Core) (config : Config) (net : Net) (srv : Server) :
    (srv.disabled = true ∧ net.dial.now < srv.restoreTick ∧ tntConnConnect core config net srv =
        (⟨.coolingDown, false, false, false, []⟩, tntConnClose srv)) ∨
    ¬ (srv.disabled = true ∧ net.dial.now < srv.restoreTick) ∧
      ((∃ exit fd, (exit = .noSocket ∨ exit = .unresolved) ∧ fd < 0 ∧
          (tntConnConnect core config net srv).1 = ⟨exit, srv.disabled, false, true, []⟩ ∧
          (tntConnConnect core config net srv).2.view =
            { srv.view.rearm with fd := fd, usable := false }) ∨
        (∃ exit sent, (exit = .connectFailed ∨ exit = .greetingFailed ∨ exit = .authFailed) ∧
          (tntConnConnect core config net srv).1 = ⟨exit, srv.disabled, false, true, sent⟩ ∧
          (tntConnConnect core config net srv).2.view =
            srv.view.rearm.fault (driver core config) net.errorTime) ∨
        ∃ sent, 0 ≤ net.dial.fd ∧
          (tntConnConnect core config net srv).1 = ⟨.completed, srv.disabled, true, true, sent⟩ ∧
          (tntConnConnect core config net srv).2.view =
            ⟨net.dial.fd, true, false, srv.restoreTick, 0⟩) := by
  unfold tntConnConnect
  by_cases hcool : srv.disabled = true ∧ net.dial.now < srv.restoreTick
  · exact Or.inl ⟨hcool.1, hcool.2, if_pos hcool⟩
  refine Or.inr ⟨hcool, ?_⟩
  have hrearm := view_rearm srv net.dial.fd
  rw [View.mk.injEq] at hrearm
  obtain ⟨-, hclosed, hdisabled, hdeadline, herrors⟩ := hrearm
  have hfail : ∀ syncId, (tntConnFail config net.errorTime
      { (tntConnClose srv).rearm with fd := net.dial.fd, syncId := syncId }).view =
        srv.view.rearm.fault (driver core config) net.errorTime := by
    intro syncId
    exact view_tntConnFail net.errorTime (Dial.nonneg_or net.dial)
      (hdisabled.trans (disabled_rearm _)) herrors hdeadline
  have hcool' : ¬ ((tntConnClose srv).disabled = true ∧
      net.dial.now < (tntConnClose srv).restoreTick) := hcool
  simp only [if_neg hcool']
  by_cases hsocket : net.dial.fd < 0
  · simp only [if_pos hsocket]
    exact Or.inl ⟨_, _, Or.inl rfl, hsocket, rfl, view_rearm srv _⟩
  simp only [if_neg hsocket]
  by_cases hresolves : net.dial.resolves = false
  · simp only [if_pos hresolves]
    refine Or.inl ⟨_, -1, Or.inr rfl, by norm_num, rfl, ?_⟩
    have hclose : tntConnClose { (tntConnClose srv).rearm with fd := net.dial.fd } =
        { (tntConnClose srv).rearm with fd := -1 } := by
      have hfd : (if 0 ≤ net.dial.fd then -1 else net.dial.fd) = -1 := if_pos (not_lt.1 hsocket)
      have hconnected : (tntConnClose srv).rearm.connected = false := hclosed
      rw [Server.mk.injEq]
      exact ⟨hfd, hconnected.symm, rfl, rfl, rfl, rfl⟩
    rw [hclose]
    exact view_rearm srv _
  simp only [if_neg hresolves]
  by_cases hconnects : net.dial.connects = false
  · simp only [if_pos hconnects]
    exact Or.inr (Or.inl ⟨_, _, Or.inl rfl, rfl, hfail _⟩)
  simp only [if_neg hconnects]
  cases recvAll net.dial.greeting tntGreetingSize with
  | none => exact Or.inr (Or.inl ⟨_, _, Or.inr (Or.inl rfl), rfl, hfail _⟩)
  | some g =>
    simp only
    split_ifs
    · exact Or.inr (Or.inl ⟨_, _, Or.inr (Or.inr rfl), rfl, hfail _⟩)
    · refine Or.inr (Or.inr ⟨_, not_lt.1 hsocket, rfl, ?_⟩)
      rw [View.mk.injEq]
      exact ⟨rfl, rfl, hdisabled.trans (disabled_rearm _), hdeadline.trans (deadline_rearm _), rfl⟩

/-- A connection attempt fails, and that is a move whatever it is for, or it establishes the
connection. -/
theorem tntConnConnect_moves (core : Core) (config : Config) {net : Net} (op : Op)
    (hnet : op.net = net) {srv : Server} (hsrv : srv.view.Sound) :
    ((tntConnConnect core config net srv).1.exit ≠ .completed ∧
      Moves (driver core config) op srv.view (tntConnConnect core config net srv).1
        (tntConnConnect core config net srv).2.view) ∨
    ∃ retried established opened sent, (tntConnConnect core config net srv).1 =
        ⟨.completed, retried, established, opened, sent⟩ ∧
      Gets (driver core config) op srv.view retried established opened
        (tntConnConnect core config net srv).2.view := by
  subst hnet
  rcases tntConnConnect_cases core config op.net srv with ⟨hdisabled, hnow, heq⟩ | ⟨hcool, hrest⟩
  · -- closing the connection of a disabled server changes nothing
    have hview : (tntConnClose srv).view = srv.view := by
      have hconnected : srv.connected = false := hsrv.not_usable hdisabled
      have hfd : ¬ 0 ≤ srv.fd := fun hfd => by
        have husable : srv.connected = true := hsrv.usable_iff.2 hfd
        rw [hconnected] at husable
        cases husable
      rw [View.mk.injEq]
      exact ⟨if_neg hfd, hconnected.symm, rfl, rfl, rfl⟩
    rw [heq, hview]
    exact Or.inl ⟨by simp, .idle rfl (by cases op <;> rfl)⟩
  have hcooling : ¬ srv.view.Cooling (driver core config) op := hcool
  rcases hrest with ⟨exit, fd, hexit, hfd, hreport, hview⟩ |
    ⟨exit, sent, hexit, hreport, hview⟩ | ⟨sent, hfd, hreport, hview⟩
  · rw [hreport, hview]
    refine Or.inl ⟨?_, .down hcooling hfd ?_ ?_⟩
    · rcases hexit with rfl | rfl <;> simp
    · rcases hexit with rfl | rfl <;> rfl
    · rcases hexit with rfl | rfl <;> cases op <;> rfl
  · rw [hreport, hview]
    refine Or.inl ⟨?_, .unreachable hcooling ?_ ?_⟩
    · rcases hexit with rfl | rfl | rfl <;> simp
    · rcases hexit with rfl | rfl | rfl <;> rfl
    · rcases hexit with rfl | rfl | rfl <;> cases op <;> rfl
  · refine Or.inr ⟨_, _, _, sent, hreport, ?_⟩
    rw [hview]
    exact .established hcooling hfd

/-- **Getting a connection.**  It cannot be had, or it is there. -/
theorem getConnection_moves (core : Core) (config : Config) {net : Net} (op : Op)
    (hnet : op.net = net) {srv : Server} (hsrv : srv.view.Sound) :
    ((getConnection core config net srv).1.exit ≠ .completed ∧
      Moves (driver core config) op srv.view (getConnection core config net srv).1
        (getConnection core config net srv).2.view) ∨
    ∃ retried established opened sent, (getConnection core config net srv).1 =
        ⟨.completed, retried, established, opened, sent⟩ ∧
      Gets (driver core config) op srv.view retried established opened
        (getConnection core config net srv).2.view := by
  unfold getConnection
  split_ifs with hdown
  · exact tntConnConnect_moves core config op hnet hsrv
  · push Not at hdown
    have hconnected : srv.connected = true := by simpa using hdown.1
    exact Or.inr ⟨_, _, _, _, rfl, .usable hconnected⟩

/-- The length of a frame is at the start of `sends`, with the bytes `s` behind it. -/
def Opens (sends : Bytes) (respLen : ℕ) (s : Bytes) : Prop :=
  ∃ respHdr, recvAll sends 5 = some (respHdr, s) ∧ respHdr.head? = some 0xce ∧
    ofBigEndian (respHdr.drop 1) = respLen

/-- **Everything a request can do with the connection it got.**  It registers an error; there
is no memory for the body, which stays where it is; or it reads one frame and decodes it. -/
theorem tntExec_cases (core : Core) (config : Config) (net : Net) (req : Request) (r : Report)
    (srv : Server) : ∃ sent,
    (∃ exit, (exit = .sendFailed ∨ exit = .receiveFailed) ∧ tntExec core config net req r srv =
        (⟨exit, r.retried, r.established, r.opened, sent⟩,
          tntConnFail config net.errorTime { srv with syncId := srv.syncId + 1 }, .failed)) ∨
    ∃ respLen s, Opens net.answer.sends respLen s ∧
      (tntExec core config net req r srv =
          (⟨.noMemory, r.retried, r.established, r.opened, sent⟩,
            { srv with syncId := srv.syncId + 1 }, ⟨-1, none, s⟩) ∨
        ∃ respBody rest, recvAll s respLen = some (respBody, rest) ∧
          ((decodeReply core respBody = none ∧ tntExec core config net req r srv =
              (⟨.refused, r.retried, r.established, r.opened, sent⟩,
                { srv with syncId := srv.syncId + 1 }, ⟨-1, none, rest⟩)) ∨
            ∃ data, decodeReply core respBody = some data ∧ tntExec core config net req r srv =
              (⟨.completed, r.retried, r.established, r.opened, sent⟩,
                { srv with syncId := srv.syncId + 1, consecutiveErrors := 0 },
                ⟨1, data, rest⟩))) := by
  refine ⟨r.sent ++ [req.pack core (srv.syncId + 1).toNat], ?_⟩
  unfold tntExec
  by_cases htakes : net.answer.takes = false
  · simp only [if_pos htakes]
    exact Or.inl ⟨_, Or.inl rfl, rfl⟩
  simp only [if_neg htakes]
  cases hhdr : recvAll net.answer.sends 5 with
  | none => exact Or.inl ⟨_, Or.inr rfl, rfl⟩
  | some hdr =>
    obtain ⟨respHdr, s⟩ := hdr
    by_cases htag : respHdr.head? ≠ some 0xce
    · simp only [if_pos htag]
      exact Or.inl ⟨_, Or.inr rfl, rfl⟩
    have hopens : Opens net.answer.sends (ofBigEndian (respHdr.drop 1)) s :=
      ⟨respHdr, hhdr, not_not.1 htag, rfl⟩
    simp only [if_neg htag]
    by_cases hlarge : 1048576 < ofBigEndian (respHdr.drop 1)
    · simp only [if_pos hlarge]
      exact Or.inl ⟨_, Or.inr rfl, rfl⟩
    simp only [if_neg hlarge]
    by_cases hcalloc : net.answer.calloc = false
    · simp only [if_pos hcalloc]
      exact Or.inr ⟨_, s, hopens, Or.inl rfl⟩
    simp only [if_neg hcalloc]
    cases hbody : recvAll s (ofBigEndian (respHdr.drop 1)) with
    | none => exact Or.inl ⟨_, Or.inr rfl, rfl⟩
    | some body =>
      obtain ⟨respBody, rest⟩ := body
      refine Or.inr ⟨_, s, hopens, Or.inr ⟨respBody, rest, hbody, ?_⟩⟩
      cases hdata : decodeReply core respBody with
      | none => exact Or.inl ⟨rfl, by simp only [hdata]⟩
      | some data => exact Or.inr ⟨data, rfl, by simp only [hdata]⟩

theorem uses_tntExec (core : Core) (config : Config) (net : Net) (req : Request) (r : Report)
    {srv : Server} (hsrv : srv.view.Sound) (hconnected : srv.connected = true) :
    ∃ exit sent, (tntExec core config net req r srv).1 =
        ⟨exit, r.retried, r.established, r.opened, sent⟩ ∧
      Uses (driver core config) (.request net req) srv.view exit
        (tntExec core config net req r srv).2.1.view := by
  obtain ⟨sent, ⟨exit, hexit, heq⟩ | ⟨respLen, s, -, heq | ⟨respBody, rest, -, ⟨-, heq⟩ |
    ⟨data, -, heq⟩⟩⟩⟩ := tntExec_cases core config net req r srv
  · have hfail : (tntConnFail config net.errorTime { srv with syncId := srv.syncId + 1 }).view =
        srv.view.fault (driver core config) net.errorTime :=
      view_tntConnFail net.errorTime (Or.inl (hsrv.usable_iff.1 hconnected))
        (hsrv.enabled hconnected) rfl rfl
    rw [heq]
    refine ⟨exit, sent, rfl, ?_⟩
    simp only [hfail]
    rcases hexit with rfl | rfl <;> exact .failed rfl rfl
  · rw [heq]
    exact ⟨_, _, rfl, .kept rfl rfl⟩
  · rw [heq]
    exact ⟨_, _, rfl, .kept rfl rfl⟩
  · rw [heq]
    exact ⟨_, _, rfl, .cleared rfl rfl⟩

theorem moves_request (net : Net) (req : Request) {srv : Server} (hsrv : srv.view.Sound) :
    Moves (driver core config) (.request net req) srv.view (request core config net req srv).1
      (request core config net req srv).2.1.view := by
  unfold request
  simp only
  rcases getConnection_moves core config (.request net req) (Eq.refl net) hsrv with
    ⟨hexit, hmoves⟩ | ⟨retried, established, opened, sent, hreport, hgets⟩
  · rw [if_pos hexit]
    exact hmoves
  · obtain ⟨hsound, husable⟩ := hgets.sound hsrv
    obtain ⟨exit, sent', hexec, huses⟩ := uses_tntExec core config net req
      (getConnection core config net srv).1 hsound husable
    rw [if_neg (by rw [hreport]; simp)]
    rw [hreport] at hexec huses ⊢
    rw [hexec]
    exact .used hgets huses

/-- **The driver is disciplined.** -/
theorem disciplined (core : Core) (config : Config) : (driver core config).Disciplined := by
  intro op srv hsrv
  cases op with
  | connect net =>
    rcases tntConnConnect_moves core config (.connect net) (Eq.refl net) hsrv with
      ⟨-, hmoves⟩ | ⟨retried, established, opened, sent, hreport, hgets⟩
    · exact hmoves
    · show Moves _ _ _ (tntConnConnect core config net srv).1 _
      rw [hreport]
      exact .used hgets (.kept rfl rfl)
  | request net req => exact moves_request net req hsrv

/-- A server of a new worker process. -/
theorem sound_init (rank : ℕ) : (Server.init rank).view.Sound :=
  ⟨by simp [Server.view, Server.init], by simp [Server.view, Server.init]⟩

end Kamailio

end VoipBackend
