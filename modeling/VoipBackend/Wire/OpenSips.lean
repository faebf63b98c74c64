import VoipBackend.Wire.Connection

/-!
# The OpenSIPS driver

`cachedb_tarantool_dbase.c`: the connections of a cluster handle and the requests made
over them.  Every request goes the same way: get a connection, send a packet, read a
frame, look at its header.  What `tarantool_get` then decodes does not touch the
connection and is not part of this file.

A `tnt_single_conn_t` is the record `Conn`; `space_id`, which the connections of a pool
share, is given from outside and handed on.  The buffers the packets are built in are
taken to be large enough, and a header that is read beyond its end (`none`) may give any
verdict.
-/

namespace VoipBackend

open Library

namespace OpenSips

open Msgpuck

/-! ## Records -/

/-- `tnt_conn_state_t`. -/
inductive ConnState where
  | disconnected
  | connecting
  | connected
  | authenticated
  | error
  | disabled
  deriving DecidableEq

/-- `tnt_single_conn_t`; nothing reads `last_activity`. -/
structure Conn where
  sockFd : ℤ
  state : ConnState
  syncCounter : UInt64
  disabledUntil : ℤ
  consecutiveErrors : ℕ
  deriving DecidableEq

/-- What the connections read of their `tnt_cluster_con_t`. -/
structure Cluster where
  user : Bytes
  pass : Bytes
  space : Bytes
  disableTimeSec : ℤ
  allowedErrors : ℤ

/-- A connection as `tnt_setup_pool` makes it. -/
def Conn.init : Conn := ⟨-1, .disconnected, 0, 0, 0⟩

/-- `tnt_conn_error`, at the time `now`. -/
def Conn.fail (tcon : Cluster) (now : ℤ) (c : Conn) : Conn :=
  if tcon.allowedErrors ≤ (c.consecutiveErrors + 1 : ℕ) then
    { c with
      sockFd := -1
      state := .disabled
      consecutiveErrors := c.consecutiveErrors + 1
      disabledUntil := now + tcon.disableTimeSec }
  else
    { c with sockFd := -1, state := .error, consecutiveErrors := c.consecutiveErrors + 1 }

/-! ## Frames -/

/-- `tnt_read_frame`: the body of the frame that arrives.  A body that does not fit the
buffer of `cap` bytes needs memory. -/
def tntReadFrame (peer : Peer) (cap : ℕ) : Option Bytes := do
  let (pfx, s) ← recvAll peer.sends 5
  if pfx.head? ≠ some 0xce then none
  else
    let blen := ofBigEndian (pfx.drop 1)
    if blen = 0 ∨ 16 * 1024 * 1024 < blen then none
    else if cap < blen ∧ peer.calloc = false then none
    else
      let (body, _) ← recvAll s blen
      return body

/-- The loop of `check_iproto_status` over the entries of the header. -/
def statusLoop (wantSync : ℕ) : ℕ → Bytes → Option ℤ
  | 0, _ => some 0
  | _ + 1, [] => some 0
  | entries + 1, p@(_ :: _) => do
      let (k, p) ← mpDecodeUint p
      if k = iprotoRequestType then
        let (code, p) ← mpDecodeUint p
        if code ≠ iprotoOk then some (-1) else statusLoop wantSync entries p
      else if k = iprotoSync then
        let (sync, p) ← mpDecodeUint p
        if sync ≠ wantSync then some (-2) else statusLoop wantSync entries p
      else
        let p ← mpNext p
        statusLoop wantSync entries p

/-- `check_iproto_status`. -/
def checkIprotoStatus (body : Bytes) (wantSync : ℕ) : Option ℤ :=
  if body = [] then some (-1)
  else (mpDecodeMap body).bind fun (hMap, p) => statusLoop wantSync hMap p

/-! ## Requests -/

/-- `(uint64_t)x`. -/
def toU64 (x : ℤ) : ℕ := (x % 2 ^ 64).toNat

/-- The header map of a request. -/
def requestHeader (requestType syncId : ℕ) : Bytes :=
  mpEncodeMap 2 ++ mpEncodeUint iprotoRequestType ++ mpEncodeUint requestType ++
    mpEncodeUint iprotoSync ++ mpEncodeUint syncId

/-- The requests of the driver. -/
inductive Request where
  | get (attr : Bytes)
  | set (attr val : Bytes) (expires : ℤ)
  | remove (attr : Bytes)
  | rawQuery (query : Bytes)
  | callProc (proc : Bytes) (args : Option Bytes)

/-- `pack_select_header` and the key. -/
def packGet (syncId spaceId : ℕ) (attr : Bytes) : Bytes :=
  frame (requestHeader iprotoSelect syncId ++ mpEncodeMap 6 ++
    mpEncodeUint iprotoSpaceId ++ mpEncodeUint spaceId ++
    mpEncodeUint iprotoIndexId ++ mpEncodeUint 0 ++
    mpEncodeUint iprotoLimit ++ mpEncodeUint 1 ++
    mpEncodeUint iprotoOffset ++ mpEncodeUint 0 ++
    mpEncodeUint iprotoIterator ++ mpEncodeUint 0 ++
    mpEncodeUint iprotoKey ++ mpEncodeArray 1 ++ mpEncodeStr attr)

/-- The `REPLACE` of `tarantool_set`, made at the time `now`. -/
def packSet (syncId spaceId : ℕ) (attr val : Bytes) (expires now : ℤ) : Bytes :=
  frame (requestHeader iprotoReplace syncId ++ mpEncodeMap 2 ++
    mpEncodeUint iprotoSpaceId ++ mpEncodeUint spaceId ++
    mpEncodeUint iprotoTuple ++ mpEncodeArray 7 ++
    mpEncodeStr attr ++ mpEncodeStr (ascii "opensips") ++ mpEncodeStr (ascii "active") ++
    mpEncodeUint (toU64 now) ++ mpEncodeUint (toU64 now) ++
    mpEncodeUint (toU64 (if 0 < expires then now + expires else now + 3600)) ++ mpEncodeStr val)

/-- `pack_delete_header` and the key. -/
def packRemove (syncId spaceId : ℕ) (attr : Bytes) : Bytes :=
  frame (requestHeader iprotoDelete syncId ++ mpEncodeMap 3 ++
    mpEncodeUint iprotoSpaceId ++ mpEncodeUint spaceId ++
    mpEncodeUint iprotoIndexId ++ mpEncodeUint 0 ++
    mpEncodeUint iprotoKey ++ mpEncodeArray 1 ++ mpEncodeStr attr)

/-- The `EVAL` of `tarantool_raw_query`. -/
def packRawQuery (syncId : ℕ) (query : Bytes) : Bytes :=
  frame (requestHeader iprotoEval syncId ++ mpEncodeMap 2 ++
    mpEncodeUint iprotoExpr ++ mpEncodeStr query ++ mpEncodeUint iprotoTuple ++ mpEncodeArray 0)

/-- The `CALL` of `tarantool_call_proc`. -/
def packCallProc (syncId : ℕ) (proc : Bytes) (args : Option Bytes) : Bytes :=
  frame (requestHeader iprotoCall syncId ++ mpEncodeMap 2 ++
    mpEncodeUint iprotoFunctionName ++ mpEncodeStr proc ++ mpEncodeUint iprotoTuple ++
    match args.getD [] with
    | [] => mpEncodeArray 0
    | args => mpEncodeArray 1 ++ mpEncodeStr args)

/-- The packet of a request. -/
def Request.pack (syncId spaceId : ℕ) (now : ℤ) : Request → Bytes
  | .get attr => packGet syncId spaceId attr
  | .set attr val expires => packSet syncId spaceId attr val expires now
  | .remove attr => packRemove syncId spaceId attr
  | .rawQuery query => packRawQuery syncId query
  | .callProc proc args => packCallProc syncId proc args

/-- The size of the buffer for the answer. -/
def Request.respSize : Request → ℕ
  | .set _ _ _ => 512
  | .remove _ => 512
  | _ => 4096

/-! ## Connecting -/

/-- What the calls of an operation return. -/
structure Net where
  dial : Dial
  /-- The exchange of `resolve_space_id`. -/
  resolve : Peer
  /-- The `space_id` it reads from beyond the end of its answer. -/
  straySpaceId : ℕ
  /-- The exchange of the request. -/
  answer : Peer
  /-- The verdict on a header that is read beyond its end. -/
  strayStatus : ℤ
  /-- `time(NULL)` when the packet is built. -/
  packTime : ℤ
  /-- `time(NULL)` when an error is registered. -/
  errorTime : ℤ
  /-- `space_id` of the handle when the operation starts. -/
  spaceId : ℕ

/-- The loop of `resolve_space_id` over the entries of the first map of the answer. -/
def resolveLoop : ℕ → ℕ → Bytes → Option ℕ
  | spaceId, 0, _ => some spaceId
  | spaceId, entries + 1, p => do
      let (k, p) ← mpDecodeUint p
      if k = iprotoData then
        let (arrLen, p) ← mpDecodeArray p
        if 0 < arrLen then
          let (id, p) ← mpDecodeUint p
          resolveLoop (id % 2 ^ 32) entries p
        else resolveLoop spaceId entries p
      else
        let p ← mpNext p
        resolveLoop spaceId entries p

/-- `resolve_space_id`: the packet, and the `space_id` it leaves. -/
def resolveSpaceId (tcon : Cluster) (syncId : ℕ) (net : Net) (spaceId : ℕ) : Bytes × ℕ :=
  let packet := frame (requestHeader iprotoEval syncId ++ mpEncodeMap 2 ++
    mpEncodeUint iprotoExpr ++ mpEncodeStr (ascii "return box.space[...].id") ++
    mpEncodeUint iprotoTuple ++ mpEncodeArray 1 ++ mpEncodeStr tcon.space)
  if net.resolve.takes = false then (packet, spaceId)
  else
    match tntReadFrame net.resolve 1024 with
    | none => (packet, spaceId)
    | some resp =>
        let id := ((mpDecodeMap resp).bind fun (mapSize, p) => resolveLoop spaceId mapSize p).getD
          net.straySpaceId
        (packet, if id = 0 then 512 else id)

/-- A disabled connection whose deadline has passed starts again. -/
def Conn.rearm (c : Conn) : Conn :=
  if c.state = .disabled then { c with state := .disconnected, consecutiveErrors := 0 } else c

/-- `tnt_connect_single`: what it did, the connection it leaves and the `space_id`. -/
def tntConnectSingle (tcon : Cluster) (net : Net) (c : Conn) : Report × Conn × ℕ :=
  let d := net.dial
  let retried := decide (c.state = .disabled)
  if c.state = .disabled ∧ d.now < c.disabledUntil then
    (⟨.coolingDown, false, false, false, []⟩, c, net.spaceId)
  else
    let c := c.rearm
    if d.fd < 0 then
      (⟨.noSocket, retried, false, true, []⟩, { c with sockFd := d.fd, state := .error },
        net.spaceId)
    else if d.resolves = false then
      (⟨.unresolved, retried, false, true, []⟩, { c with sockFd := -1, state := .error },
        net.spaceId)
    else if d.connects = false then
      (⟨.connectFailed, retried, false, true, []⟩, c.fail tcon d.now, net.spaceId)
    else
      match recvAll d.greeting tntGreetingSize with
      | none =>
          (⟨.greetingFailed, retried, false, true, []⟩, { c with sockFd := -1, state := .error },
            net.spaceId)
      | some (greeting, _) =>
          let auth := tntAuthScramble tcon.user tcon.pass (saltOf greeting) d.login d.past
          if auth.1 < 0 then
            (⟨.authFailed, retried, false, true, auth.2.toList⟩,
              { c with sockFd := -1, state := .error }, net.spaceId)
          else
            let c := { c with sockFd := d.fd, state := .authenticated, consecutiveErrors := 0 }
            if net.spaceId = 0 then
              let c := { c with syncCounter := c.syncCounter + 1 }
              let resolved := resolveSpaceId tcon c.syncCounter.toNat net net.spaceId
              (⟨.completed, retried, true, true, auth.2.toList ++ [resolved.1]⟩, c, resolved.2)
            else (⟨.completed, retried, true, true, auth.2.toList⟩, c, net.spaceId)

/-- `tnt_get_conn`, on the connection whose turn it is; the drain does not touch the
record. -/
def tntGetConn (tcon : Cluster) (net : Net) (c : Conn) : Report × Conn × ℕ :=
  if c.sockFd < 0 ∨ c.state ≠ .authenticated then tntConnectSingle tcon net c
  else (Report.usable, c, net.spaceId)

/-- What a request does with the connection it got: the packet goes out, a frame comes in,
and its header is checked. -/
def query (tcon : Cluster) (net : Net) (req : Request) (r : Report) (c : Conn) (spaceId : ℕ) :
    Report × Conn :=
  let c := { c with syncCounter := c.syncCounter + 1 }
  let syncId := c.syncCounter.toNat
  let r := { r with sent := r.sent ++ [req.pack syncId spaceId net.packTime] }
  if net.answer.takes = false then ({ r with exit := .sendFailed }, c.fail tcon net.errorTime)
  else
    match tntReadFrame net.answer req.respSize with
    | none => ({ r with exit := .receiveFailed }, c.fail tcon net.errorTime)
    | some body =>
        let rc := (checkIprotoStatus body syncId).getD net.strayStatus
        if rc = -2 then ({ r with exit := .syncMismatch }, c.fail tcon net.errorTime)
        else if rc < 0 then ({ r with exit := .refused }, c)
        else ({ r with exit := .completed }, c)

/-- `tarantool_get`, `tarantool_set`, `tarantool_remove`, `tarantool_raw_query` and
`tarantool_call_proc`. -/
def request (tcon : Cluster) (net : Net) (req : Request) (c : Conn) : Report × Conn :=
  let (r, c, spaceId) := tntGetConn tcon net c
  if r.exit ≠ .completed then (r, c) else query tcon net req r c spaceId

/-- An operation: a request, or the connection attempt `tnt_setup_pool` makes. -/
inductive Op where
  | request (net : Net) (req : Request)
  | connect (net : Net)

/-- What the calls of an operation return. -/
def Op.net : Op → Net
  | .request net _ => net
  | .connect net => net

/-- One operation. -/
def exec (tcon : Cluster) : Op → Conn → Report × Conn
  | .request net req, c => request tcon net req c
  | .connect net, c => ((tntConnectSingle tcon net c).1, (tntConnectSingle tcon net c).2.1)

/-- The time of the error an operation registers: `connect()` and what goes wrong on an
established connection. -/
def registers : Op → Exit → Option ℤ
  | .request net _, .connectFailed => some net.dial.now
  | .connect net, .connectFailed => some net.dial.now
  | .request net _, .sendFailed => some net.errorTime
  | .request net _, .receiveFailed => some net.errorTime
  | .request net _, .syncMismatch => some net.errorTime
  | _, _ => none

/-- What the record says of the connection. -/
def Conn.view (c : Conn) : View where
  fd := c.sockFd
  usable := decide (c.state = .authenticated)
  disabled := decide (c.state = .disabled)
  deadline := c.disabledUntil
  errors := c.consecutiveErrors

/-- The driver. -/
abbrev driver (tcon : Cluster) : Driver where
  Conn := Conn
  Op := Op
  exec := exec tcon
  view := Conn.view
  clock op := op.net.dial.now
  registers := registers
  clears _ _ := false
  allowed := tcon.allowedErrors
  disableTime := tcon.disableTimeSec

/-! ## What an operation does -/

variable {tcon : Cluster}

theorem view_rearm (c : Conn) : c.rearm.view = c.view.rearm := by
  unfold Conn.rearm View.rearm Conn.view
  by_cases h : c.state = .disabled <;> simp [h]

theorem view_fail (now : ℤ) (c : Conn) :
    (c.fail tcon now).view = c.view.fault (driver tcon) now := by
  show _ = if tcon.allowedErrors ≤ (c.consecutiveErrors + 1 : ℕ) then _ else _
  unfold Conn.fail
  split_ifs <;> rfl

theorem view_syncCounter (c : Conn) (sync : UInt64) : { c with syncCounter := sync }.view = c.view :=
  rfl

/-- **Everything a connection attempt can do.**  It is refused before the deadline; it fails
and the error is not registered; `connect()` fails; or the connection is established. -/
theorem tntConnectSingle_cases (tcon : Cluster) (net : Net) (c : Conn) :
    (tntConnectSingle tcon net c = (⟨.coolingDown, false, false, false, []⟩, c, net.spaceId)) ∨
    ¬ (c.state = .disabled ∧ net.dial.now < c.disabledUntil) ∧
      ((∃ exit sent fd, (exit = .noSocket ∨ exit = .unresolved ∨ exit = .greetingFailed ∨
            exit = .authFailed) ∧ fd < 0 ∧
          tntConnectSingle tcon net c =
            (⟨exit, decide (c.state = .disabled), false, true, sent⟩,
              { c.rearm with sockFd := fd, state := .error }, net.spaceId)) ∨
        tntConnectSingle tcon net c =
          (⟨.connectFailed, decide (c.state = .disabled), false, true, []⟩,
            c.rearm.fail tcon net.dial.now, net.spaceId) ∨
        ∃ sent c' spaceId, c'.view = ⟨net.dial.fd, true, false, c.disabledUntil, 0⟩ ∧
          0 ≤ net.dial.fd ∧ tntConnectSingle tcon net c =
            (⟨.completed, decide (c.state = .disabled), true, true, sent⟩, c', spaceId)) := by
  unfold tntConnectSingle
  by_cases hcool : c.state = .disabled ∧ net.dial.now < c.disabledUntil
  · exact Or.inl (if_pos hcool)
  refine Or.inr ⟨hcool, ?_⟩
  have hdeadline : c.rearm.disabledUntil = c.disabledUntil := by
    unfold Conn.rearm
    split_ifs <;> rfl
  simp only [if_neg hcool]
  by_cases hsocket : net.dial.fd < 0
  · exact Or.inl ⟨_, _, _, Or.inl rfl, hsocket, if_pos hsocket⟩
  simp only [if_neg hsocket]
  by_cases hresolves : net.dial.resolves = false
  · exact Or.inl ⟨_, _, _, Or.inr (Or.inl rfl), by norm_num, if_pos hresolves⟩
  simp only [if_neg hresolves]
  by_cases hconnects : net.dial.connects = false
  · exact Or.inr (Or.inl (if_pos hconnects))
  simp only [if_neg hconnects]
  cases recvAll net.dial.greeting tntGreetingSize with
  | none => exact Or.inl ⟨_, _, _, Or.inr (Or.inr (Or.inl rfl)), by norm_num, rfl⟩
  | some g =>
    simp only
    split_ifs
    · exact Or.inl ⟨_, _, _, Or.inr (Or.inr (Or.inr rfl)), by norm_num, rfl⟩
    · exact Or.inr (Or.inr ⟨_, _, _, by rw [Conn.view, hdeadline]; rfl, not_lt.1 hsocket, rfl⟩)
    · exact Or.inr (Or.inr ⟨_, _, _, by rw [Conn.view, hdeadline]; rfl, not_lt.1 hsocket, rfl⟩)

/-- **Everything a request can do with the connection it got.** -/
theorem uses_query (tcon : Cluster) (net : Net) (req : Request) (r : Report) (c : Conn)
    (spaceId : ℕ) :
    ∃ exit sent, (query tcon net req r c spaceId).1 =
        ⟨exit, r.retried, r.established, r.opened, sent⟩ ∧
      Uses (driver tcon) (.request net req) c.view exit (query tcon net req r c spaceId).2.view := by
  have hfailed : ∀ {exit}, registers (.request net req) exit = some net.errorTime →
      Uses (driver tcon) (.request net req) c.view exit
        (({ c with syncCounter := c.syncCounter + 1 } : Conn).fail tcon net.errorTime).view := by
    intro exit h
    rw [view_fail, view_syncCounter]
    exact .failed h rfl
  unfold query
  simp only
  split_ifs
  · exact ⟨_, _, rfl, hfailed rfl⟩
  · split
    · exact ⟨_, _, rfl, hfailed rfl⟩
    · split_ifs
      · exact ⟨_, _, rfl, hfailed rfl⟩
      · exact ⟨_, _, rfl, .kept rfl rfl⟩
      · exact ⟨_, _, rfl, .kept rfl rfl⟩

/-- A connection attempt that does not establish the connection is a move, whatever it is
made for. -/
theorem moves_of_not_completed {net : Net} {c : Conn} (op : Op) (hnet : op.net = net)
    (h : (tntConnectSingle tcon net c).1.exit ≠ .completed) :
    Moves (driver tcon) op c.view (tntConnectSingle tcon net c).1
      (tntConnectSingle tcon net c).2.1.view := by
  subst hnet
  have hunregistered : ∀ e, e ≠ .connectFailed → e ≠ .sendFailed → e ≠ .receiveFailed →
      e ≠ .syncMismatch → registers op e = none := by
    intro e h₁ h₂ h₃ h₄
    cases op <;> cases e <;> simp_all [registers]
  rcases tntConnectSingle_cases tcon op.net c with heq | ⟨hcool, hrest⟩
  · rw [heq]
    exact .idle (hunregistered _ (by simp) (by simp) (by simp) (by simp)) rfl
  have hcooling : ¬ c.view.Cooling (driver tcon) op := by
    rintro ⟨hstate, hnow⟩
    exact hcool ⟨of_decide_eq_true hstate, hnow⟩
  rcases hrest with ⟨exit, sent, fd, hexit, hfd, heq⟩ | heq | ⟨sent, c', spaceId, -, -, heq⟩
  · rw [heq]
    have hview : ({ c.rearm with sockFd := fd, state := .error } : Conn).view =
        { c.view.rearm with fd := fd, usable := false } := by
      rw [← view_rearm]
      rw [View.mk.injEq]
      refine ⟨rfl, rfl, ?_, rfl, rfl⟩
      have := disabled_rearm c.view
      rw [← view_rearm] at this
      rw [this]
      rfl
    rw [hview]
    refine .down hcooling hfd (hunregistered _ ?_ ?_ ?_ ?_) rfl <;>
      rcases hexit with rfl | rfl | rfl | rfl <;> simp
  · rw [heq]
    show Moves _ _ _ _ (c.rearm.fail tcon op.net.dial.now).view
    rw [view_fail, view_rearm]
    refine .unreachable hcooling ?_ rfl
    cases op <;> rfl
  · rw [heq] at h
    exact absurd rfl h

/-- A connection attempt that establishes the connection. -/
theorem gets_of_completed {net : Net} {c : Conn} (op : Op) (hnet : op.net = net)
    (h : (tntConnectSingle tcon net c).1.exit = .completed) :
    ∃ retried established opened sent, (tntConnectSingle tcon net c).1 =
        ⟨.completed, retried, established, opened, sent⟩ ∧
      Gets (driver tcon) op c.view retried established opened
        (tntConnectSingle tcon net c).2.1.view := by
  subst hnet
  rcases tntConnectSingle_cases tcon op.net c with heq | ⟨hcool, hrest⟩
  · rw [heq] at h
    cases h
  have hcooling : ¬ c.view.Cooling (driver tcon) op := by
    rintro ⟨hstate, hnow⟩
    exact hcool ⟨of_decide_eq_true hstate, hnow⟩
  rcases hrest with ⟨exit, sent, fd, hexit, -, heq⟩ | heq | ⟨sent, c', spaceId, hview, hsocket, heq⟩
  · rw [heq] at h
    rcases hexit with rfl | rfl | rfl | rfl <;> cases h
  · rw [heq] at h
    cases h
  · rw [heq]
    refine ⟨_, _, _, sent, rfl, ?_⟩
    show Gets _ _ _ _ _ _ c'.view
    rw [hview]
    exact .established hcooling hsocket

theorem moves_request (net : Net) (req : Request) (c : Conn) :
    Moves (driver tcon) (.request net req) c.view (request tcon net req c).1
      (request tcon net req c).2.view := by
  unfold request tntGetConn
  split_ifs with hdown
  · by_cases hdone : (tntConnectSingle tcon net c).1.exit = .completed
    · obtain ⟨retried, established, opened, sent, hreport, hgets⟩ :=
        gets_of_completed (.request net req) (Eq.refl net) hdone
      obtain ⟨exit, sent', hquery, huses⟩ := uses_query tcon net req
        (tntConnectSingle tcon net c).1 (tntConnectSingle tcon net c).2.1
        (tntConnectSingle tcon net c).2.2
      simp only [hdone, ne_eq, not_true_eq_false, if_false]
      rw [hreport] at hquery huses ⊢
      rw [hquery]
      exact .used hgets huses
    · simp only [hdone, ne_eq, not_false_eq_true, if_true]
      exact moves_of_not_completed (.request net req) (Eq.refl net) hdone
  · push Not at hdown
    obtain ⟨exit, sent, hquery, huses⟩ := uses_query tcon net req .usable c net.spaceId
    simp only [Report.usable, ne_eq, not_true_eq_false, if_false] at hquery huses ⊢
    rw [hquery]
    exact .used (.usable (decide_eq_true hdown.2)) huses

theorem moves_connect (net : Net) (c : Conn) :
    Moves (driver tcon) (.connect net) c.view (tntConnectSingle tcon net c).1
      (tntConnectSingle tcon net c).2.1.view := by
  by_cases hdone : (tntConnectSingle tcon net c).1.exit = .completed
  · obtain ⟨retried, established, opened, sent, hreport, hgets⟩ :=
      gets_of_completed (.connect net) (Eq.refl net) hdone
    rw [hreport]
    exact .used hgets (.kept rfl rfl)
  · exact moves_of_not_completed (.connect net) (Eq.refl net) hdone

/-- **The driver is disciplined.** -/
theorem disciplined (tcon : Cluster) : (driver tcon).Disciplined := by
  intro op c _
  cases op with
  | connect net => exact moves_connect net c
  | request net req => exact moves_request net req c

/-- A new connection. -/
theorem sound_init : Conn.init.view.Sound := ⟨by decide, by decide⟩

end OpenSips

end VoipBackend
