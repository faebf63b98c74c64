import VoipBackend.Wire.CallInfo
import VoipBackend.Wire.Connection

/-!
# The RTPEngine driver

`src/tarantool.c`: one client with one connection.  Saving and deleting a call are one-way:
the request is sent, and its acknowledgement is thrown away, whole or in part, by the
drain of a later operation.  `restore_calls` reads frames until it finds the one with its
own sync id.

The counters `total_sent` and `total_errors`, which nothing reads, are left out.
-/

namespace VoipBackend

open Library

namespace RtpEngine

/-! ## Records -/

/-- `rtpe_tnt_state_t`. -/
inductive ClientState where
  | disconnected
  | connecting
  | authenticated
  | disabled
  | error
  deriving DecidableEq

/-- What the operations read of a `rtpe_tarantool_config_t`. -/
structure Config where
  user : Bytes
  password : Bytes
  nodeId : Bytes
  expiresSecs : ℤ
  disableTime : ℤ
  allowedErrors : ℤ

/-- The configuration of a client made by `rtpe_tarantool_new_from_config`: what is not
positive is replaced by its default. -/
def Config.withDefaults (config : Config) : Config :=
  { config with
    expiresSecs := if config.expiresSecs ≤ 0 then 3600 else config.expiresSecs
    allowedErrors := if config.allowedErrors ≤ 0 then 3 else config.allowedErrors
    disableTime := if config.disableTime ≤ 0 then 10 else config.disableTime }

/-- `rtpe_tarantool_client_t`. -/
structure Client where
  sockFd : ℤ
  state : ClientState
  syncId : UInt64
  consecutiveErrors : ℕ
  disabledUntil : ℤ
  deriving DecidableEq

/-- A client as `rtpe_tarantool_new_from_config` makes it. -/
def Client.init : Client := ⟨-1, .disconnected, 1, 0, 0⟩

/-- `rtpe_tarantool_close`. -/
def Client.close (c : Client) : Client :=
  { c with sockFd := if 0 ≤ c.sockFd then -1 else c.sockFd, state := .disconnected }

/-- An error counted at the time `now`, on a client that is closed. -/
def Client.count (config : Config) (now : ℤ) (c : Client) : Client :=
  if config.allowedErrors ≤ (c.consecutiveErrors + 1 : ℕ) then
    { c with
      state := .disabled
      consecutiveErrors := c.consecutiveErrors + 1
      disabledUntil := now + config.disableTime }
  else { c with consecutiveErrors := c.consecutiveErrors + 1 }

/-! ## Connecting -/

/-- What the calls of an operation return. -/
structure Net where
  dial : Dial
  /-- What each `recv()` of the drain returns. -/
  drained : List ℕ
  /-- The request can be sent. -/
  takes : Bool
  /-- The bytes that arrive, after the drain, before the connection ends. -/
  sends : Bytes
  /-- Which `calloc()` calls for a frame succeed; those beyond the list do. -/
  callocs : List Bool
  /-- The sync id and the pointer a header gives that is read beyond the end of its frame. -/
  stray : Bytes → ℕ × Bytes
  /-- `time(NULL)` when a failed request is counted. -/
  errorTime : ℤ

/-- A disabled client whose deadline has passed starts again. -/
def Client.rearm (c : Client) : Client :=
  if c.state = .disabled then { c with state := .disconnected, consecutiveErrors := 0 } else c

/-- The label `out_err` of `rtpe_tarantool_connect`. -/
def Client.outErr (config : Config) (now : ℤ) (c : Client) : Client :=
  ({ c.close with state := .error } : Client).count config now

/-- `rtpe_tarantool_connect`. -/
def rtpeTarantoolConnect (config : Config) (d : Dial) (c : Client) : Report × Client :=
  let retried := decide (c.state = .disabled)
  if c.state = .disabled ∧ d.now < c.disabledUntil then
    (⟨.coolingDown, false, false, false, []⟩, c)
  else
    let c := { c.rearm.close with state := .connecting, sockFd := d.fd }
    if d.fd < 0 then (⟨.noSocket, retried, false, true, []⟩, c.outErr config d.now)
    else if d.resolves = false then
      (⟨.unresolved, retried, false, true, []⟩, c.outErr config d.now)
    else if d.connects = false then
      (⟨.connectFailed, retried, false, true, []⟩, c.outErr config d.now)
    else
      match recvAll d.greeting tntGreetingSize with
      | none => (⟨.greetingFailed, retried, false, true, []⟩, c.outErr config d.now)
      | some (greeting, _) =>
          let (rc, packet, syncId) :=
            tntAuthScramble config.user config.password (saltOf greeting) c.syncId d.login d.past
          let c := { c with syncId := syncId }
          if rc < 0 then
            (⟨.authFailed, retried, false, true, packet.toList⟩, c.outErr config d.now)
          else
            (⟨.completed, retried, true, true, packet.toList⟩,
              { c with state := .authenticated, consecutiveErrors := 0 })

/-- The connection an operation works on: the one that is there, or a new one. -/
def getConnection (config : Config) (d : Dial) (c : Client) : Report × Client :=
  if c.sockFd < 0 ∨ c.state ≠ .authenticated then rtpeTarantoolConnect config d c
  else (.usable, c)

/-! ## One-way requests -/

/-- `tnt_socket_drain`, on the bytes that are still to come: every `recv()` takes some of
them, at most 1024. -/
def tntSocketDrain (drained : List ℕ) (s : Bytes) : Bytes :=
  drained.foldl (fun s n => s.drop (min n 1024)) s

/-- The part `rtpe_tarantool_save_call` and `rtpe_tarantool_delete_call` share, once the
packet is built. -/
def sendOneWay (config : Config) (net : Net) (packet : Option Bytes) (c : Client) :
    Report × Client :=
  match packet with
  | none => (⟨.noRequest, false, false, false, []⟩, c)
  | some packet =>
      let (r, c) := getConnection config net.dial c
      if r.exit ≠ .completed then (r, c)
      else
        let r := { r with sent := r.sent ++ [packet] }
        if net.takes = false then
          ({ r with exit := .sendFailed }, c.close.count config net.errorTime)
        else (r, { c with consecutiveErrors := 0 })

/-- `rtpe_tarantool_save_call`. -/
def saveCall (config : Config) (net : Net) (info : CallInfo) (c : Client) : Report × Client :=
  let info := { info with
    ttlSec := if 0 < info.ttlSec then info.ttlSec else UInt32.ofNat config.expiresSecs.toNat }
  sendOneWay config net (packCallUpsert c.syncId.toNat (some config.nodeId) info)
    { c with syncId := c.syncId + 1 }

/-- `rtpe_tarantool_delete_call`. -/
def deleteCall (config : Config) (net : Net) (callId : Option Bytes) (c : Client) :
    Report × Client :=
  sendOneWay config net (packCallDelete c.syncId.toNat callId) { c with syncId := c.syncId + 1 }

/-! ## Restoring -/

/-- A frame of at most a mebibyte, with the bytes behind it. -/
def readFrame (calloc : Bool) (s : Bytes) : Except Exit (Bytes × Bytes) :=
  match recvAll s 5 with
  | none => .error .receiveFailed
  | some (respHdr, s) =>
      if respHdr.head? ≠ some 0xce then .error .receiveFailed
      else
        let respLen := ofBigEndian (respHdr.drop 1)
        if respLen = 0 ∨ 1048576 < respLen then .error .receiveFailed
        else if calloc = false then .error .noMemory
        else
          match recvAll s respLen with
          | none => .error .receiveFailed
          | some (respBody, s) => .ok (respBody, s)

/-- What the loop of `rtpe_tarantool_restore_calls` reads. -/
structure Reading where
  /-- The frames it skips. -/
  skipped : List Bytes
  /-- Its own frame, with the pointer behind the header, or what kept it from getting it. -/
  own : Except Exit (Bytes × Bytes)
  /-- The bytes it leaves. -/
  unread : Bytes

/-- The loop: frames are skipped until one carries the sync id.  A frame takes more than one
byte, so one round more than there are bytes is enough. -/
def readLoop (sync : ℕ) (stray : Bytes → ℕ × Bytes) : ℕ → List Bool → Bytes → Reading
  | 0, _, s => ⟨[], .error .receiveFailed, s⟩
  | rounds + 1, callocs, s =>
      match readFrame (callocs.headD true) s with
      | .error e => ⟨[], .error e, s⟩
      | .ok (respBody, s) =>
          let (msgSync, p) := (headerSync respBody).getD (stray respBody)
          if msgSync ≠ sync then
            let r := readLoop sync stray rounds callocs.tail s
            { r with skipped := respBody :: r.skipped }
          else ⟨[], .ok (respBody, p), s⟩

/-- `rtpe_tarantool_restore_calls` up to the decoding of the calls (`decodeCalls`): the
report, the client it leaves, and what it read. -/
def restoreCalls (config : Config) (net : Net) (nodeId : Bytes) (c : Client) :
    Report × Client × Option Reading :=
  let (r, c) := getConnection config net.dial c
  if r.exit ≠ .completed then (r, c, none)
  else
    let sync := c.syncId.toNat
    let c := { c with syncId := c.syncId + 1 }
    let r := { r with sent := r.sent ++ [packCallRestore sync nodeId] }
    if net.takes = false then ({ r with exit := .sendFailed }, c.close, none)
    else
      let reading := readLoop sync net.stray (net.sends.length + 1) net.callocs net.sends
      match reading.own with
      | .error e => ({ r with exit := e }, c.close, some reading)
      | .ok _ => (r, c, some reading)

/-! ## Operations -/

/-- An operation on the client. -/
inductive Op where
  | connect (net : Net)
  | saveCall (net : Net) (info : CallInfo)
  | deleteCall (net : Net) (callId : Option Bytes)
  | restoreCalls (net : Net) (nodeId : Bytes)

/-- What the calls of an operation return. -/
def Op.net : Op → Net
  | .connect net => net
  | .saveCall net _ => net
  | .deleteCall net _ => net
  | .restoreCalls net _ => net

/-- One operation. -/
def exec (config : Config) : Op → Client → Report × Client
  | .connect net, c => rtpeTarantoolConnect config net.dial c
  | .saveCall net info, c => saveCall config net info c
  | .deleteCall net callId, c => deleteCall config net callId c
  | .restoreCalls net nodeId, c =>
      ((restoreCalls config net nodeId c).1, (restoreCalls config net nodeId c).2.1)

/-- The failure of a connection attempt. -/
def connectError : Exit → Bool
  | .noSocket => true
  | .unresolved => true
  | .connectFailed => true
  | .greetingFailed => true
  | .authFailed => true
  | _ => false

/-- The time of the error an operation registers: a failed connection attempt, or a failed
one-way request.  What goes wrong in `restore_calls` is not counted. -/
def registers (op : Op) (e : Exit) : Option ℤ :=
  if connectError e then some op.net.dial.now
  else
    match op, e with
    | .saveCall net _, .sendFailed => some net.errorTime
    | .deleteCall net _, .sendFailed => some net.errorTime
    | _, _ => none

/-- A one-way request that is sent sets the count back. -/
def clears : Op → Exit → Bool
  | .saveCall _ _, .completed => true
  | .deleteCall _ _, .completed => true
  | _, _ => false

/-- What the record says of the connection. -/
def Client.view (c : Client) : View where
  fd := c.sockFd
  usable := decide (c.state = .authenticated)
  disabled := decide (c.state = .disabled)
  deadline := c.disabledUntil
  errors := c.consecutiveErrors

/-- The driver. -/
abbrev driver (config : Config) : Driver where
  Conn := Client
  Op := Op
  exec := exec config.withDefaults
  view := Client.view
  clock op := op.net.dial.now
  registers := registers
  clears := clears
  allowed := config.withDefaults.allowedErrors
  disableTime := config.withDefaults.disableTime

/-! ## What an operation does -/

variable {config : Config} {d : Driver}

theorem view_rearm (c : Client) : c.rearm.view = c.view.rearm := by
  unfold Client.rearm View.rearm Client.view
  by_cases h : c.state = .disabled <;> simp [h]

/-- A client that is closed and counts an error. -/
theorem view_count (hallowed : d.allowed = config.allowedErrors)
    (hcool : d.disableTime = config.disableTime) {c : Client} {v : View} (hfd : c.sockFd = -1)
    (hauth : c.state ≠ .authenticated) (hdisabled : c.state ≠ .disabled)
    (herrors : c.consecutiveErrors = v.errors) (hdeadline : c.disabledUntil = v.deadline)
    (now : ℤ) : (c.count config now).view = v.fault d now := by
  unfold Client.count View.fault Client.view
  rw [hallowed, hcool, herrors, hdeadline]
  split_ifs <;> simp [hfd, hauth, hdisabled]

theorem sockFd_close {c : Client} (h : 0 ≤ c.sockFd ∨ c.sockFd = -1) : c.close.sockFd = -1 := by
  unfold Client.close
  rcases h with h | h <;> simp [h]

theorem view_outErr (hallowed : d.allowed = config.allowedErrors)
    (hcool : d.disableTime = config.disableTime) {c : Client} {v : View}
    (hfd : 0 ≤ c.sockFd ∨ c.sockFd = -1) (herrors : c.consecutiveErrors = v.errors)
    (hdeadline : c.disabledUntil = v.deadline) (now : ℤ) :
    (c.outErr config now).view = v.fault d now :=
  view_count (c := { c.close with state := .error }) hallowed hcool (sockFd_close hfd)
    (fun h => by cases h) (fun h => by cases h) herrors hdeadline now

/-- **Everything a connection attempt can do.**  It is refused before the deadline; it fails,
and the error is counted at the time of its start; or the connection is established. -/
theorem rtpeTarantoolConnect_cases (hallowed : d.allowed = config.allowedErrors)
    (hcool : d.disableTime = config.disableTime) (dial : Dial) (c : Client) :
    (rtpeTarantoolConnect config dial c = (⟨.coolingDown, false, false, false, []⟩, c)) ∨
    ¬ (c.state = .disabled ∧ dial.now < c.disabledUntil) ∧
      ((∃ exit sent, connectError exit = true ∧ (rtpeTarantoolConnect config dial c).1 =
            ⟨exit, decide (c.state = .disabled), false, true, sent⟩ ∧
          (rtpeTarantoolConnect config dial c).2.view = c.view.rearm.fault d dial.now) ∨
        ∃ sent, 0 ≤ dial.fd ∧ (rtpeTarantoolConnect config dial c).1 =
            ⟨.completed, decide (c.state = .disabled), true, true, sent⟩ ∧
          (rtpeTarantoolConnect config dial c).2.view =
            ⟨dial.fd, true, false, c.disabledUntil, 0⟩) := by
  unfold rtpeTarantoolConnect
  by_cases hcooling : c.state = .disabled ∧ dial.now < c.disabledUntil
  · exact Or.inl (if_pos hcooling)
  refine Or.inr ⟨hcooling, ?_⟩
  have hdeadline : c.rearm.disabledUntil = c.disabledUntil := by
    unfold Client.rearm
    split_ifs <;> rfl
  have herr : ∀ syncId, (Client.outErr config dial.now
      { c.rearm.close with state := .connecting, sockFd := dial.fd, syncId := syncId }).view =
        c.view.rearm.fault d dial.now := by
    intro syncId
    rw [← view_rearm]
    exact view_outErr hallowed hcool (Dial.nonneg_or dial) rfl rfl dial.now
  simp only [if_neg hcooling]
  by_cases hsocket : dial.fd < 0
  · simp only [if_pos hsocket]
    exact Or.inl ⟨_, _, rfl, rfl, herr _⟩
  simp only [if_neg hsocket]
  by_cases hresolves : dial.resolves = false
  · simp only [if_pos hresolves]
    exact Or.inl ⟨_, _, rfl, rfl, herr _⟩
  simp only [if_neg hresolves]
  by_cases hconnects : dial.connects = false
  · simp only [if_pos hconnects]
    exact Or.inl ⟨_, _, rfl, rfl, herr _⟩
  simp only [if_neg hconnects]
  cases recvAll dial.greeting tntGreetingSize with
  | none => exact Or.inl ⟨_, _, rfl, rfl, herr _⟩
  | some g =>
    simp only
    split_ifs
    · exact Or.inl ⟨_, _, rfl, rfl, herr _⟩
    · refine Or.inr ⟨_, not_lt.1 hsocket, rfl, ?_⟩
      rw [← hdeadline]
      rfl

/-- A connection attempt fails, and that is a move whatever it is for, or it establishes the
connection. -/
theorem rtpeTarantoolConnect_moves (config : Config) {net : Net} (op : Op) (hnet : op.net = net)
    (c : Client) :
    ((rtpeTarantoolConnect config.withDefaults net.dial c).1.exit ≠ .completed ∧
      Moves (driver config) op c.view (rtpeTarantoolConnect config.withDefaults net.dial c).1
        (rtpeTarantoolConnect config.withDefaults net.dial c).2.view) ∨
    ∃ retried established opened sent, (rtpeTarantoolConnect config.withDefaults net.dial c).1 =
        ⟨.completed, retried, established, opened, sent⟩ ∧
      Gets (driver config) op c.view retried established opened
        (rtpeTarantoolConnect config.withDefaults net.dial c).2.view ∧
      0 ≤ (rtpeTarantoolConnect config.withDefaults net.dial c).2.sockFd ∧
      (rtpeTarantoolConnect config.withDefaults net.dial c).2.state = .authenticated := by
  subst hnet
  have hallowed : (driver config).allowed = config.withDefaults.allowedErrors := rfl
  have htime : (driver config).disableTime = config.withDefaults.disableTime := rfl
  rcases rtpeTarantoolConnect_cases hallowed htime op.net.dial c with heq | ⟨hcool, hrest⟩
  · rw [heq]
    refine Or.inl ⟨by simp, .idle ?_ ?_⟩ <;> cases op <;> rfl
  have hcooling : ¬ c.view.Cooling (driver config) op := by
    rintro ⟨hstate, hnow⟩
    exact hcool ⟨of_decide_eq_true hstate, hnow⟩
  rcases hrest with ⟨exit, sent, herror, hreport, hview⟩ | ⟨sent, hfd, hreport, hview⟩
  · refine Or.inl ?_
    rw [hreport, hview]
    refine ⟨?_, .unreachable hcooling (if_pos herror) ?_⟩
    · rintro rfl
      cases herror
    · cases op <;> cases exit <;> first | rfl | cases herror
  · refine Or.inr ⟨_, _, _, sent, hreport, ?_, ?_, ?_⟩
    · rw [hview]
      exact .established hcooling hfd
    · have hsockFd : (rtpeTarantoolConnect config.withDefaults op.net.dial c).2.sockFd =
          op.net.dial.fd := congrArg View.fd hview
      rw [hsockFd]
      exact hfd
    · exact of_decide_eq_true (congrArg View.usable hview)

/-- **Getting a connection.**  It cannot be had, or it is there. -/
theorem getConnection_moves (config : Config) {net : Net} (op : Op) (hnet : op.net = net)
    (c : Client) :
    ((getConnection config.withDefaults net.dial c).1.exit ≠ .completed ∧
      Moves (driver config) op c.view (getConnection config.withDefaults net.dial c).1
        (getConnection config.withDefaults net.dial c).2.view) ∨
    ∃ retried established opened sent, (getConnection config.withDefaults net.dial c).1 =
        ⟨.completed, retried, established, opened, sent⟩ ∧
      Gets (driver config) op c.view retried established opened
        (getConnection config.withDefaults net.dial c).2.view ∧
      0 ≤ (getConnection config.withDefaults net.dial c).2.sockFd ∧
      (getConnection config.withDefaults net.dial c).2.state = .authenticated := by
  unfold getConnection
  split_ifs with hdown
  · exact rtpeTarantoolConnect_moves config op hnet c
  · push Not at hdown
    exact Or.inr ⟨_, _, _, _, rfl, .usable (decide_eq_true hdown.2), hdown.1, hdown.2⟩

/-- A usable client that is closed. -/
theorem view_close {c : Client} (hfd : 0 ≤ c.sockFd) (hstate : c.state = .authenticated) :
    c.close.view = { c.view with fd := -1, usable := false } := by
  unfold Client.close Client.view
  simp [hfd, hstate]

theorem moves_sendOneWay {net : Net} {op : Op} (hnet : op.net = net)
    (hfailed : registers op .sendFailed = some net.errorTime)
    (hsent : clears op .completed = true) (packet : Option Bytes) (c : Client) :
    Moves (driver config) op c.view (sendOneWay config.withDefaults net packet c).1
      (sendOneWay config.withDefaults net packet c).2.view := by
  have hidle : ∀ e, connectError e = false → e ≠ .sendFailed → registers op e = none := by
    intro e he hne
    cases op <;> cases e <;> simp_all [registers, connectError]
  unfold sendOneWay
  cases packet with
  | none => exact .idle (hidle .noRequest rfl (by simp)) (by cases op <;> rfl)
  | some packet =>
    simp only
    rcases getConnection_moves config op hnet c with ⟨hexit, hmoves⟩ |
      ⟨retried, established, opened, sent, hreport, hgets, hfd, hstate⟩
    · rw [if_pos hexit]
      exact hmoves
    · rw [if_neg (by rw [hreport]; simp), hreport]
      split_ifs
      · refine .used hgets ?_
        have hcount : ((getConnection config.withDefaults net.dial c).2.close.count
            config.withDefaults net.errorTime).view =
              (getConnection config.withDefaults net.dial c).2.view.fault (driver config)
                net.errorTime :=
          view_count rfl rfl (sockFd_close (Or.inl hfd)) (fun h => by cases h)
            (fun h => by cases h) rfl rfl net.errorTime
        rw [hcount]
        exact .failed hfailed (by cases op <;> rfl)
      · exact .used hgets (.cleared (hidle .completed rfl (by simp)) hsent)

/-- What keeps the loop from its frame is not what keeps an attempt from connecting. -/
theorem connectError_readFrame {calloc : Bool} {s : Bytes} {e : Exit}
    (h : readFrame calloc s = .error e) : connectError e = false := by
  unfold readFrame at h
  split at h
  · cases h
    rfl
  · dsimp only at h
    split_ifs at h
    · cases h
      rfl
    · cases h
      rfl
    · cases h
      rfl
    · split at h
      · cases h
        rfl
      · cases h

theorem connectError_readLoop {sync : ℕ} {stray : Bytes → ℕ × Bytes} {rounds : ℕ}
    {callocs : List Bool} {s : Bytes} {e : Exit}
    (h : (readLoop sync stray rounds callocs s).own = .error e) : connectError e = false := by
  induction rounds generalizing callocs s with
  | zero =>
    cases h
    rfl
  | succ rounds ih =>
    unfold readLoop at h
    split at h
    · next hframe =>
      cases h
      exact connectError_readFrame hframe
    · simp only at h
      split_ifs at h
      exact ih h

theorem moves_restoreCalls (net : Net) (nodeId : Bytes) (c : Client) :
    Moves (driver config) (.restoreCalls net nodeId) c.view
      (restoreCalls config.withDefaults net nodeId c).1
      (restoreCalls config.withDefaults net nodeId c).2.1.view := by
  unfold restoreCalls
  simp only
  rcases getConnection_moves config (.restoreCalls net nodeId) (Eq.refl net) c with
    ⟨hexit, hmoves⟩ | ⟨retried, established, opened, sent, hreport, hgets, hfd, hstate⟩
  · rw [if_pos hexit]
    exact hmoves
  · have hclosed : ∀ e, connectError e = false → ∀ syncId,
        Uses (driver config) (.restoreCalls net nodeId)
          (getConnection config.withDefaults net.dial c).2.view e
          ({ (getConnection config.withDefaults net.dial c).2 with syncId := syncId } :
            Client).close.view := by
      intro e he syncId
      have hclose := view_close (c := { (getConnection config.withDefaults net.dial c).2 with
        syncId := syncId }) hfd hstate
      rw [hclose]
      exact .closed (if_neg (by rw [he]; simp)) rfl
    rw [if_neg (by rw [hreport]; simp), hreport]
    split_ifs
    · exact .used hgets (hclosed _ rfl _)
    · split
      · next hown => exact .used hgets (hclosed _ (connectError_readLoop hown) _)
      · exact .used hgets (.kept rfl rfl)

/-- **The driver is disciplined.** -/
theorem disciplined (config : Config) : (driver config).Disciplined := by
  intro op c _
  cases op with
  | connect net =>
    rcases rtpeTarantoolConnect_moves config (.connect net) (Eq.refl net) c with
      ⟨-, hmoves⟩ | ⟨retried, established, opened, sent, hreport, hgets, -, -⟩
    · exact hmoves
    · show Moves _ _ _ (rtpeTarantoolConnect config.withDefaults net.dial c).1 _
      rw [hreport]
      exact .used hgets (.kept rfl rfl)
  | saveCall net info => exact moves_sendOneWay rfl rfl rfl _ { c with syncId := c.syncId + 1 }
  | deleteCall net callId => exact moves_sendOneWay rfl rfl rfl _ { c with syncId := c.syncId + 1 }
  | restoreCalls net nodeId => exact moves_restoreCalls net nodeId c

/-- A new client. -/
theorem sound_init : Client.init.view.Sound := ⟨by decide, by decide⟩

end RtpEngine

end VoipBackend
