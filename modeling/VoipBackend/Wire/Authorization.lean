import VoipBackend.Backend.Billing
import VoipBackend.Wire.Server
import VoipBackend.Wire.Status

/-!
# Authorising a call from a SIP server

`billing_authorize_call` takes a caller, a callee and a Call-ID.  `tarantool_call` of a Kamailio
script and `tarantool_call_proc` of OpenSIPS have one text for the arguments of a procedure, and the
driver sends it as one string or not at all.  So the procedure has no callee.  It refuses the callers
it refuses whoever they call; for every other it gets to the tariff of `nil`, which is an error.

A refusal is an answer, and an error is not.  The call of the procedure succeeds for the callers
that are refused, and fails for those that may call (`authorized_iff_refused`).
-/

namespace VoipBackend

open Library MsgPack Kamailio

/-! ## The procedure -/

/-- What `authorize_call` raises without a callee. -/
inductive AuthorizeError where
  /-- `Invalid key part count in an exact match (expected 1, got 0)` -/
  | keyPartCount
  /-- `attempt to get length of local 'destination' (a nil value)` -/
  | noDestination

/-- `billing.authorize_call` with the arguments it gets here: the caller, or nothing. -/
def authorizeCaller (caller : Option LuaString) (b : Box) :
    Except AuthorizeError AuthorizeReply × Box :=
  match caller with
  | none => (.error .keyPartCount, b)
  | some caller =>
      match b.subscribers.get caller with
      | none => (.ok (.refused .subscriberNotFound), b)
      | some sub =>
          if sub.status ≠ ascii "active" then (.ok (.refused .subscriberBlocked), b)
          else if sub.maxConcurrentCalls ≤ countActiveCalls b caller then
            (.ok (.refused .maxConcurrentCallsExceeded), b)
          else (.error .noDestination, b)

/-- `billing_authorize_call` with the arguments of a packet, one text at most. -/
def serveAuthorize (l : LuaArgs) (args : List Value) (b : Box) :
    Except AuthorizeError AuthorizeReply × Box :=
  authorizeCaller (l.at args 0).string? b

/-- The procedure did not raise an error. -/
def Answers (l : LuaArgs) (args : List Value) (b : Box) : Prop :=
  ∃ reply, (serveAuthorize l args b).1 = .ok reply

/-- The caller is refused whoever is called, and not for want of money. -/
def Box.Refuses (b : Box) (caller : LuaString) : Prop :=
  ∃ reason, reason ≠ .insufficientFunds ∧ ∀ now callee callId,
    (authorizeCall now ⟨caller, callee, callId⟩ b).1 = .ok (.refused reason)

/-- **Without a callee** the procedure answers only to refuse, and a caller that it does not answer
is one that it does not refuse. -/
theorem authorizeCaller_iff (caller : LuaString) (b : Box) :
    (∃ reply, (authorizeCaller (some caller) b).1 = .ok reply) ↔ b.Refuses caller := by
  unfold Box.Refuses
  cases hsub : b.subscribers.get caller with
  | none =>
    refine iff_of_true ⟨.refused .subscriberNotFound, by simp only [authorizeCaller, hsub]⟩
      ⟨.subscriberNotFound, by simp, fun now callee callId => ?_⟩
    simp only [authorizeCall, hsub]
  | some sub =>
    by_cases hstatus : sub.status ≠ ascii "active"
    · refine iff_of_true
        ⟨.refused .subscriberBlocked, by simp only [authorizeCaller, hsub, if_pos hstatus]⟩
        ⟨.subscriberBlocked, by simp, fun now callee callId => ?_⟩
      simp only [authorizeCall, hsub, if_pos hstatus]
    by_cases hfull : sub.maxConcurrentCalls ≤ countActiveCalls b caller
    · refine iff_of_true ⟨.refused .maxConcurrentCallsExceeded, by
          simp only [authorizeCaller, hsub, if_neg hstatus, if_pos hfull]⟩
        ⟨.maxConcurrentCallsExceeded, by simp, fun now callee callId => ?_⟩
      simp only [authorizeCall, hsub, if_neg hstatus, if_pos hfull]
    · refine iff_of_false ?_ ?_
      · simp only [authorizeCaller, hsub, if_neg hstatus, if_neg hfull]
        simp
      · rintro ⟨reason, hreason, hrefused⟩
        have h := hrefused (.ofSeconds 0 (by norm_num)) [] []
        simp only [authorizeCall, hsub, if_neg hstatus, if_neg hfull] at h
        split_ifs at h
        · cases h
          exact hreason rfl
        · split at h <;> cases h

/-- It writes nothing. -/
theorem authorizeCaller_snd (caller : Option LuaString) (b : Box) :
    (authorizeCaller caller b).2 = b := by
  unfold authorizeCaller
  split
  · rfl
  · split
    · rfl
    · split_ifs <;> rfl

theorem answers_nil (l : LuaArgs) (b : Box) : ¬ Answers l [] b := by
  rintro ⟨reply, h⟩
  cases h

theorem answers_text (l : LuaArgs) (caller : LuaString) (b : Box) :
    Answers l [.str caller] b ↔ b.Refuses caller := by
  have harg : (l.at [.str caller] 0).string? = some caller := by
    show (l.lua (.str caller)).string? = _
    rw [l.lua_str]
    rfl
  rw [Answers, serveAuthorize, harg, authorizeCaller_iff]

/-! ## OpenSIPS -/

namespace OpenSips

open Msgpuck

/-- The request for a caller. -/
def authorizeRequest (caller : Bytes) : Request :=
  .callProc (ascii "billing_authorize_call") (some caller)

/-- What the server sends. -/
structure CallAnswer (answers : Prop) where
  status : StatusHeader
  isOk : status.code = iprotoOk ↔ answers
  rest : Bytes
  short : (status.header.bytes ++ rest).length ≤ 16 * 1024 * 1024

/-- The frame of an answer. -/
def CallAnswer.frame {answers : Prop} (r : CallAnswer answers) : Bytes :=
  VoipBackend.frame (r.status.header.bytes ++ r.rest)

/-- `tarantool_call_proc` returns 0. -/
def Succeeds (tcon : Cluster) (net : Net) (caller : Bytes) (c : Conn) : Prop :=
  (request tcon net (authorizeRequest caller) c).1.exit = .completed

/-- A connection over which the whole answer arrives. -/
def Delivers (net : Net) (c : Conn) {answers : Prop} (r : CallAnswer answers) : Prop :=
  0 ≤ c.sockFd ∧ c.state = .authenticated ∧ net.answer = ⟨true, r.frame, true⟩ ∧
    r.status.sync = (c.syncCounter + 1).toNat

/-- The spaces stay as they are.  However the exchange goes, the call succeeds only if the caller is
refused; and it does so if nothing fails. -/
def SucceedsOnRefusal (l : LuaArgs) (caller : Bytes) (b : Box) : Prop :=
  ∀ (tcon : Cluster) (net : Net) (c : Conn) (sync spaceId : ℕ) (time : ℤ) (args : List Value),
    sync < 2 ^ 64 → spaceId < 2 ^ 32 →
    calledBy ((authorizeRequest caller).pack sync spaceId time) =
      some (ascii "billing_authorize_call", args) →
    (serveAuthorize l args b).2 = b ∧ ∀ r : CallAnswer (Answers l args b),
      (net.answer.sends <+: r.frame → Succeeds tcon net caller c → b.Refuses caller) ∧
        (Delivers net c r → (Succeeds tcon net caller c ↔ b.Refuses caller))

/-- The text is the only argument. -/
theorem calledBy_authorizeRequest {caller : Bytes} (hne : caller ≠ [])
    (hlen : caller.length < 2 ^ 31) {sync spaceId : ℕ} (hsync : sync < 2 ^ 64)
    (hspace : spaceId < 2 ^ 32) (time : ℤ) :
    calledBy ((authorizeRequest caller).pack sync spaceId time) =
      some (ascii "billing_authorize_call", [.str caller]) := by
  have hname : (ascii "billing_authorize_call").length = 22 := by decide
  have hpack : ((authorizeRequest caller).pack sync spaceId time).length < 2 ^ 32 + 5 := by
    have := uintSize_le sync
    have := strSize_le caller.length
    have := strSize_le 22
    rw [length_pack, authorizeRequest, Request.size, hname, Option.getD_some, if_neg hne]
    omega
  have hread := readPacket_pack (authorizeRequest caller) time hsync hspace hpack
  rw [authorizeRequest, Request.type, Request.body] at hread
  have hargs : procArgs (some caller) = [caller] := by
    obtain ⟨x, s, rfl⟩ := List.exists_cons_of_ne_nil hne
    rfl
  rw [hargs] at hread
  exact RtpEngine.calledBy_of_readPacket hread

/-- A frame that arrives is an answer, whole. -/
theorem body_of_tntReadFrame {peer : Peer} {cap : ℕ} {body : Bytes} (hshort : body.length < 2 ^ 32)
    (hsends : peer.sends <+: VoipBackend.frame body) {got : Bytes}
    (h : tntReadFrame peer cap = some got) : got = body := by
  unfold tntReadFrame at h
  rw [Option.bind_eq_bind, Option.bind_eq_some_iff] at h
  obtain ⟨⟨pfx, s⟩, hpfx, h⟩ := h
  simp only at h
  split_ifs at h with htag hsize hmemory
  obtain ⟨⟨got', rest⟩, hgot, h⟩ := Option.bind_eq_some_iff.1 h
  cases h
  exact body_of_opens hsends hshort ⟨pfx, hpfx, by simpa using htag, rfl⟩ hgot

/-- A frame that arrives whole is received. -/
theorem tntReadFrame_frame {body : Bytes} (hne : body ≠ [])
    (hshort : body.length ≤ 16 * 1024 * 1024) (cap : ℕ) :
    tntReadFrame ⟨true, VoipBackend.frame body, true⟩ cap = some body := by
  have hheader := recvAll_header body []
  have hwhole := recvAll_body body []
  have hlen : ofBigEndian ((0xce :: bigEndian 4 body.length : Bytes).drop 1) = body.length :=
    ofBigEndian_header (by omega)
  simp only [List.append_nil] at hheader hwhole
  have hpos : body.length ≠ 0 := by simpa using hne
  rw [tntReadFrame, hheader]
  simp only [Option.bind_eq_bind, Option.bind_some, List.head?_cons, hlen]
  rw [if_neg (by simp), if_neg (by omega), if_neg (by simp), hwhole]
  rfl

/-- A verdict that is not 0 is negative. -/
theorem verdict_nonpos (wantSync : ℕ) (entries : List (Item × Item)) :
    verdict wantSync entries ≤ 0 := by
  induction entries with
  | nil => exact le_rfl
  | cons e entries ih =>
    rw [verdict]
    split_ifs
    · decide
    · decide
    · exact ih

/-- The verdict on an answer. -/
theorem checkIprotoStatus_answer {answers : Prop} (r : CallAnswer answers) (wantSync : ℕ) :
    ∃ rc, checkIprotoStatus (r.status.header.bytes ++ r.rest) wantSync = some rc ∧
      (¬ rc < 0 ↔ answers ∧ r.status.sync = wantSync) := by
  have hcons : r.status.header.bytes ++ r.rest ≠ [] := by simp [Header.bytes, Item.bytes]
  have hlen := r.short
  rw [List.length_append] at hlen
  refine ⟨verdict wantSync r.status.header.entries, ?_, ?_⟩
  · rw [checkIprotoStatus, if_neg hcons, mpDecodeMap_header, Option.bind_some]
    exact statusLoop_verdict r.status.header.entriesValid (r.status.readable (by omega)) wantSync _
  · have hnonpos := verdict_nonpos wantSync r.status.header.entries
    have hzero := (verdict_eq_zero_iff wantSync r.status.header.entries).trans
      (r.status.agreeing_iff wantSync)
    rw [r.isOk] at hzero
    rw [← hzero]
    omega

section Exchange

variable {tcon : Cluster} {net : Net} {req : Request} {c : Conn} {answers : Prop}
  (r : CallAnswer answers)

/-- A request that is completed has got its answer. -/
theorem answers_of_completed (hsends : net.answer.sends <+: r.frame)
    (h : (request tcon net req c).1.exit = .completed) : answers := by
  unfold request at h
  simp only at h
  split_ifs at h with hexit
  · exact absurd h hexit
  · unfold query at h
    simp only at h
    split_ifs at h
    cases hread : tntReadFrame net.answer req.respSize with
    | none =>
      rw [hread] at h
      cases h
    | some body =>
      have hbody := body_of_tntReadFrame (by have := r.short; omega) hsends hread
      obtain ⟨rc, hcheck, hrc⟩ := checkIprotoStatus_answer r
        ((tntGetConn tcon net c).2.1.syncCounter + 1).toNat
      rw [hread, hbody] at h
      simp only [hcheck, Option.getD_some] at h
      split_ifs at h with hsync hneg
      exact (hrc.1 hneg).1

/-- A request whose answer arrives is completed if the procedure has answered. -/
theorem completed_iff_answers (hdelivers : Delivers net c r) :
    (request tcon net req c).1.exit = .completed ↔ answers := by
  obtain ⟨hfd, hstate, hanswer, hsync⟩ := hdelivers
  have hconn : tntGetConn tcon net c = (Report.usable, c, net.spaceId) :=
    if_neg (by simp [hstate]; omega)
  have hcons : r.status.header.bytes ++ r.rest ≠ [] := by simp [Header.bytes, Item.bytes]
  obtain ⟨rc, hcheck, hrc⟩ := checkIprotoStatus_answer r (c.syncCounter + 1).toNat
  have hread := tntReadFrame_frame hcons r.short req.respSize
  have hquery : (request tcon net req c).1.exit = .completed ↔ ¬ rc < 0 := by
    rw [request, hconn]
    simp only [Report.usable, ne_eq, not_true_eq_false, if_false, query, hanswer,
      CallAnswer.frame, hread, hcheck, Option.getD_some]
    simp only [reduceCtorEq, if_false]
    split_ifs with hmismatch hneg
    · simp only [false_iff, not_not]
      omega
    · simp [hneg]
    · simp [hneg]
  rw [hquery, hrc, and_iff_left hsync]

end Exchange

/-- **OpenSIPS.** -/
theorem succeedsOnRefusal (l : LuaArgs) {caller : Bytes} (hne : caller ≠ [])
    (hlen : caller.length < 2 ^ 31) (b : Box) : SucceedsOnRefusal l caller b := by
  intro tcon net c sync spaceId time args hsync hspace hcalled
  rw [calledBy_authorizeRequest hne hlen hsync hspace, Option.some.injEq, Prod.mk.injEq] at hcalled
  obtain ⟨-, rfl⟩ := hcalled
  refine ⟨authorizeCaller_snd _ b, fun r => ⟨fun hsends hsucceeds => ?_, fun hdelivers => ?_⟩⟩
  · exact (answers_text l caller b).1 (answers_of_completed r hsends hsucceeds)
  · exact (completed_iff_answers r hdelivers).trans (answers_text l caller b)

end OpenSips

/-! ## Kamailio -/

namespace Kamailio

/-- The request for a caller. -/
def authorizeRequest (caller : Bytes) : Request :=
  .call (ascii "billing_authorize_call") (some caller)

/-- `tarantool_call` in a script: `w_tarantool_call` over `sr_kemi_tarantool_call`, where `srv` is
the default server.  The data of the answer is freed. -/
def tarantoolCall (core : Core) (config : Config) (net : Net) (procName : Bytes)
    (params : Option Bytes) (srv : Server) : ℤ :=
  if procName = [] then -1 else (request core config net (.call procName params) srv).2.2.rc

/-- `tarantool_call` returns something positive. -/
def Succeeds (core : Core) (config : Config) (net : Net) (caller : Bytes) (srv : Server) : Prop :=
  0 < tarantoolCall core config net (ascii "billing_authorize_call") (some caller) srv

/-- A connection over which the whole answer arrives. -/
def Delivers (net : Net) (srv : Server) {answers : Prop} (r : CallAnswer answers) : Prop :=
  srv.connected = true ∧ 0 ≤ srv.fd ∧ net.answer = ⟨true, r.frame, true⟩ ∧
    (r.header.bytes ++ r.body.bytes).length ≤ 1048576

/-- The spaces stay as they are.  However the exchange goes, the call succeeds only if the caller is
refused; and it does so if nothing fails and the text does not start with a bracket. -/
def SucceedsOnRefusal (core : Core) (l : LuaArgs) (caller : Bytes) (b : Box) : Prop :=
  ∀ (config : Config) (net : Net) (srv : Server) (sync : ℕ) (args : List Value), sync < 2 ^ 64 →
    readCall ((authorizeRequest caller).pack core sync) =
      some (ascii "billing_authorize_call", args) →
    (serveAuthorize l args b).2 = b ∧ ∀ r : CallAnswer (Answers l args b),
      (net.answer.sends <+: r.frame → Succeeds core config net caller srv →
        ¬ Bracketed caller ∧ b.Refuses caller) ∧
      (Delivers net srv r →
        (Succeeds core config net caller srv ↔ ¬ Bracketed caller ∧ b.Refuses caller))

variable {core : Core}

/-- A request whose answer arrives returns 1 if the procedure has answered. -/
theorem rc_pos_iff_answers (hcore : core.Follows) {config : Config} {net : Net} {srv : Server}
    {answers : Prop} (r : CallAnswer answers) (hdelivers : Delivers net srv r) (req : Request) :
    0 < (request core config net req srv).2.2.rc ↔ answers := by
  obtain ⟨hconnected, hfd, hanswer, hshort⟩ := hdelivers
  have hheader := recvAll_header (r.header.bytes ++ r.body.bytes) []
  have hwhole := recvAll_body (r.header.bytes ++ r.body.bytes) []
  have hlen := ofBigEndian_header r.short
  simp only [List.append_nil] at hheader hwhole
  have hconn : getConnection core config net srv = (.usable, srv) :=
    if_neg (by simp [hconnected, hfd])
  have hrc : (request core config net req srv).2.2.rc =
      if (decodeReply core (r.header.bytes ++ r.body.bytes)).isSome then 1 else -1 := by
    rw [request, hconn]
    simp only [Report.usable, ne_eq, not_true_eq_false, if_false, tntExec, hanswer,
      CallAnswer.frame, hheader, hlen, if_neg (not_lt.2 hshort), hwhole, List.head?_cons]
    simp only [reduceCtorEq, if_false]
    cases decodeReply core (r.header.bytes ++ r.body.bytes) <;> rfl
  have hanswers := decodeReply_answer hcore r
  rw [← Option.isSome_iff_exists] at hanswers
  rw [hrc]
  refine Iff.trans ?_ hanswers
  split_ifs with hsome <;> simp [hsome]

/-- The call in the request. -/
theorem readCall_authorizeRequest (hcore : core.Follows) {caller : Bytes} (hne : caller ≠ [])
    (hlen : caller.length < 2 ^ 31) {sync : ℕ} (hsync : sync < 2 ^ 64) :
    readCall ((authorizeRequest caller).pack core sync) =
      some (ascii "billing_authorize_call", if Bracketed caller then [] else [.str caller]) := by
  refine readCall_packet hcore.packs hsync (by decide) hlen ?_
  split_ifs with hbracket
  · exact args_bracketed hbracket
  · exact args_not_bracketed hne hbracket

/-- **Kamailio.** -/
theorem succeedsOnRefusal (hcore : core.Follows) (l : LuaArgs) {caller : Bytes} (hne : caller ≠ [])
    (hlen : caller.length < 2 ^ 31) (b : Box) : SucceedsOnRefusal core l caller b := by
  intro config net srv sync args hsync hargs
  refine ⟨authorizeCaller_snd _ b, fun r => ?_⟩
  rw [readCall_authorizeRequest hcore hne hlen hsync, Option.some.injEq, Prod.mk.injEq] at hargs
  have hanswers : Answers l args b ↔ ¬ Bracketed caller ∧ b.Refuses caller := by
    rw [← hargs.2]
    split_ifs with hbracket
    · simp [answers_nil, hbracket]
    · simp [answers_text, hbracket]
  have hrc : Succeeds core config net caller srv ↔
      0 < (request core config net (authorizeRequest caller) srv).2.2.rc := by
    rw [Succeeds, tarantoolCall, if_neg (by decide)]
    rfl
  rw [hrc, ← hanswers]
  refine ⟨fun hsends hpos => ?_, fun hdelivers => rc_pos_iff_answers hcore r hdelivers _⟩
  exact (decodeReply_answer hcore r).1 (decodeReply_of_rc_pos hsends r.short hpos)

end Kamailio

/-- **A call that is authorised.**  OpenSIPS or a script of Kamailio calls `billing_authorize_call`
for a caller.  Whatever happens on the connection, that succeeds only if the caller is refused
whoever is called, and not for want of money; if nothing fails, it succeeds for every such caller;
and the spaces stay as they are. -/
theorem authorized_iff_refused {core : Core} (hcore : core.Follows) (l : LuaArgs) {caller : Bytes}
    (hne : caller ≠ []) (hlen : caller.length < 2 ^ 31) (b : Box) :
    OpenSips.SucceedsOnRefusal l caller b ∧ Kamailio.SucceedsOnRefusal core l caller b :=
  ⟨OpenSips.succeedsOnRefusal l hne hlen b, Kamailio.succeedsOnRefusal hcore l hne hlen b⟩

/-- `alice`, who is not a subscriber. -/
theorem authorized_iff_refused_alice :
    OpenSips.SucceedsOnRefusal stringArgs (ascii "alice") .init ∧
      Kamailio.SucceedsOnRefusal packingCore stringArgs (ascii "alice") .init :=
  authorized_iff_refused follows_packingCore stringArgs (by decide) (by decide) .init

end VoipBackend
