import VoipBackend.Backend.Sessions
import VoipBackend.Wire.Arguments
import VoipBackend.Wire.Stream

/-!
# Is a call found that Kamailio saved?

`tnt_save_call_sg` packs the five fields of a call into an array and hands the bytes to
`tnt_exec_call` as the text of its arguments.  That text does not start with a bracket, so it goes
out as one string: `rtpe_call_upsert` takes it for the Call-ID and gets no payload, and Tarantool
refuses the tuple.  So no call is ever saved, and `tnt_save_call_sg` says so, except where the size
of the packed array is no positive `int`: then the request has no arguments, the procedure answers
that the Call-ID is invalid, and `tnt_save_call_sg` returns 0 (`foundAfterSaving_iff`).
-/

namespace VoipBackend

open Library MsgPack

namespace Kamailio

/-! ## The client -/

/-- The arguments of `tnt_save_call_sg`. -/
structure SaveArgs where
  callId : Bytes
  nodeId : Bytes
  state : Bytes
  expires : Int32
  payload : Bytes

/-- The tuple it packs. -/
def SaveArgs.tuple (a : SaveArgs) : Value :=
  .array [.str a.callId, .str a.nodeId, .str a.state, .int a.expires.toInt, .str a.payload]

/-- A `str` with these bytes and the length `(int)size`; a length that is not positive leaves
nothing of them. -/
def toStr (s : Bytes) : Bytes := s.take (toInt s.length).toNat

/-- The request of `tnt_save_call_sg`. -/
def saveRequest (core : Core) (a : SaveArgs) : Request :=
  .call (ascii "rtpe_call_upsert") (some (toStr (core.pack a.tuple)))

/-- The request of `tnt_get_call_buf`. -/
def getRequest (callId : Bytes) : Request := .call (ascii "rtpe_call_get") (some (toStr callId))

/-- `tnt_save_call_sg`: what it returns. -/
def tntSaveCallSg (core : Core) (config : Config) (net : Net) (a : SaveArgs) (srv : Server) : ℤ :=
  if 0 < (request core config net (saveRequest core a) srv).2.2.rc then 0 else -1

/-! ## The server -/

/-- How Tarantool hands an argument to a procedure; a string is a Lua string. -/
structure LuaArgs where
  lua : Value → LuaValue
  lua_str : ∀ s : Bytes, lua (.str s) = .string s

/-- An argument by its position, `nil` if there are not so many. -/
def LuaArgs.at (l : LuaArgs) (args : List Value) (i : ℕ) : LuaValue :=
  (args[i]?.map l.lua).getD .nil

/-- `rtpe_call_upsert` with the arguments of a packet. -/
def serveUpsert (l : LuaArgs) (now : Clock) (args : List Value) (b : Box) :
    Except LuaError SessionReply × Box :=
  callUpsert now ⟨l.at args 0, l.at args 1, l.at args 2, l.at args 3⟩ b

/-- `rtpe_call_get` with the arguments of a packet. -/
def serveGet (l : LuaArgs) (args : List Value) (b : Box) : Option RtpeCall :=
  callGet (l.at args 0) b

/-- The procedure returned. -/
def Returned {α : Type} : Except LuaError α → Prop
  | .ok _ => True
  | .error _ => False

/-- What the server sends: a header with `IPROTO_OK` exactly if the procedure returned, the sync id
and the schema version, and a body. -/
structure CallAnswer (returned : Prop) where
  code : ℕ
  sync : ℕ
  schema : ℕ
  codeLt : code < 2 ^ 64
  isOk : code = iprotoOk ↔ returned
  header : Item
  headerValid : header.Valid
  headerValue : header.value =
    .map [(.int iprotoRequestType, .int code), (.int iprotoSync, .int sync), (.int 5, .int schema)]
  body : Item
  bodyValid : body.Valid
  entries : List (Value × Value)
  bodyValue : body.value = .map entries
  short : (header.bytes ++ body.bytes).length < 2 ^ 32

/-- The frame of an answer. -/
def CallAnswer.frame {returned : Prop} (r : CallAnswer returned) : Bytes :=
  VoipBackend.frame (r.header.bytes ++ r.body.bytes)

/-- The msgpack library follows the specification. -/
structure Core.Follows (core : Core) : Prop where
  packs : Packs core.pack
  unpacks : ∀ item : Item, item.Valid → ∀ rest, core.unpackNext (item.bytes ++ rest) =
    some (item.value, rest)
  viaU64 : ∀ n : ℕ, n < 2 ^ 64 → core.viaU64 (.int n) = n

/-! ## The property -/

/-- The space holds the call, and the request of `tnt_get_call_buf` finds it. -/
def Found (core : Core) (l : LuaArgs) (a : SaveArgs) (b : Box) : Prop :=
  ∃ call, b.rtpeCalls.get a.callId = some call ∧ call.nodeId = a.nodeId ∧
    call.payload = .string a.payload ∧
    ∀ sync, sync < 2 ^ 64 → ∃ args,
      readCall ((getRequest a.callId).pack core sync) = some (ascii "rtpe_call_get", args) ∧
        serveGet l args b = some call

/-- However the exchange goes: if what arrives is an answer of the server to the call in the
request, or the start of one, and `tnt_save_call_sg` returns 0, the call is found. -/
def FoundAfterSaving (core : Core) (l : LuaArgs) (a : SaveArgs) (b : Box) : Prop :=
  ∀ (config : Config) (net : Net) (srv : Server) (now : Clock) (sync : ℕ) (args : List Value),
    sync < 2 ^ 64 →
    readCall ((saveRequest core a).pack core sync) = some (ascii "rtpe_call_upsert", args) →
    ∀ r : CallAnswer (Returned (serveUpsert l now args b).1), net.answer.sends <+: r.frame →
      tntSaveCallSg core config net a srv = 0 → Found core l a (serveUpsert l now args b).2

/-! ## What the client makes of an answer -/

variable {core : Core}

/-- A frame that opens with what arrives is received whole or not at all. -/
theorem body_of_opens {sends body respBody rest s : Bytes} {respLen : ℕ}
    (hsends : sends <+: frame body) (hshort : body.length < 2 ^ 32) (hopens : Opens sends respLen s)
    (hbody : recvAll s respLen = some (respBody, rest)) : respBody = body := by
  obtain ⟨respHdr, hhdr, -, hlen⟩ := hopens
  obtain ⟨later, hlater⟩ := hsends
  have hall := recvAll_later hhdr later
  have hheader := recvAll_header body []
  rw [List.append_nil] at hheader
  rw [hlater, hheader, Option.some.injEq, Prod.mk.injEq, List.append_nil] at hall
  obtain ⟨hrespHdr, hs⟩ := hall
  rw [← hrespHdr, ofBigEndian_header hshort] at hlen
  have hwhole := recvAll_later hbody later
  have hback := recvAll_body body []
  rw [List.append_nil] at hback
  rw [← hs, ← hlen, hback, Option.some.injEq, Prod.mk.injEq] at hwhole
  exact hwhole.1.symm

/-- A request that succeeds has decoded the whole answer. -/
theorem decodeReply_of_rc_pos {config : Config} {net : Net} {req : Request} {srv : Server}
    {body : Bytes} (hsends : net.answer.sends <+: frame body) (hshort : body.length < 2 ^ 32)
    (h : 0 < (request core config net req srv).2.2.rc) :
    ∃ data, decodeReply core body = some data := by
  unfold request at h
  simp only at h
  split_ifs at h
  · cases h
  · obtain ⟨sent, ⟨exit, -, heq⟩ | ⟨respLen, s, hopens, heq | ⟨respBody, rest, hbody, ⟨-, heq⟩ |
      ⟨data, hdata, -⟩⟩⟩⟩ := tntExec_cases core config net req (getConnection core config net srv).1
        (getConnection core config net srv).2
    · rw [heq] at h
      cases h
    · rw [heq] at h
      cases h
    · rw [heq] at h
      cases h
    · rw [body_of_opens hsends hshort hopens hbody] at hdata
      exact ⟨data, hdata⟩

/-- An answer is decoded exactly if the procedure returned. -/
theorem decodeReply_answer (hcore : core.Follows) {returned : Prop} (r : CallAnswer returned) :
    (∃ data, decodeReply core (r.header.bytes ++ r.body.bytes) = some data) ↔ returned := by
  have hheader := hcore.unpacks r.header r.headerValid r.body.bytes
  have hbody := hcore.unpacks r.body r.bodyValid []
  rw [List.append_nil] at hbody
  have hcode : ((lastValue iprotoRequestType [(.int iprotoRequestType, .int r.code),
      (.int iprotoSync, .int r.sync), (.int 5, .int r.schema)]).map core.viaU64).getD 0xff =
      r.code := by
    simp [lastValue, iprotoRequestType, iprotoSync, hcore.viaU64 r.code r.codeLt]
  rw [decodeReply, hheader, r.headerValue]
  simp only [hcode, hbody, r.bodyValue]
  refine Iff.trans ?_ r.isOk
  by_cases hok : r.code = iprotoOk
  · rw [if_neg (not_not.2 hok)]
    exact iff_of_true ⟨_, rfl⟩ hok
  · rw [if_pos hok]
    exact iff_of_false (by simp) hok

/-! ## What the server is asked -/

theorem representable_tuple {a : SaveArgs} (hlen : ∀ s ∈ [a.callId, a.nodeId, a.state, a.payload],
    s.length < 2 ^ 32) : a.tuple.Representable := by
  simp only [List.mem_cons, List.not_mem_nil, or_false, forall_eq_or_imp, forall_eq] at hlen
  obtain ⟨hcall, hnode, hstate, hpayload⟩ := hlen
  have hexpires := a.expires.toInt_lt
  have hexpires' := a.expires.le_toInt
  simp only [SaveArgs.tuple, Value.Representable, ValuesRepresentable, List.length_cons,
    List.length_nil]
  exact ⟨by norm_num, hcall, hnode, hstate, ⟨by omega, by omega⟩, hpayload, trivial⟩

/-- What is packed does not start with a bracket. -/
theorem not_bracketed_pack {pack : Value → Bytes} (hpack : Packs pack) {vs : List Value}
    (h : (Value.array vs).Representable) (n : ℕ) : ¬ Bracketed ((pack (.array vs)).take n) := by
  obtain ⟨item, hvalid, hvalue, hbytes⟩ := hpack _ h
  have htag : item.tag ≠ 0x5b := by
    have hfix : ∀ n < 16, UInt8.ofNat (0x90 + n) ≠ 0x5b := by decide
    cases item with
    | fixarray items =>
      rw [Item.Valid] at hvalid
      exact hfix items.length hvalid.1
    | array w items =>
      rw [Item.tag]
      cases w <;> decide
    | _ => simp [Item.value] at hvalue
  intro hbracket
  rw [hbytes, Item.bytes] at hbracket
  cases n with
  | zero => cases hbracket
  | succ n => exact htag (Option.some.inj hbracket)

theorem length_toStr_lt (s : Bytes) : (toStr s).length < 2 ^ 31 := by
  have := (Int32.ofNat s.length).toInt_lt
  refine lt_of_le_of_lt (List.length_take_le _ _) ?_
  unfold toInt
  omega

theorem toStr_eq_nil_iff {s : Bytes} : toStr s = [] ↔ toInt s.length ≤ 0 := by
  rw [toStr, List.take_eq_nil_iff]
  constructor
  · rintro (h | rfl)
    · omega
    · decide
  · intro h
    exact Or.inl (by omega)

/-- A text of positive length is the only argument; otherwise there is none. -/
theorem readCall_saveRequest (hcore : core.Follows) {a : SaveArgs}
    (hlen : ∀ s ∈ [a.callId, a.nodeId, a.state, a.payload], s.length < 2 ^ 32) {sync : ℕ}
    (hsync : sync < 2 ^ 64) :
    readCall ((saveRequest core a).pack core sync) =
      some (ascii "rtpe_call_upsert", if toInt (core.pack a.tuple).length ≤ 0 then []
        else [.str (toStr (core.pack a.tuple))]) := by
  refine readCall_packet hcore.packs hsync (by decide) (length_toStr_lt _) ?_
  split_ifs with hsize
  · rw [toStr_eq_nil_iff.2 hsize]
    rfl
  · exact args_not_bracketed (fun h => hsize (toStr_eq_nil_iff.1 h))
      (not_bracketed_pack hcore.packs (representable_tuple hlen) _)

/-- With one argument there is no payload, and Tarantool refuses the tuple. -/
theorem serveUpsert_single (l : LuaArgs) (now : Clock) (text : Bytes) (b : Box) :
    ¬ Returned (serveUpsert l now [.str text] b).1 ∧ (serveUpsert l now [.str text] b).2 = b := by
  obtain ⟨e, he⟩ := callUpsert_of_isNil
    (a := ⟨l.at [.str text] 0, l.at [.str text] 1, l.at [.str text] 2, l.at [.str text] 3⟩)
    (l.lua_str text) rfl now b
  rw [serveUpsert, he]
  exact ⟨id, rfl⟩

/-- Without arguments the procedure returns an error of its own, and stores nothing. -/
theorem serveUpsert_nil (l : LuaArgs) (now : Clock) (b : Box) :
    Returned (serveUpsert l now [] b).1 ∧ (serveUpsert l now [] b).2 = b :=
  ⟨trivial, rfl⟩

/-- **No call is saved**: if the size of the packed tuple is a positive `int`, `tnt_save_call_sg`
returns -1. -/
theorem tntSaveCallSg_refused (hcore : core.Follows) {l : LuaArgs} {now : Clock} {b : Box}
    {text : Bytes} {config : Config} {net : Net} {a : SaveArgs} {srv : Server}
    (r : CallAnswer (Returned (serveUpsert l now [.str text] b).1))
    (hsends : net.answer.sends <+: r.frame) : tntSaveCallSg core config net a srv = -1 := by
  refine if_neg fun h => ?_
  obtain ⟨data, hdata⟩ := decodeReply_of_rc_pos hsends r.short h
  exact (serveUpsert_single l now text b).1 ((decodeReply_answer hcore r).1 ⟨data, hdata⟩)

/-! ## When it returns 0 -/

/-- An answer to a procedure that returned. -/
def okAnswer (returned : Prop) (h : returned) : CallAnswer returned where
  code := 0
  sync := 0
  schema := 0
  codeLt := by norm_num
  isOk := ⟨fun _ => h, fun _ => rfl⟩
  header := .fixmap [(.fixint 0, .fixint 0), (.fixint 1, .fixint 0), (.fixint 5, .fixint 0)]
  headerValid := by simp [Item.Valid, EntriesValid]
  headerValue := rfl
  body := .fixmap []
  bodyValid := by simp [Item.Valid, EntriesValid]
  entries := []
  bodyValue := rfl
  short := by decide

/-- An exchange in which nothing fails. -/
def quietNet (sends : Bytes) : Net where
  dial := ⟨0, none, false, false, [], ⟨false, [], false⟩, 0⟩
  answer := ⟨true, sends, true⟩
  errorTime := 0

/-- A server with a connection. -/
def connectedServer : Server := ⟨3, true, false, 0, 0, 0⟩

/-- A request that gets an answer it can decode succeeds. -/
theorem rc_quietNet (config : Config) (req : Request) {body : Bytes} (hshort : body.length ≤ 1048576)
    {data : Option Value} (hdata : decodeReply core body = some data) :
    (request core config (quietNet (frame body)) req connectedServer).2.2.rc = 1 := by
  have hheader := recvAll_header body []
  have hwhole := recvAll_body body []
  have hlen : ofBigEndian (bigEndian 4 body.length) = body.length :=
    ofBigEndian_bigEndian (by norm_num; omega)
  simp only [List.append_nil] at hheader hwhole
  simp only [request, getConnection, connectedServer, Report.usable, tntExec, quietNet, hheader,
    List.head?_cons, List.drop_succ_cons, List.drop_zero, hlen, hwhole, hdata,
    if_neg (not_lt.2 hshort)]
  simp

/-- If the procedure returned and nothing fails, `tnt_save_call_sg` returns 0. -/
theorem tntSaveCallSg_accepted (hcore : core.Follows) (config : Config) (a : SaveArgs)
    {returned : Prop} (h : returned) :
    tntSaveCallSg core config (quietNet (okAnswer returned h).frame) a connectedServer = 0 := by
  obtain ⟨data, hdata⟩ := (decodeReply_answer hcore (okAnswer returned h)).2 h
  have hlen : ((okAnswer returned h).header.bytes ++ (okAnswer returned h).body.bytes).length = 8 :=
    rfl
  have hrc := rc_quietNet config (saveRequest core a) (by rw [hlen]; norm_num) hdata
  rw [tntSaveCallSg, CallAnswer.frame, hrc]
  rfl

/-! ## What `tnt_get_call_buf` asks for -/

/-- The Call-ID goes out as it is. -/
def Askable (callId : Bytes) : Prop :=
  callId ≠ [] ∧ ¬ Bracketed callId ∧ callId.length < 2 ^ 31

theorem toStr_of_lt {s : Bytes} (h : s.length < 2 ^ 31) : toStr s = s := by
  rw [toStr, toInt_of_lt h, Int.toNat_natCast, List.take_length]

theorem toStr_of_le {s : Bytes} (h : 2 ^ 31 ≤ s.length) (hlen : s.length < 2 ^ 32) :
    toStr s = [] :=
  toStr_eq_nil_iff.2 (toInt_neg h hlen).le

/-- What `tnt_get_call_buf` asks for is found if the Call-ID goes out as it is, and not otherwise. -/
theorem serveGet_getRequest (hcore : core.Follows) (l : LuaArgs) {callId : Bytes}
    (hlen : callId.length < 2 ^ 32) {sync : ℕ} (hsync : sync < 2 ^ 64) {b : Box} {call : RtpeCall}
    (hcall : b.rtpeCalls.get callId = some call) :
    (∃ args, readCall ((getRequest callId).pack core sync) = some (ascii "rtpe_call_get", args) ∧
      serveGet l args b = some call) ↔ Askable callId := by
  have hargs : ∀ {vs}, args (some (toStr callId)) = .array vs →
      readCall ((getRequest callId).pack core sync) = some (ascii "rtpe_call_get", vs) := fun h =>
    readCall_packet hcore.packs hsync (by decide) (length_toStr_lt _) h
  have hnone : args (some (toStr callId)) = .array [] →
      ¬ ∃ args, readCall ((getRequest callId).pack core sync) =
        some (ascii "rtpe_call_get", args) ∧ serveGet l args b = some call := by
    rintro h ⟨args, heq, hget⟩
    rw [hargs h, Option.some.injEq, Prod.mk.injEq] at heq
    rw [← heq.2] at hget
    cases hget
  by_cases hlong : 2 ^ 31 ≤ callId.length
  · refine iff_of_false (hnone ?_) fun h => absurd h.2.2 (by omega)
    rw [toStr_of_le hlong hlen]
    rfl
  rw [toStr_of_lt (by omega)] at hargs hnone
  by_cases hnil : callId = []
  · refine iff_of_false (hnone ?_) fun h => h.1 hnil
    rw [hnil]
    rfl
  by_cases hbracket : Bracketed callId
  · exact iff_of_false (hnone (args_bracketed hbracket)) fun h => h.2.1 hbracket
  · refine iff_of_true ⟨_, hargs (args_not_bracketed hnil hbracket), ?_⟩
      ⟨hnil, hbracket, by omega⟩
    show callGet (l.lua (.str callId)) b = some call
    rw [l.lua_str]
    exact hcall

theorem found_iff (hcore : core.Follows) (l : LuaArgs) {a : SaveArgs}
    (hlen : a.callId.length < 2 ^ 32) (b : Box) :
    Found core l a b ↔ (∃ call, b.rtpeCalls.get a.callId = some call ∧ call.nodeId = a.nodeId ∧
      call.payload = .string a.payload) ∧ Askable a.callId := by
  constructor
  · rintro ⟨call, hcall, hnode, hpayload, hget⟩
    exact ⟨⟨call, hcall, hnode, hpayload⟩,
      (serveGet_getRequest hcore l hlen (by norm_num) hcall).1 (hget 0 (by norm_num))⟩
  · rintro ⟨⟨call, hcall, hnode, hpayload⟩, hask⟩
    exact ⟨call, hcall, hnode, hpayload, fun sync hsync =>
      (serveGet_getRequest hcore l hlen hsync hcall).2 hask⟩

end Kamailio

open Kamailio

/-- **Is a call found that Kamailio saved?**  `tnt_save_call_sg` returns 0 only where the size of the
packed tuple is no positive `int`, and nothing is stored then: the call is found if it had been
stored before, and its Call-ID is one that `tnt_get_call_buf` can ask for. -/
theorem foundAfterSaving_iff {core : Core} (hcore : core.Follows) (l : LuaArgs) {a : SaveArgs}
    (hlen : ∀ s ∈ [a.callId, a.nodeId, a.state, a.payload], s.length < 2 ^ 32) (b : Box) :
    FoundAfterSaving core l a b ↔ 0 < toInt (core.pack a.tuple).length ∨
      (∃ call, b.rtpeCalls.get a.callId = some call ∧ call.nodeId = a.nodeId ∧
        call.payload = .string a.payload) ∧ Askable a.callId := by
  have hcallId : a.callId.length < 2 ^ 32 := hlen _ List.mem_cons_self
  rw [← found_iff hcore l hcallId]
  by_cases hsize : toInt (core.pack a.tuple).length ≤ 0
  · -- No arguments: the procedure returns, and nothing is stored.
    have hnone : ∀ sync, sync < 2 ^ 64 →
        readCall ((saveRequest core a).pack core sync) = some (ascii "rtpe_call_upsert", []) := by
      intro sync hsync
      rw [readCall_saveRequest hcore hlen hsync, if_pos hsize]
    constructor
    · intro h
      have hreturned := (serveUpsert_nil l (Clock.ofSeconds 0 (by norm_num)) b).1
      exact Or.inr (h ⟨[], [], 0, 0⟩ _ connectedServer _ 0 [] (by norm_num) (hnone 0 (by norm_num))
        (okAnswer _ hreturned) (List.prefix_refl _) (tntSaveCallSg_accepted hcore _ a hreturned))
    · rintro (hpos | hfound)
      · exact absurd hsize (not_le.2 hpos)
      · intro config net srv now sync args hsync hargs r hsends hrc
        rw [hnone sync hsync, Option.some.injEq, Prod.mk.injEq] at hargs
        obtain ⟨-, rfl⟩ := hargs
        exact hfound
  · -- One argument: the tuple is refused.
    refine iff_of_true ?_ (Or.inl (not_le.1 hsize))
    intro config net srv now sync args hsync hargs r hsends hrc
    rw [readCall_saveRequest hcore hlen hsync, if_neg hsize, Option.some.injEq,
      Prod.mk.injEq] at hargs
    obtain ⟨-, rfl⟩ := hargs
    rw [tntSaveCallSg_refused hcore r hsends] at hrc
    cases hrc

theorem follows_packingCore : packingCore.Follows where
  packs := packs_packShortest
  unpacks _ hvalid rest := unpack_bytes hvalid rest
  viaU64 n h := by
    show ((n : ℤ) % 2 ^ 64).toNat = n
    omega

/-- How Tarantool hands strings to procedures; nothing else is passed here. -/
def stringArgs : LuaArgs where
  lua
    | .str s => .string s
    | _ => .nil
  lua_str _ := rfl

/-- A small call is not saved, and `tnt_save_call_sg` says so. -/
theorem foundAfterSaving_small :
    FoundAfterSaving packingCore stringArgs ⟨ascii "c", ascii "n", ascii "active", 60, ascii "v"⟩
      Box.init :=
  (foundAfterSaving_iff follows_packingCore stringArgs (by decide) Box.init).2
    (Or.inl (by decide +kernel))

/-- The size of the tuple with a payload of 2 GiB. -/
theorem length_pack_large {s : Bytes} (h : s.length = 2 ^ 31) :
    (packShortest (SaveArgs.tuple ⟨[], [], [], 60, s⟩)).length = 2 ^ 31 + 10 := by
  have hexpires : shortestNat 60 = .fixint 60 := rfl
  simp [packShortest, SaveArgs.tuple, Value.shortest, shortestItems, shortestArray, shortestStr, h,
    hexpires, Item.bytes, Item.payload, itemsBytes, LenWidth.bytes]

/-- With a payload of 2 GiB `tnt_save_call_sg` returns 0, and the call is not there. -/
theorem not_foundAfterSaving_large :
    ¬ ∀ (core : Core), core.Follows → ∀ (l : LuaArgs) (a : SaveArgs),
      (∀ s ∈ [a.callId, a.nodeId, a.state, a.payload], s.length < 2 ^ 32) → 0 < a.expires.toInt →
        ∀ b : Box, FoundAfterSaving core l a b := by
  intro h
  have hs : (List.replicate (2 ^ 31) (97 : UInt8)).length = 2 ^ 31 := List.length_replicate
  generalize List.replicate (2 ^ 31) (97 : UInt8) = s at hs
  have hlen : ∀ x ∈ [[], [], [], s], List.length x < 2 ^ 32 := by simp [hs]
  have hexpires : 0 < (60 : Int32).toInt := by decide
  have hfound := h packingCore follows_packingCore stringArgs ⟨[], [], [], 60, s⟩ hlen hexpires
    Box.init
  rcases (foundAfterSaving_iff follows_packingCore stringArgs hlen Box.init).1 hfound with
    hsize | ⟨⟨call, hcall, -⟩, -⟩
  · rw [packingCore, length_pack_large hs] at hsize
    exact absurd hsize (by decide)
  · cases hcall

end VoipBackend
