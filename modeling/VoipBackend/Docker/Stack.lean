import VoipBackend.Backend.SweepRace
import VoipBackend.Docker.MediaServer

/-!
# The media sessions of the containers

The daemon, the driver in it, its connections, the procedures of the server and the cleaner beside
them.  A request the driver has sent is on its way until the server takes it from its connection, in
its own time, or the connection breaks and loses what is left on it.  What the network does, when the
server gets to work, and what the daemon is told are given from outside.

* `rows_offered` — whatever happens, the space holds nothing but calls the daemon was told to save,
  with what the daemon says of them and 120 seconds to live.
* `session_kept` — such a call outlives everything in these 120 seconds, the end of the call
  included: the commands that end calls remove the one call with the constant Call-ID.
-/

namespace VoipBackend

open Library MsgPack RtpEngine

namespace Docker

/-! ## The system -/

/-- The daemon's client, its connections, and the server. -/
structure Stack where
  client : Client
  /-- The requests that are on their way, connection by connection, the oldest first. -/
  wires : List (List Bytes)
  cleaner : Cleaner
  box : Box

/-- Nothing is on its way, the space is empty, and the cleaner has been started. -/
def Stack.init (c : Client) : Stack := ⟨c, [], .awake, .init⟩

/-- What can happen. -/
inductive StackAction where
  /-- The daemon receives a datagram. -/
  | command (data : Bytes) (net : Net)
  /-- The server takes the oldest request of a connection. -/
  | serve (i : ℕ) (now : Clock)
  /-- A connection breaks. -/
  | lose (i : ℕ)
  /-- The turn of the cleaner. -/
  | clean (now : Clock)

/-- The request an operation has sent.  A login has been answered before that. -/
def requestOf (r : Report) : Option Bytes := if r.exit = .completed then r.sent.getLast? else none

/-- The connections after an operation: a request goes over the new one if there is one, and over
the last one otherwise. -/
def sendOver (r : Report) (wires : List (List Bytes)) : List (List Bytes) :=
  match requestOf r with
  | none => wires
  | some packet =>
      if r.established then wires ++ [[packet]]
      else wires.dropLast ++ [wires.getLast?.getD [] ++ [packet]]

/-- One step. -/
def Stack.step (nodeId : Bytes) (l : LuaValues) (s : Stack) : StackAction → Stack
  | .command data net =>
      let (r, c) := perform nodeId data net s.client
      { s with client := c, wires := sendOver r s.wires }
  | .serve i now =>
      match s.wires[i]? with
      | some (packet :: rest) =>
          { s with wires := s.wires.set i rest, box := servePacket l now packet s.box }
      | _ => s
  | .lose i => { s with wires := s.wires.set i [] }
  | .clean now =>
      let (w, b) := s.cleaner.resume now true s.box
      { s with cleaner := w, box := b }

/-! ## What the daemon sends -/

variable {nodeId : Bytes} {l : LuaValues}

theorem length_savedCallId_le (buffer : Bytes) : (savedCallId buffer).length ≤ 127 := by
  have hsample : sampleCallId.length ≤ 127 := by decide
  unfold savedCallId
  split
  · exact hsample
  · split_ifs
    · unfold CString.scanSet
      simp only
      split_ifs
      · exact hsample
      · exact List.length_take_le _ _
    · exact hsample

/-- The buffers of the daemon are short. -/
theorem length_le_of_save {data callId : Bytes} (h : ngCommandOf data = .save callId) :
    callId.length ≤ 127 := by
  unfold ngCommandOf at h
  split_ifs at h
  cases h
  exact length_savedCallId_le _

/-- A request of the daemon: for a call of which `P` holds, or for the one with the constant
Call-ID. -/
inductive IsRequest (nodeId : Bytes) (P : Bytes → Prop) (packet : Bytes) : Prop
  | save {syncId : ℕ} {callId : Bytes} (hsync : syncId < 2 ^ 64) (hid : P callId)
      (hlen : callId.length ≤ 127)
      (hpack : packCallUpsert syncId (some (nodeId.take 63)) (mediaInfo callId) = some packet)
  | delete {syncId : ℕ} (hsync : syncId < 2 ^ 64)
      (hpack : packCallDelete syncId (some sampleCallId) = some packet)

theorem IsRequest.mono {P Q : Bytes → Prop} {packet : Bytes} (h : IsRequest nodeId P packet)
    (hPQ : ∀ callId, P callId → Q callId) : IsRequest nodeId Q packet := by
  cases h with
  | save hsync hid hlen hpack => exact .save hsync (hPQ _ hid) hlen hpack
  | delete hsync hpack => exact .delete hsync hpack

/-- What a one-way operation has sent is its packet. -/
theorem requestOf_sendOneWay {config : RtpEngine.Config} {net : Net} {packet : Option Bytes}
    {c : Client} {sent : Bytes}
    (h : requestOf (sendOneWay config net packet c).1 = some sent) : packet = some sent := by
  unfold sendOneWay at h
  cases packet with
  | none => cases h
  | some packet =>
    simp only at h
    split_ifs at h with hexit hsent
    · rw [requestOf, if_neg hexit] at h
      cases h
    · cases h
    · rw [requestOf] at h
      split_ifs at h
      rw [List.getLast?_concat] at h
      exact h

/-- **What the daemon sends** is a request for the call of the datagram. -/
theorem isRequest_perform {data packet : Bytes} {net : Net} {c : Client}
    (h : requestOf (perform nodeId data net c).1 = some packet) :
    IsRequest nodeId (fun callId => ngCommandOf data = .save callId) packet := by
  unfold perform at h
  cases hcommand : ngCommandOf data with
  | save callId =>
    rw [hcommand] at h
    have hpack := requestOf_sendOneWay h
    exact .save c.syncId.toNat_lt rfl (length_le_of_save hcommand) hpack
  | delete =>
    rw [hcommand] at h
    exact .delete c.syncId.toNat_lt (requestOf_sendOneWay h)
  | none =>
    rw [hcommand] at h
    cases h

/-! ## What the server makes of it -/

/-- What every call of the daemon is stored with. -/
def mediaPayload (l : LuaValues) : LuaValue := l.lua (.map (mediaInfo []).payloadMap)

/-- The row of a call, stored at the time `now`. -/
def mediaRow (nodeId : Bytes) (l : LuaValues) (callId : Bytes) (createdAt now : ℕ) : RtpeCall :=
  ⟨callId, nodeId.take 63, ascii "active", createdAt, now, now + 120, mediaPayload l⟩

theorem ttl_media (nodeId : Bytes) (l : LuaValues) (callId : Bytes) :
    ((mediaInfo callId).luaArgs l callId nodeId).ttl = ((120 : ℕ) : ℚ) := by
  have hsec : (if 0 < (mediaInfo callId).ttlSec then (mediaInfo callId).ttlSec.toNat else 3600) =
      120 := if_pos (show (0 : UInt32) < 120 by decide)
  have hpos : (0 : ℚ) < ((120 : ℕ) : ℚ) := by norm_num
  simp only [CallUpsertArgs.ttl, CallInfo.luaArgs, hsec, if_pos hpos]

theorem payload_media (nodeId : Bytes) (l : LuaValues) (callId : Bytes) :
    ((mediaInfo callId).luaArgs l callId nodeId).payload.isNil = false := by
  show (l.lua _).isNil = false
  rw [l.lua_map]
  rfl

/-- The tuple of a call passes the check. -/
theorem row_media (nodeId : Bytes) (l : LuaValues) (callId : Bytes) (now : Clock) (createdAt : ℕ) :
    ((mediaInfo callId).luaArgs l callId (nodeId.take 63)).row callId createdAt now.epoch =
      .ok (mediaRow nodeId l callId createdAt now.epoch) := by
  have hexpires : unsigned? ((now.epoch : ℚ) + ((120 : ℕ) : ℚ)) = some (now.epoch + 120) := by
    have hlt := now.epoch_lt
    rw [← Nat.cast_add]
    exact unsigned?_natCast (by omega)
  rw [CallUpsertArgs.row, ttl_media, hexpires, checkPresent_of_not_nil (payload_media _ l callId)]
  rfl

/-- A tuple that passes the check is stored. -/
theorem callUpsert_of_row {now : Clock} {a : CallUpsertArgs} {b : Box} {callId : LuaString}
    {c : RtpeCall} (hid : a.callId = .string callId)
    (hrow : a.row callId (((b.rtpeCalls.get callId).map RtpeCall.createdAt).getD now.epoch)
      now.epoch = .ok c) :
    (callUpsert now a b).2 = { b with rtpeCalls := b.rtpeCalls.put c } := by
  rw [callUpsert, hid]
  simp only [hrow]

/-- Registering a call of the daemon stores its row. -/
theorem callUpsert_media (nodeId : Bytes) (l : LuaValues) (callId : Bytes) (now : Clock) (b : Box) :
    (callUpsert now ((mediaInfo callId).luaArgs l callId (nodeId.take 63)) b).2 =
      { b with rtpeCalls := b.rtpeCalls.put (mediaRow nodeId l callId
        (((b.rtpeCalls.get callId).map RtpeCall.createdAt).getD now.epoch) now.epoch) } := by
  exact callUpsert_of_row rfl (row_media nodeId l callId now _)

/-- The requests of the daemon are short. -/
theorem length_upsert_lt {syncId : ℕ} {callId packet : Bytes} (hlen : callId.length ≤ 127)
    (hpack : packCallUpsert syncId (some (nodeId.take 63)) (mediaInfo callId) = some packet) :
    packet.length < 2 ^ 32 := by
  have hid : (mediaInfo callId).callId = some callId := rfl
  obtain ⟨packet', hpacket, hsize⟩ := length_packCallUpsert syncId (some (nodeId.take 63)) hid
  have hsame := Option.some.inj (hpacket.symm.trans hpack)
  subst hsame
  have hnumber : ∀ n, uintSize n ≤ 9 := by
    intro n
    unfold uintSize
    split_ifs <;> omega
  have hstr : ∀ s : Bytes, cutSize s ≤ 5 + s.length := fun s =>
    (strSize_le _).trans (Nat.add_le_add_left (Nat.mod_le _ _) 5)
  have hnode : (nodeId.take 63).length ≤ 63 := List.length_take_le _ _
  have hsync := hnumber syncId
  have hcall := hstr callId
  have hnode' := hstr (nodeId.take 63)
  have hcaller : cutSize ((mediaInfo callId).callerIp.getD (ascii "0.0.0.0")) ≤ 100 := by
    show cutSize (ascii "172.28.0.100") ≤ 100
    decide
  have hcallee : cutSize ((mediaInfo callId).calleeIp.getD (ascii "0.0.0.0")) ≤ 100 := by
    show cutSize (ascii "172.28.0.101") ≤ 100
    decide
  have hsuite : cutSize ((mediaInfo callId).srtpSuite.getD (ascii "NONE")) ≤ 100 := by
    show cutSize (ascii "AES_CM_128_HMAC_SHA1_80") ≤ 100
    decide
  have hports := hnumber (portToU64 (mediaInfo callId).callerPort)
  have hports' := hnumber (portToU64 (mediaInfo callId).calleePort)
  have httl := hnumber (if 0 < (mediaInfo callId).ttlSec then (mediaInfo callId).ttlSec.toNat
    else 3600)
  rw [hsize, upsertSize, Option.getD_some]
  omega

/-- **What a request of the daemon does.**  It stores the row of a call, or removes the one with the
constant Call-ID. -/
theorem serve_request {P : Bytes → Prop} {packet : Bytes} (h : IsRequest nodeId P packet)
    (l : LuaValues) (now : Clock) (b : Box) :
    (∃ callId, P callId ∧ servePacket l now packet b =
      { b with rtpeCalls := b.rtpeCalls.put (mediaRow nodeId l callId
        (((b.rtpeCalls.get callId).map RtpeCall.createdAt).getD now.epoch) now.epoch) }) ∨
    servePacket l now packet b = { b with rtpeCalls := b.rtpeCalls.delete sampleCallId } := by
  cases h with
  | @save syncId callId hsync hid hlen hpack =>
    refine Or.inl ⟨callId, hid, ?_⟩
    have hshort := length_upsert_lt hlen hpack
    have hnode : (nodeId.take 63).length ≤ 63 := List.length_take_le _ _
    have hstrings : ∀ s ∈ callId :: nodeId.take 63 :: (mediaInfo callId).strings,
        s.length < 2 ^ 32 := by
      have hinfo : ∀ s ∈ (mediaInfo callId).strings, s.length < 2 ^ 32 := by
        show ∀ s ∈ [ascii "172.28.0.100", ascii "172.28.0.101", ascii "AES_CM_128_HMAC_SHA1_80"],
          s.length < 2 ^ 32
        decide
      refine List.forall_mem_cons.2 ⟨by omega, List.forall_mem_cons.2 ⟨by omega, hinfo⟩⟩
    rw [serve_packCallUpsert l hsync hpack rfl hstrings (by omega), callUpsert_media]
  | @delete syncId hsync hpack =>
    obtain ⟨packet', hpacket, hsize⟩ := length_packCallDelete syncId sampleCallId
    have hsame := Option.some.inj (hpacket.symm.trans hpack)
    subst hsame
    have hnumber : uintSize syncId ≤ 9 := by
      unfold uintSize
      split_ifs <;> omega
    have hid : cutSize sampleCallId ≤ 100 := by decide
    have hlen : sampleCallId.length < 2 ^ 32 := by decide
    rw [deleteSize] at hsize
    exact Or.inr ((serve_packCallDelete l hsync hpack hlen (by omega) now b).trans
      (callDelete_string sampleCallId b))

/-! ## What the space holds -/

/-- The daemon was told to save this call. -/
def Offered (before : List StackAction) (callId : Bytes) : Prop :=
  ∃ data net, StackAction.command data net ∈ before ∧ ngCommandOf data = .save callId

/-- The requests on their way and the rows are all the daemon's, for calls it was told to save. -/
structure Stack.Traced (nodeId : Bytes) (l : LuaValues) (before : List StackAction) (s : Stack) :
    Prop where
  wires : ∀ wire ∈ s.wires, ∀ packet ∈ wire, IsRequest nodeId (Offered before) packet
  rows : ∀ c ∈ s.box.rtpeCalls.rows, Offered before c.callId ∧
    c = mediaRow nodeId l c.callId c.createdAt c.updatedAt

theorem Offered.append {before : List StackAction} {callId : Bytes} (h : Offered before callId)
    (after : List StackAction) : Offered (before ++ after) callId := by
  obtain ⟨data, net, hmem, hsave⟩ := h
  exact ⟨data, net, List.mem_append_left after hmem, hsave⟩

theorem Stack.Traced.append {before : List StackAction} {s : Stack}
    (h : s.Traced nodeId l before) (after : List StackAction) :
    s.Traced nodeId l (before ++ after) :=
  ⟨fun wire hwire packet hpacket =>
      (h.wires wire hwire packet hpacket).mono fun _ hid => hid.append after,
    fun c hc => ⟨(h.rows c hc).1.append after, (h.rows c hc).2⟩⟩

/-- What is on its way after an operation was on its way before, or is its request. -/
theorem mem_sendOver {r : Report} {wires : List (List Bytes)} {wire : List Bytes} {packet : Bytes}
    (hwire : wire ∈ sendOver r wires) (hpacket : packet ∈ wire) :
    (∃ wire ∈ wires, packet ∈ wire) ∨ requestOf r = some packet := by
  unfold sendOver at hwire
  split at hwire
  · exact Or.inl ⟨wire, hwire, hpacket⟩
  · next request hrequest =>
    split_ifs at hwire
    · rcases List.mem_append.1 hwire with hwire | hwire
      · exact Or.inl ⟨wire, hwire, hpacket⟩
      · rw [List.mem_singleton.1 hwire, List.mem_singleton] at hpacket
        exact Or.inr (hpacket ▸ hrequest)
    · rcases List.mem_append.1 hwire with hwire | hwire
      · exact Or.inl ⟨wire, (List.dropLast_prefix wires).subset hwire, hpacket⟩
      · rw [List.mem_singleton.1 hwire] at hpacket
        rcases List.mem_append.1 hpacket with hpacket | hpacket
        · cases hlast : wires.getLast? with
          | none =>
            rw [hlast] at hpacket
            cases hpacket
          | some last =>
            rw [hlast] at hpacket
            exact Or.inl ⟨last, List.mem_of_getLast? hlast, hpacket⟩
        · exact Or.inr (List.mem_singleton.1 hpacket ▸ hrequest)

/-- A turn of the cleaner stores nothing. -/
theorem mem_rows_resume {now : Clock} {w : Cleaner} {b : Box} {c : RtpeCall}
    (h : c ∈ (w.resume now true b).2.rtpeCalls.rows) : c ∈ b.rtpeCalls.rows := by
  rcases w.resume_cases now true b with heq | ⟨key, space, heq⟩
  · rwa [heq] at h
  · rw [heq] at h
    cases space with
    | rtpeCalls => exact List.mem_of_mem_filter h
    | kamDialogs => exact h
    | kamUsrloc => exact h

/-- **One step** keeps everything traced. -/
theorem traced_step {before : List StackAction} {s : Stack} (h : s.Traced nodeId l before)
    (a : StackAction) : (s.step nodeId l a).Traced nodeId l (before ++ [a]) := by
  have hkept := h.append [a]
  cases a with
  | command data net =>
    refine ⟨fun wire hwire packet hpacket => ?_, hkept.rows⟩
    rcases mem_sendOver hwire hpacket with ⟨wire, hwire, hpacket⟩ | hrequest
    · exact hkept.wires wire hwire packet hpacket
    · exact (isRequest_perform hrequest).mono fun callId hsave =>
        ⟨data, net, List.mem_append_right before List.mem_cons_self, hsave⟩
  | serve i now =>
    rw [Stack.step]
    split
    · next packet rest hwire =>
      have hmem : packet :: rest ∈ s.wires := List.mem_of_getElem? hwire
      refine ⟨fun wire hw p hp => ?_, ?_⟩
      · rcases List.mem_or_eq_of_mem_set hw with hw | rfl
        · exact hkept.wires wire hw p hp
        · exact hkept.wires _ hmem p (List.mem_cons_of_mem packet hp)
      · intro c hc
        rcases serve_request (hkept.wires _ hmem packet List.mem_cons_self) l now s.box with
          ⟨callId, hid, heq⟩ | heq
        · rw [heq] at hc
          rcases KeyedTable.mem_putRow hc with rfl | hc
          · exact ⟨hid, rfl⟩
          · exact hkept.rows c hc
        · rw [heq] at hc
          exact hkept.rows c (List.mem_of_mem_filter hc)
    · exact hkept
  | lose i =>
    refine ⟨fun wire hw p hp => ?_, hkept.rows⟩
    rcases List.mem_or_eq_of_mem_set hw with hw | rfl
    · exact hkept.wires wire hw p hp
    · cases hp
  | clean now => exact ⟨hkept.wires, fun c hc => hkept.rows c (mem_rows_resume hc)⟩

/-- Everything is traced in every run. -/
theorem traced_run (nodeId : Bytes) (l : LuaValues) (c : Client) (before : List StackAction) :
    (run (Stack.step nodeId l) (.init c) before).Traced nodeId l before := by
  induction before using List.reverseRecOn with
  | nil =>
    exact ⟨fun wire hwire => absurd hwire List.not_mem_nil,
      fun row hrow => absurd hrow List.not_mem_nil⟩
  | append_singleton before a ih =>
    rw [run_append]
    exact traced_step ih a

/-- **The space holds what the daemon was told to save.**  Whatever the network does, whenever the
server gets to work and whatever the daemon is sent, a row is for a call of an offer or an answer,
with the node and the addresses of the daemon, and expires 120 seconds after it was last written. -/
theorem rows_offered (nodeId : Bytes) (l : LuaValues) (client : Client)
    (before : List StackAction) :
    ∀ c ∈ (run (Stack.step nodeId l) (.init client) before).box.rtpeCalls.rows,
      Offered before c.callId ∧ c.nodeId = nodeId.take 63 ∧ c.state = ascii "active" ∧
        c.payload = mediaPayload l ∧ c.expiresAt = c.updatedAt + 120 := by
  intro c hc
  obtain ⟨hid, hrow⟩ := (traced_run nodeId l client before).rows c hc
  refine ⟨hid, ?_, ?_, ?_, ?_⟩
  all_goals
    rw [hrow]
    rfl

mutual

/-- How strings, numbers and maps are handed to a procedure; nothing else is passed here. -/
def luaOf : Value → LuaValue
  | .str s => .string s
  | .int z => .number z
  | .map entries => .table (luaEntries entries)
  | _ => .nil

def luaEntries : List (Value × Value) → List (LuaValue × LuaValue)
  | [] => []
  | (key, v) :: entries => (luaOf key, luaOf v) :: luaEntries entries

end

theorem luaEntries_eq_map (entries : List (Value × Value)) :
    luaEntries entries = entries.map fun e => (luaOf e.1, luaOf e.2) := by
  induction entries with
  | nil => rfl
  | cons e entries ih => rw [luaEntries, ih, List.map_cons]

/-- Values as the daemon sends them. -/
def mediaValues : LuaValues where
  lua := luaOf
  lua_str _ := rfl
  lua_int _ _ := by rw [luaOf, Int.cast_natCast]
  lua_map entries := by rw [luaOf, luaEntries_eq_map]

/-- A client that is logged in. -/
def loggedIn : Client := ⟨3, .authenticated, 2, 0, 0⟩

/-- A network on which everything goes well. -/
def healthy : Net where
  dial := ⟨0, some 3, true, true, [], ⟨true, [], true⟩, 0⟩
  drained := []
  takes := true
  sends := []
  callocs := []
  stray _ := (0, [])
  errorTime := 0

/-- The offer of the call `a`, and the server's turn. -/
def offeredA : List StackAction :=
  [.command ((Kamailio.proxy (uac 9)).rtpeReq inviteA.callId) healthy,
    .serve 0 noon]

theorem offeredA_rows :
    ((run (Stack.step (ascii "rtpe-node-01") mediaValues) (.init loggedIn)
      offeredA).box.rtpeCalls.rows.map fun c => (c.callId, c.updatedAt)) =
        [(ascii "a", 1700000000)] := by
  decide +kernel

theorem rows_offered_offeredA :
    ∃ c ∈ (run (Stack.step (ascii "rtpe-node-01") mediaValues) (.init loggedIn)
      offeredA).box.rtpeCalls.rows, c.payload = mediaPayload mediaValues ∧
        c.expiresAt = c.updatedAt + 120 := by
  have hrow : (ascii "a", 1700000000) ∈ (run (Stack.step (ascii "rtpe-node-01") mediaValues)
      (.init loggedIn) offeredA).box.rtpeCalls.rows.map fun c => (c.callId, c.updatedAt) := by
    rw [offeredA_rows]
    exact List.mem_cons_self
  obtain ⟨c, hc, -⟩ := List.mem_map.1 hrow
  obtain ⟨-, -, -, hpayload, hexpires⟩ := rows_offered _ _ _ _ c hc
  exact ⟨c, hc, hpayload, hexpires⟩

/-! ## How long a call is kept -/

/-- The server's clock in a step. -/
def StackAction.clock : StackAction → Option Clock
  | .serve _ now => some now
  | .clean now => some now
  | _ => none

/-- The cleaner has not collected the key, and the sweep it is in began before `e`. -/
structure Spares (w : Cleaner) (key : Bytes) (e : ℕ) : Prop where
  collected : ∀ t, ¬ (Worker.backend (.cleaner w)).Collected t .rtpeCalls key
  began : ∀ now : Clock, now.epoch < e → w.sweepTime now < e

/-- The row is there, or a later one of the same call, and the cleaner spares it. -/
structure Stack.Keeps (s : Stack) (c : RtpeCall) : Prop where
  row : ∃ c', s.box.rtpeCalls.get c.callId = some c' ∧ c'.createdAt = c.createdAt ∧
    c.expiresAt ≤ c'.expiresAt
  spares : Spares s.cleaner c.callId c.expiresAt

/-- A cleaner that is not in a sweep starts the next one at its own time. -/
theorem sweepTime_resume (now now' : Clock) (w : Cleaner) (b : Box) :
    (w.resume now true b).1.sweepTime now' = now'.epoch ∨
      (w.resume now true b).1.sweepTime now' = w.sweepTime now := by
  have hdrain : ∀ t purged spaces,
      (drainSpaces true t b purged spaces).1.sweepTime now' = now'.epoch ∨
        (drainSpaces true t b purged spaces).1.sweepTime now' = t := by
    intro t purged spaces
    rcases drainSpaces_collects true t b purged spaces with h |
      ⟨space, later, key, keys, size, purged', -, h⟩
    · rw [h]
      exact Or.inl rfl
    · rw [h]
      exact Or.inr rfl
  cases w with
  | awake =>
    rw [Cleaner.resume, if_pos rfl]
    exact hdrain now.epoch 0 sweepOrder
  | deleting t space later keys size purged =>
    cases keys with
    | nil => exact Or.inr rfl
    | cons key keys => exact Or.inr rfl
  | yielding t space later purged => exact hdrain t purged (space :: later)
  | stopped => exact Or.inl rfl

/-- **A turn of the cleaner** before the row expires does not touch it. -/
theorem keeps_clean (nodeId : Bytes) (l : LuaValues) {s : Stack} {c : RtpeCall} (h : s.Keeps c)
    {now : Clock} (hnow : now.epoch < c.expiresAt) : (s.step nodeId l (.clean now)).Keeps c := by
  obtain ⟨c', hget, hcreated, hexpires⟩ := h.row
  have hsweep := h.spares.began now hnow
  have hbegan : ∀ now' : Clock, now'.epoch < c.expiresAt →
      (s.cleaner.resume now true s.box).1.sweepTime now' < c.expiresAt := by
    intro now' hnow'
    rcases sweepTime_resume now now' s.cleaner s.box with heq | heq
    · rw [heq]
      exact hnow'
    · rw [heq]
      exact hsweep
  -- no batch the sweep collects has the key in it
  have hfresh : c.callId ∉ s.box.expiredKeys (s.cleaner.sweepTime now) .rtpeCalls := by
    intro hmem
    have hle := expiry_le_of_mem_expiredKeys hmem
      (show s.box.expiry c.callId .rtpeCalls = some c'.expiresAt by
        rw [Box.expiry, hget, Option.map_some])
    omega
  rcases s.cleaner.resume_collects now true s.box with ⟨hbox, hnone⟩ |
    ⟨space, later, key, keys, size, purged, hres, hkeys⟩
  · refine ⟨⟨c', ?_, hcreated, hexpires⟩, ⟨fun t => hnone t .rtpeCalls c.callId, hbegan⟩⟩
    show (s.cleaner.resume now true s.box).2.rtpeCalls.get c.callId = some c'
    rw [hbox, hget]
  · have hspared : space = .rtpeCalls → c.callId ∉ key :: keys := by
      rintro rfl hmem
      rcases hkeys with hkeys | hkeys
      · exact hfresh (hkeys _ hmem)
      · exact h.spares.collected _ (hkeys _ hmem)
    refine ⟨⟨c', ?_, hcreated, hexpires⟩, ⟨fun t => ?_, hbegan⟩⟩
    · show (s.cleaner.resume now true s.box).2.rtpeCalls.get c.callId = some c'
      rw [hres]
      cases space with
      | rtpeCalls =>
        have hne : c.callId ≠ key := fun heq => hspared rfl (heq ▸ List.mem_cons_self)
        show (s.box.rtpeCalls.delete key).get c.callId = some c'
        rw [KeyedTable.get_delete, if_neg hne, hget]
      | kamDialogs => exact hget
      | kamUsrloc => exact hget
    · show ¬ (Worker.backend (.cleaner (s.cleaner.resume now true s.box).1)).Collected t .rtpeCalls
        c.callId
      rw [hres]
      rintro ⟨keys', hbatch, hmem⟩
      cases hbatch
      exact hspared rfl (List.mem_cons_of_mem key hmem)

/-- **The server takes a request** of the daemon: the row is refreshed, or it is not touched. -/
theorem keeps_serve {before : List StackAction} {s : Stack} (htraced : s.Traced nodeId l before)
    {c : RtpeCall} (hid : c.callId ≠ sampleCallId) (h : s.Keeps c) {i : ℕ} {now : Clock}
    (hnow : c.expiresAt ≤ now.epoch + 120) : (s.step nodeId l (.serve i now)).Keeps c := by
  obtain ⟨c', hget, hcreated, hexpires⟩ := h.row
  rw [Stack.step]
  split
  · next packet rest hwire =>
    have hrequest := htraced.wires _ (List.mem_of_getElem? hwire) packet List.mem_cons_self
    refine ⟨?_, h.spares⟩
    rcases serve_request hrequest l now s.box with ⟨callId, -, heq⟩ | heq
    · rw [heq]
      simp only [KeyedTable.get_put]
      by_cases hsame : c.callId = callId
      · subst hsame
        refine ⟨_, if_pos rfl, ?_, hnow⟩
        show ((s.box.rtpeCalls.get c.callId).map RtpeCall.createdAt).getD now.epoch = c.createdAt
        rw [hget, Option.map_some, Option.getD_some, hcreated]
      · exact ⟨c', (if_neg hsame).trans hget, hcreated, hexpires⟩
    · rw [heq]
      refine ⟨c', ?_, hcreated, hexpires⟩
      rw [KeyedTable.get_delete, if_neg hid, hget]
  · exact h

/-- **A call is kept for its 120 seconds.**  Once a call is stored, its row stays, with the time it
was created at, whatever the daemon is told in the meantime, that the call has ended included; and
whatever the network and the cleaner do.  The exception is the call of the constant Call-ID.  The
cleaner must not have collected the key when the row was written. -/
theorem session_kept (nodeId : Bytes) (l : LuaValues) (client : Client) (before : List StackAction)
    {c : RtpeCall} (hc : c ∈ (run (Stack.step nodeId l) (.init client) before).box.rtpeCalls.rows)
    (hid : c.callId ≠ sampleCallId)
    (hspares : Spares (run (Stack.step nodeId l) (.init client) before).cleaner c.callId c.expiresAt)
    {after : List StackAction} (hafter : ∀ a ∈ after, ∀ now ∈ a.clock,
      c.updatedAt ≤ now.epoch ∧ now.epoch < c.expiresAt) :
    ∃ c' ∈ (run (Stack.step nodeId l) (.init client) (before ++ after)).box.rtpeCalls.rows,
      c'.callId = c.callId ∧ c'.createdAt = c.createdAt ∧ c.expiresAt ≤ c'.expiresAt := by
  have hexpires : c.expiresAt = c.updatedAt + 120 :=
    (rows_offered nodeId l client before c hc).2.2.2.2
  have hkeeps : (run (Stack.step nodeId l) (.init client) (before ++ after)).Keeps c := by
    induction after using List.reverseRecOn with
    | nil =>
      rw [List.append_nil]
      exact ⟨⟨c, KeyedTable.mem_rows_iff.1 hc, rfl, le_rfl⟩, hspares⟩
    | append_singleton after a ih =>
      have hrest := ih fun a' ha' => hafter a' (List.mem_append_left [a] ha')
      have hlast := hafter a (List.mem_append_right after List.mem_cons_self)
      have htraced := traced_run nodeId l client (before ++ after)
      rw [← List.append_assoc, run_append]
      cases a with
      | command data net => exact ⟨hrest.row, hrest.spares⟩
      | serve i now =>
        have hnow := (hlast now rfl).1
        exact keeps_serve htraced hid hrest (by omega)
      | lose i => exact ⟨hrest.row, hrest.spares⟩
      | clean now => exact keeps_clean nodeId l hrest (hlast now rfl).2
  obtain ⟨c', hget, hcreated, hle⟩ := hkeeps.row
  exact ⟨c', KeyedTable.mem_of_get hget, KeyedTable.key_of_get hget, hcreated, hle⟩

/-- The caller hangs up a minute later. -/
def endedA : List StackAction :=
  [.command ((Kamailio.proxy (uac 9)).rtpeDel inviteA.callId) healthy,
    .serve 0 noonPlusMinute]

/-- The call is still there. -/
theorem session_kept_endedA :
    ∃ c ∈ (run (Stack.step (ascii "rtpe-node-01") mediaValues) (.init loggedIn)
      (offeredA ++ endedA)).box.rtpeCalls.rows, c.callId = ascii "a" := by
  have hrow : (ascii "a", 1700000000) ∈ (run (Stack.step (ascii "rtpe-node-01") mediaValues)
      (.init loggedIn) offeredA).box.rtpeCalls.rows.map fun c => (c.callId, c.updatedAt) := by
    rw [offeredA_rows]
    exact List.mem_cons_self
  obtain ⟨c, hc, heq⟩ := List.mem_map.1 hrow
  obtain ⟨hid, hupdated⟩ := Prod.mk.inj heq
  have hexpires := (rows_offered _ _ _ _ c hc).2.2.2.2
  have hawake : (run (Stack.step (ascii "rtpe-node-01") mediaValues) (.init loggedIn)
      offeredA).cleaner = .awake := by
    have hserve : ∀ (s : Stack) i now,
        (s.step (ascii "rtpe-node-01") mediaValues (.serve i now)).cleaner = s.cleaner := by
      intro s i now
      rw [Stack.step]
      split <;> rfl
    rw [offeredA, run_cons, run_cons, run_nil, hserve]
    rfl
  have hspares : Spares .awake c.callId c.expiresAt :=
    ⟨fun t => Worker.not_collected rfl t _ _, fun _ hnow => hnow⟩
  have hafter : ∀ a ∈ endedA, ∀ now ∈ a.clock, c.updatedAt ≤ now.epoch ∧ now.epoch < c.expiresAt := by
    rw [hexpires, hupdated]
    intro a ha now hnow
    rcases List.mem_pair.1 ha with rfl | rfl
    · cases hnow
    · cases hnow
      decide +kernel
  obtain ⟨c', hc', hsame, -⟩ := session_kept (ascii "rtpe-node-01") mediaValues loggedIn offeredA hc
    (by rw [hid]; decide +kernel) (hawake ▸ hspares) hafter
  exact ⟨c', hc', hsame.trans hid⟩

end Docker

end VoipBackend
