import VoipBackend.Docker.Sessions
import VoipBackend.Lib.Scanf

/-!
# The SIP proxies of the containers

The main loops of `docker/kamailio_entrypoint.c` and `docker/opensips_entrypoint.c`: a datagram is
received, its kind is told by its first line and its call by its Call-ID, and it is forwarded, to
the callee or to the address the session table has for the call.  The two programs differ in the
size of the table and in the cookies they send to RTPEngine.

* `effects_traced` — whatever has been received, a datagram goes to the callee, or to an address a
  call with the same Call-ID came from, and goes there unchanged.
* `delivered` — as long as its Call-ID is not used again and the callee does not hang up, a call
  that found room in the table gets its answers, whatever other calls do.
* `lost_calls` — only the callee hangs up for good.  Without it no slot is freed, and a call that
  found no room never gets an answer: they all go back to the callee.
* `full_of_collisions` — there is no room once 1024 calls have come whose Call-IDs have the same hash.
-/

namespace VoipBackend

open Library CString

namespace Docker

/-! ## Datagrams -/

/-- A datagram, with the address it came from. -/
structure Datagram where
  src : SockaddrIn
  srcLen : UInt32
  data : Bytes
  deriving DecidableEq

/-- The header line with the Call-ID, and what follows. -/
def callIdHeader (sipMsg : Bytes) : Option Bytes :=
  match strcasestr (ascii "Call-ID:") sipMsg with
  | some p => some p
  | none =>
      match strcasestr (ascii "\ni:") sipMsg with
      | some p => some p
      | none =>
          if ascii "i:" <+: sipMsg ∨ ascii "I:" <+: sipMsg then some sipMsg else none

/-- `extract_call_id`, into a buffer of 128 bytes. -/
def extractCallId (sipMsg : Bytes) : Bytes :=
  match (callIdHeader sipMsg).bind (strchr 0x3a) with
  | none => ascii "default-call-id"
  | some (_, p) =>
      ((p.dropWhile fun c => decide (c = 0x20 ∨ c = 0x09)).takeWhile fun c =>
        decide (c ≠ 0x0d ∧ c ≠ 0x0a)).take 127

namespace Datagram

/-- `buffer`, as far as `recvfrom` fills it. -/
def received (d : Datagram) : Bytes := d.data.take 8191

/-- The C string in `buffer`. -/
def text (d : Datagram) : Bytes := ofBuffer d.received

/-- `first_line`. -/
def firstLine (d : Datagram) : Bytes :=
  ((scanSet (fun c => decide (c ≠ 0x0d ∧ c ≠ 0x0a)) 255 d.text).map Prod.fst).getD []

/-- `call_id`. -/
def callId (d : Datagram) : Bytes := extractCallId d.text

end Datagram

/-- What the main loop takes a datagram for. -/
inductive Kind where
  | invite
  /-- `180 Ringing` or `200 OK`. -/
  | answer
  | ack
  | bye
  | other
  deriving DecidableEq

/-- The comparisons of the main loop with the first line. -/
def Datagram.kind (d : Datagram) : Kind :=
  if ascii "INVITE" <+: d.firstLine then .invite
  else if ascii "SIP/2.0 180" <+: d.firstLine ∨ ascii "SIP/2.0 200" <+: d.firstLine then .answer
  else if ascii "ACK" <+: d.firstLine then .ack
  else if ascii "BYE" <+: d.firstLine then .bye
  else .other

/-! ## The main loop -/

/-- What the two programs differ in, and what they read from their environment. -/
structure Proxy where
  maxSessions : ℕ
  offerCookie : Bytes
  deleteCookie : Bytes
  rtpeAddr : SockaddrIn
  /-- There is a handle of the driver to call `rtpe_select_node` with. -/
  handle : Bool

/-- `docker/kamailio_entrypoint.c`. -/
def Kamailio.proxy (rtpeAddr : SockaddrIn) : Proxy :=
  ⟨Kamailio.maxSessions, ascii "kam_cookie_1", ascii "kam_cookie_2", rtpeAddr, true⟩

/-- `docker/opensips_entrypoint.c`; `con` may be a null pointer. -/
def OpenSips.proxy (rtpeAddr : SockaddrIn) (con : Bool) : Proxy :=
  ⟨OpenSips.maxSessions, ascii "opensips_cookie_1", ascii "opensips_cookie_2", rtpeAddr, con⟩

/-- `uas_addr`: 172.28.0.40, port 5080. -/
def uasAddr : SockaddrIn := ⟨2, 5080, 0xac1c0028⟩

/-- `sizeof(struct sockaddr_in)`. -/
def sockaddrLen : UInt32 := 16

/-- A command for RTPEngine, as `snprintf` writes it into a buffer of 1024 bytes. -/
def ngCommand (cookie command callId : Bytes) : Bytes :=
  (cookie ++ ascii " " ++ command ++ ascii " \x7b\"call-id\":\"" ++ callId ++
    ascii "\",\"command\":\"" ++ command ++ ascii "\"\x7d").take 1023

/-- `rtpe_req`. -/
def Proxy.rtpeReq (p : Proxy) (callId : Bytes) : Bytes :=
  ngCommand p.offerCookie (ascii "offer") callId

/-- `rtpe_del`. -/
def Proxy.rtpeDel (p : Proxy) (callId : Bytes) : Bytes :=
  ngCommand p.deleteCookie (ascii "delete") callId

/-- What the main loop does besides its work on the table. -/
inductive Effect where
  /-- The procedure `rtpe_select_node` is called with `[]`, and its result is thrown away. -/
  | selectNode
  | sendto (addr : SockaddrIn) (addrLen : UInt32) (data : Bytes)
  deriving DecidableEq

/-- A datagram for the callee. -/
def toUas (data : Bytes) : Effect := .sendto uasAddr sockaddrLen data

/-- A command for RTPEngine. -/
def Proxy.toRtpe (p : Proxy) (data : Bytes) : Effect := .sendto p.rtpeAddr sockaddrLen data

/-- A datagram for the caller, if the table has an address for the call. -/
def Proxy.toUac (p : Proxy) (g : Sessions) (callId data : Bytes) : Option Effect :=
  (findSession p.maxSessions callId g).map fun (addr, len) => .sendto addr len data

/-- The session table after a datagram. -/
def Proxy.next (p : Proxy) (g : Sessions) (d : Datagram) : Sessions :=
  if d.received = [] then g
  else
    match d.kind with
    | .invite => storeSession p.maxSessions d.callId d.src d.srcLen g
    | .bye =>
        if d.src.sinAddr = uasAddr.sinAddr then deleteSession p.maxSessions d.callId g else g
    | _ => g

/-- What is done with a datagram. -/
def Proxy.effects (p : Proxy) (g : Sessions) (d : Datagram) : List Effect :=
  if d.received = [] then []
  else
    match d.kind with
    | .invite =>
        (if p.handle then [.selectNode] else []) ++
          [p.toRtpe (p.rtpeReq d.callId), toUas d.received]
    | .answer => [(p.toUac g d.callId d.received).getD (toUas d.received)]
    | .ack => [toUas d.received]
    | .bye =>
        p.toRtpe (p.rtpeDel d.callId) ::
          if d.src.sinAddr = uasAddr.sinAddr then (p.toUac g d.callId d.received).toList
          else [toUas d.received]
    | .other => []

/-- The session table once these datagrams are handled. -/
def Proxy.table (p : Proxy) (before : List Datagram) : Sessions := run p.next .init before

/-! ## The slots of the table -/

variable {maxSessions : ℕ} {callId : Bytes} {g : Sessions}

/-- A store writes one slot at most, and that slot is free or has the Call-ID. -/
theorem storeSession_cases (maxSessions : ℕ) (callId : Bytes) (addr : SockaddrIn) (len : UInt32)
    (g : Sessions) :
    storeSession maxSessions callId addr len g = g ∨
      ∃ cur, ((g cur).callId = [] ∨ (g cur).callId = callId) ∧
        storeSession maxSessions callId addr len g =
          Function.update g cur ⟨callId.take 127, addr, len⟩ := by
  unfold storeSession
  induction probeRun maxSessions callId with
  | nil => exact Or.inl rfl
  | cons cur run ih =>
    rw [storeLoop]
    split_ifs with htakes
    · exact Or.inr ⟨cur, htakes, rfl⟩
    · exact ih

/-- A removal frees one slot at most. -/
theorem deleteSession_cases (maxSessions : ℕ) (callId : Bytes) (g : Sessions) :
    deleteSession maxSessions callId g = g ∨
      ∃ cur, deleteSession maxSessions callId g = Function.update g cur { g cur with callId := [] } := by
  unfold deleteSession
  induction probeRun maxSessions callId with
  | nil => exact Or.inl rfl
  | cons cur run ih =>
    rw [deleteLoop]
    split_ifs with hfree hown
    · exact ih
    · exact Or.inr ⟨cur, rfl⟩
    · exact ih

/-- What is found is in a slot that has the Call-ID. -/
theorem findSession_slot {x : SockaddrIn × UInt32}
    (h : findSession maxSessions callId g = some x) :
    ∃ cur, (g cur).callId = callId ∧ (g cur).callId ≠ [] ∧ x = ((g cur).addr, (g cur).addrLen) := by
  unfold findSession at h
  generalize probeRun maxSessions callId = run at h
  induction run with
  | nil => cases h
  | cons cur run ih =>
    rw [findLoop] at h
    split_ifs at h with hfree hown
    · exact ih h
    · exact ⟨cur, hown, hfree, (Option.some.inj h).symm⟩
    · exact ih h

/-- Nothing is found if no slot of the probe run has the Call-ID. -/
theorem findSession_eq_none (h : ∀ cur ∈ probeRun maxSessions callId, (g cur).callId ≠ callId) :
    findSession maxSessions callId g = none := by
  unfold findSession
  generalize probeRun maxSessions callId = run at h
  induction run with
  | nil => rfl
  | cons cur run ih =>
    obtain ⟨hcur, hrun⟩ := List.forall_mem_cons.1 h
    rw [findLoop, if_neg hcur, ih hrun, ite_self]

theorem length_callId_le (d : Datagram) : d.callId.length ≤ 127 := by
  unfold Datagram.callId extractCallId
  split
  · decide
  · exact List.length_take_le _ _

/-! ## Where a datagram goes -/

/-- The caller with this address has sent an `INVITE` with this Call-ID. -/
def Invited (before : List Datagram) (callId : Bytes) (addr : SockaddrIn) (len : UInt32) : Prop :=
  ∃ i ∈ before, i.kind = .invite ∧ i.callId = callId ∧ i.src = addr ∧ i.srcLen = len

/-- Every address in the table came with its Call-ID. -/
def Traced (before : List Datagram) (g : Sessions) : Prop :=
  ∀ cur, (g cur).callId ≠ [] → Invited before (g cur).callId (g cur).addr (g cur).addrLen

theorem Invited.append {before : List Datagram} {addr : SockaddrIn} {len : UInt32}
    (h : Invited before callId addr len) (after : List Datagram) :
    Invited (before ++ after) callId addr len := by
  obtain ⟨i, hi, hrest⟩ := h
  exact ⟨i, List.mem_append_left after hi, hrest⟩

/-- **One datagram** keeps the table traced. -/
theorem traced_next (p : Proxy) {before : List Datagram} (h : Traced before g) (d : Datagram) :
    Traced (before ++ [d]) (p.next g d) := by
  have hkept : Traced (before ++ [d]) g := fun cur hcur => (h cur hcur).append [d]
  unfold Proxy.next
  by_cases hempty : d.received = []
  · rw [if_pos hempty]
    exact hkept
  rw [if_neg hempty]
  cases hkind : d.kind with
  | invite =>
    simp only
    rcases storeSession_cases p.maxSessions d.callId d.src d.srcLen g with heq | ⟨cur, -, heq⟩
    · rw [heq]
      exact hkept
    · rw [heq]
      intro i hi
      by_cases hcur : i = cur
      · subst hcur
        rw [Function.update_self, List.take_of_length_le (length_callId_le d)]
        exact ⟨d, List.mem_append_right before List.mem_cons_self, hkind, rfl, rfl, rfl⟩
      · rw [Function.update_of_ne hcur] at hi ⊢
        exact hkept i hi
  | bye =>
    simp only
    split_ifs
    · rcases deleteSession_cases p.maxSessions d.callId g with heq | ⟨cur, heq⟩
      · rw [heq]
        exact hkept
      · rw [heq]
        intro i hi
        by_cases hcur : i = cur
        · subst hcur
          rw [Function.update_self] at hi
          exact absurd rfl hi
        · rw [Function.update_of_ne hcur] at hi ⊢
          exact hkept i hi
    · exact hkept
  | _ => exact hkept

/-- The table is traced in every run. -/
theorem traced_table (p : Proxy) (before : List Datagram) : Traced before (p.table before) := by
  induction before using List.reverseRecOn with
  | nil => exact fun _ hcur => absurd rfl hcur
  | append_singleton before d ih =>
    rw [Proxy.table, run_append]
    exact traced_next p ih d

/-- A datagram that is forwarded to a caller. -/
theorem traced_toUac {p : Proxy} {before : List Datagram} (h : Traced before g) {callId data : Bytes}
    {e : Effect} (he : p.toUac g callId data = some e) :
    ∃ addr len, Invited before callId addr len ∧ e = .sendto addr len data := by
  obtain ⟨x, hx, rfl⟩ := Option.map_eq_some_iff.1 he
  obtain ⟨cur, hid, hfree, rfl⟩ := findSession_slot hx
  refine ⟨_, _, ?_, rfl⟩
  rw [← hid]
  exact h cur hfree

/-- **Calls are not mixed up.**  Whatever a proxy has received, what it sends is a command for
RTPEngine with the Call-ID of the datagram it has just received, or that datagram itself; and that
goes to the callee, or to an address from which an `INVITE` with its Call-ID came. -/
theorem effects_traced (p : Proxy) (before : List Datagram) (d : Datagram) :
    ∀ e ∈ p.effects (p.table before) d,
      e = .selectNode ∨ e = p.toRtpe (p.rtpeReq d.callId) ∨ e = p.toRtpe (p.rtpeDel d.callId) ∨
        e = toUas d.received ∨
        ∃ addr len, Invited before d.callId addr len ∧ e = .sendto addr len d.received := by
  have htraced := traced_table p before
  intro e he
  unfold Proxy.effects at he
  by_cases hempty : d.received = []
  · rw [if_pos hempty] at he
    cases he
  rw [if_neg hempty] at he
  cases hkind : d.kind with
  | invite =>
    rw [hkind] at he
    simp only at he
    rcases List.mem_append.1 he with he | he
    · split_ifs at he
      · exact Or.inl (List.mem_singleton.1 he)
      · cases he
    · rcases List.mem_pair.1 he with rfl | rfl
      · exact Or.inr (Or.inl rfl)
      · exact Or.inr (Or.inr (Or.inr (Or.inl rfl)))
  | answer =>
    rw [hkind] at he
    simp only at he
    rw [List.mem_singleton.1 he]
    cases huac : p.toUac (p.table before) d.callId d.received with
    | none => exact Or.inr (Or.inr (Or.inr (Or.inl rfl)))
    | some e' => exact Or.inr (Or.inr (Or.inr (Or.inr (traced_toUac htraced huac))))
  | ack =>
    rw [hkind] at he
    exact Or.inr (Or.inr (Or.inr (Or.inl (List.mem_singleton.1 he))))
  | bye =>
    rw [hkind] at he
    simp only at he
    rcases List.mem_cons.1 he with rfl | he
    · exact Or.inr (Or.inr (Or.inl rfl))
    · split_ifs at he
      · rw [Option.mem_toList] at he
        exact Or.inr (Or.inr (Or.inr (Or.inr (traced_toUac htraced he))))
      · exact Or.inr (Or.inr (Or.inr (Or.inl (List.mem_singleton.1 he))))
  | other =>
    rw [hkind] at he
    cases he

/-- A request or an answer with this start line and Call-ID. -/
def sipDatagram (src : SockaddrIn) (line callId : Bytes) : Datagram :=
  ⟨src, sockaddrLen, line ++ ascii "\r\nCall-ID: " ++ callId ++ ascii "\r\n\r\n"⟩

/-- The call `a` of the first caller. -/
def inviteA : Datagram := sipDatagram (uac 1) (ascii "INVITE sip:bob SIP/2.0") (ascii "a")

/-- Its answer. -/
def ringingA : Datagram := sipDatagram uasAddr (ascii "SIP/2.0 180 Ringing") (ascii "a")

theorem effects_traced_ringing :
    let p := Kamailio.proxy (uac 9)
    Effect.sendto (uac 1) sockaddrLen ringingA.received ∈
        p.effects (p.table [inviteA]) ringingA ∧
      ∃ addr len, Invited [inviteA] ringingA.callId addr len ∧
        Effect.sendto (uac 1) sockaddrLen ringingA.received =
          .sendto addr len ringingA.received := by
  have hmem : Effect.sendto (uac 1) sockaddrLen ringingA.received ∈
      (Kamailio.proxy (uac 9)).effects ((Kamailio.proxy (uac 9)).table [inviteA]) ringingA := by
    decide +kernel
  refine ⟨hmem, ?_⟩
  rcases effects_traced (Kamailio.proxy (uac 9)) [inviteA] ringingA _ hmem with
    h | h | h | h | h
  · cases h
  · exact absurd h (by decide +kernel)
  · exact absurd h (by decide +kernel)
  · exact absurd h (by decide +kernel)
  · exact h

/-! ## What the other calls do -/

/-- The callee hangs up. -/
def Datagram.CalleeBye (d : Datagram) : Prop :=
  d.kind = .bye ∧ d.src.sinAddr = uasAddr.sinAddr

/-- Without a first line a datagram is of no kind. -/
theorem received_ne_nil {d : Datagram} (h : d.kind ≠ .other) : d.received ≠ [] := by
  intro hempty
  refine h ?_
  have htext : d.text = [] := by rw [Datagram.text, hempty]; rfl
  have hline : d.firstLine = [] := by rw [Datagram.firstLine, htext]; rfl
  rw [Datagram.kind, hline]
  decide

/-- What a datagram does to the table is what a call of `store_session` or `delete_session` does,
if it does anything. -/
theorem next_cases (p : Proxy) (g : Sessions) (d : Datagram) :
    p.next g d = g ∨
      d.kind = .invite ∧ p.next g d = storeSession p.maxSessions d.callId d.src d.srcLen g ∨
      d.CalleeBye ∧ p.next g d = deleteSession p.maxSessions d.callId g := by
  unfold Proxy.next
  by_cases hempty : d.received = []
  · exact Or.inl (if_pos hempty)
  rw [if_neg hempty]
  cases hkind : d.kind with
  | invite => exact Or.inr (Or.inl ⟨rfl, rfl⟩)
  | bye =>
    by_cases hcallee : d.src.sinAddr = uasAddr.sinAddr
    · exact Or.inr (Or.inr ⟨⟨hkind, hcallee⟩, if_pos hcallee⟩)
    · exact Or.inl (if_neg hcallee)
  | _ => exact Or.inl rfl

/-- A store without a Call-ID leaves a free slot free. -/
theorem slots_storeSession_nil (maxSessions : ℕ) (addr : SockaddrIn) (len : UInt32) (g : Sessions) :
    slots (storeSession maxSessions [] addr len g) = slots g := by
  rcases storeSession_cases maxSessions [] addr len g with heq | ⟨cur, hfree, heq⟩
  · rw [heq]
  · have hfree : (g cur).callId = [] := by simpa using hfree
    rw [heq, slots_update, List.take_nil, if_pos rfl, Function.update_eq_self_iff, slots,
      if_pos hfree]

/-- Without a Call-ID nothing is removed. -/
theorem deleteSession_nil (maxSessions : ℕ) (g : Sessions) : deleteSession maxSessions [] g = g := by
  unfold deleteSession
  generalize probeRun maxSessions [] = run
  induction run with
  | nil => rfl
  | cons cur run ih =>
    rw [deleteLoop]
    split_ifs
    · exact ih
    · exact ih

/-- The sessions of a Call-ID are left alone by the datagrams of other calls. -/
theorem findSession_next {p : Proxy} {d : Datagram}
    (h : d.callId = callId → d.kind ≠ .invite ∧ ¬ d.CalleeBye) (g : Sessions) :
    findSession p.maxSessions callId (p.next g d) = findSession p.maxSessions callId g := by
  have hvalid : d.callId ≠ [] → ValidId d.callId := fun hne =>
    ⟨hne, Nat.lt_succ_of_le (length_callId_le d)⟩
  rcases next_cases p g d with heq | ⟨hkind, heq⟩ | ⟨hbye, heq⟩
  · rw [heq]
  · have hother : callId ≠ d.callId := fun hsame => (h hsame.symm).1 hkind
    rw [heq]
    by_cases hempty : d.callId = []
    · rw [hempty, findSession_slots, findSession_slots, slots_storeSession_nil]
    · have hop : ValidId (SessionOp.store d.callId d.src d.srcLen).callId := hvalid hempty
      exact findSession_perform_of_ne g hop hother
  · have hother : callId ≠ d.callId := fun hsame => (h hsame.symm).2 hbye
    rw [heq]
    by_cases hempty : d.callId = []
    · rw [hempty, deleteSession_nil]
    · have hop : ValidId (SessionOp.delete d.callId).callId := hvalid hempty
      exact findSession_perform_of_ne g hop hother

/-- **A call gets its answers**, and hears when the callee hangs up: from an `INVITE` for which
there is room in the table, until its Call-ID is used again or the callee hangs up, whatever other
calls do in between. -/
theorem delivered {p : Proxy} {g : Sessions} {i : Datagram} (hinvite : i.kind = .invite)
    (hid : i.callId ≠ [])
    (hroom : HasRoom p.maxSessions g (.store i.callId i.src i.srcLen))
    {between : List Datagram}
    (hbetween : ∀ d ∈ between, d.callId = i.callId → d.kind ≠ .invite ∧ ¬ d.CalleeBye)
    {a : Datagram} (ha : a.callId = i.callId) :
    (a.kind = .answer → p.effects (run p.next g (i :: between)) a =
        [.sendto i.src i.srcLen a.received]) ∧
      (a.CalleeBye → p.effects (run p.next g (i :: between)) a =
        [p.toRtpe (p.rtpeDel i.callId), .sendto i.src i.srcLen a.received]) := by
  have hfound : findSession p.maxSessions i.callId (run p.next g (i :: between)) =
      some (i.src, i.srcLen) := by
    have hkept : ∀ g', findSession p.maxSessions i.callId (run p.next g' between) =
        findSession p.maxSessions i.callId g' := by
      intro g'
      induction between generalizing g' with
      | nil => rfl
      | cons d between ih =>
        obtain ⟨hd, hbetween⟩ := List.forall_mem_cons.1 hbetween
        rw [run_cons, ih hbetween, findSession_next hd]
    have hvalid : ValidId i.callId := ⟨hid, Nat.lt_succ_of_le (length_callId_le i)⟩
    have hstored : p.next g i = storeSession p.maxSessions i.callId i.src i.srcLen g := by
      rw [Proxy.next, if_neg (received_ne_nil (by rw [hinvite]; decide)), hinvite]
    have hslot : Probing.HasRoom (slots g) i.callId (probeRun p.maxSessions i.callId) := by
      obtain ⟨cur, hcur, htakes⟩ := hroom
      refine ⟨cur, hcur, htakes.imp (fun hfree => ?_) (holds_slots_iff hid g cur).2⟩
      rw [slots, if_pos hfree]
      rfl
    rw [run_cons, hkept, hstored, findSession_slots, storeSession_slots p.maxSessions hvalid]
    exact Probing.find_store _ hslot
  have huac : p.toUac (run p.next g (i :: between)) i.callId a.received =
      some (.sendto i.src i.srcLen a.received) := by
    rw [Proxy.toUac, hfound]
    rfl
  constructor
  · intro hkind
    rw [Proxy.effects, if_neg (received_ne_nil (by rw [hkind]; decide)), hkind, ha]
    simp only [huac, Option.getD_some]
  · rintro ⟨hkind, hcallee⟩
    rw [Proxy.effects, if_neg (received_ne_nil (by rw [hkind]; decide)), hkind, ha]
    simp only [if_pos hcallee, huac, Option.toList_some]

/-- Another call, from its start to its end. -/
def callB : List Datagram :=
  [sipDatagram (uac 2) (ascii "INVITE sip:bob SIP/2.0") (ascii "b"),
    sipDatagram uasAddr (ascii "SIP/2.0 200 OK") (ascii "b"),
    sipDatagram (uac 2) (ascii "ACK sip:bob SIP/2.0") (ascii "b"),
    sipDatagram uasAddr (ascii "BYE sip:uac SIP/2.0") (ascii "b")]

/-- The first call on an empty table, with another one before it is answered. -/
theorem delivered_inviteA :
    (Kamailio.proxy (uac 9)).effects (run (Kamailio.proxy (uac 9)).next .init (inviteA :: callB))
      ringingA = [.sendto (uac 1) sockaddrLen ringingA.received] := by
  have hinvite : inviteA.kind = .invite := by decide +kernel
  have hid : inviteA.callId ≠ [] := by decide +kernel
  have hroom : HasRoom (Kamailio.proxy (uac 9)).maxSessions .init
      (.store inviteA.callId inviteA.src inviteA.srcLen) := by decide +kernel
  have hothers : ∀ d ∈ callB, d.callId ≠ inviteA.callId := by decide +kernel
  have ha : ringingA.callId = inviteA.callId := by decide +kernel
  exact (delivered hinvite hid hroom (fun d hd hsame => absurd hsame (hothers d hd)) ha).1
    (by decide +kernel)

/-! ## Calls that are never removed -/

/-- **One datagram** that is not a `BYE` of the callee leaves every slot that is taken to its
Call-ID. -/
theorem slot_next (p : Proxy) {d : Datagram} (h : ¬ d.CalleeBye) {g : Sessions} {cur : ℕ}
    (hcur : (g cur).callId ≠ []) : (p.next g d cur).callId = (g cur).callId := by
  rcases next_cases p g d with heq | ⟨-, heq⟩ | ⟨hbye, -⟩
  · rw [heq]
  · rw [heq]
    rcases storeSession_cases p.maxSessions d.callId d.src d.srcLen g with heq | ⟨i, htakes, heq⟩
    · rw [heq]
    · rw [heq]
      by_cases hi : cur = i
      · subst hi
        rw [Function.update_self, List.take_of_length_le (length_callId_le d),
          htakes.resolve_left hcur]
      · rw [Function.update_of_ne hi]
  · exact absurd hbye h

/-- Without a `BYE` of the callee, no slot is freed. -/
theorem slot_run (p : Proxy) {l : List Datagram} (h : ∀ d ∈ l, ¬ d.CalleeBye) {g : Sessions} {cur : ℕ}
    (hcur : (g cur).callId ≠ []) : (run p.next g l cur).callId = (g cur).callId := by
  induction l generalizing g with
  | nil => rfl
  | cons d l ih =>
    obtain ⟨hd, hl⟩ := List.forall_mem_cons.1 h
    have hkept := slot_next p hd hcur
    rw [run_cons, ih hl (by rwa [hkept]), hkept]

/-- The probe run of a Call-ID is full of other Call-IDs. -/
def Full (maxSessions : ℕ) (g : Sessions) (callId : Bytes) : Prop :=
  ∀ cur ∈ probeRun maxSessions callId, (g cur).callId ≠ [] ∧ (g cur).callId ≠ callId

/-- **Only the callee ends a call.**  As long as it does not, every slot that is taken stays with
its Call-ID.  A call whose probe run is full of others is then lost for good, however often it is
tried: its answers all go back to the callee. -/
theorem lost_calls (p : Proxy) (g : Sessions) {l : List Datagram} (h : ∀ d ∈ l, ¬ d.CalleeBye) :
    (∀ cur, (g cur).callId ≠ [] → (run p.next g l cur).callId = (g cur).callId) ∧
      ∀ a : Datagram, a.kind = .answer → Full p.maxSessions g a.callId →
        p.effects (run p.next g l) a = [toUas a.received] := by
  refine ⟨fun cur hcur => slot_run p h hcur, fun a hkind hfull => ?_⟩
  have hnone : findSession p.maxSessions a.callId (run p.next g l) = none := by
    refine findSession_eq_none fun cur hcur => ?_
    rw [slot_run p h (hfull cur hcur).1]
    exact (hfull cur hcur).2
  rw [Proxy.effects, if_neg (received_ne_nil (by rw [hkind]; decide)), hkind]
  simp only [Proxy.toUac, hnone, Option.map_none, Option.getD_none]

/-! ## How a probe run gets full -/

/-- A store passes over slots that have other Call-IDs. -/
theorem storeLoop_taken {callId : Bytes} {g : Sessions} {done : List ℕ}
    (h : ∀ cur ∈ done, (g cur).callId ≠ [] ∧ (g cur).callId ≠ callId) (addr : SockaddrIn)
    (len : UInt32) (run : List ℕ) :
    storeLoop callId addr len (done ++ run) g = storeLoop callId addr len run g := by
  induction done with
  | nil => rfl
  | cons cur done ih =>
    obtain ⟨⟨hne, hother⟩, hdone⟩ := List.forall_mem_cons.1 h
    rw [List.cons_append, storeLoop, if_neg (not_or.2 ⟨hne, hother⟩), ih hdone]

/-- Calls with one probe run take its free slots, one after another. -/
theorem fill_probeRun (p : Proxy) (P : Bytes → Prop) {l : List Datagram} (done free : List ℕ)
    {g : Sessions}
    (hcalls : ∀ d ∈ l, d.kind = .invite ∧ d.callId ≠ [] ∧ P d.callId ∧
      probeRun p.maxSessions d.callId = done ++ free)
    (hids : (l.map Datagram.callId).Nodup) (hnodup : (done ++ free).Nodup)
    (htaken : ∀ cur ∈ done, (g cur).callId ≠ [] ∧ P (g cur).callId ∧
      (g cur).callId ∉ l.map Datagram.callId)
    (hfree : ∀ cur ∈ free, (g cur).callId = []) (hlen : l.length = free.length) :
    ∀ cur ∈ done ++ free, (run p.next g l cur).callId ≠ [] ∧ P (run p.next g l cur).callId := by
  induction l generalizing done free g with
  | nil =>
    rw [List.eq_nil_of_length_eq_zero hlen.symm, List.append_nil]
    exact fun cur hcur => ⟨(htaken cur hcur).1, (htaken cur hcur).2.1⟩
  | cons d l ih =>
    obtain ⟨⟨hinvite, hne, hP, hprobe⟩, hcalls⟩ := List.forall_mem_cons.1 hcalls
    obtain ⟨hnew, hids⟩ := List.nodup_cons.1 hids
    cases free with
    | nil => cases hlen
    | cons cur free =>
      have hnext : p.next g d = Function.update g cur ⟨d.callId, d.src, d.srcLen⟩ := by
        have hothers : ∀ i ∈ done, (g i).callId ≠ [] ∧ (g i).callId ≠ d.callId := by
          intro i hi
          refine ⟨(htaken i hi).1, fun hsame => (htaken i hi).2.2 ?_⟩
          rw [hsame, List.map_cons]
          exact List.mem_cons_self
        rw [Proxy.next, if_neg (received_ne_nil (by rw [hinvite]; decide)), hinvite]
        show storeSession _ _ _ _ _ = _
        rw [storeSession, hprobe, storeLoop_taken hothers, storeLoop,
          if_pos (Or.inl (hfree cur List.mem_cons_self)),
          List.take_of_length_le (length_callId_le d)]
      have hsplit : done ++ cur :: free = done ++ [cur] ++ free := by simp
      rw [run_cons, hnext, hsplit]
      rw [hsplit] at hnodup
      obtain ⟨hbefore, hafter, hapart⟩ := List.nodup_append.1 hnodup
      refine ih (done ++ [cur]) free ?_ hids hnodup ?_ ?_ (Nat.succ.inj hlen)
      · intro d' hd'
        rw [← hsplit]
        exact hcalls d' hd'
      · intro i hi
        by_cases hcur : i = cur
        · subst hcur
          rw [Function.update_self]
          exact ⟨hne, hP, hnew⟩
        · have hmem : i ∈ done := by
            rcases List.mem_append.1 hi with hi | hi
            · exact hi
            · exact absurd (List.mem_singleton.1 hi) hcur
          rw [Function.update_of_ne hcur]
          obtain ⟨hi₁, hi₂, hi₃⟩ := htaken i hmem
          rw [List.map_cons] at hi₃
          exact ⟨hi₁, hi₂, fun h => hi₃ (List.mem_cons_of_mem _ h)⟩
      · intro i hi
        have hcur : i ≠ cur := fun hcur => hapart cur (by simp) i hi hcur.symm
        rw [Function.update_of_ne hcur]
        exact hfree i (List.mem_cons_of_mem _ hi)

/-- **A full probe run.**  Calls with different Call-IDs of the same hash, as many as a probe run
has slots, leave no room in it. -/
theorem full_of_collisions {p : Proxy} (hsize : 1024 ≤ p.maxSessions) {callId : Bytes}
    {l : List Datagram}
    (hcalls : ∀ d ∈ l, d.kind = .invite ∧ d.callId ≠ [] ∧ d.callId ≠ callId ∧
      hashCallId p.maxSessions d.callId = hashCallId p.maxSessions callId)
    (hids : (l.map Datagram.callId).Nodup) (hlen : l.length = 1024) :
    Full p.maxSessions (p.table l) callId := by
  have hprobe : ∀ d ∈ l, d.kind = .invite ∧ d.callId ≠ [] ∧ d.callId ≠ callId ∧
      probeRun p.maxSessions d.callId = [] ++ probeRun p.maxSessions callId := by
    intro d hd
    obtain ⟨hinvite, hne, hother, hhash⟩ := hcalls d hd
    exact ⟨hinvite, hne, hother, by rw [probeRun, probeRun, hhash, List.nil_append]⟩
  have hslots : l.length = (probeRun p.maxSessions callId).length := by
    rw [hlen, probeRun, List.length_map, List.length_range]
  have hnodup := nodup_probeRun hsize callId
  rw [← List.nil_append (probeRun _ _)] at hnodup
  have hfilled := fill_probeRun p (· ≠ callId) [] (probeRun p.maxSessions callId) (g := .init) hprobe
    hids hnodup (List.forall_mem_nil _) (fun _ _ => rfl) hslots
  rwa [List.nil_append] at hfilled

/-- The Call-ID of a datagram is in its header line, unless the start line has the letter `c`. -/
theorem callId_sipDatagram {line callId : Bytes} (src : SockaddrIn)
    (hline : ∀ b ∈ line, tolower b ≠ 0x63 ∧ b ≠ 0)
    (hid : ∀ b ∈ callId, b ≠ 0 ∧ b ≠ 0x09 ∧ b ≠ 0x0a ∧ b ≠ 0x0d ∧ b ≠ 0x20)
    (hlen : line.length ≤ 255 ∧ callId.length ≤ 127) :
    (sipDatagram src line callId).text = line ++ ascii "\r\nCall-ID: " ++ callId ++ ascii "\r\n\r\n" ∧
      (sipDatagram src line callId).callId = callId := by
  have htext : (sipDatagram src line callId).text =
      line ++ ascii "\r\nCall-ID: " ++ callId ++ ascii "\r\n\r\n" := by
    have hshort : (line ++ ascii "\r\nCall-ID: " ++ callId ++ ascii "\r\n\r\n").length ≤ 8191 := by
      have hheader : (ascii "\r\nCall-ID: ").length = 11 ∧ (ascii "\r\n\r\n").length = 4 := by decide
      simp only [List.length_append, hheader]
      omega
    have hstring : 0 ∉ line ++ ascii "\r\nCall-ID: " ++ callId ++ ascii "\r\n\r\n" := by
      simp only [List.mem_append, not_or]
      exact ⟨⟨⟨fun h => (hline 0 h).2 rfl, by decide⟩, fun h => (hid 0 h).1 rfl⟩, by decide⟩
    rw [Datagram.text, Datagram.received, sipDatagram, List.take_of_length_le hshort,
      ofBuffer_eq_self hstring]
  refine ⟨htext, ?_⟩
  have hfound : callIdHeader (sipDatagram src line callId).text =
      some (ascii "Call-ID:" ++ (0x20 :: callId ++ ascii "\r\n\r\n")) := by
    have hparts : line ++ ascii "\r\nCall-ID: " ++ callId ++ ascii "\r\n\r\n" =
        (line ++ ascii "\r\n") ++ (ascii "Call-ID:" ++ (0x20 :: callId ++ ascii "\r\n\r\n")) := by
      have hheader : ascii "\r\nCall-ID: " = ascii "\r\n" ++ ascii "Call-ID:" ++ [0x20] := by decide
      simp [hheader]
    have hneedle : ascii "Call-ID:" = 0x43 :: ascii "all-ID:" := by decide
    have hbreak : ∀ b ∈ ascii "\r\n", tolower b ≠ tolower 0x43 := by decide +kernel
    have hbefore : ∀ b ∈ line ++ ascii "\r\n", tolower b ≠ tolower 0x43 := by
      intro b hb
      rcases List.mem_append.1 hb with hb | hb
      · exact (hline b hb).1
      · exact hbreak b hb
    rw [htext, hparts, callIdHeader, hneedle, strcasestr_append hbefore, strcasestr_start]
  have hname : ascii "Call-ID:" ++ (0x20 :: callId ++ ascii "\r\n\r\n") =
      ascii "Call-ID" ++ 0x3a :: (0x20 :: callId ++ ascii "\r\n\r\n") := by
    have hcolon : ascii "Call-ID:" = ascii "Call-ID" ++ [0x3a] := by decide
    simp [hcolon]
  rw [Datagram.callId, extractCallId, hfound, Option.bind_some, hname, strchr_append (by decide)]
  have hend : ascii "\r\n\r\n" = 0x0d :: ascii "\n\r\n" := by decide
  have hskip : ((0x20 :: callId ++ ascii "\r\n\r\n").dropWhile fun c =>
      decide (c = 0x20 ∨ c = 0x09)) = callId ++ ascii "\r\n\r\n" := by
    rw [List.cons_append, List.dropWhile_cons_of_pos (by decide)]
    cases callId with
    | nil => rw [List.nil_append, hend, List.dropWhile_cons_of_neg (by decide)]
    | cons b callId =>
      obtain ⟨hb, -⟩ := List.forall_mem_cons.1 hid
      rw [List.cons_append, List.dropWhile_cons_of_neg (by simp [hb])]
  have hstop : ((callId ++ ascii "\r\n\r\n").takeWhile fun c =>
      decide (c ≠ 0x0d ∧ c ≠ 0x0a)) = callId := by
    have hall : ∀ b ∈ callId, decide (b ≠ 0x0d ∧ b ≠ 0x0a) = true := by
      intro b hb
      exact decide_eq_true ⟨(hid b hb).2.2.2.1, (hid b hb).2.2.1⟩
    rw [List.takeWhile_append_of_pos hall, hend, List.takeWhile_cons_of_neg (by decide),
      List.append_nil]
  simp only [hskip, hstop]
  exact List.take_of_length_le hlen.2


/-- Different Call-IDs of the same hash, of `k` blocks each. -/
def colliding : ℕ → List Bytes
  | 0 => [[]]
  | k + 1 => (colliding k).map (ascii "ab" ++ ·) ++ (colliding k).map (ascii "bA" ++ ·)

theorem length_colliding (k : ℕ) : (colliding k).length = 2 ^ k := by
  induction k with
  | zero => rfl
  | succ k ih =>
    rw [colliding, List.length_append, List.length_map, List.length_map, ih]
    omega

theorem nodup_colliding (k : ℕ) : (colliding k).Nodup := by
  induction k with
  | zero => simp [colliding]
  | succ k ih =>
    have hcons : ∀ x : Bytes, Function.Injective (x ++ ·) := fun x => List.append_right_injective x
    refine (ih.map (hcons _)).append (ih.map (hcons _)) ?_
    intro id h₁ h₂
    obtain ⟨x, -, rfl⟩ := List.mem_map.1 h₁
    obtain ⟨y, -, heq⟩ := List.mem_map.1 h₂
    have hab : ascii "ab" = 0x61 :: ascii "b" := by decide
    have hbA : ascii "bA" = 0x62 :: ascii "A" := by decide
    rw [hab, hbA, List.cons_append, List.cons_append] at heq
    exact absurd (List.cons.inj heq).1 (by decide)

theorem bytes_colliding {k : ℕ} {id : Bytes} (h : id ∈ colliding k) :
    id.length = 2 * k ∧ ∀ b ∈ id, b ∈ ascii "abA" := by
  have hblocks : (∀ b ∈ ascii "ab", b ∈ ascii "abA") ∧ ∀ b ∈ ascii "bA", b ∈ ascii "abA" := by
    decide +kernel
  have hlen : (ascii "ab").length = 2 ∧ (ascii "bA").length = 2 := by decide
  induction k generalizing id with
  | zero =>
    rw [List.mem_singleton.1 h]
    simp
  | succ k ih =>
    rcases List.mem_append.1 h with h | h
    · obtain ⟨x, hx, rfl⟩ := List.mem_map.1 h
      obtain ⟨hx₁, hx₂⟩ := ih hx
      refine ⟨by simp only [List.length_append, hlen, hx₁]; omega, fun b hb => ?_⟩
      exact (List.mem_append.1 hb).elim (hblocks.1 b) (hx₂ b)
    · obtain ⟨x, hx, rfl⟩ := List.mem_map.1 h
      obtain ⟨hx₁, hx₂⟩ := ih hx
      refine ⟨by simp only [List.length_append, hlen, hx₁]; omega, fun b hb => ?_⟩
      exact (List.mem_append.1 hb).elim (hblocks.2 b) (hx₂ b)

/-- The invitation of a call. -/
def invite (callId : Bytes) : Datagram :=
  sipDatagram (uac 2) (ascii "INVITE sip:bob SIP/2.0") callId

theorem kind_invite {callId : Bytes} (h : (invite callId).text =
    ascii "INVITE sip:bob SIP/2.0" ++ ascii "\r\nCall-ID: " ++ callId ++ ascii "\r\n\r\n") :
    (invite callId).kind = .invite := by
  have hbreak : ascii "\r\nCall-ID: " = 0x0d :: ascii "\nCall-ID: " := by decide
  have hline : (invite callId).firstLine = ascii "INVITE sip:bob SIP/2.0" := by
    rw [Datagram.firstLine, h, hbreak, List.append_assoc, List.append_assoc, List.cons_append,
      scanSet_append (by decide +kernel) (by decide) (by decide) (by decide)]
    rfl
  rw [Datagram.kind, hline, if_pos (by decide)]

/-- What the main loop makes of an invitation with such a Call-ID. -/
theorem invite_colliding {k : ℕ} (hk : k ≤ 60) {id : Bytes} (h : id ∈ colliding k) :
    (invite id).kind = .invite ∧ (invite id).callId = id := by
  obtain ⟨hlen, hbytes⟩ := bytes_colliding h
  have hline : ∀ b ∈ ascii "INVITE sip:bob SIP/2.0", tolower b ≠ 0x63 ∧ b ≠ 0 := by decide +kernel
  have hplain : ∀ b ∈ ascii "abA", b ≠ 0 ∧ b ≠ 0x09 ∧ b ≠ 0x0a ∧ b ≠ 0x0d ∧ b ≠ 0x20 := by
    decide +kernel
  obtain ⟨htext, hid⟩ := callId_sipDatagram (uac 2) hline (fun b hb => hplain b (hbytes b hb))
    ⟨by decide, by omega⟩
  exact ⟨kind_invite htext, hid⟩

/-- The calls with these Call-IDs of eleven blocks the first of which is `ab`. -/
def collisions : List Datagram := (colliding 10).map fun id => invite (ascii "ab" ++ id)

/-- Another one. -/
def lostId : Bytes := ascii "bAabababababababababab"

theorem hash_collisions : ∀ id ∈ colliding 10,
    hashCallId Kamailio.maxSessions (ascii "ab" ++ id) = hashCallId Kamailio.maxSessions lostId := by
  decide +kernel

theorem full_collisions : Full Kamailio.maxSessions
    ((Kamailio.proxy (uac 9)).table collisions) lostId := by
  have hmem : ∀ id ∈ colliding 10, ascii "ab" ++ id ∈ colliding 11 := fun id hid =>
    List.mem_append_left _ (List.mem_map_of_mem hid)
  have hids : collisions.map Datagram.callId = (colliding 10).map (ascii "ab" ++ ·) := by
    rw [collisions, List.map_map]
    exact List.map_congr_left fun id hid => (invite_colliding (by decide) (hmem id hid)).2
  refine full_of_collisions (p := Kamailio.proxy (uac 9)) (by decide) ?_ ?_ ?_
  · intro d hd
    obtain ⟨id, hid, rfl⟩ := List.mem_map.1 hd
    obtain ⟨hkind, hcallId⟩ := invite_colliding (by decide) (hmem id hid)
    have hab : ascii "ab" = 0x61 :: ascii "b" := by decide
    have hlost : lostId = 0x62 :: ascii "Aabababababababababab" := by decide +kernel
    refine ⟨hkind, ?_, ?_, ?_⟩
    · rw [hcallId, hab]
      exact List.cons_ne_nil _ _
    · rw [hcallId, hab, hlost, List.cons_append]
      exact fun h => absurd (List.cons.inj h).1 (by decide)
    · rw [hcallId]
      exact hash_collisions id hid
  · rw [hids]
    exact (nodup_colliding 10).map (List.append_right_injective _)
  · rw [collisions, List.length_map, length_colliding]
    rfl

/-- The callee rings. -/
def lostRinging : Datagram := sipDatagram uasAddr (ascii "SIP/2.0 180 Ringing") lostId

theorem lost_calls_collisions :
    (Kamailio.proxy (uac 9)).effects (run (Kamailio.proxy (uac 9)).next
        ((Kamailio.proxy (uac 9)).table collisions) [invite lostId]) lostRinging =
      [toUas lostRinging.received] := by
  have hid : lostRinging.callId = lostId := by decide +kernel
  refine (lost_calls (Kamailio.proxy (uac 9)) _ (l := [invite lostId]) ?_).2 lostRinging ?_ ?_
  · intro d hd
    rw [List.mem_singleton.1 hd]
    rintro ⟨hkind, -⟩
    revert hkind
    decide +kernel
  · decide +kernel
  · rw [hid]
    exact full_collisions

end Docker

end VoipBackend
