import VoipBackend.Docker.Proxy
import VoipBackend.Wire.RtpEngine
import VoipBackend.Wire.Server

/-!
# The media server of the containers

The main loop of `docker/rtpengine_entrypoint.c`: a datagram is taken apart with `sscanf` and
`strstr`; an offer or an answer saves a call, a `delete` removes one, and all of them are answered.

* `ng_exchange` — what the daemon makes of the commands of the proxies.  The Call-ID of an offer is
  taken up to its first quotation mark; that of a `delete` is not looked at, and the call of a
  constant Call-ID is removed in its place.  The proxies ignore the answers.
-/

namespace VoipBackend

open Library CString

namespace Docker

/-! ## A datagram is taken apart -/

/-- The C string in `buffer`. -/
def ngBuffer (data : Bytes) : Bytes := ofBuffer (data.take 4095)

/-- `cookie` and `command`: `sscanf(buffer, "%63s %31s", ..)`. -/
def ngWords (buffer : Bytes) : Bytes × Bytes :=
  match scanString 63 buffer with
  | none => ([], [])
  | some (cookie, s) => (cookie, ((scanString 31 s).map Prod.fst).getD [])

/-- What `call_id` is before the datagram is looked at. -/
def sampleCallId : Bytes := ascii "sample-call-id-12345"

/-- `call_id` of an offer: `sscanf(cid_pos, "call-id\":\"%127[^\"]", ..)`. -/
def savedCallId (buffer : Bytes) : Bytes :=
  match strstr (ascii "call-id") buffer with
  | none => sampleCallId
  | some (_, p) =>
      if ascii "\":\"" <+: p then
        ((scanSet (fun c => decide (c ≠ 0x22)) 127 (p.drop 3)).map Prod.fst).getD sampleCallId
      else sampleCallId

/-- `info`. -/
def mediaInfo (callId : Bytes) : RtpEngine.CallInfo where
  callId := some callId
  callerIp := some (ascii "172.28.0.100")
  callerPort := 30002
  calleeIp := some (ascii "172.28.0.101")
  calleePort := 30004
  srtpSuite := some (ascii "AES_CM_128_HMAC_SHA1_80")
  ttlSec := 120

/-- The client `rtpe_tarantool_new` makes for the daemon; `node_id` has 64 bytes. -/
def mediaConfig (nodeId : Bytes) : RtpEngine.Config :=
  ⟨ascii "rtpe_user", ascii "rtpe_secret_password", nodeId.take 63, 3600, 10, 3⟩

/-- What a datagram has the daemon do. -/
inductive NgCommand where
  | save (callId : Bytes)
  | delete
  | none
  deriving DecidableEq

/-- The comparisons of the main loop with the command; `recvfrom` has to return something. -/
def ngCommandOf (data : Bytes) : NgCommand :=
  if data = [] then .none
  else if (ngWords (ngBuffer data)).2 = ascii "offer" ∨ (ngWords (ngBuffer data)).2 = ascii "answer"
  then .save (savedCallId (ngBuffer data))
  else if (ngWords (ngBuffer data)).2 = ascii "delete" then .delete
  else .none

/-- `response`, in a buffer of 4096 bytes. -/
def ngResponse (data : Bytes) : Bytes :=
  ((ngWords (ngBuffer data)).1 ++
    match ngCommandOf data with
    | .save _ => ascii " d8:result2:ok4:porti30002ee"
    | .delete => ascii " d8:result2:okee"
    | .none =>
        if (ngWords (ngBuffer data)).2 = ascii "ping" then ascii " d8:result4:pongee"
        else ascii " d8:result2:okee").take 4095

/-- What the driver does with a datagram. -/
def perform (nodeId data : Bytes) (net : RtpEngine.Net) (c : RtpEngine.Client) :
    Report × RtpEngine.Client :=
  match ngCommandOf data with
  | .save callId => RtpEngine.saveCall (mediaConfig nodeId).withDefaults net (mediaInfo callId) c
  | .delete => RtpEngine.deleteCall (mediaConfig nodeId).withDefaults net (some sampleCallId) c
  | .none => (⟨.noRequest, false, false, false, []⟩, c)

/-! ## The commands of the proxies -/

/-- The Call-ID a call is saved under. -/
def savedUnder (callId : Bytes) : Bytes :=
  if callId.takeWhile (fun c => decide (c ≠ 0x22)) = [] then sampleCallId
  else callId.takeWhile fun c => decide (c ≠ 0x22)

/-- A cookie the daemon reads back. -/
structure IsCookie (cookie : Bytes) : Prop where
  word : ∀ c ∈ cookie, isspace c = false
  nonempty : cookie ≠ []
  short : cookie.length ≤ 31
  noNul : 0 ∉ cookie

/-- A command as it is written, if it fits the buffer. -/
theorem ngCommand_eq {cookie command callId : Bytes} (hcookie : cookie.length ≤ 31)
    (hcommand : command.length ≤ 31) (hid : callId.length ≤ 127) :
    ngCommand cookie command callId =
      cookie ++ 0x20 :: (command ++ 0x20 :: (ascii "\x7b\"" ++ (ascii "call-id" ++
        (ascii "\":\"" ++ (callId ++ 0x22 :: (ascii ",\"command\":\"" ++ (command ++
          ascii "\"\x7d"))))))) := by
  have hone : ascii " " = [0x20] := rfl
  have hopen : ascii " \x7b\"call-id\":\"" =
      0x20 :: (ascii "\x7b\"" ++ (ascii "call-id" ++ ascii "\":\"")) := rfl
  have hclose : ascii "\",\"command\":\"" = 0x22 :: ascii ",\"command\":\"" := rfl
  rw [ngCommand, List.take_of_length_le]
  · simp only [hone, hopen, hclose, List.append_assoc, List.cons_append, List.nil_append]
  · have hlens : (ascii " ").length = 1 ∧ (ascii " \x7b\"call-id\":\"").length = 13 ∧
        (ascii "\",\"command\":\"").length = 13 ∧ (ascii "\"\x7d").length = 2 := by decide
    simp only [List.length_append, hlens.1, hlens.2.1, hlens.2.2.1, hlens.2.2.2]
    omega

/-- The daemon gets a command as it was written. -/
theorem ngBuffer_ngCommand {cookie command callId : Bytes} (hcookie : 0 ∉ cookie)
    (hcommand : 0 ∉ command) (hid : 0 ∉ callId) :
    ngBuffer (ngCommand cookie command callId) = ngCommand cookie command callId := by
  have hlen : (ngCommand cookie command callId).length ≤ 1023 := List.length_take_le _ _
  rw [ngBuffer, List.take_of_length_le (by omega)]
  refine ofBuffer_eq_self fun hnul => ?_
  have hfixed : (0 : UInt8) ∉ ascii " " ∧ (0 : UInt8) ∉ ascii " \x7b\"call-id\":\"" ∧
      (0 : UInt8) ∉ ascii "\",\"command\":\"" ∧ (0 : UInt8) ∉ ascii "\"\x7d" := by decide
  have hmem := List.mem_of_mem_take hnul
  simp only [List.mem_append, hcookie, hcommand, hid, hfixed, or_self] at hmem

/-- The cookie and the command are read back. -/
theorem ngWords_ngCommand {cookie command callId : Bytes} (hcookie : IsCookie cookie)
    (hcommand : IsCookie command) (hid : callId.length ≤ 127) :
    ngWords (ngCommand cookie command callId) = (cookie, command) := by
  have hspace : isspace 0x20 = true := by decide
  have hfirst := hcookie.short
  have hsecond := hcommand.short
  rw [ngCommand_eq hcookie.short hcommand.short hid, ngWords,
    scanString_append hcookie.word hcookie.nonempty (by omega) hspace]
  simp only
  rw [scanString_space hspace,
    scanString_append hcommand.word hcommand.nonempty (by omega) hspace]
  rfl

/-- **The Call-ID is taken up to its first quotation mark.** -/
theorem savedCallId_ngCommand {cookie command callId : Bytes} (hcookie : cookie.length ≤ 31)
    (hcommand : command.length ≤ 31) (hid : callId.length ≤ 127)
    (hfirst : ¬ ascii "call-id" <:+:
      (cookie ++ 0x20 :: (command ++ 0x20 :: ascii "\x7b\"")) ++ (ascii "call-id").dropLast) :
    savedCallId (ngCommand cookie command callId) = savedUnder callId := by
  have hkey : ascii "call-id" ≠ [] := by decide
  have hshape : ngCommand cookie command callId =
      (cookie ++ 0x20 :: (command ++ 0x20 :: ascii "\x7b\"")) ++ ascii "call-id" ++
        (ascii "\":\"" ++ (callId ++ 0x22 :: (ascii ",\"command\":\"" ++ (command ++
          ascii "\"\x7d")))) := by
    rw [ngCommand_eq hcookie hcommand hid]
    simp only [List.append_assoc, List.cons_append]
  rw [hshape, savedCallId, strstr_first hkey hfirst]
  simp only
  rw [if_pos (List.prefix_append _ _)]
  have hdrop : ∀ s : Bytes, (ascii "\":\"" ++ s).drop 3 = s := fun s => rfl
  rw [hdrop, savedUnder]
  rw [scanSet_stop hid (by decide)]
  split_ifs <;> rfl

/-- A Call-ID is saved as it is if there is something of it, and no quotation mark in it. -/
theorem savedUnder_eq_iff {callId : Bytes} :
    savedUnder callId = callId ↔ callId ≠ [] ∧ 0x22 ∉ callId := by
  have hall : callId.takeWhile (fun c => decide (c ≠ 0x22)) = callId ↔ 0x22 ∉ callId := by
    rw [List.takeWhile_eq_self_iff]
    constructor
    · intro h hmem
      exact of_decide_eq_true (h _ hmem) rfl
    · exact fun h c hc => decide_eq_true (ne_of_mem_of_not_mem hc h)
  unfold savedUnder
  split_ifs with hnone
  · constructor
    · rintro rfl
      exact absurd hnone (by decide)
    · rintro ⟨hne, hquote⟩
      exact absurd ((hall.2 hquote).symm.trans hnone) hne
  · rw [hall]
    refine ⟨fun hquote => ⟨?_, hquote⟩, And.right⟩
    rintro rfl
    exact hnone rfl

/-- A Call-ID is part of a C string. -/
theorem not_mem_callId (d : Datagram) : 0 ∉ d.callId := by
  have htext : 0 ∉ d.text := by
    intro hmem
    have hne := List.mem_takeWhile_imp hmem
    simp at hne
  unfold Datagram.callId extractCallId
  split
  · decide
  · next heq =>
    obtain ⟨p, hp, hcolon⟩ := Option.bind_eq_some_iff.1 heq
    have hheader : p <:+ d.text := by
      unfold callIdHeader at hp
      split at hp
      · next hfound =>
        cases hp
        exact strcasestr_suffix hfound
      · split at hp
        · next hfound =>
          cases hp
          exact strcasestr_suffix hfound
        · split_ifs at hp
          cases hp
          exact List.suffix_refl _
    intro hmem
    have hmem := (List.takeWhile_prefix _).subset (List.mem_of_mem_take hmem)
    exact htext (hheader.subset ((strchr_suffix hcolon).subset
      ((List.dropWhile_suffix _).subset hmem)))

/-- One of the two programs. -/
def Proxy.Known (p : Proxy) : Prop :=
  (∃ addr, p = Kamailio.proxy addr) ∨ ∃ addr con, p = OpenSips.proxy addr con

theorem isCookie_offer : IsCookie (ascii "offer") := by
  constructor <;> decide +kernel

theorem isCookie_delete : IsCookie (ascii "delete") := by
  constructor <;> decide +kernel

/-- The cookies of the two programs. -/
def cookies : List Bytes :=
  [ascii "kam_cookie_1", ascii "kam_cookie_2", ascii "opensips_cookie_1", ascii "opensips_cookie_2"]

theorem isCookie_known {cookie : Bytes} (h : cookie ∈ cookies) : IsCookie cookie := by
  constructor
  all_goals
    revert cookie
    decide +kernel

/-- What the daemon reads in a command of a proxy. -/
theorem ngWords_known {cookie command : Bytes} (hcookie : IsCookie cookie)
    (hcommand : IsCookie command) (d : Datagram) :
    ngWords (ngBuffer (ngCommand cookie command d.callId)) = (cookie, command) := by
  rw [ngBuffer_ngCommand hcookie.noNul hcommand.noNul (not_mem_callId d),
    ngWords_ngCommand hcookie hcommand (length_callId_le d)]

theorem ngCommandOf_offer {cookie : Bytes} (hcookie : IsCookie cookie) (d : Datagram)
    (hfirst : ¬ ascii "call-id" <:+:
      (cookie ++ 0x20 :: (ascii "offer" ++ 0x20 :: ascii "\x7b\"")) ++ (ascii "call-id").dropLast) :
    ngCommandOf (ngCommand cookie (ascii "offer") d.callId) = .save (savedUnder d.callId) := by
  have hcommand := isCookie_offer
  have hne : ngCommand cookie (ascii "offer") d.callId ≠ [] := by
    rw [ngCommand_eq hcookie.short hcommand.short (length_callId_le d)]
    exact List.append_ne_nil_of_left_ne_nil hcookie.nonempty _
  rw [ngCommandOf, if_neg hne, ngWords_known hcookie hcommand d, if_pos (Or.inl rfl),
    ngBuffer_ngCommand hcookie.noNul hcommand.noNul (not_mem_callId d),
    savedCallId_ngCommand hcookie.short hcommand.short (length_callId_le d) hfirst]

theorem ngCommandOf_delete {cookie : Bytes} (hcookie : IsCookie cookie) (d : Datagram) :
    ngCommandOf (ngCommand cookie (ascii "delete") d.callId) = .delete := by
  have hcommand := isCookie_delete
  have hne : ngCommand cookie (ascii "delete") d.callId ≠ [] := by
    rw [ngCommand_eq hcookie.short hcommand.short (length_callId_le d)]
    exact List.append_ne_nil_of_left_ne_nil hcookie.nonempty _
  have hother : ¬ (ascii "delete" = ascii "offer" ∨ ascii "delete" = ascii "answer") := by decide
  rw [ngCommandOf, if_neg hne, ngWords_known hcookie hcommand d, if_neg hother, if_pos rfl]

/-- The kind of a datagram is in its bytes. -/
theorem kind_of_data {d : Datagram} {data : Bytes} (h : d.data = data) :
    d.kind = (⟨uasAddr, sockaddrLen, data⟩ : Datagram).kind := by
  cases d
  cases h
  rfl

theorem ignored_of_kind {p : Proxy} {d : Datagram} (h : d.kind = .other) (g : Sessions) :
    p.effects g d = [] ∧ p.next g d = g := by
  rw [Proxy.effects, Proxy.next, h]
  exact ⟨ite_self _, ite_self _⟩

/-- The answers are no SIP messages. -/
theorem kind_answer {cookie tail : Bytes} (hcookie : cookie ∈ cookies)
    (htail : tail ∈ [ascii " d8:result2:ok4:porti30002ee", ascii " d8:result2:okee"])
    {d : Datagram} (hd : d.data = cookie ++ tail) : d.kind = .other := by
  have hall : ∀ cookie ∈ cookies,
      ∀ tail ∈ [ascii " d8:result2:ok4:porti30002ee", ascii " d8:result2:okee"],
        (⟨uasAddr, sockaddrLen, cookie ++ tail⟩ : Datagram).kind = .other := by decide +kernel
  exact (kind_of_data hd).trans (hall cookie hcookie tail htail)

/-- The answer to an offer, and to a `delete`. -/
theorem ngResponse_offer {cookie callId : Bytes} (hcookie : IsCookie cookie)
    {data : Bytes} (hwords : ngWords (ngBuffer data) = (cookie, ascii "offer"))
    (hcommand : ngCommandOf data = .save callId) :
    ngResponse data = cookie ++ ascii " d8:result2:ok4:porti30002ee" := by
  have hshort := hcookie.short
  have htail : (ascii " d8:result2:ok4:porti30002ee").length = 28 := rfl
  rw [ngResponse, hwords, hcommand, List.take_of_length_le]
  simp only [List.length_append, htail]
  omega

theorem ngResponse_delete {cookie : Bytes} (hcookie : IsCookie cookie)
    {data : Bytes} (hwords : ngWords (ngBuffer data) = (cookie, ascii "delete"))
    (hcommand : ngCommandOf data = .delete) :
    ngResponse data = cookie ++ ascii " d8:result2:okee" := by
  have hshort := hcookie.short
  have htail : (ascii " d8:result2:okee").length = 16 := rfl
  rw [ngResponse, hwords, hcommand, List.take_of_length_le]
  simp only [List.length_append, htail]
  omega

/-- Both cookies of a program are known, and the one of an offer has no `call-id` in it. -/
theorem Proxy.Known.cookies {p : Proxy} (h : p.Known) :
    p.offerCookie ∈ cookies ∧ p.deleteCookie ∈ cookies ∧
      ¬ ascii "call-id" <:+: (p.offerCookie ++ 0x20 :: (ascii "offer" ++ 0x20 :: ascii "\x7b\"")) ++
        (ascii "call-id").dropLast := by
  have hfirst : ∀ cookie ∈ [ascii "kam_cookie_1", ascii "opensips_cookie_1"],
      ¬ ascii "call-id" <:+: (cookie ++ 0x20 :: (ascii "offer" ++ 0x20 :: ascii "\x7b\"")) ++
        (ascii "call-id").dropLast := by decide +kernel
  rcases h with ⟨addr, rfl⟩ | ⟨addr, con, rfl⟩
  · exact ⟨by simp [Kamailio.proxy, Docker.cookies], by simp [Kamailio.proxy, Docker.cookies],
      hfirst _ List.mem_cons_self⟩
  · exact ⟨by simp [OpenSips.proxy, Docker.cookies], by simp [OpenSips.proxy, Docker.cookies],
      hfirst _ (List.mem_cons_of_mem _ List.mem_cons_self)⟩

/-- **What becomes of the commands of a proxy.**  For an `INVITE` the daemon saves a call, under the
Call-ID if that is neither empty nor has a quotation mark in it; for a `BYE` it deletes the call of
its own constant Call-ID, whatever call it was.  The proxy ignores both answers. -/
theorem ng_exchange {p : Proxy} (hp : p.Known) (d : Datagram) :
    ngCommandOf (p.rtpeReq d.callId) = .save (savedUnder d.callId) ∧
      (savedUnder d.callId = d.callId ↔ d.callId ≠ [] ∧ 0x22 ∉ d.callId) ∧
      ngCommandOf (p.rtpeDel d.callId) = .delete ∧
      ∀ data ∈ [p.rtpeReq d.callId, p.rtpeDel d.callId], ∀ (a : Datagram) (g : Sessions),
        a.data = ngResponse data → p.effects g a = [] ∧ p.next g a = g := by
  obtain ⟨hoffer, hdelete, hfirst⟩ := hp.cookies
  have hsave : ngCommandOf (p.rtpeReq d.callId) = .save (savedUnder d.callId) :=
    ngCommandOf_offer (isCookie_known hoffer) d hfirst
  have hremove : ngCommandOf (p.rtpeDel d.callId) = .delete :=
    ngCommandOf_delete (isCookie_known hdelete) d
  refine ⟨hsave, savedUnder_eq_iff, hremove, fun data hdata a g ha => ignored_of_kind ?_ g⟩
  rcases List.mem_pair.1 hdata with rfl | rfl
  · have hwords : ngWords (ngBuffer (p.rtpeReq d.callId)) = (p.offerCookie, ascii "offer") :=
      ngWords_known (isCookie_known hoffer) isCookie_offer d
    refine kind_answer hoffer (List.mem_cons_self) ?_
    rw [ha, ngResponse_offer (isCookie_known hoffer) hwords hsave]
  · have hwords : ngWords (ngBuffer (p.rtpeDel d.callId)) = (p.deleteCookie, ascii "delete") :=
      ngWords_known (isCookie_known hdelete) isCookie_delete d
    refine kind_answer hdelete (List.mem_cons_of_mem _ List.mem_cons_self) ?_
    rw [ha, ngResponse_delete (isCookie_known hdelete) hwords hremove]

/-- A Call-ID with a quotation mark in it. -/
def inviteQuoted : Datagram :=
  sipDatagram (uac 1) (ascii "INVITE sip:bob SIP/2.0") (ascii "a\"b")

theorem ng_exchange_quoted :
    ngCommandOf ((Kamailio.proxy (uac 9)).rtpeReq inviteQuoted.callId) =
      .save (savedUnder inviteQuoted.callId) ∧ savedUnder inviteQuoted.callId = ascii "a" :=
  ⟨(ng_exchange (Or.inl ⟨uac 9, rfl⟩) inviteQuoted).1, by decide +kernel⟩

end Docker

end VoipBackend
