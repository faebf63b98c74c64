import VoipBackend.Wire.Scramble

/-!
# Is a refused login noticed?

The three drivers send `IPROTO_AUTH` and look at the reply.  The header of a reply is
a MessagePack map that gives the request type `IPROTO_OK` or an error code.  The
Kamailio driver decodes it; the OpenSIPS and the RTPEngine driver look at its first
two bytes only: a map, and then a zero byte, which in the headers Tarantool sends is
the *key* `IPROTO_REQUEST_TYPE` and not its value.

`authExact_iff` says for which headers the two bytes nevertheless tell what the header
says; `refused_login_accepted` is the reply to a wrong password, which both drivers
take for a success.
-/

namespace VoipBackend

open Library MsgPack

/-! ## The exchange -/

/-- The other end of the connection, and the allocator, during the exchange. -/
structure Peer where
  /-- `tnt_send_all` gets the request out. -/
  takes : Bool
  /-- The bytes that arrive before the connection ends. -/
  sends : Bytes
  /-- The buffer for the reply can be allocated. -/
  calloc : Bool

/-- `tnt_recv_all`: the bytes asked for, with those that are still to come, or a failure
if the connection ends before. -/
def recvAll (s : Bytes) (len : ℕ) : Option (Bytes × Bytes) :=
  if len ≤ s.length then some (s.take len, s.drop len) else none

/-- The body of the reply: a length of at most 65536 and as many bytes. -/
def recvBody (peer : Peer) : Option Bytes := do
  let (respHdr, s) ← recvAll peer.sends 5
  if respHdr.head? ≠ some 0xce then none
  else
    let respLen := ofBigEndian (respHdr.drop 1)
    if respLen = 0 ∨ 65536 < respLen then none
    else if peer.calloc = false then none
    else
      let (respBody, _) ← recvAll s respLen
      return respBody

/-- The check of the OpenSIPS and the RTPEngine driver.  A reply of one byte has no
second byte: what is read then is the byte `past` the end of the buffer. -/
def acceptsBody (respBody : Bytes) (past : UInt8) : Bool :=
  decide (0x80 ≤ respBody.getD 0 past ∧ respBody.getD 1 past = 0x00)

/-- The exchange, once the packet is built. -/
def exchange (peer : Peer) (past : UInt8) : ℤ :=
  if peer.takes = false then -1
  else
    match recvBody peer with
    | none => -1
    | some respBody => if acceptsBody respBody past then 0 else -1

namespace OpenSips

/-- `tnt_auth_scramble` of the OpenSIPS driver: what it returns, and the packet it
sends. -/
def tntAuthScramble (user pass saltB64 : Bytes) (peer : Peer) (past : UInt8) :
    ℤ × Option Bytes :=
  if user = [] ∨ pass = [] then (0, none)
  else
    let rawSalt := tntBase64Decode saltB64 64
    if rawSalt.length < tntSha1DigestSize then (-1, none)
    else (exchange peer past, some (authPacket user pass rawSalt 1))

end OpenSips

namespace RtpEngine

/-- `tnt_auth_scramble` of the RTPEngine driver: what it returns, the packet it sends and
the sync id it leaves.  A client without a password still authenticates. -/
def tntAuthScramble (user password saltB64 : Bytes) (syncId : UInt64) (peer : Peer)
    (past : UInt8) : ℤ × Option Bytes × UInt64 :=
  if user = [] then (0, none, syncId)
  else
    let rawSalt := tntBase64Decode saltB64 64
    if rawSalt.length < tntSha1DigestSize then (-1, none, syncId)
    else (exchange peer past,
      some (authPacket user password rawSalt (syncId + 1).toNat), syncId + 1)

end RtpEngine

namespace Kamailio

/-- The loop of `tnt_auth_scramble` of the Kamailio driver over the entries of the
decoded header; a number that is not negative is a positive integer to the decoder. -/
def authOk : List (Value × Value) → Bool
  | [] => false
  | (.int k, .int v) :: entries =>
      (decide (k = iprotoRequestType) && decide (v = iprotoOk)) || authOk entries
  | _ :: entries => authOk entries

/-- The end of `tnt_auth_scramble` of the Kamailio driver, once the packet is sent.
`unpack` is `msgpack_unpack_next` of the msgpack library. -/
def awaitReply (unpack : Bytes → Option Value) (peer : Peer) : ℤ :=
  match recvBody peer with
  | none => -1
  | some respBody =>
      match unpack respBody with
      | some (.map entries) => if authOk entries then 0 else -1
      | _ => -1

end Kamailio

/-! ## Headers -/

/-- The encoding of a map with these entries, its count in the first byte or in a field
of its own. -/
def mapItem : Option CountWidth → List (Item × Item) → Item
  | none, entries => .fixmap entries
  | some w, entries => .map w entries

/-- The header of a reply: a well-formed map with distinct keys. -/
structure Header where
  count : Option CountWidth
  entries : List (Item × Item)
  valid : (mapItem count entries).Valid
  distinct : (entries.map fun e => e.1.value).Nodup

namespace Header

/-- The bytes of a header. -/
def bytes (h : Header) : Bytes := (mapItem h.count h.entries).bytes

/-- The header maps `IPROTO_REQUEST_TYPE` to `IPROTO_OK`. -/
def Ok (h : Header) : Prop :=
  ∃ e ∈ h.entries, e.1.value = .int iprotoRequestType ∧ e.2.value = .int iprotoOk

/-- The second byte of a reply with this header: the first byte of the first key, the
first byte behind an empty header, or the first byte of the count. -/
def secondByte (h : Header) (rest : Bytes) (past : UInt8) : UInt8 :=
  match h.count, h.entries with
  | none, [] => rest.headD past
  | none, (key, _) :: _ => key.tag
  | some w, entries => UInt8.ofNat (entries.length >>> (8 * (w.bytes - 1)))

/-- The second byte of a reply tells whether the header maps `IPROTO_REQUEST_TYPE` to
`IPROTO_OK`.

* An empty header is followed by a byte that is not zero.
* If the first key is the single zero byte, its value is `IPROTO_OK`.
* If the first key is anything else, the header does not say `IPROTO_OK`.
* If the count has a field of its own, it is small enough for the first byte of that
  field to be zero exactly when the header says `IPROTO_OK`. -/
def Tells (h : Header) (rest : Bytes) : Prop :=
  match h.count, h.entries with
  | none, [] => ∃ b more, rest = b :: more ∧ b ≠ 0
  | none, (key, val) :: _ => key = .fixint 0 ∧ val.value = .int iprotoOk ∨ key ≠ .fixint 0 ∧ ¬ h.Ok
  | some w, entries => entries.length < 256 ^ (w.bytes - 1) ↔ h.Ok

end Header

/-! ## What arrives -/

theorem recvAll_eq_some_iff {s x rest : Bytes} {len : ℕ} :
    recvAll s len = some (x, rest) ↔ s = x ++ rest ∧ x.length = len := by
  unfold recvAll
  constructor
  · intro h
    split_ifs at h with hlen
    cases h
    exact ⟨(List.take_append_drop len s).symm, List.length_take_of_le hlen⟩
  · rintro ⟨rfl, rfl⟩
    rw [if_pos (by simp), List.take_left, List.drop_left]

theorem recvAll_body (body s : Bytes) : recvAll (body ++ s) body.length = some (body, s) :=
  recvAll_eq_some_iff.2 ⟨rfl, rfl⟩

/-- The header of a frame. -/
theorem recvAll_header (body s : Bytes) :
    recvAll (frame body ++ s) 5 = some (0xce :: bigEndian 4 body.length, body ++ s) :=
  recvAll_eq_some_iff.2 ⟨by simp [frame], by simp⟩

/-- The length in the header of a frame. -/
theorem ofBigEndian_header {body : Bytes} (h : body.length < 2 ^ 32) :
    ofBigEndian ((0xce :: bigEndian 4 body.length : Bytes).drop 1) = body.length := by
  rw [List.drop_succ_cons, List.drop_zero]
  exact ofBigEndian_bigEndian (by norm_num; omega)

/-- A peer that takes the request and sends a reply with this body, and then anything. -/
def replying (body more : Bytes) : Peer := ⟨true, frame body ++ more, true⟩

theorem recvBody_replying {body : Bytes} (h : body.length < 2 ^ 32) (more : Bytes) :
    recvBody (replying body more) =
      if body.length = 0 ∨ 65536 < body.length then none else some body := by
  have hlen := ofBigEndian_header h
  rw [List.drop_succ_cons, List.drop_zero] at hlen
  unfold recvBody replying
  rw [recvAll_header]
  simp only [Option.bind_eq_bind, Option.bind_some, List.head?_cons, ne_eq, not_true_eq_false,
    if_false, List.drop_succ_cons, List.drop_zero, hlen, recvAll_body, reduceCtorEq]
  rfl

/-- The exchange succeeds when the body is of a length the drivers take and passes their
check. -/
theorem exchange_replying {body : Bytes} (h : body.length < 2 ^ 32) (more : Bytes) (past : UInt8) :
    exchange (replying body more) past = 0 ↔
      body.length ≠ 0 ∧ body.length ≤ 65536 ∧ acceptsBody body past = true := by
  have htakes : (replying body more).takes = true := rfl
  unfold exchange
  rw [htakes, recvBody_replying h more]
  by_cases hrange : body.length = 0 ∨ 65536 < body.length
  · simp only [hrange, if_true]
    constructor
    · intro hneg
      simp at hneg
    · rintro ⟨hne, hle, -⟩
      omega
  · have hin : body.length ≠ 0 ∧ body.length ≤ 65536 := by omega
    simp only [hrange, if_false]
    cases hacc : acceptsBody body past <;> simp [hin.1, hin.2]

/-! ## What the two bytes say -/

namespace Header

theorem length_bytes_pos (h : Header) (rest : Bytes) : (h.bytes ++ rest).length ≠ 0 := by
  simp [bytes, Item.bytes]

/-- A header starts with the tag of a map. -/
theorem le_firstByte (h : Header) (rest : Bytes) (past : UInt8) :
    0x80 ≤ (h.bytes ++ rest).getD 0 past := by
  have hvalid := h.valid
  show 0x80 ≤ (mapItem h.count h.entries).tag
  cases hcount : h.count with
  | none =>
    rw [hcount] at hvalid
    have hlen : h.entries.length < 16 := by
      simp only [mapItem, Item.Valid] at hvalid
      exact hvalid.1
    show (0x80 : UInt8) ≤ UInt8.ofNat (0x80 + h.entries.length)
    rw [UInt8.le_iff_toNat_le, UInt8.toNat_ofNat_of_lt' (by show _ < 256; omega)]
    show 128 ≤ 0x80 + h.entries.length
    omega
  | some w =>
    show 0x80 ≤ w.mapTag
    cases w <;> decide

theorem secondByte_eq (h : Header) (rest : Bytes) (past : UInt8) :
    (h.bytes ++ rest).getD 1 past = h.secondByte rest past := by
  unfold bytes secondByte Item.bytes
  cases h.count with
  | none =>
    cases h.entries with
    | nil => cases rest <;> simp [mapItem, Item.payload, entriesBytes]
    | cons e entries => simp [mapItem, Item.payload, entriesBytes]
  | some w => cases w <;> simp [mapItem, Item.payload, bigEndian, CountWidth.bytes]

theorem accepts_iff (h : Header) (rest : Bytes) (past : UInt8) :
    acceptsBody (h.bytes ++ rest) past = true ↔ h.secondByte rest past = 0 := by
  rw [acceptsBody, decide_eq_true_eq, secondByte_eq]
  exact and_iff_right (h.le_firstByte rest past)

/-- The first byte of a count that fits its field is zero when the count would fit a
field one byte shorter. -/
theorem topByte_eq_zero_iff {w : CountWidth} {n : ℕ} (hn : n < 256 ^ w.bytes) :
    UInt8.ofNat (n >>> (8 * (w.bytes - 1))) = 0 ↔ n < 256 ^ (w.bytes - 1) := by
  have hshift : n >>> (8 * (w.bytes - 1)) = n / 256 ^ (w.bytes - 1) := by
    rw [Nat.shiftRight_eq_div_pow, pow_mul]
    rfl
  have hsmall : n / 256 ^ (w.bytes - 1) < 256 := by
    refine Nat.div_lt_of_lt_mul ?_
    calc n < 256 ^ w.bytes := hn
      _ = 256 ^ (w.bytes - 1) * 256 := by cases w <;> rfl
  rw [hshift, ← UInt8.toNat_inj, UInt8.toNat_ofNat_of_lt' hsmall]
  show _ = 0 ↔ _
  rw [Nat.div_eq_zero_iff]
  have hpos : 0 < 256 ^ (w.bytes - 1) := Nat.pow_pos (by norm_num)
  omega

/-- With distinct keys, a first key of zero decides what the header says. -/
theorem ok_iff_of_first {h : Header} {val : Item} {entries : List (Item × Item)}
    (hentries : h.entries = (.fixint 0, val) :: entries) :
    h.Ok ↔ val.value = .int iprotoOk := by
  have hdistinct := h.distinct
  rw [hentries, List.map_cons, List.nodup_cons] at hdistinct
  have hzero : (Item.fixint 0).value = .int iprotoRequestType := rfl
  constructor
  · rintro ⟨e, he, hkey, hval⟩
    rw [hentries] at he
    rcases List.mem_cons.1 he with rfl | he
    · exact hval
    · refine absurd (List.mem_map.2 ⟨e, he, ?_⟩) hdistinct.1
      rw [hkey, hzero]
  · intro hval
    exact ⟨(.fixint 0, val), by simp [hentries], hzero, hval⟩

/-- **When the second byte tells.** -/
theorem secondByte_exact_iff (h : Header) (rest : Bytes) :
    (∀ past, h.secondByte rest past = 0 ↔ h.Ok) ↔ h.Tells rest := by
  have hvalid := h.valid
  unfold secondByte Tells
  cases hcount : h.count with
  | none =>
    rw [hcount] at hvalid
    cases hentries : h.entries with
    | nil =>
      have hno : ¬ h.Ok := by
        rintro ⟨e, he, -⟩
        rw [hentries] at he
        cases he
      constructor
      · intro hexact
        cases rest with
        | nil => exact absurd ((hexact 0).1 rfl) hno
        | cons b more =>
          refine ⟨b, more, rfl, ?_⟩
          intro hb
          exact hno ((hexact 0).1 hb)
      · rintro ⟨b, more, rfl, hb⟩ past
        exact iff_of_false hb hno
    | cons e entries =>
      obtain ⟨key, val⟩ := e
      have hkey : key.Valid := by
        rw [hentries] at hvalid
        simp only [mapItem, Item.Valid, EntriesValid] at hvalid
        exact hvalid.2.1.1
      simp only [tag_eq_zero_iff hkey, forall_const]
      by_cases hzero : key = .fixint 0
      · subst hzero
        rw [ok_iff_of_first hentries]
        simp
      · simp [hzero]
  | some w =>
    rw [hcount] at hvalid
    have hlen : h.entries.length < 256 ^ w.bytes := by
      simp only [mapItem, Item.Valid] at hvalid
      exact hvalid.1
    simp only [topByte_eq_zero_iff hlen, forall_const]

end Header

/-! ## The decoder of the Kamailio driver -/

theorem authOk_entryValues_iff (entries : List (Item × Item)) :
    Kamailio.authOk (entryValues entries) = true ↔
      ∃ e ∈ entries, e.1.value = .int iprotoRequestType ∧ e.2.value = .int iprotoOk := by
  induction entries with
  | nil => simp [entryValues, Kamailio.authOk]
  | cons e entries ih =>
    obtain ⟨key, val⟩ := e
    rw [entryValues, List.exists_mem_cons_iff, ← ih]
    cases hkey : key.value with
    | int k =>
      cases hval : val.value with
      | int v => simp [Kamailio.authOk]
      | _ => simp [Kamailio.authOk]
    | _ => simp [Kamailio.authOk]

/-- The Kamailio driver accepts a reply of a length it takes exactly when the header
says so. -/
theorem awaitReply_iff {h : Header} {rest : Bytes} (hlen : (h.bytes ++ rest).length < 2 ^ 32)
    {unpack : Bytes → Option Value}
    (hunpack : unpack (h.bytes ++ rest) = some (.map (entryValues h.entries))) (more : Bytes) :
    Kamailio.awaitReply unpack (replying (h.bytes ++ rest) more) = 0 ↔
      (h.bytes ++ rest).length ≤ 65536 ∧ h.Ok := by
  have hpos := h.length_bytes_pos rest
  unfold Kamailio.awaitReply
  rw [recvBody_replying hlen more]
  by_cases hlong : 65536 < (h.bytes ++ rest).length
  · rw [if_pos (Or.inr hlong)]
    refine iff_of_false (by simp) ?_
    rintro ⟨hle, -⟩
    omega
  · rw [if_neg (by omega)]
    simp only [hunpack]
    rw [Header.Ok, ← authOk_entryValues_iff]
    have hle : (h.bytes ++ rest).length ≤ 65536 := by omega
    rw [and_iff_right hle]
    cases Kamailio.authOk (entryValues h.entries) <;> simp

/-! ## The result -/

/-- A login procedure that returns zero exactly when the header of the reply maps
`IPROTO_REQUEST_TYPE` to `IPROTO_OK`, whatever follows the reply and whatever lies
behind its buffer. -/
def AuthExact (h : Header) (rest : Bytes) (login : Peer → UInt8 → ℤ) : Prop :=
  ∀ more past, login (replying (h.bytes ++ rest) more) past = 0 ↔ h.Ok

theorem authExact_exchange_iff {h : Header} {rest : Bytes}
    (hlen : (h.bytes ++ rest).length < 2 ^ 32) :
    AuthExact h rest exchange ↔
      (h.bytes ++ rest).length ≤ 65536 ∧ h.Tells rest ∨
        65536 < (h.bytes ++ rest).length ∧ ¬ h.Ok := by
  have hpos := h.length_bytes_pos rest
  have hexchange : ∀ more past, exchange (replying (h.bytes ++ rest) more) past = 0 ↔
      (h.bytes ++ rest).length ≤ 65536 ∧ h.secondByte rest past = 0 := by
    intro more past
    rw [exchange_replying hlen more past, h.accepts_iff rest past]
    exact and_iff_right hpos
  unfold AuthExact
  simp only [hexchange, forall_const]
  by_cases hlong : 65536 < (h.bytes ++ rest).length
  · have hnot : ¬ (h.bytes ++ rest).length ≤ 65536 := by omega
    simp only [hlong, hnot, false_and, false_iff, true_and, false_or, forall_const]
  · have hle : (h.bytes ++ rest).length ≤ 65536 := by omega
    simp only [hle, hlong, true_and, false_and, or_false]
    exact h.secondByte_exact_iff rest

/-- **When a login is judged rightly.**  With credentials and a salt of at least twenty
bytes, for every well-formed reply to `IPROTO_AUTH`: the Kamailio driver, given a
decoder that decodes the header as specified, accepts it exactly when the header says
`IPROTO_OK` and the reply has at most 65536 bytes; the OpenSIPS and the RTPEngine
driver accept it exactly when the header says `IPROTO_OK` if and only if the reply has
at most 65536 bytes and its second byte tells, or is longer and not an `IPROTO_OK`. -/
theorem authExact_iff {h : Header} {rest user pass saltB64 : Bytes}
    (hlen : (h.bytes ++ rest).length < 2 ^ 32) (huser : user ≠ []) (hpass : pass ≠ [])
    (hsalt : tntSha1DigestSize ≤ (tntBase64Decode saltB64 64).length) (syncId : UInt64)
    {unpack : Bytes → Option Value}
    (hunpack : unpack (h.bytes ++ rest) = some (.map (entryValues h.entries))) :
    (∀ more, Kamailio.awaitReply unpack (replying (h.bytes ++ rest) more) = 0 ↔
      (h.bytes ++ rest).length ≤ 65536 ∧ h.Ok) ∧
    (AuthExact h rest (fun peer past =>
        (OpenSips.tntAuthScramble user pass saltB64 peer past).1) ∧
      AuthExact h rest (fun peer past =>
        (RtpEngine.tntAuthScramble user pass saltB64 syncId peer past).1) ↔
      (h.bytes ++ rest).length ≤ 65536 ∧ h.Tells rest ∨
        65536 < (h.bytes ++ rest).length ∧ ¬ h.Ok) := by
  have hopensips : (fun peer past => (OpenSips.tntAuthScramble user pass saltB64 peer past).1) =
      exchange := by
    funext peer past
    simp [OpenSips.tntAuthScramble, huser, hpass, not_lt.2 hsalt]
  have hrtpengine : (fun peer past =>
      (RtpEngine.tntAuthScramble user pass saltB64 syncId peer past).1) = exchange := by
    funext peer past
    simp [RtpEngine.tntAuthScramble, huser, not_lt.2 hsalt]
  refine ⟨awaitReply_iff hlen hunpack, ?_⟩
  rw [hopensips, hrtpengine, and_self, authExact_exchange_iff hlen]

/-! ## Two replies -/

/-- The header Tarantool sends: a code, the sync id 1 and the schema version 80. -/
def replyHeader (code : ℕ) (h : code < 2 ^ 32) : Header where
  count := none
  entries := [(.fixint 0, .uint .w32 code), (.fixint 1, .uint .w64 1), (.fixint 5, .uint .w32 80)]
  valid := by
    norm_num [mapItem, Item.Valid, EntriesValid, NumWidth.bytes] at h ⊢
    exact h
  distinct := by simp [Item.value]

/-- The salt of a greeting, in base64. -/
def greetingSalt : Bytes := List.replicate 43 65 ++ [61]

/-- The header of the reply to a successful login. -/
def successHeader : Header := replyHeader iprotoOk (by decide)

/-- The header of the reply to a wrong password: the code is `0x8000 | 47`. -/
def refusalHeader : Header := replyHeader 0x802f (by norm_num)

/-- The body that follows it. -/
def refusalBody : Bytes :=
  (Item.fixmap [(.fixint 0x31,
    .str .w8 (ascii "User not found or supplied credentials are invalid"))]).bytes

/-- What a decoder makes of the reply to a successful login. -/
def unpackSuccess (s : Bytes) : Option Value :=
  if s = successHeader.bytes ++ [0x80] then some (.map (entryValues successHeader.entries))
  else none

/-- A successful login is noticed by all three drivers. -/
theorem authExact_success :
    Kamailio.awaitReply unpackSuccess (replying (successHeader.bytes ++ [0x80]) []) = 0 ∧
      AuthExact successHeader [0x80] (fun peer past =>
        (OpenSips.tntAuthScramble (ascii "voip") (ascii "secret") greetingSalt peer past).1) ∧
      AuthExact successHeader [0x80] (fun peer past =>
        (RtpEngine.tntAuthScramble (ascii "voip") (ascii "secret") greetingSalt 0 peer past).1) := by
  have hle : (successHeader.bytes ++ [0x80]).length ≤ 65536 := by decide +kernel
  have hlen : (successHeader.bytes ++ [0x80]).length < 2 ^ 32 := by decide +kernel
  have huser : ascii "voip" ≠ [] := by decide
  have hpass : ascii "secret" ≠ [] := by decide
  have hsalt : tntSha1DigestSize ≤ (tntBase64Decode greetingSalt 64).length := by decide +kernel
  have hok : successHeader.Ok := (Header.ok_iff_of_first rfl).2 rfl
  have hunpack : unpackSuccess (successHeader.bytes ++ [0x80]) =
      some (.map (entryValues successHeader.entries)) := if_pos rfl
  obtain ⟨hkamailio, hdrivers⟩ := authExact_iff hlen huser hpass hsalt 0 hunpack
  exact ⟨(hkamailio []).2 ⟨hle, hok⟩, hdrivers.2 (Or.inl ⟨hle, Or.inl ⟨rfl, rfl⟩⟩)⟩

/-- **A refused login is taken for a success.**  Both drivers return zero on the reply to
a wrong password. -/
theorem refused_login_accepted :
    ¬ AuthExact refusalHeader refusalBody (fun peer past =>
        (OpenSips.tntAuthScramble (ascii "voip") (ascii "wrong") greetingSalt peer past).1) ∧
      ¬ AuthExact refusalHeader refusalBody (fun peer past =>
        (RtpEngine.tntAuthScramble (ascii "voip") (ascii "wrong") greetingSalt 0 peer past).1) := by
  have hrefused : ¬ refusalHeader.Ok := by
    rw [Header.ok_iff_of_first rfl]
    simp [Item.value, iprotoOk]
  refine ⟨fun hexact => ?_, fun hexact => ?_⟩
  · exact hrefused ((hexact [] 0).1 (by decide +kernel))
  · exact hrefused ((hexact [] 0).1 (by decide +kernel))

end VoipBackend
