import VoipBackend.Lib.Grammar
import VoipBackend.Wire.Replies
import VoipBackend.Wire.Stream

/-!
# Requests of the Asterisk module

`res_tarantool.c`: one request over one socket, `ast_tarantool_exec_raw`.  The module has a copy
of `msgpuck.h` of its own.  It writes what the other drivers write, and it reads what they read
but for one format: its `mp_decode_uint` gives 32-bit numbers and knows no `0xcf`, and takes
this byte alone for a zero.  The sync id of a response is sent in that format, so that a header is
read as pairs of numbers that are not its entries (`headerLoop_eq_some_iff`, `statusKept_iff`).
-/

namespace VoipBackend

open Library MsgPack

namespace Asterisk

open Msgpuck hiding mpDecodeUint

/-- `mp_decode_uint`.  A byte that starts no number of up to 32 bits is skipped and read as 0. -/
def mpDecodeUint : Bytes → Option (ℕ × Bytes)
  | [] => none
  | c :: p =>
      if c ≤ 0x7f then some (c.toNat, p)
      else if c = 0xcc then readUint 1 p
      else if c = 0xcd then readUint 2 p
      else if c = 0xce then readUint 4 p
      else some (0, p)

/-! ## An exchange -/

/-- A connection of the pool, `struct ast_tarantool_socket`. -/
structure Socket where
  fd : ℤ
  connected : Bool
  syncId : UInt64
  deriving DecidableEq

/-- The socket is closed after a failure. -/
def Socket.close (sock : Socket) : Socket := { sock with fd := -1, connected := false }

/-- What the calls of one exchange return. -/
structure Exchange where
  /-- What `writev()` returns for these bytes. -/
  writev : Bytes → ℤ
  /-- The bytes that arrive before the connection ends or times out. -/
  arrives : Bytes
  /-- There is memory for a response that does not fit the buffer on the stack. -/
  malloc : Bool

/-- The arguments of `ast_tarantool_exec_raw`; a buffer of size 0 also stands for none. -/
structure RawRequest where
  reqType : ℕ
  body : Bytes
  resSize : ℕ

/-- The copy `memcpy(res_buf, src, len)`, with the NUL behind it. -/
structure Copy where
  src : Bytes
  len : ℕ

def Copy.bytes (c : Copy) : Bytes := c.src.take c.len ++ [0]

/-- What `ast_tarantool_exec_raw` returns and leaves. -/
structure Reply where
  rc : ℤ
  res : Option Copy
  sock : Socket

/-- The header of a request. -/
def requestHeader (reqType : ℕ) (sync : UInt64) : Bytes :=
  mpEncodeMap 2 ++ mpEncodeUint iprotoRequestType ++ mpEncodeUint reqType ++
    mpEncodeUint iprotoSync ++ mpEncodeUint sync.toNat

/-- `total_len`, a 32-bit number. -/
def RawRequest.totalLen (r : RawRequest) (sync : UInt64) : ℕ :=
  ((requestHeader r.reqType sync).length + r.body.length) % 2 ^ 32

/-- What `writev()` is given. -/
def RawRequest.packet (r : RawRequest) (sync : UInt64) : Bytes :=
  0xce :: bigEndian 4 (r.totalLen sync) ++ requestHeader r.reqType sync ++ r.body

/-- The loop over the header: the status code, and the pointer behind it. -/
def headerLoop : ℕ → ℕ → Bytes → Option (ℕ × Bytes)
  | code, 0, p => some (code, p)
  | code, count + 1, p => do
      let (k, p) ← mpDecodeUint p
      if k = iprotoRequestType then
        let (code, p) ← mpDecodeUint p
        headerLoop code count p
      else
        let (_, p) ← mpDecodeUint p
        headerLoop code count p

/-- What is done with a response; `none` if it is read past its end. -/
def readResponse (sock : Socket) (resSize : ℕ) (rbuf : Bytes) : Option Reply := do
  let (mapSize, p) ← mpDecodeMap rbuf
  let (code, p) ← headerLoop 0 mapSize p
  if code ≠ iprotoOk then return ⟨-1, none, sock⟩
  else
    return ⟨toInt p.length, if 0 < resSize then some ⟨p, min p.length (resSize - 1)⟩ else none,
      sock⟩

/-- The size of `static_resp`. -/
def staticResp : ℕ := 4096

/-- `ast_tarantool_exec_raw`. -/
def execRaw (x : Exchange) (sock : Socket) (r : RawRequest) : Option Reply :=
  if sock.fd < 0 ∨ sock.connected = false then some ⟨-1, none, sock⟩
  else
    let sock := { sock with syncId := sock.syncId + 1 }
    if x.writev (r.packet sock.syncId) < (5 + r.totalLen sock.syncId) % 2 ^ 32 then
      some ⟨-1, none, sock.close⟩
    else
      match recvAll x.arrives 5 with
      | none => some ⟨-1, none, sock.close⟩
      | some (rlenHdr, arrives) =>
          if rlenHdr.head? ≠ some 0xce then some ⟨-1, none, sock.close⟩
          else if staticResp < ofBigEndian (rlenHdr.drop 1) ∧ x.malloc = false then
            some ⟨-1, none, sock⟩
          else
            match recvAll arrives (ofBigEndian (rlenHdr.drop 1)) with
            | none => some ⟨-1, none, sock.close⟩
            | some (rbuf, _) => readResponse sock r.resSize rbuf

/-! ## A header in pairs of numbers -/

/-- The tags of a number of up to 32 bits; every other byte is a zero by itself. -/
def narrowTags : Tags where
  own c := if c ≤ 0x7f then some c.toNat else none
  wide c := if c = 0xcc then some 1 else if c = 0xcd then some 2 else if c = 0xce then some 4
    else none

/-- The decoder follows this table. -/
theorem mpDecodeUint_eq_read (p : Bytes) : mpDecodeUint p = narrowTags.read p := by
  cases p with
  | nil => rfl
  | cons c p =>
    simp only [mpDecodeUint, Tags.read, narrowTags]
    split_ifs <;> rfl

/-- These bytes begin with these pairs of numbers of up to 32 bits: what is behind them. -/
inductive PairsAt : List (ℕ × ℕ) → Bytes → Bytes → Prop
  | nil (p : Bytes) : PairsAt [] p p
  | cons {k v : ℕ} {pairs : List (ℕ × ℕ)} {p q s left : Bytes} (hkey : narrowTags.At p k q)
      (hval : narrowTags.At q v s) (hrest : PairsAt pairs s left) : PairsAt ((k, v) :: pairs) p left

theorem PairsAt.append {pairs pairs' : List (ℕ × ℕ)} {p q left : Bytes} (h : PairsAt pairs p q)
    (h' : PairsAt pairs' q left) : PairsAt (pairs ++ pairs') p left := by
  induction h with
  | nil => exact h'
  | cons hkey hval _ ih => exact .cons hkey hval (ih h')

/-- Bytes begin with so many pairs in one way only. -/
theorem PairsAt.unique {pairs pairs' : List (ℕ × ℕ)} {p left left' : Bytes}
    (h : PairsAt pairs p left) (h' : PairsAt pairs' p left')
    (hlen : pairs.length = pairs'.length) : pairs = pairs' ∧ left = left' := by
  induction h generalizing pairs' with
  | nil =>
    cases h' with
    | nil => exact ⟨rfl, rfl⟩
    | cons => cases hlen
  | cons hkey hval _ ih =>
    cases h' with
    | nil => cases hlen
    | cons hkey' hval' hrest' =>
      obtain ⟨rfl, rfl⟩ := hkey.unique hkey'
      obtain ⟨rfl, rfl⟩ := hval.unique hval'
      obtain ⟨rfl, rfl⟩ := ih hrest' (Nat.succ.inj hlen)
      exact ⟨rfl, rfl⟩

theorem PairsAt.length_le {pairs : List (ℕ × ℕ)} {p left : Bytes} (h : PairsAt pairs p left) :
    left.length ≤ p.length := by
  induction h with
  | nil => exact le_refl _
  | cons hkey hval _ ih => exact ih.trans (hval.length_lt.le.trans hkey.length_lt.le)

/-- The code that pairs tell: the last number under the key of the status. -/
def codeOf (code : ℕ) (pairs : List (ℕ × ℕ)) : ℕ :=
  pairs.foldl (fun code e => if e.1 = iprotoRequestType then e.2 else code) code

/-- **The loop reads as many pairs as the map has entries.** -/
theorem headerLoop_eq_some_iff {code count c : ℕ} {p left : Bytes} :
    headerLoop code count p = some (c, left) ↔
      ∃ pairs, pairs.length = count ∧ PairsAt pairs p left ∧ codeOf code pairs = c := by
  induction count generalizing code p with
  | zero =>
    constructor
    · rintro h
      cases h
      exact ⟨[], rfl, .nil _, rfl⟩
    · rintro ⟨pairs, hlen, hat, rfl⟩
      obtain rfl := List.length_eq_zero_iff.1 hlen
      cases hat
      rfl
  | succ count ih =>
    have hstep : headerLoop code (count + 1) p = some (c, left) ↔ ∃ k v q s,
        narrowTags.At p k q ∧ narrowTags.At q v s ∧
          headerLoop (if k = iprotoRequestType then v else code) count s = some (c, left) := by
      simp only [headerLoop, Option.bind_eq_bind, mpDecodeUint_eq_read, ← Tags.read_eq_some_iff]
      cases hkey : narrowTags.read p with
      | none => simp
      | some kq =>
        obtain ⟨k, q⟩ := kq
        cases hval : narrowTags.read q with
        | none => by_cases hk : k = iprotoRequestType <;> simp [hk, hval]
        | some vs =>
          obtain ⟨v, s⟩ := vs
          by_cases hk : k = iprotoRequestType <;> simp [hk, hval]
    rw [hstep]
    constructor
    · rintro ⟨k, v, q, s, hkey, hval, hloop⟩
      obtain ⟨pairs, rfl, hat, hcode⟩ := ih.1 hloop
      exact ⟨(k, v) :: pairs, rfl, .cons hkey hval hat, hcode⟩
    · rintro ⟨pairs, hlen, hat, hcode⟩
      cases hat with
      | nil => cases hlen
      | cons hkey hval hrest =>
        exact ⟨_, _, _, _, hkey, hval, ih.2 ⟨_, Nat.succ.inj hlen, hrest, hcode⟩⟩

/-! ## Numbers of up to 32 bits -/

/-- A number in the 64-bit format. -/
def Wide (item : Item) : Prop := item.tag = 0xcf

/-- No number of the header is in the 64-bit format. -/
def Narrow (entries : List (Item × Item)) : Prop := ∀ e ∈ entries, ¬ Wide e.1 ∧ ¬ Wide e.2

theorem number_at {item : Item} {n : ℕ} (hvalid : item.Valid) (h : item.number = some n)
    (hnarrow : ¬ Wide item) (rest : Bytes) : narrowTags.At (item.bytes ++ rest) n rest := by
  rw [← Tags.read_eq_some_iff, ← mpDecodeUint_eq_read]
  cases item with
  | fixint k =>
    cases h
    rw [Item.Valid] at hvalid
    obtain ⟨hle, hnat⟩ := fixint_tag hvalid
    show mpDecodeUint (UInt8.ofNat n :: rest) = _
    rw [mpDecodeUint, if_pos hle, hnat]
  | uint w k =>
    cases h
    rw [Item.Valid] at hvalid
    cases w with
    | w64 => exact absurd rfl hnarrow
    | w8 => exact readUint_bigEndian hvalid rest
    | w16 => exact readUint_bigEndian hvalid rest
    | w32 => exact readUint_bigEndian hvalid rest
  | _ => cases h

/-- A wide number is a zero, and the loop goes on in front of its bytes. -/
theorem wide_at (n : ℕ) (rest : Bytes) :
    narrowTags.At ((Item.uint .w64 n).bytes ++ rest) 0 (bigEndian 8 n ++ rest) := by
  have hwide : narrowTags.wide 0xcf = none := by decide
  exact .other (c := 0xcf) (by decide) hwide

/-- The numbers of a header. -/
def numbersOf (entries : List (Item × Item)) : List (ℕ × ℕ) :=
  entries.map fun e => (e.1.number.getD 0, e.2.number.getD 0)

@[simp] theorem length_numbersOf (entries : List (Item × Item)) :
    (numbersOf entries).length = entries.length := List.length_map _

/-- Without wide numbers the pairs are the entries. -/
theorem entries_at {entries : List (Item × Item)} (hvalid : EntriesValid entries)
    (hnumeric : RtpEngine.Numeric entries) (hnarrow : Narrow entries) (rest : Bytes) :
    PairsAt (numbersOf entries) (entriesBytes entries ++ rest) rest := by
  induction entries with
  | nil => exact .nil rest
  | cons e entries ih =>
    obtain ⟨key, val⟩ := e
    rw [EntriesValid] at hvalid
    obtain ⟨⟨hkey, hval⟩, hvalid⟩ := hvalid
    obtain ⟨⟨k, v, hk, hv⟩, hnumeric⟩ := List.forall_mem_cons.1 hnumeric
    obtain ⟨⟨hknarrow, hvnarrow⟩, hnarrow⟩ := List.forall_mem_cons.1 hnarrow
    rw [entriesBytes_cons_append, numbersOf, List.map_cons, hk, hv]
    exact .cons (number_at hkey hk hknarrow _) (number_at hval hv hvnarrow _)
      (ih hvalid hnumeric hnarrow)

theorem codeOf_numbersOf {entries : List (Item × Item)} (hnumeric : RtpEngine.Numeric entries)
    (code : ℕ) :
    codeOf code (numbersOf entries) = RtpEngine.lastUnder iprotoRequestType code entries := by
  induction entries generalizing code with
  | nil => rfl
  | cons e entries ih =>
    obtain ⟨key, val⟩ := e
    obtain ⟨⟨k, v, hk, -⟩, hnumeric⟩ := List.forall_mem_cons.1 hnumeric
    rw [RtpEngine.lastUnder, ← ih hnumeric]
    simp only [numbersOf, List.map_cons, codeOf, List.foldl_cons, hk, Option.getD_some,
      Option.some.injEq]

/-! ## Responses -/

/-- The response with this header, and these bytes behind it, is what arrives. -/
structure Responds (x : Exchange) (sock : Socket) (r : RawRequest) (h : Header) (rest : Bytes) :
    Prop where
  usable : 0 ≤ sock.fd ∧ sock.connected = true
  written : (5 + r.totalLen (sock.syncId + 1)) % 2 ^ 32 ≤ x.writev (r.packet (sock.syncId + 1))
  arrives : frame (h.bytes ++ rest) <+: x.arrives
  short : (h.bytes ++ rest).length < 2 ^ 32

/-- The response fits the buffer on the stack, or there is memory for it. -/
def Fits (x : Exchange) (h : Header) (rest : Bytes) : Prop :=
  (h.bytes ++ rest).length ≤ staticResp ∨ x.malloc = true

variable {x : Exchange} {sock : Socket} {r : RawRequest} {h : Header} {rest : Bytes}

/-- The socket once the request is written. -/
def Socket.next (sock : Socket) : Socket := { sock with syncId := sock.syncId + 1 }

/-- A response is received and read, if there is room for it. -/
theorem execRaw_responds (hresponds : Responds x sock r h rest) :
    execRaw x sock r = if staticResp < (h.bytes ++ rest).length ∧ x.malloc = false then
      some ⟨-1, none, sock.next⟩ else readResponse sock.next r.resSize (h.bytes ++ rest) := by
  obtain ⟨⟨hfd, hconnected⟩, hwritten, ⟨later, harrives⟩, hshort⟩ := hresponds
  have husable : ¬ (sock.fd < 0 ∨ sock.connected = false) := by
    rintro (h | h)
    · exact absurd hfd (not_le.2 h)
    · rw [hconnected] at h
      cases h
  rw [execRaw, if_neg husable, if_neg (not_lt.2 hwritten), ← harrives, recvAll_header]
  simp only [ofBigEndian_header hshort, recvAll_body]
  rfl

theorem fits_iff : Fits x h rest ↔
    ¬ (staticResp < (h.bytes ++ rest).length ∧ x.malloc = false) := by
  rw [Fits, not_and_or, not_lt, Bool.not_eq_false]

/-! ## The status -/

/-- The header has no status. -/
def Silent (h : Header) : Prop := ∀ e ∈ h.entries, e.1.value ≠ .int iprotoRequestType

/-- The code that is read: a header without one is taken for `IPROTO_OK`. -/
theorem code_eq_ok_iff (hnumeric : RtpEngine.Numeric h.entries) :
    RtpEngine.lastUnder iprotoRequestType 0 h.entries = iprotoOk ↔ h.Ok ∨ Silent h := by
  by_cases hsilent : Silent h
  · exact iff_of_true (RtpEngine.lastUnder_eq_self hsilent 0) (Or.inr hsilent)
  · have hkey : ∃ e ∈ h.entries, e.1.value = .int iprotoRequestType := by
      simpa [Silent] using hsilent
    obtain ⟨e, he, hkey⟩ := hkey
    obtain ⟨k, v, -, hv⟩ := hnumeric e he
    have hcode := RtpEngine.lastUnder_of_mem hnumeric h.distinct he hkey (Item.value_of_number hv) 0
    constructor
    · intro hok
      refine Or.inl ⟨e, he, hkey, ?_⟩
      rw [Item.value_of_number hv, ← hcode, hok]
    · rintro (⟨e', he', hkey', hok⟩ | h)
      · exact RtpEngine.lastUnder_of_mem hnumeric h.distinct he' hkey' hok 0
      · exact absurd h hsilent

/-- The header is read as these pairs, and this is left behind them. -/
structure Reads (h : Header) (rest : Bytes) (pairs : List (ℕ × ℕ)) (left : Bytes) : Prop where
  length : pairs.length = h.entries.length
  pairs : PairsAt pairs (entriesBytes h.entries ++ rest) left

theorem length_entriesBytes_le_header (h : Header) :
    (entriesBytes h.entries).length ≤ h.bytes.length := by
  rw [Header.bytes]
  cases h.count with
  | none => simp [mapItem, Item.bytes, Item.payload]
  | some w =>
    simp [mapItem, Item.bytes, Item.payload]
    omega

variable {pairs : List (ℕ × ℕ)} {left : Bytes}

theorem Reads.length_left_le (hreads : Reads h rest pairs left) :
    left.length ≤ (h.bytes ++ rest).length := by
  have hle := hreads.pairs.length_le
  have hheader := length_entriesBytes_le_header h
  rw [List.length_append] at hle ⊢
  omega

/-- A header is read in one way only. -/
theorem Reads.unique (hreads : Reads h rest pairs left) {pairs' : List (ℕ × ℕ)} {left' : Bytes}
    (hreads' : Reads h rest pairs' left') : pairs = pairs' ∧ left = left' :=
  hreads.pairs.unique hreads'.pairs (hreads.length.trans hreads'.length.symm)

theorem reads_narrow (hnumeric : RtpEngine.Numeric h.entries) (hnarrow : Narrow h.entries)
    (rest : Bytes) : Reads h rest (numbersOf h.entries) rest where
  length := length_numbersOf _
  pairs := entries_at h.entriesValid hnumeric hnarrow rest

/-- What is made of a header that is read as these pairs. -/
theorem readResponse_reads (hreads : Reads h rest pairs left) (sock : Socket) (resSize : ℕ) :
    readResponse sock resSize (h.bytes ++ rest) =
      if codeOf 0 pairs ≠ iprotoOk then some ⟨-1, none, sock⟩
      else some ⟨toInt left.length,
        if 0 < resSize then some ⟨left, min left.length (resSize - 1)⟩ else none, sock⟩ := by
  have hloop : headerLoop 0 h.entries.length (entriesBytes h.entries ++ rest) =
      some (codeOf 0 pairs, left) :=
    headerLoop_eq_some_iff.2 ⟨pairs, hreads.length, hreads.pairs, rfl⟩
  rw [readResponse, mpDecodeMap_header]
  simp only [Option.bind_eq_bind, Option.bind_some, hloop]
  rfl

/-- A header that ends in the middle of a pair is read past its end. -/
theorem readResponse_eq_none (hnone : ∀ pairs left, ¬ Reads h rest pairs left) (sock : Socket)
    (resSize : ℕ) : readResponse sock resSize (h.bytes ++ rest) = none := by
  have hloop : headerLoop 0 h.entries.length (entriesBytes h.entries ++ rest) = none := by
    rw [Option.eq_none_iff_forall_not_mem]
    rintro ⟨c, left⟩ hmem
    obtain ⟨pairs, hlen, hat, -⟩ := headerLoop_eq_some_iff.1 hmem
    exact hnone pairs left ⟨hlen, hat⟩
  rw [readResponse, mpDecodeMap_header]
  simp only [Option.bind_eq_bind, Option.bind_some, hloop, Option.bind_none]

theorem not_silent_of_ok (hok : h.Ok) : ¬ Silent h := by
  obtain ⟨e, he, hkey, -⟩ := hok
  intro hsilent
  exact hsilent e he hkey

/-- The status is told as it is: what is returned is not negative exactly for `IPROTO_OK`, and
then the bytes handed to the caller start behind the header. -/
def StatusKept (x : Exchange) (sock : Socket) (r : RawRequest) (h : Header) (rest : Bytes) : Prop :=
  ∃ reply, execRaw x sock r = some reply ∧ (0 ≤ reply.rc ↔ h.Ok) ∧
    (0 ≤ reply.rc → ∀ c, reply.res = some c → c.src = rest)

/-- These pairs tell the status of the header, and for a success they end where the header ends
(unless there is no buffer for what is behind it). -/
structure Tells (r : RawRequest) (h : Header) (rest : Bytes) (pairs : List (ℕ × ℕ))
    (left : Bytes) : Prop where
  status : codeOf 0 pairs = iprotoOk ∧ left.length < 2 ^ 31 ↔ h.Ok
  start : h.Ok → 0 < r.resSize → left = rest

/-- What is returned says no more than the pairs. -/
theorem statusKept_reads (hresponds : Responds x sock r h rest) (hfits : Fits x h rest)
    (hreads : Reads h rest pairs left) :
    StatusKept x sock r h rest ↔ Tells r h rest pairs left := by
  have hexec := execRaw_responds hresponds
  rw [if_neg (fits_iff.1 hfits), readResponse_reads hreads] at hexec
  have hshort := lt_of_le_of_lt hreads.length_left_le hresponds.short
  have hrc : 0 ≤ toInt left.length ↔ left.length < 2 ^ 31 := by
    constructor
    · intro hrc
      by_contra hlong
      exact absurd hrc (not_le.2 (toInt_neg (not_lt.1 hlong) (by omega)))
    · intro hlen
      rw [toInt_of_lt hlen]
      exact Int.natCast_nonneg _
  by_cases hcode : codeOf 0 pairs = iprotoOk
  · rw [if_neg (not_not.2 hcode)] at hexec
    constructor
    · rintro ⟨reply, hreply, hstatus, hstart⟩
      rw [hexec, Option.some.injEq] at hreply
      subst hreply
      refine ⟨?_, ?_⟩
      · rw [← hstatus, ← hrc]
        exact and_iff_right hcode
      · intro hok hbuf
        exact hstart (hstatus.2 hok) _ (if_pos hbuf)
    · rintro ⟨hstatus, hstart⟩
      have hiff : 0 ≤ toInt left.length ↔ h.Ok := by
        rw [hrc, ← hstatus]
        exact (and_iff_right hcode).symm
      refine ⟨_, hexec, hiff, ?_⟩
      intro hnonneg c hc
      simp only [Option.ite_none_right_eq_some, Option.some.injEq] at hc
      rw [← hc.2]
      exact hstart (hiff.1 hnonneg) hc.1
  · rw [if_pos hcode] at hexec
    constructor
    · rintro ⟨reply, hreply, hstatus, -⟩
      rw [hexec, Option.some.injEq] at hreply
      subst hreply
      have hnot : ¬ h.Ok := fun hok => absurd (hstatus.2 hok) (by norm_num)
      exact ⟨iff_of_false (fun h => hcode h.1) hnot, fun hok => absurd hok hnot⟩
    · rintro ⟨hstatus, -⟩
      have hnot : ¬ h.Ok := fun hok => hcode (hstatus.2 hok).1
      exact ⟨_, hexec, iff_of_false (by norm_num) hnot, fun hrc => absurd hrc (by norm_num)⟩

/-- A response there is no memory for is taken for a failure. -/
theorem statusKept_not_fits (hresponds : Responds x sock r h rest) (hfits : ¬ Fits x h rest) :
    StatusKept x sock r h rest ↔ ¬ h.Ok := by
  have hexec := execRaw_responds hresponds
  rw [if_pos (not_not.1 (mt fits_iff.2 hfits))] at hexec
  constructor
  · rintro ⟨reply, hreply, hstatus, -⟩ hok
    rw [hexec, Option.some.injEq] at hreply
    subst hreply
    exact absurd (hstatus.2 hok) (by norm_num)
  · intro hnot
    exact ⟨_, hexec, iff_of_false (by norm_num) hnot, fun hrc => absurd hrc (by norm_num)⟩

/-- For every header. -/
theorem statusKept_header (hresponds : Responds x sock r h rest) :
    StatusKept x sock r h rest ↔ (¬ Fits x h rest ∧ ¬ h.Ok) ∨
      (Fits x h rest ∧ ∃ pairs left, Reads h rest pairs left ∧ Tells r h rest pairs left) := by
  by_cases hfits : Fits x h rest
  · constructor
    · intro hkept
      refine Or.inr ⟨hfits, ?_⟩
      by_cases hreads : ∃ pairs left, Reads h rest pairs left
      · obtain ⟨pairs, left, hreads⟩ := hreads
        exact ⟨pairs, left, hreads, (statusKept_reads hresponds hfits hreads).1 hkept⟩
      · obtain ⟨reply, hreply, -⟩ := hkept
        have hnone : ∀ pairs left, ¬ Reads h rest pairs left :=
          fun pairs left hreads' => hreads ⟨pairs, left, hreads'⟩
        rw [execRaw_responds hresponds, if_neg (fits_iff.1 hfits),
          readResponse_eq_none hnone] at hreply
        cases hreply
    · rintro (⟨hnot, -⟩ | ⟨-, pairs, left, hreads, htells⟩)
      · exact absurd hfits hnot
      · exact (statusKept_reads hresponds hfits hreads).2 htells
  · rw [statusKept_not_fits hresponds hfits]
    simp [hfits]

/-- Without wide numbers, the status is lost in two ways: a response without a status is taken
for a success, and a success of 2 GiB for a failure. -/
theorem statusKept_narrow (hresponds : Responds x sock r h rest)
    (hnumeric : RtpEngine.Numeric h.entries) (hnarrow : Narrow h.entries) :
    StatusKept x sock r h rest ↔ (h.Ok → Fits x h rest ∧ rest.length < 2 ^ 31) ∧
      (Silent h → ¬ (Fits x h rest ∧ rest.length < 2 ^ 31)) := by
  have hexclusive : h.Ok → ¬ Silent h := not_silent_of_ok
  by_cases hfits : Fits x h rest
  · have htells : Tells r h rest (numbersOf h.entries) rest ↔
        ((h.Ok ∨ Silent h) ∧ rest.length < 2 ^ 31 ↔ h.Ok) := by
      rw [← code_eq_ok_iff hnumeric, ← codeOf_numbersOf hnumeric]
      exact ⟨fun h => h.status, fun h => ⟨h, fun _ _ => rfl⟩⟩
    rw [statusKept_reads hresponds hfits (reads_narrow hnumeric hnarrow rest), htells]
    tauto
  · rw [statusKept_not_fits hresponds hfits]
    tauto

/-! ## Wide numbers -/

/-- The first wide number of a header: the value of an entry. -/
structure FirstWide (h : Header) (before : List (Item × Item)) (key : Item) (n : ℕ)
    (after : List (Item × Item)) : Prop where
  entries : h.entries = before ++ (key, .uint .w64 n) :: after
  narrow : Narrow before ∧ ¬ Wide key

/-- Zeros are pairs of zeros. -/
theorem zeros_at (k : ℕ) (p : Bytes) :
    PairsAt (List.replicate k (0, 0)) (List.replicate (2 * k) 0 ++ p) p := by
  have hzero : ∀ q, narrowTags.At (0 :: q) 0 q := fun q => .own (by decide)
  induction k with
  | zero => exact .nil p
  | succ k ih => exact .cons (hzero _) (hzero _) ih

theorem bigEndian_zero (w : ℕ) : bigEndian w 0 = List.replicate w 0 := by
  induction w with
  | zero => rfl
  | succ w ih =>
    rw [bigEndian, ih, Nat.zero_shiftRight]
    rfl

/-- With one zero more, a zero is in front of what is left of the number. -/
theorem bigEndian_left {k n : ℕ} (hfew : 2 * k < 8) (hsmall : n < 256 ^ (7 - 2 * k)) :
    n < 256 ^ (8 - 2 * k) ∧ bigEndian (8 - 2 * k) n = 0 :: bigEndian (7 - 2 * k) n := by
  have hwidth : 8 - 2 * k = (7 - 2 * k) + 1 := by omega
  have hzero : n >>> (8 * (7 - 2 * k)) = 0 := by
    refine Nat.shiftRight_eq_zero _ _ ?_
    rwa [pow_mul]
  refine ⟨lt_of_lt_of_le hsmall (Nat.pow_le_pow_right (by norm_num) (by omega)), ?_⟩
  rw [hwidth, bigEndian, hzero]
  rfl

/-- The loop ends in the wide number if its first bytes are zeros: two for each entry behind
it. -/
theorem reads_firstWide {before after : List (Item × Item)} {key : Item} {n : ℕ}
    (hwide : FirstWide h before key n after) (hnumeric : RtpEngine.Numeric h.entries)
    (hfew : 2 * after.length ≤ 8) (hsmall : n < 256 ^ (8 - 2 * after.length)) (rest : Bytes) :
    Reads h rest (numbersOf (before ++ [(key, .fixint 0)]) ++ List.replicate after.length (0, 0))
      (bigEndian (8 - 2 * after.length) n ++ (entriesBytes after ++ rest)) := by
  obtain ⟨hentries, hbefore, hkey⟩ := hwide
  have hvalid := entriesValid_iff.1 h.entriesValid
  rw [hentries] at hvalid hnumeric
  obtain ⟨k, v, hk, -⟩ := hnumeric (key, .uint .w64 n) (by simp)
  have hkeyValid : key.Valid := (hvalid (key, .uint .w64 n) (by simp)).1
  have hzeros : bigEndian 8 n =
      List.replicate (2 * after.length) 0 ++ bigEndian (8 - 2 * after.length) n := by
    have happend := bigEndian_append (w := 2 * after.length) (n := 0) (by positivity) hsmall
    rw [bigEndian_zero, Nat.zero_mul, Nat.zero_add, Nat.add_sub_cancel' hfew] at happend
    exact happend.symm
  have hbytes : entriesBytes h.entries ++ rest = entriesBytes before ++
      (key.bytes ++ ((Item.uint .w64 n).bytes ++ (entriesBytes after ++ rest))) := by
    simp [hentries, entriesBytes_eq, itemsBytes_append, itemsBytes_cons]
  have hlength : (numbersOf (before ++ [(key, Item.fixint 0)]) ++
      List.replicate after.length (0, 0)).length = h.entries.length := by
    simp [hentries]
    omega
  refine ⟨hlength, ?_⟩
  rw [hbytes, numbersOf, List.map_append, List.append_assoc]
  refine (entries_at (entriesValid_iff.2 fun e he => hvalid e (by simp [he]))
    (fun e he => hnumeric e (by simp [he])) hbefore _).append ?_
  rw [List.map_singleton, hk]
  refine .cons (number_at hkeyValid hk hkey _) (wide_at n _) ?_
  rw [hzeros, List.append_assoc]
  exact zeros_at _ _

theorem codeOf_append (code : ℕ) (pairs pairs' : List (ℕ × ℕ)) :
    codeOf code (pairs ++ pairs') = codeOf (codeOf code pairs) pairs' := List.foldl_append

/-- The zeros are read as a status of 0. -/
theorem codeOf_zeros {k : ℕ} (hk : k ≠ 0) (code : ℕ) :
    codeOf code (List.replicate k (0, 0)) = iprotoOk := by
  induction k generalizing code with
  | zero => exact absurd rfl hk
  | succ k ih =>
    cases k with
    | zero => rfl
    | succ k => exact ih (Nat.succ_ne_zero k) 0

/-- More than what is behind the header is handed to the caller. -/
theorem not_statusKept_firstWide (hresponds : Responds x sock r h rest)
    (hnumeric : RtpEngine.Numeric h.entries) {before after : List (Item × Item)} {key : Item}
    {n : ℕ} (hwide : FirstWide h before key n after) (hafter : after ≠ [])
    (hfew : 2 * after.length ≤ 8) (hsmall : n < 256 ^ (8 - 2 * after.length))
    (hfits : Fits x h rest) (hshort : (h.bytes ++ rest).length < 2 ^ 31) (hbuf : 0 < r.resSize) :
    ¬ StatusKept x sock r h rest := by
  have hreads := reads_firstWide hwide hnumeric hfew hsmall rest
  have hlen : after.length ≠ 0 := by simpa using hafter
  rw [statusKept_reads hresponds hfits hreads]
  rintro ⟨hstatus, hstart⟩
  rw [codeOf_append, codeOf_zeros hlen] at hstatus
  have hok : h.Ok := hstatus.1 ⟨rfl, lt_of_le_of_lt hreads.length_left_le hshort⟩
  have hsame := congrArg List.length (hstart hok hbuf)
  obtain ⟨e, after, rfl⟩ := List.exists_cons_of_ne_nil hafter
  simp [entriesBytes_eq, itemsBytes_cons, Item.bytes] at hsame
  omega

/-- An error is told under the key of the status. -/
def Failed (entries : List (Item × Item)) : Prop :=
  ∃ e ∈ entries, e.1.value = .int iprotoRequestType ∧ e.2.value ≠ .int iprotoOk

/-- With a wide number in the last entry the code is that of an error before it. -/
theorem codeOf_lastWide {before : List (Item × Item)} {key : Item} {n : ℕ}
    (hwide : FirstWide h before key n []) (hnumeric : RtpEngine.Numeric h.entries) :
    codeOf 0 (numbersOf (before ++ [(key, .fixint 0)])) ≠ iprotoOk ↔ Failed before := by
  have hdistinct := h.distinct
  rw [hwide.entries] at hdistinct hnumeric
  obtain ⟨k, v, hk, -⟩ := hnumeric (key, .uint .w64 n) (by simp)
  have hnum : RtpEngine.Numeric (before ++ [(key, .fixint 0)]) := by
    rintro e he
    rcases List.mem_append.1 he with he | he
    · exact hnumeric e (by simp [he])
    · obtain rfl := List.mem_singleton.1 he
      exact ⟨k, 0, hk, rfl⟩
  have hkeys : ((before ++ [(key, Item.fixint 0)]).map fun e => e.1.value).Nodup := by
    simpa using hdistinct
  rw [codeOf_numbersOf hnum]
  constructor
  · intro hcode
    by_contra hnone
    have hall : ∀ e ∈ before ++ [(key, Item.fixint 0)], e.1.value = .int iprotoRequestType →
        e.2.value = .int iprotoOk := by
      intro e he htype
      rcases List.mem_append.1 he with he | he
      · by_contra hval
        exact hnone ⟨e, he, htype, hval⟩
      · obtain rfl := List.mem_singleton.1 he
        rfl
    by_cases htype : ∃ e ∈ before ++ [(key, Item.fixint 0)], e.1.value = .int iprotoRequestType
    · obtain ⟨e, he, htype⟩ := htype
      exact hcode (RtpEngine.lastUnder_of_mem hnum hkeys he htype (hall e he htype) 0)
    · exact hcode (RtpEngine.lastUnder_eq_self (fun e he h => htype ⟨e, he, h⟩) 0)
  · rintro ⟨e, he, htype, hval⟩
    obtain ⟨k', v', -, hv⟩ := hnum e (by simp [he])
    have hvalue := Item.value_of_number hv
    rw [RtpEngine.lastUnder_of_mem hnum hkeys (by simp [he]) htype hvalue]
    intro hok
    exact hval (by rw [hvalue, hok])

theorem not_ok_of_failed {before after : List (Item × Item)} {key : Item} {n : ℕ}
    (hwide : FirstWide h before key n after) (hfailed : Failed before) : ¬ h.Ok := by
  obtain ⟨e, he, htype, hval⟩ := hfailed
  rintro ⟨e', he', htype', hok⟩
  have hmem : e ∈ h.entries := by simp [hwide.entries, he]
  have hsame := List.inj_on_of_nodup_map h.distinct hmem he' (htype.trans htype'.symm)
  exact hval (hsame ▸ hok)

/-- The status is kept if it is an error that is told before the wide number. -/
theorem statusKept_lastWide (hresponds : Responds x sock r h rest)
    (hnumeric : RtpEngine.Numeric h.entries) {before : List (Item × Item)} {key : Item} {n : ℕ}
    (hwide : FirstWide h before key n []) (hfits : Fits x h rest)
    (hshort : (h.bytes ++ rest).length < 2 ^ 31) (hbuf : 0 < r.resSize) :
    StatusKept x sock r h rest ↔ Failed before := by
  have hvalid := entriesValid_iff.1 h.entriesValid (key, .uint .w64 n) (by simp [hwide.entries])
  have hreads := reads_firstWide hwide hnumeric (by norm_num) hvalid.2 rest
  rw [statusKept_reads hresponds hfits hreads, List.length_nil, List.replicate_zero,
    List.append_nil]
  constructor
  · rintro ⟨hstatus, hstart⟩
    rw [← codeOf_lastWide hwide hnumeric]
    intro hcode
    have hok : h.Ok := hstatus.1 ⟨hcode, lt_of_le_of_lt hreads.length_left_le hshort⟩
    have hsame := congrArg List.length (hstart hok hbuf)
    simp [entriesBytes_eq, itemsBytes_nil] at hsame
  · intro hfailed
    have hnot := not_ok_of_failed hwide hfailed
    have hcode := (codeOf_lastWide hwide hnumeric).2 hfailed
    exact ⟨iff_of_false (fun h => hcode h.1) hnot, fun hok => absurd hok hnot⟩

end Asterisk

open Asterisk

/-- **Is the status of a response told as it is?**  The header is read as pairs of numbers of up to
32 bits, one for each entry: these must tell its status, and end with it if that is a success.
A response there is no memory for is taken for a failure.

Without wide numbers the pairs are the entries, so that the status is told but for a response
without one, which is taken for a success, and for a success of 2 GiB or without memory for it.
With a wide number whose leading bytes are zeros, two for each entry behind it, as in a header of
Tarantool, it never is; and with one in the last entry only for an error that is told before it. -/
theorem statusKept_iff {x : Exchange} {sock : Socket} {r : RawRequest} {h : Header} {rest : Bytes}
    (hresponds : Responds x sock r h rest) (hnumeric : RtpEngine.Numeric h.entries) :
    (StatusKept x sock r h rest ↔ (¬ Fits x h rest ∧ ¬ h.Ok) ∨
      (Fits x h rest ∧ ∃ pairs left, Reads h rest pairs left ∧ Tells r h rest pairs left)) ∧
    (Narrow h.entries → (StatusKept x sock r h rest ↔
      (h.Ok → Fits x h rest ∧ rest.length < 2 ^ 31) ∧
        (Silent h → ¬ (Fits x h rest ∧ rest.length < 2 ^ 31)))) ∧
    ∀ before key n after, FirstWide h before key n after → Fits x h rest →
      (h.bytes ++ rest).length < 2 ^ 31 → 0 < r.resSize →
      (after ≠ [] → 2 * after.length ≤ 8 → n < 256 ^ (8 - 2 * after.length) →
        ¬ StatusKept x sock r h rest) ∧
      (after = [] → (StatusKept x sock r h rest ↔ Failed before)) := by
  refine ⟨statusKept_header hresponds, statusKept_narrow hresponds hnumeric, ?_⟩
  intro before key n after hwide hfits hshort hbuf
  constructor
  · intro hafter hfew hsmall
    exact not_statusKept_firstWide hresponds hnumeric hwide hafter hfew hsmall hfits hshort hbuf
  · rintro rfl
    exact statusKept_lastWide hresponds hnumeric hwide hfits hshort hbuf

/-- An exchange in which everything is written and this response arrives. -/
def Asterisk.responding (h : Header) (rest : Bytes) : Exchange where
  writev b := b.length
  arrives := frame (h.bytes ++ rest)
  malloc := true

/-- A connected socket. -/
def Asterisk.freshSocket : Socket := ⟨7, true, 0⟩

/-- A `CALL` without a body, and the buffer of `realtime_tarantool`. -/
def Asterisk.bareCall : RawRequest := ⟨iprotoCall, [], 4096⟩

theorem Asterisk.responds_responding {h : Header} {rest : Bytes}
    (hshort : (h.bytes ++ rest).length < 2 ^ 32) (r : RawRequest) :
    Responds (responding h rest) freshSocket r h rest where
  usable := by decide
  written := by
    have hlen : (r.packet (freshSocket.syncId + 1)).length =
        5 + ((requestHeader r.reqType (freshSocket.syncId + 1)).length + r.body.length) := by
      simp [RawRequest.packet]
      omega
    show _ ≤ ((r.packet (freshSocket.syncId + 1)).length : ℤ)
    rw [hlen, RawRequest.totalLen]
    omega
  arrives := List.prefix_refl _
  short := hshort

/-- A success with a short sync id. -/
def Asterisk.shortHeader : Header where
  count := none
  entries := [(.fixint 0, .uint .w32 0), (.fixint 1, .fixint 1), (.fixint 5, .uint .w32 80)]
  valid := by norm_num [mapItem, Item.Valid, EntriesValid, NumWidth.bytes]
  distinct := by simp [Item.value]

theorem Asterisk.numeric_shortHeader : RtpEngine.Numeric shortHeader.entries := by
  simp [RtpEngine.Numeric, shortHeader, Item.number]

theorem Asterisk.narrow_shortHeader : Narrow shortHeader.entries := by
  simp [Narrow, shortHeader, Wide, Item.tag, NumWidth.uintTag]

theorem Asterisk.ok_shortHeader : shortHeader.Ok := ⟨_, List.mem_cons_self, rfl, rfl⟩

theorem statusKept_short :
    StatusKept (responding shortHeader [0x80]) freshSocket bareCall shortHeader [0x80] := by
  refine ((statusKept_iff (responds_responding (by decide) bareCall) numeric_shortHeader).2.1
    narrow_shortHeader).2 ⟨?_, ?_⟩
  · exact fun _ => ⟨Or.inr rfl, by decide⟩
  · exact fun hsilent => absurd hsilent (not_silent_of_ok ok_shortHeader)

/-- A header with a wide number that happens to be read as pairs up to its end. -/
def Asterisk.luckyHeader : Header where
  count := none
  entries := [(.fixint 0, .fixint 0), (.fixint 1, .uint .w64 0xce01020304ce),
    (.fixint 5, .fixint 5), (.fixint 6, .fixint 6)]
  valid := by norm_num [mapItem, Item.Valid, EntriesValid, NumWidth.bytes]
  distinct := by simp [Item.value]

example : execRaw (responding luckyHeader [0x80]) freshSocket bareCall =
    some ⟨1, some ⟨[0x80], 1⟩, freshSocket.next⟩ := rfl

/-- The error `ER_NO_SUCH_PROC` as Tarantool sends it. -/
def Asterisk.errorHeader : Header where
  count := none
  entries := [(.fixint 0, .uint .w32 0x8021), (.fixint 1, .uint .w64 1), (.fixint 5, .uint .w32 80)]
  valid := by norm_num [mapItem, Item.Valid, EntriesValid, NumWidth.bytes]
  distinct := by simp [Item.value]

/-- The sync id is its first wide number, and the schema version is behind it. -/
theorem Asterisk.firstWide_errorHeader :
    FirstWide errorHeader [(.fixint 0, .uint .w32 0x8021)] (.fixint 1) 1
      [(.fixint 5, .uint .w32 80)] := by
  refine ⟨rfl, ?_, ?_⟩ <;> simp [Narrow, Wide, Item.tag, NumWidth.uintTag]

/-- An error is taken for a success. -/
theorem not_statusKept_error :
    ¬ ∀ (x : Exchange) (sock : Socket) (r : RawRequest) (h : Header) (rest : Bytes),
      Responds x sock r h rest → RtpEngine.Numeric h.entries → StatusKept x sock r h rest := by
  intro hkept
  have hresponds : Responds (responding errorHeader [0x80]) freshSocket bareCall errorHeader
    [0x80] := responds_responding (by decide) bareCall
  have hnumeric : RtpEngine.Numeric errorHeader.entries := by
    simp [RtpEngine.Numeric, errorHeader, Item.number]
  exact not_statusKept_firstWide hresponds hnumeric firstWide_errorHeader (by decide) (by decide)
    (by decide) (Or.inr rfl) (by decide) (by decide) (hkept _ _ _ _ _ hresponds hnumeric)

end VoipBackend
