import VoipBackend.Lib.Base64
import VoipBackend.Wire.Connection
import VoipBackend.Wire.Digest
import VoipBackend.Wire.Sizes

/-!
# Does the server accept the login?

The server has sent a salt in its greeting, in base64, and knows of the password only
`SHA1(SHA1(password))`.  It takes the 20 bytes of the request for `SHA1(password)` mixed with the
digest of the salt and of what it knows.  The packets of the OpenSIPS and of the RTPEngine driver
pass this test (`tntAuthScramble_accepted`): what `tnt_base64_decode` makes of the greeting is the
salt, and the server gets `SHA1(password)` back.
-/

set_option maxRecDepth 4000

namespace VoipBackend

open Library MsgPack Msgpuck

/-! ## The salt -/

/-- The table has the digits of base64, and neither a NUL nor a padding character is one. -/
theorem tntB64Table_char {v : ℕ} (hv : v < 64) :
    tntB64Table.getD (Base64.char v).toNat (-1) = v ∧ Base64.char v ≠ 0 ∧ Base64.char v ≠ 61 := by
  revert v
  decide

/-- The digit that is shifted into the buffer. -/
theorem toNat_shiftIn (buf : UInt32) {v : ℕ} (hv : v < 64) :
    ((buf <<< 6) ||| UInt32.ofNat v).toNat = (buf.toNat * 64 + v) % 2 ^ 32 := by
  have hlt := buf.toNat_lt
  have hdigit : (UInt32.ofNat v).toNat = v := UInt32.toNat_ofNat_of_lt' (by show v < 2 ^ 32; omega)
  have hshift : (buf <<< 6).toNat = (buf.toNat % 2 ^ 26) <<< 6 := by
    rw [UInt32.toNat_shiftLeft, Nat.shiftLeft_eq, Nat.shiftLeft_eq]
    have hsix : (6 : UInt32).toNat % 32 = 6 := rfl
    rw [hsix]
    omega
  rw [UInt32.toNat_or, hshift, hdigit, ← Nat.shiftLeft_add_eq_or_of_lt (by omega : v < 2 ^ 6),
    Nat.shiftLeft_eq]
  omega

theorem toNat_byte (buf : UInt32) {k : ℕ} (hk : k < 32) :
    (buf >>> UInt32.ofNat k).toUInt8.toNat = buf.toNat / 2 ^ k % 256 := by
  have hcount : (UInt32.ofNat k).toNat % 32 = k := by
    rw [UInt32.toNat_ofNat_of_lt' (by show k < 2 ^ 32; omega), Nat.mod_eq_of_lt hk]
  rw [UInt32.toNat_toUInt8, UInt32.toNat_shiftRight, hcount, Nat.shiftRight_eq_div_pow]

variable (dlen : ℕ) (dst : Bytes) (buf : UInt32)

/-- A digit that does not complete a byte. -/
theorem step_first (v : ℕ) (hv : v < 64) :
    ∃ buf', buf'.toNat = (buf.toNat * 64 + v) % 2 ^ 32 ∧
      Base64State.step dlen ⟨buf, 0, dst⟩ (Base64.char v) = ⟨buf', 6, dst⟩ := by
  refine ⟨_, toNat_shiftIn buf hv, ?_⟩
  rw [Base64State.step, (tntB64Table_char hv).1]
  simp

/-- A digit that completes a byte: two bits fewer are left. -/
theorem step_next (bits v : ℕ) (b : UInt8) (hv : v < 64) (hbits : bits < 5)
    (hdst : dst.length < dlen)
    (hb : (buf.toNat * 64 + v) % 2 ^ 32 / 2 ^ bits % 256 = b.toNat) :
    ∃ buf', buf'.toNat = (buf.toNat * 64 + v) % 2 ^ 32 ∧
      Base64State.step dlen ⟨buf, bits + 2, dst⟩ (Base64.char v) = ⟨buf', bits, dst ++ [b]⟩ := by
  refine ⟨_, toNat_shiftIn buf hv, ?_⟩
  have hbyte : (((buf <<< 6) ||| UInt32.ofNat v) >>> UInt32.ofNat bits).toUInt8 = b := by
    rw [← UInt8.toNat_inj, toNat_byte _ (by omega), toNat_shiftIn buf hv, hb]
  rw [Base64State.step, (tntB64Table_char hv).1]
  have hleft : bits + 2 + 6 - 8 = bits := by omega
  simp [hleft, hdst, hbyte]

/-- The first two digits of a group have its first byte in them, -/
theorem step_byte1 (a : UInt8) (low : ℕ) (hlow : low < 16)
    (hdst : dst.length < dlen) :
    ∃ buf', buf'.toNat % 16 = low ∧
      Base64State.step dlen (Base64State.step dlen ⟨buf, 0, dst⟩ (Base64.char (a.toNat / 4)))
        (Base64.char (a.toNat % 4 * 16 + low)) = ⟨buf', 4, dst ++ [a]⟩ := by
  have ha := a.toNat_lt
  obtain ⟨buf1, hbuf1, hstep1⟩ := step_first dlen dst buf (a.toNat / 4) (by omega)
  obtain ⟨buf2, hbuf2, hstep2⟩ := step_next dlen dst buf1 4 (a.toNat % 4 * 16 + low) a (by omega)
    (by omega) hdst (by omega)
  exact ⟨buf2, by omega, by rw [hstep1, hstep2]⟩

/-- the third one completes the second byte, -/
theorem step_byte2 (b : UInt8) (low : ℕ) (hlow : low < 4)
    (hbuf : buf.toNat % 16 = b.toNat / 16) (hdst : dst.length < dlen) :
    ∃ buf', buf'.toNat % 4 = low ∧
      Base64State.step dlen ⟨buf, 4, dst⟩ (Base64.char (b.toNat % 16 * 4 + low)) =
        ⟨buf', 2, dst ++ [b]⟩ := by
  have hb := b.toNat_lt
  obtain ⟨buf', hbuf', hstep⟩ := step_next dlen dst buf 2 (b.toNat % 16 * 4 + low) b (by omega)
    (by omega) hdst (by omega)
  exact ⟨buf', by omega, hstep⟩

/-- and the fourth one the third byte. -/
theorem step_byte3 (c : UInt8) (hbuf : buf.toNat % 4 = c.toNat / 64)
    (hdst : dst.length < dlen) :
    ∃ buf', Base64State.step dlen ⟨buf, 2, dst⟩ (Base64.char (c.toNat % 64)) =
      ⟨buf', 0, dst ++ [c]⟩ := by
  have hc := c.toNat_lt
  obtain ⟨buf', -, hstep⟩ := step_next dlen dst buf 0 (c.toNat % 64) c (by omega) (by omega) hdst
    (by omega)
  exact ⟨buf', hstep⟩

variable {dlen}

/-- The digits of some bytes are decoded to the bytes. -/
theorem foldl_digits (s : Bytes) (buf : UInt32) (dst : Bytes) (h : dst.length + s.length ≤ dlen) :
    (((Base64.digits s).map Base64.char).foldl (Base64State.step dlen) ⟨buf, 0, dst⟩).dst =
      dst ++ s := by
  fun_induction Base64.digits s generalizing buf dst with
  | case1 a b c s ih =>
    simp only [List.length_cons] at h
    have hb := b.toNat_lt
    have hc := c.toNat_lt
    obtain ⟨buf1, hbuf1, hstep1⟩ := step_byte1 dlen dst buf a (b.toNat / 16) (by omega) (by omega)
    obtain ⟨buf2, hbuf2, hstep2⟩ := step_byte2 dlen (dst ++ [a]) buf1 b (c.toNat / 64) (by omega)
      hbuf1 (by simp; omega)
    obtain ⟨buf3, hstep3⟩ := step_byte3 dlen (dst ++ [a] ++ [b]) buf2 c hbuf2 (by simp; omega)
    simp only [List.map_cons, List.foldl_cons]
    rw [hstep1, hstep2, hstep3, ih buf3 _ (by simp; omega)]
    simp
  | case2 a b =>
    simp only [List.length_cons, List.length_nil] at h
    have hb := b.toNat_lt
    obtain ⟨buf1, hbuf1, hstep1⟩ := step_byte1 dlen dst buf a (b.toNat / 16) (by omega) (by omega)
    obtain ⟨buf2, -, hstep2⟩ := step_byte2 dlen (dst ++ [a]) buf1 b 0 (by omega) hbuf1
      (by simp; omega)
    simp only [List.map_cons, List.map_nil, List.foldl_cons, List.foldl_nil]
    rw [hstep1, ← Nat.add_zero (b.toNat % 16 * 4), hstep2]
    simp
  | case3 a =>
    simp only [List.length_cons, List.length_nil] at h
    obtain ⟨buf1, -, hstep1⟩ := step_byte1 dlen dst buf a 0 (by omega) (by omega)
    simp only [List.map_cons, List.map_nil, List.foldl_cons, List.foldl_nil]
    rw [← Nat.add_zero (a.toNat % 4 * 16), hstep1]
  | case4 => simp

/-- **Base64 is decoded.**  What fits the buffer comes back as it was. -/
theorem tntBase64Decode_encode {s : Bytes} (h : s.length ≤ dlen) :
    tntBase64Decode (Base64.encode s) dlen = s := by
  have hstop : ((Base64.encode s).takeWhile fun c => decide (c ≠ 0 ∧ c ≠ 61)) =
      (Base64.digits s).map Base64.char := by
    rw [Base64.encode, List.takeWhile_append_of_pos]
    · cases (3 - s.length % 3) % 3 with
      | zero => simp
      | succ n => simp [List.replicate_succ]
    · intro c hc
      obtain ⟨v, hv, rfl⟩ := List.mem_map.1 hc
      exact decide_eq_true (tntB64Table_char (Base64.digits_lt hv)).2
  rw [tntBase64Decode, hstop, foldl_digits s 0 [] (by simpa using h), List.nil_append]

/-- The 44 characters of a salt are found at their place in the greeting. -/
theorem saltOf_append {version salt : Bytes} (hversion : version.length = 64)
    (hsalt : salt.length = 32) (rest : Bytes) :
    saltOf (version ++ Base64.encode salt ++ rest) = Base64.encode salt := by
  have hlen : (Base64.encode salt).length = 44 := by rw [Base64.length_encode, hsalt]
  rw [saltOf, List.append_assoc, List.drop_left' hversion, List.take_left' hlen]

/-! ## The server -/

/-- What a server with the digest `h2` accepts: 20 bytes from which it gets back, with the digest of
the salt and of `h2`, something whose digest is `h2`. -/
def Accepts (h2 salt s : Bytes) : Prop :=
  s.length = 20 ∧ sha1 (List.zipWith (· ^^^ ·) s (sha1 (salt.take 20 ++ h2))) = h2

theorem length_sha1 (m : Bytes) : (sha1 m).length = 20 := by
  simp [sha1, Sha1.Hash.bytes]

theorem zipWith_xor_cancel {x y : Bytes} (h : x.length = y.length) :
    List.zipWith (· ^^^ ·) (List.zipWith (· ^^^ ·) x y) y = x := by
  induction x generalizing y with
  | nil => simp
  | cons a x ih =>
    cases y with
    | nil => cases h
    | cons b y =>
      have htail : x.length = y.length := Nat.succ.inj h
      simp [ih htail]

/-- The scramble, in terms of SHA-1. -/
theorem scramble_eq {password : Bytes} (hpassword : password.length < 2 ^ 32) (salt : Bytes) :
    scramble password salt = List.zipWith (· ^^^ ·) (sha1 password)
      (sha1 (salt.take 20 ++ sha1 (sha1 password))) := by
  have hh1 : tntSha1 password = sha1 password := tntSha1_eq hpassword
  have hh2 : tntSha1 (sha1 password) = sha1 (sha1 password) :=
    tntSha1_eq (by rw [length_sha1]; norm_num)
  have hh3 : tntSha1 (salt.take tntSha1DigestSize ++ sha1 (sha1 password)) =
      sha1 (salt.take 20 ++ sha1 (sha1 password)) := by
    refine tntSha1_eq ?_
    rw [List.length_append, length_sha1, List.length_take, tntSha1DigestSize]
    omega
  simp only [scramble, hh1, hh2, hh3]

theorem accepts_scramble {password : Bytes} (hpassword : password.length < 2 ^ 32) (salt : Bytes) :
    Accepts (sha1 (sha1 password)) salt (scramble password salt) := by
  have hlen : (sha1 password).length =
      (sha1 (salt.take 20 ++ sha1 (sha1 password))).length := by rw [length_sha1, length_sha1]
  rw [scramble_eq hpassword]
  constructor
  · rw [List.length_zipWith, length_sha1, length_sha1, Nat.min_self]
  · rw [zipWith_xor_cancel hlen]

/-! ## The packet -/

/-- The body of the request of a login. -/
def authBody (user s : Bytes) : List (Value × Value) :=
  [(.int iprotoUserName, .str user),
    (.int iprotoTuple, .array [.str (ascii "chap-sha1"), .bin s])]

/-- The body, as an encoding. -/
def authItems (user s : Bytes) : List (Item × Item) :=
  [(uintItem iprotoUserName, strItem user),
    (uintItem iprotoTuple, .fixarray [strItem (ascii "chap-sha1"), .bin .w8 s])]

theorem valid_authItems {user s : Bytes} (huser : user.length < 2 ^ 31) (hs : s.length = 20) :
    (Item.fixmap (authItems user s)).Valid := by
  have hname : (strItem user).Valid := valid_strItem (by omega)
  have hmethod : (strItem (ascii "chap-sha1")).Valid := valid_strItem (by decide)
  have hkeys : (uintItem iprotoUserName).Valid ∧ (uintItem iprotoTuple).Valid :=
    ⟨valid_uintItem (by decide), valid_uintItem (by decide)⟩
  simp [authItems, Item.Valid, EntriesValid, ItemsValid, LenWidth.bytes, hname, hmethod, hkeys, hs]

theorem bytes_authItems {user s : Bytes} (hs : s.length = 20) :
    (Item.fixmap (authItems user s)).bytes =
      mpEncodeMap 2 ++ mpEncodeUint iprotoUserName ++ mpEncodeStr user ++
        mpEncodeUint iprotoTuple ++ mpEncodeArray 2 ++ mpEncodeStr (ascii "chap-sha1") ++
        mpEncodeBin s := by
  have hbin : (Item.bin .w8 s).bytes = mpEncodeBin s := by
    rw [mpEncodeBin, if_pos (by omega)]
    rfl
  rw [authItems, bytes_fixmap (by simp)]
  simp only [entriesBytes_cons, entriesBytes_nil, bytes_uintItem, bytes_strItem,
    bytes_fixarray (show [strItem (ascii "chap-sha1"), Item.bin .w8 s].length ≤ 15 by simp),
    itemsBytes_cons, itemsBytes_nil, hbin]
  simp

/-- The request of a login is read as it is meant. -/
theorem readPacket_authPacket {user password rawSalt : Bytes} (huser : user.length < 2 ^ 31)
    (hs : (scramble password rawSalt).length = 20) {syncId : ℕ} (hsync : syncId < 2 ^ 64) :
    readPacket (authPacket user password rawSalt syncId) =
      some (requestMaps iprotoAuth syncId (authBody user (scramble password rawSalt))) := by
  have hpacket : authPacket user password rawSalt syncId =
      frame ((Item.fixmap (headerItems iprotoAuth syncId)).bytes ++
        (Item.fixmap (authItems user (scramble password rawSalt))).bytes) := by
    rw [bytes_authItems hs, headerItems, bytes_fixmap (by simp)]
    simp [authPacket, entriesBytes_cons, entriesBytes_nil, bytes_uintItem]
  have hbin : (mpEncodeBin (scramble password rawSalt)).length = 22 := by
    rw [mpEncodeBin, if_pos (by omega)]
    simp [hs]
  have hmethod : strSize (ascii "chap-sha1").length = 10 := rfl
  have hsyncSize : uintSize syncId ≤ 9 := by
    unfold uintSize
    split_ifs <;> omega
  have huserSize := strSize_le user.length
  have hlen : (authPacket user password rawSalt syncId).length < 2 ^ 32 := by
    simp (disch := decide) only [authPacket, length_frame, List.length_append,
      length_mpEncodeUint, length_mpEncodeStr, length_mpEncodeMap, length_mpEncodeArray,
      uintSize_fixint, hbin, hmethod]
    omega
  rw [hpacket, length_frame] at hlen
  have htype : iprotoAuth < 128 := by decide
  rw [hpacket, readPacket_request htype hsync (valid_authItems huser hs) (by omega)]
  simp [authItems, authBody, entryValues, itemValues, Item.value]

/-! ## The login -/

/-- The packet logs the user in: it is a request of type `IPROTO_AUTH` whose scramble the server
accepts. -/
def LogsIn (user password salt packet : Bytes) : Prop :=
  ∃ syncId s, readPacket packet = some (requestMaps iprotoAuth syncId (authBody user s)) ∧
    Accepts (sha1 (sha1 password)) salt s

theorem logsIn_authPacket {user password : Bytes} (huser : user.length < 2 ^ 31)
    (hpassword : password.length < 2 ^ 31) (salt : Bytes) {syncId : ℕ} (hsync : syncId < 2 ^ 64) :
    LogsIn user password salt (authPacket user password salt syncId) := by
  have hshort : password.length < 2 ^ 32 := by omega
  have haccepts := accepts_scramble hshort salt
  exact ⟨syncId, _, readPacket_authPacket huser haccepts.1 hsync, haccepts⟩

/-- **The server accepts the login.**  For a user with a name, and with a password, both drivers
build one packet, and it logs the user in. -/
theorem tntAuthScramble_accepted {user password salt greeting : Bytes}
    (huser : user.length < 2 ^ 31) (hpassword : password.length < 2 ^ 31) (hne : password ≠ [])
    (hsalt : salt.length = 32) (hgreeting : saltOf greeting = Base64.encode salt) (syncId : UInt64)
    (peer : Peer) (past : UInt8) :
    (OpenSips.tntAuthScramble user password (saltOf greeting) peer past).2 = none ∧ user = [] ∧
        (RtpEngine.tntAuthScramble user password (saltOf greeting) syncId peer past).2.1 = none ∨
      ∃ packet packet',
        (OpenSips.tntAuthScramble user password (saltOf greeting) peer past).2 = some packet ∧
        (RtpEngine.tntAuthScramble user password (saltOf greeting) syncId peer past).2.1 =
          some packet' ∧
        LogsIn user password salt packet ∧ LogsIn user password salt packet' := by
  have hdecode : tntBase64Decode (saltOf greeting) 64 = salt := by
    rw [hgreeting, tntBase64Decode_encode (by omega)]
  have hlong : ¬ salt.length < tntSha1DigestSize := by
    rw [tntSha1DigestSize]
    omega
  by_cases hname : user = []
  · exact Or.inl ⟨by simp [OpenSips.tntAuthScramble, hname], hname,
      by simp [RtpEngine.tntAuthScramble, hname]⟩
  · refine Or.inr ⟨authPacket user password salt 1,
      authPacket user password salt (syncId + 1).toNat, ?_, ?_,
      logsIn_authPacket huser hpassword salt (by norm_num),
      logsIn_authPacket huser hpassword salt (syncId + 1).toNat_lt⟩
    · simp [OpenSips.tntAuthScramble, hname, hne, hdecode, hlong]
    · simp [RtpEngine.tntAuthScramble, hname, hdecode, hlong]

/-- A greeting with a salt of zeros. -/
def zeroGreeting : Bytes :=
  List.replicate 64 0x20 ++ Base64.encode (List.replicate 32 0) ++ List.replicate 20 0x20

theorem tntAuthScramble_accepted_zero :
    (OpenSips.tntAuthScramble (ascii "rtpe") (ascii "secret") (saltOf zeroGreeting) ⟨true, [], true⟩
          0).2 = none ∧ ascii "rtpe" = [] ∧
        (RtpEngine.tntAuthScramble (ascii "rtpe") (ascii "secret") (saltOf zeroGreeting) 1
          ⟨true, [], true⟩ 0).2.1 = none ∨
      ∃ packet packet',
        (OpenSips.tntAuthScramble (ascii "rtpe") (ascii "secret") (saltOf zeroGreeting)
          ⟨true, [], true⟩ 0).2 = some packet ∧
        (RtpEngine.tntAuthScramble (ascii "rtpe") (ascii "secret") (saltOf zeroGreeting) 1
          ⟨true, [], true⟩ 0).2.1 = some packet' ∧
        LogsIn (ascii "rtpe") (ascii "secret") (List.replicate 32 0) packet ∧
        LogsIn (ascii "rtpe") (ascii "secret") (List.replicate 32 0) packet' :=
  tntAuthScramble_accepted (by decide) (by decide) (by decide) List.length_replicate
    (saltOf_append List.length_replicate List.length_replicate _) 1 ⟨true, [], true⟩ 0

end VoipBackend
