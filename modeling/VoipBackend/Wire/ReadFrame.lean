import VoipBackend.Wire.OpenSips
import VoipBackend.Wire.Receiving

/-!
# Frames in pieces

The bytes of a connection arrive in pieces of any size.  `tnt_read_frame` of the OpenSIPS driver
first receives the five bytes that `finalize_packet` puts in front of every packet, then as many
bytes as they say, into the buffer of its caller or, if that is too small, into one it allocates.
What has arrived and was not asked for stays in the socket.

However the stream is cut, a frame is read as a whole and the next byte to be read is the one
behind it (`tntReadFrameFrom_chunked`); `body_tntReadFrameFrom` ties this to the model of
`OpenSips`, where the bytes of a peer are one string.
-/

namespace VoipBackend

open Library

/-! ## Receiving, with what is left -/

/-- The loop of the receivers as in `recvLoop`, with the results that are left.  Of a piece that is
too long, `recv` takes what was asked for. -/
def recvRest (retries : Errno → Bool) (len : ℕ) :
    Bytes → List RecvResult → Option (Option Bytes × List RecvResult)
  | buf, [] => if buf.length < len then none else some (some buf, [])
  | buf, r :: rs =>
      if buf.length < len then
        match r with
        | .data b more =>
            match (b :: more).drop (len - buf.length) with
            | [] => recvRest retries len (buf ++ b :: more) rs
            | b' :: more' =>
                some (some (buf ++ (b :: more).take (len - buf.length)), .data b' more' :: rs)
        | .eof => some (none, rs)
        | .failed errno => if retries errno then recvRest retries len buf rs else some (none, rs)
      else some (some buf, r :: rs)

section Rest

variable {retries : Errno → Bool} {len : ℕ} {buf : Bytes} {rs tail : List RecvResult}

theorem recvRest_full (h : len ≤ buf.length) (rs : List RecvResult) :
    recvRest retries len buf rs = some (some buf, rs) := by
  cases rs with
  | nil => exact if_neg (not_lt.2 h)
  | cons r rs => exact if_neg (not_lt.2 h)

/-- It receives what `recvLoop` receives. -/
theorem map_fst_recvRest (buf : Bytes) (rs : List RecvResult) :
    (recvRest retries len buf rs).map Prod.fst = recvLoop retries len buf rs := by
  induction rs generalizing buf with
  | nil =>
    by_cases h : buf.length < len
    · simp [recvRest, recvLoop, h]
    · simp [recvRest, recvLoop, h]
  | cons r rs ih =>
    by_cases h : buf.length < len
    · cases r with
      | data b more =>
        rw [recvLoop_data h, recvRest, if_pos h]
        split
        · next hdrop =>
          rw [ih, List.take_of_length_le (List.drop_eq_nil_iff.1 hdrop)]
        · next b' more' hdrop =>
          have hlong : len - buf.length < (b :: more).length := by
            by_contra hshort
            rw [List.drop_eq_nil_of_le (not_lt.1 hshort)] at hdrop
            cases hdrop
          have hfull : len ≤ (buf ++ (b :: more).take (len - buf.length)).length := by
            rw [List.length_append, List.length_take]
            omega
          rw [recvLoop_full hfull]
          rfl
      | eof => simp [recvRest, recvLoop, h]
      | failed errno =>
        rw [recvLoop_failed h, recvRest, if_pos h]
        split_ifs
        · exact ih buf
        · rfl
    · rw [recvRest_full (not_lt.1 h), recvLoop_full (not_lt.1 h)]
      rfl

/-- **What is received, and what is left.**  The first bytes that arrive are received, the others
stay where they are. -/
theorem recvRest_arrived (hrs : ∀ r ∈ rs, GoesOn retries r) (hbuf : buf.length ≤ len)
    (hlen : len ≤ buf.length + (arrived rs).length) (tail : List RecvResult) :
    ∃ rs', recvRest retries len buf (rs ++ tail) =
        some (some (buf ++ (arrived rs).take (len - buf.length)), rs' ++ tail) ∧
      arrived rs' = (arrived rs).drop (len - buf.length) ∧ ∀ r ∈ rs', GoesOn retries r := by
  induction rs generalizing buf with
  | nil =>
    have hfull : len ≤ buf.length := by simpa [arrived] using hlen
    refine ⟨[], ?_, by simp [arrived], by simp⟩
    rw [recvRest_full hfull]
    simp [arrived]
  | cons r rs ih =>
    obtain ⟨hr, hrest⟩ := List.forall_mem_cons.1 hrs
    by_cases h : buf.length < len
    · cases r with
      | data b more =>
        rw [arrived_cons] at hlen ⊢
        simp only [RecvResult.bytes] at hlen ⊢
        rw [List.cons_append, recvRest, if_pos h]
        rcases hdrop : (b :: more).drop (len - buf.length) with _ | ⟨b', more'⟩
        · -- the whole piece was asked for
          have hpiece := List.drop_eq_nil_iff.1 hdrop
          have hnext : (buf ++ b :: more).length ≤ len := by
            rw [List.length_append]
            omega
          obtain ⟨rs', heq, hleft, hgoes⟩ := ih hrest hnext
            (by rw [List.length_append] at hlen ⊢; omega)
          refine ⟨rs', ?_, ?_, hgoes⟩
          · rw [heq, List.take_append, List.take_of_length_le hpiece, List.length_append,
              List.append_assoc, Nat.sub_add_eq]
          · rw [hleft, List.drop_append, List.drop_eq_nil_of_le hpiece, List.length_append,
              Nat.sub_add_eq, List.nil_append]
        · -- the rest of the piece stays
          have hlong : len - buf.length < (b :: more).length := by
            by_contra hshort
            rw [List.drop_eq_nil_of_le (not_lt.1 hshort)] at hdrop
            cases hdrop
          refine ⟨.data b' more' :: rs, ?_, ?_, ?_⟩
          · rw [List.take_append_of_le_length (Nat.le_of_lt hlong)]
            rfl
          · rw [List.drop_append_of_le_length (Nat.le_of_lt hlong), hdrop]
            rfl
          · intro r hr'
            rcases List.mem_cons.1 hr' with rfl | hr'
            · exact trivial
            · exact hrest r hr'
      | eof => exact absurd hr not_false
      | failed errno =>
        have hretry : retries errno = true := hr
        obtain ⟨rs', heq, hleft, hgoes⟩ := ih hrest hbuf hlen
        refine ⟨rs', ?_, hleft, hgoes⟩
        rw [List.cons_append, recvRest, if_pos h]
        simp only [hretry, if_true]
        exact heq
    · have hzero : len - buf.length = 0 := by omega
      refine ⟨r :: rs, ?_, by rw [hzero, List.drop_zero], hrs⟩
      rw [recvRest_full (not_lt.1 h), hzero, List.take_zero, List.append_nil]

/-- A connection that ends before. -/
theorem recvRest_eof (hrs : ∀ r ∈ rs, GoesOn retries r)
    (hlen : buf.length + (arrived rs).length < len) :
    recvRest retries len buf (rs ++ [.eof]) = some (none, []) := by
  induction rs generalizing buf with
  | nil =>
    have h : buf.length < len := by simpa [arrived] using hlen
    simp [recvRest, h]
  | cons r rs ih =>
    obtain ⟨hr, hrest⟩ := List.forall_mem_cons.1 hrs
    rw [arrived_cons, List.length_append] at hlen
    have h : buf.length < len := by omega
    cases r with
    | data b more =>
      simp only [RecvResult.bytes] at hlen
      rw [List.cons_append, recvRest, if_pos h]
      have hdrop : (b :: more).drop (len - buf.length) = [] := List.drop_eq_nil_of_le (by omega)
      simp only [hdrop]
      exact ih hrest (by rw [List.length_append]; omega)
    | eof => exact absurd hr not_false
    | failed errno =>
      have hretry : retries errno = true := hr
      rw [List.cons_append, recvRest, if_pos h]
      simp only [hretry, if_true]
      exact ih hrest (by omega)

end Rest

namespace OpenSips

/-! ## Frames -/

/-- `finalize_packet`: the first five bytes of the buffer are written. -/
def finalizePacket (buf : Bytes) (totalLen : ℕ) : Bytes :=
  0xce :: bigEndian 4 (UInt32.ofNat (2 ^ 32 + totalLen - 5)).toNat ++ buf.drop 5

/-- The results after which `tnt_recv_all` calls `recv` again. -/
def retries (errno : Errno) : Bool := decide (errno = .eintr ∨ errno = .eagain)

/-- What `tnt_read_frame` returns: -1, or the length of the body, the buffer of the caller, and the
buffer that was allocated for the body, if any. -/
inductive ReadFrameResult where
  | failed
  | frame (blen : ℕ) (dst : Bytes) (dyn : Option Bytes)
  deriving DecidableEq

/-- `tnt_read_frame` over the results of `recv`, with those that are left; `none` when it waits for
another one.  `dst` is the buffer of the caller, of `cap` bytes. -/
def tntReadFrameFrom (pkgMalloc : ℕ → Bool) (dst : Bytes) (rs : List RecvResult) :
    Option (ReadFrameResult × List RecvResult) := do
  let (pfx, rs) ← recvRest retries 5 [] rs
  match pfx with
  | none => return (.failed, rs)
  | some pfx =>
      if pfx.head? ≠ some 0xce then return (.failed, rs)
      else
        let blen := ofBigEndian (pfx.drop 1)
        if blen = 0 ∨ 16 * 1024 * 1024 < blen then return (.failed, rs)
        else if dst.length < blen ∧ pkgMalloc blen = false then return (.failed, rs)
        else
          let (tgt, rs) ← recvRest retries blen [] rs
          match tgt with
          | none => return (.failed, rs)
          | some tgt =>
              if dst.length < blen then return (.frame blen dst (some tgt), rs)
              else return (.frame blen (tgt ++ dst.drop blen) none, rs)

/-- A packet that is packed behind five free bytes becomes a frame. -/
theorem finalizePacket_eq {room payload : Bytes} (hroom : room.length = 5)
    (hlen : payload.length < 2 ^ 32) :
    finalizePacket (room ++ payload) (5 + payload.length) = frame payload := by
  have hsub : 2 ^ 32 + (5 + payload.length) - 5 = payload.length + 2 ^ 32 := by omega
  rw [finalizePacket, frame, List.drop_left' hroom, hsub, UInt32.toNat_ofNat', Nat.add_mod_right,
    Nat.mod_eq_of_lt hlen]

/-- What `tnt_read_frame` makes of five bytes and of what follows. -/
theorem tntReadFrameFrom_header (pkgMalloc : ℕ → Bool) (dst : Bytes) {pfx further : Bytes}
    (hpfx : pfx.length = 5) {rs : List RecvResult} (hrs : ∀ r ∈ rs, GoesOn retries r)
    (harrived : arrived rs = pfx ++ further) (tail : List RecvResult) :
    ∃ rs', arrived rs' = further ∧ (∀ r ∈ rs', GoesOn retries r) ∧
      tntReadFrameFrom pkgMalloc dst (rs ++ tail) =
        if pfx.head? ≠ some 0xce then some (.failed, rs' ++ tail)
        else if ofBigEndian (pfx.drop 1) = 0 ∨ 16 * 1024 * 1024 < ofBigEndian (pfx.drop 1) then
          some (.failed, rs' ++ tail)
        else if dst.length < ofBigEndian (pfx.drop 1) ∧
            pkgMalloc (ofBigEndian (pfx.drop 1)) = false then some (.failed, rs' ++ tail)
        else (recvRest retries (ofBigEndian (pfx.drop 1)) [] (rs' ++ tail)).bind fun x =>
          match x.1 with
          | none => some (.failed, x.2)
          | some tgt =>
              if dst.length < ofBigEndian (pfx.drop 1) then
                some (.frame (ofBigEndian (pfx.drop 1)) dst (some tgt), x.2)
              else some (.frame (ofBigEndian (pfx.drop 1))
                (tgt ++ dst.drop (ofBigEndian (pfx.drop 1))) none, x.2) := by
  have hlen : 5 ≤ ([] : Bytes).length + (arrived rs).length := by
    rw [harrived, List.length_append]
    omega
  obtain ⟨rs', heq, hleft, hgoes⟩ := recvRest_arrived hrs (by simp) hlen tail
  rw [harrived, List.length_nil, List.nil_append, Nat.sub_zero, List.take_left' hpfx] at heq
  rw [harrived, List.length_nil, Nat.sub_zero, List.drop_left' hpfx] at hleft
  refine ⟨rs', hleft, hgoes, ?_⟩
  unfold tntReadFrameFrom
  rw [heq]
  rfl

/-- A body that arrives is received. -/
theorem recvRest_body {payload further : Bytes} {rs : List RecvResult}
    (hrs : ∀ r ∈ rs, GoesOn retries r) (harrived : arrived rs = payload ++ further)
    (tail : List RecvResult) :
    ∃ rs', recvRest retries payload.length [] (rs ++ tail) = some (some payload, rs' ++ tail) ∧
      arrived rs' = further ∧ ∀ r ∈ rs', GoesOn retries r := by
  have hlen : payload.length ≤ ([] : Bytes).length + (arrived rs).length := by
    rw [harrived, List.length_append]
    omega
  obtain ⟨rs', heq, hleft, hgoes⟩ := recvRest_arrived hrs (Nat.zero_le _) hlen tail
  rw [harrived, List.length_nil, List.nil_append, Nat.sub_zero, List.take_left] at heq
  rw [harrived, List.length_nil, Nat.sub_zero, List.drop_left] at hleft
  exact ⟨rs', heq, hleft, hgoes⟩

/-- What the caller finds after a body was read: the body at the start of its own buffer, or in one
of its own. -/
def frameOf (payload dst : Bytes) : ReadFrameResult :=
  if payload.length ≤ dst.length then
    .frame payload.length (payload ++ dst.drop payload.length) none
  else .frame payload.length dst (some payload)

/-- A frame of a size that is allowed is read, and only it. -/
theorem tntReadFrameFrom_frame {pkgMalloc : ℕ → Bool} {dst payload further : Bytes}
    (hpos : payload.length ≠ 0) (hmax : payload.length ≤ 16 * 1024 * 1024)
    (hmalloc : dst.length < payload.length → pkgMalloc payload.length = true)
    {rs : List RecvResult} (hrs : ∀ r ∈ rs, GoesOn retries r)
    (harrived : arrived rs = frame payload ++ further) (tail : List RecvResult) :
    ∃ rs', tntReadFrameFrom pkgMalloc dst (rs ++ tail) =
        some (frameOf payload dst, rs' ++ tail) ∧
      arrived rs' = further ∧ ∀ r ∈ rs', GoesOn retries r := by
  have hcount : ofBigEndian ((0xce :: bigEndian 4 payload.length : Bytes).drop 1) =
      payload.length := ofBigEndian_header (by omega)
  obtain ⟨rs₁, hleft₁, hgoes₁, heq⟩ := tntReadFrameFrom_header pkgMalloc dst
    (show (0xce :: bigEndian 4 payload.length : Bytes).length = 5 by simp) hrs
    (harrived.trans (List.append_assoc _ _ _)) tail
  obtain ⟨rs₂, hbody, hleft₂, hgoes₂⟩ := recvRest_body hgoes₁ hleft₁ tail
  refine ⟨rs₂, ?_, hleft₂, hgoes₂⟩
  have hrange : ¬ (payload.length = 0 ∨ 16 * 1024 * 1024 < payload.length) := by omega
  have hmemory : ¬ (dst.length < payload.length ∧ pkgMalloc payload.length = false) := by
    rintro ⟨hlong, hfails⟩
    rw [hmalloc hlong] at hfails
    cases hfails
  rw [heq, hcount, if_neg (by simp), if_neg hrange, if_neg hmemory, hbody, Option.bind_some,
    frameOf]
  simp only
  by_cases hfits : payload.length ≤ dst.length
  · rw [if_pos hfits, if_neg (not_lt.2 hfits)]
  · rw [if_neg hfits, if_pos (not_le.1 hfits)]

/-- Five bytes that start no frame of a size that is allowed. -/
def Refused (pfx : Bytes) : Prop :=
  pfx.head? ≠ some 0xce ∨ ofBigEndian (pfx.drop 1) = 0 ∨
    16 * 1024 * 1024 < ofBigEndian (pfx.drop 1)

theorem tntReadFrameFrom_refused (pkgMalloc : ℕ → Bool) (dst : Bytes) {pfx further : Bytes}
    (hpfx : pfx.length = 5) (hrefused : Refused pfx) {rs : List RecvResult}
    (hrs : ∀ r ∈ rs, GoesOn retries r) (harrived : arrived rs = pfx ++ further)
    (tail : List RecvResult) :
    ∃ rs', tntReadFrameFrom pkgMalloc dst (rs ++ tail) = some (.failed, rs' ++ tail) ∧
      arrived rs' = further := by
  obtain ⟨rs', hleft, -, heq⟩ := tntReadFrameFrom_header pkgMalloc dst hpfx hrs harrived tail
  refine ⟨rs', ?_, hleft⟩
  rw [heq]
  by_cases htag : pfx.head? ≠ some 0xce
  · rw [if_pos htag]
  · rw [if_neg htag, if_pos (hrefused.resolve_left htag)]

/-- **Frames are read whole.**  However the stream is cut, and however often it is interrupted: of a
packet of 1 byte to 16 MiB behind the five bytes of `finalize_packet`, exactly the packet is read,
into the buffer of the caller if it fits, and exactly what comes behind it is left.  Five bytes with
another tag, or with a length of 0 or above 16 MiB, are refused. -/
theorem tntReadFrameFrom_chunked {pkgMalloc : ℕ → Bool} (hmalloc : ∀ n, pkgMalloc n = true)
    (dst further : Bytes) {rs : List RecvResult} (hrs : ∀ r ∈ rs, GoesOn retries r)
    (tail : List RecvResult) :
    (∀ room payload : Bytes, room.length = 5 → 1 ≤ payload.length →
      payload.length ≤ 16 * 1024 * 1024 →
      arrived rs = finalizePacket (room ++ payload) (5 + payload.length) ++ further →
      ∃ rs', tntReadFrameFrom pkgMalloc dst (rs ++ tail) =
          some (frameOf payload dst, rs' ++ tail) ∧
        arrived rs' = further ∧ ∀ r ∈ rs', GoesOn retries r) ∧
      ∀ pfx : Bytes, pfx.length = 5 → Refused pfx → arrived rs = pfx ++ further →
        ∃ rs', tntReadFrameFrom pkgMalloc dst (rs ++ tail) = some (.failed, rs' ++ tail) ∧
          arrived rs' = further := by
  constructor
  · intro room payload hroom hpos hmax harrived
    rw [finalizePacket_eq hroom (by omega)] at harrived
    exact tntReadFrameFrom_frame (by omega) hmax (fun _ => hmalloc _) hrs harrived tail
  · intro pfx hpfx hrefused harrived
    exact tntReadFrameFrom_refused pkgMalloc dst hpfx hrefused hrs harrived tail

/-- A frame of two bytes that arrives in three pieces, with the first byte of the next one. -/
theorem tntReadFrameFrom_chunked_three :
    (∀ room payload : Bytes, room.length = 5 → 1 ≤ payload.length →
      payload.length ≤ 16 * 1024 * 1024 →
      arrived [.data 0xce [0, 0], .failed .eintr, .data 0 [2, 7], .data 8 [0xce]] =
        finalizePacket (room ++ payload) (5 + payload.length) ++ [0xce] →
      ∃ rs', tntReadFrameFrom (fun _ => true) [0, 0, 0, 0]
          ([RecvResult.data 0xce [0, 0], .failed .eintr, .data 0 [2, 7], .data 8 [0xce]] ++
            [.eof]) =
          some (frameOf payload [0, 0, 0, 0], rs' ++ [.eof]) ∧
        arrived rs' = [0xce] ∧ ∀ r ∈ rs', GoesOn retries r) ∧
      ∀ pfx : Bytes, pfx.length = 5 → Refused pfx →
        arrived [.data 0xce [0, 0], .failed .eintr, .data 0 [2, 7], .data 8 [0xce]] =
          pfx ++ [0xce] →
        ∃ rs', tntReadFrameFrom (fun _ => true) [0, 0, 0, 0]
            ([RecvResult.data 0xce [0, 0], .failed .eintr, .data 0 [2, 7], .data 8 [0xce]] ++
              [.eof]) =
            some (.failed, rs' ++ [.eof]) ∧
          arrived rs' = [0xce] := by
  have hmalloc : ∀ n : ℕ, (fun _ : ℕ => true) n = true := fun _ => rfl
  have hrs : ∀ r ∈ [RecvResult.data 0xce [0, 0], .failed .eintr, .data 0 [2, 7], .data 8 [0xce]],
      GoesOn retries r := by simp [GoesOn, retries]
  exact tntReadFrameFrom_chunked hmalloc [0, 0, 0, 0] [0xce] hrs [.eof]

example : tntReadFrameFrom (fun _ => true) [0, 0, 0, 0]
    [.data 0xce [0, 0], .failed .eintr, .data 0 [2, 7], .data 8 [0xce]] =
      some (.frame 2 [7, 8, 0, 0] none, [.data 0xce []]) := by decide

/-! ## One string -/

/-- The body that the caller works with. -/
def ReadFrameResult.body : ReadFrameResult → Option Bytes
  | .failed => none
  | .frame blen dst none => some (dst.take blen)
  | .frame _ _ (some dyn) => some dyn

/-- A string of bytes that ends. -/
theorem recvRest_recvAll {s : Bytes} {rs : List RecvResult} (hrs : ∀ r ∈ rs, GoesOn retries r)
    (harrived : arrived rs = s) (len : ℕ) :
    recvRest retries len [] (rs ++ [.eof]) = some (none, []) ∧ recvAll s len = none ∨
      ∃ x further rs', recvRest retries len [] (rs ++ [.eof]) = some (some x, rs' ++ [.eof]) ∧
        recvAll s len = some (x, further) ∧ arrived rs' = further ∧
        ∀ r ∈ rs', GoesOn retries r := by
  by_cases hlen : len ≤ s.length
  · have hempty : ([] : Bytes).length ≤ len := Nat.zero_le len
    obtain ⟨rs', heq, hleft, hgoes⟩ := recvRest_arrived hrs hempty
      (by rw [harrived, List.length_nil]; omega) [.eof]
    rw [harrived, List.length_nil, List.nil_append, Nat.sub_zero] at heq
    rw [harrived, List.length_nil, Nat.sub_zero] at hleft
    exact Or.inr ⟨_, _, rs', heq, if_pos hlen, hleft, hgoes⟩
  · refine Or.inl ⟨recvRest_eof hrs ?_, if_neg hlen⟩
    rw [harrived, List.length_nil]
    omega

/-- **In pieces as in one.**  Whatever the pieces, the function reads what the model of a peer that
sends one string and closes the connection says. -/
theorem body_tntReadFrameFrom (peer : Peer) (dst : Bytes) {rs : List RecvResult}
    (hrs : ∀ r ∈ rs, GoesOn retries r) (harrived : arrived rs = peer.sends) :
    (tntReadFrameFrom (fun _ => peer.calloc) dst (rs ++ [.eof])).map (fun x => x.1.body) =
      some (tntReadFrame peer dst.length) := by
  unfold tntReadFrameFrom tntReadFrame
  rcases recvRest_recvAll hrs harrived 5 with
    ⟨hrest, hall⟩ | ⟨pfx, s, rs', hrest, hall, hleft, hgoes⟩
  · rw [hrest, hall]
    rfl
  · rw [hrest, hall]
    rcases recvRest_recvAll hgoes hleft (ofBigEndian (pfx.drop 1)) with
      ⟨hbody, hall₂⟩ | ⟨tgt, s₂, rs₂, hbody, hall₂, -, -⟩
    · simp only [Option.bind_eq_bind, Option.bind_some, hbody, hall₂]
      split_ifs <;> rfl
    · have htgt : tgt.length = ofBigEndian (pfx.drop 1) := (recvAll_eq_some_iff.1 hall₂).2
      simp only [Option.bind_eq_bind, Option.bind_some, hbody, hall₂]
      split_ifs
      · rfl
      · rfl
      · rfl
      · rfl
      · show some (some ((tgt ++ dst.drop _).take (ofBigEndian (pfx.drop 1)))) = some (some tgt)
        rw [List.take_left' htgt]

end OpenSips

end VoipBackend
