import VoipBackend.Wire.Auth

/-!
# Streams of frames

What `recvAll` makes of the bytes of a connection: it splits the stream
(`recvAll_eq_some_iff`), so bytes that arrive later do not change what has been received
(`recvAll_later`), and five bytes with the tag of a frame are the header of a frame
(`frame_eq_append`).
-/

namespace VoipBackend

open Library

/-- What arrives later is left behind what was received. -/
theorem recvAll_later {s x rest : Bytes} {len : ℕ} (h : recvAll s len = some (x, rest))
    (later : Bytes) : recvAll (s ++ later) len = some (x, rest ++ later) := by
  obtain ⟨rfl, hlen⟩ := recvAll_eq_some_iff.1 h
  exact recvAll_eq_some_iff.2 ⟨List.append_assoc .., hlen⟩

/-- What a part of the stream is enough for. -/
theorem recvAll_of_take {s x rest : Bytes} {arrived len : ℕ}
    (h : recvAll (s.take arrived) len = some (x, rest)) :
    recvAll s len = some (x, rest ++ s.drop arrived) := by
  have hlater := recvAll_later h (s.drop arrived)
  rwa [List.take_append_drop] at hlater

/-- The first byte is received first. -/
theorem head?_of_recvAll {s x rest : Bytes} {len : ℕ} (h : recvAll s len = some (x, rest))
    (hlen : 0 < len) : x.head? = s.head? := by
  obtain ⟨rfl, rfl⟩ := recvAll_eq_some_iff.1 h
  cases x with
  | nil => cases hlen
  | cons c x => rfl

/-! ## Frames -/

@[simp] theorem length_frame (body : Bytes) : (frame body).length = 5 + body.length := by
  simp [frame]
  omega

/-- Five bytes that start with the tag of a frame are the header of a frame, for a body of
the length they give. -/
theorem frame_eq_append {respHdr body : Bytes} (hlen : respHdr.length = 5)
    (htag : respHdr.head? = some 0xce) (hbody : body.length = ofBigEndian (respHdr.drop 1)) :
    frame body = respHdr ++ body := by
  cases respHdr with
  | nil => cases htag
  | cons tag bytes =>
    have hfour : bytes.length = 4 := Nat.succ.inj hlen
    rw [List.drop_succ_cons, List.drop_zero] at hbody
    rw [frame, hbody, ← hfour, bigEndian_ofBigEndian, Option.some.inj htag]

/-- Frames with these bodies, one after another. -/
def frames (bodies : List Bytes) : Bytes := bodies.flatMap frame

@[simp] theorem frames_nil : frames [] = [] := rfl

@[simp] theorem frames_cons (body : Bytes) (bodies : List Bytes) :
    frames (body :: bodies) = frame body ++ frames bodies := rfl

@[simp] theorem frames_append (bodies bodies' : List Bytes) :
    frames (bodies ++ bodies') = frames bodies ++ frames bodies' := List.flatMap_append

/-- Every frame has a byte. -/
theorem length_le_length_frames (bodies : List Bytes) : bodies.length ≤ (frames bodies).length := by
  induction bodies with
  | nil => exact Nat.le_refl _
  | cons body bodies ih =>
    rw [frames_cons, List.length_append, length_frame, List.length_cons]
    omega

end VoipBackend
