import VoipBackend.Wire.Stream

/-!
# Receiving

The loops around `recv` in the three drivers, with what `recv` returns as the results of an
environment.  A socket has a timeout: when nothing arrives, `recv` fails with `EAGAIN`, again and
again.  The OpenSIPS and the RTPEngine driver then call it again, and the Kamailio driver gives up;
`recvAll_returns_iff` says for which results the loops come to an end.

`recvLoop_eq_recvAll` is why the other models take for granted that what arrives before the
connection ends is what is received.
-/

namespace VoipBackend

open Library

/-- `errno` after a `recv` that failed. -/
inductive Errno where
  | eagain
  | eintr
  | other
  deriving DecidableEq

/-- What `recv` returns: at least one byte, the end of the stream, or an error. -/
inductive RecvResult where
  | data (b : UInt8) (more : Bytes)
  | eof
  | failed (errno : Errno)
  deriving DecidableEq

/-- The loop of the receivers, with the bytes that are in the buffer: `none` when it waits for
another result, `some none` when it returns -1.  No more bytes arrive than were asked for. -/
def recvLoop (retries : Errno → Bool) (len : ℕ) : Bytes → List RecvResult → Option (Option Bytes)
  | buf, [] => if buf.length < len then none else some (some buf)
  | buf, r :: rs =>
      if buf.length < len then
        match r with
        | .data b more => recvLoop retries len (buf ++ (b :: more).take (len - buf.length)) rs
        | .eof => some none
        | .failed errno => if retries errno then recvLoop retries len buf rs else some none
      else some (some buf)

/-- `tnt_recv_all` of the OpenSIPS driver. -/
def OpenSips.tntRecvAll (len : ℕ) (rs : List RecvResult) : Option (Option Bytes) :=
  recvLoop (fun errno => decide (errno = .eintr ∨ errno = .eagain)) len [] rs

/-- `tnt_socket_recv_all` of the RTPEngine driver. -/
def RtpEngine.tntSocketRecvAll (len : ℕ) (rs : List RecvResult) : Option (Option Bytes) :=
  recvLoop (fun errno => decide (errno = .eintr ∨ errno = .eagain)) len [] rs

/-- `tnt_socket_recv_all` of the Kamailio driver. -/
def Kamailio.tntSocketRecvAll (len : ℕ) (rs : List RecvResult) : Option (Option Bytes) :=
  recvLoop (fun errno => decide (errno = .eintr)) len [] rs

/-! ## What has arrived -/

/-- The bytes of a result. -/
def RecvResult.bytes : RecvResult → Bytes
  | .data b more => b :: more
  | _ => []

/-- The bytes of some results. -/
def arrived (rs : List RecvResult) : Bytes := rs.flatMap RecvResult.bytes

/-- The loop goes on after this result. -/
def GoesOn (retries : Errno → Bool) : RecvResult → Prop
  | .data _ _ => True
  | .eof => False
  | .failed errno => retries errno = true

theorem arrived_cons (r : RecvResult) (rs : List RecvResult) :
    arrived (r :: rs) = r.bytes ++ arrived rs := rfl

variable {retries : Errno → Bool} {len : ℕ} {buf : Bytes} {rs : List RecvResult}

theorem recvLoop_full (h : len ≤ buf.length) : recvLoop retries len buf rs = some (some buf) := by
  cases rs with
  | nil => exact if_neg (not_lt.2 h)
  | cons r rs => exact if_neg (not_lt.2 h)

theorem recvLoop_nil (h : buf.length < len) : recvLoop retries len buf [] = none := if_pos h

theorem recvLoop_data (h : buf.length < len) (b : UInt8) (more : Bytes) :
    recvLoop retries len buf (.data b more :: rs) =
      recvLoop retries len (buf ++ (b :: more).take (len - buf.length)) rs := if_pos h

theorem recvLoop_eof (h : buf.length < len) : recvLoop retries len buf (.eof :: rs) = some none :=
  if_pos h

theorem recvLoop_failed (h : buf.length < len) (errno : Errno) :
    recvLoop retries len buf (.failed errno :: rs) =
      if retries errno then recvLoop retries len buf rs else some none := if_pos h

/-- The loop waits while bytes are missing and no result ends it. -/
theorem recvLoop_eq_none_iff : recvLoop retries len buf rs = none ↔
    buf.length + (arrived rs).length < len ∧ ∀ r ∈ rs, GoesOn retries r := by
  induction rs generalizing buf with
  | nil =>
    by_cases hlen : buf.length < len
    · simp [recvLoop_nil hlen, arrived, hlen]
    · simp [recvLoop_full (not_lt.1 hlen), arrived, hlen]
  | cons r rs ih =>
    rw [arrived_cons, List.forall_mem_cons, List.length_append]
    by_cases hlen : buf.length < len
    · cases r with
      | data b more =>
        rw [recvLoop_data hlen, ih, List.length_append, List.length_take]
        simp only [GoesOn, RecvResult.bytes, true_and]
        refine and_congr_left fun _ => ?_
        omega
      | eof => simp [recvLoop_eof hlen, GoesOn]
      | failed errno =>
        rw [recvLoop_failed hlen]
        by_cases hretry : retries errno = true
        · simp [hretry, ih, GoesOn, RecvResult.bytes]
        · simp [hretry, GoesOn]
    · rw [recvLoop_full (not_lt.1 hlen)]
      exact iff_of_false (Option.some_ne_none _) fun h => hlen (by omega)

/-- As much as was asked for, and then the end of the stream. -/
theorem recvLoop_append_eof (hrs : ∀ r ∈ rs, GoesOn retries r)
    (hle : buf.length + (arrived rs).length ≤ len) :
    recvLoop retries len buf (rs ++ [.eof]) =
      some (if len ≤ buf.length + (arrived rs).length then some (buf ++ arrived rs) else none) := by
  induction rs generalizing buf with
  | nil =>
    by_cases hlen : buf.length < len
    · simp [recvLoop_eof hlen, arrived, hlen]
    · simp [recvLoop_full (not_lt.1 hlen), arrived, not_lt.1 hlen]
  | cons r rs ih =>
    obtain ⟨hr, htail⟩ := List.forall_mem_cons.1 hrs
    rw [arrived_cons, List.length_append] at hle ⊢
    by_cases hlen : buf.length < len
    · cases r with
      | data b more =>
        have htake : (b :: more).take (len - buf.length) = b :: more :=
          List.take_of_length_le (by simp only [RecvResult.bytes] at hle; omega)
        have hlong : (buf ++ b :: more).length + (arrived rs).length ≤ len := by
          rw [List.length_append]
          simp only [RecvResult.bytes] at hle
          omega
        rw [List.cons_append, recvLoop_data hlen, htake, ih htail hlong, List.length_append,
          List.append_assoc, Nat.add_assoc]
        rfl
      | eof => exact absurd hr not_false
      | failed errno =>
        have hretry : retries errno = true := hr
        rw [List.cons_append, recvLoop_failed hlen, if_pos hretry, ih htail (by omega)]
        simp [RecvResult.bytes]
    · have hnone : r.bytes ++ arrived rs = [] := by
        rw [← List.length_eq_zero_iff, List.length_append]
        omega
      rw [recvLoop_full (not_lt.1 hlen), hnone, List.append_nil, if_pos (by omega)]

/-- What arrives before the connection ends is what the loop receives. -/
theorem recvLoop_eq_recvAll {s : Bytes} (hrs : ∀ r ∈ rs, GoesOn retries r)
    (hs : arrived rs = s.take len) :
    recvLoop retries len [] (rs ++ [.eof]) = some ((recvAll s len).map Prod.fst) := by
  have hle : ([] : Bytes).length + (arrived rs).length ≤ len := by
    rw [hs, List.length_nil, List.length_take]
    omega
  rw [recvLoop_append_eof hrs hle, hs, recvAll, List.length_nil, List.length_take]
  by_cases hlen : len ≤ s.length
  · rw [if_pos hlen, if_pos (by omega)]
    rfl
  · rw [if_neg hlen, if_neg (by omega)]
    rfl

/-! ## When the loops return -/

/-- The first results of a stream. -/
def firstResults (s : ℕ → RecvResult) (k : ℕ) : List RecvResult := (List.range k).map s

/-- The loop returns after finitely many results. -/
def Returns (loop : List RecvResult → Option (Option Bytes)) (s : ℕ → RecvResult) : Prop :=
  ∃ k, loop (firstResults s k) ≠ none

/-- The bytes that arrive add up to what was asked for, or the connection ends, or it fails. -/
def Concludes (len : ℕ) (s : ℕ → RecvResult) : Prop :=
  (∃ k, len ≤ (arrived (firstResults s k)).length) ∨ ∃ i, s i = .eof ∨ s i = .failed .other

theorem forall_firstResults {s : ℕ → RecvResult} {k : ℕ} {P : RecvResult → Prop} :
    (∀ r ∈ firstResults s k, P r) ↔ ∀ i < k, P (s i) := by
  simp [firstResults]

theorem returns_recvLoop_iff (s : ℕ → RecvResult) :
    Returns (recvLoop retries len []) s ↔
      (∃ k, len ≤ (arrived (firstResults s k)).length) ∨ ∃ i, ¬ GoesOn retries (s i) := by
  simp only [Returns, ne_eq, recvLoop_eq_none_iff, forall_firstResults, List.length_nil, zero_add]
  constructor
  · rintro ⟨k, hk⟩
    rcases not_and_or.1 hk with hlen | hends
    · exact Or.inl ⟨k, not_lt.1 hlen⟩
    · obtain ⟨i, hi⟩ := not_forall.1 hends
      exact Or.inr ⟨i, fun hgo => hi fun _ => hgo⟩
  · rintro (⟨k, hlen⟩ | ⟨i, hi⟩)
    · exact ⟨k, fun h => absurd h.1 (not_lt.2 hlen)⟩
    · exact ⟨i + 1, fun h => hi (h.2 i (Nat.lt_succ_self i))⟩

theorem arrived_firstResults_succ (s : ℕ → RecvResult) (k : ℕ) :
    arrived (firstResults s (k + 1)) = arrived (firstResults s k) ++ (s k).bytes := by
  simp [arrived, firstResults, List.range_succ]

/-- Where timeouts are retried too, only an answer makes the loop return. -/
theorem returns_retrying_iff (len : ℕ) (s : ℕ → RecvResult) :
    Returns (recvLoop (fun errno => decide (errno = .eintr ∨ errno = .eagain)) len []) s ↔
      Concludes len s := by
  have hends : ∀ r : RecvResult,
      ¬ GoesOn (fun errno => decide (errno = .eintr ∨ errno = .eagain)) r ↔
        r = .eof ∨ r = .failed .other := by
    intro r
    cases r with
    | data b more => simp [GoesOn]
    | eof => simp [GoesOn]
    | failed errno => cases errno <;> simp [GoesOn]
  simp only [returns_recvLoop_iff, hends, Concludes]

/-- Where timeouts are not retried, and signals do not come for ever, every result counts. -/
theorem returns_tntSocketRecvAll {s : ℕ → RecvResult} (hintr : {i | s i = .failed .eintr}.Finite)
    (len : ℕ) : Returns (Kamailio.tntSocketRecvAll len) s := by
  obtain ⟨start, hstart⟩ := hintr.bddAbove
  refine (returns_recvLoop_iff s).2 (or_iff_not_imp_right.2 fun hgoes => ?_)
  rw [not_exists] at hgoes
  have hdata : ∀ i, start < i → 0 < (s i).bytes.length := by
    intro i hi
    have hnot : s i ≠ .failed .eintr := fun h => absurd (hstart h) (not_le.2 hi)
    have hgo := not_not.1 (hgoes i)
    cases hr : s i with
    | data b more => exact Nat.succ_pos _
    | eof =>
      rw [hr] at hgo
      exact absurd hgo not_false
    | failed errno =>
      rw [hr] at hgo hnot
      exact absurd (congrArg RecvResult.failed (of_decide_eq_true hgo)) hnot
  have hcount : ∀ n, n ≤ (arrived (firstResults s (start + 1 + n))).length := by
    intro n
    induction n with
    | zero => exact Nat.zero_le _
    | succ n ih =>
      have hone := hdata (start + 1 + n) (by omega)
      rw [← Nat.add_assoc, arrived_firstResults_succ, List.length_append]
      omega
  exact ⟨start + 1 + len, hcount len⟩

/-- **When the receivers return.**  The OpenSIPS and the RTPEngine driver return as long as the peer
keeps answering, and the Kamailio driver returns in any case. -/
theorem recvAll_returns_iff (len : ℕ) (s : ℕ → RecvResult) :
    (Returns (OpenSips.tntRecvAll len) s ∧ Returns (RtpEngine.tntSocketRecvAll len) s ↔
        Concludes len s) ∧
      ({i | s i = .failed .eintr}.Finite → Returns (Kamailio.tntSocketRecvAll len) s) :=
  ⟨(and_congr (returns_retrying_iff len s) (returns_retrying_iff len s)).trans and_self_iff,
    fun hintr => returns_tntSocketRecvAll hintr len⟩

/-- A peer that has stopped answering: `recv` times out again and again. -/
def silent : ℕ → RecvResult := fun _ => .failed .eagain

theorem not_returns_silent :
    {i | silent i = .failed .eintr}.Finite ∧ ¬ Returns (OpenSips.tntRecvAll 5) silent ∧
      ¬ Returns (RtpEngine.tntSocketRecvAll 5) silent := by
  have hnothing : ∀ k, arrived (firstResults silent k) = [] := by
    intro k
    induction k with
    | zero => rfl
    | succ k ih =>
      rw [arrived_firstResults_succ, ih]
      rfl
  have hsilent : ¬ Concludes 5 silent := by
    rintro (⟨k, hk⟩ | ⟨_, hi | hi⟩)
    · rw [hnothing] at hk
      exact absurd hk (by decide)
    · exact absurd hi RecvResult.noConfusion
    · exact Errno.noConfusion (RecvResult.failed.inj hi)
  refine ⟨by simp [silent], fun h => ?_, fun h => ?_⟩
  · exact hsilent ((returns_retrying_iff 5 silent).1 h)
  · exact hsilent ((returns_retrying_iff 5 silent).1 h)

end VoipBackend
