import VoipBackend.Wire.Receiving

/-!
# Sending several buffers

`tnt_writev_all` of the OpenSIPS driver.  The kernel accepts as many bytes as it likes; the loop
drops the buffers that are written, cuts off the written part of the next one, and goes on with
the rest.  The results of `writev` are those of an environment, as in `Receiving`.

Whatever they are, every byte is sent once and in order, and the loop ends when all of them are
sent (`tntWritevAll_sends`).
-/

namespace VoipBackend

open Library

namespace OpenSips

/-- What `writev` returns: it has accepted `n + 1` bytes, or all there are if they are fewer, or it
has failed. -/
inductive WritevResult where
  | accepted (n : ℕ)
  | failed (errno : Errno)
  deriving DecidableEq

/-- Where `tnt_writev_all` is. -/
inductive WritevOutcome where
  /-- In `writev`, with these buffers. -/
  | waiting (iov : List Bytes)
  | returned (r : ℤ)
  /-- At `iov[0]` behind the last buffer. -/
  | pastEnd
  deriving DecidableEq

/-- A run of `tnt_writev_all`, with the buffers of each `writev` that has returned. -/
structure WritevRun where
  outcome : WritevOutcome
  calls : List (List Bytes)
  deriving DecidableEq

/-- The bytes `writev` has accepted of these buffers when it returns this. -/
def WritevResult.bytes : WritevResult → List Bytes → Bytes
  | .accepted n, iov => iov.flatten.take (n + 1)
  | .failed _, _ => []

/-- The bytes accepted in a run with these results, one call after another. -/
def WritevRun.sent (r : WritevRun) (rs : List WritevResult) : Bytes :=
  (List.zipWith WritevResult.bytes rs r.calls).flatten

/-- `while (iovcnt > 0 && n >= (ssize_t)iov[0].iov_len)`: the `n` and the buffers that are left. -/
def dropWritten : ℕ → List Bytes → ℕ × List Bytes
  | n, [] => (n, [])
  | n, v :: iov => if v.length ≤ n then dropWritten (n - v.length) iov else (n, v :: iov)

/-- The buffers after `n` bytes were accepted; `none` if there is no buffer to cut. -/
def advance (n : ℕ) (iov : List Bytes) : Option (List Bytes) :=
  match dropWritten n iov with
  | (0, iov) => some iov
  | (_ + 1, []) => none
  | (n + 1, v :: iov) => some (v.drop (n + 1) :: iov)

/-- `tnt_writev_all`. -/
def tntWritevAll : List Bytes → List WritevResult → WritevRun
  | [], _ => ⟨.returned 0, []⟩
  | v :: iov, [] => ⟨.waiting (v :: iov), []⟩
  | v :: iov, .failed errno :: rs =>
      if errno = .eintr ∨ errno = .eagain then
        let rest := tntWritevAll (v :: iov) rs
        ⟨rest.outcome, (v :: iov) :: rest.calls⟩
      else ⟨.returned (-1), [v :: iov]⟩
  | v :: iov, .accepted k :: rs =>
      let n := min (k + 1) (v :: iov).flatten.length
      if n = 0 then ⟨.returned (-1), [v :: iov]⟩
      else
        match advance n (v :: iov) with
        | none => ⟨.pastEnd, [v :: iov]⟩
        | some left =>
            let rest := tntWritevAll left rs
            ⟨rest.outcome, (v :: iov) :: rest.calls⟩

/-! ## One result -/

/-- What is left to drop is shorter than the first buffer that is left. -/
theorem dropWritten_spec {n : ℕ} {iov : List Bytes} (h : n ≤ iov.flatten.length) :
    (dropWritten n iov).2.flatten.drop (dropWritten n iov).1 = iov.flatten.drop n ∧
      ((dropWritten n iov).2 = [] ∧ (dropWritten n iov).1 = 0 ∨
        ∃ v rest, (dropWritten n iov).2 = v :: rest ∧ (dropWritten n iov).1 < v.length) := by
  induction iov generalizing n with
  | nil =>
    have hn : n = 0 := Nat.le_zero.1 h
    simp [dropWritten, hn]
  | cons v iov ih =>
    rw [List.flatten_cons, List.length_append] at h
    rw [dropWritten]
    split_ifs with hv
    · obtain ⟨hdrop, hrest⟩ := ih (n := n - v.length) (by omega)
      refine ⟨?_, hrest⟩
      rw [hdrop, List.flatten_cons, List.drop_append, List.drop_eq_nil_of_le hv, List.nil_append]
    · exact ⟨rfl, Or.inr ⟨v, iov, rfl, not_le.1 hv⟩⟩

/-- There is always a buffer to cut; what is left are the bytes that were not accepted, and if
there are none, no buffer is left either. -/
theorem advance_spec {n : ℕ} {iov : List Bytes} (h : n ≤ iov.flatten.length) :
    ∃ iov', advance n iov = some iov' ∧ iov'.flatten = iov.flatten.drop n ∧
      (iov' = [] ∨ iov'.flatten ≠ []) := by
  obtain ⟨hdrop, hrest⟩ := dropWritten_spec h
  unfold advance
  rcases hp : dropWritten n iov with ⟨m, left⟩
  rw [hp] at hdrop hrest
  rcases hrest with ⟨rfl, rfl⟩ | ⟨v, rest, rfl, hm⟩
  · exact ⟨[], rfl, hdrop, Or.inl rfl⟩
  · have hcut : v.drop m ++ rest.flatten = iov.flatten.drop n := by
      rw [← hdrop, List.flatten_cons, List.drop_append_of_le_length (Nat.le_of_lt hm)]
    have hne : v.drop m ++ rest.flatten ≠ [] := by
      intro hnil
      have hlen := congrArg List.length (List.append_eq_nil_iff.1 hnil).1
      rw [List.length_drop, List.length_nil] at hlen
      omega
    cases m with
    | zero => exact ⟨v :: rest, rfl, hcut, Or.inr hne⟩
    | succ m => exact ⟨v.drop (m + 1) :: rest, rfl, hcut, Or.inr hne⟩

/-! ## All results -/

/-- The loop goes on after this result. -/
def Retried : WritevResult → Prop
  | .accepted _ => True
  | .failed errno => errno = .eintr ∨ errno = .eagain

/-- A result that takes bytes. -/
def takes : WritevResult → Bool
  | .accepted _ => true
  | .failed _ => false

@[simp] theorem sent_nil (outcome : WritevOutcome) (rs : List WritevResult) :
    (WritevRun.mk outcome []).sent rs = [] := by
  simp [WritevRun.sent]

@[simp] theorem sent_cons (outcome : WritevOutcome) (iov : List Bytes) (calls : List (List Bytes))
    (r : WritevResult) (rs : List WritevResult) :
    (WritevRun.mk outcome (iov :: calls)).sent (r :: rs) =
      r.bytes iov ++ (WritevRun.mk outcome calls).sent rs := rfl

theorem tntWritevAll_nil (rs : List WritevResult) : tntWritevAll [] rs = ⟨.returned 0, []⟩ := by
  cases rs <;> rfl

/-- After an interruption the same buffers are tried again. -/
theorem tntWritevAll_failed {iov : List Bytes} (hiov : iov ≠ []) {errno : Errno}
    (h : errno = .eintr ∨ errno = .eagain) (rs : List WritevResult) :
    tntWritevAll iov (.failed errno :: rs) =
      ⟨(tntWritevAll iov rs).outcome, iov :: (tntWritevAll iov rs).calls⟩ := by
  cases iov with
  | nil => exact absurd rfl hiov
  | cons v iov => exact if_pos h

/-- After an accepted part the loop goes on with what is left. -/
theorem tntWritevAll_accepted {iov : List Bytes} (hiov : iov.flatten ≠ []) (k : ℕ)
    (rs : List WritevResult) :
    ∃ n iov', 0 < n ∧ n ≤ iov.flatten.length ∧ iov'.flatten = iov.flatten.drop n ∧
      (iov' = [] ∨ iov'.flatten ≠ []) ∧
      (WritevResult.accepted k).bytes iov = iov.flatten.take n ∧
      tntWritevAll iov (.accepted k :: rs) =
        ⟨(tntWritevAll iov' rs).outcome, iov :: (tntWritevAll iov' rs).calls⟩ := by
  have hlen : 0 < iov.flatten.length := List.length_pos_iff.2 hiov
  obtain ⟨iov', hadvance, hflatten, hleft⟩ :=
    advance_spec (n := min (k + 1) iov.flatten.length) (Nat.min_le_right _ _)
  have hbytes : (WritevResult.accepted k).bytes iov =
      iov.flatten.take (min (k + 1) iov.flatten.length) := by
    rw [WritevResult.bytes, List.take_eq_take_iff]
    omega
  refine ⟨min (k + 1) iov.flatten.length, iov', by omega, Nat.min_le_right _ _, hflatten, hleft,
    hbytes, ?_⟩
  cases iov with
  | nil => exact absurd rfl hiov
  | cons v iov =>
    have hpos : ¬ min (k + 1) (v :: iov).flatten.length = 0 := by omega
    rw [tntWritevAll, if_neg hpos, hadvance]

/-- What a run from some buffers is like: no step behind the last buffer, the bytes from the first
one on, and the end when all of them are sent.  Until then every accepted part is at least a
byte. -/
structure Sends (iov : List Bytes) (rs : List WritevResult) : Prop where
  inside : (tntWritevAll iov rs).outcome ≠ .pastEnd
  inOrder : (tntWritevAll iov rs).sent rs <+: iov.flatten
  ends_iff : (tntWritevAll iov rs).outcome = .returned 0 ↔
    (tntWritevAll iov rs).sent rs = iov.flatten
  progress : (tntWritevAll iov rs).outcome = .returned 0 ∨
    rs.countP takes ≤ ((tntWritevAll iov rs).sent rs).length

/-- **A run.**  By induction on the results: before each of them, there is something left to write
or the loop is over. -/
theorem sends_of_retried {iov : List Bytes} {rs : List WritevResult}
    (hiov : iov = [] ∨ iov.flatten ≠ []) (hrs : ∀ r ∈ rs, Retried r) : Sends iov rs := by
  induction rs generalizing iov with
  | nil =>
    rcases hiov with rfl | hiov
    · exact ⟨by simp [tntWritevAll], by simp [tntWritevAll], by simp [tntWritevAll], by simp⟩
    · cases iov with
      | nil => exact absurd rfl hiov
      | cons v iov =>
        have hnot : [] ≠ (v :: iov).flatten := Ne.symm hiov
        exact ⟨by simp [tntWritevAll], by simp [tntWritevAll],
          by simpa [tntWritevAll] using hnot, by simp⟩
  | cons r rs ih =>
    obtain ⟨hr, hrest⟩ := List.forall_mem_cons.1 hrs
    rcases hiov with rfl | hiov
    · exact ⟨by simp [tntWritevAll_nil], by simp [tntWritevAll_nil], by simp [tntWritevAll_nil],
        by simp [tntWritevAll_nil]⟩
    · cases r with
      | failed errno =>
        have hne : iov ≠ [] := by
          rintro rfl
          exact hiov rfl
        obtain ⟨hinside, horder, hends, hprogress⟩ := ih (Or.inr hiov) hrest
        have hcount : (.failed errno :: rs : List WritevResult).countP takes =
            rs.countP takes := rfl
        have heq := tntWritevAll_failed hne hr rs
        have hsent : (tntWritevAll iov (.failed errno :: rs)).sent (.failed errno :: rs) =
            (tntWritevAll iov rs).sent rs := by
          rw [heq, sent_cons]
          rfl
        have houtcome : (tntWritevAll iov (.failed errno :: rs)).outcome =
            (tntWritevAll iov rs).outcome := by rw [heq]
        rw [← hsent] at horder hends hprogress
        rw [← houtcome] at hinside hends hprogress
        exact ⟨hinside, horder, hends, hcount ▸ hprogress⟩
      | accepted k =>
        obtain ⟨n, iov', hn, hle, hflatten, hleft, hbytes, heq⟩ := tntWritevAll_accepted hiov k rs
        obtain ⟨hinside, horder, hends, hprogress⟩ := ih hleft hrest
        have hsplit := List.take_append_drop n iov.flatten
        have hsent : (tntWritevAll iov (.accepted k :: rs)).sent (.accepted k :: rs) =
            iov.flatten.take n ++ (tntWritevAll iov' rs).sent rs := by
          rw [heq, sent_cons, hbytes]
        have houtcome : (tntWritevAll iov (.accepted k :: rs)).outcome =
            (tntWritevAll iov' rs).outcome := by rw [heq]
        rw [hflatten] at horder hends
        constructor
        · rwa [houtcome]
        · have hwhole := (List.prefix_append_right_inj (iov.flatten.take n)).2 horder
          rw [hsplit] at hwhole
          rwa [hsent]
        · rw [houtcome, hsent, hends]
          constructor
          · intro hall
            rw [hall, hsplit]
          · intro hall
            exact List.append_cancel_left (hall.trans hsplit.symm)
        · have hcount : (.accepted k :: rs : List WritevResult).countP takes =
              rs.countP takes + 1 := List.countP_cons_of_pos rfl
          rw [houtcome, hsent, hcount, List.length_append, List.length_take]
          refine hprogress.imp_right fun hcount => ?_
          omega

/-! ## Streams of results -/

/-- Enough results take bytes if only finitely many fail. -/
theorem exists_countP_takes {s : ℕ → WritevResult} (h : {i | takes (s i) = false}.Finite) (m : ℕ) :
    ∃ k, m ≤ ((List.range k).map s).countP takes := by
  obtain ⟨start, hstart⟩ := h.bddAbove
  refine ⟨start + 1 + m, ?_⟩
  induction m with
  | zero => exact Nat.zero_le _
  | succ m ih =>
    have htakes : takes (s (start + 1 + m)) = true := by
      by_contra hfails
      have hle := hstart (Bool.eq_false_iff.2 hfails)
      omega
    rw [← Nat.add_assoc, List.range_succ, List.map_append, List.countP_append, List.map_singleton,
      List.countP_cons_of_pos htakes, List.countP_nil]
    omega

/-- **Everything is sent, once and in order.**  Whatever the kernel accepts each time and wherever
it is interrupted, the bytes accepted are a beginning of the buffers, one after another, and the
function returns 0 exactly when they are all of them.  It does return, and it never gets behind
the last buffer. -/
theorem tntWritevAll_sends {iov : List Bytes} (hiov : iov.flatten ≠ []) :
    (∀ rs, (∀ r ∈ rs, Retried r) →
      (tntWritevAll iov rs).outcome ≠ .pastEnd ∧ (tntWritevAll iov rs).sent rs <+: iov.flatten ∧
        ((tntWritevAll iov rs).outcome = .returned 0 ↔
          (tntWritevAll iov rs).sent rs = iov.flatten)) ∧
      ∀ s : ℕ → WritevResult, (∀ i, Retried (s i)) → {i | takes (s i) = false}.Finite →
        ∃ k, (tntWritevAll iov ((List.range k).map s)).outcome = .returned 0 := by
  constructor
  · intro rs hrs
    have hrun := sends_of_retried (Or.inr hiov) hrs
    exact ⟨hrun.inside, hrun.inOrder, hrun.ends_iff⟩
  · intro s hretried hfinite
    obtain ⟨k, hk⟩ := exists_countP_takes hfinite (iov.flatten.length + 1)
    have hrs : ∀ r ∈ (List.range k).map s, Retried r := by
      intro r hr
      obtain ⟨i, -, rfl⟩ := List.mem_map.1 hr
      exact hretried i
    have hrun := sends_of_retried (Or.inr hiov) hrs
    have hlen := hrun.inOrder.length_le
    exact ⟨k, hrun.progress.resolve_right (by omega)⟩

/-- Empty buffers at both ends. -/
theorem tntWritevAll_sends_three :
    (∀ rs, (∀ r ∈ rs, Retried r) →
      (tntWritevAll [[], [1, 2, 3], []] rs).outcome ≠ .pastEnd ∧
        (tntWritevAll [[], [1, 2, 3], []] rs).sent rs <+: [[], [1, 2, 3], []].flatten ∧
        ((tntWritevAll [[], [1, 2, 3], []] rs).outcome = .returned 0 ↔
          (tntWritevAll [[], [1, 2, 3], []] rs).sent rs = [[], [1, 2, 3], []].flatten)) ∧
      ∀ s : ℕ → WritevResult, (∀ i, Retried (s i)) → {i | takes (s i) = false}.Finite →
        ∃ k, (tntWritevAll [[], [1, 2, 3], []] ((List.range k).map s)).outcome = .returned 0 :=
  tntWritevAll_sends (by decide)

example : tntWritevAll [[], [1, 2], [3]] [.accepted 0, .failed .eintr, .accepted 5] =
    ⟨.returned 0, [[[], [1, 2], [3]], [[2], [3]], [[2], [3]]]⟩ := by decide

end OpenSips

end VoipBackend
