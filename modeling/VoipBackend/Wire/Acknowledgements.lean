import VoipBackend.Wire.Replies
import VoipBackend.Wire.RtpEngine
import VoipBackend.Wire.Stream

/-!
# Does restoring survive the acknowledgements?

Saving and deleting a call leaves an acknowledgement on its way.  The drain of a later
operation throws away the bytes that happen to have arrived, and `restore_calls` reads what
is left frame by frame until it finds its own answer.

That works as long as the drains throw away whole frames (`restoresExactly_iff`).  Nothing in
the driver makes sure of it: one byte of an acknowledgement that arrives before a drain and
the others after it, and `restore_calls` takes a byte in the middle of the frame for the
start of a header and closes a healthy connection (`cut_acknowledgement`).
-/

namespace VoipBackend

open Library MsgPack

namespace RtpEngine

/-! ## A healthy connection -/

/-- The body of an acknowledgement, or of the answer of `rtpe_call_restore`: a header that
carries a sync id, and anything behind it. -/
structure Ack where
  sync : UInt64
  header : Header
  numeric : Numeric header.entries
  carries : ∃ e ∈ header.entries, e.1.value = .int iprotoSync ∧ e.2.value = .int sync.toNat
  rest : Bytes
  short : (header.bytes ++ rest).length < 2 ^ 32

def Ack.body (a : Ack) : Bytes := a.header.bytes ++ a.rest

/-- The server's part: the frame it sends for the request with this sync id. -/
def Answering : Type := (sync : UInt64) → {a : Ack // a.sync = sync}

/-- What the calls of an operation return when nothing fails. -/
def healthyNet (drained : List ℕ) (sends : Bytes) (stray : Bytes → ℕ × Bytes) : Net where
  dial := ⟨0, none, false, false, [], ⟨false, [], false⟩, 0⟩
  drained := drained
  takes := true
  sends := sends
  callocs := []
  stray := stray
  errorTime := 0

/-- The client has a connection. -/
def Client.Healthy (c : Client) : Prop := 0 ≤ c.sockFd ∧ c.state = .authenticated

/-- A request without an answer the driver waits for. -/
inductive OneWay where
  | saveCall (info : CallInfo)
  | deleteCall (callId : Option Bytes)

def OneWay.exec (config : Config) (net : Net) (c : Client) : OneWay → Report × Client
  | .saveCall info => RtpEngine.saveCall config net info c
  | .deleteCall callId => RtpEngine.deleteCall config net callId c

/-- One of the earlier operations: the request, what each `recv()` of its drain takes, and the
acknowledgement it gets. -/
structure Turn where
  op : OneWay
  drained : List ℕ
  ack : Answering

/-- The last operation. -/
structure Restore where
  nodeId : Bytes
  drained : List ℕ
  /-- What a header gives that is read beyond the end of its frame. -/
  stray : Bytes → ℕ × Bytes
  answer : Answering

/-- A client, the acknowledgements the server has sent on its connection, and how many bytes of
them the drains have thrown away. -/
structure Session where
  client : Client
  acks : List Ack
  discarded : ℕ

namespace Session

/-- A session at the start of a connection. -/
def start (c : Client) : Session := ⟨c, [], 0⟩

/-- The bytes of these acknowledgements. -/
def stream (acks : List Ack) : Bytes := frames (acks.map Ack.body)

/-- The bytes that are still to be read. -/
def inFlight (s : Session) : Bytes := (stream s.acks).drop s.discarded

/-- A drain throws away what has arrived. -/
def drain (drained : List ℕ) (s : Session) : Session :=
  { s with discarded :=
      s.discarded + (s.inFlight.length - (tntSocketDrain drained s.inFlight).length) }

/-- One of the earlier operations.  If a request is sent, a drain comes before it and its
acknowledgement behind it. -/
def step (config : Config) (s : Session) (t : Turn) : Session :=
  let (r, c) := t.op.exec config (healthyNet t.drained [] fun p => (0, p)) s.client
  if r.sent = [] then { s with client := c }
  else
    let s := s.drain t.drained
    { s with client := c, acks := s.acks ++ [(t.ack s.client.syncId).val] }

/-- The answer of `rtpe_call_restore`. -/
def answer (s : Session) (x : Restore) : Ack := (x.answer s.client.syncId).val

/-- What `restore_calls` finds in its connection after its drain. -/
def sends (s : Session) (x : Restore) : Bytes :=
  (s.drain x.drained).inFlight ++ frame (s.answer x).body

/-- `rtpe_tarantool_restore_calls` at the end of the session. -/
def restore (config : Config) (s : Session) (x : Restore) : Report × Client × Option Reading :=
  restoreCalls config (healthyNet x.drained (s.sends x) x.stray) x.nodeId s.client

/-- It reads whole frames: the last of the acknowledgements, which it skips, and its own answer,
which it decodes.  It succeeds, and the connection stays usable. -/
def RestoresExactly (config : Config) (s : Session) (x : Restore) : Prop :=
  ∃ r c reading k, s.restore config x = (r, c, some reading) ∧ r.exit = .completed ∧ c.Healthy ∧
    reading.skipped = (s.acks.drop k).map Ack.body ∧
    reading.own = .ok ((s.answer x).body, (s.answer x).rest) ∧ reading.unread = []

/-- The drains have thrown away whole acknowledgements, the frames that are left are not
larger than a mebibyte, and none of the acknowledgements left carries the sync id of
`restore_calls`. -/
def Clean (s : Session) (x : Restore) : Prop :=
  ∃ k, (s.drain x.drained).discarded = (stream (s.acks.take k)).length ∧
    (∀ a ∈ s.acks.drop k, a.body.length ≤ 1048576 ∧ a.sync ≠ s.client.syncId) ∧
    (s.answer x).body.length ≤ 1048576

end Session

/-! ## Frames -/

/-- A body of a length the driver takes. -/
def Readable (body : Bytes) : Prop := 0 < body.length ∧ body.length ≤ 1048576

theorem readFrame_eq_ok_iff {s body rest : Bytes} :
    readFrame true s = .ok (body, rest) ↔ s = frame body ++ rest ∧ Readable body := by
  unfold readFrame
  constructor
  · intro h
    split at h
    · cases h
    · next respHdr s' hhdr =>
      obtain ⟨rfl, hlen⟩ := recvAll_eq_some_iff.1 hhdr
      dsimp only at h
      split_ifs at h with htag hrange
      split at h
      · cases h
      · next hbody =>
        cases h
        obtain ⟨rfl, hbodyLen⟩ := recvAll_eq_some_iff.1 hbody
        rw [frame_eq_append hlen (not_not.1 htag) hbodyLen, List.append_assoc]
        refine ⟨rfl, ?_, ?_⟩ <;> omega
  · rintro ⟨rfl, hpos, hle⟩
    rw [recvAll_header]
    have hlen : ofBigEndian ((0xce :: bigEndian 4 body.length : Bytes).drop 1) = body.length :=
      ofBigEndian_header (by omega)
    simp only [List.head?_cons, ne_eq, not_true_eq_false, if_false, hlen, recvAll_body]
    rw [if_neg (by omega)]
    rfl

/-- The sync id the driver sees in a frame, and the pointer behind the header. -/
def seen (stray : Bytes → ℕ × Bytes) (body : Bytes) : ℕ × Bytes :=
  (headerSync body).getD (stray body)

theorem readLoop_succ_ok {sync : ℕ} {stray : Bytes → ℕ × Bytes} {rounds : ℕ}
    {s body rest : Bytes} (h : readFrame true s = .ok (body, rest)) :
    readLoop sync stray (rounds + 1) [] s =
      if (seen stray body).1 ≠ sync then
        { readLoop sync stray rounds [] rest with
          skipped := body :: (readLoop sync stray rounds [] rest).skipped }
      else ⟨[], .ok (body, (seen stray body).2), rest⟩ := by
  rw [readLoop]
  simp only [List.headD_nil, h]
  rfl

/-- Frames that carry other sync ids are skipped. -/
theorem readLoop_frames {sync : ℕ} {stray : Bytes → ℕ × Bytes} {skipped : List Bytes}
    (hskipped : ∀ body ∈ skipped, Readable body ∧ (seen stray body).1 ≠ sync) {own : Bytes}
    (hown : Readable own) (hsync : (seen stray own).1 = sync) {rounds : ℕ}
    (hrounds : skipped.length < rounds) (rest : Bytes) :
    readLoop sync stray rounds [] (frames skipped ++ (frame own ++ rest)) =
      ⟨skipped, .ok (own, (seen stray own).2), rest⟩ := by
  induction skipped generalizing rounds with
  | nil =>
    obtain ⟨rounds, rfl⟩ := Nat.exists_eq_add_one.2 hrounds
    rw [frames_nil, List.nil_append, readLoop_succ_ok (readFrame_eq_ok_iff.2 ⟨rfl, hown⟩),
      if_neg (not_not.2 hsync)]
  | cons body skipped ih =>
    obtain ⟨rounds, rfl⟩ := Nat.exists_eq_add_one.2 (Nat.zero_lt_of_lt hrounds)
    obtain ⟨⟨hbody, hother⟩, hskipped⟩ := List.forall_mem_cons.1 hskipped
    rw [frames_cons, List.append_assoc, readLoop_succ_ok (readFrame_eq_ok_iff.2 ⟨rfl, hbody⟩),
      if_pos hother, ih hskipped (Nat.lt_of_succ_lt_succ hrounds)]

/-- What the loop has read when it finds its frame. -/
theorem eq_frames_of_readLoop {sync : ℕ} {stray : Bytes → ℕ × Bytes} {rounds : ℕ} {s : Bytes}
    {reading : Reading} (h : readLoop sync stray rounds [] s = reading) {own p : Bytes}
    (hown : reading.own = .ok (own, p)) :
    s = frames reading.skipped ++ (frame own ++ reading.unread) ∧ Readable own ∧
      ∀ body ∈ reading.skipped, Readable body ∧ (seen stray body).1 ≠ sync := by
  induction rounds generalizing s reading with
  | zero =>
    subst h
    cases hown
  | succ rounds ih =>
    cases hframe : readFrame true s with
    | error e =>
      have hstop : readLoop sync stray (rounds + 1) [] s = ⟨[], .error e, s⟩ := by
        rw [readLoop]
        simp only [List.headD_nil, hframe]
      rw [← h, hstop] at hown
      cases hown
    | ok read =>
      obtain ⟨body, rest⟩ := read
      obtain ⟨rfl, hbody⟩ := readFrame_eq_ok_iff.1 hframe
      rw [readLoop_succ_ok hframe] at h
      by_cases hother : (seen stray body).1 ≠ sync
      · rw [if_pos hother] at h
        subst h
        obtain ⟨hrest, hown', hskipped⟩ := ih rfl hown
        refine ⟨?_, hown', List.forall_mem_cons.2 ⟨⟨hbody, hother⟩, hskipped⟩⟩
        rw [frames_cons, List.append_assoc, ← hrest]
      · rw [if_neg hother] at h
        subst h
        cases hown
        exact ⟨rfl, hbody, by simp⟩

/-! ## Acknowledgements -/

theorem headerSync_ack (a : Ack) : headerSync a.body = some (a.sync.toNat, a.rest) := by
  obtain ⟨e, he, hkey, hval⟩ := a.carries
  exact headerSync_bytes a.numeric he hkey hval a.rest

theorem seen_ack (stray : Bytes → ℕ × Bytes) (a : Ack) :
    seen stray a.body = (a.sync.toNat, a.rest) := by
  rw [seen, headerSync_ack]
  rfl

theorem length_ack_pos (a : Ack) : 0 < a.body.length :=
  Nat.pos_of_ne_zero (a.header.length_bytes_pos a.rest)

theorem readable_ack_iff (a : Ack) : Readable a.body ↔ a.body.length ≤ 1048576 :=
  and_iff_right (length_ack_pos a)

/-! ## Runs -/

variable {config : Config}

/-- A drain leaves the end of what it finds. -/
theorem tntSocketDrain_eq_drop (drained : List ℕ) (s : Bytes) :
    ∃ n, tntSocketDrain drained s = s.drop n := by
  induction drained generalizing s with
  | nil => exact ⟨0, rfl⟩
  | cons n drained ih =>
    obtain ⟨m, hm⟩ := ih (s.drop (min n 1024))
    refine ⟨min n 1024 + m, ?_⟩
    rw [← List.drop_drop, ← hm]
    rfl

namespace Session

/-- No more bytes are thrown away than have been sent, and the client has a connection. -/
structure Sound (s : Session) : Prop where
  healthy : s.client.Healthy
  le : s.discarded ≤ (stream s.acks).length

/-- What is in flight after a drain is what the drain leaves. -/
theorem inFlight_drain (drained : List ℕ) (s : Session) :
    (s.drain drained).inFlight = tntSocketDrain drained s.inFlight := by
  obtain ⟨n, hn⟩ := tntSocketDrain_eq_drop drained s.inFlight
  show (stream s.acks).drop (s.discarded + _) = _
  rw [← List.drop_drop]
  show s.inFlight.drop _ = _
  rw [hn, List.length_drop]
  by_cases h : n ≤ s.inFlight.length
  · rw [show s.inFlight.length - (s.inFlight.length - n) = n by omega]
  · rw [List.drop_eq_nil_of_le (by omega), List.drop_eq_nil_of_le (by omega)]

theorem le_drain {s : Session} (h : s.discarded ≤ (stream s.acks).length) (drained : List ℕ) :
    (s.drain drained).discarded ≤ (stream s.acks).length := by
  have hlen : s.inFlight.length = (stream s.acks).length - s.discarded := List.length_drop
  show s.discarded + (s.inFlight.length - _) ≤ _
  omega

/-- A connection that is there is used. -/
theorem getConnection_healthy {c : Client} (hc : c.Healthy) (dial : Dial) :
    getConnection config dial c = (.usable, c) :=
  if_neg (by rw [not_or, not_not]; exact ⟨not_lt.2 hc.1, hc.2⟩)

/-- A request on a healthy connection keeps it. -/
theorem healthy_sendOneWay {net : Net} (htakes : net.takes = true) (packet : Option Bytes)
    {c : Client} (hc : c.Healthy) : (sendOneWay config net packet c).2.Healthy := by
  unfold sendOneWay
  cases packet with
  | none => exact hc
  | some packet =>
    simp only [getConnection_healthy hc, Report.usable, htakes]
    exact hc

theorem healthy_exec {net : Net} (htakes : net.takes = true) (op : OneWay) {c : Client}
    (hc : c.Healthy) : (op.exec config net c).2.Healthy := by
  cases op with
  | saveCall info => exact healthy_sendOneWay htakes _ hc
  | deleteCall callId => exact healthy_sendOneWay htakes _ hc

theorem sound_step {s : Session} (hs : s.Sound) (t : Turn) : (s.step config t).Sound := by
  have hclient : (t.op.exec config (healthyNet t.drained [] fun p => (0, p)) s.client).2.Healthy :=
    healthy_exec rfl t.op hs.healthy
  unfold step
  simp only
  split_ifs
  · exact ⟨hclient, hs.le⟩
  · refine ⟨hclient, (le_drain hs.le t.drained).trans ?_⟩
    show _ ≤ (stream (s.acks ++ _)).length
    rw [stream, stream, List.map_append, frames_append, List.length_append]
    exact Nat.le_add_right _ _

theorem sound_run {c : Client} (hc : c.Healthy) (l : List Turn) :
    (run (step config) (start c) l).Sound :=
  run_invariant (I := Sound) (P := fun _ _ => True) (fun _ t hs _ => sound_step hs t)
    ⟨hc, Nat.zero_le _⟩ (AllSteps.trivial (fun _ _ => trivial) _ l)

/-! ## Sync ids -/

theorem syncId_sendOneWay {net : Net} (htakes : net.takes = true) (packet : Option Bytes)
    {c : Client} (hc : c.Healthy) : (sendOneWay config net packet c).2.syncId = c.syncId := by
  unfold sendOneWay
  cases packet with
  | none => rfl
  | some packet =>
    simp only [getConnection_healthy hc, Report.usable, htakes]
    rfl

theorem syncId_exec {net : Net} (htakes : net.takes = true) (op : OneWay) {c : Client}
    (hc : c.Healthy) : (op.exec config net c).2.syncId = c.syncId + 1 := by
  cases op with
  | saveCall info =>
    exact syncId_sendOneWay (c := { c with syncId := c.syncId + 1 }) htakes _ hc
  | deleteCall callId =>
    exact syncId_sendOneWay (c := { c with syncId := c.syncId + 1 }) htakes _ hc

theorem syncId_step {s : Session} (hs : s.Sound) (t : Turn) :
    (s.step config t).client.syncId = s.client.syncId + 1 := by
  have hclient : (t.op.exec config (healthyNet t.drained [] fun p => (0, p)) s.client).2.syncId =
      s.client.syncId + 1 := syncId_exec rfl t.op hs.healthy
  unfold step
  simp only
  split_ifs <;> exact hclient

theorem mem_acks_step {s : Session} {t : Turn} {a : Ack} (ha : a ∈ (s.step config t).acks) :
    a ∈ s.acks ∨ a.sync = s.client.syncId := by
  unfold step at ha
  simp only at ha
  split_ifs at ha
  · exact Or.inl ha
  · rcases List.mem_append.1 ha with ha | ha
    · exact Or.inl ha
    · rw [List.mem_singleton.1 ha]
      exact Or.inr (t.ack _).property

/-- The acknowledgements of a run carry the sync ids it has counted through. -/
theorem sync_run {s : Session} (hs : s.Sound) (l : List Turn) :
    (run (step config) s l).client.syncId = s.client.syncId + UInt64.ofNat l.length ∧
      ∀ a ∈ (run (step config) s l).acks, a ∈ s.acks ∨
        ∃ i < l.length, a.sync = s.client.syncId + UInt64.ofNat i := by
  induction l generalizing s with
  | nil => exact ⟨by simp, fun a ha => Or.inl ha⟩
  | cons t l ih =>
    obtain ⟨hsync, hacks⟩ := ih (sound_step hs t)
    have hnext : ∀ n, (s.step config t).client.syncId + UInt64.ofNat n =
        s.client.syncId + UInt64.ofNat (n + 1) := by
      intro n
      rw [syncId_step hs, UInt64.ofNat_add, UInt64.add_assoc, UInt64.add_comm (UInt64.ofNat n)]
      rfl
    rw [run_cons, List.length_cons]
    refine ⟨by rw [hsync, hnext], fun a ha => ?_⟩
    rcases hacks a ha with ha | ⟨i, hi, ha⟩
    · rcases mem_acks_step ha with ha | ha
      · exact Or.inl ha
      · exact Or.inr ⟨0, Nat.succ_pos _, by rw [ha]; simp⟩
    · exact Or.inr ⟨i + 1, Nat.succ_lt_succ hi, by rw [ha, hnext]⟩

/-- Before the sync ids start over, no acknowledgement carries the one of `restore_calls`. -/
theorem sync_ne_of_length_lt {c : Client} (hc : c.Healthy) {l : List Turn}
    (hlen : l.length < 2 ^ 64) {a : Ack} (ha : a ∈ (run (step config) (start c) l).acks) :
    a.sync ≠ (run (step config) (start c) l).client.syncId := by
  have hstart : (start c).Sound := ⟨hc, Nat.zero_le _⟩
  obtain ⟨hsync, hacks⟩ := sync_run hstart l
  rcases hacks a ha with ha | ⟨i, hi, ha⟩
  · cases ha
  · rw [ha, hsync]
    intro heq
    have hnat := congrArg UInt64.toNat (UInt64.add_right_inj _ |>.1 heq)
    rw [UInt64.toNat_ofNat_of_lt' (lt_trans hi hlen), UInt64.toNat_ofNat_of_lt' hlen] at hnat
    omega

/-! ## Restoring -/

/-- What `restore_calls` reads on a healthy connection. -/
theorem restoreCalls_reading {c : Client} (hc : c.Healthy) (drained : List ℕ) (sends : Bytes)
    (stray : Bytes → ℕ × Bytes) (nodeId : Bytes) :
    (restoreCalls config (healthyNet drained sends stray) nodeId c).2.2 =
      some (readLoop c.syncId.toNat stray (sends.length + 1) [] sends) := by
  unfold restoreCalls
  simp only [getConnection_healthy hc, Report.usable, healthyNet, ne_eq, not_true_eq_false,
    if_false, Bool.true_eq_false]
  split <;> rfl

/-- What `restore_calls` reads at the end of a session. -/
def reading (s : Session) (x : Restore) : Reading :=
  readLoop s.client.syncId.toNat x.stray ((s.sends x).length + 1) [] (s.sends x)

theorem restore_reading {s : Session} (hs : s.client.Healthy) (x : Restore) :
    (s.restore config x).2.2 = some (s.reading x) :=
  restoreCalls_reading hs x.drained (s.sends x) x.stray x.nodeId

theorem restore_of_ok {s : Session} (hs : s.client.Healthy) {x : Restore} {found : Bytes × Bytes}
    (h : (s.reading x).own = .ok found) :
    ∃ r, r.exit = .completed ∧ s.restore config x =
      (r, { s.client with syncId := s.client.syncId + 1 }, some (s.reading x)) := by
  rw [reading] at h
  unfold restore restoreCalls
  simp only [getConnection_healthy hs, Report.usable, healthyNet, ne_eq, not_true_eq_false,
    if_false, Bool.true_eq_false, h]
  exact ⟨_, rfl, rfl⟩

theorem seen_answer (s : Session) (x : Restore) :
    seen x.stray (s.answer x).body = (s.client.syncId.toNat, (s.answer x).rest) := by
  rw [seen_ack]
  exact congrArg (fun sync => (UInt64.toNat sync, (s.answer x).rest))
    (x.answer s.client.syncId).property

theorem stream_take_append_drop (acks : List Ack) (k : ℕ) :
    stream (acks.take k) ++ stream (acks.drop k) = stream acks := by
  rw [stream, stream, ← frames_append, ← List.map_append, List.take_append_drop]
  rfl

/-- What is read exactly are the frames that are left, so the drains have thrown away the
others. -/
theorem Sound.clean_of_exact {s : Session} (hs : s.Sound) {x : Restore}
    (h : s.RestoresExactly config x) : s.Clean x := by
  obtain ⟨r, c, reading, k, hrestore, -, -, hskipped, hfound, hunread⟩ := h
  have hreading : (s.restore config x).2.2 = some (s.reading x) := restore_reading hs.healthy x
  rw [hrestore] at hreading
  obtain ⟨hsends, hreadable, hother⟩ :=
    eq_frames_of_readLoop (Option.some.inj hreading).symm hfound
  refine ⟨k, ?_, ?_, (readable_ack_iff _).1 hreadable⟩
  · have hle := le_drain hs.le x.drained
    rw [hunread, List.append_nil, sends, List.append_left_inj, hskipped] at hsends
    have hlen : (s.drain x.drained).inFlight.length = (stream (s.acks.drop k)).length :=
      congrArg List.length hsends
    have hinFlight : (s.drain x.drained).inFlight.length =
        (stream s.acks).length - (s.drain x.drained).discarded := List.length_drop
    have hsplit := congrArg List.length (stream_take_append_drop s.acks k)
    rw [List.length_append] at hsplit
    omega
  · intro a ha
    have hbody := hother a.body (by rw [hskipped]; exact List.mem_map_of_mem ha)
    rw [seen_ack] at hbody
    refine ⟨(readable_ack_iff a).1 hbody.1, fun hsync => hbody.2 ?_⟩
    rw [hsync]

/-- The frames that are left are skipped. -/
theorem Sound.exact_of_clean {s : Session} (hs : s.Sound) {x : Restore} (h : s.Clean x) :
    s.RestoresExactly config x := by
  obtain ⟨k, hdiscarded, hacks, hanswer⟩ := h
  have hinFlight : (s.drain x.drained).inFlight = frames ((s.acks.drop k).map Ack.body) := by
    rw [inFlight, hdiscarded]
    show (stream s.acks).drop _ = _
    rw [← stream_take_append_drop s.acks k, List.drop_left]
    rfl
  have hskipped : ∀ body ∈ (s.acks.drop k).map Ack.body,
      Readable body ∧ (seen x.stray body).1 ≠ s.client.syncId.toNat := by
    intro body hbody
    obtain ⟨a, ha, rfl⟩ := List.mem_map.1 hbody
    obtain ⟨hle, hsync⟩ := hacks a ha
    rw [seen_ack]
    exact ⟨(readable_ack_iff a).2 hle, fun heq => hsync (UInt64.toNat_inj.1 heq)⟩
  have hreading : s.reading x = ⟨(s.acks.drop k).map Ack.body,
      .ok ((s.answer x).body, (s.answer x).rest), []⟩ := by
    have hrounds : ((s.acks.drop k).map Ack.body).length < (s.sends x).length + 1 := by
      have hframes := length_le_length_frames ((s.acks.drop k).map Ack.body)
      rw [sends, hinFlight, List.length_append]
      omega
    have hloop := readLoop_frames hskipped ((readable_ack_iff (s.answer x)).2 hanswer)
      (by rw [seen_answer]) hrounds []
    rw [List.append_nil, ← hinFlight, seen_answer] at hloop
    exact hloop
  obtain ⟨r, hr, hrestore⟩ := restore_of_ok hs.healthy (congrArg Reading.own hreading)
  exact ⟨r, _, _, k, hrestore, hr, hs.healthy, congrArg Reading.skipped hreading,
    congrArg Reading.own hreading, congrArg Reading.unread hreading⟩

end Session

/-- **When restoring is exact.**  At the end of every run of saved and deleted calls on a healthy
connection, whatever the acknowledgements are and however their bytes arrive, restoring is
exact if and only if the drains have thrown away whole frames, the frames left are not
larger than a mebibyte, and no acknowledgement left carries the sync id of the request. -/
theorem restoresExactly_iff {c : Client} (hc : c.Healthy) (config : Config) (l : List Turn)
    (x : Restore) :
    (run (Session.step config) (Session.start c) l).RestoresExactly config x ↔
      (run (Session.step config) (Session.start c) l).Clean x :=
  ⟨(Session.sound_run hc l).clean_of_exact, (Session.sound_run hc l).exact_of_clean⟩

/-! ## One deleted call -/

/-- What Tarantool sends: this header, and these bytes behind it. -/
def okAnswer (sync : UInt64) (rest : Bytes)
    (short : ((okHeader sync).bytes ++ rest).length < 2 ^ 32) : Ack where
  sync := sync
  header := okHeader sync
  numeric := numeric_okHeader sync
  carries := ⟨(.fixint 1, .uint .w64 sync.toNat), by simp [okHeader], rfl, rfl⟩
  rest := rest
  short := short

/-- The acknowledgement with an empty body. -/
def okAck (sync : UInt64) : {a : Ack // a.sync = sync} :=
  ⟨okAnswer sync [0x80] (by simp [Header.bytes, okHeader, mapItem, Item.bytes, Item.payload,
    entriesBytes, NumWidth.bytes]), rfl⟩

/-- A client with a connection. -/
def connectedClient : Client := ⟨7, .authenticated, 1, 0, 0⟩

/-- Deleting the call `a`. -/
def deleteTurn : Turn := ⟨.deleteCall (some (ascii "a")), [], okAck⟩

/-- Restoring the calls of node `n`, with a drain that receives these numbers of bytes. -/
def restoreAfter (drained : List ℕ) : Restore := ⟨ascii "n", drained, fun p => (0, p), okAck⟩

/-- The configuration of the two runs. -/
def sampleConfig : Config := ⟨[], [], ascii "n", 3600, 10, 3⟩

/-- A pending acknowledgement that arrives after the drain is skipped. -/
theorem restoresExactly_pending :
    (run (Session.step sampleConfig) (Session.start connectedClient)
      [deleteTurn]).RestoresExactly sampleConfig (restoreAfter []) := by
  refine (restoresExactly_iff ⟨by decide, rfl⟩ sampleConfig [deleteTurn] (restoreAfter [])).2 ?_
  refine ⟨0, rfl, fun a ha => ?_, by decide +kernel⟩
  have hacks : (run (Session.step sampleConfig) (Session.start connectedClient) [deleteTurn]).acks =
      [(okAck 1).val] := rfl
  rw [hacks, List.drop_zero, List.mem_singleton] at ha
  subst ha
  exact ⟨by decide +kernel, by decide +kernel⟩

/-- **A drain that cuts an acknowledgement in two**: its first byte is thrown away, and
`restore_calls` fails and closes the connection. -/
theorem cut_acknowledgement :
    ¬ (run (Session.step sampleConfig) (Session.start connectedClient)
      [deleteTurn]).RestoresExactly sampleConfig (restoreAfter [1]) := by
  rintro ⟨r, c, reading, k, hrestore, hexit, -⟩
  have hfailed : ((run (Session.step sampleConfig) (Session.start connectedClient)
      [deleteTurn]).restore sampleConfig (restoreAfter [1])).1.exit = .receiveFailed := by
    decide +kernel
  rw [hrestore, hexit] at hfailed
  cases hfailed

end RtpEngine

end VoipBackend
