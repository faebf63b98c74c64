import VoipBackend.Wire.CallSpace
import VoipBackend.Wire.Pool

/-!
# The cache of OpenSIPS

`tarantool_get`, `tarantool_set` and `tarantool_remove` on a handle, and the space on the server they
work on, which RTPEngine, the cleaner and other programs change as well.  A request that was sent but
not answered may have been carried out, may still be, at any later time, or never.

* `cache_refines` — the space is what the operations make of it that the requests were meant to be,
  each of them at once, late or never, and every request returns what it found or an error.
* `get_after_set` — a value that was stored is what is found, as long as nobody else writes the key.
-/

namespace VoipBackend

open Library MsgPack

namespace OpenSips

open Msgpuck

/-! ## The handle and the space -/

/-- A handle, the space on the server, and the packets that were sent and may still be carried out. -/
structure Cache where
  handle : Handle
  space : CallSpace
  late : List Bytes

/-- A request of the cache, what the calls of it return, whether there is memory for a copy of the
value, and whether the server carries the request out before it is over. -/
structure Exchange where
  net : Net
  req : Request
  pkgMalloc : ℕ → Bool
  served : Bool

/-- What happens: a request; the server gets round to a packet; or another program writes a tuple, or
deletes it. -/
inductive CacheAction where
  | request (x : Exchange)
  | late (i : ℕ)
  | other (callId : Bytes) (tuple : Option CallTuple)

namespace Cache

/-- What the calls return, with the `space_id` of the handle. -/
def net (s : Cache) (x : Exchange) : Net := { x.net with spaceId := s.handle.spaceId }

/-- The connection whose turn it is. -/
def conn (s : Cache) : Option Conn := s.handle.pool.slots[s.handle.pool.next]?

/-- The sync id of the request on this connection. -/
def syncId (tcon : Cluster) (s : Cache) (x : Exchange) (c : Conn) : ℕ :=
  ((tntGetConn tcon (s.net x) c).2.1.syncCounter + 1).toNat

/-- The packet of the request, if there is a connection for it. -/
def packet (tcon : Cluster) (s : Cache) (x : Exchange) : Option Bytes :=
  s.conn.bind fun c => x.req.encoded tcon (s.net x) c

/-- What a request returns, and the value it leaves; nothing if it reads beyond the end of a frame. -/
def answer (tcon : Cluster) (s : Cache) (x : Exchange) : Option (ℤ × Option Bytes) :=
  match s.conn with
  | none => some (-1, none)
  | some c =>
      if (request tcon (s.net x) x.req c).1.exit = .completed then
        match x.req with
        | .get _ =>
            (tntReadFrame x.net.answer x.req.respSize).bind fun frame =>
              tarantoolGet x.pkgMalloc (s.syncId tcon x c) frame
        | _ => some (0, none)
      else some (-1, none)

/-- The space when the server has carried out a packet. -/
def serve (packet : Bytes) (space : CallSpace) : CallSpace :=
  match keyOpOf packet with
  | some op => op.apply space
  | none => space

/-- One step. -/
def step (tcon : Cluster) (s : Cache) : CacheAction → Cache
  | .request x =>
      { handle := s.handle.step tcon (x.net, x.req)
        space :=
          match s.packet tcon x with
          | some packet => if x.served then serve packet s.space else s.space
          | none => s.space
        late :=
          match s.packet tcon x with
          | some packet =>
              if x.served = false ∧ x.net.answer.takes = true ∧
                  tntReadFrame x.net.answer x.req.respSize = none then s.late ++ [packet]
              else s.late
          | none => s.late }
  | .late i =>
      match s.late[i]? with
      | none => s
      | some packet => { s with space := serve packet s.space, late := s.late.eraseIdx i }
  | .other callId tuple => { s with space := Function.update s.space callId tuple }

end Cache

/-! ## What the server is relied on for -/

/-- The requests of the cache. -/
def Request.OfCache : Request → Prop
  | .get _ => True
  | .set _ _ _ => True
  | .remove _ => True
  | _ => False

/-- A right answer to a request that was carried out: `tarantool_set` and `tarantool_remove` look at
the header only. -/
def RightAnswer (space : CallSpace) (syncId : ℕ) (frame : Bytes) : Request → Prop
  | .get attr => AnswersSelect space attr syncId frame
  | _ => ∃ (head : OkHeader syncId) (rest : Bytes), frame = head.header.bytes ++ rest

/-- A refusal, which the driver recognises. -/
def Refusal (syncId : ℕ) (frame : Bytes) : Prop :=
  ∃ rc, checkIprotoStatus frame syncId = some rc ∧ rc < 0 ∧ rc ≠ -2

/-- The packet fits its buffer.  The server carries out whole packets only; a frame that arrives is
the right answer if the request was carried out, and a refusal otherwise. -/
def Faithful (tcon : Cluster) (s : Cache) : CacheAction → Prop
  | .request x => x.req.OfCache ∧ ∀ c ∈ s.conn, x.req.StaysIn tcon (s.net x) c ∧
      if x.served then x.net.answer.takes = true ∧
        ∀ frame ∈ tntReadFrame x.net.answer x.req.respSize,
          RightAnswer s.space (s.syncId tcon x c) frame x.req
      else x.net.answer.takes = true →
        ∀ frame ∈ tntReadFrame x.net.answer x.req.respSize, Refusal (s.syncId tcon x c) frame
  | _ => True

/-! ## One request -/

variable {tcon : Cluster}

/-- How a request on a connection ends. -/
theorem exit_request (net : Net) (req : Request) (c : Conn) :
    (req.encoded tcon net c = none ∧ (request tcon net req c).1.exit ≠ .completed) ∨
      (∃ packet, req.encoded tcon net c = some packet) ∧
        ((request tcon net req c).1.exit = .completed ↔
          net.answer.takes = true ∧ ∃ frame, tntReadFrame net.answer req.respSize = some frame ∧
            0 ≤ (checkIprotoStatus frame
              ((tntGetConn tcon net c).2.1.syncCounter + 1).toNat).getD net.strayStatus) := by
  unfold Request.encoded request
  simp only
  by_cases hexit : (tntGetConn tcon net c).1.exit ≠ .completed
  · rw [if_pos hexit, if_pos hexit]
    exact Or.inl ⟨rfl, hexit⟩
  · rw [if_neg hexit, if_neg hexit]
    refine Or.inr ⟨⟨_, rfl⟩, ?_⟩
    unfold query
    simp only
    by_cases htakes : net.answer.takes = false
    · simp [htakes]
    · rw [if_neg htakes]
      cases hframe : tntReadFrame net.answer req.respSize with
      | none => simp
      | some frame =>
        simp only [Option.some.injEq, exists_eq_left', Bool.not_eq_false] at htakes ⊢
        rw [htakes]
        simp only [true_and]
        generalize (checkIprotoStatus frame _).getD net.strayStatus = rc
        by_cases hmismatch : rc = -2
        · simp [hmismatch]
        · rw [if_neg hmismatch]
          by_cases hrefused : rc < 0
          · rw [if_pos hrefused]
            exact iff_of_false (by simp) (not_le.2 hrefused)
          · rw [if_neg hrefused]
            exact iff_of_true rfl (not_lt.1 hrefused)

/-- What an operation is to return, and the value. -/
def result (pkgMalloc : ℕ → Bool) (space : CallSpace) : KeyOp Bytes CallTuple → ℤ × Option Bytes
  | .read attr => found pkgMalloc (space attr)
  | _ => (0, none)

/-- What becomes of the operations in a step. -/
def deliveries (tcon : Cluster) (s : Cache) : CacheAction → List (Delivery Bytes CallTuple)
  | .request x =>
      match s.packet tcon x, x.req.keyOp x.net.packTime with
      | some _, some op =>
          if x.served then [.now op]
          else if x.net.answer.takes = true ∧ tntReadFrame x.net.answer x.req.respSize = none then
            [.putOff op]
          else []
      | _, _ => []
  | .late i => [.late i]
  | .other callId (some tuple) => [.now (.put callId tuple)]
  | .other callId none => [.now (.erase callId)]

/-- A request returns -1, or it is carried out before it is over and returns what it is to return. -/
def Answered (tcon : Cluster) (s : Cache) : CacheAction → Prop
  | .request x => s.answer tcon x = some (-1, none) ∨
      ∃ op, x.req.keyOp x.net.packTime = some op ∧ deliveries tcon s (.request x) = [.now op] ∧
        s.answer tcon x = some (result x.pkgMalloc s.space op)
  | _ => True

/-- The packet is the operation that was meant. -/
theorem keyOpOf_packet {s : Cache} {x : Exchange} {packet : Bytes} (hspace : s.handle.spaceId = 512)
    (hfaithful : Faithful tcon s (.request x)) (h : s.packet tcon x = some packet) :
    keyOpOf packet = x.req.keyOp x.net.packTime := by
  cases hconn : s.conn with
  | none =>
    rw [Cache.packet, hconn] at h
    cases h
  | some c =>
    have hstays := (hfaithful.2 c hconn).1
    rw [Cache.packet, hconn, Option.bind_some] at h
    have hsize := hstays packet h
    have hknown : (tntGetConn tcon (s.net x) c).2.2 = 512 := by
      rw [spaceId_tntGetConn]
      · exact hspace
      · show s.handle.spaceId ≠ 0
        rw [hspace]
        decide
    unfold Request.encoded at h
    simp only [hknown] at h
    split_ifs at h
    cases h
    have hbuf : x.req.bufSize ≤ 4096 := by
      cases x.req <;> simp [Request.bufSize]
    exact keyOpOf_pack x.req x.net.packTime (UInt64.toNat_lt _) (by
      show (x.req.pack _ 512 (s.net x).packTime).length < _
      omega)

/-- **What a request returns.** -/
theorem answered_request {s : Cache} {x : Exchange} (hfaithful : Faithful tcon s (.request x)) :
    Answered tcon s (.request x) := by
  obtain ⟨hcache, hfaithful⟩ := hfaithful
  cases hconn : s.conn with
  | none =>
    refine Or.inl ?_
    rw [Cache.answer, hconn]
  | some c =>
    obtain ⟨-, hfaithful⟩ := hfaithful c hconn
    by_cases hexit : (request tcon (s.net x) x.req c).1.exit = .completed
    · obtain ⟨-, hnot⟩ | ⟨⟨packet, hpacket⟩, hiff⟩ := @exit_request tcon (s.net x) x.req c
      · exact absurd hexit hnot
      obtain ⟨htakes, frame, hframe, hstatus⟩ := hiff.1 hexit
      have hserved : x.served = true := by
        by_contra hserved
        rw [if_neg hserved] at hfaithful
        obtain ⟨rc, hrc, hneg, -⟩ := hfaithful htakes frame hframe
        have hsame : checkIprotoStatus frame
            ((tntGetConn tcon (s.net x) c).2.1.syncCounter + 1).toNat = some rc := hrc
        rw [hsame, Option.getD_some] at hstatus
        omega
      rw [if_pos hserved] at hfaithful
      have hright := hfaithful.2 frame hframe
      have hsent : s.packet tcon x = some packet := by
        rw [Cache.packet, hconn]
        exact hpacket
      refine Or.inr ?_
      rw [Cache.answer, hconn]
      simp only [hexit, if_true, deliveries, hsent, hserved]
      change tntReadFrame x.net.answer x.req.respSize = some frame at hframe
      cases hreq : x.req with
      | get attr =>
        rw [hreq] at hright hframe
        refine ⟨.read attr, rfl, rfl, ?_⟩
        rw [hframe, Option.bind_some]
        exact tarantoolGet_answer hright x.pkgMalloc
      | set attr val expires => exact ⟨_, rfl, rfl, rfl⟩
      | remove attr => exact ⟨_, rfl, rfl, rfl⟩
      | rawQuery query =>
        rw [hreq] at hcache
        cases hcache
      | callProc proc args =>
        rw [hreq] at hcache
        cases hcache
    · refine Or.inl ?_
      rw [Cache.answer, hconn]
      exact if_neg hexit

/-! ## Runs -/

/-- The cache, and the store its operations are meant for. -/
structure Refines (s : Cache) (m : LateStore Bytes CallTuple) : Prop where
  known : s.handle.spaceId = 512
  space : s.space = m.store
  late : s.late.map keyOpOf = m.late.map some

theorem Refines.request {s : Cache} {m : LateStore Bytes CallTuple} (h : Refines s m) {x : Exchange}
    (hfaithful : Faithful tcon s (.request x)) :
    Refines (s.step tcon (.request x))
      (run LateStore.step m (deliveries tcon s (.request x))) := by
  have hknown : (s.handle.step tcon (x.net, x.req)).spaceId = 512 := by
    show s.handle.resolved tcon (x.net, x.req) = 512
    rw [resolved_of_ne_zero, h.known]
    rw [h.known]
    decide
  cases hpacket : s.packet tcon x with
  | none =>
    refine ⟨hknown, ?_, ?_⟩
    · simpa [Cache.step, deliveries, hpacket] using h.space
    · simpa [Cache.step, deliveries, hpacket] using h.late
  | some packet =>
    have hop := keyOpOf_packet h.known hfaithful hpacket
    obtain ⟨op, hmeant⟩ : ∃ op, x.req.keyOp x.net.packTime = some op := by
      have hcache := hfaithful.1
      cases hreq : x.req with
      | get attr => exact ⟨_, rfl⟩
      | set attr val expires => exact ⟨_, rfl⟩
      | remove attr => exact ⟨_, rfl⟩
      | rawQuery query =>
        rw [hreq] at hcache
        cases hcache
      | callProc proc args =>
        rw [hreq] at hcache
        cases hcache
    rw [hmeant] at hop
    simp only [Cache.step, deliveries, hpacket, hmeant]
    by_cases hserved : x.served = true
    · refine ⟨hknown, ?_, ?_⟩
      · simp [hserved, Cache.serve, hop, h.space, LateStore.step]
      · simpa [hserved, LateStore.step] using h.late
    · by_cases hlate : x.net.answer.takes = true ∧
          tntReadFrame x.net.answer x.req.respSize = none
      · refine ⟨hknown, ?_, ?_⟩
        · simpa [hserved, hlate, LateStore.step] using h.space
        · simp [hserved, hlate, LateStore.step, hop, h.late]
      · refine ⟨hknown, ?_, ?_⟩
        · simpa [hserved, hlate] using h.space
        · simpa [hserved, hlate] using h.late

theorem Refines.step {s : Cache} {m : LateStore Bytes CallTuple} {a : CacheAction} (h : Refines s m)
    (hfaithful : Faithful tcon s a) :
    Refines (s.step tcon a) (run LateStore.step m (deliveries tcon s a)) := by
  cases a with
  | request x => exact h.request hfaithful
  | late i =>
    have hsame : (s.late[i]?).map keyOpOf = (m.late[i]?).map some := by
      rw [← List.getElem?_map, ← List.getElem?_map, h.late]
    simp only [deliveries, run_cons, run_nil, Cache.step, LateStore.step]
    cases hpacket : s.late[i]? with
    | none =>
      rw [hpacket] at hsame
      cases hop : m.late[i]? with
      | none => exact h
      | some op =>
        rw [hop] at hsame
        cases hsame
    | some packet =>
      rw [hpacket] at hsame
      cases hop : m.late[i]? with
      | none =>
        rw [hop] at hsame
        cases hsame
      | some op =>
        rw [hop] at hsame
        have hkey : keyOpOf packet = some op := Option.some.inj hsame
        refine ⟨h.known, ?_, ?_⟩
        · simp [Cache.serve, hkey, h.space]
        · simp only [← List.eraseIdx_map, h.late]
  | other callId tuple =>
    cases tuple with
    | none => exact ⟨h.known, by simp [Cache.step, LateStore.step, deliveries, KeyOp.apply, h.space],
        h.late⟩
    | some tuple =>
      exact ⟨h.known, by simp [Cache.step, LateStore.step, deliveries, KeyOp.apply, h.space], h.late⟩

/-- The space is what the operations make of it, from any point of a run. -/
theorem refines_run {s : Cache} {m : LateStore Bytes CallTuple} (h : Refines s m)
    {l : List CacheAction} (hl : AllSteps (Cache.step tcon) (Faithful tcon) s l) :
    Refines (run (Cache.step tcon) s l)
      (run LateStore.step m (emitted (Cache.step tcon) (deliveries tcon) s l)) :=
  run_simulation (fun _ _ _ hs ha => hs.step ha) h hl

/-- **The cache is a store.**  In every run, with any other writers: the space is what is made of it by
the operations the requests were meant to be, each at most once, at once or late; and every request
returns -1 or was carried out before it was over, and returns what it found then. -/
theorem cache_refines (tcon : Cluster) {s : Cache} (hspace : s.handle.spaceId = 512)
    (hlate : s.late = []) {l : List CacheAction}
    (hl : AllSteps (Cache.step tcon) (Faithful tcon) s l) :
    (run (Cache.step tcon) s l).space =
        (run LateStore.step ⟨s.space, []⟩ (emitted (Cache.step tcon) (deliveries tcon) s l)).store ∧
      AllSteps (Cache.step tcon) (Answered tcon) s l := by
  have hstart : Refines s ⟨s.space, []⟩ := ⟨hspace, rfl, by rw [hlate]; rfl⟩
  refine ⟨(refines_run hstart hl).space, ?_⟩
  refine AllSteps.of_invariant (I := fun _ => True) ?_ trivial hl
  intro s a _ ha
  refine ⟨trivial, ?_⟩
  cases a with
  | request x => exact answered_request ha
  | late i => trivial
  | other callId tuple => trivial

/-! ## Reading back -/

/-- The step writes the key, or sends a request that does. -/
def CacheAction.Writes (attr : Bytes) : CacheAction → Prop
  | .request x => ∃ op, x.req.keyOp x.net.packTime = some op ∧ op.Writes attr
  | .late _ => False
  | .other callId _ => callId = attr

/-- What `tarantool_get_buf` returns: the code, what it copies, and `needed` if it sets it. -/
structure Copied where
  rc : ℤ
  buf : Option Bytes
  needed : Option ℕ
  deriving DecidableEq

/-- `tarantool_get_buf`, with what `tarantool_get` returned. -/
def tarantoolGetBuf (buflen : ℕ) (got : ℤ × Option Bytes) : Copied :=
  match got.2 with
  | some val =>
      if got.1 = 0 then
        if buflen < val.length then ⟨-3, none, some val.length⟩ else ⟨0, some val, none⟩
      else ⟨got.1, none, none⟩
  | none => ⟨got.1, none, none⟩

theorem not_writes_deliveries {s : Cache} {a : CacheAction} {attr : Bytes} (h : ¬ a.Writes attr) :
    ∀ d ∈ deliveries tcon s a, ¬ d.Writes attr := by
  intro d hd
  cases a with
  | request x =>
    have hquiet : ∀ op, x.req.keyOp x.net.packTime = some op → ¬ op.Writes attr := by
      intro op hop hwrites
      exact h ⟨op, hop, hwrites⟩
    simp only [deliveries] at hd
    split at hd
    · next op _ hop =>
      split_ifs at hd
      · rw [List.mem_singleton.1 hd]
        exact hquiet op hop
      · rw [List.mem_singleton.1 hd]
        exact hquiet op hop
      · cases hd
    · cases hd
  | late i =>
    rw [List.mem_singleton.1 hd]
    exact not_false
  | other callId tuple =>
    cases tuple with
    | none =>
      rw [List.mem_singleton.1 hd]
      exact h
    | some tuple =>
      rw [List.mem_singleton.1 hd]
      exact h

theorem not_writes_emitted {s : Cache} {l : List CacheAction} {attr : Bytes}
    (h : ∀ a ∈ l, ¬ a.Writes attr) :
    ∀ d ∈ emitted (Cache.step tcon) (deliveries tcon) s l, ¬ d.Writes attr := by
  induction l generalizing s with
  | nil => simp [emitted]
  | cons a l ih =>
    obtain ⟨ha, hl⟩ := List.forall_mem_cons.1 h
    intro d hd
    rcases List.mem_append.1 hd with hd | hd
    · exact not_writes_deliveries ha d hd
    · exact ih hl d hd

/-- Packets that do not write the key, as operations. -/
theorem exists_quiet {attr : Bytes} {late : List Bytes}
    (h : ∀ packet ∈ late, ∃ op, keyOpOf packet = some op ∧ ¬ op.Writes attr) :
    ∃ ops : List (KeyOp Bytes CallTuple), late.map keyOpOf = ops.map some ∧
      ∀ op ∈ ops, ¬ op.Writes attr := by
  induction late with
  | nil => exact ⟨[], rfl, by simp⟩
  | cons packet late ih =>
    obtain ⟨⟨op, hop, hquiet⟩, hlate⟩ := List.forall_mem_cons.1 h
    obtain ⟨ops, hops, hall⟩ := ih hlate
    exact ⟨op :: ops, by simp [hop, hops], List.forall_mem_cons.2 ⟨hquiet, hall⟩⟩

/-- **What was stored is found.**  When `tarantool_set` has returned 0 and no packet that writes the
key is still to be carried out, then, whatever happens to other keys and to the connections, and as
long as nobody writes this one, `tarantool_get` returns -1 or the value, which `tarantool_get_buf`
copies if it fits; it makes no difference whether the tuple has expired. -/
theorem get_after_set (tcon : Cluster) {s : Cache} {attr val : Bytes} {expires : ℤ} {x y : Exchange}
    {l : List CacheAction} (hspace : s.handle.spaceId = 512)
    (hquiet : ∀ packet ∈ s.late, ∃ op, keyOpOf packet = some op ∧ ¬ op.Writes attr)
    (hset : x.req = .set attr val expires) (hstored : s.answer tcon x = some (0, none))
    (hothers : ∀ a ∈ l, ¬ a.Writes attr) (hget : y.req = .get attr)
    (hl : AllSteps (Cache.step tcon) (Faithful tcon) s (.request x :: (l ++ [.request y]))) :
    ∃ got, (run (Cache.step tcon) (s.step tcon (.request x)) l).answer tcon y = some got ∧
      (got = (-1, none) ∨ got = (if y.pkgMalloc 0 then (0, some val) else (-2, none))) ∧
      ∀ buflen, tarantoolGetBuf buflen got =
        if got.1 ≠ 0 then ⟨got.1, none, none⟩
        else if buflen < val.length then ⟨-3, none, some val.length⟩ else ⟨0, some val, none⟩ := by
  obtain ⟨hfirst, hl⟩ := hl
  obtain ⟨hbetween, hlast⟩ := allSteps_append.1 hl
  obtain ⟨ops, hops, hall⟩ := exists_quiet hquiet
  -- the tuple is there when `tarantool_set` returns
  have hdelivered : deliveries tcon s (.request x) =
      [.now (.put attr (setTuple val expires x.net.packTime))] := by
    obtain herror | ⟨op, hop, hnow, -⟩ := answered_request hfirst
    · rw [hstored] at herror
      cases herror
    · rw [hset] at hop
      cases hop
      exact hnow
  have hstart : Refines s ⟨s.space, ops⟩ := ⟨hspace, rfl, hops⟩
  have hafter := hstart.step hfirst
  rw [hdelivered, run_cons, run_nil] at hafter
  -- and nobody writes the key until it is read
  have hrun := refines_run hafter hbetween
  have hwrites : ∀ d ∈ emitted (Cache.step tcon) (deliveries tcon) (s.step tcon (.request x)) l,
      ¬ d.Writes attr := not_writes_emitted hothers
  have hkept := LateStore.store_run_of_quiet (k := attr)
    (m := LateStore.step ⟨s.space, ops⟩ (.now (.put attr (setTuple val expires x.net.packTime))))
    hall hwrites
  rw [← hrun.space] at hkept
  have htuple : (run (Cache.step tcon) (s.step tcon (.request x)) l).space attr =
      some (setTuple val expires x.net.packTime) := by
    rw [hkept]
    exact Function.update_self ..
  have hanswer := answered_request hlast.1
  have hgot : ∃ got, (run (Cache.step tcon) (s.step tcon (.request x)) l).answer tcon y = some got ∧
      (got = (-1, none) ∨ got = (if y.pkgMalloc 0 then (0, some val) else (-2, none))) := by
    obtain herror | ⟨op, hop, -, hfound⟩ := hanswer
    · exact ⟨_, herror, Or.inl rfl⟩
    · rw [hget] at hop
      cases hop
      refine ⟨_, hfound, Or.inr ?_⟩
      rw [result, htuple]
      rfl
  obtain ⟨got, heq, hcases⟩ := hgot
  refine ⟨got, heq, hcases, ?_⟩
  intro buflen
  rcases hcases with rfl | rfl
  · simp [tarantoolGetBuf]
  · cases y.pkgMalloc 0 <;> simp [tarantoolGetBuf]

/-! ## A value that is written and read -/

/-- A handle with one connection, and an empty space. -/
def emptyCache : Cache := ⟨⟨⟨0, [.ready]⟩, 512⟩, fun _ => none, []⟩

/-- The value `v` is stored under a key, and the server answers under this sync id. -/
def storing (attr : Bytes) (sync : UInt64) : Exchange where
  net := { Net.calm with answer := replying ((RtpEngine.okHeader sync).bytes ++ nextBody.bytes) [] }
  req := .set attr (ascii "v") 60
  pkgMalloc _ := true
  served := true

theorem value_strV (n : ℕ) : (strItem (ascii "v")).value ≠ .int n := by simp

theorem valid_itemsV : ∀ item ∈ callItems (ascii "c") (ascii "opensips") 1700000000 1700000000
    1700000060 (strItem (ascii "v")), item.Valid := by
  apply valid_callItems
  any_goals decide
  exact valid_strItem (by decide)

/-- The answer with the tuple under `c`. -/
def selectedV : Selected 3 (callFields (ascii "c") (ascii "opensips") (ascii "active") 1700000000
    1700000000 1700000060 (.str (ascii "v"))) :=
  selectedCall 3 (ascii "c") (ascii "opensips") 1700000000 1700000000 1700000060
    (strItem (ascii "v")) value_strV valid_itemsV

/-- The value under `c` is read. -/
def readV : Exchange where
  net := { Net.calm with answer := replying selectedV.frame [] }
  req := .get (ascii "c")
  pkgMalloc _ := true
  served := true

/-- Meanwhile another program deletes the tuple `d`, and the value is stored there. -/
def othersV : List CacheAction := [.other (ascii "d") none, .request (storing (ascii "d") 2)]

/-- A store on a connection whose turn it is. -/
theorem faithful_storing {s : Cache} {attr : Bytes} {sync : UInt64} {c : Conn}
    (hconn : s.conn = some c)
    (hsync : ((tntGetConn callsCluster (s.net (storing attr sync)) c).2.1.syncCounter + 1) = sync)
    (hstays : (storing attr sync).req.StaysIn callsCluster (s.net (storing attr sync)) c) :
    Faithful callsCluster s (.request (storing attr sync)) := by
  refine ⟨trivial, ?_⟩
  intro c' hc'
  cases hconn.symm.trans hc'
  refine ⟨hstays, rfl, ?_⟩
  intro frame hframe
  have hlen : ((RtpEngine.okHeader sync).bytes ++ nextBody.bytes).length < 2 ^ 32 := by
    rw [length_next]
    decide
  have hread := tntReadFrame_replying hlen [] 512
  rw [length_next, if_neg (by decide)] at hread
  cases hread.symm.trans hframe
  rw [Cache.syncId, hsync]
  exact ⟨⟨RtpEngine.okHeader sync, RtpEngine.numeric_okHeader sync, ok_okHeader sync,
    synced_okHeader sync⟩, nextBody.bytes, rfl⟩

theorem faithful_storeV : Faithful callsCluster emptyCache (.request (storing (ascii "c") 1)) := by
  refine faithful_storing (c := Conn.ready) rfl (by decide +kernel) ?_
  intro packet hpacket
  cases hpacket
  decide +kernel

/-- The connection has been used once. -/
theorem conn_storeV : (run (Cache.step callsCluster) emptyCache
      [.request (storing (ascii "c") 1), .other (ascii "d") none]).conn =
    some { Conn.ready with syncCounter := 1 } := by
  decide +kernel

theorem faithful_othersV : AllSteps (Cache.step callsCluster) (Faithful callsCluster)
    (emptyCache.step callsCluster (.request (storing (ascii "c") 1))) othersV := by
  refine ⟨trivial, faithful_storing conn_storeV (by decide +kernel) ?_, trivial⟩
  intro packet hpacket
  cases hpacket
  decide +kernel

/-- And twice. -/
theorem conn_othersV : (run (Cache.step callsCluster) emptyCache
      (.request (storing (ascii "c") 1) :: othersV)).conn =
    some { Conn.ready with syncCounter := 2 } := by
  decide +kernel

/-- The tuple is there. -/
theorem space_othersV : (run (Cache.step callsCluster) emptyCache
      (.request (storing (ascii "c") 1) :: othersV)).space (ascii "c") =
    some (setTuple (ascii "v") 60 1700000000) := by
  have hstart : Refines emptyCache ⟨fun _ => none, []⟩ := ⟨rfl, rfl, rfl⟩
  rw [(refines_run hstart (l := .request (storing (ascii "c") 1) :: othersV)
    ⟨faithful_storeV, faithful_othersV⟩).space]
  rfl

theorem faithful_readV : Faithful callsCluster (run (Cache.step callsCluster) emptyCache
    (.request (storing (ascii "c") 1) :: othersV)) (.request readV) := by
  refine ⟨trivial, ?_⟩
  intro c hc
  rw [conn_othersV] at hc
  cases hc
  refine ⟨?_, rfl, ?_⟩
  · intro packet hpacket
    cases hpacket
    decide +kernel
  · intro frame hframe
    have hlen : selectedV.frame.length < 2 ^ 32 := by decide +kernel
    have hread := tntReadFrame_replying hlen [] 4096
    rw [if_neg (by decide +kernel)] at hread
    cases hread.symm.trans hframe
    have hright : AnswersSelect (run (Cache.step callsCluster) emptyCache
        (.request (storing (ascii "c") 1) :: othersV)).space (ascii "c") 3 selectedV.frame := by
      rw [AnswersSelect, space_othersV]
      exact ⟨selectedV, rfl⟩
    exact hright

/-- A run of a store, of what others do to another key, and of a read. -/
theorem faithful_runV : AllSteps (Cache.step callsCluster) (Faithful callsCluster) emptyCache
    (.request (storing (ascii "c") 1) :: (othersV ++ [.request readV])) := by
  rw [← List.cons_append, allSteps_append]
  exact ⟨⟨faithful_storeV, faithful_othersV⟩, faithful_readV, trivial⟩

theorem get_after_set_storeV :
    ∃ got, (run (Cache.step callsCluster)
        (emptyCache.step callsCluster (.request (storing (ascii "c") 1))) othersV).answer
          callsCluster readV = some got ∧
      (got = (-1, none) ∨ got = (0, some (ascii "v"))) := by
  have hothers : ∀ a ∈ othersV, ¬ a.Writes (ascii "c") := by
    have hne : ascii "d" ≠ ascii "c" := by decide
    simp only [othersV, List.forall_mem_cons, List.not_mem_nil, false_implies, implies_true,
      and_true]
    refine ⟨hne, ?_⟩
    rintro ⟨op, hop, hwrites⟩
    cases hop
    exact hne hwrites
  obtain ⟨got, heq, hcases, -⟩ := get_after_set callsCluster (s := emptyCache)
    (x := storing (ascii "c") 1) (y := readV) (l := othersV) rfl (by simp [emptyCache]) rfl rfl
    hothers rfl faithful_runV
  exact ⟨got, heq, hcases⟩

theorem cache_refines_storeV :
    (run (Cache.step callsCluster) emptyCache
        (.request (storing (ascii "c") 1) :: (othersV ++ [.request readV]))).space =
      (run LateStore.step ⟨emptyCache.space, []⟩ (emitted (Cache.step callsCluster)
        (deliveries callsCluster) emptyCache
          (.request (storing (ascii "c") 1) :: (othersV ++ [.request readV])))).store :=
  (cache_refines callsCluster (s := emptyCache) rfl rfl faithful_runV).1

end OpenSips

end VoipBackend
