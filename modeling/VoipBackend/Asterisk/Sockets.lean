import VoipBackend.Asterisk.Exec
import VoipBackend.Lib.Mutex
import VoipBackend.Wire.Pairing

/-!
# Whose response does Asterisk read?

The sockets of a profile: `ast_tarantool_acquire_conn` hands out one that no other thread has, and
connects it if need be; `ast_tarantool_exec_raw` sends a request over it and reads a response, whose
sync id it does not compare.  If there is no memory for a response it stays in the socket, which is
given back connected.

The body of a response begins like a map, and so not like a frame: whoever gets that socket next
closes it.  So every request returns -1 or what its own response says (`reads_own`).
-/

namespace VoipBackend

open Library MsgPack

namespace Asterisk

/-! ## Connecting -/

/-- What the calls of `tnt_socket_connect` return. -/
structure Dialing where
  /-- The descriptor `socket()` makes, if it makes one. -/
  socket : Option ℕ
  /-- `inet_pton` takes the address. -/
  valid : Bool
  connects : Bool
  /-- The bytes that arrive of the greeting. -/
  greeting : Bytes

/-- `tnt_socket_connect`: whether it succeeds, and the socket it leaves. -/
def tntSocketConnect (d : Dialing) (sock : Socket) : Bool × Socket :=
  let sock := if 0 ≤ sock.fd then sock.close else sock
  match d.socket with
  | none => (false, sock)
  | some fd =>
      if d.valid = false ∨ d.connects = false then (false, sock)
      else if d.greeting.length < 128 ∨ d.greeting.take 9 ≠ ascii "Tarantool" then (false, sock)
      else (true, { sock with fd := fd, connected := true })

/-! ## The pool -/

/-- A socket of the pool, the bytes that are not read from it yet, and its lock, which is recursive. -/
structure Slot (T : Type) where
  sock : Socket
  unread : Bytes
  lock : Mutex T

variable {T : Type}

/-- The socket is connected. -/
def Socket.Usable (sock : Socket) : Prop := sock.connected = true ∧ 0 ≤ sock.fd

instance (sock : Socket) : Decidable sock.Usable := inferInstanceAs (Decidable (_ ∧ _))

/-- The sockets of a profile as `load_config` makes them. -/
def freshSlots (T : Type) (poolSize : ℕ) : List (Slot T) :=
  List.replicate poolSize ⟨⟨-1, false, 0⟩, [], .free⟩

/-- A socket that is not connected is to be; a new connection has nothing unread. -/
def Slot.connect (d : Dialing) (s : Slot T) : Bool × Slot T :=
  if s.sock.Usable then (true, s)
  else
    match tntSocketConnect d s.sock with
    | (true, sock) => (true, ⟨sock, [], s.lock⟩)
    | (false, sock) => (false, { s with sock := sock })

/-- One round of the loop of `ast_tarantool_acquire_conn`: another thread has the socket; the thread
gets it connected; or gives it back. -/
def Slot.attempt [DecidableEq T] (t : T) (d : Dialing) (s : Slot T) : Slot T :=
  match s.lock.lock t with
  | none => s
  | some lock =>
      match Slot.connect d ⟨s.sock, s.unread, lock⟩ with
      | (true, s) => s
      | (false, s) => { s with lock := s.lock.unlock t }

/-- The fallback, once no other thread has the first socket: it is handed out even if it cannot be
connected. -/
def Slot.fallback [DecidableEq T] (t : T) (d : Dialing) (s : Slot T) : Slot T :=
  match s.lock.lock t with
  | none => s
  | some lock => (Slot.connect d ⟨s.sock, s.unread, lock⟩).2

/-- A request, and what becomes of it: what `writev()` returns, the response, how much of it arrives,
and whether there is memory for it. -/
structure ExecTurn where
  request : RawRequest
  writev : Bytes → ℤ
  answer : Kamailio.Answer
  arrived : ℕ
  malloc : Bool

/-- What the calls return when these bytes are unread. -/
def ExecTurn.exchange (t : ExecTurn) (unread : Bytes) : Exchange where
  writev := t.writev
  arrives := (unread ++ frame t.answer.body).take t.arrived
  malloc := t.malloc

/-- What `ast_tarantool_exec_raw` leaves of the bytes that arrived, in a socket it leaves connected. -/
def execUnread (x : Exchange) : Bytes :=
  match recvAll x.arrives 5 with
  | none => []
  | some (rlenHdr, arrives) =>
      if staticResp < ofBigEndian (rlenHdr.drop 1) ∧ x.malloc = false then arrives
      else ((recvAll arrives (ofBigEndian (rlenHdr.drop 1))).map Prod.snd).getD []

/-- The request over the socket. -/
def Slot.exec (e : ExecTurn) (s : Slot T) : Option Reply :=
  execRaw (e.exchange s.unread) s.sock e.request

/-- The socket after the request, with what has not been read and what has not arrived. -/
def Slot.after (e : ExecTurn) (s : Slot T) : Slot T where
  sock := ((s.exec e).map Reply.sock).getD s.sock.next
  unread := execUnread (e.exchange s.unread) ++ (s.unread ++ frame e.answer.body).drop e.arrived
  lock := s.lock

/-- What a thread does: a round of the loop of an acquisition, or its fallback; a request over a socket
it has; or giving one back. -/
inductive SlotAction (T : Type) where
  | attempt (t : T) (i : ℕ) (d : Dialing)
  | fallback (t : T) (d : Dialing)
  | exec (t : T) (i : ℕ) (e : ExecTurn)
  | release (t : T) (i : ℕ)

/-- One step. -/
def stepSlots [DecidableEq T] (slots : List (Slot T)) : SlotAction T → List (Slot T)
  | .attempt t i d => slots.modify i fun s => s.attempt t d
  | .fallback t d => slots.modify 0 fun s => s.fallback t d
  | .exec t i e => slots.modify i fun s => if 0 < s.lock.depth t then s.after e else s
  | .release t i => slots.modify i fun s => { s with lock := s.lock.unlock t }

/-- A request over a socket the thread has returns -1, or what is read from its own response. -/
def ReadsOwn [DecidableEq T] (slots : List (Slot T)) : SlotAction T → Prop
  | .exec t i e => ∀ s ∈ slots[i]?, 0 < s.lock.depth t →
      (∃ sock, s.exec e = some ⟨-1, none, sock⟩) ∨
        s.exec e = readResponse s.sock.next e.request.resSize e.answer.body
  | _ => True

/-- A socket is connected exactly if it has a descriptor, and nothing is unread then, or the body of
one response. -/
structure Slot.Sound (s : Slot T) : Prop where
  connected_iff : s.sock.connected = true ↔ 0 ≤ s.sock.fd
  aligned : s.sock.connected = true → s.unread = [] ∨ ∃ a : Kamailio.Answer, s.unread = a.body

/-! ## What an operation leaves -/

variable {s : Slot T}

/-- A connection attempt leaves the socket connected, or closed. -/
theorem tntSocketConnect_cases (d : Dialing) {sock : Socket}
    (hsock : sock.connected = true ↔ 0 ≤ sock.fd) :
    (∃ fd : ℕ, tntSocketConnect d sock = (true, { sock with fd := fd, connected := true })) ∨
      ∃ fd : ℤ, fd < 0 ∧
        tntSocketConnect d sock = (false, { sock with fd := fd, connected := false }) := by
  have hclosed : ∃ fd : ℤ, fd < 0 ∧
      (if 0 ≤ sock.fd then sock.close else sock) = { sock with fd := fd, connected := false } := by
    by_cases hfd : 0 ≤ sock.fd
    · exact ⟨-1, by norm_num, if_pos hfd⟩
    · have hdown : sock.connected = false := by
        rw [← Bool.not_eq_true, hsock]
        exact hfd
      refine ⟨sock.fd, not_le.1 hfd, ?_⟩
      rw [if_neg hfd, ← hdown]
  obtain ⟨fd, hneg, hclosed⟩ := hclosed
  unfold tntSocketConnect
  simp only [hclosed]
  cases d.socket with
  | none => exact Or.inr ⟨fd, hneg, rfl⟩
  | some fd' =>
    simp only
    split_ifs
    · exact Or.inr ⟨fd, hneg, rfl⟩
    · exact Or.inr ⟨fd, hneg, rfl⟩
    · exact Or.inl ⟨fd', rfl⟩

/-- Whether a socket is sound does not depend on who has it. -/
theorem sound_lock (h : s.Sound) (lock : Mutex T) : Slot.Sound ⟨s.sock, s.unread, lock⟩ :=
  ⟨h.connected_iff, h.aligned⟩

theorem sound_connect (h : s.Sound) (d : Dialing) : (s.connect d).2.Sound := by
  unfold Slot.connect
  split_ifs
  · exact h
  · obtain ⟨fd, heq⟩ | ⟨fd, hneg, heq⟩ := tntSocketConnect_cases d h.connected_iff
    · rw [heq]
      exact ⟨by simp, fun _ => Or.inl rfl⟩
    · rw [heq]
      refine ⟨by simpa using hneg, ?_⟩
      intro hconnected
      cases hconnected

theorem sound_attempt [DecidableEq T] (h : s.Sound) (t : T) (d : Dialing) :
    (s.attempt t d).Sound := by
  unfold Slot.attempt
  cases s.lock.lock t with
  | none => exact h
  | some lock =>
    have hsound := sound_connect (sound_lock h lock) d
    simp only
    cases hconnect : Slot.connect d ⟨s.sock, s.unread, lock⟩ with
    | mk got s' =>
      rw [hconnect] at hsound
      cases got with
      | true => exact hsound
      | false => exact sound_lock hsound _

theorem sound_fallback [DecidableEq T] (h : s.Sound) (t : T) (d : Dialing) :
    (s.fallback t d).Sound := by
  unfold Slot.fallback
  cases s.lock.lock t with
  | none => exact h
  | some lock => exact sound_connect (sound_lock h lock) d

/-- The socket of a response that is read stays as it is. -/
theorem sock_of_readResponse {sock : Socket} {resSize : ℕ} {rbuf : Bytes} {reply : Reply}
    (h : readResponse sock resSize rbuf = some reply) : reply.sock = sock := by
  unfold readResponse at h
  simp only [Option.bind_eq_bind, Option.bind_eq_some_iff] at h
  obtain ⟨_, -, _, -, h⟩ := h
  split_ifs at h <;> cases h <;> rfl

/-- **Everything a request over a socket can do.**  It is not connected; it is closed; there is no
memory for the response, which stays; or the response is read. -/
theorem execRaw_cases (x : Exchange) (sock : Socket) (r : RawRequest) :
    (¬ sock.Usable ∧ execRaw x sock r = some ⟨-1, none, sock⟩) ∨
      sock.Usable ∧
        (execRaw x sock r = some ⟨-1, none, sock.next.close⟩ ∨
          ∃ respLen arrives, Kamailio.Opens x.arrives respLen arrives ∧
            ((execRaw x sock r = some ⟨-1, none, sock.next⟩ ∧ execUnread x = arrives) ∨
              ∃ rbuf rest, recvAll arrives respLen = some (rbuf, rest) ∧ execUnread x = rest ∧
                execRaw x sock r = readResponse sock.next r.resSize rbuf)) := by
  unfold execRaw execUnread
  by_cases hdown : sock.fd < 0 ∨ sock.connected = false
  · refine Or.inl ⟨?_, if_pos hdown⟩
    rintro ⟨hconnected, hfd⟩
    rcases hdown with hneg | hdown
    · omega
    · rw [hconnected] at hdown
      cases hdown
  rw [if_neg hdown]
  push Not at hdown
  refine Or.inr ⟨⟨by simpa using hdown.2, hdown.1⟩, ?_⟩
  simp only
  split_ifs with hwritten
  · exact Or.inl rfl
  cases hhdr : recvAll x.arrives 5 with
  | none => exact Or.inl rfl
  | some hdr =>
    obtain ⟨rlenHdr, arrives⟩ := hdr
    simp only
    by_cases htag : rlenHdr.head? = some 0xce
    · rw [if_neg (not_not.2 htag)]
      by_cases hmemory : staticResp < ofBigEndian (rlenHdr.drop 1) ∧ x.malloc = false
      · rw [if_pos hmemory, if_pos hmemory]
        exact Or.inr ⟨_, arrives, ⟨rlenHdr, hhdr, htag, rfl⟩, Or.inl ⟨rfl, rfl⟩⟩
      · rw [if_neg hmemory, if_neg hmemory]
        cases hbody : recvAll arrives (ofBigEndian (rlenHdr.drop 1)) with
        | none => exact Or.inl rfl
        | some body =>
          exact Or.inr ⟨_, arrives, ⟨rlenHdr, hhdr, htag, rfl⟩,
            Or.inr ⟨body.1, body.2, hbody, rfl, rfl⟩⟩
    · rw [if_pos htag]
      exact Or.inl rfl

theorem sound_closed {sock : Socket} (unread : Bytes) (lock : Mutex T) :
    Slot.Sound ⟨sock.close, unread, lock⟩ := by
  refine ⟨by simp [Socket.close], ?_⟩
  intro hconnected
  cases hconnected

/-- **One request** leaves a sound socket sound, and returns -1 or what its own response says. -/
theorem sound_after (h : s.Sound) (e : ExecTurn) :
    (s.after e).Sound ∧ ((∃ sock, s.exec e = some ⟨-1, none, sock⟩) ∨
      s.exec e = readResponse s.sock.next e.request.resSize e.answer.body) := by
  obtain ⟨hdown, heq⟩ | ⟨husable, heq | ⟨respLen, arrives, hopens, hrest⟩⟩ :=
    execRaw_cases (e.exchange s.unread) s.sock e.request
  · -- it was not connected, and is not connected now
    have hexec : s.exec e = some ⟨-1, none, s.sock⟩ := heq
    refine ⟨⟨?_, ?_⟩, Or.inl ⟨_, hexec⟩⟩
    · simpa [Slot.after, hexec] using h.connected_iff
    · intro hconnected
      rw [Slot.after, hexec] at hconnected
      exact absurd ⟨hconnected, h.connected_iff.1 hconnected⟩ hdown
  · have hexec : s.exec e = some ⟨-1, none, s.sock.next.close⟩ := heq
    refine ⟨?_, Or.inl ⟨_, hexec⟩⟩
    rw [Slot.after, hexec]
    exact sound_closed _ _
  -- it is still connected
  have hkept : ∀ {sock : Socket}, sock = s.sock.next →
      (sock.connected = true ↔ 0 ≤ sock.fd) := by
    rintro sock rfl
    exact h.connected_iff
  rcases h.aligned husable.1 with hnil | ⟨a, ha⟩
  · have harrives : (e.exchange s.unread).arrives = (frame e.answer.body).take e.arrived := by
      rw [ExecTurn.exchange, hnil, List.nil_append]
    rw [harrives] at hopens
    obtain ⟨rfl, hs⟩ := Kamailio.opens_frame hopens
    rcases hrest with ⟨heq, hleft⟩ | ⟨rbuf, rest, hbody, hleft, heq⟩
    · have hexec : s.exec e = some ⟨-1, none, s.sock.next⟩ := heq
      refine ⟨⟨?_, ?_⟩, Or.inl ⟨_, hexec⟩⟩
      · exact hkept (by rw [Slot.after, hexec]; rfl)
      · intro _
        refine Or.inr ⟨e.answer, ?_⟩
        rw [Slot.after, hleft, hnil, List.nil_append]
        exact hs
    · -- with what arrives later, the body is what the frame holds
      have hall := recvAll_later hbody ((frame e.answer.body).drop e.arrived)
      have hwhole := recvAll_body e.answer.body []
      rw [List.append_nil] at hwhole
      rw [hs, hwhole, Option.some.injEq, Prod.mk.injEq] at hall
      obtain ⟨rfl, hdone⟩ := hall
      have hexec : s.exec e = readResponse s.sock.next e.request.resSize e.answer.body := heq
      refine ⟨⟨?_, ?_⟩, Or.inr hexec⟩
      · apply hkept
        rw [Slot.after, hexec]
        cases hread : readResponse s.sock.next e.request.resSize e.answer.body with
        | none => rfl
        | some reply => exact sock_of_readResponse hread
      · intro _
        refine Or.inl ?_
        rw [Slot.after, hleft, hnil, List.nil_append]
        exact hdone.symm
  · have harrives : (e.exchange s.unread).arrives =
        (a.body ++ frame e.answer.body).take e.arrived := by
      rw [ExecTurn.exchange, ha]
    rw [harrives] at hopens
    exact absurd hopens (Kamailio.not_opens_answer a _)

/-! ## Runs -/

theorem sound_modify {slots : List (Slot T)} (h : ∀ s ∈ slots, s.Sound) (i : ℕ)
    {f : Slot T → Slot T} (hf : ∀ s, s.Sound → (f s).Sound) :
    ∀ s ∈ slots.modify i f, s.Sound := by
  intro s hs
  obtain ⟨j, hj⟩ := List.mem_iff_getElem?.1 hs
  by_cases hij : i = j
  · subst hij
    rw [List.getElem?_modify_eq] at hj
    obtain ⟨s', hs', rfl⟩ := Option.map_eq_some_iff.1 hj
    exact hf s' (h s' (List.mem_of_getElem? hs'))
  · rw [List.getElem?_modify_ne _ _ hij] at hj
    exact h s (List.mem_of_getElem? hj)

/-- **One step** keeps every socket sound, and reads no response but one's own. -/
theorem sound_stepSlots [DecidableEq T] {slots : List (Slot T)} (h : ∀ s ∈ slots, s.Sound)
    (a : SlotAction T) : (∀ s ∈ stepSlots slots a, s.Sound) ∧ ReadsOwn slots a := by
  cases a with
  | attempt t i d =>
    refine ⟨sound_modify h i ?_, trivial⟩
    intro s hs
    exact sound_attempt hs t d
  | fallback t d =>
    refine ⟨sound_modify h 0 ?_, trivial⟩
    intro s hs
    exact sound_fallback hs t d
  | exec t i e =>
    refine ⟨sound_modify h i ?_, ?_⟩
    · intro s hs
      split_ifs
      · exact (sound_after hs e).1
      · exact hs
    · intro s hs _
      exact (sound_after (h s (List.mem_of_getElem? hs)) e).2
  | release t i =>
    refine ⟨sound_modify h i ?_, trivial⟩
    intro s hs
    exact sound_lock hs _

/-- **Every request reads its own response.**  In every run of threads that acquire, use and give back
the sockets of a profile, whatever fails, a request over a socket returns -1 or what is read from
its own response; and a socket is connected exactly if it has a descriptor. -/
theorem reads_own [DecidableEq T] (poolSize : ℕ) (l : List (SlotAction T)) :
    AllSteps stepSlots ReadsOwn (freshSlots T poolSize) l ∧
      ∀ s ∈ run stepSlots (freshSlots T poolSize) l,
        s.sock.connected = true ↔ 0 ≤ s.sock.fd := by
  have hfresh : ∀ s ∈ freshSlots T poolSize, s.Sound := by
    intro s hs
    rw [List.eq_of_mem_replicate hs]
    exact ⟨by simp, fun _ => Or.inl rfl⟩
  have hall : AllSteps stepSlots (fun _ _ => True) (freshSlots T poolSize) l :=
    AllSteps.trivial (fun _ _ => trivial) _ l
  have hstep : ∀ (slots : List (Slot T)) a, (∀ s ∈ slots, s.Sound) → True →
      (∀ s ∈ stepSlots slots a, s.Sound) ∧ ReadsOwn slots a := by
    intro slots a hslots _
    exact sound_stepSlots hslots a
  refine ⟨AllSteps.of_invariant hstep hfresh hall, ?_⟩
  intro s hs
  exact (run_invariant (fun slots a hslots h => (hstep slots a hslots h).1) hfresh hall s
    hs).connected_iff

end Asterisk

end VoipBackend
