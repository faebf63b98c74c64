import VoipBackend.Wire.Kamailio
import VoipBackend.Wire.Stream

/-!
# Whose answer is it?

The Kamailio driver takes the frame it reads for the answer to the request it has just
sent.  The server answers the requests of a connection in order, with one frame each, so
this is right as long as nothing of an earlier answer is left in the connection.  Every
error but one closes the connection.  If there is no memory for the body of an answer, the
body stays: the next request reads its first five bytes for the header of a frame, finds
the tag of a map there, and closes the connection.

`answers_paired` is the result: in every run, what a request that returns 1 has decoded is the
answer to that request.
-/

namespace VoipBackend

open Library MsgPack

namespace Kamailio

/-! ## The server -/

/-- The first byte of a map. -/
def MapTag (tag : UInt8) : Prop := tag &&& 0xf0 = 0x80 ∨ tag = 0xde ∨ tag = 0xdf

/-- The body of an answer: at least five bytes, the first of which starts a map. -/
structure Answer where
  body : Bytes
  long : 5 ≤ body.length
  short : body.length < 2 ^ 32
  map : ∃ tag s, body = tag :: s ∧ MapTag tag

/-- What happens around one operation: the system calls, what the server sends, and how much of
it arrives before a receive fails. -/
structure Turn where
  /-- `time(NULL)` at the start of a connection attempt. -/
  now : ℤ
  socket : Option ℕ
  resolves : Bool
  connects : Bool
  /-- The greeting of a new connection. -/
  greeting : Bytes
  length_greeting : greeting.length = tntGreetingSize
  greetingArrived : ℕ
  /-- The login can be sent. -/
  loginTakes : Bool
  loginAnswer : Answer
  loginArrived : ℕ
  /-- The buffer for the answer to the login can be allocated. -/
  loginMalloc : Bool
  /-- The request can be sent. -/
  takes : Bool
  answer : Answer
  arrived : ℕ
  /-- The buffer for the answer can be allocated. -/
  malloc : Bool
  /-- `time(NULL)` when an error is registered. -/
  errorTime : ℤ

/-- A server with the bytes of its connection that are not read yet. -/
structure Link where
  srv : Server
  unread : Bytes

/-- A link of a new worker process. -/
def Link.init (rank : ℕ) : Link := ⟨Server.init rank, []⟩

/-- What is left of a stream behind the frame at its start. -/
def behindFrame (s : Bytes) : Bytes := s.drop (5 + ofBigEndian ((s.take 5).drop 1))

/-- What is left in a new connection: the greeting is read, and the answer to the login if there
is one. -/
def Turn.fresh (config : Config) (t : Turn) : Bytes :=
  let behindGreeting := t.greeting.drop tntGreetingSize
  if config.user = [] then behindGreeting
  else behindFrame (behindGreeting ++ frame t.loginAnswer.body)

/-- What the calls of an operation return, when the request finds these bytes unread. -/
def Turn.net (t : Turn) (unread : Bytes) : Net where
  dial :=
    { now := t.now
      socket := t.socket
      resolves := t.resolves
      connects := t.connects
      greeting := t.greeting.take t.greetingArrived
      login :=
        { takes := t.loginTakes
          sends := (t.greeting.drop tntGreetingSize ++ frame t.loginAnswer.body).take t.loginArrived
          calloc := t.loginMalloc }
      past := 0 }
  answer :=
    { takes := t.takes
      sends := (unread ++ frame t.answer.body).take t.arrived
      calloc := t.malloc }
  errorTime := t.errorTime

/-- The bytes a request finds unread in its connection. -/
def Link.pending (config : Config) (t : Turn) (l : Link) : Bytes :=
  if l.srv.connected = false ∨ l.srv.fd < 0 then t.fresh config else l.unread

/-- A request on the link. -/
def Link.request (core : Core) (config : Config) (l : Link) (t : Turn) (req : Request) :
    Report × Server × Result :=
  Kamailio.request core config (t.net (l.pending config t)) req l.srv

/-! ## Runs -/

/-- An operation on the link: a request, or the connection attempt `tnt_child_init` makes. -/
inductive LinkOp where
  | request (t : Turn) (req : Request)
  | connect (t : Turn)

/-- One operation.  A request leaves what it did not read of what arrived, and what has not
arrived yet. -/
def Link.step (core : Core) (config : Config) (l : Link) : LinkOp → Link
  | .request t req =>
      let (_, srv, result) := l.request core config t req
      ⟨srv, result.unread ++ (l.pending config t ++ frame t.answer.body).drop t.arrived⟩
  | .connect t => ⟨(tntConnConnect core config (t.net []) l.srv).2, t.fresh config⟩

/-- If the operation is a request and returns 1, what it has decoded is the answer to it. -/
def Paired (core : Core) (config : Config) (l : Link) : LinkOp → Prop
  | .request t req =>
      let (_, _, result) := l.request core config t req
      result.rc = 1 → decodeReply core t.answer.body = some result.data
  | .connect _ => True

/-- Nothing is unread in a connection, or the body of one answer is. -/
def Link.Aligned (l : Link) : Prop :=
  l.srv.connected = true → l.unread = [] ∨ ∃ a : Answer, l.unread = a.body

/-! ## What a request finds -/

variable {core : Core} {config : Config}

/-- A new connection has nothing unread. -/
theorem fresh_eq_nil (t : Turn) : t.fresh config = [] := by
  have hgreeting : t.greeting.drop tntGreetingSize = [] :=
    List.drop_eq_nil_of_le (le_of_eq t.length_greeting)
  unfold Turn.fresh
  simp only [hgreeting, List.nil_append]
  split_ifs
  · rfl
  have hheader : ((frame t.loginAnswer.body).take 5).drop 1 =
      (0xce :: bigEndian 4 t.loginAnswer.body.length : Bytes).drop 1 := by
    have hlen : (0xce :: bigEndian 4 t.loginAnswer.body.length : Bytes).length = 5 := by simp
    rw [frame, ← hlen, List.take_left]
  rw [behindFrame, hheader, ofBigEndian_header t.loginAnswer.short]
  exact List.drop_eq_nil_of_le (by simp)

/-- A request finds an aligned connection. -/
theorem Link.Aligned.pending {l : Link} (hl : l.Aligned) (t : Turn) :
    l.pending config t = [] ∨ ∃ a : Answer, l.pending config t = a.body := by
  unfold Link.pending
  split_ifs with hdown
  · exact Or.inl (fresh_eq_nil t)
  · push Not at hdown
    exact hl (by simpa using hdown.1)

theorem not_mapTag_frame : ¬ MapTag 0xce := by
  unfold MapTag
  decide

/-- The body of an answer does not open a frame. -/
theorem not_opens_answer (a : Answer) (s : Bytes) {arrived respLen : ℕ} {rest : Bytes} :
    ¬ Opens ((a.body ++ s).take arrived) respLen rest := by
  rintro ⟨respHdr, hhdr, htag, -⟩
  obtain ⟨tag, body, hbody, hmap⟩ := a.map
  have hfirst := head?_of_recvAll (recvAll_of_take hhdr) (by norm_num)
  rw [htag, hbody, List.cons_append, List.head?_cons] at hfirst
  rw [← Option.some.inj hfirst] at hmap
  exact not_mapTag_frame hmap

/-- What opens the frame of an answer. -/
theorem opens_frame {a : Answer} {arrived respLen : ℕ} {s : Bytes}
    (h : Opens ((frame a.body).take arrived) respLen s) :
    respLen = a.body.length ∧ s ++ (frame a.body).drop arrived = a.body := by
  obtain ⟨respHdr, hhdr, -, hlen⟩ := h
  have hall := recvAll_of_take hhdr
  have hheader := recvAll_header a.body []
  rw [List.append_nil] at hheader
  rw [hheader, Option.some.injEq, Prod.mk.injEq, List.append_nil] at hall
  obtain ⟨hrespHdr, hs⟩ := hall
  rw [← hrespHdr, ofBigEndian_header a.short] at hlen
  exact ⟨hlen.symm, hs.symm⟩

/-! ## What a request leaves -/

theorem connected_tntConnFail (now : ℤ) (srv : Server) :
    (tntConnFail config now srv).connected = false := by
  unfold tntConnFail
  simp only
  split_ifs <;> rfl

/-- An attempt that does not establish the connection leaves none. -/
theorem connected_of_not_completed {net : Net} {srv : Server}
    (h : (getConnection core config net srv).1.exit ≠ .completed) :
    (getConnection core config net srv).2.connected = false := by
  unfold getConnection at h ⊢
  split_ifs at h ⊢
  · rcases tntConnConnect_cases core config net srv with ⟨-, -, heq⟩ |
      ⟨-, ⟨exit, fd, -, -, -, hview⟩ | ⟨exit, sent, -, -, hview⟩ | ⟨sent, -, hreport, -⟩⟩
    · rw [heq]
      rfl
    · exact congrArg View.usable hview
    · have husable := congrArg View.usable hview
      rw [View.fault] at husable
      split_ifs at husable <;> exact husable
    · rw [hreport] at h
      exact absurd rfl h
  · exact absurd rfl h

/-- **What a request does in an aligned connection.**  It leaves no connection and does not
return 1; it leaves the body of its answer unread and does not return 1; or it reads its
answer, leaves nothing, and has decoded the answer if it returns 1. -/
theorem tntExec_aligned {t : Turn} {unread : Bytes}
    (hunread : unread = [] ∨ ∃ a : Answer, unread = a.body) (req : Request) (r : Report)
    (srv : Server) {r' : Report} {srv' : Server} {result : Result}
    (hexec : tntExec core config (t.net unread) req r srv = (r', srv', result)) :
    (srv'.connected = true → result.unread ++ (unread ++ frame t.answer.body).drop t.arrived = [] ∨
        ∃ a : Answer, result.unread ++ (unread ++ frame t.answer.body).drop t.arrived = a.body) ∧
      (result.rc = 1 → decodeReply core t.answer.body = some result.data) := by
  obtain ⟨sent, ⟨exit, -, heq⟩ | ⟨respLen, s, hopens, hrest⟩⟩ :=
    tntExec_cases core config (t.net unread) req r srv
  · rw [heq] at hexec
    cases hexec
    refine ⟨fun hconnected => ?_, fun hrc => by cases hrc⟩
    rw [connected_tntConnFail] at hconnected
    cases hconnected
  rcases hunread with rfl | ⟨a, rfl⟩
  · obtain ⟨rfl, hs⟩ := opens_frame hopens
    rw [List.nil_append]
    rcases hrest with heq | ⟨respBody, rest, hbody, hdecode⟩
    · rw [heq] at hexec
      cases hexec
      exact ⟨fun _ => Or.inr ⟨t.answer, hs⟩, fun hrc => by cases hrc⟩
    · -- with what arrives later, the body is what the frame holds
      have hall := recvAll_later hbody ((frame t.answer.body).drop t.arrived)
      have hwhole := recvAll_body t.answer.body []
      rw [List.append_nil] at hwhole
      rw [hs, hwhole, Option.some.injEq, Prod.mk.injEq] at hall
      obtain ⟨rfl, hnil⟩ := hall
      rcases hdecode with ⟨-, heq⟩ | ⟨data, hdata, heq⟩
      · rw [heq] at hexec
        cases hexec
        exact ⟨fun _ => Or.inl hnil.symm, fun hrc => by cases hrc⟩
      · rw [heq] at hexec
        cases hexec
        exact ⟨fun _ => Or.inl hnil.symm, fun _ => hdata⟩
  · exact absurd hopens (not_opens_answer a _)

/-- **One operation** keeps the link aligned, and is paired. -/
theorem step_aligned {l : Link} (hl : l.Aligned) (op : LinkOp) :
    (l.step core config op).Aligned ∧ Paired core config l op := by
  cases op with
  | connect t => exact ⟨fun _ => Or.inl (fresh_eq_nil t), trivial⟩
  | request t req =>
    have hpending : l.pending config t = [] ∨ ∃ a : Answer, l.pending config t = a.body :=
      hl.pending t
    by_cases hexit : (getConnection core config (t.net (l.pending config t)) l.srv).1.exit =
      .completed
    · have hrequest : l.request core config t req =
          tntExec core config (t.net (l.pending config t)) req
            (getConnection core config (t.net (l.pending config t)) l.srv).1
            (getConnection core config (t.net (l.pending config t)) l.srv).2 :=
        if_neg (not_not.2 hexit)
      rw [Link.step, Paired, hrequest]
      exact tntExec_aligned hpending req _ _ rfl
    · have hrequest : l.request core config t req =
          ((getConnection core config (t.net (l.pending config t)) l.srv).1,
            (getConnection core config (t.net (l.pending config t)) l.srv).2, .failed) :=
        if_pos hexit
      rw [Link.step, Paired, hrequest]
      refine ⟨fun hconnected => ?_, fun hrc => by cases hrc⟩
      have hdown := connected_of_not_completed hexit
      rw [hdown] at hconnected
      cases hconnected

/-- **Answers are paired with their requests**, in every run of requests from a new worker
process. -/
theorem answers_paired (core : Core) (config : Config) (rank : ℕ) (l : List LinkOp) :
    AllSteps (Link.step core config) (Paired core config) (Link.init rank) l :=
  AllSteps.of_invariant (I := Link.Aligned) (P := fun _ _ => True)
    (fun _ op hl _ => step_aligned hl op) (fun _ => Or.inl rfl)
    (AllSteps.trivial (fun _ _ => trivial) _ l)

end Kamailio

end VoipBackend
