import VoipBackend.Wire.Kamailio
import VoipBackend.Wire.OpenSips
import VoipBackend.Wire.RtpEngine

/-!
# Are failing connections left alone?

The three drivers count errors and disable a connection that has too many in a row.  Their
connections are well kept whatever the network does (`drivers_wellKept`).

What they count is less than that.  Every connection that is established sets the count
back, and the error that follows closes it again: requests that fail one after another,
each on a connection made for it, never add up (`failures_on_new_connections`).  A driver
that finds a cool-down over starts a new count, too, and some failures are not counted at
all.  Where none of this is in the way, the errors do disable the connection
(`drivers_trip`); the condition is one on the operations and on the connections they
find.
-/

namespace VoipBackend

open Library

/-- **The connections of the three drivers are well kept**, in every run from a new
connection. -/
theorem drivers_wellKept :
    (∀ tcon, (OpenSips.driver tcon).WellKept OpenSips.Conn.init) ∧
      (∀ config, (RtpEngine.driver config).WellKept RtpEngine.Client.init) ∧
      ∀ core config rank, (Kamailio.driver core config).WellKept (Kamailio.Server.init rank) := by
  refine ⟨fun tcon => ?_, fun config => ?_, fun core config rank => ?_⟩
  · exact (OpenSips.disciplined tcon).wellKept OpenSips.sound_init
  · exact (RtpEngine.disciplined config).wellKept RtpEngine.sound_init
  · exact (Kamailio.disciplined core config).wellKept (Kamailio.sound_init rank)

/-! ## Counting -/

/-- RTPEngine: an operation that sets the count back registers no error. -/
theorem RtpEngine.registers_of_clears (op : RtpEngine.Op) (e : Exit)
    (h : RtpEngine.clears op e = true) : RtpEngine.registers op e = none := by
  cases op <;> cases e <;> first | rfl | cases h

/-- Kamailio: an operation that sets the count back registers no error. -/
theorem Kamailio.registers_of_clears (op : Kamailio.Op) (e : Exit)
    (h : Kamailio.clears op e = true) : Kamailio.registers op e = none := by
  cases op <;> cases e <;> first | rfl | cases h

/-- **The three drivers trip on the errors they register**, in every run from a new
connection. -/
theorem drivers_tripOnRegistered :
    (∀ tcon, (OpenSips.driver tcon).TripsOnRegistered OpenSips.Conn.init) ∧
      (∀ config, (RtpEngine.driver config).TripsOnRegistered RtpEngine.Client.init) ∧
      ∀ core config rank,
        (Kamailio.driver core config).TripsOnRegistered (Kamailio.Server.init rank) := by
  refine ⟨fun tcon => ?_, fun config => ?_, fun core config rank => ?_⟩
  · refine (OpenSips.disciplined tcon).tripsOnRegistered ?_ OpenSips.sound_init
    intro op e h
    cases h
  · exact (RtpEngine.disciplined config).tripsOnRegistered RtpEngine.registers_of_clears
      RtpEngine.sound_init
  · exact (Kamailio.disciplined core config).tripsOnRegistered Kamailio.registers_of_clears
      (Kamailio.sound_init rank)

/-! ## When failures add up -/

namespace Driver

variable {d : Driver} {c : d.Conn}

/-- As many communication errors in a row as are allowed leave the connection disabled, in
every run, if all of them are `Counted`, and none after the first finds the connection
disabled or `Reconnects`; the deadline counts from the last of them. -/
def TripsWhen (d : Driver) (Counted Reconnects : d.Conn → d.Op → Prop) (c : d.Conn) : Prop :=
  ∀ (l : List d.Op) (op : d.Op) (w : List d.Op), ((op :: w).length : ℤ) = d.allowed →
    AllSteps d.step d.Fails (run d.step c l) (op :: w) →
    AllSteps d.step Counted (run d.step c l) (op :: w) →
    AllSteps d.step (fun c op => (d.view c).disabled = false ∧ ¬ Reconnects c op)
      (d.step (run d.step c l) op) w →
    (d.view (run d.step c (l ++ op :: w))).disabled = true ∧
      ∃ l' last t, op :: w = l' ++ [last] ∧
        d.registers last (d.exec last (run d.step c (l ++ l'))).1.exit = some t ∧
        (d.view (run d.step c (l ++ op :: w))).deadline = t + d.disableTime

/-- A move that finds a cool-down over starts from a disabled connection. -/
theorem retried_eq_false {op : d.Op} {v v' : View} {r : Report} (h : Moves d op v r v')
    (hv : v.disabled = false) : r.retried = false := by
  cases h with
  | idle => rfl
  | down => exact hv
  | unreachable => exact hv
  | used hgets _ =>
    cases hgets with
    | usable => rfl
    | established => exact hv

/-- Registered errors add up, so counted failures do, if every failure that is counted is
registered and every connection that is established is a reconnect. -/
theorem TripsOnRegistered.tripsWhen {Counted Reconnects : d.Conn → d.Op → Prop}
    (htrips : d.TripsOnRegistered c) (hd : d.Disciplined) (hc : (d.view c).Sound)
    (hcounted : ∀ c op, d.Fails c op → Counted c op → d.Registers c op)
    (hreconnects : ∀ c op, (d.exec op c).1.established = true → Reconnects c op) :
    d.TripsWhen Counted Reconnects c := by
  intro l op w hlen hfails hcount hsteady
  refine htrips l op w hlen (hcounted _ _ hfails.1 hcount.1) ?_
  have hsound : (d.view (d.step (run d.step c l) op)).Sound :=
    (hd op _ (sound_run hd hc l)).sound (sound_run hd hc l)
  have hall := ((AllSteps.and hfails.2 hcount.2).and hsteady)
  refine AllSteps.of_invariant (I := fun c => (d.view c).Sound) ?_ hsound hall
  rintro c op hs ⟨⟨hfail, hcounts⟩, henabled, hnot⟩
  have hmoves := hd op c hs
  refine ⟨hmoves.sound hs, hcounted _ _ hfail hcounts, retried_eq_false hmoves henabled, ?_⟩
  rw [Bool.eq_false_iff]
  exact fun hestablished => hnot (hreconnects _ _ hestablished)

end Driver

/-- `connect()` fails. -/
def Dial.Refused (d : Dial) : Prop := 0 ≤ d.fd ∧ d.resolves = true ∧ d.connects = false

/-- The attempt gets a connection that is logged in; `auth` is what the login returns for a
salt. -/
def Dial.Lands (d : Dial) (auth : Bytes → ℤ) : Prop :=
  0 ≤ d.fd ∧ d.resolves = true ∧ d.connects = true ∧
    ∃ greeting rest, recvAll d.greeting tntGreetingSize = some (greeting, rest) ∧
      0 ≤ auth (saltOf greeting)

namespace OpenSips

variable {tcon : Cluster}

/-- The operation tries to connect: a request, if the connection is not usable. -/
def Dials (c : Conn) : Op → Prop
  | .request _ _ => c.sockFd < 0 ∨ c.state ≠ .authenticated
  | .connect _ => True

/-- An attempt of this cluster lands. -/
def Lands (tcon : Cluster) (d : Dial) : Prop :=
  d.Lands fun salt => (tntAuthScramble tcon.user tcon.pass salt d.login d.past).1

/-- `tnt_connect_single` counts the failure of `connect()` only: an attempt fails there, or
it lands. -/
def Counted (tcon : Cluster) (c : Conn) (op : Op) : Prop :=
  Dials c op → op.net.dial.Refused ∨ Lands tcon op.net.dial

/-- The operation establishes the connection. -/
def Reconnects (tcon : Cluster) (c : Conn) (op : Op) : Prop :=
  Dials c op ∧ Lands tcon op.net.dial

/-- An attempt that establishes the connection lands; one that loses it at the greeting or
the login was not refused and does not land. -/
theorem tntConnectSingle_report (tcon : Cluster) (net : Net) (c : Conn) :
    ((tntConnectSingle tcon net c).1.established = true → Lands tcon net.dial) ∧
      ((tntConnectSingle tcon net c).1.exit = .greetingFailed ∨
          (tntConnectSingle tcon net c).1.exit = .authFailed →
        ¬ net.dial.Refused ∧ ¬ Lands tcon net.dial) := by
  unfold tntConnectSingle
  by_cases hcool : c.state = .disabled ∧ net.dial.now < c.disabledUntil
  · simp [hcool]
  simp only [if_neg hcool]
  by_cases hsocket : net.dial.fd < 0
  · simp [hsocket]
  simp only [if_neg hsocket]
  by_cases hresolves : net.dial.resolves = false
  · simp [hresolves]
  simp only [if_neg hresolves]
  by_cases hconnects : net.dial.connects = false
  · simp [hconnects]
  simp only [if_neg hconnects]
  have hrefused : ¬ net.dial.Refused := fun h => hconnects h.2.2
  cases hgreeting : recvAll net.dial.greeting tntGreetingSize with
  | none =>
    refine ⟨fun h => by simp at h, fun _ => ⟨hrefused, ?_⟩⟩
    rintro ⟨-, -, -, greeting, rest, h, -⟩
    rw [hgreeting] at h
    cases h
  | some g =>
    by_cases hauth : (tntAuthScramble tcon.user tcon.pass (saltOf g.1) net.dial.login
        net.dial.past).1 < 0
    · simp only [if_pos hauth]
      refine ⟨fun h => by simp at h, fun _ => ⟨hrefused, ?_⟩⟩
      rintro ⟨-, -, -, greeting, rest, h, hpass⟩
      rw [hgreeting] at h
      cases h
      exact absurd hauth (not_lt.2 hpass)
    · have hlands : Lands tcon net.dial := ⟨not_lt.1 hsocket, by simpa using hresolves,
        by simpa using hconnects, g.1, g.2, hgreeting, not_lt.1 hauth⟩
      refine ⟨fun _ => hlands, fun h => ?_⟩
      simp only [if_neg hauth] at h
      split_ifs at h <;> simp at h

/-- A connection attempt sends no request and waits for no answer. -/
theorem tntConnectSingle_exit (tcon : Cluster) (net : Net) (c : Conn) :
    (tntConnectSingle tcon net c).1.exit ≠ .sendFailed ∧
      (tntConnectSingle tcon net c).1.exit ≠ .receiveFailed := by
  rcases tntConnectSingle_cases tcon net c with heq | ⟨-, ⟨exit, sent, fd, hexit, -, heq⟩ | heq |
    ⟨sent, c', spaceId, -, -, heq⟩⟩
  · simp [heq]
  · rw [heq]
    rcases hexit with rfl | rfl | rfl | rfl <;> simp
  · simp [heq]
  · simp [heq]

/-- What a request does with the connection it got ends in no failure to get one, and the
report says of the connection what it said before. -/
theorem query_report (tcon : Cluster) (net : Net) (req : Request) (r : Report) (c : Conn)
    (spaceId : ℕ) :
    (query tcon net req r c spaceId).1.established = r.established ∧
      (query tcon net req r c spaceId).1.exit ≠ .greetingFailed ∧
      (query tcon net req r c spaceId).1.exit ≠ .authFailed := by
  unfold query
  simp only
  split_ifs
  · simp
  · split
    · simp
    · split_ifs <;> simp

/-- A request that establishes the connection, or fails at the greeting or the login, made the
attempt that did so. -/
theorem request_report (tcon : Cluster) (net : Net) (req : Request) (c : Conn) :
    ((request tcon net req c).1.established = true → Dials c (.request net req) ∧
        (tntConnectSingle tcon net c).1.established = true) ∧
      ((request tcon net req c).1.exit = .greetingFailed ∨
          (request tcon net req c).1.exit = .authFailed → Dials c (.request net req) ∧
        ((tntConnectSingle tcon net c).1.exit = .greetingFailed ∨
          (tntConnectSingle tcon net c).1.exit = .authFailed)) := by
  unfold request tntGetConn
  split_ifs with hdown
  · by_cases hdone : (tntConnectSingle tcon net c).1.exit = .completed
    · obtain ⟨hestablished, hgreeting, hauth⟩ := query_report tcon net req
        (tntConnectSingle tcon net c).1 (tntConnectSingle tcon net c).2.1
        (tntConnectSingle tcon net c).2.2
      simp only [hdone, ne_eq, not_true_eq_false, if_false, hestablished]
      refine ⟨fun h => ⟨hdown, h⟩, fun h => ?_⟩
      exact absurd h (not_or.2 ⟨hgreeting, hauth⟩)
    · simp only [hdone, ne_eq, not_false_eq_true, if_true]
      exact ⟨fun h => ⟨hdown, h⟩, fun h => ⟨hdown, h⟩⟩
  · obtain ⟨hestablished, hgreeting, hauth⟩ := query_report tcon net req .usable c net.spaceId
    simp only [Report.usable, ne_eq, not_true_eq_false, if_false] at hestablished hgreeting hauth ⊢
    rw [hestablished]
    exact ⟨(fun h => by cases h), fun h => absurd h (not_or.2 ⟨hgreeting, hauth⟩)⟩

/-- A failure that is counted is registered. -/
theorem registers_of_counted {c : Conn} {op : Op} (hfails : (driver tcon).Fails c op)
    (hcounted : Counted tcon c op) : (driver tcon).Registers c op := by
  have hlost : Dials c op → ((tntConnectSingle tcon op.net c).1.exit = .greetingFailed ∨
      (tntConnectSingle tcon op.net c).1.exit = .authFailed) → False := by
    intro hdials hexit
    obtain ⟨hrefused, hlands⟩ := (tntConnectSingle_report tcon op.net c).2 hexit
    exact (hcounted hdials).elim hrefused hlands
  unfold Driver.Fails Exit.IsCommunicationError at hfails
  unfold Driver.Registers
  cases op with
  | connect net =>
    obtain ⟨hsend, hreceive⟩ := tntConnectSingle_exit tcon net c
    rcases hfails with h | h | h | h | h
    · exact ⟨_, by rw [h]; rfl⟩
    · exact (hlost True.intro (Or.inl h)).elim
    · exact (hlost True.intro (Or.inr h)).elim
    · exact absurd h hsend
    · exact absurd h hreceive
  | request net req =>
    have hreport := (request_report tcon net req c).2
    rcases hfails with h | h | h | h | h
    · exact ⟨_, by rw [h]; rfl⟩
    · exact (hlost (hreport (Or.inl h)).1 (hreport (Or.inl h)).2).elim
    · exact (hlost (hreport (Or.inr h)).1 (hreport (Or.inr h)).2).elim
    · exact ⟨_, by rw [h]; rfl⟩
    · exact ⟨_, by rw [h]; rfl⟩

theorem reconnects_of_established {c : Conn} {op : Op}
    (h : ((driver tcon).exec op c).1.established = true) : Reconnects tcon c op := by
  cases op with
  | connect net => exact ⟨True.intro, (tntConnectSingle_report tcon net c).1 h⟩
  | request net req =>
    obtain ⟨hdials, hestablished⟩ := (request_report tcon net req c).1 h
    exact ⟨hdials, (tntConnectSingle_report tcon net c).1 hestablished⟩

end OpenSips

namespace RtpEngine

variable {config : Config}

/-- The operation tries to connect: a request, if the connection is not usable. -/
def Dials (c : Client) : Op → Prop
  | .connect _ => True
  | _ => c.sockFd < 0 ∨ c.state ≠ .authenticated

/-- An attempt of this client lands. -/
def Lands (config : Config) (d : Dial) (c : Client) : Prop :=
  d.Lands fun salt =>
    (tntAuthScramble config.user config.password salt c.syncId d.login d.past).1

/-- What goes wrong in `restore_calls` is counted only if it is the attempt to connect. -/
def Counted (config : Config) (c : Client) (op : Op) : Prop :=
  ∀ net nodeId, op = .restoreCalls net nodeId → Dials c op ∧ ¬ Lands config net.dial c

/-- The operation establishes the connection. -/
def Reconnects (config : Config) (c : Client) (op : Op) : Prop :=
  Dials c op ∧ Lands config op.net.dial c

/-- The sync id has no part in what the login returns. -/
theorem lands_syncId (d : Dial) (c : Client) (syncId : UInt64) :
    Lands config d { c with syncId := syncId } ↔ Lands config d c := by
  have hauth : ∀ salt a b,
      (tntAuthScramble config.user config.password salt a d.login d.past).1 =
        (tntAuthScramble config.user config.password salt b d.login d.past).1 := by
    intro salt a b
    unfold tntAuthScramble
    dsimp only
    split_ifs <;> rfl
  unfold Lands
  simp only [hauth _ syncId c.syncId]

/-- An attempt that establishes the connection lands. -/
theorem lands_of_established {d : Dial} {c : Client}
    (h : (rtpeTarantoolConnect config d c).1.established = true) : Lands config d c := by
  revert h
  unfold rtpeTarantoolConnect
  by_cases hcool : c.state = .disabled ∧ d.now < c.disabledUntil
  · simp [hcool]
  simp only [if_neg hcool]
  by_cases hsocket : d.fd < 0
  · simp [hsocket]
  simp only [if_neg hsocket]
  by_cases hresolves : d.resolves = false
  · simp [hresolves]
  simp only [if_neg hresolves]
  by_cases hconnects : d.connects = false
  · simp [hconnects]
  simp only [if_neg hconnects]
  cases hgreeting : recvAll d.greeting tntGreetingSize with
  | none => simp
  | some g =>
    by_cases hauth : (tntAuthScramble config.user config.password (saltOf g.1) c.rearm.close.syncId
        d.login d.past).1 < 0
    · simp [hauth]
    · intro _
      have hlands : Lands config d { c with syncId := c.rearm.close.syncId } :=
        ⟨not_lt.1 hsocket, by simpa using hresolves, by simpa using hconnects, g.1, g.2, hgreeting,
          not_lt.1 hauth⟩
      exact (lands_syncId d c _).1 hlands

/-- What a connection attempt comes to. -/
theorem rtpeTarantoolConnect_exit (config : Config) (d : Dial) (c : Client) :
    (rtpeTarantoolConnect config d c).1.exit ≠ .sendFailed ∧
      (rtpeTarantoolConnect config d c).1.exit ≠ .receiveFailed ∧
      ((rtpeTarantoolConnect config d c).1.exit = .completed →
        (rtpeTarantoolConnect config d c).1.established = true) := by
  unfold rtpeTarantoolConnect
  dsimp only
  split_ifs
  · simp
  · simp
  · simp
  · simp
  · split
    · simp
    · split_ifs <;> simp

/-- A connection an operation gets is the one it found, or one that landed. -/
theorem getConnection_report (config : Config) (d : Dial) (c : Client) :
    ((getConnection config d c).1.established = true →
        (c.sockFd < 0 ∨ c.state ≠ .authenticated) ∧ Lands config d c) ∧
      ((c.sockFd < 0 ∨ c.state ≠ .authenticated) → (getConnection config d c).1.exit = .completed →
        Lands config d c) ∧
      (getConnection config d c).1.exit ≠ .sendFailed ∧
      (getConnection config d c).1.exit ≠ .receiveFailed := by
  obtain ⟨hsend, hreceive, hcompleted⟩ := rtpeTarantoolConnect_exit config d c
  unfold getConnection
  split_ifs with hdown
  · exact ⟨fun h => ⟨hdown, lands_of_established h⟩,
      fun _ h => lands_of_established (hcompleted h), hsend, hreceive⟩
  · simp [Report.usable, hdown]

theorem sendOneWay_report (config : Config) (net : Net) (packet : Option Bytes) (c : Client) :
    ((sendOneWay config net packet c).1.established = true →
        (c.sockFd < 0 ∨ c.state ≠ .authenticated) ∧ Lands config net.dial c) ∧
      (sendOneWay config net packet c).1.exit ≠ .receiveFailed := by
  obtain ⟨hestablished, -, -, hreceive⟩ := getConnection_report config net.dial c
  unfold sendOneWay
  cases packet with
  | none => simp
  | some packet =>
    simp only
    split_ifs with hexit
    · exact ⟨hestablished, hreceive⟩
    · exact ⟨hestablished, by simp⟩
    · exact ⟨hestablished, hreceive⟩

theorem restoreCalls_report (config : Config) (net : Net) (nodeId : Bytes) (c : Client) :
    ((restoreCalls config net nodeId c).1.established = true →
        (c.sockFd < 0 ∨ c.state ≠ .authenticated) ∧ Lands config net.dial c) ∧
      ((restoreCalls config net nodeId c).1.exit = .sendFailed ∨
          (restoreCalls config net nodeId c).1.exit = .receiveFailed →
        (c.sockFd < 0 ∨ c.state ≠ .authenticated) → Lands config net.dial c) := by
  obtain ⟨hestablished, hcompleted, hsend, hreceive⟩ := getConnection_report config net.dial c
  unfold restoreCalls
  simp only
  split_ifs with hexit
  · exact ⟨hestablished, fun h => absurd h (not_or.2 ⟨hsend, hreceive⟩)⟩
  · exact ⟨hestablished, fun _ hdown => hcompleted hdown (not_not.1 hexit)⟩
  · rw [ne_eq, not_not] at hexit
    split
    · exact ⟨hestablished, fun _ hdown => hcompleted hdown hexit⟩
    · exact ⟨hestablished, fun _ hdown => hcompleted hdown hexit⟩

/-- A failure that is counted is registered. -/
theorem registers_of_counted {c : Client} {op : Op} (hfails : (driver config).Fails c op)
    (hcounted : Counted config c op) : (driver config).Registers c op := by
  unfold Driver.Fails Exit.IsCommunicationError at hfails
  unfold Driver.Registers
  rcases hfails with h | h | h | h | h
  · exact ⟨_, by rw [h]; rfl⟩
  · exact ⟨_, by rw [h]; rfl⟩
  · exact ⟨_, by rw [h]; rfl⟩
  · -- a request that cannot be sent
    cases op with
    | connect net => exact absurd h (rtpeTarantoolConnect_exit _ _ _).1
    | saveCall net info => exact ⟨_, by rw [h]; rfl⟩
    | deleteCall net callId => exact ⟨_, by rw [h]; rfl⟩
    | restoreCalls net nodeId =>
      obtain ⟨hdown, hnot⟩ := hcounted net nodeId rfl
      exact absurd ((restoreCalls_report _ net nodeId c).2 (Or.inl h) hdown) hnot
  · -- a frame that cannot be read
    cases op with
    | connect net => exact absurd h (rtpeTarantoolConnect_exit _ _ _).2.1
    | saveCall net info => exact absurd h (sendOneWay_report _ _ _ _).2
    | deleteCall net callId => exact absurd h (sendOneWay_report _ _ _ _).2
    | restoreCalls net nodeId =>
      obtain ⟨hdown, hnot⟩ := hcounted net nodeId rfl
      exact absurd ((restoreCalls_report _ net nodeId c).2 (Or.inr h) hdown) hnot

theorem reconnects_of_established {c : Client} {op : Op}
    (h : ((driver config).exec op c).1.established = true) : Reconnects config c op := by
  cases op with
  | connect net =>
    have hlands : Lands config.withDefaults net.dial c := lands_of_established h
    exact ⟨True.intro, hlands⟩
  | saveCall net info =>
    obtain ⟨hdown, hlands⟩ := (sendOneWay_report _ _ _ _).1 h
    exact ⟨hdown, (lands_syncId net.dial c _).1 hlands⟩
  | deleteCall net callId =>
    obtain ⟨hdown, hlands⟩ := (sendOneWay_report _ _ _ _).1 h
    exact ⟨hdown, (lands_syncId net.dial c _).1 hlands⟩
  | restoreCalls net nodeId => exact (restoreCalls_report config.withDefaults net nodeId c).1 h

end RtpEngine

namespace Kamailio

variable {core : Core} {config : Config}

/-- The operation tries to connect: a request, if the connection is not usable. -/
def Dials (srv : Server) : Op → Prop
  | .request _ _ => srv.connected = false ∨ srv.fd < 0
  | .connect _ => True

/-- An attempt of this server lands. -/
def Lands (core : Core) (config : Config) (d : Dial) (srv : Server) : Prop :=
  d.Lands fun salt => (tntAuthScramble core config salt srv.syncId d.login).1

/-- The operation establishes the connection. -/
def Reconnects (core : Core) (config : Config) (srv : Server) (op : Op) : Prop :=
  Dials srv op ∧ Lands core config op.net.dial srv

/-- An attempt that establishes the connection lands. -/
theorem lands_of_established {net : Net} {srv : Server}
    (h : (tntConnConnect core config net srv).1.established = true) :
    Lands core config net.dial srv := by
  revert h
  unfold tntConnConnect
  by_cases hcool : (tntConnClose srv).disabled = true ∧
      net.dial.now < (tntConnClose srv).restoreTick
  · simp [hcool]
  simp only [if_neg hcool]
  by_cases hsocket : net.dial.fd < 0
  · simp [hsocket]
  simp only [if_neg hsocket]
  by_cases hresolves : net.dial.resolves = false
  · simp [hresolves]
  simp only [if_neg hresolves]
  by_cases hconnects : net.dial.connects = false
  · simp [hconnects]
  simp only [if_neg hconnects]
  have hsync : (tntConnClose srv).rearm.syncId = srv.syncId := by
    unfold Server.rearm
    split_ifs <;> rfl
  cases hgreeting : recvAll net.dial.greeting tntGreetingSize with
  | none => simp
  | some g =>
    rw [hsync]
    by_cases hauth : (tntAuthScramble core config (saltOf g.1) srv.syncId net.dial.login).1 < 0
    · simp [hauth]
    · exact fun _ => ⟨not_lt.1 hsocket, by simpa using hresolves, by simpa using hconnects, g.1, g.2,
        hgreeting, not_lt.1 hauth⟩

theorem reconnects_of_established {srv : Server} {op : Op}
    (h : ((driver core config).exec op srv).1.established = true) :
    Reconnects core config srv op := by
  cases op with
  | connect net => exact ⟨True.intro, lands_of_established h⟩
  | request net req =>
    have hexec : (request core config net req srv).1.established =
        (getConnection core config net srv).1.established := by
      unfold request
      dsimp only
      split_ifs
      · rfl
      · obtain ⟨sent, ⟨_, -, heq⟩ | ⟨_, _, -, heq | ⟨_, _, -, ⟨-, heq⟩ | ⟨_, -, heq⟩⟩⟩⟩ :=
          tntExec_cases core config net req (getConnection core config net srv).1
            (getConnection core config net srv).2
        all_goals rw [heq]
    have hget : (getConnection core config net srv).1.established = true := hexec ▸ h
    unfold getConnection at hget
    split_ifs at hget with hdown
    · exact ⟨hdown, lands_of_established hget⟩
    · cases hget

end Kamailio

/-- **Failures add up, on a connection that is not replaced.**  In every run of a driver the
last `allowed` operations disable the connection if each ended in a communication error, each
of these errors is one the driver counts, and none of them after the first found a cool-down
over or made the connection anew.  The Kamailio driver counts them all. -/
theorem drivers_trip (tcon : OpenSips.Cluster) (rtpengine : RtpEngine.Config) (core : Kamailio.Core)
    (kamailio : Kamailio.Config) (rank : ℕ) :
    (OpenSips.driver tcon).TripsWhen (OpenSips.Counted tcon) (OpenSips.Reconnects tcon)
        OpenSips.Conn.init ∧
      (RtpEngine.driver rtpengine).TripsWhen (RtpEngine.Counted rtpengine)
        (RtpEngine.Reconnects rtpengine) RtpEngine.Client.init ∧
      (Kamailio.driver core kamailio).TripsWhen (fun _ _ => True)
        (Kamailio.Reconnects core kamailio) (Kamailio.Server.init rank) := by
  obtain ⟨hopensips, hrtpengine, hkamailio⟩ := drivers_tripOnRegistered
  refine ⟨?_, ?_, ?_⟩
  · exact (hopensips tcon).tripsWhen (OpenSips.disciplined tcon) OpenSips.sound_init
      (fun _ _ => OpenSips.registers_of_counted) fun _ _ => OpenSips.reconnects_of_established
  · exact (hrtpengine rtpengine).tripsWhen (RtpEngine.disciplined rtpengine) RtpEngine.sound_init
      (fun _ _ => RtpEngine.registers_of_counted) fun _ _ => RtpEngine.reconnects_of_established
  · refine (hkamailio core kamailio rank).tripsWhen (Kamailio.disciplined core kamailio)
      (Kamailio.sound_init rank) (fun srv op hfails _ => ?_)
      fun _ _ => Kamailio.reconnects_of_established
    unfold Driver.Fails Exit.IsCommunicationError at hfails
    rcases hfails with h | h | h | h | h <;> exact ⟨_, by rw [h]; rfl⟩

/-! ## A connection for every request -/

/-- A connection attempt that lands at a server without a login. -/
def Dial.landing : Dial := ⟨0, some 3, true, true, List.replicate 128 0, ⟨true, [], true⟩, 0⟩

/-- `tarantool_get`, on a connection that breaks before the packet is out. -/
def OpenSips.brokenRequest : OpenSips.Op :=
  .request ⟨.landing, ⟨true, [], true⟩, 0, ⟨false, [], true⟩, 0, 0, 0, 512⟩ (.get (ascii "k"))

/-- `rtpe_tarantool_delete_call`, on such a connection. -/
def RtpEngine.brokenRequest : RtpEngine.Op :=
  .deleteCall ⟨.landing, [], false, [], [], fun s => (0, s), 0⟩ (some (ascii "k"))

/-- `tnt_exec_call`, on such a connection. -/
def Kamailio.brokenRequest : Kamailio.Op :=
  .request ⟨.landing, ⟨false, [], true⟩, 0⟩ (.call (ascii "f") none)

/-- A run of failures from the start that leaves the connection enabled. -/
theorem not_trips {d : Driver} {c : d.Conn} (w : List d.Op) (hallowed : (w.length : ℤ) = d.allowed)
    (hfails : AllSteps d.step d.Fails c w) (henabled : (d.view (run d.step c w)).disabled = false) :
    ¬ d.Trips c := by
  intro htrips
  have hdisabled := htrips [] w hallowed hfails
  rw [List.nil_append, henabled] at hdisabled
  cases hdisabled

/-- **Failures on new connections do not add up.**  Three requests in a row fail, each on a
connection that was made for it: with three errors allowed, none of the drivers is
disabled. -/
theorem failures_on_new_connections :
    ¬ (OpenSips.driver ⟨[], [], [], 10, 3⟩).Trips OpenSips.Conn.init ∧
      ¬ (RtpEngine.driver ⟨[], [], [], 3600, 10, 3⟩).Trips RtpEngine.Client.init ∧
      ¬ (Kamailio.driver ⟨fun _ _ => [], fun _ => [], fun _ => [], fun _ => none, fun _ => 0⟩
          ⟨[], [], 10, 3⟩).Trips (Kamailio.Server.init 1) := by
  have hlost : ∀ {e : Exit}, e = .sendFailed → e.IsCommunicationError :=
    fun h => Or.inr (Or.inr (Or.inr (Or.inl h)))
  refine ⟨?_, ?_, ?_⟩
  · refine not_trips (List.replicate 3 OpenSips.brokenRequest) rfl ?_ (by decide +kernel)
    exact ⟨hlost (by decide +kernel), hlost (by decide +kernel), hlost (by decide +kernel),
      trivial⟩
  · refine not_trips (List.replicate 3 RtpEngine.brokenRequest) rfl ?_ (by decide +kernel)
    exact ⟨hlost (by decide +kernel), hlost (by decide +kernel), hlost (by decide +kernel),
      trivial⟩
  · refine not_trips (List.replicate 3 Kamailio.brokenRequest) rfl ?_ (by decide +kernel)
    exact ⟨hlost (by decide +kernel), hlost (by decide +kernel), hlost (by decide +kernel),
      trivial⟩

end VoipBackend
