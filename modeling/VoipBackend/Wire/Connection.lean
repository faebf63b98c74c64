import VoipBackend.Lib.CircuitBreaker
import VoipBackend.Wire.Auth

/-!
# Connections of the drivers

What the three drivers have in common.  An operation finds its connection usable or
tries to establish it, sends one request and, except for the one-way requests of
RTPEngine, reads one answer.  Every system call in it may fail; what they return is given
from outside (`Dial` for a connection attempt, `Peer` for an exchange).

An operation is reported by how it ended (`Exit`) and what it did on the way (`Report`).
`Driver` collects what is said of a driver's connection, so that the three of them can be
put to the same questions: `WellKept` and `Trips`.
-/

namespace VoipBackend

open Library

/-! ## System calls -/

/-- What the calls of a connection attempt return. -/
structure Dial where
  /-- `time(NULL)` at the start of the attempt. -/
  now : ℤ
  /-- The descriptor `socket()` makes, if it makes one. -/
  socket : Option ℕ
  /-- The address is numeric, or `getaddrinfo()` resolves it. -/
  resolves : Bool
  /-- `connect()` succeeds. -/
  connects : Bool
  /-- The bytes that arrive as the greeting before the connection ends. -/
  greeting : Bytes
  /-- The exchange of the login. -/
  login : Peer
  /-- The byte behind the reply to the login. -/
  past : UInt8

/-- What `socket()` returns. -/
def Dial.fd (d : Dial) : ℤ := (d.socket.map Int.ofNat).getD (-1)

theorem Dial.fd_eq (d : Dial) (h : d.fd < 0) : d.fd = -1 := by
  unfold Dial.fd at h ⊢
  cases hs : d.socket with
  | none => rfl
  | some n =>
    rw [hs] at h
    exact absurd h (not_lt.2 (Int.natCast_nonneg n))

theorem Dial.nonneg_or (d : Dial) : 0 ≤ d.fd ∨ d.fd = -1 := by
  by_cases h : d.fd < 0
  · exact Or.inr (d.fd_eq h)
  · exact Or.inl (not_lt.1 h)

/-- `TNT_GREETING_SIZE`. -/
def tntGreetingSize : ℕ := 128

/-- The salt in a greeting: 44 bytes from offset 64. -/
def saltOf (greeting : Bytes) : Bytes := (greeting.drop 64).take 44

/-! ## Reports -/

/-- How an operation ended. -/
inductive Exit where
  /-- The connection is disabled and its deadline has not passed. -/
  | coolingDown
  /-- `socket()` failed. -/
  | noSocket
  /-- The address could not be resolved. -/
  | unresolved
  /-- `connect()` failed. -/
  | connectFailed
  /-- The greeting did not arrive. -/
  | greetingFailed
  /-- The login failed. -/
  | authFailed
  /-- The request could not be sent. -/
  | sendFailed
  /-- No frame could be read. -/
  | receiveFailed
  /-- The answer belongs to another request. -/
  | syncMismatch
  /-- There was no memory for the answer. -/
  | noMemory
  /-- The answer is an error. -/
  | refused
  /-- There was nothing to send. -/
  | noRequest
  /-- The operation did what it was called for. -/
  | completed
  deriving DecidableEq

/-- A failure to connect, to get the greeting, to authenticate, to send or to receive. -/
def Exit.IsCommunicationError (e : Exit) : Prop :=
  e = .connectFailed ∨ e = .greetingFailed ∨ e = .authFailed ∨ e = .sendFailed ∨ e = .receiveFailed

/-- What an operation did. -/
structure Report where
  exit : Exit
  /-- It found a cool-down over and tried again. -/
  retried : Bool
  /-- It established the connection. -/
  established : Bool
  /-- It called `socket()`. -/
  opened : Bool
  /-- What it handed to `send()`. -/
  sent : List Bytes
  deriving DecidableEq

/-- Nothing done yet, on a usable connection. -/
def Report.usable : Report := ⟨.completed, false, false, false, []⟩

/-! ## Drivers -/

/-- What a driver keeps of a connection. -/
structure View where
  /-- The descriptor. -/
  fd : ℤ
  /-- The connection is marked usable. -/
  usable : Bool
  /-- The connection is marked disabled. -/
  disabled : Bool
  /-- The time from which a disabled connection may be tried again. -/
  deadline : ℤ
  /-- The errors counted. -/
  errors : ℕ

/-- A driver: its connections, and the operations on them. -/
structure Driver where
  /-- The record the driver keeps of a connection. -/
  Conn : Type
  /-- An operation, with what the system calls in it return. -/
  Op : Type
  exec : Op → Conn → Report × Conn
  view : Conn → View
  /-- The clock when the operation looks at the connection. -/
  clock : Op → ℤ
  /-- The time of the error an operation that ends like this registers, if it does. -/
  registers : Op → Exit → Option ℤ
  /-- An operation that ends like this sets the count of errors back. -/
  clears : Op → Exit → Bool
  /-- The errors allowed before the connection is disabled. -/
  allowed : ℤ
  /-- The seconds it is disabled for. -/
  disableTime : ℤ

/-- The connection is usable exactly when it has a descriptor, and not while it is
disabled. -/
structure View.Sound (v : View) : Prop where
  usable_iff : v.usable = true ↔ 0 ≤ v.fd
  not_usable : v.disabled = true → v.usable = false

theorem View.Sound.enabled {v : View} (h : v.Sound) (husable : v.usable = true) :
    v.disabled = false := by
  rw [Bool.eq_false_iff]
  intro hdisabled
  rw [h.not_usable hdisabled] at husable
  cases husable

namespace Driver

/-- The connection after an operation. -/
def step (d : Driver) (c : d.Conn) (op : d.Op) : d.Conn := (d.exec op c).2

/-- The operation opens no socket, sends nothing, and leaves the connection disabled with
the deadline it has. -/
def Waits (d : Driver) (c : d.Conn) (op : d.Op) : Prop :=
  (d.exec op c).1.opened = false ∧ (d.exec op c).1.sent = [] ∧
    (d.view (d.step c op)).disabled = true ∧
    (d.view (d.step c op)).deadline = (d.view c).deadline

/-- Between the operations of every run the connection is sound, and an operation on a
disabled connection before the deadline waits. -/
def WellKept (d : Driver) (c : d.Conn) : Prop :=
  ∀ l : List d.Op, (d.view (run d.step c l)).Sound ∧
    ∀ op, (d.view (run d.step c l)).disabled = true →
      d.clock op < (d.view (run d.step c l)).deadline → d.Waits (run d.step c l) op

/-- The operation ends in a communication error. -/
def Fails (d : Driver) (c : d.Conn) (op : d.Op) : Prop := (d.exec op c).1.exit.IsCommunicationError

/-- As many communication errors in a row as are allowed leave the connection disabled, in
every run. -/
def Trips (d : Driver) (c : d.Conn) : Prop :=
  ∀ l w : List d.Op, (w.length : ℤ) = d.allowed → AllSteps d.step d.Fails (run d.step c l) w →
    (d.view (run d.step c (l ++ w))).disabled = true

/-- The operation ends in an error the driver registers. -/
def Registers (d : Driver) (c : d.Conn) (op : d.Op) : Prop :=
  ∃ t, d.registers op (d.exec op c).1.exit = some t

/-- The operation neither found a cool-down over nor established the connection. -/
def KeepsCount (d : Driver) (c : d.Conn) (op : d.Op) : Prop :=
  (d.exec op c).1.retried = false ∧ (d.exec op c).1.established = false

/-- As many registered errors in a row as are allowed, with no operation but the first
setting the count back, leave the connection disabled, in every run; the deadline counts
from the last of them. -/
def TripsOnRegistered (d : Driver) (c : d.Conn) : Prop :=
  ∀ (l : List d.Op) (op : d.Op) (w : List d.Op), ((op :: w).length : ℤ) = d.allowed →
    d.Registers (run d.step c l) op →
    AllSteps d.step (fun c op => d.Registers c op ∧ d.KeepsCount c op)
      (d.step (run d.step c l) op) w →
    (d.view (run d.step c (l ++ op :: w))).disabled = true ∧
      ∃ l' last t, op :: w = l' ++ [last] ∧
        d.registers last (d.exec last (run d.step c (l ++ l'))).1.exit = some t ∧
        (d.view (run d.step c (l ++ op :: w))).deadline = t + d.disableTime

end Driver

/-! ## Moves -/

namespace View

/-- A disabled connection that may be tried again. -/
def rearm (v : View) : View :=
  if v.disabled then { v with disabled := false, errors := 0 } else v

/-- An error is registered at the time `t`: the connection is closed and, if that makes as
many as are allowed, disabled. -/
def fault (d : Driver) (t : ℤ) (v : View) : View :=
  if d.allowed ≤ (v.errors + 1 : ℕ) then ⟨-1, false, true, t + d.disableTime, v.errors + 1⟩
  else ⟨-1, false, false, v.deadline, v.errors + 1⟩

/-- The connection is disabled, and the deadline is still to come. -/
def Cooling (d : Driver) (op : d.Op) (v : View) : Prop :=
  v.disabled = true ∧ d.clock op < v.deadline

end View

/-- Getting a connection: it is usable, or it is established.  The flags are those of the
report. -/
inductive Gets (d : Driver) (op : d.Op) (v : View) : Bool → Bool → Bool → View → Prop where
  | usable (h : v.usable = true) : Gets d op v false false false v
  | established {fd : ℤ} (hcool : ¬ v.Cooling d op) (hfd : 0 ≤ fd) :
      Gets d op v v.disabled true true ⟨fd, true, false, v.deadline, 0⟩

/-- Using a connection: it is kept as it is, or with the count set back; it is closed without
that being registered; or an error is registered. -/
inductive Uses (d : Driver) (op : d.Op) (v : View) : Exit → View → Prop where
  | kept {exit : Exit} (h : d.registers op exit = none) (hclears : d.clears op exit = false) :
      Uses d op v exit v
  | cleared {exit : Exit} (h : d.registers op exit = none) (hclears : d.clears op exit = true) :
      Uses d op v exit { v with errors := 0 }
  | closed {exit : Exit} (h : d.registers op exit = none) (hclears : d.clears op exit = false) :
      Uses d op v exit { v with fd := -1, usable := false }
  | failed {exit : Exit} {t : ℤ} (h : d.registers op exit = some t)
      (hclears : d.clears op exit = false) : Uses d op v exit (v.fault d t)

/-- **Everything an operation can do to a connection.**  It does nothing, as in the cool-down;
the connection cannot be established, and that is registered or not; or it gets a
connection and uses it. -/
inductive Moves (d : Driver) (op : d.Op) (v : View) : Report → View → Prop where
  | idle {exit : Exit} (h : d.registers op exit = none) (hclears : d.clears op exit = false) :
      Moves d op v ⟨exit, false, false, false, []⟩ v
  | down {exit : Exit} {sent : List Bytes} {fd : ℤ} (hcool : ¬ v.Cooling d op) (hfd : fd < 0)
      (h : d.registers op exit = none) (hclears : d.clears op exit = false) :
      Moves d op v ⟨exit, v.disabled, false, true, sent⟩ { v.rearm with fd := fd, usable := false }
  | unreachable {exit : Exit} {sent : List Bytes} {t : ℤ} (hcool : ¬ v.Cooling d op)
      (h : d.registers op exit = some t) (hclears : d.clears op exit = false) :
      Moves d op v ⟨exit, v.disabled, false, true, sent⟩ (v.rearm.fault d t)
  | used {exit : Exit} {retried established opened : Bool} {sent : List Bytes} {v₁ v₂ : View}
      (hgets : Gets d op v retried established opened v₁) (huses : Uses d op v₁ exit v₂) :
      Moves d op v ⟨exit, retried, established, opened, sent⟩ v₂

/-- A driver whose operations do nothing else. -/
def Driver.Disciplined (d : Driver) : Prop :=
  ∀ op c, (d.view c).Sound → Moves d op (d.view c) (d.exec op c).1 (d.view (d.step c op))

section Moves

variable {d : Driver} {op : d.Op} {v v' : View} {r : Report}

theorem sound_fault (t : ℤ) (v : View) : (v.fault d t).Sound := by
  unfold View.fault
  split_ifs
  · exact ⟨by simp, by simp⟩
  · exact ⟨by simp, by simp⟩

@[simp] theorem disabled_rearm (v : View) : v.rearm.disabled = false := by
  unfold View.rearm
  cases h : v.disabled <;> simp [h]

@[simp] theorem deadline_rearm (v : View) : v.rearm.deadline = v.deadline := by
  unfold View.rearm
  split_ifs <;> rfl

theorem Gets.sound {retried established opened : Bool} (h : Gets d op v retried established opened v')
    (hv : v.Sound) : v'.Sound ∧ v'.usable = true := by
  cases h with
  | usable husable => exact ⟨hv, husable⟩
  | established hcool hfd => exact ⟨⟨by simpa using hfd, by simp⟩, rfl⟩

theorem Uses.sound {exit : Exit} (h : Uses d op v exit v') (hv : v.Sound) : v'.Sound := by
  cases h with
  | kept => exact hv
  | cleared => exact ⟨hv.usable_iff, hv.not_usable⟩
  | closed => exact ⟨by simp, by simp⟩
  | failed => exact sound_fault _ _

/-- A move keeps a connection sound. -/
theorem Moves.sound (h : Moves d op v r v') (hv : v.Sound) : v'.Sound := by
  cases h with
  | idle => exact hv
  | down hcool hfd => exact ⟨by simpa using hfd, by simp⟩
  | unreachable => exact sound_fault _ _
  | used hgets huses => exact huses.sound (hgets.sound hv).1

/-- Before the deadline of a disabled connection nothing moves. -/
theorem Moves.waits (h : Moves d op v r v') (hv : v.Sound) (hcool : v.Cooling d op) :
    r.opened = false ∧ r.sent = [] ∧ v' = v := by
  cases h with
  | idle => exact ⟨rfl, rfl, rfl⟩
  | down hnot => exact absurd hcool hnot
  | unreachable hnot => exact absurd hcool hnot
  | used hgets huses =>
    cases hgets with
    | usable husable =>
      have hcooling := hcool.1
      rw [hv.enabled husable] at hcooling
      cases hcooling
    | established hnot => exact absurd hcool hnot

end Moves

/-! ## The breaker of a driver -/

/-- What the connection shows of its breaker. -/
def View.breaker (v : View) : Breaker := ⟨v.errors, if v.disabled then some v.deadline else none⟩

namespace Driver

/-- Whether an operation with this report sets the count back, and how often. -/
def resets (d : Driver) (op : d.Op) (r : Report) : List Signal :=
  (if r.retried then [.reset] else []) ++ (if r.established then [.reset] else []) ++
    (if d.clears op r.exit then [.reset] else [])

/-- What an operation with this report tells the breaker: an error it registers is the last
thing. -/
def signals (d : Driver) (op : d.Op) (r : Report) : List Signal :=
  d.resets op r ++ ((d.registers op r.exit).map Signal.fault).toList

/-- The breaker of a connection. -/
def breaker (d : Driver) (c : d.Conn) : Breaker := (d.view c).breaker

/-- What an operation tells the breaker. -/
def tells (d : Driver) (c : d.Conn) (op : d.Op) : List Signal := d.signals op (d.exec op c).1

end Driver

section Breaker

variable {d : Driver} {op : d.Op} {v v' : View} {r : Report}

theorem breaker_rearm (v : View) :
    v.rearm.breaker = run (Breaker.step d.allowed d.disableTime) v.breaker
      (if v.disabled then [.reset] else []) := by
  unfold View.rearm View.breaker
  cases h : v.disabled <;> simp [h, Breaker.step]

theorem breaker_fault (t : ℤ) (v : View) :
    (v.fault d t).breaker = v.breaker.step d.allowed d.disableTime (.fault t) := by
  show _ = (⟨v.errors + 1, if d.allowed ≤ (v.errors + 1 : ℕ) then some (t + d.disableTime)
    else none⟩ : Breaker)
  unfold View.fault
  split_ifs <;> rfl

theorem Gets.breaker {retried established opened : Bool}
    (h : Gets d op v retried established opened v') :
    v'.breaker = run (Breaker.step d.allowed d.disableTime) v.breaker
      ((if retried then [.reset] else []) ++ if established then [.reset] else []) := by
  cases h with
  | usable => rfl
  | established => cases v.disabled <;> rfl

theorem Uses.breaker {exit : Exit} (h : Uses d op v exit v') (hv : v.disabled = false) :
    v'.breaker = run (Breaker.step d.allowed d.disableTime) v.breaker
      ((if d.clears op exit then [.reset] else []) ++
        ((d.registers op exit).map Signal.fault).toList) := by
  cases h with
  | kept h hclears => simp [h, hclears]
  | cleared h hclears => simp [h, hclears, View.breaker, hv, Breaker.step]
  | closed h hclears => simp [h, hclears, View.breaker]
  | failed h hclears => simp [h, hclears, breaker_fault]

/-- A move does to the breaker what it tells it. -/
theorem Moves.breaker (h : Moves d op v r v') (hv : v.Sound) :
    v'.breaker = run (Breaker.step d.allowed d.disableTime) v.breaker (d.signals op r) := by
  cases h with
  | idle h hclears => simp [Driver.signals, Driver.resets, h, hclears]
  | down hcool hfd h hclears =>
    have hrearm := breaker_rearm (d := d) v
    simp only [Driver.signals, Driver.resets, h, hclears, Option.map_none, Option.toList_none,
      Bool.false_eq_true, if_false, List.append_nil]
    rw [← hrearm]
    rfl
  | unreachable hcool h hclears =>
    simp only [Driver.signals, Driver.resets, h, hclears, Option.map_some, Option.toList_some,
      Bool.false_eq_true, if_false, List.append_nil]
    rw [run_append, ← breaker_rearm, breaker_fault]
    rfl
  | used hgets huses =>
    obtain ⟨hsound, husable⟩ := hgets.sound hv
    rw [huses.breaker (hsound.enabled husable), hgets.breaker, ← run_append]
    simp only [Driver.signals, Driver.resets, List.append_assoc]

end Breaker

/-! ## Disciplined drivers -/

namespace Driver

variable {d : Driver} {c : d.Conn} {op : d.Op}

theorem sound_run (hd : d.Disciplined) (hc : (d.view c).Sound) (l : List d.Op) :
    (d.view (run d.step c l)).Sound := by
  induction l generalizing c with
  | nil => exact hc
  | cons op l ih => exact ih ((hd op c hc).sound hc)

/-- **A disciplined driver keeps its connections well.** -/
theorem Disciplined.wellKept (hd : d.Disciplined) (hc : (d.view c).Sound) : d.WellKept c := by
  intro l
  have hsound := sound_run hd hc l
  refine ⟨hsound, fun op hdisabled hclock => ?_⟩
  obtain ⟨hopened, hsent, hview⟩ := (hd op _ hsound).waits hsound ⟨hdisabled, hclock⟩
  unfold Waits
  rw [hview]
  exact ⟨hopened, hsent, hdisabled, rfl⟩

theorem tells_of_registers (h : d.Registers c op) : ∃ pre t,
    d.registers op (d.exec op c).1.exit = some t ∧ d.tells c op = pre ++ [.fault t] := by
  obtain ⟨t, ht⟩ := h
  refine ⟨d.resets op (d.exec op c).1, t, ht, ?_⟩
  rw [tells, signals, ht]
  rfl

theorem tells_of_keepsCount (hclears : ∀ e, d.clears op e = true → d.registers op e = none)
    (h : d.Registers c op) (hkeeps : d.KeepsCount c op) : ∃ t, d.tells c op = [.fault t] := by
  obtain ⟨t, ht⟩ := h
  have hcount : d.clears op (d.exec op c).1.exit = false := by
    rw [Bool.eq_false_iff]
    intro hc
    rw [hclears _ hc] at ht
    cases ht
  refine ⟨t, ?_⟩
  simp [tells, signals, resets, hkeeps.1, hkeeps.2, hcount, ht]

/-- The window of an open breaker, seen from its last operation. -/
theorem open_of_window (hd : d.Disciplined) (hc : (d.view c).Sound) {l' : List d.Op} {last : d.Op}
    {t : ℤ} {pre : List Signal} (htells : d.tells (run d.step c l') last = pre ++ [.fault t])
    (herrors : d.allowed ≤ (d.breaker (run d.step c (l' ++ [last]))).errors) :
    (d.view (run d.step c (l' ++ [last]))).disabled = true ∧
      (d.view (run d.step c (l' ++ [last]))).deadline = t + d.disableTime := by
  have hsound := sound_run hd hc l'
  have hmove : d.breaker (d.step (run d.step c l') last) =
      run (Breaker.step d.allowed d.disableTime) (d.breaker (run d.step c l'))
        (d.tells (run d.step c l') last) := (hd last _ hsound).breaker hsound
  rw [run_append, run_cons, run_nil] at herrors ⊢
  have hopen := Breaker.openUntil_of_errors hmove htells herrors
  cases hdisabled : (d.view (d.step (run d.step c l') last)).disabled with
  | false =>
    rw [breaker, View.breaker, hdisabled] at hopen
    cases hopen
  | true =>
    rw [breaker, View.breaker, hdisabled] at hopen
    exact ⟨rfl, Option.some.inj hopen⟩

/-- **A disciplined driver trips on the errors it registers.** -/
theorem Disciplined.tripsOnRegistered (hd : d.Disciplined)
    (hclears : ∀ op e, d.clears op e = true → d.registers op e = none) (hc : (d.view c).Sound) :
    d.TripsOnRegistered c := by
  intro l op w hlen hfirst hrest
  have hview : ∀ c op, (d.view c).Sound → (d.view (d.step c op)).Sound ∧
      d.breaker (d.step c op) =
        run (Breaker.step d.allowed d.disableTime) (d.breaker c) (d.tells c op) :=
    fun c op hs => ⟨(hd op c hs).sound hs, (hd op c hs).breaker hs⟩
  obtain ⟨pre, t, -, htells⟩ := tells_of_registers hfirst
  have hfaults : AllSteps d.step (fun c op => ∃ t, d.tells c op = [.fault t])
      (d.step (run d.step c l) op) w :=
    AllSteps.of_invariant (I := fun _ => True)
      (fun c op _ h => ⟨trivial, tells_of_keepsCount (hclears op) h.1 h.2⟩) trivial hrest
  have herrors := Breaker.le_errors_of_window hview (sound_run hd hc l) ⟨pre, t, htells⟩ hfaults
  -- the last operation of the window, which is the first if the window has only one
  obtain ⟨l', last, hlast⟩ : ∃ l' last, op :: w = l' ++ [last] := by
    rcases List.eq_nil_or_concat (op :: w) with h | ⟨l', last, h⟩
    · cases h
    · exact ⟨l', last, h.trans (List.concat_eq_append ..)⟩
  have hregisters : d.Registers (run d.step c (l ++ l')) last := by
    have hall : AllSteps d.step d.Registers (run d.step c l) (op :: w) :=
      ⟨hfirst, AllSteps.of_invariant (I := fun _ => True) (fun _ _ _ h => ⟨trivial, h.1⟩)
        trivial hrest⟩
    rw [hlast, allSteps_append, ← run_append] at hall
    exact hall.2.1
  obtain ⟨pre', t', ht', htells'⟩ := tells_of_registers hregisters
  rw [hlast, ← List.append_assoc]
  rw [hlast, ← run_append, ← List.append_assoc, ← hlast] at herrors
  obtain ⟨hdisabled, hdeadline⟩ := open_of_window hd hc htells' (by rw [← hlen]; exact_mod_cast herrors)
  exact ⟨hdisabled, l', last, t', rfl, ht', hdeadline⟩

end Driver

end VoipBackend
