import VoipBackend.Lib.CString

/-!
# The servers of the Kamailio driver

`tnt_add_server` reads the specification of a server, `name=srv1;addr=127.0.0.1;port=3301`, and puts
the server in front of the list `tnt_srv_list`; `tnt_get_server` looks one up.  A pointer to a
server is the list from that server on.  Memory is taken to be there.

* The port is converted to an `int` before its range is checked.  `registersAsWritten_iff` says
  for which specifications the server that is registered is the one that was written down.
* A new server comes first in the list.  `firstIsDefault_iff` says when the default server is the
  one that was registered first; `tntGetServer_cons` is why a name goes on to mean the same server.
-/

set_option maxRecDepth 4000

namespace VoipBackend

open Library CString

namespace Kamailio

/-! ## Specifications -/

/-- The parameters of the module, for what a specification leaves out. -/
structure ModParams where
  connectTimeout : ℤ
  cmdTimeout : ℤ
  disableTime : ℤ
  allowedTimeouts : ℤ

/-- What `tnt_add_server` writes into a `tnt_server_t`; `none` is a null pointer. -/
structure Entry where
  sname : Bytes
  addr : Bytes
  port : ℤ
  user : Option Bytes
  pass : Option Bytes
  connectTimeout : ℤ
  cmdTimeout : ℤ
  disableTime : ℤ
  allowedTimeouts : ℤ
  deriving DecidableEq

/-- The record before the first token is read. -/
def Entry.initial (params : ModParams) : Entry where
  sname := ascii "default"
  addr := ascii "127.0.0.1"
  port := 3301
  user := none
  pass := none
  connectTimeout := params.connectTimeout
  cmdTimeout := params.cmdTimeout
  disableTime := params.disableTime
  allowedTimeouts := params.allowedTimeouts

/-- What is behind spaces and tabs. -/
def skipBlanks (s : Bytes) : Bytes := s.dropWhile fun c => decide (c = 0x20 ∨ c = 0x09)

/-- The body of the loop over the tokens. -/
def Entry.read (srv : Entry) (token : Bytes) : Entry :=
  match strchr 0x3d token with
  | none => srv
  | some (key, val) =>
      let key := skipBlanks key
      let val := skipBlanks val
      if key = ascii "name" ∨ key = ascii "srv" then { srv with sname := val }
      else if key = ascii "addr" ∨ key = ascii "host" then { srv with addr := val }
      else if key = ascii "port" then { srv with port := atoi val }
      else if key = ascii "user" then { srv with user := some val }
      else if key = ascii "pass" ∨ key = ascii "password" then { srv with pass := some val }
      else if key = ascii "connect_timeout" then { srv with connectTimeout := atoi val }
      else if key = ascii "cmd_timeout" then { srv with cmdTimeout := atoi val }
      else if key = ascii "disable_time" then { srv with disableTime := atoi val }
      else if key = ascii "allowed_timeouts" then { srv with allowedTimeouts := atoi val }
      else srv

/-- The record that a specification describes. -/
def parseServer (params : ModParams) (srvSpec : Bytes) : Entry :=
  (strtok 0x3b srvSpec).foldl Entry.read (.initial params)

/-- `tnt_add_server`: what it returns, and the list it leaves. -/
def tntAddServer (params : ModParams) (srvList : List Entry) (srvSpec : Bytes) : ℤ × List Entry :=
  let srv := parseServer params srvSpec
  if srv.port ≤ 0 ∨ 65535 < srv.port then (-1, srvList) else (0, srv :: srvList)

/-- The first server with this name, in the list from it on. -/
def findServer (name : Bytes) : List Entry → List Entry
  | [] => []
  | srv :: next => if srv.sname = name then srv :: next else findServer name next

/-- `tnt_get_server`; `none` is a null pointer. -/
def tntGetServer (name : Option Bytes) (srvList : List Entry) : List Entry :=
  match name.getD [] with
  | [] => srvList
  | c :: name => findServer (c :: name) srvList

/-! ## What is written down -/

/-- The fields of a specification. -/
inductive Field where
  | name
  | addr
  | port
  | user
  | pass
  | connectTimeout
  | cmdTimeout
  | disableTime
  | allowedTimeouts
  deriving DecidableEq

/-- The keys; some fields have two. -/
inductive Key where
  | name
  | srv
  | addr
  | host
  | port
  | user
  | pass
  | password
  | connectTimeout
  | cmdTimeout
  | disableTime
  | allowedTimeouts
  deriving DecidableEq

def Key.text : Key → Bytes
  | .name => ascii "name"
  | .srv => ascii "srv"
  | .addr => ascii "addr"
  | .host => ascii "host"
  | .port => ascii "port"
  | .user => ascii "user"
  | .pass => ascii "pass"
  | .password => ascii "password"
  | .connectTimeout => ascii "connect_timeout"
  | .cmdTimeout => ascii "cmd_timeout"
  | .disableTime => ascii "disable_time"
  | .allowedTimeouts => ascii "allowed_timeouts"

def Key.field : Key → Field
  | .name => .name
  | .srv => .name
  | .addr => .addr
  | .host => .addr
  | .port => .port
  | .user => .user
  | .pass => .pass
  | .password => .pass
  | .connectTimeout => .connectTimeout
  | .cmdTimeout => .cmdTimeout
  | .disableTime => .disableTime
  | .allowedTimeouts => .allowedTimeouts

/-- A token `key=value`. -/
structure Token where
  key : Key
  value : Bytes
  no_semicolon : 0x3b ∉ value
  no_blank : ∀ c, value.head? = some c → c ≠ 0x20 ∧ c ≠ 0x09

def Token.text (t : Token) : Bytes := t.key.text ++ 0x3d :: t.value

/-- The tokens with `;` between them. -/
def specText (ts : List Token) : Bytes := [0x3b].intercalate (ts.map Token.text)

/-- The last value that is given for a field. -/
def lastGiven (ts : List Token) (f : Field) : Option Bytes :=
  (ts.filter fun t => decide (t.key.field = f)).getLast?.map Token.value

/-- The record with these values, where numbers are read with `num`. -/
def Entry.of (num : Bytes → ℤ) (params : ModParams) (given : Field → Option Bytes) : Entry where
  sname := (given .name).getD (ascii "default")
  addr := (given .addr).getD (ascii "127.0.0.1")
  port := ((given .port).map num).getD 3301
  user := given .user
  pass := given .pass
  connectTimeout := ((given .connectTimeout).map num).getD params.connectTimeout
  cmdTimeout := ((given .cmdTimeout).map num).getD params.cmdTimeout
  disableTime := ((given .disableTime).map num).getD params.disableTime
  allowedTimeouts := ((given .allowedTimeouts).map num).getD params.allowedTimeouts

/-- The number written for the last port. -/
def writtenPort (ts : List Token) : ℤ := ((lastGiven ts .port).map number).getD 3301

/-! ## What is read -/

theorem lastGiven_concat (ts : List Token) (t : Token) :
    lastGiven (ts ++ [t]) = Function.update (lastGiven ts) t.key.field (some t.value) := by
  funext f
  by_cases hf : t.key.field = f
  · subst hf
    simp [lastGiven, List.filter_append]
  · simp [lastGiven, List.filter_append, hf, Function.update_of_ne (Ne.symm hf)]

theorem skipBlanks_eq_self {s : Bytes} (hs : ∀ c, s.head? = some c → c ≠ 0x20 ∧ c ≠ 0x09) :
    skipBlanks s = s := by
  cases s with
  | nil => rfl
  | cons c s =>
    obtain ⟨hspace, htab⟩ := hs c rfl
    exact List.dropWhile_cons_of_neg (by simp [hspace, htab])

/-- What a token does: it gives its field its value. -/
theorem read_text (params : ModParams) (given : Field → Option Bytes) (t : Token) :
    (Entry.of atoi params given).read t.text =
      Entry.of atoi params (Function.update given t.key.field (some t.value)) := by
  have hsplit : strchr 0x3d t.text = some (t.key.text, t.value) :=
    strchr_append (by cases t.key <;> decide) t.value
  have hkey : skipBlanks t.key.text = t.key.text := by cases t.key <;> decide
  have hval : skipBlanks t.value = t.value := skipBlanks_eq_self t.no_blank
  rw [Entry.read, hsplit]
  simp only [hkey, hval]
  cases t.key <;> rfl

theorem foldl_read (params : ModParams) (ts : List Token) :
    (ts.map Token.text).foldl Entry.read (.initial params) =
      Entry.of atoi params (lastGiven ts) := by
  induction ts using List.reverseRecOn with
  | nil => rfl
  | append_singleton ts t ih =>
    rw [List.map_append, List.foldl_append, ih, lastGiven_concat, ← read_text]
    rfl

theorem parseServer_specText (params : ModParams) (ts : List Token) :
    parseServer params (specText ts) = Entry.of atoi params (lastGiven ts) := by
  have htokens : strtok 0x3b (specText ts) = ts.map Token.text := by
    refine strtok_intercalate ?_ ?_
    · intro s hs
      obtain ⟨t, -, rfl⟩ := List.mem_map.1 hs
      have hkey : 0x3b ∉ t.key.text := by cases t.key <;> decide
      simp [Token.text, hkey, t.no_semicolon]
    · intro s hs
      obtain ⟨t, -, rfl⟩ := List.mem_map.1 hs
      simp [Token.text]
  rw [parseServer, htokens, foldl_read]

theorem port_of_atoi (params : ModParams) (ts : List Token) :
    (Entry.of atoi params (lastGiven ts)).port = toInt32 (toLong (writtenPort ts)) := by
  unfold Entry.of writtenPort
  cases lastGiven ts .port with
  | none =>
    have hdefault : (3301 : ℤ) = toInt32 (toLong 3301) := by decide
    exact hdefault
  | some v => rfl

theorem tntAddServer_specText (params : ModParams) (srvList : List Entry) (ts : List Token) :
    tntAddServer params srvList (specText ts) =
      if 1 ≤ toInt32 (toLong (writtenPort ts)) ∧ toInt32 (toLong (writtenPort ts)) ≤ 65535 then
        (0, Entry.of atoi params (lastGiven ts) :: srvList)
      else (-1, srvList) := by
  rw [tntAddServer, parseServer_specText, port_of_atoi]
  split_ifs <;> first | rfl | omega

/-! ## Registration -/

/-- The fields that hold a number. -/
def numericFields : List Field :=
  [.port, .connectTimeout, .cmdTimeout, .disableTime, .allowedTimeouts]

/-- A number is kept as it is when it fits an `int`. -/
theorem of_atoi_eq_iff (params : ModParams) (given : Field → Option Bytes) :
    Entry.of atoi params given = Entry.of number params given ↔
      ∀ f ∈ numericFields, ∀ v ∈ given f, -2 ^ 31 ≤ number v ∧ number v < 2 ^ 31 := by
  have hkept : ∀ (v : Option Bytes) (d : ℤ), (v.map atoi).getD d = (v.map number).getD d ↔
      ∀ v' ∈ v, -2 ^ 31 ≤ number v' ∧ number v' < 2 ^ 31 := by
    intro v d
    cases v with
    | none => simp
    | some v =>
      have hfits : atoi v = number v ↔ _ := toInt32_toLong_eq_iff
      simpa using hfits
  simp only [Entry.of, Entry.mk.injEq, hkept, numericFields, List.forall_mem_cons, true_and,
    List.not_mem_nil, IsEmpty.forall_iff, implies_true, and_true]

/-- A specification is registered as it is written: exactly when its port is one, with the last
value of each field, wherever it stands; and otherwise the list stays as it is. -/
structure RegistersAsWritten (params : ModParams) (srvList : List Entry) (ts : List Token) :
    Prop where
  accepted_iff : (tntAddServer params srvList (specText ts)).1 = 0 ↔
    1 ≤ writtenPort ts ∧ writtenPort ts ≤ 65535
  record : (tntAddServer params srvList (specText ts)).1 = 0 →
    (tntAddServer params srvList (specText ts)).2 =
      Entry.of number params (lastGiven ts) :: srvList
  order : ∀ ts', (∀ f, lastGiven ts' f = lastGiven ts f) →
    tntAddServer params srvList (specText ts') = tntAddServer params srvList (specText ts)
  rejected : (tntAddServer params srvList (specText ts)).1 ≠ 0 →
    (tntAddServer params srvList (specText ts)).2 = srvList

/-- **A specification is registered as it is written** unless a number in it does not fit an `int`:
a port that is none must not become one, and with a port that is one no other number may be too
large. -/
theorem registersAsWritten_iff (params : ModParams) (srvList : List Entry) (ts : List Token) :
    RegistersAsWritten params srvList ts ↔
      ¬ (1 ≤ toInt32 (toLong (writtenPort ts)) ∧ toInt32 (toLong (writtenPort ts)) ≤ 65535) ∨
      (1 ≤ writtenPort ts ∧ writtenPort ts ≤ 65535) ∧
        ∀ f ∈ numericFields, ∀ v ∈ lastGiven ts f, -2 ^ 31 ≤ number v ∧ number v < 2 ^ 31 := by
  have hadd := tntAddServer_specText params srvList ts
  have hkept : 1 ≤ writtenPort ts ∧ writtenPort ts ≤ 65535 →
      toInt32 (toLong (writtenPort ts)) = writtenPort ts := fun h =>
    toInt32_toLong_eq_iff.2 (by omega)
  have horder : ∀ ts', (∀ f, lastGiven ts' f = lastGiven ts f) →
      tntAddServer params srvList (specText ts') = tntAddServer params srvList (specText ts) := by
    intro ts' h
    rw [tntAddServer_specText, tntAddServer_specText, writtenPort, writtenPort, funext h]
  by_cases hport : 1 ≤ toInt32 (toLong (writtenPort ts)) ∧ toInt32 (toLong (writtenPort ts)) ≤ 65535
  · rw [if_pos hport] at hadd
    rw [← of_atoi_eq_iff params, or_iff_right (not_not.2 hport)]
    constructor
    · intro h
      have hrecord := h.record (by rw [hadd])
      rw [hadd] at hrecord
      exact ⟨h.accepted_iff.1 (by rw [hadd]), (List.cons.inj hrecord).1⟩
    · rintro ⟨hrange, hrecord⟩
      refine ⟨?_, ?_, horder, ?_⟩
      · rw [hadd]
        exact iff_of_true rfl hrange
      · rw [hadd, hrecord]
        exact fun _ => rfl
      · rw [hadd]
        exact fun h => absurd rfl h
  · rw [if_neg hport] at hadd
    refine iff_of_true ⟨?_, ?_, horder, ?_⟩ (Or.inl hport)
    · rw [hadd]
      exact iff_of_false (by norm_num) fun h => hport (by rwa [hkept h])
    · rw [hadd]
      exact fun h => absurd h (by norm_num)
    · rw [hadd]
      exact fun _ => rfl

/-- The parameters that are not set. -/
def ModParams.initial : ModParams := ⟨1000, 1000, 10, 3⟩

/-- `port=4294970597`. -/
def wrappedPort : Token where
  key := .port
  value := ascii "4294970597"
  no_semicolon := by decide
  no_blank := by decide

/-- 4294970597 is 3301 in an `int`. -/
theorem not_registersAsWritten_wrappedPort : ¬ RegistersAsWritten .initial [] [wrappedPort] := by
  intro h
  have hzero : (tntAddServer .initial [] (specText [wrappedPort])).1 = 0 := by decide
  have hport : writtenPort [wrappedPort] = 4294970597 := by decide
  have hrange := h.accepted_iff.1 hzero
  rw [hport] at hrange
  omega

/-! ## Looking servers up -/

/-- `tnt_add_server` registers the server. -/
def accepted (params : ModParams) (srvSpec : Bytes) : Bool :=
  decide (0 < (parseServer params srvSpec).port ∧ (parseServer params srvSpec).port ≤ 65535)

/-- The list after these calls of `tnt_add_server`. -/
def addServers (params : ModParams) (specs : List Bytes) : List Entry :=
  specs.foldl (fun srvList srvSpec => (tntAddServer params srvList srvSpec).2) []

variable {params : ModParams} {srvSpec : Bytes} {srvList : List Entry} {specs : List Bytes}

theorem tntAddServer_accepted (h : accepted params srvSpec = true) :
    tntAddServer params srvList srvSpec = (0, parseServer params srvSpec :: srvList) := by
  have hport := of_decide_eq_true h
  exact if_neg (by omega)

theorem tntAddServer_refused (h : accepted params srvSpec = false) :
    tntAddServer params srvList srvSpec = (-1, srvList) := by
  have hport := of_decide_eq_false h
  exact if_pos (by omega)

/-- The servers that were registered, the last one first. -/
theorem addServers_eq (params : ModParams) (specs : List Bytes) :
    addServers params specs =
      ((specs.filter (accepted params)).map (parseServer params)).reverse := by
  induction specs using List.reverseRecOn with
  | nil => rfl
  | append_singleton specs srvSpec ih =>
    unfold addServers at ih ⊢
    rw [List.foldl_append, ih, List.filter_append, List.map_append, List.reverse_append]
    cases h : accepted params srvSpec with
    | true => simp [tntAddServer_accepted h, h]
    | false => simp [tntAddServer_refused h, h]

theorem filter_refused (h : ∀ s ∈ specs, accepted params s = false) :
    specs.filter (accepted params) = [] :=
  List.filter_eq_nil_iff.2 fun s hs => by rw [h s hs]; exact Bool.false_ne_true

/-- A server in front of the list hides no other name. -/
theorem findServer_cons_of_ne {name : Bytes} {srv : Entry} (h : srv.sname ≠ name) :
    findServer name (srv :: srvList) = findServer name srvList := if_neg h

theorem tntGetServer_cons {srv : Entry} {name : Bytes} (hname : name ≠ []) (h : srv.sname ≠ name) :
    tntGetServer (some name) (srv :: srvList) = tntGetServer (some name) srvList := by
  cases name with
  | nil => exact absurd rfl hname
  | cons c name => exact findServer_cons_of_ne h

/-- A registered name that is not empty goes on to mean the same server. -/
theorem tntGetServer_tntAddServer
    (hnew : ∀ srv ∈ srvList, srv.sname ≠ (parseServer params srvSpec).sname) {srv : Entry}
    (hsrv : srv ∈ srvList) (hname : srv.sname ≠ []) :
    tntGetServer (some srv.sname) (tntAddServer params srvList srvSpec).2 =
      tntGetServer (some srv.sname) srvList := by
  cases hacc : accepted params srvSpec with
  | true =>
    rw [tntAddServer_accepted hacc]
    exact tntGetServer_cons hname (hnew srv hsrv).symm
  | false => rw [tntAddServer_refused hacc]

/-- The default server is the first one that was registered, and a server with a new name changes
neither the default nor what a registered name stands for. -/
structure FirstIsDefault (params : ModParams) (specs : List Bytes) : Prop where
  first : ∀ before srvSpec mid after, specs = before ++ srvSpec :: (mid ++ after) →
    (∀ s ∈ before, accepted params s = false) → accepted params srvSpec = true →
      tntGetServer none (addServers params (before ++ srvSpec :: mid)) =
        [parseServer params srvSpec]
  stable : ∀ before srvSpec after, specs = before ++ srvSpec :: after →
    accepted params srvSpec = true → addServers params before ≠ [] →
      (∀ srv ∈ addServers params before, srv.sname ≠ (parseServer params srvSpec).sname) →
      ∀ name, (name = none ∨ ∃ srv ∈ addServers params before, name = some srv.sname) →
        tntGetServer name (addServers params (before ++ [srvSpec])) =
          tntGetServer name (addServers params before)

/-- Where the first two servers are registered. -/
theorem exists_two_accepted (h : 1 < (specs.filter (accepted params)).length) :
    ∃ before first mid second after, specs = before ++ first :: (mid ++ [second] ++ after) ∧
      (∀ s ∈ before, accepted params s = false) ∧ accepted params first = true ∧
      (∀ s ∈ mid, accepted params s = false) ∧ accepted params second = true := by
  cases hfirst : specs.filter (accepted params) with
  | nil => simp [hfirst] at h
  | cons first l =>
    cases l with
    | nil => simp [hfirst] at h
    | cons second l =>
      obtain ⟨before, rest, hspecs, hbefore, hacc, hsecond⟩ := List.filter_eq_cons_iff.1 hfirst
      obtain ⟨mid, after, hrest, hmid, hacc', -⟩ := List.filter_eq_cons_iff.1 hsecond
      refine ⟨before, first, mid, second, after, ?_,
        fun s hs => Bool.eq_false_iff.2 (hbefore s hs), hacc,
        fun s hs => Bool.eq_false_iff.2 (hmid s hs), hacc'⟩
      rw [hspecs, hrest, List.append_assoc, List.singleton_append]

theorem not_firstIsDefault (h : 1 < (specs.filter (accepted params)).length) :
    ¬ FirstIsDefault params specs := by
  obtain ⟨before, first, mid, second, after, hspecs, hbefore, hfirst, hmid, hsecond⟩ :=
    exists_two_accepted h
  intro hdefault
  have hlist := hdefault.first before first (mid ++ [second]) after hspecs hbefore hfirst
  have htwo : addServers params (before ++ first :: (mid ++ [second])) =
      [parseServer params second, parseServer params first] := by
    rw [addServers_eq, List.filter_append, List.filter_cons_of_pos hfirst, List.filter_append,
      filter_refused hbefore, filter_refused hmid, List.filter_cons_of_pos hsecond]
    rfl
  rw [htwo] at hlist
  exact absurd (congrArg List.length hlist) (by simp [tntGetServer])

theorem firstIsDefault_of_length_le (h : (specs.filter (accepted params)).length ≤ 1) :
    FirstIsDefault params specs where
  first := by
    intro before srvSpec mid after hspecs hbefore hacc
    rw [hspecs, List.filter_append, List.filter_cons_of_pos hacc, List.filter_append] at h
    have hmid : mid.filter (accepted params) = [] := by
      rw [← List.length_eq_zero_iff]
      simp only [List.length_append, List.length_cons] at h
      omega
    rw [addServers_eq, List.filter_append, List.filter_cons_of_pos hacc, hmid,
      filter_refused hbefore]
    rfl
  stable := by
    intro before srvSpec after hspecs hacc hne
    rw [hspecs, List.filter_append, List.filter_cons_of_pos hacc] at h
    have hbefore : before.filter (accepted params) = [] := by
      rw [← List.length_eq_zero_iff]
      simp only [List.length_append, List.length_cons] at h
      omega
    rw [addServers_eq, hbefore] at hne
    exact absurd rfl hne

/-- **The default server is the first one as long as it is the only one.**  A name that is not empty
goes on to mean the same server in any case. -/
theorem firstIsDefault_iff (params : ModParams) (specs : List Bytes) :
    (FirstIsDefault params specs ↔ (specs.filter (accepted params)).length ≤ 1) ∧
      ∀ srvList srvSpec, (∀ srv ∈ srvList, srv.sname ≠ (parseServer params srvSpec).sname) →
        ∀ srv ∈ srvList, srv.sname ≠ [] →
          tntGetServer (some srv.sname) (tntAddServer params srvList srvSpec).2 =
            tntGetServer (some srv.sname) srvList := by
  refine ⟨⟨fun h => ?_, firstIsDefault_of_length_le⟩, ?_⟩
  · by_contra hlength
    exact not_firstIsDefault (not_le.1 hlength) h
  · intro srvList srvSpec hnew srv hsrv hname
    exact tntGetServer_tntAddServer hnew hsrv hname

/-- With two servers the default is the second one. -/
theorem not_firstIsDefault_two :
    ¬ FirstIsDefault .initial [ascii "name=srv1;addr=10.0.0.1", ascii "name=srv2;addr=10.0.0.2"] :=
  not_firstIsDefault (by decide)

end Kamailio

end VoipBackend
