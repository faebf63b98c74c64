import VoipBackend.Backend.Grants
import VoipBackend.Backend.Ledger
import VoipBackend.Backend.Registration

/-!
# A retransmitted INVITE

A proxy that gets an INVITE again authorises its call again.  The dialog is written by an upsert, so
that a repeated request finds the dialog and refreshes it; but before that the calls of the caller
are counted, and the call is among them.  So a request is repeated with the same answer exactly if
the caller has another channel free (`idempotent_iff`): with the last channel taken by the call
itself, the second INVITE is refused.
-/

namespace VoipBackend

open Library

/-! ## What was allowed before -/

/-- A request that was allowed, with its answer and the spaces it found. -/
structure Permission where
  time : Clock
  args : AuthorizeArgs
  grant : Grant
  box : Box

/-- The spaces, with all requests that have been allowed. -/
structure Proxy where
  box : Box
  allowed : List Permission

/-- What a request adds to the permissions. -/
def Proxy.permissions (s : Proxy) (now : Clock) : Op → List Permission
  | .authorizeCall a =>
      match (authorizeCall now a s.box).1 with
      | .ok (.allowed g) => ⟨now, a, g, s.box⟩ :: s.allowed
      | _ => s.allowed
  | _ => s.allowed

/-- One step: a request, or the removal of a dialog by the TTL sweep. -/
def Proxy.step (s : Proxy) : Event → Proxy
  | .request now op => ⟨perform s.box (now, op), s.permissions now op⟩
  | .sweep callId => ⟨s.box.deleteDialog callId, s.allowed⟩

/-- A request repeats an allowed one: its dialog is there, and the subscriber and the tariffs are as
they were. -/
structure Repeats (s : Proxy) (a : AuthorizeArgs) (p : Permission) : Prop where
  allowed : p ∈ s.allowed
  args : p.args = a
  dialog : (s.box.kamDialogs.get a.callId).isSome
  subscriber : s.box.subscribers.get a.caller = p.box.subscribers.get a.caller
  tariffs : s.box.tariffs = p.box.tariffs

/-- The call is allowed with the same seconds, rate and tariff, and there is no dialog more. -/
def AnsweredAsBefore (s : Proxy) (now : Clock) (a : AuthorizeArgs) (p : Permission) : Prop :=
  ∃ g, (authorizeCall now a s.box).1 = .ok (.allowed g) ∧
    g.maxDurationSec = p.grant.maxDurationSec ∧ g.ratePerMin = p.grant.ratePerMin ∧
    g.tariff = p.grant.tariff ∧
    (authorizeCall now a s.box).2.kamDialogs.rows.length = s.box.kamDialogs.rows.length

/-- A step is no repetition, or it is answered as before. -/
def Idempotent (s : Proxy) : Event → Prop
  | .request now (.authorizeCall a) => ∀ p, Repeats s a p → AnsweredAsBefore s now a p
  | _ => True

/-- A step is no repetition, or the caller has a channel free besides those in use. -/
def ChannelFree (s : Proxy) : Event → Prop
  | .request _ (.authorizeCall a) => ∀ p, Repeats s a p →
      ∀ sub, s.box.subscribers.get a.caller = some sub →
        countActiveCalls s.box a.caller < sub.maxConcurrentCalls
  | _ => True

/-- A request is not served before those that were allowed before it. -/
def OnTime (s : Proxy) : Event → Prop
  | .request now (.authorizeCall _) => ∀ p ∈ s.allowed, p.time.time ≤ now.time
  | _ => True

/-- When the requests of a history are served. -/
def requestTimes : List Event → List ℚ :=
  List.filterMap fun
    | .request now _ => some now.time
    | .sweep _ => none

/-- The permissions are what was answered. -/
def Proxy.Sound (s : Proxy) : Prop :=
  ∀ p ∈ s.allowed, (authorizeCall p.time p.args p.box).1 = .ok (.allowed p.grant)

theorem Proxy.Sound.step {s : Proxy} (hs : s.Sound) (e : Event) : (s.step e).Sound := by
  cases e with
  | sweep callId => exact hs
  | request now op =>
    cases op with
    | authorizeCall a =>
      intro p hp
      change p ∈ s.permissions now (.authorizeCall a) at hp
      rw [Proxy.permissions] at hp
      split at hp
      · next g hg =>
        rcases List.mem_cons.1 hp with rfl | hp
        · exact hg
        · exact hs p hp
      · exact hs p hp
    | _ => exact hs

/-- What a step adds to the permissions is of its own time. -/
theorem mem_permissions {s : Proxy} {now : Clock} {op : Op} {p : Permission}
    (h : p ∈ s.permissions now op) : p.time = now ∨ p ∈ s.allowed := by
  cases op with
  | authorizeCall a =>
    rw [Proxy.permissions] at h
    split at h
    · rcases List.mem_cons.1 h with rfl | h
      · exact Or.inl rfl
      · exact Or.inr h
    · exact Or.inr h
  | _ => exact Or.inr h

/-- In a history whose times do not go back every request is on time. -/
theorem allSteps_onTime {s : Proxy} {l : List Event}
    (hpast : ∀ p ∈ s.allowed, ∀ t ∈ requestTimes l, p.time.time ≤ t)
    (hl : (requestTimes l).Pairwise (· ≤ ·)) : AllSteps Proxy.step OnTime s l := by
  induction l generalizing s with
  | nil => trivial
  | cons e l ih =>
    cases e with
    | sweep callId => exact ⟨trivial, ih hpast hl⟩
    | request now op =>
      obtain ⟨hfirst, hrest⟩ := List.pairwise_cons.1 hl
      refine ⟨?_, ih ?_ hrest⟩
      · cases op with
        | authorizeCall a => exact fun p hp => hpast p hp now.time List.mem_cons_self
        | _ => trivial
      · intro p hp t ht
        rcases mem_permissions hp with htime | hp
        · rw [htime]
          exact hfirst t ht
        · exact hpast p hp t (List.mem_cons_of_mem _ ht)

/-! ## One repetition -/

theorem matchTariff_congr {b b' : Box} (h : b'.tariffs = b.tariffs) (destination : LuaString) :
    matchTariff b' destination = matchTariff b destination := by
  rw [matchTariff, matchTariff, h]

/-- An expiry that fitted its field fits it later. -/
theorem dialogExpiry_later {balance : ℚ} {r : Rating} {now later : Clock}
    (h : (dialogExpiry now (maxDurationSec balance r)).isSome) (hle : now.time ≤ later.time) :
    (dialogExpiry later (maxDurationSec balance r)).isSome := by
  cases hsec : maxDurationSec balance r with
  | fin q =>
    rw [hsec, dialogExpiry_eq now (maxDurationSec_le_day hsec)] at h
    rw [dialogExpiry_eq later (maxDurationSec_le_day hsec)]
    split_ifs at h with hnonneg
    · rw [if_pos (by linarith)]
      rfl
    · cases h
  | _ =>
    rw [hsec] at h
    cases h

/-- A call that is authorised again gets no second dialog. -/
theorem length_kamDialogs_of_isSome {now : Clock} {a : AuthorizeArgs} {b : Box}
    (h : (b.kamDialogs.get a.callId).isSome) :
    (authorizeCall now a b).2.kamDialogs.rows.length = b.kamDialogs.rows.length := by
  rcases authorizeCall_cases now a b with ⟨hbox, -⟩ | ⟨sub, expiresAt, -, -, -, -, heq⟩
  · rw [hbox]
  · rw [heq]
    exact KeyedTable.length_upsert (t := b.kamDialogs) (f := refreshDialog expiresAt)
      (fun _ => rfl) (r := newDialog now a (matchTariff b a.callee) expiresAt) h

/-- **When a repetition is answered as before.** -/
theorem answeredAsBefore_iff {s : Proxy} (hs : s.Sound) {now : Clock} {a : AuthorizeArgs}
    {p : Permission} (hrep : Repeats s a p) (hontime : p.time.time ≤ now.time) :
    AnsweredAsBefore s now a p ↔ ∀ sub, s.box.subscribers.get a.caller = some sub →
      countActiveCalls s.box a.caller < sub.maxConcurrentCalls := by
  have hallowed := hs p hrep.allowed
  rw [hrep.args] at hallowed
  obtain ⟨sub, hadmitted, hgrant, hexp⟩ := allowed_iff.1 hallowed
  have hrate := matchTariff_congr hrep.tariffs a.callee
  constructor
  · rintro ⟨g, hg, -⟩ sub' hsub'
    obtain ⟨sub'', hadmitted', -⟩ := allowed_iff.1 hg
    obtain rfl : sub' = sub'' := Option.some.inj (hsub'.symm.trans hadmitted'.registered)
    exact hadmitted'.room
  · intro hroom
    have hsub : s.box.subscribers.get a.caller = some sub :=
      hrep.subscriber.trans hadmitted.registered
    have hagain : Admitted a s.box sub :=
      ⟨hsub, hadmitted.active, hroom sub hsub, by rw [hrate]; exact hadmitted.funds⟩
    have hsame : grantOf a s.box sub = p.grant := by
      rw [hgrant, grantOf, grantOf, hrate]
    refine ⟨p.grant, allowed_iff.2 ⟨sub, hagain, hsame.symm, ?_⟩, rfl, rfl, rfl,
      length_kamDialogs_of_isSome hrep.dialog⟩
    rw [hgrant] at hexp ⊢
    exact dialogExpiry_later hexp hontime

/-! ## Whole histories -/

/-- **When INVITEs can be retransmitted.**  In every history whose times do not go back, from any
spaces and with any sweeps, every repeated authorisation is answered as before exactly if at each
of them the caller has a channel free. -/
theorem idempotent_iff {b : Box} {l : List Event} (h : (requestTimes l).Pairwise (· ≤ ·)) :
    AllSteps Proxy.step Idempotent ⟨b, []⟩ l ↔ AllSteps Proxy.step ChannelFree ⟨b, []⟩ l := by
  have hontime : AllSteps Proxy.step OnTime ⟨b, []⟩ l :=
    allSteps_onTime (fun p hp => nomatch hp) h
  refine AllSteps.iff_of_invariant (I := Proxy.Sound) ?_ (fun s e hs _ _ => hs.step e) ?_ hontime
  · intro s e hs hontime
    match e with
    | .request now (.authorizeCall a) =>
      exact forall_congr' fun p => forall_congr' fun hrep =>
        answeredAsBefore_iff hs hrep (hontime p hrep.allowed)
    | .request _ (.finalizeCdr _) => exact Iff.rfl
    | .request _ (.setTariff _) => exact Iff.rfl
    | .request _ (.addSubscriber _) => exact Iff.rfl
    | .request _ (.updateBalance _ _) => exact Iff.rfl
    | .sweep _ => exact Iff.rfl
  · intro p hp
    cases hp

/-- A history that opens the shop of `Rating` and gets an INVITE twice, a minute apart. -/
def twoInvites (maxCalls : ℚ) : List Event :=
  [.request noon (.addSubscriber ⟨ascii "alice", some 10, none, some maxCalls, none⟩),
    .request noon (.setTariff ⟨ascii "7", none, some 1, some 0⟩),
    .request noon (.authorizeCall (aliceCall "c1")),
    .request noonPlusMinute (.authorizeCall (aliceCall "c1"))]

theorem sorted_twoInvites (maxCalls : ℚ) :
    (requestTimes (twoInvites maxCalls)).Pairwise (· ≤ ·) := by
  show List.Pairwise (· ≤ ·) [noon.time, noon.time, noon.time, noonPlusMinute.time]
  norm_num [noon, noonPlusMinute, Clock.ofSeconds]

/-- With two channels the second INVITE is answered as the first. -/
theorem idempotent_twoChannels :
    AllSteps Proxy.step Idempotent ⟨Box.init, []⟩ (twoInvites 2) := by
  refine (idempotent_iff (sorted_twoInvites 2)).2 ⟨trivial, trivial, ?_, ?_, trivial⟩
  · intro p hrep
    cases hrep.allowed
  · intro p _ sub hsub
    have hmax : ((run Proxy.step ⟨Box.init, []⟩ ((twoInvites 2).take 3)).box.subscribers.get
        (ascii "alice")).map Subscriber.maxConcurrentCalls = some 2 := by
      decide +kernel
    have hcount : countActiveCalls (run Proxy.step ⟨Box.init, []⟩ ((twoInvites 2).take 3)).box
        (ascii "alice") < 2 := by
      decide +kernel
    have hthis : (run Proxy.step ⟨Box.init, []⟩ ((twoInvites 2).take 3)).box.subscribers.get
        (ascii "alice") = some sub := hsub
    rw [hthis, Option.map_some, Option.some.injEq] at hmax
    rw [hmax]
    exact hcount

/-- **A retransmission that is refused.**  With one channel the second INVITE finds the call of the
first, and `alice` at her limit. -/
theorem not_idempotent_oneChannel :
    ¬ ∀ l : List Event, (requestTimes l).Pairwise (· ≤ ·) →
      AllSteps Proxy.step Idempotent ⟨Box.init, []⟩ l := by
  intro h
  obtain ⟨-, -, -, hsame, -⟩ := h (twoInvites 1) (sorted_twoInvites 1)
  have hrep : Repeats (run Proxy.step ⟨Box.init, []⟩ ((twoInvites 1).take 3)) (aliceCall "c1")
      ⟨noon, aliceCall "c1", ⟨.fin 600, 1, ascii "7", ascii "USD"⟩, shop 10 1 1 0⟩ := by
    have htariffs : (authorizeCall noon (aliceCall "c1") (shop 10 1 1 0)).2.tariffs =
        (shop 10 1 1 0).tariffs := by
      rw [authorizeCall_frame]
    refine ⟨?_, rfl, by decide +kernel, by decide +kernel, htariffs⟩
    have hallowed : (authorizeCall noon (aliceCall "c1") (shop 10 1 1 0)).1 =
        .ok (.allowed ⟨.fin 600, 1, ascii "7", ascii "USD"⟩) := by
      decide +kernel
    show _ ∈ Proxy.permissions ⟨shop 10 1 1 0, []⟩ noon (.authorizeCall (aliceCall "c1"))
    rw [Proxy.permissions, hallowed]
    exact List.mem_cons_self
  obtain ⟨g, hg, -⟩ := hsame _ hrep
  have hrefused : (authorizeCall noonPlusMinute (aliceCall "c1")
      (run Proxy.step ⟨Box.init, []⟩ ((twoInvites 1).take 3)).box).1 =
        .ok (.refused .maxConcurrentCallsExceeded) := by
    decide +kernel
  cases hrefused.symm.trans hg

end VoipBackend
