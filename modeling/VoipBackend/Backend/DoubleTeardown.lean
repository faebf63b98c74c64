import VoipBackend.Backend.Fibers

/-!
# One call, several teardowns

The end of a call may be reported more than once, by the SIP proxy and by the media
relay.  The dialog guards against a second charge: a teardown that does not find it
charges no one.  But `finalize_cdr` makes its debit first and removes the dialog two
writes later, and a teardown whose CDR is refused never removes it.

Here any number of fibers finalise one call, and `debits` counts the turns that lower
the balance of a subscriber.  There is at most one as long as a teardown that would
charge the subscriber is the first to start (`debits_le_one`);
`two_teardowns_debit_twice` is an interleaving of two teardowns that pay twice.
-/

namespace VoipBackend

open Library

variable {ι : Type} [DecidableEq ι]

/-- A turn that lowers the balance of a subscriber counts as one. -/
def debitOf (subId : LuaString) (c : Fibers ι) (x : ι × Env) : ℕ :=
  if (c.turn x).shared.balanceOf subId < c.shared.balanceOf subId then 1 else 0

/-- The number of times the balance of a subscriber is lowered in a run. -/
def debits (subId : LuaString) (c : Fibers ι) (l : List (ι × Env)) : ℕ :=
  total Fibers.turn (debitOf subId) c l

/-- Fibers that are all about to finalise the call `callId`, each with a report of its
own. -/
def teardowns (b : Box) (callId : LuaString) (report : ι → FinalizeArgs) : Fibers ι :=
  ⟨b, fun i => .request (.finalizeCdr { report i with callId := callId })⟩

/-- No teardown has started yet. -/
def NoneStarted (c : Fibers ι) : Prop := ∀ i, (c.fiber i).pending.isSome

/-- A teardown that starts and would charge the subscriber, because the dialog is still
there, is the first one to start. -/
def FirstToCharge (subId : LuaString) (c : Fibers ι) (x : ι × Env) : Prop :=
  ∀ a ∈ (c.fiber x.1).pending, chargedSubscriber a.callId c.shared = subId → NoneStarted c

instance [Fintype ι] (c : Fibers ι) : Decidable (NoneStarted c) :=
  inferInstanceAs (Decidable (∀ i, (c.fiber i).pending.isSome))

instance [Fintype ι] (subId : LuaString) (c : Fibers ι) (x : ι × Env) :
    Decidable (FirstToCharge subId c x) :=
  inferInstanceAs (Decidable (∀ a ∈ (c.fiber x.1).pending, _ → NoneStarted c))

/-! ## What a turn of a teardown does -/

/-- A teardown that starts leaves everyone alone but the subscriber it charges. -/
theorem balanceOf_startFinalizeCdr {now : Clock} {a : FinalizeArgs} {b : Box} {subId : LuaString}
    (h : chargedSubscriber a.callId b ≠ subId) :
    (startFinalizeCdr now a b).2.balanceOf subId = b.balanceOf subId := by
  unfold Box.balanceOf
  rw [startFinalizeCdr_subscribers, get_deduct, finalizeLocals_caller, if_neg (Ne.symm h)]

/-! ## At most one debit -/

/-- A turn lowers the balance only if the teardown starts and charges the subscriber. -/
theorem debitOf_eq_zero {subId : LuaString} {c : Fibers ι} {x : ι × Env}
    (hteardown : (c.fiber x.1).IsTeardown)
    (h : ∀ a ∈ (c.fiber x.1).pending, chargedSubscriber a.callId c.shared ≠ subId) :
    debitOf subId c x = 0 := by
  have hbalance : (c.turn x).shared.balanceOf subId = c.shared.balanceOf subId := by
    show (resume x.2 (c.fiber x.1) c.shared).2.balanceOf subId = _
    cases hpending : (c.fiber x.1).pending with
    | some a =>
      rw [eq_request_of_pending hpending]
      exact balanceOf_startFinalizeCdr (h a hpending)
    | none =>
      unfold Box.balanceOf
      rw [resume_subscribers hteardown hpending]
  rw [debitOf, hbalance, if_neg (lt_irrefl _)]

open Classical in
/-- **At most one debit.**  Whatever the number of teardowns of a call, their reports and
their interleaving: if a teardown that starts and would charge the subscriber is always
the first to start, the balance is lowered at most once. -/
theorem debits_le_one {b : Box} {callId : LuaString} {report : ι → FinalizeArgs}
    {subId : LuaString} {l : List (ι × Env)}
    (h : AllSteps Fibers.turn (FirstToCharge subId) (teardowns b callId report) l) :
    debits subId (teardowns b callId report) l ≤ 1 := by
  have hstart : ∀ i, ((teardowns b callId report).fiber i).IsTeardown := fun _ => trivial
  have hallowance : (if NoneStarted (teardowns b callId report) then 1 else 0) ≤ 1 := by
    split_ifs <;> omega
  -- the allowance is one until the first teardown starts, and nothing afterwards
  refine le_trans (total_le_of_budget (I := fun c : Fibers ι => ∀ i, (c.fiber i).IsTeardown)
    (φ := fun c => if NoneStarted c then 1 else 0) ?_ hstart h) hallowance
  intro c x hc hx
  obtain ⟨i, env⟩ := x
  have hnext : ¬ NoneStarted (c.turn (i, env)) := by
    intro hnone
    have hsome := hnone i
    rw [Config.turn_fiber_self, pending_resume] at hsome
    cases hsome
  refine ⟨fun j => ?_, ?_⟩
  · by_cases hj : j = i
    · rw [hj, Config.turn_fiber_self]
      exact isTeardown_resume (hc i) env c.shared
    · rw [Config.turn_fiber_of_ne resume c env hj]
      exact hc j
  · rw [if_neg hnext, add_zero]
    by_cases hfirst : NoneStarted c
    · rw [if_pos hfirst, debitOf]
      split_ifs <;> omega
    · rw [if_neg hfirst, debitOf_eq_zero (hc i)]
      intro a ha hcharge
      exact hfirst (hx a ha hcharge)

/-- The call `c1` of `alice`, torn down by two fibers with a report of one minute. -/
def twoTeardowns : Fibers Bool :=
  teardowns (authorizeCall noon (aliceCall "c1") (shop 10 1 1 0)).2 (ascii "c1")
    fun _ => teardown "c1" 60

/-- One teardown after the other: the second finds no dialog. -/
theorem debits_le_one_in_turn :
    debits (ascii "alice") twoTeardowns
      [(false, ⟨noon, true⟩), (false, ⟨noon, true⟩), (false, ⟨noon, true⟩), (true, ⟨noon, true⟩)]
      ≤ 1 :=
  debits_le_one (by decide +kernel)

/-- **A call that is paid twice.**  The second teardown starts after the debit of the
first, while the dialog is still there. -/
theorem two_teardowns_debit_twice :
    ¬ debits (ascii "alice") twoTeardowns [(false, ⟨noon, true⟩), (true, ⟨noon, true⟩)] ≤ 1 := by
  decide +kernel

end VoipBackend
