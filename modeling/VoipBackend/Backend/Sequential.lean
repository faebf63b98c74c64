import VoipBackend.Lib.Execution
import VoipBackend.Backend.Teardown

/-!
# The procedures one at a time

A request names a billing procedure with its arguments; `perform` serves it to
the end at a given time.  A history of the backend without concurrency is a list
of requests, and its effect is a run of `perform`.
-/

namespace VoipBackend

open Library

/-- A request to the billing service. -/
inductive Op where
  | addSubscriber (a : AddSubscriberArgs)
  | updateBalance (subId : LuaString) (deltaAmount : ℚ)
  | setTariff (a : SetTariffArgs)
  | authorizeCall (a : AuthorizeArgs)
  | finalizeCdr (a : FinalizeArgs)

/-- A request served to the end: the spaces it leaves. -/
def perform (b : Box) (x : Clock × Op) : Box :=
  match x.2 with
  | .addSubscriber a => (addSubscriber x.1 a b).2
  | .updateBalance subId deltaAmount => (updateBalance x.1 subId deltaAmount b).2
  | .setTariff a => setTariff a b
  | .authorizeCall a => (authorizeCall x.1 a b).2
  | .finalizeCdr a => (finalizeCdr x.1 a b).2

/-- The balance of a subscriber, zero if there is none. -/
def Box.balanceOf (b : Box) (subId : LuaString) : ℚ :=
  (b.subscribers.get subId).elim 0 Subscriber.balance

/-! ## What a request leaves alone -/

theorem addSubscriber_frame (now : Clock) (a : AddSubscriberArgs) (b : Box) :
    (addSubscriber now a b).2 =
      { b with subscribers := (addSubscriber now a b).2.subscribers } := by
  unfold addSubscriber
  cases unsigned? (a.maxCalls.getD 5) <;> rfl

theorem updateBalance_frame (now : Clock) (subId : LuaString) (deltaAmount : ℚ) (b : Box) :
    (updateBalance now subId deltaAmount b).2 =
      { b with subscribers := (updateBalance now subId deltaAmount b).2.subscribers } := by
  unfold updateBalance
  cases b.subscribers.get subId <;> rfl

/-- Only `finalize_cdr` writes CDRs. -/
theorem perform_cdrs (b : Box) (now : Clock) {op : Op} (h : ∀ a, op ≠ .finalizeCdr a) :
    (perform b (now, op)).cdrs = b.cdrs := by
  cases op with
  | addSubscriber a =>
    show (addSubscriber now a b).2.cdrs = b.cdrs
    rw [addSubscriber_frame]
  | updateBalance subId deltaAmount =>
    show (updateBalance now subId deltaAmount b).2.cdrs = b.cdrs
    rw [updateBalance_frame]
  | setTariff a => rfl
  | authorizeCall a =>
    show (authorizeCall now a b).2.cdrs = b.cdrs
    rw [authorizeCall_frame]
  | finalizeCdr a => exact absurd rfl (h a)

end VoipBackend
