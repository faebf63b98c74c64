import VoipBackend.Backend.Ledger
import VoipBackend.Backend.Registration
import VoipBackend.Backend.TariffMatch

/-!
# Does a teardown add to a balance?

`finalize_cdr` takes the price of the call from the balance and stores zero where the difference is
negative.  With prices that are not negative the difference is never more than the balance; but a
balance that `update_balance` has made negative is less than zero, and the teardown raises it.  So
teardowns raise no balance exactly in the histories in which none of them charges a subscriber whose
balance is negative (`teardowns_raise_nothing_iff`).
-/

namespace VoipBackend

open Library

/-! ## Prices -/

/-- No price is negative: neither in the tariffs nor in the terms of a dialog. -/
structure FairPrices (b : Box) : Prop where
  tariffs : ∀ t ∈ b.tariffs.rows, 0 ≤ t.rating.ratePerMin ∧ 0 ≤ t.rating.connectFee
  dialogs : ∀ callId dlg, b.kamDialogs.get callId = some dlg →
    0 ≤ dlg.terms.ratePerMin ∧ 0 ≤ dlg.terms.connectFee

/-- A request that sets no negative price. -/
def SetsFairPrice (_ : Box) : Clock × Op → Prop
  | (_, .setTariff a) => 0 ≤ a.tariff.costPerMinute ∧ 0 ≤ a.tariff.connectFee
  | _ => True

theorem fairPrices_init : FairPrices Box.init where
  tariffs t ht := by cases ht
  dialogs callId dlg h := by cases h

/-- Nothing is rated with a negative price. -/
theorem FairPrices.rating {b : Box} (h : FairPrices b) (destination : LuaString) :
    0 ≤ (matchTariff b destination).ratePerMin ∧ 0 ≤ (matchTariff b destination).connectFee := by
  rcases matchTariff_cases b destination with ⟨t, hlongest, heq⟩ | ⟨-, heq⟩
  · rw [heq]
    exact h.tariffs t hlongest.stored
  · rw [heq, defaultRating]
    cases hget : b.tariffs.get (ascii "default") with
    | some t => exact h.tariffs t (KeyedTable.mem_of_get hget)
    | none => norm_num

theorem FairPrices.authorizeCall {b : Box} (h : FairPrices b) (now : Clock) (a : AuthorizeArgs) :
    FairPrices (authorizeCall now a b).2 := by
  rcases authorizeCall_cases now a b with ⟨hbox, -⟩ | ⟨sub, expiresAt, -, -, -, -, heq⟩
  · rw [hbox]
    exact h
  · rw [heq]
    refine ⟨h.tariffs, fun callId dlg hget => ?_⟩
    rw [get_upsertDialog] at hget
    split_ifs at hget
    · cases hold : b.kamDialogs.get (newDialog now a (matchTariff b a.callee) expiresAt).callId with
      | none =>
        rw [hold] at hget
        cases hget
        exact h.rating a.callee
      | some old =>
        -- the terms of the dialog stay as they were registered
        rw [hold] at hget
        cases hget
        exact h.dialogs _ old hold
    · exact h.dialogs callId dlg hget

theorem FairPrices.finalizeCdr {b : Box} (h : FairPrices b) (now : Clock) (a : FinalizeArgs) :
    FairPrices (finalizeCdr now a b).2 := by
  rcases finalizeCdr_cases now a b with ⟨cdr, -, heq⟩ | ⟨e, -, heq⟩
  · rw [heq]
    refine ⟨h.tariffs, fun callId dlg hget => ?_⟩
    change (b.kamDialogs.delete a.callId).get callId = some dlg at hget
    rw [KeyedTable.get_delete] at hget
    split_ifs at hget
    exact h.dialogs callId dlg hget
  · rw [heq]
    exact ⟨h.tariffs, h.dialogs⟩

theorem FairPrices.perform {b : Box} (h : FairPrices b) {x : Clock × Op} (hx : SetsFairPrice b x) :
    FairPrices (perform b x) := by
  obtain ⟨now, op⟩ := x
  cases op with
  | addSubscriber a =>
    show FairPrices (addSubscriber now a b).2
    rw [addSubscriber_frame]
    exact ⟨h.tariffs, h.dialogs⟩
  | updateBalance subId deltaAmount =>
    show FairPrices (updateBalance now subId deltaAmount b).2
    rw [updateBalance_frame]
    exact ⟨h.tariffs, h.dialogs⟩
  | setTariff a =>
    refine ⟨fun t ht => ?_, h.dialogs⟩
    rcases KeyedTable.mem_putRow ht with rfl | hold
    · exact hx
    · exact h.tariffs t hold
  | authorizeCall a => exact h.authorizeCall now a
  | finalizeCdr a => exact h.finalizeCdr now a

/-! ## One teardown -/

theorem billedAmount_nonneg {connectFee ratePerMin : ℚ} (hfee : 0 ≤ connectFee)
    (hrate : 0 ≤ ratePerMin) (d : ℕ) : 0 ≤ billedAmount connectFee ratePerMin d := by
  have hminutes : (0 : ℚ) ≤ billableMinutes d := by
    have hceil : 0 ≤ ⌈(d : ℚ) / 60⌉ := Int.ceil_nonneg (by positivity)
    rw [billableMinutes_eq]
    exact_mod_cast hceil
  rw [billedAmount]
  positivity

theorem FairPrices.teardownPrice {b : Box} (h : FairPrices b) {a : FinalizeArgs} {d : ℕ}
    (hd : a.durationSec = some ↑d) : 0 ≤ teardownPrice a b := by
  unfold VoipBackend.teardownPrice
  rw [hd]
  cases hdlg : b.kamDialogs.get a.callId with
  | none => exact billedAmount_nonneg le_rfl (by norm_num [dialogExtra, DialogExtra.none]) d
  | some dlg =>
    obtain ⟨hrate, hfee⟩ := h.dialogs a.callId dlg hdlg
    exact billedAmount_nonneg hfee hrate d

theorem max_zero_sub_le_iff {x p : ℚ} (hp : 0 ≤ p) : max 0 (x - p) ≤ x ↔ 0 ≤ x := by
  rw [max_le_iff, and_iff_left (by linarith)]

/-- A teardown of whole seconds raises no balance. -/
def RaisesNothing (b : Box) : Clock × Op → Prop
  | (now, .finalizeCdr a) => ∀ d : ℕ, a.durationSec = some ↑d → ∀ k sub sub',
      b.subscribers.get k = some sub → (finalizeCdr now a b).2.subscribers.get k = some sub' →
        sub'.balance ≤ sub.balance
  | _ => True

/-- A teardown of whole seconds charges nobody whose balance is negative. -/
def ChargesNoDebtor (b : Box) : Clock × Op → Prop
  | (_, .finalizeCdr a) => ∀ d : ℕ, a.durationSec = some ↑d → ∀ sub,
      b.subscribers.get (chargedSubscriber a.callId b) = some sub → 0 ≤ sub.balance
  | _ => True

theorem raisesNothing_iff {b : Box} (h : FairPrices b) (x : Clock × Op) :
    RaisesNothing b x ↔ ChargesNoDebtor b x := by
  obtain ⟨now, op⟩ := x
  cases op with
  | finalizeCdr a =>
    refine forall_congr' fun d => forall_congr' fun hd => ?_
    have hprice := h.teardownPrice hd
    have hafter : ∀ k, (finalizeCdr now a b).2.subscribers.get k =
        if k = chargedSubscriber a.callId b then
          (b.subscribers.get k).map (finalizeLocals now a b).charge
        else b.subscribers.get k := by
      intro k
      rw [finalizeCdr_subscribers, get_deduct, finalizeLocals_caller]
      split_ifs with hk
      · rw [hk]
      · rfl
    constructor
    · intro hraises sub hsub
      have hle := hraises _ sub ((finalizeLocals now a b).charge sub) hsub
        (by rw [hafter, if_pos rfl, hsub]; rfl)
      change (finalizeLocals now a b).newBalance ≤ sub.balance at hle
      rwa [finalizeLocals_newBalance now hsub, max_zero_sub_le_iff hprice] at hle
    · intro hcharges k sub sub' hsub hsub'
      rw [hafter] at hsub'
      split_ifs at hsub' with hk
      · rw [hsub, Option.map_some] at hsub'
        subst hk
        rw [← Option.some.inj hsub']
        show (finalizeLocals now a b).newBalance ≤ sub.balance
        rw [finalizeLocals_newBalance now hsub, max_zero_sub_le_iff hprice]
        exact hcharges sub hsub
      · rw [← Option.some.inj (hsub.symm.trans hsub')]
  | _ => exact Iff.rfl

/-! ## Whole histories -/

/-- **When teardowns raise no balance.**  In every history of requests that sets no negative price,
exactly if no teardown charges a subscriber whose balance is negative. -/
theorem teardowns_raise_nothing_iff {l : List (Clock × Op)}
    (h : AllSteps perform SetsFairPrice Box.init l) :
    AllSteps perform RaisesNothing Box.init l ↔ AllSteps perform ChargesNoDebtor Box.init l :=
  AllSteps.iff_of_invariant (I := FairPrices) (fun _ x hs _ => raisesNothing_iff hs x)
    (fun _ _ hs hx _ => hs.perform hx) fairPrices_init h

/-- A history in which `alice` is authorised, her balance is changed, and her call of a minute
ends. -/
def changedMidCall (delta : ℚ) : List (Clock × Op) :=
  [(noon, .addSubscriber ⟨ascii "alice", some 10, none, some 1, none⟩),
    (noon, .setTariff ⟨ascii "7", none, some 1, some 0⟩),
    (noon, .authorizeCall (aliceCall "c1")),
    (noon, .updateBalance (ascii "alice") delta),
    (noonPlusMinute, .finalizeCdr (teardown "c1" 60))]

theorem setsFairPrice_changedMidCall (delta : ℚ) :
    AllSteps perform SetsFairPrice Box.init (changedMidCall delta) := by
  refine ⟨trivial, ⟨?_, ?_⟩, trivial, trivial, trivial, trivial⟩ <;>
    norm_num [SetTariffArgs.tariff]

/-- With 5 left, the teardown takes 1. -/
theorem teardowns_raise_nothing_five :
    AllSteps perform RaisesNothing Box.init (changedMidCall (-5)) := by
  refine (teardowns_raise_nothing_iff (setsFairPrice_changedMidCall (-5))).2
    ⟨trivial, trivial, trivial, trivial, ?_, trivial⟩
  intro d _ sub hsub
  have hbalance : (((run perform Box.init ((changedMidCall (-5)).take 4)).subscribers.get
      (chargedSubscriber (ascii "c1")
        (run perform Box.init ((changedMidCall (-5)).take 4)))).map Subscriber.balance) =
      some 5 := by
    decide +kernel
  have hthis : (run perform Box.init ((changedMidCall (-5)).take 4)).subscribers.get
      (chargedSubscriber (ascii "c1") (run perform Box.init ((changedMidCall (-5)).take 4))) =
        some sub := hsub
  rw [hthis, Option.map_some, Option.some.injEq] at hbalance
  rw [hbalance]
  norm_num

/-- **A teardown that pays.**  `alice` owes 10 when her call ends, and nothing afterwards. -/
theorem teardown_raises_debtor :
    ¬ ∀ l : List (Clock × Op), AllSteps perform SetsFairPrice Box.init l →
      AllSteps perform RaisesNothing Box.init l := by
  intro h
  obtain ⟨-, -, -, -, hraises, -⟩ := h (changedMidCall (-20)) (setsFairPrice_changedMidCall (-20))
  have hle := hraises 60 (by norm_num [teardown]) (ascii "alice")
    { alice (-10) 1 with updatedAt := noon.epoch }
    { alice 0 1 with updatedAt := noonPlusMinute.epoch } (by decide +kernel) (by decide +kernel)
  revert hle
  norm_num [alice]

end VoipBackend
