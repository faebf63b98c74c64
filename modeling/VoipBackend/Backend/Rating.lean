import VoipBackend.Backend.BillingLaws

/-!
# Does a granted call stay within the balance?

`authorize_call` divides the balance into seconds, `finalize_cdr` charges whole
minutes rounded up.  This file compares the two for a call that runs for any
time within its grant.  They agree exactly when the credit left after the
connect fee either pays for the whole day a grant is cut off at, or exceeds a
whole number of minutes by less than one second (`grantCovered_iff`).  In all
other cases a call that uses its grant costs more than the balance it was
granted from, and `grant_not_covered` shows one.
-/

namespace VoipBackend

open Library

/-! ## Minutes against seconds -/

/-- Rounding the seconds of a grant up to minutes stays within `x` minutes of
credit exactly when the grant is cut off at a day or has no started minute. -/
theorem ceil_minutes_le_iff {x : ℚ} (hx : 0 ≤ x) :
    (∀ d : ℤ, 0 ≤ d → d ≤ min ⌊x * 60⌋ 86400 → ((⌈(d : ℚ) / 60⌉ : ℤ) : ℚ) ≤ x) ↔
      1440 ≤ x ∨ Int.fract x < 1 / 60 := by
  have hfloor : (⌊x⌋ : ℚ) ≤ x := Int.floor_le x
  have hlt : x < ⌊x⌋ + 1 := Int.lt_floor_add_one x
  have hfract : Int.fract x = x - ⌊x⌋ := rfl
  constructor
  · intro h
    by_contra hcon
    push Not at hcon
    obtain ⟨hday, hsec⟩ := hcon
    -- the first second of the started minute is granted and costs all of it
    have hk : 0 ≤ ⌊x⌋ := Int.floor_nonneg.2 hx
    have hk' : ⌊x⌋ < 1440 := by exact_mod_cast lt_of_le_of_lt hfloor hday
    have hd : 60 * ⌊x⌋ + 1 ≤ min ⌊x * 60⌋ 86400 := by
      refine le_min (Int.le_floor.2 ?_) (by omega)
      push_cast
      linarith
    have hceil : ⌊x⌋ + 1 ≤ ⌈((60 * ⌊x⌋ + 1 : ℤ) : ℚ) / 60⌉ := by
      refine Int.add_one_le_iff.2 (Int.lt_ceil.2 ?_)
      push_cast
      linarith
    have hle := h (60 * ⌊x⌋ + 1) (by omega) hd
    have hceil' : ((⌊x⌋ + 1 : ℤ) : ℚ) ≤ ⌈((60 * ⌊x⌋ + 1 : ℤ) : ℚ) / 60⌉ := by
      exact_mod_cast hceil
    push_cast at hceil' hle
    linarith
  · intro h d _ hd
    obtain ⟨hdfloor, hdday⟩ := le_min_iff.1 hd
    rcases h with hday | hsec
    · have hceil : ⌈(d : ℚ) / 60⌉ ≤ 1440 := by
        refine Int.ceil_le.2 ?_
        have : (d : ℚ) ≤ 86400 := by exact_mod_cast hdday
        push_cast
        linarith
      have : ((⌈(d : ℚ) / 60⌉ : ℤ) : ℚ) ≤ 1440 := by exact_mod_cast hceil
      linarith
    · have hmin : ⌊x * 60⌋ ≤ 60 * ⌊x⌋ := by
        refine Int.lt_add_one_iff.1 (Int.floor_lt.2 ?_)
        push_cast
        linarith
      have hceil : ⌈(d : ℚ) / 60⌉ ≤ ⌊x⌋ := by
        refine Int.ceil_le.2 ?_
        have : (d : ℚ) ≤ 60 * ⌊x⌋ := by exact_mod_cast hdfloor.trans hmin
        linarith
      have : ((⌈(d : ℚ) / 60⌉ : ℤ) : ℚ) ≤ ⌊x⌋ := by exact_mod_cast hceil
      linarith

/-! ## The dialog of an allowed call -/

/-- The dialog an allowed call leaves under a call id that had none. -/
theorem get_dialog_of_allowed {now : Clock} {a : AuthorizeArgs} {b : Box} {g : Grant}
    (hfresh : b.kamDialogs.get a.callId = none)
    (h : (authorizeCall now a b).1 = .ok (.allowed g)) :
    ∃ expiresAt, (authorizeCall now a b).2.kamDialogs.get a.callId =
      some (newDialog now a (matchTariff b a.callee) expiresAt) := by
  rcases authorizeCall_cases now a b with ⟨-, hno⟩ | ⟨sub, expiresAt, -, -, -, -, heq⟩
  · exact absurd h (hno g)
  · refine ⟨expiresAt, ?_⟩
    rw [heq, get_upsertDialog, newDialog_callId, if_pos rfl, hfresh]
    rfl

/-- What `finalize_cdr` charges when it finds the dialog `authorize_call`
registered. -/
theorem billedAmount_of_newDialog {now later : Clock} {a : AuthorizeArgs} {r : Rating}
    {expiresAt : ℕ} {b : Box} {f : FinalizeArgs}
    (h : b.kamDialogs.get f.callId = some (newDialog now a r expiresAt)) :
    (finalizeLocals later f b).billedAmount =
      billedAmount r.connectFee r.ratePerMin (f.durationSec.getD 0) := by
  simp only [finalizeLocals, h]
  rfl

/-! ## The two prices -/

/-- For every duration within the grant, `finalize_cdr` computes an amount for the
registered dialog that the balance seen by `authorize_call` covers. -/
def GrantCovered (now : Clock) (a : AuthorizeArgs) (b : Box) : Prop :=
  ∀ sub g m, b.subscribers.get a.caller = some sub →
    (authorizeCall now a b).1 = .ok (.allowed g) → g.maxDurationSec = .fin m →
    ∀ (later : Clock) (f : FinalizeArgs) (d : ℤ), f.callId = a.callId → f.durationSec = some ↑d →
      0 ≤ d → (d : ℚ) ≤ m →
      (finalizeLocals later f (authorizeCall now a b).2).billedAmount ≤ sub.balance

/-- **When a grant stays within the balance.**  For an allowed call with a fresh
call id and a positive rate, every duration within the grant is covered exactly
when the credit after the connect fee pays for a whole day, or for a whole number
of minutes and less than one second. -/
theorem grantCovered_iff {now : Clock} {a : AuthorizeArgs} {b : Box} {sub : Subscriber} {g : Grant}
    (hrate : 0 < (matchTariff b a.callee).ratePerMin)
    (hfresh : b.kamDialogs.get a.callId = none)
    (hsub : b.subscribers.get a.caller = some sub)
    (hallowed : (authorizeCall now a b).1 = .ok (.allowed g)) :
    GrantCovered now a b ↔
      1440 * (matchTariff b a.callee).ratePerMin ≤
          sub.balance - (matchTariff b a.callee).connectFee ∨
        Int.fract ((sub.balance - (matchTariff b a.callee).connectFee) /
          (matchTariff b a.callee).ratePerMin) < 1 / 60 := by
  set r := matchTariff b a.callee with hr
  obtain ⟨expiresAt, hdlg⟩ := get_dialog_of_allowed hfresh hallowed
  rcases authorizeCall_cases now a b with ⟨-, hno⟩ | ⟨sub', exp', hsub', -, hfunds, -, heq⟩
  · exact absurd hallowed (hno g)
  obtain rfl : sub = sub' := Option.some.inj (hsub.symm.trans hsub')
  rw [← hr] at hfunds heq
  have hg : g.maxDurationSec =
      .fin (min ⌊(sub.balance - r.connectFee) / r.ratePerMin * 60⌋ 86400 : ℤ) := by
    rw [heq] at hallowed
    cases hallowed
    exact maxDurationSec_of_pos sub.balance hrate
  have hx : 0 ≤ (sub.balance - r.connectFee) / r.ratePerMin := by
    rw [totalMinRequired] at hfunds
    exact div_nonneg (by linarith [div_pos hrate (by norm_num : (0 : ℚ) < 6)]) hrate.le
  have hbill : ∀ (later : Clock) (f : FinalizeArgs) (d : ℤ), f.callId = a.callId →
      f.durationSec = some ↑d →
      ((finalizeLocals later f (authorizeCall now a b).2).billedAmount ≤ sub.balance ↔
        ((⌈(d : ℚ) / 60⌉ : ℤ) : ℚ) ≤ (sub.balance - r.connectFee) / r.ratePerMin) := by
    intro later f d hf hd
    rw [billedAmount_of_newDialog (hf ▸ hdlg), hd, billedAmount, billableMinutes_eq,
      le_div_iff₀ hrate, Option.getD_some, le_sub_iff_add_le']
  rw [← le_div_iff₀ hrate, ← ceil_minutes_le_iff hx]
  constructor
  · intro h d hd0 hd
    have hm : (d : ℚ) ≤ (min ⌊(sub.balance - r.connectFee) / r.ratePerMin * 60⌋ 86400 : ℤ) := by
      exact_mod_cast hd
    exact (hbill now ⟨a.callId, some d, .nil, .nil, .nil, .nil⟩ d rfl rfl).1
      (h sub g _ hsub hallowed hg now _ d rfl rfl hd0 hm)
  · intro h sub' g' m hsub' hallowed' hm later f d hf hd hd0 hdm
    obtain rfl : sub = sub' := Option.some.inj (hsub.symm.trans hsub')
    obtain rfl : g = g' := by
      rw [hallowed] at hallowed'
      cases hallowed'
      rfl
    rw [hg] at hm
    cases hm
    exact (hbill later f d hf hd).2 (h d hd0 (by exact_mod_cast hdm))

/-! ## A shop with one subscriber and one tariff -/

/-- Noon of some day, in seconds since the epoch. -/
def noon : Clock := .ofSeconds 1700000000 (by norm_num)

/-- One minute after noon. -/
def noonPlusMinute : Clock := .ofSeconds 1700000060 (by norm_num)

/-- Spaces with the subscriber `alice` and a tariff for the prefix `7`, as the
provisioning procedures set them up. -/
def shop (balance maxCalls rate fee : ℚ) : Box :=
  setTariff ⟨ascii "7", none, some rate, some fee⟩
    (addSubscriber noon ⟨ascii "alice", some balance, none, some maxCalls, none⟩ Box.init).2

/-- The subscriber of the shop. -/
def alice (balance : ℚ) (maxCalls : ℕ) : Subscriber :=
  ⟨ascii "alice", balance, ascii "USD", ascii "active", maxCalls, ascii "1", noon.epoch⟩

/-- A call of `alice` to a number with the prefix `7`. -/
def aliceCall (callId : String) : AuthorizeArgs := ⟨ascii "alice", ascii "79991234567", ascii callId⟩

/-- A teardown report with a duration and no media figures. -/
def teardown (callId : String) (dur : ℚ) : FinalizeArgs :=
  ⟨ascii callId, some dur, .nil, .nil, .nil, .nil⟩

/-- **A grant the balance does not cover.**  With 1.5 on the account and a rate of
1 per minute the grant is 90 seconds, and a call of 90 seconds costs 2. -/
theorem grant_not_covered :
    ¬ GrantCovered noon (aliceCall "c1") (shop (3 / 2) 1 1 0) := by
  intro h
  have hle := h _ ⟨.fin 90, 1, ascii "7", ascii "USD"⟩ 90 rfl (by decide +kernel) rfl noon
    (teardown "c1" 90) 90 rfl (by norm_num [teardown]) (by norm_num) (by norm_num)
  revert hle
  decide +kernel

/-- With 2 on the account the grant is two whole minutes, and it is covered. -/
theorem grantCovered_shop_two : GrantCovered noon (aliceCall "c1") (shop 2 1 1 0) := by
  have hsub : (shop 2 1 1 0).subscribers.get (aliceCall "c1").caller = some (alice 2 1) := by
    decide +kernel
  have hallowed : (authorizeCall noon (aliceCall "c1") (shop 2 1 1 0)).1 =
      .ok (.allowed ⟨.fin 120, 1, ascii "7", ascii "USD"⟩) := by
    decide +kernel
  refine (grantCovered_iff ?_ ?_ hsub hallowed).2 (Or.inr ?_)
  · decide +kernel
  · decide +kernel
  · decide +kernel

end VoipBackend
