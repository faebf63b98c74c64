import VoipBackend.Backend.Rating

/-!
# What a grant is

`authorize_call` lets a call through whose caller can pay the connect fee and ten seconds, and
grants as many seconds as the balance pays for, at most a day.  The two are computed apart from
each other, and they fit: with a positive rate a grant is between ten seconds and a day, the
balance covers it, and no longer one within the day would be covered (`grant_maximal`).

With a rate of zero the seconds come out of a division by zero.  An infinity is cut off at a day,
but where the balance is the connect fee, to the cent, the quotient is NaN: it is not cut off, and
the dialog cannot be stored (`grantStored_iff`).
-/

namespace VoipBackend

open Library

/-! ## Admission -/

/-- The checks of `authorize_call`, up to the funds. -/
structure Admitted (a : AuthorizeArgs) (b : Box) (sub : Subscriber) : Prop where
  registered : b.subscribers.get a.caller = some sub
  active : sub.status = ascii "active"
  room : countActiveCalls b a.caller < sub.maxConcurrentCalls
  funds : totalMinRequired (matchTariff b a.callee) ≤ sub.balance

/-- The answer to an admitted call. -/
def grantOf (a : AuthorizeArgs) (b : Box) (sub : Subscriber) : Grant :=
  ⟨maxDurationSec sub.balance (matchTariff b a.callee), (matchTariff b a.callee).ratePerMin,
    (matchTariff b a.callee).tariffName, sub.currency⟩

theorem authorizeCall_of_expiry {now : Clock} {a : AuthorizeArgs} {b : Box} {sub : Subscriber}
    {expiresAt : ℕ} (h : Admitted a b sub)
    (hexp : dialogExpiry now (grantOf a b sub).maxDurationSec = some expiresAt) :
    authorizeCall now a b = (.ok (.allowed (grantOf a b sub)),
      b.upsertDialog (newDialog now a (matchTariff b a.callee) expiresAt)) := by
  have hexp' : dialogExpiry now (maxDurationSec sub.balance (matchTariff b a.callee)) =
      some expiresAt := hexp
  rw [authorizeCall, h.registered]
  simp only [h.active, ne_eq, not_true_eq_false, if_false, not_le.2 h.room, not_lt.2 h.funds, hexp']
  rfl

/-- A dialog whose expiry does not fit its field is not stored. -/
theorem authorizeCall_of_no_expiry {now : Clock} {a : AuthorizeArgs} {b : Box} {sub : Subscriber}
    (h : Admitted a b sub) (hexp : dialogExpiry now (grantOf a b sub).maxDurationSec = none) :
    authorizeCall now a b = (.error (.fieldType "kam_dialogs" "expires_at"), b) := by
  have hexp' : dialogExpiry now (maxDurationSec sub.balance (matchTariff b a.callee)) = none := hexp
  rw [authorizeCall, h.registered]
  simp only [h.active, ne_eq, not_true_eq_false, if_false, not_le.2 h.room, not_lt.2 h.funds, hexp']

/-- The dialog of an admitted call, new or refreshed, has the new expiry. -/
theorem get_dialog_of_expiry {now : Clock} {a : AuthorizeArgs} {b : Box} {sub : Subscriber}
    {expiresAt : ℕ} (h : Admitted a b sub)
    (hexp : dialogExpiry now (grantOf a b sub).maxDurationSec = some expiresAt) :
    ∃ dlg, (authorizeCall now a b).2.kamDialogs.get a.callId = some dlg ∧
      dlg.expiresAt = expiresAt := by
  rw [authorizeCall_of_expiry h hexp, get_upsertDialog, newDialog_callId, if_pos rfl]
  refine ⟨_, rfl, ?_⟩
  cases b.kamDialogs.get a.callId <;> rfl

/-- **Which calls are allowed.** -/
theorem allowed_iff {now : Clock} {a : AuthorizeArgs} {b : Box} {g : Grant} :
    (authorizeCall now a b).1 = .ok (.allowed g) ↔
      ∃ sub, Admitted a b sub ∧ g = grantOf a b sub ∧
        (dialogExpiry now g.maxDurationSec).isSome := by
  constructor
  · intro h
    rcases authorizeCall_cases now a b with ⟨-, hno⟩ |
      ⟨sub, expiresAt, hsub, hroom, hfunds, hexp, heq⟩
    · exact absurd h (hno g)
    · rw [heq] at h
      cases h
      refine ⟨sub, ⟨hsub, ?_, hroom, hfunds⟩, rfl, by simp [hexp]⟩
      by_contra hstatus
      rw [authorizeCall, hsub] at heq
      simp [hstatus] at heq
  · rintro ⟨sub, hadmitted, rfl, hexp⟩
    obtain ⟨expiresAt, hexp⟩ := Option.isSome_iff_exists.1 hexp
    rw [authorizeCall_of_expiry hadmitted hexp]

/-! ## Positive rates -/

/-- Who gets through has ten seconds. -/
theorem ten_le_seconds {balance : ℚ} {r : Rating} (hrate : 0 < r.ratePerMin)
    (hfunds : totalMinRequired r ≤ balance) :
    10 ≤ ⌊(balance - r.connectFee) / r.ratePerMin * 60⌋ := by
  have hsixth : 1 / 6 ≤ (balance - r.connectFee) / r.ratePerMin := by
    rw [le_div_iff₀ hrate]
    rw [totalMinRequired] at hfunds
    linarith
  refine Int.le_floor.2 ?_
  push_cast
  linarith

/-- `d` seconds are covered exactly if they are at most what the credit pays for. -/
theorem seconds_covered_iff {balance : ℚ} {r : Rating} (hrate : 0 < r.ratePerMin) (d : ℤ) :
    r.connectFee + d * r.ratePerMin / 60 ≤ balance ↔
      d ≤ ⌊(balance - r.connectFee) / r.ratePerMin * 60⌋ := by
  rw [Int.le_floor, ← div_le_iff₀ (by norm_num : (0 : ℚ) < 60), le_div_iff₀ hrate]
  constructor
  · intro h
    linarith
  · intro h
    linarith

/-- The seconds are between ten and a day, the balance covers them, and within a day it does not
cover one second more. -/
structure MaximalGrant (balance : ℚ) (r : Rating) (m : ℤ) : Prop where
  ten_le : 10 ≤ m
  le_day : m ≤ 86400
  covered : r.connectFee + m * r.ratePerMin / 60 ≤ balance
  maximal : m = 86400 ∨ balance < r.connectFee + (m + 1) * r.ratePerMin / 60

/-- **What a grant is**, with a positive rate. -/
theorem grant_maximal {now : Clock} {a : AuthorizeArgs} {b : Box} {g : Grant}
    (hrate : 0 < (matchTariff b a.callee).ratePerMin)
    (hallowed : (authorizeCall now a b).1 = .ok (.allowed g)) :
    ∃ sub m, b.subscribers.get a.caller = some sub ∧ g.maxDurationSec = .fin (m : ℤ) ∧
      MaximalGrant sub.balance (matchTariff b a.callee) m := by
  obtain ⟨sub, hadmitted, rfl, -⟩ := allowed_iff.1 hallowed
  set r := matchTariff b a.callee with hr
  have hten := ten_le_seconds hrate hadmitted.funds
  refine ⟨sub, min ⌊(sub.balance - r.connectFee) / r.ratePerMin * 60⌋ 86400,
    hadmitted.registered, maxDurationSec_of_pos sub.balance hrate, ?_⟩
  refine ⟨le_min hten (by norm_num), min_le_right _ _,
    (seconds_covered_iff hrate _).2 (min_le_left _ _), ?_⟩
  by_cases hday : (86400 : ℤ) ≤ ⌊(sub.balance - r.connectFee) / r.ratePerMin * 60⌋
  · exact Or.inl (min_eq_right hday)
  · refine Or.inr (not_le.1 fun hle => ?_)
    rw [min_eq_left (not_le.1 hday).le] at hle
    have hnext := (seconds_covered_iff hrate
      (⌊(sub.balance - r.connectFee) / r.ratePerMin * 60⌋ + 1)).1 (by exact_mod_cast hle)
    omega

/-- With 2 on the account and a rate of 1 the grant is two minutes. -/
theorem grant_maximal_shop : ∃ sub m,
    (shop 2 1 1 0).subscribers.get (aliceCall "c1").caller = some sub ∧
      LuaNumber.fin 120 = .fin (m : ℤ) ∧
      MaximalGrant sub.balance (matchTariff (shop 2 1 1 0) (aliceCall "c1").callee) m :=
  grant_maximal (g := ⟨.fin 120, 1, ascii "7", ascii "USD"⟩) (by decide +kernel)
    (show (authorizeCall noon (aliceCall "c1") (shop 2 1 1 0)).1 = _ by decide +kernel)

/-! ## A rate of zero -/

theorem maxDurationSec_of_zero {balance : ℚ} {r : Rating} (hrate : r.ratePerMin = 0)
    (hfunds : totalMinRequired r ≤ balance) :
    maxDurationSec balance r = if balance = r.connectFee then .nan else .fin 86400 := by
  rw [totalMinRequired, hrate, zero_div, add_zero] at hfunds
  unfold maxDurationSec LuaNumber.div
  rw [hrate, if_neg (not_not.2 rfl)]
  by_cases hedge : balance = r.connectFee
  · simp [hedge, LuaNumber.scale, LuaNumber.floor, LuaNumber.gt]
  · have hpos : 0 < balance - r.connectFee := sub_pos.2 (lt_of_le_of_ne hfunds (Ne.symm hedge))
    simp [hpos, hedge, LuaNumber.scale, LuaNumber.floor, LuaNumber.gt]

/-- No grant is longer than a day. -/
theorem maxDurationSec_le_day {balance q : ℚ} {r : Rating} (h : maxDurationSec balance r = .fin q) :
    q ≤ 86400 := by
  unfold maxDurationSec at h
  simp only at h
  split_ifs at h with hday
  · cases h
    exact le_rfl
  · rw [h, LuaNumber.gt, decide_eq_true_eq] at hday
    exact not_lt.1 hday

/-- The expiry of a grant of at most a day is never too large for its field. -/
theorem dialogExpiry_eq (now : Clock) {q : ℚ} (hq : q ≤ 86400) :
    dialogExpiry now (.fin q) =
      if 0 ≤ q + now.time + 300 then some ⌊q + now.time + 300⌋₊ else none := by
  show unsigned? (⌊q + now.time + 300⌋ : ℚ) = _
  split_ifs with hnonneg
  · have hfits : ⌊q + now.time + 300⌋₊ < 2 ^ 64 := by
      rw [Nat.floor_lt hnonneg]
      have hlt := now.lt
      push_cast
      norm_num at hlt ⊢
      linarith
    have hfloor : (⌊q + now.time + 300⌋ : ℚ) = (⌊q + now.time + 300⌋₊ : ℕ) := by
      rw [← Int.natCast_floor_eq_floor hnonneg]
      rfl
    rw [hfloor, unsigned?_natCast hfits]
  · rw [Option.eq_none_iff_forall_ne_some]
    intro n hn
    have hfloor : ⌊q + now.time + 300⌋ = (n : ℤ) := by
      exact_mod_cast eq_natCast_of_unsigned? hn
    exact hnonneg (Int.floor_nonneg.1 (hfloor ▸ Int.natCast_nonneg n))

theorem dialogExpiry_of_le (now : Clock) {m : ℕ} (hm : m ≤ 86400) :
    dialogExpiry now (.fin m) = some ⌊(m : ℚ) + now.time + 300⌋₊ := by
  have hnonneg : 0 ≤ (m : ℚ) + now.time + 300 := by
    have := now.nonneg
    positivity
  rw [dialogExpiry_eq now (by exact_mod_cast hm), if_pos hnonneg]

/-- The call is granted whole seconds, at most a day, and its dialog is stored with an expiry. -/
def GrantStored (now : Clock) (a : AuthorizeArgs) (b : Box) : Prop :=
  ∃ g m dlg, (authorizeCall now a b).1 = .ok (.allowed g) ∧ g.maxDurationSec = .fin (m : ℕ) ∧
    m ≤ 86400 ∧ (authorizeCall now a b).2.kamDialogs.get a.callId = some dlg ∧
    dialogExpiry now g.maxDurationSec = some dlg.expiresAt

/-- **A zero-rated call.**  An admitted call with prices that are not negative is granted whole
seconds and stored, unless it is free and the balance is the connect fee. -/
theorem grantStored_iff {now : Clock} {a : AuthorizeArgs} {b : Box} {sub : Subscriber}
    (h : Admitted a b sub) (hrate : 0 ≤ (matchTariff b a.callee).ratePerMin) :
    GrantStored now a b ↔
      ¬ ((matchTariff b a.callee).ratePerMin = 0 ∧
        sub.balance = (matchTariff b a.callee).connectFee) := by
  have hstored : ∀ m : ℕ, m ≤ 86400 → (grantOf a b sub).maxDurationSec = .fin m →
      GrantStored now a b := by
    intro m hm hsec
    have hexp := dialogExpiry_of_le now hm
    rw [← hsec] at hexp
    obtain ⟨dlg, hdlg, hdlgexp⟩ := get_dialog_of_expiry h hexp
    refine ⟨grantOf a b sub, m, dlg, ?_, hsec, hm, hdlg, ?_⟩
    · rw [authorizeCall_of_expiry h hexp]
    · rw [hexp, hdlgexp]
  rcases hrate.eq_or_lt with hzero | hpos
  · have hsec := maxDurationSec_of_zero hzero.symm h.funds
    by_cases hedge : sub.balance = (matchTariff b a.callee).connectFee
    · refine iff_of_false ?_ (not_not.2 ⟨hzero.symm, hedge⟩)
      rintro ⟨g, m, dlg, hallowed, -⟩
      rw [if_pos hedge] at hsec
      rw [authorizeCall_of_no_expiry h (by rw [grantOf, hsec]; rfl)] at hallowed
      cases hallowed
    · rw [if_neg hedge] at hsec
      exact iff_of_true (hstored 86400 le_rfl (by rw [grantOf, hsec]; rfl)) fun hc => hedge hc.2
  · have hlow := ten_le_seconds hpos h.funds
    have hsec := maxDurationSec_of_pos sub.balance hpos
    have hmin : (0 : ℤ) ≤ min ⌊(sub.balance - (matchTariff b a.callee).connectFee) /
        (matchTariff b a.callee).ratePerMin * 60⌋ 86400 := le_min (by omega) (by norm_num)
    obtain ⟨m, hm⟩ := Int.eq_ofNat_of_zero_le hmin
    rw [hm] at hsec
    refine iff_of_true (hstored m ?_ (by rw [grantOf, hsec]; rfl)) fun hc => hpos.ne' hc.1
    omega

theorem admitted_shop {balance rate fee : ℚ}
    (h : totalMinRequired (matchTariff (shop balance 1 rate fee) (aliceCall "c1").callee) ≤ balance)
    (hroom : countActiveCalls (shop balance 1 rate fee) (aliceCall "c1").caller < 1) :
    Admitted (aliceCall "c1") (shop balance 1 rate fee) (alice balance 1) where
  registered := rfl
  active := rfl
  room := hroom
  funds := h

/-- With 2 on the account a free call with a connect fee of 1 is granted a day. -/
theorem grantStored_free : GrantStored noon (aliceCall "c1") (shop 2 1 0 1) :=
  (grantStored_iff (admitted_shop (by decide +kernel) (by decide +kernel))
    (by decide +kernel)).2 (by decide +kernel)

/-- **A call that nobody can register.**  With 1 on the account a free call with a connect fee of 1
passes the check of the funds and is not stored. -/
theorem not_grantStored_edge :
    ¬ ∀ (now : Clock) (a : AuthorizeArgs) (b : Box) (sub : Subscriber), Admitted a b sub →
      0 ≤ sub.balance → 0 ≤ (matchTariff b a.callee).ratePerMin →
      0 ≤ (matchTariff b a.callee).connectFee → GrantStored now a b := by
  intro h
  obtain ⟨g, m, dlg, hallowed, -⟩ := h noon (aliceCall "c1") (shop 1 1 0 1) (alice 1 1)
    (admitted_shop (by decide +kernel) (by decide +kernel)) (by decide +kernel)
    (by decide +kernel) (by decide +kernel)
  have herror : (authorizeCall noon (aliceCall "c1") (shop 1 1 0 1)).1 =
      .error (.fieldType "kam_dialogs" "expires_at") := by
    decide +kernel
  cases herror.symm.trans hallowed

end VoipBackend
