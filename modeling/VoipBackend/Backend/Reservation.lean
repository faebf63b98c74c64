import VoipBackend.Backend.Registration

/-!
# Do the reservations stay within the balance?

`authorize_call` says that it registers a reservation with the dialog: the connect
fee and the price of the time it grants.  This file keeps, beside the spaces, the
time granted to each call (`Grants`) and compares the reservations of a subscriber's
active calls with its balance.

Every grant is computed from the whole balance, whatever is reserved already, and a
teardown may charge a minute that was only granted in part.
`coveredThroughout_iff` says exactly in which runs the reservations nevertheless
stay within the balance; `two_calls_overbook` is a run in which they do not.
-/

namespace VoipBackend

open Library

/-! ## Grants and reservations -/

/-- The spaces, with the seconds granted to each call that was allowed. -/
structure Grants where
  box : Box
  granted : LuaString → Option ℚ

/-- The seconds an answer of `authorize_call` grants. -/
def grantedSec : Except LuaError AuthorizeReply → Option ℚ
  | .ok (.allowed ⟨.fin sec, _, _, _⟩) => some sec
  | _ => none

/-- What a request makes of the granted seconds. -/
def grantedAfter (s : Grants) : Clock × Op → LuaString → Option ℚ
  | (now, .authorizeCall a) =>
      match grantedSec (authorizeCall now a s.box).1 with
      | some sec => Function.update s.granted a.callId (some sec)
      | none => s.granted
  | _ => s.granted

/-- One request. -/
def Grants.step (s : Grants) (x : Clock × Op) : Grants :=
  ⟨perform s.box x, grantedAfter s x⟩

/-- The reservation of a dialog: the connect fee and the price, second by second, of
the time it was granted. -/
def Grants.reservation (s : Grants) (dlg : Dialog) : ℚ :=
  dlg.terms.connectFee + dlg.terms.ratePerMin * (s.granted dlg.callId).getD 0 / 60

/-- What a dialog holds of the balance of `c`. -/
def Grants.held (s : Grants) (c : LuaString) (dlg : Dialog) : ℚ :=
  if dlg.fromTag = c then s.reservation dlg else 0

/-- What the active dialogs hold of the balance of `c`. -/
def Grants.reserved (s : Grants) (c : LuaString) : ℚ := s.box.kamDialogs.sumOf (s.held c)

/-- No subscriber has more reserved than its balance. -/
def Covered (s : Grants) : Prop :=
  ∀ c sub, s.box.subscribers.get c = some sub → s.reserved c ≤ sub.balance

/-- No subscriber has more reserved than its balance, in any state of the run. -/
def CoveredThroughout (s : Grants) (l : List (Clock × Op)) : Prop :=
  Covered s ∧ AllSteps Grants.step (fun s x => Covered (s.step x)) s l

/-! ## The requests considered -/

/-- Calls are authorised, under a call id that was not allowed before and with a
positive rate, and torn down, with a whole number of seconds within the grant. -/
def Orderly (s : Grants) : Clock × Op → Prop
  | (_, .authorizeCall a) =>
      s.granted a.callId = none ∧ 0 < (matchTariff s.box a.callee).ratePerMin
  | (_, .finalizeCdr a) =>
      ∃ d : ℕ, a.durationSec.getD 0 = d ∧ ∀ sec, s.granted a.callId = some sec → (d : ℚ) ≤ sec
  | _ => False

/-- What stays reserved for the charged subscriber when a call is torn down: the
dialog of the call is removed if the report fits. -/
def Grants.remaining (s : Grants) (now : Clock) (a : FinalizeArgs) : ℚ :=
  (if ReportFits now a s.box then s.box.kamDialogs.delete a.callId
    else s.box.kamDialogs).sumOf (s.held (chargedSubscriber a.callId s.box))

/-- An allowed authorisation finds no more reserved than the price of the started
second that its grant leaves out, or a balance that pays for what is reserved, for
the connect fee and for a whole day.  A teardown leaves nothing reserved, or finds a
balance that pays its price and what stays reserved. -/
def CreditHolds (s : Grants) : Clock × Op → Prop
  | (now, .authorizeCall a) =>
      ∀ sub g, s.box.subscribers.get a.caller = some sub →
        (authorizeCall now a s.box).1 = .ok (.allowed g) →
        let r := matchTariff s.box a.callee
        s.reserved a.caller ≤
            r.ratePerMin / 60 * Int.fract ((sub.balance - r.connectFee) / r.ratePerMin * 60) ∨
          s.reserved a.caller + r.connectFee + 1440 * r.ratePerMin ≤ sub.balance
  | (now, .finalizeCdr a) =>
      ∀ sub, s.box.subscribers.get (chargedSubscriber a.callId s.box) = some sub →
        s.remaining now a ≤ 0 ∨ s.remaining now a + teardownPrice a s.box ≤ sub.balance
  | _ => True

/-- Every dialog belongs to a call that was granted some time. -/
def AllGranted (s : Grants) : Prop :=
  ∀ callId dlg, s.box.kamDialogs.get callId = some dlg → s.granted callId ≠ none

/-! ## Authorisation -/

/-- A new reservation fits beside what is reserved exactly when the latter fits in what
the grant leaves of the credit. -/
theorem add_grant_le_iff {reserved fee rate balance : ℚ} (hrate : 0 < rate) :
    reserved + (fee + rate * (min ⌊(balance - fee) / rate * 60⌋ 86400 : ℤ) / 60) ≤ balance ↔
      reserved ≤ rate / 60 * Int.fract ((balance - fee) / rate * 60) ∨
        reserved + fee + 1440 * rate ≤ balance := by
  set y := (balance - fee) / rate * 60 with hy
  have hcredit : rate / 60 * y = balance - fee := by
    rw [hy]
    field_simp
  have hfract : rate / 60 * Int.fract y = balance - fee - rate * ⌊y⌋ / 60 := by
    rw [Int.fract, mul_sub, hcredit]
    ring
  rw [hfract]
  rcases le_total ⌊y⌋ 86400 with hday | hday
  · have hle : rate * (⌊y⌋ : ℚ) ≤ rate * 86400 := by
      refine mul_le_mul_of_nonneg_left ?_ hrate.le
      exact_mod_cast hday
    rw [min_eq_left hday]
    constructor
    · intro h
      exact Or.inl (by linarith)
    · rintro (h | h) <;> linarith
  · have hle : rate * 86400 ≤ rate * (⌊y⌋ : ℚ) := by
      refine mul_le_mul_of_nonneg_left ?_ hrate.le
      exact_mod_cast hday
    rw [min_eq_right hday]
    push_cast
    constructor
    · intro h
      exact Or.inr (by linarith)
    · rintro (h | h) <;> linarith

/-- An authorisation that is not allowed changes nothing. -/
theorem step_of_not_allowed {s : Grants} {now : Clock} {a : AuthorizeArgs}
    (hbox : (authorizeCall now a s.box).2 = s.box)
    (hno : ∀ g, (authorizeCall now a s.box).1 ≠ .ok (.allowed g)) :
    s.step (now, .authorizeCall a) = s := by
  have hnone : grantedSec (authorizeCall now a s.box).1 = none := by
    unfold grantedSec
    split
    · rename_i h
      exact absurd h (hno _)
    · rfl
  show (⟨(authorizeCall now a s.box).2, grantedAfter s (now, .authorizeCall a)⟩ : Grants) = s
  simp only [hbox, grantedAfter, hnone]

/-- An allowed authorisation adds its dialog and its grant. -/
theorem step_of_allowed {s : Grants} {now : Clock} {a : AuthorizeArgs} {g : Grant} {sec : ℚ}
    {b : Box} (h : authorizeCall now a s.box = (.ok (.allowed g), b))
    (hsec : g.maxDurationSec = .fin sec) :
    s.step (now, .authorizeCall a) = ⟨b, Function.update s.granted a.callId (some sec)⟩ := by
  obtain ⟨m, rate, tariff, currency⟩ := g
  subst hsec
  show (⟨(authorizeCall now a s.box).2, grantedAfter s (now, .authorizeCall a)⟩ : Grants) = _
  simp only [h, grantedAfter, grantedSec]

/-- A new dialog adds its reservation to those of its caller and leaves the others. -/
theorem reserved_newDialog {s : Grants} {a : AuthorizeArgs} (hdlg : AllGranted s)
    (hfresh : s.granted a.callId = none) (now : Clock) (r : Rating) (expiresAt : ℕ) (sec : ℚ)
    (c : LuaString) :
    Grants.reserved ⟨s.box.upsertDialog (newDialog now a r expiresAt),
        Function.update s.granted a.callId (some sec)⟩ c =
      s.reserved c + if a.caller = c then r.connectFee + r.ratePerMin * sec / 60 else 0 := by
  have hnone : s.box.kamDialogs.get (newDialog now a r expiresAt).callId = none := by
    cases hget : s.box.kamDialogs.get (newDialog now a r expiresAt).callId with
    | none => rfl
    | some dlg => exact absurd hfresh (hdlg _ dlg hget)
  set s' : Grants := ⟨s.box.upsertDialog (newDialog now a r expiresAt),
    Function.update s.granted a.callId (some sec)⟩ with hs'
  have hput := KeyedTable.sumOf_put s.box.kamDialogs (s'.held c) (newDialog now a r expiresAt)
  rw [hnone, Option.elim_none, add_zero] at hput
  have hold : s.box.kamDialogs.sumOf (s'.held c) = s.reserved c := by
    refine KeyedTable.sumOf_congr fun dlg hmem => ?_
    have hne : dlg.callId ≠ a.callId := KeyedTable.get_eq_none_iff.1 hnone dlg hmem
    simp only [Grants.held, Grants.reservation, hs', Function.update_of_ne hne]
  have hnew : s'.held c (newDialog now a r expiresAt) =
      if a.caller = c then r.connectFee + r.ratePerMin * sec / 60 else 0 := by
    have hterms : (newDialog now a r expiresAt).terms = ⟨a.caller, r.ratePerMin, r.connectFee⟩ :=
      rfl
    simp only [Grants.held, Grants.reservation, hs', hterms, newDialog_fromTag, newDialog_callId,
      Function.update_self, Option.getD_some]
  have htable : (s.box.upsertDialog (newDialog now a r expiresAt)).kamDialogs =
      s.box.kamDialogs.put (newDialog now a r expiresAt) :=
    KeyedTable.upsert_of_get_none hnone
  rw [Grants.reserved, hs', htable, ← hs', hput, hold, hnew]

theorem covered_authorizeCall_iff {s : Grants} (hs : Covered s) (hdlg : AllGranted s)
    {now : Clock} {a : AuthorizeArgs} (h : Orderly s (now, .authorizeCall a)) :
    Covered (s.step (now, .authorizeCall a)) ↔ CreditHolds s (now, .authorizeCall a) := by
  obtain ⟨hfresh, hrate⟩ := h
  rcases authorizeCall_cases now a s.box with
    ⟨hbox, hno⟩ | ⟨sub, expiresAt, hsub, -, -, -, heq⟩
  · rw [step_of_not_allowed hbox hno]
    exact iff_of_true hs fun sub g _ hg => absurd hg (hno g)
  · rw [step_of_allowed heq (maxDurationSec_of_pos sub.balance hrate)]
    have hreserved := reserved_newDialog hdlg hfresh now (matchTariff s.box a.callee) expiresAt
      (min ⌊(sub.balance - (matchTariff s.box a.callee).connectFee) /
        (matchTariff s.box a.callee).ratePerMin * 60⌋ 86400 : ℤ)
    constructor
    · intro hcov sub' g hsub' _
      obtain rfl : sub = sub' := Option.some.inj (hsub.symm.trans hsub')
      have hle := hcov a.caller sub hsub
      rw [hreserved, if_pos rfl] at hle
      exact (add_grant_le_iff hrate).1 hle
    · intro hcredit c sub' hsub'
      rw [hreserved]
      split_ifs with hc
      · subst hc
        obtain rfl : sub = sub' := Option.some.inj (hsub.symm.trans hsub')
        exact (add_grant_le_iff hrate).2 (hcredit sub _ hsub (congrArg Prod.fst heq))
      · rw [add_zero]
        exact hs c sub' hsub'

/-! ## Teardown -/

/-- A teardown does not touch the reservations of anyone but the charged subscriber. -/
theorem reserved_finalizeCdr_of_ne (s : Grants) (now : Clock) (a : FinalizeArgs) {c : LuaString}
    (hc : c ≠ chargedSubscriber a.callId s.box) :
    (s.step (now, .finalizeCdr a)).reserved c = s.reserved c := by
  show (finalizeCdr now a s.box).2.kamDialogs.sumOf (s.held c) = _
  rw [finalizeCdr_kamDialogs]
  split_ifs
  · have hsum := KeyedTable.sumOf_delete s.box.kamDialogs (s.held c) a.callId
    cases hget : s.box.kamDialogs.get a.callId with
    | none =>
      rw [hget, Option.elim_none, add_zero] at hsum
      exact hsum
    | some dlg =>
      have hcaller : dlg.fromTag ≠ c := by
        rw [chargedSubscriber, hget] at hc
        exact hc.symm
      have hheld : s.held c dlg = 0 := if_neg hcaller
      rw [hget, Option.elim_some, hheld, add_zero] at hsum
      exact hsum
  · rfl

theorem covered_finalizeCdr_iff {s : Grants} (hs : Covered s) (now : Clock) (a : FinalizeArgs) :
    Covered (s.step (now, .finalizeCdr a)) ↔ CreditHolds s (now, .finalizeCdr a) := by
  have hremaining : (s.step (now, .finalizeCdr a)).reserved (chargedSubscriber a.callId s.box) =
      s.remaining now a := by
    show (finalizeCdr now a s.box).2.kamDialogs.sumOf _ = _
    rw [finalizeCdr_kamDialogs]
    rfl
  have hget : ∀ c, (s.step (now, .finalizeCdr a)).box.subscribers.get c =
      if c = chargedSubscriber a.callId s.box then
        (s.box.subscribers.get (chargedSubscriber a.callId s.box)).map
          (finalizeLocals now a s.box).charge
      else s.box.subscribers.get c := by
    intro c
    show (finalizeCdr now a s.box).2.subscribers.get c = _
    rw [finalizeCdr_subscribers, get_deduct, finalizeLocals_caller]
  have hbalance : ∀ sub, s.box.subscribers.get (chargedSubscriber a.callId s.box) = some sub →
      ((finalizeLocals now a s.box).charge sub).balance =
        max 0 (sub.balance - teardownPrice a s.box) :=
    fun sub hsub => finalizeLocals_newBalance now hsub
  constructor
  · intro hcov sub hsub
    have hle := hcov (chargedSubscriber a.callId s.box) _ (by rw [hget, if_pos rfl, hsub]; rfl)
    rw [hremaining, hbalance sub hsub, le_max_iff, le_sub_iff_add_le] at hle
    exact hle
  · intro hcredit c sub' hsub'
    rw [hget] at hsub'
    split_ifs at hsub' with hc
    · subst hc
      obtain ⟨sub, hsub, rfl⟩ := Option.map_eq_some_iff.1 hsub'
      rw [hremaining, hbalance sub hsub, le_max_iff, le_sub_iff_add_le]
      exact hcredit sub hsub
    · rw [reserved_finalizeCdr_of_ne s now a hc]
      exact hs c sub' hsub'

/-! ## Runs -/

/-- **One request.**  It keeps the reservations within the balances exactly when the
credit holds. -/
theorem covered_step_iff {s : Grants} (hs : Covered s) (hdlg : AllGranted s) {x : Clock × Op}
    (h : Orderly s x) : Covered (s.step x) ↔ CreditHolds s x := by
  match x with
  | (now, .authorizeCall a) => exact covered_authorizeCall_iff hs hdlg h
  | (now, .finalizeCdr a) => exact covered_finalizeCdr_iff hs now a
  | (_, .addSubscriber _) => exact h.elim
  | (_, .updateBalance _ _) => exact h.elim
  | (_, .setTariff _) => exact h.elim

theorem allGranted_step {s : Grants} (hdlg : AllGranted s) {x : Clock × Op} (h : Orderly s x) :
    AllGranted (s.step x) := by
  match x with
  | (now, .authorizeCall a) =>
    rcases authorizeCall_cases now a s.box with ⟨hbox, hno⟩ | ⟨sub, expiresAt, -, -, -, -, heq⟩
    · rw [step_of_not_allowed hbox hno]
      exact hdlg
    · rw [step_of_allowed heq (maxDurationSec_of_pos sub.balance h.2)]
      intro callId dlg hget
      show Function.update s.granted a.callId _ callId ≠ none
      by_cases hc : callId = a.callId
      · rw [hc, Function.update_self]
        exact Option.some_ne_none _
      · rw [get_upsertDialog, newDialog_callId, if_neg hc] at hget
        rw [Function.update_of_ne hc]
        exact hdlg callId dlg hget
  | (now, .finalizeCdr a) =>
    intro callId dlg hget
    refine hdlg callId dlg ?_
    rw [show (s.step (now, .finalizeCdr a)).box.kamDialogs =
      (finalizeCdr now a s.box).2.kamDialogs from rfl, finalizeCdr_kamDialogs] at hget
    split_ifs at hget
    · rw [KeyedTable.get_delete] at hget
      split_ifs at hget
      exact hget
    · exact hget
  | (_, .addSubscriber _) => exact h.elim
  | (_, .updateBalance _ _) => exact h.elim
  | (_, .setTariff _) => exact h.elim

/-- **When the reservations stay within the balances.**  From spaces without dialogs,
exactly in the runs that start with no balance below zero and in which the credit
holds at every request. -/
theorem coveredThroughout_iff {b : Box} (hdlg : b.kamDialogs = .empty) {l : List (Clock × Op)}
    (h : AllSteps Grants.step Orderly ⟨b, fun _ => none⟩ l) :
    CoveredThroughout ⟨b, fun _ => none⟩ l ↔
      (∀ c sub, b.subscribers.get c = some sub → 0 ≤ sub.balance) ∧
        AllSteps Grants.step CreditHolds ⟨b, fun _ => none⟩ l := by
  have hstart : Covered ⟨b, fun _ => none⟩ ↔
      ∀ c sub, b.subscribers.get c = some sub → 0 ≤ sub.balance := by
    unfold Covered Grants.reserved
    simp only [hdlg, KeyedTable.sumOf_empty]
  have hgranted : AllGranted ⟨b, fun _ => none⟩ := by
    intro callId dlg hget
    rw [show (⟨b, fun _ => none⟩ : Grants).box.kamDialogs = .empty from hdlg] at hget
    cases hget
  rw [CoveredThroughout, ← hstart]
  refine and_congr_right fun hcov => ?_
  refine AllSteps.iff_of_invariant (I := fun s => Covered s ∧ AllGranted s) ?_ ?_
    ⟨hcov, hgranted⟩ h
  · intro s x hs hx
    exact covered_step_iff hs.1 hs.2 hx
  · intro s x hs hx hnext
    exact ⟨hnext, allGranted_step hs.2 hx⟩

/-- A single call keeps within the balance it was granted from. -/
theorem coveredThroughout_one_call :
    CoveredThroughout ⟨shop 10 2 1 0, fun _ => none⟩
      [(noon, .authorizeCall (aliceCall "c1")), (noonPlusMinute, .finalizeCdr (teardown "c1" 60))]
    := by
  have horderly : AllSteps Grants.step Orderly ⟨shop 10 2 1 0, fun _ => none⟩
      [(noon, .authorizeCall (aliceCall "c1")),
        (noonPlusMinute, .finalizeCdr (teardown "c1" 60))] := by
    refine ⟨⟨rfl, by decide +kernel⟩, ⟨60, by decide +kernel, ?_⟩, trivial⟩
    intro sec hsec
    have hten : Grants.granted (Grants.step ⟨shop 10 2 1 0, fun _ => none⟩
        (noon, .authorizeCall (aliceCall "c1"))) (ascii "c1") = some 600 := by
      decide +kernel
    obtain rfl : (600 : ℚ) = sec := Option.some.inj (hten.symm.trans hsec)
    norm_num
  refine (coveredThroughout_iff rfl horderly).2 ⟨?_, ?_, ?_, trivial⟩
  · intro c sub hsub
    have hmem : sub = alice 10 2 := List.mem_singleton.1 (KeyedTable.mem_of_get hsub)
    rw [hmem]
    decide +kernel
  · intro sub g hsub _
    refine Or.inl ?_
    obtain rfl : alice 10 2 = sub := Option.some.inj hsub
    decide +kernel
  · intro sub _
    refine Or.inl ?_
    decide +kernel

/-- **Two calls book the balance twice.**  With 10 on the account and a rate of 1 per
minute, each of two concurrent calls is granted the 600 seconds the balance pays for:
20 are reserved. -/
theorem two_calls_overbook :
    AllSteps Grants.step Orderly ⟨shop 10 2 1 0, fun _ => none⟩
        [(noon, .authorizeCall (aliceCall "c1")), (noon, .authorizeCall (aliceCall "c2"))] ∧
      ¬ CoveredThroughout ⟨shop 10 2 1 0, fun _ => none⟩
        [(noon, .authorizeCall (aliceCall "c1")), (noon, .authorizeCall (aliceCall "c2"))] := by
  refine ⟨⟨⟨rfl, by decide +kernel⟩, ⟨by decide +kernel, by decide +kernel⟩, trivial⟩, ?_⟩
  rintro ⟨-, -, h, -⟩
  have hle := h (ascii "alice") (alice 10 2) (by decide +kernel)
  revert hle
  decide +kernel

end VoipBackend
