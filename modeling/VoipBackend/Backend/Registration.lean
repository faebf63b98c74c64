import VoipBackend.Backend.Sequential

/-!
# On whose terms is a call charged?

A call may be authorised more than once before it is torn down: a retransmitted
INVITE, or another one with the same Call-ID.  This file follows, along a history
of requests and sweeps, the terms of the most recent allowed authorisation of each
call (`History`), and asks whether the teardown charges on these terms.

The registration is an upsert whose update branch refreshes the state and the
expiry and keeps caller, rate and fee of the first registration.  So a teardown
charges on the most recent terms in every history in which later authorisations
of a call repeat the terms its dialog was registered with (`charges_last_terms`),
and `second_caller_not_charged` is a history in which the first caller pays for
the call of the second.
-/

namespace VoipBackend

open Library

/-! ## Terms -/

/-- Who pays for a call, and how much. -/
structure Terms where
  caller : LuaString
  ratePerMin : ℚ
  connectFee : ℚ
  deriving DecidableEq

/-- The terms `finalize_cdr` reads off a dialog. -/
def Dialog.terms (dlg : Dialog) : Terms :=
  let extra := dlg.extraData.getD .none
  ⟨dlg.fromTag, extra.rate.getD (1 / 20), extra.connectFee.getD 0⟩

/-- The terms a request for a call is rated with. -/
def requestTerms (a : AuthorizeArgs) (b : Box) : Terms :=
  ⟨a.caller, (matchTariff b a.callee).ratePerMin, (matchTariff b a.callee).connectFee⟩

/-- The subscribers after a teardown on the terms `t`: the payer is debited, clamped
at zero, and no one else's balance changes. -/
def ChargedOn (t : Terms) (dur : ℚ) (b after : Box) : Prop :=
  ∀ k sub, b.subscribers.get k = some sub →
    ∃ sub', after.subscribers.get k = some sub' ∧
      sub'.balance =
        if k = t.caller then max 0 (sub.balance - billedAmount t.connectFee t.ratePerMin dur)
        else sub.balance

/-- A teardown that finds a dialog charges on the terms of the dialog. -/
theorem chargedOn_finalizeCdr {a : FinalizeArgs} {b : Box} {dlg : Dialog}
    (h : b.kamDialogs.get a.callId = some dlg) (now : Clock) :
    ChargedOn dlg.terms (a.durationSec.getD 0) b (finalizeCdr now a b).2 := by
  have hcaller : chargedSubscriber a.callId b = dlg.terms.caller := by
    unfold chargedSubscriber
    rw [h]
    rfl
  have hprice : teardownPrice a b =
      billedAmount dlg.terms.connectFee dlg.terms.ratePerMin (a.durationSec.getD 0) := by
    unfold teardownPrice
    rw [h]
    rfl
  intro k sub hsub
  rw [finalizeCdr_subscribers, get_deduct, finalizeLocals_caller, hcaller]
  split_ifs with hk
  · subst hk
    refine ⟨_, by rw [hsub]; rfl, ?_⟩
    rw [← hprice]
    exact finalizeLocals_newBalance now (hcaller ▸ hsub)
  · exact ⟨sub, hsub, rfl⟩

/-! ## Histories -/

/-- A step of a history: a request, or the removal of a dialog by the TTL sweep. -/
inductive Event where
  | request (now : Clock) (op : Op)
  | sweep (callId : LuaString)

/-- The spaces, with the terms of the most recent allowed authorisation of each call
since it was last finalised or swept. -/
structure History where
  box : Box
  last : LuaString → Option Terms

/-- What a request makes of the most recent terms. -/
def lastAfter (s : History) (now : Clock) : Op → LuaString → Option Terms
  | .authorizeCall a =>
      match (authorizeCall now a s.box).1 with
      | .ok (.allowed _) => Function.update s.last a.callId (some (requestTerms a s.box))
      | _ => s.last
  | .finalizeCdr a =>
      match (finalizeCdr now a s.box).1 with
      | .ok _ => Function.update s.last a.callId none
      | .error _ => s.last
  | _ => s.last

theorem lastAfter_of_not_allowed {s : History} {now : Clock} {a : AuthorizeArgs}
    (h : ∀ g, (authorizeCall now a s.box).1 ≠ .ok (.allowed g)) :
    lastAfter s now (.authorizeCall a) = s.last := by
  simp only [lastAfter]

theorem lastAfter_of_allowed {s : History} {now : Clock} {a : AuthorizeArgs} {g : Grant}
    (h : (authorizeCall now a s.box).1 = .ok (.allowed g)) :
    lastAfter s now (.authorizeCall a) =
      Function.update s.last a.callId (some (requestTerms a s.box)) := by
  simp only [lastAfter, h]

/-- One step of a history. -/
def History.step (s : History) : Event → History
  | .request now op => ⟨perform s.box (now, op), lastAfter s now op⟩
  | .sweep callId => ⟨s.box.deleteDialog callId, Function.update s.last callId none⟩

/-- A step is a teardown that charges on the most recent terms of its call, or is not
a teardown of an authorised call. -/
def ChargesLastTerms (s : History) : Event → Prop
  | .request now (.finalizeCdr a) =>
      ∀ t, s.last a.callId = some t →
        ChargedOn t (a.durationSec.getD 0) s.box (finalizeCdr now a s.box).2
  | _ => True

/-- An authorisation that is allowed and meets a dialog of its call repeats the terms of
that dialog. -/
def RepeatsTerms (s : History) : Event → Prop
  | .request now (.authorizeCall a) =>
      ∀ g dlg, (authorizeCall now a s.box).1 = .ok (.allowed g) →
        s.box.kamDialogs.get a.callId = some dlg → dlg.terms = requestTerms a s.box
  | _ => True

/-- Every call with recent terms has a dialog, and it holds these terms. -/
def TermsRegistered (s : History) : Prop :=
  ∀ callId t, s.last callId = some t →
    ∃ dlg, s.box.kamDialogs.get callId = some dlg ∧ dlg.terms = t

/-! ## The invariant -/

theorem termsRegistered_authorizeCall {s : History} (hs : TermsRegistered s) {now : Clock}
    {a : AuthorizeArgs} (h : RepeatsTerms s (.request now (.authorizeCall a))) :
    TermsRegistered (s.step (.request now (.authorizeCall a))) := by
  intro callId t ht
  rcases authorizeCall_cases now a s.box with ⟨hbox, hno⟩ | ⟨sub, expiresAt, -, -, -, -, heq⟩
  · have hstep : s.step (.request now (.authorizeCall a)) = s := by
      show (⟨(authorizeCall now a s.box).2, lastAfter s now (.authorizeCall a)⟩ : History) = s
      rw [hbox, lastAfter_of_not_allowed hno]
    rw [hstep] at ht ⊢
    exact hs callId t ht
  · have hget : (s.step (.request now (.authorizeCall a))).box.kamDialogs.get callId =
        (s.box.upsertDialog
          (newDialog now a (matchTariff s.box a.callee) expiresAt)).kamDialogs.get callId := by
      show (authorizeCall now a s.box).2.kamDialogs.get callId = _
      rw [heq]
    have hthis : lastAfter s now (.authorizeCall a) callId = some t := ht
    rw [lastAfter_of_allowed (congrArg Prod.fst heq)] at hthis
    rw [hget, get_upsertDialog, newDialog_callId]
    by_cases hc : callId = a.callId
    · subst hc
      rw [Function.update_self] at hthis
      rw [if_pos rfl]
      refine ⟨_, rfl, ?_⟩
      rw [← Option.some.inj hthis]
      cases hdlg : s.box.kamDialogs.get a.callId with
      | none => rfl
      | some dlg => exact h _ dlg (by rw [heq]) hdlg
    · rw [Function.update_of_ne hc] at hthis
      rw [if_neg hc]
      exact hs callId t hthis

theorem termsRegistered_finalizeCdr {s : History} (hs : TermsRegistered s) (now : Clock)
    (a : FinalizeArgs) : TermsRegistered (s.step (.request now (.finalizeCdr a))) := by
  intro callId t ht
  have hthis : lastAfter s now (.finalizeCdr a) callId = some t := ht
  simp only [lastAfter] at hthis
  show ∃ dlg, (finalizeCdr now a s.box).2.kamDialogs.get callId = some dlg ∧ _
  rcases finalizeCdr_cases now a s.box with ⟨cdr, -, heq⟩ | ⟨e, -, heq⟩
  · rw [heq] at hthis ⊢
    by_cases hc : callId = a.callId
    · rw [hc] at hthis
      simp at hthis
    · simp only [Function.update_of_ne hc] at hthis
      show ∃ dlg, (s.box.kamDialogs.delete a.callId).get callId = some dlg ∧ _
      rw [KeyedTable.get_delete, if_neg hc]
      exact hs callId t hthis
  · rw [heq] at hthis ⊢
    exact hs callId t hthis

theorem termsRegistered_step {s : History} (hs : TermsRegistered s) {e : Event}
    (h : RepeatsTerms s e) : TermsRegistered (s.step e) := by
  cases e with
  | sweep callId =>
    intro c t ht
    have hthis : Function.update s.last callId none c = some t := ht
    by_cases hc : c = callId
    · rw [hc, Function.update_self] at hthis
      cases hthis
    · rw [Function.update_of_ne hc] at hthis
      show ∃ dlg, (s.box.kamDialogs.delete callId).get c = some dlg ∧ _
      rw [KeyedTable.get_delete, if_neg hc]
      exact hs c t hthis
  | request now op =>
    cases op with
    | authorizeCall a => exact termsRegistered_authorizeCall hs h
    | finalizeCdr a => exact termsRegistered_finalizeCdr hs now a
    | setTariff a => exact hs
    | addSubscriber a =>
      show TermsRegistered ⟨(addSubscriber now a s.box).2, s.last⟩
      rw [addSubscriber_frame]
      exact hs
    | updateBalance subId deltaAmount =>
      show TermsRegistered ⟨(updateBalance now subId deltaAmount s.box).2, s.last⟩
      rw [updateBalance_frame]
      exact hs

/-- **Who pays.**  In every history, from any spaces and with any sweeps, in which
allowed authorisations that meet a dialog repeat its terms, every teardown charges
on the terms of the most recent allowed authorisation of its call. -/
theorem charges_last_terms {b : Box} {l : List Event}
    (h : AllSteps History.step RepeatsTerms ⟨b, fun _ => none⟩ l) :
    AllSteps History.step ChargesLastTerms ⟨b, fun _ => none⟩ l := by
  refine AllSteps.of_invariant (I := TermsRegistered) ?_ ?_ h
  · intro s e hs he
    refine ⟨termsRegistered_step hs he, ?_⟩
    match e with
    | .request now (.finalizeCdr a) =>
      intro t ht
      obtain ⟨dlg, hdlg, rfl⟩ := hs a.callId t ht
      exact chargedOn_finalizeCdr hdlg now
    | .request _ (.authorizeCall _) => trivial
    | .request _ (.setTariff _) => trivial
    | .request _ (.addSubscriber _) => trivial
    | .request _ (.updateBalance _ _) => trivial
    | .sweep _ => trivial
  · intro callId t ht
    cases ht

/-- A retransmitted INVITE: the call is authorised twice on the same terms, and the
teardown charges on them. -/
theorem charges_last_terms_retransmission :
    AllSteps History.step ChargesLastTerms ⟨shop 10 2 1 0, fun _ => none⟩
      [.request noon (.authorizeCall (aliceCall "c1")),
        .request noon (.authorizeCall (aliceCall "c1")),
        .request noon (.finalizeCdr (teardown "c1" 60))] := by
  refine charges_last_terms ⟨?_, ?_, trivial, trivial⟩
  · intro g dlg _ hdlg
    have hnone : (shop 10 2 1 0).kamDialogs.get (aliceCall "c1").callId = none := by
      decide +kernel
    cases hnone.symm.trans hdlg
  · intro g dlg _ hdlg
    have hterms : ((authorizeCall noon (aliceCall "c1") (shop 10 2 1 0)).2.kamDialogs.get
        (aliceCall "c1").callId).map Dialog.terms =
        some (requestTerms (aliceCall "c1")
          (authorizeCall noon (aliceCall "c1") (shop 10 2 1 0)).2) := by
      decide +kernel
    rw [show (authorizeCall noon (aliceCall "c1") (shop 10 2 1 0)).2.kamDialogs.get
      (aliceCall "c1").callId = some dlg from hdlg] at hterms
    exact Option.some.inj hterms

/-- The shop with a second subscriber. -/
def sharedShop : Box :=
  (addSubscriber noon ⟨ascii "bob", some 10, none, some 2, none⟩ (shop 10 2 1 0)).2

/-- **The first caller pays for the second.**  `alice` and then `bob` are authorised
under one Call-ID; the teardown of a minute leaves the balance of `bob` at 10. -/
theorem second_caller_not_charged :
    ¬ AllSteps History.step ChargesLastTerms ⟨sharedShop, fun _ => none⟩
      [.request noon (.authorizeCall (aliceCall "c1")),
        .request noon (.authorizeCall ⟨ascii "bob", ascii "79991234567", ascii "c1"⟩),
        .request noon (.finalizeCdr (teardown "c1" 60))] := by
  rintro ⟨-, -, h, -⟩
  obtain ⟨sub', hget, hbal⟩ := h ⟨ascii "bob", 1, 0⟩ (by decide +kernel) (ascii "bob")
    { alice 10 2 with subscriberId := ascii "bob" } (by decide +kernel)
  have hten := congrArg (Option.map Subscriber.balance) hget
  rw [Option.map_some, hbal] at hten
  revert hten
  decide +kernel

end VoipBackend
