import VoipBackend.Lib.KeyedTable
import VoipBackend.Backend.Value

/-!
# The spaces of the backend

The memtx spaces that `app/schema.lua` creates, one record type for each tuple
format.  A field of type `unsigned` is a natural number and a field of type
`number` a rational, so a tuple that violates its format cannot be stored; the
check that Tarantool makes before it stores a CDR is `CdrRow.check`.

`schema.init` runs before any procedure is exported and nothing drops a space or
an index afterwards, so the branches of the procedures for a missing space are
not modelled.
-/

namespace VoipBackend

open Library

/-- Space `subscribers` (516): balances and limits. -/
structure Subscriber where
  subscriberId : LuaString
  balance : ℚ
  currency : LuaString
  status : LuaString
  maxConcurrentCalls : ℕ
  tariffId : LuaString
  updatedAt : ℕ
  deriving DecidableEq

/-- Space `tariffs` (517): the rate table, by destination prefix. -/
structure Tariff where
  pfx : LuaString
  description : LuaString
  costPerMinute : ℚ
  connectFee : ℚ
  deriving DecidableEq

/-- The table `authorize_call` keeps in `extra_data`.  A reader takes a missing
entry for `nil`. -/
structure DialogExtra where
  tariff : Option LuaString
  rate : Option ℚ
  connectFee : Option ℚ
  startEpoch : Option ℤ
  deriving DecidableEq

/-- What `finalize_cdr` reads when `extra_data` is not a table. -/
def DialogExtra.none : DialogExtra := ⟨Option.none, Option.none, Option.none, Option.none⟩

/-- Space `kam_dialogs` (514): active SIP dialogs. -/
structure Dialog where
  callId : LuaString
  fromTag : LuaString
  toTag : LuaString
  state : ℕ
  expiresAt : ℕ
  /-- `none` stands for `nil` and for anything that is not a table. -/
  extraData : Option DialogExtra
  deriving DecidableEq

/-- Space `rtpe_calls` (512): active media sessions. -/
structure RtpeCall where
  callId : LuaString
  nodeId : LuaString
  state : LuaString
  createdAt : ℕ
  updatedAt : ℕ
  expiresAt : ℕ
  payload : LuaValue

/-- Space `kam_usrloc` (515), as far as the procedures read it: its key and the
field of its `by_expire` index. -/
structure UsrLoc where
  contactKey : LuaString
  expiresAt : ℕ
  deriving DecidableEq

/-- Space `cdrs` (518): call detail records. -/
structure Cdr where
  cdrId : LuaString
  callId : LuaString
  caller : LuaString
  callee : LuaString
  startTime : ℕ
  endTime : ℕ
  durationSec : ℕ
  billedAmount : ℚ
  mosScore : ℚ
  jitterMs : ℚ
  packetLossPct : ℚ
  nodeId : LuaString
  deriving DecidableEq

/-- The spaces. -/
structure Box where
  subscribers : KeyedTable Subscriber.subscriberId
  tariffs : KeyedTable Tariff.pfx
  cdrs : KeyedTable Cdr.cdrId
  kamDialogs : KeyedTable Dialog.callId
  rtpeCalls : KeyedTable RtpeCall.callId
  kamUsrloc : KeyedTable UsrLoc.contactKey

/-- The spaces as `schema.init` creates them. -/
def Box.init : Box :=
  ⟨.empty, .empty, .empty, .empty, .empty, .empty⟩

/-! ## The format check of `cdrs` -/

/-- A field of a tuple that is being written: its value if it has the type of the
format, an error that names the field otherwise. -/
def checkField {α : Type} (space field : String) : Option α → Except LuaError α
  | some v => .ok v
  | none => .error (.fieldType space field)

theorem checkField_eq_ok {α : Type} {space field : String} {o : Option α} {v : α} :
    checkField space field o = .ok v ↔ o = some v := by
  cases o <;> simp [checkField]

/-- A sequence of checks passes when its first check and the rest pass. -/
theorem bind_eq_ok {α β : Type} {x : Except LuaError α} {f : α → Except LuaError β} {b : β}
    (h : x >>= f = .ok b) : ∃ a, x = .ok a ∧ f a = .ok b := by
  cases x with
  | error e => cases h
  | ok a => exact ⟨a, rfl, h⟩

/-- A tuple `finalize_cdr` hands to `cdrs:replace`, before the format is checked.
`endTime` is a floored clock reading and always fits its field. -/
structure CdrRow where
  cdrId : LuaString
  callId : LuaString
  caller : LuaString
  callee : LuaString
  startTime : ℚ
  endTime : ℕ
  durationSec : ℚ
  billedAmount : ℚ
  mosScore : LuaValue
  jitterMs : LuaValue
  packetLossPct : LuaValue
  nodeId : LuaValue

namespace CdrRow

/-- The check of the tuple against the format, in field order. -/
def check (r : CdrRow) : Except LuaError Cdr := do
  let startTime ← checkField "cdrs" "start_time" (unsigned? r.startTime)
  let durationSec ← checkField "cdrs" "duration_sec" (unsigned? r.durationSec)
  let mosScore ← checkField "cdrs" "mos_score" r.mosScore.number?
  let jitterMs ← checkField "cdrs" "jitter_ms" r.jitterMs.number?
  let packetLossPct ← checkField "cdrs" "packet_loss_pct" r.packetLossPct.number?
  let nodeId ← checkField "cdrs" "node_id" r.nodeId.string?
  return ⟨r.cdrId, r.callId, r.caller, r.callee, startTime, r.endTime, durationSec,
    r.billedAmount, mosScore, jitterMs, packetLossPct, nodeId⟩

/-- Every field of the tuple has the type of the format. -/
def Fits (r : CdrRow) : Prop :=
  (unsigned? r.startTime).isSome ∧ (unsigned? r.durationSec).isSome ∧
    r.mosScore.number?.isSome ∧ r.jitterMs.number?.isSome ∧
    r.packetLossPct.number?.isSome ∧ r.nodeId.string?.isSome

instance (r : CdrRow) : Decidable r.Fits := by unfold Fits; infer_instance

/-- What it means for a tuple to pass the check as the record `c`. -/
theorem check_eq_ok {r : CdrRow} {c : Cdr} (h : r.check = .ok c) :
    unsigned? r.startTime = some c.startTime ∧ unsigned? r.durationSec = some c.durationSec ∧
      c.cdrId = r.cdrId ∧ c.callId = r.callId ∧ c.caller = r.caller ∧ c.callee = r.callee ∧
      c.endTime = r.endTime ∧ c.billedAmount = r.billedAmount := by
  obtain ⟨st, hst, h⟩ := bind_eq_ok h
  obtain ⟨du, hdu, h⟩ := bind_eq_ok h
  obtain ⟨mo, -, h⟩ := bind_eq_ok h
  obtain ⟨ji, -, h⟩ := bind_eq_ok h
  obtain ⟨pl, -, h⟩ := bind_eq_ok h
  obtain ⟨no, -, h⟩ := bind_eq_ok h
  cases h
  exact ⟨checkField_eq_ok.1 hst, checkField_eq_ok.1 hdu, rfl, rfl, rfl, rfl, rfl, rfl⟩

/-- The check passes exactly the tuples whose fields all have their type. -/
theorem check_isOk_iff (r : CdrRow) : (∃ c, r.check = .ok c) ↔ r.Fits := by
  constructor
  · rintro ⟨c, h⟩
    obtain ⟨st, hst, h⟩ := bind_eq_ok h
    obtain ⟨du, hdu, h⟩ := bind_eq_ok h
    obtain ⟨mo, hmo, h⟩ := bind_eq_ok h
    obtain ⟨ji, hji, h⟩ := bind_eq_ok h
    obtain ⟨pl, hpl, h⟩ := bind_eq_ok h
    obtain ⟨no, hno, -⟩ := bind_eq_ok h
    rw [checkField_eq_ok] at hst hdu hmo hji hpl hno
    exact ⟨by simp [hst], by simp [hdu], by simp [hmo], by simp [hji], by simp [hpl],
      by simp [hno]⟩
  · rintro ⟨hst, hdu, hmo, hji, hpl, hno⟩
    obtain ⟨st, hst⟩ := Option.isSome_iff_exists.1 hst
    obtain ⟨du, hdu⟩ := Option.isSome_iff_exists.1 hdu
    obtain ⟨mo, hmo⟩ := Option.isSome_iff_exists.1 hmo
    obtain ⟨ji, hji⟩ := Option.isSome_iff_exists.1 hji
    obtain ⟨pl, hpl⟩ := Option.isSome_iff_exists.1 hpl
    obtain ⟨no, hno⟩ := Option.isSome_iff_exists.1 hno
    exact ⟨_, by rw [check, hst, hdu, hmo, hji, hpl, hno]; rfl⟩

end CdrRow

end VoipBackend
