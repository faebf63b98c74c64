import VoipBackend.Backend.Schema

/-!
# Media sessions

The procedures of `app/rtpe_service.lua` on the space `rtpe_calls`: an RTPEngine node
registers and refreshes its calls (`call_upsert`), removes them (`call_delete`), and a
node that takes over asks for the calls of another (`call_restore`).

Arguments come from a client and may be any value; a procedure that is given a call id
that is not a string answers with an error table.  `call_get` returns whatever is
stored, `call_restore` only what has not expired.
-/

namespace VoipBackend

open Library

/-! ## Writing -/

/-- The arguments of `call_upsert`. -/
structure CallUpsertArgs where
  callId : LuaValue
  nodeId : LuaValue
  payload : LuaValue
  ttlSec : LuaValue

/-- What `call_upsert` and `call_delete` answer. -/
inductive SessionReply where
  | error (message : String)
  | upserted (callId : LuaString) (updatedAt expiresAt : ℕ)
  | deleted (callId : LuaString)
  | notFound

/-- `ttl`: the argument if it is a positive number, an hour otherwise. -/
def CallUpsertArgs.ttl (a : CallUpsertArgs) : ℚ :=
  match a.ttlSec with
  | .number q => if 0 < q then q else 3600
  | _ => 3600

/-- `node`: the argument if it is a string. -/
def CallUpsertArgs.node (a : CallUpsertArgs) : LuaString :=
  match a.nodeId with
  | .string s => s
  | _ => ascii "default-node"

/-- A field of type `any` that is not nullable: `nil` at the end of a tuple is a field
that is not there. -/
def checkPresent (space field : String) : LuaValue → Except LuaError LuaValue
  | .nil => .error (.fieldMissing space field)
  | v => .ok v

/-- The tuple `call_upsert` hands to `insert` or `replace`, checked against the format. -/
def CallUpsertArgs.row (a : CallUpsertArgs) (callId : LuaString) (createdAt now : ℕ) :
    Except LuaError RtpeCall := do
  let expiresAt ← checkField "rtpe_calls" "expires_at" (unsigned? (now + a.ttl))
  let payload ← checkPresent "rtpe_calls" "payload" a.payload
  return ⟨callId, a.node, ascii "active", createdAt, now, expiresAt, payload⟩

/-- `rtpe_service.call_upsert`.  The tuple that is there keeps its `created_at`. -/
def callUpsert (now : Clock) (a : CallUpsertArgs) (b : Box) : Except LuaError SessionReply × Box :=
  match a.callId with
  | .string callId =>
      let createdAt := ((b.rtpeCalls.get callId).map RtpeCall.createdAt).getD now.epoch
      match a.row callId createdAt now.epoch with
      | .error e => (.error e, b)
      | .ok call =>
          (.ok (.upserted callId now.epoch call.expiresAt),
            { b with rtpeCalls := b.rtpeCalls.put call })
  | _ => (.ok (.error "Invalid call_id parameter"), b)

/-- `rtpe_service.call_delete`. -/
def callDelete (callId : LuaValue) (b : Box) : SessionReply × Box :=
  match callId with
  | .string callId =>
      match b.rtpeCalls.get callId with
      | none => (.notFound, b)
      | some _ => (.deleted callId, { b with rtpeCalls := b.rtpeCalls.delete callId })
  | _ => (.error "Missing call_id parameter", b)

/-! ## Reading -/

/-- `rtpe_service.call_get`: the tuple, field by field. -/
def callGet (callId : LuaValue) (b : Box) : Option RtpeCall :=
  match callId with
  | .string callId => b.rtpeCalls.get callId
  | _ => none

/-- An entry of the answer of `call_restore`. -/
structure RestoredCall where
  callId : LuaString
  nodeId : LuaString
  payload : LuaValue

/-- The entry made of a tuple. -/
def RtpeCall.restored (c : RtpeCall) : RestoredCall := ⟨c.callId, c.nodeId, c.payload⟩

/-- The tuples `call_restore` goes through: those of one node in the order of the index
`by_node`, or all of them. -/
def callsOf (nodeId : LuaValue) (b : Box) : List RtpeCall :=
  match nodeId with
  | .string [] => b.rtpeCalls.rows
  | .string n => (b.rtpeCalls.scanAsc RtpeCall.updatedAt).filter fun c => decide (c.nodeId = n)
  | _ => b.rtpeCalls.rows

/-- `rtpe_service.call_restore`. -/
def callRestore (now : Clock) (nodeId : LuaValue) (b : Box) : List RestoredCall :=
  ((callsOf nodeId b).filter fun c => decide (now.epoch < c.expiresAt)).map RtpeCall.restored

/-! ## What the procedures do -/

theorem checkPresent_of_not_nil {space field : String} {v : LuaValue} (h : v.isNil = false) :
    checkPresent space field v = .ok v := by
  cases v with
  | nil => cases h
  | _ => rfl

theorem checkPresent_of_nil {space field : String} {v : LuaValue} (h : v.isNil = true) :
    checkPresent space field v = .error (.fieldMissing space field) := by
  cases v with
  | nil => rfl
  | _ => cases h

theorem row_eq_ok {a : CallUpsertArgs} {callId : LuaString} {createdAt now : ℕ} {c : RtpeCall}
    (h : a.row callId createdAt now = .ok c) :
    unsigned? (now + a.ttl) = some c.expiresAt ∧ c.callId = callId ∧ c.nodeId = a.node ∧
      c.createdAt = createdAt ∧ c.updatedAt = now ∧ c.payload = a.payload := by
  obtain ⟨expiresAt, hexp, h⟩ := bind_eq_ok h
  obtain ⟨payload, hpayload, h⟩ := bind_eq_ok h
  cases h
  refine ⟨checkField_eq_ok.1 hexp, rfl, rfl, rfl, rfl, ?_⟩
  cases hnil : a.payload.isNil with
  | false =>
    rw [checkPresent_of_not_nil hnil] at hpayload
    exact (Except.ok.inj hpayload).symm
  | true =>
    rw [checkPresent_of_nil hnil] at hpayload
    cases hpayload

/-- Without a payload there is no tuple. -/
theorem row_of_isNil {a : CallUpsertArgs} (h : a.payload.isNil = true) (callId : LuaString)
    (createdAt now : ℕ) : ∃ e, a.row callId createdAt now = .error e := by
  cases hrow : a.row callId createdAt now with
  | error e => exact ⟨e, rfl⟩
  | ok c =>
    obtain ⟨expiresAt, -, hrest⟩ := bind_eq_ok hrow
    obtain ⟨payload, hpayload, -⟩ := bind_eq_ok hrest
    rw [checkPresent_of_nil h] at hpayload
    cases hpayload

/-- A call without a payload is not stored. -/
theorem callUpsert_of_isNil {a : CallUpsertArgs} {callId : LuaString}
    (hcallId : a.callId = .string callId) (h : a.payload.isNil = true) (now : Clock) (b : Box) :
    ∃ e, callUpsert now a b = (.error e, b) := by
  obtain ⟨e, he⟩ := row_of_isNil h callId
    (((b.rtpeCalls.get callId).map RtpeCall.createdAt).getD now.epoch) now.epoch
  refine ⟨e, ?_⟩
  rw [callUpsert, hcallId]
  simp only [he]

/-- **Everything `call_upsert` can do.**  It leaves the spaces alone, or stores one tuple
and answers with its expiry. -/
theorem callUpsert_cases (now : Clock) (a : CallUpsertArgs) (b : Box) :
    ((callUpsert now a b).2 = b ∧
      ∀ callId updatedAt expiresAt,
        (callUpsert now a b).1 ≠ .ok (.upserted callId updatedAt expiresAt)) ∨
    ∃ callId c, a.callId = .string callId ∧
      a.row callId (((b.rtpeCalls.get callId).map RtpeCall.createdAt).getD now.epoch) now.epoch =
        .ok c ∧
      callUpsert now a b =
        (.ok (.upserted callId now.epoch c.expiresAt), { b with rtpeCalls := b.rtpeCalls.put c }) := by
  unfold callUpsert
  cases hid : a.callId with
  | string callId =>
    cases hrow : a.row callId
        (((b.rtpeCalls.get callId).map RtpeCall.createdAt).getD now.epoch) now.epoch with
    | error e => exact Or.inl ⟨by simp only [hrow], by simp only [hrow]; simp⟩
    | ok c => exact Or.inr ⟨callId, c, rfl, hrow, by simp only [hrow]⟩
  | _ => exact Or.inl ⟨rfl, by simp⟩

/-- A `call_delete` of a call id is a delete, whether the call is there or not. -/
theorem callDelete_string (callId : LuaString) (b : Box) :
    (callDelete (.string callId) b).2 = { b with rtpeCalls := b.rtpeCalls.delete callId } := by
  unfold callDelete
  cases hget : b.rtpeCalls.get callId with
  | some c => simp only [hget]
  | none =>
    simp only [hget]
    have hsame : b.rtpeCalls.delete callId = b.rtpeCalls := by
      refine KeyedTable.ext_get fun k => ?_
      rw [KeyedTable.get_delete]
      split_ifs with hk
      · rw [hk, hget]
      · rfl
    rw [hsame]

end VoipBackend
