import VoipBackend.Backend.Schema

/-!
# The billing procedures

`app/billing_service.lua`: rating, call authorisation, teardown with its CDR,
provisioning and the live statistics.  Every definition follows the procedure of
the same name statement by statement.

A procedure takes the clock reading of its first stretch and the spaces, and
returns its answer with the spaces it leaves.  A raised error is an answer too:
the writes made before it stay.  Arguments a procedure receives and discards
(`node_id` of `authorize_call`, the packet counts of `finalize_cdr`) are left
out.
-/

namespace VoipBackend

open Library

/-! ## Rating -/

/-- What `match_tariff` returns. -/
structure Rating where
  ratePerMin : ℚ
  connectFee : ℚ
  tariffName : LuaString
  deriving DecidableEq

/-- The rating of a row of the rate table. -/
def Tariff.rating (t : Tariff) : Rating := ⟨t.costPerMinute, t.connectFee, t.description⟩

/-- The loop `for len = #destination, 1, -1`: the first row found, trying the
prefixes of at most `len` bytes from the longest to the shortest. -/
def findPrefix (tariffs : KeyedTable Tariff.pfx) (destination : LuaString) : ℕ → Option Tariff
  | 0 => none
  | len + 1 =>
      match tariffs.get (destination.take (len + 1)) with
      | some t => some t
      | none => findPrefix tariffs destination len

/-- `match_tariff`. -/
def matchTariff (b : Box) (destination : LuaString) : Rating :=
  match findPrefix b.tariffs destination destination.length with
  | some t => t.rating
  | none =>
      match b.tariffs.get (ascii "default") with
      | some t => t.rating
      | none => ⟨1 / 20, 0, ascii "Default Fallback"⟩

/-- `count_active_calls`: the rows the index `by_caller` holds for the caller. -/
def countActiveCalls (b : Box) (caller : LuaString) : ℕ :=
  b.kamDialogs.rows.countP fun dlg => decide (dlg.fromTag = caller)

/-! ## Authorisation -/

/-- The arguments of `authorize_call`. -/
structure AuthorizeArgs where
  caller : LuaString
  callee : LuaString
  callId : LuaString
  deriving DecidableEq

/-- The reasons a call is refused for. -/
inductive Refusal where
  | subscriberNotFound
  | subscriberBlocked
  | maxConcurrentCallsExceeded
  | insufficientFunds
  deriving DecidableEq

/-- The answer to an allowed call. -/
structure Grant where
  maxDurationSec : LuaNumber
  ratePerMin : ℚ
  tariff : LuaString
  currency : LuaString
  deriving DecidableEq

/-- The answer of `authorize_call`. -/
inductive AuthorizeReply where
  | refused (reason : Refusal)
  | allowed (grant : Grant)
  deriving DecidableEq

/-- `total_min_required`: the funds a call needs to be let through. -/
def totalMinRequired (r : Rating) : ℚ := r.connectFee + r.ratePerMin / 6

/-- The seconds the balance pays for after the connect fee, at most a day. -/
def maxDurationSec (balance : ℚ) (r : Rating) : LuaNumber :=
  let sec := ((LuaNumber.div (balance - r.connectFee) r.ratePerMin).scale 60).floor
  if sec.gt 86400 then .fin 86400 else sec

/-- `math.floor(now + max_duration_sec + 300)`, if it fits its field. -/
def dialogExpiry (now : Clock) (sec : LuaNumber) : Option ℕ :=
  ((sec.add now.time).add 300).floor.unsigned?

/-- The tuple `authorize_call` registers. -/
def newDialog (now : Clock) (a : AuthorizeArgs) (r : Rating) (expiresAt : ℕ) : Dialog where
  callId := a.callId
  fromTag := a.caller
  toTag := a.callee
  state := 1
  expiresAt := expiresAt
  extraData := some ⟨some r.tariffName, some r.ratePerMin, some r.connectFee, some now.epoch⟩

/-- The operations of the upsert on a dialog that is already there. -/
def refreshDialog (expiresAt : ℕ) (dlg : Dialog) : Dialog :=
  { dlg with state := 1, expiresAt := expiresAt }

/-- `dialogs_space:upsert`: the update touches two of the six fields. -/
def Box.upsertDialog (b : Box) (dlg : Dialog) : Box :=
  { b with kamDialogs := b.kamDialogs.upsert dlg (refreshDialog dlg.expiresAt) }

/-- `billing.authorize_call`. -/
def authorizeCall (now : Clock) (a : AuthorizeArgs) (b : Box) :
    Except LuaError AuthorizeReply × Box :=
  match b.subscribers.get a.caller with
  | none => (.ok (.refused .subscriberNotFound), b)
  | some sub =>
      if sub.status ≠ ascii "active" then (.ok (.refused .subscriberBlocked), b)
      else if sub.maxConcurrentCalls ≤ countActiveCalls b a.caller then
        (.ok (.refused .maxConcurrentCallsExceeded), b)
      else
        let r := matchTariff b a.callee
        if sub.balance < totalMinRequired r then (.ok (.refused .insufficientFunds), b)
        else
          let sec := maxDurationSec sub.balance r
          match dialogExpiry now sec with
          | none => (.error (.fieldType "kam_dialogs" "expires_at"), b)
          | some expiresAt =>
              (.ok (.allowed ⟨sec, r.ratePerMin, r.tariffName, sub.currency⟩),
                b.upsertDialog (newDialog now a r expiresAt))

/-! ## Teardown -/

/-- The arguments of `finalize_cdr` it uses.  A duration is a number or `nil`. -/
structure FinalizeArgs where
  callId : LuaString
  durationSec : Option ℚ
  jitterMs : LuaValue
  packetLossPct : LuaValue
  mosScore : LuaValue
  nodeId : LuaValue

/-- `string.format("%d", n)` for a non-negative `n`. -/
def decimal (n : ℕ) : LuaString := (Nat.toDigits 10 n).map fun c => c.toNat.toUInt8

/-- `string.format("cdr-%s-%d", call_id, end_epoch)`. -/
def cdrId (callId : LuaString) (endEpoch : ℕ) : LuaString :=
  ascii "cdr-" ++ callId ++ ascii "-" ++ decimal endEpoch

/-- `billable_minutes`: whole minutes, rounded up. -/
def billableMinutes (dur : ℚ) : ℤ := if dur = 0 then 0 else ⌈dur / 60⌉

/-- `billed_amount`. -/
def billedAmount (connectFee ratePerMin dur : ℚ) : ℚ :=
  connectFee + billableMinutes dur * ratePerMin

/-- The local variables of `finalize_cdr`, as they stand before its first
write. -/
structure FinalizeFrame where
  args : FinalizeArgs
  caller : LuaString
  callee : LuaString
  startEpoch : ℚ
  endEpoch : ℕ
  dur : ℚ
  billedAmount : ℚ
  newBalance : ℚ

/-- `(dlg and type(dlg.extra_data) == 'table') and dlg.extra_data or {}`. -/
def dialogExtra (dlg : Option Dialog) : DialogExtra :=
  (dlg.bind Dialog.extraData).getD .none

/-- The part of `finalize_cdr` before its first write. -/
def finalizeLocals (now : Clock) (a : FinalizeArgs) (b : Box) : FinalizeFrame :=
  let dlg := b.kamDialogs.get a.callId
  let caller := (dlg.map Dialog.fromTag).getD (ascii "unknown")
  let callee := (dlg.map Dialog.toTag).getD (ascii "unknown")
  let extra := dialogExtra dlg
  let ratePerMin := extra.rate.getD (1 / 20)
  let connectFee := extra.connectFee.getD 0
  let dur := a.durationSec.getD 0
  let startEpoch := (extra.startEpoch.map fun e => (e : ℚ)).getD (now.epoch - dur)
  let amount := billedAmount connectFee ratePerMin dur
  let newBalance :=
    match b.subscribers.get caller with
    | none => 0
    | some sub => max 0 (sub.balance - amount)
  ⟨a, caller, callee, startEpoch, now.epoch, dur, amount, newBalance⟩

namespace FinalizeFrame

/-- The operations of the update on the subscriber. -/
def charge (f : FinalizeFrame) (sub : Subscriber) : Subscriber :=
  { sub with balance := f.newBalance, updatedAt := f.endEpoch }

/-- `subs_space:update`, made when the subscriber is there. -/
def deduct (f : FinalizeFrame) (b : Box) : Box :=
  { b with subscribers := b.subscribers.update f.caller f.charge }

/-- The tuple handed to `cdrs_space:replace`. -/
def row (f : FinalizeFrame) : CdrRow where
  cdrId := cdrId f.args.callId f.endEpoch
  callId := f.args.callId
  caller := f.caller
  callee := f.callee
  startTime := f.startEpoch
  endTime := f.endEpoch
  durationSec := f.dur
  billedAmount := f.billedAmount
  mosScore := f.args.mosScore.or (.number (44 / 10))
  jitterMs := f.args.jitterMs.or (.number (12 / 10))
  packetLossPct := f.args.packetLossPct.or (.number 0)
  nodeId := f.args.nodeId.or (.string (ascii "rtpe-node-01"))

end FinalizeFrame

/-- The answer of `finalize_cdr` when it completes. -/
structure FinalizeReply where
  cdrId : LuaString
  durationSec : ℚ
  billedAmount : ℚ
  remainingBalance : ℚ
  deriving DecidableEq

/-- The answer made from the local variables. -/
def FinalizeFrame.reply (f : FinalizeFrame) : FinalizeReply :=
  ⟨cdrId f.args.callId f.endEpoch, f.dur, f.billedAmount, f.newBalance⟩

/-- `cdrs_space:replace` of a record that passed the check. -/
def Box.storeCdr (b : Box) (cdr : Cdr) : Box := { b with cdrs := b.cdrs.put cdr }

/-- `dialogs_space:delete`. -/
def Box.deleteDialog (b : Box) (callId : LuaString) : Box :=
  { b with kamDialogs := b.kamDialogs.delete callId }

/-- `calls_space:delete`. -/
def Box.deleteCall (b : Box) (callId : LuaString) : Box :=
  { b with rtpeCalls := b.rtpeCalls.delete callId }

/-- `billing.finalize_cdr`. -/
def finalizeCdr (now : Clock) (a : FinalizeArgs) (b : Box) :
    Except LuaError FinalizeReply × Box :=
  let f := finalizeLocals now a b
  let b := f.deduct b
  match f.row.check with
  | .error e => (.error e, b)
  | .ok cdr => (.ok f.reply, ((b.storeCdr cdr).deleteDialog a.callId).deleteCall a.callId)

/-! ## Provisioning -/

/-- The answers of the provisioning procedures. -/
inductive ProvisionReply where
  | ok (subscriberId : LuaString) (balance : Option ℚ)
  | subscriberNotFound
  deriving DecidableEq

/-- The arguments of `add_subscriber`; a missing one is `nil`. -/
structure AddSubscriberArgs where
  subId : LuaString
  initialBalance : Option ℚ
  currency : Option LuaString
  maxCalls : Option ℚ
  tariffId : Option LuaString
  deriving DecidableEq

/-- The tuple `add_subscriber` stores. -/
def AddSubscriberArgs.subscriber (a : AddSubscriberArgs) (now : Clock) (maxCalls : ℕ) :
    Subscriber where
  subscriberId := a.subId
  balance := a.initialBalance.getD 0
  currency := a.currency.getD (ascii "USD")
  status := ascii "active"
  maxConcurrentCalls := maxCalls
  tariffId := a.tariffId.getD (ascii "1")
  updatedAt := now.epoch

/-- `billing.add_subscriber`. -/
def addSubscriber (now : Clock) (a : AddSubscriberArgs) (b : Box) :
    Except LuaError ProvisionReply × Box :=
  match unsigned? (a.maxCalls.getD 5) with
  | none => (.error (.fieldType "subscribers" "max_concurrent_calls"), b)
  | some maxCalls =>
      (.ok (.ok a.subId a.initialBalance),
        { b with subscribers := b.subscribers.put (a.subscriber now maxCalls) })

/-- The operations of the update in `update_balance`: the amount is added in
place. -/
def topUp (now : Clock) (deltaAmount : ℚ) (sub : Subscriber) : Subscriber :=
  { sub with balance := sub.balance + deltaAmount, updatedAt := now.epoch }

/-- `billing.update_balance`. -/
def updateBalance (now : Clock) (subId : LuaString) (deltaAmount : ℚ) (b : Box) :
    Except LuaError ProvisionReply × Box :=
  match b.subscribers.get subId with
  | none => (.ok .subscriberNotFound, b)
  | some sub =>
      (.ok (.ok subId (some (sub.balance + deltaAmount))),
        { b with subscribers := b.subscribers.update subId (topUp now deltaAmount) })

/-- The arguments of `set_tariff`; a missing one is `nil`. -/
structure SetTariffArgs where
  pfx : LuaString
  description : Option LuaString
  costPerMinute : Option ℚ
  connectFee : Option ℚ
  deriving DecidableEq

/-- The tuple `set_tariff` stores. -/
def SetTariffArgs.tariff (a : SetTariffArgs) : Tariff where
  pfx := a.pfx
  description := a.description.getD a.pfx
  costPerMinute := a.costPerMinute.getD (1 / 20)
  connectFee := a.connectFee.getD 0

/-- `billing.set_tariff`. -/
def setTariff (a : SetTariffArgs) (b : Box) : Box := { b with tariffs := b.tariffs.put a.tariff }

/-! ## Live statistics -/

/-- The running totals of `get_live_stats`. -/
structure LiveTotals where
  totalCdrs : ℕ
  totalRevenue : ℚ
  totalDuration : ℕ
  sumMos : ℚ
  mosCount : ℕ
  deriving DecidableEq

/-- The body of the loop over the CDRs. -/
def LiveTotals.add (t : LiveTotals) (cdr : Cdr) : LiveTotals where
  totalCdrs := t.totalCdrs + 1
  totalRevenue := t.totalRevenue + cdr.billedAmount
  totalDuration := t.totalDuration + cdr.durationSec
  sumMos := if 0 < cdr.mosScore then t.sumMos + cdr.mosScore else t.sumMos
  mosCount := if 0 < cdr.mosScore then t.mosCount + 1 else t.mosCount

/-- The totals when the loop over the CDRs is done. -/
def liveTotals (b : Box) : LiveTotals := b.cdrs.rows.foldl LiveTotals.add ⟨0, 0, 0, 0, 0⟩

/-- `round(num, numDecimalPlaces)`. -/
def round (num : ℚ) (numDecimalPlaces : ℕ) : ℚ :=
  ⌊num * 10 ^ numDecimalPlaces + 1 / 2⌋ / 10 ^ numDecimalPlaces

/-- The answer of `get_live_stats`. -/
structure LiveStats where
  activeCalls : ℕ
  totalCdrsProcessed : ℕ
  totalRevenue : ℚ
  averageCallDurationSec : ℤ
  averageFleetMos : ℚ
  deriving DecidableEq

/-- `billing.get_live_stats`. -/
def getLiveStats (b : Box) : LiveStats :=
  let t := liveTotals b
  let avgMos := if 0 < t.mosCount then t.sumMos / t.mosCount else 45 / 10
  let avgDuration : ℚ := if 0 < t.totalCdrs then t.totalDuration / t.totalCdrs else 0
  { activeCalls := b.kamDialogs.rows.length
    totalCdrsProcessed := t.totalCdrs
    totalRevenue := round t.totalRevenue 4
    averageCallDurationSec := ⌊avgDuration⌋
    averageFleetMos := round avgMos 2 }

end VoipBackend
