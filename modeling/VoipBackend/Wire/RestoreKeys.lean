import VoipBackend.Wire.RestoreEntries

/-!
# Which keys are taken

`takesByName_iff` puts the entries together: in which answers of `rtpe_call_restore` every entry is
taken by its exact name, so that the calls that are restored are those the names describe, whatever
else is in the maps and in whatever order.
-/

namespace VoipBackend

open Library MsgPack Msgpuck

namespace RtpEngine

attribute [ext] RestoredCall

/-! ## The calls that the names describe -/

/-- The payload in the map of a call. -/
def payloadOf (fields : List (Item × Item)) : List (Item × Item) :=
  ((valueOf payloadName fields).bind Item.pairs).getD []

/-- The call that the entries with the known names describe. -/
def namedCall (fields : List (Item × Item)) : RestoredCall where
  callId := textOf 128 [] (valueOf (ascii "call_id") fields)
  nodeId := textOf 64 [] (valueOf (ascii "node_id") fields)
  callerIp := textOf 64 (ascii "0.0.0.0") (valueOf (ascii "caller_ip") (payloadOf fields))
  callerPort := portOf 0 (valueOf (ascii "caller_port") (payloadOf fields))
  calleeIp := textOf 64 (ascii "0.0.0.0") (valueOf (ascii "callee_ip") (payloadOf fields))
  calleePort := portOf 0 (valueOf (ascii "callee_port") (payloadOf fields))
  srtpSuite := textOf 32 (ascii "NONE") (valueOf (ascii "srtp_suite") (payloadOf fields))

/-- The entries of a payload leave the strings of the call alone. -/
theorem get_id_foldl_takeNamed {f : KnownField} (hf : f ∈ idFields) (entries : List (Item × Item))
    (call : RestoredCall) :
    f.slot.get (entries.foldl (takeNamed payloadFields) call) = f.slot.get call := by
  induction entries generalizing call with
  | nil => rfl
  | cons e entries ih =>
    rw [List.foldl_cons, ih]
    unfold takeNamed
    cases hnamed : namedField payloadFields e with
    | none => rfl
    | some g => exact (get_set_id_payload hf (namedField_eq_some hnamed).1 call).1 _

/-- The strings of the call leave the variables of the payload alone. -/
theorem get_payload_takeNamed {f : KnownField} (hf : f ∈ payloadFields) (e : Item × Item)
    (call : RestoredCall) : f.slot.get (takeNamed idFields call e) = f.slot.get call := by
  unfold takeNamed
  cases hnamed : namedField idFields e with
  | none => rfl
  | some g => exact (get_set_id_payload (namedField_eq_some hnamed).1 hf call).2 _

theorem payloadName_ne {f : KnownField} (hf : f ∈ idFields) : payloadName ≠ f.name := by
  simp only [idFields, List.mem_cons, List.not_mem_nil, or_false] at hf
  rcases hf with rfl | rfl <;> decide

/-- A string of the call, after all entries of its map. -/
theorem get_id_foldl_takeField {f : KnownField} (hf : f ∈ idFields) {fields : List (Item × Item)}
    (hnodup : (fields.map fun e => e.1.text).Nodup) (call : RestoredCall) :
    f.slot.get (fields.foldl takeField call) =
      match valueOf f.name fields with
      | none => f.slot.get call
      | some val => f.slot.update val (f.slot.get call) := by
  refine foldl_get (fun e _ call => ?_) hnodup call
  unfold takeField
  by_cases hpayload : e.1.text = some payloadName
  · have hother : ¬ e.1.text = some f.name := fun hname =>
      payloadName_ne hf (Option.some.inj (hpayload.symm.trans hname))
    rw [if_pos hpayload, if_neg hother]
    cases e.2.pairs with
    | none => rfl
    | some entries => exact get_id_foldl_takeNamed hf entries call
  · rw [if_neg hpayload]
    exact get_takeNamed (Or.inl rfl) hf call e

/-- A variable of the payload, after all entries of the map of the call. -/
theorem get_payload_foldl_takeField {f : KnownField} (hf : f ∈ payloadFields)
    {fields : List (Item × Item)} (hnodup : (fields.map fun e => e.1.text).Nodup)
    (hinner : ∀ e ∈ fields, ∀ entries, e.2.pairs = some entries → DistinctKeys entries)
    (call : RestoredCall) :
    f.slot.get (fields.foldl takeField call) =
      match valueOf f.name (payloadOf fields) with
      | none => f.slot.get call
      | some val => f.slot.update val (f.slot.get call) := by
  have hfold := @foldl_get _ f.slot.get takeField payloadName (fun val old =>
    match valueOf f.name (val.pairs.getD []) with
    | none => old
    | some val => f.slot.update val old) fields ?_ hnodup call
  · rw [hfold, payloadOf]
    cases valueOf payloadName fields with
    | none => rfl
    | some val => rfl
  · intro e he call
    unfold takeField
    by_cases hpayload : e.1.text = some payloadName
    · rw [if_pos hpayload, if_pos hpayload]
      cases hpairs : e.2.pairs with
      | none => rfl
      | some entries =>
        exact foldl_get (fun e _ call => get_takeNamed (Or.inr rfl) hf call e)
          (hinner e he entries hpairs).nodup call
    · rw [if_neg hpayload, if_neg hpayload]
      exact get_payload_takeNamed hf e call

/-- **The entries of a map, taken one after the other**, describe the call in whatever order they
stand. -/
theorem foldl_takeField {fields : List (Item × Item)} (hdistinct : DistinctKeys fields)
    (hinner : ∀ e ∈ fields, ∀ entries, e.2.pairs = some entries → DistinctKeys entries) :
    fields.foldl takeField .blank = namedCall fields := by
  have hid := fun f (hf : f ∈ idFields) => get_id_foldl_takeField hf hdistinct.nodup .blank
  have hpayload := fun f (hf : f ∈ payloadFields) =>
    get_payload_foldl_takeField hf hdistinct.nodup hinner .blank
  have htext : ∀ (size : ℕ) (old : Bytes) (val : Option Item), (match val with
      | none => old
      | some val => textOf size old val) = textOf size old val := by
    intro size old val
    cases val <;> rfl
  have hport : ∀ (old : Int32) (val : Option Item), (match val with
      | none => old
      | some val => portOf old val) = portOf old val := by
    intro old val
    cases val <;> rfl
  simp only [idFields, payloadFields, List.forall_mem_cons] at hid hpayload
  obtain ⟨hcallId, hnodeId, -⟩ := hid
  obtain ⟨hcallerIp, hcalleeIp, hcallerPort, hcalleePort, hsrtpSuite, -⟩ := hpayload
  exact RestoredCall.ext (hcallId.trans (htext ..)) (hnodeId.trans (htext ..))
    (hcallerIp.trans (htext ..)) (hcallerPort.trans (hport ..)) (hcalleeIp.trans (htext ..))
    (hcalleePort.trans (hport ..)) (hsrtpSuite.trans (htext ..))

/-! ## Answers -/

/-- An answer of the server: `IPROTO_DATA` with one list of maps, one for each call.  The keys of
these maps, and of the maps in them, are strings, all different in one map. -/
structure RestoreResponse where
  body : Item
  valid : body.Valid
  maps : List (List (Item × Item))
  lists : ∃ key data list items, body.pairs = some [(key, data)] ∧ key.number = some iprotoData ∧
    data.elements = some [list] ∧ list.elements = some items ∧ items.map Item.pairs = maps.map some
  distinct : ∀ fields ∈ maps, DistinctKeys fields
  inner : ∀ fields ∈ maps, ∀ e ∈ fields, ∀ entries, e.2.pairs = some entries →
    DistinctKeys entries

/-- The calls that a callback is handed: those that have a Call-ID, up to the one for which it does
not return 0. -/
def handTo (restoreCb : List RestoredCall → ℤ) (before : List RestoredCall) :
    List RestoredCall → List RestoredCall
  | [] => before
  | call :: calls =>
      if call.callId = [] then handTo restoreCb before calls
      else if restoreCb (before ++ [call]) ≠ 0 then before ++ [call]
      else handTo restoreCb (before ++ [call]) calls

/-- Every entry of a map is taken by its exact name or skipped, and whatever the callback returns,
it is handed the calls that the names describe. -/
structure RestoreResponse.TakesByName (r : RestoreResponse) : Prop where
  entries : ∀ fields ∈ r.maps, ∀ e ∈ fields, ReadByName e
  calls : ∀ restoreCb, decodeCalls restoreCb r.body.bytes =
    some (handTo restoreCb [] (r.maps.map namedCall))

/-- The map of a call is read as the call that the names describe. -/
theorem callItem_named {item : Item} {fields : List (Item × Item)} (hvalid : item.Valid)
    (hpairs : item.pairs = some fields) (hdistinct : DistinctKeys fields)
    (hinner : ∀ e ∈ fields, ∀ entries, e.2.pairs = some entries → DistinctKeys entries)
    (hread : ∀ e ∈ fields, ReadAs callEntry takeField e) (rest : Bytes) :
    callItem (item.bytes ++ rest) = some (namedCall fields, rest) := by
  have hpeek : peek (item.bytes ++ rest) = some item.tag := rfl
  rw [callItem, hpeek]
  simp only [Option.bind_eq_bind, Option.bind_some, isMapTag_tag hvalid hpairs, if_true]
  rw [mpDecodeMap_pairs hvalid hpairs, Option.bind_some]
  simp only
  rw [entriesLoop_items takeField hread, foldl_takeField hdistinct hinner]

/-- The loop over a list of maps. -/
theorem callsLoop_named (restoreCb : List RestoredCall → ℤ) {items : List Item}
    {calls : List RestoredCall} (h : List.Forall₂ (fun item call =>
      ∀ rest, callItem (item.bytes ++ rest) = some (call, rest)) items calls)
    (before : List RestoredCall) (rest : Bytes) :
    ∃ p, callsLoop restoreCb items.length before (itemsBytes items ++ rest) =
      some (handTo restoreCb before calls, p) := by
  induction h generalizing before with
  | nil => exact ⟨rest, rfl⟩
  | @cons item call items calls hitem htail ih =>
    rw [itemsBytes_cons, List.append_assoc, List.length_cons, callsLoop, hitem, handTo]
    simp only [Option.bind_eq_bind, Option.bind_some]
    by_cases hempty : call.callId = []
    · rw [if_pos hempty, if_pos hempty]
      exact ih before
    · rw [if_neg hempty, if_neg hempty]
      by_cases hstop : restoreCb (before ++ [call]) ≠ 0
      · rw [if_pos hstop, if_pos hstop]
        exact ⟨_, rfl⟩
      · rw [if_neg hstop, if_neg hstop]
        exact ih (before ++ [call])

/-- The elements of the list are well formed. -/
theorem RestoreResponse.valid_items (r : RestoreResponse) {key data list : Item} {items : List Item}
    (hbody : r.body.pairs = some [(key, data)]) (hdata : data.elements = some [list])
    (hlist : list.elements = some items) : ∀ item ∈ items, item.Valid := by
  have hdataValid := (entriesValid_iff.1 (r.valid.pairs hbody) (key, data) (by simp)).2
  have hlistValid : list.Valid := itemsValid_iff.1 (hdataValid.elements hdata) list (by simp)
  exact itemsValid_iff.1 (hlistValid.elements hlist)

/-- If every entry is taken by its name, the calls are those that the names describe. -/
theorem RestoreResponse.decodeCalls_eq (r : RestoreResponse)
    (hread : ∀ fields ∈ r.maps, ∀ e ∈ fields, ReadAs callEntry takeField e)
    (restoreCb : List RestoredCall → ℤ) :
    decodeCalls restoreCb r.body.bytes = some (handTo restoreCb [] (r.maps.map namedCall)) := by
  obtain ⟨key, data, list, items, hbody, hkey, hdata, hlist, hmaps⟩ := r.lists
  have hitems := r.valid_items hbody hdata hlist
  have hcalls : List.Forall₂ (fun (item : Item) call =>
      ∀ rest, callItem (item.bytes ++ rest) = some (call, rest)) items
        (r.maps.map namedCall) := by
    rw [List.forall₂_map_right_iff]
    have hpairs : List.Forall₂ (fun (item : Item) fields => item.pairs = some fields)
        items r.maps := by
      rw [← List.forall₂_map_left_iff (f := Item.pairs) (R := fun a b => a = some b),
        ← List.forall₂_map_right_iff (f := some) (R := fun a b => a = b), List.forall₂_eq_eq_eq]
      exact hmaps
    refine List.forall₂_iff_get.2 ⟨hpairs.length_eq, fun i hi hi' => ?_⟩
    have hmem := List.get_mem r.maps ⟨i, hi'⟩
    exact callItem_named (hitems _ (List.get_mem items ⟨i, hi⟩))
      ((List.forall₂_iff_get.1 hpairs).2 i hi hi') (r.distinct _ hmem) (r.inner _ hmem)
      (hread _ hmem)
  obtain ⟨p, hloop⟩ := callsLoop_named restoreCb hcalls [] []
  rw [List.append_nil] at hloop
  exact decodeCalls_list r.valid hbody hkey hdata hlist hloop

/-- **Which answers are restored by the names.**  For every answer, whatever the entries of its
maps: all entries are taken by their exact names, and the calls are those the names describe,
exactly if every entry is sound. -/
theorem takesByName_iff (r : RestoreResponse) :
    r.TakesByName ↔ ∀ fields ∈ r.maps, ∀ e ∈ fields, FieldSound e := by
  obtain ⟨key, data, list, items, hbody, hkey, hdata, hlist, hmaps⟩ := r.lists
  have hitems := r.valid_items hbody hdata hlist
  have hvalid : ∀ fields ∈ r.maps, ∀ e ∈ fields, e.1.Valid ∧ e.2.Valid := by
    intro fields hfields
    have hmem : some fields ∈ items.map Item.pairs := hmaps ▸ List.mem_map_of_mem hfields
    obtain ⟨item, hitem, hpairs⟩ := List.mem_map.1 hmem
    exact entriesValid_iff.1 ((hitems item hitem).pairs hpairs)
  have hiff : ∀ fields ∈ r.maps, ∀ e ∈ fields, ReadByName e ↔ FieldSound e :=
    fun fields hfields e he => readByName_iff (hvalid fields hfields e he)
      ((r.distinct fields hfields).strings e he) (r.inner fields hfields e he)
  constructor
  · intro h fields hfields e he
    exact (hiff fields hfields e he).1 (h.entries fields hfields e he)
  · intro h
    have hentries : ∀ fields ∈ r.maps, ∀ e ∈ fields, ReadByName e := fun fields hfields e he =>
      (hiff fields hfields e he).2 (h fields hfields e he)
    exact ⟨hentries, r.decodeCalls_eq fun fields hfields e he =>
      (hentries fields hfields e he).own⟩

/-! ## A payload with one more entry -/

/-- A payload with the name of the caller in it. -/
def callerPayload : List (Item × Item) :=
  [(strItem (ascii "caller_ip"), strItem (ascii "10.0.0.1")),
    (strItem (ascii "caller"), strItem (ascii "alice"))]

/-- The map of the call. -/
def callerFields : List (Item × Item) :=
  [(strItem (ascii "call_id"), strItem (ascii "c1")),
    (strItem (ascii "node_id"), strItem (ascii "rtpe-01")),
    (strItem (ascii "payload"), .fixmap callerPayload)]

theorem distinctKeys_callerFields : DistinctKeys callerFields ∧ DistinctKeys callerPayload :=
  ⟨⟨by decide +kernel, by decide +kernel⟩, ⟨by decide +kernel, by decide +kernel⟩⟩

theorem pairs_callerFields {e : Item × Item} (he : e ∈ callerFields) {entries : List (Item × Item)}
    (h : e.2.pairs = some entries) : entries = callerPayload := by
  simp only [callerFields, List.mem_cons, List.not_mem_nil, or_false] at he
  rcases he with rfl | rfl | rfl
  · rw [pairs_strItem] at h
    cases h
  · rw [pairs_strItem] at h
    cases h
  · exact (Option.some.inj h).symm

/-- The answer with this call. -/
def callerBody : Item :=
  .fixmap [(uintItem iprotoData, .fixarray [.fixarray [.fixmap callerFields]])]

theorem valid_callerBody : callerBody.Valid := by
  have hstr : ∀ x : Bytes, x.length < 2 ^ 32 → (strItem x).Valid := fun _ => valid_strItem
  simp [callerBody, callerFields, callerPayload, Item.Valid, ItemsValid, EntriesValid, hstr,
    valid_uintItem, iprotoData, ascii]

def callerResponse : RestoreResponse where
  body := callerBody
  valid := valid_callerBody
  maps := [callerFields]
  lists := ⟨_, _, _, _, rfl, number_uintItem iprotoData, rfl, rfl, rfl⟩
  distinct := fun fields hfields => List.mem_singleton.1 hfields ▸ distinctKeys_callerFields.1
  inner := fun fields hfields e he entries h => by
    rw [List.mem_singleton.1 hfields] at he
    rw [pairs_callerFields he h]
    exact distinctKeys_callerFields.2

/-- **A name that passes for an address.**  The entry `caller` is taken for `caller_ip`. -/
theorem not_takesByName_caller :
    (decodeCalls (fun _ => 0) callerResponse.body.bytes).map (List.map RestoredCall.callerIp) =
        some [ascii "alice"] ∧ ¬ callerResponse.TakesByName := by
  refine ⟨by decide +kernel, fun h => ?_⟩
  have hcalls := h.calls fun _ => 0
  revert hcalls
  decide +kernel

end RtpEngine

end VoipBackend
