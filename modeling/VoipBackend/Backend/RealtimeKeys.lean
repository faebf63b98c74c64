import VoipBackend.Backend.AsteriskService

/-!
# Which tuple a lookup is about

Asterisk looks configuration up by any field: the driver passes the name of a field, `key_field`,
and a value, `key_val`.  The procedures take the value for the primary key, whatever the field is.
So a lookup by another field finds nothing, or it finds, changes or destroys an object that only
happens to have the value as its name.

`followsKey_iff` says for which contents of a space a lookup comes out right all the same: the
value is in the field and in the primary key of one tuple, or in neither of any.
-/

namespace VoipBackend

open Library

namespace AsteriskService

/-- `tuple[key_field]`. -/
def Tuple.field (format : RealtimeFormat) (t : Tuple) (keyField : LuaString) : FieldValue :=
  t.value (format.names.idxOf keyField)

/-- A value equals the value that is looked for: it is that value, or has that text. -/
def FieldValue.Equals (v : FieldValue) : LuaValue → Prop
  | .string text => v.tostring = some text
  | .number q => ∃ n, v = .unsigned n ∧ q = n
  | .cdata z => ∃ n, v = .unsigned n ∧ z = n
  | _ => False

/-- The tuples of a table. -/
def rowsOf (b : RealtimeBox) (tableName : LuaString) : List Tuple :=
  ((b tableName).map fun sp => sp.tuples.rows).getD []

/-- The three procedures work on the tuples whose `key_field` equals `key_val`. -/
structure FollowsKey (b : RealtimeBox) (tableName : LuaString) (format : RealtimeFormat)
    (keyField : LuaString) (keyVal : LuaValue) : Prop where
  /-- A record that is returned has the value in the field. -/
  sound : ∀ record, astRealtimeGet tableName keyField keyVal b = .ok (some record) →
    ∃ text, keyVal = .string text ∧ (keyField, text) ∈ record
  /-- If there is such a tuple, a record is returned. -/
  complete : (∃ t ∈ rowsOf b tableName, (t.field format keyField).Equals keyVal) →
    ∃ record, astRealtimeGet tableName keyField keyVal b = .ok (some record)
  /-- Only such tuples are changed, -/
  update : ∀ fieldsTable, ∀ t ∈ rowsOf b tableName,
    t ∉ rowsOf (astRealtimeUpdate tableName keyField keyVal fieldsTable b).2 tableName →
      (t.field format keyField).Equals keyVal
  /-- or removed. -/
  destroy : ∀ t ∈ rowsOf b tableName,
    t ∉ rowsOf (astRealtimeDestroy tableName keyField keyVal b).2 tableName →
      (t.field format keyField).Equals keyVal

/-- One tuple has the value in the field and in its primary key, or no tuple has it in either. -/
def KeyAgrees (sp : RealtimeSpace) (keyField : LuaString) (keyVal : LuaValue) : Prop :=
  (∃ t ∈ sp.tuples.rows, keyVal = .string t.id ∧ (t.field sp.format keyField).Equals keyVal) ∨
    ∀ t ∈ sp.tuples.rows, keyVal ≠ .string t.id ∧ ¬ (t.field sp.format keyField).Equals keyVal

/-! ## Records -/

/-- A record has the text of a field under its name. -/
theorem mem_map_iff {format : RealtimeFormat} {t : Tuple} {name text : LuaString}
    (hname : name ∈ format.names) :
    (name, text) ∈ t.map format ↔ (t.field format name).tostring = some text := by
  have hindex : ∀ i, (name, i) ∈ format.names.zipIdx ↔ i = format.names.idxOf name := by
    intro i
    rw [List.mem_zipIdx_iff_getElem?]
    constructor
    · intro hi
      obtain ⟨hlt, hget⟩ := List.getElem?_eq_some_iff.1 hi
      have hfirst : format.names.idxOf format.names[i] = i :=
        List.Nodup.idxOf_getElem format.nodup i hlt
      rw [← hfirst]
      exact congrArg format.names.idxOf hget
    · rintro rfl
      exact List.getElem?_idxOf hname
  unfold Tuple.map Tuple.field
  simp only [List.mem_filterMap, Prod.exists, Option.map_eq_some_iff, Prod.mk.injEq]
  constructor
  · rintro ⟨_, i, hi, text', htext, rfl, rfl⟩
    rwa [← (hindex i).1 hi]
  · intro htext
    exact ⟨name, _, (hindex _).2 rfl, text, htext, rfl, rfl⟩

/-! ## What is found, changed and removed -/

section Procedures

variable {b : RealtimeBox} {tableName : LuaString} {sp : RealtimeSpace}

theorem rowsOf_of_eq (hsp : b tableName = some sp) : rowsOf b tableName = sp.tuples.rows := by
  rw [rowsOf, hsp]
  rfl

/-- The tuple that is found is the one with this primary key. -/
theorem astRealtimeGet_eq_some_iff (hsp : b tableName = some sp) (keyField : LuaString)
    (keyVal : LuaValue) (record : List (LuaString × LuaString)) :
    astRealtimeGet tableName keyField keyVal b = .ok (some record) ↔
      ∃ t ∈ sp.tuples.rows, keyVal = .string t.id ∧ record = t.map sp.format := by
  have hget : astRealtimeGet tableName keyField keyVal b =
      (sp.get keyVal).map fun tuple => tuple.map (Tuple.map sp.format) := by
    rw [astRealtimeGet, hsp]
  rw [hget]
  cases keyVal with
  | string s =>
    show Except.ok ((sp.tuples.get s).map (Tuple.map sp.format)) = _ ↔ _
    rw [Except.ok.injEq, Option.map_eq_some_iff]
    constructor
    · rintro ⟨t, ht, rfl⟩
      exact ⟨t, KeyedTable.mem_of_get ht, by rw [KeyedTable.key_of_get ht], rfl⟩
    · rintro ⟨t, ht, hs, rfl⟩
      refine ⟨t, ?_, rfl⟩
      rw [LuaValue.string.inj hs]
      exact KeyedTable.mem_rows_iff.1 ht
  | nil => exact iff_of_false (by simp [RealtimeSpace.get, keyOf, Except.map]) (by simp)
  | boolean x => exact iff_of_false (by simp [RealtimeSpace.get, keyOf, Except.map]) (by simp)
  | number q => exact iff_of_false (by simp [RealtimeSpace.get, keyOf, Except.map]) (by simp)
  | cdata z => exact iff_of_false (by simp [RealtimeSpace.get, keyOf, Except.map]) (by simp)
  | table e => exact iff_of_false (by simp [RealtimeSpace.get, keyOf, Except.map]) (by simp)

/-- Assignments keep the primary key. -/
theorem id_of_foldlM_assign {format : RealtimeFormat} {ops : List (ℕ × LuaValue)} {t t' : Tuple}
    (h : ops.foldlM format.assign t = .ok t') : t'.id = t.id := by
  induction ops generalizing t with
  | nil => exact congrArg Tuple.id (Except.ok.inj h).symm
  | cons op ops ih =>
    rw [List.foldlM_cons] at h
    cases hop : format.assign t op with
    | error e =>
      rw [hop] at h
      cases h
    | ok t₁ =>
      rw [hop] at h
      rw [ih h]
      unfold RealtimeFormat.assign at hop
      split at hop
      · split at hop
        · split_ifs at hop
          cases hop
          rfl
        · cases hop
      · split at hop
        · cases hop
          rfl
        · split at hop
          · cases hop
          · cases hop
            rfl

/-- What an update does to a space: the tuple it found gets other fields. -/
theorem update_eq_ok {t : Tuple} {ops : List (ℕ × LuaValue)} {sp' : RealtimeSpace}
    (h : sp.update t ops = .ok sp') :
    ∃ t', t'.id = t.id ∧ ops.foldlM sp.format.assign t = .ok t' ∧
      sp' = { sp with tuples := sp.tuples.put t' } := by
  unfold RealtimeSpace.update at h
  cases hops : ops.foldlM sp.format.assign t with
  | error e =>
    rw [hops] at h
    cases h
  | ok t' =>
    rw [hops] at h
    exact ⟨t', id_of_foldlM_assign hops, rfl, (Except.ok.inj h).symm⟩

/-- A tuple that an update changes has the value for its primary key. -/
theorem id_of_updated (hsp : b tableName = some sp) {keyField : LuaString} {keyVal : LuaValue}
    {fieldsTable : FieldsTable} {t : Tuple} (ht : t ∈ sp.tuples.rows)
    (hchanged : t ∉ rowsOf (astRealtimeUpdate tableName keyField keyVal fieldsTable b).2 tableName) :
    keyVal = .string t.id := by
  rw [astRealtimeUpdate, hsp] at hchanged
  simp only at hchanged
  split at hchanged
  · exact absurd (rowsOf_of_eq hsp ▸ ht) hchanged
  · exact absurd (rowsOf_of_eq hsp ▸ ht) hchanged
  · next found hfound =>
    split_ifs at hchanged
    · exact absurd (rowsOf_of_eq hsp ▸ ht) hchanged
    · split at hchanged
      · exact absurd (rowsOf_of_eq hsp ▸ ht) hchanged
      · next sp' hupdate =>
        obtain ⟨t', hid, -, rfl⟩ := update_eq_ok hupdate
        rw [rowsOf_of_eq (Function.update_self ..)] at hchanged
        have hsame : t.id = found.id := by
          by_contra hne
          refine hchanged (KeyedTable.mem_rows_iff.2 ?_)
          rw [KeyedTable.get_put, if_neg (by rwa [hid])]
          exact KeyedTable.mem_rows_iff.1 ht
        cases keyVal with
        | string s =>
          have hget : sp.tuples.get s = some found := Except.ok.inj hfound
          rw [hsame, KeyedTable.key_of_get hget]
        | _ => cases hfound

/-- A tuple that is removed has the value for its primary key. -/
theorem id_of_destroyed (hsp : b tableName = some sp) {keyField : LuaString} {keyVal : LuaValue}
    {t : Tuple} (ht : t ∈ sp.tuples.rows)
    (hremoved : t ∉ rowsOf (astRealtimeDestroy tableName keyField keyVal b).2 tableName) :
    keyVal = .string t.id := by
  rw [astRealtimeDestroy, hsp] at hremoved
  cases keyVal with
  | string s =>
    simp only [keyOf] at hremoved
    rw [rowsOf_of_eq (Function.update_self ..)] at hremoved
    have hsame : t.id = s := by
      by_contra hne
      refine hremoved (KeyedTable.mem_rows_iff.2 ?_)
      rw [KeyedTable.get_delete, if_neg hne]
      exact KeyedTable.mem_rows_iff.1 ht
    rw [hsame]
  | _ => exact absurd (rowsOf_of_eq hsp ▸ ht) hremoved

/-- **One lookup.** -/
theorem followsKey_iff_keyAgrees (hsp : b tableName = some sp) {keyField : LuaString}
    (hfield : keyField ∈ sp.format.names) (keyVal : LuaValue) :
    FollowsKey b tableName sp.format keyField keyVal ↔ KeyAgrees sp keyField keyVal := by
  have hrows := rowsOf_of_eq hsp
  constructor
  · rintro ⟨hsound, hcomplete, -, -⟩
    by_cases hid : ∃ t ∈ sp.tuples.rows, keyVal = .string t.id
    · obtain ⟨t, ht, hkey⟩ := hid
      obtain ⟨text, htext, hmem⟩ := hsound (t.map sp.format)
        ((astRealtimeGet_eq_some_iff hsp keyField keyVal _).2 ⟨t, ht, hkey, rfl⟩)
      refine Or.inl ⟨t, ht, hkey, ?_⟩
      rw [htext]
      exact (mem_map_iff hfield).1 hmem
    · refine Or.inr fun t ht => ⟨fun hkey => hid ⟨t, ht, hkey⟩, fun hequals => ?_⟩
      obtain ⟨record, hget⟩ := hcomplete ⟨t, hrows ▸ ht, hequals⟩
      obtain ⟨t', ht', hkey, -⟩ := (astRealtimeGet_eq_some_iff hsp keyField keyVal record).1 hget
      exact hid ⟨t', ht', hkey⟩
  · intro h
    have hequals : ∀ t ∈ sp.tuples.rows, keyVal = .string t.id →
        (t.field sp.format keyField).Equals keyVal := by
      intro t ht hkey
      rcases h with ⟨t', ht', hkey', hequals⟩ | hnone
      · -- there is one tuple with this primary key
        have hid : t.id = t'.id := LuaValue.string.inj (hkey.symm.trans hkey')
        rwa [KeyedTable.eq_of_mem_of_key sp.tuples.sorted ht ht' hid]
      · exact absurd hkey (hnone t ht).1
    constructor
    · intro record hget
      obtain ⟨t, ht, hkey, rfl⟩ := (astRealtimeGet_eq_some_iff hsp keyField keyVal record).1 hget
      have ht' := hequals t ht hkey
      rw [hkey] at ht'
      exact ⟨t.id, hkey, (mem_map_iff hfield).2 ht'⟩
    · rintro ⟨t, ht, hfound⟩
      rcases h with ⟨t', ht', hkey', -⟩ | hnone
      · exact ⟨_, (astRealtimeGet_eq_some_iff hsp keyField keyVal _).2 ⟨t', ht', hkey', rfl⟩⟩
      · exact absurd hfound (hnone t (hrows ▸ ht)).2
    · intro fieldsTable t ht hchanged
      rw [hrows] at ht
      exact hequals t ht (id_of_updated hsp ht hchanged)
    · intro t ht hremoved
      rw [hrows] at ht
      exact hequals t ht (id_of_destroyed hsp ht hremoved)

end Procedures

/-! ## All lookups -/

/-- A space with one tuple, which has a name and nothing else. -/
def onlyName (format : RealtimeFormat) : RealtimeSpace :=
  ⟨format, KeyedTable.empty.put ⟨ascii "1001", []⟩⟩

theorem rows_onlyName (format : RealtimeFormat) :
    (onlyName format).tuples.rows = [⟨ascii "1001", []⟩] := rfl

theorem value_id (format : RealtimeFormat) (t : Tuple) : t.field format idName = .string t.id := by
  rw [Tuple.field, RealtimeFormat.names, List.idxOf_cons_self, Tuple.value]

/-- By its primary key a tuple is always found. -/
theorem keyAgrees_id (sp : RealtimeSpace) (keyVal : LuaValue) : KeyAgrees sp idName keyVal := by
  by_cases h : ∃ t ∈ sp.tuples.rows, keyVal = .string t.id
  · obtain ⟨t, ht, hkey⟩ := h
    refine Or.inl ⟨t, ht, hkey, ?_⟩
    rw [value_id, hkey]
    rfl
  · refine Or.inr fun t ht => ⟨fun hkey => h ⟨t, ht, hkey⟩, fun hequals => ?_⟩
    rw [value_id] at hequals
    cases keyVal with
    | string text =>
      have htext : t.id = text := Option.some.inj hequals
      exact h ⟨t, ht, by rw [htext]⟩
    | number q =>
      obtain ⟨n, hn, -⟩ := hequals
      cases hn
    | cdata z =>
      obtain ⟨n, hn, -⟩ := hequals
      cases hn
    | _ => exact hequals

/-- **When a lookup is about the right tuple.**  For every space and every field: a lookup follows
its key exactly if the value is in the field and in the primary key of one tuple, or in neither of
any; and whatever the space holds, only if the field is the primary key. -/
theorem followsKey_iff {b : RealtimeBox} {tableName : LuaString} {sp : RealtimeSpace}
    (hsp : b tableName = some sp) {keyField : LuaString} (hfield : keyField ∈ sp.format.names)
    (keyVal : LuaValue) :
    (FollowsKey b tableName sp.format keyField keyVal ↔ KeyAgrees sp keyField keyVal) ∧
      ((∀ sp', sp'.format = sp.format → ∀ key,
          FollowsKey (Function.update b tableName (some sp')) tableName sp.format keyField key) ↔
        keyField = idName) := by
  refine ⟨followsKey_iff_keyAgrees hsp hfield keyVal, ?_⟩
  constructor
  · intro hall
    have hone := hall (onlyName sp.format) rfl (.string (ascii "1001"))
    have hspace : Function.update b tableName (some (onlyName sp.format)) tableName =
        some (onlyName sp.format) := Function.update_self tableName _ b
    have hagrees := (followsKey_iff_keyAgrees hspace hfield (.string (ascii "1001"))).1 hone
    by_contra hother
    -- the other fields of the tuple are not there
    have hnil : ((⟨ascii "1001", []⟩ : Tuple).field sp.format keyField) = .nil := by
      obtain ⟨i, hi⟩ : ∃ i, sp.format.names.idxOf keyField = i + 1 := by
        rw [RealtimeFormat.names, List.idxOf_cons_ne _ (Ne.symm hother)]
        exact ⟨_, rfl⟩
      rw [Tuple.field, hi]
      rfl
    unfold KeyAgrees at hagrees
    rw [rows_onlyName] at hagrees
    rcases hagrees with ⟨t, ht, -, hequals⟩ | hnone
    · rw [List.mem_singleton.1 ht] at hequals
      have hequals' : ((⟨ascii "1001", []⟩ : Tuple).field sp.format keyField).Equals
          (.string (ascii "1001")) := hequals
      rw [hnil] at hequals'
      cases hequals'
    · exact (hnone _ List.mem_cons_self).1 rfl
  · rintro rfl sp' hformat key
    have hid : idName ∈ sp'.format.names := List.mem_cons_self
    rw [← hformat]
    exact (followsKey_iff_keyAgrees (Function.update_self tableName _ b) hid key).2
      (keyAgrees_id sp' key)

/-! ## An endpoint with another name -/

/-- The endpoint `1001`, which authenticates as `auth1001`. -/
def endpoint1001 : Tuple := ⟨ascii "1001", [.nil, .nil, .string (ascii "auth1001")]⟩

/-- The spaces with this endpoint. -/
def oneEndpoint : RealtimeBox :=
  Function.update RealtimeBox.init (ascii "ps_endpoints")
    (some ⟨psEndpoints, KeyedTable.empty.put endpoint1001⟩)

theorem oneEndpoint_eq : oneEndpoint (ascii "ps_endpoints") =
    some ⟨psEndpoints, KeyedTable.empty.put endpoint1001⟩ := Function.update_self ..

theorem followsKey_iff_endpoint :
    (FollowsKey oneEndpoint (ascii "ps_endpoints") psEndpoints (ascii "auth")
        (.string (ascii "auth1001")) ↔
      KeyAgrees ⟨psEndpoints, KeyedTable.empty.put endpoint1001⟩ (ascii "auth")
        (.string (ascii "auth1001"))) ∧
      ((∀ sp', sp'.format = psEndpoints → ∀ key,
          FollowsKey (Function.update oneEndpoint (ascii "ps_endpoints") (some sp'))
            (ascii "ps_endpoints") psEndpoints (ascii "auth") key) ↔
        ascii "auth" = idName) :=
  followsKey_iff oneEndpoint_eq (by decide +kernel) (.string (ascii "auth1001"))

/-- **A lookup that finds nothing.**  There is an endpoint with this `auth`, but none with this
name. -/
theorem not_followsKey_auth : ¬ FollowsKey oneEndpoint (ascii "ps_endpoints") psEndpoints
    (ascii "auth") (.string (ascii "auth1001")) := by
  intro h
  obtain ⟨record, hget⟩ := h.complete ⟨endpoint1001, by decide +kernel, by
    show FieldValue.tostring _ = some _
    decide +kernel⟩
  obtain ⟨t, ht, hkey, -⟩ := (astRealtimeGet_eq_some_iff oneEndpoint_eq _ _ _).1 hget
  have hid : t = endpoint1001 := List.mem_singleton.1 ht
  rw [hid] at hkey
  exact absurd (LuaValue.string.inj hkey) (by decide +kernel)

end AsteriskService

end VoipBackend
