import VoipBackend.Backend.Billing

/-!
# The realtime procedures of Asterisk

`app/asterisk_service.lua`: the spaces that Asterisk keeps its configuration in, and the procedures
that read and write them by name.  A tuple is a list of values in the order of the space format;
the procedures turn it into a table with the names of the fields, and such a table into a tuple.

The primary key of every space is its field `id`, a string; all other fields may be `nil`.  A tuple
ends with its last field that is not `nil`.  `get`, `delete` and `update` take a key of one part,
so `nil` makes an empty key, and raise an error for a key that is not a string.
-/

namespace VoipBackend

open Library

namespace AsteriskService

/-! ## Spaces -/

/-- The types of the fields. -/
inductive FieldType where
  | string
  | unsigned
  deriving DecidableEq

/-- A field of a format other than the primary key. -/
structure FieldFormat where
  name : LuaString
  type : FieldType
  deriving DecidableEq

/-- A value of a field. -/
inductive FieldValue where
  | nil
  | string (s : LuaString)
  | unsigned (n : ℕ)
  deriving DecidableEq

/-- The value of a Lua value in a field of a type, if it fits. -/
def FieldType.check : FieldType → LuaValue → Option FieldValue
  | _, .nil => some .nil
  | .string, .string s => some (.string s)
  | .unsigned, .number q => (unsigned? q).map .unsigned
  | .unsigned, .cdata z => (unsigned? z).map .unsigned
  | _, _ => none

/-- `tostring(v)` of a value that is not `nil`.  A number from `1e14` on is a `uint64_t` of the
interpreter's own. -/
def FieldValue.tostring : FieldValue → Option LuaString
  | .nil => none
  | .string s => some s
  | .unsigned n => some (if n < 10 ^ 14 then decimal n else decimal n ++ ascii "ULL")

/-- The name of the primary key. -/
def idName : LuaString := ascii "id"

/-- A format: the field `id`, and these.  No name occurs twice. -/
structure RealtimeFormat where
  others : List FieldFormat
  nodup : (idName :: others.map FieldFormat.name).Nodup

/-- The names of the fields, in order. -/
def RealtimeFormat.names (format : RealtimeFormat) : List LuaString :=
  idName :: format.others.map FieldFormat.name

/-- A tuple: its primary key and its other fields. -/
structure Tuple where
  id : LuaString
  fields : List FieldValue
  deriving DecidableEq

/-- `tuple[idx + 1]`. -/
def Tuple.value (t : Tuple) : ℕ → FieldValue
  | 0 => .string t.id
  | i + 1 => t.fields.getD i .nil

/-- A space. -/
structure RealtimeSpace where
  format : RealtimeFormat
  tuples : KeyedTable Tuple.id

/-- `box.space`, as far as these procedures reach. -/
abbrev RealtimeBox := LuaString → Option RealtimeSpace

/-- Fields of type string. -/
def stringFields (names : List String) : List FieldFormat :=
  names.map fun name => ⟨ascii name, .string⟩

/-- The fields of `ps_endpoints`. -/
def endpointFields : List FieldFormat :=
  stringFields ["transport", "aors", "auth", "context", "disallow", "allow", "direct_media",
    "data_json"]

/-- The fields of `ps_auths`. -/
def authFields : List FieldFormat := stringFields ["auth_type", "password", "username", "realm"]

/-- The fields of `ps_aors`. -/
def aorFields : List FieldFormat :=
  [⟨ascii "max_contacts", .unsigned⟩, ⟨ascii "remove_existing", .string⟩,
    ⟨ascii "default_expiration", .unsigned⟩]

theorem nodup_endpointFields : (idName :: endpointFields.map FieldFormat.name).Nodup := by
  decide +kernel

theorem nodup_authFields : (idName :: authFields.map FieldFormat.name).Nodup := by decide +kernel

theorem nodup_aorFields : (idName :: aorFields.map FieldFormat.name).Nodup := by decide +kernel

/-- Space `ps_endpoints` (520). -/
def psEndpoints : RealtimeFormat := ⟨endpointFields, nodup_endpointFields⟩

/-- Space `ps_auths` (521). -/
def psAuths : RealtimeFormat := ⟨authFields, nodup_authFields⟩

/-- Space `ps_aors` (522). -/
def psAors : RealtimeFormat := ⟨aorFields, nodup_aorFields⟩

/-- The spaces as `M.init` creates them. -/
def RealtimeBox.init : RealtimeBox := fun table =>
  if table = ascii "ps_endpoints" then some ⟨psEndpoints, .empty⟩
  else if table = ascii "ps_auths" then some ⟨psAuths, .empty⟩
  else if table = ascii "ps_aors" then some ⟨psAors, .empty⟩
  else none

/-! ## Statements -/

/-- What a statement raises; it then writes nothing. -/
inductive BoxError where
  /-- `Invalid key part count in an exact match (expected 1, got 0)` -/
  | keyPartCount
  /-- `Supplied key type of part 0 does not match index part type: expected string` -/
  | keyType
  /-- `Tuple field .. type does not match one required by operation` -/
  | fieldType (field : LuaString)
  /-- `Attempt to modify a tuple field which is part of primary index` -/
  | primaryKey
  deriving DecidableEq

/-- The key of a lookup, `{ key_val }`. -/
def keyOf : LuaValue → Except BoxError LuaString
  | .string s => .ok s
  | .nil => .error .keyPartCount
  | _ => .error .keyType

/-- `sp:get({ key_val })`. -/
def RealtimeSpace.get (sp : RealtimeSpace) (keyVal : LuaValue) : Except BoxError (Option Tuple) :=
  (keyOf keyVal).map sp.tuples.get

/-- The values of a tuple that is written, checked against the format. -/
def checkFields : List (FieldFormat × LuaValue) → Except BoxError (List FieldValue)
  | [] => .ok []
  | (f, v) :: rest =>
      match f.type.check v with
      | none => .error (.fieldType f.name)
      | some value => (checkFields rest).map fun values => value :: values

/-- A tuple ends with its last field that is not `nil`. -/
def trim (fields : List FieldValue) : List FieldValue :=
  fields.rdropWhile fun v => decide (v = .nil)

/-- `sp:replace(tuple)`. -/
def RealtimeSpace.replace (sp : RealtimeSpace) (id : LuaValue) (values : List LuaValue) :
    Except BoxError RealtimeSpace :=
  match id with
  | .string s =>
      (checkFields (sp.format.others.zip values)).map fun fields =>
        { sp with tuples := sp.tuples.put ⟨s, trim fields⟩ }
  | _ => .error (.fieldType idName)

/-- One field of a tuple is assigned; missing fields in front of it become `nil`. -/
def assignField (i : ℕ) (v : FieldValue) (fields : List FieldValue) : List FieldValue :=
  (fields ++ List.replicate (i + 1 - fields.length) FieldValue.nil).set i v

/-- `{ '=', idx + 1, v }`.  The primary key keeps its value. -/
def RealtimeFormat.assign (format : RealtimeFormat) (t : Tuple) (op : ℕ × LuaValue) :
    Except BoxError Tuple :=
  match op.1 with
  | 0 =>
      match op.2 with
      | .string s => if s = t.id then .ok t else .error .primaryKey
      | _ => .error (.fieldType idName)
  | i + 1 =>
      match format.others[i]? with
      | none => .ok t
      | some f =>
          match f.type.check op.2 with
          | none => .error (.fieldType f.name)
          | some v => .ok { t with fields := assignField i v t.fields }

/-- `sp:update({ key_val }, ops)` on the tuple it finds. -/
def RealtimeSpace.update (sp : RealtimeSpace) (t : Tuple) (ops : List (ℕ × LuaValue)) :
    Except BoxError RealtimeSpace :=
  (ops.foldlM sp.format.assign t).map fun t' => { sp with tuples := sp.tuples.put t' }

/-! ## Procedures -/

/-- A Lua table with names of fields; a name that is not in it gives `nil`. -/
abbrev FieldsTable := LuaString → LuaValue

/-- `not v` is false. -/
def truthy : LuaValue → Bool
  | .nil => false
  | .boolean b => b
  | _ => true

/-- The loop of `ast_realtime_get` over the format: the names with the texts of their values. -/
def Tuple.map (format : RealtimeFormat) (t : Tuple) : List (LuaString × LuaString) :=
  format.names.zipIdx.filterMap fun (name, i) => (t.value i).tostring.map fun text => (name, text)

/-- `ast_realtime_get`; `none` is the empty list.  `key_field` is not used. -/
def astRealtimeGet (tableName _keyField : LuaString) (keyVal : LuaValue) (b : RealtimeBox) :
    Except BoxError (Option (List (LuaString × LuaString))) :=
  match b tableName with
  | none => .ok none
  | some sp => (sp.get keyVal).map fun tuple => tuple.map (Tuple.map sp.format)

/-- The operations of `ast_realtime_update`: an assignment for every field of the format that the
table has. -/
def updateOps (format : RealtimeFormat) (fieldsTable : FieldsTable) : List (ℕ × LuaValue) :=
  format.names.zipIdx.filterMap fun (name, i) =>
    if (fieldsTable name).isNil then none else some (i, fieldsTable name)

/-- `ast_realtime_update`.  `key_field` is not used. -/
def astRealtimeUpdate (tableName _keyField : LuaString) (keyVal : LuaValue)
    (fieldsTable : FieldsTable) (b : RealtimeBox) : Except BoxError ℤ × RealtimeBox :=
  match b tableName with
  | none => (.ok (-1), b)
  | some sp =>
      match sp.get keyVal with
      | .error e => (.error e, b)
      | .ok none => (.ok (-1), b)
      | .ok (some t) =>
          let ops := updateOps sp.format fieldsTable
          if ops = [] then (.ok 0, b)
          else
            match sp.update t ops with
            | .error e => (.error e, b)
            | .ok sp => (.ok 0, Function.update b tableName (some sp))

/-- `ast_realtime_update2`. -/
def astRealtimeUpdate2 (tableName : LuaString) (lookupFields updateFields : FieldsTable)
    (b : RealtimeBox) : Except BoxError ℤ × RealtimeBox :=
  if (b tableName).isNone ∨ truthy (lookupFields idName) = false then (.ok (-1), b)
  else astRealtimeUpdate tableName idName (lookupFields idName) updateFields b

/-- `ast_realtime_store`. -/
def astRealtimeStore (tableName : LuaString) (fieldsTable : FieldsTable) (b : RealtimeBox) :
    Except BoxError ℤ × RealtimeBox :=
  match b tableName with
  | none => (.ok (-1), b)
  | some sp =>
      if truthy (fieldsTable idName) = false then (.ok (-1), b)
      else
        match sp.replace (fieldsTable idName)
          (sp.format.others.map fun f => fieldsTable f.name) with
        | .error e => (.error e, b)
        | .ok sp => (.ok 0, Function.update b tableName (some sp))

/-- `ast_realtime_destroy`.  `key_field` is not used. -/
def astRealtimeDestroy (tableName _keyField : LuaString) (keyVal : LuaValue) (b : RealtimeBox) :
    Except BoxError ℤ × RealtimeBox :=
  match b tableName with
  | none => (.ok (-1), b)
  | some sp =>
      match keyOf keyVal with
      | .error e => (.error e, b)
      | .ok id =>
          (.ok 0, Function.update b tableName (some { sp with tuples := sp.tuples.delete id }))

end AsteriskService

end VoipBackend
