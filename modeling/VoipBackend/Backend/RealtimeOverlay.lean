import VoipBackend.Backend.RealtimeKeys
import VoipBackend.Lib.Execution

/-!
# Objects in positional tuples

An object of Asterisk is a set of named texts.  It is stored as a tuple, in which a field has a
place and a field that is not given is a hole, and changed by assignments to places.  Here runs of
stores, updates and destroys of one realtime space are compared with what they mean for the named
texts: `stored` is the object that is kept under an id, and `boxHolds_exec` says that an operation
does to the tuples of a space of string fields what it does to the objects.

`astRealtimeGet_overlay` says what `ast_realtime_get` returns after a run.
-/

namespace VoipBackend

open Library

namespace AsteriskService

/-! ## Named texts -/

/-- Texts by the names of their fields. -/
abbrev Texts := LuaString → Option LuaString

/-- They are passed as a table. -/
def Texts.table (f : Texts) : FieldsTable := fun name =>
  match f name with
  | none => .nil
  | some text => .string text

/-- The texts `g` laid over the texts `f`. -/
def Texts.overlay (f g : Texts) : Texts := fun name => (g name).or (f name)

/-- The texts under the names of a format. -/
def Texts.shown (format : RealtimeFormat) (f : Texts) : List (LuaString × LuaString) :=
  format.names.filterMap fun name => (f name).map fun text => (name, text)

/-- The value of a field that has this text. -/
def textValue : Option LuaString → FieldValue
  | none => .nil
  | some text => .string text

/-- All fields are strings. -/
def RealtimeFormat.Strings (format : RealtimeFormat) : Prop :=
  ∀ f ∈ format.others, f.type = .string

instance (format : RealtimeFormat) : Decidable format.Strings :=
  inferInstanceAs (Decidable (∀ f ∈ format.others, f.type = .string))

/-! ## Operations -/

/-- The operations on a realtime space, with texts. -/
inductive RealtimeOp where
  | store (fields : Texts)
  | update (id : LuaString) (fields : Texts)
  | update2 (lookup fields : Texts)
  | destroy (id : LuaString)

/-- The procedure that an operation calls. -/
def RealtimeOp.exec (tableName : LuaString) (b : RealtimeBox) : RealtimeOp → RealtimeBox
  | .store f => (astRealtimeStore tableName f.table b).2
  | .update id f => (astRealtimeUpdate tableName idName (.string id) f.table b).2
  | .update2 l f => (astRealtimeUpdate2 tableName l.table f.table b).2
  | .destroy id => (astRealtimeDestroy tableName idName (.string id) b).2

/-- An update does not assign the primary key. -/
def RealtimeOp.KeepsId : RealtimeOp → Prop
  | .update _ f => f idName = none
  | .update2 _ f => f idName = none
  | _ => True

instance : DecidablePred RealtimeOp.KeepsId
  | .store _ => inferInstanceAs (Decidable True)
  | .update _ f => inferInstanceAs (Decidable (f idName = none))
  | .update2 _ f => inferInstanceAs (Decidable (f idName = none))
  | .destroy _ => inferInstanceAs (Decidable True)

/-- The operation stores an object under the id. -/
def RealtimeOp.Stores (id : LuaString) : RealtimeOp → Prop
  | .store f => f idName = some id
  | _ => False

instance (id : LuaString) : DecidablePred (RealtimeOp.Stores id)
  | .store f => inferInstanceAs (Decidable (f idName = some id))
  | .update _ _ => inferInstanceAs (Decidable False)
  | .update2 _ _ => inferInstanceAs (Decidable False)
  | .destroy _ => inferInstanceAs (Decidable False)

/-- The operation destroys the object under the id. -/
def RealtimeOp.Destroys (id : LuaString) : RealtimeOp → Prop
  | .destroy id' => id' = id
  | _ => False

instance (id : LuaString) : DecidablePred (RealtimeOp.Destroys id)
  | .store _ => inferInstanceAs (Decidable False)
  | .update _ _ => inferInstanceAs (Decidable False)
  | .update2 _ _ => inferInstanceAs (Decidable False)
  | .destroy id' => inferInstanceAs (Decidable (id' = id))

/-- The texts that the operation updates the object under the id with. -/
def RealtimeOp.updateOf (id : LuaString) : RealtimeOp → Option Texts
  | .update id' f => if id' = id then some f else none
  | .update2 l f => if l idName = some id then some f else none
  | _ => none

/-- What the operation makes of the object that is stored under an id. -/
def RealtimeOp.effect (id : LuaString) (object : Option Texts) : RealtimeOp → Option Texts
  | .store f => if f idName = some id then some f else object
  | .update id' f => if id' = id then object.map fun g => g.overlay f else object
  | .update2 l f => if l idName = some id then object.map fun g => g.overlay f else object
  | .destroy id' => if id' = id then none else object

/-- The object under an id after a run. -/
def stored (id : LuaString) (ops : List RealtimeOp) : Option Texts :=
  ops.foldl (RealtimeOp.effect id) none

/-! ## Tuples and objects -/

/-- A tuple has the texts of an object in its places. -/
def Tuple.Holds (format : RealtimeFormat) (t : Tuple) (f : Texts) : Prop :=
  ∀ i name, format.names[i]? = some name → t.value i = textValue (f name)

theorem tostring_textValue (text : Option LuaString) : (textValue text).tostring = text := by
  cases text <;> rfl

/-- A tuple with the texts of an object is shown as the object. -/
theorem map_of_holds {format : RealtimeFormat} {t : Tuple} {f : Texts} (h : t.Holds format f) :
    t.map format = f.shown format := by
  have hplaces : ∀ (names : List LuaString) (k : ℕ),
      (∀ i name, names[i]? = some name → t.value (k + i) = textValue (f name)) →
      (names.zipIdx k).filterMap
          (fun place => (t.value place.2).tostring.map fun text => (place.1, text)) =
        names.filterMap fun name => (f name).map fun text => (name, text) := by
    intro names
    induction names with
    | nil => intro k _; rfl
    | cons name names ih =>
      intro k hvalues
      have hfirst := hvalues 0 name rfl
      rw [Nat.add_zero] at hfirst
      have hrest := ih (k + 1) fun i name' hi => by
        rw [Nat.add_right_comm, Nat.add_assoc]
        exact hvalues (i + 1) name' hi
      rw [List.zipIdx_cons, List.filterMap_cons, List.filterMap_cons, hrest]
      simp only [hfirst, tostring_textValue]
  refine hplaces format.names 0 fun i name hi => ?_
  rw [Nat.zero_add]
  exact h i name hi

/-- Fields behind the last one that is not `nil` read as `nil`. -/
theorem getD_trim (fields : List FieldValue) (i : ℕ) :
    (trim fields).getD i .nil = fields.getD i .nil := by
  induction fields using List.reverseRecOn with
  | nil => rfl
  | append_singleton fields v ih =>
    unfold trim at ih ⊢
    rw [List.rdropWhile_concat]
    split_ifs with hv
    · rw [ih, of_decide_eq_true hv]
      rcases lt_trichotomy i fields.length with hi | rfl | hi
      · rw [List.getD_append _ _ _ _ hi]
      · simp
      · rw [List.getD_eq_default _ _ hi.le, List.getD_eq_default]
        rw [List.length_append]
        exact hi
    · rfl

theorem value_trim (id : LuaString) (fields : List FieldValue) (i : ℕ) :
    (⟨id, trim fields⟩ : Tuple).value i = (⟨id, fields⟩ : Tuple).value i := by
  cases i with
  | zero => rfl
  | succ i => exact getD_trim fields i

/-- An assignment changes one place. -/
theorem value_assignField (t : Tuple) (k : ℕ) (v : FieldValue) (i : ℕ) :
    ({ t with fields := assignField k v t.fields } : Tuple).value i =
      if i = k + 1 then v else t.value i := by
  cases i with
  | zero => rfl
  | succ i =>
    have hlength : k < (t.fields ++
        List.replicate (k + 1 - t.fields.length) FieldValue.nil).length := by
      rw [List.length_append, List.length_replicate]
      omega
    show (assignField k v t.fields).getD i .nil = _
    unfold assignField
    rw [List.getD_eq_getElem?_getD, List.getElem?_set]
    by_cases hi : k = i
    · subst hi
      rw [if_pos rfl, if_pos hlength, if_pos rfl, Option.getD_some]
    · rw [if_neg hi, if_neg (by omega), ← List.getD_eq_getElem?_getD]
      show _ = t.fields.getD i .nil
      by_cases hold : i < t.fields.length
      · rw [List.getD_append _ _ _ _ hold]
      · rw [List.getD_append_right _ _ _ _ (not_lt.1 hold),
          List.getD_eq_default _ _ (not_lt.1 hold), List.getD_eq_getElem?_getD,
          List.getElem?_replicate]
        split_ifs <;> rfl

/-! ## Stores -/

theorem check_string (text : Option LuaString) :
    FieldType.string.check (match text with | none => .nil | some s => .string s) =
      some (textValue text) := by
  cases text <;> rfl

/-- The texts of an object fit a format of strings. -/
theorem checkFields_texts {fields : List FieldFormat} (hstrings : ∀ f ∈ fields, f.type = .string)
    (f : Texts) :
    checkFields (fields.zip (fields.map fun field => f.table field.name)) =
      .ok (fields.map fun field => textValue (f field.name)) := by
  induction fields with
  | nil => rfl
  | cons field fields ih =>
    obtain ⟨htype, hrest⟩ := List.forall_mem_cons.1 hstrings
    rw [List.map_cons, List.zip_cons_cons, checkFields, htype, Texts.table, check_string,
      ih hrest]
    rfl

/-- The tuple that a store writes. -/
def tupleOf (format : RealtimeFormat) (id : LuaString) (f : Texts) : Tuple :=
  ⟨id, trim (format.others.map fun field => textValue (f field.name))⟩

/-- It holds the texts of the object. -/
theorem holds_stored {format : RealtimeFormat} {f : Texts} {id : LuaString}
    (hid : f idName = some id) : (tupleOf format id f).Holds format f := by
  intro i name hi
  rw [tupleOf, value_trim]
  cases i with
  | zero =>
    have hname : idName = name := Option.some.inj hi
    rw [← hname, hid]
    rfl
  | succ i =>
    have hi' : (format.others.map FieldFormat.name)[i]? = some name := hi
    rw [List.getElem?_map, Option.map_eq_some_iff] at hi'
    obtain ⟨field, hfield, rfl⟩ := hi'
    show (format.others.map fun field => textValue (f field.name)).getD i .nil = _
    rw [List.getD_eq_getElem?_getD, List.getElem?_map, hfield]
    rfl

/-! ## Updates -/

/-- The assignments of an update, from one field of the format on. -/
theorem foldlM_assign_texts {format : RealtimeFormat} (hstrings : format.Strings) (f : Texts)
    {fields : List FieldFormat} {k : ℕ} (hfields : format.others.drop k = fields) (t : Tuple) :
    ∃ t', (((fields.map FieldFormat.name).zipIdx (k + 1)).filterMap fun (name, i) =>
        if (f.table name).isNil then none else some (i, f.table name)).foldlM format.assign t =
          .ok t' ∧
      (∀ i ≤ k, t'.value i = t.value i) ∧
      ∀ i field, k ≤ i → format.others[i]? = some field →
        t'.value (i + 1) = ((f field.name).map .string).getD (t.value (i + 1)) := by
  induction fields generalizing k t with
  | nil =>
    refine ⟨t, rfl, fun _ _ => rfl, fun i field hi hfield => ?_⟩
    have hlength : format.others.length ≤ k := List.drop_eq_nil_iff.1 hfields
    rw [List.getElem?_eq_none (hlength.trans hi)] at hfield
    cases hfield
  | cons field fields ih =>
    have hfirst : format.others[k]? = some field := by
      rw [← List.head?_drop, hfields]
      rfl
    have hrest : format.others.drop (k + 1) = fields := by
      rw [← List.tail_drop, hfields]
      rfl
    rw [List.map_cons, List.zipIdx_cons, List.filterMap_cons]
    cases htext : f field.name with
    | none =>
      -- the field is not in the table
      obtain ⟨t', hrun, hbefore, hafter⟩ := ih hrest t
      have hnil : (f.table field.name).isNil = true := by
        rw [Texts.table, htext]
        rfl
      refine ⟨t', ?_, fun i hi => hbefore i (by omega), fun i field' hi hfield' => ?_⟩
      · simpa only [hnil, if_true] using hrun
      · rcases Nat.eq_or_lt_of_le hi with rfl | hi
        · rw [hfirst] at hfield'
          rw [← Option.some.inj hfield', htext, hbefore _ le_rfl]
          rfl
        · exact hafter i field' hi hfield'
    | some text =>
      have hstring : f.table field.name = .string text := by
        rw [Texts.table, htext]
      have htype : field.type = .string := hstrings field (List.mem_of_getElem? hfirst)
      have hassign : format.assign t (k + 1, .string text) =
          .ok { t with fields := assignField k (.string text) t.fields } := by
        simp only [RealtimeFormat.assign, hfirst, htype]
        rfl
      obtain ⟨t', hrun, hbefore, hafter⟩ :=
        ih hrest { t with fields := assignField k (.string text) t.fields }
      refine ⟨t', ?_, fun i hi => ?_, fun i field' hi hfield' => ?_⟩
      · simp only [hstring, LuaValue.isNil, Bool.false_eq_true, if_false, List.foldlM_cons, hassign]
        exact hrun
      · rw [hbefore i (by omega), value_assignField, if_neg (by omega)]
      · rcases Nat.eq_or_lt_of_le hi with rfl | hi
        · rw [hfirst] at hfield'
          rw [← Option.some.inj hfield', htext, hbefore _ le_rfl, value_assignField, if_pos rfl]
          rfl
        · rw [hafter i field' hi hfield', value_assignField, if_neg (by omega)]

/-- **One update.**  The tuple then holds the object with the new texts laid over it. -/
theorem foldlM_updateOps {format : RealtimeFormat} (hstrings : format.Strings) {f g : Texts}
    (hid : g idName = none) {t : Tuple} (ht : t.Holds format f) :
    ∃ t', (updateOps format g.table).foldlM format.assign t = .ok t' ∧
      t'.Holds format (f.overlay g) := by
  obtain ⟨t', hrun, hbefore, hafter⟩ :=
    foldlM_assign_texts hstrings g (List.drop_zero (l := format.others)) t
  have hnil : (g.table idName).isNil = true := by
    rw [Texts.table, hid]
    rfl
  refine ⟨t', ?_, fun i name hi => ?_⟩
  · unfold updateOps RealtimeFormat.names
    rw [List.zipIdx_cons, List.filterMap_cons]
    simpa only [hnil, if_true] using hrun
  · have hold := ht i name hi
    cases i with
    | zero =>
      have hname : idName = name := Option.some.inj hi
      rw [hbefore 0 le_rfl, hold, Texts.overlay, ← hname, hid, Option.none_or]
    | succ i =>
      have hi' : (format.others.map FieldFormat.name)[i]? = some name := hi
      rw [List.getElem?_map, Option.map_eq_some_iff] at hi'
      obtain ⟨field, hfield, rfl⟩ := hi'
      rw [hafter i field (Nat.zero_le i) hfield, hold, Texts.overlay]
      cases g field.name <;> rfl

/-! ## One operation -/

section Steps

variable {b : RealtimeBox} {tableName : LuaString} {sp : RealtimeSpace}

/-- The tuples of a space hold the objects that are stored. -/
def RealtimeSpace.Holds (sp : RealtimeSpace) (objects : LuaString → Option Texts) : Prop :=
  ∀ id, Option.Rel (Tuple.Holds sp.format) (sp.tuples.get id) (objects id)

/-- A space in a box holds these objects, in tuples of this format. -/
def BoxHolds (tableName : LuaString) (format : RealtimeFormat) (objects : LuaString → Option Texts)
    (b : RealtimeBox) : Prop :=
  ∃ sp, b tableName = some sp ∧ sp.format = format ∧ sp.Holds objects

/-- A tuple that is put under its own id. -/
theorem holds_put {objects : LuaString → Option Texts} (h : sp.Holds objects) {t : Tuple}
    {f : Texts} (ht : t.Holds sp.format f) {objects' : LuaString → Option Texts}
    (hself : objects' t.id = some f) (hother : ∀ id, id ≠ t.id → objects' id = objects id) :
    RealtimeSpace.Holds { sp with tuples := sp.tuples.put t } objects' := by
  intro id
  show Option.Rel _ ((sp.tuples.put t).get id) _
  rw [KeyedTable.get_put]
  split_ifs with hid
  · rw [hid, hself]
    exact .some ht
  · rw [hother id hid]
    exact h id

/-- A store. -/
theorem boxHolds_store {format : RealtimeFormat} (hstrings : format.Strings)
    {objects : LuaString → Option Texts} (h : BoxHolds tableName format objects b) (f : Texts) :
    BoxHolds tableName format (fun id => (RealtimeOp.store f).effect id (objects id))
      ((RealtimeOp.store f).exec tableName b) := by
  obtain ⟨sp, hsp, rfl, hobjects⟩ := h
  show BoxHolds _ _ _ (astRealtimeStore tableName f.table b).2
  cases hid : f idName with
  | none =>
    have hsame : (astRealtimeStore tableName f.table b).2 = b := by
      simp [astRealtimeStore, hsp, Texts.table, hid, truthy]
    rw [hsame]
    refine ⟨sp, hsp, rfl, fun id => ?_⟩
    simp only [RealtimeOp.effect, hid]
    exact hobjects id
  | some id =>
    have htable : f.table idName = .string id := by
      rw [Texts.table, hid]
    have hstore : (astRealtimeStore tableName f.table b).2 =
        Function.update b tableName
          (some { sp with tuples := sp.tuples.put (tupleOf sp.format id f) }) := by
      simp [astRealtimeStore, hsp, htable, truthy, RealtimeSpace.replace,
        checkFields_texts hstrings, Except.map, tupleOf]
    rw [hstore]
    refine ⟨_, Function.update_self .., rfl, holds_put hobjects (holds_stored hid) ?_ ?_⟩
    · exact if_pos hid
    · intro id' hne
      simp only [RealtimeOp.effect, hid, Option.some.injEq]
      exact if_neg (Ne.symm hne)

/-- An update of the tuple under an id. -/
theorem boxHolds_update {format : RealtimeFormat} (hstrings : format.Strings)
    {objects : LuaString → Option Texts} (h : BoxHolds tableName format objects b)
    (keyField id : LuaString) {f : Texts} (hf : f idName = none) :
    BoxHolds tableName format
      (fun id' => if id = id' then (objects id').map fun g => g.overlay f else objects id')
      (astRealtimeUpdate tableName keyField (.string id) f.table b).2 := by
  obtain ⟨sp, hsp, rfl, hobjects⟩ := h
  have hid := hobjects id
  generalize hget : sp.tuples.get id = found at hid
  generalize hobject : objects id = object at hid
  cases hid with
  | none =>
    -- there is no such object
    have hsame : (astRealtimeUpdate tableName keyField (.string id) f.table b).2 = b := by
      simp [astRealtimeUpdate, hsp, RealtimeSpace.get, keyOf, hget, Except.map]
    rw [hsame]
    refine ⟨sp, hsp, rfl, fun id' => ?_⟩
    show Option.Rel _ _ (if id = id' then _ else _)
    split_ifs with hne
    · rw [← hne, hobject, hget]
      exact .none
    · exact hobjects id'
  | @some t g ht =>
    obtain ⟨t', hrun, ht'⟩ := foldlM_updateOps hstrings hf ht
    have htid : t'.id = id := by
      rw [id_of_foldlM_assign hrun, KeyedTable.key_of_get hget]
    by_cases hops : updateOps sp.format f.table = []
    · -- nothing of the table is in the format
      have hsame : (astRealtimeUpdate tableName keyField (.string id) f.table b).2 = b := by
        simp [astRealtimeUpdate, hsp, RealtimeSpace.get, keyOf, hget, Except.map, hops]
      rw [hops] at hrun
      have htt' : t' = t := (Except.ok.inj hrun).symm
      rw [hsame]
      refine ⟨sp, hsp, rfl, fun id' => ?_⟩
      show Option.Rel _ _ (if id = id' then _ else _)
      split_ifs with hne
      · rw [← hne, hobject, hget]
        exact .some (htt' ▸ ht')
      · exact hobjects id'
    · have hupdate : (astRealtimeUpdate tableName keyField (.string id) f.table b).2 =
          Function.update b tableName (some { sp with tuples := sp.tuples.put t' }) := by
        simp [astRealtimeUpdate, hsp, RealtimeSpace.get, keyOf, hget, Except.map, hops,
          RealtimeSpace.update, hrun]
      rw [hupdate]
      refine ⟨_, Function.update_self .., rfl, holds_put hobjects ht' ?_ ?_⟩
      · rw [htid, if_pos rfl, hobject]
        rfl
      · intro id' hne
        exact if_neg fun hsame => hne (by rw [htid, hsame])

/-- **One operation** does to the tuples what it does to the objects. -/
theorem boxHolds_exec {format : RealtimeFormat} (hstrings : format.Strings)
    {objects : LuaString → Option Texts} (h : BoxHolds tableName format objects b)
    (op : RealtimeOp) (hop : op.KeepsId) :
    BoxHolds tableName format (fun id => op.effect id (objects id)) (op.exec tableName b) := by
  cases op with
  | store f => exact boxHolds_store hstrings h f
  | update id f => exact boxHolds_update hstrings h idName id hop
  | update2 l f =>
    obtain ⟨sp, hsp, -⟩ := id h
    show BoxHolds _ _ _ (astRealtimeUpdate2 tableName l.table f.table b).2
    cases hl : l idName with
    | none =>
      have hsame : (astRealtimeUpdate2 tableName l.table f.table b).2 = b := by
        simp [astRealtimeUpdate2, hsp, Texts.table, hl, truthy]
      rw [hsame]
      simpa [RealtimeOp.effect, hl] using h
    | some id =>
      have hupdate : (astRealtimeUpdate2 tableName l.table f.table b).2 =
          (astRealtimeUpdate tableName idName (.string id) f.table b).2 := by
        simp [astRealtimeUpdate2, hsp, Texts.table, hl, truthy]
      rw [hupdate]
      simpa only [RealtimeOp.effect, hl, Option.some.injEq] using
        boxHolds_update hstrings h idName id hop
  | destroy id =>
    obtain ⟨sp, hsp, rfl, hobjects⟩ := h
    have hdestroy : (astRealtimeDestroy tableName idName (.string id) b).2 =
        Function.update b tableName (some { sp with tuples := sp.tuples.delete id }) := by
      simp [astRealtimeDestroy, hsp, keyOf]
    show BoxHolds _ _ _ (astRealtimeDestroy tableName idName (.string id) b).2
    rw [hdestroy]
    refine ⟨_, Function.update_self .., rfl, fun id' => ?_⟩
    show Option.Rel _ ((sp.tuples.delete id).get id') (if id = id' then none else objects id')
    rw [KeyedTable.get_delete]
    by_cases hid : id' = id
    · rw [if_pos hid, if_pos hid.symm]
      exact .none
    · rw [if_neg hid, if_neg (Ne.symm hid)]
      exact hobjects id'

/-! ## Runs -/

/-- An object in a space is returned as it is shown. -/
theorem astRealtimeGet_of_boxHolds {format : RealtimeFormat} {objects : LuaString → Option Texts}
    (h : BoxHolds tableName format objects b) (id : LuaString) :
    astRealtimeGet tableName idName (.string id) b =
      .ok ((objects id).map (Texts.shown format)) := by
  obtain ⟨sp, hsp, rfl, hobjects⟩ := h
  have hget : astRealtimeGet tableName idName (.string id) b =
      .ok ((sp.tuples.get id).map (Tuple.map sp.format)) := by
    rw [astRealtimeGet, hsp]
    rfl
  rw [hget]
  have hid := hobjects id
  generalize sp.tuples.get id = found at hid
  generalize objects id = object at hid
  cases hid with
  | none => rfl
  | some ht => exact congrArg (fun record => Except.ok (some record)) (map_of_holds ht)

end Steps

/-- **A run** does to the tuples what it does to the objects. -/
theorem boxHolds_run {b : RealtimeBox} {tableName : LuaString} {format : RealtimeFormat}
    (hb : b tableName = some ⟨format, .empty⟩) (hstrings : format.Strings) {ops : List RealtimeOp}
    (hops : ∀ op ∈ ops, op.KeepsId) :
    BoxHolds tableName format (fun id => stored id ops)
      (run (RealtimeOp.exec tableName) b ops) := by
  induction ops using List.reverseRecOn with
  | nil => exact ⟨_, hb, rfl, fun id => Option.Rel.none⟩
  | append_singleton ops op ih =>
    have hlast : op.KeepsId := hops op (by simp)
    have hbefore := ih fun op' hop' => hops op' (List.mem_append_left _ hop')
    have hstep := boxHolds_exec hstrings hbefore op hlast
    rw [run_append, run_cons, run_nil]
    simpa only [stored, List.foldl_append, List.foldl_cons, List.foldl_nil] using hstep

/-! ## The object that is stored -/

/-- An operation that neither stores nor destroys an object may update it. -/
theorem effect_of_not_stores {id : LuaString} {op : RealtimeOp} (hstore : ¬ op.Stores id)
    (hdestroy : ¬ op.Destroys id) (object : Option Texts) :
    op.effect id object =
      match op.updateOf id with
      | none => object
      | some f => object.map fun g => g.overlay f := by
  cases op with
  | store f => exact if_neg hstore
  | destroy id' => exact if_neg hdestroy
  | update id' f =>
    simp only [RealtimeOp.effect, RealtimeOp.updateOf]
    split_ifs <;> rfl
  | update2 l f =>
    simp only [RealtimeOp.effect, RealtimeOp.updateOf]
    split_ifs <;> rfl

/-- Updates are laid over the object one after the other. -/
theorem foldl_effect_updates {id : LuaString} {ops : List RealtimeOp}
    (hops : ∀ op ∈ ops, ¬ op.Stores id ∧ ¬ op.Destroys id) (f : Texts) :
    ops.foldl (RealtimeOp.effect id) (some f) =
      some ((ops.filterMap (RealtimeOp.updateOf id)).foldl Texts.overlay f) := by
  induction ops generalizing f with
  | nil => rfl
  | cons op ops ih =>
    obtain ⟨⟨hstore, hdestroy⟩, hrest⟩ := List.forall_mem_cons.1 hops
    rw [List.foldl_cons, effect_of_not_stores hstore hdestroy, List.filterMap_cons]
    cases op.updateOf id with
    | none => exact ih hrest f
    | some g => exact ih hrest (f.overlay g)

/-- An object that is stored was stored, and not destroyed since. -/
theorem exists_store_of_stored {id : LuaString} {ops : List RealtimeOp} {g : Texts}
    (h : stored id ops = some g) :
    ∃ before f after, ops = before ++ .store f :: after ∧ f idName = some id ∧
      ∀ op ∈ after, ¬ op.Destroys id := by
  induction ops using List.reverseRecOn generalizing g with
  | nil => cases h
  | append_singleton ops op ih =>
    have hlast : op.effect id (stored id ops) = some g := by
      rw [← h, stored, stored, List.foldl_append]
      rfl
    by_cases hstore : op.Stores id
    · cases op with
      | store f => exact ⟨ops, f, [], rfl, hstore, by simp⟩
      | _ => cases hstore
    · have hdestroy : ¬ op.Destroys id := by
        intro hdestroy
        cases op with
        | destroy id' =>
          have hid : id' = id := hdestroy
          rw [RealtimeOp.effect, if_pos hid] at hlast
          cases hlast
        | _ => cases hdestroy
      obtain ⟨g', hg'⟩ : ∃ g', stored id ops = some g' := by
        rw [effect_of_not_stores hstore hdestroy] at hlast
        cases hobject : stored id ops with
        | some g' => exact ⟨g', rfl⟩
        | none =>
          rw [hobject] at hlast
          cases hupdate : op.updateOf id <;> rw [hupdate] at hlast <;> cases hlast
      obtain ⟨before, f, after, rfl, hid, hafter⟩ := ih hg'
      refine ⟨before, f, after ++ [op], by simp, hid, fun op' hop' => ?_⟩
      rcases List.mem_append.1 hop' with hop' | hop'
      · exact hafter op' hop'
      · rwa [List.mem_singleton.1 hop']

/-! ## What is returned -/

/-- **What a lookup by id returns.**  After every run of stores, updates and destroys of a space of
string fields, `ast_realtime_get` returns the fields of the last store under the id since the last
destroy, with the later updates laid over them in order, as far as the format names them; without
such a store it returns nothing.  An operation on another id does not matter. -/
theorem astRealtimeGet_overlay {b : RealtimeBox} {tableName : LuaString} {format : RealtimeFormat}
    (hb : b tableName = some ⟨format, .empty⟩) (hstrings : format.Strings) {ops : List RealtimeOp}
    (hops : ∀ op ∈ ops, op.KeepsId) (id : LuaString) :
    (∀ before f after, ops = before ++ .store f :: after → f idName = some id →
      (∀ op ∈ after, ¬ op.Stores id ∧ ¬ op.Destroys id) →
        astRealtimeGet tableName idName (.string id) (run (RealtimeOp.exec tableName) b ops) =
          .ok (some (((after.filterMap (RealtimeOp.updateOf id)).foldl Texts.overlay f).shown
            format))) ∧
    ((∀ before f after, ops = before ++ .store f :: after → f idName = some id →
      ∃ op ∈ after, op.Destroys id) →
        astRealtimeGet tableName idName (.string id) (run (RealtimeOp.exec tableName) b ops) =
          .ok none) ∧
    ∀ before op, before ++ [op] <+: ops → ¬ op.Stores id → ¬ op.Destroys id →
      op.updateOf id = none →
        astRealtimeGet tableName idName (.string id)
            (run (RealtimeOp.exec tableName) b (before ++ [op])) =
          astRealtimeGet tableName idName (.string id)
            (run (RealtimeOp.exec tableName) b before) := by
  have hget : ∀ {ops' : List RealtimeOp}, (∀ op ∈ ops', op.KeepsId) →
      astRealtimeGet tableName idName (.string id) (run (RealtimeOp.exec tableName) b ops') =
        .ok ((stored id ops').map (Texts.shown format)) :=
    fun hops' => astRealtimeGet_of_boxHolds (boxHolds_run hb hstrings hops') id
  refine ⟨?_, ?_, ?_⟩
  · rintro before f after rfl hid hafter
    have hstored : stored id (before ++ .store f :: after) =
        some ((after.filterMap (RealtimeOp.updateOf id)).foldl Texts.overlay f) := by
      rw [stored, List.foldl_append, List.foldl_cons, RealtimeOp.effect, if_pos hid]
      exact foldl_effect_updates hafter f
    rw [hget hops, hstored]
    rfl
  · intro hdestroyed
    have hnone : stored id ops = none := by
      by_contra hsome
      obtain ⟨g, hg⟩ := Option.ne_none_iff_exists'.1 hsome
      obtain ⟨before, f, after, hsplit, hid, hafter⟩ := exists_store_of_stored hg
      obtain ⟨op, hop, hdestroy⟩ := hdestroyed before f after hsplit hid
      exact hafter op hop hdestroy
    rw [hget hops, hnone]
    rfl
  · intro before op hbegin hstore hdestroy hupdate
    have hall : ∀ op' ∈ before ++ [op], op'.KeepsId := fun op' hop' =>
      hops op' (hbegin.subset hop')
    have hsame : stored id (before ++ [op]) = stored id before := by
      rw [stored, List.foldl_append, List.foldl_cons, List.foldl_nil,
        effect_of_not_stores hstore hdestroy, hupdate]
      rfl
    rw [hget hall, hget fun op' hop' => hall op' (List.mem_append_left _ hop'), hsame]

/-- Texts from a list. -/
def Texts.of (l : List (LuaString × LuaString)) : Texts := fun name => l.lookup name

/-- The endpoint `1001` is stored anew. -/
def endpointStore : Texts :=
  .of [(idName, ascii "1001"), (ascii "transport", ascii "transport-udp"),
    (ascii "allow", ascii "ulaw"), (ascii "nat", ascii "no")]

/-- It is updated, and another one is destroyed. -/
def endpointUpdates : List RealtimeOp :=
  [.update (ascii "1001") (.of [(ascii "allow", ascii "opus")]), .destroy (ascii "1002"),
    .update2 (.of [(idName, ascii "1001")]) (.of [(ascii "context", ascii "from-internal")])]

theorem astRealtimeGet_overlay_endpoint :
    astRealtimeGet (ascii "ps_endpoints") idName (.string (ascii "1001"))
        (run (RealtimeOp.exec (ascii "ps_endpoints")) RealtimeBox.init
          ([.destroy (ascii "1001")] ++ .store endpointStore :: endpointUpdates)) =
      .ok (some [(idName, ascii "1001"), (ascii "transport", ascii "transport-udp"),
        (ascii "context", ascii "from-internal"), (ascii "allow", ascii "opus")]) := by
  have hops : ∀ op ∈ [.destroy (ascii "1001")] ++ .store endpointStore :: endpointUpdates,
      op.KeepsId := by
    decide +kernel
  have hafter : ∀ op ∈ endpointUpdates,
      ¬ op.Stores (ascii "1001") ∧ ¬ op.Destroys (ascii "1001") := by
    decide +kernel
  have hspace : RealtimeBox.init (ascii "ps_endpoints") = some ⟨psEndpoints, .empty⟩ := if_pos rfl
  have hget := (astRealtimeGet_overlay hspace (by decide +kernel) hops (ascii "1001")).1
    _ endpointStore endpointUpdates rfl (by decide +kernel) hafter
  rw [hget]
  have hshown : ((endpointUpdates.filterMap (RealtimeOp.updateOf (ascii "1001"))).foldl
      Texts.overlay endpointStore).shown psEndpoints =
        [(idName, ascii "1001"), (ascii "transport", ascii "transport-udp"),
          (ascii "context", ascii "from-internal"), (ascii "allow", ascii "opus")] := by
    decide +kernel
  rw [hshown]

end AsteriskService

end VoipBackend
