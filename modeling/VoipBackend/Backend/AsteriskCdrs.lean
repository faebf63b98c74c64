import VoipBackend.Backend.Billing
import VoipBackend.Lib.Execution

/-!
# The call records of Asterisk

`ast_cdr_save` of `app/asterisk_service.lua` writes one record for every call, under the `uniqueid`
of the call.  Where the driver is told not to pass one (`log_uniqueid` of `cdr_tarantool.conf`), the
key is made of the second and a random number of four digits.  The record is written with
`replace`: under a key that is taken already it does not become one more record, it takes the place
of the other one.

`addsOne_iff_keeps` says in which runs every call adds its record and all others stay.
-/

namespace VoipBackend

open Library

namespace AsteriskService

/-! ## The space -/

/-- The types of the fields of `asterisk_cdrs`. -/
inductive CdrFieldType where
  | string
  | unsigned
  | integer
  | number
  deriving DecidableEq

/-- A value of a field. -/
inductive CdrValue where
  | string (s : LuaString)
  | unsigned (n : ℕ)
  | integer (z : ℤ)
  | number (q : ℚ)
  deriving DecidableEq

/-- The value of a number in a field of type `integer`. -/
def integer? (q : ℚ) : Option ℤ :=
  if q.den = 1 ∧ -2 ^ 63 ≤ q.num ∧ q.num < 2 ^ 64 then some q.num else none

/-- The value of a Lua value in a field of a type, if it fits.  No field is written as `nil`. -/
def CdrFieldType.check : CdrFieldType → LuaValue → Option CdrValue
  | .string, .string s => some (.string s)
  | .unsigned, .number q => (unsigned? q).map .unsigned
  | .unsigned, .cdata z => (unsigned? z).map .unsigned
  | .integer, .number q => (integer? q).map .integer
  | .integer, .cdata z => (integer? z).map .integer
  | .number, .number q => some (.number q)
  | .number, .cdata z => some (.number z)
  | _, _ => none

/-- The fields behind `uniqueid`. -/
def cdrFields : List (String × CdrFieldType) :=
  [("accountcode", .string), ("src", .string), ("dst", .string), ("dcontext", .string),
    ("clid", .string), ("channel", .string), ("dstchannel", .string), ("lastapp", .string),
    ("lastdata", .string), ("start_time", .string), ("answer_time", .string),
    ("end_time", .string), ("duration", .unsigned), ("billsec", .unsigned),
    ("disposition", .integer), ("userfield", .string), ("created_at", .number)]

/-- A record. -/
structure AsteriskCdr where
  uniqueid : LuaString
  fields : List CdrValue
  deriving DecidableEq

/-- The check of the fields of a tuple, in order. -/
def checkCdrFields : List ((String × CdrFieldType) × LuaValue) → Except LuaError (List CdrValue)
  | [] => .ok []
  | ((name, type), v) :: rest => do
      let value ← checkField "asterisk_cdrs" name (type.check v)
      let values ← checkCdrFields rest
      return value :: values

/-- The check of a tuple against the format. -/
def AsteriskCdr.check (uid : LuaValue) (values : List LuaValue) : Except LuaError AsteriskCdr := do
  let uniqueid ← checkField "asterisk_cdrs" "uniqueid" uid.string?
  let fields ← checkCdrFields (cdrFields.zip values)
  return ⟨uniqueid, fields⟩

/-- The spaces, as far as `ast_cdr_save` reaches: `asterisk_cdrs`, and for any other name whether
there is a space and what it says to a tuple.  What other spaces hold is left out. -/
structure CdrBox where
  cdrs : KeyedTable AsteriskCdr.uniqueid
  others : LuaValue → Option (List LuaValue → Except LuaError Unit)

/-- A space that a record may be written to. -/
inductive CdrSpace where
  | asteriskCdrs
  | other (takes : List LuaValue → Except LuaError Unit)

/-- `box.space[name]`.  A space has a name and a number. -/
def CdrBox.space (b : CdrBox) (name : LuaValue) : Option CdrSpace :=
  match name with
  | .string s =>
      if s = ascii "asterisk_cdrs" then some .asteriskCdrs else (b.others name).map .other
  | .number q => if q = 523 then some .asteriskCdrs else (b.others name).map .other
  | _ => none

/-! ## The procedure -/

/-- The arguments.  One that is not there is `nil`. -/
structure CdrArgs where
  uniqueid : LuaValue
  accountcode : LuaValue
  src : LuaValue
  dst : LuaValue
  dcontext : LuaValue
  clid : LuaValue
  channel : LuaValue
  dstchannel : LuaValue
  lastapp : LuaValue
  lastdata : LuaValue
  startTime : LuaValue
  answerTime : LuaValue
  duration : LuaValue
  billsec : LuaValue
  disposition : LuaValue
  userfield : LuaValue
  spaceName : LuaValue

/-- What a call reads from outside: `os.time()`, whose text is decimal below `1e14`, and
`math.random(1000, 9999)`. -/
structure CdrEnv where
  now : ℕ
  lt : now < 10 ^ 14
  random : ℕ
  le_random : 1000 ≤ random
  random_le : random ≤ 9999

/-- `'ast-' .. tostring(now) .. '-' .. tostring(math.random(1000, 9999))`. -/
def generatedId (env : CdrEnv) : LuaString :=
  ascii "ast-" ++ decimal env.now ++ ascii "-" ++ decimal env.random

namespace CdrArgs

/-- `uid`. -/
def uid (a : CdrArgs) (env : CdrEnv) : LuaValue :=
  match a.uniqueid with
  | .nil => .string (generatedId env)
  | .boolean false => .string (generatedId env)
  | .string [] => .string (generatedId env)
  | v => v

/-- The values behind `uid`. -/
def values (a : CdrArgs) (env : CdrEnv) : List LuaValue :=
  [a.accountcode.or (.string []), a.src.or (.string []), a.dst.or (.string []),
    a.dcontext.or (.string []), a.clid.or (.string []), a.channel.or (.string []),
    a.dstchannel.or (.string []), a.lastapp.or (.string []), a.lastdata.or (.string []),
    a.startTime.or (.string []), a.answerTime.or (.string []), .string (decimal env.now),
    a.duration.or (.number 0), a.billsec.or (.number 0), a.disposition.or (.number 0),
    a.userfield.or (.string []), .number env.now]

/-- `sp`: the space with the name that is passed, or `asterisk_cdrs`.  That space is always
there. -/
def space (a : CdrArgs) (b : CdrBox) : CdrSpace :=
  (b.space (a.spaceName.or (.string (ascii "asterisk_cdrs")))).getD .asteriskCdrs

end CdrArgs

/-- `ast_cdr_save`. -/
def astCdrSave (a : CdrArgs) (env : CdrEnv) (b : CdrBox) : Except LuaError ℤ × CdrBox :=
  match a.space b with
  | .other takes => ((takes (a.uid env :: a.values env)).map fun _ => 0, b)
  | .asteriskCdrs =>
      match AsteriskCdr.check (a.uid env) (a.values env) with
      | .error e => (.error e, b)
      | .ok cdr => (.ok 0, { b with cdrs := b.cdrs.put cdr })

/-- The step of a call. -/
def CdrBox.step (b : CdrBox) (x : CdrArgs × CdrEnv) : CdrBox := (astCdrSave x.1 x.2 b).2

/-! ## Adding a record -/

/-- The call adds one record, and all records that were there stay as they are. -/
def AddsOne (b : CdrBox) (x : CdrArgs × CdrEnv) : Prop :=
  ∃ cdr, cdr ∉ b.cdrs.rows ∧ ∀ r, r ∈ (b.step x).cdrs.rows ↔ r = cdr ∨ r ∈ b.cdrs.rows

namespace CdrArgs

/-- The call has no `uniqueid`. -/
def isEmpty (a : CdrArgs) : Bool :=
  match a.uniqueid with
  | .nil => true
  | .boolean false => true
  | .string [] => true
  | _ => false

/-- The `uniqueid` that is passed. -/
def given (a : CdrArgs) : Option LuaString :=
  match a.uniqueid with
  | .string (c :: s) => some (c :: s)
  | _ => none

/-- The tuple has the types of the format. -/
def Fits (a : CdrArgs) (env : CdrEnv) : Prop :=
  (a.isEmpty ∨ a.given.isSome) ∧
    ∀ field ∈ cdrFields.zip (a.values env), (field.1.2.check field.2).isSome

/-- The name that is passed is that of `asterisk_cdrs`, or of no space. -/
def ToAsteriskCdrs (a : CdrArgs) (b : CdrBox) : Prop :=
  ∀ takes, b.space (a.spaceName.or (.string (ascii "asterisk_cdrs"))) ≠ some (.other takes)

end CdrArgs

/-- The tuple fits and goes to `asterisk_cdrs`, and a key that is generated is not taken. -/
def Keeps (b : CdrBox) (x : CdrArgs × CdrEnv) : Prop :=
  x.1.Fits x.2 ∧ x.1.ToAsteriskCdrs b ∧
    (x.1.isEmpty → ∀ r ∈ b.cdrs.rows, r.uniqueid ≠ generatedId x.2)

theorem uid_eq_string_iff (a : CdrArgs) (env : CdrEnv) (s : LuaString) :
    a.uid env = .string s ↔ (a.isEmpty ∧ s = generatedId env) ∨ a.given = some s := by
  unfold CdrArgs.uid CdrArgs.isEmpty CdrArgs.given
  cases h : a.uniqueid with
  | nil => simp [eq_comm]
  | boolean x => cases x <;> simp [eq_comm]
  | number q => simp
  | cdata z => simp
  | string text => cases text <;> simp [eq_comm]
  | table entries => simp

/-- A call without a `uniqueid` passes none. -/
theorem given_of_isEmpty {a : CdrArgs} (h : a.isEmpty) : a.given = none := by
  unfold CdrArgs.isEmpty at h
  unfold CdrArgs.given
  split
  · next hid =>
    rw [hid] at h
    cases h
  · rfl

/-- The fields pass the check exactly if they all have their type. -/
theorem checkCdrFields_isOk_iff (fields : List ((String × CdrFieldType) × LuaValue)) :
    (∃ values, checkCdrFields fields = .ok values) ↔
      ∀ field ∈ fields, (field.1.2.check field.2).isSome := by
  induction fields with
  | nil => simp [checkCdrFields]
  | cons field fields ih =>
    rw [List.forall_mem_cons, ← ih]
    constructor
    · rintro ⟨values, h⟩
      obtain ⟨value, hvalue, h⟩ := bind_eq_ok h
      obtain ⟨rest, hrest, -⟩ := bind_eq_ok h
      rw [checkField_eq_ok] at hvalue
      exact ⟨by rw [hvalue]; rfl, rest, hrest⟩
    · rintro ⟨hvalue, rest, hrest⟩
      obtain ⟨value, hvalue⟩ := Option.isSome_iff_exists.1 hvalue
      refine ⟨value :: rest, ?_⟩
      rw [checkCdrFields, hvalue, hrest]
      rfl

/-- A record that passes the check has the key of its tuple. -/
theorem check_eq_ok {uid : LuaValue} {values : List LuaValue} {cdr : AsteriskCdr}
    (h : AsteriskCdr.check uid values = .ok cdr) : uid = .string cdr.uniqueid := by
  obtain ⟨uniqueid, huid, h⟩ := bind_eq_ok h
  obtain ⟨fields, -, h⟩ := bind_eq_ok h
  cases h
  rw [checkField_eq_ok] at huid
  cases uid with
  | string s => exact congrArg LuaValue.string (Option.some.inj huid)
  | _ => cases huid

/-- The tuples that pass the check are those that fit. -/
theorem check_isOk_iff (a : CdrArgs) (env : CdrEnv) :
    (∃ cdr, AsteriskCdr.check (a.uid env) (a.values env) = .ok cdr) ↔ a.Fits env := by
  unfold CdrArgs.Fits
  rw [← checkCdrFields_isOk_iff]
  constructor
  · rintro ⟨cdr, h⟩
    have huid := (uid_eq_string_iff a env cdr.uniqueid).1 (check_eq_ok h)
    obtain ⟨uniqueid, -, h⟩ := bind_eq_ok h
    obtain ⟨fields, hfields, -⟩ := bind_eq_ok h
    refine ⟨?_, fields, hfields⟩
    rcases huid with ⟨hempty, -⟩ | hgiven
    · exact Or.inl hempty
    · exact Or.inr (by rw [hgiven]; rfl)
  · rintro ⟨hid, fields, hfields⟩
    obtain ⟨s, hs⟩ : ∃ s, a.uid env = .string s := by
      rcases hid with hempty | hgiven
      · exact ⟨_, (uid_eq_string_iff a env _).2 (Or.inl ⟨hempty, rfl⟩)⟩
      · obtain ⟨s, hs⟩ := Option.isSome_iff_exists.1 hgiven
        exact ⟨s, (uid_eq_string_iff a env s).2 (Or.inr hs)⟩
    refine ⟨⟨s, fields⟩, ?_⟩
    rw [AsteriskCdr.check, hs, hfields]
    rfl

/-- A record is one more exactly if its key is new. -/
theorem mem_put_iff {t : KeyedTable AsteriskCdr.uniqueid} {cdr : AsteriskCdr} :
    (∃ c, c ∉ t.rows ∧ ∀ r, r ∈ (t.put cdr).rows ↔ r = c ∨ r ∈ t.rows) ↔
      ∀ r ∈ t.rows, r.uniqueid ≠ cdr.uniqueid := by
  have hmem : ∀ r, r ∈ (t.put cdr).rows ↔ if r.uniqueid = cdr.uniqueid then r = cdr else
      r ∈ t.rows := by
    intro r
    rw [KeyedTable.mem_rows_iff, KeyedTable.get_put]
    split_ifs with hkey
    · exact ⟨fun h => (Option.some.inj h).symm, fun h => congrArg some h.symm⟩
    · exact KeyedTable.mem_rows_iff.symm
  constructor
  · rintro ⟨c, hnew, hadds⟩ r hr hkey
    -- the row that was there is the one that is written, and then nothing is added
    have hrow : r = cdr := by
      have hstays := (hadds r).2 (Or.inr hr)
      rwa [hmem r, if_pos hkey] at hstays
    have hc := (hadds c).2 (Or.inl rfl)
    rw [hmem c] at hc
    split_ifs at hc with hsame
    · exact hnew (by rw [hc, ← hrow]; exact hr)
    · exact hnew hc
  · intro hfree
    refine ⟨cdr, fun hold => hfree cdr hold rfl, fun r => ?_⟩
    rw [hmem r]
    split_ifs with hkey
    · exact ⟨Or.inl, fun h => h.resolve_right fun hr => hfree r hr hkey⟩
    · exact ⟨Or.inr, fun h => h.resolve_left fun hr => hkey (by rw [hr])⟩

/-! ## Calls -/

/-- What a call does to the records: it writes one, or none. -/
theorem step_cdrs (b : CdrBox) (x : CdrArgs × CdrEnv) :
    (∃ cdr, x.1.uid x.2 = .string cdr.uniqueid ∧ x.1.Fits x.2 ∧ x.1.ToAsteriskCdrs b ∧
        b.step x = { b with cdrs := b.cdrs.put cdr }) ∨
      (¬ (x.1.Fits x.2 ∧ x.1.ToAsteriskCdrs b) ∧ b.step x = b) := by
  have hstep : b.step x = (astCdrSave x.1 x.2 b).2 := rfl
  rw [hstep]
  unfold astCdrSave CdrArgs.ToAsteriskCdrs CdrArgs.space
  have hmine : ∀ sp, sp = none ∨ sp = some CdrSpace.asteriskCdrs →
      sp.getD .asteriskCdrs = .asteriskCdrs ∧ ∀ takes, sp ≠ some (.other takes) := by
    rintro sp (rfl | rfl) <;> exact ⟨rfl, by simp⟩
  rcases hspace : b.space (x.1.spaceName.or (.string (ascii "asterisk_cdrs"))) with _ | _ | takes
  case some.other =>
    exact Or.inr ⟨fun h => h.2 takes rfl, rfl⟩
  all_goals
    cases hcheck : AsteriskCdr.check (x.1.uid x.2) (x.1.values x.2) with
    | error e =>
      refine Or.inr ⟨fun h => ?_, rfl⟩
      obtain ⟨cdr, hok⟩ := (check_isOk_iff x.1 x.2).2 h.1
      rw [hok] at hcheck
      cases hcheck
    | ok cdr =>
      refine Or.inl ⟨cdr, check_eq_ok hcheck, (check_isOk_iff x.1 x.2).1 ⟨cdr, hcheck⟩, ?_, rfl⟩
      simp

/-- **One call.** -/
theorem addsOne_iff {b : CdrBox} {x : CdrArgs × CdrEnv}
    (hgiven : ∀ s, x.1.given = some s → ∀ r ∈ b.cdrs.rows, r.uniqueid ≠ s) :
    AddsOne b x ↔ Keeps b x := by
  unfold AddsOne Keeps
  rcases step_cdrs b x with ⟨cdr, huid, hfits, hspace, hstep⟩ | ⟨hnot, hstep⟩
  · rw [hstep, mem_put_iff]
    rcases (uid_eq_string_iff x.1 x.2 cdr.uniqueid).1 huid with ⟨hempty, hkey⟩ | hsome
    · rw [hkey]
      exact ⟨fun h => ⟨hfits, hspace, fun _ => h⟩, fun h => h.2.2 hempty⟩
    · refine iff_of_true (hgiven _ hsome) ⟨hfits, hspace, fun hempty => ?_⟩
      rw [given_of_isEmpty hempty] at hsome
      cases hsome
  · rw [hstep]
    refine iff_of_false ?_ fun h => hnot ⟨h.1, h.2.1⟩
    rintro ⟨cdr, hnew, hadds⟩
    exact hnew ((hadds cdr).2 (Or.inl rfl))

/-- The keys after a call: those that were there, and the one it writes. -/
theorem uniqueid_of_mem_step {b : CdrBox} {x : CdrArgs × CdrEnv} {r : AsteriskCdr}
    (hr : r ∈ (b.step x).cdrs.rows) :
    r ∈ b.cdrs.rows ∨ r.uniqueid = generatedId x.2 ∨ x.1.given = some r.uniqueid := by
  rcases step_cdrs b x with ⟨cdr, huid, -, -, hstep⟩ | ⟨-, hstep⟩
  · rw [hstep] at hr
    rcases KeyedTable.mem_putRow hr with rfl | hold
    · rcases (uid_eq_string_iff x.1 x.2 _).1 huid with ⟨-, hkey⟩ | hsome
      · exact Or.inr (Or.inl hkey)
      · exact Or.inr (Or.inr hsome)
    · exact Or.inl hold
  · exact Or.inl (hstep ▸ hr)

/-- The texts that are passed as `uniqueid` in a run. -/
def givenIds (calls : List (CdrArgs × CdrEnv)) : List LuaString :=
  calls.filterMap fun x => x.1.given

theorem givenIds_cons (x : CdrArgs × CdrEnv) (calls : List (CdrArgs × CdrEnv)) :
    givenIds (x :: calls) = x.1.given.toList ++ givenIds calls := by
  rw [givenIds, List.filterMap_cons]
  cases x.1.given <;> rfl

/-- **When every record is kept.**  For all calls whose `uniqueid`s are empty, or different from
each other, not yet stored and not of the form that is generated, at any times and whatever
numbers are drawn: every call adds one record and changes none exactly if every tuple fits the
format of `asterisk_cdrs` and goes there, and no key that is generated is taken already. -/
theorem addsOne_iff_keeps {b : CdrBox} {calls : List (CdrArgs × CdrEnv)}
    (hdistinct : (givenIds calls).Nodup) (hform : ∀ s ∈ givenIds calls, ¬ ascii "ast-" <+: s)
    (hnew : ∀ s ∈ givenIds calls, ∀ r ∈ b.cdrs.rows, r.uniqueid ≠ s) :
    AllSteps CdrBox.step AddsOne b calls ↔ AllSteps CdrBox.step Keeps b calls := by
  induction calls generalizing b with
  | nil => exact Iff.rfl
  | cons x calls ih =>
    rw [givenIds_cons] at hdistinct hform hnew
    obtain ⟨-, hrest, hother⟩ := List.nodup_append'.1 hdistinct
    have hsub : ∀ s ∈ givenIds calls, s ∈ x.1.given.toList ++ givenIds calls := fun s hs =>
      List.mem_append_right _ hs
    have hhead := addsOne_iff (b := b) fun s (hs : x.1.given = some s) =>
      hnew s (List.mem_append_left _ (Option.mem_toList.2 hs))
    have htail := ih (b := b.step x) hrest (fun s hs => hform s (hsub s hs)) fun s hs r hr => by
      rcases uniqueid_of_mem_step hr with hold | hkey | hsome
      · exact hnew s (hsub s hs) r hold
      · intro hsame
        refine hform s (hsub s hs) ?_
        rw [← hsame, hkey, generatedId, List.append_assoc, List.append_assoc]
        exact List.prefix_append _ _
      · intro hsame
        exact hother (Option.mem_toList.2 (hsame ▸ hsome)) hs
    rw [AllSteps, AllSteps, hhead, htail]

/-! ## Two calls in one second -/

/-- A call adds its record under a key that is taken then. -/
theorem uniqueid_mem_of_addsOne {b : CdrBox} {x : CdrArgs × CdrEnv} (hempty : x.1.isEmpty)
    (h : AddsOne b x) : ∃ r ∈ (b.step x).cdrs.rows, r.uniqueid = generatedId x.2 := by
  rcases step_cdrs b x with ⟨cdr, huid, -, -, hstep⟩ | ⟨-, hstep⟩
  · refine ⟨cdr, ?_, ?_⟩
    · rw [hstep, KeyedTable.mem_rows_iff, KeyedTable.get_put, if_pos rfl]
    · rcases (uid_eq_string_iff x.1 x.2 _).1 huid with ⟨-, hkey⟩ | hsome
      · exact hkey
      · rw [given_of_isEmpty hempty] at hsome
        cases hsome
  · obtain ⟨cdr, hnew, hadds⟩ := h
    rw [hstep] at hadds
    exact absurd ((hadds cdr).2 (Or.inl rfl)) hnew

/-- Of two calls without a `uniqueid` in one second that draw one number, the second one does not
add a record. -/
theorem not_addsOne_again {b : CdrBox} {x y : CdrArgs × CdrEnv} (hx : x.1.isEmpty)
    (hy : y.1.isEmpty) (henv : y.2 = x.2) (h : AddsOne b x) : ¬ AddsOne (b.step x) y := by
  intro hagain
  obtain ⟨r, hr, hkey⟩ := uniqueid_mem_of_addsOne hx h
  have hkeeps := (addsOne_iff fun s hs => by rw [given_of_isEmpty hy] at hs; cases hs).1 hagain
  exact hkeeps.2.2 hy r hr (by rw [hkey, henv])

/-- The call of a driver that passes no `uniqueid`. -/
def bareCall (src : String) : CdrArgs where
  uniqueid := .string []
  accountcode := .string []
  src := .string (ascii src)
  dst := .string (ascii "2000")
  dcontext := .string (ascii "default")
  clid := .string []
  channel := .string (ascii "PJSIP/" ++ ascii src)
  dstchannel := .string []
  lastapp := .string (ascii "Dial")
  lastdata := .string []
  startTime := .string (ascii "1700000000.000000")
  answerTime := .string []
  duration := .number 10
  billsec := .number 8
  disposition := .number 8
  userfield := .string []
  spaceName := .string (ascii "asterisk_cdrs")

/-- A second, and a number that is drawn in it. -/
def cdrEnv (random : Fin 9000) : CdrEnv :=
  ⟨1700000000, by decide, 1000 + random, by omega, by omega⟩

/-- The space when it is new. -/
def CdrBox.init : CdrBox := ⟨.empty, fun _ => none⟩

/-- A call that has a `uniqueid`. -/
def namedCall (src uniqueid : String) : CdrArgs :=
  { bareCall src with uniqueid := .string (ascii uniqueid) }

theorem toAsteriskCdrs_bareCall (b : CdrBox) (src : String) :
    (bareCall src).ToAsteriskCdrs b := by
  intro takes h
  have hspace : b.space (.string (ascii "asterisk_cdrs")) = some .asteriskCdrs := by
    simp [CdrBox.space]
  cases hspace.symm.trans h

theorem addsOne_iff_keeps_two :
    AllSteps CdrBox.step AddsOne CdrBox.init
      [(bareCall "1001", cdrEnv 234), (namedCall "1002" "1700000000.7", cdrEnv 234)] := by
  refine (addsOne_iff_keeps (by decide +kernel) (by decide +kernel)
    fun _ _ r hr => by cases hr).2 ⟨?_, ?_, trivial⟩
  · exact ⟨⟨Or.inl rfl, by decide +kernel⟩, toAsteriskCdrs_bareCall _ "1001",
      fun _ r hr => by cases hr⟩
  · exact ⟨⟨Or.inr rfl, by decide +kernel⟩, toAsteriskCdrs_bareCall _ "1002",
      fun h => by cases h⟩

/-- **A record that is lost.**  Two calls end in one second and draw the same number: neither has a
`uniqueid`, and not both add a record. -/
theorem not_addsOne_sameSecond :
    givenIds [(bareCall "1001", cdrEnv 234), (bareCall "1002", cdrEnv 234)] = [] ∧
      ¬ AllSteps CdrBox.step AddsOne CdrBox.init
        [(bareCall "1001", cdrEnv 234), (bareCall "1002", cdrEnv 234)] := by
  refine ⟨rfl, fun h => ?_⟩
  have hagain : ¬ AddsOne (CdrBox.init.step (bareCall "1001", cdrEnv 234))
      (bareCall "1002", cdrEnv 234) := not_addsOne_again rfl rfl rfl h.1
  exact hagain h.2.1

end AsteriskService

end VoipBackend
