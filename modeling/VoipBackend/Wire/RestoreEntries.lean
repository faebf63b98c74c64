import VoipBackend.Wire.RestoreSlots

/-!
# Entries of a restored call

The maps in the answer of `rtpe_call_restore` may have any keys: the payload is stored as it came,
whoever wrote it.  The decoder is meant to take the entries with the names it knows and to skip all
others.  It takes an entry as soon as `strncmp` over the length of its key finds no difference, so
that a key `call`, a key `caller` in the payload or the empty key passes for a known one; and it
goes into a payload only if that is a small map.

`readByName_iff` says which entries are taken by their exact names.
-/

namespace VoipBackend

open Library MsgPack Msgpuck

namespace RtpEngine

/-! ## Known names -/

/-- A name that the decoder knows, and the variable its value is read into. -/
structure KnownField where
  name : Bytes
  slot : Slot

/-- The strings of a call, in the order they are tried. -/
def idFields : List KnownField :=
  [⟨ascii "call_id", textSlot 128 (by decide) RestoredCall.callId
      (fun call s => { call with callId := s }) (fun _ _ => rfl) (fun _ => rfl)⟩,
    ⟨ascii "node_id", textSlot 64 (by decide) RestoredCall.nodeId
      (fun call s => { call with nodeId := s }) (fun _ _ => rfl) (fun _ => rfl)⟩]

/-- The name of the payload, which is tried last. -/
def payloadName : Bytes := ascii "payload"

/-- The entries of a payload, in the order they are tried. -/
def payloadFields : List KnownField :=
  [⟨ascii "caller_ip", textSlot 64 (by decide) RestoredCall.callerIp
      (fun call s => { call with callerIp := s }) (fun _ _ => rfl) (fun _ => rfl)⟩,
    ⟨ascii "callee_ip", textSlot 64 (by decide) RestoredCall.calleeIp
      (fun call s => { call with calleeIp := s }) (fun _ _ => rfl) (fun _ => rfl)⟩,
    ⟨ascii "caller_port", portSlot RestoredCall.callerPort
      (fun call n => { call with callerPort := n }) (fun _ _ => rfl) (fun _ => rfl)⟩,
    ⟨ascii "callee_port", portSlot RestoredCall.calleePort
      (fun call n => { call with calleePort := n }) (fun _ _ => rfl) (fun _ => rfl)⟩,
    ⟨ascii "srtp_suite", textSlot 32 (by decide) RestoredCall.srtpSuite
      (fun call s => { call with srtpSuite := s }) (fun _ _ => rfl) (fun _ => rfl)⟩]

/-- The field that `strncmp` finds for a key. -/
def firstField (fields : List KnownField) (key : Bytes) : Option KnownField :=
  fields.find? fun f => prefixMatch key f.name

/-- The field with the name of an entry. -/
def namedField (fields : List KnownField) (e : Item × Item) : Option KnownField :=
  fields.find? fun f => e.1.text = some f.name

theorem namedField_eq_some {fields : List KnownField} {e : Item × Item} {f : KnownField}
    (h : namedField fields e = some f) : f ∈ fields ∧ e.1.text = some f.name := by
  refine ⟨List.mem_of_find?_eq_some h, ?_⟩
  have hname := List.find?_some h
  exact of_decide_eq_true hname

theorem namedField_eq_none {fields : List KnownField} {e : Item × Item}
    (h : namedField fields e = none) {f : KnownField} (hf : f ∈ fields) :
    e.1.text ≠ some f.name := by
  unfold namedField at h
  exact fun hname => List.find?_eq_none.1 h f hf (decide_eq_true hname)

/-- A value is read into a variable of a call. -/
def Slot.readCall (slot : Slot) (call : RestoredCall) (p : Bytes) : Option (RestoredCall × Bytes) :=
  (slot.read (slot.get call) p).map fun (x, p) => (slot.set call x, p)

/-- What is read behind a key. -/
def readField (fields : List KnownField) (key : Bytes) (call : RestoredCall) (p : Bytes) :
    Option (RestoredCall × Bytes) :=
  match firstField fields key with
  | none => (mpNext p).map fun p => (call, p)
  | some f => f.slot.readCall call p

theorem readField_nil (key : Bytes) (call : RestoredCall) (p : Bytes) :
    readField [] key call p = (mpNext p).map fun p => (call, p) := rfl

/-- The fields are tried one after the other. -/
theorem readField_cons (f : KnownField) (fields : List KnownField) (key : Bytes)
    (call : RestoredCall) (p : Bytes) :
    readField (f :: fields) key call p =
      if prefixMatch key f.name then f.slot.readCall call p else readField fields key call p := by
  unfold readField firstField
  rw [List.find?_cons]
  cases prefixMatch key f.name <;> rfl

/-- **An entry of a payload.** -/
theorem payloadEntry_eq {item : Item} {key : Bytes} (hvalid : item.Valid)
    (hkey : item.text = some key) (call : RestoredCall) (p : Bytes) :
    payloadEntry call (item.bytes ++ p) = readField payloadFields key call p := by
  unfold payloadEntry payloadFields
  rw [mpDecodeStr_text hvalid hkey]
  simp only [Option.bind_eq_bind, Option.bind_some, strncmpEq_prefixMatch, readField_cons,
    readField_nil]
  split_ifs <;> exact (Option.map_eq_bind ..).symm

/-- The decoder takes the key for that of the payload. -/
def TakenForPayload (key : Bytes) : Prop :=
  (firstField idFields key).isNone ∧ prefixMatch key payloadName

instance (key : Bytes) : Decidable (TakenForPayload key) :=
  inferInstanceAs (Decidable ((firstField idFields key).isNone ∧ prefixMatch key payloadName))

/-- **An entry of the map of a call.** -/
theorem callEntry_eq {item val : Item} {key : Bytes} (hvalid : item.Valid)
    (hkey : item.text = some key) (call : RestoredCall) (rest : Bytes) :
    callEntry call (item.bytes ++ (val.bytes ++ rest)) =
      if TakenForPayload key ∧ val.tag &&& 0xf0 = 0x80 then
        (mpDecodeMap (val.bytes ++ rest)).bind fun (size, p) =>
          entriesLoop payloadEntry size call p
      else readField idFields key call (val.bytes ++ rest) := by
  have hpeek : peek (val.bytes ++ rest) = some val.tag := rfl
  unfold callEntry readField TakenForPayload firstField idFields payloadName
  rw [mpDecodeStr_text hvalid hkey]
  simp only [Option.bind_eq_bind, Option.bind_some, strncmpEq_prefixMatch, List.find?, hpeek]
  cases prefixMatch key (ascii "call_id") with
  | true => exact (Option.map_eq_bind ..).symm
  | false =>
    cases prefixMatch key (ascii "node_id") with
    | true => exact (Option.map_eq_bind ..).symm
    | false =>
      cases prefixMatch key (ascii "payload") with
      | false => exact (Option.map_eq_bind ..).symm
      | true =>
        by_cases hsmall : val.tag &&& 0xf0 = 0x80
        · simp [hsmall]
        · simp only [hsmall, decide_false, Option.map_some, Option.bind_some, if_true,
            Option.isNone_none, and_false, if_false, Bool.false_eq_true]
          exact (Option.map_eq_bind ..).symm

/-- A known name is found by `strncmp`. -/
theorem firstField_name {fields : List KnownField} (h : fields = idFields ∨ fields = payloadFields)
    {f : KnownField} (hf : f ∈ fields) : firstField fields f.name = some f := by
  rcases h with rfl | rfl
  · simp only [idFields, List.mem_cons, List.not_mem_nil, or_false] at hf
    rcases hf with rfl | rfl <;> rfl
  · simp only [payloadFields, List.mem_cons, List.not_mem_nil, or_false] at hf
    rcases hf with rfl | rfl | rfl | rfl | rfl <;> rfl

/-! ## Taking entries by their names -/

/-- What an entry means for a call, if the names in it are these. -/
def takeNamed (fields : List KnownField) (call : RestoredCall) (e : Item × Item) : RestoredCall :=
  match namedField fields e with
  | none => call
  | some f => f.slot.set call (f.slot.update e.2 (f.slot.get call))

/-- What an entry of the map of a call means for it. -/
def takeField (call : RestoredCall) (e : Item × Item) : RestoredCall :=
  if e.1.text = some payloadName then
    match e.2.pairs with
    | none => call
    | some entries => entries.foldl (takeNamed payloadFields) call
  else takeNamed idFields call e

/-- An entry that means nothing. -/
def takeNothing (call : RestoredCall) (_ : Item × Item) : RestoredCall := call

/-- An entry is read as what it means, whatever was read before it and whatever follows, up to its
last byte. -/
def ReadAs (entry : RestoredCall → Bytes → Option (RestoredCall × Bytes))
    (take : RestoredCall → Item × Item → RestoredCall) (e : Item × Item) : Prop :=
  ∀ call rest, entry call (e.1.bytes ++ (e.2.bytes ++ rest)) = some (take call e, rest)

/-- An entry of the map of a call is taken by its name, and so is every entry of a map that the
decoder goes into for it. -/
structure ReadByName (e : Item × Item) : Prop where
  own : ReadAs callEntry takeField e
  inner : ∀ key entries, e.1.text = some key → TakenForPayload key → e.2 = .fixmap entries →
    ∀ e' ∈ entries,
      ReadAs payloadEntry (if key = payloadName then takeNamed payloadFields else takeNothing) e'

/-! ## Which entries are -/

/-- A key is known and its value has the type, or it is not known and its value is skipped or fits
no buffer. -/
def NamedSound (fields : List KnownField) (key : Bytes) (val : Item) : Prop :=
  match firstField fields key with
  | none => SkipsExactly val
  | some f => if key = f.name then f.slot.Typed val else f.slot.Ignored val

/-- A value that is to mean nothing is skipped or fits no buffer. -/
def IdleSound (fields : List KnownField) (key : Bytes) (val : Item) : Prop :=
  match firstField fields key with
  | none => SkipsExactly val
  | some f => f.slot.Ignored val

/-- The value of a key that the decoder takes for that of the payload: a small map, the entries of
which are to be taken if the key is that of the payload, or a value that is skipped and has nothing
to be taken in it. -/
def PayloadSound (key : Bytes) (val : Item) : Prop :=
  (∃ entries, val = .fixmap entries ∧ ∀ e ∈ entries, ∀ key', e.1.text = some key' →
      if key = payloadName then NamedSound payloadFields key' e.2
      else IdleSound payloadFields key' e.2) ∨
    ((∀ entries, val ≠ .fixmap entries) ∧ SkipsExactly val ∧
      (key = payloadName → ∀ entries, val.pairs = some entries →
        ∀ e ∈ entries, ∀ f ∈ payloadFields, e.1.text = some f.name → f.slot.Void e.2))

/-- An entry of the map of a call that is taken by its name. -/
def FieldSound (e : Item × Item) : Prop :=
  ∀ key, e.1.text = some key →
    if TakenForPayload key then PayloadSound key e.2 else NamedSound idFields key e.2

/-- The fields a list knows, by the name of an entry. -/
theorem takeNamed_eq {fields : List KnownField} (h : fields = idFields ∨ fields = payloadFields)
    {e : Item × Item} {key : Bytes} (hkey : e.1.text = some key) (call : RestoredCall) :
    takeNamed fields call e =
      match firstField fields key with
      | none => call
      | some f =>
          if key = f.name then f.slot.set call (f.slot.update e.2 (f.slot.get call)) else call := by
  unfold takeNamed
  cases hnamed : namedField fields e with
  | some f =>
    obtain ⟨hf, hname⟩ := namedField_eq_some hnamed
    have hkey' : key = f.name := Option.some.inj (hkey.symm.trans hname)
    rw [hkey', firstField_name h hf]
    simp
  | none =>
    cases hfirst : firstField fields key with
    | none => rfl
    | some f =>
      have hother : key ≠ f.name := fun hname =>
        namedField_eq_none hnamed (List.mem_of_find?_eq_some hfirst) (hname ▸ hkey)
      exact (if_neg hother).symm

/-- A variable of a call is read as it is meant if it is so for each of its values. -/
theorem readCall_iff (slot : Slot) (val : Item) (update : slot.Val → slot.Val) :
    (∀ call rest, slot.readCall call (val.bytes ++ rest) =
        some (slot.set call (update (slot.get call)), rest)) ↔
      ∀ x rest, slot.read x (val.bytes ++ rest) = some (update x, rest) := by
  constructor
  · intro h x rest
    have hcall := h (slot.set .blank x) rest
    rw [Slot.readCall, slot.get_set, Option.map_eq_some_iff] at hcall
    obtain ⟨⟨y, p⟩, hread, heq⟩ := hcall
    have hy := congrArg (fun r => slot.get r.1) heq
    have hp : p = rest := congrArg Prod.snd heq
    simp only [slot.get_set] at hy
    rw [hread, hy, hp]
  · intro h call rest
    rw [Slot.readCall, h]
    rfl

theorem readCall_ignored_iff (slot : Slot) {val : Item} (hval : val.Valid) :
    (∀ call rest, slot.readCall call (val.bytes ++ rest) = some (call, rest)) ↔
      slot.Ignored val := by
  have h := readCall_iff slot val id
  simp only [id, slot.set_get] at h
  exact h.trans (slot.ignored_iff hval)

/-- **A list of fields.**  An entry is read by its name exactly if it is sound. -/
theorem readField_named_iff {fields : List KnownField}
    (h : fields = idFields ∨ fields = payloadFields) {e : Item × Item} (hval : e.2.Valid)
    {key : Bytes} (hkey : e.1.text = some key) :
    (∀ call rest, readField fields key call (e.2.bytes ++ rest) =
        some (takeNamed fields call e, rest)) ↔ NamedSound fields key e.2 := by
  simp only [takeNamed_eq h hkey]
  unfold readField NamedSound
  cases firstField fields key with
  | none =>
    simp only [Option.map_eq_some_iff, Prod.mk.injEq, true_and, exists_eq_right]
    exact ⟨fun h => h .blank, fun h _ => h⟩
  | some f =>
    by_cases hname : key = f.name
    · simp only [if_pos hname]
      rw [readCall_iff f.slot e.2 (f.slot.update e.2), f.slot.read_iff hval]
    · simp only [if_neg hname]
      exact readCall_ignored_iff f.slot hval

/-- An entry is skipped, or without effect, exactly if it is sound as such. -/
theorem readField_nothing_iff {fields : List KnownField} {e : Item × Item} (hval : e.2.Valid)
    {key : Bytes} :
    (∀ call rest, readField fields key call (e.2.bytes ++ rest) =
        some (takeNothing call e, rest)) ↔ IdleSound fields key e.2 := by
  unfold readField IdleSound takeNothing
  cases firstField fields key with
  | none =>
    simp only [Option.map_eq_some_iff, Prod.mk.injEq, true_and, exists_eq_right]
    exact ⟨fun h => h .blank, fun h _ => h⟩
  | some f => exact readCall_ignored_iff f.slot hval

/-! ## Looking up names -/

/-- The keys of a map are strings, and no two of them are the same. -/
structure DistinctKeys (entries : List (Item × Item)) : Prop where
  strings : ∀ e ∈ entries, e.1.text.isSome
  nodup : (entries.map fun e => e.1.text).Nodup

/-- The value under a key. -/
def valueOf (name : Bytes) (entries : List (Item × Item)) : Option Item :=
  (entries.find? fun e => e.1.text = some name).map Prod.snd

theorem valueOf_of_mem {entries : List (Item × Item)}
    (h : (entries.map fun e => e.1.text).Nodup) {e : Item × Item} (he : e ∈ entries) {name : Bytes}
    (hname : e.1.text = some name) : valueOf name entries = some e.2 := by
  induction entries with
  | nil => cases he
  | cons e' entries ih =>
    rw [List.map_cons, List.nodup_cons] at h
    unfold valueOf
    rcases List.mem_cons.1 he with rfl | he
    · rw [List.find?_cons_of_pos (by simpa using hname)]
      rfl
    · have hne : ¬ e'.1.text = some name := fun hsame =>
        h.1 (hsame.trans hname.symm ▸ List.mem_map_of_mem he)
      rw [List.find?_cons_of_neg (by simpa using hne)]
      exact ih h.2 he

/-- A variable that only one key changes, after all entries. -/
theorem foldl_get {α : Type} {get : RestoredCall → α}
    {take : RestoredCall → Item × Item → RestoredCall} {name : Bytes} {update : Item → α → α}
    {entries : List (Item × Item)} (htake : ∀ e ∈ entries, ∀ call, get (take call e) =
      if e.1.text = some name then update e.2 (get call) else get call)
    (hnodup : (entries.map fun e => e.1.text).Nodup) (call : RestoredCall) :
    get (entries.foldl take call) =
      match valueOf name entries with
      | none => get call
      | some val => update val (get call) := by
  induction entries generalizing call with
  | nil => rfl
  | cons e entries ih =>
    obtain ⟨he, hentries⟩ := List.forall_mem_cons.1 htake
    rw [List.map_cons, List.nodup_cons] at hnodup
    rw [List.foldl_cons, ih hentries hnodup.2, he]
    by_cases hname : e.1.text = some name
    · have hfirst : valueOf name (e :: entries) = some e.2 := by
        rw [valueOf, List.find?_cons_of_pos (by simpa using hname)]
        rfl
      have hlater : valueOf name entries = none := by
        rw [valueOf, Option.map_eq_none_iff, List.find?_eq_none]
        intro e' he' hsame
        have hsame' : e'.1.text = some name := of_decide_eq_true hsame
        exact hnodup.1 (hname.trans hsame'.symm ▸ List.mem_map_of_mem he')
      rw [hfirst, hlater, if_pos hname]
    · have hskip : valueOf name (e :: entries) = valueOf name entries := by
        rw [valueOf, List.find?_cons_of_neg (by simpa using hname)]
        rfl
      rw [hskip, if_neg hname]

/-- The variables do not overlap. -/
theorem get_set_other {fields : List KnownField} (h : fields = idFields ∨ fields = payloadFields)
    {f g : KnownField} (hf : f ∈ fields) (hg : g ∈ fields) (hne : g.name ≠ f.name)
    (call : RestoredCall) (x : g.slot.Val) :
    f.slot.get (g.slot.set call x) = f.slot.get call := by
  rcases h with rfl | rfl
  · simp only [idFields, List.mem_cons, List.not_mem_nil, or_false] at hf hg
    rcases hf with rfl | rfl <;> rcases hg with rfl | rfl <;>
      first | rfl | exact absurd rfl hne
  · simp only [payloadFields, List.mem_cons, List.not_mem_nil, or_false] at hf hg
    rcases hf with rfl | rfl | rfl | rfl | rfl <;>
      rcases hg with rfl | rfl | rfl | rfl | rfl <;>
      first | rfl | exact absurd rfl hne

theorem get_set_id_payload {f g : KnownField} (hf : f ∈ idFields) (hg : g ∈ payloadFields)
    (call : RestoredCall) :
    (∀ x, f.slot.get (g.slot.set call x) = f.slot.get call) ∧
      ∀ x, g.slot.get (f.slot.set call x) = g.slot.get call := by
  simp only [idFields, payloadFields, List.mem_cons, List.not_mem_nil, or_false] at hf hg
  rcases hf with rfl | rfl <;> rcases hg with rfl | rfl | rfl | rfl | rfl <;>
    exact ⟨fun _ => rfl, fun _ => rfl⟩

/-- An entry changes the variable of its name and no other one. -/
theorem get_takeNamed {fields : List KnownField} (h : fields = idFields ∨ fields = payloadFields)
    {f : KnownField} (hf : f ∈ fields) (call : RestoredCall) (e : Item × Item) :
    f.slot.get (takeNamed fields call e) =
      if e.1.text = some f.name then f.slot.update e.2 (f.slot.get call) else f.slot.get call := by
  unfold takeNamed
  cases hnamed : namedField fields e with
  | none =>
    rw [if_neg (namedField_eq_none hnamed hf)]
  | some g =>
    obtain ⟨hg, hname⟩ := namedField_eq_some hnamed
    by_cases hsame : g.name = f.name
    · have hgf : g = f := by
        have hfirst := firstField_name h hg
        rw [hsame, firstField_name h hf] at hfirst
        exact (Option.some.inj hfirst).symm
      rw [hgf] at hname ⊢
      simp only [f.slot.get_set]
      rw [if_pos hname]
    · have hother : ¬ e.1.text = some f.name := fun hf' =>
        hsame (Option.some.inj (hname.symm.trans hf'))
      rw [if_neg hother]
      exact get_set_other h hf hg hsame call _

/-- A payload means nothing exactly if no known name has a value that means something. -/
theorem foldl_takeNamed_eq_iff {entries : List (Item × Item)}
    (hnodup : (entries.map fun e => e.1.text).Nodup) :
    (∀ call, entries.foldl (takeNamed payloadFields) call = call) ↔
      ∀ e ∈ entries, ∀ f ∈ payloadFields, e.1.text = some f.name → f.slot.Void e.2 := by
  constructor
  · intro h e he f hf hname
    refine (f.slot.void_iff e.2).1 fun x => ?_
    have hget := foldl_get (fun e _ call => get_takeNamed (Or.inr rfl) hf call e) hnodup
      (f.slot.set .blank x)
    rw [h, valueOf_of_mem hnodup he hname] at hget
    simp only [f.slot.get_set] at hget
    exact hget.symm
  · intro h call
    have hone : ∀ e ∈ entries, takeNamed payloadFields call e = call := by
      intro e he
      unfold takeNamed
      cases hnamed : namedField payloadFields e with
      | none => rfl
      | some f =>
        obtain ⟨hf, hname⟩ := namedField_eq_some hnamed
        have hvoid := h e he f hf hname
        simp only
        rw [(f.slot.void_iff e.2).2 hvoid, f.slot.set_get]
    clear h hnodup
    induction entries with
    | nil => rfl
    | cons e entries ih =>
      obtain ⟨he, hentries⟩ := List.forall_mem_cons.1 hone
      rw [List.foldl_cons, he]
      exact ih hentries

/-! ## Entries of the map of a call -/

section Entries

variable {e : Item × Item} {key : Bytes}

/-- A key that is taken for that of the payload is none of the others. -/
theorem takeNamed_of_taken (hkey : e.1.text = some key) (h : TakenForPayload key)
    (call : RestoredCall) : takeNamed idFields call e = call := by
  rw [takeNamed_eq (Or.inl rfl) hkey, Option.isNone_iff_eq_none.1 h.1]

theorem readField_of_taken (h : TakenForPayload key) (call : RestoredCall) (p : Bytes) :
    readField idFields key call p = (mpNext p).map fun p => (call, p) := by
  rw [readField, Option.isNone_iff_eq_none.1 h.1]

/-- An entry of a map that the decoder goes into. -/
theorem readAs_inner_iff {e' : Item × Item} (hvalid : e'.1.Valid ∧ e'.2.Valid)
    (hstring : e'.1.text.isSome) :
    ReadAs payloadEntry (if key = payloadName then takeNamed payloadFields else takeNothing) e' ↔
      ∀ key', e'.1.text = some key' →
        if key = payloadName then NamedSound payloadFields key' e'.2
        else IdleSound payloadFields key' e'.2 := by
  obtain ⟨key', hkey'⟩ := Option.isSome_iff_exists.1 hstring
  simp only [ReadAs, payloadEntry_eq hvalid.1 hkey', hkey', Option.some.injEq, forall_eq']
  by_cases hname : key = payloadName
  · simp only [if_pos hname]
    exact readField_named_iff (Or.inr rfl) hvalid.2 hkey'
  · simp only [if_neg hname]
    exact readField_nothing_iff hvalid.2

/-- A small map that the decoder goes into, if its entries are read as they are meant. -/
theorem readAs_walked (hvalid : e.1.Valid ∧ e.2.Valid) (hkey : e.1.text = some key)
    (htaken : TakenForPayload key) {entries : List (Item × Item)} (hmap : e.2 = .fixmap entries)
    (hinner : ∀ e' ∈ entries, ReadAs payloadEntry
      (if key = payloadName then takeNamed payloadFields else takeNothing) e') :
    ReadAs callEntry takeField e := by
  intro call rest
  have hsmall : e.2.tag &&& 0xf0 = 0x80 := (tag_fixmap_iff hvalid.2).2 ⟨entries, hmap⟩
  have hpairs : e.2.pairs = some entries := by
    rw [hmap]
    rfl
  have htake : takeField call e = entries.foldl
      (if key = payloadName then takeNamed payloadFields else takeNothing) call := by
    unfold takeField
    rw [hkey]
    by_cases hname : key = payloadName
    · rw [if_pos (congrArg some hname), if_pos hname, hpairs]
    · rw [if_neg (mt Option.some.inj hname), if_neg hname, takeNamed_of_taken hkey htaken]
      exact (List.foldl_fixed' (fun _ => rfl) _).symm
  rw [callEntry_eq hvalid.1 hkey, if_pos ⟨htaken, hsmall⟩, mpDecodeMap_pairs hvalid.2 hpairs,
    Option.bind_some, htake]
  exact entriesLoop_items _ hinner call rest

/-- A value that the decoder skips, though the key is taken for that of the payload. -/
theorem readAs_skipped_iff (hvalid : e.1.Valid ∧ e.2.Valid) (hkey : e.1.text = some key)
    (htaken : TakenForPayload key) (hmap : ∀ entries, e.2 ≠ .fixmap entries)
    (hdistinct : ∀ entries, e.2.pairs = some entries → DistinctKeys entries) :
    ReadAs callEntry takeField e ↔ SkipsExactly e.2 ∧
      (key = payloadName → ∀ entries, e.2.pairs = some entries →
        ∀ e' ∈ entries, ∀ f ∈ payloadFields, e'.1.text = some f.name → f.slot.Void e'.2) := by
  have hlarge : ¬ (TakenForPayload key ∧ e.2.tag &&& 0xf0 = 0x80) := fun h => by
    obtain ⟨entries, hentries⟩ := (tag_fixmap_iff hvalid.2).1 h.2
    exact hmap entries hentries
  have hread : ReadAs callEntry takeField e ↔
      SkipsExactly e.2 ∧ ∀ call, takeField call e = call := by
    simp only [ReadAs, callEntry_eq hvalid.1 hkey, if_neg hlarge, readField_of_taken htaken,
      Option.map_eq_some_iff, Prod.mk.injEq]
    constructor
    · intro h
      refine ⟨fun rest => ?_, fun call => ?_⟩
      · obtain ⟨p, hskip, -, rfl⟩ := h .blank rest
        exact hskip
      · obtain ⟨p, -, htake, -⟩ := h call []
        exact htake.symm
    · rintro ⟨hskip, htake⟩ call rest
      exact ⟨rest, hskip rest, (htake call).symm, rfl⟩
  rw [hread, and_congr_right_iff]
  intro _
  unfold takeField
  rw [hkey]
  by_cases hname : key = payloadName
  · simp only [hname, if_true, forall_const]
    cases hpairs : e.2.pairs with
    | none => simp
    | some entries =>
      simp only [Option.some.injEq, forall_eq']
      exact foldl_takeNamed_eq_iff (hdistinct entries hpairs).nodup
  · simp only [if_neg (mt Option.some.inj hname), takeNamed_of_taken hkey htaken, hname,
      false_imp_iff, implies_true]

/-- **One entry.**  It is taken by its name exactly if it is sound. -/
theorem readByName_iff (hvalid : e.1.Valid ∧ e.2.Valid) (hstring : e.1.text.isSome)
    (hdistinct : ∀ entries, e.2.pairs = some entries → DistinctKeys entries) :
    ReadByName e ↔ FieldSound e := by
  obtain ⟨key, hkey⟩ := Option.isSome_iff_exists.1 hstring
  simp only [FieldSound, hkey, Option.some.injEq, forall_eq']
  by_cases htaken : TakenForPayload key
  · rw [if_pos htaken]
    by_cases hmap : ∃ entries, e.2 = .fixmap entries
    · obtain ⟨entries, hmap⟩ := hmap
      have hpairs : e.2.pairs = some entries := by
        rw [hmap]
        rfl
      have hentries := entriesValid_iff.1 (hvalid.2.pairs hpairs)
      have hstrings := (hdistinct entries hpairs).strings
      have hiff : (∀ e' ∈ entries, ReadAs payloadEntry
          (if key = payloadName then takeNamed payloadFields else takeNothing) e') ↔
            PayloadSound key e.2 := by
        unfold PayloadSound
        rw [or_iff_left fun h => h.1 entries hmap]
        constructor
        · intro h
          exact ⟨entries, hmap, fun e' he' =>
            (readAs_inner_iff (hentries e' he') (hstrings e' he')).1 (h e' he')⟩
        · rintro ⟨entries', hmap', h⟩ e' he'
          rw [hmap] at hmap'
          cases hmap'
          exact (readAs_inner_iff (hentries e' he') (hstrings e' he')).2 (h e' he')
      rw [← hiff]
      constructor
      · intro h
        exact h.inner key entries hkey htaken hmap
      · intro h
        refine ⟨readAs_walked hvalid hkey htaken hmap h, ?_⟩
        intro key' entries' hkey' _ hmap'
        rw [hkey] at hkey'
        rw [hmap] at hmap'
        cases hkey'
        cases hmap'
        exact h
    · have hother : ∀ entries, e.2 ≠ .fixmap entries := fun entries h => hmap ⟨entries, h⟩
      unfold PayloadSound
      rw [or_iff_right fun h => hmap (h.imp fun _ h => h.1), and_iff_right hother,
        ← readAs_skipped_iff hvalid hkey htaken hother hdistinct]
      exact ⟨fun h => h.own, fun h => ⟨h, fun _ entries _ _ h' => absurd h' (hother entries)⟩⟩
  · have hname : key ≠ payloadName := by
      rintro rfl
      exact htaken (by decide)
    have htake : ∀ call, takeField call e = takeNamed idFields call e := by
      intro call
      rw [takeField, hkey, if_neg (mt Option.some.inj hname)]
    rw [if_neg htaken, ← readField_named_iff (Or.inl rfl) hvalid.2 hkey]
    have hown : ReadAs callEntry takeField e ↔
        ∀ call rest, readField idFields key call (e.2.bytes ++ rest) =
          some (takeNamed idFields call e, rest) := by
      simp only [ReadAs, callEntry_eq hvalid.1 hkey, htaken, false_and, if_false, htake]
    rw [← hown]
    refine ⟨fun h => h.own, fun h => ⟨h, fun key' entries hkey' htaken' => ?_⟩⟩
    rw [hkey] at hkey'
    cases hkey'
    exact absurd htaken' htaken

end Entries

end RtpEngine

end VoipBackend
