import VoipBackend.Asterisk.ResConfig

/-!
# Arguments written as JSON

The text of a list of arguments, with nothing in a string escaped, against the decoder of
`Lib.Json`.  A text that may be cut off stands for the arguments only if all of them can be written
as they are and nothing was cut off (`decode_back`), and a text that lacks some of the fields never
does (`decode_broken`).
-/

namespace VoipBackend

open Library

namespace Asterisk

open Json hiding Value

/-! ## Arguments and their texts -/

/-- An argument. -/
inductive Arg where
  | str (s : Bytes)
  | int (z : ℤ)
  | fields (fs : List Variable)

/-- The members of an object. -/
def fieldValues (fs : List Variable) : List (Bytes × Json.Value) :=
  fs.map fun f => (f.name, .str f.value)

/-- What an argument stands for. -/
def Arg.value : Arg → Json.Value
  | .str s => .str s
  | .int z => .num z
  | .fields fs => .obj (fieldValues fs)

/-- All pieces of the fields. -/
def fieldsText : List Variable → Bytes
  | [] => []
  | f :: next => fieldPiece f next ++ fieldsText next

/-- The text of an argument. -/
def Arg.text : Arg → Bytes
  | .str s => quoted s
  | .int z => decimalInt z
  | .fields fs => ascii "\x7b" ++ fieldsText fs ++ ascii "\x7d"

/-- The texts of arguments, each with the comma behind it, and what comes behind them. -/
def leading : List Arg → Bytes → Bytes
  | [], rest => rest
  | a :: as, rest => a.text ++ (ascii ", " ++ leading as rest)

/-- The text of arguments. -/
def argsText (as : List Arg) : Bytes := ascii "[" ++ commas (as.map Arg.text) ++ ascii "]"

/-- What the arguments stand for. -/
def argsValue (as : List Arg) : Json.Value := .arr (as.map Arg.value)

/-- The argument can be written as it is. -/
def Arg.Plain : Arg → Prop
  | .str s => Json.Plain s
  | .int _ => True
  | .fields fs => (∀ f ∈ fs, Json.Plain f.name ∧ Json.Plain f.value) ∧ (fs.map Variable.name).Nodup

theorem argsText_concat (as : List Arg) (a : Arg) :
    argsText (as ++ [a]) = ascii "[" ++ leading as (a.text ++ ascii "]") := by
  have hcommas : commas ((as ++ [a]).map Arg.text) ++ ascii "]" =
      leading as (a.text ++ ascii "]") := by
    induction as with
    | nil => rfl
    | cons b as ih =>
      obtain ⟨c, cs, hcs⟩ := List.exists_cons_of_ne_nil (List.concat_ne_nil a as)
      rw [leading, ← ih, List.cons_append, hcs]
      simp [commas]
  rw [argsText, List.append_assoc, hcommas]

theorem quoted_eq (s : Bytes) : quoted s = 0x22 :: (s ++ [0x22]) := by
  simp [quoted, ascii]

theorem quoted_append (s rest : Bytes) : quoted s ++ rest = 0x22 :: (s ++ 0x22 :: rest) := by
  simp [quoted_eq]

/-! ## Between strings -/

theorem between_append {sep : Bytes} (hsep : ∀ c ∈ sep, c ≠ 0x22 ∧ c ≠ 0x5c) {rest : Bytes}
    (hrest : Between rest) : Between (sep ++ rest) := by
  induction sep with
  | nil => exact hrest
  | cons c sep ih =>
    obtain ⟨hc, hsep⟩ := List.forall_mem_cons.1 hsep
    exact .more hc (ih hsep)

theorem mem_decimalInt {z : ℤ} {c : UInt8} (hc : c ∈ decimalInt z) :
    isDigit c = true ∨ c = 0x2d := by
  rw [decimalInt] at hc
  split_ifs at hc
  · rcases List.mem_cons.1 hc with rfl | hc
    · exact Or.inr rfl
    · exact Or.inl (isDigit_decimal hc)
  · exact Or.inl (isDigit_decimal hc)

theorem decimalInt_between {z : ℤ} {c : UInt8} (hc : c ∈ decimalInt z) : c ≠ 0x22 ∧ c ≠ 0x5c := by
  rcases mem_decimalInt hc with hdigit | rfl
  · constructor <;> rintro rfl <;> cases hdigit
  · decide

theorem decimalInt_lt {z : ℤ} {c : UInt8} (hc : c ∈ decimalInt z) : c < 0x80 := by
  rcases mem_decimalInt hc with hdigit | rfl
  · simp only [isDigit, Bool.and_eq_true, decide_eq_true_eq] at hdigit
    exact lt_of_le_of_lt hdigit.2 (by decide)
  · decide

theorem fieldsText_cons (f : Variable) (next : List Variable) (rest : Bytes) :
    fieldsText (f :: next) ++ rest =
      quoted f.name ++ (ascii ":" ++ (quoted f.value ++ ((if next = [] then [] else ascii ",") ++
        (fieldsText next ++ rest)))) := by
  simp [fieldsText, fieldPiece]

/-- The text can come behind any byte between two strings. -/
def Follows (rest : Bytes) : Prop := ∀ c : UInt8, c ≠ 0x22 ∧ c ≠ 0x5c → Between (c :: rest)

theorem follows_quoted (s rest : Bytes) : Follows (quoted s ++ rest) := by
  intro c hc
  rw [quoted_append]
  exact .quote hc _

theorem follows_fieldsText (fs : List Variable) {rest : Bytes} (hrest : Between rest) :
    Follows (fieldsText fs ++ rest) := by
  cases fs with
  | nil =>
    intro c hc
    exact .more hc hrest
  | cons f next =>
    rw [fieldsText_cons]
    exact follows_quoted _ _

/-- Before an argument and behind it. -/
theorem follows_text (a : Arg) {rest : Bytes} (hrest : Between rest) :
    Follows (a.text ++ rest) := by
  cases a with
  | str s => exact follows_quoted s rest
  | int z =>
    intro c hc
    exact .more hc (between_append (fun c hc => decimalInt_between hc) hrest)
  | fields fs =>
    intro c hc
    have hbrace : Between (ascii "\x7d" ++ rest) := .more (by decide) hrest
    rw [Arg.text, List.append_assoc, List.append_assoc]
    exact .more hc (follows_fieldsText fs hbrace 0x7b (by decide))

theorem follows_leading (as : List Arg) {rest : Bytes} (hrest : Follows rest) :
    Follows (leading as rest) := by
  induction as with
  | nil => exact hrest
  | cons a as ih =>
    have hcomma : Between (ascii ", " ++ leading as rest) := .more (by decide) (ih 0x20 (by decide))
    exact follows_text a hcomma

/-! ## What is read back -/

/-- A string that is read back. -/
theorem value_str_back {fuel : ℕ} {s p r rest : Bytes} (hrest : Between rest)
    (hp : p <+: quoted s ++ rest) (h : value fuel p = some (.str s, r)) :
    Json.Plain s ∧ p = quoted s ++ r := by
  rw [quoted_append] at hp ⊢
  cases fuel with
  | zero => cases h
  | succ fuel =>
    cases p with
    | nil => cases h
    | cons c p =>
      obtain ⟨rfl, hp'⟩ := List.cons_prefix_cons.1 hp
      have hstring : (string p).map (fun q => (Json.Value.str q.1, q.2)) = some (.str s, r) := h
      obtain ⟨⟨s', r'⟩, hs, heq⟩ := Option.map_eq_some_iff.1 hstring
      cases heq
      obtain ⟨hplain, rfl⟩ := chars_back hrest hp' hs
      exact ⟨hplain, rfl⟩

theorem skipSpace_cons {c : UInt8} (hc : isSpace c = false) (p : Bytes) :
    skipSpace (c :: p) = c :: p := by
  simp [skipSpace, hc]

/-- What is left at a byte that is no space, or at the end of a text that is cut off there. -/
theorem skipSpace_cut {b : UInt8} (hb : isSpace b = false) {p q rest : Bytes}
    (hp : p <+: b :: rest) {c : UInt8} (h : skipSpace p = c :: q) :
    p = c :: q ∧ c = b ∧ q <+: rest := by
  cases p with
  | nil => cases h
  | cons d p =>
    obtain ⟨rfl, hp'⟩ := List.cons_prefix_cons.1 hp
    rw [skipSpace_cons hb] at h
    cases h
    exact ⟨rfl, rfl, hp'⟩

/-- The first member that is read back, and what comes behind it. -/
theorem member_back {fuel : ℕ} {name val p r rest : Bytes} {ms : List (Bytes × Json.Value)}
    (hrest : Between rest) (hp : p <+: quoted name ++ (ascii ":" ++ (quoted val ++ rest)))
    (h : members (fuel + 1) p = some ((name, .str val) :: ms, r)) :
    (Json.Plain name ∧ Json.Plain val) ∧ ∃ p',
      p = quoted name ++ (ascii ":" ++ (quoted val ++ p')) ∧ p' <+: rest ∧
      ((∃ q, skipSpace p' = 0x2c :: q ∧ members fuel q = some (ms, r)) ∨
        skipSpace p' = 0x7d :: r ∧ ms = []) := by
  have hcolon : Between (ascii ":" ++ (quoted val ++ rest)) := by
    rw [quoted_append]
    exact .quote (by decide) _
  obtain ⟨p₁, name', p₂, p₃, v, p₄, hp₁, hname, hp₃, hv, hend⟩ := members_eq_some h
  have hfirst : name' = name ∧ v = .str val := by
    rcases hend with ⟨q, ms', -, -, heq⟩ | ⟨-, heq⟩ <;> cases heq <;> exact ⟨rfl, rfl⟩
  obtain ⟨rfl, rfl⟩ := hfirst
  rw [quoted_append] at hp
  obtain ⟨rfl, -, hp₁'⟩ := skipSpace_cut (by decide) hp hp₁
  obtain ⟨hplain, rfl⟩ := chars_back hcolon hp₁' hname
  rw [List.prefix_append_right_inj, List.cons_prefix_cons] at hp₁'
  have hp₂ : p₂ <+: 0x3a :: (quoted val ++ rest) := hp₁'.2
  obtain ⟨rfl, -, hp₃'⟩ := skipSpace_cut (by decide) hp₂ hp₃
  obtain ⟨hplain', rfl⟩ := value_str_back hrest hp₃' hv
  rw [List.prefix_append_right_inj] at hp₃'
  refine ⟨⟨hplain, hplain'⟩, p₄, (quoted_append _ _).symm, hp₃', ?_⟩
  · rcases hend with ⟨q, ms', hq, hms, heq⟩ | ⟨hq, heq⟩
    · cases heq
      exact Or.inl ⟨q, hq, hms⟩
    · cases heq
      exact Or.inr ⟨hq, rfl⟩

/-- What comes behind a field. -/
theorem between_fields (next : List Variable) {rest : Bytes} (hrest : Between (0x7d :: rest)) :
    Between ((if next = [] then [] else ascii ",") ++ (fieldsText next ++ 0x7d :: rest)) := by
  cases next with
  | nil => exact hrest
  | cons f next => exact follows_fieldsText (f :: next) hrest 0x2c (by decide)

theorem names_fieldValues (fs : List Variable) :
    (fieldValues fs).map Prod.fst = fs.map Variable.name := by
  simp [fieldValues]

/-- All members that are read back. -/
theorem members_back {fs : List Variable} (hfs : fs ≠ []) {rest : Bytes}
    (hrest : Between (0x7d :: rest)) {fuel : ℕ} {p r : Bytes}
    (hp : p <+: fieldsText fs ++ 0x7d :: rest) (h : members fuel p = some (fieldValues fs, r)) :
    (∀ f ∈ fs, Json.Plain f.name ∧ Json.Plain f.value) ∧ p = fieldsText fs ++ 0x7d :: r := by
  induction fs generalizing fuel p with
  | nil => exact absurd rfl hfs
  | cons f next ih =>
    cases fuel with
    | zero => cases h
    | succ fuel =>
      rw [fieldsText_cons] at hp
      obtain ⟨hplain, p', rfl, hp', hend⟩ := member_back (between_fields next hrest) hp h
      rw [List.forall_mem_cons, fieldsText_cons]
      cases next with
      | nil =>
        rcases hend with ⟨q, hq, -⟩ | ⟨hq, -⟩
        · exact absurd (skipSpace_cut (by decide) hp' hq).2.1 (by decide)
        · obtain ⟨rfl, -, -⟩ := skipSpace_cut (by decide) hp' hq
          exact ⟨⟨hplain, by simp⟩, rfl⟩
      | cons g next =>
        have hcomma : p' <+: 0x2c :: (fieldsText (g :: next) ++ 0x7d :: rest) := hp'
        rcases hend with ⟨q, hq, hms⟩ | ⟨-, hms⟩
        · obtain ⟨rfl, -, hq'⟩ := skipSpace_cut (by decide) hcomma hq
          obtain ⟨hnext, rfl⟩ := ih (List.cons_ne_nil _ _) hq' hms
          exact ⟨⟨hplain, hnext⟩, rfl⟩
        · cases hms

/-- Fields with a comma behind each of them, where there should be another one. -/
def brokenText : List Variable → Bytes
  | [] => []
  | f :: next => quoted f.name ++ (ascii ":" ++ (quoted f.value ++ 0x2c :: brokenText next))

theorem follows_brokenText (fs : List Variable) {rest : Bytes} (hrest : Between rest) :
    Follows (brokenText fs ++ rest) := by
  cases fs with
  | nil =>
    intro c hc
    exact .more hc hrest
  | cons f next =>
    rw [brokenText, List.append_assoc]
    exact follows_quoted _ _

/-- An object that ends behind a comma is not read. -/
theorem members_broken {fs gs : List Variable} {rest : Bytes} (hrest : Between (0x7d :: rest))
    {fuel : ℕ} {p r : Bytes} (hp : p <+: brokenText fs ++ 0x7d :: rest) :
    members fuel p ≠ some (fieldValues (fs ++ gs), r) := by
  induction fs generalizing fuel p with
  | nil =>
    intro h
    cases fuel with
    | zero => cases h
    | succ fuel =>
      obtain ⟨p₁, -, -, -, -, -, hp₁, -⟩ := members_eq_some h
      exact absurd (skipSpace_cut (by decide) hp hp₁).2.1 (by decide)
  | cons f next ih =>
    intro h
    cases fuel with
    | zero => cases h
    | succ fuel =>
      have hbetween : Between (0x2c :: (brokenText next ++ 0x7d :: rest)) :=
        follows_brokenText next hrest 0x2c (by decide)
      have hp' : p <+: quoted f.name ++ (ascii ":" ++ (quoted f.value ++
          0x2c :: (brokenText next ++ 0x7d :: rest))) := by
        simpa [brokenText] using hp
      obtain ⟨-, p', rfl, hp'', hend⟩ := member_back hbetween hp' h
      rcases hend with ⟨q, hq, hms⟩ | ⟨hq, -⟩
      · obtain ⟨rfl, -, hq'⟩ := skipSpace_cut (by decide) hp'' hq
        exact ih hq' hms
      · exact absurd (skipSpace_cut (by decide) hp'' hq).2.1 (by decide)

/-- A number is read from its first byte on. -/
theorem value_number {c : UInt8} (hc : isDigit c = true ∨ c = 0x2d) (fuel : ℕ) (p : Bytes) :
    value (fuel + 1) (c :: p) = (number (c :: p)).map fun (q, p) => (.num q, p) := by
  have hne : ∀ b : UInt8, isDigit b = false → b ≠ 0x2d → c ≠ b := by
    rintro b hb hminus rfl
    rcases hc with hc | hc
    · rw [hb] at hc
      cases hc
    · exact hminus hc
  have hspace : isSpace c = false := by
    simp [isSpace, hne 0x20 rfl (by decide), hne 0x09 rfl (by decide), hne 0x0a rfl (by decide),
      hne 0x0d rfl (by decide)]
  rw [value, skipSpace_cons hspace]
  simp only [hne 0x22 rfl (by decide), hne 0x5b rfl (by decide), hne 0x7b rfl (by decide),
    hne 0x74 rfl (by decide), hne 0x66 rfl (by decide), hne 0x6e rfl (by decide), if_false]

theorem decimalInt_ne_nil (z : ℤ) : decimalInt z ≠ [] := by
  rw [decimalInt]
  split_ifs
  · exact List.cons_ne_nil _ _
  · exact decimal_ne_nil _

/-- A number that is read back, or is cut off with everything behind it. -/
theorem value_int_back {fuel : ℕ} {z : ℤ} {q : ℚ} {p r rest : Bytes} (hends : NumberEnds rest)
    (hp : p <+: decimalInt z ++ rest) (h : value fuel p = some (.num q, r)) :
    r = [] ∨ p = decimalInt z ++ r := by
  obtain ⟨c, ds, hds⟩ := List.exists_cons_of_ne_nil (decimalInt_ne_nil z)
  cases fuel with
  | zero => cases h
  | succ fuel =>
    cases p with
    | nil => cases h
    | cons b p =>
      have hb : b = c := by
        rw [hds, List.cons_append] at hp
        exact (List.cons_prefix_cons.1 hp).1
      have hmem : b ∈ decimalInt z := by
        rw [hb, hds]
        exact List.mem_cons_self
      rw [value_number (mem_decimalInt hmem)] at h
      obtain ⟨⟨q', r'⟩, hnum, heq⟩ := Option.map_eq_some_iff.1 h
      cases heq
      exact number_back hends hp hnum

/-- Fields that are read back. -/
theorem value_fields_back {fuel : ℕ} {fs : List Variable} {p r rest : Bytes}
    (hrest : Between (0x7d :: rest)) (hp : p <+: (Arg.fields fs).text ++ rest)
    (h : value fuel p = some ((Arg.fields fs).value, r)) :
    (Arg.fields fs).Plain ∧ p = (Arg.fields fs).text ++ r := by
  have htext : (Arg.fields fs).text ++ rest = 0x7b :: (fieldsText fs ++ 0x7d :: rest) := by
    simp [Arg.text, ascii]
  rw [htext] at hp
  cases fuel with
  | zero => cases h
  | succ fuel =>
    cases p with
    | nil => cases h
    | cons c p =>
      obtain ⟨rfl, hp'⟩ := List.cons_prefix_cons.1 hp
      have hwhole : ∀ q, (Arg.fields fs).text ++ q = 0x7b :: (fieldsText fs ++ 0x7d :: q) := by
        intro q
        simp [Arg.text, ascii]
      rcases value_object_eq_some h with ⟨hq, hnil⟩ | ⟨ms, hms, hnodup, heq⟩
      · have hfs : fs = [] := by simpa [Arg.value, fieldValues] using hnil
        subst hfs
        obtain ⟨rfl, -, -⟩ := skipSpace_cut (by decide) hp' hq
        exact ⟨⟨by simp, by simp⟩, rfl⟩
      · have hvalues : ms = fieldValues fs := by simpa [Arg.value, eq_comm] using heq
        subst hvalues
        cases fs with
        | nil =>
          cases fuel with
          | zero => cases hms
          | succ fuel =>
            obtain ⟨p₁, name, p₂, p₃, v, p₄, -, -, -, -, hend⟩ := members_eq_some hms
            rcases hend with ⟨q, ms', -, -, hnil⟩ | ⟨-, hnil⟩ <;> cases hnil
        | cons f next =>
          obtain ⟨hplain, rfl⟩ := members_back (List.cons_ne_nil _ _) hrest hp' hms
          have hnames : ((f :: next).map Variable.name).Nodup := by
            rwa [names_fieldValues] at hnodup
          exact ⟨⟨hplain, hnames⟩, (hwhole r).symm⟩

/-- An argument that is read back, or is cut off with everything behind it. -/
theorem value_back {fuel : ℕ} {a : Arg} {rest p r : Bytes} (hrest : Between rest)
    (hends : NumberEnds rest) (hp : p <+: a.text ++ rest)
    (h : value fuel p = some (a.value, r)) : r = [] ∨ a.Plain ∧ p = a.text ++ r := by
  cases a with
  | str s => exact Or.inr (value_str_back hrest hp h)
  | int z =>
    rcases value_int_back hends hp h with hr | heq
    · exact Or.inl hr
    · exact Or.inr ⟨trivial, heq⟩
  | fields fs => exact Or.inr (value_fields_back (.more (by decide) hrest) hp h)

/-- The first element that is read back, and what comes behind it. -/
theorem element_back {fuel : ℕ} {a : Arg} {rest p r : Bytes} {vs : List Json.Value}
    (hrest : Between rest) (hends : NumberEnds rest) (hp : p <+: a.text ++ rest)
    (h : elements (fuel + 1) p = some (a.value :: vs, r)) :
    a.Plain ∧ ∃ p', p = a.text ++ p' ∧ p' <+: rest ∧
      ((∃ q, skipSpace p' = 0x2c :: q ∧ elements fuel q = some (vs, r)) ∨
        skipSpace p' = 0x5d :: r ∧ vs = []) := by
  obtain ⟨v, p', hv, hend⟩ := elements_eq_some h
  have hfirst : v = a.value ∧ p' ≠ [] := by
    rcases hend with ⟨q, vs', hq, -, heq⟩ | ⟨hq, heq⟩
    · cases heq
      refine ⟨rfl, ?_⟩
      rintro rfl
      cases hq
    · cases heq
      refine ⟨rfl, ?_⟩
      rintro rfl
      cases hq
  obtain ⟨rfl, hne⟩ := hfirst
  rcases value_back hrest hends hp hv with hnil | ⟨hplain, rfl⟩
  · exact absurd hnil hne
  · rw [List.prefix_append_right_inj] at hp
    refine ⟨hplain, p', rfl, hp, ?_⟩
    rcases hend with ⟨q, vs', hq, hvs, heq⟩ | ⟨hq, heq⟩
    · cases heq
      exact Or.inl ⟨q, hq, hvs⟩
    · cases heq
      exact Or.inr ⟨hq, rfl⟩

/-- The arguments that are read back before the rest of the text. -/
theorem leading_back {as : List Arg} {rest : Bytes} (hrest : Follows rest) {fuel : ℕ} {p r : Bytes}
    {vs : List Json.Value} (hp : p <+: leading as rest)
    (h : elements fuel p = some (as.map Arg.value ++ vs, r)) :
    (∀ a ∈ as, a.Plain) ∧ ∃ q fuel', p = leading as q ∧ q <+: rest ∧
      elements fuel' q = some (vs, r) := by
  induction as generalizing fuel p with
  | nil => exact ⟨by simp, p, fuel, rfl, hp, h⟩
  | cons a as ih =>
    cases fuel with
    | zero => cases h
    | succ fuel =>
      have hspace : Between (0x20 :: leading as rest) := follows_leading as hrest 0x20 (by decide)
      have hcomma : Between (0x2c :: 0x20 :: leading as rest) := .more (by decide) hspace
      have hends : NumberEnds (0x2c :: 0x20 :: leading as rest) := by
        intro c hc
        cases hc
        decide
      have hp' : p <+: a.text ++ 0x2c :: 0x20 :: leading as rest := hp
      obtain ⟨hplain, p', rfl, hcut, hend⟩ := element_back hcomma hends hp' h
      rcases hend with ⟨q, hq, hnext⟩ | ⟨hq, -⟩
      · obtain ⟨rfl, -, hqcut⟩ := skipSpace_cut (by decide) hcut hq
        cases q with
        | nil =>
          cases fuel with
          | zero => cases hnext
          | succ fuel =>
            obtain ⟨v, p', hv, -⟩ := elements_eq_some hnext
            cases fuel <;> cases hv
        | cons c q =>
          obtain ⟨rfl, hrestcut⟩ := List.cons_prefix_cons.1 hqcut
          rw [elements_space] at hnext
          obtain ⟨hall, q', fuel', rfl, hlast, hvs'⟩ := ih hrestcut hnext
          exact ⟨List.forall_mem_cons.2 ⟨hplain, hall⟩, q', fuel', rfl, hlast, hvs'⟩
      · exact absurd (skipSpace_cut (by decide) hcut hq).2.1 (by decide)

/-- All arguments that are read back: nothing was cut off, and there are no others. -/
theorem elements_back {as : List Arg} {a : Arg} {fuel : ℕ} {p r : Bytes} {vs : List Json.Value}
    (hp : p <+: leading as (a.text ++ ascii "]"))
    (h : elements fuel p = some (as.map Arg.value ++ a.value :: vs, r)) :
    (∀ b ∈ as, b.Plain) ∧ a.Plain ∧ p = leading as (a.text ++ ascii "]") ∧ vs = [] := by
  have hbracket : Between (ascii "]") := .last (by decide)
  obtain ⟨hall, q, fuel', rfl, hq, hlast⟩ := leading_back (follows_text a hbracket) hp h
  cases fuel' with
  | zero => cases hlast
  | succ fuel' =>
    have hends : NumberEnds (ascii "]") := by
      intro c hc
      cases hc
      decide
    obtain ⟨hplain, p', rfl, hcut, hend⟩ := element_back hbracket hends hq hlast
    have hcut' : p' <+: 0x5d :: [] := hcut
    rcases hend with ⟨q, hcomma, -⟩ | ⟨hclose, hnil⟩
    · exact absurd (skipSpace_cut (by decide) hcut' hcomma).2.1 (by decide)
    · obtain ⟨rfl, -, hr⟩ := skipSpace_cut (by decide) hcut' hclose
      rw [List.prefix_nil.1 hr]
      exact ⟨hall, hplain, rfl, hnil⟩

/-- Fields some of which are left out are not read back. -/
theorem elements_broken {as : List Arg} {gs hs : List Variable} (hhs : hs ≠ []) {rest : Bytes}
    (hrest : Between (0x7d :: rest)) {fuel : ℕ} {p r : Bytes} {vs : List Json.Value}
    (hp : p <+: leading as (0x7b :: (brokenText gs ++ 0x7d :: rest))) :
    elements fuel p ≠ some (as.map Arg.value ++ (Arg.fields (gs ++ hs)).value :: vs, r) := by
  intro h
  have hfollows : Follows (0x7b :: (brokenText gs ++ 0x7d :: rest)) := by
    intro c hc
    exact .more hc (follows_brokenText gs hrest 0x7b (by decide))
  obtain ⟨-, q, fuel', -, hq, hlast⟩ := leading_back hfollows hp h
  cases fuel' with
  | zero => cases hlast
  | succ fuel' =>
    obtain ⟨v, p', hv, hend⟩ := elements_eq_some hlast
    have hfirst : v = (Arg.fields (gs ++ hs)).value := by
      rcases hend with ⟨_, _, -, -, heq⟩ | ⟨-, heq⟩ <;> cases heq <;> rfl
    subst hfirst
    cases fuel' with
    | zero => cases hv
    | succ fuel' =>
      cases q with
      | nil => cases hv
      | cons c q =>
        obtain ⟨rfl, hq'⟩ := List.cons_prefix_cons.1 hq
        rcases value_object_eq_some hv with ⟨-, hnil⟩ | ⟨ms, hms, -, heq⟩
        · have hnone : gs = [] ∧ hs = [] := by simpa [Arg.value, fieldValues] using hnil
          exact hhs hnone.2
        · have hvalues : ms = fieldValues (gs ++ hs) := by simpa [Arg.value, eq_comm] using heq
          subst hvalues
          exact members_broken hrest hq' hms

/-! ## Arguments that are read -/

/-- A field, and a comma or the closing brace. -/
theorem members_field {f : Variable} (hf : Json.Plain f.name ∧ Json.Plain f.value) {fuel : ℕ}
    (p : Bytes) : members (fuel + 2) (quoted f.name ++ (ascii ":" ++ (quoted f.value ++ p))) =
      match skipSpace p with
      | 0x2c :: p => (members (fuel + 1) p).map fun (ms, p) => ((f.name, .str f.value) :: ms, p)
      | 0x7d :: p => some ([(f.name, .str f.value)], p)
      | _ => none := by
  have hvalue : value (fuel + 1) (quoted f.value ++ p) = some (.str f.value, p) := by
    rw [quoted_append]
    show (string _).map _ = _
    rw [string_plain hf.2]
    rfl
  rw [quoted_append]
  exact members_of_member (skipSpace_cons (by decide) _) (string_plain hf.1 _)
    (skipSpace_cons (by decide) _) hvalue

/-- Fields that can be written as they are are read. -/
theorem members_plain {fs : List Variable} (hfs : fs ≠ [])
    (hplain : ∀ f ∈ fs, Json.Plain f.name ∧ Json.Plain f.value) (rest : Bytes) {fuel : ℕ}
    (hfuel : fs.length < fuel) :
    members fuel (fieldsText fs ++ 0x7d :: rest) = some (fieldValues fs, rest) := by
  induction fs generalizing fuel with
  | nil => exact absurd rfl hfs
  | cons f next ih =>
    obtain ⟨hf, hnext⟩ := List.forall_mem_cons.1 hplain
    rw [List.length_cons] at hfuel
    obtain ⟨fuel, rfl⟩ : ∃ n, fuel = n + 2 := ⟨fuel - 2, by omega⟩
    rw [fieldsText_cons, members_field hf]
    cases next with
    | nil => rfl
    | cons g next =>
      show (members (fuel + 1) (fieldsText (g :: next) ++ 0x7d :: rest)).map _ = _
      rw [ih (List.cons_ne_nil _ _) hnext (by omega)]
      rfl

/-- The fuel an argument needs. -/
def Arg.depth : Arg → ℕ
  | .fields fs => fs.length + 2
  | _ => 1

theorem Arg.depth_pos (a : Arg) : 0 < a.depth := by
  cases a <;> simp [Arg.depth]

/-- An argument that can be written as it is is read. -/
theorem value_plain {a : Arg} (ha : a.Plain) {rest : Bytes} (hends : NumberEnds rest) {fuel : ℕ}
    (hfuel : a.depth ≤ fuel) : value fuel (a.text ++ rest) = some (a.value, rest) := by
  obtain ⟨fuel, rfl⟩ : ∃ n, fuel = n + 1 := ⟨fuel - 1, by have := a.depth_pos; omega⟩
  cases a with
  | str s =>
    rw [Arg.text, quoted_append]
    show (string _).map _ = _
    rw [string_plain ha]
    rfl
  | int z =>
    obtain ⟨c, ds, hds⟩ := List.exists_cons_of_ne_nil (decimalInt_ne_nil z)
    have hnumber := number_decimalInt z hends
    rw [Arg.text]
    rw [hds, List.cons_append] at hnumber ⊢
    rw [value_number (mem_decimalInt (by rw [hds]; exact List.mem_cons_self)), hnumber]
    rfl
  | fields fs =>
    have htext : (Arg.fields fs).text ++ rest = 0x7b :: (fieldsText fs ++ 0x7d :: rest) := by
      simp [Arg.text, ascii]
    rw [htext]
    cases fs with
    | nil => rfl
    | cons f next =>
      have hmembers := members_plain (List.cons_ne_nil f next) ha.1 rest
        (Nat.lt_of_succ_le (Nat.le_of_succ_le_succ hfuel))
      exact value_object_of_members hmembers (by rw [names_fieldValues]; exact ha.2)

/-- Arguments that can be written as they are are read. -/
theorem elements_plain {as : List Arg} {a : Arg} (has : ∀ b ∈ as, b.Plain) (ha : a.Plain)
    {fuel : ℕ} (hfuel : ∀ b ∈ as ++ [a], as.length + b.depth < fuel) :
    elements fuel (leading as (a.text ++ ascii "]")) = some ((as ++ [a]).map Arg.value, []) := by
  induction as generalizing fuel with
  | nil =>
    have hdepth : [].length + a.depth < fuel := hfuel a (by simp)
    obtain ⟨fuel, rfl⟩ : ∃ n, fuel = n + 1 := ⟨fuel - 1, by omega⟩
    have hends : NumberEnds (ascii "]") := by
      intro c hc
      cases hc
      decide
    have hvalue : value fuel (a.text ++ ascii "]") = some (a.value, ascii "]") :=
      value_plain ha hends (by simpa using hdepth)
    rw [leading, elements_of_value hvalue]
    rfl
  | cons b as ih =>
    obtain ⟨hb, has⟩ := List.forall_mem_cons.1 has
    have hdepth : (b :: as).length + b.depth < fuel := hfuel b (by simp)
    rw [List.length_cons] at hdepth
    obtain ⟨fuel, rfl⟩ : ∃ n, fuel = n + 1 := ⟨fuel - 1, by omega⟩
    have hends : NumberEnds (ascii ", " ++ leading as (a.text ++ ascii "]")) := by
      intro c hc
      cases hc
      decide
    have hvalue : value fuel (b.text ++ (ascii ", " ++ leading as (a.text ++ ascii "]"))) =
        some (b.value, ascii ", " ++ leading as (a.text ++ ascii "]")) :=
      value_plain hb hends (by omega)
    have hnext : ∀ b ∈ as ++ [a], as.length + b.depth < fuel := by
      intro b' hb'
      have h := hfuel b' (List.mem_cons_of_mem _ hb')
      rw [List.length_cons] at h
      omega
    rw [leading, elements_of_value hvalue]
    show (elements fuel (0x20 :: leading as (a.text ++ ascii "]"))).map _ = _
    rw [elements_space, ih has hnext]
    rfl

/-! ## The fuel is enough -/

theorem length_fieldsText (fs : List Variable) : fs.length ≤ (fieldsText fs).length := by
  induction fs with
  | nil => exact Nat.zero_le _
  | cons f next ih =>
    have hpiece : 0 < (fieldPiece f next).length := by simp [fieldPiece, quoted_eq]
    rw [fieldsText, List.length_append, List.length_cons]
    omega

theorem Arg.depth_le (a : Arg) : a.depth ≤ a.text.length := by
  cases a with
  | str s => simp [Arg.depth, Arg.text, quoted_eq]
  | int z => exact List.length_pos_of_ne_nil (decimalInt_ne_nil z)
  | fields fs =>
    have hlen := length_fieldsText fs
    simp only [Arg.depth, Arg.text, List.length_append]
    show fs.length + 2 ≤ 1 + (fieldsText fs).length + 1
    omega

theorem length_leading (as : List Arg) (rest : Bytes) :
    as.length + rest.length ≤ (leading as rest).length ∧
      ∀ b ∈ as, as.length + b.text.length ≤ (leading as rest).length := by
  induction as with
  | nil => simp [leading]
  | cons a as ih =>
    obtain ⟨hrest, hmem⟩ := ih
    have hcomma : (ascii ", ").length = 2 := rfl
    simp only [leading, List.length_append, List.length_cons, hcomma, List.forall_mem_cons]
    refine ⟨by omega, by omega, ?_⟩
    intro b hb
    have hlen := hmem b hb
    omega

theorem depth_argsText {as : List Arg} {a b : Arg} (hb : b ∈ as ++ [a]) :
    as.length + b.depth ≤ (leading as (a.text ++ ascii "]")).length := by
  obtain ⟨hrest, hmem⟩ := length_leading as (a.text ++ ascii "]")
  have hdepth := b.depth_le
  rw [List.length_append] at hrest
  rcases List.mem_append.1 hb with hb | hb
  · have hlen := hmem b hb
    omega
  · rw [List.mem_singleton.1 hb] at hdepth ⊢
    omega

/-! ## Characters -/

/-- The strings of an argument are strings of characters. -/
def Arg.utf8 : Arg → Bool
  | .str s => Json.utf8 s
  | .int _ => true
  | .fields fs => fs.all fun f => Json.utf8 f.name && Json.utf8 f.value

theorem utf8_quoted (s rest : Bytes) :
    Json.utf8 (quoted s ++ rest) = (Json.utf8 s && Json.utf8 rest) := by
  have hquote : ∀ c ∈ [0x22], c < (0x80 : UInt8) := by decide +kernel
  rw [quoted_append]
  exact (utf8_ascii hquote _).trans (utf8_append (by decide) s rest)

theorem utf8_fieldsText (fs : List Variable) (rest : Bytes) :
    Json.utf8 (fieldsText fs ++ rest) = ((Arg.fields fs).utf8 && Json.utf8 rest) := by
  induction fs with
  | nil => rfl
  | cons f next ih =>
    have hcolon : ∀ c ∈ ascii ":", c < 0x80 := by decide +kernel
    have hcomma : ∀ c ∈ (if next = [] then [] else ascii ","), c < (0x80 : UInt8) := by
      split_ifs
      · simp
      · decide +kernel
    rw [fieldsText_cons, utf8_quoted, utf8_ascii hcolon, utf8_quoted, utf8_ascii hcomma, ih]
    simp [Arg.utf8, Bool.and_assoc]

theorem utf8_text (a : Arg) (rest : Bytes) :
    Json.utf8 (a.text ++ rest) = (a.utf8 && Json.utf8 rest) := by
  cases a with
  | str s => exact utf8_quoted s rest
  | int z => exact utf8_ascii (fun c hc => decimalInt_lt hc) rest
  | fields fs =>
    have hopen : ∀ c ∈ ascii "\x7b", c < 0x80 := by decide +kernel
    have hclose : ∀ c ∈ ascii "\x7d", c < 0x80 := by decide +kernel
    rw [Arg.text, List.append_assoc, List.append_assoc, utf8_ascii hopen, utf8_fieldsText,
      utf8_ascii hclose]

theorem utf8_argsText (as : List Arg) (a : Arg) :
    Json.utf8 (argsText (as ++ [a])) = (as ++ [a]).all Arg.utf8 := by
  have hopen : ∀ c ∈ ascii "[", c < 0x80 := by decide +kernel
  rw [argsText_concat, utf8_ascii hopen]
  induction as with
  | nil =>
    have hclose : Json.utf8 (ascii "]") = true := by decide +kernel
    rw [leading, utf8_text, hclose]
    simp
  | cons b as ih =>
    have hcomma : ∀ c ∈ ascii ", ", c < 0x80 := by decide +kernel
    rw [leading, utf8_text, utf8_ascii hcomma, ih]
    rfl

/-! ## Whole texts -/

/-- The text of an argument stands for it. -/
def Arg.Kept (a : Arg) : Prop := a.Plain ∧ a.utf8 = true

/-- The text of arguments is decoded if all of them can be written as they are. -/
theorem decode_argsText {as : List Arg} {a : Arg} (h : ∀ b ∈ as ++ [a], b.Kept) :
    decode (argsText (as ++ [a])) = some (argsValue (as ++ [a])) := by
  have hutf : Json.utf8 (argsText (as ++ [a])) = true := by
    rw [utf8_argsText, List.all_eq_true]
    exact fun b hb => (h b hb).2
  have helements : elements (2 * (argsText (as ++ [a])).length + 1)
      (leading as (a.text ++ ascii "]")) = some ((as ++ [a]).map Arg.value, []) := by
    refine elements_plain (fun b hb => (h b (List.mem_append_left _ hb)).1)
      (h a (by simp)).1 ?_
    intro b hb
    have hdepth := depth_argsText hb
    simp only [argsText_concat, List.length_append] at hdepth ⊢
    omega
  have hvalue : value (2 * (argsText (as ++ [a])).length + 2)
      (ascii "[" ++ leading as (a.text ++ ascii "]")) = some (argsValue (as ++ [a]), []) :=
    value_array_of_elements helements
  rw [← argsText_concat] at hvalue
  rw [decode, if_pos hutf, hvalue]
  rfl

/-- The elements of an array of arguments. -/
theorem elements_of_decode {as : List Arg} (has : as ≠ []) {p rest : Bytes}
    (hp : p <+: ascii "[" ++ rest) (h : decode p = some (argsValue as)) :
    ∃ q fuel r, p = ascii "[" ++ q ∧ q <+: rest ∧ elements fuel q = some (as.map Arg.value, r) := by
  obtain ⟨-, r, hvalue, -⟩ := decode_eq_some h
  cases p with
  | nil => cases hvalue
  | cons c q =>
    obtain ⟨rfl, hq⟩ := List.cons_prefix_cons.1 hp
    rcases value_array_eq_some hvalue with ⟨-, hnil⟩ | ⟨vs, hvs, heq⟩
    · exact absurd (by simpa [argsValue] using hnil) has
    · have hvalues : vs = as.map Arg.value := by simpa [argsValue, eq_comm] using heq
      subst hvalues
      exact ⟨q, _, r, rfl, hq, hvs⟩

/-- What is decoded of a text of arguments that may be cut off: the arguments only if all of them
can be written as they are and nothing was cut off. -/
theorem decode_back {as : List Arg} {a : Arg} {more : List Arg} {p : Bytes}
    (hp : p <+: argsText (as ++ [a])) (h : decode p = some (argsValue (as ++ a :: more))) :
    (∀ b ∈ as ++ [a], b.Kept) ∧ p = argsText (as ++ [a]) ∧ more = [] := by
  have hutf := (decode_eq_some h).1
  rw [argsText_concat] at hp ⊢
  obtain ⟨q, fuel, r, rfl, hq, helements⟩ := elements_of_decode (by simp) hp h
  rw [List.map_append, List.map_cons] at helements
  obtain ⟨has, ha, rfl, hmore⟩ := elements_back hq helements
  rw [← argsText_concat, utf8_argsText] at hutf
  refine ⟨?_, rfl, List.map_eq_nil_iff.1 hmore⟩
  intro b hb
  refine ⟨?_, List.all_eq_true.1 hutf b hb⟩
  rcases List.mem_append.1 hb with hb | hb
  · exact has b hb
  · rw [List.mem_singleton.1 hb]
    exact ha

/-- What is decoded of a text without some of the fields. -/
theorem decode_broken {as : List Arg} {gs hs : List Variable} (hhs : hs ≠ []) {more : List Arg}
    {rest p : Bytes} (hrest : Between (0x7d :: rest))
    (hp : p <+: ascii "[" ++ leading as (0x7b :: (brokenText gs ++ 0x7d :: rest))) :
    decode p ≠ some (argsValue (as ++ Arg.fields (gs ++ hs) :: more)) := by
  intro h
  obtain ⟨q, fuel, r, rfl, hq, helements⟩ := elements_of_decode (by simp) hp h
  rw [List.map_append, List.map_cons] at helements
  exact elements_broken hhs hrest hq helements

end Asterisk

end VoipBackend
