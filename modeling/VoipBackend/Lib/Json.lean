import VoipBackend.Lib.Bytes

/-!
# JSON

A decoder of JSON texts, as RFC 8259 has them, independent of any program that writes them.  A
text is a string of bytes in UTF-8 (`utf8`).  Strings are decoded to their bytes, numbers to
rationals.  An object whose names are not all different is not decoded: the standard leaves open
what it stands for.

A string is often written between quotes as it is.  `chars_back` says when that is right: if what is
read back from such a text is the string, then the string is `Plain`, and exactly its text was
read, also where the text may be cut off behind it.
-/

namespace Library

namespace Json

/-- A value. -/
inductive Value where
  | null
  | bool (b : Bool)
  | num (q : ℚ)
  | str (s : Bytes)
  | arr (vs : List Value)
  | obj (members : List (Bytes × Value))

/-! ## UTF-8 -/

/-- The ranges of the bytes behind the first byte of a character of several bytes. -/
def dueBytes (b : UInt8) : Option (List (UInt8 × UInt8)) :=
  if 0xc2 ≤ b ∧ b ≤ 0xdf then some [(0x80, 0xbf)]
  else if b = 0xe0 then some [(0xa0, 0xbf), (0x80, 0xbf)]
  else if b = 0xed then some [(0x80, 0x9f), (0x80, 0xbf)]
  else if 0xe1 ≤ b ∧ b ≤ 0xef then some [(0x80, 0xbf), (0x80, 0xbf)]
  else if b = 0xf0 then some [(0x90, 0xbf), (0x80, 0xbf), (0x80, 0xbf)]
  else if 0xf1 ≤ b ∧ b ≤ 0xf3 then some [(0x80, 0xbf), (0x80, 0xbf), (0x80, 0xbf)]
  else if b = 0xf4 then some [(0x80, 0x8f), (0x80, 0xbf), (0x80, 0xbf)]
  else none

/-- These bytes are the rest of a character, then whole characters. -/
def utf8From : List (UInt8 × UInt8) → Bytes → Bool
  | [], [] => true
  | _ :: _, [] => false
  | (lo, hi) :: due, b :: s => decide (lo ≤ b ∧ b ≤ hi) && utf8From due s
  | [], b :: s =>
      if b < 0x80 then utf8From [] s
      else
        match dueBytes b with
        | some due => utf8From due s
        | none => false

/-- The bytes are a string of characters in UTF-8. -/
def utf8 (s : Bytes) : Bool := utf8From [] s

/-! ## Strings -/

/-- The value of a hexadecimal digit. -/
def hexValue (c : UInt8) : Option ℕ :=
  if 0x30 ≤ c ∧ c ≤ 0x39 then some (c.toNat - 0x30)
  else if 0x41 ≤ c ∧ c ≤ 0x46 then some (c.toNat - 0x37)
  else if 0x61 ≤ c ∧ c ≤ 0x66 then some (c.toNat - 0x57)
  else none

/-- Four hexadecimal digits. -/
def hex4 : Bytes → Option (ℕ × Bytes)
  | a :: b :: c :: d :: p => do
      let a ← hexValue a
      let b ← hexValue b
      let c ← hexValue c
      let d ← hexValue d
      some (((a * 16 + b) * 16 + c) * 16 + d, p)
  | _ => none

/-- The bytes of a character. -/
def charBytes (n : ℕ) : Bytes := String.utf8EncodeChar (Char.ofNat n)

/-- A character by its number behind `\u`, in two halves if it needs more than 16 bits. -/
def unicode (p : Bytes) : Option (Bytes × Bytes) := do
  let (hi, p) ← hex4 p
  if hi < 0xd800 ∨ 0xe000 ≤ hi then some (charBytes hi, p)
  else if 0xdc00 ≤ hi then none
  else
    match p with
    | 0x5c :: 0x75 :: p => do
        let (lo, p) ← hex4 p
        if 0xdc00 ≤ lo ∧ lo < 0xe000 then
          some (charBytes (0x10000 + (hi - 0xd800) * 0x400 + (lo - 0xdc00)), p)
        else none
    | _ => none

/-- The character behind a backslash that stands for a single byte. -/
def shortEscape (c : UInt8) : Option UInt8 :=
  if c = 0x22 ∨ c = 0x5c ∨ c = 0x2f then some c
  else if c = 0x62 then some 0x08
  else if c = 0x66 then some 0x0c
  else if c = 0x6e then some 0x0a
  else if c = 0x72 then some 0x0d
  else if c = 0x74 then some 0x09
  else none

/-- What is behind a backslash. -/
def escape : Bytes → Option (Bytes × Bytes)
  | [] => none
  | c :: p => if c = 0x75 then unicode p else (shortEscape c).map fun b => ([b], p)

/-- The characters of a string up to the closing quote. -/
def chars : ℕ → Bytes → Option (Bytes × Bytes)
  | 0, _ => none
  | _ + 1, [] => none
  | fuel + 1, c :: p =>
      if c = 0x22 then some ([], p)
      else if c = 0x5c then do
        let (x, p) ← escape p
        let (s, p) ← chars fuel p
        some (x ++ s, p)
      else if c < 0x20 then none
      else do
        let (s, p) ← chars fuel p
        some (c :: s, p)

/-- A string, behind its opening quote. -/
def string (p : Bytes) : Option (Bytes × Bytes) := chars p.length p

/-! ## Numbers -/

def isDigit (c : UInt8) : Bool := 0x30 ≤ c && c ≤ 0x39

/-- The number these digits stand for. -/
def ofDecimal (ds : Bytes) : ℕ := ds.foldl (fun n c => n * 10 + (c.toNat - 0x30)) 0

/-- At least one digit. -/
def digits (p : Bytes) : Option (Bytes × Bytes) :=
  let ds := p.takeWhile isDigit
  if ds = [] then none else some (ds, p.dropWhile isDigit)

/-- The digits behind the point, if there is one. -/
def fraction : Bytes → Option (Bytes × Bytes)
  | 0x2e :: p => digits p
  | p => some ([], p)

/-- The power of ten, if there is one. -/
def exponent : Bytes → Option (ℤ × Bytes)
  | c :: p =>
      if c = 0x65 ∨ c = 0x45 then
        match p with
        | 0x2d :: p => (digits p).map fun (ds, p) => (-(ofDecimal ds : ℤ), p)
        | 0x2b :: p => (digits p).map fun (ds, p) => ((ofDecimal ds : ℤ), p)
        | p => (digits p).map fun (ds, p) => ((ofDecimal ds : ℤ), p)
      else some (0, c :: p)
  | [] => some (0, [])

/-- A number without its sign. -/
def unsigned (p : Bytes) : Option (ℚ × Bytes) := do
  let (int, p) ← digits p
  if int.head? = some 0x30 ∧ 1 < int.length then none
  else
    let (frac, p) ← fraction p
    let (exp, p) ← exponent p
    some (ofDecimal (int ++ frac) / 10 ^ frac.length * (10 : ℚ) ^ exp, p)

/-- A number. -/
def number : Bytes → Option (ℚ × Bytes)
  | 0x2d :: p => (unsigned p).map fun (q, p) => (-q, p)
  | p => unsigned p

/-! ## Values -/

def isSpace (c : UInt8) : Bool := c = 0x20 || c = 0x09 || c = 0x0a || c = 0x0d

/-- The text behind white space. -/
def skipSpace (p : Bytes) : Bytes := p.dropWhile isSpace

/-- A word, by its letters behind the first one. -/
def word (letters : Bytes) (v : Value) (p : Bytes) : Option (Value × Bytes) :=
  if letters.isPrefixOf p then some (v, p.drop letters.length) else none

mutual

/-- A value, nested up to so many times. -/
def value : ℕ → Bytes → Option (Value × Bytes)
  | 0, _ => none
  | fuel + 1, p =>
      match skipSpace p with
      | [] => none
      | c :: p =>
          if c = 0x22 then (string p).map fun (s, p) => (.str s, p)
          else if c = 0x5b then
            match skipSpace p with
            | 0x5d :: p => some (.arr [], p)
            | _ => (elements fuel p).map fun (vs, p) => (.arr vs, p)
          else if c = 0x7b then
            match skipSpace p with
            | 0x7d :: p => some (.obj [], p)
            | _ => do
                let (ms, p) ← members fuel p
                if (ms.map Prod.fst).Nodup then some (.obj ms, p) else none
          else if c = 0x74 then word (ascii "rue") (.bool true) p
          else if c = 0x66 then word (ascii "alse") (.bool false) p
          else if c = 0x6e then word (ascii "ull") .null p
          else (number (c :: p)).map fun (q, p) => (.num q, p)

/-- The elements of an array, up to its closing bracket. -/
def elements : ℕ → Bytes → Option (List Value × Bytes)
  | 0, _ => none
  | fuel + 1, p => do
      let (v, p) ← value fuel p
      match skipSpace p with
      | 0x2c :: p => (elements fuel p).map fun (vs, p) => (v :: vs, p)
      | 0x5d :: p => some ([v], p)
      | _ => none

/-- The members of an object, up to its closing brace. -/
def members : ℕ → Bytes → Option (List (Bytes × Value) × Bytes)
  | 0, _ => none
  | fuel + 1, p =>
      match skipSpace p with
      | 0x22 :: p => do
          let (name, p) ← string p
          match skipSpace p with
          | 0x3a :: p => do
              let (v, p) ← value fuel p
              match skipSpace p with
              | 0x2c :: p => (members fuel p).map fun (ms, p) => ((name, v) :: ms, p)
              | 0x7d :: p => some ([(name, v)], p)
              | _ => none
          | _ => none
      | _ => none

end

/-- The value of a text. -/
def decode (s : Bytes) : Option Value :=
  if utf8 s then
    match value (2 * s.length + 2) s with
    | some (v, p) => if skipSpace p = [] then some v else none
    | none => none
  else none

-- A text with all kinds of values, white space and escapes.
example :
    (decode (ascii "[ -12.5e1, \"a\\u00e9\\n\", \x7b\"k\" :\ttrue\x7d, [ ], null ]")).isSome := by
  decide +kernel

/-! ## One element, one member -/

/-- An element, and a comma or the closing bracket. -/
theorem elements_eq_some {fuel : ℕ} {p r : Bytes} {vs : List Value}
    (h : elements (fuel + 1) p = some (vs, r)) :
    ∃ v p', value fuel p = some (v, p') ∧
      ((∃ q vs', skipSpace p' = 0x2c :: q ∧ elements fuel q = some (vs', r) ∧ vs = v :: vs') ∨
        skipSpace p' = 0x5d :: r ∧ vs = [v]) := by
  rw [elements] at h
  simp only [Option.bind_eq_bind, Option.bind_eq_some_iff] at h
  obtain ⟨⟨v, p'⟩, hv, h⟩ := h
  refine ⟨v, p', hv, ?_⟩
  simp only at h
  split at h
  · rename_i q hq
    obtain ⟨⟨vs', r'⟩, hvs, heq⟩ := Option.map_eq_some_iff.1 h
    cases heq
    exact Or.inl ⟨q, vs', hq, hvs, rfl⟩
  · rename_i q hq
    cases h
    exact Or.inr ⟨hq, rfl⟩
  · cases h

/-- A name, a colon, a value, and a comma or the closing brace. -/
theorem members_eq_some {fuel : ℕ} {p r : Bytes} {ms : List (Bytes × Value)}
    (h : members (fuel + 1) p = some (ms, r)) :
    ∃ p₁ name p₂ p₃ v p₄, skipSpace p = 0x22 :: p₁ ∧ string p₁ = some (name, p₂) ∧
      skipSpace p₂ = 0x3a :: p₃ ∧ value fuel p₃ = some (v, p₄) ∧
      ((∃ q ms', skipSpace p₄ = 0x2c :: q ∧ members fuel q = some (ms', r) ∧
        ms = (name, v) :: ms') ∨ skipSpace p₄ = 0x7d :: r ∧ ms = [(name, v)]) := by
  rw [members] at h
  split at h
  · rename_i p₁ hp₁
    simp only [Option.bind_eq_bind, Option.bind_eq_some_iff] at h
    obtain ⟨⟨name, p₂⟩, hname, h⟩ := h
    simp only at h
    split at h
    · rename_i p₃ hp₃
      simp only [Option.bind_eq_some_iff] at h
      obtain ⟨⟨v, p₄⟩, hv, h⟩ := h
      refine ⟨p₁, name, p₂, p₃, v, p₄, hp₁, hname, hp₃, hv, ?_⟩
      simp only at h
      split at h
      · rename_i q hq
        obtain ⟨⟨ms', r'⟩, hms, heq⟩ := Option.map_eq_some_iff.1 h
        cases heq
        exact Or.inl ⟨q, ms', hq, hms, rfl⟩
      · rename_i q hq
        cases h
        exact Or.inr ⟨hq, rfl⟩
      · cases h
    · cases h
  · cases h

/-- What follows an element decides. -/
theorem elements_of_value {fuel : ℕ} {p p' : Bytes} {v : Value} (hv : value fuel p = some (v, p')) :
    elements (fuel + 1) p =
      match skipSpace p' with
      | 0x2c :: p => (elements fuel p).map fun (vs, p) => (v :: vs, p)
      | 0x5d :: p => some ([v], p)
      | _ => none := by
  rw [elements, hv]
  rfl

/-- What follows a member decides. -/
theorem members_of_member {fuel : ℕ} {p p₁ p₂ p₃ p₄ name : Bytes} {v : Value}
    (hp₁ : skipSpace p = 0x22 :: p₁) (hname : string p₁ = some (name, p₂))
    (hp₃ : skipSpace p₂ = 0x3a :: p₃) (hv : value fuel p₃ = some (v, p₄)) :
    members (fuel + 1) p =
      match skipSpace p₄ with
      | 0x2c :: p => (members fuel p).map fun (ms, p) => ((name, v) :: ms, p)
      | 0x7d :: p => some ([(name, v)], p)
      | _ => none := by
  rw [members, hp₁]
  simp only [hname, Option.bind_eq_bind, Option.bind_some, hp₃, hv]

/-- An array, behind its opening bracket. -/
theorem value_array (fuel : ℕ) (p : Bytes) :
    value (fuel + 1) (0x5b :: p) =
      match skipSpace p with
      | 0x5d :: p => some (.arr [], p)
      | _ => (elements fuel p).map fun (vs, p) => (.arr vs, p) := by
  rw [value]
  rfl

/-- An object, behind its opening brace. -/
theorem value_object (fuel : ℕ) (p : Bytes) :
    value (fuel + 1) (0x7b :: p) =
      match skipSpace p with
      | 0x7d :: p => some (.obj [], p)
      | _ => (members fuel p).bind fun (ms, p) =>
          if (ms.map Prod.fst).Nodup then some (.obj ms, p) else none := by
  rw [value]
  rfl

/-- A closing brace, or members with different names. -/
theorem value_object_eq_some {fuel : ℕ} {p r : Bytes} {v : Value}
    (h : value (fuel + 1) (0x7b :: p) = some (v, r)) :
    (skipSpace p = 0x7d :: r ∧ v = .obj []) ∨
      ∃ ms, members fuel p = some (ms, r) ∧ (ms.map Prod.fst).Nodup ∧ v = .obj ms := by
  rw [value_object] at h
  split at h
  · rename_i q hq
    cases h
    exact Or.inl ⟨hq, rfl⟩
  · obtain ⟨⟨ms, p'⟩, hms, h⟩ := Option.bind_eq_some_iff.1 h
    simp only at h
    split_ifs at h with hnodup
    cases h
    exact Or.inr ⟨ms, hms, hnodup, rfl⟩

/-- A closing bracket is no value. -/
theorem elements_close {fuel : ℕ} {p q : Bytes} (hp : skipSpace p = 0x5d :: q) :
    elements fuel p = none := by
  cases fuel with
  | zero => rfl
  | succ fuel =>
    have hvalue : value fuel p = none := by
      cases fuel with
      | zero => rfl
      | succ fuel =>
        rw [value, hp]
        rfl
    rw [elements, hvalue]
    rfl

/-- Elements in brackets. -/
theorem value_array_of_elements {fuel : ℕ} {p r : Bytes} {vs : List Value}
    (h : elements fuel p = some (vs, r)) :
    value (fuel + 1) (0x5b :: p) = some (.arr vs, r) := by
  rw [value_array]
  split
  · rename_i q hq
    rw [elements_close hq] at h
    cases h
  · rw [h]
    rfl

/-- A closing bracket, or elements. -/
theorem value_array_eq_some {fuel : ℕ} {p r : Bytes} {v : Value}
    (h : value (fuel + 1) (0x5b :: p) = some (v, r)) :
    (skipSpace p = 0x5d :: r ∧ v = .arr []) ∨
      ∃ vs, elements fuel p = some (vs, r) ∧ v = .arr vs := by
  rw [value_array] at h
  split at h
  · rename_i q hq
    cases h
    exact Or.inl ⟨hq, rfl⟩
  · obtain ⟨⟨vs, p'⟩, hvs, heq⟩ := Option.map_eq_some_iff.1 h
    cases heq
    exact Or.inr ⟨vs, hvs, rfl⟩

/-- Members in braces. -/
theorem value_object_of_members {fuel : ℕ} {p r : Bytes} {ms : List (Bytes × Value)}
    (h : members fuel p = some (ms, r)) (hnodup : (ms.map Prod.fst).Nodup) :
    value (fuel + 1) (0x7b :: p) = some (.obj ms, r) := by
  rw [value_object]
  split
  · rename_i q hq
    cases fuel with
    | zero => cases h
    | succ fuel =>
      obtain ⟨p₁, -, -, -, -, -, hp₁, -⟩ := members_eq_some h
      cases hq.symm.trans hp₁
  · rw [h, Option.bind_some]
    exact if_pos hnodup

theorem value_space (fuel : ℕ) (p : Bytes) : value fuel (0x20 :: p) = value fuel p := by
  cases fuel with
  | zero => rfl
  | succ fuel =>
    rw [value, value]
    rfl

theorem elements_space (fuel : ℕ) (p : Bytes) : elements fuel (0x20 :: p) = elements fuel p := by
  cases fuel with
  | zero => rfl
  | succ fuel => rw [elements, elements, value_space]

theorem decode_eq_some {s : Bytes} {v : Value} (h : decode s = some v) :
    utf8 s = true ∧ ∃ r, value (2 * s.length + 2) s = some (v, r) ∧ skipSpace r = [] := by
  rw [decode] at h
  split_ifs at h with hutf
  refine ⟨hutf, ?_⟩
  split at h
  · rename_i v' r hv
    split_ifs at h with hr
    cases h
    exact ⟨r, hv, hr⟩
  · cases h

/-! ## Texts that are put together -/

/-- No byte of a character of several bytes is below 128. -/
theorem dueBytes_ge {b : UInt8} {due : List (UInt8 × UInt8)} (h : dueBytes b = some due) :
    ∀ r ∈ due, (0x80 : UInt8) ≤ r.1 := by
  unfold dueBytes at h
  split_ifs at h <;> cases h <;> simp

/-- A byte below 128 is a character of its own, and what is before it ends with a character. -/
theorem utf8From_append {c : UInt8} (hc : c < 0x80) (a s : Bytes) {due : List (UInt8 × UInt8)}
    (hdue : ∀ r ∈ due, (0x80 : UInt8) ≤ r.1) :
    utf8From due (a ++ c :: s) = (utf8From due a && utf8From [] s) := by
  induction a generalizing due with
  | nil =>
    cases due with
    | nil => simp [utf8From, hc]
    | cons r due =>
      have hlo : ¬ r.1 ≤ c := not_le.2 (lt_of_lt_of_le hc (hdue r List.mem_cons_self))
      simp [utf8From, hlo]
  | cons b a ih =>
    cases due with
    | nil =>
      rw [List.cons_append, utf8From, utf8From]
      by_cases hb : b < 0x80
      · rw [if_pos hb, if_pos hb]
        exact ih (by simp)
      · rw [if_neg hb, if_neg hb]
        cases hd : dueBytes b with
        | none => rfl
        | some due => exact ih (dueBytes_ge hd)
    | cons r due =>
      have hdue' : ∀ r' ∈ due, (0x80 : UInt8) ≤ r'.1 := fun r' hr' =>
        hdue r' (List.mem_cons_of_mem _ hr')
      rw [List.cons_append, utf8From, utf8From, ih hdue', Bool.and_assoc]

theorem utf8_append {c : UInt8} (hc : c < 0x80) (a s : Bytes) :
    utf8 (a ++ c :: s) = (utf8 a && utf8 s) :=
  utf8From_append hc a s (by simp)

theorem utf8_ascii {sep : Bytes} (hsep : ∀ c ∈ sep, c < 0x80) (s : Bytes) :
    utf8 (sep ++ s) = utf8 s := by
  induction sep with
  | nil => rfl
  | cons c sep ih =>
    have hc := hsep c List.mem_cons_self
    have hhead := utf8_append hc [] (sep ++ s)
    rw [List.nil_append] at hhead
    rw [List.cons_append, hhead, ih fun c' hc' => hsep c' (List.mem_cons_of_mem _ hc')]
    rfl

/-! ## Strings that are not escaped -/

/-- The string can be written between quotes as it is. -/
def Plain (s : Bytes) : Prop := ∀ c ∈ s, c ≠ 0x22 ∧ c ≠ 0x5c ∧ ¬ c < 0x20

instance (s : Bytes) : Decidable (Plain s) :=
  inferInstanceAs (Decidable (∀ c ∈ s, c ≠ 0x22 ∧ c ≠ 0x5c ∧ ¬ c < 0x20))

/-- What is between a string and the next one: bytes that are neither quotes nor backslashes, and
at least one of them. -/
inductive Between : Bytes → Prop
  | last {c : UInt8} (hc : c ≠ 0x22 ∧ c ≠ 0x5c) : Between [c]
  | quote {c : UInt8} (hc : c ≠ 0x22 ∧ c ≠ 0x5c) (rest : Bytes) : Between (c :: 0x22 :: rest)
  | more {c : UInt8} (hc : c ≠ 0x22 ∧ c ≠ 0x5c) {rest : Bytes} (h : Between rest) :
      Between (c :: rest)

/-- A plain string is read back. -/
theorem chars_plain {s : Bytes} (hs : Plain s) (rest : Bytes) {fuel : ℕ} (hfuel : s.length < fuel) :
    chars fuel (s ++ 0x22 :: rest) = some (s, rest) := by
  induction s generalizing fuel with
  | nil =>
    cases fuel with
    | zero => cases hfuel
    | succ fuel => rfl
  | cons c s ih =>
    cases fuel with
    | zero => cases hfuel
    | succ fuel =>
      obtain ⟨⟨hquote, hback, hcontrol⟩, hs⟩ := List.forall_mem_cons.1 hs
      rw [List.cons_append, chars, if_neg hquote, if_neg hback, if_neg hcontrol,
        ih hs (Nat.lt_of_succ_lt_succ hfuel)]
      rfl

theorem string_plain {s : Bytes} (hs : Plain s) (rest : Bytes) :
    string (s ++ 0x22 :: rest) = some (s, rest) :=
  chars_plain hs rest (by simp)

/-! ## What an escape reads -/

theorem hexValue_quote : hexValue 0x22 = none := rfl

/-- Four digits are read, none of which is a quote. -/
theorem hex4_eq {p rest : Bytes} {n : ℕ} (h : hex4 p = some (n, rest)) :
    ∃ e, p = e ++ rest ∧ e.length = 4 ∧ 0x22 ∉ e := by
  match p with
  | a :: b :: c :: d :: p =>
    simp only [hex4, Option.bind_eq_bind, Option.bind_eq_some_iff, Option.some.injEq,
      Prod.mk.injEq] at h
    obtain ⟨x, hx, y, hy, z, hz, w, hw, -, rfl⟩ := h
    refine ⟨[a, b, c, d], rfl, rfl, ?_⟩
    intro hmem
    simp only [List.mem_cons, List.not_mem_nil, or_false] at hmem
    rcases hmem with rfl | rfl | rfl | rfl
    · cases hexValue_quote.symm.trans hx
    · cases hexValue_quote.symm.trans hy
    · cases hexValue_quote.symm.trans hz
    · cases hexValue_quote.symm.trans hw
  | [] | [_] | [_, _] | [_, _, _] => cases h

theorem length_charBytes_le (n : ℕ) : (charBytes n).length ≤ 4 := by
  rw [charBytes, String.length_utf8EncodeChar]
  exact Char.utf8Size_le_four _

/-- A character by its number takes more bytes than it stands for, none of which is a quote. -/
theorem unicode_eq {p rest x : Bytes} (h : unicode p = some (x, rest)) :
    ∃ e, p = e ++ rest ∧ x.length ≤ e.length ∧ 0x22 ∉ e := by
  rw [unicode] at h
  simp only [Option.bind_eq_bind, Option.bind_eq_some_iff] at h
  obtain ⟨⟨hi, p'⟩, hhi, h⟩ := h
  obtain ⟨e, rfl, hlen, hquote⟩ := hex4_eq hhi
  simp only at h
  split_ifs at h with hone hlow
  · cases h
    exact ⟨e, rfl, by rw [hlen]; exact length_charBytes_le _, hquote⟩
  · split at h
    · rename_i p''
      simp only [Option.bind_eq_some_iff] at h
      obtain ⟨⟨lo, p3⟩, hlo, h⟩ := h
      obtain ⟨e', rfl, hlen', hquote'⟩ := hex4_eq hlo
      simp only at h
      split_ifs at h
      rw [Option.some.injEq, Prod.mk.injEq] at h
      obtain ⟨rfl, rfl⟩ := h
      refine ⟨e ++ 0x5c :: 0x75 :: e', by simp, ?_, ?_⟩
      · refine le_trans (length_charBytes_le _) ?_
        simp [hlen]
      · simp [hquote, hquote']
    · cases h

/-- An escape takes as many bytes as it stands for, or more; one of them is a quote only if there is
no other. -/
theorem escape_eq {p rest x : Bytes} (h : escape p = some (x, rest)) :
    ∃ e, p = e ++ rest ∧ x.length ≤ e.length ∧ (e = [0x22] ∨ 0x22 ∉ e) := by
  cases p with
  | nil => cases h
  | cons c p =>
    rw [escape] at h
    by_cases hu : c = 0x75
    · rw [if_pos hu] at h
      obtain ⟨e, rfl, hlen, hquote⟩ := unicode_eq h
      refine ⟨c :: e, rfl, by rw [List.length_cons]; omega, Or.inr ?_⟩
      rw [hu]
      simp [hquote]
    · rw [if_neg hu] at h
      obtain ⟨b, -, hb⟩ := Option.map_eq_some_iff.1 h
      cases hb
      refine ⟨[c], rfl, le_refl _, ?_⟩
      by_cases hc : c = 0x22
      · exact Or.inl (by rw [hc])
      · exact Or.inr (by simpa [eq_comm] using hc)

/-! ## Reading back -/

theorem chars_nil {fuel : ℕ} : chars fuel [] = none := by
  cases fuel <;> rfl

/-- A character that stands for itself is read first. -/
theorem chars_cons {c : UInt8} (hc : c ≠ 0x22 ∧ c ≠ 0x5c) {p r s : Bytes} {fuel : ℕ}
    (h : chars fuel (c :: p) = some (s, r)) :
    ¬ c < 0x20 ∧ ∃ s', s = c :: s' ∧ chars (fuel - 1) p = some (s', r) := by
  cases fuel with
  | zero => cases h
  | succ fuel =>
    rw [chars, if_neg hc.1, if_neg hc.2] at h
    split_ifs at h with hcontrol
    simp only [Option.bind_eq_bind, Option.bind_eq_some_iff, Option.some.injEq] at h
    obtain ⟨⟨s', p'⟩, hs', h⟩ := h
    cases h
    exact ⟨hcontrol, s', rfl, hs'⟩

theorem chars_quote {p r s : Bytes} {fuel : ℕ} (h : chars fuel (0x22 :: p) = some (s, r)) :
    s = [] ∧ r = p := by
  cases fuel with
  | zero => cases h
  | succ fuel =>
    cases h
    exact ⟨rfl, rfl⟩

/-- A string that begins between two strings ends where the next one begins. -/
theorem chars_between {rest : Bytes} (hrest : Between rest) {p r s : Bytes} (hp : p <+: rest)
    {fuel : ℕ} (h : chars fuel p = some (s, r)) : s ≠ [] ∧ s.getLast? ≠ some 0x5c := by
  induction hrest generalizing p r s fuel with
  | last hc =>
    cases p with
    | nil => rw [chars_nil] at h; cases h
    | cons b p =>
      obtain ⟨rfl, hp'⟩ := List.cons_prefix_cons.1 hp
      obtain ⟨-, s', -, hs'⟩ := chars_cons hc h
      rw [List.prefix_nil.1 hp', chars_nil] at hs'
      cases hs'
  | @quote c hc rest =>
    cases p with
    | nil => rw [chars_nil] at h; cases h
    | cons b p =>
      obtain ⟨rfl, hp'⟩ := List.cons_prefix_cons.1 hp
      obtain ⟨-, s', rfl, hs'⟩ := chars_cons hc h
      cases p with
      | nil => rw [chars_nil] at hs'; cases hs'
      | cons q p =>
        rw [(List.cons_prefix_cons.1 hp').1] at hs'
        rw [(chars_quote hs').1]
        exact ⟨List.cons_ne_nil _ _, by simpa using hc.2⟩
  | more hc hrest ih =>
    cases p with
    | nil => rw [chars_nil] at h; cases h
    | cons b p =>
      obtain ⟨rfl, hp'⟩ := List.cons_prefix_cons.1 hp
      obtain ⟨-, s', rfl, hs'⟩ := chars_cons hc h
      obtain ⟨hne, hlast⟩ := ih hp' hs'
      refine ⟨List.cons_ne_nil _ _, ?_⟩
      rwa [List.getLast?_cons_of_ne_nil hne]

/-- A list in which a quote comes after `a`, and which begins with bytes that are not a quote, has
them at the beginning of `a`. -/
theorem append_of_noQuote {e p a rest : Bytes} (he : 0x22 ∉ e)
    (h : e ++ p <+: a ++ 0x22 :: rest) :
    ∃ a', a = e ++ a' ∧ p <+: a' ++ 0x22 :: rest := by
  induction e generalizing a with
  | nil => exact ⟨a, rfl, h⟩
  | cons c e ih =>
    rw [List.mem_cons, not_or] at he
    cases a with
    | nil =>
      rw [List.cons_append, List.nil_append, List.cons_prefix_cons] at h
      exact absurd h.1.symm he.1
    | cons b a =>
      rw [List.cons_append, List.cons_append, List.cons_prefix_cons] at h
      obtain ⟨a', rfl, hp⟩ := ih he.2 h.2
      exact ⟨a', by rw [h.1, List.cons_append], hp⟩

/-- What is read of a string that was written as it is: less than the string, the string if it is
plain, or something that does not end with a backslash, where the string does. -/
theorem chars_cases {rest : Bytes} (hrest : Between rest) {fuel : ℕ} {a p s r : Bytes}
    (hp : p <+: a ++ 0x22 :: rest) (h : chars fuel p = some (s, r)) :
    s.length < a.length ∨ (Plain a ∧ s = a ∧ p = a ++ 0x22 :: r) ∨
      (a.getLast? = some 0x5c ∧ s ≠ [] ∧ s.getLast? ≠ some 0x5c) := by
  induction fuel generalizing a p s with
  | zero => cases h
  | succ fuel ih =>
    cases p with
    | nil => cases h
    | cons c p =>
      cases a with
      | nil =>
        rw [List.nil_append, List.cons_prefix_cons] at hp
        obtain ⟨rfl, -⟩ := hp
        cases h
        exact Or.inr (Or.inl ⟨by simp [Plain], rfl, rfl⟩)
      | cons b a =>
        rw [List.cons_append, List.cons_prefix_cons] at hp
        obtain ⟨rfl, hp⟩ := hp
        by_cases hquote : c = 0x22
        · -- The string ends at a quote of its own.
          rw [chars, if_pos hquote] at h
          cases h
          exact Or.inl (by simp)
        by_cases hback : c = 0x5c
        · rw [chars, if_neg hquote, if_pos hback] at h
          simp only [Option.bind_eq_bind, Option.bind_eq_some_iff] at h
          obtain ⟨⟨x, p'⟩, hx, ⟨s', p''⟩, hs', h⟩ := h
          cases h
          obtain ⟨e, rfl, hlen, he⟩ := escape_eq hx
          have hsplit : (a = [] ∧ e = [0x22] ∧ p' <+: rest) ∨
              ∃ a', a = e ++ a' ∧ p' <+: a' ++ 0x22 :: rest := by
            rcases he with rfl | he
            · cases a with
              | nil => exact Or.inl ⟨rfl, rfl, (List.cons_prefix_cons.1 hp).2⟩
              | cons b a =>
                obtain ⟨rfl, hp'⟩ := List.cons_prefix_cons.1 hp
                exact Or.inr ⟨a, rfl, hp'⟩
            · exact Or.inr (append_of_noQuote he hp)
          rcases hsplit with ⟨rfl, rfl, hrest'⟩ | ⟨a', rfl, hrest'⟩
          · -- The backslash is the last byte, and takes the closing quote with it.
            obtain ⟨hne, hlast⟩ := chars_between hrest hrest' hs'
            refine Or.inr (Or.inr ⟨by rw [hback]; rfl, ?_, ?_⟩)
            · exact List.append_ne_nil_of_right_ne_nil _ hne
            · rwa [List.getLast?_append_of_ne_nil _ hne]
          · rcases ih hrest' hs' with hless | ⟨-, rfl, -⟩ | ⟨hlast, hne, hlast'⟩
            · refine Or.inl ?_
              simp only [List.length_append, List.length_cons]
              omega
            · refine Or.inl ?_
              simp only [List.length_append, List.length_cons]
              omega
            · have ha : a' ≠ [] := by rintro rfl; cases hlast
              refine Or.inr (Or.inr ⟨?_, List.append_ne_nil_of_right_ne_nil _ hne, ?_⟩)
              · rwa [List.getLast?_cons_of_ne_nil (List.append_ne_nil_of_right_ne_nil _ ha),
                  List.getLast?_append_of_ne_nil _ ha]
              · rwa [List.getLast?_append_of_ne_nil _ hne]
        · obtain ⟨hcontrol, s', rfl, hs'⟩ := chars_cons ⟨hquote, hback⟩ h
          rcases ih hp hs' with hless | ⟨hplain, rfl, rfl⟩ | ⟨hlast, hne, hlast'⟩
          · exact Or.inl (by simpa using hless)
          · refine Or.inr (Or.inl ⟨?_, rfl, rfl⟩)
            exact List.forall_mem_cons.2 ⟨⟨hquote, hback, hcontrol⟩, hplain⟩
          · have ha : a ≠ [] := by rintro rfl; cases hlast
            refine Or.inr (Or.inr ⟨?_, List.cons_ne_nil _ _, ?_⟩)
            · rwa [List.getLast?_cons_of_ne_nil ha]
            · rwa [List.getLast?_cons_of_ne_nil hne]

/-- **What is read back is the string only if the string is plain**, and then it is read up to its
closing quote. -/
theorem chars_back {rest : Bytes} (hrest : Between rest) {fuel : ℕ} {a p r : Bytes}
    (hp : p <+: a ++ 0x22 :: rest) (h : chars fuel p = some (a, r)) :
    Plain a ∧ p = a ++ 0x22 :: r := by
  rcases chars_cases hrest hp h with hless | ⟨hplain, -, heq⟩ | ⟨hlast, -, hlast'⟩
  · exact absurd hless (lt_irrefl _)
  · exact ⟨hplain, heq⟩
  · exact absurd hlast hlast'

/-! ## Whole numbers -/

/-- A number in decimal digits, as `printf` writes it. -/
def decimal (n : ℕ) : Bytes :=
  if n = 0 then [0x30] else (Nat.digits 10 n).reverse.map fun d => UInt8.ofNat (0x30 + d)

/-- The same with a sign. -/
def decimalInt (z : ℤ) : Bytes :=
  if z < 0 then 0x2d :: decimal z.natAbs else decimal z.natAbs

theorem toNat_digit {d : ℕ} (hd : d < 10) : (UInt8.ofNat (0x30 + d)).toNat = 0x30 + d :=
  UInt8.toNat_ofNat_of_lt' (by show 0x30 + d < 256; omega)

theorem isDigit_decimal {n : ℕ} {c : UInt8} (hc : c ∈ decimal n) : isDigit c = true := by
  unfold decimal at hc
  split_ifs at hc with hn
  · rw [List.mem_singleton.1 hc]
    rfl
  · obtain ⟨d, hd, rfl⟩ := List.mem_map.1 hc
    have hlt := Nat.digits_lt_base (by norm_num) (List.mem_reverse.1 hd)
    simp only [isDigit, Bool.and_eq_true, decide_eq_true_eq, UInt8.le_iff_toNat_le,
      toNat_digit hlt]
    constructor
    · show 48 ≤ 0x30 + d
      omega
    · show 0x30 + d ≤ 57
      omega

theorem decimal_ne_nil (n : ℕ) : decimal n ≠ [] := by
  unfold decimal
  split_ifs with hn
  · exact List.cons_ne_nil _ _
  · simp [Nat.digits_ne_nil_iff_ne_zero, hn]

theorem ofDecimal_decimal (n : ℕ) : ofDecimal (decimal n) = n := by
  unfold decimal
  split_ifs with hn
  · rw [hn]
    rfl
  · have hfold : ∀ ds : List ℕ, (∀ d ∈ ds, d < 10) →
        ofDecimal (ds.reverse.map fun d => UInt8.ofNat (0x30 + d)) = Nat.ofDigits 10 ds := by
      intro ds hds
      induction ds with
      | nil => rfl
      | cons d ds ih =>
        obtain ⟨hd, hds⟩ := List.forall_mem_cons.1 hds
        have htail := ih hds
        unfold ofDecimal at htail ⊢
        rw [List.reverse_cons, List.map_append, List.foldl_append, htail, Nat.ofDigits_cons]
        simp only [List.map_cons, List.map_nil, List.foldl_cons, List.foldl_nil, toNat_digit hd]
        omega
    rw [hfold _ fun d hd => Nat.digits_lt_base (by norm_num) hd, Nat.ofDigits_digits]

/-- There is no zero in front. -/
theorem head_decimal (n : ℕ) : ¬ ((decimal n).head? = some 0x30 ∧ 1 < (decimal n).length) := by
  rintro ⟨hhead, hlen⟩
  unfold decimal at hhead hlen
  split_ifs at hhead hlen with hn
  · exact absurd hlen (by simp)
  · have hne : Nat.digits 10 n ≠ [] := Nat.digits_ne_nil_iff_ne_zero.2 hn
    have hlast := Nat.getLast_digit_ne_zero 10 hn
    rw [List.head?_map, List.head?_reverse, List.getLast?_eq_some_getLast hne, Option.map_some,
      Option.some.injEq] at hhead
    have hlt := Nat.digits_lt_base (by norm_num) (List.getLast_mem hne)
    have hnat := congrArg UInt8.toNat hhead
    rw [toNat_digit hlt] at hnat
    have hzero : (0x30 : UInt8).toNat = 48 := rfl
    omega

/-- No number goes on with these bytes. -/
def NumberEnds (rest : Bytes) : Prop :=
  ∀ c, rest.head? = some c → isDigit c = false ∧ c ≠ 0x2e ∧ c ≠ 0x65 ∧ c ≠ 0x45

theorem digits_append {ds rest : Bytes} (hds : ∀ c ∈ ds, isDigit c = true) (hne : ds ≠ [])
    (hrest : NumberEnds rest) : digits (ds ++ rest) = some (ds, rest) := by
  have htail : rest.takeWhile isDigit = [] ∧ rest.dropWhile isDigit = rest := by
    cases rest with
    | nil => exact ⟨rfl, rfl⟩
    | cons c rest =>
      have hc := (hrest c rfl).1
      simp [hc]
  rw [digits, List.takeWhile_append_of_pos hds, List.dropWhile_append_of_pos hds, htail.1, htail.2,
    List.append_nil]
  exact if_neg hne

theorem fraction_none {rest : Bytes} (hrest : NumberEnds rest) :
    fraction rest = some ([], rest) := by
  cases rest with
  | nil => rfl
  | cons c rest =>
    have hc := (hrest c rfl).2.1
    unfold fraction
    split
    · rename_i heq
      cases heq
      exact absurd rfl hc
    · rfl

theorem exponent_none {rest : Bytes} (hrest : NumberEnds rest) :
    exponent rest = some (0, rest) := by
  cases rest with
  | nil => rfl
  | cons c rest =>
    obtain ⟨-, -, he, hE⟩ := hrest c rfl
    have hexp : ¬ (c = 0x65 ∨ c = 0x45) := by simp [he, hE]
    unfold exponent
    exact if_neg hexp

theorem unsigned_digits {ds rest : Bytes} (hds : ∀ c ∈ ds, isDigit c = true) (hne : ds ≠ [])
    (hrest : NumberEnds rest) :
    unsigned (ds ++ rest) = if ds.head? = some 0x30 ∧ 1 < ds.length then none
      else some ((ofDecimal ds : ℚ), rest) := by
  rw [unsigned, digits_append hds hne hrest]
  simp only [Option.bind_eq_bind, Option.bind_some, fraction_none hrest, exponent_none hrest]
  simp

theorem unsigned_decimal (n : ℕ) {rest : Bytes} (hrest : NumberEnds rest) :
    unsigned (decimal n ++ rest) = some ((n : ℚ), rest) := by
  rw [unsigned_digits (fun c hc => isDigit_decimal hc) (decimal_ne_nil n) hrest,
    if_neg (head_decimal n), ofDecimal_decimal]

/-- A sign is no digit. -/
theorem number_of_digit {c : UInt8} (hc : isDigit c = true) (p : Bytes) :
    number (c :: p) = unsigned (c :: p) := by
  unfold number
  split
  · rename_i heq
    cases heq
    cases hc
  · rfl

theorem number_decimalInt (z : ℤ) {rest : Bytes} (hrest : NumberEnds rest) :
    number (decimalInt z ++ rest) = some ((z : ℚ), rest) := by
  rw [decimalInt]
  split_ifs with hz
  · show (unsigned (decimal z.natAbs ++ rest)).map _ = _
    rw [unsigned_decimal _ hrest, Option.map_some, Option.some.injEq, Prod.mk.injEq]
    refine ⟨?_, rfl⟩
    rw [Nat.cast_natAbs, abs_of_neg hz]
    push_cast
    ring
  · obtain ⟨c, ds, hds⟩ := List.exists_cons_of_ne_nil (decimal_ne_nil z.natAbs)
    have hmem : c ∈ decimal z.natAbs := by
      rw [hds]
      exact List.mem_cons_self
    have hc : isDigit c = true := isDigit_decimal hmem
    have hnum := unsigned_decimal z.natAbs hrest
    rw [hds, List.cons_append] at hnum ⊢
    rw [number_of_digit hc, hnum, Nat.cast_natAbs, abs_of_nonneg (not_lt.1 hz)]

/-- Of the beginning of a number nothing is left. -/
theorem number_cut {z : ℤ} {p r : Bytes} {q : ℚ} (hp : p <+: decimalInt z)
    (h : number p = some (q, r)) : r = [] := by
  have hends : NumberEnds [] := by intro c hc; cases hc
  have hdigits : ∀ ds : Bytes, (∀ c ∈ ds, isDigit c = true) → ∀ q r, unsigned ds = some (q, r) →
      r = [] := by
    intro ds hds q r h
    by_cases hne : ds = []
    · rw [hne] at h
      cases h
    · have hall := unsigned_digits hds hne hends
      rw [List.append_nil, h] at hall
      split_ifs at hall
      cases hall
      rfl
  have hmem : ∀ c ∈ decimal z.natAbs, isDigit c = true := fun c hc => isDigit_decimal hc
  rw [decimalInt] at hp
  split_ifs at hp with hz
  · cases p with
    | nil => cases h
    | cons c p =>
      obtain ⟨rfl, hp'⟩ := List.cons_prefix_cons.1 hp
      obtain ⟨⟨q', r'⟩, hq, heq⟩ := Option.map_eq_some_iff.1
        (show (unsigned p).map (fun (q, p) => (-q, p)) = some (q, r) from h)
      cases heq
      exact hdigits p (fun c hc => hmem c (hp'.subset hc)) q' _ hq
  · cases p with
    | nil => cases h
    | cons c p =>
      rw [number_of_digit (hmem c (hp.subset List.mem_cons_self))] at h
      exact hdigits _ (fun c hc => hmem c (hp.subset hc)) q r h

/-- **What is left behind a number**, also where the text may be cut off: nothing, or what comes
behind it. -/
theorem number_back {z : ℤ} {rest p r : Bytes} (hrest : NumberEnds rest)
    (hp : p <+: decimalInt z ++ rest) {q : ℚ} (h : number p = some (q, r)) :
    r = [] ∨ p = decimalInt z ++ r := by
  rcases List.prefix_or_prefix_of_prefix hp (List.prefix_append _ _) with hshort | ⟨p', rfl⟩
  · exact Or.inl (number_cut hshort h)
  · rw [List.prefix_append_right_inj] at hp
    have hends : NumberEnds p' := by
      intro c hc
      cases p' with
      | nil => cases hc
      | cons b p' =>
        cases rest with
        | nil => cases List.prefix_nil.1 hp
        | cons b' rest =>
          obtain ⟨rfl, -⟩ := List.cons_prefix_cons.1 hp
          exact hrest c hc
    rw [number_decimalInt z hends] at h
    cases h
    exact Or.inr rfl

end Json

end Library
