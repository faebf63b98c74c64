import VoipBackend.Lib.Bytes

/-!
# Grammars of binary formats

In many binary formats a value begins with a tag.  Some tags are a number by themselves, and some
say how many bytes of a number follow; a lenient reader takes any other byte for a zero.  A family
of tags is a table of these (`Tags`).  What such a table makes of bytes is said twice here: by a
grammar, which knows bytes only (`Tags.At`), and by a reader (`Tags.read`).  They are the same
(`Tags.read_eq_some_iff`).

In such formats a number also says what comes next, so that what is due at a place depends on what
came before it.  A grammar is given by its productions: what is due, and bytes that begin with it,
together with what is due then (`Complete`).
-/

namespace Library

/-- A family of tags. -/
structure Tags where
  /-- The number a tag is by itself. -/
  own : UInt8 → Option ℕ
  /-- The number of bytes behind a tag, if it has its number there. -/
  wide : UInt8 → Option ℕ

namespace Tags

/-- A tag at the front, with its number: what is behind them. -/
inductive At (t : Tags) : Bytes → ℕ → Bytes → Prop
  | own {c : UInt8} {n : ℕ} {p : Bytes} (hown : t.own c = some n) : At t (c :: p) n p
  | wide {c : UInt8} {s p : Bytes} (hown : t.own c = none)
      (hwide : t.wide c = some s.length) : At t (c :: (s ++ p)) (ofBigEndian s) p
  | other {c : UInt8} {p : Bytes} (hown : t.own c = none) (hwide : t.wide c = none) :
      At t (c :: p) 0 p

/-- The number at the front, and what is behind it. -/
def read (t : Tags) : Bytes → Option (ℕ × Bytes)
  | [] => none
  | c :: p =>
      match t.own c with
      | some n => some (n, p)
      | none =>
          match t.wide c with
          | some w => if w ≤ p.length then some (ofBigEndian (p.take w), p.drop w) else none
          | none => some (0, p)

/-- **The reader follows the grammar.** -/
theorem read_eq_some_iff {t : Tags} {p q : Bytes} {n : ℕ} :
    t.read p = some (n, q) ↔ t.At p n q := by
  constructor
  · intro h
    cases p with
    | nil => cases h
    | cons c p =>
      rw [read] at h
      cases hown : t.own c with
      | some m =>
        rw [hown] at h
        cases h
        exact .own hown
      | none =>
        cases hwide : t.wide c with
        | none =>
          simp only [hown, hwide] at h
          cases h
          exact .other hown hwide
        | some w =>
          simp only [hown, hwide] at h
          split_ifs at h with hlen
          cases h
          have hat : t.At (c :: (p.take w ++ p.drop w)) (ofBigEndian (p.take w)) (p.drop w) :=
            .wide hown (by rw [hwide, List.length_take_of_le hlen])
          rwa [List.take_append_drop] at hat
  · intro h
    cases h with
    | own hown => simp only [read, hown]
    | @wide c s _ hown hwide => simp [read, hown, hwide]
    | other hown hwide => simp only [read, hown, hwide]

/-- Reading a number and going on. -/
theorem bind_read_ne_none {t : Tags} {β : Type} {f : ℕ × Bytes → Option β} {p : Bytes} :
    (t.read p).bind f ≠ none ↔ ∃ n q, t.At p n q ∧ f (n, q) ≠ none := by
  constructor
  · intro h
    cases hread : t.read p with
    | none =>
      rw [hread] at h
      exact absurd rfl h
    | some r =>
      rw [hread] at h
      exact ⟨r.1, r.2, read_eq_some_iff.1 hread, h⟩
  · rintro ⟨n, q, hat, hf⟩
    rwa [read_eq_some_iff.2 hat]

theorem At.unique {t : Tags} {p q q' : Bytes} {n n' : ℕ} (h : t.At p n q) (h' : t.At p n' q') :
    n = n' ∧ q = q' := by
  rw [← read_eq_some_iff] at h h'
  simpa using h.symm.trans h'

theorem At.length_lt {t : Tags} {p q : Bytes} {n : ℕ} (h : t.At p n q) : q.length < p.length := by
  cases h with
  | own => exact Nat.lt_succ_self _
  | wide =>
    rw [List.length_cons, List.length_append]
    omega
  | other => exact Nat.lt_succ_self _

end Tags

/-! ## What is due -/

/-- Everything that is due is there.  A production `rule x p outs` reads what is due first, `x`, from
the bytes `p`.  Then each of the outcomes has to be complete: what is due from there on comes
before what has been due already.  Without an outcome nothing is due any more. -/
inductive Complete {σ : Type} (rule : σ → Bytes → List (List σ × Bytes) → Prop) :
    List σ → Bytes → Prop
  | nil (p : Bytes) : Complete rule [] p
  | cons {x : σ} {stack : List σ} {p : Bytes} {outs : List (List σ × Bytes)}
      (hrule : rule x p outs) (hrest : ∀ o ∈ outs, Complete rule (o.1 ++ stack) o.2) :
      Complete rule (x :: stack) p

variable {σ : Type} {rule : σ → Bytes → List (List σ × Bytes) → Prop} {x : σ} {stack : List σ}
  {p : Bytes}

theorem complete_cons : Complete rule (x :: stack) p ↔
    ∃ outs, rule x p outs ∧ ∀ o ∈ outs, Complete rule (o.1 ++ stack) o.2 := by
  constructor
  · intro h
    cases h with
    | cons hrule hrest => exact ⟨_, hrule, hrest⟩
  · rintro ⟨outs, hrule, hrest⟩
    exact .cons hrule hrest

/-- A production with one outcome. -/
theorem Complete.single {due : List σ} {q : Bytes} (hrule : rule x p [(due, q)])
    (h : Complete rule (due ++ stack) q) : Complete rule (x :: stack) p :=
  .cons hrule (List.forall_mem_singleton.2 h)

/-- Only one production fits. -/
theorem complete_cons_of_rule (due : List σ) {q : Bytes}
    (hrule : ∀ outs, rule x p outs ↔ outs = [(due, q)]) :
    Complete rule (x :: stack) p ↔ Complete rule (due ++ stack) q := by
  constructor
  · intro h
    obtain ⟨outs, hout, hrest⟩ := complete_cons.1 h
    obtain rfl := (hrule outs).1 hout
    exact hrest _ (List.mem_singleton_self _)
  · exact .single ((hrule _).2 rfl)

/-- The productions that fit differ in what is read, and all have one outcome. -/
theorem complete_cons_of_reads {ι : Type} {P : ι → Bytes → Prop} (f : ι → List σ)
    (hrule : ∀ outs, rule x p outs ↔ ∃ i q, P i q ∧ outs = [(f i, q)]) :
    Complete rule (x :: stack) p ↔ ∃ i q, P i q ∧ Complete rule (f i ++ stack) q := by
  constructor
  · intro h
    obtain ⟨outs, hout, hrest⟩ := complete_cons.1 h
    obtain ⟨i, q, hread, rfl⟩ := (hrule outs).1 hout
    exact ⟨i, q, hread, hrest _ (List.mem_singleton_self _)⟩
  · rintro ⟨i, q, hread, h⟩
    exact .single ((hrule _).2 ⟨i, q, hread, rfl⟩) h

end Library
