import VoipBackend.Backend.Fibers
import VoipBackend.Backend.Ledger

/-!
# The CDRs of different calls

The key of a CDR joins the call id and the second of the teardown with a dash.  A call id may have
dashes and digits in it, but the number behind the last dash of a key has none, so that a key is
split in one way only.  Two teardowns write to the same key only if they are teardowns of one call
in one second: whatever the fibers of the backend do and in whatever order, no turn of a teardown
changes the CDR of another call (`cdrId_separates_calls`).
-/

namespace VoipBackend

open Library

variable {ι : Type} [DecidableEq ι]

/-- The call whose CDR the next turn of a fiber may store. -/
def Fiber.tearsDown : Fiber → Option LuaString
  | .request (.finalizeCdr a) => some a.callId
  | .storingCdr f => some f.args.callId
  | _ => none

/-- The CDRs of all calls but the one that is torn down stay as they are. -/
def OtherCdrsKept (c : Fibers ι) (x : ι × Env) : Prop :=
  ∀ cdr ∈ c.shared.cdrs.rows, (c.fiber x.1).tearsDown ≠ some cdr.callId →
    cdr ∈ (c.turn x).shared.cdrs.rows

/-- A CDR of the call `callId` is stored, under the key of its call and its end. -/
def StoresCdr (callId : Option LuaString) (b b' : Box) : Prop :=
  ∃ cdr : Cdr, callId = some cdr.callId ∧ cdr.cdrId = cdrId cdr.callId cdr.endTime ∧
    b'.cdrs = b.cdrs.put cdr

/-! ## What a turn does to the CDRs -/

theorem storeCdr_cdrs (f : FinalizeFrame) (b : Box) :
    (f.storeCdr b).2.cdrs = b.cdrs ∨ StoresCdr (some f.args.callId) b (f.storeCdr b).2 := by
  cases hcheck : f.row.check with
  | error e =>
    rw [storeCdr_of_error hcheck]
    exact Or.inl rfl
  | ok cdr =>
    obtain ⟨-, -, hid, hcall, -, -, hend, -⟩ := CdrRow.check_eq_ok hcheck
    have hkey : cdr.cdrId = cdrId cdr.callId cdr.endTime := by
      rw [hid, hcall, hend]
      rfl
    rw [storeCdr_of_ok hcheck]
    exact Or.inr ⟨cdr, by rw [hcall]; rfl, hkey, rfl⟩

theorem startFinalizeCdr_cdrs (now : Clock) (a : FinalizeArgs) (b : Box) :
    (startFinalizeCdr now a b).2.cdrs = b.cdrs ∨
      StoresCdr (some a.callId) b (startFinalizeCdr now a b).2 := by
  unfold startFinalizeCdr
  cases hsub : b.subscribers.get (finalizeLocals now a b).caller with
  | none =>
    simp only [hsub]
    exact storeCdr_cdrs (finalizeLocals now a b) b
  | some sub =>
    simp only [hsub]
    exact Or.inl rfl

theorem deleteFrom_cdrs (b : Box) (key : LuaString) (space : DrainedSpace) :
    (b.deleteFrom key space).cdrs = b.cdrs := by
  cases space <;> rfl

/-- **Everything a turn can do to the CDRs.**  It leaves them alone, or it is a teardown and stores
the CDR of its call. -/
theorem resume_cdrs (env : Env) (fib : Fiber) (b : Box) :
    (resume env fib b).2.cdrs = b.cdrs ∨ StoresCdr fib.tearsDown b (resume env fib b).2 := by
  cases fib with
  | request op =>
    by_cases hop : ∃ a, op = .finalizeCdr a
    · obtain ⟨a, rfl⟩ := hop
      exact startFinalizeCdr_cdrs env.now a b
    · refine Or.inl ?_
      rw [← perform_cdrs b env.now fun a ha => hop ⟨a, ha⟩]
      cases op with
      | finalizeCdr a => exact absurd ⟨a, rfl⟩ hop
      | _ => rfl
  | storingCdr f => exact storeCdr_cdrs f b
  | deletingDialog f => exact Or.inl rfl
  | deletingCall f => exact Or.inl rfl
  | cleaner w =>
    refine Or.inl ?_
    rcases w.resume_cases env.now env.isRunning b with h | ⟨key, space, h⟩
    · exact congrArg Box.cdrs h
    · exact (congrArg Box.cdrs h).trans (deleteFrom_cdrs b key space)
  | done outcome => exact Or.inl rfl

/-! ## Runs -/

theorem keyedByCall_turn {c : Fibers ι} (h : KeyedByCall c.shared) (x : ι × Env) :
    KeyedByCall (c.turn x).shared := by
  intro cdr hcdr
  rcases resume_cdrs x.2 (c.fiber x.1) c.shared with hsame | ⟨new, -, hkey, hput⟩
  · exact h cdr (hsame ▸ hcdr)
  · have hmem : cdr ∈ (c.shared.cdrs.put new).rows := hput ▸ hcdr
    rcases KeyedTable.mem_putRow hmem with rfl | hold
    · exact hkey
    · exact h cdr hold

theorem otherCdrsKept_turn {c : Fibers ι} (h : KeyedByCall c.shared) (x : ι × Env) :
    OtherCdrsKept c x := by
  intro cdr hcdr hother
  rcases resume_cdrs x.2 (c.fiber x.1) c.shared with hsame | ⟨new, hcall, hkey, hput⟩
  · show cdr ∈ (resume x.2 (c.fiber x.1) c.shared).2.cdrs.rows
    rwa [hsame]
  · show cdr ∈ (resume x.2 (c.fiber x.1) c.shared).2.cdrs.rows
    have hne : cdr.cdrId ≠ new.cdrId := by
      intro heq
      -- one key is one call, and the fiber tears down another one
      have hsplit := cdrId_inj ((h cdr hcdr).symm.trans (heq.trans hkey))
      exact hother (hcall.trans (congrArg some hsplit.1.symm))
    rw [hput, KeyedTable.mem_rows_iff, KeyedTable.get_put, if_neg hne]
    exact KeyedTable.mem_rows_iff.1 hcdr

/-- **No teardown overwrites the CDR of another call.**  A key has one call id and one second in it;
and in every interleaving of any fibers, from the empty spaces on, every turn keeps the CDRs of the
calls it does not tear down. -/
theorem cdrId_separates_calls :
    (∀ c₁ c₂ e₁ e₂, cdrId c₁ e₁ = cdrId c₂ e₂ ↔ c₁ = c₂ ∧ e₁ = e₂) ∧
      ∀ (fiber : ι → Fiber) (l : List (ι × Env)),
        AllSteps Fibers.turn OtherCdrsKept ⟨Box.init, fiber⟩ l := by
  constructor
  · intro c₁ c₂ e₁ e₂
    constructor
    · exact cdrId_inj
    · rintro ⟨rfl, rfl⟩
      rfl
  · intro fiber l
    have hstart : KeyedByCall (Box.init) := by
      intro cdr hcdr
      cases hcdr
    exact AllSteps.of_invariant (I := fun c : Fibers ι => KeyedByCall c.shared)
      (fun c x hc _ => ⟨keyedByCall_turn hc x, otherCdrsKept_turn hc x⟩) hstart
      (AllSteps.trivial (fun _ _ => trivial) _ l)

end VoipBackend
