import VoipBackend.Backend.Sequential

/-!
# The CDRs as a ledger

Two questions about whole histories of the billing service.  Does the revenue
that `get_live_stats` sums over the CDRs equal the money taken from balances?
And does a teardown ever lose a CDR stored before it?

Both fail in general.  A debit is clamped at zero while the CDR records the full
price; a teardown without a dialog records a price nobody pays; and the key of a
CDR is built from the call id and the second of teardown, so a second teardown of
the call in that second overwrites the first record.  The theorems say what the
steps of a history have to look like for the ledger to be right
(`revenue_eq_taken`) and for every record to be kept (`cdrs_kept`).
-/

namespace VoipBackend

open Library

/-! ## Keys of CDRs -/

/-- A decimal digit as a character and as a byte. -/
theorem toNat_of_mem_toDigits {c : Char} {n : ℕ} (hc : c ∈ Nat.toDigits 10 n) :
    48 ≤ c.toNat ∧ c.toNat ≤ 57 ∧ (c.toNat.toUInt8).toNat = c.toNat := by
  have hdigit := Nat.isDigit_of_mem_toDigits (by norm_num) (by norm_num) hc
  simp only [Char.isDigit, Bool.and_eq_true, decide_eq_true_eq, ge_iff_le] at hdigit
  have hlo : 48 ≤ c.toNat := hdigit.1
  have hhi : c.toNat ≤ 57 := hdigit.2
  refine ⟨hlo, hhi, ?_⟩
  rw [Nat.toUInt8_eq, UInt8.toNat_ofNat', Nat.mod_eq_of_lt (by omega)]

theorem decimal_no_dash (n : ℕ) : (45 : UInt8) ∉ decimal n := by
  intro h
  obtain ⟨c, hc, hc45⟩ := List.mem_map.1 h
  obtain ⟨hlo, -, hbyte⟩ := toNat_of_mem_toDigits hc
  have : (45 : UInt8).toNat = c.toNat := by rw [← hbyte, hc45]
  have : (45 : UInt8).toNat = 45 := rfl
  omega

theorem decimal_injective : Function.Injective decimal := by
  intro m n h
  have hback : ∀ n, (decimal n).map (fun b => Char.ofNat b.toNat) = Nat.toDigits 10 n := by
    intro n
    have hmap : (Nat.toDigits 10 n).map (fun c => Char.ofNat (c.toNat.toUInt8).toNat) =
        (Nat.toDigits 10 n).map id := by
      refine List.map_congr_left fun c hc => ?_
      rw [(toNat_of_mem_toDigits hc).2.2]
      exact Char.ofNat_toNat c
    rw [decimal, List.map_map]
    exact hmap.trans (List.map_id _)
  calc m = Nat.ofDigitChars 10 (Nat.toDigits 10 m) 0 := Nat.ofDigitChars_ten_toDigits.symm
    _ = Nat.ofDigitChars 10 (Nat.toDigits 10 n) 0 := by rw [← hback m, ← hback n, h]
    _ = n := Nat.ofDigitChars_ten_toDigits

/-- Words without the separator before it are determined by the joined word. -/
theorem append_separator_inj {α : Type} {x : α} {u u' v v' : List α} (hu : x ∉ u) (hu' : x ∉ u')
    (h : u ++ x :: v = u' ++ x :: v') : u = u' ∧ v = v' := by
  induction u generalizing u' with
  | nil =>
    cases u' with
    | nil => simpa using h
    | cons y ys =>
      rw [List.nil_append, List.cons_append, List.cons.injEq] at h
      exact absurd (by simp [h.1]) hu'
  | cons y ys ih =>
    cases u' with
    | nil =>
      rw [List.nil_append, List.cons_append, List.cons.injEq] at h
      exact absurd (by simp [h.1]) hu
    | cons z zs =>
      rw [List.cons_append, List.cons_append, List.cons.injEq] at h
      obtain ⟨huv, hv⟩ := ih (fun hx => hu (List.mem_cons_of_mem _ hx))
        (fun hx => hu' (List.mem_cons_of_mem _ hx)) h.2
      exact ⟨by rw [h.1, huv], hv⟩

/-- The key of a CDR determines the call and the second: the last dash of the key
separates them, whatever dashes the call id contains. -/
theorem cdrId_inj {c c' : LuaString} {e e' : ℕ} (h : cdrId c e = cdrId c' e') :
    c = c' ∧ e = e' := by
  have hdash : ascii "-" = [45] := by decide
  have hrev : ∀ c e, (cdrId c e).reverse =
      (decimal e).reverse ++ 45 :: (c.reverse ++ (ascii "cdr-").reverse) := by
    intro c e
    simp [cdrId, hdash]
  have hno : ∀ e, (45 : UInt8) ∉ (decimal e).reverse := fun e => by
    simpa using decimal_no_dash e
  obtain ⟨hdec, hcall⟩ := append_separator_inj (hno e) (hno e') (by rw [← hrev, ← hrev, h])
  exact ⟨List.reverse_injective (List.append_cancel_right hcall),
    decimal_injective (List.reverse_injective hdec)⟩

/-! ## Revenue and money taken -/

/-- The revenue of `get_live_stats`, before rounding, is the total over the CDRs. -/
theorem totalRevenue_eq_sumOf (b : Box) :
    (liveTotals b).totalRevenue = b.cdrs.sumOf Cdr.billedAmount := by
  have hfold : ∀ (l : List Cdr) (t : LiveTotals),
      (l.foldl LiveTotals.add t).totalRevenue = t.totalRevenue + (l.map Cdr.billedAmount).sum := by
    intro l
    induction l with
    | nil => intro t; simp
    | cons cdr l ih =>
      intro t
      rw [List.foldl_cons, ih, List.map_cons, List.sum_cons, ← add_assoc]
      rfl
  rw [liveTotals, hfold]
  exact zero_add _

/-- The money on all accounts. -/
def Box.totalBalance (b : Box) : ℚ := b.subscribers.sumOf Subscriber.balance

/-- The money a request takes from balances: what a teardown makes the accounts
lose, nothing for the other procedures. -/
def taken (b : Box) (x : Clock × Op) : ℚ :=
  match x.2 with
  | .finalizeCdr _ => b.totalBalance - (perform b x).totalBalance
  | _ => 0

/-- The subscriber to charge can pay the price; without one the price is zero. -/
def Affordable (a : FinalizeArgs) (b : Box) : Prop :=
  match b.subscribers.get (chargedSubscriber a.callId b) with
  | some sub => teardownPrice a b ≤ sub.balance
  | none => teardownPrice a b = 0

instance (a : FinalizeArgs) (b : Box) : Decidable (Affordable a b) := by
  unfold Affordable
  split <;> infer_instance

/-- A request that keeps the ledger right: if it is a teardown, its report fits the
format of `cdrs`, no CDR of the call was stored in this second, and the price can
be paid. -/
def KeepsLedger (b : Box) : Clock × Op → Prop
  | (now, .finalizeCdr a) =>
      ReportFits now a b ∧ b.cdrs.get (cdrId a.callId now.epoch) = none ∧ Affordable a b
  | _ => True

instance (b : Box) : ∀ x : Clock × Op, Decidable (KeepsLedger b x)
  | (now, .finalizeCdr a) =>
      inferInstanceAs (Decidable (ReportFits now a b ∧ _ = none ∧ Affordable a b))
  | (_, .addSubscriber _) => .isTrue trivial
  | (_, .updateBalance _ _) => .isTrue trivial
  | (_, .setTariff _) => .isTrue trivial
  | (_, .authorizeCall _) => .isTrue trivial

/-- What a debit makes the accounts lose. -/
theorem totalBalance_deduct (now : Clock) (a : FinalizeArgs) (b : Box) :
    b.totalBalance - ((finalizeLocals now a b).deduct b).totalBalance =
      match b.subscribers.get (chargedSubscriber a.callId b) with
      | some sub => sub.balance - max 0 (sub.balance - teardownPrice a b)
      | none => 0 := by
  have hsum := KeyedTable.sumOf_update (f := (finalizeLocals now a b).charge) b.subscribers
    Subscriber.balance (fun _ => rfl) (chargedSubscriber a.callId b)
  have hdef : ((finalizeLocals now a b).deduct b).totalBalance =
      (b.subscribers.update (chargedSubscriber a.callId b)
        (finalizeLocals now a b).charge).sumOf Subscriber.balance := rfl
  rw [hdef, Box.totalBalance]
  cases hsub : b.subscribers.get (chargedSubscriber a.callId b) with
  | none =>
    rw [hsub] at hsum
    simp only [Option.elim_none, add_zero] at hsum
    simp [hsum]
  | some sub =>
    rw [hsub] at hsum
    have hnew := finalizeLocals_newBalance now hsub
    have hcharge : ((finalizeLocals now a b).charge sub).balance =
      (finalizeLocals now a b).newBalance := rfl
    simp only [Option.elim_some, hcharge, hnew] at hsum
    simp only
    linarith

/-- A teardown that keeps the ledger right adds to the revenue what it takes. -/
theorem revenue_perform {b : Box} {x : Clock × Op} (h : KeepsLedger b x) :
    (liveTotals (perform b x)).totalRevenue = (liveTotals b).totalRevenue + taken b x := by
  obtain ⟨now, op⟩ := x
  rw [totalRevenue_eq_sumOf, totalRevenue_eq_sumOf]
  cases op with
  | finalizeCdr a =>
    obtain ⟨hfits, hfresh, hpay⟩ := h
    obtain ⟨cdr, hcheck⟩ := (CdrRow.check_isOk_iff _).2 ((row_fits_iff now a b).2 hfits)
    obtain ⟨-, -, hid, -, -, -, -, hamount⟩ := CdrRow.check_eq_ok hcheck
    have hafter : perform b (now, .finalizeCdr a) =
        ((((finalizeLocals now a b).deduct b).storeCdr cdr).deleteDialog a.callId).deleteCall
          a.callId := congrArg Prod.snd (finalizeCdr_of_ok hcheck)
    -- the stored record is new, so it adds its amount to the revenue
    have hrevenue : (perform b (now, .finalizeCdr a)).cdrs.sumOf Cdr.billedAmount =
        b.cdrs.sumOf Cdr.billedAmount + teardownPrice a b := by
      have hput := KeyedTable.sumOf_put b.cdrs Cdr.billedAmount cdr
      rw [hid, show (finalizeLocals now a b).row.cdrId = cdrId a.callId now.epoch from rfl,
        hfresh, hamount] at hput
      rw [Option.elim_none, add_zero] at hput
      rw [hafter]
      exact hput
    have htaken : taken b (now, .finalizeCdr a) =
        b.totalBalance - ((finalizeLocals now a b).deduct b).totalBalance := by
      show b.totalBalance - (perform b (now, .finalizeCdr a)).totalBalance = _
      rw [hafter]
      rfl
    rw [hrevenue, htaken, totalBalance_deduct]
    unfold Affordable at hpay
    cases hsub : b.subscribers.get (chargedSubscriber a.callId b) with
    | none =>
      rw [hsub] at hpay
      rw [show teardownPrice a b = 0 from hpay]
    | some sub =>
      rw [hsub] at hpay
      have hpay' : teardownPrice a b ≤ sub.balance := hpay
      simp only
      rw [max_eq_right (by linarith)]
      ring
  | addSubscriber a => rw [perform_cdrs b now (by simp)]; simp [taken]
  | updateBalance subId deltaAmount => rw [perform_cdrs b now (by simp)]; simp [taken]
  | setTariff a => rw [perform_cdrs b now (by simp)]; simp [taken]
  | authorizeCall a => rw [perform_cdrs b now (by simp)]; simp [taken]

/-- **The ledger.**  In every history of requests from the empty spaces whose
teardowns all keep the ledger right, the revenue that `get_live_stats` sums over
the CDRs is the money the teardowns took from balances. -/
theorem revenue_eq_taken {l : List (Clock × Op)} (h : AllSteps perform KeepsLedger Box.init l) :
    (liveTotals (run perform Box.init l)).totalRevenue = total perform taken Box.init l := by
  have hrun := run_potential (I := fun _ => True) (Φ := fun b => (liveTotals b).totalRevenue)
    (fun b x _ hx => ⟨trivial, revenue_perform hx⟩) trivial h
  rw [hrun]
  exact zero_add _

/-- The shop of `Rating`, as a history. -/
def openShop (balance maxCalls rate fee : ℚ) : List (Clock × Op) :=
  [(noon, .addSubscriber ⟨ascii "alice", some balance, none, some maxCalls, none⟩),
    (noon, .setTariff ⟨ascii "7", none, some rate, some fee⟩)]

/-- A call that stays within the balance is booked as it is paid. -/
theorem revenue_eq_taken_one_minute :
    (liveTotals (run perform Box.init (openShop 10 1 1 0 ++
      [(noon, .authorizeCall (aliceCall "c1")), (noon, .finalizeCdr (teardown "c1" 60))]))).totalRevenue =
    total perform taken Box.init (openShop 10 1 1 0 ++
      [(noon, .authorizeCall (aliceCall "c1")), (noon, .finalizeCdr (teardown "c1" 60))]) :=
  revenue_eq_taken (by decide +kernel)

/-- **A CDR that records more than was taken.**  With 1 on the account, a call of two
minutes at 1 per minute is booked with 2 and takes 1. -/
theorem revenue_ne_taken :
    (liveTotals (run perform Box.init (openShop 1 1 1 0 ++
      [(noon, .authorizeCall (aliceCall "c1")), (noon, .finalizeCdr (teardown "c1" 120))]))).totalRevenue ≠
    total perform taken Box.init (openShop 1 1 1 0 ++
      [(noon, .authorizeCall (aliceCall "c1")), (noon, .finalizeCdr (teardown "c1" 120))]) := by
  decide +kernel

/-! ## CDRs are kept -/

/-- A teardown that completes leaves every CDR stored before it unchanged. -/
def CdrsKept (b : Box) (x : Clock × Op) : Prop :=
  ∀ a reply, x.2 = .finalizeCdr a → (finalizeCdr x.1 a b).1 = .ok reply →
    ∀ id cdr, b.cdrs.get id = some cdr → (perform b x).cdrs.get id = some cdr

/-- A request that is not a teardown of a call with a CDR of this very second. -/
def NewInThisSecond (b : Box) : Clock × Op → Prop
  | (now, .finalizeCdr a) =>
      ∀ cdr ∈ b.cdrs.rows, ¬ (cdr.callId = a.callId ∧ cdr.endTime = now.epoch)
  | _ => True

instance (b : Box) : ∀ x : Clock × Op, Decidable (NewInThisSecond b x)
  | (now, .finalizeCdr a) =>
      inferInstanceAs (Decidable (∀ cdr ∈ b.cdrs.rows,
        ¬ (cdr.callId = a.callId ∧ cdr.endTime = now.epoch)))
  | (_, .addSubscriber _) => .isTrue trivial
  | (_, .updateBalance _ _) => .isTrue trivial
  | (_, .setTariff _) => .isTrue trivial
  | (_, .authorizeCall _) => .isTrue trivial

/-- Every stored CDR is under the key made from its call and its end. -/
def KeyedByCall (b : Box) : Prop := ∀ cdr ∈ b.cdrs.rows, cdr.cdrId = cdrId cdr.callId cdr.endTime

/-- The CDRs after a teardown: one record more if the report fits, else the same. -/
theorem finalizeCdr_cdrs (now : Clock) (a : FinalizeArgs) (b : Box) :
    (∃ cdr, cdr.cdrId = cdrId a.callId now.epoch ∧ cdr.callId = a.callId ∧
      cdr.endTime = now.epoch ∧ (finalizeCdr now a b).2.cdrs = b.cdrs.put cdr) ∨
    (finalizeCdr now a b).2.cdrs = b.cdrs ∧ ∀ reply, (finalizeCdr now a b).1 ≠ .ok reply := by
  rcases finalizeCdr_cases now a b with ⟨cdr, hcheck, heq⟩ | ⟨e, -, heq⟩
  · obtain ⟨-, -, hid, hcall, -, -, hend, -⟩ := CdrRow.check_eq_ok hcheck
    exact Or.inl ⟨cdr, hid, hcall, hend, by rw [heq]; rfl⟩
  · exact Or.inr ⟨by rw [heq]; rfl, by rw [heq]; simp⟩

theorem keyedByCall_perform {b : Box} (h : KeyedByCall b) (x : Clock × Op) :
    KeyedByCall (perform b x) := by
  obtain ⟨now, op⟩ := x
  by_cases hop : ∃ a, op = .finalizeCdr a
  · obtain ⟨a, rfl⟩ := hop
    intro cdr hcdr
    rcases finalizeCdr_cdrs now a b with ⟨new, hid, hcall, hend, hput⟩ | ⟨hsame, -⟩
    · have hmem : cdr ∈ (b.cdrs.put new).rows := hput ▸ hcdr
      rcases KeyedTable.mem_putRow hmem with rfl | hold
      · rw [hid, hcall, hend]
      · exact h cdr hold
    · exact h cdr (hsame ▸ hcdr)
  · unfold KeyedByCall
    rw [perform_cdrs b now (fun a ha => hop ⟨a, ha⟩)]
    exact h

/-- A teardown of a call that has no CDR of this second keeps every CDR. -/
theorem cdrsKept_of_new {b : Box} {x : Clock × Op} (hb : KeyedByCall b)
    (h : NewInThisSecond b x) : CdrsKept b x := by
  obtain ⟨now, op⟩ := x
  rintro a reply hop hok id cdr hget
  obtain rfl : op = .finalizeCdr a := hop
  rcases finalizeCdr_cdrs now a b with ⟨new, hid, -, -, hput⟩ | ⟨-, hno⟩
  · show (finalizeCdr now a b).2.cdrs.get id = some cdr
    rw [hput, KeyedTable.get_put, if_neg, hget]
    -- the key of the old record would name the same call and the same second
    intro heq
    have hmem := KeyedTable.mem_of_get hget
    have hkey : cdrId cdr.callId cdr.endTime = cdrId a.callId now.epoch := by
      rw [← hb cdr hmem, KeyedTable.key_of_get hget, heq, hid]
    exact h cdr hmem (cdrId_inj hkey)
  · exact absurd hok (hno reply)

/-- **No CDR is lost.**  In every history of requests from the empty spaces in which
no call is torn down in a second for which it already has a CDR, every teardown
that completes leaves every CDR stored before it unchanged. -/
theorem cdrs_kept {l : List (Clock × Op)} (h : AllSteps perform NewInThisSecond Box.init l) :
    AllSteps perform CdrsKept Box.init l := by
  refine AllSteps.of_invariant (I := KeyedByCall) ?_ ?_ h
  · intro b x hb hx
    exact ⟨keyedByCall_perform hb x, cdrsKept_of_new hb hx⟩
  · intro cdr hcdr
    cases hcdr

/-- Two teardowns of one call, a minute apart, both leave their CDR. -/
theorem cdrs_kept_minute_apart :
    AllSteps perform CdrsKept Box.init (openShop 10 1 1 0 ++
      [(noon, .authorizeCall (aliceCall "c1")), (noon, .finalizeCdr (teardown "c1" 60)),
        (noonPlusMinute, .finalizeCdr (teardown "c1" 60))]) :=
  cdrs_kept (by decide +kernel)

/-- **A CDR that is lost.**  A repeated teardown in the same second finds no dialog and
replaces the record of `alice` by one of the caller `unknown`. -/
theorem cdr_overwritten :
    ¬ AllSteps perform CdrsKept Box.init (openShop 10 1 1 0 ++
      [(noon, .authorizeCall (aliceCall "c1")), (noon, .finalizeCdr (teardown "c1" 60)),
        (noon, .finalizeCdr (teardown "c1" 60))]) := by
  rintro ⟨-, -, -, -, h, -⟩
  have hkept := h (teardown "c1" 60) ⟨cdrId (ascii "c1") noon.epoch, 60, 1 / 20, 0⟩ rfl
    (by decide +kernel) (cdrId (ascii "c1") noon.epoch)
    ⟨cdrId (ascii "c1") noon.epoch, ascii "c1", ascii "alice", ascii "79991234567", 1700000000,
      1700000000, 60, 1, 44 / 10, 12 / 10, 0, ascii "rtpe-node-01"⟩ (by decide +kernel)
  revert hkept
  decide +kernel

end VoipBackend
