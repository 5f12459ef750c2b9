import StapelBilling.Operations
import StapelBilling.Store.Growth

/-! # What a move leaves alone

A move touches at most one hold, and only the moves of a hold, a capture or a
release touch any.  The operations that spend, grant or claw back therefore leave
every reservation as it is, and a capture or a release leaves every other one.
-/
namespace StapelBilling
open Store

variable {env : Env} {w : ℕ} {db db' : Db}

/-! ## The writes of the booking functions -/

section Bookings
variable (env : Env) (w : ℕ) (db : Db)

theorem armHold_holds (args : HoldArgs) (credits : ℤ) (metadata : Metadata) (k : ℕ)
    (taken : List (ℕ × ℤ)) :
    (armHold env w args credits metadata (some k) taken db).2.holds = db.holds.modify k fun held =>
      { held with
        credits
        type := args.type
        description := args.description
        metadata
        status := .held
        expiresAt := holdDeadline env args.expiresAt
        resolvedAt := none
        allocations := appendAllocations env taken Table.empty } := rfl

theorem settleHold_holds (h : ℕ) (status : HoldStatus) :
    (settleHold env h status db).holds = db.holds.modify h fun held =>
      { held with
        status
        resolvedAt := some env.now } := rfl

theorem billHold_holds (held : CreditHold) (actual : ℤ) (args : CaptureArgs) :
    (billHold env w held actual args db).2.holds = db.holds.modify args.hold fun held =>
      { held with
        status := .captured
        resolvedAt := some env.now } := rfl

theorem meterOnlyCapture_holds (held : CreditHold) (actual : ℤ) (args : CaptureArgs) :
    (meterOnlyCapture env w held actual args db).2.holds = db.holds.modify args.hold fun held =>
      { held with
        status := .captured
        resolvedAt := some env.now } := rfl

theorem refundAllocation_holds (h a : ℕ) (alloc : HoldAllocation) (amount : ℤ) :
    (refundAllocation env h w a alloc amount db).holds = db.holds.modify h fun held =>
      { held with
        allocations := held.allocations.modify a fun alloc =>
          { alloc with credits := alloc.credits - amount } } := rfl

theorem allocateMore_holds (h : ℕ) (taken : List (ℕ × ℤ)) :
    (allocateMore env h taken db).holds = db.holds.modify h fun held =>
      { held with allocations := appendAllocations env taken held.allocations } := rfl

theorem collectDebt_debts (k : ℕ) (debt : CreditDebt) (amount : ℤ) (taken : List (ℕ × ℤ)) :
    (collectDebt env w k debt amount taken db).debts = db.debts.modify k fun d =>
      { d with
        creditsOutstanding := debt.creditsOutstanding - amount
        settledAt := if debt.creditsOutstanding - amount ≤ 0 then some env.now
          else d.settledAt } := rfl

theorem cancelDebt_debts (k : ℕ) (eventId : Option String) :
    (cancelDebt env k eventId db).debts = db.debts.modify k fun debt =>
      { debt with
        creditsOutstanding := 0
        settledAt := some env.now
        metadata := debt.metadata.set .cancelledBy (jsonText eventId) } := rfl

theorem markReversed_transactions (k : ℕ) (requested : ℤ) (eventId : Option String) :
    (markReversed k requested eventId db).transactions = db.transactions.modify k fun row =>
      { row with
        metadata := (row.metadata.set .reversed (.int requested)).set .reversedBy
          (jsonText eventId) } := rfl

theorem meterOnlyDebit_lots (args : DebitArgs) : (meterOnlyDebit env w args db).2.lots = db.lots := by
  unfold meterOnlyDebit
  dsimp only
  split <;> rfl

theorem meterOnlyDebit_wallets (args : DebitArgs) :
    (meterOnlyDebit env w args db).2.wallets = db.wallets := by
  unfold meterOnlyDebit
  dsimp only
  split <;> rfl

theorem chargeDebit_lots (args : DebitArgs) (chargeable : ℤ) (taken : List (ℕ × ℤ)) :
    (chargeDebit env w args chargeable taken db).2.lots = db.lots := by
  unfold chargeDebit
  dsimp only
  split <;> split <;> rfl

theorem chargeDebit_wallets (args : DebitArgs) (chargeable : ℤ) (taken : List (ℕ × ℤ)) :
    (chargeDebit env w args chargeable taken db).2.wallets =
      (db.syncBalance w env.now).wallets := by
  unfold chargeDebit
  dsimp only
  split <;> split <;> rfl

theorem armHold_lots (args : HoldArgs) (credits : ℤ) (metadata : Metadata) (existing : Option ℕ)
    (taken : List (ℕ × ℤ)) :
    (armHold env w args credits metadata existing taken db).2.lots = db.lots := by
  cases existing <;> rfl

theorem armHold_wallets (args : HoldArgs) (credits : ℤ) (metadata : Metadata) (existing : Option ℕ)
    (taken : List (ℕ × ℤ)) :
    (armHold env w args credits metadata existing taken db).2.wallets = db.wallets := by
  cases existing <;> rfl

end Bookings

section Clawbacks
variable (env : Env) (grant : ℕ) (txn : Transaction) (requested reclaimed forgiven : ℤ)
  (description : Option String) (metadata : Metadata) (taken : List (ℕ × ℤ)) (db : Db)

theorem bookClawback_lots :
    (bookClawback env grant txn requested reclaimed forgiven description metadata taken db).2.lots =
      db.lots := by
  unfold bookClawback
  dsimp only
  split <;> rfl

theorem bookClawback_wallets :
    (bookClawback env grant txn requested reclaimed forgiven description metadata taken
      db).2.wallets = (db.syncBalance txn.wallet env.now).wallets := by
  unfold bookClawback
  dsimp only
  split <;> rfl

end Clawbacks

/-! ## Holds -/

/-- The hold a move rewrites. -/
def Move.hold? : Move → Option ℕ
  | .refund h | .overdraw h | .settle h _ => some h
  | .bill args _ | .waive args _ => some args.hold
  | _ => none

/-- Does the move arm a hold? -/
def Move.IsArm : Move → Prop
  | .arm _ _ _ => True
  | _ => False

/-- A move leaves every hold alone but the one it names. -/
theorem Step.holds_frame {m : Move} (h : Step env w m db db') (harm : ¬ m.IsArm) {j : ℕ}
    (hj : m.hold? ≠ some j) : db'.holds.get? j = db.holds.get? j := by
  have hne : ∀ {k : ℕ}, some k ≠ some j → j ≠ k := fun hk he => hk (by rw [he])
  cases h with
  | openWallet _ _ | sync | expire _ _ _ | grant _ _ | collect _ _ _ _ _ _ _ | cancel | mark => rfl
  | meter =>
    unfold meterOnlyDebit
    dsimp only
    split <;> rfl
  | charge _ _ _ =>
    unfold chargeDebit
    dsimp only
    split <;> split <;> rfl
  | arm _ _ _ _ => exact absurd trivial harm
  | refund _ _ _ _ _ _ => exact Table.get?_modify_of_ne _ _ (hne hj)
  | overdraw _ _ _ _ => exact Table.get?_modify_of_ne _ _ (hne hj)
  | bill _ _ _ _ => exact Table.get?_modify_of_ne _ _ (hne hj)
  | waive _ _ _ _ => exact Table.get?_modify_of_ne _ _ (hne hj)
  | settle _ _ _ _ => exact Table.get?_modify_of_ne _ _ (hne hj)
  | clawback _ _ =>
    unfold bookClawback
    dsimp only
    split <;> rfl
  | restore _ =>
    show (expireDueLots env w _).2.holds.get? j = _
    rw [(expireDueLots_frame _).1]

/-- **A sequence of moves leaves every hold alone that none of them names.** -/
theorem Moves.holds_frame {P : Move → Prop} {j : ℕ}
    (hP : ∀ m, P m → ¬ m.IsArm ∧ m.hold? ≠ some j) (h : Moves env w P db db') :
    db'.holds.get? j = db.holds.get? j := by
  refine Moves.invariant (I := fun db' => db'.holds.get? j = db.holds.get? j) ?_ h rfl
  intro m db₁ db₂ hm hI hs
  rw [hs.holds_frame (hP m hm).1 (hP m hm).2, hI]

theorem frame_capture {args : CaptureArgs} {held : CreditHold} {m : Move}
    (hm : Move.OfCapture args held m) {j : ℕ} (hj : j ≠ args.hold) :
    ¬ m.IsArm ∧ m.hold? ≠ some j := by
  refine ⟨?_, fun he => ?_⟩
  · cases m <;> first | exact hm.elim | exact fun h => h
  · cases m <;> first | exact hm.elim | cases he
    all_goals exact hj (by first | exact hm | rw [hm.1])

theorem frame_release {args : ReleaseArgs} {held : CreditHold} {m : Move}
    (hm : Move.OfRelease args held m) {j : ℕ} (hj : j ≠ args.hold) :
    ¬ m.IsArm ∧ m.hold? ≠ some j := by
  refine ⟨?_, fun he => ?_⟩
  · cases m <;> first | exact hm.elim | exact fun h => h
  · cases m <;> first | exact hm.elim | cases he
    all_goals exact hj (by first | exact hm | exact hm.1)

theorem credit_holds {args : CreditArgs} {t : ℕ} (h : credit env args db = .ok (t, db')) (j : ℕ) :
    db'.holds.get? j = db.holds.get? j := by
  refine Moves.holds_frame ?_ (credit_moves h)
  intro m hm
  cases m <;> first | exact hm.elim | exact ⟨fun h => h, by simp [Move.hold?]⟩

theorem debit_holds {args : DebitArgs} {answer : DebitAnswer}
    (h : debit env args db = .ok (answer, db')) (j : ℕ) :
    db'.holds.get? j = db.holds.get? j := by
  refine Moves.holds_frame ?_ (debit_moves h)
  intro m hm
  cases m <;> first | exact hm.elim | exact ⟨fun h => h, by simp [Move.hold?]⟩

theorem clawBackGrant_holds {grant : ℕ} {txn : Transaction} {credits : Option ℤ}
    {description : Option String} {metadata : Metadata} {r : ClawbackResult}
    (h : clawBackGrant env grant txn credits description metadata db = .ok (r, db')) (j : ℕ) :
    db'.holds.get? j = db.holds.get? j := by
  refine Moves.holds_frame ?_ (clawBackGrant_moves h)
  intro m hm
  cases m <;> first | exact hm.elim | exact ⟨fun h => h, by simp [Move.hold?]⟩

theorem reverseClawback_holds {k : ℕ} {row : Transaction} {eventId : Option String} {n : ℤ}
    (h : reverseClawback env k row eventId db = .ok (n, db')) (j : ℕ) :
    db'.holds.get? j = db.holds.get? j := by
  refine Moves.holds_frame ?_ (reverseClawback_moves h)
  intro m hm
  cases m <;> first | exact hm.elim | exact ⟨fun h => h, by simp [Move.hold?]⟩

/-! ## Backed holds -/

theorem Db.HoldsBacked.congr (hb : db.HoldsBacked)
    (h : ∀ j, db'.holds.get? j = db.holds.get? j) : db'.HoldsBacked := by
  intro k held hk
  rw [h k] at hk
  exact hb k held hk

/-- A freshly armed hold draws what it reserves. -/
theorem armHold_backed {d : Db} {args : HoldArgs} {credits : ℤ} {metadata : Metadata} {existing : Option ℕ}
    {taken : List (ℕ × ℤ)} (hb : d.HoldsBacked) (htaken : ∀ k n, (k, n) ∈ taken → 0 < n) (hdrawn : drawn taken = credits)
    (hwaived : metadata.wasWaived = true → credits = 0) :
    (armHold env w args credits metadata existing taken d).2.HoldsBacked := by
  have hfresh : ∀ held : CreditHold, held.credits = credits → held.metadata = metadata →
      held.allocations = appendAllocations env taken Table.empty → held.Backed := by
    rintro held rfl rfl hallocations
    refine ⟨fun a alloc ha => ?_, ?_, hwaived⟩
    · rw [hallocations] at ha
      rcases appendAllocations_get? ha with hold | hmem
      · rw [Table.get?_empty] at hold
        cases hold
      · exact (htaken _ _ hmem).le
    · rw [CreditHold.allocated, hallocations, appendAllocations_sum, Table.sum_empty, hdrawn,
        zero_add]
  unfold armHold
  intro k held hk hstatus
  cases existing with
  | some j =>
    simp only [Table.get?_modify] at hk
    split at hk
    · obtain ⟨old, -, rfl⟩ := Option.map_eq_some_iff.mp hk
      exact hfresh _ rfl rfl rfl
    · exact hb k held hk hstatus
  | none =>
    simp only [Table.get?_insert] at hk
    split at hk
    · obtain rfl := Option.some.inj hk
      exact hfresh _ rfl rfl rfl
    · exact hb k held hk hstatus

/-- **A hold keeps every reservation backed**, when its caller's metadata is not
marked as waived. -/
theorem hold_backed {args : HoldArgs} {k : ℕ} (hb : db.HoldsBacked)
    (hmark : args.metadata.wasWaived = false) (h : hold env args db = .ok (k, db')) :
    db'.HoldsBacked := by
  refine Moves.invariant (I := Db.HoldsBacked) ?_ (hold_moves h) hb
  intro m db₁ db₂ hm hI hs
  by_cases harm : m.IsArm
  · cases hs with
    | arm hexisting hcredits htaken hdrawn =>
      obtain rfl : _ = args := hm
      refine armHold_backed (d := Db.spendLots _ _) hI (fun k n hmem => (htaken.lot k n hmem).1)
        hdrawn ?_
      rcases hcredits with ⟨-, rfl⟩ | ⟨rfl, -⟩
      · intro hw
        rw [hmark] at hw
        cases hw
      · exact fun _ => rfl
    | _ => exact harm.elim
  · refine hI.congr fun j => hs.holds_frame harm ?_
    cases m <;> first | exact hm.elim | simp [Move.hold?]

theorem settleHold_status {h : ℕ} {status : HoldStatus} {held : CreditHold}
    (hheld : (settleHold env h status db).holds.get? h = some held) : held.status = status := by
  have hmap := (Table.get?_modify_self _ _ _).symm.trans hheld
  obtain ⟨old, -, rfl⟩ := Option.map_eq_some_iff.mp hmap
  rfl

/-- A call that only touches one hold, and resolves it, keeps the others backed. -/
theorem Db.HoldsBacked.resolve {h : ℕ} (hb : db.HoldsBacked)
    (hothers : ∀ j, j ≠ h → db'.holds.get? j = db.holds.get? j)
    (hresolved : ∀ held, db'.holds.get? h = some held → held.status ≠ .held) : db'.HoldsBacked := by
  intro k held hk hstatus
  by_cases hkh : k = h
  · subst hkh
    exact absurd hstatus (hresolved held hk)
  · rw [hothers k hkh] at hk
    exact hb k held hk hstatus

theorem captureLocked_backed {args : CaptureArgs} {held : CreditHold} {t : ℕ}
    (hb : db.HoldsBacked) (hheld : db.holds.get? args.hold = some held) (hw : held.wallet = w)
    (h : captureLocked env w args db = .ok (t, db')) : db'.HoldsBacked := by
  have hmoves := captureLocked_moves hheld hw h
  have hothers : ∀ j, j ≠ args.hold → db'.holds.get? j = db.holds.get? j :=
    fun j hj => Moves.holds_frame (fun _ hm => frame_capture hm hj) hmoves
  obtain ⟨held', -, hcase⟩ := captureLocked_cases h
  rcases hcase with ⟨-, rfl, -⟩ | ⟨-, -, ⟨-, hrow⟩ | ⟨-, db₂, -, hrow⟩⟩
  · exact hb
  · obtain ⟨-, rfl⟩ := Prod.mk.inj hrow
    refine hb.resolve hothers fun final hfinal => ?_
    rw [settleHold_status hfinal]
    decide
  · obtain ⟨-, rfl⟩ := Prod.mk.inj hrow
    refine hb.resolve hothers fun final hfinal => ?_
    rw [settleHold_status hfinal]
    decide

theorem capture_backed {args : CaptureArgs} {t : ℕ} (hb : db.HoldsBacked)
    (h : capture env args db = .ok (t, db')) : db'.HoldsBacked := by
  unfold capture at h
  split at h
  · cases h
  · rename_i w hw
    obtain ⟨held, hheld, hwallet⟩ := holdWallet_ok hw
    exact captureLocked_backed hb hheld hwallet h

theorem release_backed {args : ReleaseArgs} (hb : db.HoldsBacked)
    (h : release env args db = .ok db') : db'.HoldsBacked := by
  obtain ⟨held, hheld, hmoves⟩ := release_moves h
  have hothers : ∀ j, j ≠ args.hold → db'.holds.get? j = db.holds.get? j :=
    fun j hj => Moves.holds_frame (fun _ hm => frame_release hm hj) hmoves
  obtain ⟨held', hheld', hcase⟩ := release_cases h
  rcases hcase with ⟨-, rfl⟩ | ⟨-, rfl⟩
  · exact hb
  · refine hb.resolve hothers fun final hfinal => ?_
    rw [settleHold_status hfinal]
    split <;> decide

/-! ## Where rows come from

A move rewrites no column of a lot but what it holds, no column of a ledger row
but its metadata, no column of a debt but what is outstanding and its settlement
marks; a hold and a wallet stay whose they are.  Every row it adds is the
operated wallet's. -/

/-- The same lot, holding a possibly different amount. -/
def CreditLot.Same (lot lot' : CreditLot) : Prop :=
  lot' = { lot with creditsRemaining := lot'.creditsRemaining }

/-- The same ledger row, with possibly different metadata. -/
def Transaction.Same (row row' : Transaction) : Prop :=
  row' = { row with metadata := row'.metadata }

/-- The same debt, collected or cancelled further. -/
def CreditDebt.Same (debt debt' : CreditDebt) : Prop :=
  debt' = { debt with
    creditsOutstanding := debt'.creditsOutstanding
    settledAt := debt'.settledAt
    metadata := debt'.metadata }

/-- The same hold: its wallet and its key never change. -/
def CreditHold.Same (held held' : CreditHold) : Prop :=
  held'.wallet = held.wallet ∧ held'.idempotencyKey = held.idempotencyKey

/-- **What a move does to the tables**, row by row. -/
structure Db.Grows (w : ℕ) (db db' : Db) : Prop where
  lots : Store.Grows CreditLot.Same (fun lot => lot.wallet = w) db.lots db'.lots
  transactions : Store.Grows Transaction.Same (fun row => row.wallet = w) db.transactions
    db'.transactions
  holds : Store.Grows CreditHold.Same (fun held => held.wallet = w) db.holds db'.holds
  debts : Store.Grows CreditDebt.Same (fun debt => debt.wallet = w) db.debts db'.debts

theorem CreditLot.Same.refl (a : CreditLot) : a.Same a := rfl
theorem Transaction.Same.refl (a : Transaction) : a.Same a := rfl
theorem CreditDebt.Same.refl (a : CreditDebt) : a.Same a := rfl
theorem CreditHold.Same.refl (a : CreditHold) : a.Same a := ⟨rfl, rfl⟩

theorem CreditLot.Same.trans (a b c : CreditLot) (hab : a.Same b) (hbc : b.Same c) : a.Same c := by
  unfold CreditLot.Same at *
  rw [hbc, hab]

theorem Transaction.Same.trans (a b c : Transaction) (hab : a.Same b) (hbc : b.Same c) :
    a.Same c := by
  unfold Transaction.Same at *
  rw [hbc, hab]

theorem CreditDebt.Same.trans (a b c : CreditDebt) (hab : a.Same b) (hbc : b.Same c) :
    a.Same c := by
  unfold CreditDebt.Same at *
  rw [hbc, hab]

theorem CreditHold.Same.trans (a b c : CreditHold) (hab : a.Same b) (hbc : b.Same c) :
    a.Same c :=
  ⟨hbc.1.trans hab.1, hbc.2.trans hab.2⟩

theorem CreditLot.Same.wallet {a b : CreditLot} (h : a.Same b) : b.wallet = a.wallet := by rw [h]

theorem Transaction.Same.wallet {a b : Transaction} (h : a.Same b) : b.wallet = a.wallet := by
  rw [h]

theorem CreditDebt.Same.wallet {a b : CreditDebt} (h : a.Same b) : b.wallet = a.wallet := by rw [h]

namespace Db.Grows

theorem refl (db : Db) : db.Grows w db :=
  ⟨Store.Grows.refl CreditLot.Same.refl _, Store.Grows.refl Transaction.Same.refl _,
    Store.Grows.refl CreditHold.Same.refl _, Store.Grows.refl CreditDebt.Same.refl _⟩

theorem trans {db₁ db₂ db₃ : Db} (h : db₁.Grows w db₂) (h' : db₂.Grows w db₃) :
    db₁.Grows w db₃ where
  lots := h.lots.trans CreditLot.Same.trans (fun _ _ ha hab => hab.wallet.trans ha) h'.lots
  transactions := h.transactions.trans Transaction.Same.trans
    (fun _ _ ha hab => hab.wallet.trans ha) h'.transactions
  holds := h.holds.trans CreditHold.Same.trans (fun _ _ ha hab => hab.1.trans ha) h'.holds
  debts := h.debts.trans CreditDebt.Same.trans (fun _ _ ha hab => hab.wallet.trans ha) h'.debts

end Db.Grows

/-! ### One write to one table -/

section Writes
variable {lots : Table CreditLot} {transactions : Table Transaction} {holds : Table CreditHold}
  {debts : Table CreditDebt} {k : ℕ}

theorem lots_same : Store.Grows CreditLot.Same (fun lot => lot.wallet = w) lots lots :=
  Store.Grows.refl CreditLot.Same.refl _

theorem lots_drain (taken : List (ℕ × ℤ)) :
    Store.Grows CreditLot.Same (fun lot => lot.wallet = w) lots (lots.drain CreditLot.spend taken) :=
  Store.Grows.drain CreditLot.Same.refl CreditLot.Same.trans fun _ _ => rfl

theorem lots_insert {lot : CreditLot} (h : lot.wallet = w) :
    Store.Grows CreditLot.Same (fun lot => lot.wallet = w) lots (lots.insert lot) :=
  Store.Grows.insert CreditLot.Same.refl h

theorem lots_modify {f : CreditLot → CreditLot} (hf : ∀ lot, CreditLot.Same lot (f lot)) :
    Store.Grows CreditLot.Same (fun lot => lot.wallet = w) lots (lots.modify k f) :=
  Store.Grows.modify CreditLot.Same.refl fun lot _ => hf lot

theorem rows_same :
    Store.Grows Transaction.Same (fun row => row.wallet = w) transactions transactions :=
  Store.Grows.refl Transaction.Same.refl _

theorem rows_insert {row : Transaction} (h : row.wallet = w) :
    Store.Grows Transaction.Same (fun row => row.wallet = w) transactions
      (transactions.insert row) :=
  Store.Grows.insert Transaction.Same.refl h

theorem rows_modify {f : Transaction → Transaction} (hf : ∀ row, Transaction.Same row (f row)) :
    Store.Grows Transaction.Same (fun row => row.wallet = w) transactions
      (transactions.modify k f) :=
  Store.Grows.modify Transaction.Same.refl fun row _ => hf row

theorem holds_same : Store.Grows CreditHold.Same (fun held => held.wallet = w) holds holds :=
  Store.Grows.refl CreditHold.Same.refl _

theorem holds_insert {held : CreditHold} (h : held.wallet = w) :
    Store.Grows CreditHold.Same (fun held => held.wallet = w) holds (holds.insert held) :=
  Store.Grows.insert CreditHold.Same.refl h

theorem holds_modify {f : CreditHold → CreditHold} (hf : ∀ held, CreditHold.Same held (f held)) :
    Store.Grows CreditHold.Same (fun held => held.wallet = w) holds (holds.modify k f) :=
  Store.Grows.modify CreditHold.Same.refl fun held _ => hf held

theorem debts_same : Store.Grows CreditDebt.Same (fun debt => debt.wallet = w) debts debts :=
  Store.Grows.refl CreditDebt.Same.refl _

theorem debts_insert {debt : CreditDebt} (h : debt.wallet = w) :
    Store.Grows CreditDebt.Same (fun debt => debt.wallet = w) debts (debts.insert debt) :=
  Store.Grows.insert CreditDebt.Same.refl h

theorem debts_modify {f : CreditDebt → CreditDebt} (hf : ∀ debt, CreditDebt.Same debt (f debt)) :
    Store.Grows CreditDebt.Same (fun debt => debt.wallet = w) debts (debts.modify k f) :=
  Store.Grows.modify CreditDebt.Same.refl fun debt _ => hf debt

end Writes

theorem expireLot_grows {k : ℕ} {lot : CreditLot} {running : ℤ} :
    db.Grows w (expireLot env w k lot running db) :=
  ⟨lots_modify fun _ => rfl, rows_insert rfl, holds_same, debts_same⟩

theorem syncBalance_grows {now : Time} : db.Grows w (db.syncBalance w now) :=
  ⟨lots_same, rows_same, holds_same, debts_same⟩

variable (env) in
theorem expireDueLots_grows (db : Db) : db.Grows w (expireDueLots env w db).2 := by
  refine Moves.invariant (I := fun db' => db.Grows w db') ?_
    (expireDueLots_moves env w (P := Move.IsSweep) trivial (fun _ => trivial) db)
    (Db.Grows.refl db)
  rintro m db₁ db₂ hm hI hs
  refine hI.trans ?_
  cases hs with
  | sync => exact syncBalance_grows
  | expire _ _ _ => exact expireLot_grows
  | _ => exact hm.elim

/-- **One move grows the tables.** -/
theorem Step.grows {m : Move} (h : Step env w m db db') : db.Grows w db' := by
  cases h with
  | openWallet _ _ => exact ⟨lots_same, rows_same, holds_same, debts_same⟩
  | sync => exact syncBalance_grows
  | expire _ _ _ => exact expireLot_grows
  | grant _ _ => exact ⟨lots_insert rfl, rows_insert rfl, holds_same, debts_same⟩
  | collect _ _ _ _ _ _ _ =>
    refine ⟨lots_drain _, rows_insert rfl, holds_same, ?_⟩
    rw [collectDebt_debts]
    exact debts_modify fun _ => rfl
  | meter =>
    unfold meterOnlyDebit
    dsimp only
    split <;> exact ⟨lots_same, rows_insert rfl, holds_same, debts_same⟩
  | charge _ _ _ =>
    unfold chargeDebit
    dsimp only
    split <;> split
    all_goals first
      | exact ⟨lots_drain _, rows_insert rfl, holds_same, debts_same⟩
      | exact ⟨lots_drain _, rows_insert rfl, holds_same, debts_insert rfl⟩
  | @arm _ args credits metadata existing taken _ _ _ _ =>
    cases existing with
    | some k =>
      refine ⟨lots_drain _, rows_same, ?_, debts_same⟩
      rw [armHold_holds]
      exact holds_modify fun _ => ⟨rfl, rfl⟩
    | none => exact ⟨lots_drain _, rows_same, holds_insert rfl, debts_same⟩
  | refund _ _ _ _ _ _ =>
    refine ⟨lots_insert rfl, rows_same, ?_, debts_same⟩
    rw [refundAllocation_holds]
    exact holds_modify fun _ => ⟨rfl, rfl⟩
  | overdraw _ _ _ _ =>
    refine ⟨lots_drain _, rows_same, ?_, debts_same⟩
    rw [allocateMore_holds]
    exact holds_modify fun _ => ⟨rfl, rfl⟩
  | bill _ _ _ _ =>
    refine ⟨lots_same, rows_insert rfl, ?_, debts_same⟩
    rw [billHold_holds]
    exact holds_modify fun _ => ⟨rfl, rfl⟩
  | waive _ _ _ _ =>
    refine ⟨lots_same, rows_insert rfl, ?_, debts_same⟩
    rw [meterOnlyCapture_holds]
    exact holds_modify fun _ => ⟨rfl, rfl⟩
  | settle _ _ _ _ =>
    refine ⟨lots_same, rows_same, ?_, debts_same⟩
    rw [settleHold_holds]
    exact holds_modify fun _ => ⟨rfl, rfl⟩
  | clawback hw _ =>
    unfold bookClawback
    dsimp only
    split
    · exact ⟨lots_drain _, rows_insert hw, holds_same, debts_insert hw⟩
    · exact ⟨lots_drain _, rows_insert hw, holds_same, debts_same⟩
  | cancel =>
    refine ⟨lots_same, rows_same, holds_same, ?_⟩
    rw [cancelDebt_debts]
    exact debts_modify fun _ => rfl
  | @restore _ k grant givenBack eventId hpos =>
    have hlot : db.Grows w { db with lots := db.lots.insert (restoredLot env w grant givenBack db) } :=
      ⟨lots_insert rfl, rows_same, holds_same, debts_same⟩
    have hsweep := hlot.trans (expireDueLots_grows env _)
    exact hsweep.trans ⟨lots_same, rows_insert rfl, holds_same, debts_same⟩
  | mark =>
    refine ⟨lots_same, ?_, holds_same, debts_same⟩
    rw [markReversed_transactions]
    exact rows_modify fun _ => rfl

theorem Moves.grows {P : Move → Prop} (h : Moves env w P db db') : db.Grows w db' :=
  Moves.invariant (I := fun db' => db.Grows w db') (fun _ _ _ _ hI hs => hI.trans hs.grows) h
    (Db.Grows.refl db)

/-! ## Wallets -/

/-- The same wallet, with a possibly different cached balance. -/
def Wallet.Same (wallet wallet' : Wallet) : Prop :=
  wallet' = { wallet with balance := wallet'.balance }

theorem Wallet.Same.refl (a : Wallet) : a.Same a := rfl

theorem Wallet.Same.trans (a b c : Wallet) (hab : a.Same b) (hbc : b.Same c) : a.Same c := by
  unfold Wallet.Same at *
  rw [hbc, hab]

theorem Wallet.Same.user {a b : Wallet} (h : a.Same b) : b.user = a.user := by rw [h]

/-- `t'` is the table of wallets `t` with balances refreshed. -/
structure WalletsSynced (t t' : Table Wallet) : Prop where
  next : t'.next = t.next
  grows : Store.Grows Wallet.Same (fun _ => False) t t'

theorem WalletsSynced.refl (t : Table Wallet) : WalletsSynced t t :=
  ⟨rfl, Store.Grows.refl Wallet.Same.refl _⟩

theorem WalletsSynced.trans {t t' t'' : Table Wallet} (h : WalletsSynced t t')
    (h' : WalletsSynced t' t'') : WalletsSynced t t'' :=
  ⟨h'.next.trans h.next, Store.Grows.trans Wallet.Same.trans (fun _ _ hf => hf.elim) h.grows h'.grows⟩

theorem syncBalance_wallets (db : Db) (now : Time) :
    (db.syncBalance w now).wallets = db.wallets.modify w fun wallet =>
      { wallet with balance := db.liveBalance w now } := rfl

theorem WalletsSynced.sync (db : Db) (now : Time) :
    WalletsSynced db.wallets (db.syncBalance w now).wallets := by
  rw [syncBalance_wallets]
  exact ⟨rfl, Store.Grows.modify Wallet.Same.refl fun _ _ => rfl⟩

variable (env) in
theorem expireDueLots_wallets (db : Db) :
    WalletsSynced db.wallets (expireDueLots env w db).2.wallets := by
  refine Moves.invariant (I := fun db' => WalletsSynced db.wallets db'.wallets) ?_
    (expireDueLots_moves env w (P := Move.IsSweep) trivial (fun _ => trivial) db)
    (WalletsSynced.refl _)
  rintro m db₁ db₂ hm hI hs
  cases hs with
  | sync => exact hI.trans (WalletsSynced.sync _ _)
  | expire _ _ _ => exact hI
  | _ => exact hm.elim

/-- Does the move open a wallet? -/
def Move.IsOpen : Move → Prop
  | .openWallet _ => True
  | _ => False

/-- **Only opening adds a wallet**; any other move at most refreshes balances. -/
theorem Step.wallets {m : Move} (h : Step env w m db db') (hm : ¬ m.IsOpen) :
    WalletsSynced db.wallets db'.wallets := by
  cases h with
  | openWallet _ _ => exact absurd trivial hm
  | sync => exact WalletsSynced.sync _ _
  | expire _ _ _ | refund _ _ _ _ _ _ | overdraw _ _ _ _ | settle _ _ _ _ | cancel | mark =>
    exact WalletsSynced.refl _
  | @grant _ args _ _ =>
    exact WalletsSynced.sync { db with lots := db.lots.insert (grantLot env w args db) } _
  | collect _ _ _ _ _ _ _ => exact WalletsSynced.sync (db.spendLots _) _
  | meter =>
    unfold meterOnlyDebit
    dsimp only
    split <;> exact WalletsSynced.refl _
  | charge _ _ _ =>
    unfold chargeDebit
    dsimp only
    split <;> split <;> exact WalletsSynced.sync (db.spendLots _) _
  | @arm _ args credits metadata existing taken _ _ _ _ =>
    cases existing <;> exact WalletsSynced.refl _
  | bill _ _ _ _ => exact WalletsSynced.sync db _
  | waive _ _ _ _ => exact WalletsSynced.sync db _
  | @clawback _ grant txn requested forgiven description metadata taken hw _ =>
    subst hw
    unfold bookClawback
    dsimp only
    split <;> exact WalletsSynced.sync (db.spendLots _) _
  | @restore _ k grant givenBack eventId hpos =>
    exact (expireDueLots_wallets env
      { db with lots := db.lots.insert (restoredLot env w grant givenBack db) }).trans
      (WalletsSynced.sync _ _)

/-- A user has at most one wallet. -/
def Db.UsersUnique (db : Db) : Prop :=
  ∀ j k a b u, db.wallets.get? j = some a → db.wallets.get? k = some b → a.user = some u →
    b.user = some u → j = k

/-- **No move gives a user a second wallet.** -/
theorem Step.usersUnique {m : Move} (h : Step env w m db db') (hu : db.UsersUnique) :
    db'.UsersUnique := by
  intro j k a b u hj hk ha hb
  by_cases hopen : m.IsOpen
  · cases h with
    | openWallet _ hnew =>
      rw [Table.get?_insert] at hj hk
      split at hj
      · rename_i hjnext
        obtain rfl := Option.some.inj hj
        split at hk
        · rename_i hknext
          rw [hjnext, hknext]
        · exact absurd (hb.trans ha.symm) (hnew k b hk)
      · split at hk
        · obtain rfl := Option.some.inj hk
          exact absurd (ha.trans hb.symm) (hnew j a hj)
        · exact hu j k a b u hj hk ha hb
    | _ => exact hopen.elim
  · have hold : ∀ {i : ℕ} {c : Wallet}, db'.wallets.get? i = some c →
        ∃ old, db.wallets.get? i = some old ∧ c.user = old.user := by
      intro i c hi
      rcases (h.wallets hopen).grows.origin i c hi with ⟨old, hold, hsame⟩ | ⟨-, hnew⟩
      · exact ⟨old, hold, hsame.user⟩
      · exact hnew.elim
    obtain ⟨a', hj', hja⟩ := hold hj
    obtain ⟨b', hk', hkb⟩ := hold hk
    exact hu j k a' b' u hj' hk' (hja.symm.trans ha) (hkb.symm.trans hb)

/-- A wallet stays, whatever its balance becomes. -/
theorem Step.wallet_kept {m : Move} (h : Step env w m db db') {k : ℕ} {wallet : Wallet}
    (hk : db.wallets.get? k = some wallet) :
    ∃ wallet', db'.wallets.get? k = some wallet' ∧ wallet.Same wallet' := by
  by_cases hm : m.IsOpen
  · cases h with
    | openWallet _ _ => exact ⟨wallet, Table.get?_insert_of_some _ hk, Wallet.Same.refl _⟩
    | _ => exact hm.elim
  · exact (h.wallets hm).grows.kept k wallet hk

theorem Moves.wallet_kept {P : Move → Prop} (h : Moves env w P db db') {k : ℕ} {wallet : Wallet}
    (hk : db.wallets.get? k = some wallet) :
    ∃ wallet', db'.wallets.get? k = some wallet' ∧ wallet.Same wallet' := by
  refine Moves.invariant (I := fun db' => ∃ wallet', db'.wallets.get? k = some wallet' ∧
    wallet.Same wallet') ?_ h ⟨wallet, hk, Wallet.Same.refl _⟩
  rintro m db₁ db₂ - ⟨wallet₁, hk₁, hsame₁⟩ hs
  obtain ⟨wallet₂, hk₂, hsame₂⟩ := hs.wallet_kept hk₁
  exact ⟨wallet₂, hk₂, hsame₁.trans _ _ _ hsame₂⟩

/-! ## Tables outside the ledger -/

/-- The tables no wallet operation touches are the same. -/
structure Db.SameElsewhere (db db' : Db) : Prop where
  users : db'.users = db.users
  subscriptions : db'.subscriptions = db.subscriptions
  pendingPeriods : db'.pendingPeriods = db.pendingPeriods
  providerGrants : db'.providerGrants = db.providerGrants
  outbox : db'.outbox = db.outbox

theorem Db.SameElsewhere.refl (db : Db) : db.SameElsewhere db := ⟨rfl, rfl, rfl, rfl, rfl⟩

theorem Db.SameElsewhere.trans {db₁ db₂ db₃ : Db} (h : db₁.SameElsewhere db₂)
    (h' : db₂.SameElsewhere db₃) : db₁.SameElsewhere db₃ :=
  ⟨h'.users.trans h.users, h'.subscriptions.trans h.subscriptions,
    h'.pendingPeriods.trans h.pendingPeriods, h'.providerGrants.trans h.providerGrants,
    h'.outbox.trans h.outbox⟩

variable (env) in
theorem expireDueLots_elsewhere (db : Db) : db.SameElsewhere (expireDueLots env w db).2 := by
  refine Moves.invariant (I := fun db' => db.SameElsewhere db') ?_
    (expireDueLots_moves env w (P := Move.IsSweep) trivial (fun _ => trivial) db)
    (Db.SameElsewhere.refl db)
  rintro m db₁ db₂ hm hI hs
  refine hI.trans ?_
  cases hs with
  | sync | expire _ _ _ => exact ⟨rfl, rfl, rfl, rfl, rfl⟩
  | _ => exact hm.elim

/-- **A move stays inside the wallet's tables.** -/
theorem Step.elsewhere {m : Move} (h : Step env w m db db') : db.SameElsewhere db' := by
  cases h with
  | openWallet _ _ | sync | expire _ _ _ | grant _ _ | collect _ _ _ _ _ _ _ | refund _ _ _ _ _ _
  | overdraw _ _ _ _ | bill _ _ _ _ | waive _ _ _ _ | settle _ _ _ _ | cancel | mark =>
    exact ⟨rfl, rfl, rfl, rfl, rfl⟩
  | meter =>
    unfold meterOnlyDebit
    dsimp only
    split <;> exact ⟨rfl, rfl, rfl, rfl, rfl⟩
  | charge _ _ _ =>
    unfold chargeDebit
    dsimp only
    split <;> split <;> exact ⟨rfl, rfl, rfl, rfl, rfl⟩
  | @arm _ args credits metadata existing taken _ _ _ _ =>
    cases existing <;> exact ⟨rfl, rfl, rfl, rfl, rfl⟩
  | clawback _ _ =>
    unfold bookClawback
    dsimp only
    split <;> exact ⟨rfl, rfl, rfl, rfl, rfl⟩
  | @restore _ k grant givenBack eventId hpos =>
    have hsweep := expireDueLots_elsewhere env (w := w)
      { db with lots := db.lots.insert (restoredLot env w grant givenBack db) }
    exact ⟨hsweep.users, hsweep.subscriptions, hsweep.pendingPeriods, hsweep.providerGrants,
      hsweep.outbox⟩

theorem Moves.elsewhere {P : Move → Prop} (h : Moves env w P db db') : db.SameElsewhere db' :=
  Moves.invariant (I := fun db' => db.SameElsewhere db') (fun _ _ _ _ hI hs => hI.trans hs.elsewhere)
    h (Db.SameElsewhere.refl db)

/-! ## Foreign keys -/

/-- Is there a wallet under this key? -/
def Db.HasWallet (db : Db) (w : ℕ) : Prop := ∃ wallet, db.wallets.get? w = some wallet

/-- Every row's wallet exists. -/
structure Db.Referenced (db : Db) : Prop where
  lots : ∀ k lot, db.lots.get? k = some lot → db.HasWallet lot.wallet
  transactions : ∀ k row, db.transactions.get? k = some row → db.HasWallet row.wallet
  holds : ∀ k held, db.holds.get? k = some held → db.HasWallet held.wallet
  debts : ∀ k debt, db.debts.get? k = some debt → db.HasWallet debt.wallet

theorem Db.Referenced.empty : Db.empty.Referenced :=
  ⟨fun _ _ => Table.get?_empty_ne, fun _ _ => Table.get?_empty_ne, fun _ _ => Table.get?_empty_ne,
    fun _ _ => Table.get?_empty_ne⟩

/-- Growth on an existing wallet keeps the references. -/
theorem Db.Referenced.grows (hr : db.Referenced) (h : db.Grows w db')
    (hkept : ∀ k, db.HasWallet k → db'.HasWallet k) (hw : db'.HasWallet w) : db'.Referenced := by
  have hnew : ∀ {k : ℕ}, k = w → db'.HasWallet k := fun hk => hk ▸ hw
  refine ⟨?_, ?_, ?_, ?_⟩
  · exact h.lots.forall_rows (fun k lot hk => hkept _ (hr.lots k lot hk))
      (fun _ _ ha hs => hs.wallet ▸ ha) fun _ => hnew
  · exact h.transactions.forall_rows (fun k row hk => hkept _ (hr.transactions k row hk))
      (fun _ _ ha hs => hs.wallet ▸ ha) fun _ => hnew
  · exact h.holds.forall_rows (fun k held hk => hkept _ (hr.holds k held hk))
      (fun _ _ ha hs => hs.1 ▸ ha) fun _ => hnew
  · exact h.debts.forall_rows (fun k debt hk => hkept _ (hr.debts k debt hk))
      (fun _ _ ha hs => hs.wallet ▸ ha) fun _ => hnew

theorem Moves.hasWallet {P : Move → Prop} (h : Moves env w P db db') {k : ℕ}
    (hk : db.HasWallet k) : db'.HasWallet k := by
  obtain ⟨wallet, hget⟩ := hk
  obtain ⟨wallet', hget', -⟩ := h.wallet_kept hget
  exact ⟨wallet', hget'⟩

/-- **Moves on an existing wallet keep the references.** -/
theorem Moves.referenced {P : Move → Prop} (h : Moves env w P db db') (hw : db.HasWallet w)
    (hr : db.Referenced) : db'.Referenced :=
  hr.grows h.grows (fun _ hk => h.hasWallet hk) (h.hasWallet hw)

/-- The lock leaves the wallet it names. -/
theorem lockWallet_hasWallet {user : UserId} {db₁ : Db} (h : lockWallet user db = (w, db₁)) :
    db₁.HasWallet w := by
  rcases lockWallet_cases h with ⟨rfl, wallet, hget, -⟩ | ⟨rfl, rfl, -⟩
  · exact ⟨wallet, hget⟩
  · exact ⟨_, Table.get?_insert_next _ _⟩

theorem lockWallet_referenced {user : UserId} {db₁ : Db} (h : lockWallet user db = (w, db₁))
    (hr : db.Referenced) : db₁.Referenced := by
  rcases lockWallet_cases h with ⟨rfl, -⟩ | ⟨rfl, rfl, -⟩
  · exact hr
  · have hkept : ∀ k, db.HasWallet k → Db.HasWallet
        { db with wallets := db.wallets.insert { user := some user } } k :=
      fun k hk => hk.imp fun _ => Table.get?_insert_of_some _
    exact ⟨fun k lot hk => hkept _ (hr.lots k lot hk),
      fun k row hk => hkept _ (hr.transactions k row hk),
      fun k held hk => hkept _ (hr.holds k held hk), fun k debt hk => hkept _ (hr.debts k debt hk)⟩

theorem expireDueLots_referenced (hr : db.Referenced) :
    (expireDueLots env w db).2.Referenced := by
  by_cases hnone : db.dueLots w env.now = []
  · unfold expireDueLots
    simp only [hnone, if_true]
    exact hr
  · obtain ⟨r, hmem⟩ := List.exists_mem_of_ne_nil _ hnone
    obtain ⟨hget, hwallet, -⟩ := mem_dueLots.mp hmem
    exact (expireDueLots_moves env w (P := Move.IsSweep) trivial (fun _ => trivial) db).referenced
      (hwallet ▸ hr.lots _ _ hget) hr

/-! ## Ledger rows -/

/-- The ledger row a move rewrites. -/
def Move.row? : Move → Option ℕ
  | .mark k => some k
  | _ => none

theorem expireDueLots_row {k : ℕ} {row : Transaction} (hk : db.transactions.get? k = some row) :
    (expireDueLots env w db).2.transactions.get? k = some row := by
  refine Moves.invariant (I := fun db' => db'.transactions.get? k = some row) ?_
    (expireDueLots_moves env w (P := Move.IsSweep) trivial (fun _ => trivial) db) hk
  rintro m db₁ db₂ hm hI hs
  cases hs with
  | sync => exact hI
  | expire _ _ _ => exact Table.get?_insert_of_some _ hI
  | _ => exact hm.elim

/-- **The ledger is append-only**: no move rewrites a row but the one it marks. -/
theorem Step.row_kept {m : Move} (h : Step env w m db db') {k : ℕ} {row : Transaction}
    (hm : m.row? ≠ some k) (hk : db.transactions.get? k = some row) :
    db'.transactions.get? k = some row := by
  cases h with
  | openWallet _ _ | sync | refund _ _ _ _ _ _ | overdraw _ _ _ _ | settle _ _ _ _ | cancel => exact hk
  | arm _ _ _ _ =>
    unfold armHold
    dsimp only
    split <;> exact hk
  | expire _ _ _ | grant _ _ | collect _ _ _ _ _ _ _ | bill _ _ _ _ | waive _ _ _ _ =>
    exact Table.get?_insert_of_some _ hk
  | meter =>
    unfold meterOnlyDebit
    dsimp only
    split <;> exact Table.get?_insert_of_some _ hk
  | charge _ _ _ =>
    unfold chargeDebit
    dsimp only
    split <;> split <;> exact Table.get?_insert_of_some _ hk
  | clawback _ _ =>
    unfold bookClawback
    dsimp only
    split <;> exact Table.get?_insert_of_some _ hk
  | restore _ => exact Table.get?_insert_of_some _ (expireDueLots_row hk)
  | @mark _ j requested eventId =>
    have hne : k ≠ j := by
      rintro rfl
      exact hm rfl
    rw [markReversed_transactions, Table.get?_modify_of_ne _ _ hne, hk]

theorem Moves.row_kept {P : Move → Prop} {k : ℕ} {row : Transaction}
    (hP : ∀ m, P m → m.row? ≠ some k) (h : Moves env w P db db')
    (hk : db.transactions.get? k = some row) : db'.transactions.get? k = some row :=
  Moves.invariant (I := fun db => db.transactions.get? k = some row)
    (fun m _ _ hm hI hs => hs.row_kept (hP m hm) hI) h hk

/-- A row that was reversed stays so. -/
theorem Step.reversed_kept {m : Move} (h : Step env w m db db') {k : ℕ}
    (hk : ∃ row, db.transactions.get? k = some row ∧ row.metadata .reversed ≠ none) :
    ∃ row, db'.transactions.get? k = some row ∧ row.metadata .reversed ≠ none := by
  obtain ⟨row, hget, hreversed⟩ := hk
  by_cases hm : m.row? = some k
  · cases h with
    | @mark _ j requested eventId =>
      obtain rfl : j = k := Option.some.inj hm
      rw [markReversed_transactions, Table.get?_modify_self, hget]
      refine ⟨_, rfl, ?_⟩
      dsimp only
      rw [Metadata.set_of_ne _ _ (by decide), Metadata.set_same]
      exact Option.some_ne_none _
    | _ => cases hm
  · exact ⟨row, h.row_kept hm hget, hreversed⟩

end StapelBilling
