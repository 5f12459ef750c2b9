import StapelBilling.Erasure
import StapelBilling.Frames

/-! # Revenue after an erasure

Whether a row counts as revenue is read off flags that erasure drops: a simulated or a
comped purchase becomes real money once its owner is erased.  Nothing else moves: lots,
balances, holds and debts keep their numbers.
-/
namespace StapelBilling
open Store

variable {db db' : Db} {user : UserId}

/-- What a revenue report reads off the selected rows. -/
def revenue (db : Db) : List (ℕ × Option ℤ × ℤ) :=
  (realMoney db).map fun r => (r.1, r.2.amountCents, r.2.creditsDelta)

/-- The numbers erasure must not touch are the same. -/
structure SameNumbers (db db' : Db) : Prop where
  lots : db'.lots = db.lots
  balances : ∀ w, (db'.wallets.get? w).map Wallet.balance = (db.wallets.get? w).map Wallet.balance
  holds : ∀ h, (db'.holds.get? h).map CreditHold.credits = (db.holds.get? h).map CreditHold.credits
  debts : ∀ d, (db'.debts.get? d).map (fun debt => (debt.creditsInitial, debt.creditsOutstanding)) =
    (db.debts.get? d).map fun debt => (debt.creditsInitial, debt.creditsOutstanding)

/-- What erasing `user` makes of a ledger row. -/
def Transaction.erased (row : Transaction) (db : Db) (user : UserId) : Transaction :=
  if db.Owns user row.wallet then
    { row with
      description := blank row.description
      metadata := row.metadata.scrub }
  else row

theorem eraseSubject_ok (h : eraseSubject "account" (some user) db = some db') :
    db'.transactions = db.transactions.update (fun _ row => row.erased db user) ∧
      SameNumbers db db' := by
  simp only [eraseSubject, ne_eq, not_true_eq_false, if_false, Option.some.injEq] at h
  subst h
  refine ⟨rfl, rfl, fun w => ?_, fun k => ?_, fun d => ?_⟩
  · refine (congrArg (Option.map Wallet.balance) (Table.get?_update _ _ w)).trans ?_
    show ((db.wallets.get? w).map _).map _ = _
    rcases db.wallets.get? w with - | wallet
    · rfl
    · simp only [Option.map_some, Option.some.injEq]
      split <;> rfl
  · refine (congrArg (Option.map CreditHold.credits) (Table.get?_update _ _ k)).trans ?_
    show ((db.holds.get? k).map _).map _ = _
    rcases db.holds.get? k with - | held
    · rfl
    · simp only [Option.map_some, Option.some.injEq]
      split <;> rfl
  · refine (congrArg (Option.map _) (Table.get?_update _ _ d)).trans ?_
    show ((db.debts.get? d).map _).map _ = _
    rcases db.debts.get? d with - | debt
    · rfl
    · simp only [Option.map_some, Option.some.injEq]
      split <;> rfl

theorem scrub_clear (m : Metadata) : clear m.scrub .simulated ∧ clear m.scrub (.other "comped") :=
  ⟨Or.inr rfl, Or.inr rfl⟩

/-- An erased row counts as revenue, whatever it was. -/
theorem erased_realMoney (row : Transaction) :
    RealMoney (row.erased db user) ↔ db.Owns user row.wallet ∨ RealMoney row := by
  unfold Transaction.erased
  by_cases howns : db.Owns user row.wallet
  · rw [if_pos howns]
    exact iff_of_true (scrub_clear row.metadata) (Or.inl howns)
  · rw [if_neg howns]
    exact (or_iff_right howns).symm

/-- The revenue of a list of rows, each rewritten. -/
theorem revenue_rows (rows : List (ℕ × Transaction)) :
    ((rows.map fun r => (r.1, r.2.erased db user)).filter fun r => RealMoney r.2).map
        (fun r => (r.1, r.2.amountCents, r.2.creditsDelta)) =
      (rows.filter fun r => db.Owns user r.2.wallet ∨ RealMoney r.2).map
        fun r => (r.1, r.2.amountCents, r.2.creditsDelta) := by
  induction rows with
  | nil => rfl
  | cons r rows ih =>
    have hnumbers : ((r.2.erased db user).amountCents, (r.2.erased db user).creditsDelta) =
        (r.2.amountCents, r.2.creditsDelta) := by
      unfold Transaction.erased
      split <;> rfl
    rw [List.map_cons, List.filter_cons, List.filter_cons]
    simp only [erased_realMoney, decide_eq_true_eq]
    split
    · rw [List.map_cons, List.map_cons, ih, hnumbers]
    · exact ih

theorem revenue_erased (h : eraseSubject "account" (some user) db = some db') :
    revenue db' = (db.transactions.select fun row => db.Owns user row.wallet ∨ RealMoney row).map
      fun r => (r.1, r.2.amountCents, r.2.creditsDelta) := by
  unfold revenue realMoney Table.select
  rw [(eraseSubject_ok h).1]
  exact revenue_rows db.transactions.rows

/-- **When erasure does not restate revenue.**  After an account is erased the rows that
count as real money, with their amounts, are the same, and so are all lots, balances,
hold credits and debts, exactly when every row of the account's wallets counted before. -/
theorem erasure_keeps_revenue_iff (h : eraseSubject "account" (some user) db = some db') :
    (revenue db' = revenue db ∧ SameNumbers db db') ↔
      ∀ k row, db.transactions.get? k = some row → db.Owns user row.wallet → RealMoney row := by
  rw [and_iff_left (eraseSubject_ok h).2, revenue_erased h]
  unfold revenue realMoney
  constructor
  · intro heq k row hk howns
    by_contra hreal
    -- The row is selected after the erasure, so its key is among the keys selected before.
    have hmem : (k, row.amountCents, row.creditsDelta) ∈
        (db.transactions.select RealMoney).map
          (fun r => (r.1, r.2.amountCents, r.2.creditsDelta)) := by
      rw [← heq]
      exact List.mem_map.mpr ⟨(k, row), Table.mem_select.mpr ⟨hk, Or.inl howns⟩, rfl⟩
    obtain ⟨⟨j, row'⟩, hsel, he⟩ := List.mem_map.mp hmem
    obtain ⟨hget, hreal'⟩ := Table.mem_select.mp hsel
    have hj : j = k := congrArg Prod.fst he
    subst hj
    obtain rfl := Option.some.inj (hk.symm.trans hget)
    exact hreal hreal'
  · intro hall
    have hsame : (db.transactions.select fun row => db.Owns user row.wallet ∨ RealMoney row) =
        db.transactions.select RealMoney := by
      unfold Table.select
      refine List.filter_congr fun r hr => ?_
      have hreal := hall r.1 r.2 (Table.get?_eq_some_iff.mpr hr)
      exact decide_eq_decide.mpr ⟨fun h => h.elim hreal id, Or.inr⟩
    rw [hsame]

/-- A staff member's simulated purchase, and nothing else. -/
def simulatedPurchase : Db :=
  { users := [1]
    wallets := Table.empty.insert { user := some 1, balance := 500 }
    lots := Table.empty.insert
      { wallet := 0
        source := .purchase
        creditsInitial := 500
        creditsRemaining := 500
        grantingTransaction := some 0
        createdAt := 0
        uuid := 0 }
    transactions := Table.empty.insert
      { wallet := 0
        lot := some 0
        type := .creditPurchase
        amountCents := some 500
        creditsDelta := 500
        balanceAfter := 500
        description := some "Purchase: Starter"
        metadata := (Metadata.empty.set .package (.str "starter")).set .simulated (.bool true)
        createdAt := 0
        uuid := 0 } }

theorem erasure_keeps_revenue_iff_simulated : ∃ db',
    eraseSubject "account" (some 1) simulatedPurchase = some db' ∧
    ((revenue db' = revenue simulatedPurchase ∧ SameNumbers simulatedPurchase db') ↔
      ∀ k row, simulatedPurchase.transactions.get? k = some row →
        simulatedPurchase.Owns 1 row.wallet → RealMoney row) :=
  ⟨_, rfl, erasure_keeps_revenue_iff rfl⟩

/-- Erasing the buyer of a simulated purchase turns it into five dollars of revenue. -/
theorem erasure_invents_revenue : ∃ db',
    eraseSubject "account" (some 1) simulatedPurchase = some db' ∧
    revenue simulatedPurchase = [] ∧ revenue db' = [(0, some 500, 500)] ∧
    revenue db' ≠ revenue simulatedPurchase :=
  ⟨_, rfl, by decide, by decide, by decide⟩

end StapelBilling
