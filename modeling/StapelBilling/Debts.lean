import StapelBilling.Lots

/-! # Debts

Credits a wallet owes are rows of their own.  A debt is opened by a partial debit
or a clawback and collected, oldest first, out of the live lots of the next
credit; each collection is a spend with a ledger row of its own, which carries
the debt's metadata.
-/
namespace StapelBilling
open Store

/-- The age of a debt: creation stamp, then identifier. -/
def CreditDebt.age (r : ℕ × CreditDebt) : Time ×ₗ ℕ := toLex (r.2.createdAt, r.2.uuid)

/-- Is there something left to collect? -/
def CreditDebt.Open (debt : CreditDebt) : Prop :=
  debt.settledAt = none ∧ 0 < debt.creditsOutstanding

instance : DecidablePred CreditDebt.Open := fun debt => by unfold CreditDebt.Open; infer_instance

/-- The wallet's uncollected debts, oldest first. -/
def Db.openDebts (db : Db) (w : ℕ) : List (ℕ × CreditDebt) :=
  orderBy CreditDebt.age (db.debts.select fun debt => debt.wallet = w ∧ debt.Open)

/-- What a wallet owes. -/
def Db.owedBy (w : ℕ) (db : Db) : ℤ :=
  db.debts.sum fun _ debt => if debt.wallet = w then debt.creditsOutstanding else 0

/-- A copy of a metadata dictionary without the caller's retry key. -/
def cleanMetadata (m : Metadata) : Metadata := m.erase .idempotencyKey

/-- Record credits consumed without cover, linked to the ledger row `txn` that
says so. -/
def openDebt (env : Env) (w : ℕ) (credits : ℤ) (reason : DebtReason) (type : TransactionType)
    (description : Option String) (metadata : Metadata) (idempotencyKey : String) (txn : ℕ)
    (db : Db) : Db :=
  { db with
    debts := db.debts.insert
      { wallet := w
        creditsInitial := credits
        creditsOutstanding := credits
        reason
        type
        description
        metadata := cleanMetadata metadata
        idempotencyKey
        transaction := some txn
        createdAt := env.createdAt db.debts.next
        uuid := env.uuid db.debts.next } }

/-- The metadata of a settlement row: the debt's own, then what was collected. -/
def settlementMetadata (k : ℕ) (debt : CreditDebt) (taken : List (ℕ × ℤ)) : Metadata :=
  ((((cleanMetadata debt.metadata).set .debtId (.ref .debt k)).set .debtSettlement
    (.bool true)).set .debtReason (.str debt.reason.value)).set .lots (.lots taken)

/-- Book one collection whose credits have already left the lots: the debt
shrinks and the settlement row is written. -/
def collectDebt (env : Env) (w k : ℕ) (debt : CreditDebt) (amount : ℤ) (taken : List (ℕ × ℤ))
    (db : Db) : Db :=
  let balance := db.liveBalance w env.now
  let left := debt.creditsOutstanding - amount
  let db := db.syncBalance w env.now
  let db : Db := { db with
    debts := db.debts.modify k fun d =>
      { d with
        creditsOutstanding := left
        settledAt := if left ≤ 0 then some env.now else d.settledAt } }
  db.addTransaction env fun createdAt uuid =>
    { wallet := w
      lot := singleLot taken
      type := debt.type
      amountCents := none
      creditsDelta := -amount
      balanceAfter := balance
      description := orText debt.description (some s!"Debt settlement ({debt.reason.value})")
      metadata := settlementMetadata k debt taken
      createdAt
      uuid }

/-- Collect a list of debts in order, until the live lots are empty.  Returns the
credits collected. -/
def settleEach (env : Env) (w : ℕ) : List (ℕ × CreditDebt) → Db → Except BillingError (ℤ × Db)
  | [], db => .ok (0, db)
  | (k, debt) :: debts, db =>
    let available := db.liveBalance w env.now
    if available ≤ 0 then .ok (0, db)
    else
      let amount := min debt.creditsOutstanding available
      match consumeLots w amount env.now db with
      | .error e => .error e
      | .ok (taken, db) =>
        match settleEach env w debts (collectDebt env w k debt amount taken db) with
        | .error e => .error e
        | .ok (collected, db) => .ok (amount + collected, db)

/-- Collect what this wallet owes out of its live lots, oldest debt first. -/
def settleDebts (env : Env) (w : ℕ) (db : Db) : Except BillingError (ℤ × Db) :=
  settleEach env w (db.openDebts w) db

end StapelBilling
