import StapelBilling.Debts

/-! # Credit and debit

`credit` adds one lot and its ledger row and lets the wallet's debts collect from
it; `debit` spends live lots, all or nothing or as far as they reach, in which
case the rest becomes a debt.  A repeated idempotency key answers with the row of
the first call and moves nothing.
-/
namespace StapelBilling
open Store

/-! ## Credit -/

/-- The arguments of `credit`; an absent idempotency key is the empty one. -/
structure CreditArgs where
  user : UserId
  credits : ℤ
  type : TransactionType
  source : LotSource
  description : Option String := none
  amountCents : Option ℤ := none
  metadata : Metadata := Metadata.empty
  expiresAt : Option Time := none
  idempotencyKey : String := ""
  settleDebts : Bool := true

/-- The caller's metadata with the retry key mirrored into it. -/
def keyedMetadata (metadata : Metadata) (idempotencyKey : String) : Metadata :=
  if idempotencyKey = "" then metadata
  else metadata.set .idempotencyKey (.str idempotencyKey)

/-- The lot a credit creates, already naming its ledger row. -/
def grantLot (env : Env) (w : ℕ) (args : CreditArgs) (db : Db) : CreditLot :=
  { wallet := w
    source := args.source
    creditsInitial := args.credits
    creditsRemaining := args.credits
    expiresAt := args.expiresAt
    grantingTransaction := some db.transactions.next
    createdAt := env.createdAt db.lots.next
    uuid := env.uuid db.lots.next }

/-- The lot, the refreshed balance and the ledger row of a credit. -/
def grant (env : Env) (w : ℕ) (args : CreditArgs) (db : Db) : Db :=
  let lot := db.lots.next
  let db : Db := { db with lots := db.lots.insert (grantLot env w args db) }
  let balance := db.liveBalance w env.now
  let db := db.syncBalance w env.now
  db.addTransaction env fun createdAt uuid =>
    { wallet := w
      lot := some lot
      type := args.type
      amountCents := args.amountCents
      creditsDelta := args.credits
      balanceAfter := balance
      description := args.description
      metadata := keyedMetadata args.metadata args.idempotencyKey
      idempotencyKey := args.idempotencyKey
      createdAt
      uuid }

/-- Add credits to a user's wallet.  Returns the ledger row: the new one, or the
one an earlier call with the same key wrote. -/
def credit (env : Env) (args : CreditArgs) (db : Db) : Except BillingError (ℕ × Db) :=
  if args.credits ≤ 0 then .error (.valueError "credits must be positive")
  else if dueAt env.now args.expiresAt then .error (.valueError "expires_at must be in the future")
  else
    let (w, db) := lockWallet args.user db
    match existingCall env w args.idempotencyKey db with
    | some (existing, _) => .ok (existing, db)
    | none =>
      let db := (expireDueLots env w db).2
      let txn := db.transactions.next
      let db := grant env w args db
      if args.settleDebts then
        match settleDebts env w db with
        | .error e => .error e
        | .ok (_, db) => .ok (txn, db)
      else .ok (txn, db)

/-! ## Debit -/

/-- The arguments of `debit`. -/
structure DebitArgs where
  user : UserId
  credits : ℤ
  type : TransactionType
  description : Option String := none
  metadata : Metadata := Metadata.empty
  idempotencyKey : String := ""
  allowPartial : Bool := false

/-- What a partial debit managed to charge. -/
structure DebitResult where
  transaction : ℕ
  requested : ℤ
  debited : ℤ
  shortfall : ℤ
  balance : ℤ
  debt : Option ℕ := none
  deriving DecidableEq

/-- The answer of `debit`: the ledger row, or the result when a partial charge
was allowed. -/
inductive DebitAnswer
  | transaction (key : ℕ)
  | result (r : DebitResult)
  deriving DecidableEq

/-- Rebuild the result a short-circuited retry already got. -/
def replayDebit (txn : ℕ) (row : Transaction) (requested : ℤ) (db : Db) : DebitResult :=
  let debited := -row.creditsDelta
  if row.metadata.wasWaived then
    { transaction := txn
      requested := match row.metadata .waivedCredits with
        | some (.int waived) => waived
        | _ => requested
      debited := 0
      shortfall := 0
      balance := row.balanceAfter }
  else
    let original := match row.metadata .requestedCredits with
      | some (.int n) => n
      | _ => requested
    { transaction := txn
      requested := original
      debited
      shortfall := max (original - debited) 0
      balance := row.balanceAfter
      debt := (orderBy CreditDebt.age
        (db.debts.select fun debt => debt.transaction = some txn)).head?.map Prod.fst }

/-- Record an internal account's spend at zero cost. -/
def meterOnlyDebit (env : Env) (w : ℕ) (args : DebitArgs) (db : Db) : DebitAnswer × Db :=
  let balance := db.liveBalance w env.now
  let txn := db.transactions.next
  let db := db.addTransaction env fun createdAt uuid =>
    { wallet := w
      lot := none
      type := args.type
      amountCents := none
      creditsDelta := 0
      balanceAfter := balance
      description := args.description
      metadata := (keyedMetadata (args.metadata.mark args.credits) args.idempotencyKey).set .lots
        (.lots [])
      idempotencyKey := args.idempotencyKey
      createdAt
      uuid }
  if args.allowPartial then
    (.result
      { transaction := txn
        requested := args.credits
        debited := 0
        shortfall := 0
        balance }, db)
  else (.transaction txn, db)

/-- The metadata of a debit's row: the caller's, the split, and the partial marks
when part of the charge was not covered. -/
def debitMetadata (args : DebitArgs) (taken : List (ℕ × ℤ)) (shortfall : ℤ) : Metadata :=
  let metadata := (keyedMetadata args.metadata args.idempotencyKey).set .lots (.lots taken)
  if shortfall = 0 then metadata
  else ((metadata.set .partialCharge (.bool true)).set .requestedCredits
    (.int args.credits)).set .shortfall (.int shortfall)

/-- Book a charge of `chargeable` whose credits have already left the lots; what
is not covered becomes a debt that the row names. -/
def chargeDebit (env : Env) (w : ℕ) (args : DebitArgs) (chargeable : ℤ) (taken : List (ℕ × ℤ))
    (db : Db) : DebitAnswer × Db :=
  let balance := db.liveBalance w env.now
  let db := db.syncBalance w env.now
  let shortfall := args.credits - chargeable
  let metadata := debitMetadata args taken shortfall
  let txn := db.transactions.next
  let debt := db.debts.next
  let db := db.addTransaction env fun createdAt uuid =>
    { wallet := w
      lot := singleLot taken
      type := args.type
      amountCents := none
      creditsDelta := -chargeable
      balanceAfter := balance
      description := args.description
      metadata := if shortfall = 0 then metadata else metadata.set .debtId (.ref .debt debt)
      idempotencyKey := args.idempotencyKey
      createdAt
      uuid }
  let db := if shortfall = 0 then db
    else openDebt env w shortfall .partialDebit args.type args.description metadata
      args.idempotencyKey txn db
  if args.allowPartial then
    (.result
      { transaction := txn
        requested := args.credits
        debited := chargeable
        shortfall
        balance
        debt := if shortfall = 0 then none else some debt }, db)
  else (.transaction txn, db)

/-- Take `chargeable` credits, or nothing when that is zero. -/
def takeCredits (w : ℕ) (chargeable : ℤ) (now : Time) (db : Db) :
    Except BillingError (List (ℕ × ℤ) × Db) :=
  if chargeable = 0 then .ok ([], db) else consumeLots w chargeable now db

/-- Deduct credits from a user's wallet. -/
def debit (env : Env) (args : DebitArgs) (db : Db) : Except BillingError (DebitAnswer × Db) :=
  if args.credits ≤ 0 then .error (.valueError "credits must be positive")
  else
    let (w, db) := lockWallet args.user db
    match existingCall env w args.idempotencyKey db with
    | some (existing, row) =>
      .ok (if args.allowPartial then .result (replayDebit existing row args.credits db)
        else .transaction existing, db)
    | none =>
      let db := (expireDueLots env w db).2
      if env.settings.meterOnly (some args.user) then .ok (meterOnlyDebit env w args db)
      else
        let chargeable :=
          if args.allowPartial then min args.credits (db.liveBalance w env.now) else args.credits
        match takeCredits w chargeable env.now db with
        | .error e => .error e
        | .ok (taken, db) => .ok (chargeDebit env w args chargeable taken db)

end StapelBilling
