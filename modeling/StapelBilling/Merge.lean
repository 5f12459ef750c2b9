import StapelBilling.Clawback

/-! # Folding one account into another

A merge moves the rows of a wallet to the survivor's: the lots with their deadlines,
and the ledger, holds and debts with them.  Before that the account-bound credits of
the merged wallet are forfeited; afterwards the merged wallet is closed at zero, one
ledger row on the survivor says what arrived, and the survivor's debts take their
share.  A deterministic key keeps a redelivery from moving anything twice.
-/
namespace StapelBilling
open Store

/-- The ledger key of one merge of one pair of accounts; `digest` is the hash of the
pair. -/
def mergeIdempotencyKey (digest : UserId → UserId → String) (fromUser intoUser : UserId) : String :=
  "merge:" ++ digest fromUser intoUser

/-- What a merge moved. -/
structure MergeCounts where
  wallets : ℕ := 0
  credits : ℤ := 0
  creditLots : ℕ := 0
  transactions : ℕ := 0
  creditHolds : ℕ := 0
  creditDebts : ℕ := 0
  subscriptions : ℕ := 0
  forfeited : ℤ := 0

/-! ## Forfeited lots -/

/-- The grants whose own lots on this wallet are account-bound. -/
def Db.boundGrants (db : Db) (sources : List LotSource) (w : ℕ) : List ℕ :=
  (db.lots.select fun lot => lot.wallet = w ∧ lot.source ∈ sources).filterMap
    fun r => r.2.grantingTransaction

/-- The lots a merge forfeits: those of an account-bound source, and the ones that
carry credits back to such a grant; oldest first. -/
def Db.forfeitedLots (db : Db) (sources : List LotSource) (w : ℕ) : List (ℕ × CreditLot) :=
  orderBy CreditLot.age (db.lots.select fun lot =>
    lot.wallet = w ∧ 0 < lot.creditsRemaining ∧ (lot.source ∈ sources ∨
      lot.source = .holdRelease ∧ ∃ g ∈ lot.grantingTransaction, g ∈ db.boundGrants sources w))

/-- Empty one forfeited lot and write its row; `running` is the balance after it. -/
def forfeitLot (env : Env) (w k : ℕ) (lot : CreditLot) (running : ℤ) (db : Db) : Db :=
  { db with lots := db.lots.modify k CreditLot.zero }.addTransaction env fun createdAt uuid =>
    { wallet := w
      lot := some k
      type := .expiration
      amountCents := none
      creditsDelta := -lot.creditsRemaining
      balanceAfter := running
      description := some "Credits not transferable on account merge"
      metadata := ((Metadata.empty.set .lotId (.ref .lot k)).set .source
        (.str lot.source.value)).set .mergeForfeit (.bool true)
      createdAt
      uuid }

def forfeitLots (env : Env) (w : ℕ) : List (ℕ × CreditLot) → ℤ → Db → Db
  | [], _, db => db
  | (k, lot) :: lots, running, db =>
    forfeitLots env w lots (running - lot.creditsRemaining)
      (forfeitLot env w k lot (running - lot.creditsRemaining) db)

/-- Expire the merged wallet's account-bound credits.  Returns the credits
forfeited. -/
def forfeitLotsOnMerge (env : Env) (w : ℕ) (db : Db) : ℤ × Db :=
  let sources := env.settings.mergeForfeitLotSources
  if sources = [] then (0, db)
  else
    let lots := db.forfeitedLots sources w
    if lots = [] then (0, db)
    else
      ((lots.map fun r => r.2.creditsRemaining).sum,
        (forfeitLots env w lots (db.liveBalance w env.now) db).syncBalance w env.now)

/-! ## The subscription -/

/-- Move the merged account's subscription, or detach it where the survivor has one.
Returns the rows touched. -/
def mergeSubscription (fromUser intoUser : UserId) (db : Db) : Except BillingError (ℕ × Db) :=
  match db.subscriptions.find? fun sub => sub.user = some fromUser with
  | none => .ok (0, db)
  | some (k, _) =>
    let assign (user : Option UserId) : Db :=
      { db with subscriptions := db.subscriptions.modify k fun sub => { sub with user } }
    if (db.subscriptions.find? fun sub => sub.user = some intoUser).isSome then .ok (1, assign none)
    else if intoUser ∈ db.users then .ok (1, assign (some intoUser))
    else .error .integrityError

/-! ## The wallet -/

/-- The survivor's wallet, created in the merged one's currency when there is none;
refused while its user is not known here. -/
def survivorWallet (intoUser : UserId) (currency : String) (db : Db) :
    Except BillingError (ℕ × Db) :=
  match db.wallets.find? fun wallet => wallet.user = some intoUser with
  | some (survivor, _) => .ok (survivor, db)
  | none =>
    if intoUser ∈ db.users then
      .ok (db.wallets.next, { db with
        wallets := db.wallets.insert
          { user := some intoUser
            currency } })
    else .error .integrityError

/-- The last `n` hexadecimal digits of a number. -/
def hexDigits : ℕ → ℕ → List Char
  | 0, _ => []
  | n + 1, k => hexDigits n (k / 16) ++ [Nat.digitChar (k % 16)]

/-- Thirty-two digits in the groups of a uuid. -/
def uuidGroups (digits : List Char) : List Char :=
  digits.take 8 ++ '-' :: (digits.drop 8).take 4 ++ '-' :: (digits.drop 12).take 4 ++
    '-' :: (digits.drop 16).take 4 ++ '-' :: digits.drop 20

/-- The text of a primary key. -/
def uuidText (pk : ℕ) : String := String.ofList (uuidGroups (hexDigits 32 pk))

/-- The key an arriving hold gets when the survivor already uses its own. -/
def renamedKey (merged : ℕ) (key : String) : String := key ++ ":merged:" ++ uuidText merged

/-- Rename the arriving holds whose key the survivor already uses. -/
def renameClashes (merged survivor : ℕ) (db : Db) : Db :=
  let taken := (db.holds.select fun held => held.wallet = survivor).map
    fun r => r.2.idempotencyKey
  { db with
    holds := db.holds.update fun _ held =>
      if held.wallet = merged ∧ held.idempotencyKey ∈ taken then
        { held with idempotencyKey := renamedKey merged held.idempotencyKey }
      else held }

/-- Give every row of the merged wallet to the survivor. -/
def moveRows (merged survivor : ℕ) (db : Db) : Db :=
  { db with
    lots := db.lots.update fun _ lot =>
      if lot.wallet = merged then { lot with wallet := survivor } else lot
    transactions := db.transactions.update fun _ row =>
      if row.wallet = merged then { row with wallet := survivor } else row
    holds := db.holds.update fun _ held =>
      if held.wallet = merged then { held with wallet := survivor } else held
    debts := db.debts.update fun _ debt =>
      if debt.wallet = merged then { debt with wallet := survivor } else debt }

/-- Close the merged wallet at zero. -/
def closeWallet (merged survivor : ℕ) (db : Db) : Db :=
  { db with
    wallets := db.wallets.modify merged fun wallet =>
      { wallet with
        balance := 0
        user := none
        mergedInto := some survivor } }

/-- Sweep the survivor and book what arrived. -/
def bookMerge (env : Env) (key : String) (merged survivor : ℕ) (movedCredits : ℤ) (db : Db) : Db :=
  let db := (expireDueLots env survivor db).2
  let balance := db.liveBalance survivor env.now
  let db := db.syncBalance survivor env.now
  db.addTransaction env fun createdAt uuid =>
    { wallet := survivor
      type := .adjustment
      creditsDelta := movedCredits
      balanceAfter := balance
      description := some "Credits merged from a folded account"
      metadata := ((Metadata.empty.set .merge (.bool true)).set .mergedWalletId
        (.ref .wallet merged)).set .idempotencyKey (.str key)
      idempotencyKey := key
      createdAt
      uuid }

/-- Everything a merge does once it has locked both wallets. -/
def mergeLocked (env : Env) (key : String) (fromUser intoUser : UserId) (merged survivor : ℕ)
    (db : Db) : Except BillingError (MergeCounts × Db) :=
  let db := (expireDueLots env merged db).2
  let (forfeited, db) := forfeitLotsOnMerge env merged db
  let movedCredits := db.liveBalance merged env.now
  let db := renameClashes merged survivor db
  let counts : MergeCounts :=
    { wallets := 1
      credits := movedCredits
      creditLots := (db.lots.select fun lot => lot.wallet = merged).length
      transactions := (db.transactions.select fun row => row.wallet = merged).length
      creditHolds := (db.holds.select fun held => held.wallet = merged).length
      creditDebts := (db.debts.select fun debt => debt.wallet = merged).length
      forfeited }
  let db := closeWallet merged survivor (moveRows merged survivor db)
  let db := bookMerge env key merged survivor movedCredits db
  match mergeSubscription fromUser intoUser db with
  | .error e => .error e
  | .ok (subscriptions, db) =>
    match settleDebts env survivor db with
    | .error e => .error e
    | .ok (_, db) => .ok ({ counts with subscriptions }, db)

/-- Fold one account's wallet into another's.  Returns what moved. -/
def mergeWallets (env : Env) (digest : UserId → UserId → String) (fromUser intoUser : UserId)
    (db : Db) : Except BillingError (MergeCounts × Db) :=
  let key := mergeIdempotencyKey digest fromUser intoUser
  if (db.transactions.find? fun row => row.idempotencyKey = key).isSome then .ok ({}, db)
  else
    match db.wallets.find? fun wallet => wallet.user = some fromUser with
    | none =>
      match mergeSubscription fromUser intoUser db with
      | .error e => .error e
      | .ok (subscriptions, db) => .ok ({ subscriptions }, db)
    | some (merged, wallet) =>
      match survivorWallet intoUser wallet.currency db with
      | .error e => .error e
      | .ok (survivor, db) => mergeLocked env key fromUser intoUser merged survivor db

/-- `user.merged`: an event without both accounts, or that names one twice, is
dropped. -/
def handleUserMerged (env : Env) (digest : UserId → UserId → String)
    (fromUser intoUser : Option UserId) (db : Db) : Except BillingError Db :=
  match fromUser, intoUser with
  | some fromUser, some intoUser =>
    if fromUser = intoUser then .ok db
    else
      match mergeWallets env digest fromUser intoUser db with
      | .error e => .error e
      | .ok (_, db) => .ok db
  | _, _ => .ok db

end StapelBilling
