import StapelBilling.Lots

/-! # The wallet settings endpoint

`PATCH` on the wallet reads the caller's wallet row, sets the auto-recharge and alert
fields the request carries, and saves the row.  It takes no lock, and the save writes
every column of the row it read.
-/
namespace StapelBilling
open Store

/-- The fields a request may carry. -/
structure WalletUpdate where
  autoRechargeEnabled : Option Bool := none
  autoRechargeThreshold : Option ℤ := none
  autoRechargePackage : Option String := none
  lowBalanceAlert : Option ℤ := none

/-- Set the fields the request carries. -/
def WalletUpdate.apply (update : WalletUpdate) (wallet : Wallet) : Wallet :=
  { wallet with
    autoRechargeEnabled := update.autoRechargeEnabled.getD wallet.autoRechargeEnabled
    autoRechargeThreshold := update.autoRechargeThreshold.getD wallet.autoRechargeThreshold
    autoRechargePackage := update.autoRechargePackage.or wallet.autoRechargePackage
    lowBalanceAlert := update.lowBalanceAlert.getD wallet.lowBalanceAlert }

/-- `get_or_create_wallet`: the user's wallet and the row as it is read, created when
there is none. -/
def getOrCreateWallet (user : UserId) (db : Db) : (ℕ × Wallet) × Db :=
  match db.wallets.find? fun wallet => wallet.user = some user with
  | some r => (r, db)
  | none =>
    ((db.wallets.next, { user := some user }),
      { db with wallets := db.wallets.insert { user := some user } })

/-- `wallet.save()`: write every column of the row; refused when another wallet has
its user. -/
def saveWallet (w : ℕ) (wallet : Wallet) (db : Db) : Except BillingError Db :=
  if ∃ r ∈ db.wallets.rows, r.1 ≠ w ∧ wallet.user ≠ none ∧ r.2.user = wallet.user then
    .error .integrityError
  else .ok { db with wallets := db.wallets.modify w fun _ => wallet }

/-- May the request be saved?  The package it names is one of the catalogue. -/
def WalletUpdate.Valid (settings : Settings) (update : WalletUpdate) : Prop :=
  ∀ slug ∈ update.autoRechargePackage, (settings.creditPackageBySlug slug).isSome

instance (settings : Settings) : DecidablePred (WalletUpdate.Valid settings) := fun update => by
  unfold WalletUpdate.Valid; infer_instance

/-- What `PATCH` does with the row it has read. -/
def patchWallet (env : Env) (update : WalletUpdate) (w : ℕ) (wallet : Wallet) (db : Db) :
    Except BillingError Db :=
  if update.Valid env.settings then saveWallet w (update.apply wallet) db
  else .error .validationError

end StapelBilling
