import StapelBilling.Calls
import StapelBilling.Merge
import StapelBilling.Subscriptions
import StapelBilling.Erasure

/-! # The service

A call of the service is a wallet operation, a merge of two accounts, a subscription
event that dates its bundles, or an erasure.  A run is a list of such calls over any set
of accounts.  Any ledger row may be reversed: a won dispute also reverses the rows that
collected the debts of its clawbacks.
-/
namespace StapelBilling
open Store

/-- A call of the service. -/
inductive ServiceCall
  | wallet (c : WalletCall)
  | userMerged (fromUser intoUser : Option UserId)
  | stampSubscriptionPeriod (sub : Subscription)
  | eraseSubject (subjectType : String) (subject : Option UserId)

/-- The database a successful call leaves; `digest` is the hash a merge key is made of. -/
def ServiceCall.exec (digest : UserId → UserId → String) (env : Env) :
    ServiceCall → Db → Except BillingError Db
  | .wallet c, db => c.exec env db
  | .userMerged fromUser intoUser, db => handleUserMerged env digest fromUser intoUser db
  | .stampSubscriptionPeriod sub, db => .ok (StapelBilling.stampSubscriptionPeriod sub db)
  | .eraseSubject subjectType subject, db =>
    .ok ((StapelBilling.eraseSubject subjectType subject db).getD db)

/-- A serial run of the service. -/
def runService (digest : UserId → UserId → String) (calls : List (Env × ServiceCall)) (db : Db) : Db :=
  Store.run (fun c => c.2.exec digest c.1) calls db

/-- A database with no wallet yet: accounts and subscriptions may be known. -/
structure Db.Bare (db : Db) : Prop where
  wallets : db.wallets = Table.empty
  lots : db.lots = Table.empty
  transactions : db.transactions = Table.empty
  holds : db.holds = Table.empty
  debts : db.debts = Table.empty

end StapelBilling
