import StapelBilling.Lots

/-! # Erasing an account

Erasure takes the person out of the ledger and keeps the bill: ids that name the subject
go, free text is blanked, and metadata is cut down to the keys the module writes for
accounting.  Amounts, credits, balances and deadlines are neither read nor written.
-/
namespace StapelBilling
open Store

/-- The metadata keys erasure keeps. -/
def MetaKey.isLedger : MetaKey → Bool
  | .expiresAt | .holdId | .lotId | .lots | .package | .plan | .source | .clawbackOf
  | .clawbackReason | .debtId | .debtReason | .debtSettlement | .forgiven | .outstanding
  | .partialCharge | .reclaimed | .requested | .requestedCredits | .shortfall => true
  | .other name => name = "grant" || name = "period_key"
  | _ => false

/-- A copy with the accounting keys only. -/
def Metadata.scrub (m : Metadata) : Metadata := fun key => if key.isLedger then m key else none

/-- A blanked description; one that was never there stays absent, which reads the same. -/
def blank (description : Option String) : Option String := description.map fun _ => ""

/-- The wallets of a user. -/
def Db.Owns (db : Db) (user : UserId) (w : ℕ) : Prop :=
  ∃ wallet ∈ db.wallets.get? w, wallet.user = some user

instance (db : Db) (user : UserId) : DecidablePred (db.Owns user) := fun w => by
  unfold Db.Owns; infer_instance

/-- `_scrub_free_text` on the ledger, the holds and the debts of the user's wallets. -/
def scrubFreeText (user : UserId) (db : Db) : Db :=
  { db with
    transactions := db.transactions.update fun _ row =>
      if db.Owns user row.wallet then
        { row with
          description := blank row.description
          metadata := row.metadata.scrub }
      else row
    holds := db.holds.update fun _ held =>
      if db.Owns user held.wallet then
        { held with
          description := blank held.description
          metadata := held.metadata.scrub }
      else held
    debts := db.debts.update fun _ debt =>
      if db.Owns user debt.wallet then
        { debt with
          description := blank debt.description
          metadata := debt.metadata.scrub }
      else debt }

/-- Detach the user's subscription and drop the processor's names for them. -/
def eraseSubscriptions (user : UserId) (db : Db) : Db :=
  { db with
    subscriptions := db.subscriptions.update fun _ sub =>
      if sub.user = some user then
        { sub with
          user := none
          stripeSubscriptionId := some ""
          stripeCustomerId := some "" }
      else sub }

/-- `erase_subject`: nothing but an account can be erased here. -/
def eraseSubject (subjectType : String) (subject : Option UserId) (db : Db) : Option Db :=
  match subject with
  | none => none
  | some user =>
    if subjectType ≠ "account" then none
    else
      let db := scrubFreeText user (eraseSubscriptions user db)
      some { db with
        wallets := db.wallets.update fun _ wallet =>
          if wallet.user = some user then { wallet with user := none } else wallet }

/-! ## Revenue -/

/-- A flag that is `False` or was never written. -/
def clear (m : Metadata) (key : MetaKey) : Prop := m key = some (.bool false) ∨ m key = none

instance (m : Metadata) (key : MetaKey) : Decidable (clear m key) := by
  unfold clear; infer_instance

/-- Is this a row where money actually arrived, neither simulated nor comped? -/
def RealMoney (row : Transaction) : Prop :=
  clear row.metadata .simulated ∧ clear row.metadata (.other "comped")

instance : DecidablePred RealMoney := fun row => by unfold RealMoney; infer_instance

/-- `real_money` over the whole ledger. -/
def realMoney (db : Db) : List (ℕ × Transaction) := db.transactions.select RealMoney

end StapelBilling
