import StapelBilling.WalletView
import StapelBilling.Holds

/-! # The money functions other services call

`can_afford` answers, without a lock and without a write, whether a charge would go through.
Over comm a debit or a hold that is refused for want of credits is an answer and no error: the
transaction of the service call is rolled back, and the balance that goes into the answer is
read afterwards.
-/
namespace StapelBilling
open Store

/-! ## The question -/

/-- The answer to `can_afford`. -/
structure Affordability where
  affordable : Bool
  balance : ℤ
  requested : ℤ
  shortfall : ℤ
  deriving DecidableEq

/-- Would a debit or a hold go through right now?  A wallet the caller has read goes before the
user's own. -/
def canAfford (env : Env) (user : Option UserId) (wallet : Option (ℕ × Wallet)) (credits : ℤ)
    (db : Db) : Except BillingError Affordability :=
  if credits ≤ 0 then .error (.valueError "credits must be positive")
  else if wallet.isNone ∧ user.isNone then
    .error (.valueError "can_afford needs either user or wallet")
  else
    let wallet := wallet.or (user.bind fun u => db.wallets.find? fun wallet => wallet.user = some u)
    let balance := match wallet with
      | some (w, _) => db.liveBalance w env.now
      | none => 0
    let subject := user.or (wallet.bind fun r => r.2.user)
    if env.settings.meterOnly subject then .ok
      { affordable := true
        balance
        requested := credits
        shortfall := 0 }
    else .ok
      { affordable := credits ≤ balance
        balance
        requested := credits
        shortfall := max (credits - balance) 0 }

/-! ## Who asks -/

/-- What the host's user seam answers about an account this module has not seen: is it
tombstoned or deactivated, and is a row made for it? -/
structure UserSeam where
  inactive : UserId → Bool
  ensureShadowUser : UserId → Bool

/-- `_resolve_user`: the user of a payload, whose row is made on first contact when the payload
says who it is. -/
def resolveUser (seam : UserSeam) (user : UserId) (identity : Bool) (db : Db) : Except String (UserId × Db) :=
  if user ∈ db.users then .ok (user, db)
  else if identity = false then .error "user_unknown"
  else if seam.inactive user then .error "user_inactive"
  else if seam.ensureShadowUser user then .ok (user, { db with users := db.users ++ [user] })
  else .error "user_unknown"

/-- The payload of `billing.debit` and `billing.hold`; `identity` says whether it carries one. -/
structure MoneyPayload where
  user : UserId
  identity : Bool := false
  credits : ℤ
  idempotencyKey : String
  metadata : Metadata := Metadata.empty
  description : Option String := none
  type : TransactionType := .adjustment
  allowPartial : Bool := false
  expiresInSeconds : Option ℤ := none

/-- The answer of a money function. -/
structure MoneyReply where
  ok : Bool
  balance : Option ℤ
  reason : Option String := none
  transaction : Option ℕ := none
  hold : Option ℕ := none
  status : Option HoldStatus := none
  result : Option DebitResult := none
  deriving DecidableEq

/-- The answer to a charge that was refused for want of credits: the balance is the wallet
row's. -/
def refuseCredits (user : UserId) (db : Db) : MoneyReply × Db :=
  let (wallet, db) := getOrCreateWallet user db
  ({ ok := false
     balance := some wallet.2.balance
     reason := some "insufficient_credits" }, db)

/-- `billing.debit`. -/
def billingDebit (env : Env) (seam : UserSeam) (payload : MoneyPayload) (db : Db) :
    Except BillingError (MoneyReply × Db) :=
  match resolveUser seam payload.user payload.identity db with
  | .error reason => .ok (
      { ok := false
        balance := none
        reason := some reason }, db)
  | .ok (user, db) =>
    let args : DebitArgs :=
      { user
        credits := payload.credits
        type := payload.type
        description := payload.description
        metadata := payload.metadata
        idempotencyKey := payload.idempotencyKey
        allowPartial := payload.allowPartial }
    match debit env args db with
    | .error (.insufficientCredits _ _) => .ok (refuseCredits user db)
    | .error e => .error e
    | .ok (.transaction txn, db) => .ok (
        { ok := true
          balance := (db.transactions.get? txn).map Transaction.balanceAfter
          transaction := some txn }, db)
    | .ok (.result result, db) => .ok (
        { ok := true
          balance := some result.balance
          transaction := some result.transaction
          result := some result }, db)

/-- `billing.hold`. -/
def billingHold (env : Env) (seam : UserSeam) (payload : MoneyPayload) (db : Db) :
    Except BillingError (MoneyReply × Db) :=
  match resolveUser seam payload.user payload.identity db with
  | .error reason => .ok (
      { ok := false
        balance := none
        reason := some reason }, db)
  | .ok (user, db) =>
    let args : HoldArgs :=
      { user
        credits := payload.credits
        type := payload.type
        description := payload.description
        metadata := payload.metadata
        idempotencyKey := payload.idempotencyKey
        expiresAt := match payload.expiresInSeconds with
          | some ttl => if ttl = 0 then none else some (env.now + seconds ttl)
          | none => none }
    match hold env args db with
    | .error (.holdKeyResolved k status) => .ok (
        { ok := false
          balance := none
          reason := some "hold_already_resolved"
          hold := some k
          status := some status }, db)
    | .error (.insufficientCredits _ _) => .ok (refuseCredits user db)
    | .error e => .error e
    | .ok (k, db) => .ok (
        { ok := true
          balance := ((db.holds.get? k).bind fun held => db.wallets.get? held.wallet).map Wallet.balance
          hold := some k }, db)

/-- The answer of a capture or a release that does nothing. -/
def refuseHold (reason : String) : MoneyReply :=
  { ok := false
    balance := none
    reason := some reason }

/-- `billing.capture`.  A hold whose charge row is missing is in the wrong state too. -/
def billingCapture (env : Env) (args : CaptureArgs) (db : Db) : Except BillingError (MoneyReply × Db) :=
  match capture env args db with
  | .error (.holdNotFound _) => .ok (refuseHold "hold_not_found", db)
  | .error (.holdState _ _) | .error (.chargeMissing _) => .ok (refuseHold "hold_not_held", db)
  | .error (.insufficientCredits _ _) => .ok (refuseHold "insufficient_credits", db)
  | .error e => .error e
  | .ok (txn, db) => .ok (
      { ok := true
        balance := (db.transactions.get? txn).map Transaction.balanceAfter
        transaction := some txn }, db)

/-- `billing.release`: the hold as it stands, whatever it came to. -/
def billingRelease (env : Env) (k : ℕ) (db : Db) : Except BillingError (MoneyReply × Db) :=
  match release env { hold := k } db with
  | .error (.holdNotFound _) => .ok (refuseHold "hold_not_found", db)
  | .error e => .error e
  | .ok db => .ok (
      { ok := true
        balance := ((db.holds.get? k).bind fun held => db.wallets.get? held.wallet).map Wallet.balance
        status := (db.holds.get? k).map CreditHold.status }, db)

/-- `billing.can_afford`: the answer, or why the user is not known. -/
def billingCanAfford (env : Env) (seam : UserSeam) (user : UserId) (identity : Bool) (credits : ℤ)
    (db : Db) : Except BillingError (Except String Affordability × Db) :=
  match resolveUser seam user identity db with
  | .error reason => .ok (.error reason, db)
  | .ok (user, db) =>
    match canAfford env (some user) none credits db with
    | .error e => .error e
    | .ok answer => .ok (.ok answer, db)

end StapelBilling
