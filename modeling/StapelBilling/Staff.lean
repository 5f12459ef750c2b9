import StapelBilling.CompPeriods
import StapelBilling.Merge
import StapelBilling.WalletView

/-! # Credits by hand

An operator may put credits on an account and a member of staff may buy a package without a
card.  A manual grant names its account, by key or by e-mail, and carries its reason and its
author; the command and the admin's form go through the same function.  A simulated purchase
is the handler of a completed checkout on a session that was made up.
-/
namespace StapelBilling
open Store

/-! ## Whose account -/

/-- The host's user model as a lookup sees it: the key a text stands for, if it can be one, the
e-mail column, if there is one, and the database's comparison that ignores case. -/
structure UserModel where
  pk : String → Option UserId
  email : Option (UserId → String)
  iexact : String → String → Bool

/-- Why a reference names no account. -/
inductive AccountError
  | noReference
  | notFound (reference : String)
  | noEmailField (reference : String)
  | ambiguous (reference : String)
  deriving DecidableEq

/-- `resolve_account`: by key, then by e-mail. -/
def resolveAccount (model : UserModel) (reference : String) (db : Db) : Except AccountError UserId :=
  let ref := strip reference
  if ref = "" then .error .noReference
  else
    match (model.pk ref).filter fun user => user ∈ db.users with
    | some user => .ok user
    | none =>
      match model.email with
      | none => .error (.noEmailField ref)
      | some email =>
        match (db.users.filter fun user => model.iexact (email user) ref).take 2 with
        | [] => .error (.notFound ref)
        | [user] => .ok user
        | _ => .error (.ambiguous ref)

/-! ## The grant -/

/-- The arguments of `grant_credits`. -/
structure GrantArgs where
  user : UserId
  credits : ℤ
  reason : String
  actor : String
  idempotencyKey : String := ""
  expiresAt : Option Time := none
  metadata : Metadata := Metadata.empty

/-- `text[:255]`. -/
def cut (text : String) : String := String.ofList (text.toList.take 255)

/-- The credit of a manual grant that was explained and signed. -/
def manualCredit (args : GrantArgs) (explanation who : String) : CreditArgs :=
  { user := args.user
    credits := args.credits
    type := .adjustment
    source := .adjustment
    expiresAt := args.expiresAt
    description := some (cut s!"Manual grant by {who}: {explanation}")
    metadata := ((((args.metadata.set (.other "manual_grant") (.bool true)).set
      (.other "admin_grant") (.bool true)).set (.other "reason") (.str explanation)).set
      (.other "actor") (.str who)).set (.other "granted_by") (.str who)
    idempotencyKey := args.idempotencyKey }

/-- `grant_credits`: put credits on an account by hand.  Returns the grant's ledger row. -/
def grantCredits (env : Env) (args : GrantArgs) (db : Db) : Except BillingError (ℕ × Db) :=
  let explanation := strip args.reason
  let who := strip args.actor
  let amount := args.credits
  if amount ≤ 0 then .error (.valueError s!"credits must be positive, got {amount}")
  else if explanation = "" then
    .error (.valueError "reason is required — it is written onto the ledger row")
  else if who = "" then
    .error (.valueError "actor is required — a grant nobody signed is not auditable")
  else credit env (manualCredit args explanation who) db

/-! ## The command -/

/-- The command's options. -/
structure GrantOptions where
  account : String
  credits : ℤ
  reason : String
  actor : String
  idempotencyKey : String := ""
  dryRun : Bool := false

/-- What the command reports. -/
inductive GrantReport
  | dryRun (wallet : ℕ) (before after : ℤ)
  | replayed (wallet transaction : ℕ) (before after : ℤ)
  | granted (wallet transaction : ℕ) (before after : ℤ)
  deriving DecidableEq

/-- Why the command ends without a grant. -/
inductive CommandError
  | credits (credits : ℤ)
  | noReason
  | noActor
  | account (error : AccountError)
  | grant (error : BillingError)
  deriving DecidableEq

/-- `billing_grant_credits`.  The wallet is opened before the question whether this is a dry
run; a row older than the run is one the key had already granted. -/
def billingGrantCredits (env : Env) (model : UserModel) (options : GrantOptions) (db : Db) :
    Except CommandError GrantReport × Db :=
  if options.credits ≤ 0 then (.error (.credits options.credits), db)
  else if strip options.reason = "" then (.error .noReason, db)
  else if strip options.actor = "" then (.error .noActor, db)
  else
    match resolveAccount model options.account db with
    | .error e => (.error (.account e), db)
    | .ok user =>
      let (wallet, db) := getOrCreateWallet user db
      let before := wallet.2.balance
      if options.dryRun then (.ok (.dryRun wallet.1 before (before + options.credits)), db)
      else
        let args : GrantArgs :=
          { user
            credits := options.credits
            reason := options.reason
            actor := options.actor
            idempotencyKey := options.idempotencyKey }
        match grantCredits env args db with
        | .error e => (.error (.grant e), db)
        | .ok (txn, db) =>
          match db.wallets.get? wallet.1, db.transactions.get? txn with
          | some refreshed, some row =>
            if row.createdAt < env.now then
              (.ok (.replayed wallet.1 txn before refreshed.balance), db)
            else (.ok (.granted wallet.1 txn before refreshed.balance), db)
          | _, _ => (.error (.grant .doesNotExist), db)

/-! ## The admin's form -/

/-- How many wallets one submission may credit. -/
def maxWalletsPerGrant : ℕ := 25

/-- The form as it was posted; the token is drawn when the page is rendered. -/
structure GrantForm where
  grantCredits : Option String := none
  grantReason : Option String := none
  grantToken : Option String := none
  selectAcross : Option String := none

/-- Why a form is refused as a whole. -/
inductive GrantRefusal
  | credits | reason | selectAcross | tooManyWallets
  deriving DecidableEq

/-- What the form's answer says about one wallet. -/
inductive GrantMessage
  | noOwner (wallet : ℕ)
  | refused (wallet : ℕ) (message : String)
  | replayed (wallet transaction : ℕ) (balance : ℤ)
  | granted (wallet transaction : ℕ) (balance : ℤ)
  deriving DecidableEq

/-- The amount a form asks for; a text that is no number asks for nothing. -/
def GrantForm.credits (form : GrantForm) : ℤ := (form.grantCredits.bind intLiteral).getD 0

def GrantForm.reason (form : GrantForm) : String := strip (form.grantReason.getD "")

def GrantForm.token (form : GrantForm) : String := strip (form.grantToken.getD "")

/-- The key of one wallet's grant: one for each wallet and each rendering of the form. -/
def GrantForm.key (form : GrantForm) (w : ℕ) : String :=
  if form.token = "" then "" else form.token ++ ":" ++ uuidText w

/-- The grant a form asks for on the wallet of this user. -/
def GrantForm.args (form : GrantForm) (actor : String) (user : UserId) (w : ℕ) : GrantArgs :=
  { user
    credits := form.credits
    reason := form.reason
    actor
    idempotencyKey := form.key w }

/-- The wallets one after the other, each in a transaction of its own; one without an owner or
refused by the grant is passed over. -/
def adminGrantEach (env : Env) (form : GrantForm) (actor : String) :
    List (ℕ × Wallet) → Db → Except BillingError (List GrantMessage) × Db
  | [], db => (.ok [], db)
  | (w, wallet) :: wallets, db =>
    let rest (message : GrantMessage) (db : Db) :=
      let (messages, db) := adminGrantEach env form actor wallets db
      (messages.map fun messages => message :: messages, db)
    match wallet.user with
    | none => rest (.noOwner w) db
    | some user =>
      match grantCredits env (form.args actor user w) db with
      | .error (.valueError message) => rest (.refused w message) db
      | .error e => (.error e, db)
      | .ok (txn, db) =>
        match db.wallets.get? w, db.transactions.get? txn with
        | some refreshed, some row =>
          rest (if row.createdAt < env.now then .replayed w txn refreshed.balance
            else .granted w txn refreshed.balance) db
        | _, _ => (.error .doesNotExist, db)

/-- The action of the admin: `selected` are the wallets that were ticked, as they were read. -/
def adminGrantCredits (env : Env) (form : GrantForm) (actor : String) (selected : List (ℕ × Wallet))
    (db : Db) : Except GrantRefusal (Except BillingError (List GrantMessage)) × Db :=
  if form.credits ≤ 0 then (.error .credits, db)
  else if form.reason = "" then (.error .reason, db)
  else if form.selectAcross ∈ [some "1", some "true", some "True"] then (.error .selectAcross, db)
  else
    let wallets := selected.take (maxWalletsPerGrant + 1)
    if maxWalletsPerGrant < wallets.length then (.error .tooManyWallets, db)
    else
      let (messages, db) := adminGrantEach env form actor wallets db
      (.ok messages, db)

/-! ## The simulated purchase -/

/-- The session a simulated purchase makes up. -/
def simulatedSession (session : String) (user : UserId) (pkg : CreditPackage) : CheckoutSession :=
  { id := some session
    mode := some "payment"
    paymentStatus := some "paid"
    currency := some pkg.currency.toLower
    amountTotal := some pkg.priceCents
    clientReferenceId := some user
    userId := some user
    package := some pkg.slug
    simulated := true }

/-- The answer of a simulated purchase. -/
structure SimulatedPurchase where
  transaction : Option ℕ
  credits : ℤ
  balance : ℤ
  session : String
  deriving DecidableEq

/-- The newest row of the user's wallet that names a session. -/
def purchaseRow (user : UserId) (session : String) (db : Db) : Option (ℕ × Transaction) :=
  (orderBy (fun r : ℕ × Transaction => OrderDual.toDual r.2.createdAt)
    (db.transactions.select fun row =>
      (∃ wallet ∈ db.wallets.get? row.wallet, wallet.user = some user) ∧
        row.metadata .stripeSessionId = some (.str session))).head?

/-- `simulate_checkout_completed`; `hex` is the random part of the session's name. -/
def simulateCheckoutCompleted (env : Env) (user : UserId) (package hex : String) (db : Db) :
    Except BillingError (SimulatedPurchase × Db) :=
  match env.settings.creditPackageBySlug package with
  | none => .error (.valueError s!"unknown credit package '{package}'")
  | some pkg =>
    let session := "cs_simulated_" ++ hex
    let event : ProviderEvent CheckoutSession :=
      { id := none
        type := ""
        object := simulatedSession session user pkg }
    match handleCheckoutCompleted env event db with
    | .error e => .error e
    | .ok db =>
      let txn := purchaseRow user session db
      let (wallet, db) := getOrCreateWallet user db
      .ok (
        { transaction := txn.map Prod.fst
          credits := (txn.map fun r => r.2.creditsDelta).getD 0
          balance := wallet.2.balance
          session }, db)

end StapelBilling
