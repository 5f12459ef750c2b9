import StapelBilling.Comm
import StapelBilling.PaidPlans

/-! # Endpoints

What a customer asks the payment provider for goes through this module: a checkout for a
package or a plan, the portal, the end of a subscription.  The provider may not be configured;
it then refuses, unless the deployment has asked for placeholders.  A cancelled subscription
stays what it is until the period it was paid for ends.
-/
namespace StapelBilling
open Store

/-! ## The provider -/

/-- What the provider is asked to sell. -/
structure SessionRequest where
  mode : String
  successUrl : String
  cancelUrl : String
  clientReferenceId : UserId
  userId : UserId
  package : Option String := none
  plan : Option String := none
  currency : String
  interval : Option String := none
  productName : String
  unitAmount : ℤ
  deriving DecidableEq

/-- What the provider's own calls raise, and why it is not called. -/
inductive ProviderError
  | notConfigured (operation : String)
  | noCustomer
  | keyError (slug : Option String)
  | refused
  deriving DecidableEq

/-- The payment provider: whether it has its credentials, whether placeholders may stand in
where it has not, and what its calls answer. -/
structure StripeProvider where
  configured : Bool := true
  allowUnconfigured : Bool := false
  createSession : SessionRequest → Except ProviderError (String × String)
  createPortal : String → String → Except ProviderError String
  cancelAtPeriodEnd : String → Except ProviderError Unit

/-- A package's checkout. -/
def packageRequest (user : UserId) (pkg : CreditPackage) (successUrl cancelUrl : String) :
    SessionRequest :=
  { mode := "payment"
    successUrl
    cancelUrl
    clientReferenceId := user
    userId := user
    package := some pkg.slug
    currency := pkg.currency.toLower
    productName := "Credit pack: " ++ pkg.name
    unitAmount := pkg.priceCents }

/-- A plan's checkout. -/
def planRequest (user : UserId) (entry : PlanCatalogEntry) (successUrl cancelUrl : String) :
    SessionRequest :=
  { mode := "subscription"
    successUrl
    cancelUrl
    clientReferenceId := user
    userId := user
    plan := some entry.slug
    currency := entry.currency.toLower
    interval := some "month"
    productName := entry.name
    unitAmount := entry.priceCents }

namespace StripeProvider
variable (stripe : StripeProvider)

/-- Refuse an operation, or let a placeholder stand in for it. -/
def refuseUnlessPlaceholdersAllowed {α : Type} (operation : String) (placeholder : α) :
    Except ProviderError α :=
  if stripe.allowUnconfigured then .ok placeholder else .error (.notConfigured operation)

def placeholderCheckout (kind slug : String) : String × String :=
  (s!"https://example.invalid/stripe-not-configured/{kind}/{slug}", s!"cs_dev_{slug}")

/-- `create_checkout_session`: the address and the id of a session.  A package goes before a
plan. -/
def createCheckoutSession (s : Settings) (user : UserId) (package plan : Option String)
    (successUrl cancelUrl : String) : Except ProviderError (String × String) :=
  match nonempty package with
  | some slug =>
    match s.creditPackageBySlug slug with
    | none => .error (.keyError (some slug))
    | some pkg =>
      if stripe.configured then stripe.createSession (packageRequest user pkg successUrl cancelUrl)
      else stripe.refuseUnlessPlaceholdersAllowed "a package checkout"
        (placeholderCheckout "package" pkg.slug)
  | none =>
    match s.getPlan plan with
    | none => .error (.keyError plan)
    | some entry =>
      if stripe.configured then stripe.createSession (planRequest user entry successUrl cancelUrl)
      else stripe.refuseUnlessPlaceholdersAllowed "a plan checkout"
        (placeholderCheckout "plan" entry.slug)

/-- `create_portal_session`. -/
def createPortalSession (customerId returnUrl : String) : Except ProviderError String :=
  if stripe.configured then
    if customerId = "" then .error .noCustomer else stripe.createPortal customerId returnUrl
  else stripe.refuseUnlessPlaceholdersAllowed "the customer portal"
    "https://example.invalid/stripe-portal-not-configured"

/-- `cancel_subscription`, at the end of its period. -/
def cancelSubscription (subscriptionId : String) : Except ProviderError Unit :=
  if stripe.configured then
    if subscriptionId = "" then .ok () else stripe.cancelAtPeriodEnd subscriptionId
  else stripe.refuseUnlessPlaceholdersAllowed "a subscription cancel" ()

end StripeProvider

/-! ## Checkout and portal -/

/-- Why a checkout request is refused before the provider is asked. -/
inductive CheckoutRefusal
  | invalidPackage | invalidPlan
  deriving DecidableEq

/-- `CheckoutRequestSerializer.validate`: a package or a plan, not both, and one of the
catalogue. -/
def validateCheckout (s : Settings) (package plan : Option String) : Option CheckoutRefusal :=
  if (nonempty package).isSome = (nonempty plan).isSome then some .invalidPackage
  else if ∃ slug ∈ nonempty package, s.creditPackageBySlug slug = none then some .invalidPackage
  else if (nonempty plan).isSome ∧ s.getPlan plan = none then some .invalidPlan
  else none

/-- The endpoint's answers. -/
inductive CheckoutReply
  | invalid (refusal : CheckoutRefusal)
  | unavailable
  | created (checkoutUrl sessionId : String)
  | raised (error : ProviderError)
  deriving DecidableEq

/-- `CheckoutView.post`, with the addresses to come back to as they were resolved. -/
def postCheckout (stripe : StripeProvider) (s : Settings) (user : UserId)
    (package plan : Option String) (successUrl cancelUrl : String) : CheckoutReply :=
  match validateCheckout s package plan with
  | some refusal => .invalid refusal
  | none =>
    match stripe.createCheckoutSession s user package plan successUrl cancelUrl with
    | .error (.notConfigured _) => .unavailable
    | .error e => .raised e
    | .ok (url, session) => .created url session

/-- The portal's answers. -/
inductive PortalReply
  | noBillingAccount
  | unavailable
  | opened (portalUrl : String)
  | raised (error : ProviderError)
  deriving DecidableEq

/-- `CustomerPortalView.get`, with the address to come back to as it was resolved. -/
def getPortal (stripe : StripeProvider) (user : UserId) (returnUrl : String) (db : Db) : PortalReply :=
  match nonempty ((findSubscription (some user) Subscription.user db).bind
      fun r => r.2.stripeCustomerId) with
  | none => .noBillingAccount
  | some customerId =>
    match stripe.createPortalSession customerId returnUrl with
    | .error .noCustomer => .noBillingAccount
    | .error (.notConfigured _) => .unavailable
    | .error e => .raised e
    | .ok url => .opened url

/-! ## The subscription -/

/-- The answers to a cancellation. -/
inductive CancelReply
  | notFound | notPaid | failed
  | cancelled (sub : Subscription)
  deriving DecidableEq

/-- The row as a cancellation writes it: it is marked, and stays in force. -/
def cancelledRow (env : Env) (sub : Subscription) : Subscription :=
  { sub with
    cancelledAt := some env.now
    cancelAtPeriodEnd := true }

/-- `SubscriptionCancelView.post` up to the provider's answer: the row as it was read, where
there is a subscription to cancel and the provider did not fail. -/
def askCancel (stripe : StripeProvider) (user : UserId) (db : Db) :
    Except CancelReply (ℕ × Subscription) :=
  match findSubscription (some user) Subscription.user db with
  | none => .error .notFound
  | some (k, sub) =>
    if sub.isPaid = false then .error .notPaid
    else
      match stripe.cancelSubscription (sub.stripeSubscriptionId.getD "") with
      | .error _ => .error .failed
      | .ok () => .ok (k, sub)

/-- The save that follows: two columns of the row, whatever else was written meanwhile. -/
def saveCancel (env : Env) (k : ℕ) (sub : Subscription) (db : Db) : Db :=
  saveSubscription k (cancelledRow env sub) [.cancelledAt, .cancelAtPeriodEnd] db

/-- `SubscriptionCancelView.post`. -/
def postCancel (env : Env) (stripe : StripeProvider) (user : UserId) (db : Db) : CancelReply × Db :=
  match askCancel stripe user db with
  | .error reply => (reply, db)
  | .ok (k, sub) => (.cancelled (cancelledRow env sub), saveCancel env k sub db)

/-! ## The wallet's settings -/

/-- `WalletView.patch` from its read to its save; the wallet that is opened for the read stays
when the request is refused. -/
def patchWalletSettings (env : Env) (user : UserId) (update : WalletUpdate) (db : Db) :
    Except BillingError Unit × Db :=
  let ((w, wallet), db) := getOrCreateWallet user db
  match patchWallet env update w wallet db with
  | .error e => (.error e, db)
  | .ok db => (.ok (), db)

/-! ## The charge of another service -/

/-- The body of an internal debit; the serializer refuses an amount that is not positive. -/
structure CreditDebitRequest where
  user : UserId
  credits : ℤ
  type : TransactionType
  description : Option String := none
  metadata : Metadata := Metadata.empty
  idempotencyKey : String := ""

/-- The answers of the internal endpoint. -/
inductive DebitReply
  | invalidAmount | walletNotFound | insufficientCredits
  | charged (transaction : ℕ) (balanceAfter : ℤ)
  deriving DecidableEq

/-- `InternalDebitView.post`. -/
def postInternalDebit (env : Env) (request : CreditDebitRequest) (db : Db) :
    Except BillingError (DebitReply × Db) :=
  if request.credits ≤ 0 then .ok (.invalidAmount, db)
  else if request.user ∉ db.users then .ok (.walletNotFound, db)
  else
    let args : DebitArgs :=
      { user := request.user
        credits := request.credits
        type := request.type
        description := request.description
        metadata := request.metadata
        idempotencyKey := request.idempotencyKey }
    match debit env args db with
    | .error (.insufficientCredits _ _) => .ok (.insufficientCredits, db)
    | .error e => .error e
    | .ok (.transaction txn, db) =>
      .ok (.charged txn (((db.transactions.get? txn).map Transaction.balanceAfter).getD 0), db)
    | .ok (.result result, db) => .ok (.charged result.transaction result.balance, db)

end StapelBilling
