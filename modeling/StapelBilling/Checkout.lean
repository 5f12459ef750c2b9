import StapelBilling.Subscriptions

/-! # Checkouts and renewal invoices

A completed checkout hands over what its metadata names, after comparing the session
with the catalogue: a package's credits, or a plan with its first bundle.  A paid renewal
invoice hands over the next bundle.  Each session and each invoice is claimed once, in the
transaction that makes the grant.
-/
namespace StapelBilling
open Store

/-! ## The provider's objects -/

/-- The fields of a checkout session; `userId` is the buyer its metadata names, and
`amountDiscount` is `none` when the session has a discount that is no integer. -/
structure CheckoutSession where
  id : Option String := none
  userId : Option UserId := none
  clientReferenceId : Option UserId := none
  package : Option String := none
  plan : Option String := none
  simulated : Bool := false
  mode : Option String := none
  paymentStatus : Option String := none
  currency : Option String := none
  amountTotal : Option ℤ := none
  amountDiscount : Option ℤ := some 0
  paymentIntent : Option String := none
  invoice : Option String := none
  customer : Option String := none
  subscription : Option String := none

/-- One line of an invoice. -/
structure InvoiceLine where
  subscriptionItemDetails : Option String := none
  invoiceItemDetails : Option String := none
  subscription : Option String := none
  periodStart : Option ℚ := none
  periodEnd : Option ℚ := none

/-- The fields of an invoice, under the shapes of every API version. -/
structure InvoiceObject where
  id : Option String := none
  subscription : Option String := none
  parentSubscription : Option String := none
  lines : List InvoiceLine := []
  billingReason : String := ""
  status : Option String := none
  amountPaid : Option ℤ := none
  currency : Option String := none
  periodStart : Option ℚ := none
  periodEnd : Option ℚ := none
  hostedInvoiceUrl : Option String := none
  invoicePdf : Option String := none
  receiptUrl : Option String := none

/-- The subscription an invoice line names. -/
def InvoiceLine.subscriptionId (line : InvoiceLine) : Option String :=
  ((nonempty line.subscriptionItemDetails).or (nonempty line.invoiceItemDetails)).or
    (nonempty line.subscription)

/-- The subscription an invoice bills, whichever API version shaped it. -/
def invoiceSubscriptionId (obj : InvoiceObject) : Option String :=
  ((nonempty obj.subscription).or (nonempty obj.parentSubscription)).or
    (obj.lines.findSome? InvoiceLine.subscriptionId)

/-- The end of the service period a renewal invoice covers. -/
def invoicePeriodEnd (obj : InvoiceObject) : Option Time :=
  (obj.lines.findSome? fun line => epochToDatetime line.periodEnd).or
    (epochToDatetime obj.periodEnd)

/-- The start of that period. -/
def invoicePeriodStart (obj : InvoiceObject) : Option Time :=
  (obj.lines.findSome? fun line => epochToDatetime line.periodStart).or
    (epochToDatetime obj.periodStart)

/-- A text with the blanks around it taken off; nothing when nothing is left. -/
def stripped (text : Option String) : Option String :=
  nonempty (text.map strip)

/-- The provider's own document for an invoice. -/
def invoiceDocumentUrl (obj : InvoiceObject) : Option String :=
  ((stripped obj.hostedInvoiceUrl).or (stripped obj.invoicePdf)).or (stripped obj.receiptUrl)

/-! ## Checking a session -/

/-- Why a session contradicts what was sold. -/
inductive CheckoutMismatch
  | mode (mode : Option String) (expected : String)
  | paymentStatus (status : Option String)
  | currency (currency expected : String)
  | amountTotal
  | amountDiscount
  | price (charged discount expected : ℤ)
  deriving DecidableEq

/-- Compare a session with the catalogue entry its metadata names; a subscription's first
invoice may differ from the price, so no amount is expected of it. -/
def reconcileCheckoutSession (env : Env) (obj : CheckoutSession) (expectedMode : String)
    (expectedCurrency : String) (expectedAmountCents : Option ℤ) : Option CheckoutMismatch :=
  if ¬ env.settings.strictCheckoutReconciliation then none
  else if obj.mode ≠ some expectedMode then some (.mode obj.mode expectedMode)
  else if ¬ (obj.paymentStatus = some "paid" ∨ obj.paymentStatus = some "no_payment_required") then
    some (.paymentStatus obj.paymentStatus)
  else if (obj.currency.getD "").toLower ≠ expectedCurrency.toLower then
    some (.currency (obj.currency.getD "").toLower expectedCurrency.toLower)
  else
    match expectedAmountCents, obj.amountTotal, obj.amountDiscount with
    | none, _, _ => none
    | some _, none, _ => some .amountTotal
    | some _, some _, none => some .amountDiscount
    | some expected, some charged, some discount =>
      if charged + discount ≠ expected then some (.price charged discount expected) else none

/-- The buyer of a session: named by its metadata, known here, and not contradicted by the
session's own reference. -/
def checkoutBuyer (obj : CheckoutSession) (db : Db) : Option UserId :=
  match obj.userId with
  | none => none
  | some user =>
    if user ∉ db.users then none
    else if ∃ reference ∈ obj.clientReferenceId, reference ≠ user then none
    else some user

/-! ## Grants -/

/-- `payment.completed`. -/
def announcePayment (user : UserId) (amountCents : ℤ) (currency : String) (txn : ℕ)
    (extra : Metadata) (db : Db) : Db :=
  { db with outbox := db.outbox ++ [.paymentCompleted user amountCents currency txn extra] }

/-- The credit a package buys. -/
def packageCredit (user : UserId) (pkg : CreditPackage) (obj : CheckoutSession) : CreditArgs :=
  { user
    credits := pkg.credits
    type := .creditPurchase
    source := .purchase
    description := some ("Purchase: " ++ pkg.name)
    amountCents := some pkg.priceCents
    metadata := (((Metadata.empty.set .package (.str pkg.slug)).set .stripeSessionId
      (jsonText obj.id)).set .stripePaymentIntent (jsonText obj.paymentIntent)).set .simulated
      (.bool obj.simulated) }

/-- Hand over a package.  The answer says whether the handler goes on. -/
def grantPackage (env : Env) (user : UserId) (pkg : CreditPackage) (obj : CheckoutSession) (db : Db) :
    Except BillingError (Bool × Db) :=
  match reconcileCheckoutSession env obj "payment" pkg.currency (some pkg.priceCents) with
  | some _ => .ok (false, db)
  | none =>
    match claimProviderObject .checkoutSession obj.id "stripe" db with
    | none => .ok (false, db)
    | some db =>
      match credit env (packageCredit user pkg obj) db with
      | .error e => .error e
      | .ok (txn, db) =>
        let extra := Metadata.empty.set .package (.str pkg.slug)
        .ok (true, announcePayment user pkg.priceCents pkg.currency.toLower txn
          (if obj.simulated then extra.set .simulated (.bool true) else extra) db)

/-- Does another user's row carry one of these provider ids? -/
def Db.IdsTaken (db : Db) (user : UserId) (id customer : Option String) : Prop :=
  (db.subscriptions.find? fun row => row.user ≠ some user ∧
    ((nonempty id ≠ none ∧ row.stripeSubscriptionId = id) ∨
      (nonempty customer ≠ none ∧ row.stripeCustomerId = customer))).isSome

instance (db : Db) (user : UserId) (id customer : Option String) :
    Decidable (db.IdsTaken user id customer) := by
  unfold Db.IdsTaken; infer_instance

/-- What a subscription checkout writes over the user's row.  One that is older than a
lifecycle event already applied leaves status and clock alone. -/
def checkoutDefaults (plan : String) (obj : CheckoutSession) (event : Option Time)
    (sub : Subscription) : Subscription :=
  let named : Subscription := { sub with
    plan
    stripeCustomerId := obj.customer
    stripeSubscriptionId := obj.subscription }
  if isStaleLifecycleEvent sub event (some "active") then named
  else { named with
    status := .active
    lastProviderEventAt := match event with
      | none => sub.lastProviderEventAt
      | some t => some (max t (sub.lastProviderEventAt.getD t)) }

/-- `update_or_create(user=user, ...)`; refused when another row has one of the ids. -/
def openSubscription (user : UserId) (plan : String) (obj : CheckoutSession) (event : Option Time)
    (db : Db) : Except BillingError (ℕ × Subscription × Db) :=
  if db.IdsTaken user obj.subscription obj.customer then .error .integrityError
  else
    match db.subscriptions.find? fun sub => sub.user = some user with
    | some (k, existing) =>
      let sub := checkoutDefaults plan obj event existing
      .ok (k, sub, { db with subscriptions := db.subscriptions.modify k fun _ => sub })
    | none =>
      let sub := checkoutDefaults plan obj event { user := some user }
      .ok (db.subscriptions.next, sub, { db with subscriptions := db.subscriptions.insert sub })

/-- The first bundle of a plan. -/
def bundleCredit (env : Env) (user : UserId) (plan : String) (entry : PlanCatalogEntry)
    (charged : ℤ) (obj : CheckoutSession) (sub : Subscription) : CreditArgs :=
  { user
    credits := entry.monthlyCreditsIncluded
    type := .subscriptionBonus
    source := .subscription
    description := some ("Plan bonus: " ++ plan)
    amountCents := some charged
    metadata := (((Metadata.empty.set .plan (.str plan)).set .stripeSubscriptionId
      (jsonText sub.stripeSubscriptionId)).set .stripeInvoiceId (jsonText obj.invoice)).set
      .stripeSessionId (jsonText obj.id)
    expiresAt := futureOrNone env.now sub.currentPeriodEnd }

/-- Credit a plan's bundle and announce the payment; a plan without one credits nothing. -/
def grantBundle (env : Env) (user : UserId) (plan : String) (entry : PlanCatalogEntry)
    (obj : CheckoutSession) (sub : Subscription) (db : Db) : Except BillingError Db :=
  if entry.monthlyCreditsIncluded = 0 then .ok db
  else
    let charged := obj.amountTotal.getD entry.priceCents
    match credit env (bundleCredit env user plan entry charged obj sub) db with
    | .error e => .error e
    | .ok (txn, db) =>
      .ok (announcePayment user charged entry.currency.toLower txn
        (Metadata.empty.set .plan (.str plan)) db)

/-- Hand over a plan: the row, a period that was parked for it, and the first bundle. -/
def grantPlan (env : Env) (user : UserId) (plan : String) (entry : PlanCatalogEntry)
    (event : ProviderEvent CheckoutSession) (db : Db) : Except BillingError Db :=
  let obj := event.object
  match reconcileCheckoutSession env obj "subscription" entry.currency none with
  | some _ => .ok db
  | none =>
    match claimProviderObject .checkoutSession obj.id "stripe" db with
    | none => .ok db
    | some db =>
      match openSubscription user plan obj (providerEventTime event) db with
      | .error e => .error e
      | .ok (k, sub, db) =>
        let (sub, db) := applyPendingPeriod k sub db
        match grantBundle env user plan entry obj sub db with
        | .error e => .error e
        | .ok db => .ok (announceSubscription sub db)

/-- `checkout.session.completed`. -/
def handleCheckoutCompleted (env : Env) (event : ProviderEvent CheckoutSession) (db : Db) :
    Except BillingError Db :=
  let obj := event.object
  match checkoutBuyer obj db with
  | none => .ok db
  | some user =>
    let bought := match (nonempty obj.package).bind env.settings.creditPackageBySlug with
      | some pkg => grantPackage env user pkg obj db
      | none => .ok (true, db)
    match bought with
    | .error e => .error e
    | .ok (false, db) => .ok db
    | .ok (true, db) =>
      match obj.plan, env.settings.getPlan obj.plan with
      | some plan, some entry => grantPlan env user plan entry event db
      | _, _ => .ok db

/-! ## Renewals -/

/-- The bundle a renewal invoice pays for. -/
def renewalCredit (env : Env) (user : UserId) (entry : PlanCatalogEntry) (amount : ℤ)
    (subscriptionId : String) (obj : InvoiceObject) (sub : Subscription) : CreditArgs :=
  { user
    credits := entry.monthlyCreditsIncluded
    type := .subscriptionBonus
    source := .subscription
    description := some ("Plan renewal: " ++ sub.plan)
    amountCents := some amount
    metadata := ((Metadata.empty.set .plan (.str sub.plan)).set .stripeSubscriptionId
      (.str subscriptionId)).set .stripeInvoiceId (jsonText obj.id)
    expiresAt := futureOrNone env.now ((invoicePeriodEnd obj).or sub.currentPeriodEnd) }

/-- What a renewal's receipt needs beyond the money; an unknown fact is an absent key. -/
def renewalExtras (plan : String) (obj : InvoiceObject) : Metadata :=
  let extra := Metadata.empty.set .plan (.str plan)
  let extra := match invoiceDocumentUrl obj with
    | some url => extra.set (.other "invoice_url") (.str url)
    | none => extra
  let extra := match invoicePeriodStart obj with
    | some start => extra.set (.other "period_start") (.time start)
    | none => extra
  match invoicePeriodEnd obj with
  | some finish => extra.set (.other "period_end") (.time finish)
  | none => extra

/-- What a renewal for no user raises.  The credit takes the wallet that has no owner, of which
there may be one at most, and makes one where there is none; the announcement then reads the
id of no user, and everything is rolled back. -/
def renewalWithoutUser (entry : PlanCatalogEntry) (db : Db) : BillingError :=
  if entry.monthlyCreditsIncluded ≤ 0 then .valueError "credits must be positive"
  else if 1 < (db.wallets.select fun wallet => wallet.user = none).length then
    .multipleObjectsReturned
  else .attributeError "'NoneType' object has no attribute 'id'"

/-- `invoice.paid` and `invoice.payment_succeeded`. -/
def handleInvoicePaid (env : Env) (event : ProviderEvent InvoiceObject) (db : Db) :
    Except BillingError Db :=
  let obj := event.object
  match invoiceSubscriptionId obj with
  | none => .ok db
  | some subscriptionId =>
    if obj.billingReason = "subscription_create" then .ok db
    else if ∃ status ∈ obj.status, status ≠ "paid" then .ok db
    else
      match db.subscriptions.find? fun sub => sub.stripeSubscriptionId = some subscriptionId with
      | none => .ok db
      | some (_, sub) =>
        match env.settings.getPlan (some sub.plan) with
        | none => .ok db
        | some entry =>
          if entry.monthlyCreditsIncluded = 0 then .ok db
          else
            match claimProviderObject .invoice obj.id "stripe" db with
            | none => .ok db
            | some db =>
              match sub.user with
              | none => .error (renewalWithoutUser entry db)
              | some user =>
                let amount := obj.amountPaid.getD entry.priceCents
                match credit env (renewalCredit env user entry amount subscriptionId obj sub) db with
                | .error e => .error e
                | .ok (txn, db) =>
                  .ok (announcePayment user amount
                    ((nonempty obj.currency).getD entry.currency).toLower txn
                    (renewalExtras sub.plan obj) db)

end StapelBilling
