import StapelBilling.Checkout

/-! # Declined renewals

A declined renewal grants nothing and takes nothing back; what it owes the subscriber is
word of it.  The invoice names its subscription and the subscription its owner; failing
that, the customer does.  A failure that no account here is behind is told to nobody.
-/
namespace StapelBilling
open Store

/-- The texts in which the provider says why a charge failed. -/
structure DeclineSource where
  sellerMessage : Option String := none
  message : Option String := none
  declineCode : Option String := none
  code : Option String := none
  failureCode : Option String := none
  networkStatus : Option String := none

/-- The fields of an invoice that could not be collected.  `nextPaymentAttempt` tells a key
that is absent from one that is null. -/
structure FailedInvoiceObject extends InvoiceObject where
  customer : Option String := none
  amountDue : Option ℤ := none
  amountRemaining : Option ℤ := none
  nextPaymentAttempt : Option (Option ℚ) := none
  collectionMethod : Option String := none
  lastPaymentError : Option DeclineSource := none
  outcome : Option DeclineSource := none
  decline : DeclineSource := {}

/-- The message written for a person. -/
def DeclineSource.words (source : DeclineSource) : Option String :=
  (stripped source.sellerMessage).or (stripped source.message)

/-- The code written for a machine. -/
def DeclineSource.codes (source : DeclineSource) : Option String :=
  (((stripped source.declineCode).or (stripped source.code)).or (stripped source.failureCode)).or
    (stripped source.networkStatus)

/-- The most human thing the provider said about why it failed. -/
def declineReason (obj : FailedInvoiceObject) : Option String :=
  let error := (obj.lastPaymentError.or obj.outcome).getD {}
  ((error.words.or obj.decline.words).or error.codes).or obj.decline.codes

/-- The local user behind a failed charge, with the plan: the subscription's owner, whoever
that is, else the customer's. -/
def failedPaymentUser (obj : FailedInvoiceObject) (db : Db) : Option UserId × Option String :=
  match findSubscription (invoiceSubscriptionId obj.toInvoiceObject)
      Subscription.stripeSubscriptionId db with
  | some (_, sub) => (sub.user, some sub.plan)
  | none =>
    match findSubscription (nonempty obj.customer) Subscription.stripeCustomerId db with
    | some (_, sub) => (sub.user, some sub.plan)
    | none => (none, none)

/-- Will the provider not retry this invoice by itself? -/
def isFinalAttempt (obj : FailedInvoiceObject) : Bool :=
  decide (obj.nextPaymentAttempt = some none ∧
    (nonempty obj.collectionMethod).getD "charge_automatically" = "charge_automatically" ∧
    obj.billingReason ≠ "subscription_create")

/-- What a failure's notice needs beyond the money; an unknown fact is an absent key. -/
def failureExtras (plan : Option String) (obj : FailedInvoiceObject) : Metadata :=
  let text (key : MetaKey) (value : Option String) (extra : Metadata) : Metadata :=
    match nonempty value with
    | some t => extra.set key (.str t)
    | none => extra
  let extra := text (.other "invoice_id") obj.id Metadata.empty
  let extra := text .plan plan extra
  let extra := text (.other "decline_reason") (declineReason obj) extra
  let extra := text (.other "invoice_url") (invoiceDocumentUrl obj.toInvoiceObject) extra
  if isFinalAttempt obj then extra.set (.other "final_attempt") (.bool true) else extra

/-- `invoice.payment_failed`. -/
def handleInvoicePaymentFailed (env : Env) (event : ProviderEvent FailedInvoiceObject) (db : Db) :
    Db :=
  let obj := event.object
  match failedPaymentUser obj db with
  | (none, _) => db
  | (some user, plan) =>
    { db with
      outbox := db.outbox ++ [.paymentFailed user ((obj.amountDue.or obj.amountRemaining).getD 0)
        (obj.currency.getD "").toLower env.now (failureExtras plan obj)] }

end StapelBilling
