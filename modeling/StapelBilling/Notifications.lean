import StapelBilling.Checkout

/-! # Telling the payer

A payment that went through and a charge that was declined are told to the payer, once per
payment and at most twice per invoice.  A letter is claimed, published and, where the bus
refuses it, unclaimed again, so that a redelivery can try once more.  Amounts and dates are
kept as numbers here; how they are written is the letter's business.
-/
namespace StapelBilling
open Store

/-! ## What a fact carries -/

/-- The part of a payment fact that every letter reads.  `amountCents` is `none` when the
fact carries no number, `createdAt` when it carries no instant. -/
structure PaymentPayload where
  userId : Option String := none
  amountCents : Option ℤ := none
  currency : Option String := none
  createdAt : Option Time := none
  package : Option String := none
  plan : Option String := none
  invoiceUrl : Option String := none

/-- `payment.completed`. -/
structure PaymentCompletedPayload extends PaymentPayload where
  transactionId : Option String := none
  periodStart : Option Time := none
  periodEnd : Option Time := none

/-- `payment.failed`. -/
structure PaymentFailedPayload extends PaymentPayload where
  invoiceId : Option String := none
  paymentIntentId : Option String := none
  declineReason : Option String := none
  finalAttempt : Json := .null

/-! ## Age -/

/-- Why a fact is too old to write to someone about. -/
inductive StalenessRefusal
  | noTimestamp
  | old (days limit : ℤ)
  deriving DecidableEq

/-- Nothing when the letter may go out. -/
def stalenessRefusal (env : Env) (timestamp : Option Time) : Option StalenessRefusal :=
  let maxAge := env.settings.notifyMaxAgeSeconds
  if maxAge = 0 then none
  else
    match timestamp with
    | none => some .noTimestamp
    | some moment =>
      let age := env.now - moment
      if seconds maxAge < age then some (.old (age / seconds 86400) (maxAge / 86400)) else none

/-! ## What a letter says -/

/-- What a letter is filled in with. -/
structure LetterVariables where
  amountCents : ℤ
  currency : String
  itemName : String
  periodStart : Option ℤ := none
  periodEnd : Option ℤ := none
  invoiceUrl : Option String := none
  declineReason : Option String := none
  finalAttempt : Bool := false
  retryUrl : Option String := none
  deriving DecidableEq

/-- The name of what was bought. -/
def itemLabel (env : Env) (package plan : Option String) : String :=
  match nonempty plan, nonempty package with
  | some slug, _ =>
    ((env.settings.getPlan (some slug)).bind fun entry => nonempty (some entry.name)).getD slug
  | none, some slug =>
    ((env.settings.creditPackageBySlug slug).bind fun entry => nonempty (some entry.name)).getD slug
  | none, none => "your account credit"

/-- The day an instant falls on. -/
def isoDate (value : Option Time) : Option ℤ := value.map fun t => t / seconds 86400

def currencyCode (currency : Option String) : String :=
  ((stripped currency).getD "").toLower

/-- What a receipt says; nothing without an amount. -/
def paymentSucceededVariables (env : Env) (payload : PaymentCompletedPayload) :
    Option LetterVariables :=
  match payload.amountCents with
  | none => none
  | some amountCents =>
    let start := isoDate payload.periodStart
    let finish := isoDate payload.periodEnd
    -- Both ends of the period, or neither.
    let known := start.isSome && finish.isSome
    some {
      amountCents
      currency := currencyCode payload.currency
      itemName := itemLabel env payload.package payload.plan
      periodStart := if known then start else none
      periodEnd := if known then finish else none
      invoiceUrl := stripped payload.invoiceUrl }

/-- The decline codes that have words of their own. -/
def declineSentences : List (String × String) :=
  [("insufficient_funds", "the card did not have enough available funds"),
   ("card_declined", "the card was declined by the bank"),
   ("expired_card", "the card has expired"),
   ("incorrect_cvc", "the security code did not match"),
   ("processing_error", "the bank could not process the payment"),
   ("authentication_required", "the bank asked for confirmation that was not given")]

/-- A decline reason in words; a code that has none is dropped. -/
def humaniseDecline (reason : String) : String :=
  let text := strip reason
  let key := text.toLower.map fun c => if c = ' ' then '_' else c
  match declineSentences.lookup key with
  | some sentence => sentence
  | none => if '_' ∈ reason.toList ∧ ' ' ∉ text.toList then "" else text

/-- What the notice of a declined charge says; nothing without an amount. -/
def paymentFailedVariables (env : Env) (payload : PaymentFailedPayload) : Option LetterVariables :=
  match payload.amountCents with
  | none => none
  | some amountCents =>
    some {
      amountCents
      currency := currencyCode payload.currency
      itemName := itemLabel env payload.package payload.plan
      declineReason := nonempty (some (humaniseDecline (payload.declineReason.getD "")))
      finalAttempt := payload.finalAttempt = .bool true
      retryUrl := stripped (some env.settings.billingPageUrl) }

/-! ## The handlers -/

/-- A letter as it is asked for, and the claim it is sent under. -/
structure Letter where
  scope : GrantScope
  externalId : String
  type : NotificationType
  userId : String
  vars : LetterVariables
  deriving DecidableEq

/-- The letter a completed payment asks for: one per ledger row. -/
def paymentCompletedLetter (env : Env) (payload : PaymentCompletedPayload) : Option Letter :=
  match nonempty payload.userId, nonempty payload.transactionId with
  | some userId, some transactionId =>
    match stalenessRefusal env payload.createdAt with
    | some _ => none
    | none =>
      (paymentSucceededVariables env payload).map fun vars =>
        { scope := .notifyPayment
          externalId := transactionId
          type := .paymentSucceeded
          userId
          vars }
  | _, _ => none

/-- The letter a declined charge asks for: one for the invoice and one more for the attempt
after which the provider gives up. -/
def paymentFailedLetter (env : Env) (payload : PaymentFailedPayload) : Option Letter :=
  match nonempty payload.userId, (nonempty payload.invoiceId).or (nonempty payload.paymentIntentId) with
  | some userId, some externalId =>
    match stalenessRefusal env payload.createdAt with
    | some _ => none
    | none =>
      (paymentFailedVariables env payload).map fun vars =>
        { scope := .notifyPaymentFailed
          externalId :=
            if payload.finalAttempt.truthy ∧ (nonempty payload.invoiceId).isSome then
              s!"{externalId}:final"
            else externalId
          type := .paymentFailed
          userId
          vars }
  | _, _ => none

/-- Give back a claim, by its value. -/
def releaseClaim (letter : Letter) (db : Db) : Db :=
  { db with
    providerGrants := db.providerGrants.filter fun grant =>
      ¬ (grant.provider = "notify" ∧ grant.scope = letter.scope ∧
        grant.externalId = letter.externalId) }

/-- Claim, publish, and undo the claim if the publish did not happen; `accepts` is the
answer of the bus.  What was written stays when this raises. -/
def claimAndSend (accepts : Bool) (letter : Letter) (db : Db) : Except BillingError Bool × Db :=
  match claimProviderObject letter.scope (some letter.externalId) "notify" db with
  | none => (.ok false, db)
  | some db =>
    if accepts then (.ok true, db)
    else (.error (.notificationNotQueued letter.type letter.externalId), releaseClaim letter db)

end StapelBilling
