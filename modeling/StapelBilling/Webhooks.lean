import StapelBilling.Declines

/-! # Webhooks: the event log and the handler registry

An incoming provider event is logged under the provider's id and then run through the
handler registered for its type, in one transaction with the mark that it was processed.
The registry is the library's own table with the host's entries over it: the last entry of
a type wins, and an entry may switch a type off.  A replay takes the logged rows through
the same path.
-/
namespace StapelBilling
open Store

/-! ## Events -/

/-- The fields of a charge that was declined. -/
structure FailedChargeObject extends FailedInvoiceObject where
  invoice : Option String := none
  paymentIntent : Option String := none
  amount : Option ℤ := none

/-- The object of an event, under the fields that each handler reads of it. -/
structure StripeObject where
  session : CheckoutSession := {}
  invoice : FailedInvoiceObject := {}
  subscription : SubscriptionObject := {}
  charge : ChargeObject := {}
  declined : FailedChargeObject := {}

abbrev StripeEvent := ProviderEvent StripeObject

/-- An event as one handler reads it. -/
def StripeEvent.read {Object : Type} (event : StripeEvent) (view : StripeObject → Object) :
    ProviderEvent Object :=
  { id := event.id
    type := event.type
    created := event.created
    object := view event.object }

/-! ## The handlers that are left -/

/-- `charge.failed`: a decline outside the invoice flow.  The invoice's own event tells the
payer of one within it. -/
def handleChargeFailed (env : Env) (event : ProviderEvent FailedChargeObject) (db : Db) : Db :=
  let obj := event.object
  if nonempty obj.invoice ≠ none then db
  else
    match failedPaymentUser obj.toFailedInvoiceObject db with
    | (none, _) => db
    | (some user, plan) =>
      let text (key : MetaKey) (value : Option String) (extra : Metadata) : Metadata :=
        match nonempty value with
        | some t => extra.set key (.str t)
        | none => extra
      let extra := text (.other "payment_intent_id") ((nonempty obj.paymentIntent).or obj.id)
        Metadata.empty
      let extra := text .plan plan extra
      let extra := text (.other "decline_reason") (declineReason obj.toFailedInvoiceObject) extra
      { db with
        outbox := db.outbox ++ [.paymentFailed user (obj.amount.getD 0)
          (obj.currency.getD "").toLower env.now extra] }

/-- `credit_note.created`. -/
def handleCreditNoteCreated (env : Env) (event : ProviderEvent ChargeObject) (db : Db) :
    Except BillingError Db :=
  handleClawback env event "credit_note" db

/-! ## Events that come too late -/

/-- Does a lifecycle event of this status find state that is newer than itself: on the row
it belongs to, or parked for it? -/
def lifecycleIsStale (status : Option String) (event : ProviderEvent SubscriptionObject) (db : Db) :
    Bool :=
  match resolveLocalSubscription event.object db with
  | (some (_, sub), _) => isStaleLifecycleEvent sub (providerEventTime event) status
  | (none, db) =>
    match nonempty event.object.id with
    | none => false
    | some id =>
      match db.pendingPeriods.find? fun pending => pending.stripeSubscriptionId = id with
      | none => false
      | some (_, existing) =>
        decide (∃ t ∈ providerEventTime event, ∃ parked ∈ existing.providerEventAt, t < parked)

/-- Does a checkout get as far as the user's row, and find it newer than itself? -/
def checkoutIsStale (env : Env) (event : ProviderEvent CheckoutSession) (db : Db) : Bool :=
  let obj := event.object
  match checkoutBuyer obj db with
  | none => false
  | some user =>
    let bought := match (nonempty obj.package).bind env.settings.creditPackageBySlug with
      | some pkg => grantPackage env user pkg obj db
      | none => .ok (true, db)
    match bought, env.settings.getPlan obj.plan with
    | .ok (true, db), some entry =>
      match reconcileCheckoutSession env obj "subscription" entry.currency none with
      | some _ => false
      | none =>
        match claimProviderObject .checkoutSession obj.id "stripe" db with
        | none => false
        | some db =>
          match db.subscriptions.find? fun sub => sub.user = some user with
          | none => false
          | some (_, existing) =>
            isStaleLifecycleEvent existing (providerEventTime event) (some "active")
    | _, _ => false

/-! ## The registry -/

/-- A handler: what it does to the database, and whether it noted that the event was older
than the state it would have overwritten. -/
structure StripeHandler where
  run : Env → StripeEvent → Db → Except BillingError Db
  notesStale : Env → StripeEvent → Db → Bool := fun _ _ _ => false

/-- What a dotted path imports: something that can be called, or something else. -/
inductive Imported
  | handler (handler : StripeHandler)
  | object

/-- An entry of the registry as the host writes it. -/
inductive HandlerValue
  | ignored
  | callable (handler : StripeHandler)
  | path (dotted : String)
  | other

/-- Why an event fails besides a database that refuses it. -/
inductive WebhookError
  | notImportable (dotted : String)
  | notAHandler
  | notCallable
  | doesNotExist
  | handler (e : BillingError)

/-- The library's own entries, in the table's order. -/
def builtinStripeHandlers : List (String × String) :=
  [("checkout.session.completed", "stapel_billing.services.handle_checkout_completed"),
    ("invoice.paid", "stapel_billing.services.handle_invoice_paid"),
    ("invoice.payment_succeeded", "stapel_billing.services.handle_invoice_paid"),
    ("customer.subscription.created", "stapel_billing.services.handle_subscription_updated"),
    ("customer.subscription.updated", "stapel_billing.services.handle_subscription_updated"),
    ("customer.subscription.deleted", "stapel_billing.services.handle_subscription_deleted"),
    ("invoice.payment_failed", "stapel_billing.services.handle_invoice_payment_failed"),
    ("charge.failed", "stapel_billing.services.handle_charge_failed"),
    ("charge.refunded", "stapel_billing.services.handle_charge_refunded"),
    ("charge.dispute.created", "stapel_billing.services.handle_dispute_created"),
    ("charge.dispute.closed", "stapel_billing.services.handle_dispute_closed"),
    ("credit_note.created", "stapel_billing.services.handle_credit_note_created")]

/-- The handlers the library's module has, by the path they are imported by. -/
def servicesHandlers : List (String × StripeHandler) :=
  [("stapel_billing.services.handle_checkout_completed",
      { run := fun env event => handleCheckoutCompleted env (event.read (·.session))
        notesStale := fun env event => checkoutIsStale env (event.read (·.session)) }),
    ("stapel_billing.services.handle_invoice_paid",
      { run := fun env event => handleInvoicePaid env (event.read (·.invoice.toInvoiceObject)) }),
    ("stapel_billing.services.handle_subscription_updated",
      { run := fun _ event db => .ok (handleSubscriptionUpdated (event.read (·.subscription)) db)
        notesStale := fun _ event =>
          lifecycleIsStale event.object.subscription.status (event.read (·.subscription)) }),
    ("stapel_billing.services.handle_subscription_deleted",
      { run := fun env event db =>
          .ok (handleSubscriptionDeleted env (event.read (·.subscription)) db)
        notesStale := fun _ event =>
          lifecycleIsStale (some "canceled") (event.read (·.subscription)) }),
    ("stapel_billing.services.handle_invoice_payment_failed",
      { run := fun env event db =>
          .ok (handleInvoicePaymentFailed env (event.read (·.invoice)) db) }),
    ("stapel_billing.services.handle_charge_failed",
      { run := fun env event db => .ok (handleChargeFailed env (event.read (·.declined)) db) }),
    ("stapel_billing.services.handle_charge_refunded",
      { run := fun env event => handleChargeRefunded env (event.read (·.charge)) }),
    ("stapel_billing.services.handle_dispute_created",
      { run := fun env event => handleDisputeCreated env (event.read (·.charge)) }),
    ("stapel_billing.services.handle_dispute_closed",
      { run := fun env event db =>
          (handleDisputeClosed env (event.read (·.charge)) db).map Prod.snd }),
    ("stapel_billing.services.handle_credit_note_created",
      { run := fun env event => handleCreditNoteCreated env (event.read (·.charge)) })]

/-- The host's entries, one for each type, and what the paths of its own modules import. -/
structure WebhookSettings where
  stripeWebhookHandlers : List (String × HandlerValue) := []
  nodup : (stripeWebhookHandlers.map Prod.fst).Nodup := by decide
  imports : String → Option Imported := fun _ => none

namespace WebhookSettings

/-- `import_string`. -/
def importString (hooks : WebhookSettings) (dotted : String) : Option Imported :=
  match servicesHandlers.lookup dotted with
  | some handler => some (.handler handler)
  | none => hooks.imports dotted

/-- A registry value as what it stands for; nothing where the type is ignored. -/
def resolve (hooks : WebhookSettings) : HandlerValue → Except WebhookError (Option Imported)
  | .ignored => .ok none
  | .callable handler => .ok (some (.handler handler))
  | .path dotted =>
    if strip dotted = "" then .ok none
    else
      match hooks.importString dotted with
      | some imported => .ok (some imported)
      | none => .error (.notImportable dotted)
  | .other => .error .notAHandler

/-- `d[key] = value` on a dict: an entry that is there keeps its place. -/
def setEntry {β : Type} (key : String) (value : β) : List (String × β) → List (String × β)
  | [] => [(key, value)]
  | entry :: rest =>
    if entry.1 = key then (key, value) :: rest else entry :: setEntry key value rest

/-- The table before its values are resolved: the host's entries over the library's. -/
def rawHandlers (hooks : WebhookSettings) : List (String × HandlerValue) :=
  hooks.stripeWebhookHandlers.foldl (fun raw entry => setEntry entry.1 entry.2 raw)
    (builtinStripeHandlers.map fun entry => (entry.1, HandlerValue.path entry.2))

/-- Resolve every entry of a table; the first that cannot be resolved is raised. -/
def resolveAll (hooks : WebhookSettings) :
    List (String × HandlerValue) → Except WebhookError (List (String × Option Imported))
  | [] => .ok []
  | entry :: rest =>
    match hooks.resolve entry.2 with
    | .error e => .error e
    | .ok imported =>
      match hooks.resolveAll rest with
      | .error e => .error e
      | .ok resolved => .ok ((entry.1, imported) :: resolved)

/-- `stripe_handlers()`: the effective registry. -/
def stripeHandlers (hooks : WebhookSettings) :
    Except WebhookError (List (String × Option Imported)) :=
  hooks.resolveAll hooks.rawHandlers

/-- `get_stripe_handler`: nothing where the type is not registered or switched off. -/
def getStripeHandler (hooks : WebhookSettings) (eventType : String) :
    Except WebhookError (Option Imported) :=
  match hooks.stripeHandlers with
  | .error e => .error e
  | .ok handlers => .ok ((handlers.lookup eventType).getD none)

/-- `check_stripe_webhook_handlers`: the host's entries that the check refuses at start-up. -/
def checkStripeWebhookHandlers (hooks : WebhookSettings) : List (String × WebhookError) :=
  hooks.stripeWebhookHandlers.filterMap fun entry =>
    match hooks.resolve entry.2 with
    | .error e => some (entry.1, e)
    | .ok (some .object) => some (entry.1, .notCallable)
    | .ok _ => none

/-- Call what is registered for an event, if anything is.  Answers whether the handler noted
that the event was too late. -/
def dispatch (hooks : WebhookSettings) (env : Env) (eventType : String) (event : StripeEvent)
    (db : Db) : Except WebhookError (Bool × Db) :=
  match hooks.getStripeHandler eventType with
  | .error e => .error e
  | .ok none => .ok (false, db)
  | .ok (some .object) => .error .notCallable
  | .ok (some (.handler handler)) =>
    match handler.run env event db with
    | .error e => .error (.handler e)
    | .ok db' => .ok (handler.notesStale env event db, db')

end WebhookSettings

/-! ## The event log -/

/-- A row of the event log; `error` is the exception whose text the column holds. -/
structure StripeWebhookEvent where
  stripeEventId : String
  eventType : String
  payload : StripeEvent
  processedAt : Option Time := none
  ignoredStale : Bool := false
  error : Option WebhookError := none
  receivedAt : Time
  uuid : ℕ

/-- The database with its event log. -/
structure Inbox where
  db : Db
  log : Table StripeWebhookEvent := Table.empty

/-- What running one logged event comes to. -/
inductive EventOutcome
  | processed | ignoredStale | duplicate
  deriving DecidableEq, Repr

namespace Inbox

/-- The log once an event was run: processed, and without an error. -/
def mark (env : Env) (k : ℕ) (stale : Bool) (log : Table StripeWebhookEvent) :
    Table StripeWebhookEvent :=
  log.modify k fun row =>
    { row with
      processedAt := some env.now
      ignoredStale := stale
      error := none }

/-- Write an error over a row, by a save of its own. -/
def recordError (k : ℕ) (e : WebhookError) (inbox : Inbox) : Inbox :=
  { inbox with log := inbox.log.modify k fun row => { row with error := some e } }

/-- `apply_stored_event`: run one logged event, with the payload the caller verified or the
one on the row. -/
def applyStoredEvent (hooks : WebhookSettings) (env : Env) (k : ℕ) (event : Option StripeEvent)
    (inbox : Inbox) : Except WebhookError (EventOutcome × Inbox) :=
  match inbox.log.get? k with
  | none => .error .doesNotExist
  | some locked =>
    if locked.processedAt ≠ none then .ok (.duplicate, inbox)
    else
      match hooks.dispatch env locked.eventType (event.getD locked.payload) inbox.db with
      | .error e => .error e
      | .ok (stale, db) =>
        .ok (if stale then .ignoredStale else .processed,
          { db
            log := mark env k stale inbox.log })

/-- `get_or_create` on the log. -/
def logEvent (env : Env) (id : String) (event : StripeEvent) (inbox : Inbox) : ℕ × Inbox :=
  match inbox.log.find? fun row => row.stripeEventId = id with
  | some (k, _) => (k, inbox)
  | none =>
    (inbox.log.next, { inbox with
      log := inbox.log.insert
        { stripeEventId := id
          eventType := event.type
          payload := event
          receivedAt := env.createdAt inbox.log.next
          uuid := env.uuid inbox.log.next } })

/-- Has this row been processed? -/
def Processed (inbox : Inbox) (k : ℕ) : Prop :=
  ∃ row, inbox.log.get? k = some row ∧ row.processedAt ≠ none

instance (inbox : Inbox) (k : ℕ) : Decidable (inbox.Processed k) :=
  decidable_of_iff (∃ row ∈ inbox.log.get? k, row.processedAt ≠ none) Iff.rfl

end Inbox

/-! ## The endpoint -/

/-- What the signature check makes of a request. -/
inductive Verified
  | badSignature
  | crashed
  | event (event : StripeEvent)

/-- The endpoint's answers. -/
inductive WebhookReply
  | invalidSignature | invalidPayload | duplicate | error | ok
  deriving DecidableEq, Repr

namespace Inbox

/-- Run a logged event for the endpoint; a failure is written over the row. -/
def process (hooks : WebhookSettings) (env : Env) (k : ℕ) (event : StripeEvent) (inbox : Inbox) :
    WebhookReply × Inbox :=
  if inbox.Processed k then (.duplicate, inbox)
  else
    match inbox.applyStoredEvent hooks env k (some event) with
    | .error e => (.error, inbox.recordError k e)
    | .ok (.duplicate, inbox) => (.duplicate, inbox)
    | .ok (_, inbox) => (.ok, inbox)

/-- `StripeWebhookView.post`. -/
def post (hooks : WebhookSettings) (env : Env) (request : Verified) (inbox : Inbox) :
    WebhookReply × Inbox :=
  match request with
  | .badSignature => (.invalidSignature, inbox)
  | .crashed => (.invalidPayload, inbox)
  | .event event =>
    match nonempty event.id, nonempty (some event.type) with
    | some id, some _ =>
      let (k, inbox) := inbox.logEvent env id event
      inbox.process hooks env k event
    | _, _ => (.invalidPayload, inbox)

/-! ## Replays -/

/-- The age of a row of the log. -/
def age (r : ℕ × StripeWebhookEvent) : Time ×ₗ ℕ := toLex (r.2.receivedAt, r.2.uuid)

/-- `replayable_events`: the rows named and, if asked for, those never processed, oldest
first. -/
def replayableEvents (eventIds : List String) (unprocessed : Bool) (inbox : Inbox) :
    List (ℕ × StripeWebhookEvent) :=
  orderBy age (inbox.log.select fun row =>
    row.stripeEventId ∈ eventIds ∨ (unprocessed = true ∧ row.processedAt = none))

end Inbox

/-- What replaying one row came to. -/
inductive ReplayOutcome
  | pending | error (e : WebhookError) | ran (outcome : EventOutcome)

/-- The report about one replayed row. -/
structure ReplayedEvent where
  stripeEventId : String
  eventType : String
  receivedAt : Time
  previousError : Option WebhookError
  outcome : ReplayOutcome

namespace Inbox

/-- Replay one row as it was listed; `envs` is what the run of each row reads. -/
def replayRow (hooks : WebhookSettings) (envs : ℕ → Env) (dryRun : Bool)
    (r : ℕ × StripeWebhookEvent) (inbox : Inbox) : ReplayedEvent × Inbox :=
  let report (outcome : ReplayOutcome) : ReplayedEvent :=
    { stripeEventId := r.2.stripeEventId
      eventType := r.2.eventType
      receivedAt := r.2.receivedAt
      previousError := r.2.error
      outcome }
  if dryRun then
    (report (if r.2.processedAt ≠ none then .ran .duplicate else .pending), inbox)
  else
    match inbox.applyStoredEvent hooks (envs r.1) r.1 none with
    | .error e => (report (.error e), inbox.recordError r.1 e)
    | .ok (outcome, inbox) => (report (.ran outcome), inbox)

def replayEach (hooks : WebhookSettings) (envs : ℕ → Env) (dryRun : Bool) :
    List (ℕ × StripeWebhookEvent) → Inbox → List ReplayedEvent × Inbox
  | [], inbox => ([], inbox)
  | r :: rows, inbox =>
    let (report, inbox) := inbox.replayRow hooks envs dryRun r
    let (reports, inbox) := replayEach hooks envs dryRun rows inbox
    (report :: reports, inbox)

/-- `replay_webhook_events`. -/
def replayWebhookEvents (hooks : WebhookSettings) (envs : ℕ → Env) (eventIds : List String)
    (unprocessed dryRun : Bool) (inbox : Inbox) : List ReplayedEvent × Inbox :=
  replayEach hooks envs dryRun (inbox.replayableEvents eventIds unprocessed) inbox

end Inbox
end StapelBilling
