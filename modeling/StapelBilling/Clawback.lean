import StapelBilling.Holds
import StapelBilling.Store.Rounding

/-! # Clawbacks: refunds, disputes and their reversal

Money that goes back takes its credits with it.  A clawback touches only the lots
the grant created; what had expired unspent is forgiven, what was spent becomes a
debt.  The provider reports refunds cumulatively, so each event claws back the
difference to what the ledger says earlier clawbacks requested.  A dispute that is
won gives back what its clawback took and what the clawback's debt collected.
-/
namespace StapelBilling
open Store

/-! ## Provider events about a charge -/

/-- A webhook event around its object.  `created` is the provider's clock in
seconds, `none` when it is absent or no number. -/
structure ProviderEvent (Object : Type) where
  id : Option String
  type : String
  created : Option ℚ := none
  object : Object

/-- The fields the handlers read off a charge, dispute or credit note; a field
whose type the code tests is `none` when the test fails. -/
structure ChargeObject where
  id : Option String := none
  invoice : Option String := none
  paymentIntent : Option String := none
  charge : Option String := none
  amount : Option ℤ := none
  amountRefunded : Option ℤ := none
  status : Option String := none

/-- An optional text as a JSON value. -/
def jsonText (text : Option String) : Json := (text.map Json.str).getD .null

/-- Does a metadata column hold this non-empty text under this key? -/
def namesText (metadata : Metadata) (key : MetaKey) (text : Option String) : Prop :=
  ∃ t ∈ text, t ≠ "" ∧ metadata key = some (.str t)

instance (metadata : Metadata) (key : MetaKey) (text : Option String) :
    Decidable (namesText metadata key text) := by
  unfold namesText; infer_instance

/-- Is this ledger row a grant the object refers to? -/
def ChargeObject.Names (obj : ChargeObject) (row : Transaction) : Prop :=
  (namesText row.metadata .stripeInvoiceId obj.invoice ∨
    namesText row.metadata .stripePaymentIntent obj.paymentIntent ∨
    namesText row.metadata .stripeChargeId obj.charge) ∧ 0 < row.creditsDelta

instance (obj : ChargeObject) : DecidablePred obj.Names := fun row => by
  unfold ChargeObject.Names; infer_instance

/-- The age of a ledger row: creation stamp, then identifier. -/
def Transaction.age (r : ℕ × Transaction) : Time ×ₗ ℕ := toLex (r.2.createdAt, r.2.uuid)

/-- The age of a lot. -/
def CreditLot.age (r : ℕ × CreditLot) : Time ×ₗ ℕ := toLex (r.2.createdAt, r.2.uuid)

/-- The grant rows a refund-shaped provider object refers to, oldest first. -/
def grantTransactions (obj : ChargeObject) (db : Db) : List (ℕ × Transaction) :=
  orderBy Transaction.age (db.transactions.select obj.Names)

/-- How many of a grant's credits this object takes back: a proportional part for
a partial refund, else the whole grant. -/
def clawbackCredits (obj : ChargeObject) (txn : Transaction) : ℤ :=
  match obj.amountRefunded, obj.amount with
  | some refunded, some total =>
    if 0 < total ∧ 0 < refunded ∧ refunded < total then
      max 1 (min txn.creditsDelta (roundHalfEven ((txn.creditsDelta * refunded : ℤ) / (total : ℚ))))
    else txn.creditsDelta
  | _, _ => txn.creditsDelta

/-! ## Taking a grant back -/

/-- What a clawback recovered. -/
structure ClawbackResult where
  transaction : ℕ
  requested : ℤ
  reclaimed : ℤ
  forgiven : ℤ
  outstanding : ℤ
  debt : Option ℕ := none

/-- The lots a grant created, oldest first. -/
def Db.grantedLots (db : Db) (grant : ℕ) : List (ℕ × CreditLot) :=
  orderBy CreditLot.age (db.lots.select fun lot => lot.grantingTransaction = some grant)

/-- The credits of these lots that the sweep took back. -/
def Db.expiredOf (db : Db) (lots : List (ℕ × CreditLot)) : ℤ :=
  -db.transactions.sum fun _ row =>
    if row.type = .expiration ∧ ∃ k ∈ row.lot, k ∈ lots.map Prod.fst then row.creditsDelta else 0

/-- The metadata of a clawback's row, without the debt it may open. -/
def clawbackMetadata (metadata : Metadata) (grant : ℕ) (requested reclaimed forgiven outstanding : ℤ)
    (taken : List (ℕ × ℤ)) : Metadata :=
  ((((((cleanMetadata metadata).set .clawbackOf (.ref .transaction grant)).set .requested
    (.int requested)).set .reclaimed (.int reclaimed)).set .forgiven (.int forgiven)).set
    .outstanding (.int outstanding)).set .lots (.lots taken)

/-- Book a clawback whose credits have already left the lots: the refund row, and
a debt for what is owed. -/
def bookClawback (env : Env) (grant : ℕ) (txn : Transaction) (requested reclaimed forgiven : ℤ)
    (description : Option String) (metadata : Metadata) (taken : List (ℕ × ℤ)) (db : Db) :
    ClawbackResult × Db :=
  let w := txn.wallet
  let outstanding := requested - reclaimed - forgiven
  let balance := db.liveBalance w env.now
  let db := db.syncBalance w env.now
  let description := orText description (some s!"Clawback of {txn.type.value}")
  let rowMetadata := clawbackMetadata metadata grant requested reclaimed forgiven outstanding taken
  let row := db.transactions.next
  let debt := db.debts.next
  let db := db.addTransaction env fun createdAt uuid =>
    { wallet := w
      lot := singleLot taken
      type := .refund
      amountCents := none
      creditsDelta := -reclaimed
      balanceAfter := balance
      description
      metadata := if 0 < outstanding then rowMetadata.set .debtId (.ref .debt debt) else rowMetadata
      createdAt
      uuid }
  let db := if 0 < outstanding then
      openDebt env w outstanding .clawback .refund description rowMetadata "" row db
    else db
  ({ transaction := row
     requested
     reclaimed
     forgiven
     outstanding
     debt := if 0 < outstanding then some debt else none }, db)

/-- Take back credits a grant handed out; `txn` is the grant's row as the caller
read it. -/
def clawBackGrant (env : Env) (grant : ℕ) (txn : Transaction) (credits : Option ℤ)
    (description : Option String) (metadata : Metadata) (db : Db) :
    Except BillingError (ClawbackResult × Db) :=
  match db.wallets.get? txn.wallet with
  | none => .error .doesNotExist
  | some _ =>
    let requested := credits.getD txn.creditsDelta
    let db := (expireDueLots env txn.wallet db).2
    let granted := db.grantedLots grant
    let taken := draw requested (granted.map fun r => (r.1, r.2.creditsRemaining))
    let reclaimed := drawn taken
    let db : Db := { db with lots := db.lots.drain CreditLot.spend taken }
    -- Credits that died of old age are not credits the customer used.
    let forgiven := if 0 < requested - reclaimed ∧ granted ≠ [] then
        min (requested - reclaimed) (db.expiredOf granted)
      else 0
    .ok (bookClawback env grant txn requested reclaimed forgiven description metadata taken db)

/-! ## Provider claims -/

/-- Claim one provider object; refused without an identity and when someone got
there first. -/
def claimProviderObject (scope : GrantScope) (externalId : Option String) (provider : String)
    (db : Db) : Option Db :=
  match externalId with
  | none => none
  | some ext =>
    if ext = "" then none
    else match db.providerGrants.find? fun g =>
        g.provider = provider ∧ g.scope = scope ∧ g.externalId = ext with
      | some _ => none
      | none => some { db with
          providerGrants := db.providerGrants.insert { provider, scope, externalId := ext } }

/-! ## Refund and dispute events -/

/-- What one refund row says was requested, net of a reversal; a row whose numbers
cannot be read counts for nothing. -/
def netRequested (metadata : Metadata) : ℤ :=
  match metadata.intOrZero .requested, metadata.intOrZero .reversed with
  | .ok requested, .ok reversed => requested - reversed
  | _, _ => 0

/-- Is this a refund row that names the grant? -/
def NamesGrant (grant : ℕ) (row : Transaction) : Prop :=
  row.type = .refund ∧ row.metadata .clawbackOf = some (.ref .transaction grant)

instance (grant : ℕ) : DecidablePred (NamesGrant grant) := fun row => by
  unfold NamesGrant; infer_instance

/-- Credits earlier clawbacks of a grant already requested, net of reversals. -/
def alreadyClawedBack (grant : ℕ) (db : Db) : ℤ :=
  max (db.transactions.sum fun _ row =>
    if NamesGrant grant row then netRequested row.metadata else 0) 0

/-- The metadata an event's clawback carries. -/
def eventMetadata (label : String) (eventId : Option String) (obj : ChargeObject) : Metadata :=
  ((Metadata.empty.set .clawbackReason (.str label)).set .stripeEventId (jsonText eventId)).set
    .stripeObjectId (jsonText obj.id)

/-- What is still to take of a grant. -/
def clawbackDue (obj : ChargeObject) (grant : ℕ) (txn : Transaction) (db : Db) : ℤ :=
  min (clawbackCredits obj txn) txn.creditsDelta - alreadyClawedBack grant db

/-- Claw back what `obj` says is refunded of a grant, minus earlier clawbacks. -/
def clawBackRemaining (env : Env) (obj : ChargeObject) (grant : ℕ) (txn : Transaction)
    (label : String) (eventId : Option String) (db : Db) : Except BillingError Db :=
  let credits := clawbackDue obj grant txn db
  if credits ≤ 0 then .ok db
  else
    match clawBackGrant env grant txn (some credits)
      (some (label ++ ": " ++ (orText txn.description (some txn.type.value)).getD ""))
      (eventMetadata label eventId obj) db with
    | .error e => .error e
    | .ok (_, db) => .ok db

def clawBackEach (env : Env) (obj : ChargeObject) (label : String) (eventId : Option String) :
    List (ℕ × Transaction) → Db → Except BillingError Db
  | [], db => .ok db
  | (grant, txn) :: grants, db =>
    match clawBackRemaining env obj grant txn label eventId db with
    | .error e => .error e
    | .ok db => clawBackEach env obj label eventId grants db

/-- Shared body of the money-back webhooks: idempotent per event. -/
def handleClawback (env : Env) (event : ProviderEvent ChargeObject) (label : String) (db : Db) :
    Except BillingError Db :=
  let grants := grantTransactions event.object db
  if grants = [] then .ok db
  else
    match claimProviderObject .clawback event.id "stripe" db with
    | none => .ok db
    | some db => clawBackEach env event.object label event.id grants db

/-- `charge.refunded`. -/
def handleChargeRefunded (env : Env) (event : ProviderEvent ChargeObject) (db : Db) :
    Except BillingError Db :=
  handleClawback env event "refund" db

/-- `charge.dispute.created`. -/
def handleDisputeCreated (env : Env) (event : ProviderEvent ChargeObject) (db : Db) :
    Except BillingError Db :=
  handleClawback env event "dispute" db

/-! ## A dispute that is won -/

/-- Close what is left of a debt. -/
def cancelDebt (env : Env) (k : ℕ) (eventId : Option String) (db : Db) : Db :=
  { db with
    debts := db.debts.modify k fun debt =>
      { debt with
        creditsOutstanding := 0
        settledAt := some env.now
        metadata := debt.metadata.set .cancelledBy (jsonText eventId) } }

/-- The lot restored credits come back as: like the grant's first one, where
there is one. -/
def restoredLot (env : Env) (w : ℕ) (grant : Option ℕ) (givenBack : ℤ) (db : Db) : CreditLot :=
  let template := (grant.bind fun g => (db.grantedLots g).head?).map Prod.snd
  { wallet := w
    source := (template.map CreditLot.source).getD .adjustment
    creditsInitial := givenBack
    creditsRemaining := givenBack
    expiresAt := template.bind CreditLot.expiresAt
    grantingTransaction := grant
    createdAt := env.createdAt db.lots.next
    uuid := env.uuid db.lots.next }

/-- Give credits back as a lot of their own, swept and booked. -/
def restoreCredits (env : Env) (w k : ℕ) (grant : Option ℕ) (givenBack : ℤ)
    (eventId : Option String) (db : Db) : Db :=
  let lot := db.lots.next
  let db : Db := { db with lots := db.lots.insert (restoredLot env w grant givenBack db) }
  let db := (expireDueLots env w db).2
  let balance := db.liveBalance w env.now
  let db := db.syncBalance w env.now
  db.addTransaction env fun createdAt uuid =>
    { wallet := w
      lot := some lot
      type := .adjustment
      amountCents := none
      creditsDelta := givenBack
      balanceAfter := balance
      description := some "Dispute won: credits restored"
      metadata := ((Metadata.empty.set .disputeWon (.bool true)).set .reverses
        (.ref .transaction k)).set .stripeEventId (jsonText eventId)
      createdAt
      uuid }

/-- Record on a clawback's row that it was reversed. -/
def markReversed (k : ℕ) (requested : ℤ) (eventId : Option String) (db : Db) : Db :=
  { db with
    transactions := db.transactions.modify k fun row =>
      { row with
        metadata := (row.metadata.set .reversed (.int requested)).set .reversedBy
          (jsonText eventId) } }

/-- The debt a clawback's row names, if any. -/
def clawbackDebt (metadata : Metadata) (db : Db) : Except BillingError (Option (ℕ × CreditDebt)) :=
  if metadata.truthy .debtId then lookupPk db.debts .debt (metadata .debtId) else .ok none

/-- What a debt has collected so far. -/
def CreditDebt.collected (debt : CreditDebt) : ℤ :=
  max (debt.creditsInitial - debt.creditsOutstanding) 0

/-- Close the debt a reversed row opened, where something is left of it. -/
def closeDebt (env : Env) (debt : Option (ℕ × CreditDebt)) (eventId : Option String) (db : Db) : Db :=
  match debt with
  | some (d, debt) => if 0 < debt.creditsOutstanding then cancelDebt env d eventId db else db
  | none => db

/-- Give a positive amount back. -/
def giveBack (env : Env) (w k : ℕ) (grant : Option ℕ) (givenBack : ℤ) (eventId : Option String)
    (db : Db) : Db :=
  if 0 < givenBack then restoreCredits env w k grant givenBack eventId db else db

/-- Undo one clawback row; `row` is the row as the caller read it.  Returns the
credits given back. -/
def reverseClawback (env : Env) (k : ℕ) (row : Transaction) (eventId : Option String) (db : Db) :
    Except BillingError (ℤ × Db) :=
  match db.wallets.get? row.wallet, db.transactions.get? k with
  | some _, some current =>
    let w := row.wallet
    let metadata := current.metadata
    if metadata.truthy .reversed then .ok (0, db)
    else do
      let grant ← lookupPk db.transactions .transaction (metadata .clawbackOf)
      let reclaimed ← metadata.intOrZero .reclaimed
      let debt ← clawbackDebt metadata db
      let givenBack := reclaimed + (debt.map fun d => d.2.collected).getD 0
      let requested ← metadata.intOrZero .requested
      let db := markReversed k requested eventId
        (giveBack env w k (grant.map Prod.fst) givenBack eventId (closeDebt env debt eventId db))
      if 0 < givenBack then
        let (_, db) ← settleDebts env w db
        return (givenBack, db)
      else return (givenBack, db)
  | _, _ => .error .doesNotExist

/-- Reverse a list of rows in order.  Returns the credits given back by all. -/
def reverseEach (env : Env) (eventId : Option String) :
    List (ℕ × Transaction) → Db → Except BillingError (ℤ × Db)
  | [], db => .ok (0, db)
  | (k, row) :: rows, db => do
    let (givenBack, db) ← reverseClawback env k row eventId db
    let (rest, db) ← reverseEach env eventId rows db
    return (givenBack + rest, db)

/-- Is this a refund row that carries a dispute's marks? -/
def OfDispute (dispute : String) (row : Transaction) : Prop :=
  row.type = .refund ∧ row.metadata .clawbackReason = some (.str "dispute") ∧
    row.metadata .stripeObjectId = some (.str dispute)

instance (dispute : String) : DecidablePred (OfDispute dispute) := fun row => by
  unfold OfDispute; infer_instance

/-- The rows a closed dispute reverses, oldest first. -/
def disputeRows (dispute : String) (db : Db) : List (ℕ × Transaction) :=
  orderBy Transaction.age (db.transactions.select (OfDispute dispute))

/-- `charge.dispute.closed`: a won dispute gives the credits back.  Returns the
credits given back. -/
def handleDisputeClosed (env : Env) (event : ProviderEvent ChargeObject) (db : Db) :
    Except BillingError (ℤ × Db) :=
  match event.object.id with
  | none => .ok (0, db)
  | some dispute =>
    if event.object.status ≠ some "won" ∨ dispute = "" then .ok (0, db)
    else
      let rows := disputeRows dispute db
      if rows = [] then .ok (0, db)
      else
        match claimProviderObject .clawback event.id "stripe" db with
        | none => .ok (0, db)
        | some db => reverseEach env event.id rows db

end StapelBilling
