import StapelBilling.Clawback

/-! # Provider subscriptions

The provider's lifecycle events mirrored onto the local row.  Events arrive in any
order: state is applied in provider time, an older event is dropped, and two events of
one second are told apart by how far along the lifecycle their status is.  A period
that arrives before its subscription is parked until a checkout creates the row.
-/
namespace StapelBilling
open Store

/-! ## Provider time -/

/-- A unix timestamp as an instant; what is no number is unknown. -/
def epochToDatetime (ts : Option ℚ) : Option Time :=
  ts.map fun seconds => roundHalfEven (seconds * 1000000)

/-- A deadline only counts while it is still ahead. -/
def futureOrNone (now : Time) (value : Option Time) : Option Time :=
  match value with
  | some e => if now < e then some e else none
  | none => none

/-- The provider's own clock for an event. -/
def providerEventTime {Object : Type} (event : ProviderEvent Object) : Option Time :=
  epochToDatetime event.created

/-! ## The subscription object -/

/-- One item of a subscription object, with the period it bills. -/
structure SubscriptionItem where
  currentPeriodStart : Option ℚ := none
  currentPeriodEnd : Option ℚ := none

/-- The fields the handlers read off a subscription object; a field whose type the code
tests is `none` when the test fails. -/
structure SubscriptionObject where
  id : Option String := none
  customer : Option String := none
  userId : Option UserId := none
  status : Option String := none
  currentPeriodStart : Option ℚ := none
  currentPeriodEnd : Option ℚ := none
  items : List SubscriptionItem := []
  cancelAtPeriodEnd : Option Bool := none
  canceledAt : Option ℚ := none

/-- An identifier that is there and not empty. -/
def nonempty (text : Option String) : Option String :=
  match text with
  | some t => if t = "" then none else some t
  | none => none

/-- The earlier of two known instants. -/
def earlier : Option Time → Option Time → Option Time
  | some s, some t => some (min s t)
  | none, t => t
  | s, none => s

/-- The later of two known instants. -/
def later : Option Time → Option Time → Option Time
  | some s, some t => some (max s t)
  | none, t => t
  | s, none => s

/-- The period of a subscription object, wherever the API version keeps it; over several
items the widest window. -/
def stripePeriod (obj : SubscriptionObject) : Option Time × Option Time :=
  obj.items.foldl
    (fun period item => (earlier period.1 (epochToDatetime item.currentPeriodStart),
      later period.2 (epochToDatetime item.currentPeriodEnd)))
    (epochToDatetime obj.currentPeriodStart, epochToDatetime obj.currentPeriodEnd)

/-! ## Status -/

/-- The local status of each of the provider's. -/
def stripeStatusMap : List (String × SubscriptionStatus) :=
  [("active", .active), ("trialing", .trialing), ("past_due", .pastDue), ("canceled", .cancelled),
    ("incomplete", .incomplete), ("incomplete_expired", .incompleteExpired), ("unpaid", .unpaid),
    ("paused", .paused)]

/-- Translate a provider status; one that is not in the map keeps `current`. -/
def mapStripeStatus (raw : Option String) (current : Option SubscriptionStatus) :
    Option SubscriptionStatus :=
  (raw.bind fun status => stripeStatusMap.lookup status).or current

/-- How far along the provider's lifecycle a status is. -/
def lifecycleRank : SubscriptionStatus → ℕ
  | .incomplete => 0
  | .incompleteExpired => 1
  | .trialing => 2
  | .active => 3
  | .pastDue => 4
  | .unpaid => 5
  | .paused => 6
  | .cancelled => 7

/-! ## Saving -/

/-- The columns a save may name. -/
inductive SubscriptionField
  | status | stripeSubscriptionId | stripeCustomerId | lastProviderEventAt
  | currentPeriodStart | currentPeriodEnd | cancelAtPeriodEnd | cancelledAt
  deriving DecidableEq

/-- Write one column of `sub` over a row. -/
def SubscriptionField.write (sub : Subscription) (row : Subscription) :
    SubscriptionField → Subscription
  | .status => { row with status := sub.status }
  | .stripeSubscriptionId => { row with stripeSubscriptionId := sub.stripeSubscriptionId }
  | .stripeCustomerId => { row with stripeCustomerId := sub.stripeCustomerId }
  | .lastProviderEventAt => { row with lastProviderEventAt := sub.lastProviderEventAt }
  | .currentPeriodStart => { row with currentPeriodStart := sub.currentPeriodStart }
  | .currentPeriodEnd => { row with currentPeriodEnd := sub.currentPeriodEnd }
  | .cancelAtPeriodEnd => { row with cancelAtPeriodEnd := sub.cancelAtPeriodEnd }
  | .cancelledAt => { row with cancelledAt := sub.cancelledAt }

/-- `save(update_fields=...)`: the named columns are written, the others stay. -/
def saveSubscription (k : ℕ) (sub : Subscription) (fields : List SubscriptionField) (db : Db) : Db :=
  { db with
    subscriptions := db.subscriptions.modify k fun row =>
      fields.foldl (SubscriptionField.write sub) row }

/-! ## Applying an event -/

/-- A row as a handler has changed it in memory, with the columns it changed. -/
abbrev Edited := Subscription × List SubscriptionField

/-- Take over the period an object carries. -/
def applyStripePeriod (obj : SubscriptionObject) (sub : Subscription) : Edited :=
  let (start, finish) := stripePeriod obj
  let (sub, changed) : Edited :=
    if start ≠ none ∧ start ≠ sub.currentPeriodStart then
      ({ sub with currentPeriodStart := start }, [.currentPeriodStart])
    else (sub, [])
  if finish ≠ none ∧ finish ≠ sub.currentPeriodEnd then
    ({ sub with currentPeriodEnd := finish }, changed ++ [.currentPeriodEnd])
  else (sub, changed)

/-- Take over what an object says about cancellation. -/
def applyStripeCancellation (obj : SubscriptionObject) (sub : Subscription) : Edited :=
  let flag := obj.cancelAtPeriodEnd
  let (sub, changed) : Edited :=
    match flag with
    | some b =>
      if b ≠ sub.cancelAtPeriodEnd then ({ sub with cancelAtPeriodEnd := b }, [.cancelAtPeriodEnd])
      else (sub, [])
    | none => (sub, [])
  let cancelled := epochToDatetime obj.canceledAt
  if cancelled ≠ none ∧ cancelled ≠ sub.cancelledAt then
    ({ sub with cancelledAt := cancelled }, changed ++ [.cancelledAt])
  else if cancelled = none ∧ flag = some false ∧ sub.cancelledAt ≠ none then
    -- The cancellation was undone at the provider.
    ({ sub with cancelledAt := none }, changed ++ [.cancelledAt])
  else (sub, changed)

/-- Would an event of this time and status move the row's lifecycle backwards? -/
def isStaleLifecycleEvent (sub : Subscription) (event : Option Time) (status : Option String) :
    Bool :=
  match event, sub.lastProviderEventAt with
  | some t, some last =>
    if last < t then false
    else if t < last then true
    else match mapStripeStatus status none with
      | some incoming => lifecycleRank incoming < lifecycleRank sub.status
      | none => false
  | _, _ => false

/-- Move the row's provider clock forward, never backwards. -/
def advanceProviderClock (event : Option Time) (sub : Subscription) : Edited :=
  match event with
  | none => (sub, [])
  | some t =>
    if ∃ last ∈ sub.lastProviderEventAt, t ≤ last then (sub, [])
    else ({ sub with lastProviderEventAt := some t }, [.lastProviderEventAt])

/-- Does the lot carry undated credits of a bundle of this subscription? -/
def Undated (sub : Subscription) (id : String) (db : Db) (lot : CreditLot) : Prop :=
  (∃ wallet ∈ db.wallets.get? lot.wallet, wallet.user = sub.user) ∧ lot.source = .subscription ∧
    lot.expiresAt = none ∧ 0 < lot.creditsRemaining ∧
    ∃ g ∈ lot.grantingTransaction, ∃ row ∈ db.transactions.get? g,
      row.metadata .stripeSubscriptionId = some (.str id)

instance (sub : Subscription) (id : String) (db : Db) : DecidablePred (Undated sub id db) :=
  fun lot => by unfold Undated; infer_instance

/-- Date the subscription lots that were granted before the period was known. -/
def stampSubscriptionPeriod (sub : Subscription) (db : Db) : Db :=
  match sub.currentPeriodEnd, nonempty sub.stripeSubscriptionId with
  | some finish, some id =>
    { db with
      lots := db.lots.update fun _ lot =>
        if Undated sub id db lot then { lot with expiresAt := some finish } else lot }
  | _, _ => db

/-- `subscription.changed`. -/
def announceSubscription (sub : Subscription) (db : Db) : Db :=
  { db with
    outbox := db.outbox ++ [.subscriptionChanged sub.user sub.plan sub.status sub.currentPeriodEnd
      sub.cancelAtPeriodEnd] }

/-! ## Finding the row -/

/-- Take over the ids a row does not have yet. -/
def adoptIds (id customer : Option String) (sub : Subscription) : Edited :=
  let (sub, changed) : Edited :=
    if (nonempty id).isSome ∧ nonempty sub.stripeSubscriptionId = none then
      ({ sub with stripeSubscriptionId := id }, [.stripeSubscriptionId])
    else (sub, [])
  if (nonempty customer).isSome ∧ nonempty sub.stripeCustomerId = none then
    ({ sub with stripeCustomerId := customer }, changed ++ [.stripeCustomerId])
  else (sub, changed)

/-- The first row a non-empty key finds. -/
def findSubscription {Key : Type} (key : Option Key) (column : Subscription → Option Key)
    [DecidableEq Key] (db : Db) : Option (ℕ × Subscription) :=
  key.bind fun value => db.subscriptions.find? fun sub => column sub = some value

/-- The local row a subscription object belongs to: by subscription id, by customer, by
the user the host named.  A row found by another way takes over the id it lacks. -/
def resolveLocalSubscription (obj : SubscriptionObject) (db : Db) : Option (ℕ × Subscription) × Db :=
  match findSubscription (nonempty obj.id) Subscription.stripeSubscriptionId db with
  | some r => (some r, db)
  | none =>
    match findSubscription (nonempty obj.customer) Subscription.stripeCustomerId db with
    | some (k, sub) =>
      let (sub, changed) := adoptIds obj.id none sub
      (some (k, sub), saveSubscription k sub changed db)
    | none =>
      match findSubscription obj.userId Subscription.user db with
      | some (k, sub) =>
        let (sub, changed) := adoptIds obj.id obj.customer sub
        (some (k, sub), saveSubscription k sub changed db)
      | none => (none, db)

/-! ## The stash -/

/-- Park a period whose local row does not exist yet; one parked by a newer event
stays. -/
def stashSubscriptionPeriod (obj : SubscriptionObject) (event : Option Time) (db : Db) : Db :=
  match nonempty obj.id with
  | none => db
  | some id =>
    let (start, finish) := stripePeriod obj
    let park (pending : PendingSubscriptionPeriod) : PendingSubscriptionPeriod :=
      { pending with
        stripeCustomerId := obj.customer.getD ""
        status := obj.status.getD ""
        providerEventAt := event.or pending.providerEventAt
        currentPeriodStart := start.or pending.currentPeriodStart
        currentPeriodEnd := finish.or pending.currentPeriodEnd }
    match db.pendingPeriods.find? fun pending => pending.stripeSubscriptionId = id with
    | some (k, existing) =>
      if ∃ t ∈ event, ∃ parked ∈ existing.providerEventAt, t < parked then db
      else { db with pendingPeriods := db.pendingPeriods.modify k park }
    | none =>
      { db with pendingPeriods := db.pendingPeriods.insert (park { stripeSubscriptionId := id }) }

/-- What a parked period makes of a row. -/
def PendingSubscriptionPeriod.applyTo (pending : PendingSubscriptionPeriod) (sub : Subscription) :
    Edited :=
  let stale : Bool := decide (∃ t ∈ pending.providerEventAt, ∃ last ∈ sub.lastProviderEventAt, t < last)
  let (sub, changed) : Edited :=
    if pending.currentPeriodStart ≠ none ∧ pending.currentPeriodStart ≠ sub.currentPeriodStart then
      ({ sub with currentPeriodStart := pending.currentPeriodStart }, [.currentPeriodStart])
    else (sub, [])
  let (sub, changed) : Edited :=
    if pending.currentPeriodEnd ≠ none ∧ pending.currentPeriodEnd ≠ sub.currentPeriodEnd then
      ({ sub with currentPeriodEnd := pending.currentPeriodEnd }, changed ++ [.currentPeriodEnd])
    else (sub, changed)
  if stale then (sub, changed)
  else
    let mapped := (mapStripeStatus (some pending.status) (some sub.status)).getD sub.status
    let (sub, changed) : Edited :=
      if mapped ≠ sub.status then ({ sub with status := mapped }, changed ++ [.status])
      else (sub, changed)
    let (sub, advanced) := advanceProviderClock pending.providerEventAt sub
    (sub, changed ++ advanced)

/-- Apply a parked period to the row that claims it and drop the stash.  Returns the row
as it stands in memory. -/
def applyPendingPeriod (k : ℕ) (sub : Subscription) (db : Db) : Subscription × Db :=
  match nonempty sub.stripeSubscriptionId with
  | none => (sub, db)
  | some id =>
    match db.pendingPeriods.find? fun pending => pending.stripeSubscriptionId = id with
    | none => (sub, db)
    | some (_, pending) =>
      let (sub, changed) := pending.applyTo sub
      let db := if changed = [] then db
        else stampSubscriptionPeriod sub (saveSubscription k sub changed db)
      (sub, { db with
        pendingPeriods := db.pendingPeriods.filter fun pending => ¬ pending.stripeSubscriptionId = id })

/-! ## Lifecycle events -/

/-- Save a row that an event changed, date its lots and announce it. -/
def applyLifecycle (k : ℕ) (edited : Edited) (db : Db) : Db :=
  announceSubscription edited.1
    (stampSubscriptionPeriod edited.1 (saveSubscription k edited.1 edited.2 db))

/-- What `customer.subscription.created` and `.updated` make of a row. -/
def updatedSubscription (obj : SubscriptionObject) (event : Option Time) (sub : Subscription) :
    Edited :=
  let sub := { sub with
    status := (mapStripeStatus obj.status (some sub.status)).getD sub.status }
  let (sub, period) := applyStripePeriod obj sub
  let (sub, cancellation) := applyStripeCancellation obj sub
  let (sub, clock) := advanceProviderClock event sub
  (sub, .status :: (period ++ cancellation ++ clock))

/-- What `customer.subscription.deleted` makes of a row. -/
def deletedSubscription (env : Env) (obj : SubscriptionObject) (event : Option Time)
    (sub : Subscription) : Edited :=
  let sub := { sub with
    status := .cancelled
    cancelledAt := some ((epochToDatetime obj.canceledAt).getD env.now)
    cancelAtPeriodEnd := false }
  let (sub, period) := applyStripePeriod obj sub
  let (sub, clock) := advanceProviderClock event sub
  (sub, [.status, .cancelledAt, .cancelAtPeriodEnd] ++ period ++ clock)

/-- `customer.subscription.created` and `.updated`. -/
def handleSubscriptionUpdated (event : ProviderEvent SubscriptionObject) (db : Db) : Db :=
  let obj := event.object
  match resolveLocalSubscription obj db with
  | (none, db) => stashSubscriptionPeriod obj (providerEventTime event) db
  | (some (k, sub), db) =>
    if isStaleLifecycleEvent sub (providerEventTime event) obj.status then db
    else applyLifecycle k (updatedSubscription obj (providerEventTime event) sub) db

/-- `customer.subscription.deleted`. -/
def handleSubscriptionDeleted (env : Env) (event : ProviderEvent SubscriptionObject) (db : Db) : Db :=
  let obj := event.object
  match resolveLocalSubscription obj db with
  | (none, db) => stashSubscriptionPeriod obj (providerEventTime event) db
  | (some (k, sub), db) =>
    if isStaleLifecycleEvent sub (providerEventTime event) (some "canceled") then db
    else applyLifecycle k (deletedSubscription env obj (providerEventTime event) sub) db

end StapelBilling
