import StapelBilling.Declines
import StapelBilling.OwnSubscription
import StapelBilling.CumulativeRefunds
import StapelBilling.MergeRuns
import StapelBilling.Opening

/-! # Subscriptions without an owner

A merge detaches the subscription of the merged account where the survivor has one of its
own, and leaves the provider's ids on the row.  The provider goes on sending events about
it.  What each of them does then:

* a declined renewal is told to nobody: its handler asks whether there is a user at all;
* a paid renewal that gets as far as its grant **raises**, and is rolled back: the credit
  would go to a wallet without an owner, and the announcement reads the id of no user;
* a lifecycle event that is not stale **announces a subscription of nobody**.

An erased row is met by no event: erasure takes its ids along with its owner.
-/
namespace StapelBilling
open Store

/-- The account a fact is about. -/
def Fact.user : Fact → Option UserId
  | .paymentCompleted user _ _ _ _ => some user
  | .subscriptionChanged user _ _ _ _ => user
  | .paymentFailed user _ _ _ _ => some user
  | .subscriptionComped user _ _ _ _ _ => some user

/-! ## How a row comes to have no owner -/

/-- What makes and unmakes the owner of a row. -/
inductive AccountCall
  | checkout (event : ProviderEvent CheckoutSession)
  | lifecycle (e : LifecycleEvent)
  | userMerged (fromUser intoUser : Option UserId)
  | eraseSubject (subjectType : String) (subject : Option UserId)

/-- The state a successful call leaves. -/
def AccountCall.exec (digest : UserId → UserId → String) (env : Env) :
    AccountCall → Db → Except BillingError Db
  | .checkout event, db => handleCheckoutCompleted env event db
  | .lifecycle e, db => .ok (e.handle env db)
  | .userMerged fromUser intoUser, db => handleUserMerged env digest fromUser intoUser db
  | .eraseSubject subjectType subject, db =>
    .ok ((StapelBilling.eraseSubject subjectType subject db).getD db)

/-- A run over the accounts. -/
def runAccounts (digest : UserId → UserId → String) (calls : List (Env × AccountCall)) (db : Db) :
    Db :=
  Store.run (fun c => c.2.exec digest c.1) calls db

/-- **An erased subscription is named by nothing**: where a row of the user was, no id of the
provider's is left. -/
theorem eraseSubscriptions_unnamed {user : UserId} {db : Db} {k : ℕ} {sub : Subscription}
    (hk : db.subscriptions.get? k = some sub) (huser : sub.user = some user) :
    ∃ erased, (eraseSubscriptions user db).subscriptions.get? k = some erased ∧
      erased.user = none ∧ nonempty erased.stripeSubscriptionId = none ∧
      nonempty erased.stripeCustomerId = none := by
  refine ⟨{ sub with user := none, stripeSubscriptionId := some "", stripeCustomerId := some "" },
    ?_, rfl, rfl, rfl⟩
  rw [eraseSubscriptions, Table.get?_update, hk, Option.map_some, if_pos huser]

/-! ## Events about a row -/

/-- The row that carries a subscription id or, where none does, a customer id. -/
def Db.FoundBy (db : Db) (id customer : Option String) (k : ℕ) (sub : Subscription) : Prop :=
  findSubscription id Subscription.stripeSubscriptionId db = some (k, sub) ∨
    findSubscription id Subscription.stripeSubscriptionId db = none ∧
      findSubscription customer Subscription.stripeCustomerId db = some (k, sub)

theorem Db.FoundBy.byId {db : Db} {id : Option String} {k : ℕ} {sub : Subscription}
    (h : db.FoundBy id none k sub) :
    findSubscription id Subscription.stripeSubscriptionId db = some (k, sub) := by
  rcases h with h | ⟨-, h⟩
  · exact h
  · cases h

/-- An event about a subscription. -/
inductive SubscriptionEvent
  | invoicePaid (event : ProviderEvent InvoiceObject)
  | invoicePaymentFailed (event : ProviderEvent FailedInvoiceObject)
  | lifecycle (e : LifecycleEvent)

namespace SubscriptionEvent

/-- The handler of an event. -/
def exec (env : Env) : SubscriptionEvent → Db → Except BillingError Db
  | invoicePaid event, db => handleInvoicePaid env event db
  | invoicePaymentFailed event, db => .ok (handleInvoicePaymentFailed env event db)
  | lifecycle e, db => .ok (e.handle env db)

/-- The row an event names, by the fields its handler goes by. -/
def Names (k : ℕ) (sub : Subscription) (db : Db) : SubscriptionEvent → Prop
  | invoicePaid event => db.FoundBy (invoiceSubscriptionId event.object) none k sub
  | invoicePaymentFailed event =>
    db.FoundBy (invoiceSubscriptionId event.object.toInvoiceObject)
      (nonempty event.object.customer) k sub
  | lifecycle e => db.FoundBy (nonempty e.object.id) (nonempty e.object.customer) k sub

/-- Where a handler stops before it comes to the owner: a renewal that is none or is not
paid, that pays for no credits, or whose grant is refused; any declined renewal; a lifecycle
event that is older than what the row has seen. -/
def StopsShort (env : Env) (sub : Subscription) (db : Db) : SubscriptionEvent → Prop
  | invoicePaid event =>
    event.object.billingReason = "subscription_create" ∨
      (∃ status ∈ event.object.status, status ≠ "paid") ∨
      (∀ entry ∈ env.settings.getPlan (some sub.plan), entry.monthlyCreditsIncluded = 0) ∨
      ∀ id ∈ nonempty event.object.id, db.Claimed .invoice id
  | invoicePaymentFailed _ => True
  | lifecycle e => e.IsStale sub

/-- **What no event may do** to a row without an owner: add credits to a wallet without an
owner, or announce something about nobody. -/
structure Harmless (db db' : Db) : Prop where
  credits : ∀ l lot, db'.lots.get? l = some lot →
    (∃ wallet ∈ db'.wallets.get? lot.wallet, wallet.user = none) →
    ∃ old, db.lots.get? l = some old ∧ old.wallet = lot.wallet ∧
      lot.creditsRemaining ≤ old.creditsRemaining
  facts : ∃ facts, db'.outbox = db.outbox ++ facts ∧
    ∀ fact ∈ facts, ∃ user ∈ db.users, fact.user = some user

theorem Harmless.of_eq {db db' : Db} (hlots : db'.lots = db.lots)
    (houtbox : db'.outbox = db.outbox) : Harmless db db' where
  credits := fun l lot hlot _ => ⟨lot, by rw [← hlots]; exact hlot, rfl, le_rfl⟩
  facts := ⟨[], by rw [houtbox, List.append_nil], fun fact hfact => absurd hfact List.not_mem_nil⟩

/-- The handler returns, and does nothing it may not do. -/
def Unbroken (env : Env) (event : SubscriptionEvent) (db : Db) : Prop :=
  ∃ db', event.exec env db = .ok db' ∧ Harmless db db'

section Rows
variable {env : Env} {db : Db} {k : ℕ} {sub : Subscription}

/-! ## Renewals -/

/-- A claim is refused to an invoice without an id, or to one that was claimed before. -/
theorem claimProviderObject_none_iff {scope : GrantScope} {ext : Option String} :
    claimProviderObject scope ext "stripe" db = none ↔
      ∀ id ∈ nonempty ext, db.Claimed scope id := by
  constructor
  · intro h id hid
    have hext := nonempty_eq_some hid
    have hne : id ≠ "" := by
      rintro rfl
      rw [hext] at hid
      cases hid
    by_contra hfresh
    obtain ⟨claimed, hclaim, -⟩ := claimProviderObject_fresh hne hfresh
    rw [← hext, h] at hclaim
    cases hclaim
  · intro h
    cases ext with
    | none => rfl
    | some id =>
      by_cases hne : id = ""
      · subst hne
        rfl
      · exact claimProviderObject_claimed hne (h id (nonempty_of_ne hne))

/-- **A renewal that stops short** changes nothing. -/
theorem handleInvoicePaid_stops {event : ProviderEvent InvoiceObject}
    (hnames : (invoicePaid event).Names k sub db) (hstops : (invoicePaid event).StopsShort env sub db) :
    handleInvoicePaid env event db = .ok db := by
  obtain ⟨id, hid, hfind⟩ := Option.bind_eq_some_iff.mp hnames.byId
  simp only [handleInvoicePaid, hid, hfind]
  by_cases hcreate : event.object.billingReason = "subscription_create"
  · rw [if_pos hcreate]
  by_cases hstatus : ∃ status ∈ event.object.status, status ≠ "paid"
  · rw [if_neg hcreate, if_pos hstatus]
  rw [if_neg hcreate, if_neg hstatus]
  cases hplan : env.settings.getPlan (some sub.plan) with
  | none => rfl
  | some entry =>
    by_cases hzero : entry.monthlyCreditsIncluded = 0
    · simp only [if_pos hzero]
    · -- Only the claim is left to refuse it.
      have hclaimed : ∀ id ∈ nonempty event.object.id, db.Claimed .invoice id := by
        rcases hstops with h | h | h | h
        · exact absurd h hcreate
        · exact absurd h hstatus
        · exact absurd (h entry hplan) hzero
        · exact h
      simp only [if_neg hzero, claimProviderObject_none_iff.mpr hclaimed]

/-- **A renewal of a row without an owner** that gets as far as its grant raises. -/
theorem handleInvoicePaid_raises {event : ProviderEvent InvoiceObject}
    (hnames : (invoicePaid event).Names k sub db) (huser : sub.user = none)
    (hgoes : ¬ (invoicePaid event).StopsShort env sub db) :
    ∃ e, handleInvoicePaid env event db = .error e := by
  obtain ⟨id, hid, hfind⟩ := Option.bind_eq_some_iff.mp hnames.byId
  obtain ⟨hcreate, hgoes⟩ := not_or.mp hgoes
  obtain ⟨hstatus, hgoes⟩ := not_or.mp hgoes
  obtain ⟨hplan, hclaim⟩ := not_or.mp hgoes
  push Not at hplan
  obtain ⟨entry, hentry, hzero⟩ := hplan
  obtain ⟨claimed, hclaimed⟩ := Option.ne_none_iff_exists'.mp
    fun h => hclaim (claimProviderObject_none_iff.mp h)
  refine ⟨renewalWithoutUser entry claimed, ?_⟩
  simp only [handleInvoicePaid, hid, hfind, if_neg hcreate, if_neg hstatus,
    Option.mem_def.mp hentry, if_neg hzero, hclaimed, huser]

theorem invoicePaid_unbroken_iff {event : ProviderEvent InvoiceObject}
    (hnames : (invoicePaid event).Names k sub db) (huser : sub.user = none) :
    (invoicePaid event).Unbroken env db ↔ (invoicePaid event).StopsShort env sub db := by
  constructor
  · rintro ⟨db', hok, -⟩
    by_contra hgoes
    obtain ⟨e, herror⟩ := handleInvoicePaid_raises hnames huser hgoes
    cases hok.symm.trans herror
  · intro hstops
    exact ⟨db, handleInvoicePaid_stops hnames hstops, Harmless.of_eq rfl rfl⟩

/-! ## Declined renewals -/

/-- **A declined renewal** of a row without an owner is told to nobody. -/
theorem handleInvoicePaymentFailed_ownerless {event : ProviderEvent FailedInvoiceObject}
    (hnames : (invoicePaymentFailed event).Names k sub db) (huser : sub.user = none) :
    handleInvoicePaymentFailed env event db = db := by
  have hbehind : failedPaymentUser event.object db = (none, some sub.plan) := by
    unfold failedPaymentUser
    rcases hnames with hid | ⟨hid, hcustomer⟩
    · simp only [hid, huser]
    · simp only [hid, hcustomer, huser]
  simp only [handleInvoicePaymentFailed, hbehind]

/-! ## Lifecycle events -/

@[simp] theorem stampSubscriptionPeriod_outbox (sub : Subscription) (db : Db) :
    (stampSubscriptionPeriod sub db).outbox = db.outbox := by
  unfold stampSubscriptionPeriod
  split <;> rfl

/-- A lifecycle event finds the row it names; the row may have taken over the event's id. -/
theorem lifecycle_resolves {e : LifecycleEvent} (hnames : (lifecycle e).Names k sub db) :
    ∃ sub' db', resolveLocalSubscription e.object db = (some (k, sub'), db') ∧
      sub'.lifecycle = sub.lifecycle ∧ sub'.user = sub.user ∧ db'.lots = db.lots ∧
      db'.outbox = db.outbox := by
  rcases hnames with hid | ⟨hid, hcustomer⟩
  · refine ⟨sub, db, ?_, rfl, rfl, rfl, rfl⟩
    simp only [resolveLocalSubscription, hid]
  · refine ⟨(adoptIds e.object.id none sub).1, saveSubscription k (adoptIds e.object.id none sub).1
      (adoptIds e.object.id none sub).2 db, ?_, adoptIds_lifecycle _ _ sub, ?_, rfl, rfl⟩
    · simp only [resolveLocalSubscription, hid, hcustomer]
    · rw [adoptIds_fst]

theorem lifecycle_unbroken_iff {e : LifecycleEvent} (hnames : (lifecycle e).Names k sub db)
    (huser : sub.user = none) :
    (lifecycle e).Unbroken env db ↔ e.IsStale sub := by
  obtain ⟨sub', db', hresolve, hlifecycle, huser', hlots, houtbox⟩ := lifecycle_resolves hnames
  have hstale := @LifecycleEvent.isStale_congr e sub sub' hlifecycle
  constructor
  · rintro ⟨final, hok, hharmless⟩
    by_contra hfresh
    -- The announcement of a row that the event changed names the row's owner.
    have hfinal : final = applyLifecycle k (e.edit env sub') db' := by
      have hhandle := Except.ok.inj hok
      rw [e.handle_eq, hresolve] at hhandle
      rw [← hhandle]
      exact if_neg fun h => hfresh (hstale.mp h)
    obtain ⟨facts, hfacts, howned⟩ := hharmless.facts
    have hsent : final.outbox = db.outbox ++ [.subscriptionChanged (e.edit env sub').1.user
        (e.edit env sub').1.plan (e.edit env sub').1.status (e.edit env sub').1.currentPeriodEnd
        (e.edit env sub').1.cancelAtPeriodEnd] := by
      rw [hfinal, ← houtbox, applyLifecycle, announceSubscription]
      simp only [stampSubscriptionPeriod_outbox, saveSubscription]
    obtain rfl := List.append_cancel_left (hfacts.symm.trans hsent)
    obtain ⟨user, -, hnamed⟩ := howned _ List.mem_cons_self
    have hnobody : (e.edit env sub').1.user = none := by
      rw [e.edit_fst]
      exact huser'.trans huser
    rw [Fact.user, hnobody] at hnamed
    cases hnamed
  · intro h
    refine ⟨db', congrArg Except.ok ?_, Harmless.of_eq hlots houtbox⟩
    rw [e.handle_eq, hresolve]
    exact if_pos (hstale.mpr h)

end Rows
end SubscriptionEvent

/-- **Events about a row without an owner**: the handler returns, gives no credits to nobody
and announces nothing about nobody exactly when it stops before it comes to the owner.  In
whatever state the row is met, and by whichever of its ids. -/
theorem ownerless_event_iff {env : Env} {event : SubscriptionEvent} {db : Db} {k : ℕ}
    {sub : Subscription} (hnames : event.Names k sub db) (huser : sub.user = none) :
    event.Unbroken env db ↔ event.StopsShort env sub db := by
  cases event with
  | invoicePaid event => exact SubscriptionEvent.invoicePaid_unbroken_iff hnames huser
  | invoicePaymentFailed event =>
    refine ⟨fun _ => trivial, fun _ => ⟨db, congrArg Except.ok ?_, .of_eq rfl rfl⟩⟩
    exact SubscriptionEvent.handleInvoicePaymentFailed_ownerless hnames huser
  | lifecycle e => exact SubscriptionEvent.lifecycle_unbroken_iff hnames huser

/-- The second buyer's checkout of the plan. -/
def secondProCheckout : ProviderEvent CheckoutSession where
  id := some "evt_1"
  type := "checkout.session.completed"
  created := some 20
  object := { proSession with
    id := some "cs_2"
    userId := some 2
    customer := some "cus_2"
    subscription := some "sub_2" }

/-- Two subscribers, the first folded into the second. -/
def foldedSubscribers : Db :=
  runAccounts pairDigest [(Env.plain 0, .checkout proCheckout),
    (Env.plain 0, .checkout secondProCheckout), (Env.plain 0, .userMerged (some 1) (some 2))]
    { users := [1, 2] }

/-- The next paid invoice of the first one's subscription. -/
def strayRenewal : ProviderEvent InvoiceObject where
  id := some "evt_2"
  type := "invoice.paid"
  created := some 30
  object := {
    id := some "in_1"
    subscription := some "sub_1"
    billingReason := "subscription_cycle"
    status := some "paid" }

/-- The provider's word that this subscription is still active. -/
def strayUpdate : LifecycleEvent := .updated {
  id := some "evt_3"
  type := "customer.subscription.updated"
  created := some 30
  object := { id := some "sub_1", status := some "active" } }

/-- The row the merge detached, with the ids it kept. -/
def strayRow : Subscription where
  user := none
  plan := "pro"
  stripeSubscriptionId := some "sub_1"
  stripeCustomerId := some "cus_1"
  lastProviderEventAt := some 10000000

theorem foldedSubscribers_stray : findSubscription (some "sub_1")
    Subscription.stripeSubscriptionId foldedSubscribers = some (0, strayRow) := by decide +kernel

/-- After two checkouts and a merge, the next paid invoice of the folded account's
subscription raises, and the next update of it is announced as nobody's. -/
theorem stray_events_break :
    ((SubscriptionEvent.invoicePaid strayRenewal).Names 0 strayRow foldedSubscribers ∧
      ¬ (SubscriptionEvent.invoicePaid strayRenewal).Unbroken (Env.plain 0) foldedSubscribers) ∧
    ((SubscriptionEvent.lifecycle strayUpdate).Names 0 strayRow foldedSubscribers ∧
      ¬ (SubscriptionEvent.lifecycle strayUpdate).Unbroken (Env.plain 0) foldedSubscribers) := by
  have hrenewal : (SubscriptionEvent.invoicePaid strayRenewal).Names 0 strayRow foldedSubscribers :=
    Or.inl foldedSubscribers_stray
  have hupdate : (SubscriptionEvent.lifecycle strayUpdate).Names 0 strayRow foldedSubscribers :=
    Or.inl foldedSubscribers_stray
  refine ⟨⟨hrenewal, ?_⟩, hupdate, ?_⟩
  · rintro ⟨db', hok, -⟩
    have hraises : (handleInvoicePaid (Env.plain 0) strayRenewal foldedSubscribers).isOk = false := by
      decide +kernel
    rw [show handleInvoicePaid (Env.plain 0) strayRenewal foldedSubscribers = .ok db' from hok]
      at hraises
    cases hraises
  · rw [SubscriptionEvent.lifecycle_unbroken_iff hupdate rfl]
    decide +kernel

theorem ownerless_event_iff_strayRenewal :
    (SubscriptionEvent.invoicePaid strayRenewal).Names 0 strayRow foldedSubscribers ∧
      strayRow.user = none ∧
      ((SubscriptionEvent.invoicePaid strayRenewal).Unbroken (Env.plain 0) foldedSubscribers ↔
        (SubscriptionEvent.invoicePaid strayRenewal).StopsShort (Env.plain 0) strayRow
          foldedSubscribers) :=
  ⟨Or.inl foldedSubscribers_stray, rfl,
    ownerless_event_iff (Or.inl foldedSubscribers_stray) rfl⟩

end StapelBilling
