import StapelBilling.PeriodOrder

/-! # A renewal and the end of its subscription

A renewal's bundle dies with the period its invoice bills, when that is still ahead.  An
invoice that is processed later than that grants undated credits, which wait for the next
lifecycle event of the subscription to date them.  The deletion is the last one there is.

* `RenewalLeaves` says when an invoice grants credits that outlast the debts they settle;
* `renewal_dies_iff` says, for both orders, exactly when the two events leave no undated credits
  of the invoice behind;
* `late_renewal_never_dies` is the invoice that is replayed after the deletion.
-/
namespace StapelBilling
open Store

variable {env : Env} {db : Db} {id : String} {k : ℕ} {sub : Subscription}

/-! ## What a renewal leaves -/

/-- An invoice that renews: a paid one, of a plan with a bundle, of somebody's subscription,
and not claimed before. -/
structure Renews (env : Env) (obj : InvoiceObject) (sub : Subscription) (user : UserId)
    (entry : PlanCatalogEntry) (db : Db) : Prop where
  renewal : obj.billingReason ≠ "subscription_create"
  paid : ∀ status ∈ obj.status, status = "paid"
  plan : env.settings.getPlan (some sub.plan) = some entry
  bundle : 0 < entry.monthlyCreditsIncluded
  owned : sub.user = some user
  fresh : claimProviderObject .invoice obj.id "stripe" db ≠ none

/-- The credit of a renewal. -/
def renewalArgs (env : Env) (obj : InvoiceObject) (id : String) (sub : Subscription) (user : UserId)
    (entry : PlanCatalogEntry) : CreditArgs :=
  renewalCredit env user entry (obj.amountPaid.getD entry.priceCents) id obj sub

/-- The invoice renews, and the user's debts are less than its bundle and the lots before it
hold, so that something of it is left. -/
def RenewalLeaves (env : Env) (obj : InvoiceObject) (id : String) (sub : Subscription) (db : Db) :
    Prop :=
  ∃ user entry, Renews env obj sub user entry db ∧
    db.openOwed (lockWallet user db).1 <
      entry.monthlyCreditsIncluded + db.aheadOfGrant env (renewalArgs env obj id sub user entry)

/-- The lot of a renewal: the invoice's, undated unless its period is still ahead. -/
structure Db.RenewalLot (db : Db) (env : Env) (obj : InvoiceObject) (id : String)
    (user : UserId) (lot : CreditLot) : Prop where
  deadline : lot.expiresAt = futureOrNone env.now (invoicePeriodEnd obj)
  source : lot.source = .subscription
  wallet : ∃ wallet, db.wallets.get? lot.wallet = some wallet ∧ wallet.user = some user
  granted : ∃ g row, lot.grantingTransaction = some g ∧ db.transactions.get? g = some row ∧
    row.metadata .stripeSubscriptionId = some (.str id) ∧
    row.metadata .stripeInvoiceId = some (jsonText obj.id)

/-- The handler gets to the claim only with a row of its subscription and a plan that bundles
something. -/
theorem handleInvoicePaid_bound {event : ProviderEvent InvoiceObject} (h : db.BoundTo id k)
    (hk : db.subscriptions.get? k = some sub)
    (habout : invoiceSubscriptionId event.object = some id) :
    (commit (handleInvoicePaid env event) db = db ∧
      ∀ user entry, ¬ Renews env event.object sub user entry db) ∨
    ∃ user entry claimed t granted, Renews env event.object sub user entry db ∧
      claimProviderObject .invoice event.object.id "stripe" db = some claimed ∧
      credit env (renewalArgs env event.object id sub user entry) claimed = .ok (t, granted) ∧
      ∃ outbox, commit (handleInvoicePaid env event) db = { granted with outbox } := by
  have hfind : db.subscriptions.find? (fun row => row.stripeSubscriptionId = some id) =
      some (k, sub) := by
    obtain ⟨sub', hk', hid⟩ := h.row
    obtain rfl := Option.some.inj (hk.symm.trans hk')
    exact Table.find?_eq_some_of_unique hk hid h.only
  -- Wherever the handler gives up, the invoice does not renew and the database stays.
  have hstop : ∀ {r : Except BillingError Db}, handleInvoicePaid env event db = r →
      (r = .ok db ∨ ∃ e, r = .error e) → commit (handleInvoicePaid env event) db = db := by
    rintro r hr (rfl | ⟨e, rfl⟩)
    · exact commit_ok hr
    · exact commit_error hr
  have hhandle : handleInvoicePaid env event db = handleInvoicePaid env event db := rfl
  conv_rhs at hhandle => unfold handleInvoicePaid
  simp only [habout, hfind] at hhandle
  by_cases hcreate : event.object.billingReason = "subscription_create"
  · rw [if_pos hcreate] at hhandle
    exact Or.inl ⟨hstop hhandle (Or.inl rfl), fun _ _ hr => hr.renewal hcreate⟩
  rw [if_neg hcreate] at hhandle
  by_cases hunpaid : ∃ status ∈ event.object.status, status ≠ "paid"
  · rw [if_pos hunpaid] at hhandle
    obtain ⟨status, hstatus, hne⟩ := hunpaid
    exact Or.inl ⟨hstop hhandle (Or.inl rfl), fun _ _ hr => hne (hr.paid status hstatus)⟩
  rw [if_neg hunpaid] at hhandle
  cases hplan : env.settings.getPlan (some sub.plan) with
  | none =>
    rw [hplan] at hhandle
    exact Or.inl ⟨hstop hhandle (Or.inl rfl), fun _ _ hr =>
      Option.some_ne_none _ (hr.plan.symm.trans hplan)⟩
  | some entry =>
    simp only [hplan] at hhandle
    have hsame : ∀ {user other}, Renews env event.object sub user other db → other = entry :=
      fun hr => Option.some.inj (hr.plan.symm.trans hplan)
    by_cases hzero : entry.monthlyCreditsIncluded = 0
    · rw [if_pos hzero] at hhandle
      refine Or.inl ⟨hstop hhandle (Or.inl rfl), fun user other hr => ?_⟩
      obtain rfl := hsame hr
      exact absurd hr.bundle (by omega)
    rw [if_neg hzero] at hhandle
    cases hclaim : claimProviderObject .invoice event.object.id "stripe" db with
    | none =>
      rw [hclaim] at hhandle
      exact Or.inl ⟨hstop hhandle (Or.inl rfl), fun _ _ hr => hr.fresh hclaim⟩
    | some claimed =>
      simp only [hclaim] at hhandle
      cases howner : sub.user with
      | none =>
        rw [howner] at hhandle
        exact Or.inl ⟨hstop hhandle (Or.inr ⟨_, rfl⟩), fun _ _ hr =>
          Option.some_ne_none _ (hr.owned.symm.trans howner)⟩
      | some user =>
        simp only [howner] at hhandle
        cases hcredit : credit env (renewalArgs env event.object id sub user entry) claimed with
        | error e =>
          unfold renewalArgs at hcredit
          rw [hcredit] at hhandle
          refine Or.inl ⟨hstop hhandle (Or.inr ⟨e, rfl⟩), fun other entry' hr => ?_⟩
          obtain rfl := hsame hr
          -- A positive bundle with a deadline ahead, or none, is always credited.
          obtain ⟨t, granted, hok⟩ := @credit_succeeds env claimed
            (renewalArgs env event.object id sub user entry') hr.bundle not_dueAt_futureOrNone
          unfold renewalArgs at hok
          rw [hcredit] at hok
          cases hok
        | ok r =>
          obtain ⟨t, granted⟩ := r
          have hfresh : claimProviderObject .invoice event.object.id "stripe" db ≠ none := by
            rw [hclaim]
            exact Option.some_ne_none claimed
          obtain ⟨-, -, -, hpos, -⟩ := credit_cases hcredit
          have hpaid : ∀ status ∈ event.object.status, status = "paid" := fun status hstatus => by
            by_contra hne
            exact hunpaid ⟨status, hstatus, hne⟩
          refine Or.inr ⟨user, entry, claimed, t, granted,
            ⟨hcreate, hpaid, hplan, hpos, howner, hfresh⟩, rfl, hcredit, ?_⟩
          unfold renewalArgs at hcredit
          rw [hcredit] at hhandle
          exact ⟨_, commit_ok hhandle⟩

/-- **What an invoice leaves** on a bound row: nothing new where it does not renew, and
otherwise one lot, which keeps something exactly when the debts are less than it and the lots
before it hold. -/
theorem handleInvoicePaid_lot {event : ProviderEvent InvoiceObject} {finish : Time}
    (h : db.BoundTo id k) (hk : db.subscriptions.get? k = some sub)
    (habout : invoiceSubscriptionId event.object = some id)
    (hfinish : invoicePeriodEnd event.object = some finish) :
    let after := commit (handleInvoicePaid env event) db
    after.subscriptions = db.subscriptions ∧
      (∀ j, db.lots.get? j = none → j ≠ db.lots.next → after.lots.get? j = none) ∧
      (∀ lot, after.lots.get? db.lots.next = some lot → ∃ user, sub.user = some user ∧
        after.RenewalLot env event.object id user lot ∧
        (0 < lot.creditsRemaining ↔ RenewalLeaves env event.object id sub db)) ∧
      (RenewalLeaves env event.object id sub db → after.lots.get? db.lots.next ≠ none) := by
  intro after
  rcases handleInvoicePaid_bound h hk habout with ⟨hsame, hnone⟩ |
    ⟨user, entry, claimed, t, granted, hrenews, hclaim, hcredit, outbox, hafter⟩
  · have hdb : after = db := hsame
    rw [hdb]
    refine ⟨rfl, fun j hj _ => hj, fun lot hlot => ?_, ?_⟩
    · rw [Table.get?_next] at hlot
      cases hlot
    · rintro ⟨user, entry, hrenews, -⟩
      exact absurd hrenews (hnone user entry)
  · have hdb : after = { granted with outbox } := hafter
    -- the claim of the invoice leaves what the credit reads
    have hclaimed : claimed.lots = db.lots ∧ claimed.wallets = db.wallets ∧
        claimed.debts = db.debts ∧ claimed.subscriptions = db.subscriptions := by
      obtain ⟨e, -, -, -, rfl⟩ := claimProviderObject_some hclaim
      exact ⟨rfl, rfl, rfl, rfl⟩
    obtain ⟨hlots, hwallets, hdebts, hsubscriptions⟩ := hclaimed
    obtain ⟨⟨lot, hlot, hdeadline, hsource, -, hwallet, ⟨row, hrow, hmeta⟩, hgrant, hkept⟩, hnone⟩ :=
      credit_lot hcredit rfl rfl
    rw [hlots] at hlot hnone
    -- a row has one owner and one plan, so the condition is about this renewal
    have hleaves : RenewalLeaves env event.object id sub db ↔
        db.openOwed (lockWallet user db).1 < entry.monthlyCreditsIncluded +
          db.aheadOfGrant env (renewalArgs env event.object id sub user entry) := by
      refine ⟨?_, fun hless => ⟨user, entry, hrenews, hless⟩⟩
      rintro ⟨user', entry', hrenews', hless⟩
      obtain rfl := Option.some.inj (hrenews.owned.symm.trans hrenews'.owned)
      obtain rfl := Option.some.inj (hrenews.plan.symm.trans hrenews'.plan)
      exact hless
    rw [hdb]
    refine ⟨(credit_moves hcredit).elsewhere.subscriptions.trans hsubscriptions, hnone,
      fun lot' hlot' => ?_, fun _ => ?_⟩
    · obtain rfl := Option.some.inj (hlot.symm.trans hlot')
      refine ⟨user, hrenews.owned, ⟨?_, hsource, hwallet, t, row, hgrant, hrow, ?_, ?_⟩, ?_⟩
      · rw [hdeadline]
        unfold renewalArgs renewalCredit
        rw [hfinish]
        rfl
      · rw [hmeta]
        rfl
      · rw [hmeta]
        rfl
      · rw [hkept, aheadOfGrant_congr hlots hwallets, openOwed_congr hdebts, lockWallet_congr hwallets,
          hleaves]
        rfl
    · exact fun hgone => Option.some_ne_none lot (hlot.symm.trans hgone)

/-! ## Both orders -/

/-- The events leave credits of the invoice behind that are never due. -/
def Db.RenewedForever (before after : Db) (obj : InvoiceObject) : Prop :=
  ∃ j lot g row, before.lots.get? j = none ∧ after.lots.get? j = some lot ∧
    lot.grantingTransaction = some g ∧ after.transactions.get? g = some row ∧
    row.metadata .stripeInvoiceId = some (jsonText obj.id) ∧
    0 < lot.creditsRemaining ∧ lot.expiresAt = none

section Orders
variable {invoice : ProviderEvent InvoiceObject} {deletion : ProviderEvent SubscriptionObject}
  {finish ended : Time}

theorem futureOrNone_eq_none {now t : Time} : futureOrNone now (some t) = none ↔ ¬ now < t := by
  constructor
  · intro hnone hlt
    have hsome : futureOrNone now (some t) = some t := if_pos hlt
    rw [hnone] at hsome
    cases hsome
  · exact fun hge => if_neg hge

/-- What a renewal leaves undated is what a lifecycle event dates. -/
theorem Db.RenewalLot.undated {obj : InvoiceObject} {user : UserId} {lot : CreditLot}
    (hl : db.RenewalLot env obj id user lot) (howned : sub.user = some user)
    (hpos : 0 < lot.creditsRemaining) (hnone : lot.expiresAt = none) : Undated sub id db lot := by
  obtain ⟨wallet, hwallet, huser⟩ := hl.wallet
  obtain ⟨g, row, hgrant, hrow, hnames, -⟩ := hl.granted
  exact ⟨⟨wallet, hwallet, huser.trans howned.symm⟩, hl.source, hnone, hpos, g, hgrant, row, hrow,
    hnames⟩

/-- **The invoice first**: a deletion that is applied dates what the invoice left undated. -/
theorem renewal_then_deletion (envInvoice envDeletion : Env) (h : db.BoundTo id k)
    (hk : db.subscriptions.get? k = some sub)
    (habout : invoiceSubscriptionId invoice.object = some id)
    (hfinish : invoicePeriodEnd invoice.object = some finish)
    (hdeletes : deletion.object.id = some id)
    (hended : (stripePeriod deletion.object).2 = some ended) :
    db.RenewedForever ((LifecycleEvent.deleted deletion).handle envDeletion
        (commit (handleInvoicePaid envInvoice invoice) db)) invoice.object ↔
      RenewalLeaves envInvoice invoice.object id sub db ∧ ¬ envInvoice.now < finish ∧
        (LifecycleEvent.deleted deletion).IsStale sub := by
  obtain ⟨hrows, hnone, hlot, hleft⟩ := @handleInvoicePaid_lot envInvoice db id k sub invoice finish h hk habout hfinish
  generalize commit (handleInvoicePaid envInvoice invoice) db = after at hrows hnone hlot hleft ⊢
  have hbound : after.BoundTo id k := ⟨h.named, hrows ▸ h.row, hrows ▸ h.only⟩
  have hk' : after.subscriptions.get? k = some sub := by rw [hrows, hk]
  have hdated := @LifecycleEvent.handle_lot id after sub (.deleted deletion) envDeletion k ended hbound
    hdeletes hk' hended
  constructor
  · rintro ⟨j, lot', g, row, hnew, hget, -, -, -, hpos, hundated⟩
    rw [hdated] at hget
    obtain ⟨lot, hlot', hresult⟩ := Option.map_eq_some_iff.mp hget
    have hj : j = db.lots.next := by
      by_contra hne
      rw [hnone j hnew hne] at hlot'
      cases hlot'
    subst hj
    obtain ⟨user, howned, hrenewal, hkept⟩ := hlot lot hlot'
    split at hresult
    · rw [← hresult] at hundated
      cases hundated
    · rename_i hleftAlone
      obtain rfl := hresult
      have hdeadline := hrenewal.deadline.symm.trans hundated
      rw [hfinish] at hdeadline
      refine ⟨hkept.mp hpos, futureOrNone_eq_none.mp hdeadline, ?_⟩
      by_contra hfresh
      exact hleftAlone ⟨hfresh, hrenewal.undated howned hpos hundated⟩
  · rintro ⟨hleaves, hpast, hstale⟩
    obtain ⟨lot, hlot'⟩ := Option.ne_none_iff_exists'.mp (hleft hleaves)
    obtain ⟨user, howned, hrenewal, hkept⟩ := hlot lot hlot'
    obtain ⟨g, row, hgrant, hrow, -, hnames⟩ := hrenewal.granted
    have hdropped : (LifecycleEvent.deleted deletion).handle envDeletion after = after := by
      have hresolve : resolveLocalSubscription (LifecycleEvent.deleted deletion).object after =
          (some (k, sub), after) := hbound.resolve hdeletes hk'
      rw [LifecycleEvent.handle_eq, hresolve]
      exact if_pos hstale
    rw [hdropped]
    refine ⟨_, lot, g, row, Table.get?_next _, hlot', hgrant, hrow, hnames, hkept.mpr hleaves, ?_⟩
    rw [hrenewal.deadline, hfinish]
    exact futureOrNone_eq_none.mpr hpast

/-- **The deletion first**: nothing dates what the invoice leaves undated. -/
theorem deletion_then_renewal (envInvoice envDeletion : Env) (h : db.BoundTo id k)
    (hk : db.subscriptions.get? k = some sub)
    (habout : invoiceSubscriptionId invoice.object = some id)
    (hfinish : invoicePeriodEnd invoice.object = some finish)
    (hdeletes : deletion.object.id = some id)
    (hended : (stripePeriod deletion.object).2 = some ended) :
    db.RenewedForever (commit (handleInvoicePaid envInvoice invoice)
        ((LifecycleEvent.deleted deletion).handle envDeletion db)) invoice.object ↔
      RenewalLeaves envInvoice invoice.object id
          ((LifecycleEvent.deleted deletion).receive envDeletion sub)
          ((LifecycleEvent.deleted deletion).handle envDeletion db) ∧
        ¬ envInvoice.now < finish := by
  have hdated := @LifecycleEvent.handle_lot id db sub (.deleted deletion) envDeletion k ended h
    hdeletes hk hended
  have hbound := @LifecycleEvent.bound_handle id k db h envDeletion (.deleted deletion) hdeletes
  have hk' : ((LifecycleEvent.deleted deletion).handle envDeletion db).subscriptions.get? k =
      some ((LifecycleEvent.deleted deletion).receive envDeletion sub) := by
    rw [@LifecycleEvent.handle_bound id k db h envDeletion (.deleted deletion) hdeletes k, if_pos rfl,
      hk]
    rfl
  generalize (LifecycleEvent.deleted deletion).handle envDeletion db = deleted at hdated hbound hk' ⊢
  generalize (LifecycleEvent.deleted deletion).receive envDeletion sub = row' at hk' ⊢
  obtain ⟨-, hnone, hlot, hleft⟩ := @handleInvoicePaid_lot envInvoice deleted id k row' invoice finish hbound hk' habout hfinish
  constructor
  · rintro ⟨j, lot, g, row, hnew, hget, -, -, -, hpos, hundated⟩
    have hj : j = deleted.lots.next := by
      by_contra hne
      rw [hnone j (by rw [hdated, hnew]; rfl) hne] at hget
      cases hget
    subst hj
    obtain ⟨user, -, hrenewal, hkept⟩ := hlot lot hget
    have hdeadline := hrenewal.deadline.symm.trans hundated
    rw [hfinish] at hdeadline
    exact ⟨hkept.mp hpos, futureOrNone_eq_none.mp hdeadline⟩
  · rintro ⟨hleaves, hpast⟩
    obtain ⟨lot, hlot'⟩ := Option.ne_none_iff_exists'.mp (hleft hleaves)
    obtain ⟨user, -, hrenewal, hkept⟩ := hlot lot hlot'
    obtain ⟨g, row, hgrant, hrow, -, hnames⟩ := hrenewal.granted
    have hnew : db.lots.get? deleted.lots.next = none :=
      Option.map_eq_none_iff.mp ((hdated _).symm.trans (Table.get?_next _))
    refine ⟨_, lot, g, row, hnew, hlot', hgrant, hrow, hnames, hkept.mpr hleaves, ?_⟩
    rw [hrenewal.deadline, hfinish]
    exact futureOrNone_eq_none.mpr hpast

/-- **A renewal's credits die exactly when something dates them.**  For a row bound to its
subscription, an invoice of it that carries line periods and its deletion that carries a
period: with the invoice first, every credit of the invoice that is left is dated unless the
invoice came after its period and the deletion is dropped as stale; with the deletion first,
unless the invoice came after its period. -/
theorem renewal_dies_iff (envInvoice envDeletion : Env) (h : db.BoundTo id k)
    (hk : db.subscriptions.get? k = some sub)
    (habout : invoiceSubscriptionId invoice.object = some id)
    (hlines : (invoice.object.lines.findSome? fun line => epochToDatetime line.periodEnd) =
      some finish)
    (hdeletes : deletion.object.id = some id)
    (hended : (stripePeriod deletion.object).2 = some ended) :
    (¬ db.RenewedForever ((LifecycleEvent.deleted deletion).handle envDeletion
        (commit (handleInvoicePaid envInvoice invoice) db)) invoice.object ↔
      (RenewalLeaves envInvoice invoice.object id sub db →
        envInvoice.now < finish ∨ ¬ (LifecycleEvent.deleted deletion).IsStale sub)) ∧
    (¬ db.RenewedForever (commit (handleInvoicePaid envInvoice invoice)
        ((LifecycleEvent.deleted deletion).handle envDeletion db)) invoice.object ↔
      (RenewalLeaves envInvoice invoice.object id
          ((LifecycleEvent.deleted deletion).receive envDeletion sub)
          ((LifecycleEvent.deleted deletion).handle envDeletion db) →
        envInvoice.now < finish)) := by
  have hfinish : invoicePeriodEnd invoice.object = some finish := by
    unfold invoicePeriodEnd
    rw [hlines]
    rfl
  rw [renewal_then_deletion envInvoice envDeletion h hk habout hfinish hdeletes hended,
    deletion_then_renewal envInvoice envDeletion h hk habout hfinish hdeletes hended]
  constructor
  · rw [not_and, not_and_or, not_not]
  · rw [not_and, not_not]

end Orders

/-! ## A renewal replayed late -/

/-- A subscription to `pro`. -/
def proRow : Db :=
  { users := [1]
    subscriptions := Table.empty.insert
      { user := some 1
        plan := "pro"
        stripeSubscriptionId := some "sub_1" } }

theorem proRow_boundTo : proRow.BoundTo "sub_1" 0 where
  named := by decide
  row := ⟨_, rfl, rfl⟩
  only := by
    intro j sub hj _
    rw [proRow, Table.get?_insert] at hj
    split at hj
    · assumption
    · exact Table.get?_empty_ne hj

/-- The invoice of the period that ends at second fifty. -/
def lastRenewal : ProviderEvent InvoiceObject where
  id := some "evt_1"
  type := "invoice.paid"
  object :=
    { id := some "in_1"
      subscription := some "sub_1"
      lines := [{ periodStart := some 1, periodEnd := some 50 }]
      billingReason := "subscription_cycle"
      status := some "paid" }

/-- The deletion at the end of that period. -/
def deletionAtFifty : ProviderEvent SubscriptionObject where
  id := some "evt_2"
  type := "customer.subscription.deleted"
  created := some 50
  object :=
    { id := some "sub_1"
      status := some "canceled"
      currentPeriodStart := some 1
      currentPeriodEnd := some 50 }

theorem lastRenewal_lines : (lastRenewal.object.lines.findSome?
    fun line => epochToDatetime line.periodEnd) = some 50000000 := by decide +kernel

theorem deletionAtFifty_period : (stripePeriod deletionAtFifty.object).2 = some 50000000 := by
  decide +kernel

/-- Replayed at second sixty, before the deletion, the invoice is dated by it. -/
theorem renewal_dies_iff_dated : ¬ proRow.RenewedForever
    ((LifecycleEvent.deleted deletionAtFifty).handle (Env.plain 61000000)
      (commit (handleInvoicePaid (Env.plain 60000000) lastRenewal) proRow)) lastRenewal.object :=
  (renewal_dies_iff (Env.plain 60000000) (Env.plain 61000000) proRow_boundTo rfl (by decide)
    lastRenewal_lines rfl deletionAtFifty_period).1.mpr fun _ => Or.inr (by decide +kernel)

/-- **The last renewal lives for ever**: replayed at second sixty, after the deletion, the
invoice grants credits that no event dates any more. -/
theorem late_renewal_never_dies : proRow.BoundTo "sub_1" 0 ∧
    proRow.RenewedForever (commit (handleInvoicePaid (Env.plain 60000000) lastRenewal)
      ((LifecycleEvent.deleted deletionAtFifty).handle (Env.plain 51000000) proRow))
      lastRenewal.object := by
  have hfinish : invoicePeriodEnd lastRenewal.object = some 50000000 := by decide +kernel
  refine ⟨proRow_boundTo, (deletion_then_renewal (Env.plain 60000000) (Env.plain 51000000)
    proRow_boundTo rfl (by decide) hfinish rfl deletionAtFifty_period).mpr ⟨?_, by decide⟩⟩
  have hframe := (LifecycleEvent.deleted deletionAtFifty).receive_frame (Env.plain 51000000)
    { user := some 1, plan := "pro", stripeSubscriptionId := some "sub_1" }
  refine ⟨1, proEntry, ⟨by decide, by decide, ?_, by decide, hframe.2.2.1, by decide +kernel⟩,
    by decide +kernel⟩
  rw [hframe.2.2.2]
  rfl

end StapelBilling
