import StapelBilling.Books
import StapelBilling.DisputeReversal
import StapelBilling.Endpoints
import StapelBilling.HandlerRegistry
import StapelBilling.Notifications
import StapelBilling.PlanBundles
import StapelBilling.Reconcile
import StapelBilling.Replays
import StapelBilling.Staff
import StapelBilling.SubscriptionRows
import StapelBilling.Workers

/-! # The ways into the module

Every entry point is a sequence of steps on the books: the handlers of the provider's events,
the event log that runs them, the functions other services call, the workers, the grants and
windows an operator gives, and the letters.  What the books keep is then kept by all of them.

* `servicesHandlers_books`: the library's own handlers.
* `post_books` and `replay_books`: the event log.
* `billingDebit_books` and the like: one for each of the other entry points.
-/
namespace StapelBilling
open Store

variable {terms : HostTerms} {env : Env} {db db' : Db}

/-! ## Wallet operations -/

theorem Books.credit {args : CreditArgs} {t : ℕ} (hprice : args.amountCents = none)
    (hmetadata : terms.Admits args.metadata)
    (h : credit env args db = .ok (t, db')) : Books terms env db db' :=
  Books.call (.credit args) hprice hmetadata (congrArg (Except.map Prod.snd) h)

theorem Books.debit {args : DebitArgs} {answer : DebitAnswer} (hmetadata : terms.Admits args.metadata)
    (h : debit env args db = .ok (answer, db')) : Books terms env db db' :=
  Books.call (.debit args) trivial hmetadata (congrArg (Except.map Prod.snd) h)

theorem Books.hold {args : HoldArgs} {k : ℕ} (hmetadata : terms.Admits args.metadata)
    (h : hold env args db = .ok (k, db')) : Books terms env db db' :=
  Books.call (.hold args) trivial hmetadata (congrArg (Except.map Prod.snd) h)

theorem Books.capture {args : CaptureArgs} {t : ℕ} (hmetadata : terms.Admits args.metadata)
    (h : capture env args db = .ok (t, db')) : Books terms env db db' :=
  Books.call (.capture args) trivial hmetadata (congrArg (Except.map Prod.snd) h)

theorem Books.release {args : ReleaseArgs} (h : release env args db = .ok db') :
    Books terms env db db' := Books.call (.release args) trivial HostTerms.admits_empty h

theorem Books.sweep (w : ℕ) : Books terms env db (expireDueLots env w db).2 :=
  Books.call (.expireDueLots w) trivial HostTerms.admits_empty rfl

theorem Books.sale {args : CreditArgs} {t : ℕ} {amountCents : ℤ} (user : UserId) (currency : String)
    (extra : Metadata) (hkey : args.idempotencyKey = "") (hprice : args.amountCents = some amountCents)
    (hmetadata : terms.Admits args.metadata) (h : StapelBilling.credit env args db = .ok (t, db')) :
    Books terms env db (announcePayment user amountCents currency t extra db') :=
  Books.single (.sale user currency extra hkey hprice hmetadata h)

theorem Books.openWallet (user : UserId) : Books terms env db (getOrCreateWallet user db).2 :=
  Books.single (.openWallet user)

theorem Books.lockWallet (user : UserId) : Books terms env db (lockWallet user db).2 := by
  rw [← getOrCreateWallet_lock]
  exact Books.openWallet user

/-! ## Writes beside the books -/

theorem claimProviderObject_beside {scope : GrantScope} {ext : Option String} {provider : String}
    (h : claimProviderObject scope ext provider db = some db') : db.SameBooks db' := by
  obtain ⟨e, -, -, -, rfl⟩ := claimProviderObject_some h
  refine ⟨rfl, rfl, rfl, rfl, rfl, rfl, ?_, fun hu => hu.congr rfl⟩
  rintro scope ext ⟨r, hr, hgrant⟩
  exact ⟨r, List.mem_append_left _ hr, hgrant⟩

/-- Subscription rows that keep their constraints. -/
theorem Db.SameBooks.subscriptions {subscriptions : Table Subscription}
    (hu : db.SubscriptionsUnique → Db.SubscriptionsUnique { db with subscriptions }) :
    db.SameBooks { db with subscriptions } :=
  ⟨rfl, rfl, rfl, rfl, rfl, rfl, fun _ _ h => h, hu⟩

theorem saveSubscription_beside {k : ℕ} {sub : Subscription} {fields : List SubscriptionField}
    (hids : KeepsIds fields) : db.SameBooks (saveSubscription k sub fields db) :=
  .subscriptions (saveSubscription_unique hids)

theorem openSubscription_beside {user : UserId} {plan : String} {obj : CheckoutSession}
    {event : Option Time} {k : ℕ} {sub : Subscription}
    (h : openSubscription user plan obj event db = .ok (k, sub, db')) : db.SameBooks db' := by
  have hu : db.SubscriptionsUnique → db'.SubscriptionsUnique := openSubscription_unique h
  obtain ⟨subscriptions, rfl⟩ : ∃ subscriptions, db' = { db with subscriptions } := by
    unfold openSubscription at h
    split at h
    · cases h
    · split at h
      · exact ⟨_, (Prod.mk.inj (Prod.mk.inj (Except.ok.inj h)).2).2.symm⟩
      · exact ⟨_, (Prod.mk.inj (Prod.mk.inj (Except.ok.inj h)).2).2.symm⟩
  exact .subscriptions hu

theorem resolveLocalSubscription_beside (obj : SubscriptionObject) (db : Db) :
    db.SameBooks (resolveLocalSubscription obj db).2 := by
  have hu : db.SubscriptionsUnique → (resolveLocalSubscription obj db).2.SubscriptionsUnique :=
    resolveLocalSubscription_unique obj
  obtain ⟨subscriptions, hsame⟩ : ∃ subscriptions,
      (resolveLocalSubscription obj db).2 = { db with subscriptions } := by
    unfold resolveLocalSubscription
    split
    · exact ⟨db.subscriptions, rfl⟩
    · split
      · exact ⟨_, rfl⟩
      · split
        · exact ⟨_, rfl⟩
        · exact ⟨db.subscriptions, rfl⟩
  rw [hsame] at hu ⊢
  exact .subscriptions hu

theorem stashSubscriptionPeriod_beside (obj : SubscriptionObject) (event : Option Time) (db : Db) :
    db.SameBooks (stashSubscriptionPeriod obj event db) := by
  unfold stashSubscriptionPeriod
  split
  · exact .refl db
  · dsimp only
    split
    · split
      · exact .refl db
      · exact ⟨rfl, rfl, rfl, rfl, rfl, rfl, fun _ _ h => h, fun hu => hu.congr rfl⟩
    · exact ⟨rfl, rfl, rfl, rfl, rfl, rfl, fun _ _ h => h, fun hu => hu.congr rfl⟩

theorem resolveUser_beside {seam : UserSeam} {user user' : UserId} {identity : Bool}
    (h : resolveUser seam user identity db = .ok (user', db')) : db.SameBooks db' := by
  unfold resolveUser at h
  split at h
  · obtain ⟨-, rfl⟩ := Prod.mk.inj (Except.ok.inj h)
    exact .refl db
  · split at h
    · cases h
    · split at h
      · cases h
      · split at h
        · obtain ⟨-, rfl⟩ := Prod.mk.inj (Except.ok.inj h)
          exact ⟨rfl, rfl, rfl, rfl, rfl, rfl, fun _ _ h => h, fun hu => hu.congr rfl⟩
        · cases h

/-- Only a letter's claim is ever given up. -/
theorem releaseClaim_beside (letter : Letter) (db : Db) : db.SameBooks (releaseClaim letter db) := by
  refine ⟨rfl, rfl, rfl, rfl, rfl, rfl, ?_, fun hu => hu.congr rfl⟩
  rintro scope ext ⟨r, hr, hprovider, hscope, hext⟩
  have hkept : ¬ (r.2.provider = "notify" ∧ r.2.scope = letter.scope ∧
      r.2.externalId = letter.externalId) :=
    fun ⟨hnotify, _⟩ => absurd (hprovider.symm.trans hnotify) (by decide)
  exact ⟨r, List.mem_filter.mpr ⟨hr, decide_eq_true hkept⟩, hprovider, hscope, hext⟩

theorem claimAndSend_beside (accepts : Bool) (letter : Letter) (db : Db) :
    db.SameBooks (claimAndSend accepts letter db).2 := by
  unfold claimAndSend
  cases hclaim : claimProviderObject letter.scope (some letter.externalId) "notify" db with
  | none => exact .refl db
  | some claimed =>
    have hsame := claimProviderObject_beside hclaim
    cases accepts with
    | true => exact hsame
    | false => exact hsame.trans (releaseClaim_beside letter claimed)

/-! ## Subscriptions -/

theorem announceSubscription_beside (sub : Subscription) (db : Db) :
    db.SameBooks (announceSubscription sub db) :=
  ⟨rfl, rfl, rfl, rfl, rfl, Db.payments_append rfl, fun _ _ h => h, fun hu => hu.congr rfl⟩

theorem stampSubscriptionPeriod_books (sub : Subscription) :
    Books terms env db (stampSubscriptionPeriod sub db) := Books.single (.stamp sub)

/-- A row that changed is saved, its lots are dated and it is announced. -/
theorem applyLifecycle_books (k : ℕ) {edited : Edited} (hids : KeepsIds edited.2) :
    Books terms env db (applyLifecycle k edited db) := by
  have hsaved : Books terms env db (saveSubscription k edited.1 edited.2 db) :=
    Books.beside (saveSubscription_beside hids)
  exact (hsaved.trans (stampSubscriptionPeriod_books edited.1)).trans
    (Books.beside (announceSubscription_beside edited.1 _))

theorem applyPendingPeriod_books (k : ℕ) (sub : Subscription) :
    Books terms env db (applyPendingPeriod k sub db).2 := by
  unfold applyPendingPeriod
  split
  · exact Books.refl env db
  · split
    · exact Books.refl env db
    · dsimp only
      split
      · exact Books.beside ⟨rfl, rfl, rfl, rfl, rfl, rfl, fun _ _ h => h, fun hu => hu.congr rfl⟩
      · rename_i pending _ _
        have hsaved : Books terms env db (saveSubscription k (pending.applyTo sub).1
            (pending.applyTo sub).2 db) := Books.beside (saveSubscription_beside (applyTo_keepsIds _ _))
        exact (hsaved.trans (stampSubscriptionPeriod_books _)).trans
          (Books.beside ⟨rfl, rfl, rfl, rfl, rfl, rfl, fun _ _ h => h, fun hu => hu.congr rfl⟩)

theorem handleSubscriptionUpdated_books (event : ProviderEvent SubscriptionObject) :
    Books terms env db (handleSubscriptionUpdated event db) := by
  have hfound : Books terms env db (resolveLocalSubscription event.object db).2 :=
    Books.beside (resolveLocalSubscription_beside event.object db)
  unfold handleSubscriptionUpdated
  dsimp only
  generalize resolveLocalSubscription event.object db = r at hfound ⊢
  obtain ⟨_ | ⟨k, sub⟩, found⟩ := r
  · exact hfound.trans (Books.beside (stashSubscriptionPeriod_beside _ _ _))
  · dsimp only
    split
    · exact hfound
    · exact hfound.trans (applyLifecycle_books k (updatedSubscription_keepsIds _ _ _))

theorem handleSubscriptionDeleted_books (event : ProviderEvent SubscriptionObject) :
    Books terms env db (handleSubscriptionDeleted env event db) := by
  have hfound : Books terms env db (resolveLocalSubscription event.object db).2 :=
    Books.beside (resolveLocalSubscription_beside event.object db)
  unfold handleSubscriptionDeleted
  dsimp only
  generalize resolveLocalSubscription event.object db = r at hfound ⊢
  obtain ⟨_ | ⟨k, sub⟩, found⟩ := r
  · exact hfound.trans (Books.beside (stashSubscriptionPeriod_beside _ _ _))
  · dsimp only
    split
    · exact hfound
    · exact hfound.trans (applyLifecycle_books k (deletedSubscription_keepsIds _ _ _))

theorem repairSubscription_books (dryRun : Bool) (k : ℕ) (sub : Subscription) (fetched : Fetched) :
    Books terms env db (repairSubscription env dryRun k sub fetched db) := by
  unfold repairSubscription
  split
  · exact Books.refl env db
  · exact Books.refl env db
  · dsimp only
    split
    · exact Books.refl env db
    · split
      · exact applyLifecycle_books k ((reconciledSubscription_keepsIds _ _).append
          (advanceProviderClock_keepsIds _ _))
      · split
        · exact Books.beside (saveSubscription_beside (advanceProviderClock_keepsIds _ _))
        · exact Books.refl env db

/-! ## Checkouts and renewals -/

theorem packageCredit_admitted (user : UserId) (pkg : CreditPackage) (obj : CheckoutSession) :
    terms.Admits (packageCredit user pkg obj).metadata :=
  (((HostTerms.admits_empty.set _ (by decide)).set _ (by decide)).set _ (by decide)).set _ (by decide)

theorem bundleCredit_admitted (user : UserId) (plan : String) (entry : PlanCatalogEntry) (charged : ℤ)
    (obj : CheckoutSession) (sub : Subscription) :
    terms.Admits (bundleCredit env user plan entry charged obj sub).metadata :=
  (((HostTerms.admits_empty.set _ (by decide)).set _ (by decide)).set _ (by decide)).set _ (by decide)

theorem renewalCredit_admitted (user : UserId) (entry : PlanCatalogEntry) (amount : ℤ) (id : String)
    (obj : InvoiceObject) (sub : Subscription) :
    terms.Admits (renewalCredit env user entry amount id obj sub).metadata :=
  ((HostTerms.admits_empty.set _ (by decide)).set _ (by decide)).set _ (by decide)

theorem grantPackage_books {user : UserId} {pkg : CreditPackage} {obj : CheckoutSession} {goesOn : Bool}
    (h : grantPackage env user pkg obj db = .ok (goesOn, db')) : Books terms env db db' := by
  unfold grantPackage at h
  split at h
  · obtain ⟨-, rfl⟩ := Prod.mk.inj (Except.ok.inj h)
    exact Books.refl env db
  · split at h
    · obtain ⟨-, rfl⟩ := Prod.mk.inj (Except.ok.inj h)
      exact Books.refl env db
    · rename_i claimed hclaim
      split at h
      · cases h
      · rename_i txn credited hcredit
        obtain ⟨-, rfl⟩ := Prod.mk.inj (Except.ok.inj h)
        have hclaimed : Books terms env db claimed := Books.beside (claimProviderObject_beside hclaim)
        exact hclaimed.trans (Books.sale user _ _ rfl rfl (packageCredit_admitted user pkg obj) hcredit)

theorem grantBundle_books {user : UserId} {plan : String} {entry : PlanCatalogEntry}
    {obj : CheckoutSession} {sub : Subscription}
    (h : grantBundle env user plan entry obj sub db = .ok db') : Books terms env db db' := by
  unfold grantBundle at h
  split at h
  · obtain rfl := Except.ok.inj h
    exact Books.refl env db
  · dsimp only at h
    split at h
    · cases h
    · rename_i txn credited hcredit
      obtain rfl := Except.ok.inj h
      exact Books.sale user _ _ rfl rfl (bundleCredit_admitted user plan entry _ obj sub) hcredit

theorem grantPlan_books {user : UserId} {plan : String} {entry : PlanCatalogEntry}
    {event : ProviderEvent CheckoutSession} (h : grantPlan env user plan entry event db = .ok db') :
    Books terms env db db' := by
  unfold grantPlan at h
  dsimp only at h
  split at h
  · obtain rfl := Except.ok.inj h
    exact Books.refl env db
  · split at h
    · obtain rfl := Except.ok.inj h
      exact Books.refl env db
    · rename_i claimed hclaim
      split at h
      · cases h
      · rename_i k sub opened hopen
        split at h
        · cases h
        · rename_i granted hgrant
          obtain rfl := Except.ok.inj h
          have hclaimed : Books terms env db claimed := Books.beside (claimProviderObject_beside hclaim)
          have hopened : Books terms env db opened :=
            hclaimed.trans (Books.beside (openSubscription_beside hopen))
          have hparked : Books terms env db (applyPendingPeriod k sub opened).2 :=
            hopened.trans (applyPendingPeriod_books k sub)
          exact (hparked.trans (grantBundle_books hgrant)).trans
            (Books.beside (announceSubscription_beside _ _))

/-- **A checkout** does nothing, or hands over a package at most, and then a plan when that went
on. -/
theorem handleCheckoutCompleted_cases {event : ProviderEvent CheckoutSession}
    (h : handleCheckoutCompleted env event db = .ok db') : db' = db ∨ ∃ user goesOn bought,
      ((∃ pkg, grantPackage env user pkg event.object db = .ok (goesOn, bought)) ∨ bought = db) ∧
      (db' = bought ∨ ∃ plan entry, grantPlan env user plan entry event bought = .ok db') := by
  unfold handleCheckoutCompleted at h
  dsimp only at h
  split at h
  · exact Or.inl (Except.ok.inj h).symm
  · rename_i user hbuyer
    split at h
    · cases h
    · rename_i bought hbought
      obtain rfl := Except.ok.inj h
      split at hbought
      · exact Or.inr ⟨user, _, _, Or.inl ⟨_, hbought⟩, Or.inl rfl⟩
      · exact Or.inl (Prod.mk.inj (Except.ok.inj hbought)).2.symm
    · rename_i bought hbought
      have hplan : db' = bought ∨ ∃ plan entry, grantPlan env user plan entry event bought =
          .ok db' := by
        split at h
        · exact Or.inr ⟨_, _, h⟩
        · exact Or.inl (Except.ok.inj h).symm
      split at hbought
      · exact Or.inr ⟨user, _, _, Or.inl ⟨_, hbought⟩, hplan⟩
      · have hsame : bought = db := (Prod.mk.inj (Except.ok.inj hbought)).2.symm
        exact Or.inr ⟨user, true, bought, Or.inr hsame, hplan⟩

theorem handleCheckoutCompleted_books {event : ProviderEvent CheckoutSession}
    (h : handleCheckoutCompleted env event db = .ok db') : Books terms env db db' := by
  rcases handleCheckoutCompleted_cases h with rfl | ⟨user, goesOn, bought, hpackage, hplan⟩
  · exact Books.refl env _
  · have hbought : Books terms env db bought := by
      rcases hpackage with ⟨pkg, hok⟩ | rfl
      · exact grantPackage_books hok
      · exact Books.refl env _
    rcases hplan with rfl | ⟨plan, entry, hok⟩
    · exact hbought
    · exact hbought.trans (grantPlan_books hok)

theorem handleInvoicePaid_books {event : ProviderEvent InvoiceObject}
    (h : handleInvoicePaid env event db = .ok db') : Books terms env db db' := by
  unfold handleInvoicePaid at h
  dsimp only at h
  have hkept : ∀ {x : Except BillingError Db}, x = .ok db' → x = .ok db → Books terms env db db' := by
    intro x hx hsame
    obtain rfl := Except.ok.inj (hx.symm.trans hsame)
    exact Books.refl env _
  split at h
  · exact hkept h rfl
  · split at h
    · exact hkept h rfl
    · split at h
      · exact hkept h rfl
      · split at h
        · exact hkept h rfl
        · split at h
          · exact hkept h rfl
          · split at h
            · exact hkept h rfl
            · split at h
              · exact hkept h rfl
              · rename_i claimed hclaim
                split at h
                · cases h
                · split at h
                  · cases h
                  · rename_i txn credited hcredit
                    obtain rfl := Except.ok.inj h
                    have hclaimed : Books terms env db claimed :=
                      Books.beside (claimProviderObject_beside hclaim)
                    exact hclaimed.trans
                      (Books.sale _ _ _ rfl rfl (renewalCredit_admitted _ _ _ _ _ _) hcredit)

theorem handleInvoicePaymentFailed_beside (event : ProviderEvent FailedInvoiceObject) (db : Db) :
    db.SameBooks (handleInvoicePaymentFailed env event db) := by
  unfold handleInvoicePaymentFailed
  dsimp only
  split
  · exact .refl db
  · exact ⟨rfl, rfl, rfl, rfl, rfl, Db.payments_append rfl, fun _ _ h => h, fun hu => hu.congr rfl⟩

theorem handleChargeFailed_beside (event : ProviderEvent FailedChargeObject) (db : Db) :
    db.SameBooks (handleChargeFailed env event db) := by
  unfold handleChargeFailed
  dsimp only
  split
  · exact .refl db
  · split
    · exact .refl db
    · exact ⟨rfl, rfl, rfl, rfl, rfl, Db.payments_append rfl, fun _ _ h => h, fun hu => hu.congr rfl⟩

/-! ## Money that goes back -/

theorem eventMetadata_admitted (label : String) (eventId : Option String) (obj : ChargeObject) :
    terms.Admits (eventMetadata label eventId obj) :=
  ((HostTerms.admits_empty.set _ (by decide)).set _ (by decide)).set _ (by decide)

/-- A clawback works on the grant's row as it was read, and no clawback before it rewrote that
row. -/
theorem clawBackEach_books {obj : ChargeObject} {label : String} {eventId : Option String}
    {grants : List (ℕ × Transaction)} (hread : ∀ r ∈ grants, db.transactions.get? r.1 = some r.2)
    (h : clawBackEach env obj label eventId grants db = .ok db') : Books terms env db db' := by
  induction grants generalizing db with
  | nil =>
    obtain rfl := Except.ok.inj h
    exact Books.refl env db
  | cons r grants ih =>
    obtain ⟨grant, txn⟩ := r
    rw [clawBackEach] at h
    split at h
    · cases h
    · rename_i db₁ hok
      have hgrant : db.transactions.get? grant = some txn := hread (grant, txn) List.mem_cons_self
      have hrest : ∀ r ∈ grants, db.transactions.get? r.1 = some r.2 :=
        fun r hr => hread r (List.mem_cons_of_mem _ hr)
      rcases clawBackRemaining_cases hok with ⟨-, rfl⟩ | ⟨-, description, r, hclawback⟩
      · exact ih hrest h
      · have hexec : WalletCall.exec env (.clawBackGrant grant (some (clawbackDue obj grant txn db))
            description (eventMetadata label eventId obj)) db = .ok db₁ := by
          simp only [WalletCall.exec, hgrant, hclawback]
          rfl
        have hstep : Books terms env db db₁ := Books.call (.clawBackGrant grant _ description _)
          trivial (eventMetadata_admitted label eventId obj) hexec
        exact hstep.trans (ih (fun r hr => clawBackGrant_row hclawback (hrest r hr)) h)

theorem handleClawback_books {event : ProviderEvent ChargeObject} {label : String}
    (h : handleClawback env event label db = .ok db') : Books terms env db db' := by
  rcases handleClawback_cases h with rfl | ⟨claimed, hclaim, heach⟩
  · exact Books.refl env _
  · have hsame := claimProviderObject_beside hclaim
    refine (Books.beside hsame).trans (clawBackEach_books (fun r hr => ?_) heach)
    rw [hsame.transactions]
    exact (mem_grantTransactions.mp hr).1

/-- A reversal works on its row as it was read; the ones before it rewrote their own rows
only. -/
theorem reverseEach_books {eventId : Option String} {rows : List (ℕ × Transaction)} {n : ℤ}
    (hnodup : (rows.map Prod.fst).Nodup) (hread : ∀ r ∈ rows, db.transactions.get? r.1 = some r.2)
    (h : reverseEach env eventId rows db = .ok (n, db')) : Books terms env db db' := by
  induction rows generalizing n db with
  | nil =>
    obtain ⟨-, rfl⟩ := Prod.mk.inj (Except.ok.inj h)
    exact Books.refl env db
  | cons r rows ih =>
    obtain ⟨k, row⟩ := r
    obtain ⟨n₁, n₂, db₁, hfirst, hrest, -⟩ := reverseEach_cons h
    have hrow : db.transactions.get? k = some row := hread (k, row) List.mem_cons_self
    have hexec : WalletCall.exec env (.reverseClawback k eventId) db = .ok db₁ := by
      simp only [WalletCall.exec, hrow, hfirst]
      rfl
    rw [List.map_cons, List.nodup_cons] at hnodup
    have hstep : Books terms env db db₁ :=
      Books.call (.reverseClawback k eventId) trivial HostTerms.admits_empty hexec
    refine hstep.trans (ih hnodup.2 (fun r hr => ?_) hrest)
    have hne : r.1 ≠ k := fun heq => hnodup.1 (List.mem_map.mpr ⟨r, hr, heq⟩)
    exact reverseClawback_row hfirst hne (hread r (List.mem_cons_of_mem _ hr))

theorem handleDisputeClosed_books {event : ProviderEvent ChargeObject} {n : ℤ}
    (h : handleDisputeClosed env event db = .ok (n, db')) : Books terms env db db' := by
  unfold handleDisputeClosed at h
  split at h
  · obtain ⟨-, rfl⟩ := Prod.mk.inj (Except.ok.inj h)
    exact Books.refl env db
  · rename_i dispute hdispute
    split at h
    · obtain ⟨-, rfl⟩ := Prod.mk.inj (Except.ok.inj h)
      exact Books.refl env db
    · dsimp only at h
      split at h
      · obtain ⟨-, rfl⟩ := Prod.mk.inj (Except.ok.inj h)
        exact Books.refl env db
      · split at h
        · obtain ⟨-, rfl⟩ := Prod.mk.inj (Except.ok.inj h)
          exact Books.refl env db
        · rename_i claimed hclaim
          have hsame := claimProviderObject_beside hclaim
          refine (Books.beside hsame).trans (reverseEach_books ?_ (fun r hr => ?_) h)
          · exact orderBy_nodup Table.select_nodup
          · rw [hsame.transactions]
            unfold disputeRows at hr
            rw [mem_orderBy, Table.mem_select] at hr
            exact hr.1

/-! ## The registry and the event log -/

/-- A handler that touches the books by the steps of the module only. -/
def StripeHandler.KeepsBooks (terms : HostTerms) (handler : StripeHandler) : Prop :=
  ∀ env event db db', handler.run env event db = .ok db' → Books terms env db db'

/-- **The library's own handlers keep the books.** -/
theorem servicesHandlers_books : ∀ r ∈ servicesHandlers, r.2.KeepsBooks terms := by
  unfold servicesHandlers
  simp only [List.forall_mem_cons, List.not_mem_nil, false_implies, implies_true, and_true]
  refine ⟨?_, ?_, ?_, ?_, ?_, ?_, ?_, ?_, ?_, ?_⟩
  · intro env event db db' h
    exact handleCheckoutCompleted_books h
  · intro env event db db' h
    exact handleInvoicePaid_books h
  · intro env event db db' h
    obtain rfl := Except.ok.inj h
    exact handleSubscriptionUpdated_books _
  · intro env event db db' h
    obtain rfl := Except.ok.inj h
    exact handleSubscriptionDeleted_books _
  · intro env event db db' h
    obtain rfl := Except.ok.inj h
    exact Books.beside (handleInvoicePaymentFailed_beside _ db)
  · intro env event db db' h
    obtain rfl := Except.ok.inj h
    exact Books.beside (handleChargeFailed_beside _ db)
  · intro env event db db' h
    exact handleClawback_books h
  · intro env event db db' h
    exact handleClawback_books h
  · intro env event db db' h
    obtain ⟨n, hok⟩ := map_snd_ok h
    exact handleDisputeClosed_books hok
  · intro env event db db' h
    exact handleClawback_books h

variable {hooks : WebhookSettings}

/-- Whatever the registry runs keeps the books. -/
def WebhookSettings.KeepsBooks (terms : HostTerms) (hooks : WebhookSettings) : Prop :=
  ∀ eventType handler, hooks.getStripeHandler eventType = .ok (some (.handler handler)) →
    handler.KeepsBooks terms

/-- It does when what the host's own entries stand for does. -/
theorem keepsBooks_of_entries (h : ∀ entry ∈ hooks.stripeWebhookHandlers, ∀ handler,
    hooks.resolve entry.2 = .ok (some (.handler handler)) → handler.KeepsBooks terms) :
    hooks.KeepsBooks terms := by
  intro eventType handler hget
  rcases WebhookSettings.getStripeHandler_ok hget with ⟨value, hlookup, hresolve⟩ |
    ⟨-, hnone | ⟨own, hown, he⟩⟩
  · exact h _ (WebhookSettings.mem_of_lookup hlookup) handler hresolve
  · cases hnone
  · obtain rfl := Imported.handler.inj (Option.some.inj he)
    obtain ⟨r, hr, rfl⟩ := List.mem_map.mp hown
    exact servicesHandlers_books r hr

theorem dispatch_books (hkeeps : hooks.KeepsBooks terms) {eventType : String} {event : StripeEvent} {stale : Bool}
    (h : hooks.dispatch env eventType event db = .ok (stale, db')) : Books terms env db db' := by
  unfold WebhookSettings.dispatch at h
  split at h
  · cases h
  · obtain ⟨-, rfl⟩ := Prod.mk.inj (Except.ok.inj h)
    exact Books.refl env db
  · cases h
  · rename_i handler hhandler
    split at h
    · cases h
    · rename_i ran hran
      obtain ⟨-, rfl⟩ := Prod.mk.inj (Except.ok.inj h)
      exact hkeeps eventType handler hhandler env event db ran hran

namespace Inbox
variable {inbox inbox' : Inbox}

theorem applyStoredEvent_books (hkeeps : hooks.KeepsBooks terms) {k : ℕ} {event : Option StripeEvent}
    {outcome : EventOutcome} (h : inbox.applyStoredEvent hooks env k event = .ok (outcome, inbox')) :
    Books terms env inbox.db inbox'.db := by
  unfold applyStoredEvent at h
  split at h
  · cases h
  · split at h
    · obtain ⟨-, rfl⟩ := Prod.mk.inj (Except.ok.inj h)
      exact Books.refl env _
    · split at h
      · cases h
      · rename_i stale db hdispatch
        obtain ⟨-, rfl⟩ := Prod.mk.inj (Except.ok.inj h)
        exact dispatch_books hkeeps hdispatch

theorem process_books (hkeeps : hooks.KeepsBooks terms) (k : ℕ) (event : StripeEvent) :
    Books terms env inbox.db (inbox.process hooks env k event).2.db := by
  unfold process
  split
  · exact Books.refl env _
  · split
    · exact Books.refl env _
    · rename_i inbox' hok
      exact applyStoredEvent_books hkeeps hok
    · rename_i outcome inbox' _ hok
      exact applyStoredEvent_books hkeeps hok

theorem logEvent_db (id : String) (event : StripeEvent) :
    (inbox.logEvent env id event).2.db = inbox.db := by
  unfold logEvent
  split <;> rfl

/-- **The webhook endpoint keeps the books**, whatever is posted to it. -/
theorem post_books (hkeeps : hooks.KeepsBooks terms) (request : Verified) :
    Books terms env inbox.db (inbox.post hooks env request).2.db := by
  unfold post
  split
  · exact Books.refl env _
  · exact Books.refl env _
  · split
    · rename_i event _ _ id _ _ _
      dsimp only
      rw [← @logEvent_db env inbox id event]
      exact process_books hkeeps _ _
    · exact Books.refl env _

/-- **A replayed row keeps the books.** -/
theorem replayRow_books (hkeeps : hooks.KeepsBooks terms) (dryRun : Bool) (r : ℕ × StripeWebhookEvent) :
    Books terms env inbox.db (inbox.replayRow hooks (fun _ => env) dryRun r).2.db := by
  unfold replayRow
  dsimp only
  split
  · exact Books.refl env _
  · split
    · exact Books.refl env _
    · rename_i outcome inbox' hok
      exact applyStoredEvent_books hkeeps hok

end Inbox

/-! ## The functions other services call -/

theorem refuseCredits_books (user : UserId) : Books terms env db (refuseCredits user db).2 := by
  unfold refuseCredits
  exact Books.openWallet user

theorem billingDebit_books {seam : UserSeam} {payload : MoneyPayload} {reply : MoneyReply}
    (hmetadata : terms.Admits payload.metadata)
    (h : billingDebit env seam payload db = .ok (reply, db')) : Books terms env db db' := by
  unfold billingDebit at h
  split at h
  · obtain ⟨-, rfl⟩ := Prod.mk.inj (Except.ok.inj h)
    exact Books.refl env db
  · rename_i user known hknown
    have hbeside : Books terms env db known := Books.beside (resolveUser_beside hknown)
    dsimp only at h
    split at h
    · obtain rfl := congrArg Prod.snd (Except.ok.inj h)
      exact hbeside.trans (refuseCredits_books user)
    · cases h
    · rename_i txn charged hdebit
      obtain ⟨-, rfl⟩ := Prod.mk.inj (Except.ok.inj h)
      exact hbeside.trans (Books.debit hmetadata hdebit)
    · rename_i result charged hdebit
      obtain ⟨-, rfl⟩ := Prod.mk.inj (Except.ok.inj h)
      exact hbeside.trans (Books.debit hmetadata hdebit)

theorem billingHold_books {seam : UserSeam} {payload : MoneyPayload} {reply : MoneyReply}
    (hmetadata : terms.Admits payload.metadata)
    (h : billingHold env seam payload db = .ok (reply, db')) : Books terms env db db' := by
  unfold billingHold at h
  split at h
  · obtain ⟨-, rfl⟩ := Prod.mk.inj (Except.ok.inj h)
    exact Books.refl env db
  · rename_i user known hknown
    have hbeside : Books terms env db known := Books.beside (resolveUser_beside hknown)
    dsimp only at h
    split at h
    · obtain ⟨-, rfl⟩ := Prod.mk.inj (Except.ok.inj h)
      exact hbeside
    · obtain rfl := congrArg Prod.snd (Except.ok.inj h)
      exact hbeside.trans (refuseCredits_books user)
    · cases h
    · rename_i k reserved hhold
      obtain ⟨-, rfl⟩ := Prod.mk.inj (Except.ok.inj h)
      exact hbeside.trans (Books.hold hmetadata hhold)

theorem billingCapture_books {args : CaptureArgs} {reply : MoneyReply}
    (hmetadata : terms.Admits args.metadata) (h : billingCapture env args db = .ok (reply, db')) :
    Books terms env db db' := by
  unfold billingCapture at h
  split at h
  · obtain ⟨-, rfl⟩ := Prod.mk.inj (Except.ok.inj h)
    exact Books.refl env db
  · obtain ⟨-, rfl⟩ := Prod.mk.inj (Except.ok.inj h)
    exact Books.refl env db
  · obtain ⟨-, rfl⟩ := Prod.mk.inj (Except.ok.inj h)
    exact Books.refl env db
  · obtain ⟨-, rfl⟩ := Prod.mk.inj (Except.ok.inj h)
    exact Books.refl env db
  · cases h
  · rename_i txn captured hcapture
    obtain ⟨-, rfl⟩ := Prod.mk.inj (Except.ok.inj h)
    exact Books.capture hmetadata hcapture

theorem billingRelease_books {k : ℕ} {reply : MoneyReply}
    (h : billingRelease env k db = .ok (reply, db')) : Books terms env db db' := by
  unfold billingRelease at h
  split at h
  · obtain ⟨-, rfl⟩ := Prod.mk.inj (Except.ok.inj h)
    exact Books.refl env db
  · cases h
  · rename_i released hrelease
    obtain ⟨-, rfl⟩ := Prod.mk.inj (Except.ok.inj h)
    exact Books.release hrelease

theorem billingCanAfford_books {seam : UserSeam} {user : UserId} {identity : Bool} {credits : ℤ}
    {answer : Except String Affordability}
    (h : billingCanAfford env seam user identity credits db = .ok (answer, db')) :
    Books terms env db db' := by
  unfold billingCanAfford at h
  split at h
  · obtain ⟨-, rfl⟩ := Prod.mk.inj (Except.ok.inj h)
    exact Books.refl env db
  · rename_i known hknown
    split at h
    · cases h
    · obtain ⟨-, rfl⟩ := Prod.mk.inj (Except.ok.inj h)
      exact Books.beside (resolveUser_beside hknown)

/-! ## The workers -/

theorem expireWallets_books (wallets : List ℕ) : Books terms env db (expireWallets env wallets db).2 := by
  induction wallets generalizing db with
  | nil => exact Books.refl env db
  | cons w wallets ih =>
    cases hw : db.wallets.get? w with
    | none =>
      simp only [expireWallets, hw]
      exact ih
    | some wallet =>
      simp only [expireWallets, hw]
      exact (Books.sweep w).trans ih

theorem expireCreditLots_books : Books terms env db (expireCreditLots env db).2 :=
  expireWallets_books _

theorem releaseStale_books (holds : List ℕ) : Books terms env db (releaseStale env holds db) := by
  induction holds generalizing db with
  | nil => exact Books.refl env db
  | cons k holds ih =>
    unfold releaseStale
    split
    · rename_i released hrelease
      exact (Books.release hrelease).trans ih
    · exact Books.refl env db

theorem expireHolds_books : Books terms env db (expireHolds env db) := releaseStale_books _

theorem bundleWallet_books (bundle : PlanBundle) : Books terms env db (bundleWallet bundle db).2 := by
  unfold bundleWallet
  split
  · exact Books.refl env db
  · exact Books.lockWallet bundle.user

theorem grantPlanBundle_books {args : PlanBundleArgs} {answer : Option ℕ}
    (hmetadata : terms.Admits args.metadata) (h : grantPlanBundle env args db = .ok (answer, db')) :
    Books terms env db db' := by
  unfold grantPlanBundle at h
  split at h
  · cases h
  · obtain ⟨-, rfl⟩ := Prod.mk.inj (Except.ok.inj h)
    exact Books.refl env db
  · rename_i bundle hdue
    have hwallet : Books terms env db (bundleWallet bundle db).2 := bundleWallet_books bundle
    have hcredit : terms.Admits (planBundleCredit args bundle).metadata :=
      ((hmetadata.set _ (by decide)).set _ (by decide)).set _ (by decide)
    generalize bundleWallet bundle db = r at hwallet h
    obtain ⟨w, opened⟩ := r
    dsimp only at h hwallet
    split at h
    · obtain ⟨-, rfl⟩ := Prod.mk.inj (Except.ok.inj h)
      exact hwallet
    · rename_i claimed hclaim
      split at h
      · cases h
      · rename_i txn credited hok
        obtain ⟨-, rfl⟩ := Prod.mk.inj (Except.ok.inj h)
        exact (hwallet.trans (Books.beside (claimProviderObject_beside hclaim))).trans
          (Books.credit rfl hcredit hok)

theorem grantPlanBundles_books (rows : List Entitlement) (periodKey : Option String) :
    Books terms env db (grantPlanBundles env rows periodKey db).2 := by
  have hgrants : ∀ args ∈ sweepGrants env rows periodKey, terms.Admits args.metadata := by
    intro args hargs
    obtain ⟨row, -, rfl⟩ := List.mem_map.mp hargs
    exact HostTerms.admits_empty
  unfold grantPlanBundles
  generalize sweepGrants env rows periodKey = grants at hgrants
  have hfold : ∀ granted : ℕ × Db, Books terms env db granted.2 →
      Books terms env db (grants.foldl (grantAndCount env) granted).2 := by
    induction grants with
    | nil => exact fun granted h => h
    | cons args grants ih =>
      intro granted h
      refine ih (fun args hargs => hgrants args (List.mem_cons_of_mem _ hargs)) _ ?_
      unfold grantAndCount
      split
      · rename_i txn credited hok
        exact h.trans (grantPlanBundle_books (hgrants args List.mem_cons_self) hok)
      · rename_i credited hok
        exact h.trans (grantPlanBundle_books (hgrants args List.mem_cons_self) hok)
      · exact h
  exact hfold (0, db) (Books.refl env db)

/-! ## What operators and staff give -/

theorem compBundleCredit_admitted (user : UserId) (credits : ℤ) (args : ExtendArgs)
    (preview : CompPeriodPreview) (comp : ℕ) :
    terms.Admits (compBundleCredit user credits args preview comp).metadata :=
  ((((HostTerms.admits_empty.set _ (by decide)).set _ (by decide)).set _ (by decide)).set _
    (by decide)).set _ (by decide)

theorem grantCompBundle_books {args : ExtendArgs} {preview : CompPeriodPreview} {comp : ℕ}
    {txn : Option ℕ} (h : grantCompBundle env args preview comp db = .ok (txn, db')) :
    Books terms env db db' := by
  unfold grantCompBundle at h
  split at h
  · split at h
    · obtain ⟨-, rfl⟩ := Prod.mk.inj (Except.ok.inj h)
      exact Books.refl env db
    · split at h
      · cases h
      · rename_i hok
        obtain ⟨-, rfl⟩ := Prod.mk.inj (Except.ok.inj h)
        exact Books.credit rfl (compBundleCredit_admitted _ _ args preview comp) hok
  · obtain ⟨-, rfl⟩ := Prod.mk.inj (Except.ok.inj h)
    exact Books.refl env db

theorem announceComp_beside (now : Time) (sub : Subscription) (endsAt : Time) (db : Db) :
    db.SameBooks (announceComp env now sub endsAt db) := by
  unfold announceComp
  split
  · exact .refl db
  · exact ⟨rfl, rfl, rfl, rfl, rfl, Db.payments_append rfl, fun _ _ h => h, fun hu => hu.congr rfl⟩

theorem extendSubscription_books {args : ExtendArgs} {preview : CompPeriodPreview}
    (h : extendSubscription env args db = .ok (preview, db')) : Books terms env db db' := by
  unfold extendSubscription at h
  dsimp only at h
  split at h
  · cases h
  · split at h
    · unfold writeExtension at h
      split at h
      · cases h
      · dsimp only at h
        split at h
        · cases h
        · rename_i txn granted hgrant
          obtain ⟨-, rfl⟩ := Prod.mk.inj (Except.ok.inj h)
          have hwindow : ∀ compPeriods, Books terms env db { db with compPeriods } :=
            fun _ => Books.beside ⟨rfl, rfl, rfl, rfl, rfl, rfl, fun _ _ h => h, fun hu => hu.congr rfl⟩
          exact ((hwindow _).trans (grantCompBundle_books hgrant)).trans
            (Books.beside (announceComp_beside _ _ _ _))
    · obtain ⟨-, rfl⟩ := Prod.mk.inj (Except.ok.inj h)
      exact Books.refl env db

theorem grantCredits_books {args : GrantArgs} {t : ℕ} (hmetadata : terms.Admits args.metadata)
    (h : grantCredits env args db = .ok (t, db')) : Books terms env db db' := by
  have hcredit : ∀ explanation who, terms.Admits (manualCredit args explanation who).metadata :=
    fun explanation who => ((((hmetadata.set _ (by decide)).set _ (by decide)).set _
      (by decide)).set _ (by decide)).set _ (by decide)
  unfold grantCredits at h
  dsimp only at h
  split at h
  · cases h
  · split at h
    · cases h
    · split at h
      · cases h
      · exact Books.credit rfl (hcredit _ _) h

theorem billingGrantCredits_books (model : UserModel) (options : GrantOptions) :
    Books terms env db (billingGrantCredits env model options db).2 := by
  unfold billingGrantCredits
  split
  · exact Books.refl env db
  · split
    · exact Books.refl env db
    · split
      · exact Books.refl env db
      · split
        · exact Books.refl env db
        · rename_i user _
          have hopened : Books terms env db (getOrCreateWallet user db).2 := Books.openWallet user
          generalize getOrCreateWallet user db = r at hopened
          obtain ⟨⟨w, wallet⟩, opened⟩ := r
          dsimp only at hopened ⊢
          split
          · exact hopened
          · split
            · exact hopened
            · rename_i txn granted hok
              have hgranted : Books terms env db granted :=
                hopened.trans (grantCredits_books HostTerms.admits_empty hok)
              split
              · split <;> exact hgranted
              · exact hgranted

theorem adminGrantEach_books (form : GrantForm) (actor : String) (wallets : List (ℕ × Wallet)) :
    Books terms env db (adminGrantEach env form actor wallets db).2 := by
  induction wallets generalizing db with
  | nil => exact Books.refl env db
  | cons r wallets ih =>
    obtain ⟨w, wallet⟩ := r
    unfold adminGrantEach
    dsimp only
    split
    · exact ih
    · split
      · exact ih
      · exact Books.refl env db
      · rename_i txn granted hok
        have hgranted : Books terms env db granted := grantCredits_books HostTerms.admits_empty hok
        split
        · exact hgranted.trans ih
        · exact hgranted

theorem adminGrantCredits_books (form : GrantForm) (actor : String) (selected : List (ℕ × Wallet)) :
    Books terms env db (adminGrantCredits env form actor selected db).2 := by
  unfold adminGrantCredits
  split
  · exact Books.refl env db
  · split
    · exact Books.refl env db
    · split
      · exact Books.refl env db
      · dsimp only
        split
        · exact Books.refl env db
        · exact adminGrantEach_books form actor _

theorem simulateCheckoutCompleted_books {user : UserId} {package hex : String}
    {purchase : SimulatedPurchase}
    (h : simulateCheckoutCompleted env user package hex db = .ok (purchase, db')) :
    Books terms env db db' := by
  unfold simulateCheckoutCompleted at h
  split at h
  · cases h
  · dsimp only at h
    split at h
    · cases h
    · rename_i handled hok
      obtain rfl := congrArg Prod.snd (Except.ok.inj h)
      exact (handleCheckoutCompleted_books hok).trans (Books.openWallet user)

/-! ## The endpoints -/

theorem getOrCreateWallet_get? (user : UserId) (db : Db) :
    (getOrCreateWallet user db).2.wallets.get? (getOrCreateWallet user db).1.1 =
      some (getOrCreateWallet user db).1.2 := by
  unfold getOrCreateWallet
  split
  · rename_i r hfind
    exact (Table.find?_some hfind).1
  · exact Table.get?_insert_next _ _

theorem patchWalletSettings_books (user : UserId) (update : WalletUpdate) :
    Books terms env db (patchWalletSettings env user update db).2 := by
  have hopened : Books terms env db (getOrCreateWallet user db).2 := Books.openWallet user
  have hread := getOrCreateWallet_get? user db
  unfold patchWalletSettings
  generalize getOrCreateWallet user db = r at hopened hread
  obtain ⟨⟨w, wallet⟩, opened⟩ := r
  dsimp only at hopened hread ⊢
  split
  · exact hopened
  · rename_i saved hok
    exact hopened.trans (Books.single (.patch hread hok))

theorem viewSubscription_beside (user : UserId) (db : Db) :
    db.SameBooks (viewSubscription user db).2 := by
  have hu : db.SubscriptionsUnique → (viewSubscription user db).2.SubscriptionsUnique :=
    viewSubscription_unique user
  obtain ⟨subscriptions, hsame⟩ : ∃ subscriptions,
      (viewSubscription user db).2 = { db with subscriptions } := by
    unfold viewSubscription
    split
    · exact ⟨db.subscriptions, rfl⟩
    · exact ⟨_, rfl⟩
  rw [hsame] at hu ⊢
  exact .subscriptions hu

theorem postCancel_beside (stripe : StripeProvider) (user : UserId) (db : Db) :
    db.SameBooks (postCancel env stripe user db).2 := by
  unfold postCancel
  split
  · exact .refl db
  · exact saveSubscription_beside (by simp [KeepsIds])

theorem postInternalDebit_books {request : CreditDebitRequest} {reply : DebitReply}
    (hmetadata : terms.Admits request.metadata)
    (h : postInternalDebit env request db = .ok (reply, db')) : Books terms env db db' := by
  unfold postInternalDebit at h
  split at h
  · obtain ⟨-, rfl⟩ := Prod.mk.inj (Except.ok.inj h)
    exact Books.refl env db
  · split at h
    · obtain ⟨-, rfl⟩ := Prod.mk.inj (Except.ok.inj h)
      exact Books.refl env db
    · dsimp only at h
      split at h
      · obtain ⟨-, rfl⟩ := Prod.mk.inj (Except.ok.inj h)
        exact Books.refl env db
      · cases h
      · rename_i txn charged hdebit
        obtain ⟨-, rfl⟩ := Prod.mk.inj (Except.ok.inj h)
        exact Books.debit hmetadata hdebit
      · rename_i result charged hdebit
        obtain ⟨-, rfl⟩ := Prod.mk.inj (Except.ok.inj h)
        exact Books.debit hmetadata hdebit

end StapelBilling
