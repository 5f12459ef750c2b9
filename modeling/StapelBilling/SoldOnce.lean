import StapelBilling.Deployment
import StapelBilling.Ownerless

/-! # What is sold is handed over once

The provider may tell of one checkout session or one invoice under several events, and an event
may be replayed at any later time.  The first handling that changes anything claims the session
or the invoice.  No call gives such a claim up, so nothing that comes afterwards hands the same
sale over again.

* `SystemCall.exec_claimed`: claims stay.
* `sold_once`: whatever comes to the deployment in between, a later event about the same session or
  invoice changes nothing.
-/
namespace StapelBilling
open Store

variable {terms : HostTerms} {env : Env} {digest : UserId → UserId → String} {db db' : Db}
  {scope : GrantScope} {ext : String}

/-! ## Claims stay -/

theorem Db.Claimed.congr (hc : db.Claimed scope ext) (h : db'.providerGrants = db.providerGrants) :
    db'.Claimed scope ext := by
  unfold Db.Claimed
  rw [h]
  exact hc

theorem exec_claimed {c : WalletCall} (hc : db.Claimed scope ext) (hok : c.exec env db = .ok db') :
    db'.Claimed scope ext := hc.congr (exec_moves hok).elsewhere.providerGrants

/-- A step on the books gives no claim up. -/
theorem BookStep.claimed (h : BookStep terms env db db') (hc : db.Claimed scope ext) :
    db'.Claimed scope ext := by
  cases h with
  | call c _ _ hok => exact exec_claimed hc hok
  | @sale credited args t amountCents user currency extra _ _ _ hok =>
    have hexec : (WalletCall.credit args).exec env db = .ok credited :=
      congrArg (Except.map Prod.snd) hok
    exact (exec_claimed hc hexec).congr rfl
  | openWallet user =>
    refine hc.congr ?_
    unfold getOrCreateWallet
    split <;> rfl
  | patch _ hok =>
    unfold patchWallet saveWallet at hok
    split at hok
    · split at hok
      · cases hok
      · obtain rfl := Except.ok.inj hok
        exact hc.congr rfl
    · cases hok
  | stamp sub =>
    refine hc.congr ?_
    unfold stampSubscriptionPeriod
    split <;> rfl
  | beside hsame => exact hsame.claimed scope ext hc

theorem Books.claimed (h : Books terms env db db') (hc : db.Claimed scope ext) :
    db'.Claimed scope ext := by
  induction h with
  | refl => exact hc
  | tail _ hlast ih => exact hlast.claimed ih

theorem mergeWallets_claimed {fromUser intoUser : UserId} {counts : MergeCounts}
    (hc : db.Claimed scope ext)
    (h : mergeWallets env digest fromUser intoUser db = .ok (counts, db')) : db'.Claimed scope ext := by
  rcases mergeWallets_cases h with ⟨-, rfl, -⟩ | ⟨-, ⟨-, ⟨subscriptions, rfl⟩, -⟩ |
    ⟨merged, wallet, survivor, db₁, hmerged, hsurvivor, hlocked⟩⟩
  · exact hc
  · exact hc.congr rfl
  · have hopened : db₁.Claimed scope ext := by
      rcases survivorWallet_cases hsurvivor with ⟨rfl, -⟩ | ⟨-, -, -, rfl⟩
      · exact hc
      · exact hc.congr rfl
    obtain ⟨subscriptions, n, hsettle, -, -⟩ := mergeLocked_cases hlocked
    have hbooked : (db₁.booked env (mergeIdempotencyKey digest fromUser intoUser) merged
        survivor).Claimed scope ext := by
      refine hopened.congr ?_
      exact bookMerge_frame.2.2.providerGrants.trans stripped_frame.2.2.providerGrants
    have hmoves := settleDebts_ok (P := fun _ => True) (fun _ _ _ _ => trivial) hsettle
    exact hbooked.congr hmoves.elsewhere.providerGrants

theorem eraseSubject_claimed {subjectType : String} {subject : Option UserId}
    (hc : db.Claimed scope ext) (h : eraseSubject subjectType subject db = some db') :
    db'.Claimed scope ext := by
  unfold eraseSubject at h
  split at h
  · cases h
  · split at h
    · cases h
    · obtain rfl := Option.some.inj h
      exact hc.congr rfl

/-- **No call gives a claim up.** -/
theorem SystemCall.exec_claimed {c : SystemCall} {s : Deployment} (hfair : c.Fair terms)
    (hc : s.inbox.db.Claimed scope ext) : (c.exec digest env s).inbox.db.Claimed scope ext := by
  rcases @SystemCall.exec_cases terms env digest c s hfair with
    hbooks | ⟨source, target, counts, -, hok⟩ | ⟨subjectType, subject, -, hok⟩
  · exact hbooks.claimed hc
  · exact mergeWallets_claimed hc hok
  · exact eraseSubject_claimed hc hok

theorem runSystem_claimed {calls : List (Env × SystemCall)} {s : Deployment}
    (hfair : ∀ c ∈ calls, c.2.Fair terms) (hc : s.inbox.db.Claimed scope ext) :
    (runSystem digest calls s).inbox.db.Claimed scope ext := by
  refine Store.run_invariant (I := fun s : Deployment => s.inbox.db.Claimed scope ext) ?_ hc
  intro c hmem s s' hs hok
  obtain rfl := Except.ok.inj hok
  exact SystemCall.exec_claimed (hfair c hmem) hs

/-! ## A handling claims what it hands over -/

theorem claimProviderObject_claims {id : Option String} {provider : String} (hprovider : provider = "stripe")
    (h : claimProviderObject scope id provider db = some db') :
    ∃ ext ∈ id, db'.Claimed scope ext := by
  obtain ⟨ext, hid, -, -, rfl⟩ := claimProviderObject_some h
  refine ⟨ext, hid, (db.providerGrants.next, { provider, scope, externalId := ext }), ?_, hprovider, rfl,
    rfl⟩
  exact List.mem_append_right _ (List.mem_singleton_self _)

theorem grantPackage_claims {user : UserId} {pkg : CreditPackage} {obj : CheckoutSession} {goesOn : Bool}
    (h : grantPackage env user pkg obj db = .ok (goesOn, db')) :
    goesOn = false ∧ db' = db ∨ ∃ ext ∈ obj.id, db'.Claimed .checkoutSession ext := by
  unfold grantPackage at h
  split at h
  · obtain ⟨rfl, rfl⟩ := Prod.mk.inj (Except.ok.inj h)
    exact Or.inl ⟨rfl, rfl⟩
  · split at h
    · obtain ⟨rfl, rfl⟩ := Prod.mk.inj (Except.ok.inj h)
      exact Or.inl ⟨rfl, rfl⟩
    · rename_i claimed hclaim
      split at h
      · cases h
      · rename_i txn credited hcredit
        obtain ⟨-, rfl⟩ := Prod.mk.inj (Except.ok.inj h)
        obtain ⟨ext, hid, hc⟩ := claimProviderObject_claims rfl hclaim
        have hbooks : Books {} env claimed _ :=
          Books.sale user pkg.currency.toLower Metadata.empty rfl rfl
            (packageCredit_admitted user pkg obj)
            hcredit
        exact Or.inr ⟨ext, hid, (hbooks.claimed hc).congr rfl⟩

theorem grantPlan_claims {user : UserId} {plan : String} {entry : PlanCatalogEntry}
    {event : ProviderEvent CheckoutSession} (h : grantPlan env user plan entry event db = .ok db') :
    db' = db ∨ ∃ ext ∈ event.object.id, db'.Claimed .checkoutSession ext := by
  unfold grantPlan at h
  dsimp only at h
  split at h
  · exact Or.inl (Except.ok.inj h).symm
  · split at h
    · exact Or.inl (Except.ok.inj h).symm
    · rename_i claimed hclaim
      obtain ⟨ext, hid, hc⟩ := claimProviderObject_claims rfl hclaim
      refine Or.inr ⟨ext, hid, ?_⟩
      split at h
      · cases h
      · rename_i k sub opened hopen
        split at h
        · cases h
        · rename_i granted hgrant
          obtain rfl := Except.ok.inj h
          have hopened := (openSubscription_beside hopen).claimed _ _ hc
          have hparked : Books {} env opened (applyPendingPeriod k sub opened).2 :=
            applyPendingPeriod_books k sub
          have hbundle : Books {} env (applyPendingPeriod k sub opened).2 granted :=
            grantBundle_books hgrant
          exact ((hbundle.claimed (hparked.claimed hopened))).congr rfl

/-- **A checkout that changes anything claims its session.** -/
theorem handleCheckoutCompleted_claims {event : ProviderEvent CheckoutSession}
    (h : handleCheckoutCompleted env event db = .ok db') :
    db' = db ∨ ∃ ext ∈ event.object.id, db'.Claimed .checkoutSession ext := by
  rcases handleCheckoutCompleted_cases h with hsame | ⟨user, goesOn, bought, hpackage, hplan⟩
  · exact Or.inl hsame
  · have hbought : bought = db ∨ ∃ ext ∈ event.object.id, bought.Claimed .checkoutSession ext := by
      rcases hpackage with ⟨pkg, hok⟩ | hsame
      · exact (grantPackage_claims hok).imp (fun h => h.2) id
      · exact Or.inl hsame
    rcases hplan with rfl | ⟨plan, entry, hok⟩
    · exact hbought
    · rcases hbought with rfl | ⟨ext, hid, hc⟩
      · exact grantPlan_claims hok
      · have hbooks : Books {} env bought db' := grantPlan_books hok
        exact Or.inr ⟨ext, hid, hbooks.claimed hc⟩

/-- **A renewal that changes anything claims its invoice.** -/
theorem handleInvoicePaid_claims {event : ProviderEvent InvoiceObject}
    (h : handleInvoicePaid env event db = .ok db') :
    db' = db ∨ ∃ ext ∈ event.object.id, db'.Claimed .invoice ext := by
  unfold handleInvoicePaid at h
  dsimp only at h
  split at h
  · exact Or.inl (Except.ok.inj h).symm
  · split at h
    · exact Or.inl (Except.ok.inj h).symm
    · split at h
      · exact Or.inl (Except.ok.inj h).symm
      · split at h
        · exact Or.inl (Except.ok.inj h).symm
        · split at h
          · exact Or.inl (Except.ok.inj h).symm
          · split at h
            · exact Or.inl (Except.ok.inj h).symm
            · split at h
              · exact Or.inl (Except.ok.inj h).symm
              · rename_i claimed hclaim
                split at h
                · cases h
                · split at h
                  · cases h
                  · rename_i txn credited hcredit
                    obtain rfl := Except.ok.inj h
                    obtain ⟨ext, hid, hc⟩ := claimProviderObject_claims rfl hclaim
                    have hexec : (WalletCall.credit _).exec env claimed = .ok credited :=
                      congrArg (Except.map Prod.snd) hcredit
                    exact Or.inr ⟨ext, hid, (exec_claimed hc hexec).congr rfl⟩

/-! ## What is claimed is left alone -/

theorem claimProviderObject_refused {id : Option String} (hid : ext ∈ id) (hc : db.Claimed scope ext) :
    claimProviderObject scope id "stripe" db = none := by
  refine SubscriptionEvent.claimProviderObject_none_iff.mpr fun other hother => ?_
  have hsame : id = some other := nonempty_eq_some hother
  obtain rfl := Option.some.inj (hsame.symm.trans hid)
  exact hc

/-- A checkout of a session that was claimed does nothing. -/
theorem handleCheckoutCompleted_closed {event : ProviderEvent CheckoutSession}
    (hid : ext ∈ event.object.id) (hc : db.Claimed .checkoutSession ext) :
    handleCheckoutCompleted env event db = .ok db := by
  have hclaim := claimProviderObject_refused hid hc
  unfold handleCheckoutCompleted
  dsimp only
  have hplan : ∀ user plan entry, grantPlan env user plan entry event db = .ok db := by
    intro user plan entry
    unfold grantPlan
    dsimp only
    rw [hclaim]
    split <;> rfl
  split
  · rfl
  · rename_i user hbuyer
    cases hpackage : (nonempty event.object.package).bind env.settings.creditPackageBySlug with
    | none =>
      dsimp only
      split
      · exact hplan _ _ _
      · rfl
    | some pkg =>
      have hstop : grantPackage env user pkg event.object db = .ok (false, db) := by
        unfold grantPackage
        rw [hclaim]
        split <;> rfl
      dsimp only
      rw [hstop]

/-- A renewal of an invoice that was claimed does nothing. -/
theorem handleInvoicePaid_closed {event : ProviderEvent InvoiceObject} (hid : ext ∈ event.object.id)
    (hc : db.Claimed .invoice ext) : handleInvoicePaid env event db = .ok db := by
  have hclaim := claimProviderObject_refused hid hc
  unfold handleInvoicePaid
  dsimp only
  rw [hclaim]
  split
  · rfl
  · split
    · rfl
    · split
      · rfl
      · split
        · rfl
        · split
          · rfl
          · split <;> rfl

/-! ## Once -/

/-- The database of a deployment is replaced. -/
def Deployment.withDb (s : Deployment) (db : Db) : Deployment :=
  { s with inbox := { s.inbox with db } }

/-- **A sale is handed over once.**  An event about a checkout session or about an invoice changed
the database.  Whatever comes to the deployment afterwards, any event about the same session or
the same invoice, under whatever id and at whatever time, changes nothing. -/
theorem sold_once {s : Deployment} {calls : List (Env × SystemCall)} (later : Env) {sold : Db}
    (hfair : ∀ c ∈ calls, c.2.Fair {}) (hchanged : sold ≠ s.inbox.db) :
    let after := (runSystem digest calls (s.withDb sold)).inbox.db
    (∀ event event' : ProviderEvent CheckoutSession, event.object.id = event'.object.id →
      handleCheckoutCompleted env event s.inbox.db = .ok sold →
      handleCheckoutCompleted later event' after = .ok after) ∧
    ∀ event event' : ProviderEvent InvoiceObject, event.object.id = event'.object.id →
      handleInvoicePaid env event s.inbox.db = .ok sold →
      handleInvoicePaid later event' after = .ok after := by
  intro after
  constructor
  · intro event event' hsame hok
    rcases handleCheckoutCompleted_claims hok with hnothing | ⟨ext, hid, hc⟩
    · exact absurd hnothing hchanged
    · have hstays : after.Claimed .checkoutSession ext :=
        @runSystem_claimed {} digest _ _ calls (s.withDb sold) hfair hc
      exact handleCheckoutCompleted_closed (hsame ▸ hid) hstays
  · intro event event' hsame hok
    rcases handleInvoicePaid_claims hok with hnothing | ⟨ext, hid, hc⟩
    · exact absurd hnothing hchanged
    · have hstays : after.Claimed .invoice ext :=
        @runSystem_claimed {} digest _ _ calls (s.withDb sold) hfair hc
      exact handleInvoicePaid_closed (hsame ▸ hid) hstays

/-- A package that was paid for. -/
def paidStarter (id : String) : ProviderEvent CheckoutSession :=
  { id := some id
    type := "checkout.session.completed"
    object :=
      { id := some "cs_1"
        userId := some 1
        package := some "starter"
        mode := some "payment"
        paymentStatus := some "paid"
        currency := some "usd"
        amountTotal := some 500 } }

/-- Part of it is spent, and the account is folded into another. -/
def spentAndMerged : List (Env × SystemCall) :=
  [(Env.plain 5, .billingDebit ⟨fun _ => false, fun _ => true⟩
      { user := 1
        credits := 50
        idempotencyKey := "job-1" }),
    (Env.plain 6, .userMerged (some 1) (some 2))]

theorem spentAndMerged_fair : ∀ c ∈ spentAndMerged, c.2.Fair terms := by
  unfold spentAndMerged
  simp only [List.forall_mem_cons, List.not_mem_nil, false_implies, implies_true, and_true]
  exact ⟨HostTerms.admits_empty, trivial⟩

/-- A deployment that hands over whatever a session names. -/
def trustingEnv : Env :=
  { Env.plain 0 with settings := { strictCheckoutReconciliation := false } }

theorem sold_once_starter : ∃ sold,
    handleCheckoutCompleted trustingEnv (paidStarter "evt_1") { users := [1, 2] } = .ok sold ∧
    let after := (runSystem (fun _ _ => "pair") spentAndMerged
      (Deployment.withDb { inbox := { db := { users := [1, 2] } } } sold)).inbox.db
    handleCheckoutCompleted (Env.plain 90) (paidStarter "evt_2") after = .ok after := by
  have hclaims : ((handleCheckoutCompleted trustingEnv (paidStarter "evt_1")
      { users := [1, 2] }).map fun db => db.providerGrants.next) = .ok 1 := by decide +kernel
  rcases hok : handleCheckoutCompleted trustingEnv (paidStarter "evt_1") { users := [1, 2] } with e | sold
  · rw [hok] at hclaims
    cases hclaims
  · rw [hok] at hclaims
    have hchanged : sold ≠ ({ users := [1, 2] } : Db) := by
      rintro rfl
      exact absurd (Except.ok.inj hclaims) (by decide)
    exact ⟨sold, rfl, (@sold_once trustingEnv (fun _ _ => "pair")
      { inbox := { db := { users := [1, 2] } } } spentAndMerged (Env.plain 90) sold spentAndMerged_fair
      hchanged).1 (paidStarter "evt_1") (paidStarter "evt_2") rfl hok⟩

end StapelBilling
