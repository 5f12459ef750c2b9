import StapelBilling.Frames
import StapelBilling.Parking
import StapelBilling.CumulativeRefunds

/-! # What a subscription checkout leaves

A checkout that is taken up writes the plan and the ids over the user's row, applies what is
parked for the subscription, grants the bundle and announces both.  Its effect on the row is
stated once, for the row as the checkout found it.
-/
namespace StapelBilling
open Store

/-! ## The checkout -/

/-- A session that sells a plan: its buyer is known, it buys no package, the plan is in the
catalogue, and the session agrees with the entry. -/
structure SubscriptionCheckout (env : Env) (obj : CheckoutSession) (db : Db) (user : UserId)
    (plan : String) (entry : PlanCatalogEntry) : Prop where
  buyer : checkoutBuyer obj db = some user
  noPackage : (nonempty obj.package).bind env.settings.creditPackageBySlug = none
  sells : obj.plan = some plan
  listed : env.settings.getPlan (some plan) = some entry
  agreed : reconcileCheckoutSession env obj "subscription" entry.currency none = none

/-- A paid session in the plan's mode and currency agrees with it, whatever it charged. -/
theorem reconcileCheckoutSession_agreed {env : Env} {obj : CheckoutSession} {mode currency : String}
    (hmode : obj.mode = some mode) (hpaid : obj.paymentStatus = some "paid")
    (hcurrency : (obj.currency.getD "").toLower = currency.toLower) :
    reconcileCheckoutSession env obj mode currency none = none := by
  unfold reconcileCheckoutSession
  split
  · rfl
  · rw [if_neg (not_not.mpr hmode), if_neg (not_not.mpr (Or.inl hpaid)),
      if_neg (not_not.mpr hcurrency)]

/-- The user's row, or the one a checkout starts from. -/
def Db.userRow (db : Db) (user : UserId) : Subscription :=
  match db.subscriptions.find? fun sub => sub.user = some user with
  | some (_, sub) => sub
  | none => { user := some user }

section Checkout
variable {env : Env} {event : ProviderEvent CheckoutSession} {db db' : Db} {user : UserId}
  {plan : String} {entry : PlanCatalogEntry}

theorem SubscriptionCheckout.handle (h : SubscriptionCheckout env event.object db user plan entry) :
    handleCheckoutCompleted env event db = grantPlan env user plan entry event db := by
  simp only [handleCheckoutCompleted, h.buyer, h.noPackage, h.sells, h.listed]

/-- Past the comparison with the catalogue. -/
theorem SubscriptionCheckout.handle_agreed
    (h : SubscriptionCheckout env event.object db user plan entry) :
    handleCheckoutCompleted env event db =
      match claimProviderObject .checkoutSession event.object.id "stripe" db with
      | none => .ok db
      | some db =>
        match openSubscription user plan event.object (providerEventTime event) db with
        | .error e => .error e
        | .ok (k, sub, db) =>
          match grantBundle env user plan entry event.object (applyPendingPeriod k sub db).1
            (applyPendingPeriod k sub db).2 with
          | .error e => .error e
          | .ok granted => .ok (announceSubscription (applyPendingPeriod k sub db).1 granted) := by
  rewrite [h.handle, grantPlan, h.agreed]
  rfl

/-- What a checkout that is taken up does. -/
theorem grantPlan_ok
    (hagreed : reconcileCheckoutSession env event.object "subscription" entry.currency none = none)
    (hok : grantPlan env user plan entry event db = .ok db') :
    (claimProviderObject .checkoutSession event.object.id "stripe" db = none ∧ db' = db) ∨
    ∃ claimed k sub opened granted,
      claimProviderObject .checkoutSession event.object.id "stripe" db = some claimed ∧
      openSubscription user plan event.object (providerEventTime event) claimed =
        .ok (k, sub, opened) ∧
      grantBundle env user plan entry event.object (applyPendingPeriod k sub opened).1
        (applyPendingPeriod k sub opened).2 = .ok granted ∧
      db' = announceSubscription (applyPendingPeriod k sub opened).1 granted := by
  simp only [grantPlan, hagreed] at hok
  split at hok
  · rename_i hnone
    exact Or.inl ⟨hnone, (Except.ok.inj hok).symm⟩
  · rename_i claimed hclaimed
    split at hok
    · cases hok
    · rename_i k sub opened hopened
      split at hok
      · cases hok
      · rename_i granted hgranted
        exact Or.inr ⟨claimed, k, sub, opened, granted, hclaimed, hopened, hgranted,
          (Except.ok.inj hok).symm⟩

/-- The key of the row a checkout writes: the user's, or the next. -/
def Db.userKey (db : Db) (user : UserId) : ℕ :=
  match db.subscriptions.find? fun sub => sub.user = some user with
  | some (k, _) => k
  | none => db.subscriptions.next

/-- **What opening a subscription does**: it writes the checkout's values over the user's
row, which it makes where there is none. -/
theorem openSubscription_ok {obj : CheckoutSession} {t : Option Time} {k : ℕ} {sub : Subscription}
    (h : openSubscription user plan obj t db = .ok (k, sub, db')) :
    ¬ db.IdsTaken user obj.subscription obj.customer ∧ k = db.userKey user ∧
      sub = checkoutDefaults plan obj t (db.userRow user) ∧
      (∃ subscriptions, db' = { db with subscriptions }) ∧
      ∀ j, db'.subscriptions.get? j = if j = k then some sub else db.subscriptions.get? j := by
  unfold openSubscription at h
  split at h
  · cases h
  · rename_i htaken
    refine ⟨htaken, ?_⟩
    unfold Db.userKey Db.userRow
    cases hfind : db.subscriptions.find? fun sub => sub.user = some user with
    | some r =>
      obtain ⟨k', existing⟩ := r
      rw [hfind] at h
      obtain ⟨rfl, hrest⟩ := Prod.mk.inj (Except.ok.inj h)
      obtain ⟨rfl, rfl⟩ := Prod.mk.inj hrest
      refine ⟨rfl, rfl, ⟨_, rfl⟩, fun j => ?_⟩
      rw [Table.get?_modify]
      by_cases hj : j = k'
      · rw [if_pos hj, if_pos hj, hj, (Table.find?_some hfind).1]
        rfl
      · rw [if_neg hj, if_neg hj]
    | none =>
      rw [hfind] at h
      obtain ⟨rfl, hrest⟩ := Prod.mk.inj (Except.ok.inj h)
      obtain ⟨rfl, rfl⟩ := Prod.mk.inj hrest
      exact ⟨rfl, rfl, ⟨_, rfl⟩, fun j => Table.get?_insert _ _ _⟩

/-! ## The parked period -/

/-- Is what is parked older than what the row has seen? -/
def PendingSubscriptionPeriod.IsStale (pending : PendingSubscriptionPeriod) (sub : Subscription) :
    Prop :=
  ∃ t ∈ pending.providerEventAt, ∃ last ∈ sub.lastProviderEventAt, t < last

instance (pending : PendingSubscriptionPeriod) : DecidablePred pending.IsStale :=
  fun sub => by unfold PendingSubscriptionPeriod.IsStale; infer_instance

/-- A parked status that is not stale, with its time, over a row that has taken the period. -/
theorem PendingSubscriptionPeriod.applyTo_eq (pending : PendingSubscriptionPeriod)
    (sub : Subscription) : pending.applyTo sub =
      if pending.IsStale sub then periodEdit pending.currentPeriodStart pending.currentPeriodEnd sub
      else
        let middle := periodEdit pending.currentPeriodStart pending.currentPeriodEnd sub
        let mapped := (mapStripeStatus (some pending.status) (some middle.1.status)).getD middle.1.status
        let second : Edited :=
          if mapped ≠ middle.1.status then
            ({ middle.1 with status := mapped }, middle.2 ++ [.status])
          else middle
        ((advanceProviderClock pending.providerEventAt second.1).1,
          second.2 ++ (advanceProviderClock pending.providerEventAt second.1).2) := by
  by_cases hstale : pending.IsStale sub
  · have hstale' := hstale
    unfold IsStale at hstale'
    simp only [applyTo, if_pos hstale, hstale', decide_true, if_true]
    rfl
  · have hstale' := hstale
    unfold IsStale at hstale'
    simp only [applyTo, if_neg hstale, hstale', decide_false, Bool.false_eq_true, if_false]
    rfl

/-- What a parked period makes of a row, column by column. -/
theorem PendingSubscriptionPeriod.applyTo_fst (pending : PendingSubscriptionPeriod)
    (sub : Subscription) : (pending.applyTo sub).1 = { sub with
      currentPeriodStart := pending.currentPeriodStart.or sub.currentPeriodStart
      currentPeriodEnd := pending.currentPeriodEnd.or sub.currentPeriodEnd
      status := if pending.IsStale sub then sub.status
        else (mapStripeStatus (some pending.status) (some sub.status)).getD sub.status
      lastProviderEventAt := if pending.IsStale sub then sub.lastProviderEventAt
        else later sub.lastProviderEventAt pending.providerEventAt } := by
  rw [applyTo_eq]
  by_cases hstale : pending.IsStale sub
  · simp only [if_pos hstale, periodEdit_fst]
  · simp only [if_neg hstale, advanceProviderClock_fst]
    split
    · simp only [periodEdit_fst]
    · rename_i hsame
      rw [not_not] at hsame
      rw [periodEdit_fst] at hsame ⊢
      dsimp only at hsame ⊢
      rw [hsame]

theorem PendingSubscriptionPeriod.applyTo_names (pending : PendingSubscriptionPeriod)
    (sub : Subscription) : Edited.Names sub (pending.applyTo sub) := by
  have hperiod := periodEdit_names pending.currentPeriodStart pending.currentPeriodEnd sub
  rw [applyTo_eq]
  split
  · exact hperiod
  · refine Edited.Names.append ?_ (advanceProviderClock_names _ _)
    split
    · exact hperiod.set .status rfl rfl fun g hg => by
        cases g <;> first | rfl | exact absurd rfl hg
    · exact hperiod

/-- The row once what is parked for it is applied. -/
def Subscription.withParked (sub : Subscription) (parked : Option PendingSubscriptionPeriod) :
    Subscription :=
  match parked with
  | none => sub
  | some pending => (pending.applyTo sub).1

/-- **Applying what is parked** leaves the row with it, no other row changed, and nothing
parked. -/
theorem applyPendingPeriod_row {id : String} {k : ℕ} {sub : Subscription} (hne : id ≠ "")
    (hid : sub.stripeSubscriptionId = some id) (hk : db.subscriptions.get? k = some sub) :
    (applyPendingPeriod k sub db).1 = sub.withParked (db.parked id) ∧
      (∀ j, (applyPendingPeriod k sub db).2.subscriptions.get? j =
        if j = k then some (sub.withParked (db.parked id)) else db.subscriptions.get? j) ∧
      (applyPendingPeriod k sub db).2.parked id = none := by
  unfold applyPendingPeriod
  rw [hid, nonempty_of_ne hne]
  dsimp only
  cases hfind : db.pendingPeriods.find? fun pending => pending.stripeSubscriptionId = id with
  | none =>
    have hparked : db.parked id = none := by rw [Db.parked, hfind, Option.map_none]
    rw [hparked]
    refine ⟨rfl, fun j => ?_, rfl⟩
    by_cases hj : j = k
    · rw [if_pos hj, hj, hk]
      rfl
    · rw [if_neg hj]
  | some r =>
    obtain ⟨i, pending⟩ := r
    have hparked : db.parked id = some pending := by rw [Db.parked, hfind, Option.map_some]
    rw [hparked]
    dsimp only
    have hnames := pending.applyTo_names sub
    refine ⟨rfl, fun j => ?_, ?_⟩
    · have hsaved := saveSubscription_get? k db hk hnames j
      by_cases hchanged : (pending.applyTo sub).2 = []
      · rw [if_pos hchanged]
        have hsame : (pending.applyTo sub).1 = sub := by
          rw [← hnames.saved, hchanged]
          rfl
        by_cases hj : j = k
        · rw [if_pos hj, hj, hk, Subscription.withParked, hsame]
        · rw [if_neg hj]
      · rw [if_neg hchanged]
        simp only [stampSubscriptionPeriod_subscriptions]
        exact hsaved
    · have hgone : (db.pendingPeriods.filter fun pending => ¬ pending.stripeSubscriptionId = id).find?
          (fun pending => pending.stripeSubscriptionId = id) = none :=
        Table.find?_filter_none fun _ h => h
      split
      · exact congrArg (Option.map Prod.snd) hgone
      · have hpending : ∀ (sub : Subscription) (db : Db),
            (stampSubscriptionPeriod sub db).pendingPeriods = db.pendingPeriods := by
          intro sub db
          unfold stampSubscriptionPeriod
          split <;> rfl
        simp only [Db.parked, hpending]
        exact congrArg (Option.map Prod.snd) hgone

/-- A bundle leaves the rows and the stash alone. -/
theorem grantBundle_rows {obj : CheckoutSession} {sub : Subscription}
    (h : grantBundle env user plan entry obj sub db = .ok db') :
    db'.subscriptions = db.subscriptions ∧ db'.pendingPeriods = db.pendingPeriods := by
  unfold grantBundle at h
  split at h
  · obtain rfl := Except.ok.inj h
    exact ⟨rfl, rfl⟩
  · dsimp only at h
    split at h
    · cases h
    · rename_i txn granted hcredit
      obtain rfl := Except.ok.inj h
      have hsame := (credit_moves hcredit).elsewhere
      exact ⟨hsame.subscriptions, hsame.pendingPeriods⟩

/-- A checkout of a subscription that is taken up: a plan is sold, its subscription is named,
and the session has not been claimed. -/
structure FirstCheckout (env : Env) (obj : CheckoutSession) (db : Db) (user : UserId) (plan : String)
    (entry : PlanCatalogEntry) (id : String) : Prop extends
    SubscriptionCheckout env obj db user plan entry where
  named : id ≠ ""
  subscription : obj.subscription = some id
  unclaimed : claimProviderObject .checkoutSession obj.id "stripe" db ≠ none

/-- **What a subscription checkout leaves**: the user's row under the checkout's plan and ids
with what was parked for it, no other row changed, and nothing parked. -/
theorem FirstCheckout.row {id : String} (h : FirstCheckout env event.object db user plan entry id)
    (hok : handleCheckoutCompleted env event db = .ok db') :
    ¬ db.IdsTaken user event.object.subscription event.object.customer ∧
    (∀ j, db'.subscriptions.get? j = if j = db.userKey user then
      some ((checkoutDefaults plan event.object (providerEventTime event) (db.userRow user)).withParked
        (db.parked id)) else db.subscriptions.get? j) ∧
    db'.parked id = none := by
  rw [h.toSubscriptionCheckout.handle] at hok
  rcases grantPlan_ok h.agreed hok with ⟨hnone, -⟩ | ⟨claimed, k, sub, opened, granted, hclaimed,
    hopened, hgranted, rfl⟩
  · exact absurd hnone h.unclaimed
  · obtain ⟨ext, -, -, -, rfl⟩ := claimProviderObject_some hclaimed
    obtain ⟨htaken, rfl, rfl, ⟨subscriptions, rfl⟩, hrows⟩ := openSubscription_ok hopened
    obtain ⟨hsubs, hpending⟩ := grantBundle_rows hgranted
    have hid : (checkoutDefaults plan event.object (providerEventTime event)
        (db.userRow user)).stripeSubscriptionId = some id := by
      unfold checkoutDefaults
      split <;> exact h.subscription
    obtain ⟨-, hget, hparked⟩ := applyPendingPeriod_row h.named hid
      ((hrows _).trans (if_pos rfl))
    refine ⟨htaken, fun j => ?_, ?_⟩
    · have hj : granted.subscriptions.get? j = _ := (congrArg (fun t => t.get? j) hsubs).trans (hget j)
      by_cases hkey : j = db.userKey user
      · rw [if_pos hkey]
        exact hj.trans (if_pos hkey)
      · rw [if_neg hkey]
        exact hj.trans ((if_neg hkey).trans ((hrows j).trans (if_neg hkey)))
    · exact (congrArg (fun t : Table PendingSubscriptionPeriod =>
        (t.find? fun pending => pending.stripeSubscriptionId = id).map Prod.snd) hpending).trans hparked

end Checkout

/-! ## A first checkout -/

/-- A session that sells the plan `pro` under `sub_1`. -/
def proSession : CheckoutSession where
  id := some "cs_1"
  userId := some 1
  plan := some "pro"
  mode := some "subscription"
  paymentStatus := some "paid"
  currency := some "USD"
  customer := some "cus_1"
  subscription := some "sub_1"

/-- Its checkout, of second ten. -/
def proCheckout : ProviderEvent CheckoutSession where
  id := some "evt_0"
  type := "checkout.session.completed"
  created := some 10
  object := proSession

/-- The catalogue's plan. -/
def proEntry : PlanCatalogEntry where
  slug := "pro"
  name := "Pro"
  priceCents := 1500
  monthlyCreditsIncluded := 300

/-- A user without any row. -/
def newBuyer : Db := { users := [1] }

theorem proCheckout_sells (now : Time) {db : Db} (hbuyer : checkoutBuyer proSession db = some 1) :
    SubscriptionCheckout (Env.plain now) proSession db 1 "pro" proEntry where
  buyer := hbuyer
  noPackage := rfl
  sells := rfl
  listed := rfl
  agreed := reconcileCheckoutSession_agreed rfl rfl rfl

theorem proCheckout_first (now : Time) :
    FirstCheckout (Env.plain now) proSession newBuyer 1 "pro" proEntry "sub_1" where
  toSubscriptionCheckout := proCheckout_sells now (by decide)
  named := by decide
  subscription := rfl
  unclaimed := by decide

/-- What a call that returns leaves. -/
theorem exists_of_toOption {ε α β : Type} {x : Except ε α} {f : α → Option β} {v : β}
    (h : x.toOption.bind f = some v) : ∃ a, x = .ok a ∧ f a = some v := by
  cases x with
  | error e => cases h
  | ok a => exact ⟨a, rfl, h⟩

end StapelBilling
