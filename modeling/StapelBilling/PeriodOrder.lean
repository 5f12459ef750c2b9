import StapelBilling.BundlePeriod

/-! # The period of a first bundle

A checkout and an update of its subscription, in either order.  When the update comes first
its period reaches row and bundle through the stash, or through the row the user already had.
When it comes second it has to pass the guard against older events, and of the lots only the
undated ones that still hold something are dated.
-/
namespace StapelBilling
open Store

/-! ## Rows and lots an update reaches -/

section Reached
variable {id : String} {db : Db} {user : UserId} {sub : Subscription}

/-- A checkout that is let through finds its ids on no other user's row. -/
theorem not_idsTaken {subscription customer : Option String}
    (h : ¬ db.IdsTaken user subscription customer) {k : ℕ} {row : Subscription}
    (hk : db.subscriptions.get? k = some row) (huser : row.user ≠ some user) :
    (nonempty subscription ≠ none → row.stripeSubscriptionId ≠ subscription) ∧
      (nonempty customer ≠ none → row.stripeCustomerId ≠ customer) := by
  unfold Db.IdsTaken at h
  have hnone := Table.find?_none (Option.not_isSome_iff_eq_none.mp h) hk
  refine ⟨fun hne heq => hnone ⟨huser, Or.inl ⟨hne, heq⟩⟩, fun hne heq => hnone ⟨huser, Or.inr ⟨hne, heq⟩⟩⟩

/-- **Dating a lot.** -/
theorem stampSubscriptionPeriod_lot {finish : Time} (hfinish : sub.currentPeriodEnd = some finish)
    (hid : sub.stripeSubscriptionId = some id) (hne : id ≠ "") (j : ℕ) :
    (stampSubscriptionPeriod sub db).lots.get? j = (db.lots.get? j).map fun lot =>
      if Undated sub id db lot then { lot with expiresAt := some finish } else lot := by
  unfold stampSubscriptionPeriod
  rw [hfinish, hid, nonempty_of_ne hne]
  exact Table.get?_update _ _ _

/-- **What an event about a bound row does to lots**: one that is not stale and carries an end
of the period dates what is undated. -/
theorem LifecycleEvent.handle_lot {e : LifecycleEvent} {env : Env} {k : ℕ} {finish : Time}
    (h : db.BoundTo id k) (hid : e.object.id = some id) (hk : db.subscriptions.get? k = some sub)
    (hfinish : (stripePeriod e.object).2 = some finish) (j : ℕ) :
    (e.handle env db).lots.get? j = (db.lots.get? j).map fun lot =>
      if ¬ e.IsStale sub ∧ Undated sub id db lot then { lot with expiresAt := some finish }
      else lot := by
  rw [e.handle_eq, h.resolve hid hk]
  dsimp only
  by_cases hstale : e.IsStale sub
  · rw [if_pos hstale]
    simp only [not_true_eq_false, false_and, if_false, Option.map_id', hstale]
  · rw [if_neg hstale]
    obtain ⟨row, hk', hrow⟩ := h.row
    obtain rfl := Option.some.inj (hk.symm.trans hk')
    have hend : (e.edit env sub).1.currentPeriodEnd = some finish := by
      rw [e.edit_fst, hfinish]
      rfl
    have hedited : (e.edit env sub).1.stripeSubscriptionId = some id := by
      rw [e.edit_fst]
      exact hrow
    refine (stampSubscriptionPeriod_lot hend hedited h.named j).trans ?_
    refine congrArg (fun f => (db.lots.get? j).map f) (funext fun lot => ?_)
    refine if_congr ?_ rfl rfl
    rw [and_iff_right hstale]
    unfold Undated
    rw [e.edit_fst]
    exact Iff.rfl

/-- What a saved event leaves alone. -/
theorem applyLifecycle_frame (k : ℕ) (edited : Edited) (db : Db) :
    (applyLifecycle k edited db).users = db.users ∧
      (applyLifecycle k edited db).providerGrants = db.providerGrants ∧
      (applyLifecycle k edited db).pendingPeriods = db.pendingPeriods := by
  unfold applyLifecycle announceSubscription stampSubscriptionPeriod
  split <;> exact ⟨rfl, rfl, rfl⟩

/-- The user's row is the one that carries the user. -/
theorem userRow_of_unique {k : ℕ} (hk : db.subscriptions.get? k = some sub)
    (huser : sub.user = some user)
    (honly : ∀ j row, db.subscriptions.get? j = some row → row.user = some user → j = k) :
    db.userKey user = k ∧ db.userRow user = sub := by
  have hfind : db.subscriptions.find? (fun row => row.user = some user) = some (k, sub) :=
    Table.find?_eq_some_of_unique hk huser honly
  unfold Db.userKey Db.userRow
  rw [hfind]
  exact ⟨rfl, rfl⟩

theorem futureOrNone_eq_some {now t : Time} {value : Option Time} :
    futureOrNone now value = some t ↔ value = some t ∧ now < t := by
  cases value with
  | none => simp [futureOrNone]
  | some e =>
    by_cases hlt : now < e
    · simp only [futureOrNone, if_pos hlt, Option.some.injEq]
      exact ⟨fun he => ⟨he, he ▸ hlt⟩, fun h => h.1⟩
    · simp only [futureOrNone, if_neg hlt, Option.some.injEq]
      exact ⟨nofun, fun ⟨he, hnow⟩ => absurd (he ▸ hnow) hlt⟩

/-- A deadline that is still ahead, or none, is not due. -/
theorem not_dueAt_futureOrNone {now : Time} {value : Option Time} :
    ¬ dueAt now (futureOrNone now value) := by
  cases hvalue : futureOrNone now value with
  | none => exact id
  | some e => exact not_le.mpr (futureOrNone_eq_some.mp hvalue).2

theorem userRow_user (db : Db) (user : UserId) : (db.userRow user).user = some user := by
  unfold Db.userRow
  cases hfind : db.subscriptions.find? fun sub => sub.user = some user with
  | none => rfl
  | some r => exact (Table.find?_some hfind).2

end Reached

/-! ## A first period -/

/-- A checkout of a user without a provider subscription, and a lifecycle event of the
subscription it opens that carries an end of the period still ahead.  The event names no
other user's row, and nothing is parked for the subscription. -/
structure FirstPeriod (env : Env) (checkout : ProviderEvent CheckoutSession)
    (update : LifecycleEvent) (db : Db) (user : UserId) (plan : String)
    (entry : PlanCatalogEntry) (id : String) (finish : Time) : Prop extends
    FirstCheckout env checkout.object db user plan entry id where
  unique : db.SubscriptionsUnique
  unsubscribed : ∀ k row, db.subscriptions.get? k = some row → row.user = some user →
    nonempty row.stripeSubscriptionId = none ∧ row.lastProviderEventAt = none
  about : update.object.id = some id
  ofUser : ∀ k row, db.subscriptions.get? k = some row → row.user ≠ some user →
    (nonempty update.object.customer ≠ none → row.stripeCustomerId ≠ update.object.customer) ∧
      (update.object.userId ≠ none → row.user ≠ update.object.userId)
  nothingParked : db.parked id = none
  carries : (stripePeriod update.object).2 = some finish
  ahead : env.now < finish

/-- **The period has survived**: the subscription's row ends with it, and what the deliveries
granted dies with it. -/
structure Db.HasPeriod (db db' : Db) (id : String) (finish : Time) : Prop where
  row : ∃ sub, db'.rowOf id = some sub ∧ sub.currentPeriodEnd = some finish
  bundle : ∀ k lot, db.lots.get? k = none → db'.lots.get? k = some lot → lot.expiresAt = some finish

/-- The row a checkout leaves when nothing is parked for its subscription. -/
def openedRow (checkout : ProviderEvent CheckoutSession) (user : UserId) (plan : String) (db : Db) :
    Subscription :=
  checkoutDefaults plan checkout.object (providerEventTime checkout) (db.userRow user)

section Orders
variable {env : Env} {checkout : ProviderEvent CheckoutSession}
  {update : LifecycleEvent} {db db' : Db} {user : UserId} {plan id : String}
  {entry : PlanCatalogEntry} {finish : Time}

theorem checkoutDefaults_finish {obj : CheckoutSession} {event : Option Time} {sub : Subscription} :
    (checkoutDefaults plan obj event sub).currentPeriodEnd = sub.currentPeriodEnd := by
  unfold checkoutDefaults
  split <;> rfl

theorem checkoutDefaults_user {obj : CheckoutSession} {event : Option Time} {sub : Subscription} :
    (checkoutDefaults plan obj event sub).user = sub.user := by
  unfold checkoutDefaults
  split <;> rfl

/-- Only the user's row can carry the subscription. -/
theorem FirstPeriod.only (h : FirstPeriod env checkout update db user plan entry id finish)
    (hfree : ¬ db.IdsTaken user checkout.object.subscription checkout.object.customer) {j : ℕ}
    {row : Subscription} (hj : db.subscriptions.get? j = some row) :
    row.stripeSubscriptionId ≠ some id := by
  intro hid
  by_cases huser : row.user = some user
  · have hnone := (h.unsubscribed j row hj huser).1
    rw [hid, nonempty_of_ne h.named] at hnone
    cases hnone
  · refine (not_idsTaken hfree hj huser).1 ?_ (hid.trans h.subscription.symm)
    rw [h.subscription, nonempty_of_ne h.named]
    exact Option.some_ne_none id

/-- **The checkout first.**  The update is dropped when it is older than what the checkout
set the clock to, or of its second and behind the status it set; and a bundle is dated later
only if it was granted undated and the debts left something of it. -/
theorem FirstPeriod.direct_iff (h : FirstPeriod env checkout update db user plan entry id finish)
    (envUpdate : Env) (hok : handleCheckoutCompleted env checkout db = .ok db') :
    db.HasPeriod (update.handle envUpdate db') id finish ↔
      (db.userRow user).currentPeriodEnd = some finish ∨
      ¬ update.IsStale (openedRow checkout user plan db) ∧
        (entry.monthlyCreditsIncluded = 0 ∨
          futureOrNone env.now (db.userRow user).currentPeriodEnd = none ∧
          db.openOwed (lockWallet user db).1 < entry.monthlyCreditsIncluded +
            db.aheadOfGrant env (checkoutBundle env user plan entry checkout.object
              (openedRow checkout user plan db))) := by
  -- the checkout opens the row, so the event finds it by its id
  obtain ⟨hfree, hrows, -⟩ := h.toFirstCheckout.row hok
  rw [h.nothingParked] at hrows
  have hbound := h.toFirstCheckout.bound (fun _ _ hj hid => absurd hid (h.only hfree hj)) hok
  have hk : db'.subscriptions.get? (db.userKey user) = some (openedRow checkout user plan db) :=
    (hrows _).trans (if_pos rfl)
  have hreached : (update.handle envUpdate db').rowOf id =
      some (update.receive envUpdate (openedRow checkout user plan db)) := by
    refine (LifecycleEvent.bound_handle hbound envUpdate h.about).rowOf ?_
    rw [LifecycleEvent.handle_bound hbound envUpdate h.about, if_pos rfl, hk, Option.map_some]
  have hend : (update.receive envUpdate
      (openedRow checkout user plan db)).currentPeriodEnd =
      if update.IsStale (openedRow checkout user plan db) then
        (db.userRow user).currentPeriodEnd else some finish := by
    unfold LifecycleEvent.receive
    split
    · exact checkoutDefaults_finish
    · rw [LifecycleEvent.edit_fst, h.carries]
      rfl
  -- the event may date the bundle as well, which is the one new lot
  have hlot := @LifecycleEvent.handle_lot _ _ _ update envUpdate _ _ hbound h.about hk h.carries
  have hrow : openedRow checkout user plan db = (checkoutDefaults plan checkout.object
      (providerEventTime checkout) (db.userRow user)).withParked (db.parked id) := by
    rw [h.nothingParked]
    rfl
  obtain ⟨hnothing, hsome⟩ := h.toFirstCheckout.bundle hok hrow
  have hopened : (openedRow checkout user plan db).currentPeriodEnd =
      (db.userRow user).currentPeriodEnd := checkoutDefaults_finish
  by_cases hzero : entry.monthlyCreditsIncluded = 0
  · -- Nothing is granted, and it is all about the row.
    have hno := hnothing hzero
    constructor
    · rintro ⟨⟨sub, hsub, hfinal⟩, -⟩
      obtain rfl := Option.some.inj (hreached.symm.trans hsub)
      rw [hend] at hfinal
      by_cases hstale : update.IsStale (openedRow checkout user plan db)
      · rw [if_pos hstale] at hfinal
        exact Or.inl hfinal
      · exact Or.inr ⟨hstale, Or.inl hzero⟩
    · intro hcond
      refine ⟨⟨_, hreached, ?_⟩, fun j lot hj hlot' => ?_⟩
      · rw [hend]
        split
        · rename_i hstale
          exact hcond.resolve_right fun h => h.1 hstale
        · rfl
      · rw [hlot, hno j hj] at hlot'
        cases hlot'
  · obtain ⟨⟨lot, hget, hdeadline, hsource, ⟨wallet, hwallet, huser⟩, hgrant, hkept⟩, hother⟩ :=
      hsome hzero
    rw [hopened] at hdeadline
    -- the event dates the bundle when it is undated and credits of it are left
    have hundated : Undated (openedRow checkout user plan db) id db' lot ↔
        futureOrNone env.now (db.userRow user).currentPeriodEnd = none ∧
          db.openOwed (lockWallet user db).1 < entry.monthlyCreditsIncluded +
            db.aheadOfGrant env (checkoutBundle env user plan entry checkout.object
              (openedRow checkout user plan db)) := by
      have howner : (openedRow checkout user plan db).user = some user :=
        checkoutDefaults_user.trans (userRow_user db user)
      constructor
      · rintro ⟨-, -, hnone, hpos, -⟩
        exact ⟨hdeadline.symm.trans hnone, (hkept h.nothingParked).mp hpos⟩
      · rintro ⟨hnone, hleft⟩
        refine ⟨⟨wallet, hwallet, huser.trans howner.symm⟩, hsource, hdeadline.trans hnone,
          (hkept h.nothingParked).mpr hleft, ?_⟩
        obtain ⟨g, row, hg, hrow, hmeta⟩ := hgrant
        exact ⟨g, hg, row, hrow, hmeta⟩
    have hbundle : (update.handle envUpdate db').lots.get? db.lots.next = some
        (if ¬ update.IsStale (openedRow checkout user plan db) ∧
            Undated (openedRow checkout user plan db) id db' lot then
          { lot with expiresAt := some finish } else lot) := by
      rw [hlot, hget]
      rfl
    constructor
    · rintro ⟨⟨sub, hsub, hfinal⟩, hdated⟩
      obtain rfl := Option.some.inj (hreached.symm.trans hsub)
      have hdate := hdated db.lots.next _ (Table.get?_next _) hbundle
      rw [hend] at hfinal
      by_cases hstale : update.IsStale (openedRow checkout user plan db)
      · rw [if_pos hstale] at hfinal
        exact Or.inl hfinal
      · by_cases hund : Undated (openedRow checkout user plan db) id db' lot
        · exact Or.inr ⟨hstale, Or.inr (hundated.mp hund)⟩
        · rw [if_neg fun h => hund h.2, hdeadline] at hdate
          exact Or.inl (futureOrNone_eq_some.mp hdate).1
    · intro hcond
      refine ⟨⟨_, hreached, ?_⟩, fun j lot' hj hlot' => ?_⟩
      · rw [hend]
        split
        · rename_i hstale
          exact hcond.resolve_right fun h => h.1 hstale
        · rfl
      · by_cases hne : j = db.lots.next
        · rw [hne, hbundle] at hlot'
          obtain rfl := Option.some.inj hlot'
          rcases hcond with hsame | ⟨hstale, hkeeps⟩
          · have hdated : lot.expiresAt = some finish :=
              hdeadline.trans (futureOrNone_eq_some.mpr ⟨hsame, h.ahead⟩)
            split
            · rfl
            · exact hdated
          · rw [if_pos ⟨hstale, hundated.mpr (hkeeps.resolve_left hzero)⟩]
        · rw [hlot, hother j hj hne] at hlot'
          cases hlot'

/-- A checkout that leaves the row with the period, from wherever the period came. -/
theorem FirstCheckout.hasPeriod {before : Db}
    (h : FirstCheckout env checkout.object before user plan entry id)
    (honly : ∀ j row, before.subscriptions.get? j = some row → row.stripeSubscriptionId = some id →
      j = before.userKey user)
    (hlots : ∀ j, db.lots.get? j = none → before.lots.get? j = none)
    (hend : ((openedRow checkout user plan before).withParked
      (before.parked id)).currentPeriodEnd = some finish) (hnow : env.now < finish)
    (hok : handleCheckoutCompleted env checkout before = .ok db') : db.HasPeriod db' id finish := by
  obtain ⟨-, hrows, -⟩ := h.row hok
  have hrow := (h.bound honly hok).rowOf ((hrows _).trans (if_pos rfl))
  refine ⟨⟨_, hrow, hend⟩, fun j lot hj hlot => ?_⟩
  obtain ⟨hnothing, hsome⟩ := h.bundle hok rfl
  by_cases hzero : entry.monthlyCreditsIncluded = 0
  · rw [hnothing hzero j (hlots j hj)] at hlot
    cases hlot
  · obtain ⟨⟨granted, hget, hdeadline, -⟩, hother⟩ := hsome hzero
    by_cases hne : j = before.lots.next
    · rw [hne, hget] at hlot
      obtain rfl := Option.some.inj hlot
      exact hdeadline.trans (futureOrNone_eq_some.mpr ⟨hend, hnow⟩)
    · rw [hother j (hlots j hj) hne] at hlot
      cases hlot

/-- An event that finds the user's own row leaves it with the subscription and its period. -/
theorem FirstPeriod.own_row (h : FirstPeriod env checkout update db user plan entry id finish)
    (hfree : ¬ db.IdsTaken user checkout.object.subscription checkout.object.customer)
    {envUpdate : Env} {k : ℕ} {sub : Subscription} {customer : Option String}
    (hk : db.subscriptions.get? k = some sub) (huser : sub.user = some user)
    (hresolve : resolveLocalSubscription update.object db =
      (some (k, (adoptIds update.object.id customer sub).1),
        saveSubscription k (adoptIds update.object.id customer sub).1
          (adoptIds update.object.id customer sub).2 db))
    (hok : handleCheckoutCompleted env checkout (update.handle envUpdate db) = .ok db') :
    db.HasPeriod db' id finish := by
  -- the event adopts the row; it has no clock yet, so the event is not stale
  obtain ⟨hnoId, hclock⟩ := h.unsubscribed k sub hk huser
  have hadopted := @adoptIds_names update.object.id customer sub
  have hid : (adoptIds update.object.id customer sub).1.stripeSubscriptionId = some id := by
    rw [adoptIds_fst, h.about]
    refine if_pos ⟨?_, hnoId⟩
    rw [nonempty_of_ne h.named]
    rfl
  have howner : (adoptIds update.object.id customer sub).1.user = some user := by
    rw [adoptIds_fst]
    exact huser
  have hfresh : ¬ update.IsStale (adoptIds update.object.id customer sub).1 := by
    have hnone : (adoptIds update.object.id customer sub).1.lastProviderEventAt = none := by
      rw [adoptIds_fst]
      exact hclock
    unfold LifecycleEvent.IsStale isStaleLifecycleEvent
    rw [hnone]
    simp
  have hhandle : update.handle envUpdate db = applyLifecycle k
      (update.edit envUpdate (adoptIds update.object.id customer sub).1)
      (saveSubscription k (adoptIds update.object.id customer sub).1
        (adoptIds update.object.id customer sub).2 db) := by
    rw [update.handle_eq, hresolve]
    exact if_neg hfresh
  have hsaved := saveSubscription_get? k db hk hadopted
  have hrows : ∀ j, (update.handle envUpdate db).subscriptions.get? j = if j = k then
      some (update.edit envUpdate (adoptIds update.object.id customer sub).1).1
      else db.subscriptions.get? j := by
    intro j
    rw [hhandle, applyLifecycle_get? k _ ((hsaved k).trans (if_pos rfl)) (update.edit_names _ _)]
    split
    · rfl
    · rename_i hj
      rw [hsaved, if_neg hj]
  have hedited : (update.edit envUpdate (adoptIds update.object.id customer sub).1).1.user =
      some user := by
    rw [update.edit_fst]
    exact howner
  -- it is the user's only row, and the checkout opens that one
  have honlyUser : ∀ j row, (update.handle envUpdate db).subscriptions.get? j = some row →
      row.user = some user → j = k := by
    intro j row hj hrow
    by_contra hne
    rw [hrows, if_neg hne] at hj
    exact hne (h.unique.user k j sub row hk hj (by rw [huser]; nofun) (huser.trans hrow.symm)).symm
  obtain ⟨hkey, hrow⟩ := userRow_of_unique ((hrows k).trans (if_pos rfl)) hedited honlyUser
  obtain ⟨husers, hclaims, hpending⟩ := applyLifecycle_frame k
    (update.edit envUpdate (adoptIds update.object.id customer sub).1)
    (saveSubscription k (adoptIds update.object.id customer sub).1
      (adoptIds update.object.id customer sub).2 db)
  rw [← hhandle] at husers hclaims hpending
  have hparked : (update.handle envUpdate db).parked id = none := by
    unfold Db.parked
    rw [hpending]
    exact h.nothingParked
  refine (h.toFirstCheckout.congr husers hclaims).hasPeriod ?_ ?_ ?_ h.ahead hok
  · intro j row hj hcarries
    rw [hkey]
    by_contra hne
    rw [hrows, if_neg hne] at hj
    exact h.only hfree hj hcarries
  · intro j hj
    rw [hhandle]
    exact stampSubscriptionPeriod_no_lot hj
  · rw [hparked]
    refine checkoutDefaults_finish.trans ?_
    rw [hrow, update.edit_fst, h.carries]
    rfl

/-- **The event first.**  Its period is parked, or saved on the row the user already has, and
either way the checkout takes it over. -/
theorem FirstPeriod.update_first (h : FirstPeriod env checkout update db user plan entry id finish)
    (hfree : ¬ db.IdsTaken user checkout.object.subscription checkout.object.customer)
    {envUpdate : Env}
    (hok : handleCheckoutCompleted env checkout (update.handle envUpdate db) = .ok db') :
    db.HasPeriod db' id finish := by
  have hspec := resolveLocalSubscription_resolved update.object db
  generalize hresolve : resolveLocalSubscription update.object db = r at hspec
  cases hspec with
  | byId k sub hfind =>
    obtain ⟨value, hvalue, hcol, hget⟩ := findSubscription_some hfind
    rw [h.about, nonempty_of_ne h.named] at hvalue
    exact absurd (hcol.trans hvalue.symm) (h.only hfree hget)
  | byCustomer k sub hnoId hfind =>
    obtain ⟨value, hvalue, hcol, hget⟩ := findSubscription_some hfind
    have hne : nonempty update.object.customer ≠ none := by rw [hvalue]; nofun
    by_cases huser : sub.user = some user
    · exact h.own_row hfree hget huser hresolve hok
    · exact absurd (hcol.trans (nonempty_eq_some hvalue).symm) ((h.ofUser k sub hget huser).1 hne)
  | byUser k sub hnoId hnoCustomer hfind =>
    obtain ⟨value, hvalue, hcol, hget⟩ := findSubscription_some hfind
    have hne : update.object.userId ≠ none := by rw [hvalue]; nofun
    by_cases huser : sub.user = some user
    · exact h.own_row hfree hget huser hresolve hok
    · exact absurd (hcol.trans hvalue.symm) ((h.ofUser k sub hget huser).2 hne)
  | nowhere hnoId hnoCustomer hnoUser =>
    have hunknown : db.Unknown update.object := congrArg Prod.fst hresolve
    have hstash := LifecycleEvent.handle_unknown envUpdate hunknown rfl
    obtain ⟨pendingPeriods, hdb⟩ := stashSubscriptionPeriod_eq update.object update.time db
    have hparked := @parked_stash _ _ update.time db h.about h.named
    rw [h.nothingParked] at hparked
    rw [hstash] at hok
    refine FirstCheckout.hasPeriod (h.toFirstCheckout.congr ?_ ?_) ?_ ?_ ?_ h.ahead hok
    · rw [hdb]
    · rw [hdb]
    · intro j row hj hcarries
      rw [stashSubscriptionPeriod_subscriptions] at hj
      exact absurd hcarries (h.only hfree hj)
    · intro j hj
      rw [hdb]
      exact hj
    · rw [hparked]
      unfold Subscription.withParked
      dsimp only
      rw [PendingSubscriptionPeriod.applyTo_fst]
      unfold parkedAfter PendingSubscriptionPeriod.over
      dsimp only
      rw [h.carries]
      rfl

/-- **The period survives both orders** exactly when the checkout's own row already ended with
it, or the event is not stale for the row the checkout wrote and the bundle is none, or was
granted undated and outlived the debts it was collected for. -/
theorem period_survives_iff (h : FirstPeriod env checkout update db user plan entry id finish)
    (envUpdate : Env) {dbCheckout dbUpdate : Db}
    (hcheckout : handleCheckoutCompleted env checkout db = .ok dbCheckout)
    (hupdate : handleCheckoutCompleted env checkout (update.handle envUpdate db) = .ok dbUpdate) :
    db.HasPeriod (update.handle envUpdate dbCheckout) id finish ∧ db.HasPeriod dbUpdate id finish ↔
      (db.userRow user).currentPeriodEnd = some finish ∨
      ¬ update.IsStale (openedRow checkout user plan db) ∧
        (entry.monthlyCreditsIncluded = 0 ∨
          futureOrNone env.now (db.userRow user).currentPeriodEnd = none ∧
          db.openOwed (lockWallet user db).1 < entry.monthlyCreditsIncluded +
            db.aheadOfGrant env (checkoutBundle env user plan entry checkout.object
              (openedRow checkout user plan db))) := by
  have hfree := (h.toFirstCheckout.row hcheckout).1
  rw [and_iff_left (h.update_first hfree hupdate)]
  exact h.direct_iff envUpdate hcheckout

end Orders

/-! ## A period lost -/

/-- The update of a second, with the period of a month that ends at second fifty. -/
def periodAt (created : ℚ) : LifecycleEvent :=
  .updated
    { id := some "evt_1"
      type := "customer.subscription.updated"
      created := some created
      object :=
        { id := some "sub_1"
          customer := some "cus_1"
          status := some "active"
          currentPeriodStart := some 1
          currentPeriodEnd := some 50 } }

theorem periodAt_first (created : ℚ) :
    FirstPeriod (Env.plain 11000000) proCheckout (periodAt created) newBuyer 1 "pro" proEntry "sub_1"
      50000000 where
  toFirstCheckout := proCheckout_first 11000000
  unique := ⟨fun _ _ _ _ h => Table.get?_empty_ne h, fun _ _ _ _ h => Table.get?_empty_ne h,
    fun _ _ _ _ h => Table.get?_empty_ne h⟩
  unsubscribed := fun _ _ h => Table.get?_empty_ne h
  about := rfl
  ofUser := fun _ _ h => Table.get?_empty_ne h
  nothingParked := rfl
  carries := by
    have hend : epochToDatetime (some 50) = some 50000000 := by decide +kernel
    exact hend
  ahead := by decide

/-- The checkout of second ten drops the update of second five. -/
theorem proCheckout_then_stalePeriod : ∃ db,
    handleCheckoutCompleted (Env.plain 11000000) proCheckout newBuyer = .ok db ∧
      (((periodAt 5).handle (Env.plain 0) db).rowOf "sub_1").map Subscription.currentPeriodEnd =
        some none := by
  rw [SubscriptionCheckout.handle_agreed (proCheckout_sells 11000000 (by decide))]
  exact exists_of_toOption (by decide +kernel)

theorem stalePeriod_then_proCheckout : ∃ db, handleCheckoutCompleted (Env.plain 11000000) proCheckout
    ((periodAt 5).handle (Env.plain 0) newBuyer) = .ok db ∧ some db.users = some [1] := by
  rw [SubscriptionCheckout.handle_agreed (proCheckout_sells 11000000 (by decide +kernel))]
  exact exists_of_toOption (by decide +kernel)

theorem period_then_proCheckout : ∃ db, handleCheckoutCompleted (Env.plain 11000000) proCheckout
    ((periodAt 20).handle (Env.plain 0) newBuyer) = .ok db ∧ some db.users = some [1] := by
  rw [SubscriptionCheckout.handle_agreed (proCheckout_sells 11000000 (by decide +kernel))]
  exact exists_of_toOption (by decide +kernel)

/-- **The older update's period is lost**: delivered after the checkout it is dropped whole,
and the row has no end of the period, where the stash would have brought it. -/
theorem stalePeriod_lost : ∃ dbCheckout dbUpdate,
    FirstPeriod (Env.plain 11000000) proCheckout (periodAt 5) newBuyer 1 "pro" proEntry "sub_1"
      50000000 ∧
    handleCheckoutCompleted (Env.plain 11000000) proCheckout newBuyer = .ok dbCheckout ∧
    handleCheckoutCompleted (Env.plain 11000000) proCheckout
      ((periodAt 5).handle (Env.plain 0) newBuyer) = .ok dbUpdate ∧
    ¬ (newBuyer.HasPeriod ((periodAt 5).handle (Env.plain 0) dbCheckout) "sub_1" 50000000 ∧
      newBuyer.HasPeriod dbUpdate "sub_1" 50000000) := by
  obtain ⟨dbCheckout, hcheckout, hrow⟩ := proCheckout_then_stalePeriod
  obtain ⟨dbUpdate, hupdate, -⟩ := stalePeriod_then_proCheckout
  refine ⟨dbCheckout, dbUpdate, periodAt_first 5, hcheckout, hupdate, ?_⟩
  rintro ⟨⟨⟨sub, hsub, hend⟩, -⟩, -⟩
  rw [hsub, Option.map_some, hend] at hrow
  cases hrow

/-- A newer update's period survives both orders. -/
theorem newerPeriod_survives : ∃ dbCheckout dbUpdate,
    handleCheckoutCompleted (Env.plain 11000000) proCheckout newBuyer = .ok dbCheckout ∧
    handleCheckoutCompleted (Env.plain 11000000) proCheckout
      ((periodAt 20).handle (Env.plain 0) newBuyer) = .ok dbUpdate ∧
    newBuyer.HasPeriod ((periodAt 20).handle (Env.plain 0) dbCheckout) "sub_1" 50000000 ∧
      newBuyer.HasPeriod dbUpdate "sub_1" 50000000 := by
  obtain ⟨dbCheckout, hcheckout, -⟩ := proCheckout_then_stalePeriod
  obtain ⟨dbUpdate, hupdate, -⟩ := period_then_proCheckout
  refine ⟨dbCheckout, dbUpdate, hcheckout, hupdate, ?_⟩
  refine (period_survives_iff (periodAt_first 20) (Env.plain 0) hcheckout hupdate).mpr
    (Or.inr ⟨by decide +kernel, Or.inr ⟨rfl, by decide +kernel⟩⟩)

end StapelBilling
