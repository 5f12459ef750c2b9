import StapelBilling.EventRace
import StapelBilling.OwnSubscription
import StapelBilling.PeriodOrder

/-! # Two checkouts of one user

A user buys two plans, one after the other, and the provider delivers both checkouts in any
order, again and again, with lifecycle events of the newer subscription in between.  Each
session is claimed, so each bundle is granted once.  The guard against older events keeps the
status of a row that has moved on; the plan and the ids of the row are written by every
checkout that is taken up, whatever its time.

* `takeUp`: which sessions a delivery leaves taken up, the last one first.
* `Db.TookUp`: what the tables say of the sessions taken up so far.
* `newer_checkout_stays_iff`: when the row is left with the newer plan.
-/
namespace StapelBilling
open Store

/-! ## What credits a session has brought -/

section Bundles
variable {env : Env} {w : ℕ} {db db' : Db} {session : String}

/-- The row grants credits of this checkout session. -/
def Transaction.Grants (session : String) (row : Transaction) : Prop :=
  0 < row.creditsDelta ∧ row.metadata .stripeSessionId = some (.str session)

instance (session : String) : DecidablePred (Transaction.Grants session) :=
  fun row => by unfold Transaction.Grants; infer_instance

/-- How often credits of a checkout session were granted. -/
def Db.bundlesOf (session : String) (db : Db) : ℤ :=
  db.transactions.sum fun _ row => if row.Grants session then 1 else 0

theorem bundlesOf_insert {rows : Table Transaction} {row : Transaction}
    (hrows : db'.transactions = rows.insert row) (hsame : db.transactions = rows) :
    db'.bundlesOf session = db.bundlesOf session + if row.Grants session then 1 else 0 := by
  unfold Db.bundlesOf
  rw [hrows, hsame, Table.sum_insert, add_comm]

/-- The moves of a credit besides its grant. -/
def Move.Settles : Move → Prop
  | .openWallet _ | .sync | .expire _ | .collect _ _ _ _ => True
  | _ => False

/-- What is swept and collected grants nothing. -/
theorem Step.bundlesOf {m : Move} (h : Step env w m db db') (hm : m.Settles) :
    db'.bundlesOf session = db.bundlesOf session := by
  cases h with
  | openWallet _ _ | sync => rfl
  | @expire _ k lot running _ _ hdue =>
    refine (@bundlesOf_insert db _ session _ _ rfl rfl).trans ?_
    rw [if_neg, add_zero]
    rintro ⟨hpos, -⟩
    have hneg : 0 < -lot.creditsRemaining := hpos
    have hleft := hdue.1
    omega
  | @collect _ k debt amount taken _ _ _ hamount _ _ _ =>
    refine (@bundlesOf_insert db _ session _ _ rfl rfl).trans ?_
    rw [if_neg, add_zero]
    rintro ⟨hpos, -⟩
    have hneg : 0 < -amount := hpos
    omega
  | _ => exact hm.elim

/-- **A credit without a key grants once.** -/
theorem credit_bundlesOf {args : CreditArgs} {t : ℕ} (h : credit env args db = .ok (t, db'))
    (hkey : args.idempotencyKey = "") : db'.bundlesOf session = db.bundlesOf session +
      if args.metadata .stripeSessionId = some (.str session) then 1 else 0 := by
  obtain ⟨w, db₁, hlock, hpos, -, hcase⟩ := credit_cases h
  have hopened : db₁.bundlesOf session = db.bundlesOf session :=
    Moves.invariant (I := fun d => d.bundlesOf session = db.bundlesOf session)
      (fun _ _ _ hm hI hs => (hs.bundlesOf hm).trans hI)
      (@lockWallet_moves env Move.Settles _ _ _ _ trivial hlock) rfl
  have hswept : (db₁.swept env w).bundlesOf session = db₁.bundlesOf session :=
    Moves.invariant (I := fun d => d.bundlesOf session = db₁.bundlesOf session)
      (fun _ _ _ hm hI hs => (hs.bundlesOf hm).trans hI)
      (expireDueLots_moves env w (P := Move.Settles) trivial (fun _ => trivial) db₁) rfl
  have hgrant : (grant env w args (db₁.swept env w)).bundlesOf session =
      (db₁.swept env w).bundlesOf session +
        if args.metadata .stripeSessionId = some (.str session) then 1 else 0 := by
    refine (bundlesOf_insert rfl rfl).trans (congrArg _ (if_congr ?_ rfl rfl))
    unfold Transaction.Grants keyedMetadata
    rw [if_pos hkey]
    exact and_iff_right hpos
  rcases hcase with ⟨row, hex, -⟩ | ⟨-, -, ⟨-, rfl⟩ | ⟨-, n, hsettle⟩⟩
  · unfold existingCall at hex
    rw [if_pos hkey] at hex
    cases hex
  · rw [hgrant, hswept, hopened]
  · have hsettled : db'.bundlesOf session =
        (grant env w args (db₁.swept env w)).bundlesOf session :=
      Moves.invariant (I := fun d => d.bundlesOf session =
          (grant env w args (db₁.swept env w)).bundlesOf session)
        (fun _ _ _ hm hI hs => (hs.bundlesOf hm).trans hI)
        (settleDebts_ok (P := Move.Settles) (fun _ _ _ _ => trivial) hsettle) rfl
    rw [hsettled, hgrant, hswept, hopened]

/-- Nothing outside the ledger grants. -/
theorem bundlesOf_congr (h : db'.transactions = db.transactions) :
    db'.bundlesOf session = db.bundlesOf session := by
  unfold Db.bundlesOf
  rw [h]

end Bundles

/-! ## What an event leaves of the rows -/

/-- `sub'` is `sub` with the user and the plan it had, and the ids it had unless they were
empty. -/
structure Subscription.Kept (sub sub' : Subscription) : Prop where
  user : sub'.user = sub.user
  plan : sub'.plan = sub.plan
  id : nonempty sub.stripeSubscriptionId ≠ none →
    sub'.stripeSubscriptionId = sub.stripeSubscriptionId
  customer : nonempty sub.stripeCustomerId ≠ none → sub'.stripeCustomerId = sub.stripeCustomerId

theorem adoptIds_kept (id customer : Option String) (sub : Subscription) :
    sub.Kept (adoptIds id customer sub).1 := by
  rw [adoptIds_fst]
  exact ⟨rfl, rfl, fun h => if_neg fun hadopt => h hadopt.2, fun h => if_neg fun hadopt => h hadopt.2⟩

theorem LifecycleEvent.receive_kept (env : Env) (e : LifecycleEvent) {sub adopted : Subscription}
    (h : sub.Kept adopted) : sub.Kept (e.receive env adopted) := by
  obtain ⟨hid, hcustomer, huser, hplan⟩ := e.receive_frame env adopted
  exact ⟨huser.trans h.user, hplan.trans h.plan, fun hne => hid.trans (h.id hne),
    fun hne => hcustomer.trans (h.customer hne)⟩

/-- The row carries a key of the object. -/
def SubscriptionObject.Names (obj : SubscriptionObject) (sub : Subscription) : Prop :=
  (nonempty obj.id ≠ none ∧ sub.stripeSubscriptionId = obj.id) ∨
    (nonempty obj.customer ≠ none ∧ sub.stripeCustomerId = obj.customer) ∨
      (obj.userId ≠ none ∧ sub.user = obj.userId)

/-- A key that finds a row by a non-empty text is on it. -/
theorem findSubscription_nonempty {text : Option String} {column : Subscription → Option String}
    {db : Db} {k : ℕ} {sub : Subscription}
    (h : findSubscription (nonempty text) column db = some (k, sub)) :
    nonempty text ≠ none ∧ column sub = text ∧ db.subscriptions.get? k = some sub := by
  obtain ⟨value, hvalue, hcolumn, hget⟩ := findSubscription_some h
  have hne : nonempty text ≠ none := by
    rw [hvalue]
    exact Option.some_ne_none value
  refine ⟨hne, ?_, hget⟩
  rw [hcolumn, ← hvalue, nonempty_of_ne_none hne]

/-- A row that is found, as it stands after adopting, and received. -/
theorem LifecycleEvent.handle_found {e : LifecycleEvent} (env : Env) {db found : Db} {k : ℕ}
    {sub : Subscription} (hresolve : resolveLocalSubscription e.object db = (some (k, sub), found))
    (hrows : ∀ j, found.subscriptions.get? j = if j = k then some sub else db.subscriptions.get? j)
    (j : ℕ) : (e.handle env db).subscriptions.get? j =
      if j = k then some (e.receive env sub) else db.subscriptions.get? j := by
  have hget : found.subscriptions.get? k = some sub := by rw [hrows, if_pos rfl]
  rw [e.handle_eq, hresolve]
  dsimp only
  unfold LifecycleEvent.receive
  by_cases hstale : e.IsStale sub
  · rw [if_pos hstale, if_pos hstale, hrows]
  · rw [if_neg hstale, if_neg hstale, applyLifecycle_get? k _ hget (e.edit_names env sub), hrows]
    split <;> rfl

/-- **What an event does to the rows**: nothing, or it rewrites one that carries a key of its
object, which keeps its user, its plan and the ids it had. -/
theorem LifecycleEvent.handle_rows (e : LifecycleEvent) (env : Env) (db : Db) :
    (∀ j, (e.handle env db).subscriptions.get? j = db.subscriptions.get? j) ∨
    ∃ k sub sub', db.subscriptions.get? k = some sub ∧ e.object.Names sub ∧ sub.Kept sub' ∧
      ∀ j, (e.handle env db).subscriptions.get? j =
        if j = k then some sub' else db.subscriptions.get? j := by
  have hspec := resolveLocalSubscription_resolved e.object db
  generalize hresolve : resolveLocalSubscription e.object db = r at hspec
  cases hspec with
  | byId k sub hfind =>
    obtain ⟨hne, hid, hk⟩ := findSubscription_nonempty hfind
    refine Or.inr ⟨k, sub, e.receive env sub, hk, Or.inl ⟨hne, hid⟩,
      e.receive_kept env ⟨rfl, rfl, fun _ => rfl, fun _ => rfl⟩, ?_⟩
    refine LifecycleEvent.handle_found env hresolve fun j => ?_
    by_cases hj : j = k
    · rw [if_pos hj, hj, hk]
    · rw [if_neg hj]
  | byCustomer k sub hnoId hfind =>
    obtain ⟨hne, hcustomer, hk⟩ := findSubscription_nonempty hfind
    exact Or.inr ⟨k, sub, _, hk, Or.inr (Or.inl ⟨hne, hcustomer⟩),
      e.receive_kept env (adoptIds_kept e.object.id none sub),
      LifecycleEvent.handle_found env hresolve
        (saveSubscription_get? k db hk (adoptIds_names e.object.id none sub))⟩
  | byUser k sub hnoId hnoCustomer hfind =>
    obtain ⟨user, huser, hcolumn, hk⟩ := findSubscription_some hfind
    have hne : e.object.userId ≠ none := by
      rw [huser]
      exact Option.some_ne_none user
    exact Or.inr ⟨k, sub, _, hk, Or.inr (Or.inr ⟨hne, hcolumn.trans huser.symm⟩),
      e.receive_kept env (adoptIds_kept e.object.id e.object.customer sub),
      LifecycleEvent.handle_found env hresolve
        (saveSubscription_get? k db hk (adoptIds_names e.object.id e.object.customer sub))⟩
  | nowhere hnoId hnoCustomer hnoUser =>
    refine Or.inl fun j => ?_
    rw [e.handle_eq, hresolve]
    dsimp only
    rw [stashSubscriptionPeriod_subscriptions]

/-! ## Two sales -/

/-- A checkout that sells a plan, with the ids it brings. -/
structure PlanSale where
  event : ProviderEvent CheckoutSession
  plan : String
  entry : PlanCatalogEntry
  id : String
  customer : String
  session : String

/-- The sale is one to this user under these settings, paid and as the catalogue has it. -/
structure PlanSale.To (settings : Settings) (user : UserId) (sale : PlanSale) : Prop where
  buyer : sale.event.object.userId = some user
  reference : ∀ reference ∈ sale.event.object.clientReferenceId, reference = user
  noPackage : (nonempty sale.event.object.package).bind settings.creditPackageBySlug = none
  sells : sale.event.object.plan = some sale.plan
  listed : settings.getPlan (some sale.plan) = some sale.entry
  agreed : ∀ env : Env, env.settings = settings →
    reconcileCheckoutSession env sale.event.object "subscription" sale.entry.currency none = none
  bundle : 0 ≤ sale.entry.monthlyCreditsIncluded
  subscription : sale.event.object.subscription = some sale.id
  customer : sale.event.object.customer = some sale.customer
  session : sale.event.object.id = some sale.session
  idNamed : sale.id ≠ ""
  customerNamed : sale.customer ≠ ""
  sessionNamed : sale.session ≠ ""

/-- The row of the user carries the plan and the ids of the sale. -/
def Db.Subscribed (user : UserId) (sale : PlanSale) (db : Db) : Prop :=
  ∃ k sub, db.subscriptions.get? k = some sub ∧ sub.user = some user ∧ sub.plan = sale.plan ∧
    sub.stripeSubscriptionId = some sale.id ∧ sub.stripeCustomerId = some sale.customer

/-- What the sales' ids are to the rows: the user is known and has one row at most, and no
other user's row carries an id of the sales. -/
structure Db.FreeFor (user : UserId) (sales : Side → PlanSale) (db : Db) : Prop where
  known : user ∈ db.users
  single : ∀ j k a b, db.subscriptions.get? j = some a → db.subscriptions.get? k = some b →
    a.user = some user → b.user = some user → j = k
  free : ∀ k row, db.subscriptions.get? k = some row → row.user ≠ some user → ∀ side,
    row.stripeSubscriptionId ≠ some (sales side).id ∧
      row.stripeCustomerId ≠ some (sales side).customer

/-- Two checkouts of one user, the later one of another plan under other ids, neither of which
has been delivered yet. -/
structure TwoSales (settings : Settings) (user : UserId) (sales : Side → PlanSale) (db : Db) :
    Prop extends db.FreeFor user sales where
  sells : ∀ side, (sales side).To settings user
  later : ∃ t₁ t₂, providerEventTime (sales .older).event = some t₁ ∧
    providerEventTime (sales .newer).event = some t₂ ∧ t₁ < t₂
  plans : (sales .older).plan ≠ (sales .newer).plan
  ids : (sales .older).id ≠ (sales .newer).id
  customers : (sales .older).customer ≠ (sales .newer).customer
  sessions : (sales .older).session ≠ (sales .newer).session
  unclaimed : ∀ side, ¬ db.Claimed .checkoutSession (sales side).session
  ungranted : ∀ side, db.bundlesOf (sales side).session = 0

/-- One delivery: of either checkout, or of a lifecycle event. -/
inductive SaleDelivery
  | checkout (side : Side)
  | lifecycle (e : LifecycleEvent)

/-- The handler of a delivery. -/
def SaleDelivery.exec (sales : Side → PlanSale) (env : Env) :
    SaleDelivery → Db → Except BillingError Db
  | .checkout side, db => handleCheckoutCompleted env (sales side).event db
  | .lifecycle e, db => .ok (e.handle env db)

/-- Deliveries, one after the other. -/
def runSales (sales : Side → PlanSale) (deliveries : List (Env × SaleDelivery)) (db : Db) : Db :=
  Store.run (fun d => d.2.exec sales d.1) deliveries db

/-- A lifecycle event is one of this sale's subscription: it names no other customer and no
other user. -/
structure LifecycleEvent.Of (user : UserId) (sale : PlanSale) (e : LifecycleEvent) : Prop where
  id : e.object.id = some sale.id
  customer : nonempty e.object.customer ≠ none → e.object.customer = some sale.customer
  user : e.object.userId ≠ none → e.object.userId = some user

/-- A delivery in a deployment with these settings, where lifecycle events are the newer
subscription's. -/
def SaleDelivery.Fits (settings : Settings) (user : UserId) (sales : Side → PlanSale)
    (d : Env × SaleDelivery) : Prop :=
  d.1.settings = settings ∧ ∀ e, d.2 = .lifecycle e → e.Of user (sales .newer)

/-- The sessions taken up after a delivery, the last one first. -/
def takeUp (taken : List Side) (d : SaleDelivery) : List Side :=
  match d with
  | .checkout side => if side ∈ taken then taken else side :: taken
  | .lifecycle _ => taken

/-- **What the tables say of the sessions taken up**: they are claimed and their bundles are
granted once, and the row carries the plan and the ids of the last one. -/
structure Db.TookUp (user : UserId) (sales : Side → PlanSale) (taken : List Side) (db : Db) :
    Prop extends db.FreeFor user sales where
  claimed : ∀ side, db.Claimed .checkoutSession (sales side).session ↔ side ∈ taken
  granted : ∀ side, db.bundlesOf (sales side).session =
    if side ∈ taken ∧ (sales side).entry.monthlyCreditsIncluded ≠ 0 then 1 else 0
  last : ∀ side ∈ taken.head?, db.Subscribed user (sales side)

section Sales
variable {settings : Settings} {user : UserId} {sales : Side → PlanSale} {taken : List Side}
  {db db' : Db} {env : Env}

theorem TwoSales.tookUp (h : TwoSales settings user sales db) : db.TookUp user sales [] where
  toFreeFor := h.toFreeFor
  claimed := fun side => iff_of_false (h.unclaimed side) List.not_mem_nil
  granted := fun side => (h.ungranted side).trans (if_neg fun hcond => List.not_mem_nil hcond.1).symm
  last := fun _ hside => nomatch hside

/-- One row of the user rewritten, or added, leaves the others free. -/
theorem Db.FreeFor.rewrite (h : db.FreeFor user sales) {k : ℕ} {sub : Subscription}
    (honly : ∀ j row, db.subscriptions.get? j = some row → row.user = some user → j = k)
    (huser : sub.user = some user) (husers : db'.users = db.users)
    (hrows : ∀ j, db'.subscriptions.get? j = if j = k then some sub else db.subscriptions.get? j) :
    db'.FreeFor user sales := by
  have hold : ∀ {j : ℕ} {row : Subscription}, db'.subscriptions.get? j = some row → j ≠ k →
      db.subscriptions.get? j = some row := by
    intro j row hj hne
    rwa [hrows, if_neg hne] at hj
  have hkey : ∀ j row, db'.subscriptions.get? j = some row → row.user = some user → j = k := by
    intro j row hj hrow
    by_contra hne
    exact hne (honly j row (hold hj hne) hrow)
  refine ⟨husers ▸ h.known, fun i j a b hi hj ha hb => ?_, fun j row hj hrow => ?_⟩
  · rw [hkey i a hi ha, hkey j b hj hb]
  · refine h.free j row (hold hj fun hjk => ?_) hrow
    rw [hjk, hrows, if_pos rfl] at hj
    obtain rfl := Option.some.inj hj
    exact hrow huser

/-! ## A lifecycle event -/

/-- An event writes no user, no claim and no ledger row. -/
theorem LifecycleEvent.handle_tables (e : LifecycleEvent) (env : Env) (db : Db) :
    (e.handle env db).users = db.users ∧ (e.handle env db).providerGrants = db.providerGrants ∧
      (e.handle env db).transactions = db.transactions := by
  have hstash : ∀ event, (stashSubscriptionPeriod e.object event db).users = db.users ∧
      (stashSubscriptionPeriod e.object event db).providerGrants = db.providerGrants ∧
      (stashSubscriptionPeriod e.object event db).transactions = db.transactions := by
    intro event
    unfold stashSubscriptionPeriod
    split
    · exact ⟨rfl, rfl, rfl⟩
    · dsimp only
      split
      · split <;> exact ⟨rfl, rfl, rfl⟩
      · exact ⟨rfl, rfl, rfl⟩
  have happly : ∀ (k : ℕ) (edited : Edited) (d : Db), (applyLifecycle k edited d).users = d.users ∧
      (applyLifecycle k edited d).providerGrants = d.providerGrants ∧
      (applyLifecycle k edited d).transactions = d.transactions := by
    intro k edited d
    unfold applyLifecycle announceSubscription stampSubscriptionPeriod
    split <;> exact ⟨rfl, rfl, rfl⟩
  have hspec := resolveLocalSubscription_resolved e.object db
  rw [e.handle_eq]
  generalize resolveLocalSubscription e.object db = r at hspec
  cases hspec with
  | byId k sub _ | byCustomer k sub _ _ | byUser k sub _ _ _ =>
    dsimp only
    split
    · exact ⟨rfl, rfl, rfl⟩
    · exact happly _ _ _
  | nowhere _ _ _ => exact hstash _

/-- A row that an event of the sale's subscription names is the user's. -/
theorem Db.FreeFor.names (h : db.FreeFor user sales) {e : LifecycleEvent} {side : Side}
    (he : e.Of user (sales side)) {k : ℕ} {sub : Subscription}
    (hk : db.subscriptions.get? k = some sub) (hnames : e.object.Names sub) :
    sub.user = some user := by
  by_contra huser
  obtain ⟨hid, hcustomer⟩ := h.free k sub hk huser side
  rcases hnames with ⟨-, hsame⟩ | ⟨hne, hsame⟩ | ⟨hne, hsame⟩
  · exact hid (hsame.trans he.id)
  · exact hcustomer (hsame.trans (he.customer hne))
  · exact huser (hsame.trans (he.user hne))

/-- **An event of the newer subscription** keeps what the tables say: a row that has its plan
and its ids keeps them. -/
theorem Db.TookUp.lifecycle (h : db.TookUp user sales taken)
    (hsells : ∀ side, (sales side).To settings user) {e : LifecycleEvent}
    (he : e.Of user (sales .newer)) : (e.handle env db).TookUp user sales taken := by
  obtain ⟨husers, hclaims, hledger⟩ := e.handle_tables env db
  have hclaimed : ∀ side, (e.handle env db).Claimed .checkoutSession (sales side).session ↔
      side ∈ taken := by
    intro side
    rw [← h.claimed side]
    unfold Db.Claimed
    rw [hclaims]
  have hgranted : ∀ side, (e.handle env db).bundlesOf (sales side).session =
      if side ∈ taken ∧ (sales side).entry.monthlyCreditsIncluded ≠ 0 then 1 else 0 :=
    fun side => (bundlesOf_congr hledger).trans (h.granted side)
  rcases e.handle_rows env db with hrows | ⟨k, sub, sub', hk, hnames, hkept, hrows⟩
  · refine ⟨⟨husers ▸ h.known, ?_, ?_⟩, hclaimed, hgranted, ?_⟩
    · simp only [hrows]
      exact h.single
    · simp only [hrows]
      exact h.free
    · unfold Db.Subscribed
      simp only [hrows]
      exact h.last
  · have huser := h.toFreeFor.names he hk hnames
    have honly : ∀ j row, db.subscriptions.get? j = some row → row.user = some user → j = k :=
      fun j row hj hrow => h.single j k row sub hj hk hrow huser
    refine ⟨h.toFreeFor.rewrite honly (hkept.user.trans huser) husers hrows, hclaimed, hgranted,
      fun side hside => ?_⟩
    obtain ⟨j, row, hj, hrow, hplan, hid, hcustomer⟩ := h.last side hside
    obtain rfl := honly j row hj hrow
    obtain rfl := Option.some.inj (hj.symm.trans hk)
    refine ⟨j, sub', (hrows j).trans (if_pos rfl), hkept.user.trans hrow, hkept.plan.trans hplan,
      (hkept.id ?_).trans hid, (hkept.customer ?_).trans hcustomer⟩
    · rw [hid, nonempty_of_ne (hsells side).idNamed]
      exact Option.some_ne_none _
    · rw [hcustomer, nonempty_of_ne (hsells side).customerNamed]
      exact Option.some_ne_none _

/-! ## A checkout -/

/-- The ids of a sale are on no other user's row. -/
theorem Db.FreeFor.not_idsTaken (h : db.FreeFor user sales) {side : Side}
    (hsells : (sales side).To settings user) :
    ¬ db.IdsTaken user (sales side).event.object.subscription (sales side).event.object.customer := by
  unfold Db.IdsTaken
  rw [Option.not_isSome_iff_eq_none]
  cases hfind : db.subscriptions.find? fun row => row.user ≠ some user ∧
    ((nonempty (sales side).event.object.subscription ≠ none ∧
        row.stripeSubscriptionId = (sales side).event.object.subscription) ∨
      (nonempty (sales side).event.object.customer ≠ none ∧
        row.stripeCustomerId = (sales side).event.object.customer)) with
  | none => rfl
  | some r =>
    obtain ⟨hget, huser, hcarries⟩ := Table.find?_some hfind
    obtain ⟨hid, hcustomer⟩ := h.free r.1 r.2 hget huser side
    rcases hcarries with ⟨-, hsame⟩ | ⟨-, hsame⟩
    · exact absurd (hsame.trans hsells.subscription) hid
    · exact absurd (hsame.trans hsells.customer) hcustomer

/-- A sale is taken up by the handler of checkouts as the sale of its plan. -/
theorem PlanSale.To.subscriptionCheckout {sale : PlanSale} (h : sale.To settings user)
    (hsettings : env.settings = settings) (hknown : user ∈ db.users) :
    SubscriptionCheckout env sale.event.object db user sale.plan sale.entry where
  buyer := by
    unfold checkoutBuyer
    rw [h.buyer]
    dsimp only
    rw [if_neg (not_not.mpr hknown), if_neg]
    rintro ⟨reference, hmem, hne⟩
    exact hne (h.reference reference hmem)
  noPackage := by
    rw [hsettings]
    exact h.noPackage
  sells := h.sells
  listed := by
    rw [hsettings]
    exact h.listed
  agreed := h.agreed env hsettings

/-- What is parked for a subscription changes neither the plan nor the ids of its row. -/
theorem withParked_frame (sub : Subscription) (parked : Option PendingSubscriptionPeriod) :
    (sub.withParked parked).user = sub.user ∧ (sub.withParked parked).plan = sub.plan ∧
      (sub.withParked parked).stripeSubscriptionId = sub.stripeSubscriptionId ∧
      (sub.withParked parked).stripeCustomerId = sub.stripeCustomerId := by
  unfold Subscription.withParked
  split
  · exact ⟨rfl, rfl, rfl, rfl⟩
  · rw [PendingSubscriptionPeriod.applyTo_fst]
    exact ⟨rfl, rfl, rfl, rfl⟩

/-- A checkout writes plan and ids, stale or not. -/
theorem checkoutDefaults_writes (plan : String) (obj : CheckoutSession) (event : Option Time)
    (sub : Subscription) : (checkoutDefaults plan obj event sub).plan = plan ∧
      (checkoutDefaults plan obj event sub).stripeSubscriptionId = obj.subscription ∧
      (checkoutDefaults plan obj event sub).stripeCustomerId = obj.customer := by
  unfold checkoutDefaults
  split <;> exact ⟨rfl, rfl, rfl⟩

theorem openSubscription_succeeds {plan : String} {obj : CheckoutSession} {t : Option Time}
    (h : ¬ db.IdsTaken user obj.subscription obj.customer) :
    ∃ k sub opened, openSubscription user plan obj t db = .ok (k, sub, opened) := by
  unfold openSubscription
  rw [if_neg h]
  cases db.subscriptions.find? fun sub => sub.user = some user with
  | none => exact ⟨_, _, _, rfl⟩
  | some r => exact ⟨_, _, _, rfl⟩

theorem applyPendingPeriod_tables (k : ℕ) (sub : Subscription) (db : Db) :
    (applyPendingPeriod k sub db).2.users = db.users ∧
      (applyPendingPeriod k sub db).2.providerGrants = db.providerGrants ∧
      (applyPendingPeriod k sub db).2.transactions = db.transactions := by
  unfold applyPendingPeriod
  split
  · exact ⟨rfl, rfl, rfl⟩
  · split
    · exact ⟨rfl, rfl, rfl⟩
    · dsimp only
      split
      · exact ⟨rfl, rfl, rfl⟩
      · unfold stampSubscriptionPeriod
        split <;> exact ⟨rfl, rfl, rfl⟩

/-- **A bundle** is granted once for its session, when the plan has one. -/
theorem grantBundle_bundlesOf {plan session : String} {entry : PlanCatalogEntry}
    {obj : CheckoutSession} {sub : Subscription} (hbundle : 0 ≤ entry.monthlyCreditsIncluded)
    (hsession : obj.id = some session) :
    ∃ granted, grantBundle env user plan entry obj sub db = .ok granted ∧
      granted.users = db.users ∧ granted.providerGrants = db.providerGrants ∧
      ∀ other, granted.bundlesOf other = db.bundlesOf other +
        if other = session ∧ entry.monthlyCreditsIncluded ≠ 0 then 1 else 0 := by
  unfold grantBundle
  by_cases hzero : entry.monthlyCreditsIncluded = 0
  · rw [if_pos hzero]
    refine ⟨db, rfl, rfl, rfl, fun other => ?_⟩
    rw [if_neg fun hcond => hcond.2 hzero, add_zero]
  · rw [if_neg hzero]
    obtain ⟨t, granted, hcredit⟩ := @credit_succeeds env db
      (bundleCredit env user plan entry (obj.amountTotal.getD entry.priceCents) obj sub)
      (lt_of_le_of_ne hbundle (Ne.symm hzero)) not_dueAt_futureOrNone
    dsimp only
    rw [hcredit]
    have hsame := (credit_moves hcredit).elsewhere
    refine ⟨_, rfl, hsame.users, hsame.providerGrants, fun other => ?_⟩
    refine (credit_bundlesOf hcredit rfl).trans (congrArg _ (if_congr ?_ rfl rfl))
    unfold bundleCredit
    dsimp only
    rw [Metadata.set_same, hsession, and_iff_left hzero]
    constructor
    · intro hsame
      cases hsame
      rfl
    · rintro rfl
      rfl

/-- **A checkout that is taken up** goes through: it claims its session and grants its bundle. -/
theorem FirstCheckout.taken_up {event : ProviderEvent CheckoutSession} {plan id session : String}
    {entry : PlanCatalogEntry} (h : FirstCheckout env event.object db user plan entry id)
    (hfree : ¬ db.IdsTaken user event.object.subscription event.object.customer)
    (hbundle : 0 ≤ entry.monthlyCreditsIncluded) (hsession : event.object.id = some session)
    (hne : session ≠ "") (hfresh : ¬ db.Claimed .checkoutSession session) :
    ∃ db', handleCheckoutCompleted env event db = .ok db' ∧ db'.users = db.users ∧
      (∀ other, db'.Claimed .checkoutSession other ↔
        db.Claimed .checkoutSession other ∨ other = session) ∧
      ∀ other, db'.bundlesOf other = db.bundlesOf other +
        if other = session ∧ entry.monthlyCreditsIncluded ≠ 0 then 1 else 0 := by
  obtain ⟨claimed, hclaimed, hclaimedDb⟩ := claimProviderObject_fresh hne hfresh
  have hclaimedFree : ¬ claimed.IdsTaken user event.object.subscription event.object.customer := by
    rw [hclaimedDb]
    exact hfree
  obtain ⟨k, sub, opened, hopened⟩ := @openSubscription_succeeds user claimed plan event.object
    (providerEventTime event) hclaimedFree
  obtain ⟨-, -, -, ⟨subscriptions, hopenedDb⟩, -⟩ := openSubscription_ok hopened
  obtain ⟨granted, hgranted, husers, hclaims, hbundles⟩ := @grantBundle_bundlesOf user
    (applyPendingPeriod k sub opened).2 env plan session entry event.object
    (applyPendingPeriod k sub opened).1 hbundle hsession
  obtain ⟨husers', hclaims', hrows'⟩ := applyPendingPeriod_tables k sub opened
  refine ⟨announceSubscription (applyPendingPeriod k sub opened).1 granted, ?_, ?_,
    fun other => ?_, fun other => ?_⟩
  · rw [h.toSubscriptionCheckout.handle_agreed, hsession, hclaimed]
    dsimp only
    rw [hopened]
    dsimp only
    rw [hgranted]
  · refine husers.trans (husers'.trans ?_)
    rw [hopenedDb, hclaimedDb]
  · rw [← claimed_insert_iff]
    have hsame : granted.providerGrants =
        db.providerGrants.insert { scope := .checkoutSession, externalId := session } := by
      rw [hclaims, hclaims', hopenedDb, hclaimedDb]
    unfold Db.Claimed announceSubscription
    rw [hsame]
  · have hsame : (applyPendingPeriod k sub opened).2.bundlesOf other = db.bundlesOf other :=
      bundlesOf_congr (hrows'.trans (by rw [hopenedDb, hclaimedDb]))
    rw [← hsame]
    exact hbundles other

/-- **A checkout** that is taken up writes its plan and its ids over the user's row; one whose
session is claimed changes nothing. -/
theorem Db.TookUp.checkout (h : db.TookUp user sales taken)
    (hsells : ∀ side, (sales side).To settings user)
    (hsessions : (sales .older).session ≠ (sales .newer).session) (hsettings : env.settings = settings)
    (side : Side) : (commit (handleCheckoutCompleted env (sales side).event) db).TookUp user sales
      (takeUp taken (.checkout side)) := by
  have hsale := hsells side
  have hinjective : ∀ other, (sales other).session = (sales side).session → other = side := by
    intro other hsame
    cases other <;> cases side <;>
      first | rfl | exact absurd hsame hsessions | exact absurd hsame.symm hsessions
  by_cases hclaimed : db.Claimed .checkoutSession (sales side).session
  · -- The session was taken up before.
    have hmem := (h.claimed side).mp hclaimed
    have hsame : commit (handleCheckoutCompleted env (sales side).event) db = db := by
      refine commit_ok ?_
      rw [(hsale.subscriptionCheckout hsettings h.known).handle_agreed, hsale.session,
        claimProviderObject_claimed hsale.sessionNamed hclaimed]
    rw [hsame, takeUp, if_pos hmem]
    exact h
  · have hmem : side ∉ taken := fun hmem => hclaimed ((h.claimed side).mpr hmem)
    obtain ⟨claimed, hfresh, -⟩ := claimProviderObject_fresh hsale.sessionNamed hclaimed
    have hfirst : FirstCheckout env (sales side).event.object db user (sales side).plan
        (sales side).entry (sales side).id :=
      ⟨hsale.subscriptionCheckout hsettings h.known, hsale.idNamed, hsale.subscription, by
        rw [hsale.session, hfresh]
        exact Option.some_ne_none claimed⟩
    obtain ⟨db', hok, husers, hclaims, hbundles⟩ := hfirst.taken_up (h.toFreeFor.not_idsTaken hsale)
      hsale.bundle hsale.session hsale.sessionNamed hclaimed
    obtain ⟨-, hrows, -⟩ := hfirst.row hok
    rw [commit_ok hok, takeUp, if_neg hmem]
    obtain ⟨huser, hplan, hid, hcustomer⟩ := withParked_frame (checkoutDefaults (sales side).plan
      (sales side).event.object (providerEventTime (sales side).event) (db.userRow user))
      (db.parked (sales side).id)
    obtain ⟨hwrites, hwritesId, hwritesCustomer⟩ := checkoutDefaults_writes (sales side).plan
      (sales side).event.object (providerEventTime (sales side).event) (db.userRow user)
    have howner := huser.trans (checkoutDefaults_user.trans (userRow_user db user))
    -- the row is the user's only one, so rewriting it disturbs no other
    have honly : ∀ j row, db.subscriptions.get? j = some row → row.user = some user →
        j = db.userKey user := by
      intro j row hj hrow
      exact (userRow_of_unique hj hrow fun i other hi hother =>
        h.single i j other row hi hj hother hrow).1.symm
    refine ⟨h.toFreeFor.rewrite honly howner husers hrows, fun other => ?_, fun other => ?_,
      fun other hother => ?_⟩
    · rw [hclaims, h.claimed, List.mem_cons, or_comm]
      refine or_congr ⟨hinjective other, fun hsame => hsame ▸ rfl⟩ Iff.rfl
    · rw [hbundles, h.granted]
      by_cases hother : other = side
      · have hnot : ¬ (side ∈ taken ∧ (sales side).entry.monthlyCreditsIncluded ≠ 0) :=
          fun hcond => hmem hcond.1
        rw [hother, if_neg hnot, zero_add]
        exact if_congr (and_congr_left fun _ => iff_of_true rfl List.mem_cons_self) rfl rfl
      · have hnot : ¬ ((sales other).session = (sales side).session ∧
            (sales side).entry.monthlyCreditsIncluded ≠ 0) :=
          fun hcond => hother (hinjective other hcond.1)
        rw [if_neg hnot, add_zero]
        refine if_congr (and_congr_left fun _ => ?_) rfl rfl
        rw [List.mem_cons, or_iff_right hother]
    · obtain rfl := Option.some.inj hother
      exact ⟨db.userKey user, _, (hrows _).trans (if_pos rfl), howner, hplan.trans hwrites,
        hid.trans (hwritesId.trans hsale.subscription),
        hcustomer.trans (hwritesCustomer.trans hsale.customer)⟩

/-! ## Runs -/

/-- Every delivery that fits takes up what it says. -/
theorem Db.TookUp.deliver (h : db.TookUp user sales taken)
    (hsells : ∀ side, (sales side).To settings user)
    (hsessions : (sales .older).session ≠ (sales .newer).session) {d : Env × SaleDelivery}
    (hfits : SaleDelivery.Fits settings user sales d) :
    (commit (d.2.exec sales d.1) db).TookUp user sales (takeUp taken d.2) := by
  obtain ⟨hsettings, hevents⟩ := hfits
  cases hd : d.2 with
  | checkout side => exact h.checkout hsells hsessions hsettings side
  | lifecycle e => exact h.lifecycle hsells (hevents e hd)

/-- **After a run** the tables say what the deliveries took up. -/
theorem Db.TookUp.run (h : db.TookUp user sales taken)
    (hsells : ∀ side, (sales side).To settings user)
    (hsessions : (sales .older).session ≠ (sales .newer).session)
    {deliveries : List (Env × SaleDelivery)}
    (hfits : ∀ d ∈ deliveries, SaleDelivery.Fits settings user sales d) :
    (runSales sales deliveries db).TookUp user sales
      ((deliveries.map Prod.snd).foldl takeUp taken) := by
  induction deliveries generalizing db taken with
  | nil => exact h
  | cons d deliveries ih =>
    exact ih (h.deliver hsells hsessions (hfits d List.mem_cons_self))
      fun c hc => hfits c (List.mem_cons_of_mem _ hc)

/-- Was this checkout delivered? -/
def Delivered (side : Side) (deliveries : List SaleDelivery) : Prop := .checkout side ∈ deliveries

theorem mem_takeUp {side : Side} {taken : List Side} {d : SaleDelivery} :
    side ∈ takeUp taken d ↔ side ∈ taken ∨ d = .checkout side := by
  cases d with
  | lifecycle e => simp [takeUp]
  | checkout other =>
    show side ∈ (if other ∈ taken then taken else other :: taken) ↔ _
    rw [SaleDelivery.checkout.injEq]
    by_cases hmem : other ∈ taken
    · rw [if_pos hmem]
      refine ⟨Or.inl, ?_⟩
      rintro (hside | rfl)
      · exact hside
      · exact hmem
    · rw [if_neg hmem, List.mem_cons, or_comm, eq_comm]

theorem mem_foldl_takeUp {side : Side} (deliveries : List SaleDelivery) (taken : List Side) :
    side ∈ deliveries.foldl takeUp taken ↔ side ∈ taken ∨ Delivered side deliveries := by
  induction deliveries generalizing taken with
  | nil => simp [Delivered]
  | cons d deliveries ih =>
    rw [List.foldl_cons, ih, mem_takeUp, or_assoc]
    unfold Delivered
    rw [List.mem_cons, eq_comm]

/-- When every other session is taken up, the one that is delivered next is the last. -/
theorem foldl_takeUp_last {side : Side} {deliveries : List SaleDelivery} {taken : List Side}
    (hothers : ∀ other, other ≠ side → other ∈ taken) (hnew : side ∉ taken)
    (hdelivered : Delivered side deliveries) :
    (deliveries.foldl takeUp taken).head? = some side := by
  have hfull : ∀ (deliveries : List SaleDelivery) {taken : List Side}, (∀ other, other ∈ taken) →
      deliveries.foldl takeUp taken = taken := by
    intro deliveries taken hall
    induction deliveries with
    | nil => rfl
    | cons d deliveries ih =>
      have hsame : takeUp taken d = taken := by
        cases d with
        | checkout other => exact if_pos (hall other)
        | lifecycle e => rfl
      rw [List.foldl_cons, hsame, ih]
  induction deliveries with
  | nil => cases hdelivered
  | cons d deliveries ih =>
    by_cases hd : d = .checkout side
    · have htaken : takeUp taken d = side :: taken := by
        rw [hd]
        exact if_neg hnew
      rw [List.foldl_cons, htaken, hfull deliveries fun other => ?_]
      · rfl
      · by_cases hother : other = side
        · rw [hother]
          exact List.mem_cons_self
        · exact List.mem_cons_of_mem _ (hothers other hother)
    · have hsame : takeUp taken d = taken := by
        cases d with
        | lifecycle e => rfl
        | checkout other => exact if_pos (hothers other fun he => hd (by rw [he]))
      rw [List.foldl_cons, hsame]
      exact ih ((List.mem_cons.mp hdelivered).resolve_left (Ne.symm hd))

/-- One of two sessions is delivered before the other. -/
theorem exists_first {deliveries : List SaleDelivery} (hdelivered : Delivered .older deliveries) :
    (∃ n, Delivered .older (deliveries.take n) ∧ ¬ Delivered .newer (deliveries.take n)) ∨
      ∃ n, Delivered .newer (deliveries.take n) ∧ ¬ Delivered .older (deliveries.take n) := by
  induction deliveries with
  | nil => cases hdelivered
  | cons d deliveries ih =>
    have hone : ∀ side other : Side, d = .checkout side → other ≠ side →
        Delivered side ((d :: deliveries).take 1) ∧ ¬ Delivered other ((d :: deliveries).take 1) := by
      rintro side other rfl hne
      unfold Delivered
      rw [List.take_succ_cons, List.take_zero, List.mem_singleton, List.mem_singleton]
      exact ⟨rfl, fun he => hne (SaleDelivery.checkout.inj he)⟩
    cases hd : d with
    | checkout side =>
      cases side with
      | older => exact Or.inl ⟨1, hd ▸ hone .older .newer hd (by decide)⟩
      | newer => exact Or.inr ⟨1, hd ▸ hone .newer .older hd (by decide)⟩
    | lifecycle e =>
      have hskip : ∀ (side : Side) (n : ℕ), Delivered side ((SaleDelivery.lifecycle e ::
          deliveries).take (n + 1)) ↔ Delivered side (deliveries.take n) := by
        intro side n
        unfold Delivered
        rw [List.take_succ_cons, List.mem_cons, or_iff_right (by rintro ⟨⟩)]
      have hrest : Delivered .older deliveries := by
        rw [hd] at hdelivered
        exact (List.mem_cons.mp hdelivered).resolve_left (by rintro ⟨⟩)
      rcases ih hrest with ⟨n, hyes, hno⟩ | ⟨n, hyes, hno⟩
      · exact Or.inl ⟨n + 1, (hskip _ n).mpr hyes, fun h => hno ((hskip _ n).mp h)⟩
      · exact Or.inr ⟨n + 1, (hskip _ n).mpr hyes, fun h => hno ((hskip _ n).mp h)⟩

/-- A session that is delivered only after the other is the last one taken up. -/
theorem takeUp_last {side : Side} {deliveries : List SaleDelivery} {n : ℕ}
    (hothers : ∀ other, other ≠ side → Delivered other (deliveries.take n))
    (hlater : ¬ Delivered side (deliveries.take n)) (hdelivered : Delivered side deliveries) :
    (deliveries.foldl takeUp []).head? = some side := by
  have hsplit : deliveries.foldl takeUp [] =
      (deliveries.drop n).foldl takeUp ((deliveries.take n).foldl takeUp []) := by
    rw [← List.foldl_append, List.take_append_drop]
  have hrest : Delivered side (deliveries.drop n) := by
    rw [← List.take_append_drop n deliveries] at hdelivered
    exact (List.mem_append.mp hdelivered).resolve_left hlater
  rw [hsplit]
  refine foldl_takeUp_last (fun other hother => ?_) (fun hmem => ?_) hrest
  · exact (mem_foldl_takeUp _ _).mpr (Or.inr (hothers other hother))
  · exact hlater (((mem_foldl_takeUp _ _).mp hmem).resolve_left List.not_mem_nil)

/-- **The last session taken up**: the newer one, exactly when the older one was delivered
before the newer one was. -/
theorem takeUp_last_iff {deliveries : List SaleDelivery} (hboth : ∀ side, Delivered side deliveries) :
    (deliveries.foldl takeUp []).head? = some .newer ↔
      ∃ n, Delivered .older (deliveries.take n) ∧ ¬ Delivered .newer (deliveries.take n) := by
  constructor
  · intro hlast
    refine (exists_first (hboth .older)).resolve_right ?_
    rintro ⟨n, hyes, hno⟩
    rw [takeUp_last (fun other hother => ?_) hno (hboth .older)] at hlast
    · cases hlast
    · cases other with
      | older => exact absurd rfl hother
      | newer => exact hyes
  · rintro ⟨n, hyes, hno⟩
    refine takeUp_last (fun other hother => ?_) hno (hboth .newer)
    cases other with
    | newer => exact absurd rfl hother
    | older => exact hyes

/-- **An older checkout stays behind the newer one, exactly when it is delivered first.**  For
any deliveries of both checkouts and of lifecycle events of the newer subscription: each
bundle is granted once, and the row has the newer plan and ids if and only if the older
checkout is delivered before the newer one is for the first time. -/
theorem newer_checkout_stays_iff (h : TwoSales settings user sales db)
    {deliveries : List (Env × SaleDelivery)}
    (hfits : ∀ d ∈ deliveries, SaleDelivery.Fits settings user sales d)
    (hboth : ∀ side, Delivered side (deliveries.map Prod.snd)) :
    ((runSales sales deliveries db).Subscribed user (sales .newer) ∧
      ∀ side, (runSales sales deliveries db).bundlesOf (sales side).session =
        if (sales side).entry.monthlyCreditsIncluded ≠ 0 then 1 else 0) ↔
    ∃ n, Delivered .older ((deliveries.map Prod.snd).take n) ∧
      ¬ Delivered .newer ((deliveries.map Prod.snd).take n) := by
  have hfinal := h.tookUp.run h.sells h.sessions hfits
  have hall : ∀ side, side ∈ (deliveries.map Prod.snd).foldl takeUp [] :=
    fun side => (mem_foldl_takeUp _ _).mpr (Or.inr (hboth side))
  have hgranted : ∀ side, (runSales sales deliveries db).bundlesOf (sales side).session =
      if (sales side).entry.monthlyCreditsIncluded ≠ 0 then 1 else 0 := fun side =>
    (hfinal.granted side).trans (if_congr (and_iff_right (hall side)) rfl rfl)
  rw [and_iff_left hgranted, ← takeUp_last_iff hboth]
  constructor
  · intro hsubscribed
    cases hlast : ((deliveries.map Prod.snd).foldl takeUp []).head? with
    | none =>
      rw [List.head?_eq_none_iff.mp hlast] at hall
      cases hall .older
    | some side =>
      cases side with
      | newer => rfl
      | older =>
        -- One row has one plan.
        obtain ⟨j, a, hj, ha, hplan, -⟩ := hsubscribed
        obtain ⟨k, b, hk, hb, hplan', -⟩ := hfinal.last .older hlast
        obtain rfl := hfinal.single j k a b hj hk ha hb
        obtain rfl := Option.some.inj (hj.symm.trans hk)
        exact absurd (hplan'.symm.trans hplan) h.plans
  · exact fun hlast => hfinal.last .newer hlast

end Sales

/-! ## An upgrade delivered out of order -/

/-- A session that sells the plan `team` under `sub_2`, of second twenty. -/
def teamCheckout : ProviderEvent CheckoutSession where
  id := some "evt_2"
  type := "checkout.session.completed"
  created := some 20
  object :=
    { id := some "cs_2"
      userId := some 1
      plan := some "team"
      mode := some "subscription"
      paymentStatus := some "paid"
      currency := some "USD"
      customer := some "cus_2"
      subscription := some "sub_2" }

/-- The plan `pro`, and the plan `team` ten seconds later. -/
def upgrade : Side → PlanSale
  | .older =>
    { event := proCheckout
      plan := "pro"
      entry := proEntry
      id := "sub_1"
      customer := "cus_1"
      session := "cs_1" }
  | .newer =>
    { event := teamCheckout
      plan := "team"
      entry :=
        { slug := "team"
          name := "Team"
          priceCents := 2500
          monthlyCreditsIncluded := 600 }
      id := "sub_2"
      customer := "cus_2"
      session := "cs_2" }

theorem upgrade_to (side : Side) : (upgrade side).To {} 1 where
  buyer := by cases side <;> rfl
  reference := fun reference hreference => by cases side <;> cases hreference
  noPackage := by cases side <;> rfl
  sells := by cases side <;> rfl
  listed := by cases side <;> rfl
  agreed := fun env _ => by cases side <;> exact reconcileCheckoutSession_agreed rfl rfl rfl
  bundle := by cases side <;> decide
  subscription := by cases side <;> rfl
  customer := by cases side <;> rfl
  session := by cases side <;> rfl
  idNamed := by cases side <;> decide
  customerNamed := by cases side <;> decide
  sessionNamed := by cases side <;> decide

theorem upgrade_twoSales : TwoSales {} 1 upgrade newBuyer where
  known := by decide
  single := fun _ _ _ _ h => Table.get?_empty_ne h
  free := fun _ _ h => Table.get?_empty_ne h
  sells := upgrade_to
  later := ⟨10000000, 20000000, by decide +kernel, by decide +kernel, by decide⟩
  plans := by decide
  ids := by decide
  customers := by decide
  sessions := by decide
  unclaimed := fun _ h => absurd h.choose_spec.1 List.not_mem_nil
  ungranted := fun _ => rfl

/-- Deliver one checkout and then the other. -/
def deliverBoth (first second : Side) : List (Env × SaleDelivery) :=
  [(Env.plain 21000000, .checkout first), (Env.plain 22000000, .checkout second)]

theorem deliverBoth_fits (first second : Side) : ∀ d ∈ deliverBoth first second,
    SaleDelivery.Fits {} 1 upgrade d := by
  intro d hd
  simp only [deliverBoth, List.mem_cons, List.not_mem_nil, or_false] at hd
  rcases hd with rfl | rfl <;> exact ⟨rfl, fun e he => nomatch he⟩

/-- Delivered in order, the upgrade leaves the row with the newer plan. -/
theorem newer_checkout_stays_iff_inOrder :
    (runSales upgrade (deliverBoth .older .newer) newBuyer).Subscribed 1 (upgrade .newer) ∧
      ∀ side, (runSales upgrade (deliverBoth .older .newer) newBuyer).bundlesOf
          (upgrade side).session =
        if (upgrade side).entry.monthlyCreditsIncluded ≠ 0 then 1 else 0 := by
  refine (newer_checkout_stays_iff upgrade_twoSales (deliverBoth_fits .older .newer)
    fun side => ?_).mpr ⟨1, by simp [Delivered, deliverBoth], by simp [Delivered, deliverBoth]⟩
  cases side <;> simp [Delivered, deliverBoth]

/-- **The older checkout takes the plan back**: delivered after the newer one, it writes its
own plan and ids over the row. -/
theorem older_checkout_regresses : TwoSales {} 1 upgrade newBuyer ∧
    (∀ d ∈ deliverBoth .newer .older, SaleDelivery.Fits {} 1 upgrade d) ∧
    (∀ side, Delivered side ((deliverBoth .newer .older).map Prod.snd)) ∧
    (runSales upgrade (deliverBoth .newer .older) newBuyer).Subscribed 1 (upgrade .older) ∧
    ¬ (runSales upgrade (deliverBoth .newer .older) newBuyer).Subscribed 1 (upgrade .newer) := by
  have hfinal := upgrade_twoSales.tookUp.run upgrade_to (by decide)
    (deliverBoth_fits .newer .older)
  have holder : (runSales upgrade (deliverBoth .newer .older) newBuyer).Subscribed 1
      (upgrade .older) := hfinal.last .older rfl
  refine ⟨upgrade_twoSales, deliverBoth_fits .newer .older, fun side => ?_, holder, ?_⟩
  · cases side <;> simp [Delivered, deliverBoth]
  · rintro ⟨j, a, hj, ha, hplan, -⟩
    obtain ⟨k, b, hk, hb, hplan', -⟩ := holder
    obtain rfl := hfinal.single j k a b hj hk ha hb
    obtain rfl := Option.some.inj (hj.symm.trans hk)
    rw [hplan] at hplan'
    exact absurd hplan' (by decide)

end StapelBilling
