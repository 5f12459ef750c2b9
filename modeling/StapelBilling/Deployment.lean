import StapelBilling.Entrances
import StapelBilling.MergeTotals

/-! # A deployment

Provider events, replays of the event log, merges of accounts, erasures, calls of other
services, requests of customers, workers, operators and letters come in any order, about any
accounts; the clock does not go back.  A call that raises leaves what it had committed.

* `SystemCall.exec_cases`: what one call does to the database.
* `SystemCall.exec_inOrder`: the books stay in order.
* `deployment_accounts`: every ledger credit is accounted for, in every state reached.
* `audit_is_exact`: the nightly audit reports nothing but what the expiry worker has yet to do.
-/
namespace StapelBilling
open Store

/-- What comes to the module from outside. -/
inductive SystemCall
  | webhook (hooks : WebhookSettings) (request : Verified)
  | replayRow (hooks : WebhookSettings) (dryRun : Bool) (row : ℕ × StripeWebhookEvent)
  | userMerged (fromUser intoUser : Option UserId)
  | eraseSubject (subjectType : String) (subject : Option UserId)
  | wallet (c : WalletCall)
  | billingDebit (seam : UserSeam) (payload : MoneyPayload)
  | billingHold (seam : UserSeam) (payload : MoneyPayload)
  | billingCapture (args : CaptureArgs)
  | billingRelease (hold : ℕ)
  | billingCanAfford (seam : UserSeam) (user : UserId) (identity : Bool) (credits : ℤ)
  | internalDebit (request : CreditDebitRequest)
  | viewWallet (user : UserId)
  | patchWallet (user : UserId) (update : WalletUpdate)
  | viewSubscription (user : UserId)
  | cancelSubscription (stripe : StripeProvider) (user : UserId)
  | expireCreditLots
  | expireHolds
  | grantPlanBundle (args : PlanBundleArgs)
  | grantPlanBundles (rows : List Entitlement) (periodKey : Option String)
  | repairSubscription (dryRun : Bool) (k : ℕ) (sub : Subscription) (fetched : Fetched)
  | extendSubscription (args : ExtendArgs)
  | grantCredits (args : GrantArgs)
  | grantCommand (model : UserModel) (options : GrantOptions)
  | adminGrant (form : GrantForm) (actor : String) (selected : List (ℕ × Wallet))
  | simulateCheckout (user : UserId) (package hex : String)
  | claimAndSend (accepts : Bool) (letter : Letter)

/-- What a call that may raise leaves of the database it found. -/
def Db.after {ε α : Type} (db : Db) : Except ε (α × Db) → Db
  | .ok (_, db') => db'
  | .error _ => db

/-- The credits a merge reports as moved. -/
def mergedCredits (env : Env) (digest : UserId → UserId → String) (fromUser intoUser : Option UserId)
    (db : Db) : ℤ :=
  match fromUser, intoUser with
  | some fromUser, some intoUser =>
    if fromUser = intoUser then 0
    else
      match mergeWallets env digest fromUser intoUser db with
      | .ok (counts, _) => counts.credits
      | .error _ => 0
  | _, _ => 0

/-- The database after a call about the database alone. -/
def SystemCall.write (digest : UserId → UserId → String) (env : Env) : SystemCall → Db → Db
  | .webhook _ _, db | .replayRow _ _ _, db => db
  | .userMerged fromUser intoUser, db =>
    db.after ((handleUserMerged env digest fromUser intoUser db).map fun db => ((), db))
  | .eraseSubject subjectType subject, db => (StapelBilling.eraseSubject subjectType subject db).getD db
  | .wallet c, db => db.after ((c.exec env db).map fun db => ((), db))
  | .billingDebit seam payload, db => db.after (StapelBilling.billingDebit env seam payload db)
  | .billingHold seam payload, db => db.after (StapelBilling.billingHold env seam payload db)
  | .billingCapture args, db => db.after (StapelBilling.billingCapture env args db)
  | .billingRelease k, db => db.after (StapelBilling.billingRelease env k db)
  | .billingCanAfford seam user identity credits, db =>
    db.after (StapelBilling.billingCanAfford env seam user identity credits db)
  | .internalDebit request, db => db.after (postInternalDebit env request db)
  | .viewWallet user, db => (getOrCreateWallet user db).2
  | .patchWallet user update, db => (patchWalletSettings env user update db).2
  | .viewSubscription user, db => (StapelBilling.viewSubscription user db).2
  | .cancelSubscription stripe user, db => (postCancel env stripe user db).2
  | .expireCreditLots, db => (StapelBilling.expireCreditLots env db).2
  | .expireHolds, db => StapelBilling.expireHolds env db
  | .grantPlanBundle args, db => db.after (StapelBilling.grantPlanBundle env args db)
  | .grantPlanBundles rows periodKey, db => (StapelBilling.grantPlanBundles env rows periodKey db).2
  | .repairSubscription dryRun k sub fetched, db =>
    StapelBilling.repairSubscription env dryRun k sub fetched db
  | .extendSubscription args, db => db.after (StapelBilling.extendSubscription env args db)
  | .grantCredits args, db => db.after (StapelBilling.grantCredits env args db)
  | .grantCommand model options, db => (billingGrantCredits env model options db).2
  | .adminGrant form actor selected, db => (adminGrantCredits env form actor selected db).2
  | .simulateCheckout user package hex, db =>
    db.after (simulateCheckoutCompleted env user package hex db)
  | .claimAndSend accepts letter, db => (StapelBilling.claimAndSend accepts letter db).2

/-- The deployment: its database with the event log, and the credits its merges have reported
as moved. -/
structure Deployment where
  inbox : Inbox
  moved : ℤ := 0

/-- The state a call leaves. -/
def SystemCall.exec (digest : UserId → UserId → String) (env : Env) (c : SystemCall) (s : Deployment) :
    Deployment :=
  match c with
  | .webhook hooks request => { s with inbox := (s.inbox.post hooks env request).2 }
  | .replayRow hooks dryRun row =>
    { s with inbox := (s.inbox.replayRow hooks (fun _ => env) dryRun row).2 }
  | .userMerged fromUser intoUser =>
    { inbox := { s.inbox with db := (SystemCall.userMerged fromUser intoUser).write digest env s.inbox.db }
      moved := s.moved + mergedCredits env digest fromUser intoUser s.inbox.db }
  | c => { s with inbox := { s.inbox with db := c.write digest env s.inbox.db } }

/-- A serial run of the deployment. -/
def runSystem (digest : UserId → UserId → String) (calls : List (Env × SystemCall)) (s : Deployment) :
    Deployment :=
  Store.run (fun c s => (.ok (c.2.exec digest c.1 s) : Except BillingError Deployment)) calls s

/-- The host keeps to its terms: its own webhook handlers touch the books through the module only,
and what its calls bring is what the terms allow. -/
def SystemCall.Fair (terms : HostTerms) : SystemCall → Prop
  | .webhook hooks _ | .replayRow hooks _ _ => hooks.KeepsBooks terms
  | .wallet c => terms.Admits c.metadata ∧ (terms.announces = true → c.Unpriced)
  | .billingDebit _ payload | .billingHold _ payload => terms.Admits payload.metadata
  | .billingCapture args => terms.Admits args.metadata
  | .internalDebit request => terms.Admits request.metadata
  | .grantPlanBundle args => terms.Admits args.metadata
  | .grantCredits args => terms.Admits args.metadata
  | _ => True

variable {terms : HostTerms} {env : Env} {digest : UserId → UserId → String}
  {c : SystemCall} {db : Db} {s : Deployment}

/-! ## One call -/

theorem Db.after_books {ε α : Type} {x : Except ε (α × Db)}
    (h : ∀ a db', x = .ok (a, db') → Books terms env db db') : Books terms env db (db.after x) := by
  cases x with
  | error e => exact Books.refl env db
  | ok r => exact h r.1 r.2 rfl

/-- A call that neither merges nor erases is a sequence of steps on the books. -/
theorem SystemCall.write_books (hfair : c.Fair terms)
    (hmerge : ∀ fromUser intoUser, c ≠ .userMerged fromUser intoUser)
    (herase : ∀ subjectType subject, c ≠ .eraseSubject subjectType subject) :
    Books terms env db (c.write digest env db) := by
  cases c with
  | webhook hooks request => exact Books.refl env db
  | replayRow hooks dryRun row => exact Books.refl env db
  | userMerged fromUser intoUser => exact absurd rfl (hmerge fromUser intoUser)
  | eraseSubject subjectType subject => exact absurd rfl (herase subjectType subject)
  | wallet c =>
    show Books terms env db (db.after ((c.exec env db).map fun db => ((), db)))
    cases hok : c.exec env db with
    | error e => exact Books.refl env db
    | ok db' => exact Books.single (.call c hfair.2 hfair.1 hok)
  | billingDebit seam payload => exact Db.after_books fun _ _ => billingDebit_books hfair
  | billingHold seam payload => exact Db.after_books fun _ _ => billingHold_books hfair
  | billingCapture args => exact Db.after_books fun _ _ => billingCapture_books hfair
  | billingRelease k => exact Db.after_books fun _ _ => billingRelease_books
  | billingCanAfford seam user identity credits =>
    exact Db.after_books fun _ _ => billingCanAfford_books
  | internalDebit request => exact Db.after_books fun _ _ => postInternalDebit_books hfair
  | viewWallet user => exact Books.openWallet user
  | patchWallet user update => exact patchWalletSettings_books user update
  | viewSubscription user => exact Books.beside (viewSubscription_beside user db)
  | cancelSubscription stripe user => exact Books.beside (postCancel_beside stripe user db)
  | expireCreditLots => exact expireCreditLots_books
  | expireHolds => exact expireHolds_books
  | grantPlanBundle args => exact Db.after_books fun _ _ => grantPlanBundle_books hfair
  | grantPlanBundles rows periodKey => exact grantPlanBundles_books rows periodKey
  | repairSubscription dryRun k sub fetched => exact repairSubscription_books dryRun k sub fetched
  | extendSubscription args => exact Db.after_books fun _ _ => extendSubscription_books
  | grantCredits args => exact Db.after_books fun _ _ => grantCredits_books hfair
  | grantCommand model options => exact billingGrantCredits_books model options
  | adminGrant form actor selected => exact adminGrantCredits_books form actor selected
  | simulateCheckout user package hex =>
    exact Db.after_books fun _ _ => simulateCheckoutCompleted_books
  | claimAndSend accepts letter => exact Books.beside (claimAndSend_beside accepts letter db)

/-- **What a call does to the database**: a sequence of steps on the books, a merge of two
accounts, or an erasure. -/
theorem SystemCall.exec_cases (hfair : c.Fair terms) :
    Books terms env s.inbox.db (c.exec digest env s).inbox.db ∨
    (∃ source target counts, c = .userMerged (some source) (some target) ∧
      mergeWallets env digest source target s.inbox.db =
        .ok (counts, (c.exec digest env s).inbox.db)) ∨
    ∃ subjectType subject, c = .eraseSubject subjectType subject ∧
      StapelBilling.eraseSubject subjectType subject s.inbox.db =
        some (c.exec digest env s).inbox.db := by
  cases c with
  | webhook hooks request => exact Or.inl (Inbox.post_books hfair request)
  | replayRow hooks dryRun row => exact Or.inl (Inbox.replayRow_books hfair dryRun row)
  | userMerged fromUser intoUser =>
    have hdb : ((SystemCall.userMerged fromUser intoUser).exec digest env s).inbox.db =
        s.inbox.db.after ((handleUserMerged env digest fromUser intoUser s.inbox.db).map
          fun db => ((), db)) := rfl
    rw [hdb]
    cases hmerge : handleUserMerged env digest fromUser intoUser s.inbox.db with
    | error e => exact Or.inl (Books.refl env _)
    | ok db' =>
      rcases handleUserMerged_cases hmerge with rfl | ⟨source, target, counts, rfl, rfl, -, hok⟩
      · exact Or.inl (Books.refl env _)
      · exact Or.inr (Or.inl ⟨source, target, counts, rfl, hok⟩)
  | eraseSubject subjectType subject =>
    have hdb : ((SystemCall.eraseSubject subjectType subject).exec digest env s).inbox.db =
        (StapelBilling.eraseSubject subjectType subject s.inbox.db).getD s.inbox.db := rfl
    rw [hdb]
    cases herase : StapelBilling.eraseSubject subjectType subject s.inbox.db with
    | none => exact Or.inl (Books.refl env _)
    | some db' => exact Or.inr (Or.inr ⟨subjectType, subject, rfl, herase⟩)
  | _ => exact Or.inl (@SystemCall.write_books terms env digest _ _ hfair nofun nofun)

/-- A merge, or an event that is none, keeps the books in order and puts the ledger ahead by
what was moved. -/
theorem handleUserMerged_inOrder (fromUser intoUser : Option UserId) (ho : db.InOrder env.now) :
    ((SystemCall.userMerged fromUser intoUser).write digest env db).InOrder env.now ∧
      ((SystemCall.userMerged fromUser intoUser).write digest env db).surplus =
        db.surplus + mergedCredits env digest fromUser intoUser db := by
  unfold SystemCall.write handleUserMerged mergedCredits
  cases fromUser with
  | none => exact ⟨ho, (add_zero _).symm⟩
  | some source =>
    cases intoUser with
    | none => exact ⟨ho, (add_zero _).symm⟩
    | some target =>
      dsimp only
      by_cases hne : source = target
      · rw [if_pos hne, if_pos hne]
        exact ⟨ho, (add_zero _).symm⟩
      · rw [if_neg hne, if_neg hne]
        rcases hmerge : mergeWallets env digest source target db with e | ⟨counts, db'⟩
        · exact ⟨ho, (add_zero _).symm⟩
        · exact mergeWallets_inOrder ho hne hmerge

/-- **What one call does**: the books stay in order, and the ledger is ahead of lots and
reservations by what the merges moved, if it was. -/
theorem SystemCall.exec_inOrder (hfair : c.Fair terms) (hterms : terms.foreign = true)
    (ho : s.inbox.db.InOrder env.now)
    (hmoved : s.inbox.db.surplus = s.moved) :
    (c.exec digest env s).inbox.db.InOrder env.now ∧
      (c.exec digest env s).inbox.db.surplus = (c.exec digest env s).moved := by
  have hbooks : ∀ {db'}, Books terms env s.inbox.db db' → db'.InOrder env.now ∧ db'.surplus = s.moved := by
    intro db' h
    obtain ⟨hafter, hsame⟩ := h.inOrder hterms ho
    exact ⟨hafter, hsame.trans hmoved⟩
  cases c with
  | webhook hooks request => exact hbooks (Inbox.post_books hfair request)
  | replayRow hooks dryRun row => exact hbooks (Inbox.replayRow_books hfair dryRun row)
  | userMerged fromUser intoUser =>
    obtain ⟨hafter, hsurplus⟩ := @handleUserMerged_inOrder env digest _ fromUser intoUser ho
    refine ⟨hafter, hsurplus.trans ?_⟩
    rw [hmoved]
    rfl
  | eraseSubject subjectType subject =>
    show Db.InOrder _ ((StapelBilling.eraseSubject subjectType subject s.inbox.db).getD s.inbox.db) ∧
      Db.surplus ((StapelBilling.eraseSubject subjectType subject s.inbox.db).getD s.inbox.db) = s.moved
    cases hok : StapelBilling.eraseSubject subjectType subject s.inbox.db with
    | none => exact ⟨ho, hmoved⟩
    | some db' =>
      obtain ⟨hafter, hsame⟩ := eraseSubject_inOrder hok ho
      exact ⟨hafter, hsame.trans hmoved⟩
  | _ => exact hbooks (@SystemCall.write_books terms env digest _ _ hfair nofun nofun)

/-! ## Runs -/

/-- A database without a wallet is in order at every moment. -/
theorem Db.Bare.inOrder (hbare : db.Bare) (now : Time) : db.InOrder now where
  wellformed := hbare.wellformed
  truthful := (hbare.exact now).truthful
  backed := by
    intro k held hk
    rw [hbare.holds] at hk
    exact Table.get?_empty_ne hk
  cached := (hbare.exact now).cached

theorem Db.Bare.surplus (hbare : db.Bare) : db.surplus = 0 := by
  unfold Db.surplus Db.ledgerTotal Db.lotTotal Db.reservedTotal
  rw [hbare.transactions, hbare.lots, hbare.holds]
  simp

/-- **In every state of a deployment** the books are in order, and the ledger is ahead of lots and
reservations by what the merges moved. -/
theorem runSystem_inOrder {calls : List (Env × SystemCall)} {now : Time} (hbare : db.Bare)
    (hfair : ∀ c ∈ calls, c.2.Fair { foreign := true })
    (hsorted : calls.Pairwise fun c d => c.1.now ≤ d.1.now) (hlast : ∀ c ∈ calls, c.1.now ≤ now) :
    (runSystem digest calls { inbox := { db } }).inbox.db.InOrder now ∧
      (runSystem digest calls { inbox := { db } }).inbox.db.surplus =
        (runSystem digest calls { inbox := { db } }).moved := by
  have hstart : ∀ t, db.InOrder t ∧ db.surplus = 0 := fun t => ⟨hbare.inOrder t, hbare.surplus⟩
  cases calls with
  | nil => exact hstart now
  | cons c calls =>
    refine run_clocked (I := fun t (s : Deployment) => s.inbox.db.InOrder t ∧
      s.inbox.db.surplus = s.moved) ?_ ?_ hsorted (fun d hd => ?_) hlast
      (hlast c List.mem_cons_self) (hstart c.1.now)
    · exact fun t u s hle hI => ⟨hI.1.later hle, hI.2⟩
    · intro d hd s s' hI hok
      obtain rfl := Except.ok.inj hok
      exact SystemCall.exec_inOrder (hfair d hd) rfl hI.1 hI.2
    · rcases List.mem_cons.mp hd with rfl | hd
      · exact le_rfl
      · exact (List.pairwise_cons.mp hsorted).1 d hd

/-- **Every credit of the ledger is accounted for.**  In every state of a deployment, whatever
came to it in whatever order with foreign metadata, the ledger's total is what the lots hold, what
open holds reserve, and what merges have reported as moved: a merge books the credits it brings
once more, nothing else books any without a lot or a reservation. -/
theorem deployment_accounts (hbare : db.Bare) {calls : List (Env × SystemCall)}
    (hfair : ∀ c ∈ calls, c.2.Fair { foreign := true })
    (hsorted : calls.Pairwise fun c d => c.1.now ≤ d.1.now) :
    let after := runSystem digest calls { inbox := { db } }
    after.inbox.db.ledgerTotal =
      after.inbox.db.lotTotal + after.inbox.db.reservedTotal + after.moved := by
  intro after
  obtain ⟨now, hlast⟩ : ∃ now, ∀ c ∈ calls, c.1.now ≤ now := by
    obtain ⟨now, hnow⟩ := (calls.map fun c => c.1.now).toFinset.bddAbove
    exact ⟨now, fun c hc => hnow (by simpa using ⟨c.1, ⟨c.2, hc⟩, rfl⟩)⟩
  have hsurplus : after.inbox.db.surplus = after.moved :=
    (runSystem_inOrder hbare hfair hsorted hlast).2
  unfold Db.surplus at hsurplus
  omega

/-- A package is bought, part of it is spent and part reserved; the account is folded into
another, whose owner is then erased, and the reservation is swept. -/
def packageThroughMerge : List (Env × SystemCall) :=
  [(Env.plain 0, .webhook {} (.event
      { id := some "evt_1"
        type := "checkout.session.completed"
        object :=
          { session :=
              { id := some "cs_1"
                userId := some 1
                package := some "starter"
                mode := some "payment"
                paymentStatus := some "paid"
                currency := some "usd"
                amountTotal := some 500 } } })),
    (Env.plain 5, .billingDebit ⟨fun _ => false, fun _ => true⟩
      { user := 1
        credits := 120
        idempotencyKey := "job-1" }),
    (Env.plain 6, .billingHold ⟨fun _ => false, fun _ => true⟩
      { user := 1
        credits := 80
        idempotencyKey := "job-2"
        expiresInSeconds := some 60 }),
    (Env.plain 10, .userMerged (some 1) (some 2)),
    (Env.plain 20, .eraseSubject "account" (some 2)),
    (Env.plain 90000000, .expireHolds)]

theorem packageThroughMerge_fair : ∀ c ∈ packageThroughMerge, c.2.Fair terms := by
  unfold packageThroughMerge
  simp only [List.forall_mem_cons, List.not_mem_nil, false_implies, implies_true, and_true]
  refine ⟨?_, HostTerms.admits_empty, HostTerms.admits_empty, trivial, trivial, trivial⟩
  exact keepsBooks_of_entries fun entry hentry => absurd hentry List.not_mem_nil

theorem deployment_accounts_merge :
    let after := runSystem (fun _ _ => "pair") packageThroughMerge
      { inbox := { db := { users := [1, 2] } } }
    after.inbox.db.ledgerTotal =
      after.inbox.db.lotTotal + after.inbox.db.reservedTotal + after.moved :=
  deployment_accounts ⟨rfl, rfl, rfl, rfl, rfl⟩ packageThroughMerge_fair (by decide)

/-- **The audit reports nothing but pending expiry.**  In every state of a deployment whose callers
bring foreign metadata, a wallet whose cached balance disagrees with its lots has a lot that is due
and that the expiry worker has not swept; right after the worker every balance is what the
wallet's lots hold, and the audit reports nothing. -/
theorem audit_is_exact (hbare : db.Bare) {calls : List (Env × SystemCall)}
    (hfair : ∀ c ∈ calls, c.2.Fair { foreign := true })
    (hsorted : calls.Pairwise fun c d => c.1.now ≤ d.1.now)
    (hlast : ∀ c ∈ calls, c.1.now ≤ env.now) :
    let reached := (runSystem digest calls { inbox := { db } }).inbox.db
    let swept := (expireCreditLots env reached).2
    (∀ r ∈ reconcileWalletBalances env.now reached, ∃ k lot,
      reached.lots.get? k = some lot ∧ lot.wallet = r.1 ∧ lot.Due env.now) ∧
    reconcileWalletBalances env.now swept = [] ∧
    ∀ w wallet, swept.wallets.get? w = some wallet → wallet.balance = swept.lotsOf w := by
  intro reached swept
  have ho : reached.InOrder env.now := (runSystem_inOrder hbare hfair hsorted hlast).1
  obtain ⟨hn, hsynced⟩ := expireCreditLots_synced ho.wellformed ho.cached
  refine ⟨fun r hr => ?_, reconcileWalletBalances_nil hn hsynced,
    fun w wallet hk => (hsynced w).2 wallet hk⟩
  unfold reconcileWalletBalances at hr
  obtain ⟨hmem, hreported⟩ := List.mem_filter.mp hr
  obtain ⟨⟨w, wallet⟩, hrow, rfl⟩ := List.mem_map.mp hmem
  have hget : reached.wallets.get? w = some wallet := Table.get?_eq_some_iff.mpr hrow
  by_contra hnone
  have hno : reached.NoDue w env.now := fun k lot hk hlot hdue => hnone ⟨k, lot, hk, hlot, hdue⟩
  have hexact : wallet.balance = reached.liveBalance w env.now :=
    (ho.cached w hno wallet hget).trans (liveBalance_eq_lotsOf ho.wellformed.nonneg hno).symm
  simp [hexact] at hreported

theorem audit_is_exact_merge :
    let reached := (runSystem (fun _ _ => "pair") packageThroughMerge
      { inbox := { db := { users := [1, 2] } } }).inbox.db
    let swept := (expireCreditLots (Env.plain 90000001) reached).2
    (∀ r ∈ reconcileWalletBalances (Env.plain 90000001).now reached, ∃ k lot,
      reached.lots.get? k = some lot ∧ lot.wallet = r.1 ∧ lot.Due (Env.plain 90000001).now) ∧
    reconcileWalletBalances (Env.plain 90000001).now swept = [] ∧
    ∀ w wallet, swept.wallets.get? w = some wallet → wallet.balance = swept.lotsOf w :=
  audit_is_exact ⟨rfl, rfl, rfl, rfl, rfl⟩ packageThroughMerge_fair (by decide) (by decide)

end StapelBilling
