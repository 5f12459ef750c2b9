import StapelBilling.Checkout

/-! # Comp time

Subscription time the operator gives away.  A window carries the account after the period it
paid for, or governs at once where it ranks above the paid plan.  Giving one takes three
looks at the database: is there a window already, is an earlier comp bundle still alive, and
the transaction that writes the row, grants the bundle and announces both.  The first two
are read before that transaction.
-/
namespace StapelBilling
open Store

/-! ## The ladder -/

/-- Does this status entitle? -/
def SubscriptionStatus.isGranting : SubscriptionStatus → Bool
  | .active | .trialing | .pastDue => true
  | _ => false

/-- The plan of a row nobody set one on. -/
def defaultPlan : String := "free"

/-- Where a plan sits on the configured ladder. -/
def Settings.planRank (s : Settings) (slug : String) : Option ℕ :=
  s.plans.findIdx? fun entry => entry.slug = slug

/-- Does a plan rank above another?  Only a configured plan ranks above any. -/
def Settings.outranks (s : Settings) (slug other : String) : Bool :=
  match s.planRank slug, s.planRank other with
  | some rank, some base => base < rank
  | some _, none => true
  | none, _ => false

/-! ## Windows -/

/-- A window that has not been withdrawn and has not closed, open or pending. -/
def CompPeriod.Ahead (subscription : ℕ) (now : Time) (comp : CompPeriod) : Prop :=
  comp.subscription = subscription ∧ comp.revokedAt = none ∧ now < comp.endsAt

instance (subscription : ℕ) (now : Time) : DecidablePred (CompPeriod.Ahead subscription now) :=
  fun comp => by unfold CompPeriod.Ahead; infer_instance

/-- A window that is open. -/
def CompPeriod.Open (subscription : ℕ) (now : Time) (comp : CompPeriod) : Prop :=
  comp.Ahead subscription now ∧ comp.startsAt ≤ now

instance (subscription : ℕ) (now : Time) : DecidablePred (CompPeriod.Open subscription now) :=
  fun comp => by unfold CompPeriod.Open; infer_instance

/-- The window that runs longest into the future. -/
def latestCompPeriod (subscription : ℕ) (now : Time) (db : Db) : Option (ℕ × CompPeriod) :=
  (orderBy (fun r : ℕ × CompPeriod => OrderDual.toDual r.2.endsAt)
    (db.compPeriods.select (CompPeriod.Ahead subscription now))).head?

/-- The open window that entitles to the most: the highest plan, and of one plan the window
that runs longest. -/
def governingCompPeriod (env : Env) (subscription : ℕ) (now : Time) (db : Db) :
    Option (ℕ × CompPeriod) :=
  (orderBy (fun r : ℕ × CompPeriod => OrderDual.toDual (toLex
    (((env.settings.planRank r.2.plan).map Int.ofNat).getD (-1), r.2.endsAt)))
    (db.compPeriods.select (CompPeriod.Open subscription now))).head?

/-- The plan a live window entitles a user to. -/
def compPlanForUser (env : Env) (user : UserId) (now : Time) (db : Db) : Option String :=
  (findSubscription (some user) Subscription.user db).bind fun r =>
    (governingCompPeriod env r.1 now db).map fun comp => comp.2.plan

/-- The plan that governs a user right now: the higher of what the provider and what a comp
window entitle to, the provider's where neither is higher. -/
def effectivePlan (env : Env) (user : UserId) (now : Time) (db : Db) : String :=
  match findSubscription (some user) Subscription.user db with
  | none => defaultPlan
  | some (_, sub) =>
    let paid := if sub.status.isGranting then nonempty (some sub.plan) else none
    match paid, nonempty (compPlanForUser env user now db) with
    | some plan, some comp => if env.settings.outranks comp plan then comp else plan
    | some plan, none => plan
    | none, some comp => comp
    | none, none => defaultPlan

/-! ## Giving a window -/

/-- The arguments of `extend_subscription`; `sub` is the row as the caller read it. -/
structure ExtendArgs where
  subscription : ℕ
  sub : Subscription
  days : Option ℤ := none
  reason : String
  actor : String := ""
  plan : Option String := none
  until_ : Option Time := none
  starts : Option String := none
  stack : Bool := false
  grantBundle : Bool := false
  apply : Bool := false
  now : Option Time := none

/-- Why no window is given.  All but the last two are a `ValueError` that names what is
wrong. -/
inductive ExtendError
  | lengthOrEnd
  | noLength
  | badStart (starts : String)
  | noReason
  | defaultPlan (plan : String)
  | unknownPlan (slug : String) (configured : List String)
  | alreadyComped (subscription : ℕ) (endsAt : Time) (reason grantedBy : String)
  | emptyWindow (endsAt startsAt : Time)
  | integrityError
  | credit (error : BillingError)
  deriving DecidableEq

/-- What was done, or would be done under a dry run. -/
structure CompPeriodPreview where
  subscription : ℕ
  plan : String
  startsAt : Time
  endsAt : Time
  days : ℤ
  reason : String
  grantedBy : String
  applied : Bool := false
  stackedOn : Option ℕ := none
  compPeriod : Option ℕ := none
  upgradeFrom : Option String := none
  bundleCredits : Option ℤ := none
  bundlePlanCredits : Option ℤ := none
  bundleBaselinePlan : Option String := none
  bundleBaselineCredits : Option ℤ := none
  bundleExpiresAt : Option Time := none
  bundleNote : Option String := none
  bundleTransaction : Option ℕ := none
  deriving DecidableEq

/-- A day. -/
def day : Time := seconds 86400

/-- What is asked before the database is: a length or an end, a known start, a reason and a
plan worth giving.  Returns the plan. -/
def checkExtend (env : Env) (args : ExtendArgs) : Except ExtendError PlanCatalogEntry :=
  if args.days.isNone = args.until_.isNone then .error .lengthOrEnd
  else if ∃ days ∈ args.days, days ≤ 0 then .error .noLength
  else
    match args.starts.filter fun starts => starts ≠ "now" ∧ starts ≠ "period_end" with
    | some starts => .error (.badStart starts)
    | none =>
      if strip args.reason = "" then .error .noReason
      else
        let slug := (nonempty args.plan).getD args.sub.plan
        if slug = defaultPlan then .error (.defaultPlan slug)
        else
          match env.settings.getPlan (some slug) with
          | none => .error (.unknownPlan slug (env.settings.plans.map PlanCatalogEntry.slug))
          | some entry => .ok entry

/-- The plan the provider entitles to right now. -/
def baselinePlan (sub : Subscription) : String :=
  if sub.status.isGranting then sub.plan else defaultPlan

/-- Is a comp on this plan a step up from the paid plan? -/
def isUpgrade (env : Env) (slug : String) (sub : Subscription) : Bool :=
  sub.status.isGranting && env.settings.outranks slug (baselinePlan sub)

/-- The end of the period that is paid for, or now. -/
def paidUntil (sub : Subscription) (now : Time) : Time :=
  match sub.currentPeriodEnd with
  | some finish => if now < finish then finish else now
  | none => now

/-- When a window opens: an upgrade at once, any other where the window it stacks on or the
paid period ends. -/
def compStart (upgrade : Bool) (args : ExtendArgs) (now : Time) (existing : Option CompPeriod) : Time :=
  if args.starts = some "now" ∨ (args.starts = none ∧ upgrade = true) then now
  else
    match existing with
    | some comp => comp.endsAt
    | none => paidUntil args.sub now

/-- When it closes, and its length in days. -/
def compEnd (args : ExtendArgs) (startsAt : Time) : Except ExtendError (Time × ℤ) :=
  match args.until_ with
  | some endsAt =>
    if endsAt ≤ startsAt then .error (.emptyWindow endsAt startsAt)
    else .ok (endsAt, (endsAt - startsAt) / day)
  | none => .ok (startsAt + args.days.getD 0 * day, args.days.getD 0)

/-- The guard: a window that is already there has to be stacked on in so many words.  Up to
here the preview knows nothing of a bundle. -/
def previewExtension (env : Env) (now : Time) (args : ExtendArgs) (db : Db) :
    Except ExtendError CompPeriodPreview :=
  match checkExtend env args with
  | .error e => .error e
  | .ok entry =>
    let existing := latestCompPeriod args.subscription now db
    match if args.stack then none else existing with
    | some (_, comp) =>
      .error (.alreadyComped args.subscription comp.endsAt comp.reason comp.grantedBy)
    | none =>
      let upgrade := isUpgrade env entry.slug args.sub
      let startsAt := compStart upgrade args now (existing.map Prod.snd)
      match compEnd args startsAt with
      | .error e => .error e
      | .ok (endsAt, days) => .ok
        { subscription := args.subscription
          plan := entry.slug
          startsAt
          endsAt
          days
          reason := strip args.reason
          grantedBy := args.actor
          stackedOn := existing.map Prod.fst
          upgradeFrom := if upgrade then some (baselinePlan args.sub) else none }

/-- `_comp_bundle_is_live`: has the user credits of an earlier comp that time has not taken? -/
def compBundleIsLive (user : Option UserId) (now : Time) (db : Db) : Prop :=
  ∃ u ∈ user, db.transactions.select (fun row =>
    (∃ wallet ∈ db.wallets.get? row.wallet, wallet.user = some u) ∧
      row.metadata (.other "comped") = some (.bool true) ∧
      ∃ k ∈ row.lot, ∃ lot ∈ db.lots.get? k, ∃ e ∈ lot.expiresAt, now < e) ≠ []

instance (user : Option UserId) (now : Time) (db : Db) : Decidable (compBundleIsLive user now db) := by
  unfold compBundleIsLive; infer_instance

/-- The credits a plan bundles. -/
def Settings.bundleOf (s : Settings) (slug : String) : ℤ :=
  match s.getPlan (some slug) with
  | some entry => entry.monthlyCreditsIncluded
  | none => 0

/-- What a bundle comes to, and why it comes to nothing: its owner was erased, there is no
difference, or an earlier one is still alive. -/
def bundleDifference (now : Time) (args : ExtendArgs) (slug : String) (bundled included : ℤ) (db : Db) :
    ℤ × Option String :=
  let baseline := baselinePlan args.sub
  if args.sub.user = none then
    (0, some "the subscription's owner has been erased — there is no wallet to grant into")
  else if bundled - included ≤ 0 then
    (0, some s!"{slug} bundles {bundled} credit(s) and {baseline} already bundles {included} — nothing to add")
  else if compBundleIsLive args.sub.user now db then
    (0, some "a comp bundle granted earlier has not expired yet — not granting a second one (credits do not stack by accident any more than windows do)")
  else (bundled - included, none)

/-- The bundle of a window: what its plan bundles above the plan the account is on. -/
def previewBundle (env : Env) (now : Time) (args : ExtendArgs) (preview : CompPeriodPreview) (db : Db) :
    CompPeriodPreview :=
  if args.grantBundle then
    let bundled := env.settings.bundleOf preview.plan
    let included := env.settings.bundleOf (baselinePlan args.sub)
    let (credits, note) := bundleDifference now args preview.plan bundled included db
    { preview with
      bundleCredits := some credits
      bundlePlanCredits := some bundled
      bundleBaselinePlan := some (baselinePlan args.sub)
      bundleBaselineCredits := some included
      bundleExpiresAt := some preview.endsAt
      bundleNote := note }
  else preview

/-- The credit of a comp bundle. -/
def compBundleCredit (user : UserId) (credits : ℤ) (args : ExtendArgs) (preview : CompPeriodPreview)
    (comp : ℕ) : CreditArgs :=
  let plan := preview.plan
  let baseline := baselinePlan args.sub
  let reason := preview.reason
  { user
    credits
    type := .subscriptionBonus
    source := .subscription
    description := some s!"Comp bundle: {plan} minus {baseline} ({credits} credits) — {reason}"
    expiresAt := some preview.endsAt
    idempotencyKey := s!"comp-bundle:{comp}"
    metadata := ((((Metadata.empty.set (.other "comped") (.bool true)).set (.other "comp_period_id")
      (.ref .compPeriod comp)).set (.other "comp_reason") (.str reason)).set (.other "comp_plan")
      (.str plan)).set (.other "comp_baseline_plan") (.str baseline) }

/-- Grant the bundle, if there is one. -/
def grantCompBundle (env : Env) (args : ExtendArgs) (preview : CompPeriodPreview) (comp : ℕ) (db : Db) :
    Except ExtendError (Option ℕ × Db) :=
  match args.sub.user, preview.bundleCredits with
  | some user, some credits =>
    if credits = 0 then .ok (none, db)
    else
      match StapelBilling.credit env (compBundleCredit user credits args preview comp) db with
      | .error e => .error (.credit e)
      | .ok (txn, db) => .ok (some txn, db)
  | _, _ => .ok (none, db)

/-- `_announce_comp`. -/
def announceComp (env : Env) (now : Time) (sub : Subscription) (endsAt : Time) (db : Db) : Db :=
  match sub.user with
  | none => db
  | some user =>
    { db with
      outbox := db.outbox ++ [.subscriptionComped user (effectivePlan env user now db) sub.status
        sub.currentPeriodEnd sub.cancelAtPeriodEnd endsAt] }

/-- The write transaction: the window, its bundle and its announcement. -/
def writeExtension (env : Env) (now : Time) (args : ExtendArgs) (preview : CompPeriodPreview) (db : Db) :
    Except ExtendError (CompPeriodPreview × Db) :=
  match db.subscriptions.get? args.subscription with
  | none => .error .integrityError
  | some _ =>
    let comp := db.compPeriods.next
    let db : Db := { db with
      compPeriods := db.compPeriods.insert
        { subscription := args.subscription
          plan := preview.plan
          startsAt := preview.startsAt
          endsAt := preview.endsAt
          reason := preview.reason
          grantedBy := preview.grantedBy } }
    match grantCompBundle env args preview comp db with
    | .error e => .error e
    | .ok (txn, db) =>
      .ok ({ preview with
        applied := true
        compPeriod := some comp
        bundleTransaction := txn }, announceComp env now args.sub preview.endsAt db)

/-- Give a subscription comp time; a dry run unless `apply`. -/
def extendSubscription (env : Env) (args : ExtendArgs) (db : Db) :
    Except ExtendError (CompPeriodPreview × Db) :=
  let now := args.now.getD env.now
  match previewExtension env now args db with
  | .error e => .error e
  | .ok preview =>
    let preview := previewBundle env now args preview db
    if args.apply then writeExtension env now args preview db else .ok (preview, db)

end StapelBilling
