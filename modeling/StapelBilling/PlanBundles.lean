import StapelBilling.Checkout

/-! # Plan bundles without a provider

A plan whose bundle no provider sells is granted by a sweep, by a host or by an operator,
once per wallet, plan and period.  The claim row names the wallet, the ledger key only the
plan and the period; the lot dies with the period.
-/
namespace StapelBilling
open Store

/-! ## Months -/

/-- The days from the epoch to the first of a month; years are counted from March, so that
the leap day comes last. -/
def monthStartDay (year month : ℤ) : ℤ :=
  let year := if month ≤ 2 then year - 1 else year
  let era := year / 400
  let yearOfEra := year - era * 400
  let dayOfYear := (153 * ((month + 9) % 12) + 2) / 5
  era * 146097 + (yearOfEra * 365 + yearOfEra / 4 - yearOfEra / 100 + dayOfYear) - 719468

/-- The year and month of an instant. -/
def yearAndMonth (now : Time) : ℤ × ℤ :=
  let day := now / seconds 86400 + 719468
  let era := day / 146097
  let dayOfEra := day - era * 146097
  let yearOfEra := (dayOfEra - dayOfEra / 1460 + dayOfEra / 36524 - dayOfEra / 146096) / 365
  let dayOfYear := dayOfEra - (365 * yearOfEra + yearOfEra / 4 - yearOfEra / 100)
  let fromMarch := (5 * dayOfYear + 2) / 153
  let month := if fromMarch < 10 then fromMarch + 3 else fromMarch - 9
  (yearOfEra + era * 400 + if month ≤ 2 then 1 else 0, month)

/-- The key of the current period, `YYYY-MM`. -/
def currentPeriodKey (now : Time) : String :=
  let (year, month) := yearAndMonth now
  if month < 10 then s!"{year}-0{month}" else s!"{year}-{month}"

def digit (c : Char) : Option ℕ := if c.isDigit then some (c.toNat - 48) else none

/-- The month of a period key, in the digits the pattern spells out. -/
def parseMonth : List Char → Option ℕ
  | [c] => (digit c).filter fun m => 1 ≤ m
  | ['0', c] => (digit c).filter fun m => 1 ≤ m
  | ['1', c] => ((digit c).filter fun m => m ≤ 2).map fun m => 10 + m
  | _ => none

/-- Year and month of a `YYYY-MM` key; nothing when it is none.  The year is in digits of any
script. -/
def parsePeriodKey (key : String) : Option (ℕ × ℕ) :=
  match key.toList with
  | a :: b :: c :: d :: '-' :: month =>
    match decimalDigit a, decimalDigit b, decimalDigit c, decimalDigit d, parseMonth month with
    | some a, some b, some c, some d, some month =>
      let year := 1000 * a + 100 * b + 10 * c + d
      if year = 0 then none else some (year, month)
    | _, _, _, _, _ => none
  | _ => none

/-- Where the month of a period key begins and ends.  The last month there is has no end. -/
def monthBounds (key : String) : Except BillingError (Option (Time × Time)) :=
  match parsePeriodKey key with
  | none => .ok none
  | some (year, month) =>
    if year = 9999 ∧ month = 12 then .error (.valueError "year 10000 is out of range")
    else
      let finish := if month = 12 then monthStartDay (year + 1) 1 else monthStartDay year (month + 1)
      .ok (some (monthStartDay year month * seconds 86400, finish * seconds 86400))

example : yearAndMonth (monthStartDay 2096 2 * seconds 86400 - 1) = (2096, 1) ∧
    monthStartDay 1970 1 = 0 ∧ monthStartDay 2000 3 - monthStartDay 2000 2 = 29 := by decide

/-! ## The grant -/

/-- The arguments of `grant_plan_bundle`; `wallet` is a wallet as the caller read it, with
its owner. -/
structure PlanBundleArgs where
  user : Option UserId := none
  userId : Option UserId := none
  wallet : Option (ℕ × Option UserId) := none
  planSlug : String
  periodKey : Option String := none
  credits : Option ℤ := none
  expiresAt : Option Time := none
  type : TransactionType := .subscriptionBonus
  source : LotSource := .subscription
  description : Option String := none
  metadata : Metadata := Metadata.empty

/-- A bundle that is due to someone: what is left to do is to claim it and to credit it. -/
structure PlanBundle where
  user : UserId
  wallet : Option ℕ
  periodKey : String
  credits : ℤ
  expiresAt : Time

/-- The credits of a bundle: what the caller says, else what the plan includes. -/
def bundleCredits (env : Env) (args : PlanBundleArgs) : Option ℤ :=
  args.credits.or ((env.settings.getPlan (some args.planSlug)).map
    PlanCatalogEntry.monthlyCreditsIncluded)

/-- Whose bundle it is; an error without any name, nobody where the user is not known. -/
def bundleUser (args : PlanBundleArgs) (db : Db) : Except BillingError (Option UserId) :=
  match args.user with
  | some user => .ok (some user)
  | none =>
    match args.userId.or (args.wallet.bind Prod.snd) with
    | none => .error (.valueError "grant_plan_bundle needs user, user_id or wallet")
    | some user => .ok (if user ∈ db.users then some user else none)

/-- The period a call is about. -/
def bundlePeriod (env : Env) (args : PlanBundleArgs) : String :=
  (nonempty args.periodKey).getD (currentPeriodKey env.now)

/-- When a bundle dies; nothing for a period that has no end. -/
def bundleDeadline (env : Env) (args : PlanBundleArgs) : Except BillingError (Option Time) :=
  match args.expiresAt with
  | some deadline => .ok (some deadline)
  | none => (monthBounds (bundlePeriod env args)).map fun bounds => bounds.map Prod.snd

/-- Everything `grant_plan_bundle` asks before it claims: no credits, no user, no deadline
or a period that is over, and nothing is granted. -/
def dueBundle (env : Env) (args : PlanBundleArgs) (db : Db) :
    Except BillingError (Option PlanBundle) :=
  match bundleCredits env args with
  | none => .ok none
  | some credits =>
    if credits ≤ 0 then .ok none
    else
      match bundleUser args db with
      | .error e => .error e
      | .ok none => .ok none
      | .ok (some user) =>
        match bundleDeadline env args with
        | .error e => .error e
        | .ok none => .ok none
        | .ok (some expiresAt) =>
          if expiresAt ≤ env.now then .ok none
          else .ok (some {
            user
            wallet := args.wallet.map Prod.fst
            periodKey := bundlePeriod env args
            credits
            expiresAt })

/-- The claim on a bundle. -/
def planBundleClaim (wallet : ℕ) (planSlug periodKey : String) : String :=
  s!"{wallet}:{planSlug}:{periodKey}"

/-- The ledger key of a bundle. -/
def planBundleKey (planSlug periodKey : String) : String := s!"plan-bundle:{planSlug}:{periodKey}"

/-- The credit of a bundle. -/
def planBundleCredit (args : PlanBundleArgs) (bundle : PlanBundle) : CreditArgs :=
  { user := bundle.user
    credits := bundle.credits
    type := args.type
    source := args.source
    description := orText args.description
      (some s!"Plan bundle: {args.planSlug} ({bundle.periodKey})")
    metadata := ((args.metadata.set .plan (.str args.planSlug)).set (.other "period_key")
      (.str bundle.periodKey)).set (.other "grant") (.str "plan_bundle")
    expiresAt := some bundle.expiresAt
    idempotencyKey := planBundleKey args.planSlug bundle.periodKey }

/-- The wallet whose claim a bundle takes: the caller's, else the user's. -/
def bundleWallet (bundle : PlanBundle) (db : Db) : ℕ × Db :=
  match bundle.wallet with
  | some w => (w, db)
  | none => lockWallet bundle.user db

/-- Grant one period's bundle.  Returns the grant's ledger row, or nothing when there was
nothing to grant. -/
def grantPlanBundle (env : Env) (args : PlanBundleArgs) (db : Db) :
    Except BillingError (Option ℕ × Db) :=
  match dueBundle env args db with
  | .error e => .error e
  | .ok none => .ok (none, db)
  | .ok (some bundle) =>
    let (w, db) := bundleWallet bundle db
    match claimProviderObject .planBundle
        (some (planBundleClaim w args.planSlug bundle.periodKey)) "local" db with
    | none => .ok (none, db)
    | some db =>
      match credit env (planBundleCredit args bundle) db with
      | .error e => .error e
      | .ok (txn, db) => .ok (some txn, db)

/-! ## The sweep -/

/-- One entitlement, as the host's resolver yields it. -/
structure Entitlement where
  userId : Option UserId
  plan : String
  periodKey : Option String := none
  credits : Option ℤ := none
  expiresAt : Option Time := none

/-- The grant an entitlement calls for; `period` stands in for a row without its own. -/
def Entitlement.grant (period : String) (row : Entitlement) : PlanBundleArgs where
  userId := row.userId
  planSlug := row.plan
  periodKey := some ((nonempty row.periodKey).getD period)
  credits := row.credits
  expiresAt := row.expiresAt

/-- One grant of the sweep: it counts when it returns a ledger row, and one that fails is
passed over. -/
def grantAndCount (env : Env) (granted : ℕ × Db) (args : PlanBundleArgs) : ℕ × Db :=
  match grantPlanBundle env args granted.2 with
  | .ok (some _, db) => (granted.1 + 1, db)
  | .ok (none, db) => (granted.1, db)
  | .error _ => granted

/-- The grants a sweep over these entitlements makes. -/
def sweepGrants (env : Env) (rows : List Entitlement) (periodKey : Option String) :
    List PlanBundleArgs :=
  rows.map fun row => row.grant ((nonempty periodKey).getD (currentPeriodKey env.now))

/-- Grant the entitlements one by one.  Returns how many were granted. -/
def grantPlanBundles (env : Env) (rows : List Entitlement) (periodKey : Option String) (db : Db) :
    ℕ × Db :=
  (sweepGrants env rows periodKey).foldl (grantAndCount env) (0, db)

end StapelBilling
