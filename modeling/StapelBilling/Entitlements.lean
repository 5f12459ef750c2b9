import StapelBilling.PlanBundles

/-! # Who is entitled to a bundle

The host's resolver yields what it likes: mappings with a user, a wallet or both, pairs of a
user and a plan, and rows nobody can use.  The normaliser passes on every row that names a
subject and a plan.  The sweep reads the user, the plan, the period, the credits and the
deadline of a row that was passed on; it does not read the wallet.
-/
namespace StapelBilling
open Store

/-- A user identifier as a resolver spells it; a malformed one is refused by the query on the
users. -/
inductive UserRef
  | known (user : UserId)
  | malformed

/-- A row of the resolver. -/
inductive ResolverRow
  | mapping (userId : Option UserRef) (walletId : Option ℕ) (plan : Option String)
      (periodKey : Option String) (credits : Option ℤ) (expiresAt : Option Time)
  | pair (userId : Option UserRef) (planSlug : Option String)
  | unusable

/-- A row that the normaliser passes on. -/
structure EntitlementRow where
  userId : Option UserRef
  walletId : Option ℕ := none
  plan : String
  periodKey : Option String := none
  credits : Option ℤ := none
  expiresAt : Option Time := none

/-- One row, normalised: a mapping without a subject or without a plan is dropped, a pair is
taken as it is. -/
def normaliseRow : ResolverRow → Option EntitlementRow
  | .mapping userId walletId plan periodKey credits expiresAt =>
    if userId.isNone ∧ walletId.isNone then none
    else (nonempty plan).map fun plan =>
      { userId
        walletId
        plan
        periodKey
        credits
        expiresAt }
  | .pair userId planSlug => some
      { userId
        -- a pair without a plan gets as far as the catalogue, which has no plan of that name
        plan := planSlug.getD "" }
  | .unusable => none

/-- The configured resolver, normalised. -/
def planBundleEntitlements (resolver : List ResolverRow) : List EntitlementRow :=
  resolver.filterMap normaliseRow

/-- What the sweep reads of a row.  A malformed user is refused where no user at all is, after
the plan's credits and before the claim. -/
def EntitlementRow.entitlement (row : EntitlementRow) : Entitlement where
  userId := match row.userId with
    | some (.known user) => some user
    | _ => none
  plan := row.plan
  periodKey := row.periodKey
  credits := row.credits
  expiresAt := row.expiresAt

/-- One run of the worker: what the resolver yields to it, and the period it was asked for. -/
structure BundleRun where
  env : Env
  resolver : List ResolverRow
  periodKey : Option String := none

/-- The rows a run accepts. -/
def BundleRun.accepted (run : BundleRun) : List EntitlementRow := planBundleEntitlements run.resolver

/-- The worker: it grants the rows that were passed on. -/
def BundleRun.exec (run : BundleRun) (db : Db) : ℕ × Db :=
  grantPlanBundles run.env (run.accepted.map EntitlementRow.entitlement) run.periodKey db

end StapelBilling
