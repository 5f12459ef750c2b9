import StapelBilling.Models

/-! # Settings, catalogue and the environment of a call

What a call reads besides the database: the deployment's settings and
catalogue, the clock, and the creation stamps and random identifiers that the
database and the uuid generator hand to new rows.  None of it is under the
caller's or the module's control, so every statement quantifies over it.
-/
namespace StapelBilling

/-! ## The catalogue -/

/-- A one-off package. -/
structure CreditPackage where
  slug : String
  name : String
  credits : ℤ
  priceCents : ℤ
  currency : String := "USD"

/-- A subscription plan. -/
structure PlanCatalogEntry where
  slug : String
  name : String
  priceCents : ℤ
  monthlyCreditsIncluded : ℤ
  currency : String := "USD"

def defaultCreditPackages : List CreditPackage :=
  [{ slug := "starter", name := "Starter", credits := 500, priceCents := 500 },
   { slug := "standard", name := "Standard", credits := 2200, priceCents := 2000 },
   { slug := "bulk", name := "Bulk", credits := 6000, priceCents := 5000 }]

def defaultPlans : List PlanCatalogEntry :=
  [{ slug := "free", name := "Free", priceCents := 0, monthlyCreditsIncluded := 0 },
   { slug := "pro", name := "Pro", priceCents := 1500, monthlyCreditsIncluded := 300 },
   { slug := "team", name := "Team", priceCents := 2500, monthlyCreditsIncluded := 600 },
   { slug := "enterprise", name := "Enterprise", priceCents := 0, monthlyCreditsIncluded := 0 }]

/-! ## Settings -/

/-- What happens when one of the deployment's own people spends. -/
inductive InternalPolicy
  | charge | meterOnly
  deriving DecidableEq, Repr

/-- The settings the modelled code reads, with their defaults.  The resolver
answers `none` where the host's callable raises. -/
structure Settings where
  creditPackages : List CreditPackage := defaultCreditPackages
  plans : List PlanCatalogEntry := defaultPlans
  holdDefaultTtlSeconds : ℤ := 3600
  legacyIdempotencyJsonLookup : Bool := true
  strictCheckoutReconciliation : Bool := true
  internalAccountPolicy : InternalPolicy := .charge
  internalAccountResolver : UserId → Option Bool := fun _ => some false
  mergeForfeitLotSources : List LotSource := [.grant]
  notifyMaxAgeSeconds : ℤ := 7 * 24 * 3600
  billingPageUrl : String := ""

namespace Settings
variable (s : Settings)

/-- `hold_default_ttl_seconds()`: never negative, `0` for never sweep. -/
def holdTtl : ℤ := max s.holdDefaultTtlSeconds 0

/-- The configured plan with this slug. -/
def getPlan : Option String → Option PlanCatalogEntry
  | none => none
  | some slug => if slug = "" then none else s.plans.find? fun entry => entry.slug = slug

/-- The configured package with this slug: the last entry wins, as in a dict built
from the list. -/
def creditPackageBySlug (slug : String) : Option CreditPackage :=
  s.creditPackages.reverse.find? fun entry => entry.slug = slug

/-- `is_internal`: a resolver that raises answers no. -/
def isInternal (user : Option UserId) : Bool :=
  match user with
  | none => false
  | some u => (s.internalAccountResolver u).getD false

/-- Should this user's spend be recorded at zero cost? -/
def meterOnly (user : Option UserId) : Bool :=
  s.internalAccountPolicy = .meterOnly && s.isInternal user

end Settings

/-! ## Meter-only marks -/

/-- Stamp metadata as a waived, metered operation costing `credits`. -/
def Metadata.mark (m : Metadata) (credits : ℤ) : Metadata :=
  (m.set .internalMeterOnly (.bool true)).set .waivedCredits (.int credits)

/-- Did this row come out of the meter-only branch? -/
def Metadata.wasWaived (m : Metadata) : Bool := m.truthy .internalMeterOnly

/-! ## The environment -/

/-- Everything a call reads outside the database: the settings, `timezone.now()`,
and the creation stamp and identifier order the row with a given key is born
with. -/
structure Env where
  settings : Settings := {}
  now : Time
  createdAt : ℕ → Time
  uuid : ℕ → ℕ

end StapelBilling
