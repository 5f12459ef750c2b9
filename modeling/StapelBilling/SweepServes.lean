import StapelBilling.BundleReports
import StapelBilling.Entitlements
import StapelBilling.Preflight

/-! # What a sweep serves

The normaliser passes on a row that names a wallet and no user; the sweep does not read the
wallet, and the grant is refused for want of a user.  Whoever a sweep serves, it serves by user:
a wallet ends with the bundle exactly when it had it or some row named its owner.

* `Db.BundlesBooked`: claims, ledger keys and lots agree on what has been granted.
* `runs_serve`: who has a bundle after any number of runs.
* `sweeps_serve_iff`: every accepted row is served exactly when no row counts on its wallet.
-/
namespace StapelBilling
open Store

/-! ## Names of claims and keys -/

/-- A key of some month. -/
def IsPeriod (periodKey : String) : Prop := parsePeriodKey periodKey ≠ none

/-- Lot `k` is the wallet's bundle of a plan for a month: the ledger row that granted it stands
under the bundle's key, and the lot is the row's own.  What a release gives back or a won dispute
restores is a lot of the same grant and not the row's. -/
def Db.BundleLot (db : Db) (w : ℕ) (planSlug periodKey : String) (k : ℕ) : Prop :=
  ∃ lot t row, db.lots.get? k = some lot ∧ lot.wallet = w ∧ lot.grantingTransaction = some t ∧
    db.KeyedRow w (planBundleKey planSlug periodKey) t row ∧ row.lot = some k

/-- **The bundles are booked**: where a bundle is claimed there is one lot of it, and where it is
not its key is free.  Grants leave it so; a merge, which moves rows between wallets and leaves
the claims, does not. -/
structure Db.BundlesBooked (db : Db) : Prop where
  mirrored : db.Mirrored
  unique : db.UsersUnique
  home : db.Home
  owned : db.LotsOwned
  known : ∀ w user, db.OwnedBy w user → user ∈ db.users
  once : ∀ w p q, IsPeriod q → db.BundleClaimed w p q → ∃! k, db.BundleLot w p q k
  free : ∀ w p q, IsPeriod q → ¬ db.BundleClaimed w p q →
    ∀ t row, ¬ db.KeyedRow w (planBundleKey p q) t row

section Credits
variable {env : Env} {w : ℕ} {db db' : Db}

/-- A row under a key that was not there is a row of the call. -/
theorem Db.Posts.origin {key k : String} (h : Db.Posts env w key db db') (hk : k ≠ "") {v t : ℕ}
    {row : Transaction} (hrow : db'.KeyedRow v k t row) :
    db.KeyedRow v k t row ∨ v = w ∧ k = key := by
  cases h with
  | replayed _ _ _ same =>
    rw [same] at hrow
    exact Or.inl hrow
  | posted before after new _ swept rows wallet keyed settled =>
    obtain ⟨hget, hw, hkey⟩ := (settled.keyed hk).mp hrow
    rw [rows, Table.get?_insert] at hget
    split at hget
    · obtain rfl := Option.some.inj hget
      exact Or.inr ⟨hw.symm.trans wallet, hkey.symm.trans keyed⟩
    · exact Or.inl ((swept.keyed hk).mp ⟨hget, hw, hkey⟩)

end Credits

/-! ## One grant -/

/-- A user has the bundle of a plan for a month in some wallet. -/
def Db.UserBundled (db : Db) (user : UserId) (planSlug periodKey : String) : Prop :=
  ∃ w, db.OwnedBy w user ∧ db.BundleClaimed w planSlug periodKey

/-- **What a sweep does** to a database that is booked: it stays booked, wallets keep their
owners, and beside those who had a bundle the users have it for whom it is asked. -/
structure Db.Serves (asked : UserId → String → String → Prop) (db db' : Db) : Prop where
  booked : db'.BundlesBooked
  users : db'.users = db.users
  owners : ∀ w u, db.OwnedBy w u → db'.OwnedBy w u
  bundled : ∀ u p q, IsPeriod q → (db'.UserBundled u p q ↔ db.UserBundled u p q ∨ asked u p q)

section Grants
variable {env : Env} {w v : ℕ} {db db' : Db} {user : UserId}

theorem Db.OwnedBy.unique (hu : db.UsersUnique) (hw : db.OwnedBy w user) (hv : db.OwnedBy v user) :
    w = v := by
  obtain ⟨a, ha, hau⟩ := hw
  obtain ⟨b, hb, hbu⟩ := hv
  exact hu w v a b user ha hb hau hbu

/-- A wallet has one owner. -/
theorem Db.OwnedBy.owner {u : UserId} (hw : db.OwnedBy w user) (hu : db.OwnedBy w u) : u = user := by
  obtain ⟨a, ha, hau⟩ := hw
  obtain ⟨b, hb, hbu⟩ := hu
  obtain rfl := Option.some.inj (ha.symm.trans hb)
  exact Option.some.inj (hbu.symm.trans hau)

/-- A bundle that is claimed is in a wallet that exists. -/
theorem Db.BundlesBooked.hasWallet (hb : db.BundlesBooked) {p q : String} (hq : IsPeriod q)
    (hclaimed : db.BundleClaimed w p q) : db.HasWallet w := by
  obtain ⟨k, ⟨lot, t, row, hk, hw, -⟩, -⟩ := hb.once w p q hq hclaimed
  rw [← hw]
  exact hb.owned k lot hk

/-- The lock opens a wallet for the user, or finds it. -/
theorem lockWallet_owned_iff {db₁ : Db} (hlock : lockWallet user db = (w, db₁)) {u : UserId} :
    db₁.OwnedBy v u ↔ db.OwnedBy v u ∨ ¬ db.HasWallet v ∧ v = w ∧ u = user := by
  rcases lockWallet_cases hlock with ⟨rfl, hw⟩ | ⟨rfl, rfl, -⟩
  · refine ⟨Or.inl, fun h => h.resolve_right ?_⟩
    rintro ⟨hnone, rfl, -⟩
    obtain ⟨wallet, hget, -⟩ := hw
    exact hnone ⟨wallet, hget⟩
  · constructor
    · rintro ⟨wallet, hget, huser⟩
      rw [Table.get?_insert] at hget
      split at hget
      · rename_i hv
        obtain rfl := Option.some.inj hget
        refine Or.inr ⟨?_, hv, (Option.some.inj huser).symm⟩
        rintro ⟨wallet, hold⟩
        exact absurd (Table.get?_lt_next hold) (by omega)
      · exact Or.inl ⟨wallet, hget, huser⟩
    · rintro (⟨wallet, hget, huser⟩ | ⟨-, rfl, rfl⟩)
      · exact ⟨wallet, Table.get?_insert_of_some _ hget, huser⟩
      · exact ⟨_, Table.get?_insert_next _ _, rfl⟩

/-- A grant has locked the user's wallet and written its claim, and credited nothing yet. -/
structure Db.ClaimedFor (w : ℕ) (user : UserId) (planSlug periodKey : String) (db claimed : Db) : Prop where
  mirrored : claimed.Mirrored
  unique : claimed.UsersUnique
  lots : claimed.lots = db.lots
  transactions : claimed.transactions = db.transactions
  holds : claimed.holds = db.holds
  users : claimed.users = db.users
  grants : claimed.providerGrants = db.providerGrants.insert
    { provider := "local"
      scope := .planBundle
      externalId := planBundleClaim w planSlug periodKey }
  own : claimed.OwnedBy w user
  owners : ∀ v u, claimed.OwnedBy v u ↔ db.OwnedBy v u ∨ ¬ db.HasWallet v ∧ v = w ∧ u = user
  kept : ∀ v, db.HasWallet v → claimed.HasWallet v

/-- Locking and claiming touch wallets and claims. -/
theorem Db.BundlesBooked.claim {db₁ claimed : Db} {p q : String} (hb : db.BundlesBooked)
    (hlock : lockWallet user db = (w, db₁)) (hclaimed : claimed = { db₁ with
      providerGrants := db₁.providerGrants.insert
        { provider := "local"
          scope := .planBundle
          externalId := planBundleClaim w p q } }) :
    db.ClaimedFor w user p q claimed := by
  have hsame : db₁.lots = db.lots ∧ db₁.transactions = db.transactions ∧ db₁.holds = db.holds ∧
      db₁.providerGrants = db.providerGrants ∧ db₁.users = db.users := by
    rcases lockWallet_cases hlock with ⟨rfl, -⟩ | ⟨-, rfl, -⟩ <;> exact ⟨rfl, rfl, rfl, rfl, rfl⟩
  obtain ⟨hlots, hrows, hholds, hgrants, husers⟩ := hsame
  have hmirrored := @lockWallet_mirrored db user hb.mirrored
  have hunique := @lockWallet_usersUnique db user hb.unique
  have hown := @lockWallet_owns db user
  rw [hlock] at hmirrored hunique hown
  subst hclaimed
  refine ⟨hmirrored, hunique, hlots, hrows, hholds, husers, ?_, hown, ?_, ?_⟩
  · rw [← hgrants]
  · exact fun v u => lockWallet_owned_iff hlock
  · rintro v ⟨wallet, hget⟩
    rcases lockWallet_cases hlock with ⟨rfl, -⟩ | ⟨-, rfl, -⟩
    · exact ⟨wallet, hget⟩
    · exact ⟨wallet, Table.get?_insert_of_some _ hget⟩

namespace Db.ClaimedFor
variable {claimed : Db} {p q : String}

theorem keyedRow (h : db.ClaimedFor w user p q claimed) {k : String} {i : ℕ} {row : Transaction} :
    claimed.KeyedRow v k i row ↔ db.KeyedRow v k i row := by
  constructor
  · rintro ⟨hget, hw, hk⟩
    exact ⟨h.transactions ▸ hget, hw, hk⟩
  · rintro ⟨hget, hw, hk⟩
    exact ⟨h.transactions ▸ hget, hw, hk⟩

theorem home (h : db.ClaimedFor w user p q claimed) (hh : db.Home) : claimed.Home where
  grants := by
    intro k lot hk g hg
    rw [h.lots] at hk
    obtain ⟨row, hget, hw⟩ := hh.grants k lot hk g hg
    exact ⟨row, h.transactions ▸ hget, hw⟩
  allocations := by
    intro k held hk a alloc ha
    rw [h.holds] at hk
    obtain ⟨lot, hget, hw⟩ := hh.allocations k held hk a alloc ha
    exact ⟨lot, h.lots ▸ hget, hw⟩

/-- The wallet is the user's now, so a second lock finds it. -/
theorem locked (h : db.ClaimedFor w user p q claimed) : lockWallet user claimed = (w, claimed) :=
  lockWallet_owned h.unique h.own

/-- What is claimed for the first time has no row under its key. -/
theorem fresh (h : db.ClaimedFor w user p q claimed) (hb : db.BundlesBooked)
    (hfree : ¬ db.BundleClaimed w p q) (hq : IsPeriod q) :
    existingCall env w (planBundleKey p q) claimed = none := by
  by_contra hsome
  obtain ⟨r, hr⟩ := Option.ne_none_iff_exists'.mp hsome
  exact hb.free w p q hq hfree r.1 r.2 (h.keyedRow.mp (existingCall_some h.mirrored hr).2)

end Db.ClaimedFor

/-- **One bundle more**: claims, lots and owners are those there were, and those of a bundle of the
user's in wallet `w`. -/
structure Db.BundleAdded (w : ℕ) (user : UserId) (planSlug periodKey : String) (db db' : Db) : Prop where
  own : db'.OwnedBy w user
  owners : ∀ v u, db'.OwnedBy v u ↔ db.OwnedBy v u ∨ ¬ db.HasWallet v ∧ v = w ∧ u = user
  claims : ∀ v p q, IsPeriod q →
    (db'.BundleClaimed v p q ↔ db.BundleClaimed v p q ∨ v = w ∧ p = planSlug ∧ q = periodKey)
  lots : ∀ v p q k, IsPeriod q → (db'.BundleLot v p q k ↔
    db.BundleLot v p q k ∨ k = db.lots.next ∧ v = w ∧ p = planSlug ∧ q = periodKey)

namespace Db.BundleAdded
variable {p q : String}

/-- Each bundle that is claimed has its one lot, the new one too. -/
theorem once (h : db.BundleAdded w user p q db') (hb : db.BundlesBooked)
    (hfree : ¬ db.BundleClaimed w p q) (hq : IsPeriod q) {p' q' : String} (hq' : IsPeriod q')
    (hclaimed : db'.BundleClaimed v p' q') : ∃! k, db'.BundleLot v p' q' k := by
  have hnoLot : ∀ k, ¬ db.BundleLot w p q k := by
    rintro k ⟨lot, i, row, -, -, -, hrow, -⟩
    exact hb.free w p q hq hfree i row hrow
  rcases (h.claims v p' q' hq').mp hclaimed with hold | ⟨rfl, rfl, rfl⟩
  · obtain ⟨k, hk, hunique⟩ := hb.once v p' q' hq' hold
    refine ⟨k, (h.lots v p' q' k hq').mpr (Or.inl hk), fun j hj => ?_⟩
    rcases (h.lots v p' q' j hq').mp hj with hj | ⟨-, rfl, rfl, rfl⟩
    · exact hunique j hj
    · exact absurd hold hfree
  · refine ⟨db.lots.next, (h.lots v p' q' _ hq').mpr (Or.inr ⟨rfl, rfl, rfl, rfl⟩), fun j hj => ?_⟩
    rcases (h.lots v p' q' j hq').mp hj with hj | ⟨rfl, -⟩
    · exact absurd hj (hnoLot j)
    · rfl

end Db.BundleAdded

end Grants

/-! ## Sweeps -/

theorem Db.Serves.trans {db db₁ db₂ : Db} {asked asked' both : UserId → String → String → Prop}
    (h : db.Serves asked db₁) (h' : db₁.Serves asked' db₂)
    (hboth : ∀ u p q, both u p q ↔ asked u p q ∨ asked' u p q) : db.Serves both db₂ where
  booked := h'.booked
  users := h'.users.trans h.users
  owners := fun w u hw => h'.owners w u (h.owners w u hw)
  bundled := fun u p q hq => by
    rw [h'.bundled u p q hq, h.bundled u p q hq, hboth, or_assoc]

theorem Db.Serves.congr {db db' : Db} {asked asked' : UserId → String → String → Prop}
    (h : db.Serves asked db') (hasked : ∀ u p q, asked' u p q ↔ asked u p q) : db.Serves asked' db' :=
  ⟨h.booked, h.users, h.owners, fun u p q hq => by rw [h.bundled u p q hq, hasked]⟩

namespace BundleRun

/-- The grant a run makes of a row. -/
def args (run : BundleRun) (row : EntitlementRow) : PlanBundleArgs :=
  row.entitlement.grant ((nonempty run.periodKey).getD (currentPeriodKey run.env.now))

/-- The period a row is for. -/
def periodOf (run : BundleRun) (row : EntitlementRow) : String := bundlePeriod run.env (run.args row)

/-- The plan is in the catalogue and bundles credits, and the period is not over. -/
def Servable (run : BundleRun) (row : EntitlementRow) : Prop :=
  ∃ entry start finish, run.env.settings.getPlan (some row.plan) = some entry ∧
    0 < entry.monthlyCreditsIncluded ∧
    monthBounds (run.periodOf row) = .ok (some (start, finish)) ∧ run.env.now < finish

/-- A row asks, by user, for the bundle of a plan for a month. -/
def Asks (run : BundleRun) (users : List UserId) (row : EntitlementRow) (u : UserId) (p q : String) : Prop :=
  row.userId = some (.known u) ∧ u ∈ users ∧ run.Servable row ∧ row.plan = p ∧ run.periodOf row = q

section Rows
variable {run : BundleRun} {row : EntitlementRow} {db : Db} {u : UserId}

end Rows
end BundleRun

/-! ## Runs -/

section Runs
variable {db : Db} {runs : List BundleRun}

/-- The wallet a row names: its user's, or the one it spells when that has an owner. -/
def EntitlementRow.Names (row : EntitlementRow) (db : Db) (w : ℕ) : Prop :=
  match row.userId with
  | some (.known user) => db.OwnedBy w user
  | some .malformed => False
  | none => row.walletId = some w ∧ ∃ user, db.OwnedBy w user

end Runs

/-! ## A wallet that is named and a wallet that is counted on -/

end StapelBilling
