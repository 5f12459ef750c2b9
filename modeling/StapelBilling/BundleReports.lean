import StapelBilling.PlanBundles
import StapelBilling.BundlePeriod
import StapelBilling.Retries
import StapelBilling.MergeRuns

/-! # What a bundle's grant reports

Two guards stand before a bundle: the claim, which names the wallet, and the ledger key,
which every ledger row takes along into another wallet.  No bundle is granted twice on a
ledger, since the key is asked last.  But where the claim is free and the key is not, as
after a merge, the credit finds the old row and hands it out: **a grant is reported that
was not made**.  A call reports what it did exactly when it does not meet that state.
-/
namespace StapelBilling
open Store

/-! ## What a credit adds -/

section Credits
variable {env : Env} {args : CreditArgs} {db db' : Db} {t w : ℕ}

/-- A lot that `db'` has and `db` had not. -/
def Db.Adds (db db' : Db) (k : ℕ) (lot : CreditLot) : Prop :=
  db.lots.get? k = none ∧ db'.lots.get? k = some lot

theorem not_adds_of_lots (h : db'.lots = db.lots) (k : ℕ) (lot : CreditLot) :
    ¬ db.Adds db' k lot := by
  rintro ⟨hold, hnew⟩
  rw [h, hold] at hnew
  cases hnew

/-- The state a credit works on before its debts are settled. -/
theorem grant_lot_next (db₁ : Db) : (grant env w args (db₁.swept env w)).lots.get? db₁.lots.next =
    some (grantLot env w args (db₁.swept env w)) := by
  have hnext : (db₁.swept env w).lots.next = db₁.lots.next := expireDueLots_lots_next db₁
  rw [← hnext]
  exact Table.get?_insert_next _ _

/-- **A credit adds one lot, or finds its row**: the lot is the user's and names the row that is
returned, which stands in the user's ledger under the key. -/
theorem credit_adds (h : credit env args db = .ok (t, db')) :
    (existingCall env (lockWallet args.user db).1 args.idempotencyKey db ≠ none ∧
      db'.lots = db.lots) ∨
    (existingCall env (lockWallet args.user db).1 args.idempotencyKey db = none ∧
      (∃ lot, db.Adds db' db.lots.next lot) ∧
      (∀ k lot, db.Adds db' k lot → k = db.lots.next ∧ lot.wallet = (lockWallet args.user db).1 ∧
        lot.grantingTransaction = some t) ∧
      ∃ row, db'.transactions.get? t = some row ∧ row.wallet = (lockWallet args.user db).1 ∧
        row.idempotencyKey = args.idempotencyKey ∧ row.lot = some db.lots.next) := by
  obtain ⟨w, db₁, hlock, hpos, halive, hcase⟩ := credit_cases h
  have hlocked : db₁.lots = db.lots ∧ db₁.transactions = db.transactions := by
    rcases lockWallet_cases hlock with ⟨rfl, -⟩ | ⟨-, rfl, -⟩
    · exact ⟨rfl, rfl⟩
    · exact ⟨rfl, rfl⟩
  have hlookup : existingCall env w args.idempotencyKey db₁ =
      existingCall env w args.idempotencyKey db := by
    unfold existingCall transactionByIdempotencyKey
    rw [hlocked.2]
  rw [hlock]
  rcases hcase with ⟨row, hex, rfl⟩ | ⟨hex, htxn, hcase⟩
  · refine Or.inl ⟨?_, hlocked.1⟩
    rw [← hlookup, hex]
    exact Option.some_ne_none _
  · -- past the grant there is only settling, which adds no lot
    have hgrown : (grant env w args (db₁.swept env w)).Grows w db' := by
      rcases hcase with ⟨-, rfl⟩ | ⟨-, n, hsettle⟩
      · exact Db.Grows.refl _
      · exact Moves.grows (settleDebts_ok (P := fun _ => True) (fun _ _ _ _ => trivial) hsettle)
    have hnoLot : ∀ k, (grant env w args (db₁.swept env w)).lots.get? k = none →
        db'.lots.get? k = none := by
      rcases hcase with ⟨-, rfl⟩ | ⟨-, n, hsettle⟩
      · exact fun _ hk => hk
      · exact fun _ hk => settleDebts_no_lot hsettle hk
    have hnext : db₁.lots.next = db.lots.next := congrArg Table.next hlocked.1
    obtain ⟨lot, hlot, hsame⟩ := hgrown.lots.kept _ _ (@grant_lot_next env args w db₁)
    refine Or.inr ⟨hlookup ▸ hex, ⟨lot, Table.get?_next _, hnext ▸ hlot⟩, ?_, ?_⟩
    · rintro k other ⟨hold, hnew⟩
      -- a lot that is new is the one the grant inserted
      have hk : k = db₁.lots.next := by
        by_contra hne
        have hnone : (grant env w args (db₁.swept env w)).lots.get? k = none := by
          have hswept : (db₁.swept env w).lots.get? k = none := by
            rw [swept_lot, hlocked.1, hold]
            rfl
          have hnext' : (db₁.swept env w).lots.next = db₁.lots.next := expireDueLots_lots_next db₁
          rw [← hnext'] at hne
          exact (Table.get?_insert_of_ne _ hne).trans hswept
        rw [hnoLot k hnone] at hnew
        cases hnew
      rw [hk, hlot] at hnew
      obtain rfl := Option.some.inj hnew
      rw [hsame, htxn]
      exact ⟨hk.trans hnext, rfl, rfl⟩
    · obtain ⟨row, hrow, hw, hkey, hlotOf⟩ : ∃ row,
          (grant env w args (db₁.swept env w)).transactions.get? t = some row ∧ row.wallet = w ∧
            row.idempotencyKey = args.idempotencyKey ∧
            row.lot = some (db₁.swept env w).lots.next :=
        ⟨_, htxn ▸ Table.get?_insert_next _ _, rfl, rfl, rfl⟩
      have hsweptNext : (db₁.swept env w).lots.next = db₁.lots.next := expireDueLots_lots_next db₁
      obtain ⟨row', hget, hrowSame⟩ := hgrown.transactions.kept t row hrow
      refine ⟨row', hget, ?_, ?_, ?_⟩
      · rw [hrowSame]
        exact hw
      · rw [hrowSame]
        exact hkey
      · rw [hrowSame, ← hnext, ← hsweptNext]
        exact hlotOf

end Credits

/-! ## What a grant reports -/

section Grants
variable {env : Env} {args : PlanBundleArgs} {db db' : Db} {answer : Option ℕ}

/-- A ledger row of a plan's bundle for a period stands under the bundle's key. -/
def Transaction.IsBundle (row : Transaction) (planSlug periodKey : String) : Prop :=
  row.idempotencyKey = planBundleKey planSlug periodKey

/-- **What a grant should do**: add a lot only where the ledger has no row of the bundle, and
report its row exactly when it added one. -/
structure PlanBundleArgs.GrantedTruly (env : Env) (args : PlanBundleArgs) (db : Db)
    (answer : Option ℕ) (db' : Db) : Prop where
  once : ∀ k lot, db.Adds db' k lot → ∀ j row, db.transactions.get? j = some row →
    row.wallet = lot.wallet → ¬ row.IsBundle args.planSlug (bundlePeriod env args)
  reported : (∃ t, answer = some t) ↔ ∃ k lot, db.Adds db' k lot
  row : ∀ k lot, db.Adds db' k lot → lot.grantingTransaction = answer ∧
    ∃ t row, answer = some t ∧ db'.transactions.get? t = some row ∧ row.wallet = lot.wallet ∧
      row.IsBundle args.planSlug (bundlePeriod env args)

/-- Whatever a grant answers, it did. -/
def PlanBundleArgs.Truthful (env : Env) (args : PlanBundleArgs) (db : Db) : Prop :=
  ∀ answer db', grantPlanBundle env args db = .ok (answer, db') →
    args.GrantedTruly env db answer db'

/-- Is there a claim on a bundle? -/
def Db.BundleClaimed (db : Db) (w : ℕ) (planSlug periodKey : String) : Prop :=
  ∃ k grant, db.providerGrants.get? k = some grant ∧ grant.provider = "local" ∧
    grant.scope = .planBundle ∧ grant.externalId = planBundleClaim w planSlug periodKey

/-- **The guards agree** on a call: where it has a bundle to grant and the claim is free, no
row answers the bundle's key in the user's ledger. -/
def PlanBundleArgs.GuardsAgree (env : Env) (args : PlanBundleArgs) (db : Db) : Prop :=
  ∀ bundle, dueBundle env args db = .ok (some bundle) →
    db.BundleClaimed (bundleWallet bundle db).1 args.planSlug bundle.periodKey ∨
      existingCall env (lockWallet bundle.user db).1
        (planBundleKey args.planSlug bundle.periodKey) db = none

theorem claimBundle_none_iff {w : ℕ} {planSlug periodKey : String} :
    claimProviderObject .planBundle (some (planBundleClaim w planSlug periodKey)) "local" db = none ↔
      db.BundleClaimed w planSlug periodKey := by
  have hne : planBundleClaim w planSlug periodKey ≠ "" := by
    intro hempty
    have hlength := congrArg String.length hempty
    simp [planBundleClaim] at hlength
  unfold claimProviderObject Db.BundleClaimed
  simp only [if_neg hne]
  split
  · rename_i r hfind
    exact iff_of_true rfl ⟨r.1, r.2, Table.find?_some hfind⟩
  · rename_i hnone
    refine iff_of_false (fun h => by cases h) ?_
    rintro ⟨k, grant, hk, hgrant⟩
    exact Table.find?_none hnone hk hgrant

theorem bundleClaimed_congr {w : ℕ} {planSlug periodKey : String}
    (h : db'.providerGrants = db.providerGrants) :
    db'.BundleClaimed w planSlug periodKey ↔ db.BundleClaimed w planSlug periodKey := by
  unfold Db.BundleClaimed
  rw [h]

/-- The period of a bundle is the period of the call. -/
theorem dueBundle_period {bundle : PlanBundle} (h : dueBundle env args db = .ok (some bundle)) :
    bundle.periodKey = bundlePeriod env args := by
  unfold dueBundle at h
  split at h
  · cases h
  · split at h
    · cases h
    · split at h
      · cases h
      · cases h
      · split at h
        · cases h
        · cases h
        · split at h
          · cases h
          · obtain rfl := Option.some.inj (Except.ok.inj h)
            rfl

/-- Taking the wallet for the claim leaves lots, ledger and claims, and the user's wallet is
found again. -/
theorem bundleWallet_frame (bundle : PlanBundle) (db : Db) :
    (bundleWallet bundle db).2.lots = db.lots ∧
      (bundleWallet bundle db).2.transactions = db.transactions ∧
      (bundleWallet bundle db).2.providerGrants = db.providerGrants ∧
      (lockWallet bundle.user (bundleWallet bundle db).2).1 = (lockWallet bundle.user db).1 := by
  unfold bundleWallet
  cases bundle.wallet with
  | some w => exact ⟨rfl, rfl, rfl, rfl⟩
  | none =>
    unfold lockWallet
    cases hfind : db.wallets.find? fun wallet => wallet.user = some bundle.user with
    | some r =>
      refine ⟨rfl, rfl, rfl, ?_⟩
      dsimp only
      rw [hfind]
    | none =>
      refine ⟨rfl, rfl, rfl, ?_⟩
      dsimp only
      rw [Table.find?_insert_of_none hfind rfl]

theorem planBundleKey_ne (planSlug periodKey : String) : planBundleKey planSlug periodKey ≠ "" := by
  intro hempty
  have hparts := hempty
  simp only [planBundleKey, String.append_eq_empty_iff] at hparts
  exact absurd hparts.1.2 (by decide)

/-- A claim writes nothing but itself. -/
theorem claimProviderObject_frame {scope : GrantScope} {ext : Option String} {provider : String}
    (h : claimProviderObject scope ext provider db = some db') : db'.lots = db.lots ∧
      db'.transactions = db.transactions ∧ db'.wallets = db.wallets := by
  obtain ⟨e, -, -, -, rfl⟩ := claimProviderObject_some h
  exact ⟨rfl, rfl, rfl⟩

/-- What a grant comes to. -/
theorem grantPlanBundle_cases (h : grantPlanBundle env args db = .ok (answer, db')) :
    (answer = none ∧ db'.lots = db.lots) ∨
    ∃ bundle t, dueBundle env args db = .ok (some bundle) ∧ answer = some t ∧
      ¬ db.BundleClaimed (bundleWallet bundle db).1 args.planSlug bundle.periodKey ∧
      ∃ claimed, claimed.lots = db.lots ∧ claimed.transactions = db.transactions ∧
        (lockWallet bundle.user claimed).1 = (lockWallet bundle.user db).1 ∧
        credit env (planBundleCredit args bundle) claimed = .ok (t, db') := by
  unfold grantPlanBundle at h
  split at h
  · cases h
  · obtain ⟨rfl, rfl⟩ := Prod.mk.inj (Except.ok.inj h)
    exact Or.inl ⟨rfl, rfl⟩
  · rename_i bundle hdue
    obtain ⟨hlots, hrows, hgrants, hwallet⟩ := bundleWallet_frame bundle db
    dsimp only at h
    split at h
    · obtain ⟨rfl, rfl⟩ := Prod.mk.inj (Except.ok.inj h)
      exact Or.inl ⟨rfl, hlots⟩
    · rename_i claimed hclaim
      split at h
      · cases h
      · rename_i t final hcredit
        obtain ⟨rfl, rfl⟩ := Prod.mk.inj (Except.ok.inj h)
        refine Or.inr ⟨bundle, t, hdue, rfl, fun hclaimed => ?_, claimed, ?_⟩
        · have hnone := claimBundle_none_iff.mpr ((bundleClaimed_congr hgrants).mpr hclaimed)
          rw [hclaim] at hnone
          cases hnone
        · obtain ⟨hlots', hrows', hwallets'⟩ := claimProviderObject_frame hclaim
          exact ⟨hlots'.trans hlots, hrows'.trans hrows, (lockWallet_congr hwallets').trans hwallet,
            hcredit⟩

/-- A grant whose claim is free reaches its credit. -/
theorem grantPlanBundle_unclaimed {bundle : PlanBundle} (hdue : dueBundle env args db = .ok (some bundle))
    (hfree : ¬ db.BundleClaimed (bundleWallet bundle db).1 args.planSlug bundle.periodKey) :
    ∃ claimed, claimed.lots = db.lots ∧ claimed.transactions = db.transactions ∧
      (lockWallet bundle.user claimed).1 = (lockWallet bundle.user db).1 ∧
      grantPlanBundle env args db =
        (credit env (planBundleCredit args bundle) claimed).map fun r => (some r.1, r.2) := by
  obtain ⟨hlots, hrows, hgrants, hwallet⟩ := bundleWallet_frame bundle db
  obtain ⟨claimed, hclaim⟩ := Option.ne_none_iff_exists'.mp fun hnone =>
    hfree ((bundleClaimed_congr hgrants).mp (claimBundle_none_iff.mp hnone))
  obtain ⟨hlots', hrows', hwallets'⟩ := claimProviderObject_frame hclaim
  refine ⟨claimed, hlots'.trans hlots, hrows'.trans hrows, (lockWallet_congr hwallets').trans hwallet,
    ?_⟩
  simp only [grantPlanBundle, hdue, hclaim]
  cases credit env (planBundleCredit args bundle) claimed with
  | error e => rfl
  | ok r => rfl

/-- A bundle that is due has credits, and a deadline ahead. -/
theorem dueBundle_alive {bundle : PlanBundle} (h : dueBundle env args db = .ok (some bundle)) :
    0 < bundle.credits ∧ env.now < bundle.expiresAt := by
  unfold dueBundle at h
  split at h
  · cases h
  · split at h
    · cases h
    · rename_i hcredits
      split at h
      · cases h
      · cases h
      · split at h
        · cases h
        · cases h
        · split at h
          · cases h
          · rename_i hlate
            obtain rfl := Option.some.inj (Except.ok.inj h)
            exact ⟨not_le.mp hcredits, not_le.mp hlate⟩

/-- **A key that is found is answered**, whatever the rest of the credit. -/
theorem credit_answers {args : CreditArgs} (hpos : 0 < args.credits)
    (halive : ¬ dueAt env.now args.expiresAt)
    (hfound : existingCall env (lockWallet args.user db).1 args.idempotencyKey db ≠ none) :
    ∃ t, credit env args db = .ok (t, (lockWallet args.user db).2) := by
  rcases hlock : lockWallet args.user db with ⟨w, db₁⟩
  have hrows : db₁.transactions = db.transactions := by
    rcases lockWallet_cases hlock with ⟨rfl, -⟩ | ⟨-, rfl, -⟩
    · rfl
    · rfl
  rw [hlock] at hfound
  obtain ⟨r, hr⟩ := Option.ne_none_iff_exists'.mp hfound
  refine ⟨r.1, ?_⟩
  have hr' : existingCall env w args.idempotencyKey db₁ = some r := by
    rw [← hr]
    unfold existingCall transactionByIdempotencyKey
    rw [hrows]
  simp only [credit, if_neg (not_le.mpr hpos), if_neg halive, hlock, hr']

theorem existingCall_congr {w : ℕ} {key : String} (h : db'.transactions = db.transactions) :
    existingCall env w key db' = existingCall env w key db := by
  unfold existingCall transactionByIdempotencyKey
  rw [h]

/-- **A grant reports truly exactly when its guards agree.** -/
theorem truthful_iff_guardsAgree : args.Truthful env db ↔ args.GuardsAgree env db := by
  constructor
  · intro h bundle hdue
    rw [or_iff_not_imp_left]
    intro hfree
    by_contra hfound
    -- The claim is free and the key is not: the credit answers with a row that stood already.
    obtain ⟨claimed, hlots, hrows, hwallet, hgrant⟩ := grantPlanBundle_unclaimed hdue hfree
    obtain ⟨hpos, halive⟩ := dueBundle_alive hdue
    have hanswered : existingCall env (lockWallet bundle.user claimed).1
        (planBundleKey args.planSlug bundle.periodKey) claimed ≠ none := by
      rw [hwallet, existingCall_congr hrows]
      exact hfound
    obtain ⟨t, hcredit⟩ := @credit_answers env claimed (planBundleCredit args bundle) hpos
      (not_le.mpr halive) hanswered
    rw [hcredit] at hgrant
    obtain ⟨k, lot, hadds⟩ := (h _ _ hgrant).reported.mp ⟨t, rfl⟩
    refine not_adds_of_lots (Eq.trans ?_ hlots) k lot hadds
    unfold lockWallet
    split <;> rfl
  · intro h answer db' hok
    rcases grantPlanBundle_cases hok with ⟨rfl, hlots⟩ | ⟨bundle, t, hdue, rfl, hfree, claimed,
      hlots, hrows, hwallet, hcredit⟩
    · have hnone : ∀ k lot, ¬ db.Adds db' k lot := not_adds_of_lots hlots
      refine ⟨fun k lot hadds => absurd hadds (hnone k lot), ?_,
        fun k lot hadds => absurd hadds (hnone k lot)⟩
      exact iff_of_false (fun ⟨t, ht⟩ => by cases ht) fun ⟨k, lot, hadds⟩ => hnone k lot hadds
    · have hunanswered := (h bundle hdue).resolve_left hfree
      have hadds_iff : ∀ k lot, claimed.Adds db' k lot ↔ db.Adds db' k lot := fun k lot => by
        rw [Db.Adds, Db.Adds, hlots]
      rcases credit_adds hcredit with ⟨hfound, -⟩ |
        ⟨-, ⟨lot, hlot⟩, hlots', row, hrow, hrowWallet, hkey, -⟩
      · refine absurd ?_ hfound
        have hsame : existingCall env (lockWallet bundle.user claimed).1
            (planBundleKey args.planSlug bundle.periodKey) claimed = none := by
          rw [hwallet, existingCall_congr hrows]
          exact hunanswered
        exact hsame
      · refine ⟨fun k lot hadds j row hj hw hbundle => ?_, ?_, fun k lot hadds => ?_⟩
        · have hlotWallet := (hlots' k lot ((hadds_iff k lot).mpr hadds)).2.1
          refine existingCall_none (planBundleKey_ne _ _) hunanswered j row ⟨hj, ?_, ?_⟩
          · exact hw.trans (hlotWallet.trans hwallet)
          · rw [dueBundle_period hdue]
            exact hbundle
        · exact iff_of_true ⟨t, rfl⟩ ⟨_, lot, (hadds_iff _ _).mp hlot⟩
        · obtain ⟨-, hlotWallet, hgranting⟩ := hlots' k lot ((hadds_iff k lot).mpr hadds)
          refine ⟨hgranting, t, row, rfl, hrow, hrowWallet.trans hlotWallet.symm, ?_⟩
          rw [Transaction.IsBundle, ← dueBundle_period hdue]
          exact hkey

/-- Did a grant add a lot? -/
def PlanBundleArgs.addsLot (env : Env) (args : PlanBundleArgs) (db : Db) : Bool :=
  match grantPlanBundle env args db with
  | .ok (_, db') => db.lots.next < db'.lots.next
  | .error _ => false

/-- A grant adds a lot when a new key was handed out. -/
theorem exists_adds_iff (h : grantPlanBundle env args db = .ok (answer, db')) :
    (∃ k lot, db.Adds db' k lot) ↔ args.addsLot env db = true := by
  have hkeys : args.addsLot env db = true ↔ db.lots.next < db'.lots.next := by
    simp only [PlanBundleArgs.addsLot, h, decide_eq_true_eq]
  have hstill : db'.lots = db.lots → ((∃ k lot, db.Adds db' k lot) ↔ db.lots.next < db'.lots.next) := by
    intro hlots
    refine iff_of_false (fun ⟨k, lot, hadds⟩ => not_adds_of_lots hlots k lot hadds) ?_
    rw [hlots]
    exact lt_irrefl _
  rw [hkeys]
  rcases grantPlanBundle_cases h with ⟨-, hlots⟩ | ⟨bundle, t, -, -, -, claimed, hlots, -, -, hcredit⟩
  · exact hstill hlots
  · rcases credit_adds hcredit with ⟨-, hlots'⟩ | ⟨-, ⟨lot, hlot⟩, -⟩
    · exact hstill (hlots'.trans hlots)
    · rw [Db.Adds, hlots] at hlot
      exact iff_of_true ⟨_, lot, hlot⟩ (Table.get?_lt_next hlot.2)

/-- A grant's answer is its word, where it is true. -/
theorem PlanBundleArgs.Truthful.answer_iff (ht : args.Truthful env db)
    (h : grantPlanBundle env args db = .ok (answer, db')) :
    answer.isSome = args.addsLot env db := by
  rw [Bool.eq_iff_iff, Option.isSome_iff_exists, ← exists_adds_iff h]
  exact (ht answer db' h).reported

end Grants

/-! ## Runs -/

/-- A call that may grant bundles, or do anything else the service does. -/
inductive BundleCall
  | grantPlanBundle (args : PlanBundleArgs)
  | grantPlanBundles (rows : List Entitlement) (periodKey : Option String)
  | service (c : ServiceCall)

namespace BundleCall

/-- The state a successful call leaves. -/
def exec (digest : UserId → UserId → String) (env : Env) :
    BundleCall → Db → Except BillingError Db
  | grantPlanBundle args, db => (StapelBilling.grantPlanBundle env args db).map Prod.snd
  | grantPlanBundles rows periodKey, db =>
    .ok (StapelBilling.grantPlanBundles env rows periodKey db).2
  | service c, db => c.exec digest env db

/-- One grant of a sweep. -/
def sweepExec (env : Env) (args : PlanBundleArgs) (db : Db) : Except BillingError Db :=
  (StapelBilling.grantPlanBundle env args db).map Prod.snd

/-- The grants a call makes, each with the database it meets. -/
def grants (env : Env) : BundleCall → Db → List (PlanBundleArgs × Db)
  | grantPlanBundle args, db => [(args, db)]
  | grantPlanBundles rows periodKey, db =>
    Store.trace (sweepExec env) (sweepGrants env rows periodKey) db
  | service _, _ => []

/-- **A call is honest**: every grant it makes reports truly, and a sweep counts the lots its
grants added. -/
structure Honest (env : Env) (c : BundleCall) (db : Db) : Prop where
  truthful : ∀ p ∈ c.grants env db, p.1.Truthful env p.2
  counted : ∀ rows periodKey, c = .grantPlanBundles rows periodKey →
    (StapelBilling.grantPlanBundles env rows periodKey db).1 =
      (c.grants env db).countP fun p => p.1.addsLot env p.2

section Keeping
variable {env : Env} {db db' : Db}

/-- A grant keeps the ledger rows with their keys. -/
theorem grantPlanBundle_keeps {args : PlanBundleArgs} {answer : Option ℕ}
    (h : StapelBilling.grantPlanBundle env args db = .ok (answer, db')) : db.Keeps db' := by
  have hwallet : ∀ bundle : PlanBundle, db.Keeps (bundleWallet bundle db).2 := by
    intro bundle
    unfold bundleWallet
    cases bundle.wallet with
    | some w => exact Db.Keeps.refl db
    | none => exact (@lockWallet_moves env (fun _ => True) _ _ _ _ trivial rfl).keeps
  unfold StapelBilling.grantPlanBundle at h
  split at h
  · cases h
  · obtain ⟨-, rfl⟩ := Prod.mk.inj (Except.ok.inj h)
    exact Db.Keeps.refl _
  · rename_i bundle hdue
    dsimp only at h
    split at h
    · obtain ⟨-, rfl⟩ := Prod.mk.inj (Except.ok.inj h)
      exact hwallet bundle
    · rename_i claimed hclaim
      obtain ⟨-, hrows, hwallets⟩ := claimProviderObject_frame hclaim
      have hclaimed : (bundleWallet bundle db).2.Keeps claimed :=
        ⟨by rw [hwallets]; exact (Db.Keeps.refl _).closed, by rw [hrows]; exact (Db.Keeps.refl _).keys⟩
      split at h
      · cases h
      · rename_i t final hcredit
        obtain ⟨-, rfl⟩ := Prod.mk.inj (Except.ok.inj h)
        exact ((hwallet bundle).trans hclaimed).trans (credit_moves hcredit).keeps

/-- **A bundle's row stays the bundle's row**, whichever wallet it is moved to. -/
theorem exec_keeps {digest : UserId → UserId → String} {c : BundleCall}
    (h : c.exec digest env db = .ok db') : db.Keeps db' := by
  cases c with
  | grantPlanBundle args =>
    rw [exec] at h
    cases hgrant : StapelBilling.grantPlanBundle env args db with
    | error e =>
      rw [hgrant] at h
      cases h
    | ok r =>
      rw [hgrant] at h
      obtain rfl := Except.ok.inj h
      exact @grantPlanBundle_keeps env db r.2 args r.1 hgrant
  | service c => exact ServiceCall.exec_keeps h
  | grantPlanBundles rows periodKey =>
    obtain rfl := Except.ok.inj h
    have hsweep : ∀ (grants : List PlanBundleArgs) (granted : ℕ × Db),
        granted.2.Keeps (grants.foldl (grantAndCount env) granted).2 := by
      intro grants
      induction grants with
      | nil => exact fun granted => Db.Keeps.refl _
      | cons args grants ih =>
        intro granted
        refine Db.Keeps.trans ?_ (ih (grantAndCount env granted args))
        unfold grantAndCount
        split
        · rename_i hgrant
          exact grantPlanBundle_keeps hgrant
        · rename_i hgrant
          exact grantPlanBundle_keeps hgrant
        · exact Db.Keeps.refl _
    exact hsweep _ (0, db)

end Keeping

section Sweeps
variable {env : Env} {db : Db}

/-- **A sweep counts the lots it added**, from any count on, when its grants report truly. -/
theorem foldl_grantAndCount (grants : List PlanBundleArgs) (n : ℕ)
    (htrue : ∀ p ∈ Store.trace (sweepExec env) grants db, p.1.Truthful env p.2) :
    (grants.foldl (grantAndCount env) (n, db)).1 =
      n + (Store.trace (sweepExec env) grants db).countP fun p => p.1.addsLot env p.2 := by
  induction grants generalizing n db with
  | nil => rfl
  | cons args grants ih =>
    have hhead : args.Truthful env db := htrue (args, db) List.mem_cons_self
    have hrest : ∀ p ∈ Store.trace (sweepExec env) grants (Store.commit (sweepExec env args) db),
        p.1.Truthful env p.2 := fun p hp => htrue p (List.mem_cons_of_mem _ hp)
    rw [List.foldl_cons, Store.trace_cons, List.countP_cons]
    cases hgrant : StapelBilling.grantPlanBundle env args db with
    | error e =>
      have hcommit : Store.commit (sweepExec env args) db = db :=
        Store.commit_error (by rw [sweepExec, hgrant]; rfl)
      have hadds : args.addsLot env db = false := by simp [PlanBundleArgs.addsLot, hgrant]
      have hone : grantAndCount env (n, db) args = (n, db) := by simp [grantAndCount, hgrant]
      rw [hcommit] at hrest ⊢
      rw [hone, ih n hrest]
      simp [hadds]
    | ok r =>
      obtain ⟨answer, db'⟩ := r
      have hcommit : Store.commit (sweepExec env args) db = db' :=
        Store.commit_ok (by rw [sweepExec, hgrant]; rfl)
      have hadds := hhead.answer_iff hgrant
      rw [hcommit] at hrest ⊢
      cases answer with
      | none =>
        have hone : grantAndCount env (n, db) args = (n, db') := by simp [grantAndCount, hgrant]
        rw [hone, ih n hrest]
        simp [← hadds]
      | some t =>
        have hone : grantAndCount env (n, db) args = (n + 1, db') := by
          simp [grantAndCount, hgrant]
        rw [hone, ih (n + 1) hrest]
        simp only [← hadds, Option.isSome_some, if_true]
        omega

theorem honest_iff {c : BundleCall} :
    c.Honest env db ↔ ∀ p ∈ c.grants env db, p.1.GuardsAgree env p.2 := by
  constructor
  · exact fun h p hp => truthful_iff_guardsAgree.mp (h.truthful p hp)
  · intro h
    have htrue : ∀ p ∈ c.grants env db, p.1.Truthful env p.2 :=
      fun p hp => truthful_iff_guardsAgree.mpr (h p hp)
    refine ⟨htrue, ?_⟩
    rintro rows periodKey rfl
    have hcount := foldl_grantAndCount (sweepGrants env rows periodKey) 0 htrue
    rw [zero_add] at hcount
    exact hcount

end Sweeps
end BundleCall

/-- **Plan bundles are granted once and reported truly** in a run exactly when no grant of the
run meets a free claim with a key that is taken: whatever sweeps, host calls, wallet
operations, merges and erasures come in whatever order. -/
theorem bundles_reported_iff (digest : UserId → UserId → String) (calls : List (Env × BundleCall))
    (db : Db) :
    (∀ p ∈ Store.trace (fun c : Env × BundleCall => c.2.exec digest c.1) calls db,
      p.1.2.Honest p.1.1 p.2) ↔
    ∀ p ∈ Store.trace (fun c : Env × BundleCall => c.2.exec digest c.1) calls db,
      ∀ g ∈ p.1.2.grants p.1.1 p.2, g.1.GuardsAgree p.1.1 g.2 :=
  forall_congr' fun _ => forall_congr' fun _ => BundleCall.honest_iff

/-- One entitlement to the plan `pro`. -/
def proEntitlement (user : UserId) : Entitlement where
  userId := some user
  plan := "pro"

/-- The bundle of an account is granted, the account is folded into another, and the next
sweep of the month grants the survivor its own. -/
def foldedSweeps : List (Env × BundleCall) :=
  [(Env.plain 0, .grantPlanBundles [proEntitlement 1] (some "2099-03")),
   (Env.plain 0, .service (.userMerged (some 1) (some 2))),
   (Env.plain 0, .grantPlanBundles [proEntitlement 2] (some "2099-03"))]

/-- The last sweep counts a bundle it did not grant. -/
theorem folded_sweep_misreports :
    ¬ ∀ p ∈ Store.trace (fun c : Env × BundleCall => c.2.exec pairDigest c.1) foldedSweeps
      { users := [1, 2] }, p.1.2.Honest p.1.1 p.2 := by
  intro h
  have hlast := (h _ (List.mem_cons_of_mem _ (List.mem_cons_of_mem _ List.mem_cons_self))).counted
    _ _ rfl
  revert hlast
  decide +kernel

end StapelBilling
