import StapelBilling.Reconcile
import StapelBilling.OwnSubscription

/-! # The report of a reconciliation

The sweep reports every row it examined with the columns before and after and what it changed,
whether it writes or not.  It reads a provider object the way the webhook does, so what it
leaves is what a fresh event about the same object would leave; and since what an object states
does not depend on the row, a second sweep finds nothing to change.

* `reconciledRow`: what an applied sweep makes of a row.
* `reconcileSubscriptions_get?`: what it makes of the table.
* `reconcile_agrees`: report, sweep, webhook and second sweep agree.
-/
namespace StapelBilling
open Store

/-! ## The report -/

/-- The columns a reconciliation is about, with their values. -/
def Subscription.columns (sub : Subscription) : List (SubscriptionField × ColumnValue) :=
  reconciledFields.map fun f => (f, f.read sub)

/-- What the sweep says of one row. -/
structure SubscriptionReconciliation where
  subscription : ℕ
  stripeSubscriptionId : String
  before : List (SubscriptionField × ColumnValue)
  after : List (SubscriptionField × ColumnValue)
  changed : List SubscriptionField := []
  missing : Bool := false
  failed : Bool := false
  applied : Bool := false

/-- The report on one row. -/
def reconciliation (dryRun : Bool) (k : ℕ) (sub : Subscription) (fetched : Fetched) :
    SubscriptionReconciliation :=
  let result : SubscriptionReconciliation :=
    { subscription := k
      stripeSubscriptionId := sub.stripeSubscriptionId.getD ""
      before := sub.columns
      after := sub.columns }
  match fetched with
  | .failed => { result with failed := true }
  | .missing => { result with missing := true }
  | .found obj =>
    let (after, changed) := reconciledSubscription obj sub
    { result with
      after := after.columns
      changed
      applied := !dryRun && !changed.isEmpty }

/-- What the provider answers about a row. -/
def fetchSubscription (fetch : String → Fetched) (sub : Subscription) : Fetched :=
  match sub.stripeSubscriptionId with
  | some id => fetch id
  | none => .missing

/-- The report of a sweep, one entry for each row it examines. -/
def reconcileReport (dryRun : Bool) (ids : List String) (fetch : String → Fetched) (db : Db) :
    List SubscriptionReconciliation :=
  (reconcilableSubscriptions ids db).map fun r =>
    reconciliation dryRun r.1 r.2 (fetchSubscription fetch r.2)

/-! ## What a sweep makes of the rows -/

/-- The row an applied sweep leaves: repaired, and confirmed at the moment of the call. -/
def reconciledRow (env : Env) (sub : Subscription) : Fetched → Subscription
  | .found obj => (advanceProviderClock (some env.now) (reconciledSubscription obj sub).1).1
  | .failed | .missing => sub

section Rows
variable {env : Env} {k : ℕ} {sub : Subscription} {db : Db} {fetched : Fetched}

/-- The provider's clock is no column that is reconciled. -/
theorem columns_reconciledRow (obj : SubscriptionObject) :
    (reconciledRow env sub (.found obj)).columns = (reconciledSubscription obj sub).1.columns := by
  unfold Subscription.columns
  refine List.map_congr_left fun f hf => ?_
  rw [reconciledRow, advanceProviderClock_fst]
  cases f <;> first | rfl | exact absurd hf (by decide)

/-- **The repair of a row**, written where it was read, is the reconciled row. -/
theorem repairSubscription_reconciles (hk : db.subscriptions.get? k = some sub) (j : ℕ) :
    (repairSubscription env false k sub fetched db).subscriptions.get? j =
      if j = k then some (reconciledRow env sub fetched) else db.subscriptions.get? j := by
  have hsame : db.subscriptions.get? j = if j = k then some sub else db.subscriptions.get? j := by
    by_cases hj : j = k
    · rw [if_pos hj, hj, hk]
    · rw [if_neg hj]
  cases fetched with
  | failed => exact hsame
  | missing => exact hsame
  | found obj =>
    have hnames : Edited.Names sub ((advanceProviderClock (some env.now)
        (reconciledSubscription obj sub).1).1, (reconciledSubscription obj sub).2 ++
        (advanceProviderClock (some env.now) (reconciledSubscription obj sub).1).2) :=
      (reconciledSubscription_names obj sub).append (advanceProviderClock_names _ _)
    unfold repairSubscription
    dsimp only
    rw [if_neg Bool.false_ne_true]
    by_cases hchanged : (reconciledSubscription obj sub).2 = []
    · rw [if_neg (not_not.mpr hchanged)]
      rw [hchanged, List.nil_append] at hnames
      split
      · exact saveSubscription_get? k db hk hnames j
      · rename_i hclock
        -- nothing is named, so nothing has changed
        have hnone := not_not.mp hclock
        rw [hnone] at hnames
        have hrow : reconciledRow env sub (.found obj) = sub :=
          Subscription.ext_columns hnames.user hnames.plan fun f => hnames.rest f List.not_mem_nil
        rw [hrow]
        exact hsame
    · rw [if_pos hchanged]
      exact applyLifecycle_get? k db hk hnames j

end Rows

/-! ## What a sweep makes of the table -/

section Sweep
variable {env : ℕ → Env} {ids : List String} {fetch : String → Fetched} {db : Db}

/-- One row of the sweep. -/
def repairRow (env : ℕ → Env) (dryRun : Bool) (fetch : String → Fetched) (db : Db) (r : ℕ × Subscription) :
    Db :=
  repairSubscription (env r.1) dryRun r.1 r.2 (fetchSubscription fetch r.2) db

theorem reconcileSubscriptions_foldl (env : ℕ → Env) (dryRun : Bool) (ids : List String)
    (fetch : String → Fetched) (db : Db) : reconcileSubscriptions env dryRun ids fetch db =
      (reconcilableSubscriptions ids db).foldl (repairRow env dryRun fetch) db := rfl

theorem mem_reconcilable {r : ℕ × Subscription} : r ∈ reconcilableSubscriptions ids db ↔
    db.subscriptions.get? r.1 = some r.2 ∧ nonempty r.2.stripeSubscriptionId ≠ none ∧
      (ids ≠ [] → ∃ id ∈ r.2.stripeSubscriptionId, id ∈ ids) := by
  unfold reconcilableSubscriptions
  rw [Table.mem_select]

/-- **Rows are repaired each on its own**: the ones the sweep goes through become the reconciled
rows, the others stay. -/
theorem foldl_repairRow_get? {rows : List (ℕ × Subscription)} (hnodup : (rows.map Prod.fst).Nodup)
    (hcurrent : ∀ r ∈ rows, db.subscriptions.get? r.1 = some r.2) :
    (∀ r ∈ rows, (rows.foldl (repairRow env false fetch) db).subscriptions.get? r.1 =
      some (reconciledRow (env r.1) r.2 (fetchSubscription fetch r.2))) ∧
    ∀ j, j ∉ rows.map Prod.fst →
      (rows.foldl (repairRow env false fetch) db).subscriptions.get? j = db.subscriptions.get? j := by
  induction rows generalizing db with
  | nil => exact ⟨fun r hr => absurd hr List.not_mem_nil, fun _ _ => rfl⟩
  | cons first rows ih =>
    obtain ⟨hnot, hnodup'⟩ := List.nodup_cons.mp hnodup
    have hfirst : ∀ j, (repairRow env false fetch db first).subscriptions.get? j = if j = first.1
        then some (reconciledRow (env first.1) first.2 (fetchSubscription fetch first.2))
        else db.subscriptions.get? j :=
      repairSubscription_reconciles (hcurrent first List.mem_cons_self)
    have hne : ∀ r ∈ rows, r.1 ≠ first.1 := fun r hr he => hnot (List.mem_map.mpr ⟨r, hr, he⟩)
    obtain ⟨hrows, hothers⟩ := @ih (repairRow env false fetch db first) hnodup' fun r hr => by
      rw [hfirst, if_neg (hne r hr)]
      exact hcurrent r (List.mem_cons_of_mem _ hr)
    rw [List.foldl_cons]
    refine ⟨fun r hr => ?_, fun j hj => ?_⟩
    · rcases List.mem_cons.mp hr with rfl | hr
      · rw [hothers r.1 hnot, hfirst, if_pos rfl]
      · exact hrows r hr
    · rw [List.map_cons, List.mem_cons, not_or] at hj
      rw [hothers j hj.2, hfirst, if_neg hj.1]

/-- **What an applied sweep makes of the rows it goes through.** -/
theorem reconcileSubscriptions_row {r : ℕ × Subscription} (hr : r ∈ reconcilableSubscriptions ids db) :
    (reconcileSubscriptions env false ids fetch db).subscriptions.get? r.1 =
      some (reconciledRow (env r.1) r.2 (fetchSubscription fetch r.2)) := by
  rw [reconcileSubscriptions_foldl]
  exact (foldl_repairRow_get? Table.select_nodup fun r hr => (mem_reconcilable.mp hr).1).1 r hr

theorem reconcileSubscriptions_other {k : ℕ} (hk : ∀ sub, (k, sub) ∉ reconcilableSubscriptions ids db) :
    (reconcileSubscriptions env false ids fetch db).subscriptions.get? k = db.subscriptions.get? k := by
  rw [reconcileSubscriptions_foldl]
  refine (foldl_repairRow_get? Table.select_nodup fun r hr => (mem_reconcilable.mp hr).1).2 k fun hmem => ?_
  obtain ⟨r, hr, rfl⟩ := List.mem_map.mp hmem
  exact hk r.2 hr

/-- A dry run writes nothing. -/
theorem reconcileSubscriptions_dryRun : reconcileSubscriptions env true ids fetch db = db := by
  have hrow : ∀ (d : Db) (r : ℕ × Subscription), repairRow env true fetch d r = d := by
    intro d r
    unfold repairRow repairSubscription
    cases fetchSubscription fetch r.2 with
    | found obj => rfl
    | failed => rfl
    | missing => rfl
  rw [reconcileSubscriptions_foldl]
  induction reconcilableSubscriptions ids db with
  | nil => rfl
  | cons r rows ih => rw [List.foldl_cons, hrow, ih]

/-! ## The webhook -/

/-- An update makes of the reconciled columns what a reconciliation makes of them. -/
theorem columns_updatedSubscription (obj : SubscriptionObject) (event : Option Time) (sub : Subscription) :
    (updatedSubscription obj event sub).1.columns = (reconciledSubscription obj sub).1.columns := by
  unfold Subscription.columns
  refine List.map_congr_left fun f hf => ?_
  rw [reconciledSubscription_fst]
  simp only [updatedSubscription, advanceProviderClock_fst, applyStripeCancellation_fst,
    applyStripePeriod_fst]
  cases f <;> first | rfl | exact absurd hf (by decide)

/-- **A fresh event about a row's object** leaves the reconciled columns in the row. -/
theorem handleSubscriptionUpdated_columns (hu : db.SubscriptionsUnique) {k : ℕ} {sub : Subscription}
    {id : String} {event : ProviderEvent SubscriptionObject} (hk : db.subscriptions.get? k = some sub)
    (hnamed : id ≠ "") (hid : sub.stripeSubscriptionId = some id) (hobj : event.object.id = some id)
    (hfresh : isStaleLifecycleEvent sub (providerEventTime event) event.object.status = false) :
    ∃ row, (handleSubscriptionUpdated event db).subscriptions.get? k = some row ∧
      row.columns = (reconciledSubscription event.object sub).1.columns := by
  have hbound : db.BoundTo id k := by
    refine ⟨hnamed, ⟨sub, hk, hid⟩, fun j other hj hother => ?_⟩
    exact hu.subscriptionId j k other sub hj hk (by rw [hother, nonempty_of_ne hnamed]; simp)
      (hother.trans hid.symm)
  have hnames : Edited.Names sub (updatedSubscription event.object (providerEventTime event) sub) :=
    (LifecycleEvent.updated event).edit_names (Env.plain 0) sub
  refine ⟨_, ?_, columns_updatedSubscription event.object (providerEventTime event) sub⟩
  unfold handleSubscriptionUpdated
  dsimp only
  rw [hbound.resolve hobj hk]
  dsimp only
  rw [hfresh, if_neg Bool.false_ne_true, applyLifecycle_get? k db hk hnames, if_pos rfl]

/-- **Nothing is left to repair** in a row that has just been reconciled. -/
theorem reconciledSubscription_again (e : Env) (obj : SubscriptionObject) (sub : Subscription) :
    (reconciledSubscription obj (reconciledRow e sub (.found obj))).2 = [] := by
  refine List.eq_nil_iff_forall_not_mem.mpr fun f hmem => ?_
  have hf : f ∈ reconciledFields := (List.mem_filter.mp hmem).1
  have hread : f.read (reconciledRow e sub (.found obj)) = (obj.states f).getD (f.read sub) := by
    rw [← reconciledSubscription_read obj sub hf, reconciledRow, advanceProviderClock_fst]
    cases f <;> first | rfl | exact absurd hf (by decide)
  refine (mem_reconciledSubscription obj _ hf).mp hmem ?_
  rw [hread]
  cases obj.states f with
  | none => rfl
  | some v => rfl

/-! ## Agreement -/

/-- What a report found, whether it was applied or not. -/
def SubscriptionReconciliation.findings (report : SubscriptionReconciliation) : SubscriptionReconciliation :=
  { report with applied := false }

/-- **Reconcile agrees with the webhook path and settles in one pass.**  A dry run writes nothing
and finds what the applied run finds; the applied run leaves in every row what it reports, which
is what a fresh event about the same object would leave; where the provider gave no object the
row is untouched; and a second run has nothing to change. -/
structure ReconcileAgrees (env : ℕ → Env) (ids : List String) (fetch : String → Fetched) (db : Db) :
    Prop where
  dryRun : reconcileSubscriptions env true ids fetch db = db
  findings : (reconcileReport true ids fetch db).map SubscriptionReconciliation.findings =
    (reconcileReport false ids fetch db).map SubscriptionReconciliation.findings
  reported : ∀ k sub, (k, sub) ∈ reconcilableSubscriptions ids db →
    ∃ report ∈ reconcileReport false ids fetch db, ∃ row, report.subscription = k ∧
      report.before = sub.columns ∧
      (reconcileSubscriptions env false ids fetch db).subscriptions.get? k = some row ∧
      row.columns = report.after ∧
      ∀ f ∈ reconciledFields, f ∈ report.changed ↔ f.read row ≠ f.read sub
  webhook : ∀ k sub obj event, (k, sub) ∈ reconcilableSubscriptions ids db →
    fetchSubscription fetch sub = .found obj → event.object = obj →
    isStaleLifecycleEvent sub (providerEventTime event) obj.status = false →
    ∃ row row', (reconcileSubscriptions env false ids fetch db).subscriptions.get? k = some row ∧
      (handleSubscriptionUpdated event db).subscriptions.get? k = some row' ∧
      row'.columns = row.columns
  untouched : ∀ k, (∀ sub obj, (k, sub) ∈ reconcilableSubscriptions ids db →
      fetchSubscription fetch sub ≠ .found obj) →
    (reconcileSubscriptions env false ids fetch db).subscriptions.get? k = db.subscriptions.get? k
  settled : ∀ report ∈ reconcileReport false ids fetch (reconcileSubscriptions env false ids fetch db),
    report.changed = []

/-- The id of a row does not change. -/
theorem reconciledRow_id (e : Env) (sub : Subscription) (fetched : Fetched) :
    (reconciledRow e sub fetched).stripeSubscriptionId = sub.stripeSubscriptionId := by
  cases fetched with
  | found obj => rw [reconciledRow, advanceProviderClock_fst, reconciledSubscription_fst]
  | failed => rfl
  | missing => rfl

/-- **Reconcile agrees with the webhook path and settles in one pass**, whatever the rows and
whatever the provider answers for each of them. -/
theorem reconcile_agrees (env : ℕ → Env) (ids : List String) (hu : db.SubscriptionsUnique)
    (hfetch : ∀ id obj, fetch id = .found obj → obj.id = some id) :
    ReconcileAgrees env ids fetch db where
  dryRun := reconcileSubscriptions_dryRun
  findings := by
    unfold reconcileReport
    rw [List.map_map, List.map_map]
    refine List.map_congr_left fun r _ => ?_
    show (reconciliation true r.1 r.2 (fetchSubscription fetch r.2)).findings =
      (reconciliation false r.1 r.2 (fetchSubscription fetch r.2)).findings
    cases fetchSubscription fetch r.2 with
    | found obj => rfl
    | failed => rfl
    | missing => rfl
  reported := fun k sub hmem => by
    refine ⟨_, List.mem_map.mpr ⟨(k, sub), hmem, rfl⟩, _, ?_, ?_, reconcileSubscriptions_row hmem, ?_, ?_⟩
    · dsimp only
      cases fetchSubscription fetch sub <;> rfl
    · dsimp only
      cases fetchSubscription fetch sub <;> rfl
    · dsimp only
      cases fetchSubscription fetch sub with
      | found obj => exact columns_reconciledRow obj
      | failed => rfl
      | missing => rfl
    · intro f hf
      dsimp only
      cases fetchSubscription fetch sub with
      | found obj =>
        -- the provider's clock is no field of the report
        have hread : f.read (reconciledRow (env k) sub (.found obj)) =
            f.read (reconciledSubscription obj sub).1 := by
          rw [reconciledRow, advanceProviderClock_fst]
          cases f <;> first | rfl | exact absurd hf (by decide)
        rw [hread, reconciledSubscription_read obj sub hf]
        exact mem_reconciledSubscription obj sub hf
      | failed => exact iff_of_false List.not_mem_nil fun h => h rfl
      | missing => exact iff_of_false List.not_mem_nil fun h => h rfl
  webhook := fun k sub obj event hmem hfound hobj hfresh => by
    obtain ⟨hk, hnamed, -⟩ := mem_reconcilable.mp hmem
    have hrow := @reconcileSubscriptions_row env ids fetch db (k, sub) hmem
    rw [hfound] at hrow
    cases hid : sub.stripeSubscriptionId with
    | none =>
      rw [hid] at hnamed
      exact absurd rfl hnamed
    | some id =>
      have hne : id ≠ "" := by
        rintro rfl
        rw [hid] at hnamed
        exact hnamed rfl
      unfold fetchSubscription at hfound
      rw [hid] at hfound
      subst hobj
      obtain ⟨row', hrow', hcolumns⟩ := handleSubscriptionUpdated_columns hu hk hne hid
        (hfetch id _ hfound) hfresh
      exact ⟨_, row', hrow, hrow', hcolumns.trans (columns_reconciledRow _).symm⟩
  untouched := fun k hnone => by
    by_cases hmem : ∃ sub, (k, sub) ∈ reconcilableSubscriptions ids db
    · obtain ⟨sub, hsub⟩ := hmem
      rw [reconcileSubscriptions_row hsub]
      have hk := (mem_reconcilable.mp hsub).1
      dsimp only at hk ⊢
      rw [hk]
      cases hfound : fetchSubscription fetch sub with
      | found obj => exact absurd hfound (hnone sub obj hsub)
      | failed => rfl
      | missing => rfl
    · exact reconcileSubscriptions_other fun sub hsub => hmem ⟨sub, hsub⟩
  settled := fun report hreport => by
    obtain ⟨⟨k, row⟩, hmem, rfl⟩ := List.mem_map.mp hreport
    obtain ⟨hk, hnamed, hids⟩ := mem_reconcilable.mp hmem
    dsimp only at hk hnamed hids ⊢
    by_cases hwas : ∃ sub, (k, sub) ∈ reconcilableSubscriptions ids db
    · obtain ⟨sub, hsub⟩ := hwas
      rw [reconcileSubscriptions_row hsub] at hk
      dsimp only at hk
      obtain rfl := Option.some.inj hk
      -- the second run asks for the same id and is told the same
      have hasked : fetchSubscription fetch (reconciledRow (env k) sub (fetchSubscription fetch sub)) =
          fetchSubscription fetch sub := by
        unfold fetchSubscription
        rw [reconciledRow_id]
      rw [hasked]
      cases fetchSubscription fetch sub with
      | found obj => exact reconciledSubscription_again (env k) obj sub
      | failed => rfl
      | missing => rfl
    · -- the row was one the sweep went through, by the same id
      rw [reconcileSubscriptions_other fun sub hsub => hwas ⟨sub, hsub⟩] at hk
      exact absurd ⟨row, mem_reconcilable.mpr ⟨hk, hnamed, hids⟩⟩ hwas

end Sweep

/-! ## A drifted row and one that is gone -/

/-- A row that missed its activation, and one the provider does not know. -/
def driftedRows : Db where
  subscriptions := (Table.empty.insert
    { user := some 1
      plan := "pro"
      status := .incomplete
      stripeSubscriptionId := some "sub_1" }).insert
    { user := some 2
      plan := "pro"
      stripeSubscriptionId := some "sub_2" }

theorem driftedRows_unique : driftedRows.SubscriptionsUnique := by
  have hrows : ∀ {k : ℕ} {sub : Subscription}, driftedRows.subscriptions.get? k = some sub →
      k < 2 ∧ sub.user = some (k + 1) ∧ sub.stripeCustomerId = none ∧
        sub.stripeSubscriptionId = some (if k = 0 then "sub_1" else "sub_2") := by
    intro k sub hk
    unfold driftedRows at hk
    dsimp only at hk
    rw [Table.get?_insert, Table.get?_insert] at hk
    split at hk
    · rename_i hlast
      obtain rfl := Option.some.inj hk
      rw [hlast]
      exact ⟨by decide, rfl, rfl, rfl⟩
    · split at hk
      · rename_i hfirst
        obtain rfl := Option.some.inj hk
        rw [hfirst]
        exact ⟨by decide, rfl, rfl, rfl⟩
      · exact Table.get?_empty_ne hk
  refine ⟨fun j k a b hj hk _ hsame => ?_, fun j k a b hj hk _ hsame => ?_, fun j k a b hj _ hnamed _ => ?_⟩
  · rw [(hrows hj).2.1, (hrows hk).2.1] at hsame
    have hnext := Option.some.inj hsame
    omega
  · obtain ⟨hlt, -, -, hid⟩ := hrows hj
    obtain ⟨hlt', -, -, hid'⟩ := hrows hk
    rw [hid, hid'] at hsame
    have hnames := Option.some.inj hsame
    by_cases hzero : j = 0
    · by_cases hzero' : k = 0
      · omega
      · rw [if_pos hzero, if_neg hzero'] at hnames
        exact absurd hnames (by decide)
    · by_cases hzero' : k = 0
      · rw [if_neg hzero, if_pos hzero'] at hnames
        exact absurd hnames (by decide)
      · omega
  · rw [(hrows hj).2.2.1] at hnamed
    exact absurd rfl hnamed

/-- The provider has the first one as active, with its period on an item. -/
def answerDrifted (id : String) : Fetched :=
  if id = "sub_1" then .found
    { id := some "sub_1"
      status := some "active"
      items := [{ currentPeriodStart := some 100, currentPeriodEnd := some 200 }] }
  else .missing

theorem reconcile_agrees_drifted : ReconcileAgrees (fun _ => Env.plain 150) [] answerDrifted driftedRows :=
  reconcile_agrees (fun _ => Env.plain 150) [] driftedRows_unique fun id obj hfound => by
    unfold answerDrifted at hfound
    split at hfound
    · rename_i hid
      rw [← Fetched.found.inj hfound, hid]
    · cases hfound

end StapelBilling
