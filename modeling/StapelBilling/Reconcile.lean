import StapelBilling.Lifecycle

/-! # Reconciliation against the provider

The sweep asks the provider for every subscription it knows and repairs the row where the
answer differs from what was read before the call.  It stamps the row with its own clock, so
that an event created before the call and delivered after it does not undo the repair.
-/
namespace StapelBilling
open Store

/-- What the provider answers: nothing because the call failed, no such subscription, or the
subscription. -/
inductive Fetched
  | failed
  | missing
  | found (obj : SubscriptionObject)

/-- The columns a reconciliation may repair. -/
def reconciledFields : List SubscriptionField :=
  [.status, .currentPeriodStart, .currentPeriodEnd, .cancelAtPeriodEnd, .cancelledAt]

/-- The row as the provider has it, with the columns that differ. -/
def reconciledSubscription (obj : SubscriptionObject) (sub : Subscription) : Edited :=
  let after := { sub with
    status := (mapStripeStatus obj.status (some sub.status)).getD sub.status }
  let (after, period) := applyStripePeriod obj after
  let (after, cancellation) := applyStripeCancellation obj after
  let touched := .status :: (period ++ cancellation)
  (after, reconciledFields.filter fun f => f ∈ touched ∧ f.read after ≠ f.read sub)

/-- Write the repair of one row, and the moment it was confirmed. -/
def repairSubscription (env : Env) (dryRun : Bool) (k : ℕ) (sub : Subscription) (fetched : Fetched)
    (db : Db) : Db :=
  match fetched with
  | .failed | .missing => db
  | .found obj =>
    let (after, changed) := reconciledSubscription obj sub
    if dryRun then db
    else
      let (after, clock) := advanceProviderClock (some env.now) after
      if changed ≠ [] then applyLifecycle k (after, changed ++ clock) db
      else if clock ≠ [] then saveSubscription k after clock db
      else db

/-- The rows a sweep goes through: those that carry a provider id, all of them or the ones
that were named. -/
def reconcilableSubscriptions (ids : List String) (db : Db) : List (ℕ × Subscription) :=
  db.subscriptions.select fun sub => nonempty sub.stripeSubscriptionId ≠ none ∧
    (ids ≠ [] → ∃ id ∈ sub.stripeSubscriptionId, id ∈ ids)

/-- The sweep: every row is read before the first call to the provider. -/
def reconcileSubscriptions (env : ℕ → Env) (dryRun : Bool) (ids : List String)
    (fetch : String → Fetched) (db : Db) : Db :=
  (reconcilableSubscriptions ids db).foldl
    (fun db r => repairSubscription (env r.1) dryRun r.1 r.2
      (match r.2.stripeSubscriptionId with
        | some id => fetch id
        | none => .missing) db)
    db

/-! ## What an object states about a column -/

/-- The value an object states for a column, when it states one. -/
def SubscriptionObject.states (obj : SubscriptionObject) : SubscriptionField → Option ColumnValue
  | .status => (mapStripeStatus obj.status none).map .status
  | .currentPeriodStart => (stripePeriod obj).1.map fun t => .time (some t)
  | .currentPeriodEnd => (stripePeriod obj).2.map fun t => .time (some t)
  | .cancelAtPeriodEnd => obj.cancelAtPeriodEnd.map .flag
  | .cancelledAt =>
    match epochToDatetime obj.canceledAt with
    | some t => some (.time (some t))
    -- A cancellation that was undone has no time.
    | none => if obj.cancelAtPeriodEnd = some false then some (.time none) else none
  | .stripeSubscriptionId | .stripeCustomerId | .lastProviderEventAt => none

/-- The value an event states for a column; a deletion states that the subscription has
ended and nothing is pending. -/
def LifecycleEvent.states : LifecycleEvent → SubscriptionField → Option ColumnValue
  | .updated event, f => event.object.states f
  | .deleted _, .status => some (.status .cancelled)
  | .deleted _, .cancelAtPeriodEnd => some (.flag false)
  | .deleted event, .cancelledAt =>
    (epochToDatetime event.object.canceledAt).map fun t => .time (some t)
  | .deleted event, f => event.object.states f

section Statements
variable {obj : SubscriptionObject} {sub : Subscription} {f : SubscriptionField}

/-- The repaired row, column by column. -/
theorem reconciledSubscription_fst (obj : SubscriptionObject) (sub : Subscription) :
    (reconciledSubscription obj sub).1 = { sub with
      status := (mapStripeStatus obj.status (some sub.status)).getD sub.status
      currentPeriodStart := (stripePeriod obj).1.or sub.currentPeriodStart
      currentPeriodEnd := (stripePeriod obj).2.or sub.currentPeriodEnd
      cancelAtPeriodEnd := obj.cancelAtPeriodEnd.getD sub.cancelAtPeriodEnd
      cancelledAt := cancelledAtAfter obj sub } := by
  simp only [reconciledSubscription, applyStripeCancellation_fst, applyStripePeriod_fst]
  rfl

/-- **What a reconciliation makes of a row**: what the provider states, and where it is silent
what was there. -/
theorem reconciledSubscription_read (obj : SubscriptionObject) (sub : Subscription)
    (hf : f ∈ reconciledFields) :
    f.read (reconciledSubscription obj sub).1 = (obj.states f).getD (f.read sub) := by
  rw [reconciledSubscription_fst]
  cases f with
  | status =>
    simp only [SubscriptionField.read, SubscriptionObject.states, mapStripeStatus]
    cases obj.status.bind fun status => stripeStatusMap.lookup status <;> rfl
  | currentPeriodStart =>
    simp only [SubscriptionField.read, SubscriptionObject.states]
    cases (stripePeriod obj).1 <;> rfl
  | currentPeriodEnd =>
    simp only [SubscriptionField.read, SubscriptionObject.states]
    cases (stripePeriod obj).2 <;> rfl
  | cancelAtPeriodEnd =>
    simp only [SubscriptionField.read, SubscriptionObject.states]
    cases obj.cancelAtPeriodEnd <;> rfl
  | cancelledAt =>
    simp only [SubscriptionField.read, SubscriptionObject.states, cancelledAtAfter]
    cases epochToDatetime obj.canceledAt with
    | some t => rfl
    | none => dsimp only; split <;> rfl
  | stripeSubscriptionId => exact absurd hf (by decide)
  | stripeCustomerId => exact absurd hf (by decide)
  | lastProviderEventAt => exact absurd hf (by decide)

/-- What an object states about when the subscription was cancelled does not depend on the
row. -/
theorem SubscriptionObject.states_cancelledAt {v : ColumnValue} (h : v ∈ obj.states .cancelledAt) :
    v = .time (cancelledAtAfter obj sub) := by
  unfold states at h
  unfold cancelledAtAfter
  dsimp only at h
  cases hcancelled : epochToDatetime obj.canceledAt with
  | some t =>
    rw [hcancelled] at h
    exact (Option.some.inj h).symm
  | none =>
    rw [hcancelled] at h
    dsimp only at h ⊢
    split at h
    · rename_i hflag
      rw [if_pos hflag]
      exact (Option.some.inj h).symm
    · cases h

/-- What an event states is what it leaves. -/
theorem LifecycleEvent.edit_states {env : Env} {e : LifecycleEvent} {v : ColumnValue} (h : v ∈ e.states f) :
    f.read (e.edit env sub).1 = v := by
  rw [e.edit_fst]
  have hstart : v ∈ e.object.states .currentPeriodStart →
      ColumnValue.time ((stripePeriod e.object).1.or sub.currentPeriodStart) = v := by
    intro hv
    obtain ⟨t, ht, rfl⟩ := Option.map_eq_some_iff.mp hv
    rw [ht, Option.some_or]
  have hfinish : v ∈ e.object.states .currentPeriodEnd →
      ColumnValue.time ((stripePeriod e.object).2.or sub.currentPeriodEnd) = v := by
    intro hv
    obtain ⟨t, ht, rfl⟩ := Option.map_eq_some_iff.mp hv
    rw [ht, Option.some_or]
  cases e with
  | updated event =>
    cases f with
    | status =>
      obtain ⟨status, hstatus, rfl⟩ := Option.map_eq_some_iff.mp h
      refine congrArg ColumnValue.status ?_
      unfold statusAfter statusText
      unfold mapStripeStatus at hstatus ⊢
      rw [Option.or_none] at hstatus
      rw [hstatus]
      rfl
    | currentPeriodStart => exact hstart h
    | currentPeriodEnd => exact hfinish h
    | cancelAtPeriodEnd =>
      obtain ⟨b, hb, rfl⟩ := Option.map_eq_some_iff.mp h
      exact congrArg ColumnValue.flag (flagAfter_of_flag (e := .updated event) hb _)
    | cancelledAt =>
      exact (SubscriptionObject.states_cancelledAt h).symm
    | stripeSubscriptionId => cases h
    | stripeCustomerId => cases h
    | lastProviderEventAt => cases h
  | deleted event =>
    cases f with
    | status => exact Option.some.inj h
    | currentPeriodStart => exact hstart h
    | currentPeriodEnd => exact hfinish h
    | cancelAtPeriodEnd => exact Option.some.inj h
    | cancelledAt =>
      obtain ⟨t, ht, rfl⟩ := Option.map_eq_some_iff.mp h
      refine congrArg ColumnValue.time
        (?_ : some ((epochToDatetime event.object.canceledAt).getD env.now) = some t)
      rw [ht, Option.getD_some]
    | stripeSubscriptionId => cases h
    | stripeCustomerId => cases h
    | lastProviderEventAt => cases h

/-- An event speaks about the columns that a reconciliation may repair. -/
theorem LifecycleEvent.mem_reconciledFields {e : LifecycleEvent} {v : ColumnValue} (h : v ∈ e.states f) :
    f ∈ reconciledFields := by
  cases e <;> cases f <;> first | decide | cases h

/-- **A repair names every column it changes.** -/
theorem reconciledSubscription_names (obj : SubscriptionObject) (sub : Subscription) :
    Edited.Names sub (reconciledSubscription obj sub) := by
  have hstatus : Edited.Names sub ({ sub with
      status := (mapStripeStatus obj.status (some sub.status)).getD sub.status }, [.status]) :=
    (Edited.Names.refl sub).set .status rfl rfl fun g hg => by
      cases g <;> first | rfl | exact absurd rfl hg
  have htouched := hstatus.append ((applyStripePeriod_names obj _).append
    (applyStripeCancellation_names obj _))
  refine ⟨htouched.user, htouched.plan, fun f hf => ?_⟩
  by_cases hmem : f ∈ reconciledFields
  · by_contra hne
    refine hf (List.mem_filter.mpr ⟨hmem, ?_⟩)
    rw [decide_eq_true_eq]
    exact ⟨by_contra fun hnot => hne (htouched.rest f hnot), hne⟩
  · rw [reconciledSubscription_fst]
    cases f <;> first | rfl | exact absurd (by decide) hmem

/-- What a repair saves is what it changes. -/
theorem mem_reconciledSubscription (obj : SubscriptionObject) (sub : Subscription)
    (hf : f ∈ reconciledFields) : f ∈ (reconciledSubscription obj sub).2 ↔
      (obj.states f).getD (f.read sub) ≠ f.read sub := by
  rw [← reconciledSubscription_read obj sub hf]
  constructor
  · intro hmem
    have hboth := of_decide_eq_true (List.mem_filter.mp hmem).2
    exact hboth.2
  · intro hne
    by_contra hnot
    exact hne ((reconciledSubscription_names obj sub).rest f hnot)

end Statements

end StapelBilling
