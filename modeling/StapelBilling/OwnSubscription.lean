import StapelBilling.Calls
import StapelBilling.Lifecycle

/-! # Whose row an event reaches

A lifecycle event is about one provider subscription.  Where no row carries its id the
handler goes by the customer and then by the user, and a row found so may belong to another
subscription by now.  Such a row keeps its lifecycle only if the event is stale for it or
says nothing that the row does not already hold.
-/
namespace StapelBilling
open Store

/-- The constraints of the table: a user has one row, and no two rows share a provider id. -/
structure Db.SubscriptionsUnique (db : Db) : Prop where
  user : ∀ j k a b, db.subscriptions.get? j = some a → db.subscriptions.get? k = some b →
    a.user ≠ none → a.user = b.user → j = k
  subscriptionId : ∀ j k a b, db.subscriptions.get? j = some a → db.subscriptions.get? k = some b →
    nonempty a.stripeSubscriptionId ≠ none → a.stripeSubscriptionId = b.stripeSubscriptionId → j = k
  customerId : ∀ j k a b, db.subscriptions.get? j = some a → db.subscriptions.get? k = some b →
    nonempty a.stripeCustomerId ≠ none → a.stripeCustomerId = b.stripeCustomerId → j = k

/-- The row is another subscription's: it carries an id, and not this one. -/
def Subscription.OfAnother (sub : Subscription) (id : String) : Prop :=
  nonempty sub.stripeSubscriptionId ≠ none ∧ sub.stripeSubscriptionId ≠ some id

/-- An object goes to the row of its customer, when no row carries its id; and to the row of
its user when no row carries its customer either. -/
def SubscriptionObject.FallsTo (obj : SubscriptionObject) (db : Db) (sub : Subscription) : Prop :=
  (∀ k row, db.subscriptions.get? k = some row → row.stripeSubscriptionId ≠ obj.id) ∧
    ((nonempty obj.customer ≠ none ∧ sub.stripeCustomerId = obj.customer) ∨
      ((nonempty obj.customer ≠ none → ∀ k row, db.subscriptions.get? k = some row →
          row.stripeCustomerId ≠ obj.customer) ∧
        obj.userId ≠ none ∧ sub.user = obj.userId))

/-- The event says nothing that the row does not hold already. -/
structure LifecycleEvent.Restates (env : Env) (e : LifecycleEvent) (sub : Subscription) : Prop where
  status : mapStripeStatus e.statusText (some sub.status) = some sub.status
  start : (stripePeriod e.object).1 = none ∨ (stripePeriod e.object).1 = sub.currentPeriodStart
  finish : (stripePeriod e.object).2 = none ∨ (stripePeriod e.object).2 = sub.currentPeriodEnd
  flag : e.flag = none ∨ e.flag = some sub.cancelAtPeriodEnd
  cancelled : e.cancelledAfter env sub = sub.cancelledAt
  clock : e.time = none ∨ ∃ t ∈ e.time, ∃ last ∈ sub.lastProviderEventAt, t ≤ last

section Restating
variable {env : Env} {e : LifecycleEvent} {sub : Subscription}

theorem or_eq_iff (new old : Option Time) : new.or old = old ↔ new = none ∨ new = old := by
  cases new with
  | none => simp
  | some t => simp

theorem flagAfter_eq_iff (current : Bool) :
    e.flagAfter current = current ↔ e.flag = none ∨ e.flag = some current := by
  cases e with
  | updated event =>
    simp only [LifecycleEvent.flagAfter, LifecycleEvent.flag]
    cases event.object.cancelAtPeriodEnd with
    | none => simp
    | some b => simp
  | deleted event => simp [LifecycleEvent.flagAfter, LifecycleEvent.flag]

theorem later_eq_iff (old new : Option Time) :
    later old new = old ↔ new = none ∨ ∃ t ∈ new, ∃ last ∈ old, t ≤ last := by
  cases new with
  | none => simp
  | some t =>
    cases old with
    | none => simp [later]
    | some last => simp [later]

theorem statusAfter_eq_iff (current : SubscriptionStatus) : e.statusAfter current = current ↔
    mapStripeStatus e.statusText (some current) = some current := by
  unfold LifecycleEvent.statusAfter mapStripeStatus
  cases e.statusText.bind fun status => stripeStatusMap.lookup status with
  | none => simp
  | some known => simp

/-- **Restating** is exactly what leaves the lifecycle of a row as it is. -/
theorem LifecycleEvent.restates_iff :
    e.Restates env sub ↔ (e.edit env sub).1.lifecycle = sub.lifecycle := by
  rw [e.edit_fst]
  simp only [Subscription.lifecycle, Lifecycle.mk.injEq, statusAfter_eq_iff, or_eq_iff,
    flagAfter_eq_iff, later_eq_iff]
  constructor
  · rintro ⟨h₁, h₂, h₃, h₄, h₅, h₆⟩
    exact ⟨h₁, h₂, h₃, h₄, h₅, h₆⟩
  · rintro ⟨h₁, h₂, h₃, h₄, h₅, h₆⟩
    exact ⟨h₁, h₂, h₃, h₄, h₅, h₆⟩

/-- What an event does to the lifecycle of a row depends on that lifecycle alone. -/
theorem LifecycleEvent.edit_lifecycle_congr {sub' : Subscription} (h : sub'.lifecycle = sub.lifecycle) :
    (e.edit env sub').1.lifecycle = (e.edit env sub).1.lifecycle := by
  obtain ⟨hstatus, hstart, hfinish, hflag, hcancelled, hclock⟩ := Lifecycle.mk.inj h
  have hafter : e.cancelledAfter env sub' = e.cancelledAfter env sub := by
    cases e with
    | updated event => rw [cancelledAfter, cancelledAfter, cancelledAtAfter, cancelledAtAfter, hcancelled]
    | deleted event => rfl
  rw [e.edit_fst, e.edit_fst]
  simp only [Subscription.lifecycle, hstatus, hstart, hfinish, hflag, hclock, hafter]

theorem LifecycleEvent.isStale_congr {sub' : Subscription} (h : sub'.lifecycle = sub.lifecycle) :
    e.IsStale sub' ↔ e.IsStale sub := by
  obtain ⟨hstatus, -, -, -, -, hclock⟩ := Lifecycle.mk.inj h
  unfold IsStale isStaleLifecycleEvent
  rw [hstatus, hclock]

end Restating

/-! ## Where an event lands -/

section Landing
variable {id : String} {obj : SubscriptionObject} {db : Db} {k : ℕ} {sub : Subscription}

theorem nonempty_eq_some {text : Option String} {t : String} (h : nonempty text = some t) :
    text = some t := by
  cases text with
  | none => cases h
  | some s =>
    unfold nonempty at h
    dsimp only at h
    split at h
    · cases h
    · exact h

theorem nonempty_of_ne_none {text : Option String} (h : nonempty text ≠ none) :
    nonempty text = text := by
  obtain ⟨t, ht⟩ := Option.ne_none_iff_exists'.mp h
  rw [ht, nonempty_eq_some ht]

/-- A key that finds nothing is on no row. -/
theorem findSubscription_none_iff {Key : Type} [DecidableEq Key] {key : Option Key}
    {column : Subscription → Option Key} :
    findSubscription key column db = none ↔
      (key ≠ none → ∀ k row, db.subscriptions.get? k = some row → column row ≠ key) := by
  cases key with
  | none => simp [findSubscription]
  | some value =>
    constructor
    · intro h _ k row hk
      exact findSubscription_none h hk
    · intro h
      cases hfind : findSubscription (some value) column db with
      | none => rfl
      | some r =>
        obtain ⟨k, row⟩ := r
        obtain ⟨v, hv, hcol, hget⟩ := findSubscription_some hfind
        exact absurd (hcol.trans hv.symm) (h (Option.some_ne_none value) k row hget)

/-- A key that only one row carries finds it. -/
theorem findSubscription_unique {Key : Type} [DecidableEq Key] {key : Option Key}
    {column : Subscription → Option Key} (hkey : key ≠ none) (hk : db.subscriptions.get? k = some sub)
    (hsub : column sub = key)
    (honly : ∀ j row, db.subscriptions.get? j = some row → column row = key → j = k) :
    findSubscription key column db = some (k, sub) := by
  obtain ⟨value, rfl⟩ := Option.ne_none_iff_exists'.mp hkey
  exact Table.find?_eq_some_of_unique hk hsub honly

/-- **A row an object falls to** is the row that is found, with what it adopts. -/
theorem SubscriptionObject.FallsTo.resolve (h : obj.FallsTo db sub) (hu : db.SubscriptionsUnique)
    (hk : db.subscriptions.get? k = some sub) : ∃ edited : Edited, Edited.Names sub edited ∧
      edited.1.lifecycle = sub.lifecycle ∧
      resolveLocalSubscription obj db = (some (k, edited.1), saveSubscription k edited.1 edited.2 db) := by
  obtain ⟨hid, hroute⟩ := h
  have hnoId : findSubscription (nonempty obj.id) Subscription.stripeSubscriptionId db = none := by
    rw [findSubscription_none_iff]
    intro hne j row hj
    rw [nonempty_of_ne_none hne]
    exact hid j row hj
  unfold resolveLocalSubscription
  rw [hnoId]
  rcases hroute with ⟨hne, hcustomer⟩ | ⟨hnoCustomer, hne, huser⟩
  · have hfind : findSubscription (nonempty obj.customer) Subscription.stripeCustomerId db =
        some (k, sub) := by
      rw [nonempty_of_ne_none hne]
      refine findSubscription_unique (fun hnone => hne (by rw [hnone]; rfl)) hk hcustomer ?_
      intro j row hj hrow
      have hsub : nonempty sub.stripeCustomerId ≠ none := by rw [hcustomer]; exact hne
      exact (hu.customerId k j sub row hk hj hsub (hcustomer.trans hrow.symm)).symm
    rw [hfind]
    exact ⟨_, adoptIds_names obj.id none sub, adoptIds_lifecycle obj.id none sub, rfl⟩
  · have hnone : findSubscription (nonempty obj.customer) Subscription.stripeCustomerId db = none := by
      rw [findSubscription_none_iff]
      intro hne' j row hj
      rw [nonempty_of_ne_none hne']
      exact hnoCustomer hne' j row hj
    have hfind : findSubscription obj.userId Subscription.user db = some (k, sub) := by
      refine findSubscription_unique hne hk huser fun j row hj hrow => ?_
      have hsub : sub.user ≠ none := by rw [huser]; exact hne
      exact (hu.user k j sub row hk hj hsub (huser.trans hrow.symm)).symm
    rw [hnone, hfind]
    exact ⟨_, adoptIds_names obj.id obj.customer sub, adoptIds_lifecycle obj.id obj.customer sub, rfl⟩

/-- **What an event does to the row it falls to.** -/
theorem LifecycleEvent.handle_fallsTo {e : LifecycleEvent} (env : Env)
    (h : e.object.FallsTo db sub) (hu : db.SubscriptionsUnique)
    (hk : db.subscriptions.get? k = some sub) :
    ((e.handle env db).subscriptions.get? k).map Subscription.lifecycle =
      some (if e.IsStale sub then sub.lifecycle else (e.edit env sub).1.lifecycle) := by
  obtain ⟨edited, hnames, hsame, hresolve⟩ := h.resolve hu hk
  have hsaved := saveSubscription_get? k db hk hnames
  have hget : (saveSubscription k edited.1 edited.2 db).subscriptions.get? k = some edited.1 := by
    rw [hsaved, if_pos rfl]
  rw [e.handle_eq, hresolve]
  dsimp only
  by_cases hstale : e.IsStale sub
  · rw [if_pos hstale, if_pos ((e.isStale_congr hsame).mpr hstale), hget, Option.map_some, hsame]
  · rw [if_neg hstale, if_neg fun hs => hstale ((e.isStale_congr hsame).mp hs),
      applyLifecycle_get? k _ hget (e.edit_names env edited.1), if_pos rfl, Option.map_some,
      e.edit_lifecycle_congr hsame]

@[simp] theorem stashSubscriptionPeriod_subscriptions (obj : SubscriptionObject) (event : Option Time)
    (db : Db) : (stashSubscriptionPeriod obj event db).subscriptions = db.subscriptions := by
  unfold stashSubscriptionPeriod
  split
  · rfl
  · dsimp only
    split
    · split <;> rfl
    · rfl

theorem saveSubscription_other (sub : Subscription) (fields : List SubscriptionField) (db : Db)
    {j : ℕ} (hj : j ≠ k) :
    (saveSubscription k sub fields db).subscriptions.get? j = db.subscriptions.get? j :=
  Table.get?_modify_of_ne _ _ hj

/-- An event that finds one row leaves the others. -/
theorem LifecycleEvent.handle_elsewhere {e : LifecycleEvent} (env : Env) {db' : Db} {j : ℕ}
    (hresolve : resolveLocalSubscription e.object db = (some (k, sub), db')) (hj : j ≠ k) :
    (e.handle env db).subscriptions.get? j = db'.subscriptions.get? j := by
  rw [e.handle_eq, hresolve]
  dsimp only
  split
  · rfl
  · rw [applyLifecycle_subscriptions, saveSubscription_other _ _ _ hj]

theorem LifecycleEvent.handle_adopting {e : LifecycleEvent} (env : Env) {edited : Edited} {j : ℕ}
    (hresolve : resolveLocalSubscription e.object db =
      (some (k, edited.1), saveSubscription k edited.1 edited.2 db)) (hj : j ≠ k) :
    (e.handle env db).subscriptions.get? j = db.subscriptions.get? j := by
  rw [handle_elsewhere env hresolve hj, saveSubscription_other _ _ _ hj]

/-- Another subscription's row that an event does not fall to is not touched. -/
theorem LifecycleEvent.handle_other {e : LifecycleEvent} (env : Env) (hid : e.object.id = some id)
    (hnamed : id ≠ "") (hk : db.subscriptions.get? k = some sub) (hother : sub.OfAnother id)
    (hfalls : ¬ e.object.FallsTo db sub) :
    (e.handle env db).subscriptions.get? k = some sub := by
  have hkey : nonempty e.object.id = e.object.id := by rw [hid, nonempty_of_ne hnamed]
  rw [← hk]
  have hspec := resolveLocalSubscription_resolved e.object db
  generalize hresolve : resolveLocalSubscription e.object db = r at hspec
  cases hspec with
  | byId k' sub' hfind =>
    refine handle_elsewhere env hresolve ?_
    rintro rfl
    obtain ⟨value, hvalue, hcol, hget⟩ := findSubscription_some hfind
    obtain rfl := Option.some.inj (hk.symm.trans hget)
    rw [hkey, hid] at hvalue
    exact hother.2 (hcol.trans hvalue.symm)
  | byCustomer k' sub' hnoId hfind =>
    refine handle_adopting env hresolve ?_
    rintro rfl
    obtain ⟨value, hvalue, hcol, hget⟩ := findSubscription_some hfind
    obtain rfl := Option.some.inj (hk.symm.trans hget)
    have hne : nonempty e.object.customer ≠ none := by rw [hvalue]; nofun
    refine hfalls ⟨?_, Or.inl ⟨hne, by rw [hcol, nonempty_eq_some hvalue]⟩⟩
    rw [findSubscription_none_iff, hkey] at hnoId
    exact hnoId (by rw [hid]; nofun)
  | byUser k' sub' hnoId hnoCustomer hfind =>
    refine handle_adopting env hresolve ?_
    rintro rfl
    obtain ⟨value, hvalue, hcol, hget⟩ := findSubscription_some hfind
    obtain rfl := Option.some.inj (hk.symm.trans hget)
    rw [findSubscription_none_iff, hkey] at hnoId
    rw [findSubscription_none_iff] at hnoCustomer
    refine hfalls ⟨hnoId (by rw [hid]; nofun), Or.inr ⟨fun hne j row hj => ?_, ?_, ?_⟩⟩
    · have hno := hnoCustomer hne j row hj
      rwa [nonempty_of_ne_none hne] at hno
    · rw [hvalue]; nofun
    · rw [hcol, hvalue]
  | nowhere hnoId hnoCustomer hnoUser =>
    rw [e.handle_eq, hresolve]
    rw [stashSubscriptionPeriod_subscriptions]

/-- **Events stay on their own subscription** exactly as long as an event that falls to
another subscription's row is stale for it, or says nothing that the row does not hold.
-/
theorem handle_stays_iff {e : LifecycleEvent} (env : Env) (hu : db.SubscriptionsUnique)
    (hid : e.object.id = some id) (hnamed : id ≠ "") :
    (∀ j row, db.subscriptions.get? j = some row → row.OfAnother id →
      ((e.handle env db).subscriptions.get? j).map Subscription.lifecycle = some row.lifecycle) ↔
    ∀ j row, db.subscriptions.get? j = some row → row.OfAnother id → e.object.FallsTo db row →
      e.IsStale row ∨ e.Restates env row := by
  constructor
  · intro h j row hj hother hfalls
    have hafter := h j row hj hother
    rw [LifecycleEvent.handle_fallsTo env hfalls hu hj, Option.some.injEq] at hafter
    by_cases hstale : e.IsStale row
    · exact Or.inl hstale
    · rw [if_neg hstale] at hafter
      exact Or.inr (LifecycleEvent.restates_iff.mpr hafter)
  · intro h j row hj hother
    by_cases hfalls : e.object.FallsTo db row
    · rw [LifecycleEvent.handle_fallsTo env hfalls hu hj, Option.some.injEq]
      rcases h j row hj hother hfalls with hstale | hrestates
      · exact if_pos hstale
      · split
        · rfl
        · exact LifecycleEvent.restates_iff.mp hrestates
    · rw [LifecycleEvent.handle_other env hid hnamed hj hother hfalls, Option.map_some]

end Landing

/-! ## The deletion of a replaced subscription -/

/-- A customer's row after an upgrade: it follows `sub_2`, and has seen an event of second
`seen`. -/
def upgradedRow (seen : ℚ) : Subscription where
  user := some 1
  stripeSubscriptionId := some "sub_2"
  stripeCustomerId := some "cus_1"
  lastProviderEventAt := epochToDatetime (some seen)

/-- The customer's row alone. -/
def upgradedAt (seen : ℚ) : Db :=
  { users := [1], subscriptions := Table.empty.insert (upgradedRow seen) }

/-- The deletion, at second twenty, of the subscription the upgrade replaced. -/
def deletionOfReplaced : LifecycleEvent :=
  .deleted
    { id := some "evt_1", type := "customer.subscription.deleted", created := some 20
      object := { id := some "sub_1", customer := some "cus_1", status := some "canceled" } }

theorem upgradedAt_row {seen : ℚ} {j : ℕ} {row : Subscription}
    (h : (upgradedAt seen).subscriptions.get? j = some row) : j = 0 ∧ row = upgradedRow seen := by
  rw [upgradedAt, Table.get?_insert] at h
  split at h
  · exact ⟨by assumption, (Option.some.inj h).symm⟩
  · exact Table.get?_empty_ne h

theorem upgradedAt_unique (seen : ℚ) : (upgradedAt seen).SubscriptionsUnique where
  user := fun _ _ _ _ hj hk _ _ => (upgradedAt_row hj).1.trans (upgradedAt_row hk).1.symm
  subscriptionId := fun _ _ _ _ hj hk _ _ => (upgradedAt_row hj).1.trans (upgradedAt_row hk).1.symm
  customerId := fun _ _ _ _ hj hk _ _ => (upgradedAt_row hj).1.trans (upgradedAt_row hk).1.symm

/-- **The late deletion of a replaced subscription cancels its replacement**, when the row
has seen nothing newer. -/
theorem replacement_cancelled : (upgradedAt 10).SubscriptionsUnique ∧
    ((upgradedAt 10).subscriptions.get? 0).map Subscription.status = some .active ∧
    ((deletionOfReplaced.handle (Env.plain 0) (upgradedAt 10)).subscriptions.get? 0).map
      Subscription.status = some .cancelled ∧
    ¬ ∀ j row, (upgradedAt 10).subscriptions.get? j = some row → row.OfAnother "sub_1" →
      ((deletionOfReplaced.handle (Env.plain 0) (upgradedAt 10)).subscriptions.get? j).map
        Subscription.lifecycle = some row.lifecycle := by
  have hcancelled : ((deletionOfReplaced.handle (Env.plain 0) (upgradedAt 10)).subscriptions.get?
      0).map Subscription.status = some .cancelled := by decide +kernel
  refine ⟨upgradedAt_unique 10, rfl, hcancelled, fun h => ?_⟩
  have hsame := h 0 _ rfl ⟨by decide, by decide⟩
  obtain ⟨row, hrow, hlife⟩ := Option.map_eq_some_iff.mp hsame
  rw [hrow, Option.map_some, Option.some.injEq] at hcancelled
  have hactive : row.status = .active := congrArg Lifecycle.status hlife
  exact absurd (hactive.symm.trans hcancelled) (by decide)

/-- A row that has seen second thirty is not reached. -/
theorem replacement_kept :
    ((deletionOfReplaced.handle (Env.plain 0) (upgradedAt 30)).subscriptions.get? 0).map
      Subscription.lifecycle = some (upgradedRow 30).lifecycle := by
  refine (handle_stays_iff (Env.plain 0) (upgradedAt_unique 30) rfl (by decide)).mpr ?_ 0 _ rfl
    ⟨by decide, by decide⟩
  intro j row hj _ _
  rw [(upgradedAt_row hj).2]
  exact Or.inl (by decide +kernel)

end StapelBilling
