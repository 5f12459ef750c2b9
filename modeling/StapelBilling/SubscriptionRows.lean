import StapelBilling.Endpoints
import StapelBilling.Reconcile
import StapelBilling.Store.Custody

/-! # One subscription each

A user has one subscription row at most, and no two rows carry one provider id.  The table's
constraints say so; here it is read off the writes.  A row is opened for a user without one, an
id is adopted when no row was found by it, a checkout that would take another row's id is
refused, and nothing else writes these columns.

* `resolveLocalSubscription_unique`: rows adopt ids that nobody carries.
* `openSubscription_unique`: a checkout.
* `saveSubscription_unique`: everything an event or a repair saves.
* `mergeSubscription_unique`, `eraseSubscriptions_unique`: accounts that go.
-/
namespace StapelBilling
open Store

variable {env : Env} {db db' : Db} {user : UserId}

/-- The constraints, one column at a time. -/
theorem subscriptionsUnique_iff : db.SubscriptionsUnique ↔
    Single Subscription.user db.subscriptions ∧
    Single (fun sub => nonempty sub.stripeSubscriptionId) db.subscriptions ∧
    Single (fun sub => nonempty sub.stripeCustomerId) db.subscriptions := by
  have hcolumn : ∀ (column : Subscription → Option String),
      Single (fun sub => nonempty (column sub)) db.subscriptions ↔
        ∀ j k a b, db.subscriptions.get? j = some a → db.subscriptions.get? k = some b →
          nonempty (column a) ≠ none → column a = column b → j = k := by
    intro column
    constructor
    · intro hs j k a b hj hk hne hsame
      obtain ⟨u, hu⟩ := Option.ne_none_iff_exists'.mp hne
      exact hs j k a b u hj hk hu ((congrArg nonempty hsame).symm.trans hu)
    · intro hs j k a b u hj hk ha hb
      have hne : nonempty (column a) ≠ none := ne_of_eq_of_ne ha (Option.some_ne_none u)
      exact hs j k a b hj hk hne ((nonempty_eq_some ha).trans (nonempty_eq_some hb).symm)
  rw [hcolumn, hcolumn]
  constructor
  · rintro ⟨huser, hid, hcustomer⟩
    refine ⟨fun j k a b u hj hk ha hb => ?_, hid, hcustomer⟩
    have hne : a.user ≠ none := ne_of_eq_of_ne ha (Option.some_ne_none u)
    exact huser j k a b hj hk hne (ha.trans hb.symm)
  · rintro ⟨huser, hid, hcustomer⟩
    refine ⟨fun j k a b hj hk hne hsame => ?_, hid, hcustomer⟩
    obtain ⟨u, hu⟩ := Option.ne_none_iff_exists'.mp hne
    exact huser j k a b u hj hk hu (hsame ▸ hu)

theorem Db.SubscriptionsUnique.congr (hu : db.SubscriptionsUnique)
    (h : db'.subscriptions = db.subscriptions) : db'.SubscriptionsUnique := by
  rw [subscriptionsUnique_iff] at hu ⊢
  rw [h]
  exact hu

/-! ## Saves that leave the ids alone -/

/-- The columns name no provider id. -/
def KeepsIds (fields : List SubscriptionField) : Prop :=
  .stripeSubscriptionId ∉ fields ∧ .stripeCustomerId ∉ fields

theorem KeepsIds.append {first second : List SubscriptionField} (h : KeepsIds first)
    (h' : KeepsIds second) : KeepsIds (first ++ second) :=
  ⟨fun hmem => (List.mem_append.mp hmem).elim h.1 h'.1,
    fun hmem => (List.mem_append.mp hmem).elim h.2 h'.2⟩

theorem saveSubscription_unique {k : ℕ} {sub : Subscription} {fields : List SubscriptionField}
    (hids : KeepsIds fields) (hu : db.SubscriptionsUnique) :
    (saveSubscription k sub fields db).SubscriptionsUnique := by
  have hread : ∀ (row : Subscription) (f : SubscriptionField), f ∉ fields →
      f.read (fields.foldl (SubscriptionField.write sub) row) = f.read row := by
    intro row f hf
    rw [SubscriptionField.read_foldl_write, if_neg hf]
  rw [subscriptionsUnique_iff] at hu ⊢
  obtain ⟨huser, hid, hcustomer⟩ := hu
  refine ⟨huser.modify fun row _ => Or.inl (SubscriptionField.foldl_write_frame fields).1,
    hid.modify fun row _ => Or.inl ?_, hcustomer.modify fun row _ => Or.inl ?_⟩
  · exact congrArg nonempty (ColumnValue.text.inj (hread row .stripeSubscriptionId hids.1))
  · exact congrArg nonempty (ColumnValue.text.inj (hread row .stripeCustomerId hids.2))

theorem applyStripePeriod_keepsIds (obj : SubscriptionObject) (sub : Subscription) :
    KeepsIds (applyStripePeriod obj sub).2 := by
  unfold applyStripePeriod KeepsIds
  dsimp only
  split <;> split <;> simp

theorem applyStripeCancellation_keepsIds (obj : SubscriptionObject) (sub : Subscription) :
    KeepsIds (applyStripeCancellation obj sub).2 := by
  unfold applyStripeCancellation KeepsIds
  cases obj.cancelAtPeriodEnd with
  | none =>
    dsimp only
    split_ifs <;> simp
  | some flag =>
    dsimp only
    split_ifs <;> simp

theorem advanceProviderClock_keepsIds (event : Option Time) (sub : Subscription) :
    KeepsIds (advanceProviderClock event sub).2 := by
  unfold advanceProviderClock KeepsIds
  split
  · simp
  · split <;> simp

theorem applyTo_keepsIds (pending : PendingSubscriptionPeriod) (sub : Subscription) :
    KeepsIds (pending.applyTo sub).2 := by
  have hnone : KeepsIds [] := ⟨List.not_mem_nil, List.not_mem_nil⟩
  have hstart : KeepsIds [.currentPeriodStart] := by simp [KeepsIds]
  have hend : KeepsIds [.currentPeriodEnd] := by simp [KeepsIds]
  have hstatus : KeepsIds [.status] := by simp [KeepsIds]
  have hclock : ∀ row, KeepsIds (advanceProviderClock pending.providerEventAt row).2 :=
    advanceProviderClock_keepsIds pending.providerEventAt
  unfold PendingSubscriptionPeriod.applyTo
  dsimp only
  split_ifs
  all_goals first
    | exact hnone
    | exact hstart
    | exact hnone.append hend
    | exact hstart.append hend
    | exact hnone.append (hclock _)
    | exact hstart.append (hclock _)
    | exact (hnone.append hend).append (hclock _)
    | exact (hstart.append hend).append (hclock _)
    | exact (hnone.append hstatus).append (hclock _)
    | exact (hstart.append hstatus).append (hclock _)
    | exact ((hnone.append hend).append hstatus).append (hclock _)
    | exact ((hstart.append hend).append hstatus).append (hclock _)

theorem updatedSubscription_keepsIds (obj : SubscriptionObject) (event : Option Time)
    (sub : Subscription) : KeepsIds (updatedSubscription obj event sub).2 := by
  have hstatus : KeepsIds [.status] := by simp [KeepsIds]
  exact hstatus.append (((applyStripePeriod_keepsIds obj _).append
    (applyStripeCancellation_keepsIds obj _)).append (advanceProviderClock_keepsIds event _))

theorem deletedSubscription_keepsIds (obj : SubscriptionObject) (event : Option Time)
    (sub : Subscription) : KeepsIds (deletedSubscription env obj event sub).2 := by
  have hends : KeepsIds [.status, .cancelledAt, .cancelAtPeriodEnd] := by simp [KeepsIds]
  exact (hends.append (applyStripePeriod_keepsIds obj _)).append (advanceProviderClock_keepsIds event _)

theorem reconciledSubscription_keepsIds (obj : SubscriptionObject) (sub : Subscription) :
    KeepsIds (reconciledSubscription obj sub).2 := by
  have hfields : KeepsIds reconciledFields := by simp [KeepsIds, reconciledFields]
  exact ⟨fun hmem => hfields.1 (List.mem_filter.mp hmem).1,
    fun hmem => hfields.2 (List.mem_filter.mp hmem).1⟩

/-! ## Adopting ids -/

/-- What no row was found by, no row carries. -/
theorem findSubscription_uncarried {key : Option String} {column : Subscription → Option String}
    (h : findSubscription key column db = none) {k : ℕ} {sub : Subscription} {u : String}
    (hk : db.subscriptions.get? k = some sub) (hkey : key = some u) :
    nonempty (column sub) ≠ some u := by
  rw [hkey] at h
  exact fun hu => findSubscription_none h hk (nonempty_eq_some hu)

/-- **A row adopts ids that nobody carries.** -/
theorem adoptIds_unique {k : ℕ} {sub : Subscription} {id customer : Option String}
    (hget : db.subscriptions.get? k = some sub)
    (hid : ∀ j row u, db.subscriptions.get? j = some row → nonempty id = some u →
      nonempty row.stripeSubscriptionId ≠ some u)
    (hcustomer : ∀ j row u, db.subscriptions.get? j = some row → nonempty customer = some u →
      nonempty row.stripeCustomerId ≠ some u)
    (hu : db.SubscriptionsUnique) :
    (saveSubscription k (adoptIds id customer sub).1 (adoptIds id customer sub).2
      db).SubscriptionsUnique := by
  have hsaved : ∀ row, db.subscriptions.get? k = some row →
      (adoptIds id customer sub).2.foldl (SubscriptionField.write (adoptIds id customer sub).1) row =
        { row with
          stripeSubscriptionId :=
            if (nonempty id).isSome ∧ nonempty row.stripeSubscriptionId = none then id
            else row.stripeSubscriptionId
          stripeCustomerId :=
            if (nonempty customer).isSome ∧ nonempty row.stripeCustomerId = none then customer
            else row.stripeCustomerId } := by
    intro row hrow
    obtain rfl := Option.some.inj (hget.symm.trans hrow)
    rw [(adoptIds_names id customer sub).saved, adoptIds_fst]
  rw [subscriptionsUnique_iff] at hu ⊢
  refine ⟨hu.1.modify fun row hrow => Or.inl ?_, hu.2.1.modify fun row hrow => ?_,
    hu.2.2.modify fun row hrow => ?_⟩
  · rw [hsaved row hrow]
  · rw [hsaved row hrow]
    dsimp only
    split
    · exact Or.inr fun j other u _ hj hu => hid j other u hj hu
    · exact Or.inl rfl
  · rw [hsaved row hrow]
    dsimp only
    split
    · exact Or.inr fun j other u _ hj hu => hcustomer j other u hj hu
    · exact Or.inl rfl

theorem resolveLocalSubscription_unique (obj : SubscriptionObject) (hu : db.SubscriptionsUnique) :
    (resolveLocalSubscription obj db).2.SubscriptionsUnique := by
  unfold resolveLocalSubscription
  split
  · exact hu
  · rename_i hnone
    have hid : ∀ j row u, db.subscriptions.get? j = some row → nonempty obj.id = some u →
        nonempty row.stripeSubscriptionId ≠ some u := fun _ _ _ => findSubscription_uncarried hnone
    split
    · rename_i k sub hfound
      obtain ⟨-, -, -, hget⟩ := findSubscription_some hfound
      exact adoptIds_unique hget hid (fun _ _ _ _ hgiven => by cases hgiven) hu
    · rename_i hnocustomer
      split
      · rename_i k sub hfound
        obtain ⟨-, -, -, hget⟩ := findSubscription_some hfound
        exact adoptIds_unique hget hid
          (fun _ _ _ => findSubscription_uncarried hnocustomer) hu
      · exact hu

/-! ## Opening rows -/

/-- What a checkout writes over a row: the user stays, the ids are the session's. -/
theorem checkoutDefaults_ids (plan : String) (obj : CheckoutSession) (event : Option Time)
    (sub : Subscription) : (checkoutDefaults plan obj event sub).user = sub.user ∧
      (checkoutDefaults plan obj event sub).stripeSubscriptionId = obj.subscription ∧
      (checkoutDefaults plan obj event sub).stripeCustomerId = obj.customer := by
  unfold checkoutDefaults
  dsimp only
  split <;> exact ⟨rfl, rfl, rfl⟩

/-- **A checkout takes no other row's id**: it is refused. -/
theorem openSubscription_unique {plan : String} {obj : CheckoutSession} {event : Option Time} {k : ℕ}
    {sub : Subscription} (h : openSubscription user plan obj event db = .ok (k, sub, db'))
    (hu : db.SubscriptionsUnique) : db'.SubscriptionsUnique := by
  unfold openSubscription at h
  split at h
  · cases h
  · rename_i htaken
    have hnone := Option.not_isSome_iff_eq_none.mp htaken
    have hfree : ∀ j row, db.subscriptions.get? j = some row → row.user ≠ some user →
        (∀ u, nonempty obj.subscription = some u → nonempty row.stripeSubscriptionId ≠ some u) ∧
        ∀ u, nonempty obj.customer = some u → nonempty row.stripeCustomerId ≠ some u := by
      intro j row hj hother
      have hnot := Table.find?_none hnone hj
      refine ⟨fun u hid hrow => hnot ⟨hother, Or.inl ⟨?_, ?_⟩⟩,
        fun u hid hrow => hnot ⟨hother, Or.inr ⟨?_, ?_⟩⟩⟩
      · rw [hid]
        exact Option.some_ne_none u
      · rw [nonempty_eq_some hrow, nonempty_eq_some hid]
      · rw [hid]
        exact Option.some_ne_none u
      · rw [nonempty_eq_some hrow, nonempty_eq_some hid]
    rw [subscriptionsUnique_iff] at hu ⊢
    split at h
    · rename_i j existing hfind
      obtain ⟨-, rfl⟩ := Prod.mk.inj (Prod.mk.inj (Except.ok.inj h)).2
      obtain ⟨hget, howner⟩ := Table.find?_some hfind
      obtain ⟨huser, hid, hcustomer⟩ := checkoutDefaults_ids plan obj event existing
      -- Any other row is another user's.
      have hother : ∀ i row, i ≠ j → db.subscriptions.get? i = some row → row.user ≠ some user :=
        fun i row hne hi hmine => hne (hu.1 i j row existing user hi hget hmine howner)
      refine ⟨hu.1.modify fun row hrow => Or.inl ?_, hu.2.1.modify fun row hrow => Or.inr ?_,
        hu.2.2.modify fun row hrow => Or.inr ?_⟩
      · obtain rfl := Option.some.inj (hget.symm.trans hrow)
        exact huser
      · intro i other u hne hi hgiven
        rw [hid] at hgiven
        exact (hfree i other hi (hother i other hne hi)).1 u hgiven
      · intro i other u hne hi hgiven
        rw [hcustomer] at hgiven
        exact (hfree i other hi (hother i other hne hi)).2 u hgiven
    · rename_i hfind
      obtain ⟨-, rfl⟩ := Prod.mk.inj (Prod.mk.inj (Except.ok.inj h)).2
      obtain ⟨huser, hid, hcustomer⟩ := checkoutDefaults_ids plan obj event { user := some user }
      have hother : ∀ i row, db.subscriptions.get? i = some row → row.user ≠ some user :=
        fun i row hi => Table.find?_none hfind hi
      refine ⟨hu.1.insert fun i row u hi hgiven => ?_, hu.2.1.insert fun i row u hi hgiven => ?_,
        hu.2.2.insert fun i row u hi hgiven => ?_⟩
      · rw [huser] at hgiven
        rw [← hgiven]
        exact hother i row hi
      · rw [hid] at hgiven
        exact (hfree i row hi (hother i row hi)).1 u hgiven
      · rw [hcustomer] at hgiven
        exact (hfree i row hi (hother i row hi)).2 u hgiven

theorem viewSubscription_unique (user : UserId) (hu : db.SubscriptionsUnique) :
    (viewSubscription user db).2.SubscriptionsUnique := by
  unfold viewSubscription
  split
  · exact hu
  · rename_i hfind
    rw [subscriptionsUnique_iff] at hu ⊢
    refine ⟨hu.1.insert fun i row u hi hgiven => ?_,
      hu.2.1.insert fun _ _ _ _ hgiven => (by cases hgiven),
      hu.2.2.insert fun _ _ _ _ hgiven => (by cases hgiven)⟩
    rw [← hgiven]
    exact Table.find?_none hfind hi

/-! ## Accounts that go -/

/-- A merge gives the row to a user without one, or to nobody. -/
theorem mergeSubscription_unique {fromUser intoUser : UserId} {n : ℕ}
    (h : mergeSubscription fromUser intoUser db = .ok (n, db')) (hu : db.SubscriptionsUnique) :
    db'.SubscriptionsUnique := by
  have hassign : ∀ k owner, (∀ i row u, db.subscriptions.get? i = some row → owner = some u →
      row.user ≠ some u) → Db.SubscriptionsUnique { db with
        subscriptions := db.subscriptions.modify k fun sub => { sub with user := owner } } := by
    intro k owner hfree
    rw [subscriptionsUnique_iff] at hu ⊢
    exact ⟨hu.1.modify fun row _ => Or.inr fun i other u _ hi hgiven => hfree i other u hi hgiven,
      hu.2.1.modify fun _ _ => Or.inl rfl, hu.2.2.modify fun _ _ => Or.inl rfl⟩
  unfold mergeSubscription at h
  split at h
  · obtain ⟨-, rfl⟩ := Prod.mk.inj (Except.ok.inj h)
    exact hu
  · dsimp only at h
    split at h
    · obtain ⟨-, rfl⟩ := Prod.mk.inj (Except.ok.inj h)
      exact hassign _ none fun _ _ _ _ hgiven => by cases hgiven
    · rename_i hnone
      split at h
      · obtain ⟨-, rfl⟩ := Prod.mk.inj (Except.ok.inj h)
        refine hassign _ (some intoUser) fun i row u hi hgiven => ?_
        rw [← hgiven]
        exact Table.find?_none (Option.not_isSome_iff_eq_none.mp hnone) hi
      · cases h

/-- An erased row is nobody's and carries no id. -/
theorem eraseSubscriptions_unique (erased : UserId) (hu : db.SubscriptionsUnique) :
    (eraseSubscriptions erased db).SubscriptionsUnique := by
  have hrow : ∀ {k : ℕ} {row : Subscription},
      (eraseSubscriptions erased db).subscriptions.get? k = some row →
      ∃ old, db.subscriptions.get? k = some old ∧ row =
        if old.user = some erased then
          { old with
            user := none
            stripeSubscriptionId := some ""
            stripeCustomerId := some "" }
        else old := by
    intro k row hk
    have hk := (Table.get?_update _ _ _).symm.trans hk
    obtain ⟨old, hold, rfl⟩ := Option.map_eq_some_iff.mp hk
    exact ⟨old, hold, rfl⟩
  rw [subscriptionsUnique_iff] at hu ⊢
  refine ⟨hu.1.of_rows fun k row u hk hown => ?_, hu.2.1.of_rows fun k row u hk hown => ?_,
    hu.2.2.of_rows fun k row u hk hown => ?_⟩
  all_goals
    obtain ⟨old, hold, rfl⟩ := hrow hk
    refine ⟨old, hold, ?_⟩
    split at hown
    · cases hown
    · exact hown

end StapelBilling
