import StapelBilling.CompRanks
import StapelBilling.MergeRuns
import StapelBilling.OwnSubscription

/-! # The plan somebody pays for

Looking at a subscription creates a row on the default plan for whoever has none.  A merge
asks whether the survivor has a row, not whether it has a plan: a row of the merged account
that is paid for goes over to the survivor where there is no such placeholder, and is cut off
from everybody where there is one.

`merge_keeps_plan_iff` is the whole of it.
-/
namespace StapelBilling
open Store

/-! ## Rows -/

/-- Is there a provider subscription behind this row at all? -/
def Subscription.isPaid (sub : Subscription) : Bool :=
  sub.plan ≠ defaultPlan && (nonempty sub.stripeSubscriptionId).isSome

/-- `ENTITLING_SUBSCRIPTION_STATUSES`. -/
def SubscriptionStatus.isEntitling : SubscriptionStatus → Bool
  | .active | .trialing => true
  | _ => false

/-- The subscription endpoint: the user's row, created where there is none. -/
def viewSubscription (user : UserId) (db : Db) : (ℕ × Subscription) × Db :=
  match db.subscriptions.find? fun sub => sub.user = some user with
  | some r => (r, db)
  | none =>
    ((db.subscriptions.next, { user := some user }),
      { db with subscriptions := db.subscriptions.insert { user := some user } })

/-- A row somebody pays for and is entitled by. -/
def Subscription.Pays (sub : Subscription) : Prop :=
  sub.isPaid = true ∧ sub.status.isEntitling = true

/-- No row is this user's. -/
def Db.NoSubscription (db : Db) (user : UserId) : Prop :=
  ∀ k sub, db.subscriptions.get? k = some sub → sub.user ≠ some user

/-- **Of the rows of two accounts, this is the one that is paid for.** -/
structure Db.OnlyPaid (db : Db) (fromUser intoUser : UserId) (k : ℕ) (sub : Subscription) : Prop where
  row : db.subscriptions.get? k = some sub
  user : sub.user = some fromUser ∨ sub.user = some intoUser
  pays : sub.Pays
  only : ∀ j other, db.subscriptions.get? j = some other →
    other.user = some fromUser ∨ other.user = some intoUser → other.Pays → j = k

/-- **The plan is the survivor's now**: the same row, found by its user and by the id its
renewals name, and a plan no lower than the row's. -/
structure Db.KeepsPlan (env : Env) (db' : Db) (intoUser : UserId) (k : ℕ) (sub : Subscription) : Prop where
  row : findSubscription (some intoUser) Subscription.user db' =
    some (k, { sub with user := some intoUser })
  plan : sub.plan ≠ "" → ∀ now, env.settings.height sub.plan ≤
    env.settings.height (effectivePlan env intoUser now db')
  renewals : db'.subscriptions.find? (fun row => row.stripeSubscriptionId = sub.stripeSubscriptionId) =
    some (k, { sub with user := some intoUser })

section Merges
variable {env : Env} {digest : UserId → UserId → String} {fromUser intoUser : UserId}
  {counts : MergeCounts} {db db' : Db} {k : ℕ} {sub : Subscription}

/-! ## What a merge does to the subscriptions -/

/-- **The subscriptions under a merge**: nothing, where the merged account has none; else its row
goes to nobody or to the survivor. -/
theorem mergeSubscription_rows {n : ℕ} (h : mergeSubscription fromUser intoUser db = .ok (n, db')) :
    (db.NoSubscription fromUser ∧ db'.subscriptions = db.subscriptions) ∨
      ∃ k sub, db.subscriptions.get? k = some sub ∧ sub.user = some fromUser ∧
        ((¬ db.NoSubscription intoUser ∧ db'.subscriptions =
            db.subscriptions.modify k fun sub => { sub with user := none }) ∨
          (db.NoSubscription intoUser ∧ db'.subscriptions =
            db.subscriptions.modify k fun sub => { sub with user := some intoUser })) := by
  unfold mergeSubscription at h
  split at h
  · rename_i hnone
    obtain ⟨-, rfl⟩ := Prod.mk.inj (Except.ok.inj h)
    exact Or.inl ⟨fun k sub hk => Table.find?_none hnone hk, rfl⟩
  · rename_i k sub hfind
    obtain ⟨hk, huser⟩ := Table.find?_some hfind
    refine Or.inr ⟨k, sub, hk, huser, ?_⟩
    dsimp only at h
    split at h
    · rename_i hsome
      obtain ⟨-, rfl⟩ := Prod.mk.inj (Except.ok.inj h)
      obtain ⟨r, hr⟩ := Option.isSome_iff_exists.mp hsome
      obtain ⟨hrow, hinto⟩ := Table.find?_some hr
      exact Or.inl ⟨fun hno => hno _ _ hrow hinto, rfl⟩
    · rename_i hsome
      have hnone := Option.not_isSome_iff_eq_none.mp hsome
      split at h
      · obtain ⟨-, rfl⟩ := Prod.mk.inj (Except.ok.inj h)
        exact Or.inr ⟨fun k sub hk => Table.find?_none hnone hk, rfl⟩
      · cases h

/-- Forfeiting lots reads and writes no subscription. -/
theorem forfeited_subscriptions (w : ℕ) (db : Db) :
    (forfeitLotsOnMerge env w db).2.subscriptions = db.subscriptions := by
  have heach : ∀ (lots : List (ℕ × CreditLot)) (running : ℤ) (d : Db),
      (forfeitLots env w lots running d).subscriptions = d.subscriptions := by
    intro lots
    induction lots with
    | nil => exact fun _ _ => rfl
    | cons r lots ih => exact fun running d => ih _ _
  unfold forfeitLotsOnMerge
  dsimp only
  split
  · rfl
  · split
    · rfl
    · exact heach _ _ db

/-- Folding the wallet reads and writes no subscription. -/
theorem booked_subscriptions (key : String) (merged survivor : ℕ) (db : Db) :
    (db.booked env key merged survivor).subscriptions = db.subscriptions := by
  have hstripped : (db.stripped env merged).subscriptions = db.subscriptions :=
    (forfeited_subscriptions merged _).trans (expireDueLots_elsewhere env db).subscriptions
  rw [← hstripped]
  exact (expireDueLots_elsewhere env (w := survivor)
    ((db.stripped env merged).folded merged survivor)).subscriptions

/-- **A merge that was not applied before** treats the subscriptions as `mergeSubscription`
does. -/
theorem mergeWallets_subscriptions (h : mergeWallets env digest fromUser intoUser db = .ok (counts, db'))
    (hnew : ¬ db.HasKey (mergeIdempotencyKey digest fromUser intoUser)) :
    ∃ n d d', d.subscriptions = db.subscriptions ∧
      mergeSubscription fromUser intoUser d = .ok (n, d') ∧ db'.subscriptions = d'.subscriptions := by
  unfold mergeWallets at h
  dsimp only at h
  split at h
  · rename_i hkey
    obtain ⟨⟨j, row⟩, hfind⟩ := Option.isSome_iff_exists.mp hkey
    obtain ⟨hj, hrow⟩ := Table.find?_some hfind
    exact absurd ⟨j, row, hj, hrow⟩ hnew
  split at h
  · split at h
    · cases h
    · rename_i n d' hmerge
      obtain ⟨-, rfl⟩ := Prod.mk.inj (Except.ok.inj h)
      exact ⟨n, db, d', rfl, hmerge, rfl⟩
  · rename_i merged wallet hfind
    split at h
    · cases h
    · rename_i survivor db₁ hsurvivor
      have hopened : db₁.subscriptions = db.subscriptions := by
        rcases survivorWallet_cases hsurvivor with ⟨rfl, -⟩ | ⟨-, -, -, rfl⟩
        · rfl
        · rfl
      unfold mergeLocked at h
      dsimp only at h
      split at h
      · cases h
      · rename_i n d' hmerge
        split at h
        · cases h
        · rename_i m d'' hsettle
          obtain ⟨-, rfl⟩ := Prod.mk.inj (Except.ok.inj h)
          have hsettled := (settleDebts_ok (P := fun _ => True) (fun _ _ _ _ => trivial) hsettle).elsewhere
          refine ⟨n, _, d', ?_, hmerge, hsettled.subscriptions⟩
          exact (booked_subscriptions (mergeIdempotencyKey digest fromUser intoUser) merged survivor
            db₁).trans hopened

/-! ## What comes of the plan -/

theorem nonempty_some_of_isPaid (h : sub.isPaid = true) :
    ∃ id, sub.stripeSubscriptionId = some id ∧ id ≠ "" := by
  unfold Subscription.isPaid nonempty at h
  cases hid : sub.stripeSubscriptionId with
  | none =>
    rw [hid] at h
    simp at h
  | some id =>
    refine ⟨id, rfl, fun hempty => ?_⟩
    rw [hid, hempty] at h
    simp at h

/-- A row that is the survivor's and still carries its id is the plan kept. -/
theorem keepsPlan_of_row {row : Subscription} (hrow : row = { sub with user := some intoUser })
    (hk : db'.subscriptions.get? k = some row) (hpays : sub.Pays)
    (huser : ∀ j other, db'.subscriptions.get? j = some other → other.user = some intoUser → j = k)
    (hid : ∀ j other, db'.subscriptions.get? j = some other →
      other.stripeSubscriptionId = sub.stripeSubscriptionId → j = k) :
    db'.KeepsPlan env intoUser k sub := by
  subst hrow
  have hfound : findSubscription (some intoUser) Subscription.user db' =
      some (k, { sub with user := some intoUser }) :=
    findSubscription_unique (Option.some_ne_none intoUser) hk rfl huser
  refine ⟨hfound, fun hplan now => ?_, Table.find?_eq_some_of_unique hk rfl hid⟩
  have hgranting : sub.status.isGranting = true := by
    have hentitling := hpays.2
    cases hstatus : sub.status <;> rw [hstatus] at hentitling <;> first | rfl | cases hentitling
  have hpaid : Subscription.paidPlan { sub with user := some intoUser } = some sub.plan := by
    unfold Subscription.paidPlan
    rw [if_pos hgranting]
    exact if_neg hplan
  exact le_effectivePlan_of_paid hpaid hfound

/-- **A merge keeps the plan that is paid for** exactly where the survivor has no row of its own
in the way of the merged account's, and the pair was not merged before. -/
theorem merge_keeps_plan_iff (hu : db.SubscriptionsUnique) (hne : fromUser ≠ intoUser)
    (honly : db.OnlyPaid fromUser intoUser k sub)
    (h : mergeWallets env digest fromUser intoUser db = .ok (counts, db')) :
    db'.KeepsPlan env intoUser k sub ↔ (sub.user = some fromUser →
      db.NoSubscription intoUser ∧ ¬ db.HasKey (mergeIdempotencyKey digest fromUser intoUser)) := by
  have hrow := honly.row
  obtain ⟨id, hid, hidne⟩ := nonempty_some_of_isPaid honly.pays.1
  have hnonempty : nonempty sub.stripeSubscriptionId ≠ none := by
    rw [hid]
    unfold nonempty
    simp [hidne]
  have hids : ∀ j other, db.subscriptions.get? j = some other →
      other.stripeSubscriptionId = sub.stripeSubscriptionId → j = k := fun j other hj hsame =>
    (hu.subscriptionId k j sub other hrow hj hnonempty hsame.symm).symm
  have hmine : ∀ {user : UserId} {j : ℕ} {other : Subscription}, sub.user = some user →
      db.subscriptions.get? j = some other → other.user = some user → j = k := by
    intro user j other huser hj hother
    refine (hu.user k j sub other hrow hj ?_ (huser.trans hother.symm)).symm
    rw [huser]
    exact Option.some_ne_none user
  by_cases hkey : db.HasKey (mergeIdempotencyKey digest fromUser intoUser)
  · have hsame : db' = db := by
      rcases mergeWallets_cases h with ⟨-, hsame, -⟩ | ⟨hnew, -⟩
      · exact hsame
      · obtain ⟨j, row, hj, hrowKey⟩ := hkey
        exact absurd hrowKey (hnew j row hj)
    rw [hsame]
    rcases honly.user with hfrom | hinto
    · -- the pair was merged before, and the row stays where it is
      refine iff_of_false (fun hkeeps => ?_) fun hcond => (hcond hfrom).2 hkey
      obtain ⟨-, -, -, hget⟩ := findSubscription_some hkeeps.row
      have huser := congrArg Subscription.user (Option.some.inj (hrow.symm.trans hget))
      exact hne (Option.some.inj (hfrom.symm.trans huser))
    · refine iff_of_true (@keepsPlan_of_row _ _ _ _ _ sub ?_ hrow honly.pays (fun j other => hmine hinto)
        hids) fun hfrom => absurd (Option.some.inj (hfrom.symm.trans hinto)) hne
      rw [← hinto]
  · obtain ⟨n, d, d', hsubs, hmerge, hsubs'⟩ := mergeWallets_subscriptions h hkey
    have hno : ∀ user, d.NoSubscription user ↔ db.NoSubscription user := by
      intro user
      unfold Db.NoSubscription
      rw [hsubs]
    rcases honly.user with hfrom | hinto
    · rcases mergeSubscription_rows hmerge with ⟨hnone, -⟩ | ⟨j, moved, hj, hmoved, hcase⟩
      · exact absurd hfrom ((hno fromUser).mp hnone k sub hrow)
      · rw [hsubs] at hj
        obtain rfl := hmine hfrom hj hmoved
        rcases hcase with ⟨hblocked, hrows⟩ | ⟨hfree, hrows⟩
        · -- a row of the survivor is in the way
          refine iff_of_false (fun hkeeps => ?_) fun hcond =>
            hblocked ((hno intoUser).mpr (hcond hfrom).1)
          obtain ⟨-, -, -, hget⟩ := findSubscription_some hkeeps.row
          rw [hsubs', hrows, hsubs, Table.get?_modify_self, hrow] at hget
          cases congrArg Subscription.user (Option.some.inj hget)
        · have hfree' := (hno intoUser).mp hfree
          have hother : ∀ {i other}, db'.subscriptions.get? i = some other → i ≠ j →
              db.subscriptions.get? i = some other := by
            intro i other hi hij
            rw [hsubs', hrows, hsubs, Table.get?_modify_of_ne _ _ hij] at hi
            exact hi
          refine iff_of_true (keepsPlan_of_row rfl ?_ honly.pays (fun i other hi hinto => ?_)
            fun i other hi hsame => ?_) fun _ => ⟨hfree', hkey⟩
          · rw [hsubs', hrows, hsubs, Table.get?_modify_self, hrow]
            rfl
          · by_contra hij
            exact hfree' i other (hother hi hij) hinto
          · by_contra hij
            exact hij (hids i other (hother hi hij) hsame)
    · refine iff_of_true ?_ fun hfrom => absurd (Option.some.inj (hfrom.symm.trans hinto)) hne
      have hself : sub = { sub with user := some intoUser } := by rw [← hinto]
      rcases mergeSubscription_rows hmerge with ⟨-, hrows⟩ | ⟨j, moved, hj, hmoved, hcase⟩
      · have hsame : db'.subscriptions = db.subscriptions := hsubs'.trans (hrows.trans hsubs)
        refine keepsPlan_of_row hself (hsame ▸ hrow) honly.pays (fun i other hi => ?_) fun i other hi => ?_
        · exact hmine hinto (hsame ▸ hi)
        · exact hids i other (hsame ▸ hi)
      · rcases hcase with ⟨-, hrows⟩ | ⟨hfree, -⟩
        · -- the merged account's row is cut off, and it is another
          rw [hsubs] at hj
          have hjk : k ≠ j := by
            rintro rfl
            obtain rfl := Option.some.inj (hrow.symm.trans hj)
            exact hne (Option.some.inj (hmoved.symm.trans hinto))
          have hget : db'.subscriptions.get? k = some sub := by
            rw [hsubs', hrows, hsubs, Table.get?_modify_of_ne _ _ hjk]
            exact hrow
          refine keepsPlan_of_row hself hget honly.pays (fun i other hi huser => ?_)
            fun i other hi hsame => ?_
          · rw [hsubs', hrows, hsubs, Table.get?_modify] at hi
            split at hi
            · obtain ⟨old, -, rfl⟩ := Option.map_eq_some_iff.mp hi
              cases huser
            · exact hmine hinto hi huser
          · rw [hsubs', hrows, hsubs, Table.get?_modify] at hi
            split at hi
            · obtain ⟨old, hold, rfl⟩ := Option.map_eq_some_iff.mp hi
              exact hids i old hold hsame
            · exact hids i other hi hsame
        · exact absurd hinto ((hno intoUser).mp hfree k sub hrow)

end Merges

/-! ## A placeholder in the way -/

/-- An account that pays for `pro`, and one that is new. -/
def payingGuest : Db :=
  { users := [1, 2]
    subscriptions := Table.empty.insert
      { user := some 1
        plan := "pro"
        stripeSubscriptionId := some "sub_1" } }

/-- What it pays for. -/
def guestPlan : Subscription :=
  { user := some 1
    plan := "pro"
    stripeSubscriptionId := some "sub_1" }

theorem payingGuest_only {k : ℕ} {sub : Subscription} (hk : payingGuest.subscriptions.get? k = some sub) :
    k = 0 :=
  Nat.lt_one_iff.mp (Table.get?_lt_next hk)

theorem merge_keeps_plan_iff_new : ∃ counts db',
    mergeWallets (Env.plain 0) pairDigest 1 2 payingGuest = .ok (counts, db') ∧
      db'.KeepsPlan (Env.plain 0) 2 0 guestPlan := by
  have hunique : payingGuest.SubscriptionsUnique :=
    ⟨fun j k a b hj hk _ _ => (payingGuest_only hj).trans (payingGuest_only hk).symm,
      fun j k a b hj hk _ _ => (payingGuest_only hj).trans (payingGuest_only hk).symm,
      fun j k a b hj hk _ _ => (payingGuest_only hj).trans (payingGuest_only hk).symm⟩
  have honly : payingGuest.OnlyPaid 1 2 0 guestPlan :=
    ⟨rfl, Or.inl rfl, ⟨by decide +kernel, rfl⟩, fun j other hj _ _ => payingGuest_only hj⟩
  refine ⟨_, _, rfl, (@merge_keeps_plan_iff _ pairDigest _ _ _ _ _ _ _ hunique (by decide)
    honly rfl).mpr fun _ => ⟨?_, ?_⟩⟩
  · intro k sub hk huser
    obtain rfl := payingGuest_only hk
    obtain rfl : guestPlan = sub := Option.some.inj hk
    cases huser
  · rintro ⟨k, row, hk, -⟩
    exact Table.get?_empty_ne hk

/-- **A look strands the plan**: the survivor only asked for its subscription, and the merged
account's paid one is nobody's after the merge. -/
theorem placeholder_strands_plan : ∃ counts db',
    payingGuest.OnlyPaid 1 2 0 guestPlan ∧ (viewSubscription 2 payingGuest).2.OnlyPaid 1 2 0 guestPlan ∧
      mergeWallets (Env.plain 0) pairDigest 1 2 (viewSubscription 2 payingGuest).2 = .ok (counts, db') ∧
      db'.subscriptions.get? 0 = some { guestPlan with user := none } ∧
      effectivePlan (Env.plain 0) 2 0 db' = "free" ∧ ¬ db'.KeepsPlan (Env.plain 0) 2 0 guestPlan := by
  have hpays : guestPlan.Pays := ⟨by decide +kernel, rfl⟩
  refine ⟨_, _, ⟨rfl, Or.inl rfl, hpays, fun j other hj _ _ => payingGuest_only hj⟩,
    ⟨rfl, Or.inl rfl, hpays, fun j other hj _ hother => ?_⟩, rfl, rfl, by decide +kernel,
    fun hkeeps => ?_⟩
  · -- the placeholder is not paid for
    have hj' : (payingGuest.subscriptions.insert { user := some 2 }).get? j = some other := hj
    rw [Table.get?_insert] at hj'
    split at hj'
    · obtain rfl := Option.some.inj hj'
      exact absurd hother.1 (by decide +kernel)
    · exact payingGuest_only hj'
  · obtain ⟨-, -, -, hget⟩ := findSubscription_some hkeeps.row
    exact absurd (congrArg Subscription.user (Option.some.inj hget)) (by decide)

end StapelBilling
