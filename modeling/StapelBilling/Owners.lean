import StapelBilling.Deployment
import StapelBilling.Retries
import StapelBilling.Store.Custody

/-! # Whose wallet, whose subscription

A wallet is opened for a user who has none, and is that user's until it is merged or the user is
erased; from then on it is nobody's.  No call, in whatever order, gives a wallet to another user
or a user a second one.  A subscription goes along with a merge, but a user has one at most, and
no two rows carry one provider id.

* `Step.custody`, `mergeWallets_custody`, `eraseSubject_custody`: what moves, merges and erasures
  do to owners.
* `wallets_never_change_hands`: every run of a deployment.
* `subscriptions_stay_unique`: the constraints of the subscription table, and where events go.
-/
namespace StapelBilling
open Store

variable {terms : HostTerms} {env : Env} {digest : UserId → UserId → String} {w : ℕ} {db db' : Db}

/-! ## Steps -/

theorem WalletsSynced.custody {t t' : Table Wallet} (h : WalletsSynced t t') :
    Custody Wallet.user t t' := by
  refine .of_rows h.next fun k b u hk hb => ?_
  rcases h.grows.origin k b hk with ⟨a, ha, hsame⟩ | ⟨-, hnew⟩
  · exact ⟨a, ha, hsame.user.symm.trans hb⟩
  · exact hnew.elim

/-- A wallet that is opened for a user who has none. -/
theorem openedWallet_custody {t : Table Wallet} {opened : Wallet} {user : UserId}
    (hopened : opened.user = some user) (hnew : ∀ k wallet, t.get? k = some wallet →
      wallet.user ≠ some user) : Custody Wallet.user t (t.insert opened) := by
  refine .insert fun k wallet u hk hu => ?_
  rw [← hu, hopened]
  exact hnew k wallet hk

theorem Step.custody {m : Move} (h : Step env w m db db') :
    Custody Wallet.user db.wallets db'.wallets := by
  by_cases hm : m.IsOpen
  · cases h with
    | openWallet _ hnew => exact openedWallet_custody rfl hnew
    | _ => exact hm.elim
  · exact (h.wallets hm).custody

theorem Moves.custody {P : Move → Prop} (h : Moves env w P db db') :
    Custody Wallet.user db.wallets db'.wallets :=
  Moves.invariant (I := fun db' => Custody Wallet.user db.wallets db'.wallets)
    (fun _ _ _ _ hI hs => hI.trans hs.custody) h (.refl _ _)

/-- **A step on the books gives no wallet away.** -/
theorem BookStep.custody (h : BookStep terms env db db') :
    Custody Wallet.user db.wallets db'.wallets := by
  cases h with
  | call c _ _ hok => exact (exec_moves hok).custody
  | @sale credited args t amountCents user currency extra _ _ _ hok =>
    have hexec : (WalletCall.credit args).exec env db = .ok credited :=
      congrArg (Except.map Prod.snd) hok
    exact (exec_moves hexec).custody
  | openWallet user =>
    rw [getOrCreateWallet_lock]
    rcases hlock : lockWallet user db with ⟨w, opened⟩
    rcases lockWallet_cases hlock with ⟨rfl, -⟩ | ⟨-, rfl, hnew⟩
    · exact .refl _ _
    · exact openedWallet_custody rfl hnew
  | @patch _ update w wallet hget hok =>
    unfold patchWallet saveWallet at hok
    split at hok
    · split at hok
      · cases hok
      · obtain rfl := Except.ok.inj hok
        -- The row is written as it was read, so its owner stays.
        refine .of_rows rfl fun k b u hk hb => ?_
        have hk := (Table.get?_modify _ _ _ _).symm.trans hk
        split at hk
        · rename_i hkw
          obtain ⟨old, -, rfl⟩ := Option.map_eq_some_iff.mp hk
          exact ⟨wallet, hkw ▸ hget, hb⟩
        · exact ⟨b, hk, hb⟩
    · cases hok
  | stamp sub =>
    unfold stampSubscriptionPeriod
    split <;> exact .refl _ _
  | beside hsame =>
    rw [hsame.wallets]
    exact .refl _ _

theorem Books.custody (h : Books terms env db db') :
    Custody Wallet.user db.wallets db'.wallets := by
  induction h with
  | refl => exact .refl _ _
  | tail _ hlast ih => exact ih.trans hlast.custody

/-! ## Merges and erasures -/

/-- **A merge takes the owner from the wallet it folds**, and opens one for the other at most. -/
theorem mergeWallets_custody {fromUser intoUser : UserId} {counts : MergeCounts}
    (h : mergeWallets env digest fromUser intoUser db = .ok (counts, db')) :
    Custody Wallet.user db.wallets db'.wallets := by
  rcases mergeWallets_cases h with ⟨-, rfl, -⟩ | ⟨-, ⟨-, ⟨subscriptions, rfl⟩, -⟩ |
    ⟨merged, wallet, survivor, db₁, hmerged, hsurvivor, hlocked⟩⟩
  · exact .refl _ _
  · exact .refl _ _
  · have hopened : Custody Wallet.user db.wallets db₁.wallets := by
      rcases survivorWallet_cases hsurvivor with ⟨rfl, -⟩ | ⟨-, -, hnew, rfl⟩
      · exact .refl _ _
      · exact openedWallet_custody rfl hnew
    obtain ⟨subscriptions, n, hsettle, -, -⟩ := mergeLocked_cases hlocked
    have hstripped : Custody Wallet.user db₁.wallets (db₁.stripped env merged).wallets :=
      stripped_wallets.custody
    have hfolded : Custody Wallet.user (db₁.stripped env merged).wallets
        ((db₁.stripped env merged).folded merged survivor).wallets := by
      refine .of_rows rfl fun k b u hk hb => ?_
      rw [folded_wallet] at hk
      split at hk
      · obtain ⟨old, -, rfl⟩ := Option.map_eq_some_iff.mp hk
        cases hb
      · exact ⟨b, hk, hb⟩
    have hbooked : Custody Wallet.user ((db₁.stripped env merged).folded merged survivor).wallets
        (db₁.booked env (mergeIdempotencyKey digest fromUser intoUser) merged survivor).wallets :=
      bookMerge_walletsSynced.custody
    have hsettled := (settleDebts_ok (P := fun _ => True) (fun _ _ _ _ => trivial) hsettle).custody
    exact (((hopened.trans hstripped).trans hfolded).trans hbooked).trans hsettled

theorem eraseSubject_custody {subjectType : String} {subject : Option UserId}
    (h : eraseSubject subjectType subject db = some db') :
    Custody Wallet.user db.wallets db'.wallets := by
  unfold eraseSubject at h
  split at h
  · cases h
  · split at h
    · cases h
    · obtain rfl := Option.some.inj h
      refine .of_rows rfl fun k b u hk hb => ?_
      have hk := (Table.get?_update _ _ _).symm.trans hk
      obtain ⟨old, hold, rfl⟩ := Option.map_eq_some_iff.mp hk
      refine ⟨old, hold, ?_⟩
      split at hb
      · cases hb
      · exact hb

/-! ## Runs -/

/-- **No call gives a wallet away.** -/
theorem SystemCall.exec_custody {c : SystemCall} {s : Deployment} (hfair : c.Fair terms) :
    Custody Wallet.user s.inbox.db.wallets (c.exec digest env s).inbox.db.wallets := by
  rcases @SystemCall.exec_cases terms env digest c s hfair with
    hbooks | ⟨source, target, counts, -, hok⟩ | ⟨subjectType, subject, -, hok⟩
  · exact hbooks.custody
  · exact mergeWallets_custody hok
  · exact eraseSubject_custody hok

/-- **No run gives a wallet away.** -/
theorem runSystem_custody {calls : List (Env × SystemCall)} {s : Deployment}
    (hfair : ∀ c ∈ calls, c.2.Fair terms) :
    Custody Wallet.user s.inbox.db.wallets (runSystem digest calls s).inbox.db.wallets := by
  refine Store.run_invariant (I := fun s' : Deployment =>
    Custody Wallet.user s.inbox.db.wallets s'.inbox.db.wallets) ?_ (.refl _ _)
  intro c hc s₁ s₂ hI hok
  obtain rfl := Except.ok.inj hok
  exact hI.trans (SystemCall.exec_custody (hfair c hc))

/-- **Wallets never change hands.**  Whatever comes to a deployment, a user has one wallet at
most, and a wallet that has an owner afterwards had that owner before: one that was merged or
whose owner was erased is nobody's for good. -/
theorem wallets_never_change_hands {s : Deployment} {calls : List (Env × SystemCall)}
    (hunique : s.inbox.db.UsersUnique) (hfair : ∀ c ∈ calls, c.2.Fair {}) :
    let after := (runSystem digest calls s).inbox.db
    after.UsersUnique ∧ ∀ k wallet user, s.inbox.db.wallets.get? k = some wallet →
      after.OwnedBy k user → wallet.user = some user := by
  intro after
  have hcustody : Custody Wallet.user s.inbox.db.wallets after.wallets := runSystem_custody hfair
  refine ⟨hcustody.single hunique, ?_⟩
  rintro k wallet user hk ⟨now, hnow, howner⟩
  obtain ⟨before, hbefore, hsame⟩ := hcustody.owned k now user (Table.get?_lt_next hk) hnow howner
  obtain rfl := Option.some.inj (hk.symm.trans hbefore)
  exact hsame

/-- The account is folded into another one; its user comes back and the other one is erased. -/
def foldedAndErased : List (Env × SystemCall) :=
  [(Env.plain 1, .userMerged (some 1) (some 2)),
    (Env.plain 2, .viewWallet 1),
    (Env.plain 3, .eraseSubject "account" (some 2))]

theorem wallets_never_change_hands_folded :
    let before : Db :=
      { users := [1, 2]
        wallets := Table.empty.insert { user := some 1 } }
    let after := (runSystem (fun _ _ => "pair") foldedAndErased { inbox := { db := before } }).inbox.db
    after.UsersUnique ∧ ∀ k wallet user, before.wallets.get? k = some wallet →
      after.OwnedBy k user → wallet.user = some user := by
  intro before
  have hunique : before.UsersUnique :=
    Single.empty.insert fun _ _ _ hk => Table.get?_empty_ne hk
  have hfair : ∀ c ∈ foldedAndErased, c.2.Fair {} := by
    unfold foldedAndErased
    simp only [List.forall_mem_cons, List.not_mem_nil, false_implies, implies_true, and_true]
    exact ⟨trivial, trivial, trivial⟩
  exact wallets_never_change_hands hunique hfair

/-! ## Whose subscription -/

/-- **A step on the books keeps the constraints** of the subscriptions. -/
theorem BookStep.constrained (h : BookStep terms env db db') (hu : db.SubscriptionsUnique) :
    db'.SubscriptionsUnique := by
  cases h with
  | call c _ _ hok => exact hu.congr (exec_moves hok).elsewhere.subscriptions
  | @sale credited args t amountCents user currency extra _ _ _ hok =>
    have hexec : (WalletCall.credit args).exec env db = .ok credited :=
      congrArg (Except.map Prod.snd) hok
    exact hu.congr (exec_moves hexec).elsewhere.subscriptions
  | openWallet user =>
    unfold getOrCreateWallet
    split <;> exact hu.congr rfl
  | patch _ hok =>
    unfold patchWallet saveWallet at hok
    split at hok
    · split at hok
      · cases hok
      · obtain rfl := Except.ok.inj hok
        exact hu.congr rfl
    · cases hok
  | stamp sub =>
    unfold stampSubscriptionPeriod
    split <;> exact hu.congr rfl
  | beside hsame => exact hsame.constrained hu

theorem Books.constrained (h : Books terms env db db') (hu : db.SubscriptionsUnique) :
    db'.SubscriptionsUnique := by
  induction h with
  | refl => exact hu
  | tail _ hlast ih => exact hlast.constrained ih

theorem mergeWallets_constrained {fromUser intoUser : UserId} {counts : MergeCounts}
    (hu : db.SubscriptionsUnique)
    (h : mergeWallets env digest fromUser intoUser db = .ok (counts, db')) :
    db'.SubscriptionsUnique := by
  by_cases hkey : db.HasKey (mergeIdempotencyKey digest fromUser intoUser)
  · rw [mergeWallets_of_hasKey hkey] at h
    obtain rfl := (Prod.mk.inj (Except.ok.inj h)).2
    exact hu
  · obtain ⟨n, d, d', hbefore, hmerge, hafter⟩ := mergeWallets_subscriptions h hkey
    exact (mergeSubscription_unique hmerge (hu.congr hbefore)).congr hafter

theorem eraseSubject_constrained {subjectType : String} {subject : Option UserId}
    (hu : db.SubscriptionsUnique) (h : eraseSubject subjectType subject db = some db') :
    db'.SubscriptionsUnique := by
  unfold eraseSubject at h
  split at h
  · cases h
  · rename_i erased
    split at h
    · cases h
    · obtain rfl := Option.some.inj h
      exact (eraseSubscriptions_unique erased hu).congr rfl

theorem SystemCall.exec_constrained {c : SystemCall} {s : Deployment} (hfair : c.Fair terms)
    (hu : s.inbox.db.SubscriptionsUnique) :
    (c.exec digest env s).inbox.db.SubscriptionsUnique := by
  rcases @SystemCall.exec_cases terms env digest c s hfair with
    hbooks | ⟨source, target, counts, -, hok⟩ | ⟨subjectType, subject, -, hok⟩
  · exact hbooks.constrained hu
  · exact mergeWallets_constrained hu hok
  · exact eraseSubject_constrained hu hok

/-- **Every subscription stays one row's.**  Whatever comes to a deployment, a user has one
subscription row at most and no two rows carry one provider id; so what the provider says about a
subscription reaches the row that carries its id. -/
theorem subscriptions_stay_unique {s : Deployment} {calls : List (Env × SystemCall)}
    (hunique : s.inbox.db.SubscriptionsUnique) (hfair : ∀ c ∈ calls, c.2.Fair {}) :
    let after := (runSystem digest calls s).inbox.db
    after.SubscriptionsUnique ∧ ∀ (obj : SubscriptionObject) k sub,
      after.subscriptions.get? k = some sub → nonempty obj.id ≠ none →
      sub.stripeSubscriptionId = obj.id → resolveLocalSubscription obj after = (some (k, sub), after) := by
  intro after
  have hu : after.SubscriptionsUnique := by
    refine Store.run_invariant (I := fun s : Deployment => s.inbox.db.SubscriptionsUnique) ?_ hunique
    intro c hc s₁ s₂ hI hok
    obtain rfl := Except.ok.inj hok
    exact SystemCall.exec_constrained (hfair c hc) hI
  refine ⟨hu, fun obj k sub hk hne hid => ?_⟩
  have hfound : findSubscription (nonempty obj.id) Subscription.stripeSubscriptionId after =
      some (k, sub) := by
    have hnamed : nonempty sub.stripeSubscriptionId ≠ none := by
      rw [hid]
      exact hne
    refine findSubscription_unique hne hk (hid.trans (nonempty_of_ne_none hne).symm) ?_
    intro j row hj hrow
    exact (hu.subscriptionId k j sub row hk hj hnamed
      (hid.trans ((nonempty_of_ne_none hne).symm.trans hrow.symm))).symm
  unfold resolveLocalSubscription
  rw [hfound]

/-- A subscriber's account is folded into that of a user who has looked at theirs, and who is
erased. -/
def subscriberLeaves : List (Env × SystemCall) :=
  [(Env.plain 1, .viewSubscription 2),
    (Env.plain 2, .userMerged (some 1) (some 2)),
    (Env.plain 3, .viewSubscription 1),
    (Env.plain 4, .eraseSubject "account" (some 2))]

theorem subscriptions_stay_unique_leaves :
    let before : Db :=
      { users := [1, 2]
        subscriptions := Table.empty.insert
          { user := some 1
            stripeSubscriptionId := some "sub_1" } }
    let after := (runSystem (fun _ _ => "pair") subscriberLeaves { inbox := { db := before } }).inbox.db
    after.SubscriptionsUnique ∧ ∀ (obj : SubscriptionObject) k sub,
      after.subscriptions.get? k = some sub → nonempty obj.id ≠ none →
      sub.stripeSubscriptionId = obj.id → resolveLocalSubscription obj after = (some (k, sub), after) := by
  intro before
  have hunique : before.SubscriptionsUnique :=
    subscriptionsUnique_iff.mpr ⟨Single.empty.insert fun _ _ _ hk => Table.get?_empty_ne hk,
      Single.empty.insert fun _ _ _ hk => Table.get?_empty_ne hk,
      Single.empty.insert fun _ _ _ hk => Table.get?_empty_ne hk⟩
  have hfair : ∀ c ∈ subscriberLeaves, c.2.Fair {} := by
    unfold subscriberLeaves
    simp only [List.forall_mem_cons, List.not_mem_nil, false_implies, implies_true, and_true]
    exact ⟨trivial, trivial, trivial, trivial⟩
  exact subscriptions_stay_unique hunique hfair

end StapelBilling
