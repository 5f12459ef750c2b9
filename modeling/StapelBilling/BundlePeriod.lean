import StapelBilling.Homes
import StapelBilling.ParkedPath
import StapelBilling.SpendOrder

/-! # The bundle of a first checkout

A plan's first bundle is a credit without a key: one new lot, whose ledger row names the
subscription, and which dies with the period of the row if that is still ahead.  What the
user owes is collected at once, out of the lots that come first, so the bundle may be gone
before its checkout returns.
-/
namespace StapelBilling
open Store

/-! ## What a credit leaves -/

section Credits
variable {env : Env} {args : CreditArgs} {db db' : Db} {t w : ℕ}

/-- The live lots of the sweep are those from before it. -/
theorem swept_liveIn {P : (WithTop Time ×ₗ Time ×ₗ ℕ) ×ₗ ℕ → Prop} [DecidablePred P] :
    (db.swept env w).liveIn P w env.now = db.liveIn P w env.now := by
  unfold Db.liveIn
  rw [Table.sum_of_map _ fun k => swept_lot k]
  refine Table.sum_congr fun k lot _ => ?_
  by_cases hdue : lot.wallet = w ∧ lot.Due env.now
  · have hzero : lot.sweptAt w env.now = lot.zero := if_pos hdue
    have hdead : ¬ (lot.wallet = w ∧ lot.Live env.now) := fun h =>
      not_aliveAt_iff.mpr hdue.2.2 h.2.2
    rw [hzero, if_neg hdead]
    exact if_neg fun h => absurd h.2.1 (lt_irrefl 0)
  · have hsame : lot.sweptAt w env.now = lot := if_neg hdue
    rw [hsame]

/-- Collections add no lot. -/
theorem settleDebts_no_lot {n : ℤ} (h : settleDebts env w db = .ok (n, db')) {k : ℕ}
    (hk : db.lots.get? k = none) : db'.lots.get? k = none := by
  have hmoves := settleDebts_ok (P := fun m => ∃ j debt amount taken, m = .collect j debt amount taken)
    (fun j debt amount taken => ⟨j, debt, amount, taken, rfl⟩) h
  refine Moves.invariant (I := fun db' => db'.lots.get? k = none) ?_ hmoves hk
  rintro m db₁ db₂ ⟨j, debt, amount, taken, rfl⟩ hI hs
  cases hs with
  | collect hdebt hw hopen hpos hle htaken hdrawn =>
    have hlots := @Table.map_get?_drain _ db₁.lots CreditLot.spend taken _ (fun lot => lot.wallet)
      (fun _ _ => rfl) k
    rw [hI] at hlots
    exact Option.map_eq_none_iff.mp hlots

/-- A credit of something that is not dead goes through. -/
theorem credit_succeeds {args : CreditArgs} (hpos : 0 < args.credits)
    (halive : ¬ dueAt env.now args.expiresAt) : ∃ t db', credit env args db = .ok (t, db') := by
  unfold credit
  rw [if_neg (by omega), if_neg halive]
  rcases lockWallet args.user db with ⟨w, db₁⟩
  dsimp only
  split
  · exact ⟨_, _, rfl⟩
  · split
    · obtain ⟨n, db', hok, -⟩ := settleDebts_moves env w (P := fun _ => True)
        (fun _ _ _ _ => trivial) (grant env w args (expireDueLots env w db₁).2)
      rw [hok]
      exact ⟨_, _, rfl⟩
    · exact ⟨_, _, rfl⟩

/-- What there is to collect before a new lot keeps something: the lots up to its place. -/
def Db.aheadOfGrant (env : Env) (args : CreditArgs) (db : Db) : ℤ :=
  db.liveIn (· ≤ CreditLot.place
    (db.lots.next, grantLot env (lockWallet args.user db).1 args db)) (lockWallet args.user db).1 env.now

/-- **What a credit without a key leaves**: one new lot, under the user's wallet and naming a
row with the caller's metadata, which keeps something exactly when the debts are less than it
and the lots before it hold. -/
theorem credit_lot (h : credit env args db = .ok (t, db')) (hkey : args.idempotencyKey = "")
    (hsettle : args.settleDebts = true) :
    (∃ lot, db'.lots.get? db.lots.next = some lot ∧ lot.expiresAt = args.expiresAt ∧
      lot.source = args.source ∧ lot.wallet = (lockWallet args.user db).1 ∧
      (∃ wallet, db'.wallets.get? lot.wallet = some wallet ∧ wallet.user = some args.user) ∧
      (∃ row, db'.transactions.get? t = some row ∧ row.metadata = args.metadata) ∧
      lot.grantingTransaction = some t ∧
      (0 < lot.creditsRemaining ↔
        db.openOwed (lockWallet args.user db).1 < args.credits + db.aheadOfGrant env args)) ∧
    ∀ k, db.lots.get? k = none → k ≠ db.lots.next → db'.lots.get? k = none := by
  obtain ⟨w, db₁, hlock, hpos, halive, hcase⟩ := credit_cases h
  have hlocked : db₁.lots = db.lots ∧ db₁.debts = db.debts := by
    rcases lockWallet_cases hlock with ⟨rfl, -⟩ | ⟨-, rfl, -⟩
    · exact ⟨rfl, rfl⟩
    · exact ⟨rfl, rfl⟩
  have howner : ∃ wallet, db₁.wallets.get? w = some wallet ∧ wallet.user = some args.user := by
    rcases lockWallet_cases hlock with ⟨rfl, hwallet⟩ | ⟨rfl, rfl, -⟩
    · exact hwallet
    · exact ⟨{ user := some args.user }, Table.get?_insert_next _ _, rfl⟩
  have hw : (lockWallet args.user db).1 = w := congrArg Prod.fst hlock
  rcases hcase with ⟨row, hex, -⟩ | ⟨-, htxn, ⟨hno, -⟩ | ⟨-, n, hcollect⟩⟩
  · unfold existingCall at hex
    rw [if_pos hkey] at hex
    cases hex
  · rw [hsettle] at hno
    cases hno
  · -- the sweep adds no lot, so the new one has the first free key
    have hnext : (db₁.swept env w).lots.next = db.lots.next :=
      (expireDueLots_lots_next db₁).trans (congrArg Table.next hlocked.1)
    have hgranted : (grant env w args (db₁.swept env w)).lots =
        (db₁.swept env w).lots.insert (grantLot env w args (db₁.swept env w)) := rfl
    have hnew : (grant env w args (db₁.swept env w)).lots.get? db.lots.next =
        some (grantLot env w args (db₁.swept env w)) := by
      rw [hgranted, ← hnext]
      exact Table.get?_insert_next _ _
    have hlive : (grantLot env w args (db₁.swept env w)).Live env.now := by
      refine ⟨hpos, ?_⟩
      by_contra hdead
      exact halive (not_aliveAt_iff.mp hdead)
    -- settling leaves credits in it only past what is owed and what lies ahead of it
    obtain ⟨lot, hlot, hsame, hleaves⟩ := settleDebts_leaves_iff hcollect hnew rfl hlive
    have hmoves := settleDebts_ok (P := fun m => m.row? = none) (fun _ _ _ _ => rfl) hcollect
    refine ⟨⟨lot, hlot, by rw [hsame]; rfl, by rw [hsame]; rfl, ?_, ?_, ?_, ?_, ?_⟩, ?_⟩
    · rw [hw, hsame]
      rfl
    · obtain ⟨wallet, hwallet, huser⟩ := howner
      obtain ⟨wallet', hwallet', hkept⟩ := (credit_locked hlock h).wallet_kept hwallet
      refine ⟨wallet', ?_, hkept.user.trans huser⟩
      rw [hsame]
      exact hwallet'
    · refine ⟨_, Moves.row_kept (fun m hm => ?_) hmoves (htxn ▸ Table.get?_insert_next _ _), ?_⟩
      · rw [hm]
        exact Option.some_ne_none t |>.symm
      · unfold keyedMetadata
        exact if_pos hkey
    · rw [hsame, htxn]
      rfl
    · have hdebts : (grant env w args (db₁.swept env w)).debts = db.debts :=
        (expireDueLots_frame db₁).2.trans hlocked.2
      have howed : (grant env w args (db₁.swept env w)).openOwed w = db.openOwed w := by
        unfold Db.openOwed Db.openDebts
        rw [hdebts]
      have hplace : CreditLot.place (db.lots.next, grantLot env w args (db₁.swept env w)) =
          CreditLot.place (db.lots.next, grantLot env w args db) := by
        unfold grantLot
        rw [hnext]
        rfl
      -- the sweep empties dead lots, and only live ones lie ahead
      have hlocal : db₁.liveIn (· ≤ CreditLot.place (db.lots.next, grantLot env w args db)) w env.now =
          db.liveIn (· ≤ CreditLot.place (db.lots.next, grantLot env w args db)) w env.now := by
        unfold Db.liveIn
        rw [hlocked.1]
      have hahead : (grant env w args (db₁.swept env w)).liveIn (· ≤ CreditLot.place
          (db.lots.next, grantLot env w args (db₁.swept env w))) w env.now =
          args.credits + db.aheadOfGrant env args := by
        unfold Db.aheadOfGrant
        rw [hw, ← hlocal, ← @swept_liveIn env db₁ w, hplace]
        unfold Db.liveIn
        rw [hgranted, Table.sum_insert, if_pos ⟨rfl, hlive⟩, hnext, hplace, if_pos le_rfl, add_comm]
        rfl
      rw [hw, hleaves, howed, hahead]
    · intro k hk hne
      have hbefore : (db₁.swept env w).lots.get? k = none := by
        rw [swept_lot, hlocked.1, hk]
        rfl
      have hnone : (grant env w args (db₁.swept env w)).lots.get? k = none := by
        rw [hgranted, Table.get?_insert, hnext, if_neg hne]
        exact hbefore
      exact settleDebts_no_lot hcollect hnone

end Credits

/-! ## What a checkout's bundle is -/

section Bundle
variable {env : Env} {event : ProviderEvent CheckoutSession} {db db' : Db} {user : UserId}
  {plan id : String} {entry : PlanCatalogEntry} {k : ℕ} {sub : Subscription}

/-- Dating lots adds none. -/
theorem stampSubscriptionPeriod_no_lot {j : ℕ} (hj : db.lots.get? j = none) :
    (stampSubscriptionPeriod sub db).lots.get? j = none := by
  unfold stampSubscriptionPeriod
  split
  · rw [Table.get?_update, hj]
    rfl
  · exact hj

theorem stampSubscriptionPeriod_next :
    (stampSubscriptionPeriod sub db).lots.next = db.lots.next := by
  unfold stampSubscriptionPeriod
  split <;> rfl

theorem applyPendingPeriod_lots : (applyPendingPeriod k sub db).2.lots.next = db.lots.next ∧
    ∀ j, db.lots.get? j = none → (applyPendingPeriod k sub db).2.lots.get? j = none := by
  unfold applyPendingPeriod
  split
  · exact ⟨rfl, fun _ hj => hj⟩
  · split
    · exact ⟨rfl, fun _ hj => hj⟩
    · dsimp only
      split
      · exact ⟨rfl, fun _ hj => hj⟩
      · exact ⟨stampSubscriptionPeriod_next, fun _ hj => stampSubscriptionPeriod_no_lot hj⟩

/-- With nothing parked there is nothing to apply. -/
theorem applyPendingPeriod_unparked (hne : id ≠ "") (hid : sub.stripeSubscriptionId = some id)
    (hparked : db.parked id = none) : applyPendingPeriod k sub db = (sub, db) := by
  unfold applyPendingPeriod
  rw [hid, nonempty_of_ne hne]
  dsimp only
  rw [Option.map_eq_none_iff.mp hparked]

/-- The credit of the bundle of a checkout that finds the row `sub`. -/
def checkoutBundle (env : Env) (user : UserId) (plan : String) (entry : PlanCatalogEntry)
    (obj : CheckoutSession) (sub : Subscription) : CreditArgs :=
  bundleCredit env user plan entry (obj.amountTotal.getD entry.priceCents) obj sub

/-- What a bundle leaves: nothing where the plan has none, and otherwise one lot. -/
theorem grantBundle_lot {obj : CheckoutSession}
    (h : grantBundle env user plan entry obj sub db = .ok db')
    (hid : sub.stripeSubscriptionId = some id) :
    (entry.monthlyCreditsIncluded = 0 → db' = db) ∧
    (entry.monthlyCreditsIncluded ≠ 0 → (∃ lot, db'.lots.get? db.lots.next = some lot ∧
      lot.expiresAt = futureOrNone env.now sub.currentPeriodEnd ∧ lot.source = .subscription ∧
      (∃ wallet, db'.wallets.get? lot.wallet = some wallet ∧ wallet.user = some user) ∧
      (∃ g row, lot.grantingTransaction = some g ∧ db'.transactions.get? g = some row ∧
        row.metadata .stripeSubscriptionId = some (.str id)) ∧
      (0 < lot.creditsRemaining ↔ db.openOwed (lockWallet user db).1 <
        entry.monthlyCreditsIncluded +
          db.aheadOfGrant env (checkoutBundle env user plan entry obj sub))) ∧
      ∀ j, db.lots.get? j = none → j ≠ db.lots.next → db'.lots.get? j = none) := by
  unfold grantBundle at h
  split at h
  · rename_i hzero
    exact ⟨fun _ => (Except.ok.inj h).symm, fun hne => absurd hzero hne⟩
  · rename_i hne
    dsimp only at h
    split at h
    · cases h
    · rename_i txn granted hcredit
      obtain rfl := Except.ok.inj h
      refine ⟨fun hzero => absurd hzero hne, fun _ => ?_⟩
      obtain ⟨⟨lot, hlot, hdeadline, hsource, -, hwallet, ⟨row, hrow, hmeta⟩, hgrant, hkept⟩, hnone⟩ :=
        credit_lot hcredit rfl rfl
      refine ⟨⟨lot, hlot, hdeadline, hsource, hwallet, ⟨txn, row, hgrant, hrow, ?_⟩, hkept⟩, hnone⟩
      rw [hmeta]
      unfold bundleCredit
      dsimp only
      rw [Metadata.set_of_ne _ _ (by decide), Metadata.set_of_ne _ _ (by decide), Metadata.set_same,
        hid]
      rfl

theorem lockWallet_congr (h : db'.wallets = db.wallets) :
    (lockWallet user db').1 = (lockWallet user db).1 := by
  unfold lockWallet
  rw [h]
  split <;> rfl

theorem openOwed_congr {w : ℕ} (h : db'.debts = db.debts) : db'.openOwed w = db.openOwed w := by
  unfold Db.openOwed Db.openDebts
  rw [h]

theorem aheadOfGrant_congr {args : CreditArgs} (hlots : db'.lots = db.lots)
    (hwallets : db'.wallets = db.wallets) : db'.aheadOfGrant env args = db.aheadOfGrant env args := by
  have hplace : CreditLot.place (db'.lots.next, grantLot env (lockWallet args.user db').1 args db') =
      CreditLot.place (db.lots.next, grantLot env (lockWallet args.user db).1 args db) := by
    unfold grantLot
    rw [hlots]
    rfl
  unfold Db.aheadOfGrant
  rw [hplace, lockWallet_congr hwallets]
  unfold Db.liveIn
  rw [hlots]

/-- **The bundle of a first checkout** is one lot, which dies with the period of the row if
that is still ahead.  With nothing parked it keeps something exactly when the debts are less
than it and the lots before it hold. -/
theorem FirstCheckout.bundle (h : FirstCheckout env event.object db user plan entry id)
    (hok : handleCheckoutCompleted env event db = .ok db') {row : Subscription}
    (hrow : row = (checkoutDefaults plan event.object (providerEventTime event)
      (db.userRow user)).withParked (db.parked id)) :
    (entry.monthlyCreditsIncluded = 0 → ∀ j, db.lots.get? j = none → db'.lots.get? j = none) ∧
    (entry.monthlyCreditsIncluded ≠ 0 → (∃ lot, db'.lots.get? db.lots.next = some lot ∧
      lot.expiresAt = futureOrNone env.now row.currentPeriodEnd ∧ lot.source = .subscription ∧
      (∃ wallet, db'.wallets.get? lot.wallet = some wallet ∧ wallet.user = some user) ∧
      (∃ g row, lot.grantingTransaction = some g ∧ db'.transactions.get? g = some row ∧
        row.metadata .stripeSubscriptionId = some (.str id)) ∧
      (db.parked id = none → (0 < lot.creditsRemaining ↔
        db.openOwed (lockWallet user db).1 < entry.monthlyCreditsIncluded +
          db.aheadOfGrant env (checkoutBundle env user plan entry event.object row)))) ∧
      ∀ j, db.lots.get? j = none → j ≠ db.lots.next → db'.lots.get? j = none) := by
  rw [h.toSubscriptionCheckout.handle] at hok
  rcases grantPlan_ok h.agreed hok with ⟨hnone, -⟩ | ⟨claimed, k, sub, opened, granted, hclaimed,
    hopened, hgranted, rfl⟩
  · exact absurd hnone h.unclaimed
  · obtain ⟨ext, -, -, -, rfl⟩ := claimProviderObject_some hclaimed
    obtain ⟨-, -, hsub, ⟨subscriptions, hdb⟩, hrows⟩ := openSubscription_ok hopened
    have hopenedLots : opened.lots = db.lots := by rw [hdb]
    have hopenedDebts : opened.debts = db.debts := by rw [hdb]
    have hopenedWallets : opened.wallets = db.wallets := by rw [hdb]
    have hopenedParked : opened.parked id = db.parked id := by rw [hdb]; rfl
    have hdefaults : sub.stripeSubscriptionId = some id := by
      rw [hsub]
      exact checkoutDefaults_id.trans h.subscription
    obtain ⟨happlied, -⟩ := applyPendingPeriod_row h.named hdefaults ((hrows k).trans (if_pos rfl))
    have hwritten : (applyPendingPeriod k sub opened).1 = row := by
      rw [happlied, hopenedParked, hrow, hsub]
      rfl
    have hid : row.stripeSubscriptionId = some id := by
      rw [hrow]
      unfold Subscription.withParked
      split
      · exact checkoutDefaults_id.trans h.subscription
      · rw [PendingSubscriptionPeriod.applyTo_fst]
        exact checkoutDefaults_id.trans h.subscription
    rw [hwritten] at hgranted
    obtain ⟨hnext, hlots⟩ := @applyPendingPeriod_lots opened k sub
    rw [hopenedLots] at hnext hlots
    obtain ⟨hzero, hone⟩ := grantBundle_lot hgranted hid
    rw [hnext] at hone
    refine ⟨fun hnothing j hj => ?_, fun hsome => ?_⟩
    · rw [hwritten, hzero hnothing]
      exact hlots j hj
    · obtain ⟨⟨lot, hlot, hdeadline, hsource, hwallet, hgrant, hkept⟩, hnone⟩ := hone hsome
      refine ⟨⟨lot, hlot, hdeadline, hsource, hwallet, hgrant, fun hparked => ?_⟩,
        fun j hj hne => hnone j (hlots j hj) hne⟩
      rw [hkept, applyPendingPeriod_unparked h.named hdefaults (hopenedParked.trans hparked),
        openOwed_congr hopenedDebts, lockWallet_congr hopenedWallets,
        aheadOfGrant_congr hopenedLots hopenedWallets]

end Bundle
end StapelBilling
