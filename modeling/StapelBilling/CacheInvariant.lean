import StapelBilling.NamedGrants
import StapelBilling.Workers

/-! # The cached balance

A wallet's cached balance need not be the plain sum of its lots: a waived capture caches
the live lots without sweeping, and the dating of a bundle can leave a lot already dead.
What every call keeps is that the cache is exact *unless a sweep is pending*: while no lot
of the wallet is due, it is the sum.  The expiry worker sweeps every wallet with a due
lot, so right after it the cache is exact everywhere.
-/
namespace StapelBilling
open Store

variable {env : Env} {w merged survivor : ℕ} {db db' : Db}

/-- Every wallet's cache is exact unless a sweep is pending. -/
def Db.AllCached (now : Time) (db : Db) : Prop := ∀ w, db.Cached w now

/-! ## Wallet operations -/

/-- A wallet that owns nothing yet and holds no balance is exact. -/
theorem synced_of_new (hr : db.Referenced) {wallet : Wallet} (hzero : wallet.balance = 0) :
    Db.Synced db.wallets.next { db with wallets := db.wallets.insert wallet } := by
  intro wallet' hk
  obtain rfl := Option.some.inj ((Table.get?_insert_next _ _).symm.trans hk)
  have hnone : db.lotsOf db.wallets.next = 0 := by
    refine Table.sum_zero fun k lot hk => if_neg fun hw => ?_
    obtain ⟨old, hold⟩ := hr.lots k lot hk
    rw [hw, Table.get?_next] at hold
    cases hold
  exact hzero.trans hnone.symm

theorem beside_of_new (wallet : Wallet) :
    db.Beside db.wallets.next { db with wallets := db.wallets.insert wallet } :=
  ⟨fun _ _ _ => Iff.rfl, fun _ hk => Table.get?_insert_of_ne _ hk⟩

/-- The lock keeps every cache: a wallet it opens is empty. -/
theorem lockWallet_cached {user : UserId} {now : Time} (hr : db.Referenced)
    (hc : db.AllCached now) : (lockWallet user db).2.AllCached now := by
  rcases hlock : lockWallet user db with ⟨w, db₁⟩
  rcases lockWallet_cases hlock with ⟨rfl, -⟩ | ⟨rfl, rfl, -⟩
  · exact hc
  · intro v
    by_cases hv : v = db.wallets.next
    · rw [hv]
      exact (synced_of_new hr rfl).cached
    · exact ((beside_of_new _).sameFor hv).cached (hc v)

/-- **A wallet operation keeps every cache.** -/
theorem exec_cached {c : WalletCall} (hwf : db.Wellformed) (hc : db.AllCached env.now)
    (h : c.exec env db = .ok db') : db'.AllCached env.now := by
  have hn : db'.LotsNonneg := (exec_moves h).lotsNonneg hwf.nonneg
  have hlock : ∀ user, Db.Cached (lockWallet user db).1 env.now (lockWallet user db).2 :=
    fun user => lockWallet_cached hwf.referenced hc _
  intro v
  -- other wallets keep their lots and their cache
  by_cases hv : v = c.wallet db
  swap
  · exact ((exec_beside hwf.home h).sameFor hv).cached (hc v)
  subst hv
  cases c with
  | credit args =>
    obtain ⟨t, hok⟩ := map_snd_ok h
    rcases credit_swept rfl hok with rfl | hs
    · exact hlock args.user
    · exact (hs.synced hn).cached
  | debit args =>
    obtain ⟨answer, hok⟩ := map_snd_ok h
    rcases debit_swept rfl hok with rfl | hs | ⟨hlots, hwallets⟩
    · exact hlock args.user
    · exact (hs.synced hn).cached
    · -- A waived debit has swept and changed nothing else.
      have hopen : Moves env (lockWallet args.user db).1 (fun _ => True) db
          (lockWallet args.user db).2 := lockWallet_moves trivial rfl
      have hn₁ := hopen.lotsNonneg hwf.nonneg
      exact (swept_synced hn₁ (hlock args.user)).cached.congr hlots hwallets
  | hold args =>
    obtain ⟨k, hok⟩ := map_snd_ok h
    rcases hold_swept rfl hok with rfl | hs
    · exact hlock args.user
    · exact (hs.synced hn).cached
  | capture args =>
    obtain ⟨t, hok⟩ := map_snd_ok h
    unfold capture at hok
    split at hok
    · cases hok
    · rename_i u hu
      obtain ⟨held, hheld, rfl⟩ := holdWallet_ok hu
      simp only [WalletCall.wallet, hheld, Option.map_some, Option.getD_some]
      obtain ⟨-, -, ⟨rfl, -⟩ | ⟨-, -, -, hfresh⟩ | ⟨-, -, hs⟩⟩ := captureLocked_swept hok
      · exact hc _
      · -- A waived capture does not sweep: its cache is the live lots.
        exact hfresh.cached hn
      · exact (hs.synced hn).cached
  | release args =>
    obtain ⟨held, hheld, ⟨-, rfl⟩ | ⟨-, rfl⟩⟩ := release_cases h
    · exact hc _
    · simp only [WalletCall.wallet, hheld, Option.map_some, Option.getD_some]
      exact (releaseHeld_swept.synced hn).cached
  | expireDueLots u =>
    obtain rfl := Except.ok.inj h
    exact (swept_synced hwf.nonneg (hc u)).cached
  | clawBackGrant grant credits description metadata =>
    simp only [WalletCall.exec] at h
    split at h
    · rename_i txn htxn
      obtain ⟨r, hok⟩ := map_snd_ok h
      simp only [WalletCall.wallet, htxn, Option.map_some, Option.getD_some]
      exact ((clawBackGrant_swept hok).synced hn).cached
    · cases h
  | reverseClawback k eventId =>
    simp only [WalletCall.exec] at h
    split at h
    · rename_i row hrow
      obtain ⟨n, hok⟩ := map_snd_ok h
      simp only [WalletCall.wallet, hrow, Option.map_some, Option.getD_some]
      rcases reverseClawback_swept hok with ⟨hlots, hwallets⟩ | hs
      · exact (hc row.wallet).congr hlots hwallets
      · exact (hs.synced hn).cached
    · cases h

/-! ## Merges -/

/-- The fold leaves the merged wallet at zero without lots. -/
theorem folded_synced (hne : merged ≠ survivor) :
    (db.folded merged survivor).Synced merged := by
  intro wallet' hk
  rw [folded_wallet, if_pos rfl] at hk
  obtain ⟨wallet, -, rfl⟩ := Option.map_eq_some_iff.mp hk
  rw [folded_lotsOf hne, if_pos rfl]

/-- The fold sees no wallet but its two. -/
theorem folded_sameFor {v : ℕ} (hm : v ≠ merged) (hs : v ≠ survivor) :
    db.SameFor v (db.folded merged survivor) := by
  refine ⟨fun k lot hw => ?_, by rw [folded_wallet, if_neg hm]⟩
  rw [folded_lot, Option.map_eq_some_iff]
  constructor
  · intro hk
    exact ⟨lot, hk, if_neg fun h => hm (hw.symm.trans h)⟩
  · rintro ⟨old, hold, rfl⟩
    split at hw
    · exact absurd hw.symm hs
    · rename_i hold'
      rw [if_neg hold']
      exact hold

/-- **A merge under both locks keeps every cache**: the survivor is swept and refreshed,
the merged wallet is empty, and no other is touched. -/
theorem mergeLocked_cached {key : String} {fromUser intoUser : UserId} {counts : MergeCounts}
    (hne : merged ≠ survivor) (hn : db'.LotsNonneg) (hc : db.AllCached env.now)
    (h : mergeLocked env key fromUser intoUser merged survivor db = .ok (counts, db')) :
    db'.AllCached env.now := by
  obtain ⟨subscriptions, n, hsettle, -, -⟩ := mergeLocked_cases h
  have hbooked : (db.booked env key merged survivor).Swept survivor env.now := bookMerge_swept
  have hbook : ((db.stripped env merged).folded merged survivor).Beside survivor
      (db.booked env key merged survivor) := bookMerge_beside
  have hsubs : (db.booked env key merged survivor).Beside survivor
      { db.booked env key merged survivor with subscriptions } := Db.Beside.of_eq rfl rfl
  have hafter := (hbook.trans hsubs).trans (settleDebts_beside hsettle)
  intro v
  by_cases hs : v = survivor
  · rw [hs]
    exact ((settleDebts_swept hsettle (hbooked.congr rfl rfl)).synced hn).cached
  by_cases hm : v = merged
  · rw [hm]
    exact ((hafter.sameFor hne).synced (folded_synced hne)).cached
  · have hbeside : db.Beside merged (db.stripped env merged) := stripped_beside
    have hstripped := hbeside.sameFor hm
    exact ((hstripped.trans (folded_sameFor hm hs)).trans (hafter.sameFor hs)).cached (hc v)

/-- **A merge keeps every cache.** -/
theorem mergeWallets_cached {digest : UserId → UserId → String} {fromUser intoUser : UserId}
    {counts : MergeCounts} (hwf : db.Wellformed) (hne : fromUser ≠ intoUser)
    (hc : db.AllCached env.now)
    (h : mergeWallets env digest fromUser intoUser db = .ok (counts, db')) :
    db'.AllCached env.now := by
  have hn := (mergeWallets_regular hwf.toRegular hne h).nonneg
  rcases mergeWallets_cases h with ⟨-, rfl, -⟩ | ⟨-, ⟨-, ⟨subscriptions, rfl⟩, -⟩ |
    ⟨merged, wallet, survivor, db₁, hmerged, hsurvivor, hlocked⟩⟩
  · exact hc
  · exact fun v => (hc v).congr rfl rfl
  · refine mergeLocked_cached (merged_ne_survivor hne hmerged hsurvivor) hn ?_ hlocked
    rcases survivorWallet_cases hsurvivor with ⟨rfl, -⟩ | ⟨rfl, -, -, rfl⟩
    · exact hc
    · intro v
      by_cases hv : v = db.wallets.next
      · rw [hv]
        exact (synced_of_new hwf.referenced rfl).cached
      · exact ((beside_of_new _).sameFor hv).cached (hc v)

/-! ## Dating a bundle, erasing an account -/

/-- A wallet whose lots hold what they held, of which as many are due or more, and whose
balance is what it was, keeps its cache. -/
theorem Db.Cached.of_rehomes {now : Time} {v : ℕ} (hc : db.Cached v now)
    (hlots : db'.lotsOf v = db.lotsOf v) (hdue : db'.NoDue v now → db.NoDue v now)
    (hwallet : ∀ wallet', db'.wallets.get? v = some wallet' →
      ∃ wallet, db.wallets.get? v = some wallet ∧ wallet'.balance = wallet.balance) :
    db'.Cached v now := by
  intro hd wallet' hk
  obtain ⟨wallet, hget, hbalance⟩ := hwallet wallet' hk
  rw [hbalance, hlots]
  exact hc (hdue hd) wallet hget

/-- **Dating a bundle keeps every cache**: a due lot has a date already. -/
theorem stampSubscriptionPeriod_cached {now : Time} (sub : Subscription) (hc : db.AllCached now) :
    (stampSubscriptionPeriod sub db).AllCached now := by
  unfold stampSubscriptionPeriod
  split
  · rename_i finish id _ _
    intro v
    refine (hc v).of_rehomes ?_ (fun hd k lot hk hw hdue => ?_) fun wallet' hk => ⟨wallet', hk, rfl⟩
    · unfold Db.lotsOf
      rw [Table.sum_update]
      refine Table.sum_congr fun k lot _ => ?_
      split <;> rfl
    · have hdated : ¬ Undated sub id db lot := by
        intro hu
        obtain ⟨-, hpast⟩ := hdue
        rw [hu.2.2.1] at hpast
        exact hpast
      refine hd k lot ?_ hw hdue
      rw [Table.get?_update, hk, Option.map_some, if_neg hdated]
  · exact hc

theorem eraseSubject_cached {now : Time} {subjectType : String} {subject : Option UserId}
    (h : eraseSubject subjectType subject db = some db') (hc : db.AllCached now) :
    db'.AllCached now := by
  obtain ⟨-, hlots, user, hwallets⟩ := eraseSubject_cases h
  intro v
  refine (hc v).of_rehomes (by rw [Db.lotsOf, Db.lotsOf, hlots]) (fun hd => hd.congr hlots.symm) ?_
  intro wallet' hk
  rw [hwallets, Table.get?_update] at hk
  obtain ⟨wallet, hget, rfl⟩ := Option.map_eq_some_iff.mp hk
  refine ⟨wallet, hget, ?_⟩
  split <;> rfl

/-! ## Runs -/

/-- The caller's metadata names no grant.  A clawback writes the name itself, over whatever its
caller brings. -/
def ServiceCall.NamesNone : ServiceCall → Prop
  | .wallet (.clawBackGrant _ _ _ _) => True
  | .wallet c => c.metadata.NamesNone
  | _ => True

/-- What a run keeps whose callers name no grants: the database is well formed, its rows name
grants at home, and every cache is exact unless a sweep is pending. -/
structure Db.Exact (now : Time) (db : Db) : Prop where
  wellformed : db.Wellformed
  truthful : db.Truthful
  cached : db.AllCached now

/-- **A call of the service keeps every cache.** -/
theorem ServiceCall.exec_exact {digest : UserId → UserId → String} {c : ServiceCall}
    (hnames : c.NamesNone) (he : db.Exact env.now) (h : c.exec digest env db = .ok db') :
    db'.Exact env.now := by
  obtain ⟨hwf, ht, hc⟩ := he
  refine ServiceCall.exec_invariant (fun call db' hcall hok => ?_) (fun _ _ _ _ hne hok => ?_)
    (fun sub => ?_) (fun _ _ _ hok => ?_) ⟨hwf, ht, hc⟩ h
  · have hown : ∀ k eventId, call = .reverseClawback k eventId → db.NamesOwn k :=
      fun k _ _ row g hget hof => ht.transactions k row hget g hof
    refine ⟨exec_wellformed hwf hown hok, ?_, exec_cached hwf hc hok⟩
    subst hcall
    cases call with
    | clawBackGrant grant credits description metadata => exact clawBackGrant_truthful ht hok
    | _ => exact exec_truthful ht hnames hok
  · exact ⟨mergeWallets_wellformed hwf hne hok, mergeWallets_truthful ht hok,
      mergeWallets_cached hwf hne hc hok⟩
  · exact ⟨stampSubscriptionPeriod_wellformed sub hwf, stampSubscriptionPeriod_truthful sub ht,
      stampSubscriptionPeriod_cached sub hc⟩
  · exact ⟨eraseSubject_wellformed hok hwf, eraseSubject_truthful hok ht, eraseSubject_cached hok hc⟩

/-- A database without a wallet is exact at every moment. -/
theorem Db.Bare.exact (hbare : db.Bare) (now : Time) : db.Exact now where
  wellformed := hbare.wellformed
  truthful := by
    refine ⟨fun k row hk => ?_, fun k held hk => ?_, fun k debt hk => ?_⟩
    · rw [hbare.transactions] at hk
      exact Table.get?_empty_ne hk
    · rw [hbare.holds] at hk
      exact Table.get?_empty_ne hk
    · rw [hbare.debts] at hk
      exact Table.get?_empty_ne hk
  cached := by
    intro w _ wallet hk
    rw [hbare.wallets] at hk
    exact Table.get?_empty_ne hk

/-- **After a run with a clock that never goes back** every cache is exact unless a sweep
is pending. -/
theorem runService_exact {digest : UserId → UserId → String} (hbare : db.Bare)
    {calls : List (Env × ServiceCall)} (hnames : ∀ c ∈ calls, c.2.NamesNone)
    (hsorted : calls.Pairwise fun c d => c.1.now ≤ d.1.now) {now : Time}
    (hlast : ∀ c ∈ calls, c.1.now ≤ now) : (runService digest calls db).Exact now := by
  cases calls with
  | nil => exact hbare.exact now
  | cons c calls =>
    -- The run starts at the moment of its first call.
    refine run_clocked (I := fun t db => Db.Exact t db) ?_ ?_ hsorted (fun d hd => ?_) hlast
      (hlast c List.mem_cons_self) (hbare.exact c.1.now)
    · exact fun t u db hle hI => ⟨hI.wellformed, hI.truthful, fun v => (hI.cached v).later hle⟩
    · exact fun d hd db db' hI hok => ServiceCall.exec_exact (hnames d hd) hI hok
    · rcases List.mem_cons.mp hd with rfl | hd
      · exact le_rfl
      · exact (List.pairwise_cons.mp hsorted).1 d hd

/-! ## The expiry worker -/

/-- **The sweep of some wallets** keeps every cache, sweeps them, and makes no lot due. -/
theorem expireWallets_sweeps (wallets : List ℕ) (hwf : db.Wellformed)
    (hc : db.AllCached env.now) :
    (expireWallets env wallets db).2.Wellformed ∧
      (expireWallets env wallets db).2.AllCached env.now ∧
      ∀ v, v ∈ wallets ∨ db.NoDue v env.now → (expireWallets env wallets db).2.NoDue v env.now := by
  induction wallets generalizing db with
  | nil => exact ⟨hwf, hc, fun v hv => hv.resolve_left List.not_mem_nil⟩
  | cons w wallets ih =>
    rcases hw : db.wallets.get? w with - | wallet
    · -- A wallet that is gone has no lots.
      have hgone : db.NoDue w env.now := by
        intro k lot hk hlot
        obtain ⟨wallet, hget⟩ := hwf.referenced.lots k lot hk
        rw [hlot, hw] at hget
        cases hget
      obtain ⟨hwf', hc', hnone⟩ := ih hwf hc
      simp only [expireWallets, hw]
      refine ⟨hwf', hc', fun v hv => hnone v ?_⟩
      rcases hv with hv | hv
      · rcases List.mem_cons.mp hv with rfl | hv
        · exact Or.inr hgone
        · exact Or.inl hv
      · exact Or.inr hv
    · have hsweep : (WalletCall.expireDueLots w).exec env db = .ok (db.swept env w) := rfl
      obtain ⟨hwf', hc', hnone⟩ := ih (exec_wellformed hwf (fun k eventId he => by cases he) hsweep)
        (exec_cached hwf hc hsweep)
      simp only [expireWallets, hw]
      refine ⟨hwf', hc', fun v hv => hnone v ?_⟩
      by_cases hvw : v = w
      · rw [hvw]
        exact Or.inr (swept_noDue env w db)
      · rcases hv with hv | hv
        · exact Or.inl ((List.mem_cons.mp hv).resolve_left hvw)
        · exact Or.inr (((swept_beside env w db).sameFor hvw).noDue.mpr hv)

theorem mem_dueWallets {now : Time} {v : ℕ} :
    v ∈ db.dueWallets now ↔ ∃ k lot, db.lots.get? k = some lot ∧ lot.wallet = v ∧ lot.Due now := by
  unfold Db.dueWallets
  rw [List.mem_dedup, List.mem_map]
  constructor
  · rintro ⟨r, hr, rfl⟩
    obtain ⟨hget, hdue⟩ := Table.mem_select.mp hr
    exact ⟨r.1, r.2, hget, rfl, hdue⟩
  · rintro ⟨k, lot, hk, hw, hdue⟩
    exact ⟨(k, lot), Table.mem_select.mpr ⟨hk, hdue⟩, hw⟩

/-- **Right after the expiry worker** no lot is due and every cache is exact. -/
theorem expireCreditLots_synced (hwf : db.Wellformed) (hc : db.AllCached env.now) :
    (expireCreditLots env db).2.LotsNonneg ∧
      ∀ w, (expireCreditLots env db).2.NoDue w env.now ∧ (expireCreditLots env db).2.Synced w := by
  obtain ⟨hwf', hc', hnone⟩ := expireWallets_sweeps (db.dueWallets env.now) hwf hc
  refine ⟨hwf'.nonneg, fun w => ?_⟩
  have hno : (expireCreditLots env db).2.NoDue w env.now := by
    refine hnone w (or_iff_not_imp_left.mpr fun hw k lot hk hlot hdue => ?_)
    exact hw (mem_dueWallets.mpr ⟨k, lot, hk, hlot, hdue⟩)
  exact ⟨hno, hc' w hno⟩

/-- The reconciliation reports nothing of exact caches without due lots. -/
theorem reconcileWalletBalances_nil {now : Time} (hn : db.LotsNonneg)
    (hs : ∀ w, db.NoDue w now ∧ db.Synced w) : reconcileWalletBalances now db = [] := by
  unfold reconcileWalletBalances
  rw [List.filter_eq_nil_iff]
  intro r hr
  obtain ⟨⟨w, wallet⟩, hmem, rfl⟩ := List.mem_map.mp hr
  have hget : db.wallets.get? w = some wallet := Table.get?_eq_some_iff.mpr hmem
  have hexact : wallet.balance = db.liveBalance w now := by
    rw [liveBalance_eq_lotsOf hn (hs w).1]
    exact (hs w).2 wallet hget
  simpa using hexact

/-- **The cache is exact right after the expiry worker.**  For every run of the service
with a clock that never goes back, from a database without wallets, whose callers' metadata
names no grant, the expiry worker at a moment not before the last call leaves every wallet's
balance equal to what all its lots hold, and the reconciliation at that moment reports
nothing. -/
theorem expiry_makes_caches_exact {digest : UserId → UserId → String} (hbare : db.Bare)
    {calls : List (Env × ServiceCall)} (hnames : ∀ c ∈ calls, c.2.NamesNone)
    (hsorted : calls.Pairwise fun c d => c.1.now ≤ d.1.now)
    (hlast : ∀ c ∈ calls, c.1.now ≤ env.now) :
    let after := (expireCreditLots env (runService digest calls db)).2
    (∀ w wallet, after.wallets.get? w = some wallet → wallet.balance = after.lotsOf w) ∧
      reconcileWalletBalances env.now after = [] := by
  have hrun : (runService digest calls db).Exact env.now := runService_exact hbare hnames hsorted hlast
  obtain ⟨hn, hsynced⟩ := expireCreditLots_synced hrun.wellformed hrun.cached
  exact ⟨fun w wallet hk => (hsynced w).2 wallet hk, reconcileWalletBalances_nil hn hsynced⟩

/-- An undated bundle is reserved from and dated in the past; the reservation comes back
and the account is folded into another. -/
def bundleDatedInThePast : List (Env × ServiceCall) :=
  [(Env.plain 0, .wallet (.credit
      { user := 1
        credits := 100
        type := .subscriptionBonus
        source := .subscription
        metadata := Metadata.empty.set .stripeSubscriptionId (.str "sub") })),
    (Env.plain 5, .wallet (.hold
      { user := 1
        credits := 40
        type := .aiCharge
        idempotencyKey := "job" })),
    (Env.plain 10, .stampSubscriptionPeriod
      { user := some 1
        plan := "pro"
        stripeSubscriptionId := some "sub"
        currentPeriodEnd := some 3 }),
    (Env.plain 20, .wallet (.release { hold := 0 })),
    (Env.plain 30, .userMerged (some 1) (some 2))]

theorem expiry_makes_caches_exact_bundle :
    let after := (expireCreditLots (Env.plain 40)
      (runService (fun _ _ => "pair") bundleDatedInThePast { users := [1, 2] })).2
    (∀ w wallet, after.wallets.get? w = some wallet → wallet.balance = after.lotsOf w) ∧
      reconcileWalletBalances (Env.plain 40).now after = [] := by
  have hnamed : Metadata.NamesNone (Metadata.empty.set .stripeSubscriptionId (.str "sub")) :=
    fun g hg => by cases hg
  refine expiry_makes_caches_exact ⟨rfl, rfl, rfl, rfl, rfl⟩ ?_ (by decide) (by decide)
  simp only [bundleDatedInThePast, List.forall_mem_cons]
  exact ⟨hnamed, Metadata.namesNone_empty, trivial, Metadata.namesNone_empty, trivial,
    fun _ h => absurd h List.not_mem_nil⟩

/-- Two customers buy credits; one is charged with metadata that names the other's purchase as
what it takes back, and the charge is reversed before the purchase is refunded. -/
def forgedClawback : List (Env × ServiceCall) :=
  [(Env.plain 0, .wallet (.credit
      { user := 1
        credits := 100
        type := .creditPurchase
        source := .purchase })),
    (Env.plain 0, .wallet (.credit
      { user := 2
        credits := 100
        type := .creditPurchase
        source := .purchase })),
    (Env.plain 1, .wallet (.debit
      { user := 1
        credits := 10
        type := .refund
        metadata := ((((Metadata.empty.set .clawbackReason (.str "dispute")).set .stripeObjectId
          (.str "dp_1")).set .clawbackOf (.ref .transaction 1)).set .requested (.int 50)).set
          .reclaimed (.int 50) })),
    (Env.plain 2, .wallet (.reverseClawback 2 (some "evt_1"))),
    (Env.plain 3, .wallet (.clawBackGrant 1 (some 150) none Metadata.empty))]

/-- The refund of one customer's purchase takes credits of the other, whose balance is not told:
the reconciliation reports it with nothing due. -/
theorem forged_clawback_breaks_cache :
    let after := (expireCreditLots (Env.plain 4)
      (runService (fun _ _ => "pair") forgedClawback { users := [1, 2] })).2
    (after.wallets.get? 0).map Wallet.balance = some 140 ∧ after.lotsOf 0 = 90 ∧
      reconcileWalletBalances (Env.plain 4).now after = [(0, 140, 90)] := by
  decide +kernel

end StapelBilling
