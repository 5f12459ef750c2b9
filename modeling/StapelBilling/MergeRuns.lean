import StapelBilling.MergeTotals

/-! # Runs with merges

Whatever merges, operations, stamps and erasures come in whatever order, a closed wallet
stays closed and empty, the ledger row of a merge stays in the ledger under its key, so a
redelivery finds it, and every merge moves credits exactly.
-/
namespace StapelBilling
open Store

variable {env : Env} {w merged survivor : ℕ} {db db' : Db}

/-! ## What no call undoes -/

/-- Wallet `w` was closed by a merge and is empty. -/
structure Db.ClosedAndEmpty (w : ℕ) (db : Db) : Prop where
  closed : ∃ wallet, db.wallets.get? w = some wallet ∧ wallet.mergedInto ≠ none ∧
    wallet.user = none ∧ wallet.balance = 0
  noRows : db.NoRows w

/-- A ledger row has this retry key. -/
def Db.HasKey (db : Db) (key : String) : Prop :=
  ∃ k row, db.transactions.get? k = some row ∧ row.idempotencyKey = key

/-- Closed wallets stay closed, and ledger rows keep their retry keys. -/
structure Db.Keeps (db db' : Db) : Prop where
  closed : ∀ w wallet, db.wallets.get? w = some wallet → wallet.mergedInto ≠ none →
    ∃ wallet', db'.wallets.get? w = some wallet' ∧ wallet'.mergedInto ≠ none
  keys : ∀ k row, db.transactions.get? k = some row →
    ∃ row', db'.transactions.get? k = some row' ∧ row'.idempotencyKey = row.idempotencyKey

namespace Db.Keeps
variable {db₁ db₂ db₃ : Db}

theorem refl (db : Db) : db.Keeps db :=
  ⟨fun _ wallet hk hclosed => ⟨wallet, hk, hclosed⟩, fun _ row hk => ⟨row, hk, rfl⟩⟩

theorem trans (h : db₁.Keeps db₂) (h' : db₂.Keeps db₃) : db₁.Keeps db₃ where
  closed := by
    intro w wallet hk hclosed
    obtain ⟨wallet₂, hk₂, hclosed₂⟩ := h.closed w wallet hk hclosed
    exact h'.closed w wallet₂ hk₂ hclosed₂
  keys := by
    intro k row hk
    obtain ⟨row₂, hk₂, hkey₂⟩ := h.keys k row hk
    obtain ⟨row₃, hk₃, hkey₃⟩ := h'.keys k row₂ hk₂
    exact ⟨row₃, hk₃, hkey₃.trans hkey₂⟩

/-- Refreshing balances and adding rows keeps both. -/
theorem of_synced (hwallets : WalletsSynced db.wallets db'.wallets)
    (hrows : ∀ k row, db.transactions.get? k = some row → db'.transactions.get? k = some row) :
    db.Keeps db' where
  closed := by
    intro w wallet hk hclosed
    obtain ⟨wallet', hk', hsame⟩ := hwallets.grows.kept w wallet hk
    exact ⟨wallet', hk', hsame.mergedInto ▸ hclosed⟩
  keys := fun k row hk => ⟨row, hrows k row hk, rfl⟩

/-- Rewriting rows in place keeps their keys. -/
theorem of_rehomes {f : ℕ → ℕ} (h : db.Rehomes f db')
    (hwallets : ∀ w wallet, db.wallets.get? w = some wallet → wallet.mergedInto ≠ none →
      ∃ wallet', db'.wallets.get? w = some wallet' ∧ wallet'.mergedInto ≠ none) : db.Keeps db' where
  closed := hwallets
  keys := by
    intro k row hk
    obtain ⟨row', hk', -, -, hkey⟩ := h.transactions.kept k row hk
    exact ⟨row', hk', hkey⟩

theorem hasKey (h : db.Keeps db') {key : String} (hk : db.HasKey key) : db'.HasKey key := by
  obtain ⟨k, row, hget, hkey⟩ := hk
  obtain ⟨row', hget', hkey'⟩ := h.keys k row hget
  exact ⟨k, row', hget', hkey'.trans hkey⟩

end Db.Keeps

theorem Moves.keeps {P : Move → Prop} (h : Moves env w P db db') : db.Keeps db' where
  closed := by
    intro v wallet hk hclosed
    obtain ⟨wallet', hk', hsame⟩ := h.wallet_kept hk
    exact ⟨wallet', hk', hsame.mergedInto ▸ hclosed⟩
  keys := by
    intro k row hk
    obtain ⟨row', hk', hsame⟩ := h.grows.transactions.kept k row hk
    exact ⟨row', hk', by rw [hsame]⟩

theorem folded_keeps : db.Keeps (db.folded merged survivor) := by
  refine Db.Keeps.of_rehomes folded_rehomes fun v wallet hk hclosed => ?_
  rw [folded_wallet, hk]
  split
  · exact ⟨_, rfl, fun h => by cases h⟩
  · exact ⟨wallet, rfl, hclosed⟩

theorem survivorWallet_keeps {intoUser : UserId} {currency : String}
    (h : survivorWallet intoUser currency db = .ok (survivor, db')) : db.Keeps db' := by
  rcases survivorWallet_cases h with ⟨rfl, -⟩ | ⟨-, -, -, rfl⟩
  · exact Db.Keeps.refl _
  · exact ⟨fun v wallet hk hclosed => ⟨wallet, Table.get?_insert_of_some _ hk, hclosed⟩,
      fun k row hk => ⟨row, hk, rfl⟩⟩

theorem mergeLocked_keeps {key : String} {fromUser intoUser : UserId} {counts : MergeCounts}
    (h : mergeLocked env key fromUser intoUser merged survivor db = .ok (counts, db')) :
    db.Keeps db' := by
  obtain ⟨subscriptions, n, hsettle, -, -⟩ := mergeLocked_cases h
  have hstrip : db.Keeps (db.stripped env merged) :=
    Db.Keeps.of_synced stripped_wallets fun _ _ => stripped_row
  have hfold : (db.stripped env merged).Keeps ((db.stripped env merged).folded merged survivor) :=
    folded_keeps
  have hbook : ((db.stripped env merged).folded merged survivor).Keeps
      (db.booked env key merged survivor) :=
    Db.Keeps.of_synced bookMerge_walletsSynced fun _ _ => bookMerge_row
  have hsubs : (db.booked env key merged survivor).Keeps
      { db.booked env key merged survivor with subscriptions } :=
    ⟨(Db.Keeps.refl _).closed, (Db.Keeps.refl _).keys⟩
  have hmoves := settleDebts_ok (P := Move.IsSettling) (fun _ _ _ _ => trivial) hsettle
  exact (((hstrip.trans hfold).trans hbook).trans hsubs).trans hmoves.keeps

theorem mergeWallets_keeps {digest : UserId → UserId → String} {fromUser intoUser : UserId}
    {counts : MergeCounts} (h : mergeWallets env digest fromUser intoUser db = .ok (counts, db')) :
    db.Keeps db' := by
  rcases mergeWallets_cases h with ⟨-, rfl, -⟩ | ⟨-, ⟨-, ⟨subscriptions, rfl⟩, -⟩ |
    ⟨merged, wallet, survivor, db₁, hmerged, hsurvivor, hlocked⟩⟩
  · exact Db.Keeps.refl _
  · exact ⟨(Db.Keeps.refl _).closed, (Db.Keeps.refl _).keys⟩
  · exact (survivorWallet_keeps hsurvivor).trans (mergeLocked_keeps hlocked)

/-- **No call of the service reopens a wallet or loses a retry key.** -/
theorem ServiceCall.exec_keeps {digest : UserId → UserId → String} {c : ServiceCall}
    (h : c.exec digest env db = .ok db') : db.Keeps db' := by
  refine ServiceCall.exec_invariant (I := fun db' => db.Keeps db') (fun _ _ _ hok => ?_)
    (fun _ _ _ _ _ hok => mergeWallets_keeps hok) (fun sub => ?_) (fun _ _ _ hok => ?_)
    (Db.Keeps.refl db) h
  · exact (exec_moves hok).keeps
  · refine Db.Keeps.of_rehomes (stampSubscriptionPeriod_rehomes sub db) ?_
    rw [stampSubscriptionPeriod_wallets]
    exact (Db.Keeps.refl db).closed
  · obtain ⟨hrehomes, -, user, hwallets⟩ := eraseSubject_cases hok
    refine Db.Keeps.of_rehomes hrehomes fun v wallet hk hclosed => ?_
    refine ⟨_, by rw [hwallets, Table.get?_update, hk]; rfl, ?_⟩
    dsimp only
    split
    · exact hclosed
    · exact hclosed

/-! ## One merge -/

/-- **A redelivery changes nothing.** -/
theorem mergeWallets_of_hasKey {digest : UserId → UserId → String} {fromUser intoUser : UserId}
    (hk : db.HasKey (mergeIdempotencyKey digest fromUser intoUser)) :
    mergeWallets env digest fromUser intoUser db = .ok ({}, db) := by
  obtain ⟨k, row, hget, hkey⟩ := hk
  have hfound : (db.transactions.find? fun row =>
      row.idempotencyKey = mergeIdempotencyKey digest fromUser intoUser).isSome := by
    by_contra hnone
    exact Table.find?_none (Option.not_isSome_iff_eq_none.mp hnone) hget hkey
  unfold mergeWallets
  dsimp only
  rw [if_pos hfound]

theorem Db.ClosedEmpty.closedAndEmpty (hc : db.ClosedEmpty) {wallet : Wallet}
    (hk : db.wallets.get? w = some wallet) (hclosed : wallet.mergedInto ≠ none) :
    db.ClosedAndEmpty w := by
  obtain ⟨huser, hbalance, hrows⟩ := hc w wallet hk hclosed
  exact ⟨⟨wallet, hk, hclosed, huser, hbalance⟩, hrows⟩

/-- A merge closes the merged wallet, leaves the survivor its user, and writes its
ledger row. -/
theorem mergeLocked_closes {key : String} {fromUser intoUser : UserId} {counts : MergeCounts}
    {mergedWallet survivorWallet : Wallet} (hne : merged ≠ survivor)
    (hm : db.wallets.get? merged = some mergedWallet)
    (hs : db.wallets.get? survivor = some survivorWallet)
    (h : mergeLocked env key fromUser intoUser merged survivor db = .ok (counts, db')) :
    (∃ wallet, db'.wallets.get? merged = some wallet ∧ wallet.mergedInto ≠ none) ∧
      (∃ wallet, db'.wallets.get? survivor = some wallet ∧ wallet.user = survivorWallet.user) ∧
      db'.HasKey key := by
  obtain ⟨subscriptions, n, hsettle, -, -⟩ := mergeLocked_cases h
  have hmoves := settleDebts_ok (P := Move.IsSettling) (fun _ _ _ _ => trivial) hsettle
  have hstrip : WalletsSynced db.wallets (db.stripped env merged).wallets := stripped_wallets
  have hbook : WalletsSynced ((db.stripped env merged).folded merged survivor).wallets
      (db.booked env key merged survivor).wallets := bookMerge_walletsSynced
  refine ⟨?_, ?_, ?_⟩
  · obtain ⟨wallet₁, hk₁, -⟩ := hstrip.grows.kept merged mergedWallet hm
    have hk₂ : ((db.stripped env merged).folded merged survivor).wallets.get? merged =
        some { wallet₁ with balance := 0, user := none, mergedInto := some survivor } := by
      rw [folded_wallet, if_pos rfl, hk₁, Option.map_some]
    obtain ⟨wallet₃, hk₃, hsame₃⟩ := hbook.grows.kept merged _ hk₂
    obtain ⟨wallet₄, hk₄, hsame₄⟩ := hmoves.wallet_kept hk₃
    refine ⟨wallet₄, hk₄, ?_⟩
    rw [hsame₄.mergedInto, hsame₃.mergedInto]
    exact fun h => by cases h
  · obtain ⟨wallet₁, hk₁, hsame₁⟩ := hstrip.grows.kept survivor survivorWallet hs
    have hk₂ : ((db.stripped env merged).folded merged survivor).wallets.get? survivor =
        some wallet₁ := by
      rw [folded_wallet, if_neg hne.symm, hk₁]
    obtain ⟨wallet₃, hk₃, hsame₃⟩ := hbook.grows.kept survivor _ hk₂
    obtain ⟨wallet₄, hk₄, hsame₄⟩ := hmoves.wallet_kept hk₃
    exact ⟨wallet₄, hk₄, by rw [hsame₄.user, hsame₃.user, hsame₁.user]⟩
  · have hbooked : Db.HasKey { db.booked env key merged survivor with subscriptions } key :=
      ⟨_, _, Table.get?_insert_next _ _, rfl⟩
    exact hmoves.keeps.hasKey hbooked

/-- What a merge of `fromUser` into `intoUser` that finds a wallet to fold does. -/
structure Db.Folds (env : Env) (key : String) (intoUser : UserId) (merged : ℕ)
    (counts : MergeCounts) (db db' : Db) (survivor : ℕ) : Prop where
  two : merged ≠ survivor
  owner : ∃ wallet, db'.wallets.get? survivor = some wallet ∧ wallet.user = some intoUser
  closed : db'.ClosedAndEmpty merged
  recorded : db'.HasKey key
  exact : db.MergesExactly env merged survivor counts db'

/-- **A merge** that is not a redelivery folds the wallet of the merged account. -/
theorem mergeWallets_folds {digest : UserId → UserId → String} {fromUser intoUser : UserId}
    {counts : MergeCounts} {wallet : Wallet} (hregular : db.Regular) (hne : fromUser ≠ intoUser)
    (hnew : ¬ db.HasKey (mergeIdempotencyKey digest fromUser intoUser))
    (hmerged : db.wallets.find? (fun wallet => wallet.user = some fromUser) = some (merged, wallet))
    (h : mergeWallets env digest fromUser intoUser db = .ok (counts, db')) :
    ∃ survivor, db.Folds env (mergeIdempotencyKey digest fromUser intoUser) intoUser merged counts
      db' survivor := by
  have hregular' := mergeWallets_regular hregular hne h
  rcases mergeWallets_cases h with ⟨⟨k, row, hk, hkey⟩, -⟩ | ⟨-, ⟨hnone, -⟩ |
    ⟨merged', wallet', survivor, db₁, hmerged', hsurvivor, hlocked⟩⟩
  · exact absurd ⟨k, row, hk, hkey⟩ hnew
  · obtain ⟨hget, huser⟩ := Table.find?_some hmerged
    exact absurd huser (hnone merged wallet hget)
  · obtain ⟨rfl, rfl⟩ := Prod.mk.inj (Option.some.inj (hmerged.symm.trans hmerged'))
    have htwo := merged_ne_survivor hne hmerged hsurvivor
    obtain ⟨hget, -⟩ := Table.find?_some hmerged
    -- Opening the survivor's wallet changes no lot and no debt.
    have hopened : db₁.wallets.get? merged = some wallet ∧
        (∃ wallet, db₁.wallets.get? survivor = some wallet ∧ wallet.user = some intoUser) ∧
        db₁.lots = db.lots ∧ db₁.debts = db.debts ∧ db₁.transactions = db.transactions := by
      rcases survivorWallet_cases hsurvivor with ⟨rfl, hs⟩ | ⟨rfl, -, -, rfl⟩
      · exact ⟨hget, hs, rfl, rfl, rfl⟩
      · exact ⟨Table.get?_insert_of_some _ hget, ⟨_, Table.get?_insert_next _ _, rfl⟩, rfl, rfl, rfl⟩
    obtain ⟨hget₁, ⟨survivorWallet, hs, huser⟩, hlots, hdebts, hrows⟩ := hopened
    obtain ⟨⟨closed, hclosed, hinto⟩, ⟨owner, howner, hsame⟩, hkey⟩ :=
      mergeLocked_closes htwo hget₁ hs hlocked
    have hexact := mergeLocked_exact (survivorWallet_regular hsurvivor hregular).1.nonneg htwo hlocked
    refine ⟨survivor, htwo, ⟨owner, howner, hsame.trans huser⟩,
      hregular'.closed.closedAndEmpty hclosed hinto, hkey, ?_⟩
    have hbound : ∀ sources lot, db₁.Bound sources merged lot ↔ db.Bound sources merged lot := by
      intro sources lot
      unfold Db.Bound Db.boundGrants
      rw [hlots]
    refine ⟨fun k lot hk hw => ?_, ?_⟩
    · obtain ⟨lot', hk', hw', hsource, hexpires, hgrant, hcredits⟩ :=
        hexact.lots k lot (by rw [hlots]; exact hk) hw
      refine ⟨lot', hk', hw', hsource, hexpires, hgrant, hcredits.trans ?_⟩
      unfold Db.settledFrom
      rw [hrows]
      simp only [hbound]
    · have htotal := hexact.total
      unfold Db.lotsOf Db.dueCredits Db.owedBy at htotal ⊢
      rw [hlots, hdebts] at htotal
      exact htotal

/-! ## Runs -/

/-- **Serial merges lose and mint nothing.**  In every run of the service from a database
without wallets, over any accounts and with merges, merges back and redeliveries anywhere:
a wallet that a merge has closed is closed and empty at every later moment; every merge
that is committed changes nothing when its ledger row is there already, and otherwise
folds the merged account's wallet into one of the survivor's, closes it, writes the row
and moves credits exactly; and once the row is there, a redelivery at any later moment
changes nothing. -/
theorem merges_lose_and_mint_nothing {digest : UserId → UserId → String} (hbare : db.Bare)
    (calls : List (Env × ServiceCall)) :
    (∀ m n w wallet, m ≤ n →
      (runService digest (calls.take m) db).wallets.get? w = some wallet →
      wallet.mergedInto ≠ none → (runService digest (calls.take n) db).ClosedAndEmpty w) ∧
    (∀ p ∈ trace (fun c : Env × ServiceCall => c.2.exec digest c.1) calls db,
      ∀ fromUser intoUser after, p.1.2 = .userMerged (some fromUser) (some intoUser) →
      fromUser ≠ intoUser → p.1.2.exec digest p.1.1 p.2 = .ok after →
      ∃ counts, mergeWallets p.1.1 digest fromUser intoUser p.2 = .ok (counts, after) ∧
        (p.2.HasKey (mergeIdempotencyKey digest fromUser intoUser) → after = p.2) ∧
        (¬ p.2.HasKey (mergeIdempotencyKey digest fromUser intoUser) → ∀ merged wallet,
          p.2.wallets.find? (fun wallet => wallet.user = some fromUser) = some (merged, wallet) →
          ∃ survivor, p.2.Folds p.1.1 (mergeIdempotencyKey digest fromUser intoUser) intoUser
            merged counts after survivor)) ∧
    ∀ m n fromUser intoUser env, m ≤ n →
      (runService digest (calls.take m) db).HasKey
        (mergeIdempotencyKey digest fromUser intoUser) →
      mergeWallets env digest fromUser intoUser (runService digest (calls.take n) db) =
        .ok ({}, runService digest (calls.take n) db) := by
  have hkeeps : ∀ {m n}, m ≤ n → (runService digest (calls.take m) db).Keeps
      (runService digest (calls.take n) db) := fun hle =>
    run_take_relation (R := Db.Keeps) hle Db.Keeps.refl (fun _ _ _ => Db.Keeps.trans)
      fun _ _ _ _ h => ServiceCall.exec_keeps h
  have hstart : db.Regular := hbare.wellformed.toRegular
  refine ⟨fun m n w wallet hle hk hclosed => ?_, fun p hp fromUser intoUser after hcall hne hok => ?_,
    fun m n fromUser intoUser env hle hkey => ?_⟩
  · have hregular : (runService digest (calls.take n) db).Regular := runService_regular hstart
    obtain ⟨wallet', hk', hclosed'⟩ := (hkeeps hle).closed w wallet hk hclosed
    exact hregular.closed.closedAndEmpty hk' hclosed'
  · have hregular : p.2.Regular :=
      trace_invariant (fun _ _ _ _ hI h => ServiceCall.exec_regular hI h) hstart p hp
    have hmerge : ∃ counts,
        mergeWallets p.1.1 digest fromUser intoUser p.2 = .ok (counts, after) := by
      rw [hcall] at hok
      simp only [ServiceCall.exec, handleUserMerged, if_neg hne] at hok
      rcases hrun : mergeWallets p.1.1 digest fromUser intoUser p.2 with e | ⟨counts, db'⟩
      · rw [hrun] at hok
        cases hok
      · rw [hrun] at hok
        obtain rfl := Except.ok.inj hok
        exact ⟨counts, rfl⟩
    obtain ⟨counts, hmerge⟩ := hmerge
    refine ⟨counts, hmerge, fun hkey => ?_, fun hnew merged wallet hfind => ?_⟩
    · rw [mergeWallets_of_hasKey hkey] at hmerge
      exact (Prod.mk.inj (Except.ok.inj hmerge)).2.symm
    · exact mergeWallets_folds hregular hne hnew hfind hmerge
  · exact mergeWallets_of_hasKey ((hkeeps hle).hasKey hkey)

/-- A chain of merges, with a debt and a hold, a merge back and a redelivery. -/
def mergeChain : List (Env × ServiceCall) :=
  [(Env.plain 0, .wallet (.credit
      { user := 1
        credits := 100
        type := .creditPurchase
        source := .purchase })),
    (Env.plain 5, .wallet (.hold
      { user := 1
        credits := 40
        type := .aiCharge
        idempotencyKey := "job" })),
    (Env.plain 6, .wallet (.debit
      { user := 2
        credits := 30
        type := .aiCharge
        allowPartial := true })),
    (Env.plain 10, .userMerged (some 1) (some 2)),
    (Env.plain 20, .userMerged (some 1) (some 2)),
    (Env.plain 30, .wallet (.release { hold := 0 })),
    (Env.plain 40, .userMerged (some 2) (some 1))]

/-- A name for each of the two pairs that the chain merges. -/
def pairDigest : UserId → UserId → String := fun fromUser _ =>
  if fromUser = 1 then "1 into 2" else "2 into 1"

theorem merges_lose_and_mint_nothing_chain :
    (runService pairDigest (mergeChain.take 7) { users := [1, 2] }).ClosedAndEmpty 0 ∧
    mergeWallets (Env.plain 50) pairDigest 1 2
        (runService pairDigest (mergeChain.take 7) { users := [1, 2] }) =
      .ok ({}, runService pairDigest (mergeChain.take 7) { users := [1, 2] }) := by
  have hbare : Db.Bare { users := [1, 2] } := ⟨rfl, rfl, rfl, rfl, rfl⟩
  have h : _ ∧ _ ∧ _ := @merges_lose_and_mint_nothing _ pairDigest hbare mergeChain
  refine ⟨h.1 4 7 0 _ (by decide) rfl (by decide), ?_⟩
  exact h.2.2 4 7 1 2 (Env.plain 50) (by decide) ⟨2, _, rfl, rfl⟩

end StapelBilling
