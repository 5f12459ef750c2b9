import StapelBilling.Folding

/-! # A merge as a whole

A merge strips the merged wallet of its due and its account-bound lots, folds it into
the survivor's, books what arrived, and lets the survivor's debts collect.  One
inversion lemma says so; what a merge does to the two wallets' books and caches, and
that it stays on those two wallets, is read off it part by part.
-/
namespace StapelBilling
open Store

variable {env : Env} {db db' : Db} {merged survivor : ℕ}

/-! ## The parts of a merge -/

/-- The merged wallet's due lots are swept and its account-bound ones forfeited. -/
def Db.stripped (db : Db) (env : Env) (merged : ℕ) : Db :=
  (db.swept env merged).forfeited env merged

/-- What the merged wallet brings. -/
def Db.movedCredits (db : Db) (env : Env) (merged : ℕ) : ℤ :=
  (db.stripped env merged).liveBalance merged env.now

/-- The merged wallet is folded into the survivor's, and its arrival booked. -/
def Db.booked (db : Db) (env : Env) (key : String) (merged survivor : ℕ) : Db :=
  bookMerge env key merged survivor (db.movedCredits env merged)
    ((db.stripped env merged).folded merged survivor)

theorem mergeSubscription_ok {fromUser intoUser : UserId} {n : ℕ}
    (h : mergeSubscription fromUser intoUser db = .ok (n, db')) :
    ∃ subscriptions, db' = { db with subscriptions } := by
  unfold mergeSubscription at h
  split at h
  · obtain ⟨-, rfl⟩ := Prod.mk.inj (Except.ok.inj h)
    exact ⟨db.subscriptions, rfl⟩
  · dsimp only at h
    split at h
    · obtain ⟨-, rfl⟩ := Prod.mk.inj (Except.ok.inj h)
      exact ⟨_, rfl⟩
    · split at h
      · obtain ⟨-, rfl⟩ := Prod.mk.inj (Except.ok.inj h)
        exact ⟨_, rfl⟩
      · cases h

theorem survivorWallet_cases {intoUser : UserId} {currency : String}
    (h : survivorWallet intoUser currency db = .ok (survivor, db')) :
    (db' = db ∧ ∃ wallet, db.wallets.get? survivor = some wallet ∧ wallet.user = some intoUser) ∨
    (survivor = db.wallets.next ∧ intoUser ∈ db.users ∧
      (∀ k wallet, db.wallets.get? k = some wallet → wallet.user ≠ some intoUser) ∧
      db' = { db with wallets := db.wallets.insert { user := some intoUser, currency } }) := by
  unfold survivorWallet at h
  split at h
  · rename_i hfind
    obtain ⟨rfl, rfl⟩ := Prod.mk.inj (Except.ok.inj h)
    exact Or.inl ⟨rfl, _, Table.find?_some hfind⟩
  · rename_i hnone
    split at h
    · rename_i hknown
      obtain ⟨rfl, rfl⟩ := Prod.mk.inj (Except.ok.inj h)
      exact Or.inr ⟨rfl, hknown, fun k wallet hk => Table.find?_none hnone hk, rfl⟩
    · cases h

/-- **A merge under both locks.** -/
theorem mergeLocked_cases {key : String} {fromUser intoUser : UserId} {counts : MergeCounts}
    (h : mergeLocked env key fromUser intoUser merged survivor db = .ok (counts, db')) :
    ∃ subscriptions n,
      settleDebts env survivor { db.booked env key merged survivor with subscriptions } =
        .ok (n, db') ∧
      counts.forfeited = (forfeitLotsOnMerge env merged (db.swept env merged)).1 ∧
      counts.credits = db.movedCredits env merged := by
  simp only [mergeLocked] at h
  split at h
  · cases h
  rename_i subs dbS hsub
  obtain ⟨subscriptions, rfl⟩ := mergeSubscription_ok hsub
  split at h
  · cases h
  rename_i n db₂ hsettle
  obtain ⟨rfl, rfl⟩ := Prod.mk.inj (Except.ok.inj h)
  exact ⟨subscriptions, n, hsettle, rfl, rfl⟩

/-- **A merge** was applied before, finds no wallet to fold, or folds two wallets. -/
theorem mergeWallets_cases {digest : UserId → UserId → String} {fromUser intoUser : UserId}
    {counts : MergeCounts} (h : mergeWallets env digest fromUser intoUser db = .ok (counts, db')) :
    ((∃ k row, db.transactions.get? k = some row ∧
        row.idempotencyKey = mergeIdempotencyKey digest fromUser intoUser) ∧ db' = db ∧
        counts = {}) ∨
    ((∀ k row, db.transactions.get? k = some row →
        row.idempotencyKey ≠ mergeIdempotencyKey digest fromUser intoUser) ∧
      (((∀ k wallet, db.wallets.get? k = some wallet → wallet.user ≠ some fromUser) ∧
          (∃ subscriptions, db' = { db with subscriptions }) ∧ counts.forfeited = 0) ∨
        ∃ merged wallet survivor db₁,
          db.wallets.find? (fun wallet => wallet.user = some fromUser) = some (merged, wallet) ∧
          survivorWallet intoUser wallet.currency db = .ok (survivor, db₁) ∧
          mergeLocked env (mergeIdempotencyKey digest fromUser intoUser) fromUser intoUser merged
            survivor db₁ = .ok (counts, db'))) := by
  unfold mergeWallets at h
  dsimp only at h
  split at h
  · rename_i hkey
    obtain ⟨rfl, rfl⟩ := Prod.mk.inj (Except.ok.inj h)
    obtain ⟨⟨k, row⟩, hfind⟩ := Option.isSome_iff_exists.mp hkey
    obtain ⟨hget, hk⟩ := Table.find?_some hfind
    exact Or.inl ⟨⟨k, row, hget, hk⟩, rfl, rfl⟩
  · rename_i hkey
    have hnone := Option.not_isSome_iff_eq_none.mp hkey
    refine Or.inr ⟨fun k row hk => Table.find?_none hnone hk, ?_⟩
    split at h
    · rename_i hnone
      split at h
      · cases h
      · rename_i n db₂ hsub
        obtain ⟨rfl, rfl⟩ := Prod.mk.inj (Except.ok.inj h)
        exact Or.inl ⟨fun k wallet hk => Table.find?_none hnone hk, mergeSubscription_ok hsub, rfl⟩
    · rename_i merged wallet hfind
      split at h
      · cases h
      · rename_i survivor db₁ hsurvivor
        exact Or.inr ⟨merged, wallet, survivor, db₁, hfind, hsurvivor, h⟩

/-- The two wallets of a merge are two, when its accounts are. -/
theorem merged_ne_survivor {fromUser intoUser : UserId} {wallet : Wallet}
    (hne : fromUser ≠ intoUser)
    (hmerged : db.wallets.find? (fun wallet => wallet.user = some fromUser) = some (merged, wallet))
    (hsurvivor : survivorWallet intoUser wallet.currency db = .ok (survivor, db')) :
    merged ≠ survivor := by
  obtain ⟨hget, huser⟩ := Table.find?_some hmerged
  rintro rfl
  rcases survivorWallet_cases hsurvivor with ⟨-, wallet', hget', huser'⟩ | ⟨hnext, -⟩
  · obtain rfl := Option.some.inj (hget.symm.trans hget')
    exact hne (Option.some.inj (huser.symm.trans huser'))
  · exact absurd (Table.get?_lt_next hget) (by rw [hnext]; exact Nat.lt_irrefl _)

/-! ## Stripping -/

/-- Is the lot one that the sweep of a merge empties, or its forfeiture? -/
theorem stripped_lot (k : ℕ) : (db.stripped env merged).lots.get? k =
    (db.lots.get? k).map fun lot =>
      if (db.swept env merged).Forfeits env merged (lot.sweptAt merged env.now) then lot.zero
      else lot.sweptAt merged env.now := by
  unfold Db.stripped
  rw [forfeited_lot, swept_lot, Option.map_map]
  rcases db.lots.get? k with - | lot
  · rfl
  · simp only [Option.map_some, Function.comp_apply, Option.some.injEq]
    split
    · unfold CreditLot.sweptAt
      split <;> rfl
    · rfl

theorem stripped_noDue : (db.stripped env merged).NoDue merged env.now :=
  forfeited_noDue (swept_noDue env merged db)

theorem stripped_beside : db.Beside merged (db.stripped env merged) :=
  (swept_beside env merged db).trans forfeited_beside

theorem stripped_grows : db.Grows merged (db.stripped env merged) :=
  (expireDueLots_grows env db).trans forfeited_grows

theorem stripped_frame : (db.stripped env merged).holds = db.holds ∧
    (db.stripped env merged).debts = db.debts ∧ db.SameElsewhere (db.stripped env merged) := by
  have hsweep : (db.swept env merged).holds = db.holds ∧ (db.swept env merged).debts = db.debts :=
    expireDueLots_frame db
  have hforfeit := @forfeited_frame env merged (db.swept env merged)
  exact ⟨hforfeit.1.trans hsweep.1, hforfeit.2.1.trans hsweep.2,
    (expireDueLots_elsewhere env db).trans hforfeit.2.2⟩

theorem stripped_wallets : WalletsSynced db.wallets (db.stripped env merged).wallets :=
  (expireDueLots_wallets env db).trans forfeited_wallets

theorem LotProperty.stripped {Q : CreditLot → Prop} (hQ : LotProperty Q) (h : db.Lots Q) :
    (db.stripped env merged).Lots Q :=
  hQ.forfeited (hQ.swept h)

/-! ## Booking the arrival -/

section Booking
variable {key : String} {credits : ℤ}

theorem bookMerge_lots : (bookMerge env key merged survivor credits db).lots =
    (db.swept env survivor).lots := rfl

theorem bookMerge_swept : (bookMerge env key merged survivor credits db).Swept survivor env.now :=
  ⟨(swept_noDue env survivor db).congr rfl, fresh_of_sync survivor (d := db.swept env survivor) rfl rfl⟩

theorem bookMerge_beside : db.Beside survivor (bookMerge env key merged survivor credits db) := by
  refine (swept_beside env survivor db).trans ⟨fun _ _ _ => Iff.rfl, fun k hk => ?_⟩
  exact wallets_modify_other hk

theorem bookMerge_grows : db.Grows survivor (bookMerge env key merged survivor credits db) :=
  (expireDueLots_grows env db).trans
    ⟨lots_same, rows_insert rfl, holds_same, debts_same⟩

theorem bookMerge_frame : (bookMerge env key merged survivor credits db).holds = db.holds ∧
    (bookMerge env key merged survivor credits db).debts = db.debts ∧
    db.SameElsewhere (bookMerge env key merged survivor credits db) := by
  have hsweep : (db.swept env survivor).holds = db.holds ∧
      (db.swept env survivor).debts = db.debts := expireDueLots_frame db
  exact ⟨hsweep.1, hsweep.2,
    (expireDueLots_elsewhere env db).trans ⟨rfl, rfl, rfl, rfl, rfl⟩⟩

theorem bookMerge_walletsSynced :
    WalletsSynced db.wallets (bookMerge env key merged survivor credits db).wallets :=
  (expireDueLots_wallets env db).trans (WalletsSynced.sync _ _)

end Booking

/-! ## The books of one wallet -/

/-- How far the ledger of wallet `v` is ahead of what it has to explain. -/
def Db.gapOf (v : ℕ) (db : Db) : ℤ := db.ledgerOf v - db.lotsOf v - db.reservedOf v

theorem ledgerOf_insert {w v : ℕ} {row : Transaction} (hw : row.wallet = w)
    (hrows : db'.transactions = db.transactions.insert row) :
    db'.ledgerOf v = db.ledgerOf v + if w = v then row.creditsDelta else 0 := by
  unfold Db.ledgerOf
  rw [hrows, Table.sum_insert, hw]

/-- Emptying a lot with a row leaves every wallet's books as far apart as they were. -/
theorem Empties.gap {w k v : ℕ} {lot : CreditLot} {row : Transaction}
    (h : Empties w k lot row db db') : db'.gapOf v = db.gapOf v := by
  have hledger : db'.ledgerOf v = db.ledgerOf v + if w = v then -lot.creditsRemaining else 0 := by
    rw [← h.delta]
    exact ledgerOf_insert h.rowWallet (by rw [h.result])
  have hlots : db'.lotsOf v = db.lotsOf v - if w = v then lot.creditsRemaining else 0 := by
    have hsum := Table.sum_modify h.current CreditLot.zero
      fun _ lot => if lot.wallet = v then lot.creditsRemaining else 0
    have hzero : (if lot.zero.wallet = v then lot.zero.creditsRemaining else 0) = 0 := ite_self 0
    rw [hzero, h.onWallet] at hsum
    rw [h.result]
    show ((db.lots.modify k CreditLot.zero).sum fun _ lot =>
      if lot.wallet = v then lot.creditsRemaining else 0) = db.lotsOf v - _
    simp only [Db.lotsOf]
    omega
  have hreserved : db'.reservedOf v = db.reservedOf v := by
    rw [h.result]
    rfl
  unfold Db.gapOf
  rw [hledger, hlots, hreserved]
  split <;> omega

/-- The moves of a sweep and of a collection. -/
def Move.IsSettling : Move → Prop
  | .sync | .expire _ | .collect _ _ _ _ => True
  | _ => False

/-- **A collection takes its amount out of the wallet's lots**, and none out of others'. -/
theorem Step.collect_lotsOf {w k : ℕ} {debt : CreditDebt} {amount : ℤ} {taken : List (ℕ × ℤ)}
    (h : Step env w (.collect k debt amount taken) db db') (v : ℕ) :
    db'.lotsOf v = db.lotsOf v - if w = v then amount else 0 := by
  have hbeside := h.beside trivial
  cases h with
  | collect hdebt hw hopen hpos hle htaken hdrawn =>
    by_cases hv : v = w
    · rw [if_pos hv.symm, ← hdrawn]
      refine Table.sum_drain htaken.nodup fun j n hmem => ?_
      obtain ⟨-, lot, hlot, hspendable, -⟩ := htaken.lot j n hmem
      refine ⟨lot, hlot, ?_⟩
      have hwallet : (lot.spend n).wallet = v := hspendable.1.trans hv.symm
      rw [if_pos hwallet, if_pos (hspendable.1.trans hv.symm)]
      rfl
    · rw [if_neg fun h => hv h.symm, sub_zero]
      exact (hbeside.sameFor hv).lotsOf

/-- **A sweep or a collection moves a wallet's ledger and its lots together.** -/
theorem Step.settling_gap {w v : ℕ} {m : Move} (h : Step env w m db db') (hm : m.IsSettling) :
    db'.gapOf v = db.gapOf v := by
  cases h with
  | sync => rfl
  | @expire _ k lot running hlot hw hdue =>
    obtain ⟨row, he⟩ := expireLot_empties env running hlot hw
    exact he.gap
  | @collect _ k debt amount taken hdebt hw hopen hpos hle htaken hdrawn =>
    have hledger : (collectDebt env w k debt amount taken (db.spendLots taken)).ledgerOf v =
        db.ledgerOf v + if w = v then -amount else 0 := by
      unfold Db.ledgerOf
      exact (Table.sum_insert _ _ _).trans rfl
    have hlots := (Step.collect hdebt hw hopen hpos hle htaken hdrawn).collect_lotsOf v
    have hreserved : (collectDebt env w k debt amount taken (db.spendLots taken)).reservedOf v =
        db.reservedOf v := rfl
    unfold Db.gapOf
    rw [hledger, hlots, hreserved]
    split <;> omega
  | _ => exact hm.elim

theorem Moves.settling_gap {w v : ℕ} {P : Move → Prop} (hP : ∀ m, P m → m.IsSettling)
    (h : Moves env w P db db') : db'.gapOf v = db.gapOf v :=
  Moves.invariant (I := fun db' => db'.gapOf v = db.gapOf v)
    (fun m _ _ hm hI hs => (hs.settling_gap (hP m hm)).trans hI) h rfl

theorem swept_gap (env : Env) (w : ℕ) {v : ℕ} (db : Db) : (db.swept env w).gapOf v = db.gapOf v :=
  Moves.settling_gap (P := Move.IsSettling) (fun _ hm => hm)
    (expireDueLots_moves env w trivial (fun _ => trivial) db)

theorem settleDebts_gap {w v : ℕ} {n : ℤ} (h : settleDebts env w db = .ok (n, db')) :
    db'.gapOf v = db.gapOf v :=
  Moves.settling_gap (P := Move.IsSettling) (fun _ hm => hm)
    (settleDebts_ok (fun _ _ _ _ => trivial) h)

theorem stripped_gap {v : ℕ} : (db.stripped env merged).gapOf v = db.gapOf v := by
  refine (forfeited_invariant (I := fun db' => db'.gapOf v = (db.swept env merged).gapOf v) ?_ ?_
    rfl).trans (swept_gap env merged db)
  · exact fun k lot row db₁ db₂ he hI => he.gap.trans hI
  · exact fun db₁ hI => hI

theorem folded_lotsOf (hne : merged ≠ survivor) (v : ℕ) :
    (db.folded merged survivor).lotsOf v = if v = merged then 0
      else db.lotsOf v + if v = survivor then db.lotsOf merged else 0 :=
  folded_sum CreditLot.wallet CreditLot.creditsRemaining hne
    (fun _ lot => by split <;> rfl) (fun _ lot => by split <;> rfl) v

theorem folded_ledgerOf (hne : merged ≠ survivor) (v : ℕ) :
    (db.folded merged survivor).ledgerOf v = if v = merged then 0
      else db.ledgerOf v + if v = survivor then db.ledgerOf merged else 0 :=
  folded_sum Transaction.wallet Transaction.creditsDelta hne
    (fun _ row => by split <;> rfl) (fun _ row => by split <;> rfl) v

theorem folded_reservedOf (hne : merged ≠ survivor) (v : ℕ) :
    (db.folded merged survivor).reservedOf v = if v = merged then 0
      else db.reservedOf v + if v = survivor then db.reservedOf merged else 0 := by
  have hrenamed : ∀ u, (renameClashes merged survivor db).reservedOf u = db.reservedOf u := by
    intro u
    unfold Db.reservedOf renameClashes
    dsimp only
    rw [Table.sum_update]
    refine Table.sum_congr fun k held _ => ?_
    split <;> rfl
  have hmoved := folded_sum (t := (renameClashes merged survivor db).holds)
    (f := fun _ held => if held.wallet = merged then { held with wallet := survivor } else held)
    CreditHold.wallet CreditHold.reserved hne
    (fun _ held => by split <;> rfl) (fun _ held => by split <;> rfl) v
  refine hmoved.trans ?_
  have hv := hrenamed v
  have hm := hrenamed merged
  unfold Db.reservedOf at hv hm ⊢
  rw [hv, hm]

/-- **The fold adds the merged wallet's books to the survivor's.** -/
theorem folded_gap (hne : merged ≠ survivor) (v : ℕ) :
    (db.folded merged survivor).gapOf v = if v = merged then 0
      else db.gapOf v + if v = survivor then db.gapOf merged else 0 := by
  unfold Db.gapOf
  rw [folded_lotsOf hne, folded_ledgerOf hne, folded_reservedOf hne]
  split
  · omega
  · split <;> omega

/-- The row of a merge puts the survivor's ledger ahead by what moved. -/
theorem bookMerge_gap {key : String} {credits : ℤ} {v : ℕ} :
    (bookMerge env key merged survivor credits db).gapOf v =
      db.gapOf v + if survivor = v then credits else 0 := by
  rw [← swept_gap env survivor db]
  have hledger : (bookMerge env key merged survivor credits db).ledgerOf v =
      (db.swept env survivor).ledgerOf v + if survivor = v then credits else 0 := by
    unfold Db.ledgerOf
    exact (Table.sum_insert _ _ _).trans rfl
  have hlots : (bookMerge env key merged survivor credits db).lotsOf v =
      (db.swept env survivor).lotsOf v := rfl
  have hreserved : (bookMerge env key merged survivor credits db).reservedOf v =
      (db.swept env survivor).reservedOf v := rfl
  unfold Db.gapOf
  rw [hledger, hlots, hreserved]
  omega

/-- **After a merge** the survivor's ledger is ahead of its lots and holds by what the
two wallets' were, and by what moved. -/
theorem mergeLocked_gap {key : String} {fromUser intoUser : UserId} {counts : MergeCounts}
    (hne : merged ≠ survivor)
    (h : mergeLocked env key fromUser intoUser merged survivor db = .ok (counts, db')) (v : ℕ) :
    db'.gapOf v = if v = merged then 0
      else db.gapOf v + if v = survivor then db.gapOf merged + db.movedCredits env merged
        else 0 := by
  obtain ⟨subscriptions, n, hsettle, -, -⟩ := mergeLocked_cases h
  have hbooked : db'.gapOf v = (db.booked env key merged survivor).gapOf v :=
    (settleDebts_gap hsettle).trans rfl
  rw [hbooked, Db.booked, bookMerge_gap, folded_gap hne]
  by_cases hm : v = merged
  · rw [if_pos hm, if_pos hm, if_neg fun h => hne (hm.symm.trans h.symm), add_zero]
  · rw [if_neg hm, if_neg hm, stripped_gap, stripped_gap]
    by_cases hs : v = survivor
    · rw [if_pos hs, if_pos hs.symm, if_pos hs, add_assoc]
    · rw [if_neg hs, if_neg fun h => hs h.symm, if_neg hs, add_zero]

end StapelBilling
