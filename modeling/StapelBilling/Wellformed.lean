import StapelBilling.Merging
import StapelBilling.Marks
import StapelBilling.Service

/-! # What every run of the service keeps

Every row's wallet exists, no lot is negative, and a closed wallet is empty: no user, no
balance, no rows.  A wallet operation only adds rows to a wallet that has a user or rows
already, so never to a closed one; a merge closes the wallet it has just emptied.  Rows stay
at home as long as no row that names a grant of another wallet is reversed.
-/
namespace StapelBilling
open Store

variable {env : Env} {w v : ℕ} {db db' : Db}

/-! ## Closed wallets -/

/-- Wallet `w` owns nothing. -/
structure Db.NoRows (w : ℕ) (db : Db) : Prop where
  lots : ∀ k lot, db.lots.get? k = some lot → lot.wallet ≠ w
  transactions : ∀ k row, db.transactions.get? k = some row → row.wallet ≠ w
  holds : ∀ k held, db.holds.get? k = some held → held.wallet ≠ w
  debts : ∀ k debt, db.debts.get? k = some debt → debt.wallet ≠ w

/-- Growth on another wallet gives it nothing. -/
theorem Db.NoRows.grows (h : db.NoRows v) (hg : db.Grows w db') (hv : v ≠ w) : db'.NoRows v where
  lots := hg.lots.forall_rows h.lots (fun _ _ ha hs => hs.wallet ▸ ha) fun _ ha he => hv (he ▸ ha)
  transactions := hg.transactions.forall_rows h.transactions (fun _ _ ha hs => hs.wallet ▸ ha)
    fun _ ha he => hv (he ▸ ha)
  holds := hg.holds.forall_rows h.holds (fun _ _ ha hs => hs.1 ▸ ha) fun _ ha he => hv (he ▸ ha)
  debts := hg.debts.forall_rows h.debts (fun _ _ ha hs => hs.wallet ▸ ha) fun _ ha he => hv (he ▸ ha)

/-- No merge has closed wallet `w`. -/
def Db.IsOpen (w : ℕ) (db : Db) : Prop :=
  ∀ wallet, db.wallets.get? w = some wallet → wallet.mergedInto = none

/-- **A closed wallet is empty.** -/
def Db.ClosedEmpty (db : Db) : Prop :=
  ∀ w wallet, db.wallets.get? w = some wallet → wallet.mergedInto ≠ none →
    wallet.user = none ∧ wallet.balance = 0 ∧ db.NoRows w

theorem Wallet.Same.mergedInto {a b : Wallet} (h : a.Same b) : b.mergedInto = a.mergedInto := by
  rw [h]

/-- Growth on an open wallet leaves the closed ones empty. -/
theorem Db.ClosedEmpty.grows (hc : db.ClosedEmpty) (hg : db.Grows w db')
    (hwallets : ∀ k, k ≠ w → db'.wallets.get? k = db.wallets.get? k) (hopen : db'.IsOpen w) :
    db'.ClosedEmpty := by
  intro k wallet hk hclosed
  by_cases hkw : k = w
  · subst hkw
    exact absurd (hopen wallet hk) hclosed
  · rw [hwallets k hkw] at hk
    obtain ⟨huser, hbalance, hrows⟩ := hc k wallet hk hclosed
    exact ⟨huser, hbalance, hrows.grows hg hkw⟩

theorem Step.isOpen {m : Move} (h : Step env w m db db') (ho : db.IsOpen w) : db'.IsOpen w := by
  by_cases hm : m.IsOpen
  · cases h with
    | @openWallet _ user hw hnew =>
      intro wallet hk
      rw [Table.get?_insert] at hk
      split at hk
      · obtain rfl := Option.some.inj hk
        rfl
      · exact ho wallet hk
    | _ => exact hm.elim
  · intro wallet hk
    rcases (h.wallets hm).grows.origin w wallet hk with ⟨old, hold, hsame⟩ | ⟨-, hnew⟩
    · exact hsame.mergedInto.trans (ho old hold)
    · exact hnew.elim

/-- **Moves on an open wallet leave the closed ones empty.** -/
theorem Moves.closedEmpty {P : Move → Prop} (h : Moves env w P db db') (ho : db.IsOpen w)
    (hc : db.ClosedEmpty) : db'.ClosedEmpty := by
  refine hc.grows h.grows (fun k hk => h.wallet_other hk) ?_
  exact Moves.invariant (I := Db.IsOpen w) (fun _ _ _ _ hI hs => hs.isOpen hI) h ho

theorem Db.ClosedEmpty.isOpen_of_user (hc : db.ClosedEmpty) {wallet : Wallet} {user : UserId}
    (hk : db.wallets.get? w = some wallet) (huser : wallet.user = some user) : db.IsOpen w := by
  intro wallet' hk'
  obtain rfl := Option.some.inj (hk.symm.trans hk')
  by_contra hclosed
  have hnone := (hc w wallet hk hclosed).1
  rw [huser] at hnone
  cases hnone

theorem Db.ClosedEmpty.isOpen_of_row (hc : db.ClosedEmpty) (hrow : ¬ db.NoRows w) : db.IsOpen w := by
  intro wallet hk
  by_contra hclosed
  exact hrow (hc w wallet hk hclosed).2.2

/-! ## Staying at home -/

theorem Moves.beside {P : Move → Prop} (hP : ∀ m, P m → ∀ db, m.TakesHome w db)
    (h : Moves env w P db db') : db.Beside w db' :=
  Moves.invariant (I := fun db' => db.Beside w db')
    (fun m _ _ hm hI hs => hI.trans (hs.beside (hP m hm _))) h (Db.Beside.refl w db)

theorem Moves.home {P : Move → Prop} (hP : ∀ m, P m → ∀ db, m.GivesHome w db)
    (h : Moves env w P db db') (hh : db.Home) : db'.Home :=
  Moves.invariant (I := Db.Home) (fun m _ _ hm hI hs => hs.home (hP m hm _) hI) h hh

theorem expireDueLots_home (hh : db.Home) : (db.swept env w).Home :=
  (expireDueLots_moves env w (P := Move.IsSweep) trivial (fun _ => trivial) db).home
    (fun m hm _ => by cases m <;> first | exact hm.elim | exact trivial) hh

theorem settleDebts_home {n : ℤ} (h : settleDebts env w db = .ok (n, db')) (hh : db.Home) :
    db'.Home :=
  (settleDebts_ok (P := Move.IsSettling) (fun _ _ _ _ => trivial) h).home
    (fun m hm _ => by cases m <;> first | exact hm.elim | exact trivial) hh

theorem settleDebts_beside {n : ℤ} (h : settleDebts env w db = .ok (n, db')) : db.Beside w db' :=
  (settleDebts_ok (P := Move.IsSettling) (fun _ _ _ _ => trivial) h).beside
    fun m hm _ => by cases m <;> first | exact hm.elim | exact trivial

/-! ## Wallet operations -/

/-- **What every run keeps of the database.** -/
structure Db.Regular (db : Db) : Prop where
  referenced : db.Referenced
  nonneg : db.LotsNonneg
  closed : db.ClosedEmpty

/-- A regular database whose lots and allocations are at home. -/
structure Db.Wellformed (db : Db) : Prop extends db.Regular where
  home : db.Home

theorem Db.Bare.wellformed (hb : db.Bare) : db.Wellformed := by
  obtain ⟨hwallets, hlots, htransactions, hholds, hdebts⟩ := hb
  refine ⟨⟨⟨?_, ?_, ?_, ?_⟩, ?_, ?_⟩, ?_, ?_⟩
  · rw [hlots]
    exact fun _ _ => Table.get?_empty_ne
  · rw [htransactions]
    exact fun _ _ => Table.get?_empty_ne
  · rw [hholds]
    exact fun _ _ => Table.get?_empty_ne
  · rw [hdebts]
    exact fun _ _ => Table.get?_empty_ne
  · unfold Db.LotsNonneg Db.Lots
    rw [hlots]
    exact fun _ _ => Table.get?_empty_ne
  · unfold Db.ClosedEmpty
    rw [hwallets]
    exact fun _ _ => Table.get?_empty_ne
  · rw [hlots]
    exact fun _ _ => Table.get?_empty_ne
  · rw [hholds]
    exact fun _ _ => Table.get?_empty_ne

/-- Row `k` names no grant of another wallet. -/
def Db.NamesOwn (db : Db) (k : ℕ) : Prop :=
  ∀ row g, db.transactions.get? k = some row →
    row.metadata .clawbackOf = some (.ref .transaction g) → db.RowOn g row.wallet

/-- The grant that a reference finds is the one it names. -/
theorem lookupPk_some {α : Type} {t : Table α} {name : TableName} {value : Option Json} {r : ℕ × α}
    (h : lookupPk t name value = .ok (some r)) :
    value = some (.ref name r.1) ∧ t.get? r.1 = some r.2 := by
  unfold lookupPk at h
  split at h
  · rename_i table k
    have h := Except.ok.inj h
    split at h
    · rename_i htable
      obtain ⟨a, ha, rfl⟩ := Option.map_eq_some_iff.mp h
      rw [htable]
      exact ⟨rfl, ha⟩
    · cases h
  · cases h
  · cases h
  · cases h
  · cases h
  · cases h

/-- A reversal of a row that names no grant of another wallet keeps rows at home. -/
theorem reverseClawback_home {k : ℕ} {row : Transaction} {eventId : Option String} {n : ℤ}
    (hrow : db.transactions.get? k = some row) (hown : db.NamesOwn k)
    (h : reverseClawback env k row eventId db = .ok (n, db')) (hh : db.Home) : db'.Home := by
  obtain ⟨current, hcurrent, hcase⟩ := reverseClawback_cases h
  obtain rfl := Option.some.inj (hrow.symm.trans hcurrent)
  rcases hcase with ⟨-, -, rfl⟩ | ⟨-, grant, reclaimed, debt, requested, hgrant, -, -, -, -, db₁, rfl, hend⟩
  · exact hh
  have hclose : Moves env row.wallet (fun m => ∀ db, m.GivesHome row.wallet db) db
      (closeDebt env debt eventId db) := by
    unfold closeDebt
    split
    · split
      · exact Moves.single (m := .cancel _) (fun _ => trivial) Step.cancel
      · exact Relation.ReflTransGen.refl
    · exact Relation.ReflTransGen.refl
  have hcloseHome := hclose.home (fun _ hm => hm) hh
  have hgiven : (giveBack env row.wallet k (grant.map Prod.fst) n eventId
      (closeDebt env debt eventId db)).Home := by
    unfold giveBack
    split
    · rename_i hpos
      have hrestore : Step env row.wallet (.restore (grant.map Prod.fst) n)
          (closeDebt env debt eventId db) (restoreCredits env row.wallet k (grant.map Prod.fst) n
            eventId (closeDebt env debt eventId db)) := Step.restore hpos
      refine hrestore.home ?_ hcloseHome
      intro g' hg'
      obtain ⟨r, hr, rfl⟩ := Option.map_eq_some_iff.mp hg'
      rw [hr] at hgrant
      exact hclose.grows.rowOn (hown row r.1 hrow (lookupPk_some hgrant).1)
    · exact hcloseHome
  have hmark : Step env row.wallet (.mark k) (giveBack env row.wallet k (grant.map Prod.fst) n
      eventId (closeDebt env debt eventId db)) (markReversed k requested eventId (giveBack env
        row.wallet k (grant.map Prod.fst) n eventId (closeDebt env debt eventId db))) := Step.mark
  have hmarked := hmark.home trivial hgiven
  rcases hend with ⟨-, m, hsettle⟩ | ⟨-, rfl⟩
  · exact settleDebts_home hsettle hmarked
  · exact hmarked

/-- The lots of a grant are on the wallet its row is on. -/
theorem Db.Home.takes (hh : db.Home) {g : ℕ} {row : Transaction}
    (hg : db.transactions.get? g = some row) {k : ℕ} {lot : CreditLot}
    (hk : db.lots.get? k = some lot) (hgrant : lot.grantingTransaction = some g) :
    lot.wallet = row.wallet := by
  obtain ⟨row', hget, hw⟩ := hh.grants k lot hk g hgrant
  obtain rfl := Option.some.inj (hg.symm.trans hget)
  exact hw.symm

/-- A clawback of a grant stays on the grant's wallet. -/
theorem clawBackGrant_beside {grant : ℕ} {txn : Transaction} {credits : Option ℤ}
    {description : Option String} {metadata : Metadata} {r : ClawbackResult} (hh : db.Home)
    (htxn : db.transactions.get? grant = some txn)
    (h : clawBackGrant env grant txn credits description metadata db = .ok (r, db')) :
    db.Beside txn.wallet db' := by
  obtain ⟨-, requested, taken, forgiven, -, -, -, hdraws, hbook⟩ := clawBackGrant_cases h
  have hdb := congrArg Prod.snd hbook
  dsimp only at hdb
  rw [hdb]
  have hhome : (db.swept env txn.wallet).Home := expireDueLots_home hh
  have hrow : (db.swept env txn.wallet).transactions.get? grant = some txn := expireDueLots_row htxn
  have hclawback : Step env txn.wallet (.clawback grant requested (drawn taken) forgiven metadata
      taken) (db.swept env txn.wallet) (bookClawback env grant txn requested (drawn taken) forgiven
        description metadata taken ((db.swept env txn.wallet).spendLots taken)).2 :=
    Step.clawback rfl hdraws
  refine (swept_beside env txn.wallet db).trans (hclawback.beside ?_)
  exact fun k lot hk hgrant => hhome.takes hrow hk hgrant

/-- **A wallet operation is beside every wallet but the one it locks.** -/
theorem exec_beside {c : WalletCall} (hh : db.Home) (h : c.exec env db = .ok db') :
    db.Beside (c.wallet db) db' := by
  cases c with
  | credit args =>
    obtain ⟨t, hok⟩ := map_snd_ok h
    exact (credit_moves hok).beside fun m hm _ => by
      cases m <;> first | exact hm.elim | exact trivial
  | debit args =>
    obtain ⟨answer, hok⟩ := map_snd_ok h
    exact (debit_moves hok).beside fun m hm _ => by
      cases m <;> first | exact hm.elim | exact trivial
  | hold args =>
    obtain ⟨k, hok⟩ := map_snd_ok h
    exact (hold_moves hok).beside fun m hm _ => by
      cases m <;> first | exact hm.elim | exact trivial
  | capture args =>
    obtain ⟨t, hok⟩ := map_snd_ok h
    obtain ⟨held, hheld, hm⟩ := capture_moves hok
    simp only [WalletCall.wallet, hheld, Option.map_some, Option.getD_some]
    exact hm.beside fun m hm _ => by cases m <;> first | exact hm.elim | exact trivial
  | release args =>
    obtain ⟨held, hheld, hm⟩ := release_moves h
    simp only [WalletCall.wallet, hheld, Option.map_some, Option.getD_some]
    exact hm.beside fun m hm _ => by cases m <;> first | exact hm.elim | exact trivial
  | expireDueLots u =>
    obtain rfl := Except.ok.inj h
    exact swept_beside env u db
  | clawBackGrant grant credits description metadata =>
    simp only [WalletCall.exec] at h
    split at h
    · rename_i txn htxn
      obtain ⟨r, hok⟩ := map_snd_ok h
      simp only [WalletCall.wallet, htxn, Option.map_some, Option.getD_some]
      exact clawBackGrant_beside hh htxn hok
    · cases h
  | reverseClawback k eventId =>
    simp only [WalletCall.exec] at h
    split at h
    · rename_i row hrow
      obtain ⟨n, hok⟩ := map_snd_ok h
      simp only [WalletCall.wallet, hrow, Option.map_some, Option.getD_some]
      exact (reverseClawback_moves hok).beside fun m hm _ => by
        cases m <;> first | exact hm.elim | exact trivial
    · cases h

theorem exec_home {c : WalletCall} (hh : db.Home)
    (hown : ∀ k eventId, c = .reverseClawback k eventId → db.NamesOwn k)
    (h : c.exec env db = .ok db') : db'.Home := by
  cases c with
  | credit args =>
    obtain ⟨t, hok⟩ := map_snd_ok h
    exact (credit_moves hok).home
      (fun m hm _ => by cases m <;> first | exact hm.elim | exact trivial) hh
  | debit args =>
    obtain ⟨answer, hok⟩ := map_snd_ok h
    exact (debit_moves hok).home
      (fun m hm _ => by cases m <;> first | exact hm.elim | exact trivial) hh
  | hold args =>
    obtain ⟨k, hok⟩ := map_snd_ok h
    exact (hold_moves hok).home
      (fun m hm _ => by cases m <;> first | exact hm.elim | exact trivial) hh
  | capture args =>
    obtain ⟨t, hok⟩ := map_snd_ok h
    obtain ⟨held, hheld, hm⟩ := capture_moves hok
    exact hm.home (fun m hm _ => by cases m <;> first | exact hm.elim | exact trivial) hh
  | release args =>
    obtain ⟨held, hheld, hm⟩ := release_moves h
    exact hm.home (fun m hm _ => by cases m <;> first | exact hm.elim | exact trivial) hh
  | expireDueLots u =>
    obtain rfl := Except.ok.inj h
    exact expireDueLots_home hh
  | clawBackGrant grant credits description metadata =>
    simp only [WalletCall.exec] at h
    split at h
    · rename_i txn htxn
      obtain ⟨r, hok⟩ := map_snd_ok h
      exact (clawBackGrant_moves hok).home
        (fun m hm _ => by cases m <;> first | exact hm.elim | exact trivial) hh
    · cases h
  | reverseClawback k eventId =>
    have hown := hown k eventId rfl
    simp only [WalletCall.exec] at h
    split at h
    · rename_i row hrow
      obtain ⟨n, hok⟩ := map_snd_ok h
      exact reverseClawback_home hrow hown hok hh
    · cases h

/-- The lock finds or opens a wallet that no merge has closed. -/
theorem lockWallet_isOpen (hc : db.ClosedEmpty) (user : UserId) :
    db.IsOpen (lockWallet user db).1 := by
  rcases hlock : lockWallet user db with ⟨w, db₁⟩
  rcases lockWallet_cases hlock with ⟨-, wallet, hget, huser⟩ | ⟨rfl, -, -⟩
  · exact hc.isOpen_of_user hget huser
  · intro wallet hk
    exact absurd (Table.get?_lt_next hk) (Nat.lt_irrefl _)

/-- **A wallet operation leaves the closed wallets empty.** -/
theorem exec_closedEmpty {c : WalletCall} (hc : db.ClosedEmpty) (h : c.exec env db = .ok db') :
    db'.ClosedEmpty := by
  have hmoves := exec_moves h
  have hheld : ∀ {k held}, db.holds.get? k = some held → db.IsOpen held.wallet :=
    fun hk => hc.isOpen_of_row fun hno => hno.holds _ _ hk rfl
  have hrow : ∀ {k row}, db.transactions.get? k = some row → db.IsOpen row.wallet :=
    fun hk => hc.isOpen_of_row fun hno => hno.transactions _ _ hk rfl
  cases c with
  | credit args => exact hmoves.closedEmpty (lockWallet_isOpen hc args.user) hc
  | debit args => exact hmoves.closedEmpty (lockWallet_isOpen hc args.user) hc
  | hold args => exact hmoves.closedEmpty (lockWallet_isOpen hc args.user) hc
  | capture args =>
    obtain ⟨t, hok⟩ := map_snd_ok h
    obtain ⟨held, hget, hm⟩ := capture_moves hok
    exact hm.closedEmpty (hheld hget) hc
  | release args =>
    obtain ⟨held, hget, hm⟩ := release_moves h
    exact hm.closedEmpty (hheld hget) hc
  | expireDueLots u =>
    obtain rfl := Except.ok.inj h
    by_cases hd : db.NoDue u env.now
    · have hsame : (expireDueLots env u db).2 = db := swept_of_noDue hd
      rw [hsame]
      exact hc
    · refine hmoves.closedEmpty (hc.isOpen_of_row fun hno => hd ?_) hc
      exact fun k lot hk hw => absurd hw (hno.lots k lot hk)
  | clawBackGrant grant credits description metadata =>
    simp only [WalletCall.exec] at h
    split at h
    · rename_i txn htxn
      obtain ⟨r, hok⟩ := map_snd_ok h
      exact (clawBackGrant_moves hok).closedEmpty (hrow htxn) hc
    · cases h
  | reverseClawback k eventId =>
    simp only [WalletCall.exec] at h
    split at h
    · rename_i row hget
      obtain ⟨n, hok⟩ := map_snd_ok h
      exact (reverseClawback_moves hok).closedEmpty (hrow hget) hc
    · cases h

/-- **A wallet operation keeps the database regular**, whatever its caller brings. -/
theorem exec_regular {c : WalletCall} (hs : db.Regular) (h : c.exec env db = .ok db') : db'.Regular :=
  ⟨exec_referenced hs.referenced h, (exec_moves h).lotsNonneg hs.nonneg,
    exec_closedEmpty hs.closed h⟩

/-- **A wallet operation keeps the database well formed**, unless it reverses a row that names
a grant of another wallet. -/
theorem exec_wellformed {c : WalletCall} (hwf : db.Wellformed)
    (hown : ∀ k eventId, c = .reverseClawback k eventId → db.NamesOwn k)
    (h : c.exec env db = .ok db') : db'.Wellformed :=
  ⟨exec_regular hwf.toRegular h, exec_home hwf.home hown h⟩

end StapelBilling
