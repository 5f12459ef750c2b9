import StapelBilling.Wellformed
import StapelBilling.Merging

/-! # Rows that change owner

The fold of a merge, an erasure and the dating of a bundle rewrite rows in place: each
row keeps its key and what it says about credits, and its wallet is replaced by a fixed
map of wallets.  What the invariants of a run need of such a rewrite is stated once here.
-/
namespace StapelBilling
open Store

variable {env : Env} {f : ℕ → ℕ} {v w : ℕ} {db db' : Db}

/-- The columns of a lot that its place and its credits depend on. -/
def CreditLot.Rehomed (f : ℕ → ℕ) (lot lot' : CreditLot) : Prop :=
  lot'.wallet = f lot.wallet ∧ lot'.grantingTransaction = lot.grantingTransaction ∧
    lot'.creditsRemaining = lot.creditsRemaining

/-- The columns of a ledger row that its place depends on, and its retry key. -/
def Transaction.Rehomed (f : ℕ → ℕ) (row row' : Transaction) : Prop :=
  row'.wallet = f row.wallet ∧ row'.metadata .clawbackOf = row.metadata .clawbackOf ∧
    row'.idempotencyKey = row.idempotencyKey

/-- The columns of a hold that its place depends on. -/
def CreditHold.Rehomed (f : ℕ → ℕ) (held held' : CreditHold) : Prop :=
  held'.wallet = f held.wallet ∧ held'.allocations = held.allocations

/-- The column of a debt that says whose it is. -/
def CreditDebt.Rehomed (f : ℕ → ℕ) (debt debt' : CreditDebt) : Prop := debt'.wallet = f debt.wallet

/-- `db'` is `db` with the rows of every wallet `v` given to `f v`. -/
structure Db.Rehomes (f : ℕ → ℕ) (db db' : Db) : Prop where
  lots : Store.Grows (CreditLot.Rehomed f) (fun _ => False) db.lots db'.lots
  transactions : Store.Grows (Transaction.Rehomed f) (fun _ => False) db.transactions
    db'.transactions
  holds : Store.Grows (CreditHold.Rehomed f) (fun _ => False) db.holds db'.holds
  debts : Store.Grows (CreditDebt.Rehomed f) (fun _ => False) db.debts db'.debts

/-- What rewrites nothing gives every row to the wallet that has it. -/
theorem Db.Rehomes.of_eq (hlots : db'.lots = db.lots) (hrows : db'.transactions = db.transactions)
    (hholds : db'.holds = db.holds) (hdebts : db'.debts = db.debts) : db.Rehomes id db' := by
  refine ⟨?_, ?_, ?_, ?_⟩
  · rw [hlots]
    exact Store.Grows.refl (fun _ => ⟨rfl, rfl, rfl⟩) _
  · rw [hrows]
    exact Store.Grows.refl (fun _ => ⟨rfl, rfl, rfl⟩) _
  · rw [hholds]
    exact Store.Grows.refl (fun _ => ⟨rfl, rfl⟩) _
  · rw [hdebts]
    have hsame : ∀ debt, CreditDebt.Rehomed id debt debt := fun _ => rfl
    exact Store.Grows.refl hsame _

namespace Db.Rehomes

theorem rowOn (h : db.Rehomes f db') {g : ℕ} (hg : db.RowOn g v) : db'.RowOn g (f v) := by
  obtain ⟨row, hget, rfl⟩ := hg
  obtain ⟨row', hget', hwallet, -⟩ := h.transactions.kept g row hget
  exact ⟨row', hget', hwallet⟩

theorem lotOn (h : db.Rehomes f db') {k : ℕ} (hk : db.LotOn k v) : db'.LotOn k (f v) := by
  obtain ⟨lot, hget, rfl⟩ := hk
  obtain ⟨lot', hget', hwallet, -⟩ := h.lots.kept k lot hget
  exact ⟨lot', hget', hwallet⟩

/-- **Rows at home move together.** -/
theorem home (h : db.Rehomes f db') (hh : db.Home) : db'.Home where
  grants := by
    intro k lot' hk g hg
    rcases h.lots.origin k lot' hk with ⟨lot, hlot, hwallet, hgrant, -⟩ | ⟨-, hnew⟩
    · rw [hgrant] at hg
      rw [hwallet]
      exact h.rowOn (hh.grants k lot hlot g hg)
    · exact hnew.elim
  allocations := by
    intro j held' hj a alloc ha
    rcases h.holds.origin j held' hj with ⟨held, hheld, hwallet, halloc⟩ | ⟨-, hnew⟩
    · rw [halloc] at ha
      rw [hwallet]
      exact h.lotOn (hh.allocations j held hheld a alloc ha)
    · exact hnew.elim

theorem referenced (h : db.Rehomes f db') (hr : db.Referenced)
    (hkept : ∀ v, db.HasWallet v → db'.HasWallet (f v)) : db'.Referenced where
  lots := h.lots.forall_image hr.lots (fun _ _ ha hs => hs.1 ▸ hkept _ ha) fun _ hnew => hnew.elim
  transactions := h.transactions.forall_image hr.transactions (fun _ _ ha hs => hs.1 ▸ hkept _ ha)
    fun _ hnew => hnew.elim
  holds := h.holds.forall_image hr.holds (fun _ _ ha hs => hs.1 ▸ hkept _ ha)
    fun _ hnew => hnew.elim
  debts := h.debts.forall_image hr.debts (fun _ _ ha hs => Eq.symm hs ▸ hkept _ ha)
    fun _ hnew => hnew.elim

theorem nonneg (h : db.Rehomes f db') (hn : db.LotsNonneg) : db'.LotsNonneg :=
  h.lots.forall_rows hn (fun _ _ ha hs => hs.2.2 ▸ ha) fun _ hnew => hnew.elim

/-- A wallet that nothing is given to owns nothing. -/
theorem noRows (h : db.Rehomes f db') (hv : ∀ u, f u = v → db.NoRows u) : db'.NoRows v where
  lots := by
    intro k lot' hk hw
    rcases h.lots.origin k lot' hk with ⟨lot, hlot, hwallet, -⟩ | ⟨-, hnew⟩
    · exact (hv lot.wallet (hwallet.symm.trans hw)).lots k lot hlot rfl
    · exact hnew
  transactions := by
    intro k row' hk hw
    rcases h.transactions.origin k row' hk with ⟨row, hrow, hwallet, -⟩ | ⟨-, hnew⟩
    · exact (hv row.wallet (hwallet.symm.trans hw)).transactions k row hrow rfl
    · exact hnew
  holds := by
    intro k held' hk hw
    rcases h.holds.origin k held' hk with ⟨held, hheld, hwallet, -⟩ | ⟨-, hnew⟩
    · exact (hv held.wallet (hwallet.symm.trans hw)).holds k held hheld rfl
    · exact hnew
  debts := by
    intro k debt' hk hw
    rcases h.debts.origin k debt' hk with ⟨debt, hdebt, hwallet⟩ | ⟨-, hnew⟩
    · exact (hv debt.wallet (Eq.symm hwallet |>.trans hw)).debts k debt hdebt rfl
    · exact hnew

end Db.Rehomes

/-! ## The fold of a merge -/

section Fold
variable {merged survivor : ℕ}

/-- The survivor gets what the merged wallet has. -/
def heir (merged survivor v : ℕ) : ℕ := if v = merged then survivor else v

theorem heir_ne_merged (hne : merged ≠ survivor) : heir merged survivor v ≠ merged := by
  unfold heir
  split
  · exact hne.symm
  · assumption

/-- **The fold gives every row of the merged wallet to the survivor.** -/
theorem folded_rehomes : db.Rehomes (heir merged survivor) (db.folded merged survivor) where
  lots := by
    refine Store.Grows.of_map rfl folded_lot fun k lot _ => ?_
    unfold CreditLot.Rehomed heir
    split <;> exact ⟨rfl, rfl, rfl⟩
  transactions := by
    refine Store.Grows.of_map rfl folded_row fun k row _ => ?_
    unfold Transaction.Rehomed heir
    split <;> exact ⟨rfl, rfl, rfl⟩
  holds := by
    have hnext : (db.folded merged survivor).holds.next = db.holds.next := rfl
    refine ⟨hnext.ge, fun h held hk => ?_, fun h held' hk => Or.inl ?_⟩
    · obtain ⟨key, hkey⟩ := @folded_hold db merged survivor h
      rw [hk] at hkey
      exact ⟨_, hkey, rfl, rfl⟩
    · obtain ⟨key, hkey⟩ := @folded_hold db merged survivor h
      rw [hkey] at hk
      obtain ⟨held, hheld, rfl⟩ := Option.map_eq_some_iff.mp hk
      exact ⟨held, hheld, rfl, rfl⟩
  debts := by
    refine Store.Grows.of_map rfl folded_debt fun k debt _ => ?_
    unfold CreditDebt.Rehomed heir
    split <;> rfl

theorem folded_hasWallet (hs : db.HasWallet survivor) (hv : db.HasWallet v) :
    (db.folded merged survivor).HasWallet (heir merged survivor v) := by
  have hkept : ∀ u, db.HasWallet u → (db.folded merged survivor).HasWallet u := by
    rintro u ⟨wallet, hu⟩
    unfold Db.HasWallet
    rw [folded_wallet, hu]
    split <;> exact ⟨_, rfl⟩
  unfold heir
  split
  · exact hkept survivor hs
  · exact hkept v hv

/-- The fold closes the merged wallet and leaves it empty; the survivor is open, so no
closed wallet gains a row. -/
theorem folded_closedEmpty (hne : merged ≠ survivor) (hs : db.IsOpen survivor)
    (hc : db.ClosedEmpty) : (db.folded merged survivor).ClosedEmpty := by
  intro k wallet' hk hclosed
  rw [folded_wallet] at hk
  by_cases hkm : k = merged
  · rw [if_pos hkm] at hk
    obtain ⟨wallet, -, rfl⟩ := Option.map_eq_some_iff.mp hk
    refine ⟨rfl, rfl, folded_rehomes.noRows fun u hu => ?_⟩
    rw [hkm] at hu
    exact absurd hu (heir_ne_merged hne)
  · rw [if_neg hkm] at hk
    obtain ⟨huser, hbalance, hrows⟩ := hc k wallet' hk hclosed
    have hks : k ≠ survivor := by
      rintro rfl
      exact hclosed (hs wallet' hk)
    refine ⟨huser, hbalance, folded_rehomes.noRows fun u hu => ?_⟩
    unfold heir at hu
    split at hu
    · exact absurd hu.symm hks
    · exact hu ▸ hrows

theorem folded_regular (hne : merged ≠ survivor) (hs : db.HasWallet survivor)
    (ho : db.IsOpen survivor) (hregular : db.Regular) : (db.folded merged survivor).Regular :=
  ⟨folded_rehomes.referenced hregular.referenced fun _ hv => folded_hasWallet hs hv,
    folded_rehomes.nonneg hregular.nonneg, folded_closedEmpty hne ho hregular.closed⟩

end Fold

/-! ## Dating a bundle, erasing an account -/

/-- Dating lots gives no row away. -/
theorem stampSubscriptionPeriod_rehomes (sub : Subscription) (db : Db) :
    db.Rehomes id (stampSubscriptionPeriod sub db) := by
  unfold stampSubscriptionPeriod
  split
  · refine ⟨?_, (Db.Rehomes.of_eq rfl rfl rfl rfl).transactions,
      (Db.Rehomes.of_eq rfl rfl rfl rfl).holds, (Db.Rehomes.of_eq rfl rfl rfl rfl).debts⟩
    refine Store.Grows.of_map rfl (Table.get?_update _ _) fun k lot _ => ?_
    split <;> exact ⟨rfl, rfl, rfl⟩
  · exact Db.Rehomes.of_eq rfl rfl rfl rfl

theorem stampSubscriptionPeriod_wallets (sub : Subscription) (db : Db) :
    (stampSubscriptionPeriod sub db).wallets = db.wallets := by
  unfold stampSubscriptionPeriod
  split <;> rfl

/-- Scrubbing free text gives no row away. -/
theorem scrubFreeText_rehomes (user : UserId) (db : Db) : db.Rehomes id (scrubFreeText user db) where
  lots := Store.Grows.refl (fun _ => ⟨rfl, rfl, rfl⟩) _
  transactions := by
    refine Store.Grows.of_map rfl (Table.get?_update _ _) fun k row _ => ?_
    split <;> exact ⟨rfl, rfl, rfl⟩
  holds := by
    refine Store.Grows.of_map rfl (Table.get?_update _ _) fun k held _ => ?_
    split <;> exact ⟨rfl, rfl⟩
  debts := by
    refine Store.Grows.of_map rfl (Table.get?_update _ _) fun k debt _ => ?_
    split <;> rfl

/-- **An erasure** gives no row away, and at most takes the user off wallets. -/
theorem eraseSubject_cases {subjectType : String} {subject : Option UserId}
    (h : eraseSubject subjectType subject db = some db') :
    db.Rehomes id db' ∧ db'.lots = db.lots ∧ ∃ user, db'.wallets = db.wallets.update fun _ wallet =>
      if wallet.user = some user then { wallet with user := none } else wallet := by
  unfold eraseSubject at h
  split at h
  · cases h
  · rename_i user
    split at h
    · cases h
    · obtain rfl := Option.some.inj h
      have hscrub := scrubFreeText_rehomes user (eraseSubscriptions user db)
      exact ⟨⟨hscrub.lots, hscrub.transactions, hscrub.holds, hscrub.debts⟩, rfl, user, rfl⟩

/-- Rewriting rows in place, with wallets that stay closed or open, keeps the database
regular. -/
theorem Db.Rehomes.regular (h : db.Rehomes id db') (hs : db.Regular)
    (hwallets : ∀ k wallet', db'.wallets.get? k = some wallet' → ∃ wallet,
      db.wallets.get? k = some wallet ∧ wallet'.mergedInto = wallet.mergedInto ∧
        wallet'.balance = wallet.balance ∧ (wallet.user = none → wallet'.user = none))
    (hkept : ∀ k, db.HasWallet k → db'.HasWallet k) : db'.Regular where
  referenced := h.referenced hs.referenced hkept
  nonneg := h.nonneg hs.nonneg
  closed := by
    intro k wallet' hk hclosed
    obtain ⟨wallet, hget, hmerged, hbalance, huser⟩ := hwallets k wallet' hk
    rw [hmerged] at hclosed
    obtain ⟨hnone, hzero, hrows⟩ := hs.closed k wallet hget hclosed
    exact ⟨huser hnone, hbalance.trans hzero, h.noRows fun u (hu : u = k) => hu ▸ hrows⟩

theorem Db.Rehomes.wellformed (h : db.Rehomes id db') (hwf : db.Wellformed)
    (hwallets : ∀ k wallet', db'.wallets.get? k = some wallet' → ∃ wallet,
      db.wallets.get? k = some wallet ∧ wallet'.mergedInto = wallet.mergedInto ∧
        wallet'.balance = wallet.balance ∧ (wallet.user = none → wallet'.user = none))
    (hkept : ∀ k, db.HasWallet k → db'.HasWallet k) : db'.Wellformed :=
  ⟨h.regular hwf.toRegular hwallets hkept, h.home hwf.home⟩

theorem stampSubscriptionPeriod_regular (sub : Subscription) (hs : db.Regular) :
    (stampSubscriptionPeriod sub db).Regular := by
  have hwallets := stampSubscriptionPeriod_wallets sub db
  refine (stampSubscriptionPeriod_rehomes sub db).regular hs (fun k wallet' hk => ?_) fun k hk => ?_
  · rw [hwallets] at hk
    exact ⟨wallet', hk, rfl, rfl, id⟩
  · unfold Db.HasWallet
    rw [hwallets]
    exact hk

theorem stampSubscriptionPeriod_wellformed (sub : Subscription) (hwf : db.Wellformed) :
    (stampSubscriptionPeriod sub db).Wellformed :=
  ⟨stampSubscriptionPeriod_regular sub hwf.toRegular,
    (stampSubscriptionPeriod_rehomes sub db).home hwf.home⟩

theorem eraseSubject_regular {subjectType : String} {subject : Option UserId}
    (h : eraseSubject subjectType subject db = some db') (hs : db.Regular) : db'.Regular := by
  obtain ⟨hrehomes, -, user, hwallets⟩ := eraseSubject_cases h
  refine hrehomes.regular hs (fun k wallet' hk => ?_) fun k hk => ?_
  · rw [hwallets, Table.get?_update] at hk
    obtain ⟨wallet, hget, rfl⟩ := Option.map_eq_some_iff.mp hk
    refine ⟨wallet, hget, ?_⟩
    split
    · exact ⟨rfl, rfl, fun _ => rfl⟩
    · exact ⟨rfl, rfl, id⟩
  · obtain ⟨wallet, hget⟩ := hk
    unfold Db.HasWallet
    rw [hwallets, Table.get?_update, hget]
    exact ⟨_, rfl⟩

theorem eraseSubject_wellformed {subjectType : String} {subject : Option UserId}
    (h : eraseSubject subjectType subject db = some db') (hwf : db.Wellformed) :
    db'.Wellformed :=
  ⟨eraseSubject_regular h hwf.toRegular, (eraseSubject_cases h).1.home hwf.home⟩

end StapelBilling
