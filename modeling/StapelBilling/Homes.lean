import StapelBilling.Balance

/-! # Rows at home

A lot lives on the wallet of the ledger row that granted it, and an allocation draws
on a lot of its hold's wallet.  While that is so, an operation on one wallet stays on
that wallet: the lots and the caches of all others are beside it.
-/
namespace StapelBilling
open Store

variable {env : Env} {w : ℕ} {db db' : Db}

/-! ## Beside a wallet -/

/-- `db'` is `db` as far as wallet `v` and its lots go. -/
structure Db.SameFor (v : ℕ) (db db' : Db) : Prop where
  lots : ∀ k lot, lot.wallet = v → (db.lots.get? k = some lot ↔ db'.lots.get? k = some lot)
  wallet : db'.wallets.get? v = db.wallets.get? v

namespace Db.SameFor
variable {db₁ db₂ db₃ : Db} {v : ℕ}

theorem trans (h : db₁.SameFor v db₂) (h' : db₂.SameFor v db₃) : db₁.SameFor v db₃ where
  lots := fun k lot hw => (h.lots k lot hw).trans (h'.lots k lot hw)
  wallet := h'.wallet.trans h.wallet

/-- An aggregate over the wallet's lots is what it was. -/
theorem sum_lots (h : db.SameFor v db') (g : CreditLot → ℤ) :
    (db'.lots.sum fun _ lot => if lot.wallet = v then g lot else 0) =
      db.lots.sum fun _ lot => if lot.wallet = v then g lot else 0 :=
  (Table.sum_congr_on (fun lot : CreditLot => lot.wallet = v) (fun _ => g)
    fun k lot hlot => h.lots k lot hlot).symm

theorem lotsOf (h : db.SameFor v db') : db'.lotsOf v = db.lotsOf v :=
  h.sum_lots CreditLot.creditsRemaining

theorem noDue {now : Time} (h : db.SameFor v db') : db'.NoDue v now ↔ db.NoDue v now := by
  constructor
  · intro hd k lot hk hw
    exact hd k lot ((h.lots k lot hw).mp hk) hw
  · intro hd k lot hk hw
    exact hd k lot ((h.lots k lot hw).mpr hk) hw

theorem synced (h : db.SameFor v db') (hs : db.Synced v) : db'.Synced v := by
  intro wallet hk
  rw [h.wallet] at hk
  rw [hs wallet hk, h.lotsOf]

theorem cached {now : Time} (h : db.SameFor v db') (hc : db.Cached v now) : db'.Cached v now :=
  fun hd => h.synced (hc (h.noDue.mp hd))

end Db.SameFor

/-- `db'` is `db` as far as wallets other than `w` and their lots go. -/
structure Db.Beside (w : ℕ) (db db' : Db) : Prop where
  lots : ∀ k lot, lot.wallet ≠ w → (db.lots.get? k = some lot ↔ db'.lots.get? k = some lot)
  wallets : ∀ k, k ≠ w → db'.wallets.get? k = db.wallets.get? k

namespace Db.Beside
variable {db₁ db₂ db₃ : Db} {v : ℕ}

theorem refl (w : ℕ) (db : Db) : db.Beside w db := ⟨fun _ _ _ => Iff.rfl, fun _ _ => rfl⟩

theorem trans (h : db₁.Beside w db₂) (h' : db₂.Beside w db₃) : db₁.Beside w db₃ where
  lots := fun k lot hw => (h.lots k lot hw).trans (h'.lots k lot hw)
  wallets := fun k hk => (h'.wallets k hk).trans (h.wallets k hk)

/-- What touches neither lots nor wallets is beside every wallet. -/
theorem of_eq (hlots : db'.lots = db.lots) (hwallets : db'.wallets = db.wallets) :
    db.Beside w db' :=
  ⟨fun k lot _ => by rw [hlots], fun k _ => by rw [hwallets]⟩

theorem sameFor (h : db.Beside w db') (hv : v ≠ w) : db.SameFor v db' :=
  ⟨fun k lot hw => h.lots k lot (hw ▸ hv), h.wallets v hv⟩

end Db.Beside

/-! ### One write -/

theorem lots_modify_iff {lots : Table CreditLot} {j : ℕ} {f : CreditLot → CreditLot}
    (hf : ∀ lot, (f lot).wallet = lot.wallet) (hj : ∀ lot, lots.get? j = some lot → lot.wallet = w)
    {k : ℕ} {lot : CreditLot} (hw : lot.wallet ≠ w) :
    lots.get? k = some lot ↔ (lots.modify j f).get? k = some lot := by
  rw [Table.get?_modify]
  split
  · rename_i hkj
    subst hkj
    refine iff_of_false (fun h => hw (hj lot h)) fun h => ?_
    obtain ⟨old, hold, rfl⟩ := Option.map_eq_some_iff.mp h
    exact hw ((hf old).trans (hj old hold))
  · exact Iff.rfl

theorem lots_insert_iff {lots : Table CreditLot} {new : CreditLot} (hnew : new.wallet = w)
    {k : ℕ} {lot : CreditLot} (hw : lot.wallet ≠ w) :
    lots.get? k = some lot ↔ (lots.insert new).get? k = some lot := by
  rw [Table.get?_insert]
  split
  · rename_i hk
    subst hk
    rw [Table.get?_next]
    refine iff_of_false (fun h => by cases h) fun h => ?_
    obtain rfl := Option.some.inj h
    exact hw hnew
  · exact Iff.rfl

theorem spendLots_iff {P : CreditLot → Prop} {taken : List (ℕ × ℤ)} (htaken : db.Draws P taken)
    (hP : ∀ k lot, db.lots.get? k = some lot → P lot → lot.wallet = w) {k : ℕ} {lot : CreditLot}
    (hw : lot.wallet ≠ w) :
    db.lots.get? k = some lot ↔ (db.spendLots taken).lots.get? k = some lot := by
  have hdrain : (db.spendLots taken).lots = db.lots.drain CreditLot.spend taken := rfl
  rw [hdrain]
  by_cases hk : k ∈ taken.map Prod.fst
  · obtain ⟨⟨j, n⟩, hmem, rfl⟩ := List.mem_map.mp hk
    obtain ⟨-, old, hold, hold', -⟩ := htaken.lot j n hmem
    rw [Table.get?_drain_of_mem htaken.nodup hmem, hold]
    have hhome := hP j old hold hold'
    refine iff_of_false (fun h => ?_) fun h => ?_
    · obtain rfl := Option.some.inj h
      exact hw hhome
    · obtain rfl := Option.some.inj h
      exact hw hhome
  · rw [Table.get?_drain_of_not_mem hk]

theorem wallets_modify_other {wallets : Table Wallet} {f : Wallet → Wallet} {k : ℕ} (hk : k ≠ w) :
    (wallets.modify w f).get? k = wallets.get? k :=
  Table.get?_modify_of_ne _ _ hk

variable (env w db) in
theorem swept_beside : db.Beside w (db.swept env w) where
  lots := by
    intro k lot hw
    rw [swept_lot, Option.map_eq_some_iff]
    constructor
    · intro h
      exact ⟨lot, h, if_neg fun hdue => hw hdue.1⟩
    · rintro ⟨old, hold, rfl⟩
      rw [CreditLot.sweptAt_wallet] at hw
      rw [CreditLot.sweptAt, if_neg fun hdue => hw hdue.1]
      exact hold
  wallets := by
    intro k hk
    refine Moves.invariant (I := fun db' => db'.wallets.get? k = db.wallets.get? k) ?_
      (expireDueLots_moves env w (P := Move.IsSweep) trivial (fun _ => trivial) db) rfl
    rintro m db₁ db₂ hm hI hs
    cases hs with
    | sync => exact (wallets_modify_other hk).trans hI
    | expire _ _ _ => exact hI
    | _ => exact hm.elim

/-! ### One move -/

/-- A move on wallet `w` leaves every other wallet's row alone. -/
theorem Step.wallet_other {m : Move} (h : Step env w m db db') {k : ℕ} (hk : k ≠ w) :
    db'.wallets.get? k = db.wallets.get? k := by
  cases h with
  | openWallet hw _ => exact Table.get?_insert_of_ne _ (hw ▸ hk)
  | sync | grant _ _ | collect _ _ _ _ _ _ _ | bill _ _ _ _ | waive _ _ _ _ =>
    exact wallets_modify_other hk
  | expire _ _ _ | refund _ _ _ _ _ _ | overdraw _ _ _ _ | settle _ _ _ _ | cancel | mark => rfl
  | meter => rw [meterOnlyDebit_wallets]
  | charge _ _ _ =>
    rw [chargeDebit_wallets]
    exact wallets_modify_other hk
  | arm _ _ _ _ =>
    rw [armHold_wallets]
    rfl
  | clawback hw _ =>
    subst hw
    rw [bookClawback_wallets]
    exact wallets_modify_other hk
  | @restore _ j grant givenBack eventId hpos =>
    have hsweep := (swept_beside env w
      { db with lots := db.lots.insert (restoredLot env w grant givenBack db) }).wallets k hk
    exact (wallets_modify_other hk).trans hsweep

theorem Moves.wallet_other {P : Move → Prop} (h : Moves env w P db db') {k : ℕ} (hk : k ≠ w) :
    db'.wallets.get? k = db.wallets.get? k :=
  Moves.invariant (I := fun db' => db'.wallets.get? k = db.wallets.get? k)
    (fun _ _ _ _ hI hs => (hs.wallet_other hk).trans hI) h rfl

/-- Does the move take back no lots but those of wallet `w`? -/
def Move.TakesHome (w : ℕ) (db : Db) : Move → Prop
  | .clawback g _ _ _ _ _ => ∀ k lot, db.lots.get? k = some lot →
      lot.grantingTransaction = some g → lot.wallet = w
  | _ => True

/-- **A move on wallet `w` is beside every other wallet.** -/
theorem Step.beside {m : Move} (h : Step env w m db db') (hm : m.TakesHome w db) :
    db.Beside w db' := by
  refine ⟨fun k lot hw => ?_, fun k hk => h.wallet_other hk⟩
  have hspendable : ∀ k lot, db.lots.get? k = some lot → Spendable w env.now lot → lot.wallet = w :=
    fun _ _ _ hP => hP.1
  cases h with
  | openWallet _ _ | sync | bill _ _ _ _ | waive _ _ _ _ | settle _ _ _ _ | cancel | mark =>
    exact Iff.rfl
  | @expire _ j old running hlot hwallet hdue =>
    refine lots_modify_iff (f := CreditLot.zero) (fun _ => rfl) (fun lot' hj => ?_) hw
    obtain rfl := Option.some.inj (hlot.symm.trans hj)
    exact hwallet
  | grant _ _ => exact lots_insert_iff rfl hw
  | collect _ _ _ _ _ htaken _ => exact spendLots_iff htaken hspendable hw
  | meter => rw [meterOnlyDebit_lots]
  | charge _ htaken _ =>
    rw [chargeDebit_lots]
    exact spendLots_iff htaken hspendable hw
  | arm _ _ htaken _ =>
    rw [armHold_lots]
    exact spendLots_iff htaken hspendable hw
  | refund _ _ _ _ _ _ => exact lots_insert_iff rfl hw
  | overdraw _ _ _ htaken => exact spendLots_iff htaken hspendable hw
  | clawback _ htaken =>
    rw [bookClawback_lots]
    exact spendLots_iff htaken hm hw
  | @restore _ j grant givenBack eventId hpos =>
    have hinsert : db.lots.get? k = some lot ↔
        (db.lots.insert (restoredLot env w grant givenBack db)).get? k = some lot :=
      lots_insert_iff rfl hw
    exact hinsert.trans ((swept_beside env w
      { db with lots := db.lots.insert (restoredLot env w grant givenBack db) }).lots k lot hw)

/-! ## At home -/

/-- The ledger row `g` is one of wallet `w`. -/
def Db.RowOn (db : Db) (g w : ℕ) : Prop := ∃ row, db.transactions.get? g = some row ∧ row.wallet = w

/-- The lot `k` is one of wallet `w`. -/
def Db.LotOn (db : Db) (k w : ℕ) : Prop := ∃ lot, db.lots.get? k = some lot ∧ lot.wallet = w

/-- **Rows are at home**: a lot is on the wallet of its grant, an allocation draws on a
lot of its hold's wallet. -/
structure Db.Home (db : Db) : Prop where
  grants : ∀ k lot, db.lots.get? k = some lot → ∀ g ∈ lot.grantingTransaction,
    db.RowOn g lot.wallet
  allocations : ∀ h held, db.holds.get? h = some held → ∀ a alloc,
    held.allocations.get? a = some alloc → db.LotOn alloc.lot held.wallet

theorem Db.Home.empty : Db.empty.Home :=
  ⟨fun _ _ => Table.get?_empty_ne, fun _ _ => Table.get?_empty_ne⟩

theorem Db.Grows.rowOn (h : db.Grows w db') {g v : ℕ} (hg : db.RowOn g v) : db'.RowOn g v := by
  obtain ⟨row, hget, rfl⟩ := hg
  obtain ⟨row', hget', hsame⟩ := h.transactions.kept g row hget
  exact ⟨row', hget', hsame.wallet⟩

theorem Db.Grows.lotOn (h : db.Grows w db') {k v : ℕ} (hk : db.LotOn k v) : db'.LotOn k v := by
  obtain ⟨lot, hget, rfl⟩ := hk
  obtain ⟨lot', hget', hsame⟩ := h.lots.kept k lot hget
  exact ⟨lot', hget', hsame.wallet⟩

theorem CreditLot.Same.grant {a b : CreditLot} (h : a.Same b) :
    b.grantingTransaction = a.grantingTransaction := by rw [h]

/-- Growth keeps rows at home, when the lots and the allocations it adds are. -/
theorem Db.Home.grows (hh : db.Home) (hg : db.Grows w db')
    (hlots : ∀ k lot, db'.lots.get? k = some lot → db.lots.next ≤ k →
      ∀ g ∈ lot.grantingTransaction, db'.RowOn g lot.wallet)
    (hholds : ∀ h held, db'.holds.get? h = some held → ∀ a alloc,
      held.allocations.get? a = some alloc → db.LotOn alloc.lot held.wallet) : db'.Home where
  grants := by
    intro k lot hk g hgrant
    rcases hg.lots.origin k lot hk with ⟨old, hold, hsame⟩ | ⟨hnext, -⟩
    · rw [hsame.grant] at hgrant
      rw [hsame.wallet]
      exact hg.rowOn (hh.grants k old hold g hgrant)
    · exact hlots k lot hk hnext g hgrant
  allocations := fun h held hk a alloc ha => hg.lotOn (hholds h held hk a alloc ha)

theorem no_new_lots (hnext : db'.lots.next = db.lots.next) {P : ℕ → CreditLot → Prop} :
    ∀ k lot, db'.lots.get? k = some lot → db.lots.next ≤ k → P k lot := by
  intro k lot hk hle
  have hlt := Table.get?_lt_next hk
  omega

/-- Allocations drawn now are on the drawn lots' wallet. -/
theorem Db.Draws.lotOn {taken : List (ℕ × ℤ)} (htaken : db.Draws (Spendable w env.now) taken)
    {k : ℕ} {n : ℤ} (hmem : (k, n) ∈ taken) : db.LotOn k w := by
  obtain ⟨-, lot, hlot, hP, -⟩ := htaken.lot k n hmem
  exact ⟨lot, hlot, hP.1⟩

/-- Does the move bring credits back to no grant but one of wallet `w`? -/
def Move.GivesHome (w : ℕ) (db : Db) : Move → Prop
  | .restore origin _ => ∀ g ∈ origin, db.RowOn g w
  | _ => True

theorem expireDueLots_lots_next (d : Db) : (expireDueLots env w d).2.lots.next = d.lots.next := by
  refine Moves.invariant (I := fun d' => d'.lots.next = d.lots.next) ?_
    (expireDueLots_moves env w (P := Move.IsSweep) trivial (fun _ => trivial) d) rfl
  rintro m db₁ db₂ hm hI hs
  cases hs with
  | sync => exact hI
  | expire _ _ _ => exact hI
  | _ => exact hm.elim

/-- **A move keeps rows at home.** -/
theorem Step.home {m : Move} (h : Step env w m db db') (hm : m.GivesHome w db) (hh : db.Home) :
    db'.Home := by
  have hgrows := h.grows
  -- edits of a hold keep the lots its allocations name
  have hkept : ∀ {h : ℕ} {f : CreditHold → CreditHold},
      (∀ held, (f held).wallet = held.wallet ∧ ∀ a alloc, (f held).allocations.get? a = some alloc →
        ∃ b old, held.allocations.get? b = some old ∧ alloc.lot = old.lot) →
      ∀ k held, (db.holds.modify h f).get? k = some held → ∀ a alloc,
        held.allocations.get? a = some alloc → db.LotOn alloc.lot held.wallet := by
    intro h f hf k held hk a alloc ha
    rw [Table.get?_modify] at hk
    split at hk
    · obtain ⟨old, hold, rfl⟩ := Option.map_eq_some_iff.mp hk
      obtain ⟨b, old', hb, hlot⟩ := (hf old).2 a alloc ha
      rw [hlot, (hf old).1]
      exact hh.allocations k old hold b old' hb
    · exact hh.allocations k held hk a alloc ha
  cases h with
  | openWallet _ _ | sync | cancel => exact hh.grows hgrows (no_new_lots rfl) hh.allocations
  | expire _ _ _ | mark => exact hh.grows hgrows (no_new_lots rfl) hh.allocations
  | @grant _ args hpos halive =>
    refine hh.grows hgrows (fun k lot hk hle g hg => ?_) hh.allocations
    have hk' := (Table.get?_insert _ _ _).symm.trans hk
    split at hk'
    · obtain rfl := Option.some.inj hk'
      obtain rfl := Option.some.inj hg
      exact ⟨_, Table.get?_insert_next _ _, rfl⟩
    · exact absurd (Table.get?_lt_next hk') (Nat.not_lt.mpr hle)
  | collect _ _ _ _ _ _ _ =>
    exact hh.grows hgrows (no_new_lots (Table.next_drain _ _ _)) hh.allocations
  | @meter _ args =>
    refine hh.grows hgrows (no_new_lots (by rw [meterOnlyDebit_lots])) ?_
    intro h held hk
    refine hh.allocations h held (Eq.trans ?_ hk)
    unfold meterOnlyDebit
    dsimp only
    split <;> rfl
  | @charge _ args chargeable taken _ _ _ =>
    refine hh.grows hgrows (no_new_lots (by rw [chargeDebit_lots]; exact Table.next_drain _ _ _)) ?_
    intro h held hk
    refine hh.allocations h held (Eq.trans ?_ hk)
    unfold chargeDebit
    dsimp only
    split <;> split <;> rfl
  | @arm _ args credits metadata existing taken hexisting _ htaken _ =>
    have hfresh : ∀ a alloc, (appendAllocations env taken Table.empty).get? a = some alloc →
        db.LotOn alloc.lot w := by
      intro a alloc ha
      rcases appendAllocations_get? ha with hold | hmem
      · exact Table.get?_empty_ne hold
      · exact htaken.lotOn hmem
    refine hh.grows hgrows (no_new_lots (by rw [armHold_lots]; exact Table.next_drain _ _ _)) ?_
    intro j held hj a alloc ha
    cases existing with
    | some k =>
      rw [armHold_holds, Table.get?_modify] at hj
      split at hj
      · rename_i hjk
        obtain ⟨old, hold, rfl⟩ := Option.map_eq_some_iff.mp hj
        -- a hold armed again stays on the wallet it was on
        obtain ⟨old', hold', hwallet, -⟩ := hexisting k rfl
        rw [hjk] at hold
        obtain rfl := Option.some.inj (hold'.symm.trans hold)
        rw [hwallet]
        exact hfresh a alloc ha
      · exact hh.allocations j held hj a alloc ha
    | none =>
      have hj' := (Table.get?_insert _ _ _).symm.trans hj
      split at hj'
      · obtain rfl := Option.some.inj hj'
        exact hfresh a alloc ha
      · exact hh.allocations j held hj' a alloc ha
  | @refund _ h a held alloc amount hheld hw hstatus halloc hpos hle =>
    refine hh.grows hgrows (fun k lot hk hnext g hg => ?_) ?_
    · have hk' := (Table.get?_insert _ _ _).symm.trans hk
      split at hk'
      · -- The lot that comes back has the grant of the lot it was taken from.
        obtain rfl := Option.some.inj hk'
        obtain ⟨source, hsource, hg'⟩ := Option.bind_eq_some_iff.mp hg
        obtain ⟨source', hsource', hwallet⟩ := hh.allocations h held hheld a alloc halloc
        obtain rfl := Option.some.inj (hsource'.symm.trans hsource)
        have hrow := hh.grants alloc.lot _ hsource' g hg'
        rw [hwallet, hw] at hrow
        exact hgrows.rowOn hrow
      · exact absurd (Table.get?_lt_next hk') (Nat.not_lt.mpr hnext)
    · rw [refundAllocation_holds]
      refine hkept fun held => ⟨rfl, fun b alloc' hb => ?_⟩
      dsimp only at hb
      rw [Table.get?_modify] at hb
      split at hb
      · obtain ⟨old, hold, rfl⟩ := Option.map_eq_some_iff.mp hb
        exact ⟨b, old, hold, rfl⟩
      · exact ⟨b, alloc', hb, rfl⟩
  | @overdraw _ h held taken hheld hw hstatus htaken =>
    refine hh.grows hgrows (no_new_lots (Table.next_drain _ _ _)) ?_
    intro j held' hj a alloc ha
    rw [allocateMore_holds, Table.get?_modify] at hj
    split at hj
    · rename_i hjh
      obtain ⟨old, hold, rfl⟩ := Option.map_eq_some_iff.mp hj
      have hold' : db.holds.get? j = some old := hold
      rw [hjh] at hold'
      obtain rfl := Option.some.inj (hheld.symm.trans hold')
      rcases appendAllocations_get? ha with hmem | hmem
      · exact hh.allocations h held hheld a alloc hmem
      · show db.LotOn alloc.lot held.wallet
        rw [hw]
        exact htaken.lotOn hmem
    · exact hh.allocations j held' hj a alloc ha
  | bill _ _ _ _ =>
    refine hh.grows hgrows (no_new_lots rfl) ?_
    rw [billHold_holds]
    exact hkept fun held => ⟨rfl, fun b alloc hb => ⟨b, alloc, hb, rfl⟩⟩
  | waive _ _ _ _ =>
    refine hh.grows hgrows (no_new_lots rfl) ?_
    rw [meterOnlyCapture_holds]
    exact hkept fun held => ⟨rfl, fun b alloc hb => ⟨b, alloc, hb, rfl⟩⟩
  | settle _ _ _ _ =>
    refine hh.grows hgrows (no_new_lots rfl) ?_
    rw [settleHold_holds]
    exact hkept fun held => ⟨rfl, fun b alloc hb => ⟨b, alloc, hb, rfl⟩⟩
  | @clawback _ grant txn requested forgiven description metadata taken hw htaken =>
    refine hh.grows hgrows
      (no_new_lots (by rw [bookClawback_lots]; exact Table.next_drain _ _ _)) ?_
    intro h held hk
    refine hh.allocations h held (Eq.trans ?_ hk)
    unfold bookClawback
    dsimp only
    split <;> rfl
  | @restore _ k grant givenBack eventId hpos =>
    refine hh.grows hgrows (fun j lot hj hle g hg => ?_) ?_
    · have hj' : (Db.swept { db with lots := db.lots.insert (restoredLot env w grant givenBack db) }
          env w).lots.get? j = some lot := hj
      rw [swept_lot] at hj'
      obtain ⟨old, hold, rfl⟩ := Option.map_eq_some_iff.mp hj'
      have hold' : (db.lots.insert (restoredLot env w grant givenBack db)).get? j = some old := hold
      rw [CreditLot.sweptAt_wallet]
      rw [CreditLot.sweptAt_grant] at hg
      rw [Table.get?_insert] at hold'
      split at hold'
      · obtain rfl := Option.some.inj hold'
        exact hgrows.rowOn (hm g hg)
      · exact absurd (Table.get?_lt_next hold') (Nat.not_lt.mpr hle)
    · intro h held hk
      refine hh.allocations h held (Eq.trans ?_ hk)
      show db.holds.get? h = (expireDueLots env w _).2.holds.get? h
      rw [(expireDueLots_frame _).1]

end StapelBilling
