import StapelBilling.Conservation
import StapelBilling.Sweeps

/-! # The cached balance

`Wallet.balance` caches the lots.  A refresh makes it the sum of the live ones, which
is the sum of all of them once no lot is due.  A few operations refresh ahead of the
sweep, so the cache is exact only while no sweep is pending; that much survives every
operation.  An operation on one wallet leaves the lots and the cache of the others
alone.
-/
namespace StapelBilling
open Store

variable {env : Env} {w : ℕ} {db db' : Db}

/-! ## Lots by themselves -/

/-- A property of lots that spending, emptying and depositing keep. -/
structure LotProperty (Q : CreditLot → Prop) : Prop where
  spend : ∀ lot n, Q lot → 0 < n → n ≤ lot.creditsRemaining → Q (lot.spend n)
  zero : ∀ lot, Q lot → Q lot.zero
  deposit : ∀ lot : CreditLot, 0 < lot.creditsRemaining →
    lot.creditsInitial = lot.creditsRemaining → Q lot

/-- Every lot has the property. -/
def Db.Lots (Q : CreditLot → Prop) (db : Db) : Prop := ∀ k lot, db.lots.get? k = some lot → Q lot

section LotProperties
variable {Q : CreditLot → Prop}

theorem LotProperty.spendLots (hQ : LotProperty Q) {P : CreditLot → Prop} {taken : List (ℕ × ℤ)}
    (htaken : db.Draws P taken) (h : db.Lots Q) : (db.spendLots taken).Lots Q := by
  intro k lot hk
  obtain ⟨old, hold, rfl | ⟨n, hmem, rfl⟩⟩ := Table.get?_drain htaken.nodup hk
  · exact h k lot hold
  · obtain ⟨hpos, lot, hlot, -, hn⟩ := htaken.lot k n hmem
    obtain rfl := Option.some.inj (hold.symm.trans hlot)
    exact hQ.spend old n (h k old hold) hpos hn

theorem LotProperty.insert (hQ : LotProperty Q) {lots : Table CreditLot} (new : CreditLot)
    (hpos : 0 < new.creditsRemaining) (hnew : new.creditsInitial = new.creditsRemaining)
    (h : ∀ k lot, lots.get? k = some lot → Q lot) {k : ℕ} {lot : CreditLot}
    (hk : (lots.insert new).get? k = some lot) : Q lot := by
  rw [Table.get?_insert] at hk
  split at hk
  · obtain rfl := Option.some.inj hk
    exact hQ.deposit new hpos hnew
  · exact h k lot hk

theorem LotProperty.empty (hQ : LotProperty Q) {lots : Table CreditLot} {j : ℕ}
    (h : ∀ k lot, lots.get? k = some lot → Q lot) {k : ℕ} {lot : CreditLot}
    (hk : (lots.modify j CreditLot.zero).get? k = some lot) : Q lot := by
  rw [Table.get?_modify] at hk
  split at hk
  · obtain ⟨old, hold, rfl⟩ := Option.map_eq_some_iff.mp hk
    exact hQ.zero old (h k old hold)
  · exact h k lot hk

theorem LotProperty.swept (hQ : LotProperty Q) (h : db.Lots Q) : (db.swept env w).Lots Q := by
  intro k lot hk
  rw [swept_lot] at hk
  obtain ⟨old, hold, rfl⟩ := Option.map_eq_some_iff.mp hk
  unfold CreditLot.sweptAt
  split
  · exact hQ.zero old (h k old hold)
  · exact h k old hold

/-- **A move keeps every property of lots** that spending, emptying and depositing
keep. -/
theorem Step.lots_forall {m : Move} (hQ : LotProperty Q) (h : Step env w m db db')
    (hl : db.Lots Q) : db'.Lots Q := by
  cases h with
  | openWallet _ _ | sync | bill _ _ _ _ | waive _ _ _ _ | settle _ _ _ _ | cancel | mark => exact hl
  | expire _ _ _ => exact fun k lot hk => hQ.empty hl hk
  | grant hpos _ => exact fun k lot hk => hQ.insert (grantLot env w _ db) hpos rfl hl hk
  | collect _ _ _ _ _ htaken _ => exact hQ.spendLots htaken hl
  | meter =>
    unfold Db.Lots
    rw [meterOnlyDebit_lots]
    exact hl
  | charge _ htaken _ =>
    unfold Db.Lots
    rw [chargeDebit_lots]
    exact hQ.spendLots htaken hl
  | arm _ _ htaken _ =>
    unfold Db.Lots
    rw [armHold_lots]
    exact hQ.spendLots htaken hl
  | refund _ _ _ _ hpos _ => exact fun k lot hk => hQ.insert _ hpos rfl hl hk
  | overdraw _ _ _ htaken => exact hQ.spendLots htaken hl
  | clawback _ htaken =>
    unfold Db.Lots
    rw [bookClawback_lots]
    exact hQ.spendLots htaken hl
  | restore hpos => exact hQ.swept fun k lot hk => hQ.insert _ hpos rfl hl hk

theorem Moves.lots_forall {P : Move → Prop} (hQ : LotProperty Q) (h : Moves env w P db db')
    (hl : db.Lots Q) : db'.Lots Q :=
  Moves.invariant (I := Db.Lots Q) (fun _ _ _ _ hI hs => hs.lots_forall hQ hI) h hl

end LotProperties

/-- No lot holds less than nothing. -/
def Db.LotsNonneg (db : Db) : Prop := db.Lots fun lot => 0 ≤ lot.creditsRemaining

theorem nonneg_lotProperty : LotProperty fun lot => 0 ≤ lot.creditsRemaining where
  spend := by
    intro lot n _ _ hle
    show 0 ≤ lot.creditsRemaining - n
    omega
  zero := fun _ _ => le_rfl
  deposit := fun _ hpos _ => hpos.le

theorem Moves.lotsNonneg {P : Move → Prop} (h : Moves env w P db db') (hn : db.LotsNonneg) :
    db'.LotsNonneg :=
  h.lots_forall nonneg_lotProperty hn

/-! ## The cache -/

/-- The cache of wallet `w` is what its lots hold. -/
def Db.Synced (w : ℕ) (db : Db) : Prop :=
  ∀ wallet, db.wallets.get? w = some wallet → wallet.balance = db.lotsOf w

/-- The cache of wallet `w` is what its live lots hold. -/
def Db.Fresh (w : ℕ) (now : Time) (db : Db) : Prop :=
  ∀ wallet, db.wallets.get? w = some wallet → wallet.balance = db.liveBalance w now

/-- The cache of wallet `w` is exact unless a sweep is pending. -/
def Db.Cached (w : ℕ) (now : Time) (db : Db) : Prop := db.NoDue w now → db.Synced w

/-- Wallet `w` is swept and its cache refreshed. -/
structure Db.Swept (w : ℕ) (now : Time) (db : Db) : Prop where
  noDue : db.NoDue w now
  fresh : db.Fresh w now

/-- **Without due lots the live lots are the lots that hold anything.** -/
theorem liveBalance_eq_lotsOf {now : Time} (hn : db.LotsNonneg) (hd : db.NoDue w now) :
    db.liveBalance w now = db.lotsOf w := by
  refine Table.sum_congr fun k lot hk => ?_
  by_cases hw : lot.wallet = w
  · rw [if_pos hw]
    by_cases hlive : lot.Live now
    · rw [if_pos ⟨hw, hlive⟩]
    · rw [if_neg fun h => hlive h.2]
      have hnonneg : 0 ≤ lot.creditsRemaining := hn k lot hk
      by_contra hne
      have hpos : 0 < lot.creditsRemaining := by omega
      have hdue : lot.Due now := ⟨hpos, not_aliveAt_iff.mp fun ha => hlive ⟨hpos, ha⟩⟩
      exact hd k lot hk hw hdue
  · rw [if_neg hw, if_neg fun h => hw h.1]

theorem Db.Swept.synced {now : Time} (h : db.Swept w now) (hn : db.LotsNonneg) : db.Synced w :=
  fun wallet hk => (h.fresh wallet hk).trans (liveBalance_eq_lotsOf hn h.noDue)

theorem Db.Fresh.cached {now : Time} (h : db.Fresh w now) (hn : db.LotsNonneg) : db.Cached w now :=
  fun hd => Db.Swept.synced ⟨hd, h⟩ hn

theorem Db.Synced.cached {now : Time} (h : db.Synced w) : db.Cached w now := fun _ => h

theorem Db.NoDue.earlier {now later : Time} (hle : now ≤ later) (h : db.NoDue w later) :
    db.NoDue w now := by
  intro k lot hk hw hdue
  exact h k lot hk hw ⟨hdue.1, dueAt_of_le hle hdue.2⟩

/-- A pending sweep stays pending. -/
theorem Db.Cached.later {now later : Time} (hle : now ≤ later) (h : db.Cached w now) :
    db.Cached w later :=
  fun hd => h (hd.earlier hle)

theorem liveBalance_congr (hlots : db'.lots = db.lots) (w : ℕ) (now : Time) :
    db'.liveBalance w now = db.liveBalance w now := by
  rw [Db.liveBalance, hlots, Db.liveBalance]

/-- What neither the lots nor the wallet see keeps the cache. -/
theorem Db.Fresh.congr {now : Time} (h : db.Fresh w now) (hlots : db'.lots = db.lots)
    (hwallets : db'.wallets = db.wallets) : db'.Fresh w now := by
  intro wallet hk
  rw [hwallets] at hk
  rw [h wallet hk, liveBalance_congr hlots]

theorem Db.NoDue.congr {now : Time} (h : db.NoDue w now) (hlots : db'.lots = db.lots) :
    db'.NoDue w now := by
  intro k lot hk
  rw [hlots] at hk
  exact h k lot hk

theorem Db.Cached.congr {now : Time} (h : db.Cached w now) (hlots : db'.lots = db.lots)
    (hwallets : db'.wallets = db.wallets) : db'.Cached w now := by
  intro hd wallet hk
  rw [hwallets] at hk
  rw [h (hd.congr hlots.symm) wallet hk, Db.lotsOf, Db.lotsOf, hlots]

theorem Db.Swept.congr {now : Time} (h : db.Swept w now) (hlots : db'.lots = db.lots)
    (hwallets : db'.wallets = db.wallets) : db'.Swept w now :=
  ⟨h.noDue.congr hlots, h.fresh.congr hlots hwallets⟩

variable (w) in
/-- A refresh refreshes. -/
theorem fresh_of_sync {d : Db} {now : Time} (hlots : db'.lots = d.lots)
    (hwallets : db'.wallets = (d.syncBalance w now).wallets) : db'.Fresh w now := by
  intro wallet hk
  rw [hwallets, syncBalance_wallets, Table.get?_modify_self] at hk
  obtain ⟨old, -, rfl⟩ := Option.map_eq_some_iff.mp hk
  rw [liveBalance_congr hlots]

variable (w) in
theorem fresh_sync (d : Db) (now : Time) : (d.syncBalance w now).Fresh w now :=
  fresh_of_sync w (d := d) rfl rfl

/-! ## One move -/

/-- Does the move refresh the cache? -/
def Move.Refreshes : Move → Prop
  | .sync | .grant _ | .collect _ _ _ _ | .charge _ _ _ | .bill _ _ | .waive _ _
  | .clawback _ _ _ _ _ _ | .restore _ _ => True
  | _ => False

/-- **A move that refreshes leaves a fresh cache.** -/
theorem Step.fresh {m : Move} (h : Step env w m db db') (hm : m.Refreshes) :
    db'.Fresh w env.now := by
  cases h with
  | sync => exact fresh_sync w db _
  | @grant _ args _ _ =>
    exact fresh_of_sync w (d := { db with lots := db.lots.insert (grantLot env w args db) }) rfl rfl
  | collect _ _ _ _ _ _ _ => exact fresh_of_sync w (d := db.spendLots _) rfl rfl
  | charge _ _ _ =>
    exact fresh_of_sync w (d := db.spendLots _) (chargeDebit_lots _ _ _ _ _ _)
      (chargeDebit_wallets _ _ _ _ _ _)
  | bill _ _ _ _ => exact fresh_of_sync w (d := db) rfl rfl
  | waive _ _ _ _ => exact fresh_of_sync w (d := db) rfl rfl
  | clawback hw _ =>
    subst hw
    exact fresh_of_sync _ (d := db.spendLots _) (bookClawback_lots _ _ _ _ _ _ _ _ _ _)
      (bookClawback_wallets _ _ _ _ _ _ _ _ _ _)
  | @restore _ k grant givenBack eventId hpos =>
    exact fresh_of_sync w (d := (expireDueLots env w
      { db with lots := db.lots.insert (restoredLot env w grant givenBack db) }).2) rfl rfl
  | _ => exact hm.elim

/-- Does the move hand credits back, as a lot that may already be dead? -/
def Move.IsRefund : Move → Prop
  | .refund _ => True
  | _ => False

/-- **Only a refund brings back a due lot.** -/
theorem Step.noDue {m : Move} (h : Step env w m db db') (hm : ¬ m.IsRefund)
    (hd : db.NoDue w env.now) : db'.NoDue w env.now := by
  cases h with
  | openWallet _ _ | sync | bill _ _ _ _ | waive _ _ _ _ | settle _ _ _ _ | cancel | mark => exact hd
  | expire _ _ _ =>
    intro k lot hk hw hdue
    have hk' := (Table.get?_modify _ _ _ _).symm.trans hk
    split at hk'
    · obtain ⟨old, -, rfl⟩ := Option.map_eq_some_iff.mp hk'
      exact lt_irrefl 0 hdue.1
    · exact hd k lot hk' hw hdue
  | grant _ halive =>
    intro k lot hk hw hdue
    have hk' := (Table.get?_insert _ _ _).symm.trans hk
    split at hk'
    · obtain rfl := Option.some.inj hk'
      exact halive hdue.2
    · exact hd k lot hk' hw hdue
  | collect _ _ _ _ _ htaken _ => exact hd.spendLots htaken
  | meter => exact hd.congr (meterOnlyDebit_lots _ _ _ _)
  | charge _ htaken _ => exact (hd.spendLots htaken).congr (chargeDebit_lots _ _ _ _ _ _)
  | arm _ _ htaken _ => exact (hd.spendLots htaken).congr (armHold_lots _ _ _ _ _ _ _ _)
  | refund _ _ _ _ _ _ => exact absurd trivial hm
  | overdraw _ _ _ htaken => exact hd.spendLots htaken
  | clawback _ htaken =>
    exact (hd.spendLots htaken).congr (bookClawback_lots _ _ _ _ _ _ _ _ _ _)
  | restore _ => exact swept_noDue env w _

/-- A move that refreshes keeps a swept wallet swept. -/
theorem Step.swept {m : Move} (h : Step env w m db db') (hm : m.Refreshes)
    (hd : db.NoDue w env.now) : db'.Swept w env.now := by
  refine ⟨h.noDue ?_ hd, h.fresh hm⟩
  intro hr
  cases m <;> first | exact hr.elim | exact hm.elim

/-- **A sweep makes the cache exact**, when it was exact unless a sweep was pending. -/
theorem swept_synced (hn : db.LotsNonneg) (hc : db.Cached w env.now) :
    (db.swept env w).Synced w := by
  by_cases hd : db.NoDue w env.now
  · rw [swept_of_noDue hd]
    exact hc hd
  · refine Db.Swept.synced ⟨swept_noDue env w db, ?_⟩ (nonneg_lotProperty.swept hn)
    unfold Db.swept expireDueLots
    simp only [dueLots_eq_nil_iff, hd, if_false]
    exact fresh_sync w _ _

/-! ## Operations -/

theorem settleDebts_swept {n : ℤ} (h : settleDebts env w db = .ok (n, db'))
    (hs : db.Swept w env.now) : db'.Swept w env.now := by
  refine Moves.invariant (I := fun db => db.Swept w env.now) ?_
    (settleDebts_ok (P := fun m => m.Refreshes) (fun _ _ _ _ => trivial) h) hs
  exact fun m db₁ db₂ hm hI hstep => hstep.swept hm hI.noDue

theorem credit_swept {args : CreditArgs} {t : ℕ} {db₁ : Db} (hlock : lockWallet args.user db = (w, db₁))
    (h : credit env args db = .ok (t, db')) : db' = db₁ ∨ db'.Swept w env.now := by
  obtain ⟨w', db₂, hlock', hpos, halive, hcase⟩ := credit_cases h
  obtain ⟨rfl, rfl⟩ := Prod.mk.inj (hlock.symm.trans hlock')
  rcases hcase with ⟨row, -, rfl⟩ | ⟨-, -, hcase⟩
  · exact Or.inl rfl
  · have hgrant : (grant env w args (db₁.swept env w)).Swept w env.now :=
      Step.swept (Step.grant hpos halive) trivial (swept_noDue env w db₁)
    rcases hcase with ⟨-, rfl⟩ | ⟨-, n, hsettle⟩
    · exact Or.inr hgrant
    · exact Or.inr (settleDebts_swept hsettle hgrant)

theorem debit_swept {args : DebitArgs} {answer : DebitAnswer} {db₁ : Db}
    (hlock : lockWallet args.user db = (w, db₁)) (h : debit env args db = .ok (answer, db')) :
    db' = db₁ ∨ db'.Swept w env.now ∨
      (db'.lots = (db₁.swept env w).lots ∧ db'.wallets = (db₁.swept env w).wallets) := by
  obtain ⟨w', db₂, hlock', hpos, hcase⟩ := debit_cases h
  obtain ⟨rfl, rfl⟩ := Prod.mk.inj (hlock.symm.trans hlock')
  rcases hcase with ⟨t, row, -, -, rfl⟩ | ⟨-, ⟨-, hmeter⟩ | ⟨-, chargeable, taken, db₂, hchargeable, htake, hcharge⟩⟩
  · exact Or.inl rfl
  · obtain ⟨-, rfl⟩ := Prod.mk.inj hmeter
    exact Or.inr (Or.inr ⟨meterOnlyDebit_lots _ _ _ _, meterOnlyDebit_wallets _ _ _ _⟩)
  · have hnonneg : 0 ≤ chargeable := by
      have hlive := liveBalance_nonneg (db₁.swept env w) w env.now
      rw [hchargeable]
      split <;> omega
    obtain ⟨hdraws, -, rfl⟩ := takeCredits_ok hnonneg htake
    obtain ⟨-, rfl⟩ := Prod.mk.inj hcharge
    refine Or.inr (Or.inl ⟨?_, ?_⟩)
    · exact ((swept_noDue env w db₁).spendLots hdraws).congr (chargeDebit_lots _ _ _ _ _ _)
    · exact fresh_of_sync w (d := (db₁.swept env w).spendLots taken) (chargeDebit_lots _ _ _ _ _ _)
        (chargeDebit_wallets _ _ _ _ _ _)

theorem hold_swept {args : HoldArgs} {k : ℕ} {db₁ : Db} (hlock : lockWallet args.user db = (w, db₁))
    (h : hold env args db = .ok (k, db')) : db' = db₁ ∨ db'.Swept w env.now := by
  obtain ⟨w', db₂, hlock', hpos, -, hcase⟩ := hold_cases h
  obtain ⟨rfl, rfl⟩ := Prod.mk.inj (hlock.symm.trans hlock')
  rcases hcase with ⟨held, -, -, rfl⟩ | ⟨existing, hreserve, -, -⟩
  · exact Or.inl rfl
  · obtain ⟨credits, metadata, taken, db₂, hcredits, htake, -, rfl⟩ := reserve_cases hreserve
    have hnonneg : 0 ≤ credits := by
      rcases hcredits with ⟨rfl, -⟩ | ⟨rfl, -⟩ <;> omega
    obtain ⟨hdraws, -, rfl⟩ := takeCredits_ok hnonneg htake
    have harmed := ((swept_noDue env w db₁).spendLots hdraws).congr
      (armHold_lots env w _ args credits metadata existing taken)
    exact Or.inr ⟨harmed, fresh_sync w _ _⟩

/-- An adjusted hold leaves no due lot. -/
theorem adjustHold_noDue {args : CaptureArgs} {held : CreditHold} {actual : ℤ}
    (h : adjustHold env w held actual args db = .ok db') (hd : db.NoDue w env.now) :
    db'.NoDue w env.now := by
  unfold adjustHold at h
  split at h
  · rename_i hmore
    split at h
    · cases h
    · rename_i taken db₂ hok
      obtain ⟨hdraws, -, rfl⟩ := consumeLots_ok (by omega) hok
      obtain rfl := Except.ok.inj h
      exact hd.spendLots hdraws
  · split at h
    · obtain rfl := Except.ok.inj h
      exact swept_noDue env w _
    · obtain rfl := Except.ok.inj h
      exact hd

theorem captureLocked_swept {args : CaptureArgs} {t : ℕ}
    (h : captureLocked env w args db = .ok (t, db')) : ∃ held, db.holds.get? args.hold = some held ∧
      (db' = db ∧ held.status = .captured ∨
        (held.status = .held ∧ held.metadata.wasWaived = true ∧ db'.lots = db.lots ∧
          db'.Fresh w env.now) ∨
        (held.status = .held ∧ held.metadata.wasWaived = false ∧ db'.Swept w env.now)) := by
  obtain ⟨held, hheld, hcase⟩ := captureLocked_cases h
  refine ⟨held, hheld, ?_⟩
  rcases hcase with ⟨hstatus, rfl, -⟩ | ⟨hstatus, -, ⟨hwaived, hrow⟩ | ⟨hwaived, db₂, hadjust, hrow⟩⟩
  · exact Or.inl ⟨rfl, hstatus⟩
  · obtain ⟨-, rfl⟩ := Prod.mk.inj hrow
    exact Or.inr (Or.inl ⟨hstatus, hwaived, rfl, fresh_of_sync w (d := db) rfl rfl⟩)
  · obtain ⟨-, rfl⟩ := Prod.mk.inj hrow
    refine Or.inr (Or.inr ⟨hstatus, hwaived, ?_, fresh_of_sync w (d := db₂) rfl rfl⟩)
    exact (adjustHold_noDue hadjust (swept_noDue env w db)).congr rfl

theorem releaseHeld_swept {args : ReleaseArgs} {held : CreditHold} :
    (releaseHeld env w held args db).Swept w env.now := by
  unfold releaseHeld
  dsimp only
  refine ⟨Db.NoDue.congr (swept_noDue env w _) rfl, ?_⟩
  exact fresh_of_sync w (d := (expireDueLots env w (refundAllocations env args.hold held
    (held.allocations.sum fun _ alloc => alloc.credits) (expireDueLots env w db).2)).2) rfl rfl

theorem clawBackGrant_swept {grant : ℕ} {txn : Transaction} {credits : Option ℤ}
    {description : Option String} {metadata : Metadata} {r : ClawbackResult}
    (h : clawBackGrant env grant txn credits description metadata db = .ok (r, db')) :
    db'.Swept txn.wallet env.now := by
  obtain ⟨-, requested, taken, forgiven, -, -, -, hdraws, hrow⟩ := clawBackGrant_cases h
  obtain ⟨-, rfl⟩ := Prod.mk.inj hrow
  refine ⟨?_, ?_⟩
  · exact ((swept_noDue env _ db).spendLots hdraws).congr (bookClawback_lots _ _ _ _ _ _ _ _ _ _)
  · exact fresh_of_sync _ (d := (db.swept env txn.wallet).spendLots taken)
      (bookClawback_lots _ _ _ _ _ _ _ _ _ _) (bookClawback_wallets _ _ _ _ _ _ _ _ _ _)

/-- A reversal that gives nothing back sees neither lots nor wallets. -/
theorem reverseClawback_swept {k : ℕ} {row : Transaction} {eventId : Option String} {n : ℤ}
    (h : reverseClawback env k row eventId db = .ok (n, db')) :
    (db'.lots = db.lots ∧ db'.wallets = db.wallets) ∨ db'.Swept row.wallet env.now := by
  obtain ⟨current, -, hcase⟩ := reverseClawback_cases h
  rcases hcase with ⟨-, -, rfl⟩ | ⟨-, grant, reclaimed, debt, requested, -, -, -, -, -, db₁, rfl, hend⟩
  · exact Or.inl ⟨rfl, rfl⟩
  have hclose : (closeDebt env debt eventId db).lots = db.lots ∧
      (closeDebt env debt eventId db).wallets = db.wallets := by
    unfold closeDebt
    split
    · split <;> exact ⟨rfl, rfl⟩
    · exact ⟨rfl, rfl⟩
  rcases hend with ⟨hpos, m, hsettle⟩ | ⟨hpos, rfl⟩
  · refine Or.inr (settleDebts_swept hsettle ?_)
    rw [giveBack, if_pos hpos]
    have hrestored : (restoreCredits env row.wallet k (grant.map Prod.fst) n eventId
        (closeDebt env debt eventId db)).Swept row.wallet env.now :=
      ⟨(swept_noDue env row.wallet _).congr rfl, (Step.restore (w := row.wallet) hpos).fresh trivial⟩
    exact hrestored.congr rfl rfl
  · rw [giveBack, if_neg hpos]
    exact Or.inl hclose

end StapelBilling
