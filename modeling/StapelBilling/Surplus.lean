import StapelBilling.MergeRuns
import StapelBilling.CacheInvariant

/-! # How far the ledger is ahead

The ledger as a whole should add up to what all lots hold and all open holds reserve.  No
operation moves the three sums apart.  A merge does: its row on the survivor books what
arrived, and the rows that arrived with it have booked the same credits before.

* `Db.surplus`: the distance between the ledger and what it has to explain.
* `Step.surplus`: no move changes it.
* `mergeWallets_surplus`: a merge adds what it moved.
-/
namespace StapelBilling
open Store

variable {env : Env} {w merged survivor : ℕ} {db db' : Db}

/-- How far the ledger is ahead of lots and reservations. -/
def Db.surplus (db : Db) : ℤ := db.ledgerTotal - db.lotTotal - db.reservedTotal

theorem surplus_congr (hledger : db'.ledgerTotal = db.ledgerTotal) (hlots : db'.lots = db.lots)
    (hholds : db'.holds = db.holds) : db'.surplus = db.surplus := by
  unfold Db.surplus Db.lotTotal Db.reservedTotal
  rw [hledger, hlots, hholds]

/-! ## What the moves are made of -/

/-- A charge draws off the lots what its row books. -/
theorem charge_surplus {P : CreditLot → Prop} {taken : List (ℕ × ℤ)} (htaken : db.Draws P taken)
    (hlots : db'.lots = (db.spendLots taken).lots)
    (hledger : db'.ledgerTotal = db.ledgerTotal - drawn taken)
    (hholds : db'.reservedTotal = db.reservedTotal) : db'.surplus = db.surplus := by
  have hspent := lotTotal_spendLots htaken
  have hlotTotal : db'.lotTotal = (db.spendLots taken).lotTotal := by
    rw [Db.lotTotal, hlots, Db.lotTotal]
  unfold Db.surplus
  omega

/-- Arming a hold draws off the lots what it reserves. -/
theorem arm_surplus {args : HoldArgs} {credits : ℤ} {metadata : Metadata} {existing : Option ℕ}
    {taken : List (ℕ × ℤ)} {P : CreditLot → Prop}
    (hexisting : ∀ k ∈ existing, ∃ held, db.holds.get? k = some held ∧ held.wallet = w ∧
      held.status.GivenBack) (htaken : db.Draws P taken) :
    (armHold env w args credits metadata existing taken (db.spendLots taken)).2.surplus =
      db.surplus := by
  have hspent := lotTotal_spendLots htaken
  have hfresh : (appendAllocations env taken Table.empty).sum (fun _ alloc => alloc.credits) =
      drawn taken := by
    rw [appendAllocations_sum, Table.sum_empty, zero_add]
  unfold armHold
  cases existing with
  | none =>
    show db.ledgerTotal - (db.spendLots taken).lotTotal -
      ((db.holds.insert _).sum fun _ held => held.reserved) = _
    rw [Table.sum_insert, reserved_of_held rfl, CreditHold.allocated, hfresh]
    show _ - _ - (db.reservedTotal + _) = db.ledgerTotal - db.lotTotal - db.reservedTotal
    omega
  | some k =>
    obtain ⟨held, hheld, -, hstatus⟩ := hexisting k rfl
    show db.ledgerTotal - (db.spendLots taken).lotTotal -
      ((db.holds.modify k _).sum fun _ held => held.reserved) = _
    rw [reserved_modify hheld, reserved_of_ne hstatus.ne_held, reserved_of_held rfl,
      CreditHold.allocated, hfresh]
    unfold Db.surplus
    omega

/-- A hold that ends with a charge books what it reserved. -/
theorem resolve_surplus {h : ℕ} {held : CreditHold} {f : CreditHold → CreditHold}
    (hheld : db.holds.get? h = some held) (hf : (f held).status ≠ .held)
    (hlots : db'.lots = db.lots) (hholds : db'.holds = db.holds.modify h f)
    (hledger : db'.ledgerTotal = db.ledgerTotal - held.reserved) : db'.surplus = db.surplus := by
  have hreserved : db'.reservedTotal = db.reservedTotal - held.reserved := by
    rw [Db.reservedTotal, hholds, reserved_modify hheld, reserved_of_ne hf, add_zero]
  have hlotTotal : db'.lotTotal = db.lotTotal := by rw [Db.lotTotal, hlots, Db.lotTotal]
  unfold Db.surplus
  omega

/-- Emptying a lot with a row. -/
theorem Empties.surplus {k : ℕ} {lot : CreditLot} {row : Transaction}
    (h : Empties w k lot row db db') : db'.surplus = db.surplus := by
  have hlots := Table.sum_modify h.current CreditLot.zero fun _ lot => lot.creditsRemaining
  have hzero : lot.zero.creditsRemaining = 0 := rfl
  have hledger : db'.ledgerTotal = db.ledgerTotal + row.creditsDelta := by
    rw [h.result]
    exact Table.sum_insert _ _ _
  have hlotTotal : db'.lotTotal = (db.lots.modify k CreditLot.zero).sum fun _ lot =>
      lot.creditsRemaining := by rw [h.result]; rfl
  have hreserved : db'.reservedTotal = db.reservedTotal := by rw [h.result]; rfl
  have hold : db.lotTotal = db.lots.sum fun _ lot => lot.creditsRemaining := rfl
  have hdelta := h.delta
  unfold Db.surplus
  omega

theorem swept_surplus (env : Env) (w : ℕ) (db : Db) : (db.swept env w).surplus = db.surplus := by
  refine Moves.invariant (I := fun db' => db'.surplus = db.surplus) ?_
    (expireDueLots_moves env w (P := Move.IsSweep) trivial (fun _ => trivial) db) rfl
  rintro m db₁ db₂ hm hI hs
  cases hs with
  | sync => exact hI
  | @expire _ k lot running hlot hw _ =>
    obtain ⟨row, he⟩ := expireLot_empties env running hlot hw
    exact he.surplus.trans hI
  | _ => exact hm.elim

/-- Credits that enter the lots ahead of their row: the sweep between the two keeps the
distance, and the row closes it. -/
theorem restore_surplus {k : ℕ} {grant : Option ℕ} {givenBack : ℤ} {eventId : Option String} :
    (restoreCredits env w k grant givenBack eventId db).surplus = db.surplus := by
  set db₁ : Db := { db with lots := db.lots.insert (restoredLot env w grant givenBack db) } with hdb₁
  have hlot : db₁.lotTotal = db.lotTotal + givenBack := Table.sum_insert _ _ _
  have hsame : db₁.ledgerTotal = db.ledgerTotal ∧ db₁.reservedTotal = db.reservedTotal := ⟨rfl, rfl⟩
  have hswept := swept_surplus env w db₁
  have hledger : (restoreCredits env w k grant givenBack eventId db).ledgerTotal =
      (db₁.swept env w).ledgerTotal + givenBack := ledgerTotal_addTransaction _
  have hlots : (restoreCredits env w k grant givenBack eventId db).lotTotal =
      (db₁.swept env w).lotTotal := rfl
  have hreserved : (restoreCredits env w k grant givenBack eventId db).reservedTotal =
      (db₁.swept env w).reservedTotal := rfl
  unfold Db.surplus at hswept ⊢
  omega

/-! ## One move -/

/-- **No move changes how far the ledger is ahead.** -/
theorem Step.surplus {m : Move} (h : Step env w m db db') (hm : m.IsBacked) :
    db'.surplus = db.surplus := by
  cases h with
  | openWallet _ _ | sync | cancel => exact surplus_congr rfl rfl rfl
  | @expire _ k lot running hlot hw _ =>
    obtain ⟨row, he⟩ := expireLot_empties env running hlot hw
    exact he.surplus
  | @grant _ args _ _ =>
    have hlots : (StapelBilling.grant env w args db).lotTotal = db.lotTotal + args.credits := Table.sum_insert _ _ _
    have hledger : (StapelBilling.grant env w args db).ledgerTotal = db.ledgerTotal + args.credits :=
      ledgerTotal_addTransaction _
    have hreserved : (StapelBilling.grant env w args db).reservedTotal = db.reservedTotal := rfl
    unfold Db.surplus
    omega
  | collect _ _ _ _ _ htaken hdrawn =>
    refine charge_surplus htaken rfl ?_ rfl
    rw [hdrawn]
    exact ledgerTotal_addTransaction _
  | @meter _ args =>
    refine surplus_congr ?_ ?_ ?_
    · have hrow : (meterOnlyDebit env w args db).2.ledgerTotal = db.ledgerTotal + 0 := by
        unfold meterOnlyDebit
        dsimp only
        split <;> exact ledgerTotal_addTransaction _
      omega
    all_goals unfold meterOnlyDebit; dsimp only; split <;> rfl
  | @charge _ args chargeable taken _ htaken hdrawn =>
    refine charge_surplus htaken ?_ ?_ ?_
    · unfold chargeDebit; dsimp only; split <;> split <;> rfl
    · rw [hdrawn]
      unfold chargeDebit
      dsimp only
      split <;> split <;> exact ledgerTotal_addTransaction _
    · unfold chargeDebit; dsimp only; split <;> split <;> rfl
  | arm hexisting _ htaken _ => exact arm_surplus hexisting htaken
  | @refund _ h a held alloc amount hheld _ hstatus halloc _ _ =>
    -- what leaves the allocation comes back as a lot
    have hsum := Table.sum_modify halloc
      (fun alloc => { alloc with credits := alloc.credits - amount }) fun _ alloc => alloc.credits
    show db.ledgerTotal - ((db.lots.insert _).sum fun _ lot => lot.creditsRemaining) -
      ((db.holds.modify h _).sum fun _ held => held.reserved) = _
    rw [Table.sum_insert, reserved_modify hheld, reserved_of_held hstatus,
      reserved_with_allocations hstatus]
    simp only [Db.surplus, Db.lotTotal, CreditHold.allocated] at hsum ⊢
    omega
  | @overdraw _ h held taken hheld _ hstatus htaken =>
    have hspent := lotTotal_spendLots htaken
    have happend := appendAllocations_sum env taken held.allocations
    show db.ledgerTotal - (db.spendLots taken).lotTotal -
      ((db.holds.modify h _).sum fun _ held => held.reserved) = _
    rw [reserved_modify hheld, reserved_of_held hstatus, reserved_with_allocations hstatus]
    simp only [Db.surplus, CreditHold.allocated] at happend ⊢
    omega
  | @bill _ args held current actual hheld _ hstatus hactual =>
    refine resolve_surplus hheld
      (f := fun held => { held with status := .captured, resolvedAt := some env.now })
      (fun h => by cases h) rfl rfl ?_
    rw [reserved_of_held hstatus, hactual hm]
    exact ledgerTotal_addTransaction _
  | @waive _ args held actual hheld _ hstatus hwaived =>
    -- a waived capture bills nothing, so its hold must hold nothing
    have hnone : held.allocated = 0 := hm.total.trans (hm.waived hwaived)
    refine resolve_surplus hheld
      (f := fun held => { held with status := .captured, resolvedAt := some env.now })
      (fun h => by cases h) rfl rfl ?_
    rw [reserved_of_held hstatus, hnone, sub_zero]
    exact (ledgerTotal_addTransaction _).trans (add_zero _)
  | @settle _ h read held status hheld _ hnone hstatus =>
    refine resolve_surplus hheld
      (f := fun held => { held with status, resolvedAt := some env.now }) hstatus.2.ne_held rfl rfl ?_
    have hreserved : held.reserved = 0 := by
      unfold CreditHold.reserved
      split
      · exact hnone hm
      · rfl
    rw [hreserved, sub_zero]
    rfl
  | clawback _ htaken =>
    refine charge_surplus htaken ?_ ?_ ?_
    · unfold bookClawback; dsimp only; split <;> rfl
    · unfold bookClawback
      dsimp only
      split <;> exact ledgerTotal_addTransaction _
    · unfold bookClawback; dsimp only; split <;> rfl
  | restore _ => exact restore_surplus
  | @mark _ k requested eventId =>
    refine surplus_congr ?_ rfl rfl
    exact Table.sum_modify_of_eq db.transactions k _ (fun _ row => row.creditsDelta) fun _ _ => rfl

theorem Moves.surplus {P : Move → Prop} (hP : ∀ m, P m → m.IsBacked) (h : Moves env w P db db') :
    db'.surplus = db.surplus :=
  Moves.invariant (I := fun db' => db'.surplus = db.surplus)
    (fun m _ _ hm hI hs => (hs.surplus (hP m hm)).trans hI) h rfl

/-- **A wallet call** leaves the ledger as far ahead as it was, when reservations are backed. -/
theorem exec_surplus {c : WalletCall} (hb : db.HoldsBacked) (h : c.exec env db = .ok db') :
    db'.surplus = db.surplus :=
  Moves.surplus (fun _ hm => hb.allows hm) (exec_moves h)

theorem settleDebts_surplus {n : ℤ} (h : settleDebts env w db = .ok (n, db')) :
    db'.surplus = db.surplus := by
  refine Moves.surplus (P := Move.IsSettling) (fun m hm => ?_)
    (settleDebts_ok (fun _ _ _ _ => trivial) h)
  cases m <;> first | exact hm.elim | exact trivial

/-! ## Rows that change owner -/

/-- The books see amounts, and no wallet. -/
theorem folded_surplus : (db.folded merged survivor).surplus = db.surplus := by
  have hledger : (db.folded merged survivor).ledgerTotal = db.ledgerTotal := by
    refine (Table.sum_of_map (fun _ row => row.creditsDelta) folded_row).trans ?_
    exact Table.sum_congr fun k row _ => by split <;> rfl
  have hlots : (db.folded merged survivor).lotTotal = db.lotTotal := by
    refine (Table.sum_of_map (fun _ lot => lot.creditsRemaining) folded_lot).trans ?_
    exact Table.sum_congr fun k lot _ => by split <;> rfl
  have hreserved : (db.folded merged survivor).reservedTotal = db.reservedTotal := by
    have hmoved : (db.folded merged survivor).reservedTotal =
        (renameClashes merged survivor db).reservedTotal := by
      unfold Db.reservedTotal Db.folded closeWallet moveRows
      rw [Table.sum_update]
      exact Table.sum_congr fun k held _ => by split <;> rfl
    rw [hmoved]
    unfold Db.reservedTotal renameClashes
    dsimp only
    rw [Table.sum_update]
    exact Table.sum_congr fun k held _ => by split <;> rfl
  unfold Db.surplus
  rw [hledger, hlots, hreserved]

theorem stampSubscriptionPeriod_surplus (sub : Subscription) :
    (stampSubscriptionPeriod sub db).surplus = db.surplus := by
  unfold stampSubscriptionPeriod
  split
  · have hlots : ∀ f : ℕ → CreditLot → CreditLot, (∀ k lot, (f k lot).creditsRemaining =
        lot.creditsRemaining) → Db.surplus { db with lots := db.lots.update f } = db.surplus := by
      intro f hf
      have hlotTotal : Db.lotTotal { db with lots := db.lots.update f } = db.lotTotal :=
        (Table.sum_update _ _ _).trans (Table.sum_congr fun k lot _ => hf k lot)
      unfold Db.surplus
      rw [hlotTotal]
      rfl
    refine hlots _ fun k lot => ?_
    split <;> rfl
  · rfl

theorem eraseSubject_surplus {subjectType : String} {subject : Option UserId}
    (h : eraseSubject subjectType subject db = some db') : db'.surplus = db.surplus := by
  unfold eraseSubject at h
  split at h
  · cases h
  · rename_i user
    split at h
    · cases h
    · obtain rfl := Option.some.inj h
      have hledger : (scrubFreeText user (eraseSubscriptions user db)).ledgerTotal = db.ledgerTotal := by
        unfold Db.ledgerTotal scrubFreeText
        rw [Table.sum_update]
        exact Table.sum_congr fun k row _ => by split <;> rfl
      have hreserved : (scrubFreeText user (eraseSubscriptions user db)).reservedTotal =
          db.reservedTotal := by
        unfold Db.reservedTotal scrubFreeText
        rw [Table.sum_update]
        exact Table.sum_congr fun k held _ => by split <;> rfl
      show (scrubFreeText user (eraseSubscriptions user db)).ledgerTotal - db.lotTotal -
        (scrubFreeText user (eraseSubscriptions user db)).reservedTotal = _
      rw [hledger, hreserved]
      rfl

/-! ## Merges -/

theorem stripped_surplus : (db.stripped env merged).surplus = db.surplus := by
  refine (forfeited_invariant (I := fun db' => db'.surplus = (db.swept env merged).surplus) ?_ ?_
    rfl).trans (swept_surplus env merged db)
  · exact fun k lot row db₁ db₂ he hI => he.surplus.trans hI
  · exact fun db₁ hI => hI

theorem bookMerge_surplus {key : String} {credits : ℤ} :
    (bookMerge env key merged survivor credits db).surplus = db.surplus + credits := by
  have hswept := swept_surplus env survivor db
  have hledger : (bookMerge env key merged survivor credits db).ledgerTotal =
      (db.swept env survivor).ledgerTotal + credits := ledgerTotal_addTransaction _
  have hlots : (bookMerge env key merged survivor credits db).lotTotal =
      (db.swept env survivor).lotTotal := rfl
  have hreserved : (bookMerge env key merged survivor credits db).reservedTotal =
      (db.swept env survivor).reservedTotal := rfl
  unfold Db.surplus at hswept ⊢
  omega

/-- **A merge puts the ledger ahead by what it reports as moved.** -/
theorem mergeWallets_surplus {digest : UserId → UserId → String} {fromUser intoUser : UserId}
    {counts : MergeCounts} (h : mergeWallets env digest fromUser intoUser db = .ok (counts, db')) :
    db'.surplus = db.surplus + counts.credits := by
  unfold mergeWallets at h
  dsimp only at h
  split at h
  · obtain ⟨rfl, rfl⟩ := Prod.mk.inj (Except.ok.inj h)
    exact (add_zero _).symm
  · split at h
    · split at h
      · cases h
      · rename_i n db₂ hsub
        obtain ⟨rfl, rfl⟩ := Prod.mk.inj (Except.ok.inj h)
        obtain ⟨subscriptions, rfl⟩ := mergeSubscription_ok hsub
        exact (add_zero _).symm
    · split at h
      · cases h
      · rename_i survivor db₁ hsurvivor
        obtain ⟨subscriptions, n, hsettle, -, hcredits⟩ := mergeLocked_cases h
        rename_i merged wallet _
        have hsame : db₁.surplus = db.surplus := by
          rcases survivorWallet_cases hsurvivor with ⟨rfl, -⟩ | ⟨-, -, -, rfl⟩
          · rfl
          · rfl
        have hsubs : ∀ db : Db, Db.surplus { db with subscriptions } = db.surplus := fun _ => rfl
        rw [settleDebts_surplus hsettle, hsubs, hcredits, ← hsame]
        unfold Db.booked
        rw [bookMerge_surplus, folded_surplus, stripped_surplus]

end StapelBilling
