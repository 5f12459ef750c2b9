import StapelBilling.Calls

/-! # Conservation

The ledger, the lots and the open reservations are three books of one amount.
Every move shifts credits between lots and reservations without a ledger row, or
changes the ledger and the lots by the same number; so over any run the sum of
the ledger is what the lots hold plus what the holds reserve.
-/
namespace StapelBilling
open Store

/-! ## The three books -/

/-- What the ledger adds up to. -/
def Db.ledgerTotal (db : Db) : ℤ := db.transactions.sum fun _ row => row.creditsDelta

/-- What the lots hold. -/
def Db.lotTotal (db : Db) : ℤ := db.lots.sum fun _ lot => lot.creditsRemaining

/-- The credits an open hold keeps out of the lots. -/
def CreditHold.reserved (held : CreditHold) : ℤ := if held.status = .held then held.allocated else 0

/-- What the open holds reserve. -/
def Db.reservedTotal (db : Db) : ℤ := db.holds.sum fun _ held => held.reserved

/-- A lot never holds less than nothing or more than it was born with. -/
def CreditLot.Bounded (lot : CreditLot) : Prop :=
  0 ≤ lot.creditsRemaining ∧ lot.creditsRemaining ≤ lot.creditsInitial

/-- Every lot is within its bounds. -/
def Db.LotsBounded (db : Db) : Prop := ∀ k lot, db.lots.get? k = some lot → lot.Bounded

/-- **The books agree**, and every lot is within its bounds. -/
structure Db.Conserved (db : Db) : Prop where
  balanced : db.ledgerTotal = db.lotTotal + db.reservedTotal
  bounded : db.LotsBounded

theorem Db.Conserved.empty : Db.empty.Conserved := ⟨rfl, fun _ _ => Table.get?_empty_ne⟩

variable {env : Env} {w : ℕ} {db db' : Db}

/-- What neither lots, holds nor the ledger's sum see keeps the books. -/
theorem Db.Conserved.congr (hc : db.Conserved) (hlots : db'.lots = db.lots)
    (hholds : db'.holds = db.holds) (hledger : db'.ledgerTotal = db.ledgerTotal) :
    db'.Conserved := by
  have hb := hc.balanced
  have hlotTotal : db'.lotTotal = db.lotTotal := by rw [Db.lotTotal, hlots, Db.lotTotal]
  have hreserved : db'.reservedTotal = db.reservedTotal := by
    rw [Db.reservedTotal, hholds, Db.reservedTotal]
  exact ⟨by omega, by rw [Db.LotsBounded, hlots]; exact hc.bounded⟩

/-! ## What the moves are made of -/

/-- Booking a row moves the ledger by its delta. -/
theorem ledgerTotal_addTransaction (row : Time → ℕ → Transaction) :
    (db.addTransaction env row).ledgerTotal =
      db.ledgerTotal + (row (env.createdAt db.transactions.next)
        (env.uuid db.transactions.next)).creditsDelta :=
  Table.sum_insert _ _ _

/-- Drawn credits leave the lots. -/
theorem lotTotal_spendLots {P : CreditLot → Prop} {taken : List (ℕ × ℤ)} (h : db.Draws P taken) :
    (db.spendLots taken).lotTotal = db.lotTotal - drawn taken := by
  refine Table.sum_drain h.nodup fun k n hmem => ?_
  obtain ⟨-, lot, hlot, -⟩ := h.lot k n hmem
  exact ⟨lot, hlot, rfl⟩

/-- Drawing keeps lots within bounds. -/
theorem bounded_spendLots {P : CreditLot → Prop} {taken : List (ℕ × ℤ)} (h : db.Draws P taken)
    (hb : ∀ k lot, db.lots.get? k = some lot → lot.Bounded) {k : ℕ} {lot : CreditLot}
    (hk : (db.spendLots taken).lots.get? k = some lot) : lot.Bounded := by
  obtain ⟨old, hold, hcase⟩ := Table.get?_drain h.nodup hk
  obtain ⟨hnonneg, hle⟩ := hb k old hold
  rcases hcase with rfl | ⟨n, hmem, rfl⟩
  · exact ⟨hnonneg, hle⟩
  · obtain ⟨hpos, lot, hlot, -, hn⟩ := h.lot k n hmem
    obtain rfl := Option.some.inj (hold.symm.trans hlot)
    refine ⟨?_, ?_⟩
    · show 0 ≤ old.creditsRemaining - n
      omega
    · show old.creditsRemaining - n ≤ old.creditsInitial
      omega

/-- A new lot keeps lots within bounds, when it is within its own. -/
theorem bounded_insert {lots : Table CreditLot} {new : CreditLot} (hnew : new.Bounded)
    (hb : ∀ k lot, lots.get? k = some lot → lot.Bounded) {k : ℕ} {lot : CreditLot}
    (hk : (lots.insert new).get? k = some lot) : lot.Bounded := by
  rw [Table.get?_insert] at hk
  split at hk
  · obtain rfl := Option.some.inj hk
    exact hnew
  · exact hb k lot hk

/-- Rewriting the open hold `h` moves what is reserved by that hold's change. -/
theorem reserved_modify {h : ℕ} {held : CreditHold} (hheld : db.holds.get? h = some held)
    (f : CreditHold → CreditHold) :
    ((db.holds.modify h f).sum fun _ held => held.reserved) =
      db.reservedTotal - held.reserved + (f held).reserved := by
  have hsum := Table.sum_modify hheld f fun _ held => held.reserved
  show _ = (db.holds.sum fun _ held => held.reserved) - held.reserved + (f held).reserved
  omega

theorem reserved_of_held {held : CreditHold} (h : held.status = .held) :
    held.reserved = held.allocated := by
  rw [CreditHold.reserved, if_pos h]

theorem reserved_with_allocations {held : CreditHold} (h : held.status = .held)
    (allocations : Table HoldAllocation) :
    CreditHold.reserved { held with allocations } =
      allocations.sum fun _ alloc => alloc.credits :=
  @reserved_of_held { held with allocations } h

theorem reserved_of_ne {held : CreditHold} (h : held.status ≠ .held) : held.reserved = 0 := by
  rw [CreditHold.reserved, if_neg h]

/-! ## One move -/

variable (env w) in
/-- A swept lot leaves the lots and the ledger alike. -/
theorem expireLot_totals {k : ℕ} {lot : CreditLot} (running : ℤ)
    (hlot : db.lots.get? k = some lot) :
    (expireLot env w k lot running db).lotTotal = db.lotTotal - lot.creditsRemaining ∧
    (expireLot env w k lot running db).ledgerTotal = db.ledgerTotal - lot.creditsRemaining := by
  refine ⟨?_, ledgerTotal_addTransaction _⟩
  have hsum := Table.sum_modify hlot CreditLot.zero fun _ lot => lot.creditsRemaining
  have hzero : (CreditLot.zero lot).creditsRemaining = 0 := rfl
  show ((db.lots.modify k CreditLot.zero).sum fun _ lot => lot.creditsRemaining) =
    (db.lots.sum fun _ lot => lot.creditsRemaining) - lot.creditsRemaining
  omega

theorem expireLot_bounded {k : ℕ} {lot : CreditLot} {running : ℤ} (hb : db.LotsBounded) :
    (expireLot env w k lot running db).LotsBounded := by
  intro j lot' hj
  have hj' : (db.lots.modify k CreditLot.zero).get? j = some lot' := hj
  rw [Table.get?_modify] at hj'
  split at hj'
  · obtain ⟨old, hold, rfl⟩ := Option.map_eq_some_iff.mp hj'
    have := hb j old hold
    exact ⟨le_rfl, this.1.trans this.2⟩
  · exact hb j lot' hj'

variable (env w) in
/-- **A sweep** moves the lots and the ledger by the same amount. -/
theorem expireDueLots_totals {d : Db} (hb : d.LotsBounded) :
    (expireDueLots env w d).2.lotTotal - (expireDueLots env w d).2.ledgerTotal =
      d.lotTotal - d.ledgerTotal ∧ (expireDueLots env w d).2.LotsBounded := by
  refine Moves.invariant
    (I := fun db' => db'.lotTotal - db'.ledgerTotal = d.lotTotal - d.ledgerTotal ∧ db'.LotsBounded)
    ?_ (expireDueLots_moves env w (P := Move.IsSweep) trivial (fun _ => trivial) d)
    ⟨rfl, hb⟩
  rintro m db₁ db₂ hm ⟨heq, hbounded⟩ hs
  cases hs with
  | sync => exact ⟨heq, hbounded⟩
  | @expire _ k lot running hlot _ _ =>
    obtain ⟨hlots, hledger⟩ := expireLot_totals env w running hlot
    exact ⟨by omega, expireLot_bounded hbounded⟩
  | _ => exact hm.elim

/-- A charge that draws `n` credits and books `-n` keeps the books. -/
theorem charge_conserved {P : CreditLot → Prop} {taken : List (ℕ × ℤ)} (hc : db.Conserved)
    (htaken : db.Draws P taken) (hlots : db'.lots = (db.spendLots taken).lots)
    (hledger : db'.ledgerTotal = db.ledgerTotal - drawn taken)
    (hholds : db'.reservedTotal = db.reservedTotal) : db'.Conserved := by
  have hb := hc.balanced
  have hspent := lotTotal_spendLots htaken
  have hlotTotal : db'.lotTotal = (db.spendLots taken).lotTotal := by
    rw [Db.lotTotal, hlots, Db.lotTotal]
  refine ⟨by omega, fun k lot hk => ?_⟩
  rw [hlots] at hk
  exact bounded_spendLots htaken hc.bounded hk

/-- Arming a hold moves what it draws out of the lots into its reservation. -/
theorem arm_conserved {args : HoldArgs} {credits : ℤ} {metadata : Metadata} {existing : Option ℕ}
    {taken : List (ℕ × ℤ)} {P : CreditLot → Prop} (hc : db.Conserved)
    (hexisting : ∀ k ∈ existing, ∃ held, db.holds.get? k = some held ∧ held.wallet = w ∧
      held.status.GivenBack) (htaken : db.Draws P taken) :
    (armHold env w args credits metadata existing taken (db.spendLots taken)).2.Conserved := by
  have hb := hc.balanced
  have hspent := lotTotal_spendLots htaken
  have hfresh : (appendAllocations env taken Table.empty).sum (fun _ alloc => alloc.credits) =
      drawn taken := by
    rw [appendAllocations_sum, Table.sum_empty, zero_add]
  unfold armHold
  cases existing with
  | none =>
    refine ⟨?_, fun k lot hk => bounded_spendLots htaken hc.bounded hk⟩
    show db.ledgerTotal = (db.spendLots taken).lotTotal +
      (db.holds.insert _).sum fun _ held => held.reserved
    rw [Table.sum_insert, reserved_of_held rfl, CreditHold.allocated, hfresh]
    show _ = _ + (db.reservedTotal + _)
    omega
  | some k =>
    obtain ⟨held, hheld, -, hstatus⟩ := hexisting k rfl
    refine ⟨?_, fun k lot hk => bounded_spendLots htaken hc.bounded hk⟩
    show db.ledgerTotal = (db.spendLots taken).lotTotal +
      (db.holds.modify k _).sum fun _ held => held.reserved
    rw [reserved_modify hheld, reserved_of_ne hstatus.ne_held, reserved_of_held rfl, CreditHold.allocated,
      hfresh]
    omega

/-- A refund moves its amount out of the reservation into a new lot. -/
theorem refund_conserved {h a : ℕ} {held : CreditHold} {alloc : HoldAllocation} {amount : ℤ}
    (hc : db.Conserved) (hheld : db.holds.get? h = some held) (hstatus : held.status = .held)
    (halloc : held.allocations.get? a = some alloc) (hpos : 0 < amount) :
    (refundAllocation env h w a alloc amount db).Conserved := by
  have hb := hc.balanced
  refine ⟨?_, fun k lot hk => bounded_insert ⟨hpos.le, le_rfl⟩ hc.bounded hk⟩
  show db.ledgerTotal = ((db.lots.insert _).sum fun _ lot => lot.creditsRemaining) +
    (db.holds.modify h _).sum fun _ held => held.reserved
  have hsum := Table.sum_modify halloc
    (fun alloc => { alloc with credits := alloc.credits - amount }) fun _ alloc => alloc.credits
  rw [Table.sum_insert, reserved_modify hheld, reserved_of_held hstatus,
    reserved_with_allocations hstatus]
  simp only [Db.lotTotal, CreditHold.allocated] at hb hsum ⊢
  omega

/-- Resolving a hold that allocates what was billed keeps the books. -/
theorem resolve_conserved {h : ℕ} {held : CreditHold} {f : CreditHold → CreditHold}
    (hc : db.Conserved) (hheld : db.holds.get? h = some held) (hf : (f held).status ≠ .held)
    (hlots : db'.lots = db.lots) (hholds : db'.holds = db.holds.modify h f)
    (hledger : db'.ledgerTotal = db.ledgerTotal - held.reserved) : db'.Conserved := by
  have hb := hc.balanced
  have hreserved : db'.reservedTotal = db.reservedTotal - held.reserved := by
    rw [Db.reservedTotal, hholds, reserved_modify hheld, reserved_of_ne hf, add_zero]
  have hlotTotal : db'.lotTotal = db.lotTotal := by rw [Db.lotTotal, hlots, Db.lotTotal]
  refine ⟨by omega, fun k lot hk => ?_⟩
  rw [hlots] at hk
  exact hc.bounded k lot hk

/-- New credits enter the lots and the ledger alike. -/
theorem deposit_conserved {l : CreditLot} (hc : db.Conserved) (hpos : 0 ≤ l.creditsInitial)
    (hnew : l.creditsRemaining = l.creditsInitial) (hlots : db'.lots = db.lots.insert l)
    (hholds : db'.holds = db.holds)
    (hledger : db'.ledgerTotal = db.ledgerTotal + l.creditsRemaining) : db'.Conserved := by
  have hb := hc.balanced
  have hlotTotal : db'.lotTotal = db.lotTotal + l.creditsRemaining := by
    rw [Db.lotTotal, hlots, Table.sum_insert, Db.lotTotal]
  have hreserved : db'.reservedTotal = db.reservedTotal := by
    rw [Db.reservedTotal, hholds, Db.reservedTotal]
  refine ⟨by omega, fun k lot hk => ?_⟩
  rw [hlots] at hk
  exact bounded_insert ⟨by omega, hnew.le⟩ hc.bounded hk

/-- Credits that enter the lots ahead of their ledger row leave the books one
amount apart; a sweep keeps that distance, and the row closes it. -/
theorem restore_conserved {k : ℕ} {grant : Option ℕ} {givenBack : ℤ} {eventId : Option String}
    (hc : db.Conserved) (hpos : 0 < givenBack) :
    (restoreCredits env w k grant givenBack eventId db).Conserved := by
  have hb := hc.balanced
  unfold restoreCredits
  set db₁ : Db := { db with lots := db.lots.insert (restoredLot env w grant givenBack db) }
  have hlot : db₁.lotTotal = db.lotTotal + givenBack := Table.sum_insert _ _ _
  obtain ⟨htotals, hbounded⟩ := expireDueLots_totals env w (d := db₁)
    fun j lot hj => bounded_insert ⟨hpos.le, le_rfl⟩ hc.bounded hj
  have hholds : (expireDueLots env w db₁).2.reservedTotal = db.reservedTotal := by
    rw [Db.reservedTotal, (expireDueLots_frame db₁).1, Db.reservedTotal]
  have hledger : db₁.ledgerTotal = db.ledgerTotal := rfl
  refine ⟨?_, hbounded⟩
  rw [ledgerTotal_addTransaction]
  show (expireDueLots env w db₁).2.ledgerTotal + givenBack =
    (expireDueLots env w db₁).2.lotTotal + (expireDueLots env w db₁).2.reservedTotal
  omega

/-- Does the move resolve no hold but one that was backed when it was read? -/
def Move.IsBacked : Move → Prop
  | .bill _ held | .waive _ held | .settle _ held => held.Backed
  | _ => True

/-- **One move keeps the books.** -/
theorem Step.conserved {m : Move} (h : Step env w m db db') (hm : m.IsBacked)
    (hc : db.Conserved) : db'.Conserved := by
  cases h with
  | openWallet _ _ | sync | cancel => exact hc.congr rfl rfl rfl
  | @expire _ k lot running hlot _ _ =>
    have hb := hc.balanced
    obtain ⟨hlots, hledger⟩ := expireLot_totals env w running hlot
    have hholds : (expireLot env w k lot running db).reservedTotal = db.reservedTotal := rfl
    exact ⟨by omega, expireLot_bounded hc.bounded⟩
  | grant hpos _ =>
    exact deposit_conserved (l := grantLot env w _ db) hc hpos.le rfl rfl rfl
      (ledgerTotal_addTransaction _)
  | collect _ _ _ _ _ htaken hdrawn =>
    refine charge_conserved hc htaken rfl ?_ rfl
    rw [hdrawn]
    exact ledgerTotal_addTransaction _
  | @meter _ args =>
    refine hc.congr ?_ ?_ ?_
    · unfold meterOnlyDebit; dsimp only; split <;> rfl
    · unfold meterOnlyDebit; dsimp only; split <;> rfl
    · have hrow : (meterOnlyDebit env w args db).2.ledgerTotal = db.ledgerTotal + 0 := by
        unfold meterOnlyDebit
        dsimp only
        split <;> exact ledgerTotal_addTransaction _
      omega
  | @charge _ args chargeable taken hle htaken hdrawn =>
    refine charge_conserved hc htaken ?_ ?_ ?_
    · unfold chargeDebit; dsimp only; split <;> split <;> rfl
    · rw [hdrawn]
      unfold chargeDebit
      dsimp only
      split <;> split <;> exact ledgerTotal_addTransaction _
    · unfold chargeDebit; dsimp only; split <;> split <;> rfl
  | arm hexisting _ htaken _ => exact arm_conserved hc hexisting htaken
  | refund hheld _ hstatus halloc hpos _ => exact refund_conserved hc hheld hstatus halloc hpos
  -- what a capture draws beyond its hold leaves the lots and joins the allocations
  | @overdraw _ h held taken hheld _ hstatus htaken =>
    have hb := hc.balanced
    have hspent := lotTotal_spendLots htaken
    have happend := appendAllocations_sum env taken held.allocations
    refine ⟨?_, fun k lot hk => bounded_spendLots htaken hc.bounded hk⟩
    show db.ledgerTotal = (db.spendLots taken).lotTotal +
      (db.holds.modify h _).sum fun _ held => held.reserved
    rw [reserved_modify hheld, reserved_of_held hstatus, reserved_with_allocations hstatus]
    simp only [CreditHold.allocated] at happend ⊢
    omega
  | @bill _ args held current actual hheld _ hstatus hactual =>
    refine resolve_conserved hc hheld
      (f := fun held => { held with status := .captured, resolvedAt := some env.now })
      (fun h => by cases h) rfl rfl ?_
    -- the hold was made to fit what is billed before it is billed
    rw [reserved_of_held hstatus, hactual hm]
    exact ledgerTotal_addTransaction _
  | @waive _ args held actual hheld _ hstatus hwaived =>
    have hnone : held.allocated = 0 := hm.total.trans (hm.waived hwaived)
    refine resolve_conserved hc hheld
      (f := fun held => { held with status := .captured, resolvedAt := some env.now })
      (fun h => by cases h) rfl rfl ?_
    rw [reserved_of_held hstatus, hnone, sub_zero]
    exact (ledgerTotal_addTransaction _).trans (add_zero _)
  | @settle _ h read held status hheld _ hnone hstatus =>
    refine resolve_conserved hc hheld
      (f := fun held => { held with status, resolvedAt := some env.now }) hstatus.2.ne_held rfl rfl ?_
    have hreserved : held.reserved = 0 := by
      unfold CreditHold.reserved
      split
      · exact hnone hm
      · rfl
    rw [hreserved, sub_zero]
    rfl
  | clawback _ htaken =>
    refine charge_conserved hc htaken ?_ ?_ ?_
    · unfold bookClawback; dsimp only; split <;> rfl
    · unfold bookClawback
      dsimp only
      split <;> exact ledgerTotal_addTransaction _
    · unfold bookClawback; dsimp only; split <;> rfl
  | restore hpos => exact restore_conserved hc hpos
  | @mark _ k requested eventId =>
    refine hc.congr rfl rfl ?_
    exact Table.sum_modify_of_eq db.transactions k _ (fun _ row => row.creditsDelta) fun _ _ => rfl

theorem Moves.conserved {P : Move → Prop} (hP : ∀ m, P m → m.IsBacked)
    (h : Moves env w P db db') (hc : db.Conserved) : db'.Conserved :=
  Moves.invariant (I := Db.Conserved) (fun m _ _ hm hI hs => hs.conserved (hP m hm) hI) h hc

/-- A call on backed reservations resolves backed holds only. -/
theorem Db.HoldsBacked.allows (hb : db.HoldsBacked) {c : WalletCall} {m : Move}
    (hm : c.Allows db m) : m.IsBacked := by
  cases m with
  | bill _ held | waive _ held =>
    obtain ⟨-, ⟨k, hk⟩, hstatus⟩ := hm
    exact hb k held hk hstatus
  | settle _ held =>
    obtain ⟨⟨k, hk⟩, hstatus⟩ := hm
    exact hb k held hk hstatus
  | _ => exact trivial

/-! ## One wallet -/

/-- Every row belongs to wallet `w`. -/
structure Db.Only (w : ℕ) (db : Db) : Prop where
  lots : ∀ k lot, db.lots.get? k = some lot → lot.wallet = w
  transactions : ∀ k row, db.transactions.get? k = some row → row.wallet = w
  holds : ∀ k held, db.holds.get? k = some held → held.wallet = w
  debts : ∀ k debt, db.debts.get? k = some debt → debt.wallet = w

theorem Db.Only.grows (ho : db.Only w) (h : db.Grows w db') : db'.Only w where
  lots := h.lots.forall_rows ho.lots (fun _ _ ha hab => hab.wallet.trans ha) fun _ ha => ha
  transactions :=
    h.transactions.forall_rows ho.transactions (fun _ _ ha hab => hab.wallet.trans ha) fun _ ha => ha
  holds := h.holds.forall_rows ho.holds (fun _ _ ha hab => hab.1.trans ha) fun _ ha => ha
  debts := h.debts.forall_rows ho.debts (fun _ _ ha hab => hab.wallet.trans ha) fun _ ha => ha

/-- The database of one user: at most one wallet, and every row is its. -/
structure Db.SingleWallet (user : UserId) (db : Db) : Prop where
  only : db.Only 0
  wallet : ∀ k wallet, db.wallets.get? k = some wallet → k = 0 ∧ wallet.user = some user
  opened : db.wallets.next = 0 ∨ ∃ wallet, db.wallets.get? 0 = some wallet

theorem Db.SingleWallet.empty (user : UserId) : Db.empty.SingleWallet user where
  only := ⟨fun _ _ => Table.get?_empty_ne, fun _ _ => Table.get?_empty_ne,
    fun _ _ => Table.get?_empty_ne, fun _ _ => Table.get?_empty_ne⟩
  wallet := fun _ _ => Table.get?_empty_ne
  opened := Or.inl rfl

theorem Step.singleWallet {m : Move} {user : UserId} (h : Step env 0 m db db')
    (hm : ∀ u, m = .openWallet u → u = user) (hs : db.SingleWallet user) :
    db'.SingleWallet user := by
  refine ⟨hs.only.grows h.grows, ?_, ?_⟩
  all_goals by_cases hopen : m.IsOpen
  · cases h with
    | @openWallet _ u hw hnew =>
      obtain rfl := hm u rfl
      intro k wallet hk
      rw [Table.get?_insert] at hk
      split at hk
      · rename_i hnext
        obtain rfl := Option.some.inj hk
        exact ⟨hnext.trans hw, rfl⟩
      · exact hs.wallet k wallet hk
    | _ => exact hopen.elim
  · intro k wallet hk
    rcases (h.wallets hopen).grows.origin k wallet hk with ⟨old, hold, hsame⟩ | ⟨-, hnew⟩
    · exact ⟨(hs.wallet k old hold).1, hsame.user.trans (hs.wallet k old hold).2⟩
    · exact hnew.elim
  · cases h with
    | @openWallet _ u hw hnew =>
      refine Or.inr ⟨{ user := some u }, ?_⟩
      rw [← hw]
      exact Table.get?_insert_next _ _
    | _ => exact hopen.elim
  · rcases hs.opened with hnext | ⟨wallet, hwallet⟩
    · exact Or.inl ((h.wallets hopen).next.trans hnext)
    · obtain ⟨wallet', hwallet', -⟩ := (h.wallets hopen).grows.kept 0 wallet hwallet
      exact Or.inr ⟨wallet', hwallet'⟩

theorem dueLots_of_only (ho : db.Only 0) (hw : w ≠ 0) (now : Time) : db.dueLots w now = [] := by
  refine List.eq_nil_iff_forall_not_mem.mpr fun r hr => ?_
  obtain ⟨hlot, hwallet, -⟩ := mem_dueLots.mp hr
  exact hw (hwallet.symm.trans (ho.lots _ _ hlot))

theorem lockWallet_single {user : UserId} (hs : db.SingleWallet user) :
    (lockWallet user db).1 = 0 := by
  rcases hlock : lockWallet user db with ⟨w, db₁⟩
  show w = 0
  rcases lockWallet_cases hlock with ⟨-, wallet, hwallet, -⟩ | ⟨rfl, -, hnone⟩
  · exact (hs.wallet w wallet hwallet).1
  · rcases hs.opened with hnext | ⟨wallet, hwallet⟩
    · exact hnext
    · exact absurd (hs.wallet 0 wallet hwallet).2 (hnone 0 wallet hwallet)

/-- A call for the one user locks the one wallet; a sweep names its wallet itself. -/
theorem wallet_of_single {c : WalletCall} {user : UserId} (hs : db.SingleWallet user)
    (hc : ∀ u ∈ c.user?, u = user) : c.wallet db = 0 ∨ ∃ w, c = .expireDueLots w := by
  cases c with
  | credit args =>
    obtain rfl := hc args.user rfl
    exact Or.inl (lockWallet_single hs)
  | debit args =>
    obtain rfl := hc args.user rfl
    exact Or.inl (lockWallet_single hs)
  | hold args =>
    obtain rfl := hc args.user rfl
    exact Or.inl (lockWallet_single hs)
  | capture args =>
    refine Or.inl ?_
    cases hheld : db.holds.get? args.hold with
    | none => simp [WalletCall.wallet, hheld]
    | some held => simp [WalletCall.wallet, hheld, hs.only.holds _ held hheld]
  | release args =>
    refine Or.inl ?_
    cases hheld : db.holds.get? args.hold with
    | none => simp [WalletCall.wallet, hheld]
    | some held => simp [WalletCall.wallet, hheld, hs.only.holds _ held hheld]
  | expireDueLots w => exact Or.inr ⟨w, rfl⟩
  | clawBackGrant grant credits description metadata =>
    refine Or.inl ?_
    cases hrow : db.transactions.get? grant with
    | none => simp [WalletCall.wallet, hrow]
    | some row => simp [WalletCall.wallet, hrow, hs.only.transactions _ row hrow]
  | reverseClawback k eventId =>
    refine Or.inl ?_
    cases hrow : db.transactions.get? k with
    | none => simp [WalletCall.wallet, hrow]
    | some row => simp [WalletCall.wallet, hrow, hs.only.transactions _ row hrow]

/-- **A call for one user stays on the one wallet.** -/
theorem exec_singleWallet {c : WalletCall} {user : UserId} (hs : db.SingleWallet user)
    (hc : ∀ u ∈ c.user?, u = user) (h : c.exec env db = .ok db') :
    db'.SingleWallet user := by
  by_cases hw : c.wallet db = 0
  · have hmoves := exec_moves h
    rw [hw] at hmoves
    refine Moves.invariant (I := fun db => db.SingleWallet user) ?_ hmoves hs
    rintro m db₁ db₂ hm hI hstep
    refine hstep.singleWallet ?_ hI
    rintro u rfl
    exact hc u hm
  · rcases wallet_of_single hs hc with hzero | ⟨w, rfl⟩
    · exact absurd hzero hw
    · -- A sweep of another wallet finds nothing to sweep.
      have hne : w ≠ 0 := hw
      obtain rfl := Except.ok.inj h
      rw [expireDueLots, dueLots_of_only hs.only hne, if_pos rfl]
      exact hs

/-! ## Runs -/

section Books
variable (db) (w)

/-- What the ledger says wallet `w` has. -/
def Db.ledgerOf : ℤ :=
  db.transactions.sum fun _ row => if row.wallet = w then row.creditsDelta else 0

/-- What the lots of wallet `w` hold. -/
def Db.lotsOf : ℤ := db.lots.sum fun _ lot => if lot.wallet = w then lot.creditsRemaining else 0

/-- What the holds of wallet `w` reserve. -/
def Db.reservedOf : ℤ := db.holds.sum fun _ held => if held.wallet = w then held.reserved else 0

end Books

/-- What a run on one wallet keeps. -/
structure Db.Sound (user : UserId) (db : Db) : Prop where
  conserved : db.Conserved
  backed : db.HoldsBacked
  single : db.SingleWallet user

theorem runCalls_sound {user : UserId} {calls : List (Env × WalletCall)}
    (huser : ∀ c ∈ calls, ∀ u ∈ c.2.user?, u = user)
    (hmark : ∀ c ∈ calls, c.2.metadata.wasWaived = false) :
    (runCalls calls Db.empty).Sound user := by
  refine Store.run_invariant (I := fun db : Db => db.Sound user) ?_
    ⟨Db.Conserved.empty, fun _ _ => Table.get?_empty_ne, Db.SingleWallet.empty user⟩
  rintro c hc db db' ⟨hconserved, hbacked, hsingle⟩ h
  exact ⟨Moves.conserved (fun _ hm => hbacked.allows hm) (exec_moves h) hconserved,
    exec_backed hbacked (hmark c hc) h, exec_singleWallet hsingle (huser c hc) h⟩

/-- **The books of a wallet agree after every run.**  Whatever calls one user's
wallet serves, in whatever order and at whatever times, the sum of its ledger is
what its lots hold plus what its open holds reserve, and no lot leaves its bounds. -/
theorem ledger_balances {u : UserId} {calls : List (Env × WalletCall)}
    (huser : ∀ c ∈ calls, ∀ v ∈ c.2.user?, v = u)
    (hmark : ∀ c ∈ calls, c.2.metadata.wasWaived = false) (w : ℕ) :
    (runCalls calls Db.empty).ledgerOf w =
      (runCalls calls Db.empty).lotsOf w + (runCalls calls Db.empty).reservedOf w ∧
    ∀ k lot, (runCalls calls Db.empty).lots.get? k = some lot →
      0 ≤ lot.creditsRemaining ∧ lot.creditsRemaining ≤ lot.creditsInitial := by
  obtain ⟨hconserved, -, hsingle⟩ := runCalls_sound huser hmark
  refine ⟨?_, hconserved.bounded⟩
  generalize runCalls calls Db.empty = db at hconserved hsingle
  have ho := hsingle.only
  by_cases hw : w = 0
  · subst hw
    have hledger : db.ledgerOf 0 = db.ledgerTotal :=
      Table.sum_congr fun k row hk => if_pos (ho.transactions k row hk)
    have hlots : db.lotsOf 0 = db.lotTotal :=
      Table.sum_congr fun k lot hk => if_pos (ho.lots k lot hk)
    have hreserved : db.reservedOf 0 = db.reservedTotal :=
      Table.sum_congr fun k held hk => if_pos (ho.holds k held hk)
    rw [hledger, hlots, hreserved]
    exact hconserved.balanced
  · have hledger : db.ledgerOf w = 0 := Table.sum_zero fun k row hk =>
      if_neg fun h => hw (h.symm.trans (ho.transactions k row hk))
    have hlots : db.lotsOf w = 0 := Table.sum_zero fun k lot hk =>
      if_neg fun h => hw (h.symm.trans (ho.lots k lot hk))
    have hreserved : db.reservedOf w = 0 := Table.sum_zero fun k held hk =>
      if_neg fun h => hw (h.symm.trans (ho.holds k held hk))
    rw [hledger, hlots, hreserved, add_zero]

/-- A wallet that buys credits which die at 50, reserves some of them, and pays out
of the reservation after that. -/
def reservationPastDeadline : List (Env × WalletCall) :=
  let at_ : Time → Env := fun now => { now, createdAt := fun _ => now, uuid := id }
  [(at_ 0, .credit
      { user := 7
        credits := 100
        type := .creditPurchase
        source := .purchase
        expiresAt := some 50 }),
    (at_ 10, .hold
      { user := 7
        credits := 60
        type := .aiCharge
        idempotencyKey := "job" }),
    (at_ 60, .capture
      { hold := 0
        actualCredits := some 25 }),
    (at_ 70, .debit
      { user := 7
        credits := 5
        type := .aiCharge
        allowPartial := true })]

theorem ledger_balances_pastDeadline :
    (runCalls reservationPastDeadline Db.empty).ledgerOf 0 =
      (runCalls reservationPastDeadline Db.empty).lotsOf 0 +
        (runCalls reservationPastDeadline Db.empty).reservedOf 0 ∧
    ∀ k lot, (runCalls reservationPastDeadline Db.empty).lots.get? k = some lot →
      0 ≤ lot.creditsRemaining ∧ lot.creditsRemaining ≤ lot.creditsInitial := by
  refine ledger_balances (u := 7) ?_ ?_ 0
  · decide
  · decide

end StapelBilling
