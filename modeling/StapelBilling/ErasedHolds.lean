import StapelBilling.Store.Alike
import StapelBilling.LedgerSteps
import StapelBilling.Workers

/-! # Holds that outlive their owner

An erasure leaves reservations open, and they are settled afterwards.  Two runs are
compared: one over the database as it stands, one over the database after the erasure.
What settles a hold reads its credits, its allocations and its status, none of which an
erasure touches, and one mark out of its metadata, which an erasure drops: that the
reservation was **waived**.  A waived hold of an erased account is billed like any other.

The runs are twins exactly when billing such a hold would have charged nothing, given
nothing back and found nothing to sweep.
-/
namespace StapelBilling
open Store

/-! ## Seen through an erasure -/

/-- The same wallet, perhaps without its owner. -/
def Wallet.Veiled (wallet wallet' : Wallet) : Prop :=
  wallet' = { wallet with user := wallet'.user }

/-- The same ledger row, with other words and other metadata, that names the same hold; the
one lot it touched is not compared. -/
structure Transaction.Veiled (row row' : Transaction) : Prop where
  same : row' = { row with
    lot := row'.lot
    description := row'.description
    metadata := row'.metadata }
  hold : row'.metadata .holdId = row.metadata .holdId

/-- The same hold, with other words and other metadata; on the wallets `E` it is waived no
more. -/
structure CreditHold.Veiled (E : ℕ → Prop) (held held' : CreditHold) : Prop where
  same : held' = { held with
    description := held'.description
    metadata := held'.metadata }
  waived : held'.metadata.wasWaived = true ↔ held.metadata.wasWaived = true ∧ ¬ E held.wallet

/-- **A database and the same after the wallets `E` were erased.** -/
structure Db.Veiled (E : ℕ → Prop) (db db' : Db) : Prop where
  wallets : Table.Alike Wallet.Veiled db.wallets db'.wallets
  lots : db'.lots = db.lots
  transactions : Table.Alike Transaction.Veiled db.transactions db'.transactions
  holds : Table.Alike (CreditHold.Veiled E) db.holds db'.holds
  owned : ∀ w, E w → ∃ wallet, db.wallets.get? w = some wallet

theorem Wallet.Veiled.refl (wallet : Wallet) : wallet.Veiled wallet := rfl

theorem Transaction.Veiled.refl (row : Transaction) : row.Veiled row := ⟨rfl, rfl⟩

section Veils
variable {E : ℕ → Prop} {env : Env} {db db' : Db} {w : ℕ}

/-! ## Writes under the veil -/

theorem Db.Veiled.liveBalance (h : db.Veiled E db') (w : ℕ) (now : Time) :
    db'.liveBalance w now = db.liveBalance w now := by
  unfold Db.liveBalance
  rw [h.lots]

theorem Db.Veiled.withLots (h : db.Veiled E db') (lots : Table CreditLot) :
    Db.Veiled E { db with lots } { db' with lots } :=
  ⟨h.wallets, rfl, h.transactions, h.holds, h.owned⟩

theorem Db.Veiled.addTransaction (h : db.Veiled E db') {row row' : Time → ℕ → Transaction}
    (hrow : ∀ t u, (row t u).Veiled (row' t u)) :
    Db.Veiled E (db.addTransaction env row) (db'.addTransaction env row') where
  wallets := h.wallets
  lots := h.lots
  transactions := by
    unfold Db.addTransaction
    rw [← h.transactions.next]
    exact h.transactions.insert (hrow _ _)
  holds := h.holds
  owned := h.owned

theorem Db.Veiled.syncBalance (h : db.Veiled E db') (w : ℕ) (now : Time) :
    Db.Veiled E (db.syncBalance w now) (db'.syncBalance w now) where
  wallets := by
    unfold Db.syncBalance
    rw [h.liveBalance]
    dsimp only
    refine h.wallets.modify fun wallet wallet' hveiled => ?_
    unfold Wallet.Veiled at hveiled ⊢
    rw [hveiled]
  lots := h.lots
  transactions := h.transactions
  holds := h.holds
  owned := fun v hv => by
    obtain ⟨wallet, hwallet⟩ := h.owned v hv
    unfold Db.syncBalance
    rw [Table.get?_modify, hwallet]
    split
    · exact ⟨_, rfl⟩
    · exact ⟨_, rfl⟩

/-- A write to one hold that sees neither words nor metadata. -/
theorem Db.Veiled.withHold (h : db.Veiled E db') (k : ℕ) {f : CreditHold → CreditHold}
    (hf : ∀ held : CreditHold, (f held).metadata = held.metadata ∧ (f held).wallet = held.wallet)
    (hsame : ∀ (held : CreditHold) description metadata,
      f { held with description, metadata } = { f held with description, metadata }) :
    Db.Veiled E { db with holds := db.holds.modify k f } { db' with holds := db'.holds.modify k f } where
  wallets := h.wallets
  lots := h.lots
  transactions := h.transactions
  holds := h.holds.modify fun held held' hveiled => by
    refine ⟨?_, ?_⟩
    · rw [hveiled.same, hsame]
    · rw [(hf held').1, (hf held).1, (hf held).2]
      exact hveiled.waived
  owned := h.owned

/-! ## Sweeps -/

theorem Db.Veiled.expireLot (h : db.Veiled E db') (k : ℕ) (lot : CreditLot) (running : ℤ) :
    Db.Veiled E (expireLot env w k lot running db) (expireLot env w k lot running db') := by
  unfold StapelBilling.expireLot
  rw [h.lots]
  exact (h.withLots _).addTransaction fun t u => Transaction.Veiled.refl _

theorem Db.Veiled.expireLots (h : db.Veiled E db') (due : List (ℕ × CreditLot)) (running : ℤ) :
    Db.Veiled E (expireLots env w due running db) (expireLots env w due running db') := by
  induction due generalizing db db' running with
  | nil => exact h
  | cons r due ih => exact ih (h.expireLot r.1 r.2 _) _

theorem Db.Veiled.dueLots (h : db.Veiled E db') (w : ℕ) (now : Time) :
    db'.dueLots w now = db.dueLots w now := by
  unfold Db.dueLots
  rw [h.lots]

theorem Db.Veiled.expireDueLots (h : db.Veiled E db') (env : Env) (w : ℕ) :
    (expireDueLots env w db').1 = (expireDueLots env w db).1 ∧
      Db.Veiled E (expireDueLots env w db).2 (expireDueLots env w db').2 := by
  unfold StapelBilling.expireDueLots
  rw [h.dueLots, h.liveBalance]
  by_cases hdue : db.dueLots w env.now = []
  · simp only [if_pos hdue]
    exact ⟨trivial, h⟩
  · simp only [if_neg hdue]
    exact ⟨trivial, (h.expireLots _ _).syncBalance w env.now⟩

/-! ## What settles a hold -/

theorem Db.Veiled.settleHold (h : db.Veiled E db') (env : Env) (k : ℕ) (status : HoldStatus) :
    Db.Veiled E (settleHold env k status db) (settleHold env k status db') :=
  h.withHold k (f := fun held => { held with
    status
    resolvedAt := some env.now }) (fun _ => ⟨rfl, rfl⟩) fun _ _ _ => rfl

theorem Db.Veiled.allocateMore (h : db.Veiled E db') (env : Env) (k : ℕ) (taken : List (ℕ × ℤ)) :
    Db.Veiled E (allocateMore env k taken db) (allocateMore env k taken db') :=
  h.withHold k (f := fun held => { held with
    allocations := appendAllocations env taken held.allocations }) (fun _ => ⟨rfl, rfl⟩) fun _ _ _ => rfl

theorem Db.Veiled.refundAllocation (h : db.Veiled E db') (k v a : ℕ) (alloc : HoldAllocation)
    (amount : ℤ) : Db.Veiled E (refundAllocation env k v a alloc amount db)
      (refundAllocation env k v a alloc amount db') where
  wallets := h.wallets
  lots := by
    unfold StapelBilling.refundAllocation
    rw [h.lots]
  transactions := h.transactions
  holds := (h.withHold k (f := fun held => { held with
    allocations := held.allocations.modify a fun alloc =>
      { alloc with credits := alloc.credits - amount } }) (fun _ => ⟨rfl, rfl⟩) fun _ _ _ => rfl).holds
  owned := h.owned

theorem Db.Veiled.refundEach (h : db.Veiled E db') (k v : ℕ) (rows : List (ℕ × HoldAllocation))
    (outstanding : ℤ) : Db.Veiled E (refundEach env k v rows outstanding db)
      (refundEach env k v rows outstanding db') := by
  induction rows generalizing db db' outstanding with
  | nil => exact h
  | cons r rows ih =>
    unfold StapelBilling.refundEach
    split
    · exact h
    · dsimp only
      split
      · exact ih h _
      · exact ih (h.refundAllocation k v r.1 r.2 _) _

theorem Db.Veiled.refundAllocations (h : db.Veiled E db') (k : ℕ) {held held' : CreditHold}
    (hheld : held.Veiled E held') (n : ℤ) :
    Db.Veiled E (refundAllocations env k held n db) (refundAllocations env k held' n db') := by
  unfold StapelBilling.refundAllocations
  rw [hheld.same]
  exact h.refundEach k held.wallet _ n

/-- A draw on the same lots takes the same, or is refused alike. -/
theorem Db.Veiled.consumeLots (h : db.Veiled E db') (w : ℕ) (n : ℤ) (now : Time) :
    (∃ e, consumeLots w n now db = .error e ∧ consumeLots w n now db' = .error e) ∨
      ∃ taken d d', consumeLots w n now db = .ok (taken, d) ∧
        consumeLots w n now db' = .ok (taken, d') ∧ d.Veiled E d' := by
  have hordered : db'.liveLotsOrdered w now = db.liveLotsOrdered w now := by
    unfold Db.liveLotsOrdered
    rw [h.lots]
  unfold StapelBilling.consumeLots
  simp only [hordered, h.lots]
  split
  · exact Or.inl ⟨_, rfl, rfl⟩
  · exact Or.inr ⟨_, _, _, rfl, rfl, h.withLots _⟩

/-- An adjustment of the same hold comes to the same. -/
theorem Db.Veiled.adjustHold (h : db.Veiled E db') {held held' : CreditHold}
    (hheld : held.Veiled E held') (w : ℕ) (actual : ℤ) (args : CaptureArgs) :
    (∃ e, adjustHold env w held actual args db = .error e ∧
      adjustHold env w held' actual args db' = .error e) ∨
      ∃ d d', adjustHold env w held actual args db = .ok d ∧
        adjustHold env w held' actual args db' = .ok d' ∧ d.Veiled E d' := by
  have hcredits : held'.credits = held.credits := by rw [hheld.same]
  unfold StapelBilling.adjustHold
  rw [hcredits]
  by_cases hmore : held.credits < actual
  · simp only [if_pos hmore]
    rcases h.consumeLots w (actual - held.credits) env.now with ⟨e, he, he'⟩ |
      ⟨taken, d, d', hd, hd', hveiled⟩
    · exact Or.inl ⟨e, by rw [he], by rw [he']⟩
    · exact Or.inr ⟨_, _, by rw [hd], by rw [hd'], hveiled.allocateMore env args.hold taken⟩
  · simp only [if_neg hmore]
    by_cases hless : actual < held.credits
    · simp only [if_pos hless]
      exact Or.inr ⟨_, _, rfl, rfl, ((h.refundAllocations args.hold hheld _).expireDueLots env w).2⟩
    · simp only [if_neg hless]
      exact Or.inr ⟨db, db', rfl, rfl, h⟩

/-- A charge of the same amount, whatever row it writes besides. -/
theorem Db.Veiled.charge (h : db.Veiled E db') (w k : ℕ) {row row' : ℤ → Time → ℕ → Transaction}
    (hrow : ∀ balance t u, (row balance t u).Veiled (row' balance t u)) :
    Db.Veiled E
      (StapelBilling.settleHold env k .captured ((db.syncBalance w env.now).addTransaction env
        (row (db.liveBalance w env.now))))
      (StapelBilling.settleHold env k .captured ((db'.syncBalance w env.now).addTransaction env
        (row' (db'.liveBalance w env.now)))) := by
  rw [h.liveBalance]
  exact ((h.syncBalance w env.now).addTransaction (hrow _)).settleHold env k .captured

/-- The charge row of a hold names it. -/
theorem chargeRow_veiled {held held' : CreditHold} (hheld : held.Veiled E held') (args : CaptureArgs)
    (w : ℕ) (lot lot' : Option ℕ) (delta balance : ℤ) (t : Time) (u : ℕ) {metadata metadata' : Metadata}
    (hold : metadata .holdId = some (.ref .hold args.hold))
    (hold' : metadata' .holdId = some (.ref .hold args.hold)) :
    Transaction.Veiled
      { wallet := w
        lot
        type := held.type
        creditsDelta := delta
        balanceAfter := balance
        description := orText args.description held.description
        metadata
        createdAt := t
        uuid := u }
      { wallet := w
        lot := lot'
        type := held'.type
        creditsDelta := delta
        balanceAfter := balance
        description := orText args.description held'.description
        metadata := metadata'
        createdAt := t
        uuid := u } := by
  refine ⟨?_, hold'.trans hold.symm⟩
  have htype : held'.type = held.type := by rw [hheld.same]
  rw [htype]

/-! ## The calls -/

/-- A hold whose billing at nothing gives nothing back. -/
def CreditHold.ReservesNothing (held : CreditHold) : Prop :=
  held.credits = 0 ∨ 0 < held.credits ∧ ∀ r ∈ held.allocations.rows, r.2.credits ≤ 0

/-- A call that settles holds, or one of the sweeps. -/
inductive SettleCall
  | capture (args : CaptureArgs)
  | release (args : ReleaseArgs)
  | expireCreditLots
  | expireHolds

/-- The state a successful call leaves. -/
def SettleCall.exec (env : Env) : SettleCall → Db → Except BillingError Db
  | capture args, db => (StapelBilling.capture env args db).map Prod.snd
  | release args, db => StapelBilling.release env args db
  | expireCreditLots, db => .ok (StapelBilling.expireCreditLots env db).2
  | expireHolds, db => .ok (StapelBilling.expireHolds env db)

/-- **A call does not miss the mark** on an erased hold: where it bills an open, waived hold of
the wallets `E`, it bills it for nothing, nothing is due to be swept, and nothing was
reserved. -/
def SettleCall.MissesNoMark (E : ℕ → Prop) (env : Env) (db : Db) : SettleCall → Prop
  | capture args => ∀ held, db.holds.get? args.hold = some held → E held.wallet →
      held.status = .held → held.metadata.wasWaived = true →
      0 ≤ args.actualCredits.getD held.credits →
      args.actualCredits.getD held.credits = 0 ∧ db.dueLots held.wallet env.now = [] ∧
        held.ReservesNothing
  | _ => True

/-- The same answer: refused alike, or done alike. -/
def AnswersAlike (E : ℕ → Prop) (x x' : Except BillingError Db) : Prop :=
  (∃ e, x = .error e ∧ x' = .error e) ∨ ∃ d d', x = .ok d ∧ x' = .ok d' ∧ d.Veiled E d'

theorem AnswersAlike.refused {e : BillingError} : AnswersAlike E (.error e) (.error e) :=
  Or.inl ⟨e, rfl, rfl⟩

theorem AnswersAlike.done {d d' : Db} (h : d.Veiled E d') : AnswersAlike E (.ok d) (.ok d') :=
  Or.inr ⟨d, d', rfl, rfl, h⟩

/-- Billing a hold that reserves nothing for nothing changes neither. -/
theorem adjustHold_nothing {held : CreditHold} (hnothing : held.ReservesNothing) {args : CaptureArgs}
    (hdue : db.dueLots w env.now = []) : adjustHold env w held 0 args db = .ok db := by
  have hempty : ∀ (rows : List (ℕ × HoldAllocation)) (n : ℤ), (∀ r ∈ rows, r.2.credits ≤ 0) →
      refundEach env args.hold held.wallet rows n db = db := by
    intro rows
    induction rows with
    | nil => exact fun _ _ => rfl
    | cons r rows ih =>
      intro n hrows
      unfold refundEach
      have hle : min n r.2.credits ≤ 0 := le_trans (min_le_right _ _) (hrows r List.mem_cons_self)
      split
      · rfl
      · rw [if_pos hle]
        exact ih n fun r hr => hrows r (List.mem_cons_of_mem _ hr)
  unfold adjustHold
  rcases hnothing with hzero | ⟨hpos, hrows⟩
  · rw [if_neg (by omega), if_neg (by omega)]
  · rw [if_neg (by omega), if_pos hpos]
    have hrefund : refundAllocations env args.hold held (held.credits - 0) db = db :=
      hempty _ _ fun r hr => hrows r (mem_orderBy.mp hr)
    rw [hrefund, expireDueLots, if_pos hdue]

theorem captureRow_none_iff {k : ℕ} : captureRow w k db = none ↔
    db.transactions.select (fun row => row.wallet = w ∧ row.metadata .holdId = some (.ref .hold k)) =
      [] := by
  unfold captureRow
  rw [List.head?_eq_none_iff, orderBy_eq_nil_iff]

/-- A captured hold's row is found under the veil where it was found. -/
theorem Db.Veiled.captureRow (h : db.Veiled E db') (w k : ℕ) :
    captureRow w k db' = none ↔ captureRow w k db = none := by
  rw [captureRow_none_iff, captureRow_none_iff]
  have hkeys := h.transactions.select_keys
    (p := fun row => row.wallet = w ∧ row.metadata .holdId = some (.ref .hold k))
    (q := fun row => row.wallet = w ∧ row.metadata .holdId = some (.ref .hold k))
    fun row row' hrow => by
      rw [hrow.hold, hrow.same]
  rw [← List.map_eq_nil_iff (f := Prod.fst), ← hkeys, List.map_eq_nil_iff]

/-! ## Capture, case by case -/

section Cases
variable {args : CaptureArgs} {held : CreditHold}

theorem capture_absent (hk : db.holds.get? args.hold = none) :
    capture env args db = .error (.holdNotFound args.hold) := by
  simp only [capture, holdWallet, hk]

theorem capture_orphaned (hk : db.holds.get? args.hold = some held)
    (hw : db.wallets.get? held.wallet = none) : capture env args db = .error .doesNotExist := by
  simp only [capture, holdWallet, hk, captureLocked, hw]

theorem capture_again {wallet : Wallet} (hk : db.holds.get? args.hold = some held)
    (hw : db.wallets.get? held.wallet = some wallet) (hs : held.status = .captured) :
    (SettleCall.capture args).exec env db =
      if captureRow held.wallet args.hold db = none then .error (.chargeMissing args.hold)
      else .ok db := by
  simp only [SettleCall.exec, capture, holdWallet, hk, captureLocked, hw, hs]
  cases hrow : captureRow held.wallet args.hold db with
  | none => rfl
  | some r => rfl

theorem capture_resolved {wallet : Wallet} (hk : db.holds.get? args.hold = some held)
    (hw : db.wallets.get? held.wallet = some wallet)
    (hs : held.status = .released ∨ held.status = .expired) :
    capture env args db = .error (.holdState args.hold held.status) := by
  rcases hs with hs | hs
  · simp only [capture, holdWallet, hk, captureLocked, hw, hs]
  · simp only [capture, holdWallet, hk, captureLocked, hw, hs]

theorem capture_negative {wallet : Wallet} (hk : db.holds.get? args.hold = some held)
    (hw : db.wallets.get? held.wallet = some wallet) (hs : held.status = .held)
    (hneg : args.actualCredits.getD held.credits < 0) :
    capture env args db = .error (.valueError "actual_credits must not be negative") := by
  simp only [capture, holdWallet, hk, captureLocked, hw, hs, if_pos hneg]

theorem capture_waived {wallet : Wallet} (hk : db.holds.get? args.hold = some held)
    (hw : db.wallets.get? held.wallet = some wallet) (hs : held.status = .held)
    (hneg : 0 ≤ args.actualCredits.getD held.credits) (hwaived : held.metadata.wasWaived = true) :
    (SettleCall.capture args).exec env db = .ok (meterOnlyCapture env held.wallet held
      (args.actualCredits.getD held.credits) args db).2 := by
  simp only [SettleCall.exec, capture, holdWallet, hk, captureLocked, hw, hs, if_neg hneg.not_gt,
    if_pos hwaived, Except.map]

theorem capture_billed {wallet : Wallet} (hk : db.holds.get? args.hold = some held)
    (hw : db.wallets.get? held.wallet = some wallet) (hs : held.status = .held)
    (hneg : 0 ≤ args.actualCredits.getD held.credits) (hbilled : ¬ held.metadata.wasWaived = true) :
    (SettleCall.capture args).exec env db =
      (adjustHold env held.wallet held (args.actualCredits.getD held.credits) args
        (expireDueLots env held.wallet db).2).map fun d => (billHold env held.wallet held
          (args.actualCredits.getD held.credits) args d).2 := by
  simp only [SettleCall.exec, capture, holdWallet, hk, captureLocked, hw, hs, if_neg hneg.not_gt,
    if_neg hbilled]
  cases adjustHold env held.wallet held (args.actualCredits.getD held.credits) args
    (expireDueLots env held.wallet db).2 with
  | error e => rfl
  | ok d => rfl

end Cases

/-! ## The calls keep the veil -/

/-- Both runs meter a waived hold that is not erased. -/
theorem Db.Veiled.meterOnlyCapture (h : db.Veiled E db') {held held' : CreditHold}
    (hheld : held.Veiled E held') (w : ℕ) (actual : ℤ) (args : CaptureArgs) :
    Db.Veiled E (meterOnlyCapture env w held actual args db).2
      (meterOnlyCapture env w held' actual args db').2 :=
  h.charge w args.hold fun balance t u => chargeRow_veiled hheld args w none none 0 balance t u
    rfl rfl

/-- Both runs bill a hold that is not waived. -/
theorem Db.Veiled.billHold (h : db.Veiled E db') {held held' : CreditHold}
    (hheld : held.Veiled E held') (w : ℕ) (actual : ℤ) (args : CaptureArgs) :
    Db.Veiled E (billHold env w held actual args db).2 (billHold env w held' actual args db').2 :=
  h.charge w args.hold fun balance t u => chargeRow_veiled hheld args w _ _ (-actual) balance t u
    rfl rfl

/-- One run meters at zero what the other bills at zero. -/
theorem Db.Veiled.meterAsBill (h : db.Veiled E db') {held held' : CreditHold}
    (hheld : held.Veiled E held') (w : ℕ) (args : CaptureArgs) :
    Db.Veiled E (StapelBilling.meterOnlyCapture env w held 0 args db).2
      (StapelBilling.billHold env w held' 0 args db').2 :=
  h.charge w args.hold fun balance t u => chargeRow_veiled hheld args w none _ 0 balance t u
    rfl rfl

/-- A capture that misses no mark answers alike. -/
theorem Db.Veiled.capture (h : db.Veiled E db') {args : CaptureArgs}
    (hc : (SettleCall.capture args).MissesNoMark E env db) :
    AnswersAlike E ((SettleCall.capture args).exec env db) ((SettleCall.capture args).exec env db') := by
  cases hk : db.holds.get? args.hold with
  | none =>
    have hk' := h.holds.get?_none hk
    simp only [SettleCall.exec, capture_absent hk, capture_absent hk']
    exact AnswersAlike.refused
  | some held =>
    obtain ⟨held', hk', hheld⟩ := h.holds.get?_some hk
    have hwallet : held'.wallet = held.wallet := by rw [hheld.same]
    have hcredits : held'.credits = held.credits := by rw [hheld.same]
    have hstatus : held'.status = held.status := by rw [hheld.same]
    cases hw : db.wallets.get? held.wallet with
    | none =>
      have hw' := h.wallets.get?_none hw
      simp only [SettleCall.exec, capture_orphaned hk hw, capture_orphaned hk' (hwallet ▸ hw')]
      exact AnswersAlike.refused
    | some wallet =>
      obtain ⟨wallet', hw', -⟩ := h.wallets.get?_some hw
      rw [← hwallet] at hw'
      cases hs : held.status with
      | captured =>
        rw [capture_again hk hw hs, capture_again hk' hw' (hstatus.trans hs), hwallet]
        -- a capture repeated answers with the row, which the erasure keeps
        by_cases hrow : StapelBilling.captureRow held.wallet args.hold db = none
        · rw [if_pos hrow, if_pos ((h.captureRow _ _).mpr hrow)]
          exact AnswersAlike.refused
        · rw [if_neg hrow, if_neg fun hrow' => hrow ((h.captureRow _ _).mp hrow')]
          exact AnswersAlike.done h
      | released =>
        simp only [SettleCall.exec, capture_resolved hk hw (Or.inl hs),
          capture_resolved hk' hw' (Or.inl (hstatus.trans hs)), hstatus]
        exact AnswersAlike.refused
      | expired =>
        simp only [SettleCall.exec, capture_resolved hk hw (Or.inr hs),
          capture_resolved hk' hw' (Or.inr (hstatus.trans hs)), hstatus]
        exact AnswersAlike.refused
      | held =>
        by_cases hneg : args.actualCredits.getD held.credits < 0
        · simp only [SettleCall.exec, capture_negative hk hw hs hneg,
            capture_negative hk' hw' (hstatus.trans hs) (hcredits ▸ hneg)]
          exact AnswersAlike.refused
        have hpos := not_lt.mp hneg
        have hpos' : 0 ≤ args.actualCredits.getD held'.credits := hcredits ▸ hpos
        -- an open hold is metered where its mark is read, and billed elsewhere
        by_cases hwaived : held.metadata.wasWaived = true
        · rw [capture_waived hk hw hs hpos hwaived]
          by_cases herased : E held.wallet
          · -- the mark is gone, and the erased run bills what this one only meters
            obtain ⟨hzero, hdue, hnothing⟩ := hc held hk herased hs hwaived hpos
            have hbilled : ¬ held'.metadata.wasWaived = true := fun hmark =>
              (hheld.waived.mp hmark).2 herased
            have hsweep : (StapelBilling.expireDueLots env held.wallet db').2 = db' := by
              unfold StapelBilling.expireDueLots
              rw [if_pos ((h.dueLots _ _).trans hdue)]
            have hnothing' : held'.ReservesNothing := by
              rw [hheld.same]
              exact hnothing
            rw [capture_billed hk' hw' (hstatus.trans hs) hpos' hbilled, hwallet, hcredits, hsweep,
              hzero, adjustHold_nothing hnothing' ((h.dueLots _ _).trans hdue)]
            exact AnswersAlike.done (h.meterAsBill hheld held.wallet args)
          · rw [capture_waived hk' hw' (hstatus.trans hs) hpos' (hheld.waived.mpr ⟨hwaived, herased⟩),
              hwallet, hcredits]
            exact AnswersAlike.done (h.meterOnlyCapture hheld _ _ args)
        · have hbilled : ¬ held'.metadata.wasWaived = true := fun hmark =>
            hwaived (hheld.waived.mp hmark).1
          rw [capture_billed hk hw hs hpos hwaived,
            capture_billed hk' hw' (hstatus.trans hs) hpos' hbilled, hwallet, hcredits]
          rcases @Db.Veiled.adjustHold E env _ _ (h.expireDueLots env held.wallet).2 _ _ hheld held.wallet
            (args.actualCredits.getD held.credits) args with ⟨e, he, he'⟩ | ⟨d, d', hd, hd', hveiled⟩
          · rw [he, he']
            exact AnswersAlike.refused
          · rw [hd, hd']
            exact AnswersAlike.done (hveiled.billHold hheld _ _ args)

theorem Db.Veiled.release (h : db.Veiled E db') (args : ReleaseArgs) :
    AnswersAlike E (release env args db) (release env args db') := by
  unfold StapelBilling.release holdWallet
  cases hk : db.holds.get? args.hold with
  | none =>
    simp only [h.holds.get?_none hk]
    exact AnswersAlike.refused
  | some held =>
    obtain ⟨held', hk', hheld⟩ := h.holds.get?_some hk
    have hwallet : held'.wallet = held.wallet := by rw [hheld.same]
    have hstatus : held'.status = held.status := by rw [hheld.same]
    have hallocations : held'.allocations = held.allocations := by rw [hheld.same]
    simp only [hk', hwallet, releaseLocked, hk]
    cases hw : db.wallets.get? held.wallet with
    | none =>
      simp only [h.wallets.get?_none hw]
      exact AnswersAlike.refused
    | some wallet =>
      obtain ⟨wallet', hw', -⟩ := h.wallets.get?_some hw
      simp only [hw', hstatus]
      by_cases hs : held.status = .held
      · simp only [if_pos hs]
        refine AnswersAlike.done ?_
        unfold releaseHeld
        rw [hallocations]
        have hswept := (h.expireDueLots env held.wallet).2
        have hreturned := @Db.Veiled.refundAllocations E env _ _ hswept args.hold _ _ hheld
          (held.allocations.sum fun _ alloc => alloc.credits)
        exact ((hreturned.expireDueLots env held.wallet).2.syncBalance _ _).settleHold env _ _
      · simp only [if_neg hs]
        exact AnswersAlike.done h

theorem Db.Veiled.expireCreditLots (h : db.Veiled E db') :
    Db.Veiled E (expireCreditLots env db).2 (expireCreditLots env db').2 := by
  have hrun : ∀ (wallets : List ℕ) (d d' : Db), d.Veiled E d' →
      Db.Veiled E (expireWallets env wallets d).2 (expireWallets env wallets d').2 := by
    intro wallets
    induction wallets with
    | nil => exact fun _ _ hveiled => hveiled
    | cons w wallets ih =>
      intro d d' hveiled
      unfold expireWallets
      cases hw : d.wallets.get? w with
      | none =>
        simp only [hveiled.wallets.get?_none hw]
        exact ih d d' hveiled
      | some wallet =>
        obtain ⟨wallet', hw', -⟩ := hveiled.wallets.get?_some hw
        simp only [hw']
        exact ih _ _ (hveiled.expireDueLots env w).2
  unfold StapelBilling.expireCreditLots Db.dueWallets
  rw [h.lots]
  exact hrun _ db db' h

/-- The veil hides neither a deadline nor the age of a hold. -/
theorem Db.Veiled.staleHolds (h : db.Veiled E db') {now : Time} :
    db.staleHolds now = db'.staleHolds now := by
  have hages : ((db.holds.select (CreditHold.Stale now)).map fun r => (r.1, r.2.createdAt)) =
      (db'.holds.select (CreditHold.Stale now)).map fun r => (r.1, r.2.createdAt) := by
    refine h.holds.map_select (p := CreditHold.Stale now) (q := CreditHold.Stale now)
      (f := fun k held => (k, held.createdAt)) (g := fun k held => (k, held.createdAt))
      (fun held held' hheld => ?_) fun k held held' hheld => ?_
    · unfold CreditHold.Stale
      rw [hheld.same]
    · rw [hheld.same]
  have hsorted : ∀ rows : List (ℕ × CreditHold),
      (orderBy (fun r => OrderDual.toDual r.2.createdAt) rows).map Prod.fst =
        (orderBy (fun r : ℕ × Time => OrderDual.toDual r.2)
          (rows.map fun r => (r.1, r.2.createdAt))).map Prod.fst := by
    intro rows
    rw [← map_orderBy (fun r : ℕ × CreditHold => (r.1, r.2.createdAt)) rows fun _ => rfl,
      List.map_map]
    rfl
  unfold Db.staleHolds
  rw [hsorted, hsorted, hages]

theorem Db.Veiled.expireHolds (h : db.Veiled E db') :
    Db.Veiled E (expireHolds env db) (expireHolds env db') := by
  have hrun : ∀ (holds : List ℕ) (d d' : Db), d.Veiled E d' →
      Db.Veiled E (releaseStale env holds d) (releaseStale env holds d') := by
    intro holds
    induction holds with
    | nil => exact fun _ _ hveiled => hveiled
    | cons k holds ih =>
      intro d d' hveiled
      unfold releaseStale
      rcases @Db.Veiled.release E env _ _ hveiled { hold := k, expired := true } with ⟨e, he, he'⟩ |
        ⟨r, r', hr, hr', hnext⟩
      · rw [he, he']
        exact hveiled
      · rw [hr, hr']
        exact ih r r' hnext
  unfold StapelBilling.expireHolds
  rw [← h.staleHolds]
  exact hrun _ db db' h

/-! ## What two runs show -/

/-- The deltas of the ledger, oldest row first. -/
def Db.deltas (db : Db) : List ℤ := db.transactions.rows.map fun r => r.2.creditsDelta

/-- **The same settlements**: the same lots, the same outcome and allocations for every hold,
the same cached balances and the same ledger deltas in the same order. -/
structure Db.SettlesAlike (db db' : Db) : Prop where
  lots : db.lots = db'.lots
  holds : (db.holds.rows.map fun r => (r.1, r.2.status, r.2.allocations)) =
    db'.holds.rows.map fun r => (r.1, r.2.status, r.2.allocations)
  balances : (db.wallets.rows.map fun r => (r.1, r.2.balance)) =
    db'.wallets.rows.map fun r => (r.1, r.2.balance)
  deltas : db.deltas = db'.deltas

theorem Db.Veiled.settlesAlike (h : db.Veiled E db') : db.SettlesAlike db' where
  lots := h.lots.symm
  holds := h.holds.map_rows (f := fun k held => (k, held.status, held.allocations))
    (g := fun k held => (k, held.status, held.allocations)) fun k held held' hheld => by
      rw [hheld.same]
  balances := h.wallets.map_rows (f := fun k wallet => (k, wallet.balance))
    (g := fun k wallet => (k, wallet.balance)) fun k wallet wallet' hwallet => by
      rw [show wallet' = _ from hwallet]
  deltas := h.transactions.map_rows (f := fun _ row => row.creditsDelta)
    (g := fun _ row => row.creditsDelta) fun k row row' hrow => by
      rw [hrow.same]

theorem deltas_addTransaction (row : Time → ℕ → Transaction) :
    (db.addTransaction env row).deltas = db.deltas ++ [(row (env.createdAt db.transactions.next)
      (env.uuid db.transactions.next)).creditsDelta] := by
  simp only [Db.deltas, Db.addTransaction, Table.insert, List.map_append, List.map_cons, List.map_nil]

/-- A sweep writes one row for every lot due. -/
theorem expireDueLots_deltas (w : ℕ) (db : Db) : (expireDueLots env w db).2.deltas =
    db.deltas ++ (db.dueLots w env.now).map fun r => -r.2.creditsRemaining := by
  have hlots : ∀ (due : List (ℕ × CreditLot)) (running : ℤ) (d : Db),
      (expireLots env w due running d).deltas =
        d.deltas ++ due.map fun r => -r.2.creditsRemaining := by
    intro due
    induction due with
    | nil => exact fun _ d => (List.append_nil d.deltas).symm
    | cons r due ih =>
      intro running d
      rw [expireLots, ih, List.map_cons, List.append_cons]
      congr 1
      exact @deltas_addTransaction env { d with lots := d.lots.modify r.1 CreditLot.zero } _
  unfold expireDueLots
  by_cases hdue : db.dueLots w env.now = []
  · rw [hdue, List.map_nil, List.append_nil]
    simp only [if_true]
  · simp only [if_neg hdue]
    exact hlots _ _ db

theorem refundEach_deltas (k v : ℕ) (rows : List (ℕ × HoldAllocation)) (outstanding : ℤ) (db : Db) :
    (refundEach env k v rows outstanding db).deltas = db.deltas := by
  induction rows generalizing db outstanding with
  | nil => rfl
  | cons r rows ih =>
    unfold refundEach
    split
    · rfl
    · dsimp only
      split
      · exact ih _ _
      · exact ih _ _

/-- Handing something back makes a lot. -/
theorem refundEach_next (k v : ℕ) (rows : List (ℕ × HoldAllocation)) (outstanding : ℤ) (db : Db) :
    db.lots.next ≤ (refundEach env k v rows outstanding db).lots.next ∧
      (0 < outstanding → (refundEach env k v rows outstanding db).lots.next = db.lots.next →
        ∀ r ∈ rows, r.2.credits ≤ 0) := by
  induction rows generalizing db outstanding with
  | nil => exact ⟨le_rfl, fun _ _ r hr => absurd hr List.not_mem_nil⟩
  | cons r rows ih =>
    unfold refundEach
    split
    · exact ⟨le_rfl, fun hpos => by omega⟩
    · dsimp only
      split
      · rename_i hle
        refine ⟨(ih _ _).1, fun hpos hnext s hs => ?_⟩
        rcases List.mem_cons.mp hs with rfl | hs
        · omega
        · exact (ih _ _).2 hpos hnext s hs
      · have hgrows := (ih (outstanding - min outstanding r.2.credits)
          (refundAllocation env k v r.1 r.2 (min outstanding r.2.credits) db)).1
        have hnew : (refundAllocation env k v r.1 r.2 (min outstanding r.2.credits) db).lots.next =
            db.lots.next + 1 := rfl
        exact ⟨by omega, fun _ hnext => by omega⟩

/-- What an adjustment shows of itself: it writes rows after those that are there, and where it
leaves the lots alone while it lowers a reservation to nothing, nothing was reserved. -/
theorem adjustHold_shows {held : CreditHold} {actual : ℤ} {args : CaptureArgs}
    (h : adjustHold env w held actual args db = .ok db') :
    (∃ more, db'.deltas = db.deltas ++ more) ∧
      (actual = 0 → db'.lots = db.lots → held.ReservesNothing) := by
  unfold adjustHold at h
  by_cases hmore : held.credits < actual
  · rw [if_pos hmore] at h
    cases hconsume : consumeLots w (actual - held.credits) env.now db with
    | error e =>
      rw [hconsume] at h
      cases h
    | ok p =>
      rw [hconsume] at h
      obtain rfl := Except.ok.inj h
      obtain ⟨hdraws, htotal, hspent⟩ := consumeLots_ok (by omega) hconsume
      refine ⟨⟨[], ?_⟩, fun hzero hlots => ?_⟩
      · rw [hspent, List.append_nil]
        rfl
      · -- a draw takes what is more than nothing out of the lots
        have hdrawn : p.2.lotTotal = db.lotTotal - drawn p.1 := by
          rw [hspent]
          exact lotTotal_spendLots hdraws
        have hsame : p.2.lotTotal = db.lotTotal :=
          congrArg (fun lots : Table CreditLot => lots.sum fun _ lot => lot.creditsRemaining) hlots
        omega
  · rw [if_neg hmore] at h
    by_cases hless : actual < held.credits
    · rw [if_pos hless] at h
      obtain rfl := Except.ok.inj h
      refine ⟨⟨_, (expireDueLots_deltas w _).trans (congrArg (· ++ _)
        (refundEach_deltas _ _ _ _ db))⟩, fun hzero hlots => Or.inr ⟨by omega, fun r hr => ?_⟩⟩
      have hnext := congrArg Table.next hlots
      rw [expireDueLots_lots_next] at hnext
      exact (refundEach_next _ _ _ _ db).2 (by omega) hnext r (mem_orderBy.mpr hr)
    · rw [if_neg hless] at h
      obtain rfl := Except.ok.inj h
      exact ⟨⟨[], (List.append_nil _).symm⟩, fun hzero _ => Or.inl (by omega)⟩

/-- **A missed mark shows**: where an erased, waived hold is billed for anything, the runs part
at once. -/
theorem missed_mark_shows (h : db.Veiled E db') {c : SettleCall} (hc : ¬ c.MissesNoMark E env db)
    (hrefusal : refusal (c.exec env db) = refusal (c.exec env db')) :
    ¬ Db.SettlesAlike (commit (c.exec env) db) (commit (c.exec env) db') := by
  intro halike
  cases c with
  | release args => exact hc trivial
  | expireCreditLots => exact hc trivial
  | expireHolds => exact hc trivial
  | capture args =>
    simp only [SettleCall.MissesNoMark, not_forall] at hc
    obtain ⟨held, hk, herased, hs, hwaived, hpos, hmissed⟩ := hc
    obtain ⟨wallet, hw⟩ := h.owned held.wallet herased
    obtain ⟨held', hk', hheld⟩ := h.holds.get?_some hk
    obtain ⟨wallet', hw', -⟩ := h.wallets.get?_some hw
    have hwallet : held'.wallet = held.wallet := by rw [hheld.same]
    have hcredits : held'.credits = held.credits := by rw [hheld.same]
    have hstatus : held'.status = held.status := by rw [hheld.same]
    have hbilled : ¬ held'.metadata.wasWaived = true := fun hmark => (hheld.waived.mp hmark).2 herased
    rw [← hwallet] at hw'
    have hmeter := @capture_waived env db args held _ hk hw hs hpos hwaived
    have hbill := @capture_billed env db' args held' _ hk' hw' (hstatus.trans hs) (hcredits ▸ hpos) hbilled
    rw [hwallet, hcredits] at hbill
    rw [hmeter, hbill] at hrefusal
    cases hadjust : adjustHold env held.wallet held' (args.actualCredits.getD held.credits) args
        (expireDueLots env held.wallet db').2 with
    | error e =>
      rw [hadjust] at hrefusal
      cases hrefusal
    | ok d =>
      rw [hadjust] at hbill
      rw [commit_ok hmeter, commit_ok hbill] at halike
      obtain ⟨⟨more, hmore⟩, hnothing⟩ := adjustHold_shows hadjust
      -- alike, both runs wrote what the metered one did: one row of zero credits
      have hledger : db.deltas ++ [0] = db.deltas ++ (((db.dueLots held.wallet env.now).map
          fun r => -r.2.creditsRemaining) ++ more ++ [-args.actualCredits.getD held.credits]) := by
        have hmetered : (meterOnlyCapture env held.wallet held (args.actualCredits.getD held.credits)
            args db).2.deltas = db.deltas ++ [0] := deltas_addTransaction _
        have hcharged : (billHold env held.wallet held' (args.actualCredits.getD held.credits)
            args d).2.deltas = d.deltas ++ [-args.actualCredits.getD held.credits] :=
          deltas_addTransaction _
        rw [← hmetered, halike.deltas]
        refine hcharged.trans ?_
        rw [hmore, expireDueLots_deltas, h.dueLots, ← h.settlesAlike.deltas]
        simp only [List.append_assoc]
      have hrows := List.append_cancel_left hledger
      obtain ⟨hwritten, hzero⟩ := @List.append_inj' _ [] _ _ _ hrows rfl
      have hempty := List.append_eq_nil_iff.mp hwritten.symm
      have hdue := List.map_eq_nil_iff.mp hempty.1
      have hactual : args.actualCredits.getD held.credits = 0 := by
        have hdelta := List.head_eq_of_cons_eq hzero
        omega
      have hsweep : (expireDueLots env held.wallet db').2 = db' := by
        unfold expireDueLots
        rw [if_pos ((h.dueLots _ _).trans hdue)]
      have hlots : d.lots = (expireDueLots env held.wallet db').2.lots := by
        rw [hsweep, h.lots]
        exact halike.lots.symm
      -- and with no lot moved, the hold had nothing to hand back
      have hreserves : held'.ReservesNothing := hnothing hactual hlots
      rw [hheld.same] at hreserves
      exact hmissed ⟨hactual, hdue, hreserves⟩

theorem Db.Veiled.keeps (h : db.Veiled E db') {c : SettleCall} (hc : c.MissesNoMark E env db) :
    AnswersAlike E (c.exec env db) (c.exec env db') := by
  cases c with
  | capture args => exact h.capture hc
  | release args => exact h.release args
  | expireCreditLots => exact AnswersAlike.done h.expireCreditLots
  | expireHolds => exact AnswersAlike.done h.expireHolds

end Veils

/-! ## The erasure -/

/-- **An erasure draws the veil** over the wallets of its subject. -/
theorem eraseSubject_veiled {user : UserId} {db erased : Db}
    (h : eraseSubject "account" (some user) db = some erased) : db.Veiled (db.Owns user) erased := by
  obtain rfl := Option.some.inj h
  refine ⟨?_, rfl, ?_, ?_, fun w hw => ?_⟩
  · refine Table.Alike.rewritten (g := fun _ wallet =>
      if wallet.user = some user then { wallet with user := none } else wallet) (fun _ wallet => ?_) _
      rfl rfl
    split
    · exact rfl
    · exact rfl
  · refine Table.Alike.rewritten (g := fun _ row =>
      if db.Owns user row.wallet then
        { row with
          description := blank row.description
          metadata := row.metadata.scrub }
      else row) (fun _ row => ?_) _ rfl rfl
    split
    · exact ⟨rfl, rfl⟩
    · exact Transaction.Veiled.refl row
  · refine Table.Alike.rewritten (g := fun _ held =>
      if db.Owns user held.wallet then
        { held with
          description := blank held.description
          metadata := held.metadata.scrub }
      else held) (fun _ held => ?_) _ rfl rfl
    split
    · rename_i howns
      -- the mark is not among the keys that are kept
      exact ⟨rfl, iff_of_false Bool.false_ne_true fun hboth => hboth.2 howns⟩
    · rename_i howns
      exact ⟨rfl, ⟨fun hmark => ⟨hmark, howns⟩, And.left⟩⟩
  · obtain ⟨wallet, hwallet, -⟩ := hw
    exact ⟨wallet, hwallet⟩

/-- **Erased holds settle like any other, but for their mark.**  The calls after an erasure
leave the same lots, outcomes, allocations, balances and ledger deltas, with the same
refusals, as the same calls without it, exactly when none of them bills an open hold of the
subject that was waived, unless it bills it for nothing, nothing is due in its wallet and the
hold had reserved nothing. -/
theorem erased_holds_settle_alike_iff {user : UserId} {db erased : Db}
    (h : eraseSubject "account" (some user) db = some erased) (calls : List (Env × SettleCall)) :
    Twins (fun c => c.2.exec c.1) Db.SettlesAlike calls db erased ↔
      ∀ p ∈ trace (fun c : Env × SettleCall => c.2.exec c.1) calls db,
        p.1.2.MissesNoMark (db.Owns user) p.1.1 p.2 := by
  refine twins_iff (fun _ _ hveiled => hveiled.settlesAlike) (fun c d d' hveiled hmeets => ?_)
    (fun c d d' hveiled hmissed hrefusal => missed_mark_shows hveiled hmissed hrefusal)
    (eraseSubject_veiled h)
  rcases @Db.Veiled.keeps _ c.1 _ _ hveiled _ hmeets with ⟨e, he, he'⟩ | ⟨d₁, d₁', hd, hd', hnext⟩
  · rw [commit_error he, commit_error he', he, he']
    exact ⟨rfl, hveiled⟩
  · rw [commit_ok hd, commit_ok hd', hd, hd']
    exact ⟨rfl, hnext⟩

/-- An account of user `0` that bought eight credits and reserved five. -/
def openReservation (env : Env) : Db :=
  commit (fun db => (hold env
    { user := 0
      credits := 5
      type := .aiCharge
      idempotencyKey := "job" } db).map Prod.snd)
    (commit (fun db => (credit env
      { user := 0
        credits := 8
        type := .creditPurchase
        source := .purchase } db).map Prod.snd) {})

/-- A day on which user `0` is internal and only metered. -/
def staffDay : Env :=
  { Env.plain 0 with
    settings :=
      { internalAccountPolicy := .meterOnly
        internalAccountResolver := fun user => some (user = 0) } }

/-- A job that cost three credits, captured. -/
def captureJob (env : Env) : Env × SettleCall :=
  (env, .capture
    { hold := 0
      actualCredits := some 3 })

theorem erased_holds_settle_alike_iff_paying : ∃ erased,
    eraseSubject "account" (some 0) (openReservation (Env.plain 0)) = some erased ∧
      Twins (fun c => c.2.exec c.1) Db.SettlesAlike [captureJob (Env.plain 1)]
        (openReservation (Env.plain 0)) erased := by
  refine ⟨_, rfl, (erased_holds_settle_alike_iff rfl _).mpr fun p hp => ?_⟩
  obtain rfl := List.mem_singleton.mp hp
  intro held hheld _ _ hwaived
  have hbilled : (((openReservation (Env.plain 0)).holds.get? 0).map
      fun held => held.metadata.wasWaived) = some false := by decide +kernel
  rw [show (openReservation (Env.plain 0)).holds.get? 0 = some held from hheld] at hbilled
  exact absurd (hwaived.symm.trans (Option.some.inj hbilled)) (by decide)

/-- **An internal account is charged for its erasure**: what a waived hold would only have
metered is taken out of the lots. -/
theorem erased_hold_is_billed : ∃ erased,
    eraseSubject "account" (some 0) (openReservation staffDay) = some erased ∧
      ¬ Twins (fun c => c.2.exec c.1) Db.SettlesAlike [captureJob staffDay]
        (openReservation staffDay) erased := by
  refine ⟨_, rfl, fun htwins => ?_⟩
  have halike := (htwins.1 1).deltas
  exact absurd halike (by decide +kernel)

end StapelBilling
