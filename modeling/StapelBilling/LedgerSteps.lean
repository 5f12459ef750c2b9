import StapelBilling.Store.Journal
import StapelBilling.MergeBooks
import StapelBilling.MergeTotals
import StapelBilling.ServiceRuns

/-! # The ledger steps

Each ledger row says what it moved and the balance afterwards.  An operation that sweeps
the wallet before it moves anything writes rows that step from what the lots held before
it to what they hold after it, whatever is due and whatever debts collect.  An operation
that moves credits first and sweeps afterwards counts them into the sweep's rows, and
then once more in its own.
-/
namespace StapelBilling
open Store

variable {env : Env} {db db' : Db} {w start : ℕ} {before : ℤ}

/-- What a ledger row moved, and the balance it states. -/
def Transaction.entry (row : Transaction) : ℤ × ℤ := (row.creditsDelta, row.balanceAfter)

/-- The entries of wallet `w` that were written from key `start` on, in order. -/
def Db.entriesFrom (db : Db) (start w : ℕ) : List (ℤ × ℤ) :=
  db.transactions.entriesFrom (fun row => row.wallet = w) Transaction.entry start

/-- The rows written since `start` step from `before` to what the lots hold. -/
structure Db.Journal (before : ℤ) (start w : ℕ) (db : Db) : Prop where
  begun : start ≤ db.transactions.next
  steps : Steps before (db.entriesFrom start w) (db.lotsOf w)

namespace Db.Journal

/-- Before the first row. -/
theorem unwritten (db : Db) (w : ℕ) : db.Journal (db.lotsOf w) db.transactions.next w := by
  refine ⟨le_rfl, ?_⟩
  rw [Db.entriesFrom, Table.entriesFrom_next]
  exact rfl

/-- What writes no row and moves no credits. -/
theorem quiet (hj : db.Journal before start w) (hrows : db'.transactions = db.transactions)
    (hlots : db'.lotsOf w = db.lotsOf w) : db'.Journal before start w := by
  refine ⟨hrows ▸ hj.begun, ?_⟩
  rw [Db.entriesFrom, hrows, hlots]
  exact hj.steps

/-- One more row, which states what the lots then hold, steps when it moves what it says. -/
theorem post_iff {row : Transaction} (hj : db.Journal before start w)
    (hrows : db'.transactions = db.transactions.insert row) (hw : row.wallet = w)
    (hbalance : row.balanceAfter = db'.lotsOf w) :
    db'.Journal before start w ↔ db'.lotsOf w = db.lotsOf w + row.creditsDelta := by
  have hentries : db'.entriesFrom start w =
      db.entriesFrom start w ++ [(row.creditsDelta, db'.lotsOf w)] := by
    rw [Db.entriesFrom, hrows, Table.entriesFrom_insert row hj.begun, if_pos hw, ← hbalance]
    rfl
  constructor
  · intro hj'
    have hsteps := hj'.steps
    rw [hentries] at hsteps
    exact hsteps.last hj.steps
  · intro hlots
    refine ⟨?_, ?_⟩
    · rw [hrows]
      exact hj.begun.trans (Nat.le_succ _)
    · rw [hentries]
      exact hj.steps.post hlots

/-- One more row, which moves what it says and states what the lots then hold. -/
theorem post {row : Transaction} (hj : db.Journal before start w)
    (hrows : db'.transactions = db.transactions.insert row) (hw : row.wallet = w)
    (hlots : db'.lotsOf w = db.lotsOf w + row.creditsDelta)
    (hbalance : row.balanceAfter = db'.lotsOf w) : db'.Journal before start w :=
  (hj.post_iff hrows hw hbalance).mpr hlots

end Db.Journal

/-! ## A sweep -/

variable (env) in
theorem expireLot_lotsOf {k : ℕ} {lot : CreditLot} (running : ℤ) (hk : db.lots.get? k = some lot)
    (hw : lot.wallet = w) :
    (expireLot env w k lot running db).lotsOf w = db.lotsOf w - lot.creditsRemaining := by
  have hsum := Table.sum_modify hk CreditLot.zero
    fun _ lot => if lot.wallet = w then lot.creditsRemaining else 0
  have hzero : (if lot.zero.wallet = w then lot.zero.creditsRemaining else 0) = 0 := ite_self 0
  rw [hzero, if_pos hw] at hsum
  have hlots : (expireLot env w k lot running db).lotsOf w =
      (db.lots.modify k CreditLot.zero).sum fun _ lot =>
        if lot.wallet = w then lot.creditsRemaining else 0 := rfl
  have hdb : db.lotsOf w = db.lots.sum fun _ lot =>
    if lot.wallet = w then lot.creditsRemaining else 0 := rfl
  omega

variable (env) in
/-- The expiry rows count down from what the lots hold. -/
theorem expireLots_journal {due : List (ℕ × CreditLot)} (hnd : (due.map Prod.fst).Nodup)
    (hdue : ∀ r ∈ due, db.lots.get? r.1 = some r.2 ∧ r.2.wallet = w)
    (hj : db.Journal before start w) :
    (expireLots env w due (db.lotsOf w) db).Journal before start w := by
  induction due generalizing db with
  | nil => exact hj
  | cons r due ih =>
    obtain ⟨k, lot⟩ := r
    obtain ⟨hnot, hnd'⟩ := List.nodup_cons.mp hnd
    obtain ⟨hlot, hw⟩ := hdue _ List.mem_cons_self
    have hlots := expireLot_lotsOf env (db.lotsOf w - lot.creditsRemaining) hlot hw
    have hposted : (expireLot env w k lot (db.lotsOf w - lot.creditsRemaining) db).Journal before
        start w :=
      hj.post rfl rfl (hlots.trans (sub_eq_add_neg _ _)) hlots.symm
    have hrest := ih hnd' (fun r hr => ?_) hposted
    · rw [hlots] at hrest
      exact hrest
    · obtain ⟨hget, hwallet⟩ := hdue r (List.mem_cons_of_mem _ hr)
      have hne : r.1 ≠ k := fun he => hnot (List.mem_map.mpr ⟨r, hr, he⟩)
      exact ⟨(Table.get?_modify_of_ne _ _ hne).trans hget, hwallet⟩

/-- What the lots hold is live or due. -/
theorem lotsOf_eq_live_add_due {now : Time} (hn : db.LotsNonneg) :
    db.lotsOf w = db.liveBalance w now + db.dueCredits w now := by
  unfold Db.lotsOf Db.liveBalance Db.dueCredits
  rw [← Table.sum_add]
  refine Table.sum_congr fun k lot hk => ?_
  by_cases hw : lot.wallet = w
  · have hnonneg : 0 ≤ lot.creditsRemaining := hn k lot hk
    by_cases hpos : 0 < lot.creditsRemaining
    · by_cases halive : aliveAt now lot.expiresAt
      · rw [if_pos hw, if_pos ⟨hw, hpos, halive⟩, if_pos hw,
          if_neg fun h => not_aliveAt_iff.mpr h.2 halive, add_zero]
      · rw [if_pos hw, if_neg fun h => halive h.2.2, if_pos hw,
          if_pos ⟨hpos, not_aliveAt_iff.mp halive⟩, zero_add]
    · rw [if_pos hw, if_neg fun h => hpos h.2.1, if_pos hw, if_neg fun h => hpos h.1]
      omega
  · rw [if_neg hw, if_neg fun h => hw h.1, if_neg hw, add_zero]

theorem sum_dueLots {now : Time} :
    ((db.dueLots w now).map fun r => r.2.creditsRemaining).sum = db.dueCredits w now := by
  unfold Db.dueLots Db.dueCredits
  rw [orderBy_sum]
  refine (Table.sum_select _ _ fun _ lot => CreditLot.creditsRemaining lot).trans ?_
  refine Table.sum_congr fun k lot _ => ?_
  by_cases hw : lot.wallet = w
  · by_cases hdue : lot.Due now
    · rw [if_pos ⟨hw, hdue⟩, if_pos hw, if_pos hdue]
    · rw [if_neg fun h => hdue h.2, if_pos hw, if_neg hdue]
  · rw [if_neg fun h => hw h.1, if_neg hw]

variable (env) in
/-- **A sweep steps the ledger.** -/
theorem swept_journal (hn : db.LotsNonneg) (hj : db.Journal before start w) :
    (db.swept env w).Journal before start w := by
  by_cases hd : db.NoDue w env.now
  · rw [swept_of_noDue hd]
    exact hj
  · have hrunning : db.liveBalance w env.now +
        ((db.dueLots w env.now).map fun r => r.2.creditsRemaining).sum = db.lotsOf w := by
      rw [sum_dueLots, ← lotsOf_eq_live_add_due hn]
    have hexpired := expireLots_journal env (dueLots_nodup db env.now)
      (fun r hr => ⟨(mem_dueLots.mp hr).1, (mem_dueLots.mp hr).2.1⟩) hj
    unfold Db.swept expireDueLots
    simp only [dueLots_eq_nil_iff, hd, if_false]
    rw [hrunning]
    exact hexpired.quiet rfl rfl

/-! ## One move -/

/-- Does the move book on a swept wallet, or nothing at all? -/
def Move.Books : Move → Prop
  | .openWallet _ | .sync | .grant _ | .collect _ _ _ _ | .meter _ | .charge _ _ _ | .cancel _
  | .mark _ => True
  | _ => False

theorem spendLots_lotsOf {P : CreditLot → Prop} {taken : List (ℕ × ℤ)} (htaken : db.Draws P taken)
    (hP : ∀ k lot, db.lots.get? k = some lot → P lot → lot.wallet = w) :
    (db.spendLots taken).lotsOf w = db.lotsOf w - drawn taken := by
  refine Table.sum_drain htaken.nodup fun k n hmem => ?_
  obtain ⟨-, lot, hlot, hp, -⟩ := htaken.lot k n hmem
  have hw := hP k lot hlot hp
  have hwallet : (lot.spend n).wallet = w := hw
  refine ⟨lot, hlot, ?_⟩
  rw [if_pos hwallet, if_pos hw]
  rfl

/-- The row a move books on wallet `w`: what it moved, with the live balance. -/
structure Db.BooksRow (env : Env) (w : ℕ) (delta : ℤ) (db db' : Db) : Prop where
  booked : ∃ row, db'.transactions = db.transactions.insert row ∧ row.wallet = w ∧
    row.creditsDelta = delta ∧ row.balanceAfter = db.liveBalance w env.now

variable (env w db) in
theorem meterOnlyDebit_booksRow (args : DebitArgs) :
    db.BooksRow env w 0 (meterOnlyDebit env w args db).2 := by
  unfold meterOnlyDebit
  dsimp only
  split <;> exact ⟨_, rfl, rfl, rfl, rfl⟩

variable (env w db) in
theorem chargeDebit_booksRow (args : DebitArgs) (chargeable : ℤ) (taken : List (ℕ × ℤ)) :
    db.BooksRow env w (-chargeable) (chargeDebit env w args chargeable taken db).2 := by
  unfold chargeDebit
  dsimp only
  split <;> split <;> exact ⟨_, rfl, rfl, rfl, rfl⟩

variable (env db) in
theorem bookClawback_booksRow (grant : ℕ) (txn : Transaction) (requested reclaimed forgiven : ℤ)
    (description : Option String) (metadata : Metadata) (taken : List (ℕ × ℤ)) :
    db.BooksRow env txn.wallet (-reclaimed)
      (bookClawback env grant txn requested reclaimed forgiven description metadata taken db).2 := by
  unfold bookClawback
  dsimp only
  split <;> exact ⟨_, rfl, rfl, rfl, rfl⟩

theorem markReversed_entriesFrom (k : ℕ) (requested : ℤ) (eventId : Option String) :
    (markReversed k requested eventId db).entriesFrom start w = db.entriesFrom start w := by
  refine @Table.entriesFrom_modify _ _ (fun row : Transaction => row.wallet = w) _ _ _ _ _ ?_ ?_
  · exact fun row => Iff.rfl
  · exact fun row => rfl

/-- A mark moves nothing. -/
theorem Db.Journal.mark {k : ℕ} {requested : ℤ} {eventId : Option String}
    (hj : db.Journal before start w) :
    (markReversed k requested eventId db).Journal before start w := by
  refine ⟨hj.begun, ?_⟩
  rw [markReversed_entriesFrom]
  exact hj.steps

/-- **A move on a swept wallet steps the ledger.** -/
theorem Step.journal {m : Move} (h : Step env w m db db') (hm : m.Books)
    (hd : db.NoDue w env.now) (hn : db.LotsNonneg) (hj : db.Journal before start w) :
    db'.Journal before start w := by
  have hnotRefund : ¬ m.IsRefund := fun hr => by
    cases m <;> first | exact hr.elim | exact hm.elim
  -- The balance a row states is the live one, which is all the lots hold.
  have hlive := liveBalance_eq_lotsOf (h.lots_forall nonneg_lotProperty hn) (h.noDue hnotRefund hd)
  cases h with
  | openWallet _ _ | sync | cancel => exact hj.quiet rfl rfl
  | @grant _ args hpos halive =>
    refine hj.post rfl rfl ?_ hlive
    have hw : (grantLot env w args db).wallet = w := rfl
    refine (Table.sum_insert _ _ _).trans ?_
    rw [if_pos hw]
    rfl
  | @collect _ k debt amount taken hdebt hw hopen hpos hle htaken hdrawn =>
    refine hj.post rfl rfl ?_ hlive
    refine (spendLots_lotsOf htaken fun _ _ _ hs => hs.1).trans ?_
    rw [hdrawn]
    rfl
  | @meter _ args =>
    obtain ⟨row, hrows, hw, hdelta, hbalance⟩ := (meterOnlyDebit_booksRow env db w args).booked
    have hlots := meterOnlyDebit_lots env w db args
    have hsame : (meterOnlyDebit env w args db).2.lotsOf w = db.lotsOf w := by
      rw [Db.lotsOf, hlots, Db.lotsOf]
    refine hj.post hrows hw ?_ ?_
    · rw [hsame, hdelta, add_zero]
    · rw [hbalance, ← hlive, liveBalance_congr hlots]
  | @charge _ args chargeable taken hle htaken hdrawn =>
    obtain ⟨row, hrows, hw, hdelta, hbalance⟩ :=
      (chargeDebit_booksRow env (db.spendLots taken) w args chargeable taken).booked
    have hlots := chargeDebit_lots env w (db.spendLots taken) args chargeable taken
    refine hj.post hrows hw ?_ ?_
    · rw [Db.lotsOf, hlots, hdelta, ← hdrawn]
      exact spendLots_lotsOf htaken fun _ _ _ hs => hs.1
    · rw [hbalance, ← hlive, liveBalance_congr hlots]
  | mark => exact hj.mark
  | _ => exact hm.elim

/-- What an operation's moves go through: a swept wallet whose rows step so far. -/
structure Db.OnBooks (now : Time) (before : ℤ) (start w : ℕ) (db : Db) : Prop where
  noDue : db.NoDue w now
  nonneg : db.LotsNonneg
  journal : db.Journal before start w

variable (env) in
theorem swept_onBooks (hn : db.LotsNonneg) (hj : db.Journal before start w) :
    (db.swept env w).OnBooks env.now before start w :=
  ⟨swept_noDue env w db, nonneg_lotProperty.swept hn, swept_journal env hn hj⟩

theorem Step.onBooks {m : Move} (h : Step env w m db db') (hm : m.Books)
    (hb : db.OnBooks env.now before start w) : db'.OnBooks env.now before start w := by
  refine ⟨h.noDue (fun hr => ?_) hb.noDue, h.lots_forall nonneg_lotProperty hb.nonneg,
    h.journal hm hb.noDue hb.nonneg hb.journal⟩
  cases m <;> first | exact hr.elim | exact hm.elim

/-- **Collected debts step the ledger**, one row each. -/
theorem settleDebts_onBooks {n : ℤ} (h : settleDebts env w db = .ok (n, db'))
    (hb : db.OnBooks env.now before start w) : db'.OnBooks env.now before start w := by
  refine Moves.invariant (I := fun db => db.OnBooks env.now before start w) ?_
    (settleDebts_ok (P := Move.Books) (fun _ _ _ _ => trivial) h) hb
  exact fun m db₁ db₂ hm hI hs => hs.onBooks hm hI

/-! ## Credit, debit, clawback -/

theorem lockWallet_journal {user : UserId} {db₁ : Db} (h : lockWallet user db = (w, db₁)) :
    db₁.Journal (db.lotsOf w) db.transactions.next w := by
  rcases lockWallet_cases h with ⟨rfl, -⟩ | ⟨rfl, rfl, -⟩
  · exact Db.Journal.unwritten db₁ w
  · exact (Db.Journal.unwritten db _).quiet rfl rfl

theorem lockWallet_lotsNonneg {user : UserId} {db₁ : Db} (h : lockWallet user db = (w, db₁))
    (hn : db.LotsNonneg) : db₁.LotsNonneg :=
  (@lockWallet_moves (Env.plain 0) (fun _ => True) user db db₁ w trivial h).lotsNonneg hn

/-- **A credit steps the ledger.** -/
theorem credit_journal {args : CreditArgs} {t : ℕ} (hn : db.LotsNonneg)
    (h : credit env args db = .ok (t, db')) :
    db'.Journal (db.lotsOf (lockWallet args.user db).1) db.transactions.next
      (lockWallet args.user db).1 := by
  obtain ⟨w, db₁, hlock, hpos, halive, hcase⟩ := credit_cases h
  rw [hlock]
  have hj := lockWallet_journal hlock
  rcases hcase with ⟨row, -, rfl⟩ | ⟨-, -, hcase⟩
  · exact hj
  · have hgranted : (grant env w args (db₁.swept env w)).OnBooks env.now (db.lotsOf w)
        db.transactions.next w :=
      (Step.grant hpos halive).onBooks trivial
        (swept_onBooks env (lockWallet_lotsNonneg hlock hn) hj)
    rcases hcase with ⟨-, rfl⟩ | ⟨-, n, hsettle⟩
    · exact hgranted.journal
    · exact (settleDebts_onBooks hsettle hgranted).journal

/-- **A debit steps the ledger.** -/
theorem debit_journal {args : DebitArgs} {answer : DebitAnswer} (hn : db.LotsNonneg)
    (h : debit env args db = .ok (answer, db')) :
    db'.Journal (db.lotsOf (lockWallet args.user db).1) db.transactions.next
      (lockWallet args.user db).1 := by
  obtain ⟨w, db₁, hlock, hpos, hcase⟩ := debit_cases h
  rw [hlock]
  have hj := lockWallet_journal hlock
  have hswept := swept_onBooks env (lockWallet_lotsNonneg hlock hn) hj
  rcases hcase with ⟨t, row, -, -, rfl⟩ |
    ⟨-, ⟨-, hmeter⟩ | ⟨-, chargeable, taken, db₂, hchargeable, htake, hcharge⟩⟩
  · exact hj
  · obtain ⟨-, rfl⟩ := Prod.mk.inj hmeter
    exact (Step.meter.onBooks trivial hswept).journal
  · have hbounds : 0 ≤ chargeable ∧ chargeable ≤ args.credits := by
      have hlive := liveBalance_nonneg (db₁.swept env w) w env.now
      rw [hchargeable]
      split <;> omega
    obtain ⟨hdraws, hdrawn, rfl⟩ := takeCredits_ok hbounds.1 htake
    obtain ⟨-, rfl⟩ := Prod.mk.inj hcharge
    exact ((Step.charge hbounds.2 hdraws hdrawn).onBooks trivial hswept).journal

/-! ### Clawbacks -/

/-- A clawback of `requested` credits of a grant reaches no lot of another wallet: where the
grant has one that holds something, the grant's older lots cover what is asked. -/
def Db.ClawsHome (env : Env) (db : Db) (grant : ℕ) (txn : Transaction) (requested : ℤ) : Prop :=
  ∀ ahead k lot behind,
    (db.swept env txn.wallet).grantedLots grant = ahead ++ (k, lot) :: behind →
    lot.wallet ≠ txn.wallet → 0 < lot.creditsRemaining →
    requested ≤ (ahead.map fun r => r.2.creditsRemaining).sum

/-- Key `k` is a lot of wallet `w`. -/
def Db.HasLot (w : ℕ) (db : Db) (k : ℕ) : Prop := (db.lots.get? k).map CreditLot.wallet = some w

instance (w : ℕ) (db : Db) : DecidablePred (db.HasLot w) := fun k => by
  unfold Db.HasLot
  infer_instance

theorem hasLot_iff {k : ℕ} {lot : CreditLot} (hlot : db.lots.get? k = some lot) :
    db.HasLot w k ↔ lot.wallet = w := by
  unfold Db.HasLot
  rw [hlot]
  exact Option.some_inj

/-- What lots of every wallet give is taken off the lots of `w` as far as it is theirs. -/
theorem spendLots_lotsOf_filter {P : CreditLot → Prop} {taken : List (ℕ × ℤ)}
    (htaken : db.Draws P taken) :
    (db.spendLots taken).lotsOf w = db.lotsOf w - drawn (taken.filter fun p => db.HasLot w p.1) := by
  refine Table.sum_drain_filter htaken.nodup fun k n hmem => ?_
  obtain ⟨-, lot, hlot, -⟩ := htaken.lot k n hmem
  refine ⟨lot, hlot, ?_⟩
  by_cases hw : lot.wallet = w
  · have hspent : (lot.spend n).wallet = w := hw
    rw [if_pos hspent, if_pos hw, if_pos ((hasLot_iff hlot).mpr hw)]
    rfl
  · have hspent : (lot.spend n).wallet ≠ w := hw
    rw [if_neg hspent, if_neg hw, if_neg fun h => hw ((hasLot_iff hlot).mp h), sub_zero]

/-- The walk over a grant's lots gives nothing but lots of the grant's wallet exactly when it
reaches no other. -/
theorem clawsHome_iff {grant : ℕ} {txn : Transaction} {requested : ℤ} (hn : db.LotsNonneg) :
    (∀ p ∈ draw requested (((db.swept env txn.wallet).grantedLots grant).map
      fun r => (r.1, r.2.creditsRemaining)), (db.swept env txn.wallet).HasLot txn.wallet p.1) ↔
    db.ClawsHome env grant txn requested := by
  have hswept : (db.swept env txn.wallet).LotsNonneg := nonneg_lotProperty.swept hn
  generalize hd : db.swept env txn.wallet = d at hswept ⊢
  have hget : ∀ r ∈ d.grantedLots grant, d.lots.get? r.1 = some r.2 := fun r hr =>
    (Table.mem_select.mp (mem_orderBy.mp hr)).1
  have hnd : ((d.grantedLots grant).map Prod.fst).Nodup := orderBy_nodup Table.select_nodup
  -- The walk reaches a lot when the older ones do not cover what is asked.
  have hreached : ∀ ahead k lot behind, d.grantedLots grant = ahead ++ (k, lot) :: behind →
      (k ∈ (draw requested ((d.grantedLots grant).map fun r => (r.1, r.2.creditsRemaining))).map
        Prod.fst ↔ 0 < lot.creditsRemaining ∧
          (ahead.map fun r => r.2.creditsRemaining).sum < requested) := by
    intro ahead k lot behind hsplit
    have hkeys : (((ahead.map fun r => (r.1, r.2.creditsRemaining)) ++ (k, lot.creditsRemaining) ::
        behind.map fun r => (r.1, r.2.creditsRemaining)).map Prod.fst).Nodup := by
      rw [hsplit] at hnd
      simpa [List.map_append, Function.comp_def] using hnd
    have hahead : ∀ p ∈ ahead.map fun r : ℕ × CreditLot => (r.1, r.2.creditsRemaining), 0 ≤ p.2 := by
      intro p hp
      obtain ⟨r, hr, rfl⟩ := List.mem_map.mp hp
      exact hswept r.1 r.2 (hget r (hsplit ▸ List.mem_append_left _ hr))
    have hmem := mem_draw_iff hkeys hahead requested
    unfold drawn at hmem
    rw [List.map_map] at hmem
    rw [hsplit, List.map_append, List.map_cons]
    exact hmem
  unfold Db.ClawsHome
  rw [hd]
  constructor
  · intro hhome ahead k lot behind hsplit hforeign hpos
    by_contra hshort
    have htaken := (hreached ahead k lot behind hsplit).mpr ⟨hpos, not_le.mp hshort⟩
    obtain ⟨⟨j, n⟩, hp, rfl⟩ := List.mem_map.mp htaken
    have hlot : d.lots.get? j = some lot :=
      hget (j, lot) (hsplit ▸ List.mem_append_right _ List.mem_cons_self)
    exact hforeign ((hasLot_iff hlot).mp (hhome (j, n) hp))
  · rintro hcovered ⟨k, n⟩ hp
    obtain ⟨held, hheld, -⟩ := (draw_mem hp).2
    obtain ⟨⟨j, lot⟩, hlot, he⟩ := List.mem_map.mp hheld
    obtain ⟨rfl, rfl⟩ := Prod.mk.inj he
    obtain ⟨ahead, behind, hsplit⟩ := List.append_of_mem hlot
    obtain ⟨hpos, hshort⟩ := (hreached ahead j lot behind hsplit).mp (List.mem_map.mpr ⟨_, hp, rfl⟩)
    rw [hasLot_iff (hget _ hlot)]
    by_contra hforeign
    have hcover := hcovered ahead j lot behind hsplit hforeign hpos
    omega

/-- **A clawback steps the ledger** exactly when what it takes is on the wallet of its grant. -/
theorem clawBackGrant_journal_iff {grant : ℕ} {txn : Transaction} {credits : Option ℤ}
    {description : Option String} {metadata : Metadata} {r : ClawbackResult} (hn : db.LotsNonneg)
    (h : clawBackGrant env grant txn credits description metadata db = .ok (r, db')) :
    db'.Journal (db.lotsOf txn.wallet) db.transactions.next txn.wallet ↔
      db.ClawsHome env grant txn (credits.getD txn.creditsDelta) := by
  obtain ⟨-, requested, taken, forgiven, rfl, htaken, -, hdraws, hbook⟩ := clawBackGrant_cases h
  obtain rfl : db' = (bookClawback env grant txn (credits.getD txn.creditsDelta) (drawn taken)
      forgiven description metadata taken ((db.swept env txn.wallet).spendLots taken)).2 :=
    congrArg Prod.snd hbook
  rw [← clawsHome_iff hn, ← htaken]
  have hpos : ∀ p ∈ taken, 0 < p.2 := fun p hp => (hdraws.lot p.1 p.2 hp).1
  obtain ⟨hdue, hnonneg, hj⟩ := swept_onBooks env hn (Db.Journal.unwritten db txn.wallet)
  generalize db.swept env txn.wallet = d at hdraws hdue hnonneg hj ⊢
  obtain ⟨row, hrows, hw, hdelta, hbalance⟩ := (bookClawback_booksRow env (d.spendLots taken) grant txn
    (credits.getD txn.creditsDelta) (drawn taken) forgiven description metadata taken).booked
  have hlots := bookClawback_lots env grant txn (credits.getD txn.creditsDelta) (drawn taken) forgiven
    description metadata taken (d.spendLots taken)
  have hclawback : Step env txn.wallet (.clawback grant (credits.getD txn.creditsDelta) (drawn taken)
      forgiven metadata taken) d (bookClawback env grant txn (credits.getD txn.creditsDelta)
        (drawn taken) forgiven description metadata taken (d.spendLots taken)).2 :=
    Step.clawback rfl hdraws
  have hlive := liveBalance_eq_lotsOf (hclawback.lots_forall nonneg_lotProperty hnonneg)
    (hclawback.noDue (fun hr => hr) hdue)
  rw [hj.post_iff hrows hw (by rw [hbalance, ← hlive, liveBalance_congr hlots]),
    ← drawn_filter_eq_iff _ hpos, Db.lotsOf, hlots, hdelta]
  have hspent : (d.spendLots taken).lotsOf txn.wallet =
      d.lotsOf txn.wallet - drawn (taken.filter fun p => d.HasLot txn.wallet p.1) :=
    spendLots_lotsOf_filter hdraws
  unfold Db.lotsOf at hspent ⊢
  omega

/-! ## Credits that arrive before the sweep -/

/-- The rows written since `start` do not start at `before`, whatever follows. -/
structure Db.Astray (before : ℤ) (start w : ℕ) (db : Db) : Prop where
  begun : start ≤ db.transactions.next
  never : ∀ more after, ¬ Steps before (db.entriesFrom start w ++ more) after

namespace Db.Astray

theorem not_journal (h : db.Astray before start w) : ¬ db.Journal before start w := by
  intro hj
  have hsteps := hj.steps
  rw [← List.append_nil (db.entriesFrom start w)] at hsteps
  exact h.never [] _ hsteps

theorem quiet (h : db.Astray before start w) (hrows : db'.transactions = db.transactions) :
    db'.Astray before start w := by
  refine ⟨hrows ▸ h.begun, ?_⟩
  rw [Db.entriesFrom, hrows]
  exact h.never

theorem post {row : Transaction} (h : db.Astray before start w)
    (hrows : db'.transactions = db.transactions.insert row) : db'.Astray before start w := by
  refine ⟨?_, fun more after => ?_⟩
  · rw [hrows]
    exact h.begun.trans (Nat.le_succ _)
  · rw [Db.entriesFrom, hrows, Table.entriesFrom_insert row h.begun, List.append_assoc]
    exact h.never _ after

theorem mark {k : ℕ} {requested : ℤ} {eventId : Option String} (h : db.Astray before start w) :
    (markReversed k requested eventId db).Astray before start w := by
  refine ⟨h.begun, ?_⟩
  rw [markReversed_entriesFrom]
  exact h.never

/-- Debts that collect do not bring the rows back. -/
theorem settleDebts {n : ℤ} (h : db.Astray before start w)
    (hok : settleDebts env w db = .ok (n, db')) : db'.Astray before start w := by
  refine Moves.invariant (I := fun db => db.Astray before start w) ?_
    (settleDebts_ok (P := fun m => ∃ k debt amount taken, m = .collect k debt amount taken)
      (fun k debt amount taken => ⟨k, debt, amount, taken, rfl⟩) hok) h
  rintro m db₁ db₂ ⟨k, debt, amount, taken, rfl⟩ hI hs
  cases hs with
  | collect _ _ _ _ _ _ _ => exact hI.post rfl

end Db.Astray

/-- Something is due where something would expire. -/
theorem noDue_iff_dueCredits {now : Time} : db.NoDue w now ↔ db.dueCredits w now = 0 := by
  refine ⟨dueCredits_of_noDue, fun h => ?_⟩
  rw [← sum_dueLots] at h
  refine dueLots_eq_nil_iff.mp ?_
  cases hdue : db.dueLots w now with
  | nil => rfl
  | cons r due =>
    have hpos : ∀ s ∈ db.dueLots w now, 0 < s.2.creditsRemaining := fun s hs =>
      (mem_dueLots.mp hs).2.2.1
    rw [hdue] at h hpos
    have hfirst := hpos r List.mem_cons_self
    have hrest : 0 ≤ (due.map fun s => s.2.creditsRemaining).sum := by
      refine List.sum_nonneg fun x hx => ?_
      obtain ⟨s, hs, rfl⟩ := List.mem_map.mp hx
      exact (hpos s (List.mem_cons_of_mem _ hs)).le
    rw [List.map_cons, List.sum_cons] at h
    omega

/-- **Credits that arrive before the sweep** and are booked after it step the ledger
exactly when none arrive or the sweep finds nothing. -/
theorem arrival_journal {arrived : Db} {row : Transaction} {n : ℤ}
    (hbegun : start ≤ arrived.transactions.next) (hempty : arrived.entriesFrom start w = [])
    (hlots : arrived.lotsOf w = before + n) (hn : arrived.LotsNonneg)
    (hrows : db'.transactions = (arrived.swept env w).transactions.insert row)
    (hsame : db'.lots = (arrived.swept env w).lots) (hw : row.wallet = w)
    (hdelta : row.creditsDelta = n)
    (hbalance : row.balanceAfter = (arrived.swept env w).liveBalance w env.now) :
    (n = 0 ∨ arrived.NoDue w env.now → db'.OnBooks env.now before start w) ∧
      (¬ (n = 0 ∨ arrived.NoDue w env.now) → db'.Astray before start w) := by
  have hnoDue := swept_noDue env w arrived
  have hnonneg : (arrived.swept env w).LotsNonneg := nonneg_lotProperty.swept hn
  have hnonneg' : db'.LotsNonneg := by
    unfold Db.LotsNonneg Db.Lots
    rw [hsame]
    exact hnonneg
  have hlots' : db'.lotsOf w = (arrived.swept env w).lotsOf w := by
    rw [Db.lotsOf, hsame, Db.lotsOf]
  have hstates : row.balanceAfter = db'.lotsOf w := by
    rw [hbalance, hlots', liveBalance_eq_lotsOf hnonneg hnoDue]
  have hopen : arrived.Journal (before + n) start w := by
    refine ⟨hbegun, ?_⟩
    rw [hempty, hlots]
    exact rfl
  have hswept := swept_journal env hn hopen
  refine ⟨fun h => ⟨hnoDue.congr hsame, hnonneg', ?_⟩, fun h => ?_⟩
  · rcases h with rfl | hd
    · rw [add_zero] at hswept
      exact hswept.post hrows hw (by rw [hlots', hdelta, add_zero]) hstates
    · -- Nothing expired: the first row is the arrival's own.
      rw [swept_of_noDue hd] at hrows hlots'
      refine ⟨hrows ▸ hbegun.trans (Nat.le_succ _), ?_⟩
      rw [Db.entriesFrom, hrows, Table.entriesFrom_insert row hbegun, if_pos hw]
      have hentries : arrived.transactions.entriesFrom (fun row => row.wallet = w)
        Transaction.entry start = [] := hempty
      rw [hentries, ← hstates]
      refine ⟨?_, rfl⟩
      show row.balanceAfter = before + row.creditsDelta
      rw [hstates, hlots', hlots, hdelta]
  · -- The sweep's first row counts from where the arrival had already been added.
    have hne : (arrived.swept env w).entriesFrom start w ≠ [] := by
      intro hnone
      have hsteps := hswept.steps
      rw [hnone] at hsteps
      have hsame : before + n = (arrived.swept env w).lotsOf w := hsteps
      have htotal := swept_lotsOf env w arrived
      exact h (Or.inr (noDue_iff_dueCredits.mpr (by omega)))
    refine Db.Astray.post ⟨hswept.begun, fun more after hsteps => ?_⟩ hrows
    have hend : Steps ((arrived.swept env w).lotsOf w) [] ((arrived.swept env w).lotsOf w) := rfl
    have hstart := hsteps.start_unique hne (hswept.steps.append hend)
    exact h (Or.inl (by omega))

/-! ## A reversal -/

/-- What reversing row `k` gives back: what it reclaimed, and what its debt collected. -/
def Db.givesBack (db : Db) (k : ℕ) : ℤ :=
  match db.transactions.get? k with
  | none => 0
  | some row =>
    if row.metadata.truthy .reversed then 0
    else (row.metadata.intOrZero .reclaimed).toOption.getD 0 +
      ((clawbackDebt row.metadata db).toOption.join.map fun d => d.2.collected).getD 0

/-- The deadline of what reversing row `k` gives back: that of the grant's first lot. -/
def Db.givesBackUntil (db : Db) (k : ℕ) : Option Time :=
  (db.transactions.get? k).bind fun row =>
    (lookupPk db.transactions .transaction (row.metadata .clawbackOf)).toOption.join.bind fun grant =>
      (db.grantedLots grant.1).head?.bind fun template => template.2.expiresAt

theorem restoredLot_expiresAt {grant : Option (ℕ × Transaction)} {n : ℤ} {k : ℕ}
    {row : Transaction} {d : Db} (hk : db.transactions.get? k = some row)
    (hgrant : lookupPk db.transactions .transaction (row.metadata .clawbackOf) = .ok grant)
    (hlots : d.lots = db.lots) :
    (restoredLot env w (grant.map Prod.fst) n d).expiresAt = db.givesBackUntil k := by
  have hjoin : (lookupPk db.transactions .transaction (row.metadata .clawbackOf)).toOption.join =
      grant := by
    rw [hgrant]
    rfl
  have hgranted : ∀ g, d.grantedLots g = db.grantedLots g := fun g => by
    rw [Db.grantedLots, hlots, Db.grantedLots]
  unfold Db.givesBackUntil restoredLot
  simp only [hk, hjoin, hgranted, Option.bind_some]
  cases grant with
  | none => rfl
  | some g =>
    show (((db.grantedLots g.1).head?).map Prod.snd).bind CreditLot.expiresAt =
      (db.grantedLots g.1).head?.bind fun template => template.2.expiresAt
    cases (db.grantedLots g.1).head? <;> rfl

theorem closeDebt_frame {debt : Option (ℕ × CreditDebt)} {eventId : Option String} :
    (closeDebt env debt eventId db).lots = db.lots ∧
      (closeDebt env debt eventId db).transactions = db.transactions := by
  unfold closeDebt
  split
  · split <;> exact ⟨rfl, rfl⟩
  · exact ⟨rfl, rfl⟩

/-- One more lot is one more that may be due. -/
theorem insert_noDue {lot : CreditLot} {now : Time} (hw : lot.wallet = w) :
    Db.NoDue { db with lots := db.lots.insert lot } w now ↔ db.NoDue w now ∧ ¬ lot.Due now := by
  constructor
  · intro h
    refine ⟨fun k old hk => h k old (Table.get?_insert_of_some _ hk), ?_⟩
    exact h _ lot (Table.get?_insert_next _ _) hw
  · rintro ⟨hd, hlot⟩ k old hk
    have hk' := (Table.get?_insert _ _ _).symm.trans hk
    split at hk'
    · obtain rfl := Option.some.inj hk'
      exact fun _ => hlot
    · exact hd k old hk'

/-- **Credits given back step the ledger** exactly when the sweep after them finds
nothing. -/
theorem restoreCredits_journal {k : ℕ} {grant : Option ℕ} {n : ℤ} {eventId : Option String}
    (hpos : 0 < n) (hn : db.LotsNonneg) (hbegun : start ≤ db.transactions.next)
    (hempty : db.entriesFrom start w = []) (hlots : db.lotsOf w = before) :
    (db.NoDue w env.now ∧ ¬ dueAt env.now (restoredLot env w grant n db).expiresAt →
      (restoreCredits env w k grant n eventId db).OnBooks env.now before start w) ∧
    (¬ (db.NoDue w env.now ∧ ¬ dueAt env.now (restoredLot env w grant n db).expiresAt) →
      (restoreCredits env w k grant n eventId db).Astray before start w) := by
  have hw : (restoredLot env w grant n db).wallet = w := rfl
  have hholds : (restoredLot env w grant n db).creditsRemaining = n := rfl
  have harrived : Db.lotsOf w { db with lots := db.lots.insert (restoredLot env w grant n db) } =
      before + n := by
    refine (Table.sum_insert _ _ _).trans ?_
    rw [if_pos hw, hholds, ← hlots]
    rfl
  have hdue : (n = 0 ∨ Db.NoDue { db with lots := db.lots.insert (restoredLot env w grant n db) } w
      env.now) ↔ db.NoDue w env.now ∧ ¬ dueAt env.now (restoredLot env w grant n db).expiresAt := by
    rw [or_iff_right hpos.ne', insert_noDue hw]
    refine and_congr_right fun _ => not_congr ⟨fun h => h.2, fun h => ⟨?_, h⟩⟩
    rw [hholds]
    exact hpos
  rw [← hdue]
  refine @arrival_journal env _ w start before
    { db with lots := db.lots.insert (restoredLot env w grant n db) } _ n hbegun hempty harrived ?_
    rfl rfl rfl rfl rfl
  exact fun _ _ hk => nonneg_lotProperty.insert (restoredLot env w grant n db) hpos rfl hn hk

/-- **A reversal steps the ledger** exactly when it gives nothing back, or finds nothing
due and gives back nothing that is. -/
theorem reverseClawback_journal {k : ℕ} {row : Transaction} {eventId : Option String} {n : ℤ}
    (hn : db.LotsNonneg) (hrow : db.transactions.get? k = some row)
    (h : reverseClawback env k row eventId db = .ok (n, db')) :
    db'.Journal (db.lotsOf row.wallet) db.transactions.next row.wallet ↔
      db.givesBack k ≤ 0 ∨
        (db.NoDue row.wallet env.now ∧ ¬ dueAt env.now (db.givesBackUntil k)) := by
  obtain ⟨current, hcurrent, hcase⟩ := reverseClawback_cases h
  obtain rfl := Option.some.inj (hrow.symm.trans hcurrent)
  rcases hcase with ⟨hreversed, rfl, rfl⟩ |
    ⟨hfresh, grant, reclaimed, debt, requested, hgrant, hreclaimed, hdebt, -, hback, db₁, rfl, hend⟩
  · refine iff_of_true (Db.Journal.unwritten db' _) (Or.inl ?_)
    unfold Db.givesBack
    rw [hrow]
    dsimp only
    rw [if_pos hreversed]
  -- nothing is written unless something is given back
  have hgives : db.givesBack k = n := by
    unfold Db.givesBack
    rw [hrow]
    dsimp only
    rw [hfresh, hreclaimed, hdebt, hback]
    rfl
  have hopen := Db.Journal.unwritten db row.wallet
  rw [hgives]
  rcases hend with ⟨hpos, m, hsettle⟩ | ⟨hpos, rfl⟩
  · -- closing the debt writes no row and moves no lot
    obtain ⟨hlots, hrows⟩ := @closeDebt_frame env db debt eventId
    rw [giveBack, if_pos hpos] at hsettle
    rw [or_iff_right (not_le.mpr hpos)]
    have hnonneg : (closeDebt env debt eventId db).LotsNonneg := by
      unfold Db.LotsNonneg Db.Lots
      rw [hlots]
      exact hn
    have hempty : (closeDebt env debt eventId db).entriesFrom db.transactions.next row.wallet = [] := by
      rw [Db.entriesFrom, hrows]
      exact Table.entriesFrom_next
    have hbefore : (closeDebt env debt eventId db).lotsOf row.wallet = db.lotsOf row.wallet := by
      rw [Db.lotsOf, hlots, Db.lotsOf]
    have hnoDue : (closeDebt env debt eventId db).NoDue row.wallet env.now ↔
        db.NoDue row.wallet env.now := by
      unfold Db.NoDue
      rw [hlots]
    -- the lot comes before the sweep: the row steps if neither it nor another is due
    obtain ⟨hkeeps, hloses⟩ := @restoreCredits_journal env (closeDebt env debt eventId db)
      row.wallet db.transactions.next (db.lotsOf row.wallet) k (grant.map Prod.fst) n eventId hpos
      hnonneg (hrows ▸ le_rfl) hempty hbefore
    rw [restoredLot_expiresAt hrow hgrant hlots, hnoDue] at hkeeps hloses
    constructor
    · intro hj
      by_contra hnot
      exact ((hloses hnot).mark.settleDebts hsettle).not_journal hj
    · intro hgood
      exact (settleDebts_onBooks hsettle (Step.mark.onBooks trivial (hkeeps hgood))).journal
  · rw [giveBack, if_neg hpos]
    obtain ⟨hlots, hrows⟩ := @closeDebt_frame env db debt eventId
    refine iff_of_true (hopen.quiet hrows ?_).mark (Or.inl (by omega))
    rw [Db.lotsOf, hlots, Db.lotsOf]

/-! ## A merge -/

section Merge
variable {merged survivor : ℕ} {key : String}

theorem folded_lotsNonneg (hn : db.LotsNonneg) : (db.folded merged survivor).LotsNonneg := by
  intro k lot hk
  rw [folded_lot] at hk
  obtain ⟨old, hold, rfl⟩ := Option.map_eq_some_iff.mp hk
  have hnonneg : 0 ≤ old.creditsRemaining := hn k old hold
  split <;> exact hnonneg

theorem mergeLocked_next_le {fromUser intoUser : UserId} {counts : MergeCounts}
    (h : mergeLocked env key fromUser intoUser merged survivor db = .ok (counts, db')) :
    (db.stripped env merged).transactions.next ≤ db'.transactions.next := by
  obtain ⟨subscriptions, n, hsettle, -, -⟩ := mergeLocked_cases h
  have hbooked : ((db.stripped env merged).folded merged survivor).Grows survivor
    (db.booked env key merged survivor) := bookMerge_grows
  have hsettled := (settleDebts_ok (P := Move.IsSettling) (fun _ _ _ _ => trivial) hsettle).grows
  exact hbooked.transactions.next_le.trans hsettled.transactions.next_le

/-- **A merge steps the survivor's ledger** exactly when it moves nothing or finds
nothing due on the survivor. -/
theorem mergeLocked_journal {fromUser intoUser : UserId} {counts : MergeCounts}
    (hne : merged ≠ survivor) (hn : db.LotsNonneg)
    (h : mergeLocked env key fromUser intoUser merged survivor db = .ok (counts, db')) :
    db'.Journal (db.lotsOf survivor) (db.stripped env merged).transactions.next survivor ↔
      db.transferable env merged = 0 ∨ db.NoDue survivor env.now := by
  obtain ⟨subscriptions, n, hsettle, -, -⟩ := mergeLocked_cases h
  have hbeside : db.Beside merged (db.stripped env merged) := stripped_beside
  have hnonneg : (db.stripped env merged).LotsNonneg := nonneg_lotProperty.stripped hn
  have hmoved : (db.stripped env merged).lotsOf merged = db.transferable env merged := by
    rw [← movedCredits_eq, Db.movedCredits, liveBalance_eq_lotsOf hnonneg stripped_noDue]
  have harrived : ((db.stripped env merged).folded merged survivor).lotsOf survivor =
      db.lotsOf survivor + db.transferable env merged := by
    rw [folded_lotsOf hne, if_neg hne.symm, if_pos rfl, (hbeside.sameFor hne.symm).lotsOf, hmoved]
  have hdue : ((db.stripped env merged).folded merged survivor).NoDue survivor env.now ↔
      db.NoDue survivor env.now := by
    rw [noDue_iff_dueCredits, folded_dueCredits hne, if_neg hne.symm, if_pos rfl,
      dueCredits_of_noDue stripped_noDue, add_zero, ← noDue_iff_dueCredits]
    exact (hbeside.sameFor hne.symm).noDue
  have hnext : ((db.stripped env merged).folded merged survivor).transactions.next =
      (db.stripped env merged).transactions.next := folded_next.1
  have hempty : ((db.stripped env merged).folded merged survivor).entriesFrom
      (db.stripped env merged).transactions.next survivor = [] := by
    rw [← hnext]
    exact Table.entriesFrom_next
  obtain ⟨hkeeps, hloses⟩ := @arrival_journal env
    (db.booked env key merged survivor) survivor (db.stripped env merged).transactions.next
    (db.lotsOf survivor) ((db.stripped env merged).folded merged survivor) _ _ hnext.ge hempty
    (harrived.trans (by rw [← movedCredits_eq])) (folded_lotsNonneg hnonneg) rfl rfl rfl rfl rfl
  rw [hdue, movedCredits_eq] at hkeeps hloses
  constructor
  · intro hj
    by_contra hnot
    have hbooked : Db.Astray (db.lotsOf survivor) (db.stripped env merged).transactions.next survivor
      { db.booked env key merged survivor with subscriptions } := (hloses hnot).quiet rfl
    exact (hbooked.settleDebts hsettle).not_journal hj
  · intro hgood
    have hbooked := hkeeps hgood
    exact (settleDebts_onBooks hsettle ⟨hbooked.noDue, hbooked.nonneg,
      hbooked.journal.quiet rfl rfl⟩).journal

end Merge

section OtherWallets
variable {ws : Table Wallet} {merged : ℕ}

/-- What a merge strips does not depend on the wallets there are. -/
theorem expireLots_withWallets {due : List (ℕ × CreditLot)} {running : ℤ} :
    expireLots env w due running { db with wallets := ws } =
      { expireLots env w due running db with wallets := ws } := by
  induction due generalizing running db with
  | nil => rfl
  | cons r due ih =>
    exact @ih (expireLot env w r.1 r.2 (running - r.2.creditsRemaining) db)
      (running - r.2.creditsRemaining)

theorem forfeitLots_withWallets {lots : List (ℕ × CreditLot)} {running : ℤ} :
    forfeitLots env w lots running { db with wallets := ws } =
      { forfeitLots env w lots running db with wallets := ws } := by
  induction lots generalizing running db with
  | nil => rfl
  | cons r lots ih =>
    exact @ih (forfeitLot env w r.1 r.2 (running - r.2.creditsRemaining) db)
      (running - r.2.creditsRemaining)

theorem swept_withWallets : ∃ ws', Db.swept { db with wallets := ws } env w =
    { db.swept env w with wallets := ws' } := by
  have hdue : Db.dueLots { db with wallets := ws } w env.now = db.dueLots w env.now := rfl
  unfold Db.swept expireDueLots
  dsimp only
  rw [hdue]
  by_cases hnone : db.dueLots w env.now = []
  · rw [if_pos hnone, if_pos hnone]
    exact ⟨ws, rfl⟩
  · rw [if_neg hnone, if_neg hnone, expireLots_withWallets]
    exact ⟨_, rfl⟩

theorem forfeited_withWallets : ∃ ws', Db.forfeited { db with wallets := ws } env w =
    { db.forfeited env w with wallets := ws' } := by
  have hlots : ∀ sources, Db.forfeitedLots { db with wallets := ws } sources w =
    db.forfeitedLots sources w := fun _ => rfl
  unfold Db.forfeited forfeitLotsOnMerge
  dsimp only
  rw [hlots]
  by_cases hsources : env.settings.mergeForfeitLotSources = []
  · rw [if_pos hsources, if_pos hsources]
    exact ⟨ws, rfl⟩
  · rw [if_neg hsources, if_neg hsources]
    by_cases hnone : db.forfeitedLots env.settings.mergeForfeitLotSources w = []
    · rw [if_pos hnone, if_pos hnone]
      exact ⟨ws, rfl⟩
    · rw [if_neg hnone, if_neg hnone, forfeitLots_withWallets]
      exact ⟨_, rfl⟩

theorem stripped_rows_withWallets : (Db.stripped { db with wallets := ws } env merged).transactions =
    (db.stripped env merged).transactions := by
  obtain ⟨swept, hswept⟩ := @swept_withWallets env db merged ws
  obtain ⟨forfeited, hforfeited⟩ := @forfeited_withWallets env (db.swept env merged) merged swept
  unfold Db.stripped
  rw [hswept, hforfeited]

end OtherWallets

/-! ## Every operation -/

/-- The operations whose rows step the ledger. -/
def ServiceCall.Books : ServiceCall → Prop
  | .wallet (.credit _) | .wallet (.debit _) | .wallet (.expireDueLots _)
  | .wallet (.clawBackGrant _ _ _ _) | .wallet (.reverseClawback _ _) | .userMerged _ _ => True
  | _ => False

/-- The wallet a call books on: a merge books on the survivor's. -/
def ServiceCall.booksOn (db : Db) : ServiceCall → ℕ
  | .wallet c => c.wallet db
  | .userMerged _ intoUser =>
    ((db.wallets.find? fun wallet => wallet.user = intoUser).map Prod.fst).getD db.wallets.next
  | _ => 0

/-- The key of the first row a call writes there.  What a merge sweeps and forfeits first
are rows of the merged wallet. -/
def ServiceCall.booksFrom (env : Env) (db : Db) : ServiceCall → ℕ
  | .userMerged fromUser _ =>
    ((db.wallets.find? fun wallet => wallet.user = fromUser).map fun merged =>
      (db.stripped env merged.1).transactions.next).getD db.transactions.next
  | _ => db.transactions.next

/-- Nothing arrives before a sweep that finds something, and nothing is taken elsewhere: a
clawback reaches no lot of another wallet; a reversal gives nothing back, or nothing on the
wallet is due and neither is what it gives back; a merge folds nothing, moves no credits, or
nothing of the survivor's is due. -/
def ServiceCall.InStep (digest : UserId → UserId → String) (env : Env) (db : Db) :
    ServiceCall → Prop
  | .wallet (.clawBackGrant grant credits _ _) => ∀ txn, db.transactions.get? grant = some txn →
      db.ClawsHome env grant txn (credits.getD txn.creditsDelta)
  | .wallet (.reverseClawback k _) => db.givesBack k ≤ 0 ∨
      (db.NoDue ((WalletCall.reverseClawback k none).wallet db) env.now ∧
        ¬ dueAt env.now (db.givesBackUntil k))
  | .userMerged (some fromUser) (some intoUser) => fromUser = intoUser ∨
      (∃ k row, db.transactions.get? k = some row ∧
        row.idempotencyKey = mergeIdempotencyKey digest fromUser intoUser) ∨
      (∀ merged wallet, db.wallets.find? (fun wallet => wallet.user = some fromUser) =
        some (merged, wallet) → db.transferable env merged = 0) ∨
      db.NoDue ((ServiceCall.userMerged (some fromUser) (some intoUser)).booksOn db) env.now
  | _ => True

/-- Where nothing was written the ledger steps in place. -/
theorem steps_untouched (hrows : db'.transactions = db.transactions) (hlots : db'.lots = db.lots)
    (hstart : db.transactions.next ≤ start) :
    Steps (db.lotsOf w) (db'.entriesFrom start w) (db'.lotsOf w) := by
  rw [Db.entriesFrom, hrows, Table.entriesFrom_of_le hstart]
  show db.lotsOf w = db'.lotsOf w
  rw [Db.lotsOf, Db.lotsOf, hlots]

theorem booksFrom_ge (c : ServiceCall) : db.transactions.next ≤ c.booksFrom env db := by
  cases c with
  | userMerged fromUser intoUser =>
    unfold ServiceCall.booksFrom
    dsimp only
    cases hfind : db.wallets.find? fun wallet => wallet.user = fromUser with
    | none => exact le_rfl
    | some merged => exact stripped_grows.transactions.next_le
  | _ => exact le_rfl

/-- **When a wallet call steps the ledger.** -/
theorem walletCall_steps_iff {digest : UserId → UserId → String} {call : WalletCall}
    (hn : db.LotsNonneg) (hc : (ServiceCall.wallet call).Books) (h : call.exec env db = .ok db') :
    Steps (db.lotsOf (call.wallet db))
        (db'.entriesFrom db.transactions.next (call.wallet db)) (db'.lotsOf (call.wallet db)) ↔
      (ServiceCall.wallet call).InStep digest env db := by
  cases call with
  | credit args =>
    obtain ⟨t, hok⟩ := map_snd_ok h
    exact iff_of_true (credit_journal hn hok).steps trivial
  | debit args =>
    obtain ⟨answer, hok⟩ := map_snd_ok h
    exact iff_of_true (debit_journal hn hok).steps trivial
  | hold args => exact hc.elim
  | capture args => exact hc.elim
  | release args => exact hc.elim
  | expireDueLots w =>
    obtain rfl := Except.ok.inj h
    exact iff_of_true (swept_journal env hn (Db.Journal.unwritten db w)).steps trivial
  | clawBackGrant grant credits description metadata =>
    simp only [WalletCall.exec] at h
    split at h
    · rename_i txn htxn
      obtain ⟨r, hok⟩ := map_snd_ok h
      have hiff := clawBackGrant_journal_iff hn hok
      simp only [ServiceCall.InStep, WalletCall.wallet, htxn, Option.map_some, Option.getD_some,
        Option.some.injEq, forall_eq']
      exact ⟨fun hsteps => hiff.mp ⟨(clawBackGrant_moves hok).grows.transactions.next_le, hsteps⟩,
        fun hgood => (hiff.mpr hgood).steps⟩
    · cases h
  | reverseClawback k eventId =>
    simp only [WalletCall.exec] at h
    split at h
    · rename_i row hrow
      obtain ⟨n, hok⟩ := map_snd_ok h
      have hiff := reverseClawback_journal hn hrow hok
      simp only [ServiceCall.InStep, WalletCall.wallet, hrow, Option.map_some,
        Option.getD_some]
      exact ⟨fun hsteps => hiff.mp ⟨(reverseClawback_moves hok).grows.transactions.next_le, hsteps⟩,
        fun hgood => (hiff.mpr hgood).steps⟩
    · cases h

/-- **When a merge steps the survivor's ledger.** -/
theorem userMerged_steps_iff {digest : UserId → UserId → String} {fromUser intoUser : Option UserId}
    (hn : db.LotsNonneg) (h : handleUserMerged env digest fromUser intoUser db = .ok db') :
    Steps (db.lotsOf ((ServiceCall.userMerged fromUser intoUser).booksOn db))
        (db'.entriesFrom ((ServiceCall.userMerged fromUser intoUser).booksFrom env db)
          ((ServiceCall.userMerged fromUser intoUser).booksOn db))
        (db'.lotsOf ((ServiceCall.userMerged fromUser intoUser).booksOn db)) ↔
      (ServiceCall.userMerged fromUser intoUser).InStep digest env db := by
  have hge : db.transactions.next ≤ (ServiceCall.userMerged fromUser intoUser).booksFrom env db :=
    booksFrom_ge _
  unfold handleUserMerged at h
  split at h
  swap
  · rename_i hmissing
    obtain rfl := Except.ok.inj h
    refine iff_of_true (steps_untouched rfl rfl hge) ?_
    cases fromUser with
    | none => trivial
    | some source =>
      cases intoUser with
      | none => trivial
      | some target => exact (hmissing source target rfl rfl).elim
  rename_i source target
  split at h
  · rename_i hsame
    obtain rfl := Except.ok.inj h
    exact iff_of_true (steps_untouched rfl rfl hge) (Or.inl hsame)
  rename_i hne
  split at h
  · cases h
  rename_i counts db₂ hok
  obtain rfl := Except.ok.inj h
  -- only a merge under a new key, of a wallet that is there, writes rows
  rcases mergeWallets_cases hok with ⟨hkey, rfl, -⟩ | ⟨hfresh, ⟨hnone, ⟨subscriptions, rfl⟩, -⟩ |
    ⟨merged, wallet, survivor, db₁, hmerged, hsurvivor, hlocked⟩⟩
  · exact iff_of_true (steps_untouched rfl rfl hge) (Or.inr (Or.inl hkey))
  · refine iff_of_true (steps_untouched rfl rfl hge) (Or.inr (Or.inr (Or.inl ?_)))
    intro merged wallet hfind
    obtain ⟨hget, huser⟩ := Table.find?_some hfind
    exact absurd huser (hnone merged wallet hget)
  · have hmne := merged_ne_survivor hne hmerged hsurvivor
    -- the survivor's wallet may be opened by the merge itself
    obtain ⟨ws, rfl, hon⟩ : ∃ ws, db₁ = { db with wallets := ws } ∧
        (ServiceCall.userMerged (some source) (some target)).booksOn db = survivor := by
      unfold survivorWallet at hsurvivor
      unfold ServiceCall.booksOn
      dsimp only
      cases hfind : db.wallets.find? fun wallet => wallet.user = some target with
      | none =>
        rw [hfind] at hsurvivor
        dsimp only at hsurvivor
        split at hsurvivor
        · obtain ⟨rfl, rfl⟩ := Prod.mk.inj (Except.ok.inj hsurvivor)
          exact ⟨_, rfl, rfl⟩
        · cases hsurvivor
      | some found =>
        rw [hfind] at hsurvivor
        obtain ⟨rfl, rfl⟩ := Prod.mk.inj (Except.ok.inj hsurvivor)
        exact ⟨db.wallets, rfl, rfl⟩
    have hfrom : (ServiceCall.userMerged (some source) (some target)).booksFrom env db =
        (Db.stripped { db with wallets := ws } env merged).transactions.next := by
      rw [stripped_rows_withWallets]
      unfold ServiceCall.booksFrom
      dsimp only
      rw [hmerged]
      rfl
    have hiff := @mergeLocked_journal env { db with wallets := ws } db₂ merged survivor _ _ _ _ hmne hn
      hlocked
    -- what the condition leaves to decide is the transfer against the debts due
    have hgoal : (ServiceCall.userMerged (some source) (some target)).InStep digest env db ↔
        db.transferable env merged = 0 ∨ db.NoDue survivor env.now := by
      unfold ServiceCall.InStep
      dsimp only
      rw [hon, or_iff_right hne, or_iff_right fun ⟨k, row, hk, hrow⟩ => hfresh k row hk hrow]
      refine or_congr_left ⟨fun h => h merged wallet hmerged, fun h merged' wallet' hfind => ?_⟩
      obtain ⟨rfl, rfl⟩ := Prod.mk.inj (Option.some.inj (hmerged.symm.trans hfind))
      exact h
    rw [hgoal, hon, hfrom]
    exact Iff.trans ⟨fun hsteps => ⟨mergeLocked_next_le hlocked, hsteps⟩, fun hj => hj.steps⟩ hiff

/-- **When the ledger steps.**  In every state a run of the service reaches, the rows that
a credit, a debit, a sweep, a clawback, a reversal or a merge writes on its wallet step
from what the lots held before it to what they hold after it, exactly when no credits
arrive before a sweep that finds something and none are taken from another wallet. -/
theorem ledger_steps_iff {digest : UserId → UserId → String} {calls : List (Env × ServiceCall)}
    {reached after : Db} {c : ServiceCall} (hb : db.Bare) (hs : reached = runService digest calls db)
    (hc : c.Books) (h : c.exec digest env reached = .ok after) :
    Steps (reached.lotsOf (c.booksOn reached))
        (after.entriesFrom (c.booksFrom env reached) (c.booksOn reached))
        (after.lotsOf (c.booksOn reached)) ↔
      c.InStep digest env reached := by
  have hn : reached.LotsNonneg := hs ▸ (runService_regular hb.wellformed.toRegular).nonneg
  cases c with
  | wallet call => exact walletCall_steps_iff hn hc h
  | userMerged fromUser intoUser => exact userMerged_steps_iff hn h
  | stampSubscriptionPeriod sub => exact hc.elim
  | eraseSubject subjectType subject => exact hc.elim

/-- A wallet whose bonus has died unswept, and whose purchase a dispute took back. -/
def purchaseAndBonus : List (Env × ServiceCall) :=
  [(Env.plain 0, .wallet (.credit
      { user := 1
        credits := 100
        type := .creditPurchase
        source := .purchase })),
    (Env.plain 0, .wallet (.credit
      { user := 1
        credits := 10
        type := .subscriptionBonus
        source := .subscription
        expiresAt := some 5 })),
    (Env.plain 1, .wallet (.clawBackGrant 0 none none Metadata.empty))]

/-- The dispute is won before the bonus dies. -/
def promptReversal : ServiceCall := .wallet (.reverseClawback 2 none)

theorem ledger_steps_iff_promptReversal : ∃ after,
    promptReversal.exec (fun _ _ => "") (Env.plain 4)
      (runService (fun _ _ => "") purchaseAndBonus Db.empty) = .ok after ∧
    Steps ((runService (fun _ _ => "") purchaseAndBonus Db.empty).lotsOf 0)
      (after.entriesFrom 3 0) (after.lotsOf 0) := by
  have hbare : Db.empty.Bare := ⟨rfl, rfl, rfl, rfl, rfl⟩
  have hinStep : promptReversal.InStep (fun _ _ => "") (Env.plain 4)
      (runService (fun _ _ => "") purchaseAndBonus Db.empty) := by
    refine Or.inr ⟨noDue_iff_dueCredits.mpr ?_, ?_⟩
    all_goals decide +kernel
  exact ⟨_, rfl, (ledger_steps_iff (c := promptReversal) hbare rfl trivial rfl).mpr hinStep⟩

/-- The bonus expires with the credits the dispute gave back already counted in. -/
theorem restored_twice : ∃ after, promptReversal.exec (fun _ _ => "") (Env.plain 9)
      (runService (fun _ _ => "") purchaseAndBonus Db.empty) = .ok after ∧
    (runService (fun _ _ => "") purchaseAndBonus Db.empty).lotsOf 0 = 10 ∧
    after.entriesFrom 3 0 = [(-10, 100), (100, 100)] ∧ after.lotsOf 0 = 100 ∧
    ¬ Steps 10 (after.entriesFrom 3 0) (after.lotsOf 0) := by
  refine ⟨_, rfl, ?_, ?_, ?_, ?_⟩
  all_goals decide +kernel

end StapelBilling
