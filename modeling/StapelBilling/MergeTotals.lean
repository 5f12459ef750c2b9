import StapelBilling.MergeBooks
import StapelBilling.ServiceRuns

/-! # What a merge does to credits

A merge takes credits out of lots in three ways and in no other: it expires what is due on
either wallet, it forfeits the account-bound credits of the merged one, and it collects
the debts that meet on the survivor's.  Each part is measured by what it takes, lot by lot
and in total.
-/
namespace StapelBilling
open Store

variable {env : Env} {v w merged survivor : ℕ} {db db' : Db}

/-! ## Measures -/

/-- What the due lots of a wallet still hold. -/
def Db.dueCredits (w : ℕ) (now : Time) (db : Db) : ℤ :=
  db.lots.sum fun _ lot => if lot.wallet = w then if lot.Due now then lot.creditsRemaining else 0
    else 0

/-- The credits a settlement row says it took out of lot `k`. -/
def Transaction.settled (k : ℕ) (row : Transaction) : ℤ :=
  match row.metadata .debtSettlement, row.metadata .lots with
  | some (.bool true), some (.lots taken) => drawnFrom k taken
  | _, _ => 0

/-- The credits that settlement rows say they took out of lot `k`. -/
def Db.settledFrom (k : ℕ) (db : Db) : ℤ := db.transactions.sum fun _ row => row.settled k

theorem settled_of_unmarked {k : ℕ} {row : Transaction} (h : row.metadata .debtSettlement = none) :
    row.settled k = 0 := by
  unfold Transaction.settled
  rw [h]

theorem settledFrom_insert {k : ℕ} {row : Transaction}
    (hrows : db'.transactions = db.transactions.insert row) :
    db'.settledFrom k = db.settledFrom k + row.settled k := by
  unfold Db.settledFrom
  rw [hrows, Table.sum_insert]

/-! ## Sweeping and forfeiting -/

/-- **A sweep takes out what is due.** -/
theorem swept_lotsOf (env : Env) (w : ℕ) (db : Db) :
    (db.swept env w).lotsOf w + db.dueCredits w env.now = db.lotsOf w := by
  unfold Db.lotsOf Db.dueCredits
  rw [Table.sum_of_map _ fun k => @swept_lot env w db k, ← Table.sum_add]
  refine Table.sum_congr fun k lot _ => ?_
  rw [CreditLot.sweptAt_wallet]
  by_cases hw : lot.wallet = w
  · rw [if_pos hw, if_pos hw, if_pos hw]
    by_cases hdue : lot.Due env.now
    · have hzero : lot.sweptAt w env.now = lot.zero := if_pos ⟨hw, hdue⟩
      rw [hzero, if_pos hdue]
      exact zero_add _
    · have hsame : lot.sweptAt w env.now = lot := if_neg fun h => hdue h.2
      rw [hsame, if_neg hdue, add_zero]
  · rw [if_neg hw, if_neg hw, if_neg hw, add_zero]

/-- **A forfeiture takes out what it reports.** -/
theorem forfeited_lotsOf (env : Env) (w : ℕ) (db : Db) :
    (db.forfeited env w).lotsOf w + (forfeitLotsOnMerge env w db).1 = db.lotsOf w := by
  unfold Db.lotsOf
  rw [forfeitLotsOnMerge_fst, Table.sum_of_map _ fun k => @forfeited_lot env w db k,
    ← Table.sum_add]
  refine Table.sum_congr fun k lot _ => ?_
  by_cases hf : db.Forfeits env w lot
  · rw [if_pos hf, if_pos hf, if_pos hf.1]
    have hzero : (if lot.zero.wallet = w then lot.zero.creditsRemaining else 0) = 0 := ite_self 0
    rw [hzero, zero_add]
  · rw [if_neg hf, if_neg hf, add_zero]

/-- Emptying lots with rows is no settlement. -/
theorem Empties.settledFrom {k j : ℕ} {lot : CreditLot} {row : Transaction}
    (h : Empties w k lot row db db') : db'.settledFrom j = db.settledFrom j := by
  have hrows : db'.transactions = db.transactions.insert row := by rw [h.result]
  rw [settledFrom_insert hrows, settled_of_unmarked h.unmarked, add_zero]

theorem swept_settledFrom (env : Env) (w : ℕ) (db : Db) (j : ℕ) :
    (db.swept env w).settledFrom j = db.settledFrom j := by
  refine Moves.invariant (I := fun db' => db'.settledFrom j = db.settledFrom j) ?_
    (expireDueLots_moves env w (P := Move.IsSweep) trivial (fun _ => trivial) db) rfl
  rintro m db₁ db₂ hm hI hs
  cases hs with
  | sync => exact hI
  | @expire _ k lot running hlot hw hdue =>
    obtain ⟨row, he⟩ := expireLot_empties env running hlot hw
    exact he.settledFrom.trans hI
  | _ => exact hm.elim

theorem stripped_settledFrom (j : ℕ) :
    (db.stripped env merged).settledFrom j = db.settledFrom j := by
  refine (forfeited_invariant (I := fun db' =>
    db'.settledFrom j = (db.swept env merged).settledFrom j) ?_ ?_ rfl).trans
      (swept_settledFrom env merged db j)
  · exact fun k lot row db₁ db₂ he hI => he.settledFrom.trans hI
  · exact fun db₁ hI => hI

/-- **Stripping takes out what is due and what is forfeited.** -/
theorem stripped_lotsOf : (db.stripped env merged).lotsOf merged +
    db.dueCredits merged env.now + (forfeitLotsOnMerge env merged (db.swept env merged)).1 =
      db.lotsOf merged := by
  have hswept := swept_lotsOf env merged db
  have hforfeited := forfeited_lotsOf env merged (db.swept env merged)
  have hstripped : db.stripped env merged = (db.swept env merged).forfeited env merged := rfl
  rw [hstripped]
  omega

theorem dueCredits_of_noDue {now : Time} (h : db.NoDue w now) : db.dueCredits w now = 0 := by
  refine Table.sum_zero fun k lot hk => ?_
  split
  · rename_i hw
    exact if_neg (h k lot hk hw)
  · rfl

/-! ## Folding and booking -/

theorem folded_dueCredits (hne : merged ≠ survivor) (now : Time) (v : ℕ) :
    (db.folded merged survivor).dueCredits v now = if v = merged then 0
      else db.dueCredits v now + if v = survivor then db.dueCredits merged now else 0 :=
  folded_sum CreditLot.wallet (fun lot => if lot.Due now then lot.creditsRemaining else 0) hne
    (fun _ lot => by split <;> rfl) (fun _ lot => by split <;> rfl) v

theorem folded_owedBy (hne : merged ≠ survivor) (v : ℕ) :
    (db.folded merged survivor).owedBy v = if v = merged then 0
      else db.owedBy v + if v = survivor then db.owedBy merged else 0 :=
  folded_sum CreditDebt.wallet CreditDebt.creditsOutstanding hne
    (fun _ debt => by split <;> rfl) (fun _ debt => by split <;> rfl) v

theorem folded_settledFrom (j : ℕ) :
    (db.folded merged survivor).settledFrom j = db.settledFrom j := by
  have hsum := Table.sum_of_map (fun _ row => row.settled j)
    (@folded_row db merged survivor)
  unfold Db.settledFrom
  rw [hsum]
  refine Table.sum_congr fun k row _ => ?_
  split <;> rfl

section Booking
variable {key : String} {credits : ℤ}

theorem bookMerge_lotsOf : (bookMerge env key merged survivor credits db).lotsOf survivor +
    db.dueCredits survivor env.now = db.lotsOf survivor := by
  have hlots : (bookMerge env key merged survivor credits db).lotsOf survivor =
      (db.swept env survivor).lotsOf survivor := rfl
  rw [hlots]
  exact swept_lotsOf env survivor db

theorem bookMerge_owedBy (v : ℕ) :
    (bookMerge env key merged survivor credits db).owedBy v = db.owedBy v := by
  rw [Db.owedBy, bookMerge_frame.2.1, Db.owedBy]

theorem bookMerge_settledFrom (j : ℕ) :
    (bookMerge env key merged survivor credits db).settledFrom j = db.settledFrom j := by
  have hrow : (bookMerge env key merged survivor credits db).settledFrom j =
      (db.swept env survivor).settledFrom j := by
    refine (settledFrom_insert rfl).trans ?_
    rw [settled_of_unmarked rfl, add_zero]
    rfl
  rw [hrow, swept_settledFrom]

end Booking

/-! ## Collecting debts -/

/-- Is the move a collection? -/
def Move.IsCollect : Move → Prop
  | .collect _ _ _ _ => True
  | _ => False

/-- **A collection takes out of the lots what it takes off the debt.** -/
theorem Step.collect_net {m : Move} (h : Step env w m db db') (hm : m.IsCollect) (v : ℕ) :
    db'.lotsOf v - db'.owedBy v = db.lotsOf v - db.owedBy v := by
  cases m with
  | collect k debt amount taken =>
    rw [h.collect_lotsOf v]
    have howed : db'.owedBy v = db.owedBy v - if w = v then amount else 0 := by
      cases h with
      | collect hdebt hw hopen hpos hle htaken hdrawn =>
        have hsum := Table.sum_modify hdebt (fun d => { d with
          creditsOutstanding := debt.creditsOutstanding - amount
          settledAt := if debt.creditsOutstanding - amount ≤ 0 then some env.now else d.settledAt })
          fun _ debt => if debt.wallet = v then debt.creditsOutstanding else 0
        dsimp only at hsum
        rw [hw] at hsum
        unfold Db.owedBy
        rw [collectDebt_debts]
        have hdebts : (db.spendLots taken).debts = db.debts := rfl
        rw [hdebts]
        by_cases hv : w = v
        · rw [if_pos hv, if_pos hv] at hsum
          rw [if_pos hv]
          omega
        · rw [if_neg hv, if_neg hv] at hsum
          rw [if_neg hv]
          omega
    rw [howed]
    omega
  | _ => exact hm.elim

/-- **A collection takes out of each lot what its row says.** -/
theorem Step.collect_lot {m : Move} (h : Step env w m db db') (hm : m.IsCollect) {k : ℕ}
    {lot : CreditLot} (hk : db.lots.get? k = some lot) :
    ∃ lot', db'.lots.get? k = some lot' ∧ lot.Same lot' ∧
      lot'.creditsRemaining + db'.settledFrom k = lot.creditsRemaining + db.settledFrom k := by
  cases h with
  | @collect _ d debt amount taken hdebt hw hopen hpos hle htaken hdrawn =>
    have hsettled : (collectDebt env w d debt amount taken (db.spendLots taken)).settledFrom k =
        db.settledFrom k + drawnFrom k taken := by
      refine (settledFrom_insert rfl).trans (congrArg₂ (· + ·) rfl ?_)
      unfold Transaction.settled settlementMetadata
      dsimp only
      rw [Metadata.set_same, Metadata.set_of_ne _ _ (by decide), Metadata.set_of_ne _ _ (by decide),
        Metadata.set_same]
    have hlots : (collectDebt env w d debt amount taken (db.spendLots taken)).lots =
        db.lots.drain CreditLot.spend taken := rfl
    rw [hlots, hsettled]
    by_cases hmem : k ∈ taken.map Prod.fst
    · obtain ⟨⟨j, n⟩, hn, rfl⟩ := List.mem_map.mp hmem
      refine ⟨lot.spend n, by rw [Table.get?_drain_of_mem htaken.nodup hn, hk]; rfl, rfl, ?_⟩
      rw [drawnFrom_of_mem htaken.nodup hn]
      show lot.creditsRemaining - n + _ = _
      omega
    · refine ⟨lot, by rw [Table.get?_drain_of_not_mem hmem, hk], rfl, ?_⟩
      rw [drawnFrom_of_not_mem hmem, add_zero]
  | _ => exact hm.elim

/-- **What collections take** out of lots and off debts. -/
theorem settleDebts_takes {n : ℤ} (h : settleDebts env w db = .ok (n, db')) :
    (∀ v, db'.lotsOf v - db'.owedBy v = db.lotsOf v - db.owedBy v) ∧
    ∀ k lot, db.lots.get? k = some lot → ∃ lot', db'.lots.get? k = some lot' ∧ lot.Same lot' ∧
      lot'.creditsRemaining + db'.settledFrom k = lot.creditsRemaining + db.settledFrom k := by
  have hmoves := settleDebts_ok (P := Move.IsCollect) (fun _ _ _ _ => trivial) h
  refine Moves.invariant (I := fun db' => (∀ v, db'.lotsOf v - db'.owedBy v =
    db.lotsOf v - db.owedBy v) ∧ ∀ k lot, db.lots.get? k = some lot → ∃ lot',
      db'.lots.get? k = some lot' ∧ lot.Same lot' ∧
        lot'.creditsRemaining + db'.settledFrom k = lot.creditsRemaining + db.settledFrom k)
    ?_ hmoves ⟨fun _ => rfl, fun k lot hk => ⟨lot, hk, rfl, rfl⟩⟩
  rintro m db₁ db₂ hm ⟨hnet, hlots⟩ hs
  refine ⟨fun v => (hs.collect_net hm v).trans (hnet v), fun k lot hk => ?_⟩
  obtain ⟨lot₁, hk₁, hsame₁, htaken₁⟩ := hlots k lot hk
  obtain ⟨lot₂, hk₂, hsame₂, htaken₂⟩ := hs.collect_lot hm hk₁
  exact ⟨lot₂, hk₂, hsame₁.trans _ _ _ hsame₂, htaken₂.trans htaken₁⟩

/-! ## The merge as a whole -/

/-- **What a merge does to credits.**  A moved lot keeps where it came from and when it
dies; what it holds is nothing when it was due or account-bound, and otherwise what it
held, less what the merge's settlement rows took.  The two wallets lose what was
forfeited, what was due, and what came off their debts. -/
structure Db.MergesExactly (env : Env) (merged survivor : ℕ) (counts : MergeCounts)
    (db db' : Db) : Prop where
  lots : ∀ k lot, db.lots.get? k = some lot → lot.wallet = merged →
    ∃ lot', db'.lots.get? k = some lot' ∧ lot'.wallet = survivor ∧ lot'.source = lot.source ∧
      lot'.expiresAt = lot.expiresAt ∧ lot'.grantingTransaction = lot.grantingTransaction ∧
      lot'.creditsRemaining =
        (if lot.Due env.now ∨ db.Bound env.settings.mergeForfeitLotSources merged lot then 0
          else lot.creditsRemaining) - (db'.settledFrom k - db.settledFrom k)
  total : db'.lotsOf merged + db'.lotsOf survivor = db.lotsOf merged + db.lotsOf survivor -
    (counts.forfeited + (db.dueCredits merged env.now + db.dueCredits survivor env.now) +
      ((db.owedBy merged + db.owedBy survivor) - (db'.owedBy merged + db'.owedBy survivor)))

/-- What a moved lot holds when the survivor's debts have not collected yet. -/
theorem booked_lot (key : String) (hn : db.LotsNonneg) {k : ℕ} {lot : CreditLot}
    (hk : db.lots.get? k = some lot) (hw : lot.wallet = merged) :
    (db.booked env key merged survivor).lots.get? k = some
      { lot with
        wallet := survivor
        creditsRemaining :=
          if lot.Due env.now ∨ db.Bound env.settings.mergeForfeitLotSources merged lot then 0
          else lot.creditsRemaining } := by
  have hstripped : (db.stripped env merged).lots.get? k = some
      { lot with
        creditsRemaining :=
          if lot.Due env.now ∨ db.Bound env.settings.mergeForfeitLotSources merged lot then 0
          else lot.creditsRemaining } := by
    rw [stripped_lot, hk, Option.map_some]
    have hforfeits : (db.swept env merged).Forfeits env merged (lot.sweptAt merged env.now) ↔
        lot.wallet = merged ∧ 0 < (lot.sweptAt merged env.now).creditsRemaining ∧
          db.Bound env.settings.mergeForfeitLotSources merged lot := by
      unfold Db.Forfeits
      rw [swept_bound, CreditLot.sweptAt_wallet]
    by_cases hdue : lot.Due env.now
    · have hzero : lot.sweptAt merged env.now = lot.zero := if_pos ⟨hw, hdue⟩
      rw [hzero, if_pos (Or.inl hdue), ite_self]
      rfl
    · have hsame : lot.sweptAt merged env.now = lot := if_neg fun h => hdue h.2
      rw [hsame] at hforfeits
      rw [hsame]
      by_cases hbound : db.Bound env.settings.mergeForfeitLotSources merged lot
      · rw [if_pos (Or.inr hbound)]
        by_cases hpos : 0 < lot.creditsRemaining
        · rw [if_pos (hforfeits.mpr ⟨hw, hpos, hbound⟩)]
          rfl
        · -- An account-bound lot that is not forfeited has nothing left to forfeit.
          have hzero : lot.creditsRemaining = 0 := by
            have hnonneg : 0 ≤ lot.creditsRemaining := hn k lot hk
            omega
          rw [if_neg fun h => hpos (hforfeits.mp h).2.1, ← hzero]
      · rw [if_neg fun h => hbound (hforfeits.mp h).2.2, if_neg fun h => h.elim hdue hbound]
  have hfolded : ((db.stripped env merged).folded merged survivor).lots.get? k = some
      { lot with
        wallet := survivor
        creditsRemaining :=
          if lot.Due env.now ∨ db.Bound env.settings.mergeForfeitLotSources merged lot then 0
          else lot.creditsRemaining } := by
    rw [folded_lot, hstripped, Option.map_some, if_pos hw]
  -- What arrives is not due, so the survivor's sweep leaves it alone.
  have hkept : ∀ moved : CreditLot, ¬ moved.Due env.now → moved.sweptAt survivor env.now = moved :=
    fun moved hdue => if_neg fun h => hdue h.2
  unfold Db.booked
  rw [bookMerge_lots, swept_lot, hfolded, Option.map_some, hkept]
  intro hdue
  exact stripped_noDue k _ hstripped hw hdue

/-- **A merge under both locks moves credits exactly.** -/
theorem mergeLocked_exact {key : String} {fromUser intoUser : UserId} {counts : MergeCounts}
    (hn : db.LotsNonneg) (hne : merged ≠ survivor)
    (h : mergeLocked env key fromUser intoUser merged survivor db = .ok (counts, db')) :
    db.MergesExactly env merged survivor counts db' := by
  obtain ⟨subscriptions, n, hsettle, hforfeited, -⟩ := mergeLocked_cases h
  obtain ⟨hnet, hlots⟩ := settleDebts_takes hsettle
  have hbookedLots : ∀ v, Db.lotsOf v { db.booked env key merged survivor with subscriptions } =
      (db.booked env key merged survivor).lotsOf v := fun _ => rfl
  have hbookedOwed : ∀ v, Db.owedBy v { db.booked env key merged survivor with subscriptions } =
      (db.booked env key merged survivor).owedBy v := fun _ => rfl
  have hdb : db.booked env key merged survivor = bookMerge env key merged survivor
      (db.movedCredits env merged) ((db.stripped env merged).folded merged survivor) := rfl
  refine ⟨fun k lot hk hw => ?_, ?_⟩
  · obtain ⟨lot', hk', hsame, htaken⟩ := hlots k _ (booked_lot key hn hk hw)
    have hsettled : Db.settledFrom k { db.booked env key merged survivor with subscriptions } =
        db.settledFrom k := by
      refine Eq.trans (b := (db.booked env key merged survivor).settledFrom k) rfl ?_
      rw [hdb, bookMerge_settledFrom, folded_settledFrom, stripped_settledFrom]
    rw [hsettled] at htaken
    dsimp only at htaken
    refine ⟨lot', hk', ?_, ?_, ?_, ?_, by omega⟩
    all_goals rw [hsame]
  · have hmerged := hnet merged
    have hsurvivor := hnet survivor
    rw [hbookedLots, hbookedOwed] at hmerged hsurvivor
    have hstripped : db.Beside merged (db.stripped env merged) := stripped_beside
    have hbeside : ((db.stripped env merged).folded merged survivor).Beside survivor
      (db.booked env key merged survivor) := bookMerge_beside
    have howed : ∀ v, (db.stripped env merged).owedBy v = db.owedBy v := fun v => by
      rw [Db.owedBy, stripped_frame.2.1, Db.owedBy]
    -- The merged wallet ends with nothing and owing nothing.
    have hemptied : (db.booked env key merged survivor).lotsOf merged = 0 := by
      rw [(hbeside.sameFor hne).lotsOf, folded_lotsOf hne, if_pos rfl]
    have hfree : (db.booked env key merged survivor).owedBy merged = 0 := by
      rw [hdb, bookMerge_owedBy, folded_owedBy hne, if_pos rfl]
    -- The survivor gets both wallets' debts, and the lots that stripping left.
    have hdebts : (db.booked env key merged survivor).owedBy survivor =
        db.owedBy survivor + db.owedBy merged := by
      rw [hdb, bookMerge_owedBy, folded_owedBy hne, if_neg hne.symm, if_pos rfl, howed, howed]
    have hdue : ((db.stripped env merged).folded merged survivor).dueCredits survivor env.now =
        db.dueCredits survivor env.now := by
      rw [folded_dueCredits hne, if_neg hne.symm, if_pos rfl, dueCredits_of_noDue stripped_noDue,
        add_zero]
      exact (hstripped.sameFor hne.symm).sum_lots _
    have harrived : ((db.stripped env merged).folded merged survivor).lotsOf survivor =
        db.lotsOf survivor + (db.stripped env merged).lotsOf merged := by
      rw [folded_lotsOf hne, if_neg hne.symm, if_pos rfl, (hstripped.sameFor hne.symm).lotsOf]
    have hswept : (db.booked env key merged survivor).lotsOf survivor +
        ((db.stripped env merged).folded merged survivor).dueCredits survivor env.now =
          ((db.stripped env merged).folded merged survivor).lotsOf survivor := bookMerge_lotsOf
    have hleft := @stripped_lotsOf env merged db
    omega

end StapelBilling
