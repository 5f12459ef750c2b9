import StapelBilling.Homes
import StapelBilling.Merge

/-! # What a merge does

One lemma for each part of a merge: which lots it forfeits, what the fold makes of
every row, what it books.  The parts that sweep and collect are moves on one wallet;
the fold itself is the only step of the service that gives a row to another wallet.
-/
namespace StapelBilling
open Store

variable {env : Env} {w : ℕ} {db db' : Db}

/-! ## Emptying a lot with a row -/

/-- One lot of wallet `w` is emptied, and an expiry row of that wallet says so. -/
structure Empties (w k : ℕ) (lot : CreditLot) (row : Transaction) (db db' : Db) : Prop where
  current : db.lots.get? k = some lot
  onWallet : lot.wallet = w
  rowWallet : row.wallet = w
  delta : row.creditsDelta = -lot.creditsRemaining
  type : row.type = .expiration
  unmarked : row.metadata .debtSettlement = none
  unkeyed : row.metadata .idempotencyKey = none ∧ row.idempotencyKey = ""
  result : db' = { db with
    lots := db.lots.modify k CreditLot.zero
    transactions := db.transactions.insert row }

theorem expireLot_empties (env : Env) (running : ℤ) {k : ℕ} {lot : CreditLot}
    (hlot : db.lots.get? k = some lot) (hw : lot.wallet = w) :
    ∃ row, Empties w k lot row db (expireLot env w k lot running db) :=
  ⟨_, hlot, hw, rfl, rfl, rfl, rfl, ⟨rfl, rfl⟩, rfl⟩

theorem forfeitLot_empties (env : Env) (running : ℤ) {k : ℕ} {lot : CreditLot}
    (hlot : db.lots.get? k = some lot) (hw : lot.wallet = w) :
    ∃ row, Empties w k lot row db (forfeitLot env w k lot running db) :=
  ⟨_, hlot, hw, rfl, rfl, rfl, rfl, ⟨rfl, rfl⟩, rfl⟩

theorem Empties.grows {k : ℕ} {lot : CreditLot} {row : Transaction}
    (h : Empties w k lot row db db') : db.Grows w db' := by
  rw [h.result]
  exact ⟨lots_modify fun _ => rfl, rows_insert h.rowWallet, holds_same, debts_same⟩

theorem Empties.noDue {k : ℕ} {lot : CreditLot} {row : Transaction} {v : ℕ} {now : Time}
    (h : Empties w k lot row db db') (hd : db.NoDue v now) : db'.NoDue v now := by
  rw [h.result]
  intro j old hj hw hdue
  have hj' := (Table.get?_modify _ _ _ _).symm.trans hj
  split at hj'
  · obtain ⟨old, -, rfl⟩ := Option.map_eq_some_iff.mp hj'
    exact lt_irrefl 0 hdue.1
  · exact hd j old hj' hw hdue

/-! ## Forfeited lots -/

/-- Is the lot account-bound: of a source the settings name, or carrying credits back to
a grant of one? -/
def Db.Bound (db : Db) (sources : List LotSource) (w : ℕ) (lot : CreditLot) : Prop :=
  lot.source ∈ sources ∨
    lot.source = .holdRelease ∧ ∃ g ∈ lot.grantingTransaction, g ∈ db.boundGrants sources w

instance (sources : List LotSource) (w : ℕ) : DecidablePred (db.Bound sources w) := fun lot => by
  unfold Db.Bound; infer_instance

theorem mem_forfeitedLots {sources : List LotSource} {r : ℕ × CreditLot} :
    r ∈ db.forfeitedLots sources w ↔ db.lots.get? r.1 = some r.2 ∧ r.2.wallet = w ∧
      0 < r.2.creditsRemaining ∧ db.Bound sources w r.2 := by
  unfold Db.forfeitedLots
  rw [mem_orderBy, Table.mem_select]
  rfl

/-- A grant is account-bound when a lot of such a source on the wallet came from it. -/
theorem mem_boundGrants {sources : List LotSource} {g : ℕ} : g ∈ db.boundGrants sources w ↔
    ∃ k lot, db.lots.get? k = some lot ∧ lot.wallet = w ∧ lot.source ∈ sources ∧
      lot.grantingTransaction = some g := by
  unfold Db.boundGrants
  rw [List.mem_filterMap]
  constructor
  · rintro ⟨⟨k, lot⟩, hmem, hg⟩
    obtain ⟨hk, hw, hs⟩ := Table.mem_select.mp hmem
    exact ⟨k, lot, hk, hw, hs, hg⟩
  · rintro ⟨k, lot, hk, hw, hs, hg⟩
    exact ⟨(k, lot), Table.mem_select.mpr ⟨hk, hw, hs⟩, hg⟩

/-- The lots a forfeiture is handed: distinct, current, the wallet's. -/
structure Emptiable (w : ℕ) (lots : List (ℕ × CreditLot)) (db : Db) : Prop where
  nodup : (lots.map Prod.fst).Nodup
  current : ∀ r ∈ lots, db.lots.get? r.1 = some r.2 ∧ r.2.wallet = w

theorem forfeitedLots_emptiable (sources : List LotSource) :
    Emptiable w (db.forfeitedLots sources w) db :=
  ⟨orderBy_nodup Table.select_nodup, fun _ hr =>
    ⟨(mem_forfeitedLots.mp hr).1, (mem_forfeitedLots.mp hr).2.1⟩⟩

theorem Emptiable.tail {k : ℕ} {lot : CreditLot} {lots : List (ℕ × CreditLot)}
    {row : Transaction} (h : Emptiable w ((k, lot) :: lots) db)
    (he : Empties w k lot row db db') : Emptiable w lots db' := by
  obtain ⟨hnot, hnd⟩ := List.nodup_cons.mp h.nodup
  refine ⟨hnd, fun r hr => ?_⟩
  have hne : r.1 ≠ k := fun heq => hnot (List.mem_map.mpr ⟨r, hr, heq⟩)
  obtain ⟨hget, hw⟩ := h.current r (List.mem_cons_of_mem _ hr)
  rw [he.result]
  exact ⟨(Table.get?_modify_of_ne _ _ hne).trans hget, hw⟩

/-- **The rule for a forfeiture**: what emptying one lot with a row keeps, it keeps. -/
theorem forfeitLots_invariant {I : Db → Prop}
    (hstep : ∀ k lot row db db', Empties w k lot row db db' → I db → I db')
    {lots : List (ℕ × CreditLot)} {running : ℤ} (hl : Emptiable w lots db) (hI : I db) :
    I (forfeitLots env w lots running db) := by
  induction lots generalizing running db with
  | nil => exact hI
  | cons r lots ih =>
    obtain ⟨k, lot⟩ := r
    obtain ⟨hget, hw⟩ := hl.current _ List.mem_cons_self
    obtain ⟨row, he⟩ := forfeitLot_empties env (running - lot.creditsRemaining) hget hw
    exact ih (hl.tail he) (hstep k lot row _ _ he hI)

theorem forfeitLots_lot {lots : List (ℕ × CreditLot)} {running : ℤ}
    (hnd : (lots.map Prod.fst).Nodup) (k : ℕ) :
    (forfeitLots env w lots running db).lots.get? k =
      if k ∈ lots.map Prod.fst then (db.lots.get? k).map CreditLot.zero else db.lots.get? k := by
  induction lots generalizing running db with
  | nil => rfl
  | cons r lots ih =>
    obtain ⟨j, lot⟩ := r
    obtain ⟨hnot, hnd'⟩ := List.nodup_cons.mp hnd
    have hlots : (forfeitLot env w j lot (running - lot.creditsRemaining) db).lots =
        db.lots.modify j CreditLot.zero := rfl
    rw [forfeitLots, ih hnd', hlots, Table.get?_modify]
    by_cases hj : k = j
    · subst hj
      rw [if_neg hnot, if_pos rfl, List.map_cons, if_pos List.mem_cons_self]
    · have hmem : k ∈ ((j, lot) :: lots).map Prod.fst ↔ k ∈ lots.map Prod.fst := by
        simp [hj]
      simp only [if_neg hj, hmem]

/-- The database once the account-bound lots of `w` are forfeited. -/
def Db.forfeited (db : Db) (env : Env) (w : ℕ) : Db := (forfeitLotsOnMerge env w db).2

/-- A forfeiture changes nothing, or empties lots and refreshes. -/
theorem forfeited_cases (env : Env) (w : ℕ) (db : Db) : db.forfeited env w = db ∧
      (env.settings.mergeForfeitLotSources = [] ∨
        db.forfeitedLots env.settings.mergeForfeitLotSources w = []) ∨
    db.forfeited env w = (forfeitLots env w
      (db.forfeitedLots env.settings.mergeForfeitLotSources w) (db.liveBalance w env.now)
      db).syncBalance w env.now := by
  unfold Db.forfeited forfeitLotsOnMerge
  dsimp only
  split
  · rename_i hnone
    exact Or.inl ⟨rfl, Or.inl hnone⟩
  · split
    · rename_i hnone
      exact Or.inl ⟨rfl, Or.inr hnone⟩
    · exact Or.inr rfl

/-- **The rule for the forfeiture of a merge.** -/
theorem forfeited_invariant {I : Db → Prop}
    (hstep : ∀ k lot row db db', Empties w k lot row db db' → I db → I db')
    (hsync : ∀ db, I db → I (db.syncBalance w env.now)) (hI : I db) : I (db.forfeited env w) := by
  rcases forfeited_cases env w db with ⟨he, -⟩ | he
  · rw [he]
    exact hI
  · rw [he]
    exact hsync _ (forfeitLots_invariant hstep (forfeitedLots_emptiable _) hI)

/-- Is the lot one that the forfeiture of `w` empties? -/
def Db.Forfeits (db : Db) (env : Env) (w : ℕ) (lot : CreditLot) : Prop :=
  lot.wallet = w ∧ 0 < lot.creditsRemaining ∧
    db.Bound env.settings.mergeForfeitLotSources w lot

instance (env : Env) (w : ℕ) : DecidablePred (db.Forfeits env w) := fun lot => by
  unfold Db.Forfeits; infer_instance

theorem not_bound_nil {lot : CreditLot} : ¬ db.Bound [] w lot := by
  rintro (h | ⟨-, g, -, hg⟩)
  · exact List.not_mem_nil h
  · obtain ⟨k, lot', -, -, hs, -⟩ := mem_boundGrants.mp hg
    exact List.not_mem_nil hs

/-- **A forfeiture empties exactly the account-bound lots.** -/
theorem forfeited_lot (k : ℕ) : (db.forfeited env w).lots.get? k =
    (db.lots.get? k).map fun lot => if db.Forfeits env w lot then lot.zero else lot := by
  have hnone : db.forfeited env w = db → (∀ k lot, db.lots.get? k = some lot →
      ¬ db.Forfeits env w lot) → (db.forfeited env w).lots.get? k =
        (db.lots.get? k).map fun lot => if db.Forfeits env w lot then lot.zero else lot := by
    intro he hno
    rw [he]
    rcases hk : db.lots.get? k with - | lot
    · rfl
    · rw [Option.map_some, if_neg (hno k lot hk)]
  rcases forfeited_cases env w db with ⟨he, hempty | hempty⟩ | he
  · refine hnone he fun k lot _ hf => ?_
    have hbound := hf.2.2
    rw [hempty] at hbound
    exact not_bound_nil hbound
  · refine hnone he fun k lot hk hf => ?_
    have hmem : (k, lot) ∈ db.forfeitedLots env.settings.mergeForfeitLotSources w :=
      mem_forfeitedLots.mpr ⟨hk, hf⟩
    rw [hempty] at hmem
    cases hmem
  · rw [he]
    refine (forfeitLots_lot (forfeitedLots_emptiable _).nodup k).trans ?_
    rcases hk : db.lots.get? k with - | lot
    · rw [Option.map_none, Option.map_none, ite_self]
    · rw [Option.map_some, Option.map_some]
      by_cases hf : db.Forfeits env w lot
      · rw [if_pos hf, if_pos (List.mem_map.mpr ⟨(k, lot), mem_forfeitedLots.mpr ⟨hk, hf⟩, rfl⟩)]
      · rw [if_neg hf, if_neg]
        intro hmem
        obtain ⟨⟨j, lot'⟩, hmem', hj⟩ := List.mem_map.mp hmem
        have hj' : j = k := hj
        subst hj'
        obtain ⟨hget, hf'⟩ := mem_forfeitedLots.mp hmem'
        obtain rfl := Option.some.inj (hk.symm.trans hget)
        exact hf hf'

theorem forfeited_frame : (db.forfeited env w).holds = db.holds ∧
    (db.forfeited env w).debts = db.debts ∧ db.SameElsewhere (db.forfeited env w) := by
  refine forfeited_invariant (I := fun db' => db'.holds = db.holds ∧ db'.debts = db.debts ∧
    db.SameElsewhere db') ?_ ?_ ⟨rfl, rfl, Db.SameElsewhere.refl db⟩
  · rintro k lot row db₁ db₂ he ⟨hholds, hdebts, hsame⟩
    rw [he.result]
    exact ⟨hholds, hdebts, hsame.trans ⟨rfl, rfl, rfl, rfl, rfl⟩⟩
  · rintro db₁ ⟨hholds, hdebts, hsame⟩
    exact ⟨hholds, hdebts, hsame.trans ⟨rfl, rfl, rfl, rfl, rfl⟩⟩

theorem forfeited_grows : db.Grows w (db.forfeited env w) :=
  forfeited_invariant (I := fun db' => db.Grows w db')
    (fun _ _ _ _ _ he hI => hI.trans he.grows) (fun _ hI => hI.trans syncBalance_grows)
    (Db.Grows.refl db)

theorem forfeited_noDue {v : ℕ} {now : Time} (hd : db.NoDue v now) :
    (db.forfeited env w).NoDue v now :=
  forfeited_invariant (I := fun db' => db'.NoDue v now) (fun _ _ _ _ _ he hI => he.noDue hI)
    (fun _ hI => hI) hd

theorem forfeited_beside : db.Beside w (db.forfeited env w) where
  lots := by
    intro k lot hw
    rw [forfeited_lot, Option.map_eq_some_iff]
    constructor
    · exact fun h => ⟨lot, h, if_neg fun hf => hw hf.1⟩
    · rintro ⟨old, hold, rfl⟩
      by_cases hf : db.Forfeits env w old
      · rw [if_pos hf] at hw
        exact absurd hf.1 hw
      · rw [if_neg hf]
        exact hold
  wallets := by
    intro k hk
    refine forfeited_invariant (I := fun db' => db'.wallets.get? k = db.wallets.get? k) ?_ ?_ rfl
    · rintro j lot row db₁ db₂ he hI
      rw [he.result]
      exact hI
    · exact fun db₁ hI => (wallets_modify_other hk).trans hI

/-- A forfeiture at most refreshes the wallet's balance. -/
theorem forfeited_wallets : WalletsSynced db.wallets (db.forfeited env w).wallets := by
  refine forfeited_invariant (I := fun db' => WalletsSynced db.wallets db'.wallets) ?_ ?_
    (WalletsSynced.refl _)
  · rintro k lot row db₁ db₂ he hI
    rw [he.result]
    exact hI
  · exact fun db₁ hI => hI.trans (WalletsSynced.sync _ _)

theorem LotProperty.forfeited {Q : CreditLot → Prop} (hQ : LotProperty Q) (h : db.Lots Q) :
    (db.forfeited env w).Lots Q := by
  intro k lot hk
  rw [forfeited_lot] at hk
  obtain ⟨old, hold, rfl⟩ := Option.map_eq_some_iff.mp hk
  split
  · exact hQ.zero old (h k old hold)
  · exact h k old hold

/-- What a forfeiture reports is what it took out of the wallet's live lots, when no lot
is due. -/
theorem forfeitLotsOnMerge_fst : (forfeitLotsOnMerge env w db).1 =
    db.lots.sum fun _ lot => if db.Forfeits env w lot then lot.creditsRemaining else 0 := by
  unfold forfeitLotsOnMerge
  dsimp only
  split
  · rename_i hnone
    refine (Table.sum_zero fun k lot _ => if_neg fun hf => ?_).symm
    have hbound := hf.2.2
    rw [hnone] at hbound
    exact not_bound_nil hbound
  · have hlist : (db.lots.sum fun _ lot =>
          if db.Forfeits env w lot then lot.creditsRemaining else 0) =
        ((db.forfeitedLots env.settings.mergeForfeitLotSources w).map
          fun r => r.2.creditsRemaining).sum :=
      (Table.sum_select db.lots (db.Forfeits env w) fun _ lot => lot.creditsRemaining).symm.trans
        (orderBy_sum CreditLot.age _ fun r => r.2.creditsRemaining).symm
    rw [hlist]
    split
    · rename_i hnone
      rw [hnone]
      rfl
    · rfl

/-! ## The fold -/

/-- The database once the rows of `merged` are the survivor's and it is closed. -/
def Db.folded (db : Db) (merged survivor : ℕ) : Db :=
  closeWallet merged survivor (moveRows merged survivor (renameClashes merged survivor db))

section Fold
variable {merged survivor : ℕ}

theorem folded_lot (k : ℕ) : (db.folded merged survivor).lots.get? k =
    (db.lots.get? k).map fun lot =>
      if lot.wallet = merged then { lot with wallet := survivor } else lot :=
  Table.get?_update _ _ _

theorem folded_row (k : ℕ) : (db.folded merged survivor).transactions.get? k =
    (db.transactions.get? k).map fun row =>
      if row.wallet = merged then { row with wallet := survivor } else row :=
  Table.get?_update _ _ _

theorem folded_debt (k : ℕ) : (db.folded merged survivor).debts.get? k =
    (db.debts.get? k).map fun debt =>
      if debt.wallet = merged then { debt with wallet := survivor } else debt :=
  Table.get?_update _ _ _

theorem folded_wallet (k : ℕ) : (db.folded merged survivor).wallets.get? k =
    if k = merged then (db.wallets.get? k).map fun wallet =>
      { wallet with
        balance := 0
        user := none
        mergedInto := some survivor }
    else db.wallets.get? k :=
  Table.get?_modify _ _ _ _

/-- A folded hold is the old one with its wallet replaced, under its key or a renamed
one. -/
theorem folded_hold (h : ℕ) : ∃ key : CreditHold → String,
    (db.folded merged survivor).holds.get? h = (db.holds.get? h).map fun held =>
      { held with
        wallet := if held.wallet = merged then survivor else held.wallet
        idempotencyKey := key held } := by
  have hget : (db.folded merged survivor).holds.get? h =
      ((renameClashes merged survivor db).holds.get? h).map fun held =>
        if held.wallet = merged then { held with wallet := survivor } else held :=
    Table.get?_update _ _ _
  rw [hget]
  unfold renameClashes
  dsimp only
  rw [Table.get?_update]
  rcases db.holds.get? h with - | held
  · exact ⟨CreditHold.idempotencyKey, rfl⟩
  · simp only [Option.map_some, Option.some.injEq]
    split
    · rename_i hclash
      refine ⟨fun held => renamedKey merged held.idempotencyKey, ?_⟩
      rw [if_pos hclash.1, if_pos hclash.1]
    · refine ⟨CreditHold.idempotencyKey, ?_⟩
      split <;> rfl

theorem folded_next : (db.folded merged survivor).transactions.next = db.transactions.next ∧
    (db.folded merged survivor).lots.next = db.lots.next ∧
    (db.folded merged survivor).wallets.next = db.wallets.next := ⟨rfl, rfl, rfl⟩

/-- **The fold gives the merged wallet's share of every aggregate to the survivor.** -/
theorem folded_sum {α : Type} {t : Table α} {f : ℕ → α → α} (wallet : α → ℕ) (g : α → ℤ)
    (hne : merged ≠ survivor) (hf : ∀ k a, wallet (f k a) = if wallet a = merged then survivor
      else wallet a) (hg : ∀ k a, g (f k a) = g a) (v : ℕ) :
    ((t.update f).sum fun _ a => if wallet a = v then g a else 0) =
      if v = merged then 0
      else (t.sum fun _ a => if wallet a = v then g a else 0) +
        if v = survivor then t.sum fun _ a => if wallet a = merged then g a else 0 else 0 := by
  rw [Table.sum_update]
  simp only [hf, hg]
  by_cases hv : v = merged
  · rw [if_pos hv]
    refine Table.sum_zero fun k a _ => if_neg ?_
    split
    · exact fun h => hne (hv.symm.trans h.symm)
    · rename_i hw
      exact fun h => hw (h.trans hv)
  · rw [if_neg hv]
    by_cases hs : v = survivor
    · rw [if_pos hs, ← Table.sum_add]
      refine Table.sum_congr fun k a _ => ?_
      by_cases hw : wallet a = merged
      · rw [if_pos hw, if_pos hs.symm, if_pos hw, if_neg fun h => hv (h.symm.trans hw), zero_add]
      · rw [if_neg hw, if_neg hw, add_zero]
    · rw [if_neg hs, add_zero]
      refine Table.sum_congr fun k a _ => ?_
      by_cases hw : wallet a = merged
      · rw [if_pos hw, if_neg fun h => hs h.symm, if_neg fun h => hv (h.symm.trans hw)]
      · rw [if_neg hw]

end Fold

end StapelBilling
