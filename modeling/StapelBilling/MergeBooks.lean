import StapelBilling.Merging

/-! # The survivor's ledger after a merge

The merged wallet's ledger moves with its lots, and the merge writes a row for the
transfer on top: what moved is counted by the rows that granted it and by the row that
says it arrived.  The survivor's ledger explains its lots and holds exactly when
nothing moved.
-/
namespace StapelBilling
open Store

variable {env : Env} {db db' : Db}

/-- The ledger of wallet `w` adds up to what its lots hold and its open holds reserve. -/
def Db.Explains (w : ℕ) (db : Db) : Prop := db.ledgerOf w = db.lotsOf w + db.reservedOf w

instance (w : ℕ) (db : Db) : Decidable (db.Explains w) := by unfold Db.Explains; infer_instance

theorem explains_iff_gap {w : ℕ} : db.Explains w ↔ db.gapOf w = 0 := by
  unfold Db.Explains Db.gapOf
  omega

/-- The live credits of wallet `w` that are not account-bound. -/
def Db.transferable (db : Db) (env : Env) (w : ℕ) : ℤ :=
  db.lots.sum fun _ lot =>
    if lot.wallet = w ∧ lot.Live env.now ∧
        ¬ db.Bound env.settings.mergeForfeitLotSources w lot then lot.creditsRemaining else 0

@[simp] theorem CreditLot.sweptAt_source (lot : CreditLot) (w : ℕ) (now : Time) :
    (lot.sweptAt w now).source = lot.source := by
  unfold CreditLot.sweptAt
  split <;> rfl

/-- A sweep leaves the account-bound grants what they were. -/
theorem swept_boundGrants {sources : List LotSource} {w g : ℕ} :
    g ∈ (db.swept env w).boundGrants sources w ↔ g ∈ db.boundGrants sources w := by
  rw [mem_boundGrants, mem_boundGrants]
  constructor
  · rintro ⟨k, lot, hk, hw, hs, hg⟩
    rw [swept_lot] at hk
    obtain ⟨old, hold, rfl⟩ := Option.map_eq_some_iff.mp hk
    rw [CreditLot.sweptAt_wallet] at hw
    rw [CreditLot.sweptAt_source] at hs
    rw [CreditLot.sweptAt_grant] at hg
    exact ⟨k, old, hold, hw, hs, hg⟩
  · rintro ⟨k, lot, hk, hw, hs, hg⟩
    refine ⟨k, lot.sweptAt w env.now, by rw [swept_lot, hk]; rfl, ?_, ?_, ?_⟩
    · rw [CreditLot.sweptAt_wallet, hw]
    · rw [CreditLot.sweptAt_source]
      exact hs
    · rw [CreditLot.sweptAt_grant, hg]

theorem swept_bound {sources : List LotSource} {w : ℕ} {lot : CreditLot} :
    (db.swept env w).Bound sources w (lot.sweptAt w env.now) ↔ db.Bound sources w lot := by
  unfold Db.Bound
  rw [CreditLot.sweptAt_source, CreditLot.sweptAt_grant]
  simp only [swept_boundGrants]

/-- **What a merge moves** is what the merged wallet has that is live and not
account-bound. -/
theorem movedCredits_eq (w : ℕ) : db.movedCredits env w = db.transferable env w := by
  unfold Db.movedCredits Db.liveBalance Db.transferable
  rw [Table.sum_of_map _ fun k => @stripped_lot env db w k]
  refine Table.sum_congr fun k lot _ => ?_
  by_cases hdue : lot.wallet = w ∧ lot.Due env.now
  · -- The sweep has emptied it, and it was not live.
    have hswept : lot.sweptAt w env.now = lot.zero := if_pos hdue
    have hdead : ¬ (lot.wallet = w ∧ lot.Live env.now ∧
        ¬ db.Bound env.settings.mergeForfeitLotSources w lot) :=
      fun h => not_aliveAt_iff.mpr hdue.2.2 h.2.1.2
    rw [hswept, ite_self, if_neg hdead]
    exact if_neg fun h => lt_irrefl 0 h.2.1
  · have hswept : lot.sweptAt w env.now = lot := if_neg hdue
    have hforfeits : (db.swept env w).Forfeits env w (lot.sweptAt w env.now) ↔ lot.wallet = w ∧
        0 < lot.creditsRemaining ∧ db.Bound env.settings.mergeForfeitLotSources w lot := by
      unfold Db.Forfeits
      rw [swept_bound, hswept]
    by_cases hf : (db.swept env w).Forfeits env w (lot.sweptAt w env.now)
    · have hbound := (hforfeits.mp hf).2.2
      rw [if_pos hf, if_neg fun h => lt_irrefl 0 h.2.1, if_neg fun h => h.2.2 hbound]
    · rw [if_neg hf, hswept]
      by_cases hlive : lot.wallet = w ∧ lot.Live env.now
      · have hfree : ¬ db.Bound env.settings.mergeForfeitLotSources w lot :=
          fun hb => hf (hforfeits.mpr ⟨hlive.1, hlive.2.1, hb⟩)
        rw [if_pos hlive, if_pos ⟨hlive.1, hlive.2, hfree⟩]
      · rw [if_neg hlive, if_neg fun h => hlive ⟨h.1, h.2.1⟩]

/-- **When a merge keeps the ledger explaining the balance.**  After a merge of one
wallet into another, each explained by its ledger, the survivor's is explained by its
own exactly when the merge had been applied before or moves no credits: nothing the
merged wallet holds is live and free to go. -/
theorem merge_explains_iff {digest : UserId → UserId → String} {fromUser intoUser : UserId}
    {counts : MergeCounts} {merged survivor : ℕ} {mergedWallet survivorWallet : Wallet}
    (hne : merged ≠ survivor)
    (hmerged : db.wallets.find? (fun wallet => wallet.user = some fromUser) =
      some (merged, mergedWallet))
    (hsurvivor : db.wallets.find? (fun wallet => wallet.user = some intoUser) =
      some (survivor, survivorWallet))
    (hexplainsMerged : db.Explains merged) (hexplainsSurvivor : db.Explains survivor)
    (h : mergeWallets env digest fromUser intoUser db = .ok (counts, db')) :
    (db'.Explains survivor ∧ db'.Explains merged) ↔
      (∃ k row, db.transactions.get? k = some row ∧
        row.idempotencyKey = mergeIdempotencyKey digest fromUser intoUser) ∨
      db.transferable env merged = 0 := by
  rcases mergeWallets_cases h with ⟨hkey, rfl, -⟩ | ⟨hfresh, hcase⟩
  · exact iff_of_true ⟨hexplainsSurvivor, hexplainsMerged⟩ (Or.inl hkey)
  have hunapplied : ¬ ∃ k row, db.transactions.get? k = some row ∧
      row.idempotencyKey = mergeIdempotencyKey digest fromUser intoUser := by
    rintro ⟨k, row, hk, hrow⟩
    exact hfresh k row hk hrow
  rw [or_iff_right hunapplied]
  obtain ⟨hget, huser⟩ := Table.find?_some hmerged
  rcases hcase with ⟨hnone, -⟩ | ⟨merged', wallet, survivor', db₁, hfind, hgo, hlocked⟩
  · exact absurd huser (hnone merged mergedWallet hget)
  · obtain ⟨rfl, rfl⟩ := Prod.mk.inj (Option.some.inj (hmerged.symm.trans hfind))
    have hstays : survivor' = survivor ∧ db₁ = db := by
      simp only [StapelBilling.survivorWallet, hsurvivor] at hgo
      obtain ⟨rfl, rfl⟩ := Prod.mk.inj (Except.ok.inj hgo)
      exact ⟨rfl, rfl⟩
    obtain ⟨rfl, rfl⟩ := hstays
    have hgapSurvivor := mergeLocked_gap hne hlocked survivor'
    have hgapMerged := mergeLocked_gap hne hlocked merged
    rw [if_neg fun h => hne h.symm, if_pos rfl, explains_iff_gap.mp hexplainsMerged,
      explains_iff_gap.mp hexplainsSurvivor, movedCredits_eq] at hgapSurvivor
    rw [if_pos rfl] at hgapMerged
    rw [explains_iff_gap, explains_iff_gap, hgapMerged, hgapSurvivor]
    simp

/-- Two accounts that each bought credits. -/
def twoBuyers : Db :=
  runCalls
    [(Env.plain 0, .credit
        { user := 1
          credits := 100
          type := .creditPurchase
          source := .purchase }),
      (Env.plain 0, .credit
        { user := 2
          credits := 30
          type := .creditPurchase
          source := .purchase })]
    { users := [1, 2] }

theorem merge_explains_iff_twoBuyers : ∃ counts db',
    mergeWallets (Env.plain 5) (fun _ _ => "pair") 1 2 twoBuyers = .ok (counts, db') ∧
    ((db'.Explains 1 ∧ db'.Explains 0) ↔
      (∃ k row, twoBuyers.transactions.get? k = some row ∧
        row.idempotencyKey = mergeIdempotencyKey (fun _ _ => "pair") 1 2) ∨
      twoBuyers.transferable (Env.plain 5) 0 = 0) :=
  ⟨_, _, rfl, merge_explains_iff (by decide) rfl rfl (by decide) (by decide) rfl⟩

/-- The survivor's ledger counts the merged account's hundred credits twice. -/
theorem merge_counts_twice : ∃ counts db',
    mergeWallets (Env.plain 5) (fun _ _ => "pair") 1 2 twoBuyers = .ok (counts, db') ∧
    twoBuyers.Explains 0 ∧ twoBuyers.Explains 1 ∧ db'.ledgerOf 1 = 230 ∧
    db'.lotsOf 1 + db'.reservedOf 1 = 130 ∧ ¬ db'.Explains 1 :=
  ⟨_, _, rfl, by decide, by decide, rfl, rfl, by decide⟩

end StapelBilling
