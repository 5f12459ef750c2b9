import StapelBilling.SpendOrder

/-! # Expiring first is optimal

A spend could take its credits out of the live lots in any way.  The walk takes them from the
lots that die first, so at every later moment the lots that are still alive hold at least as
much as after any other way of taking the same amount.
-/
namespace StapelBilling
open Store

/-! ## What is alive at a moment -/

/-- What the wallet's lots hold that are still alive at `t`. -/
def Db.aliveHoldings (w : ℕ) (t : Time) (db : Db) : ℤ :=
  db.lots.sum fun _ lot =>
    if lot.wallet = w ∧ aliveAt t lot.expiresAt then lot.creditsRemaining else 0

/-- The places of the lots that are dead by `t`. -/
def DeadBy (t : Time) (place : (WithTop Time ×ₗ Time ×ₗ ℕ) ×ₗ ℕ) : Prop :=
  (ofLex (ofLex place).1).1 ≤ (t : WithTop Time)

instance (t : Time) : DecidablePred (DeadBy t) := fun place =>
  LinearOrder.toDecidableLE (ofLex (ofLex place).1).1 (t : WithTop Time)

/-- The dead come first in the order of a spend. -/
theorem deadBy_of_le {t : Time} (p q : (WithTop Time ×ₗ Time ×ₗ ℕ) ×ₗ ℕ) (hle : p ≤ q)
    (hq : DeadBy t q) : DeadBy t p := by
  have hkeys : (ofLex p).1 ≤ (ofLex q).1 := by
    rcases Prod.Lex.le_iff.mp hle with hlt | ⟨heq, -⟩
    · exact hlt.le
    · exact heq.le
  have hdeadlines : (ofLex (ofLex p).1).1 ≤ (ofLex (ofLex q).1).1 := by
    rcases Prod.Lex.le_iff.mp hkeys with hlt | ⟨heq, -⟩
    · exact hlt.le
    · exact heq.le
  exact hdeadlines.trans hq

theorem deadBy_place {t : Time} {k : ℕ} {lot : CreditLot} :
    DeadBy t (CreditLot.place (k, lot)) ↔ dueAt t lot.expiresAt := by
  unfold DeadBy CreditLot.place CreditLot.spendKey
  cases lot.expiresAt with
  | none => simp [dueAt]
  | some e => simp [dueAt]

section Alive
variable {w : ℕ} {now t : Time} {db : Db} {taken : List (ℕ × ℤ)}

/-- **What is drawn** from lots that are dead by `t` costs nothing of what is alive then. -/
theorem spendLots_aliveHoldings (h : db.Draws (Spendable w now) taken) :
    (db.spendLots taken).aliveHoldings w t = db.aliveHoldings w t -
      (drawn taken - drawn (taken.filter fun p => db.LotIn (DeadBy t) p.1)) := by
  have hrest := drawn_filter_add (db.LotIn (DeadBy t)) taken
  have halive : (db.spendLots taken).aliveHoldings w t = db.aliveHoldings w t -
      drawn (taken.filter fun p => ¬ db.LotIn (DeadBy t) p.1) := by
    refine @Table.sum_drain_filter _ _ _ _ _ (fun k => ¬ db.LotIn (DeadBy t) k) _ h.nodup
      fun k m hkm => ?_
    obtain ⟨-, lot, hk, ⟨hw, -⟩, -⟩ := h.lot k m hkm
    refine ⟨lot, hk, ?_⟩
    have hdead : db.LotIn (DeadBy t) k ↔ ¬ aliveAt t lot.expiresAt := by
      rw [lotIn_iff hk, deadBy_place, not_aliveAt_iff]
    have hdeadline : (lot.spend m).expiresAt = lot.expiresAt := rfl
    have hwallet : (lot.spend m).wallet = w := hw
    have hleft : (lot.spend m).creditsRemaining = lot.creditsRemaining - m := rfl
    rw [hdeadline, hwallet, hleft]
    by_cases hat : aliveAt t lot.expiresAt
    · rw [if_pos ⟨rfl, hat⟩, if_pos ⟨hw, hat⟩, if_pos fun hin => hdead.mp hin hat]
    · rw [if_neg fun hin => hat hin.2, if_neg fun hin => hat hin.2,
        if_neg (not_not.mpr (hdead.mpr hat)), sub_zero]
  omega

/-- From the lots that are dead by `t` no way of taking takes more than it takes in all, or
more than they hold. -/
theorem Db.Draws.drawn_le (h : db.Draws (Spendable w now) taken) :
    drawn (taken.filter fun p => db.LotIn (DeadBy t) p.1) ≤
      min (drawn taken) (db.liveIn (DeadBy t) w now) := by
  refine le_min ?_ ?_
  · have hrest := drawn_filter_add (db.LotIn (DeadBy t)) taken
    have hnonneg : 0 ≤ drawn (taken.filter fun p => ¬ db.LotIn (DeadBy t) p.1) := by
      refine List.sum_nonneg fun x hx => ?_
      obtain ⟨p, hp, rfl⟩ := List.mem_map.mp hx
      exact (h.lot p.1 p.2 (List.mem_filter.mp hp).1).1.le
    omega
  · have hleft := @spendLots_liveIn (DeadBy t) _ w now db taken h
    have hnonneg := @liveIn_nonneg (DeadBy t) _ w now (db.spendLots taken)
    omega

end Alive

/-! ## Optimality -/

/-- **Spending is expiring-first optimal.**  An amount the live lots cover is taken exactly,
out of live lots of the wallet and from none more than it holds, and whatever other way there
is of taking it, at every moment the lots still alive hold no less.  An amount they do not
cover is refused. -/
theorem consumeLots_optimal (w : ℕ) (now : Time) (db : Db) {n : ℤ} (hn : 0 ≤ n) :
    (n ≤ db.liveBalance w now → ∃ taken, consumeLots w n now db = .ok (taken, db.spendLots taken) ∧
      db.Draws (Spendable w now) taken ∧ drawn taken = n ∧
      ∀ other, db.Draws (Spendable w now) other → drawn other = n → ∀ t,
        (db.spendLots other).aliveHoldings w t ≤ (db.spendLots taken).aliveHoldings w t) ∧
    (db.liveBalance w now < n →
      consumeLots w n now db = .error (.insufficientCredits (db.liveBalance w now) n)) := by
  refine ⟨fun hcovered => ?_, fun hshort => ?_⟩
  · obtain ⟨taken, htaken⟩ := consumeLots_of_le hcovered
    obtain ⟨hdraws, htotal, -⟩ := consumeLots_ok hn htaken
    refine ⟨taken, htaken, hdraws, htotal, fun other hother hsame t => ?_⟩
    have hgreedy := consumeLots_drawn (P := DeadBy t) deadBy_of_le hn htaken
    have hle := @Db.Draws.drawn_le w now t db other hother
    rw [spendLots_aliveHoldings hother, spendLots_aliveHoldings hdraws, hgreedy]
    rw [hsame] at hle ⊢
    omega
  · unfold consumeLots
    rw [if_pos (by rw [liveLots_total]; exact hshort), liveLots_total]

/-- Two lots of forty credits, of which the older one has no deadline. -/
def datedAndUndated : Db where
  users := [1]
  wallets := Table.empty.insert { user := some 1, balance := 80 }
  lots := (Table.empty.insert
    { wallet := 0
      source := .purchase
      creditsInitial := 40
      creditsRemaining := 40
      createdAt := 1
      uuid := 0 }).insert
    { wallet := 0
      source := .subscription
      creditsInitial := 40
      creditsRemaining := 40
      expiresAt := some 10
      createdAt := 2
      uuid := 1 }

/-- Of fifty credits the dated lot gives forty, and at its deadline the other still holds
thirty. -/
theorem consumeLots_optimal_datedAndUndated :
    ∃ taken, consumeLots 0 50 5 datedAndUndated = .ok (taken, datedAndUndated.spendLots taken) ∧
      (datedAndUndated.spendLots taken).aliveHoldings 0 10 = 30 := by
  obtain ⟨taken, htaken, -⟩ :=
    (consumeLots_optimal 0 5 datedAndUndated (by decide : (0 : ℤ) ≤ 50)).1 (by decide)
  refine ⟨taken, htaken, ?_⟩
  have hrun : consumeLots 0 50 5 datedAndUndated =
      .ok ([(1, 40), (0, 10)], datedAndUndated.spendLots [(1, 40), (0, 10)]) := by rfl
  obtain ⟨rfl, -⟩ := Prod.mk.inj (Except.ok.inj (htaken.symm.trans hrun))
  decide

end StapelBilling
