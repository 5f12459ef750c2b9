import StapelBilling.Sweeps

/-! # What a collection leaves in a lot

Debts are collected out of the live lots in the order of a spend.  What comes first in that
order is emptied first, so a lot keeps something exactly when the debts are less than it and
the lots before it hold together.
-/
namespace StapelBilling
open Store

/-! ## Places in the order of a spend -/

/-- Where a walk meets a lot: by the order of a spend, then by key. -/
def CreditLot.place (r : ℕ × CreditLot) : (WithTop Time ×ₗ Time ×ₗ ℕ) ×ₗ ℕ :=
  toLex (spendKey r, r.1)

/-- What the live lots hold whose place is in `P`. -/
def Db.liveIn (P : (WithTop Time ×ₗ Time ×ₗ ℕ) ×ₗ ℕ → Prop) [DecidablePred P] (w : ℕ) (now : Time)
    (db : Db) : ℤ :=
  db.lots.sum fun k lot =>
    if lot.wallet = w ∧ lot.Live now then
      if P (CreditLot.place (k, lot)) then lot.creditsRemaining else 0
    else 0

/-- Is the place of the lot under a key in `P`? -/
def Db.LotIn (P : (WithTop Time ×ₗ Time ×ₗ ℕ) ×ₗ ℕ → Prop) (db : Db) (k : ℕ) : Prop :=
  ∃ lot ∈ db.lots.get? k, P (CreditLot.place (k, lot))

instance (P : (WithTop Time ×ₗ Time ×ₗ ℕ) ×ₗ ℕ → Prop) [DecidablePred P] (db : Db) :
    DecidablePred (db.LotIn P) :=
  fun k => by unfold Db.LotIn; infer_instance

section Places
variable {P : (WithTop Time ×ₗ Time ×ₗ ℕ) ×ₗ ℕ → Prop} [DecidablePred P] {env : Env} {w : ℕ}
  {now : Time} {db db' : Db}

omit [DecidablePred P] in
theorem lotIn_iff {k : ℕ} {lot : CreditLot} (hk : db.lots.get? k = some lot) :
    db.LotIn P k ↔ P (CreditLot.place (k, lot)) := by
  unfold Db.LotIn
  rw [hk]
  exact ⟨fun ⟨_, he, hin⟩ => by rwa [← Option.some.inj he] at hin, fun hin => ⟨lot, rfl, hin⟩⟩

theorem liveIn_nonneg : 0 ≤ db.liveIn P w now := by
  refine Table.sum_nonneg fun k lot _ => ?_
  by_cases hlive : lot.wallet = w ∧ lot.Live now
  · rw [if_pos hlive]
    split
    · exact hlive.2.1.le
    · exact le_rfl
  · rw [if_neg hlive]

theorem liveIn_le_liveBalance : db.liveIn P w now ≤ db.liveBalance w now := by
  have hrest : 0 ≤ db.liveIn (fun place => ¬ P place) w now := liveIn_nonneg
  have htotal : db.liveBalance w now =
      db.liveIn P w now + db.liveIn (fun place => ¬ P place) w now := by
    unfold Db.liveIn Db.liveBalance
    rw [← Table.sum_add]
    refine Table.sum_congr fun k lot _ => ?_
    by_cases hP : P (CreditLot.place (k, lot)) <;> simp [hP]
  omega

/-- A walk meets the live lots at growing places. -/
theorem liveLotsOrdered_places : (db.liveLotsOrdered w now).Pairwise fun p q =>
    CreditLot.place p < CreditLot.place q := by
  have hkeys : (db.lots.select fun lot => lot.wallet = w ∧ lot.Live now).Pairwise
      fun p q => p.1 < q.1 := db.lots.sorted.sublist List.filter_sublist
  refine (@orderBy_stable _ _ _ CreditLot.spendKey _ hkeys).imp fun {p q} h => ?_
  exact Prod.Lex.toLex_lt_toLex.mpr h

/-- A walk sees what is held at places in `P`. -/
theorem sum_liveLotsOrdered : ((db.liveLotsOrdered w now).map fun r =>
    if P (CreditLot.place r) then r.2.creditsRemaining else 0).sum = db.liveIn P w now := by
  unfold Db.liveLotsOrdered
  rw [orderBy_sum]
  exact Table.sum_select _ _ fun k lot => if P (CreditLot.place (k, lot)) then lot.creditsRemaining
    else 0

/-- **What is drawn** leaves the places it was drawn from. -/
theorem spendLots_liveIn {taken : List (ℕ × ℤ)} (h : db.Draws (Spendable w now) taken) :
    (db.spendLots taken).liveIn P w now =
      db.liveIn P w now - drawn (taken.filter fun p => db.LotIn P p.1) := by
  refine Table.sum_drain_filter h.nodup fun k m hkm => ?_
  obtain ⟨hm, lot, hk, ⟨hw, hlive⟩, hle⟩ := h.lot k m hkm
  refine ⟨lot, hk, ?_⟩
  have hwas : (if lot.wallet = w ∧ lot.Live now then
      if P (CreditLot.place (k, lot)) then lot.creditsRemaining else 0 else 0) =
      if P (CreditLot.place (k, lot)) then lot.creditsRemaining else 0 := if_pos ⟨hw, hlive⟩
  have hplace : CreditLot.place (k, lot.spend m) = CreditLot.place (k, lot) := rfl
  have hleft : (lot.spend m).creditsRemaining = lot.creditsRemaining - m := rfl
  rw [hwas, if_congr (lotIn_iff hk) rfl rfl, hplace, hleft]
  by_cases hat : P (CreditLot.place (k, lot))
  · rw [if_pos hat, if_pos hat, if_pos hat]
    split
    · rfl
    · -- The lot was emptied.
      rename_i hdead
      have hempty : ¬ 0 < lot.creditsRemaining - m := fun hpos => hdead ⟨hw, hpos, hlive.2⟩
      omega
  · rw [if_neg hat, if_neg hat, if_neg hat, ite_self, sub_zero]

/-- **A consumption takes from the first places** what was asked, or all there is. -/
theorem consumeLots_drawn (hP : ∀ p q, p ≤ q → P q → P p) {n : ℤ} (hn : 0 ≤ n)
    {taken : List (ℕ × ℤ)} (h : consumeLots w n now db = .ok (taken, db')) :
    drawn (taken.filter fun p => db.LotIn P p.1) = min n (db.liveIn P w now) := by
  have htaken : taken = draw n ((db.liveLotsOrdered w now).map fun r =>
      (r.1, r.2.creditsRemaining)) := by
    simp only [consumeLots] at h
    split at h
    · cases h
    · exact (Prod.mk.inj (Except.ok.inj h)).1.symm
  have hrow : ∀ r ∈ db.liveLotsOrdered w now,
      db.lots.get? r.1 = some r.2 ∧ r.2.wallet = w ∧ r.2.Live now :=
    fun r hr => Table.mem_select.mp (mem_orderBy.mp hr)
  rw [htaken, drawn_draw_filter ?_ ?_ hn, drawn_filter (db.LotIn P), List.map_map,
    ← sum_liveLotsOrdered]
  · refine congrArg (fun total : List ℤ => min n total.sum) (List.map_congr_left fun r hr => ?_)
    exact if_congr (lotIn_iff (hrow r hr).1) rfl rfl
  · refine List.pairwise_map.mpr (liveLotsOrdered_places.imp_of_mem fun {p q} hp hq hlt hin => ?_)
    exact (lotIn_iff (hrow p hp).1).mpr (hP _ _ hlt.le ((lotIn_iff (hrow q hq).1).mp hin))
  · intro p hp
    obtain ⟨r, hr, rfl⟩ := List.mem_map.mp hp
    exact (hrow r hr).2.2.1.le

theorem consumeLots_liveIn (hP : ∀ p q, p ≤ q → P q → P p) {n : ℤ} (hn : 0 ≤ n)
    {taken : List (ℕ × ℤ)} (h : consumeLots w n now db = .ok (taken, db')) :
    db'.liveIn P w now = db.liveIn P w now - min n (db.liveIn P w now) := by
  obtain ⟨hdraws, -, rfl⟩ := consumeLots_ok hn h
  rw [spendLots_liveIn hdraws, consumeLots_drawn hP hn h]

/-! ## Collections -/

/-- A collection takes the debts from the first places, or all there is. -/
theorem settleEach_liveIn (hP : ∀ p q, p ≤ q → P q → P p) {debts : List (ℕ × CreditDebt)} {n : ℤ}
    (hopen : ∀ r ∈ debts, 0 < r.2.creditsOutstanding)
    (h : settleEach env w debts db = .ok (n, db')) :
    db'.liveIn P w env.now = db.liveIn P w env.now -
      min (debts.map fun r => r.2.creditsOutstanding).sum (db.liveIn P w env.now) := by
  induction debts generalizing db n with
  | nil =>
    obtain ⟨-, rfl⟩ := Prod.mk.inj (Except.ok.inj h)
    have hnonneg := @liveIn_nonneg P _ w env.now db
    rw [List.map_nil, List.sum_nil]
    omega
  | cons r debts ih =>
    obtain ⟨k, debt⟩ := r
    have hdebt : 0 < debt.creditsOutstanding := hopen _ List.mem_cons_self
    have hrest : 0 ≤ (debts.map fun r => r.2.creditsOutstanding).sum := by
      refine List.sum_nonneg fun x hx => ?_
      obtain ⟨r, hr, rfl⟩ := List.mem_map.mp hx
      exact (hopen r (List.mem_cons_of_mem _ hr)).le
    have hle := @liveIn_le_liveBalance P _ w env.now db
    have hnonneg := @liveIn_nonneg P _ w env.now db
    rw [List.map_cons, List.sum_cons]
    dsimp only
    simp only [settleEach] at h
    split at h
    · rename_i havail
      obtain ⟨-, rfl⟩ := Prod.mk.inj (Except.ok.inj h)
      omega
    · split at h
      · cases h
      · rename_i havail taken middle hconsume
        have hstep := consumeLots_liveIn hP (by omega) hconsume
        split at h
        · cases h
        · rename_i collected settled hsettle
          obtain ⟨-, rfl⟩ := Prod.mk.inj (Except.ok.inj h)
          have hlast := ih (fun r hr => hopen r (List.mem_cons_of_mem _ hr)) hsettle
          have hsame : (collectDebt env w k debt (min debt.creditsOutstanding
              (db.liveBalance w env.now)) taken middle).liveIn P w env.now =
              middle.liveIn P w env.now := rfl
          rw [hlast, hsame, hstep]
          omega

/-- What a wallet's open debts come to. -/
def Db.openOwed (w : ℕ) (db : Db) : ℤ := ((db.openDebts w).map fun r => r.2.creditsOutstanding).sum

theorem settleDebts_liveIn (hP : ∀ p q, p ≤ q → P q → P p) {n : ℤ}
    (h : settleDebts env w db = .ok (n, db')) : db'.liveIn P w env.now =
      db.liveIn P w env.now - min (db.openOwed w) (db.liveIn P w env.now) :=
  settleEach_liveIn hP (fun _ hr => (mem_openDebts.mp hr).2.2.2) h

end Places

section Lots
variable {env : Env} {w k : ℕ} {db db' : Db} {lot : CreditLot}

/-- A lot is what there is up to its place, less what there is before it. -/
theorem liveIn_upTo (hk : db.lots.get? k = some lot) {now : Time} :
    db.liveIn (· ≤ CreditLot.place (k, lot)) w now =
      db.liveIn (· < CreditLot.place (k, lot)) w now +
        if lot.wallet = w ∧ lot.Live now then lot.creditsRemaining else 0 := by
  rw [← Table.sum_at hk fun lot => if lot.wallet = w ∧ lot.Live now then lot.creditsRemaining else 0]
  unfold Db.liveIn
  rw [← Table.sum_add]
  refine Table.sum_congr fun j other hj => ?_
  by_cases hlive : other.wallet = w ∧ other.Live now
  · rw [if_pos hlive, if_pos hlive, if_pos hlive]
    by_cases he : j = k
    · subst he
      obtain rfl := Option.some.inj (hj.symm.trans hk)
      rw [if_pos le_rfl, if_neg (lt_irrefl _), if_pos rfl, zero_add]
    · have hne : CreditLot.place (j, other) ≠ CreditLot.place (k, lot) := fun h =>
        he (congrArg (fun place => (ofLex place).2) h)
      rw [if_neg he, add_zero]
      exact if_congr ⟨fun h => lt_of_le_of_ne h hne, le_of_lt⟩ rfl rfl
  · rw [if_neg hlive, if_neg hlive, if_neg hlive, ite_self, add_zero]

/-- **A live lot keeps something in a collection** exactly when the debts are less than what
it and the lots before it hold. -/
theorem settleDebts_leaves_iff {n : ℤ} (h : settleDebts env w db = .ok (n, db'))
    (hk : db.lots.get? k = some lot) (hw : lot.wallet = w) (hlive : lot.Live env.now) :
    ∃ lot', db'.lots.get? k = some lot' ∧ lot.Same lot' ∧ (0 < lot'.creditsRemaining ↔
      db.openOwed w < db.liveIn (· ≤ CreditLot.place (k, lot)) w env.now) := by
  have hgrows := (settleDebts_ok (P := fun _ => True) (fun _ _ _ _ => trivial) h).grows
  obtain ⟨lot', hk', hsame⟩ := hgrows.lots.kept k lot hk
  refine ⟨lot', hk', hsame, ?_⟩
  have hplace : CreditLot.place (k, lot') = CreditLot.place (k, lot) := by
    rw [hsame]
    rfl
  have hlive' : lot'.Live env.now ↔ 0 < lot'.creditsRemaining := by
    have haliveAt : aliveAt env.now lot'.expiresAt := by
      rw [hsame]
      exact hlive.2
    exact ⟨fun h => h.1, fun h => ⟨h, haliveAt⟩⟩
  have hupTo := settleDebts_liveIn (P := (· ≤ CreditLot.place (k, lot)))
    (fun _ _ hle hin => hle.trans hin) h
  have hbefore := settleDebts_liveIn (P := (· < CreditLot.place (k, lot)))
    (fun _ _ hle hin => hle.trans_lt hin) h
  have hwas := @liveIn_upTo w k db lot hk env.now
  have hnow := @liveIn_upTo w k db' lot' hk' env.now
  have hnonneg := @liveIn_nonneg (· < CreditLot.place (k, lot)) _ w env.now db
  rw [hplace, hupTo, hbefore] at hnow
  rw [if_pos ⟨hw, hlive⟩] at hwas
  have hpos := hlive.1
  have hw' : lot'.wallet = w := hsame.wallet.trans hw
  by_cases hleft : 0 < lot'.creditsRemaining
  · rw [if_pos ⟨hw', hlive'.mpr hleft⟩] at hnow
    omega
  · rw [if_neg fun h => hleft (hlive'.mp h.2)] at hnow
    omega

end Lots
end StapelBilling
