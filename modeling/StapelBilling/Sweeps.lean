import StapelBilling.Frames

/-! # What a sweep leaves

A sweep empties exactly the wallet's due lots.  Swept once, a wallet has no due lot
left until the clock moves or a lot is added, so a second sweep finds nothing; and
then the live lots are the lots that hold anything.
-/
namespace StapelBilling
open Store

variable {env : Env} {w : ℕ} {db db' : Db}

/-- No lot of wallet `w` is due at `now`. -/
def Db.NoDue (db : Db) (w : ℕ) (now : Time) : Prop :=
  ∀ k lot, db.lots.get? k = some lot → lot.wallet = w → ¬ lot.Due now

theorem expireLots_lot {due : List (ℕ × CreditLot)} {running : ℤ} (hnd : (due.map Prod.fst).Nodup)
    (k : ℕ) : (expireLots env w due running db).lots.get? k =
      if k ∈ due.map Prod.fst then (db.lots.get? k).map CreditLot.zero else db.lots.get? k := by
  induction due generalizing running db with
  | nil => rfl
  | cons r due ih =>
    obtain ⟨j, lot⟩ := r
    obtain ⟨hnot, hnd'⟩ := List.nodup_cons.mp hnd
    have hlots : (expireLot env w j lot (running - lot.creditsRemaining) db).lots =
        db.lots.modify j CreditLot.zero := rfl
    rw [expireLots, ih hnd', hlots, Table.get?_modify]
    by_cases hj : k = j
    · subst hj
      rw [if_neg hnot, if_pos rfl, List.map_cons, if_pos List.mem_cons_self]
    · have hmem : k ∈ ((j, lot) :: due).map Prod.fst ↔ k ∈ due.map Prod.fst := by
        simp [hj]
      simp only [if_neg hj, hmem]

theorem mem_dueLots_keys {now : Time} {k : ℕ} : k ∈ (db.dueLots w now).map Prod.fst ↔
    ∃ lot, db.lots.get? k = some lot ∧ lot.wallet = w ∧ lot.Due now := by
  constructor
  · intro h
    obtain ⟨⟨j, lot⟩, hmem, rfl⟩ := List.mem_map.mp h
    exact ⟨lot, mem_dueLots.mp hmem⟩
  · rintro ⟨lot, h⟩
    exact List.mem_map.mpr ⟨(k, lot), mem_dueLots.mpr h, rfl⟩

theorem dueLots_eq_nil_iff {now : Time} : db.dueLots w now = [] ↔ db.NoDue w now := by
  constructor
  · intro h k lot hk hw hdue
    have hmem : (k, lot) ∈ db.dueLots w now := mem_dueLots.mpr ⟨hk, hw, hdue⟩
    rw [h] at hmem
    cases hmem
  · intro h
    refine List.eq_nil_iff_forall_not_mem.mpr fun r hr => ?_
    obtain ⟨hk, hw, hdue⟩ := mem_dueLots.mp hr
    exact h _ _ hk hw hdue

/-- **A wallet without due lots is left as it is.** -/
theorem swept_of_noDue (h : db.NoDue w env.now) : db.swept env w = db := by
  unfold Db.swept expireDueLots
  simp only [dueLots_eq_nil_iff.mpr h, if_true]

/-- What the sweep makes of one lot. -/
def CreditLot.sweptAt (lot : CreditLot) (w : ℕ) (now : Time) : CreditLot :=
  if lot.wallet = w ∧ lot.Due now then lot.zero else lot

/-- **A sweep empties exactly the due lots.** -/
theorem swept_lot (k : ℕ) :
    (db.swept env w).lots.get? k = (db.lots.get? k).map fun lot => lot.sweptAt w env.now := by
  by_cases hnone : db.NoDue w env.now
  · rw [swept_of_noDue hnone]
    rcases hk : db.lots.get? k with - | lot
    · rfl
    · rw [Option.map_some, CreditLot.sweptAt, if_neg fun h => hnone k lot hk h.1 h.2]
  · have hlots : (db.swept env w).lots.get? k = if k ∈ (db.dueLots w env.now).map Prod.fst then
        (db.lots.get? k).map CreditLot.zero else db.lots.get? k := by
      rw [← expireLots_lot (dueLots_nodup db env.now) k]
      unfold Db.swept expireDueLots
      simp only [dueLots_eq_nil_iff, hnone, if_false]
      rfl
    rw [hlots]
    rcases hk : db.lots.get? k with - | lot
    · rw [Option.map_none, Option.map_none, ite_self]
    · rw [Option.map_some, Option.map_some, CreditLot.sweptAt]
      by_cases hdue : lot.wallet = w ∧ lot.Due env.now
      · rw [if_pos (mem_dueLots_keys.mpr ⟨lot, hk, hdue⟩), if_pos hdue]
      · rw [if_neg fun h => ?_, if_neg hdue]
        obtain ⟨lot', hk', hdue'⟩ := mem_dueLots_keys.mp h
        obtain rfl := Option.some.inj (hk.symm.trans hk')
        exact hdue hdue'

@[simp] theorem CreditLot.sweptAt_wallet (lot : CreditLot) (now : Time) :
    (lot.sweptAt w now).wallet = lot.wallet := by
  unfold CreditLot.sweptAt
  split <;> rfl

@[simp] theorem CreditLot.sweptAt_grant (lot : CreditLot) (now : Time) :
    (lot.sweptAt w now).grantingTransaction = lot.grantingTransaction := by
  unfold CreditLot.sweptAt
  split <;> rfl

variable (env w db) in
theorem swept_noDue : (db.swept env w).NoDue w env.now := by
  intro k lot hk hw hdue
  rw [swept_lot] at hk
  obtain ⟨old, hold, rfl⟩ := Option.map_eq_some_iff.mp hk
  rw [CreditLot.sweptAt_wallet] at hw
  by_cases hdue' : old.wallet = w ∧ old.Due env.now
  · rw [CreditLot.sweptAt, if_pos hdue'] at hdue
    exact absurd hdue.1 (lt_irrefl 0)
  · rw [CreditLot.sweptAt, if_neg hdue'] at hdue
    exact hdue' ⟨hw, hdue⟩

/-- Draws leave no lot due that was not. -/
theorem Db.NoDue.spendLots {now : Time} {P : CreditLot → Prop} {taken : List (ℕ × ℤ)}
    (h : db.NoDue w now) (htaken : db.Draws P taken) : (db.spendLots taken).NoDue w now := by
  intro k lot hk hw hdue
  obtain ⟨old, hold, rfl | ⟨n, hmem, rfl⟩⟩ := Table.get?_drain htaken.nodup hk
  · exact h k lot hold hw hdue
  · have hpos := (htaken.lot k n hmem).1
    refine h k old hold hw ⟨?_, hdue.2⟩
    have hleft := hdue.1
    unfold CreditLot.spend at hleft
    dsimp only at hleft
    omega

end StapelBilling
