import StapelBilling.Preflight

/-! # Debt settlement

A credit collects what its wallet owes before it can be spent: debts oldest first, each out of
the live lots, until the debts or the lots are gone.  The collection is one walk over the debts
with the live credits in hand, the same walk a spend makes over the lots.

* `CreditDebt.collect`: a debt after part of it was collected.
* `settleEach_collects`: what a collection takes, and from whom.
* `settlement_complete`: complete and oldest first.
-/
namespace StapelBilling
open Store

/-! ## A debt that is collected -/

/-- A debt some credits of which have been collected. -/
def CreditDebt.collect (now : Time) (n : ℤ) (debt : CreditDebt) : CreditDebt :=
  { debt with
    creditsOutstanding := debt.creditsOutstanding - n
    settledAt := if debt.creditsOutstanding - n ≤ 0 then some now else debt.settledAt }

/-- What is left of a debt is between nothing and all of it, and it is settled when nothing
is. -/
structure CreditDebt.Sound (debt : CreditDebt) : Prop where
  nonneg : 0 ≤ debt.creditsOutstanding
  bounded : debt.creditsOutstanding ≤ debt.creditsInitial
  settled : debt.settledAt ≠ none ↔ debt.creditsOutstanding = 0

theorem CreditDebt.Sound.collect {debt : CreditDebt} (h : debt.Sound) (hopen : debt.Open) {n : ℤ}
    (hpos : 0 < n) (hle : n ≤ debt.creditsOutstanding) (now : Time) : (debt.collect now n).Sound := by
  have hbounded := h.bounded
  refine ⟨?_, ?_, ?_⟩
  · show 0 ≤ debt.creditsOutstanding - n
    omega
  · show debt.creditsOutstanding - n ≤ debt.creditsInitial
    omega
  · show (if debt.creditsOutstanding - n ≤ 0 then some now else debt.settledAt) ≠ none ↔
      debt.creditsOutstanding - n = 0
    by_cases hzero : debt.creditsOutstanding - n ≤ 0
    · rw [if_pos hzero]
      exact iff_of_true (Option.some_ne_none now) (by omega)
    · rw [if_neg hzero, hopen.1]
      exact iff_of_false (fun hne => hne rfl) (by omega)

/-- What a debt counts for in what is owed. -/
theorem CreditDebt.collect_owes {debt : CreditDebt} (hopen : debt.Open) {n : ℤ}
    (hle : n ≤ debt.creditsOutstanding) (now : Time) :
    (if (debt.collect now n).Open then (debt.collect now n).creditsOutstanding else 0) =
      debt.creditsOutstanding - n := by
  have hleft : (debt.collect now n).creditsOutstanding = debt.creditsOutstanding - n := rfl
  by_cases hzero : debt.creditsOutstanding - n ≤ 0
  · rw [if_neg fun h => absurd h.2 (by rw [hleft]; omega)]
    omega
  · have hstill : (debt.collect now n).Open := by
      refine ⟨?_, by rw [hleft]; omega⟩
      show (if debt.creditsOutstanding - n ≤ 0 then some now else debt.settledAt) = none
      rw [if_neg hzero]
      exact hopen.1
    rw [if_pos hstill, hleft]

/-! ## The walk over the debts -/

/-- The settlement row of a collection. -/
structure Transaction.Settles (w : ℕ) (p : ℕ × ℤ) (row : Transaction) : Prop where
  wallet : row.wallet = w
  delta : row.creditsDelta = -p.2
  debt : row.metadata .debtId = some (.ref .debt p.1)
  mark : row.metadata .debtSettlement = some (.bool true)

/-- What each debt is asked for. -/
def asked (debts : List (ℕ × CreditDebt)) : List (ℕ × ℤ) :=
  debts.map fun r => (r.1, r.2.creditsOutstanding)

section Walk
variable {env : Env} {w : ℕ} {db db' : Db}

/-- What is drawn from the live lots is no longer live. -/
theorem spendLots_liveBalance {now : Time} {taken : List (ℕ × ℤ)} (h : db.Draws (Spendable w now) taken) :
    (db.spendLots taken).liveBalance w now = db.liveBalance w now - drawn taken := by
  have hall : ∀ d : Db, d.liveIn (fun _ => True) w now = d.liveBalance w now := by
    intro d
    unfold Db.liveIn Db.liveBalance
    simp only [if_true]
  have hdrawn := @spendLots_liveIn (fun _ => True) _ w now db taken h
  rw [hall, hall, List.filter_eq_self.mpr] at hdrawn
  · exact hdrawn
  · intro p hp
    obtain ⟨-, lot, hk, -⟩ := h.lot p.1 p.2 hp
    exact decide_eq_true ((lotIn_iff hk).mpr trivial)

/-- **A collection** draws the live credits over the debts in their order: it takes from each
debt it draws on, leaves the others, and writes a row for each. -/
theorem settleEach_collects {debts : List (ℕ × CreditDebt)} (h : Collectable w debts db) :
    ∃ n db', settleEach env w debts db = .ok (n, db') ∧
      n = drawn (draw (db.liveBalance w env.now) (asked debts)) ∧
      db'.liveBalance w env.now = db.liveBalance w env.now - n ∧
      db'.debts = db.debts.drain (CreditDebt.collect env.now)
        (draw (db.liveBalance w env.now) (asked debts)) ∧
      ∃ rows : List Transaction, db'.transactions = rows.foldl Table.insert db.transactions ∧
        List.Forall₂ (Transaction.Settles w) (draw (db.liveBalance w env.now) (asked debts)) rows := by
  -- the walk of the collection and the draw go debt by debt together
  induction debts generalizing db with
  | nil =>
    refine ⟨0, db, rfl, rfl, (sub_zero _).symm, ?_, [], rfl, .nil⟩
    rfl
  | cons r debts ih =>
    obtain ⟨k, debt⟩ := r
    obtain ⟨hdebt, hw, hopen⟩ := h.current _ List.mem_cons_self
    have howed : 0 < debt.creditsOutstanding := hopen.2
    by_cases havail : db.liveBalance w env.now ≤ 0
    · refine ⟨0, db, by simp only [settleEach, if_pos havail], ?_, (sub_zero _).symm, ?_, [], rfl, ?_⟩
      · rw [draw_of_nonpos havail, drawn_nil]
      · rw [draw_of_nonpos havail, Table.drain_nil]
      · rw [draw_of_nonpos havail]
        exact .nil
    · have hmin : min (db.liveBalance w env.now) debt.creditsOutstanding =
          min debt.creditsOutstanding (db.liveBalance w env.now) := min_comm _ _
      have hpos : 0 < min debt.creditsOutstanding (db.liveBalance w env.now) := lt_min howed (by omega)
      have hdraw : draw (db.liveBalance w env.now) (asked ((k, debt) :: debts)) =
          (k, min debt.creditsOutstanding (db.liveBalance w env.now)) ::
            draw (db.liveBalance w env.now - min debt.creditsOutstanding (db.liveBalance w env.now))
              (asked debts) := by
        unfold asked
        rw [List.map_cons, draw, if_neg havail, hmin, if_neg (by omega)]
      obtain ⟨taken, htaken⟩ := consumeLots_of_le (min_le_right debt.creditsOutstanding
        (db.liveBalance w env.now))
      obtain ⟨hdraws, hdrawn, -⟩ := consumeLots_ok hpos.le htaken
      have hleft : (collectDebt env w k debt (min debt.creditsOutstanding (db.liveBalance w env.now))
          taken (db.spendLots taken)).liveBalance w env.now =
          db.liveBalance w env.now - min debt.creditsOutstanding (db.liveBalance w env.now) := by
        rw [← hdrawn]
        exact spendLots_liveBalance hdraws
      obtain ⟨n, db', hok, hn, hlive, hdebts, rows, hrows, hsettles⟩ := ih (h.tail env
        (min debt.creditsOutstanding (db.liveBalance w env.now)) taken)
      rw [hleft] at hn hlive hdebts hsettles
      refine ⟨min debt.creditsOutstanding (db.liveBalance w env.now) + n, db', ?_, ?_, ?_, ?_, _ :: rows,
        hrows, ?_⟩
      · simp only [settleEach, if_neg havail, htaken, hok]
      · rw [hdraw, drawn_cons, hn]
      · omega
      · rw [hdraw, hdebts]
        unfold Table.drain
        rw [List.foldl_cons]
        have hfirst : (collectDebt env w k debt (min debt.creditsOutstanding (db.liveBalance w env.now))
            taken (db.spendLots taken)).debts = db.debts.modify k (CreditDebt.collect env.now
              (min debt.creditsOutstanding (db.liveBalance w env.now))) := by
          rw [collectDebt_debts]
          refine Table.modify_congr hdebt ?_
          rfl
        rw [← hfirst]
      · rw [hdraw]
        exact .cons ⟨rfl, rfl, rfl, rfl⟩ hsettles

/-! ## The debts of a wallet -/

/-- What a wallet's open debts come to, as an aggregate of the debts. -/
theorem openOwed_sum (w : ℕ) (db : Db) : db.openOwed w =
    db.debts.sum fun _ debt => if debt.wallet = w ∧ debt.Open then debt.creditsOutstanding else 0 := by
  unfold Db.openOwed Db.openDebts
  rw [orderBy_sum]
  exact Table.sum_select _ _ fun _ (debt : CreditDebt) => debt.creditsOutstanding

/-- **A complete settlement, oldest debt first**: what happens to the debts, the lots and the
ledger between the grant and the end of the credit. -/
structure Settled (env : Env) (w : ℕ) (taken : List (ℕ × ℤ)) (db db' : Db) : Prop where
  /-- The open debts or the live credits, whichever is less, are collected. -/
  total : drawn taken = min (db.openOwed w) (db.liveBalance w env.now)
  live : db'.liveBalance w env.now = db.liveBalance w env.now - drawn taken
  owed : db'.openOwed w = db.openOwed w - drawn taken
  done : db'.openOwed w = 0 ∨ db'.liveBalance w env.now = 0
  /-- The debts that are drawn on come first, and all but the last are drawn on in full. -/
  oldest : taken.map Prod.fst <+: (db.openDebts w).map Prod.fst
  full : taken.dropLast <+: asked (db.openDebts w)
  collected : ∀ k n, (k, n) ∈ taken → ∃ debt, db.debts.get? k = some debt ∧ 0 < n ∧
    n ≤ debt.creditsOutstanding ∧ db'.debts.get? k = some (debt.collect env.now n)
  others : ∀ k, k ∉ taken.map Prod.fst → db'.debts.get? k = db.debts.get? k
  sound : (∀ k debt, db.debts.get? k = some debt → debt.Sound) →
    ∀ k debt, db'.debts.get? k = some debt → debt.Sound
  /-- One row for each debt that is drawn on. -/
  rows : ∃ rows : List Transaction, db'.transactions = rows.foldl Table.insert db.transactions ∧
    List.Forall₂ (Transaction.Settles w) taken rows ∧
    (rows.map Transaction.creditsDelta).sum = -min (db.openOwed w) (db.liveBalance w env.now)

/-- Settlement rows take off what was drawn. -/
theorem settles_sum {taken : List (ℕ × ℤ)} {rows : List Transaction}
    (h : List.Forall₂ (Transaction.Settles w) taken rows) :
    (rows.map Transaction.creditsDelta).sum = -drawn taken := by
  induction h with
  | nil => rfl
  | cons hrow _ ih =>
    rw [List.map_cons, List.sum_cons, drawn_cons, ih, hrow.delta]
    omega

/-- **Settling is complete and oldest first**, on every wallet. -/
theorem settleDebts_settled_all (w : ℕ) (db : Db) : ∃ n db' taken,
    settleDebts env w db = .ok (n, db') ∧ Settled env w taken db db' := by
  obtain ⟨n, db', hok, hn, hlive, hdebts, rows, hrows, hsettles⟩ :=
    @settleEach_collects env w db _ (openDebts_collectable db)
  have hpos : ∀ p ∈ asked (db.openDebts w), 0 < p.2 := by
    intro p hp
    obtain ⟨r, hr, rfl⟩ := List.mem_map.mp hp
    exact (mem_openDebts.mp hr).2.2.2
  have hasked : drawn (asked (db.openDebts w)) = db.openOwed w := by
    unfold drawn asked Db.openOwed
    rw [List.map_map]
    rfl
  have hkeys : (asked (db.openDebts w)).map Prod.fst = (db.openDebts w).map Prod.fst := by
    unfold asked
    rw [List.map_map]
    rfl
  have hnodup : ((draw (db.liveBalance w env.now) (asked (db.openDebts w))).map Prod.fst).Nodup :=
    draw_nodup (hkeys ▸ openDebts_nodup db)
  have htotal : drawn (draw (db.liveBalance w env.now) (asked (db.openDebts w))) =
      min (db.openOwed w) (db.liveBalance w env.now) := by
    rw [drawn_draw (liveBalance_nonneg db w env.now) fun p hp => (hpos p hp).le, hasked, min_comm]
  obtain ⟨holdest, hfull⟩ := draw_prefix (db.liveBalance w env.now) _ hpos
  -- each debt drawn on is open, and gives no more than it is short of
  have hdrawn : ∀ k m, (k, m) ∈ draw (db.liveBalance w env.now) (asked (db.openDebts w)) →
      ∃ debt, db.debts.get? k = some debt ∧ debt.wallet = w ∧ debt.Open ∧ 0 < m ∧
        m ≤ debt.creditsOutstanding := by
    intro k m hkm
    obtain ⟨hm, held, hmem, hle⟩ := draw_mem hkm
    obtain ⟨r, hr, he⟩ := List.mem_map.mp hmem
    obtain ⟨rfl, rfl⟩ := Prod.mk.inj he
    obtain ⟨hget, hw, hopen⟩ := mem_openDebts.mp hr
    exact ⟨r.2, hget, hw, hopen, hm, hle⟩
  -- so what is owed falls by just what was drawn
  have howed : db'.openOwed w = db.openOwed w - drawn (draw (db.liveBalance w env.now)
      (asked (db.openDebts w))) := by
    rw [openOwed_sum, openOwed_sum, hdebts]
    refine Table.sum_drain hnodup fun k m hkm => ?_
    obtain ⟨debt, hget, hw, hopen, -, hle⟩ := hdrawn k m hkm
    refine ⟨debt, hget, ?_⟩
    have howes := CreditDebt.collect_owes hopen hle env.now
    have hwallet : (debt.collect env.now m).wallet = w := hw
    have hwas : (if debt.wallet = w ∧ debt.Open then debt.creditsOutstanding else 0) =
        debt.creditsOutstanding := if_pos ⟨hw, hopen⟩
    rw [hwas, ← howes]
    exact if_congr (and_iff_right hwallet) rfl rfl
  subst hn
  refine ⟨_, db', _, hok,
    { total := htotal
      live := hlive
      owed := howed
      done := ?_
      oldest := hkeys ▸ holdest
      full := hfull
      collected := fun k m hkm => ?_
      others := fun k hk => ?_
      sound := fun hsound k debt hk => ?_
      rows := ⟨rows, hrows, hsettles, by rw [settles_sum hsettles, htotal]⟩ }⟩
  · rw [howed, hlive, htotal]
    omega
  · obtain ⟨debt, hget, -, -, hm, hle⟩ := hdrawn k m hkm
    refine ⟨debt, hget, hm, hle, ?_⟩
    rw [hdebts, Table.get?_drain_of_mem hnodup hkm, hget]
    rfl
  · rw [hdebts, Table.get?_drain_of_not_mem hk]
  · rw [hdebts] at hk
    obtain ⟨was, hwas, hcase⟩ := Table.get?_drain hnodup hk
    rcases hcase with rfl | ⟨m, hkm, rfl⟩
    · exact hsound k _ hwas
    · obtain ⟨debt', hget, -, hopen, hm, hle⟩ := hdrawn k m hkm
      obtain rfl := Option.some.inj (hwas.symm.trans hget)
      exact (hsound k _ hwas).collect hopen hm hle env.now

end Walk

/-! ## The credit -/

/-- No ledger row stands under the key of a credit. -/
def CreditArgs.Fresh (env : Env) (args : CreditArgs) (db : Db) : Prop :=
  existingCall env (lockWallet args.user db).1 args.idempotencyKey (lockWallet args.user db).2 = none

/-- **Debt settlement is complete and oldest first.**  A credit that settles debts does what one
that does not would do, and then collects the open debts out of what is live with the new lot. -/
theorem settlement_complete (env : Env) (db : Db) (args : CreditArgs) (hpos : 0 < args.credits)
    (halive : ¬ dueAt env.now args.expiresAt) (hfresh : args.Fresh env db)
    (hsettle : args.settleDebts = true) : ∃ txn granted db' taken,
      credit env { args with settleDebts := false } db = .ok (txn, granted) ∧
      granted.debts = db.debts ∧
      credit env args db = .ok (txn, db') ∧
      Settled env (lockWallet args.user db).1 taken granted db' := by
  unfold CreditArgs.Fresh at hfresh
  have hdebts : (lockWallet args.user db).2.debts = db.debts := by
    rcases hlock : lockWallet args.user db with ⟨w, db₁⟩
    rcases lockWallet_cases hlock with ⟨rfl, -⟩ | ⟨-, rfl, -⟩
    · rfl
    · rfl
  rcases hlock : lockWallet args.user db with ⟨w, db₁⟩
  rw [hlock] at hfresh hdebts
  obtain ⟨n, db', taken, hok, hsettled⟩ := @settleDebts_settled_all env w
    (grant env w args (db₁.swept env w))
  refine ⟨(db₁.swept env w).transactions.next, grant env w args (db₁.swept env w), db', taken, ?_, ?_,
    ?_, hsettled⟩
  · unfold credit
    rw [if_neg (by show ¬ args.credits ≤ 0; omega), if_neg halive]
    dsimp only at hfresh ⊢
    rw [hlock]
    dsimp only
    rw [hfresh]
    rfl
  · exact (expireDueLots_frame db₁).2.trans hdebts
  · unfold credit
    rw [if_neg (by omega), if_neg halive, hlock]
    dsimp only at hfresh ⊢
    rw [hfresh]
    dsimp only
    rw [if_pos hsettle]
    unfold Db.swept at hok
    rw [hok]
    rfl

/-- Two debts, of which the one recorded second is the older, and credits that have expired. -/
def twoDebts : Db :=
  { users := [1]
    wallets := Table.empty.insert
      { user := some 1
        balance := 70 }
    lots := Table.empty.insert
      { wallet := 0
        source := .subscription
        creditsInitial := 70
        creditsRemaining := 70
        expiresAt := some 3
        createdAt := 0
        uuid := 0 }
    debts := (Table.empty.insert
      { wallet := 0
        creditsInitial := 50
        creditsOutstanding := 50
        reason := .partialDebit
        type := .adjustment
        createdAt := 2
        uuid := 0 }).insert
      { wallet := 0
        creditsInitial := 30
        creditsOutstanding := 30
        reason := .partialDebit
        type := .adjustment
        createdAt := 1
        uuid := 1 } }

/-- Forty credits arrive. -/
def topUpForty : CreditArgs :=
  { user := 1
    credits := 40
    type := .creditPurchase
    source := .purchase
    idempotencyKey := "topup" }

/-- Forty credits meet two debts and credits that no sweep has reached. -/
theorem settlement_complete_twoDebts : ∃ txn granted db' taken,
    credit (Env.plain 5) { topUpForty with settleDebts := false } twoDebts = .ok (txn, granted) ∧
      granted.debts = twoDebts.debts ∧
      credit (Env.plain 5) topUpForty twoDebts = .ok (txn, db') ∧
      Settled (Env.plain 5) 0 taken granted db' :=
  settlement_complete (Env.plain 5) twoDebts topUpForty (by decide) (by decide) rfl rfl

end StapelBilling
